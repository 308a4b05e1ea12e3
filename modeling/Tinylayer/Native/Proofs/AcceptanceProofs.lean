import Tinylayer.Client.Proofs.ConsensusProofs
import Tinylayer.Native.Cli
import Tinylayer.Native.Proofs.CoreProofs
import Tinylayer.Native.Proofs.HonestProofs
import Tinylayer.Wallet.Proofs.HistoryProofs
import Tinylayer.Wallet.Proofs.TransferProofs

/-!
# Proofs: what a receiver has made sure of

A transfer is accepted after the chain backend was asked about the funding. If the backend is
truthful, the coin was funded then, and nobody can recover it for as many blocks as the receiver
wants for a reaction.
-/

namespace Tinylayer

open Durable Inquiry

variable {P : Platform}

/-! ## Accepting a transfer -/

section Accept

variable {E M : Type} [Preorder M] {services : Services P E} {clock : E → M} {config : Config}
  {c : Command P} {w : CliWorld P E}

/-- The result of a part of a command, whatever it does on the way. -/
abbrev Results {α : Type} (services : Services P E) (c : Command P)
    (post : α → CliWorld P E → Prop) (x : Cli P α) (w : CliWorld P E) : Prop :=
  Safe services Contract.free c post x w

theorem call_results {query : Query P} {post : query.Answer → CliWorld P E → Prop}
    (h : ∀ answer e, services w.env query (.ok answer) e →
      post answer (w.asked c query (.ok answer) e)) :
    Results services c post (call query) w := by
  have hquestion : Results services c (fun reply v => services w.env query reply v.env ∧
      v = w.asked c query reply v.env) (Program.question query) w :=
    Safe.question trivial fun reply e hreply _ => ⟨hreply, rfl⟩
  refine hquestion.bind fun reply v hreply => Safe.of fun answer hanswer => ?_
  subst hanswer
  rw [hreply.2]
  exact h answer v.env hreply.1

/-- What is loaded is what is saved. -/
theorem loadNative_results :
    Results services c (fun native v => native = w.saved ∧ v = w) (loadNative config) w :=
  Safe.saved_bind (Safe.of_bind fun _ _ => Safe.pure ⟨rfl, rfl⟩)

theorem save_results {wallet : WalletState P} :
    Results services c (fun _ v => v.saved.wallet = wallet ∧ v.env = w.env)
      (save config wallet) w := by
  refine Safe.of_bind fun _ _ => Safe.bind loadNative_results fun native v hv => ?_
  obtain ⟨rfl, rfl⟩ := hv
  exact Safe.replace trivial fun _ => ⟨rfl, rfl⟩

/-- Time has passed, and nothing was saved. -/
structure Waited (clock : E → M) (w v : CliWorld P E) : Prop where
  saved : v.saved = w.saved
  clock : clock w.env ≤ clock v.env

theorem Waited.trans {u v : CliWorld P E} (h : Waited clock w v) (h' : Waited clock v u) :
    Waited clock w u := ⟨h'.saved.trans h.saved, le_trans h.clock h'.clock⟩

variable (hclock : ∀ {e query reply e'}, services e query reply e' → clock e ≤ clock e')
include hclock

theorem call_waits {query : Query P} :
    Results services c (fun answer v => Waited clock w v ∧ services w.env query (.ok answer) v.env)
      (call query) w :=
  call_results fun _ _ hanswer => ⟨⟨rfl, hclock hanswer⟩, hanswer⟩

theorem connectVerified_waits :
    Results services c (fun _ v => Waited clock w v) (connectVerified config) w :=
  Safe.of_bind fun _ _ => (call_waits @hclock).mono fun _ _ h => h.1

theorem connectChain_waits :
    Results services c (fun _ v => Waited clock w v) (connectChain config) w :=
  Safe.of_bind fun _ _ => (call_waits @hclock).mono fun _ _ h => h.1

/-- A receiver without a coin accepts what it has checked against the enclave and the chain. -/
theorem acceptTransfer_results {reader : PayloadReader P} {request : TransferRequest}
    {envelope : TransferEnvelope} (hcoin : w.saved.wallet.coin = none) :
    Results services c (fun _ v => ∃ coin incoming payload status observation e e',
        v.saved.wallet.coin = some coin ∧ coin.metadata = some payload.metadata ∧
        coin.history = payload.history ∧
        WalletState.Acceptable payload config.network request incoming status
          (DetailedFundingObservation.funding observation) config.minConfirmations
          config.minReactionBlocks ∧
        services e (.observeFunding payload.metadata) (.ok observation) e' ∧
        clock w.env ≤ clock e ∧ clock e' ≤ clock v.env)
      (acceptTransfer reader config request envelope) w := by
  refine Safe.of_bind fun _ _ => Safe.of_bind fun _ _ => ?_
  refine Safe.bind loadNative_results fun native v hv => ?_
  obtain ⟨rfl, rfl⟩ := hv
  dsimp only
  split
  · rename_i hsome
    rw [hcoin] at hsome
    cases hsome
  · refine Safe.of_bind fun payload hpayload => ?_
    simp only [Except.bind_eq_ok, Except.context_eq_ok] at hpayload
    obtain ⟨saved, hsaved, hdecrypt⟩ := hpayload
    refine (connectVerified_waits @hclock).bind fun _ v₁ h₁ => ?_
    refine (call_waits @hclock).bind fun status v₂ h₂ => ?_
    refine (connectChain_waits @hclock).bind fun _ v₃ h₃ => ?_
    refine (call_waits @hclock).bind fun observation v₄ h₄ => ?_
    have hbefore := (h₁.trans h₂.1).trans h₃
    refine Safe.of_bind fun accepted haccept => ?_
    obtain ⟨accepted, wallet⟩ := accepted
    rw [Update.attempt_eq_ok] at haccept
    obtain ⟨-, -, ⟨_, hsome, -⟩ | ⟨-, coin, hcoin', -, rfl⟩⟩ := WalletState.acceptTransfer_ok.1 haccept
    · rw [hcoin] at hsome
      cases hsome
    · obtain ⟨-, incoming, found, hincoming, -, hfound, hacceptable, rfl⟩ :=
        WalletState.acceptCoin_eq_ok.1 hcoin'
      cases hsaved.symm.trans hincoming
      cases hdecrypt.symm.trans hfound
      refine Safe.of_bind fun _ _ => save_results.bind fun _ v₅ h₅ => ?_
      refine Safe.of_bind fun _ _ => Safe.of_bind fun _ _ => Safe.pure ?_
      have hend : clock v₄.env ≤ clock v₅.env := by rw [h₅.2]
      exact ⟨_, saved, payload, status, observation, v₃.env, v₄.env,
        congrArg WalletState.coin h₅.1, rfl, rfl, hacceptable, h₄.2, hbefore.clock, hend⟩

end Accept

/-- If everything is answered, and the checks of the wallet succeed, the transfer is accepted. -/
theorem acceptTransfer_reaches {E : Type} {oracle : E → (query : Query P) → query.Reply × E}
    {config : Config} {c : Command P} {w : CliWorld P E} {reader : PayloadReader P}
    {request : TransferRequest} {envelope : TransferEnvelope} {status : CoinStatus P}
    {funding : ObservedFunding P} {wallet : WalletState P} (hsupported : config.Supported)
    (htransport : config.network = .regtest ∨ config.enclave.isProduction = true)
    (hvalid : w.saved.validate config.network = .ok ()) (hexit : w.saved.exit = none)
    (hcoin : w.saved.wallet.coin = none)
    (haccept : WalletState.acceptTransfer reader config.network request envelope status funding
      config.minConfirmations config.minReactionBlocks w.saved.wallet = .ok true wallet)
    (henclave : ∀ e, (oracle e .connectEnclave).1 = .ok ())
    (hstatus : ∀ e coinId, (oracle e (.status coinId)).1 = .ok status)
    (hchain : ∀ e, (oracle e .connectChain).1 = .ok ())
    (hobserved : ∀ e metadata coin, wallet.coin = some coin → coin.metadata = some metadata →
      ∃ observed, (oracle e (.observeFunding metadata)).1 = .ok observed ∧
        observed.funding = funding) :
    Reaches (answering oracle) c (fun _ v => v.saved = w.saved.withWallet wallet)
      (acceptTransfer reader config request envelope) w := by
  obtain ⟨hversion, hrequest, ⟨_, _, _, _, hfalse, _⟩ | ⟨-, coin, haccepted, -, hwallet⟩⟩ :=
    WalletState.acceptTransfer_ok.1 haccept
  · cases hfalse
  have hpayload := WalletState.acceptCoin_eq_ok.1 haccepted
  obtain ⟨-, incoming, payload, hincoming, rfl, hdecrypt, hacceptable, hsame⟩ := hpayload
  refine Reaches.of_bind hrequest (Reaches.of_bind (a := ()) ?_ ?_)
  · exact Except.ensure_eq_ok.2 hsupported.1
  have hload : Reaches (answering oracle) c (fun native v => native = w.saved ∧ v = w)
      (loadNative config) w := loadNative_reaches hvalid ⟨rfl, rfl⟩
  refine Reaches.bind hload ?_
  rintro native v ⟨hnative, hv⟩
  subst hnative hv
  dsimp only
  rw [hcoin]
  refine Reaches.of_bind (a := payload) ?_ ?_
  · simp only [Except.bind_eq_ok, Except.context_eq_ok]
    exact ⟨incoming, hincoming, hdecrypt⟩
  have hconnect : Reaches (answering oracle) c (fun _ u => u.saved = v.saved)
      (connectVerified config) v := by
    refine Reaches.of_bind (a := ()) ?_ (call_reaches (henclave v.env) rfl)
    simp only [Except.bind_eq_ok, Except.ensure_eq_ok, exists_unit]
    exact ⟨hsupported.1, htransport⟩
  refine Reaches.bind hconnect fun _ v₁ h₁ => ?_
  have hlive : Reaches (answering oracle) c (fun answer u => answer = status ∧ u.saved = v.saved)
      (call (.status payload.metadata.keys.coinId)) v₁ :=
    call_reaches (hstatus v₁.env _) ⟨rfl, h₁⟩
  refine Reaches.bind hlive ?_
  rintro answer v₂ ⟨hanswer, h₂⟩
  subst hanswer
  have hconnect' : Reaches (answering oracle) c (fun _ u => u.saved = v.saved)
      (connectChain config) v₂ := connectChain_reaches hsupported (hchain v₂.env) h₂
  refine Reaches.bind hconnect' fun _ v₃ h₃ => ?_
  obtain ⟨observed, hreply, hfunding⟩ := hobserved v₃.env payload.metadata coin
    (by rw [hwallet]) (by rw [← hsame]; rfl)
  have hobserve : Reaches (answering oracle) c (fun found u => found = observed ∧
      u.saved = v.saved) (call (.observeFunding payload.metadata)) v₃ :=
    call_reaches hreply ⟨rfl, h₃⟩
  refine Reaches.bind hobserve ?_
  rintro found v₄ ⟨hfound, h₄⟩
  subst hfound
  refine Reaches.of_bind (a := (true, wallet)) ?_ ?_
  · rw [Update.attempt_eq_ok, hfunding]
    exact haccept
  refine Reaches.of_bind (a := ()) (Except.ensure_eq_ok.2 rfl) ?_
  have hsave : Reaches (answering oracle) c (fun _ u => u.saved = v.saved.withWallet wallet)
      (save config wallet) v₄ := by
    rw [← h₄] at hvalid hexit ⊢
    refine save_reaches hvalid ?_ rfl
    obtain ⟨_, hformat, -⟩ := Except.bind_eq_ok.1 hversion
    rw [hwallet, ← hsame]
    exact Except.bind_eq_ok.2 ⟨(), hformat, Except.ensure_eq_ok.2 rfl⟩
  refine Reaches.bind hsave fun _ v₅ h₅ => ?_
  refine Reaches.of_bind (a := coin) (Except.context_eq_ok.2 (by rw [hwallet])) ?_
  refine Reaches.of_bind (a := ()) (Except.ensure_eq_ok.2 ?_) (Reaches.pure h₅)
  obtain ⟨latest, withdrawal, hlatest, -⟩ := hacceptable.withdrawal
  rw [← hsame]
  rintro (hnil : payload.history = [])
  rw [hnil] at hlatest
  cases hlatest

/-! ## With a truthful chain -/

section Truthful

variable {B : ChainPlatform P} {blocks : Blocks B} {M F : Type} [Preorder M]
  {history : M → Ledger.View blocks} {services : Services P (F × M)}

/-- The chain backend asks a truthful explorer, or a truthful node. -/
inductive TruthfulChain (history : M → Ledger.View blocks) : Services P (F × M) → Prop
  | explorer (self : Explorer) (others : Services P F) :
      TruthfulChain history (serve self.answer (truthfulExplorer history) others)
  | core (self : Core) (others : Services P F) :
      TruthfulChain history (serve self.answer (truthfulCore history) others)

theorem TruthfulChain.clock (h : TruthfulChain history services) {e e' : F × M} {query : Query P}
    {reply : query.Reply} (hreply : services e query reply e') : e.2 ≤ e'.2 := by
  cases h with
  | explorer self others => exact serve_le truthfulExplorer_movesOn hreply
  | core self others => exact serve_le truthfulCore_movesOn hreply

/-- A funding that is reported as unspent was seen so. -/
theorem TruthfulChain.fundingSeen (h : TruthfulChain history services) (hids : DistinctIds history)
    {e e' : F × M} {metadata : CoinMetadata P} {observed : DetailedFundingObservation P}
    (hreply : services e (.observeFunding metadata) (.ok observed) e')
    (hunspent : observed.funding.unspent = true) :
    FundingSeen history e.2 e'.2 metadata observed := by
  cases h with
  | explorer self others => exact Explorer.observeFunding_ends hids (serve_ends rfl hreply)
  | core self others => exact Core.observeFunding_ends (serve_ends rfl hreply) hunspent

/-- If the chain backend is truthful, a funding that it has verified was seen as it is reported, and
it was unspent after that. -/
theorem verified_funding_seen (h : TruthfulChain history services) (hids : DistinctIds history)
    {e e' : F × M} {metadata : CoinMetadata P} {minimumConfirmations : Nat}
    {observed : FundingObservation}
    (hreply : services e (.verifyFunding metadata minimumConfirmations) (.ok observed) e') :
    minimumConfirmations ≤ observed.confirmations ∧ ∃ detailed,
      FundingSeen history e.2 e'.2 metadata detailed ∧ detailed.funding.unspent = true ∧
      detailed.tipHeight = observed.tipHeight ∧
      detailed.funding.confirmations = observed.confirmations := by
  cases h with
  | explorer self others => exact Explorer.verifyFunding_ends hids (serve_ends rfl hreply)
  | core self others => exact Core.verifyFunding_ends (serve_ends rfl hreply)

/-- The funding of a coin at the time of its acceptance, with the recoveries that the receiver got:
the funding output is in a block of the best chain, deep enough, and unspent; and no recovery is
admitted in the next `margin` blocks, if the rules can read the keys of the coin. -/
structure TimelyCoin (rules : Consensus P) (history : M → Ledger.View blocks) (t t' : M)
    (minimumConfirmations margin : Nat) (metadata : CoinMetadata P)
    (recoveries : List (SignedRecovery P)) : Prop where
  nonempty : recoveries ≠ []
  verified : ∀ recovery ∈ recoveries, VerifiedRecovery metadata recovery
  funded : ∃ transaction height hash tipHeight s u v, t ≤ s ∧ s ≤ u ∧ u ≤ v ∧ v ≤ t' ∧
    Makes transaction metadata.outpoint metadata.fundingOutput ∧
    (history s).Holds height hash transaction ∧ (history u).tip = tipHeight ∧
    (history v).Holds height hash transaction ∧ SeenUnspent history v t' metadata.outpoint ∧
    height + minimumConfirmations ≤ tipHeight + 1 ∧
    (rules.ReadsKey metadata.keys.clientPubkey → rules.ReadsKey metadata.keys.enclavePubkey →
      ∀ recovery ∈ recoveries, ∀ block medianTime, block ≤ tipHeight + 1 + margin →
        ¬ rules.Admits recovery.transaction 0 [metadata.fundingOutput] height block medianTime)

theorem TimelyCoin.mono {rules : Consensus P} {t₀ t t' t₁ : M} {minimumConfirmations margin : Nat}
    {metadata : CoinMetadata P} {recoveries : List (SignedRecovery P)}
    (h : TimelyCoin rules history t t' minimumConfirmations margin metadata recoveries)
    (hstart : t₀ ≤ t) (hend : t' ≤ t₁) :
    TimelyCoin rules history t₀ t₁ minimumConfirmations margin metadata recoveries := by
  obtain ⟨transaction, height, hash, tipHeight, s, u, v, after, later, last, before, hmakes, hfirst,
    htip, hstill, hunspent, hrest⟩ := h.funded
  exact ⟨h.nonempty, h.verified, transaction, height, hash, tipHeight, s, u, v,
    le_trans hstart after, later, last, le_trans before hend, hmakes, hfirst, htip, hstill,
    hunspent.mono (le_refl v) hend, hrest⟩

/-- What the receiver has checked, for a funding that was seen. -/
theorem FundingSeen.timely {rules : Consensus P} (hrules : rules.Laws) (htaproot : P.TaprootLaws)
    {t t' : M} {metadata : CoinMetadata P} {observed : DetailedFundingObservation P}
    (h : FundingSeen history t t' metadata observed) (hunspent : observed.funding.unspent = true)
    {minimumConfirmations margin : Nat} (hminimum : 0 < minimumConfirmations)
    (hdeep : minimumConfirmations ≤ observed.funding.confirmations)
    {recoveries : List (SignedRecovery P)} {latest : SignedRecovery P}
    (hlatest : recoveries.getLast? = some latest)
    (hhistory : VerifiedHistory metadata observed.funding.confirmations recoveries)
    (hmargin : observed.funding.confirmations + margin < latest.delayBlocks) :
    TimelyCoin rules history t t' minimumConfirmations margin metadata recoveries := by
  obtain ⟨transaction, s, hmakes, -, -, hs, hseen, hspent⟩ := h.seen
  rw [h.output] at hmakes
  have hne : recoveries ≠ [] := by
    rintro rfl
    cases hlatest
  refine ⟨hne, hhistory.recoveries, ?_⟩
  obtain ⟨confirmations, hconfirmations⟩ :
      ∃ confirmations, observed.funding.confirmations = confirmations := ⟨_, rfl⟩
  rw [hconfirmations] at hseen hdeep hmargin
  cases hseen with
  | waiting => omega
  | confirmed after later last before first htip still below =>
    refine ⟨transaction, _, _, _, _, _, _, after, later, last, le_trans before hs, hmakes, first,
      htip, still, (hspent hunspent).mono before (le_refl t'), by omega, ?_⟩
    intro hclient henclave recovery hrecovery block medianTime hblock hadmits
    rw [(hhistory.recoveries recovery hrecovery).admits_iff hrules htaproot hclient henclave]
      at hadmits
    have hdelay : latest.delayBlocks ≤ recovery.delayBlocks := by
      rcases hhistory.ladder.latest hlatest recovery hrecovery with rfl | hlt
      · exact le_refl _
      · exact hlt.le
    omega

/-- If the chain backend is truthful, then whenever a receiver accepts a transfer, the coin was funded
during the call, as deep as the receiver wants it (at least one block: `Config.validateInitial`), and
nothing had spent it; and none of its recoveries is admitted within the margin that the receiver and
its request ask for. -/
theorem accepted_transfer_timely {rules : Consensus P} (hrules : rules.Laws)
    (htaproot : P.TaprootLaws) (hids : DistinctIds history)
    (hservices : TruthfulChain history services) {config : Config}
    (hminimum : 0 < config.minConfirmations) {reader : PayloadReader P} {request : TransferRequest}
    {envelope : TransferEnvelope} {c : Command P} {w v : CliWorld P (F × M)} {report : Report P}
    (hcoin : w.saved.wallet.coin = none)
    (hsteps : Steps services c (w, acceptTransfer reader config request envelope)
      (v, .done (.ok report))) :
    ∃ coin metadata, v.saved.wallet.coin = some coin ∧ coin.metadata = some metadata ∧
      TimelyCoin rules history w.env.2 v.env.2 config.minConfirmations
        (max config.minReactionBlocks request.minReactionBlocks) metadata coin.history := by
  have hclock : ∀ {e query reply e'}, services e query reply e' → e.2 ≤ e'.2 := hservices.clock
  obtain ⟨coin, incoming, payload, status, observation, e, e', hsaved, hmetadata, hhistory,
      hacceptable, hreply, hstart, hend⟩ :=
    (acceptTransfer_results @hclock hcoin).result hsteps
  refine ⟨coin, payload.metadata, hsaved, hmetadata, ?_⟩
  obtain ⟨latest, withdrawal, hlatest, -, -, hverified, hmargin⟩ := hacceptable.withdrawal
  obtain ⟨-, -, -, hverified, -⟩ := verifyHistory_eq_ok.1 hverified
  have hfunding := hacceptable.funding
  simp only [verifyObservedFunding, verifyObservedFundingOutput, Except.bind_eq_ok,
    Except.ensure_eq_ok, exists_unit, Client.lift_eq_ok] at hfunding
  obtain ⟨⟨-, -, hdeep, -⟩, hunspent⟩ := hfunding
  have hseen := hservices.fundingSeen hids hreply hunspent
  rw [hhistory]
  exact (hseen.timely hrules htaproot hunspent hminimum hdeep hlatest hverified
    (requireReactionMargin_eq_ok.1 hmargin).2).mono hstart hend

end Truthful

section Bob

open Symbolic WalletState

/-- The transaction that funded the coin. -/
def coinFunding : platform.Tx where
  version := 2
  lockTime := 0
  input := [⟨deposit.outpoint, [], 0xffffffff, []⟩]
  output := [{ value := 1000, scriptPubkey := fundingScript fundedMetadata.keys }]

/-- A chain with the funding in its second block. -/
def fundedLedger : Ledger.View (oneBlocks (P := platform)
    (fun key network => ⟨network, platform.newP2trTweaked key⟩) coinFunding) :=
  oneTransaction _ coinFunding 5

/-- An explorer of this chain, and an enclave that shows a coin. -/
def shownLive (live : CoinStatus platform) (_ : Unit) : (query : Query platform) → query.Reply × Unit
  | .connectEnclave => (.ok (), ())
  | .status _ => (.ok live, ())
  | _ => (.error "connection refused", ())

theorem observeFunding_fundedLedger (t : Nat) :
    (eval (HonestExplorer.server (fun _ => fundedLedger) fun _ => .unsent "connection refused")
      (Explorer.observeFunding ⟨.regtest⟩ fundedMetadata) t).1 =
    .ok { funding := seen 5, tipHeight := 5, spendingTxid := none, spendingConfirmed := false } := rfl

/-- An honest explorer verifies the funding. -/
theorem verified_funding_seen_funded : ∃ detailed,
    FundingSeen (fun _ : Nat => fundedLedger) 0 5 fundedMetadata detailed ∧
      detailed.funding.unspent = true ∧ detailed.tipHeight = 5 ∧
      detailed.funding.confirmations = 5 := by
  have hends := ends_eval (HonestExplorer.server_truthful (fun _ => fundedLedger)
    fun _ => .unsent "connection refused") (Explorer.verifyFunding ⟨.regtest⟩ fundedMetadata 3) 0
  have heval : eval (HonestExplorer.server (fun _ => fundedLedger) fun _ => .unsent "connection refused")
      (Explorer.verifyFunding ⟨.regtest⟩ fundedMetadata 3) 0 =
      (.ok { tipHeight := 5, confirmations := 5 }, 5) := rfl
  rw [heval] at hends
  have hreply : serve (Explorer.answer ⟨.regtest⟩) (truthfulExplorer fun _ : Nat => fundedLedger)
      (fun _ _ _ _ => False) ((), 0) (.verifyFunding fundedMetadata 3)
      (.ok { tipHeight := 5, confirmations := 5 }) ((), 5) := Or.inl ⟨_, rfl, rfl, hends⟩
  exact (verified_funding_seen (.explorer ⟨.regtest⟩ _)
    (@distinctIds_oneTransaction platform _ coinFunding 4) hreply).2

/-- The receiver can accept what the sender has completed. -/
theorem accepts_received : ∃ envelope live r, WalletState.acceptTransfer writtenReader .regtest
    received.request envelope live (seen 5) 1 20 (empty.run receiving) = .ok true r ∧
    ∃ coin, r.coin = some coin ∧ coin.metadata = some fundedMetadata ∧ coin.history.length = 2 := by
  obtain ⟨coin, s₁, s₂, envelope, s₃, hbegun, hrecord, hcomplete⟩ := completeTransfer_broadcasting
  have hmargin : 5 + max 20 10 < 90 := by decide
  obtain ⟨_, haccept⟩ := acceptTransfer_broadcasting hbegun hrecord hcomplete hmargin
  have hlength : (coin.history ++ [secondRecovery]).length = 2 := by
    rw [hbegun.history]
    rfl
  exact ⟨envelope, _, _, haccept, _, rfl, rfl, hlength⟩

/-- A receiver with a truthful explorer accepts the transfer, and the keys of the coin can be read. -/
theorem accepted_transfer_timely_received :
    ∃ (w v : CliWorld platform (Unit × Nat)) (coin : WalletCoin platform),
      w.saved.wallet.coin = none ∧ v.saved.wallet.coin = some coin ∧ coin.history.length = 2 ∧
      symbolicRules.ReadsKey fundedMetadata.keys.clientPubkey ∧
      symbolicRules.ReadsKey fundedMetadata.keys.enclavePubkey ∧
      TimelyCoin symbolicRules (fun _ : Nat => fundedLedger) w.env.2 v.env.2 1 20 fundedMetadata
        coin.history := by
  obtain ⟨envelope, live, r, haccept, coin, hcoin, hmetadata, hlength⟩ := accepts_received
  have hr := WalletInv.reachable secretCodec receiving
  have hempty : (empty.run receiving).coin = none := (hr.incoming _ incoming_receiving).1
  obtain ⟨w, hw⟩ : ∃ w : CliWorld platform (Unit × Nat), w =
    { saved := .new (bytes 7) (empty.run receiving), env := ((), 0), log := [] } := ⟨_, rfl⟩
  have hreaches : Reaches (answering (serveBy (Explorer.answer ⟨.regtest⟩)
      (HonestExplorer.server (fun _ => fundedLedger) fun _ => .unsent "connection refused")
      (shownLive live))) (Command.accept received.request envelope)
      (fun _ v => v.saved.wallet.coin = some coin)
      (acceptTransfer writtenReader freshConfig received.request envelope) w := by
    subst hw
    refine Reaches.mono (acceptTransfer_reaches ⟨by decide, Or.inl rfl⟩ (Or.inl rfl) ?_ rfl hempty
      haccept (fun _ => rfl) (fun _ _ => rfl) (fun _ => rfl) ?_) fun _ v hv => ?_
    · exact NativeWalletState.validate_eq_ok.2 ⟨rfl, hr.validateVersion, rfl, rfl⟩
    · intro e metadata coin' hcoin' hmetadata'
      cases hcoin.symm.trans hcoin'
      cases hmetadata.symm.trans hmetadata'
      exact ⟨_, observeFunding_fundedLedger e.2, rfl⟩
    · rw [hv]
      exact hcoin
  obtain ⟨report, v, hsteps, hreceived⟩ := hreaches
  have hservices : TruthfulChain (fun _ : Nat => fundedLedger) (serve (Explorer.answer ⟨.regtest⟩)
      (truthfulExplorer fun _ => fundedLedger) (answering (shownLive live))) := .explorer _ _
  obtain ⟨served, hanswers⟩ : ∃ served, served = serveBy (Explorer.answer ⟨.regtest⟩)
    (HonestExplorer.server (fun _ => fundedLedger) fun _ => .unsent "connection refused")
    (shownLive live) := ⟨_, rfl⟩
  rw [← hanswers] at hsteps
  have hserved : ∀ {e query reply e'}, answering served e query reply e' →
      serve (Explorer.answer ⟨.regtest⟩) (truthfulExplorer fun _ => fundedLedger)
        (answering (shownLive live)) e query reply e' := by
    intro e query reply e' hreply
    have hserve : serve (Explorer.answer ⟨.regtest⟩) (truthfulExplorer fun _ => fundedLedger)
        (answering (shownLive live)) e query (served e query).1 (served e query).2 := by
      rw [hanswers]
      exact serve_serveBy (HonestExplorer.server_truthful (fun _ => fundedLedger)
        fun _ => .unsent "connection refused") (fun _ _ => rfl) e query
    rwa [hreply] at hserve
  have hminimum : 0 < freshConfig.minConfirmations := Config.minConfirmations_pos (by decide)
  obtain ⟨coin', metadata, hsaved, hmetadata', htimely⟩ :=
    @accepted_transfer_timely platform _ _ Nat Unit _ (fun _ => fundedLedger) _ symbolicRules
      symbolicRules_laws taprootLaws (@distinctIds_oneTransaction platform _ coinFunding 4) hservices
      freshConfig hminimum _ _ _ _ _ _ _ (by subst hw; exact hempty) (Steps.mono hserved hsteps)
  cases hreceived.symm.trans hsaved
  cases hmetadata.symm.trans hmetadata'
  exact ⟨w, v, coin, by subst hw; exact hempty, hsaved, hlength,
    symbolicRules_readsKey (bytes 2).toList_length, symbolicRules_readsKey (bytes 9).toList_length,
    htimely⟩

end Bob

end Tinylayer
