import Tinylayer.Native.ChainView
import Tinylayer.Native.Proofs.PackageProofs
import Tinylayer.Native.Proofs.ReachesProofs

/-!
# A secured recovery without the enclave

An exit asks nothing of the enclave, so that a coin can be exited whatever the enclave does; but a
pending operation, which only the enclave can finish, keeps the exit from starting.
-/

namespace Tinylayer

open Durable

variable {P : Platform} {E : Type} {oracle : E → (query : Query P) → query.Reply × E}
  {view : E → Prop} {reader : PayloadReader P} {config : Config} {c : Command P}
  {w : CliWorld P E}

/-! ## Commands against a chain -/

/-- The saved state is the same, and the chain still shows what it showed. -/
structure StillShown (view : E → Prop) (w v : CliWorld P E) : Prop where
  saved : v.saved = w.saved
  view : view v.env

theorem StillShown.trans {w v u : CliWorld P E} (h : StillShown view w v) (h' : StillShown view v u) :
    StillShown view w u := ⟨h'.saved.trans h.saved, h'.view⟩

/-! ## An exit against such a chain -/

section Exit

variable {metadata : CoinMetadata P} {recovery : SignedRecovery P} {key : P.SecretKey}
  {coin : WalletCoin P} {journal : ExitJournal P} {policy : ExitPolicy}

theorem NativeWalletState.validate_withExit {s : NativeWalletState P} {network : NetworkId}
    (hvalid : s.validate network = .ok ()) (hcoin : s.wallet.coin = some coin)
    (hnetwork : journal.package.network = network) (hjournal : journal.validate coin = .ok ()) :
    (s.withExit journal).validate network = .ok () := by
  obtain ⟨hformat, hversion, _, hsweep⟩ := validate_eq_ok.1 hvalid
  refine validate_eq_ok.2 ⟨hformat, hversion, ?_, hsweep⟩
  simp only [validateExit, withExit_exit, withExit_wallet, Except.bind_eq_ok, Except.ensure_eq_ok,
    exists_unit, Except.context_eq_ok]
  exact ⟨hnetwork, coin, hcoin, hjournal⟩

theorem FundingUnspent.held (hview : FundingUnspent oracle view metadata recovery)
    (hw : view w.env) {query : Query P} (hquery : ¬ query.Submits) {reply : query.Reply} :
    StillShown view w (w.asked c query reply (oracle w.env query).2) :=
  ⟨rfl, hview.stays w.env query hw hquery⟩

theorem observeExitFunding_reaches (hview : FundingUnspent oracle view metadata recovery)
    (hw : view w.env) (hverified : VerifiedRecovery metadata recovery)
    {exit : Option (ExitJournal P)} :
    Reaches (answering oracle) c (fun observation v => StillShown view w v ∧
      observation.funding.unspent = true ∧
      verifyObservedFundingOutput metadata observation.funding 1 = .ok () ∧
      recovery.delayBlocks ≤ observation.funding.confirmations)
      (observeExitFunding config metadata coin exit) w := by
  obtain ⟨observed, hobserved, houtpoint, houtput, hunspent, hdeep, hmature⟩ :=
    hview.unspent w.env hw
  have hdelay := hverified.terms.delay_ne_zero
  unfold observeExitFunding
  have hcall : Reaches (answering oracle) c
      (fun observation v => observation = observed ∧ StillShown view w v)
      (call (.observeFunding metadata)) w :=
    call_reaches hobserved ⟨rfl, hview.held hw id⟩
  refine Reaches.bind hcall ?_
  rintro observation v ⟨hsame, hheld⟩
  subst hsame
  rw [if_neg (by simp [hunspent])]
  refine Reaches.pure ⟨hheld, hunspent, ?_, hdeep⟩
  simp only [verifyObservedFundingOutput, verifyFundingUtxo, Except.bind_eq_ok,
    Except.ensure_eq_ok, exists_unit, Client.lift_eq_ok, CoinMetadata.validate_eq_ok]
  exact ⟨houtpoint, ⟨hverified.keys, houtpoint, houtput⟩, by omega, hmature⟩

/-- The chain shows neither the parent nor the child of a package for the recovery. -/
theorem observeExitPackage_reaches (hview : FundingUnspent oracle view metadata recovery)
    (hw : view w.env) (hstage : journal.stage = .prepared)
    (hparent : metadata.outpoint ∈ spentOutputs journal.package.parent)
    (hchild : ⟨P.computeTxid recovery.transaction, 0⟩ ∈ spentOutputs journal.package.child) :
    Reaches (answering oracle) c (fun presence v => StillShown view w v ∧
      presence = { parent := false, complete := false })
      (observeExitPackage config journal coin) w := by
  have hlookup : ∀ {v : CliWorld P E} (transaction : P.Tx), view v.env →
      metadata.outpoint ∈ spentOutputs transaction ∨
        ⟨P.computeTxid recovery.transaction, 0⟩ ∈ spentOutputs transaction →
      Reaches (answering oracle) c (fun observed u => observed = none ∧ StillShown view v u)
        (observeExitTransaction config journal transaction) v := by
    intro v transaction hv hspends
    unfold observeExitTransaction
    have hcall : Reaches (answering oracle) c (fun observed u => observed = none ∧
        StillShown view v u) (call (.transaction (P.computeTxid transaction))) v :=
      call_reaches (hview.unseen v.env transaction hv hspends) ⟨rfl, hview.held hv id⟩
    refine Reaches.bind hcall ?_
    rintro observed u ⟨hnone, hu⟩
    rw [if_neg (by simp [hstage])]
    exact Reaches.pure ⟨hnone, hu⟩
  unfold observeExitPackage
  refine Reaches.bind (hlookup journal.package.child hw (Or.inr hchild)) ?_
  rintro child v ⟨hnone, hv⟩
  subst hnone
  refine Reaches.bind (hlookup journal.package.parent hv.view (Or.inl hparent)) ?_
  rintro parent u ⟨hnone, hu⟩
  subst hnone
  have himplied : impliedParent config journal none none = none := by simp [impliedParent]
  rw [himplied]
  exact Reaches.of_bind rfl (Reaches.pure ⟨hv.trans hu, rfl⟩)

/-- What the arguments of an exit need to be. -/
structure ExitReady (config : Config) (coin : WalletCoin P) (metadata : CoinMetadata P)
    (recovery : SignedRecovery P) (key : P.SecretKey) (policy : ExitPolicy) (address : P.Address)
    (feeRateSatVb fee : Nat) : Prop where
  owned : ownedRecovery coin config.network = .ok (metadata, recovery, key)
  destination : policy.destination = P.addressToString address
  network : P.addressOnNetwork address config.network = true
  rate : policy.feeRate = some feeRateSatVb
  positive : 0 < feeRateSatVb
  fee_eq : fee = feeRateSatVb * (P.vsize recovery.transaction + P.vsize
    (exitChild recovery.transaction metadata.amountSat (P.addressScript address)
      [List.replicate 64 0]))
  pays : fee + P.minimalNonDust (P.addressScript address) ≤ metadata.amountSat
  max : fee ≤ policy.maxFeeSat

/-- A prepared exit with these arguments. -/
structure PreparedFor (config : Config) (coin : WalletCoin P) (policy : ExitPolicy)
    (journal : ExitJournal P) : Prop where
  stage : journal.stage = .prepared
  network : journal.package.network = config.network
  valid : journal.validate coin = .ok ()
  policy : policy.Matches journal.package

variable {address : P.Address} {feeRateSatVb fee : Nat}

theorem prepareExit_reaches (hschnorr : P.SchnorrCorrect) (hsighash : P.SighashDefined)
    (haddress : P.AddressCodec)
    (hready : ExitReady config coin metadata recovery key policy address feeRateSatVb fee)
    (hw : NativeInv config w.saved) (hview : view w.env) (hcoin : w.saved.wallet.coin = some coin)
    (hexit : ∀ exit ∈ w.saved.exit, exit.stage = .prepared) {confirmations : Nat}
    (hfinal : recovery.delayBlocks ≤ confirmations) :
    Reaches (answering oracle) c (fun journal v => v.saved = w.saved.withExit journal ∧
      view v.env ∧ PreparedFor config coin policy journal)
      (prepareExit config w.saved coin policy confirmations) w := by
  unfold prepareExit
  split
  · rename_i journal hjournal
    obtain ⟨hsaved, hkept⟩ := Option.filter_eq_some_iff.1 hjournal
    have hstage := hexit journal hsaved
    have hmatches : policy.Matches journal.package := by
      simpa [hstage] using hkept
    obtain ⟨coin', hcoin', hnetwork, hvalid⟩ := hw.exit_valid hsaved
    obtain rfl := Option.some.inj (hcoin'.symm.trans hcoin)
    exact Reaches.pure ⟨(NativeWalletState.withExit_of_saved hsaved).symm, hview, hstage, hnetwork,
      hvalid, hmatches⟩
  · obtain ⟨journal, hprepare, hvalid, hstage, hnetwork, hdestination, hrate, hmax⟩ :=
      ExitJournal.prepare_of_affordable hschnorr hsighash haddress hready.owned hready.network
        hready.positive hfinal hready.fee_eq hready.pays hready.max
    have hsaved := NativeWalletState.validate_withExit hw.valid hcoin hnetwork hvalid
    have hrate' : Reaches (answering oracle) c (fun rate v => rate = feeRateSatVb ∧ v = w)
        (exitFeeRate policy) w := by
      unfold exitFeeRate
      rw [hready.rate]
      exact Reaches.pure ⟨rfl, rfl⟩
    refine Reaches.bind hrate' ?_
    rintro rate v ⟨hsame, hv⟩
    subst hsame hv
    rw [hready.destination]
    refine Reaches.of_bind hprepare ?_
    have hsave : Reaches (answering oracle) c (fun _ u => u.saved = v.saved.withExit journal ∧
        view u.env) (saveNative config (v.saved.withExit journal)) v :=
      saveNative_reaches hsaved ⟨rfl, hview⟩
    refine Reaches.bind hsave ?_
    rintro _ u ⟨hu, hu'⟩
    refine Reaches.pure ⟨hu, hu', hstage, hnetwork, hvalid, ?_⟩
    refine ⟨hdestination.trans hready.destination.symm, hmax, fun rate hrate'' => ?_⟩
    rw [hready.rate] at hrate''
    rw [← Option.some.inj hrate'', hrate]

/-- The saved package is armed, whatever happens to it afterwards. -/
theorem submitExit_passes {native : NativeWalletState P} (hw : NativeInv config w.saved)
    (hsaved : w.saved = native.withExit journal) (hcoin : native.wallet.coin = some coin)
    (hprepared : PreparedFor config coin policy journal) {parent : Bool}
    {goal : CliWorld P E → Prop}
    (hgoal : ∀ v : CliWorld P E, v.saved = native.withExit { journal with stage := .submissionArmed } →
      goal v) :
    Passes (answering oracle) c goal (submitExit config native coin journal parent) w := by
  have harm : journal.armSubmission coin = .ok { journal with stage := .submissionArmed } :=
    ExitJournal.armSubmission_eq_ok.2 ⟨hprepared.valid, rfl⟩
  have hnative : native.withExit { journal with stage := .submissionArmed } =
      w.saved.withExit { journal with stage := .submissionArmed } := by
    rw [hsaved, NativeWalletState.withExit_withExit]
  have hcoin' : w.saved.wallet.coin = some coin := by
    rw [hsaved]
    exact hcoin
  have hvalid : (w.saved.withExit { journal with stage := .submissionArmed }).validate
      config.network = .ok () :=
    NativeWalletState.validate_withExit hw.valid hcoin' hprepared.network hprepared.valid
  rw [← hnative] at hvalid
  have hreaches : Reaches (answering oracle) c (fun _ v => v.saved =
      native.withExit { journal with stage := .submissionArmed })
      (armExit config native coin journal) w := by
    have hsave : Reaches (answering oracle) c (fun _ v => v.saved =
        native.withExit { journal with stage := .submissionArmed })
        (saveNative config (native.withExit { journal with stage := .submissionArmed })) w :=
      saveNative_reaches hvalid rfl
    exact Reaches.of_bind harm (Reaches.bind hsave fun _ v hv => Reaches.pure hv)
  exact (Passes.of_reaches hreaches fun _ v hv => hgoal v hv).left

theorem finishExit_passes (hview : FundingUnspent oracle view metadata recovery)
    (howned : ownedRecovery coin config.network = .ok (metadata, recovery, key))
    {native : NativeWalletState P} (hw : NativeInv config w.saved) (hstill : view w.env)
    (hsaved : w.saved = native.withExit journal) (hcoin : native.wallet.coin = some coin)
    (hprepared : PreparedFor config coin policy journal) {confirmations : Nat}
    (hfinal : recovery.delayBlocks ≤ confirmations) {goal : CliWorld P E → Prop}
    (hgoal : ∀ v : CliWorld P E, v.saved = native.withExit { journal with stage := .submissionArmed } →
      goal v) :
    Passes (answering oracle) c goal
      (finishExit config native coin journal policy confirmations) w := by
  rw [← hprepared.network] at howned
  obtain ⟨_, hdelay, hparent, hchild⟩ := ExitPackage.validate_spent hprepared.valid howned
  have hpolicy : validateSavedExitPolicy coin journal policy = .ok () := by
    simp only [validateSavedExitPolicy, Except.bind_eq_ok, Except.ensure_eq_ok, exists_unit]
    exact ⟨hprepared.valid, hprepared.policy⟩
  refine Passes.of_bind hpolicy ?_
  refine Passes.bind (observeExitPackage_reaches hview hstill hprepared.stage hparent hchild) ?_
  rintro presence v ⟨hv, hpresence⟩
  subst hpresence
  rw [if_neg (by simp)]
  refine Passes.of_bind (a := ()) ?_ ?_
  · rw [Except.ensure_eq_ok, hdelay]
    exact hfinal
  · rw [← hv.saved] at hw hsaved
    exact submitExit_passes hw hsaved hcoin hprepared hgoal

theorem exitCoinJournaled_passes (hschnorr : P.SchnorrCorrect) (hsighash : P.SighashDefined)
    (haddress : P.AddressCodec) (hview : FundingUnspent oracle view metadata recovery)
    (howned : ownedRecovery coin config.network = .ok (metadata, recovery, key))
    {destination : String} {feeRateSatVb maxFeeSat : Nat}
    (haffordable : ExitAffordable config.network metadata recovery destination feeRateSatVb
      maxFeeSat) (hw : NativeInv config w.saved) (hstill : view w.env)
    (hpending : w.saved.wallet.pending = none) (hcoin : w.saved.wallet.coin = some coin)
    (hexit : ∀ exit ∈ w.saved.exit, exit.stage = .prepared) :
    Passes (answering oracle) c (fun v => RecoveryArmed v.saved recovery ∧
        ExitSavedFor v.saved destination feeRateSatVb maxFeeSat)
      (exitCoinJournaled config w.saved destination (some feeRateSatVb) maxFeeSat) w := by
  obtain ⟨address, hparse, hnetwork, hpositive, hpays, hmax⟩ := haffordable
  obtain ⟨hmetadata, _, _, _, _, _, _, _, hverified⟩ := ownedRecovery_eq_ok.1 howned
  have hterms := verifyRecovery_eq_ok.1 hverified
  obtain ⟨policy, hpolicy⟩ : ∃ policy : ExitPolicy, policy = {
    destination := P.addressToString address, feeRate := some feeRateSatVb, maxFeeSat } := ⟨_, rfl⟩
  have hready : ExitReady config coin metadata recovery key policy address feeRateSatVb
      (feeRateSatVb * (P.vsize recovery.transaction + P.vsize (exitChild recovery.transaction
        metadata.amountSat (P.addressScript address) [List.replicate 64 0]))) := by
    rw [hpolicy]
    exact ⟨howned, rfl, hnetwork, rfl, hpositive, rfl, hpays, hmax⟩
  refine Passes.of_bind (parseDestination_eq_ok.2 ⟨hparse, hnetwork⟩) ?_
  simp only [← hpolicy]
  have hconnect : Reaches (answering oracle) c (fun _ v => StillShown view w v)
      (connectChain config) w :=
    connectChain_reaches (hw.network coin hcoin metadata hmetadata).2 (hview.connects w.env hstill)
      (hview.held hstill id)
  refine Passes.bind hconnect fun _ v hv => ?_
  refine Passes.of_bind (a := (coin, metadata)) ?_ ?_
  · simp only [hcoin, hmetadata, Except.bind_eq_ok, Except.context_eq_ok, Option.some.injEq,
      exists_eq_left']
    rfl
  have hresume : Reaches (answering oracle) c (fun report u => report = none ∧ u = v)
      (resumeExit config w.saved policy) v := by
    unfold resumeExit
    have hnone : (w.saved.exit.filter fun journal => journal.stage ≠ .prepared) = none := by
      rw [Option.filter_eq_none_iff]
      intro exit hmem
      simp [hexit exit hmem]
    rw [hnone]
    exact Reaches.pure ⟨rfl, rfl⟩
  refine Passes.bind hresume ?_
  rintro report u ⟨hreport, hu⟩
  subst hreport hu
  refine Passes.bind (observeExitFunding_reaches hview hv.view hterms) ?_
  rintro observation u ⟨hu, hunspent, houtput, hdeep⟩
  refine Passes.of_bind (a := ()) ?_ ?_
  · simp only [verifyExitFunding, hmetadata, Except.bind_eq_ok, Except.context_eq_ok,
      Option.some.injEq, exists_eq_left', houtput, exists_unit, hunspent, if_true]
    trivial
  have hsaved := (hv.trans hu).saved
  rw [← hsaved] at hw hpending hcoin hexit ⊢
  refine Passes.bind (prepareExit_reaches hschnorr hsighash haddress hready hw hu.view hcoin hexit
    hdeep) ?_
  rintro journal t ⟨ht, hshown, hprepared⟩
  have hvalid := NativeWalletState.validate_withExit hw.valid hcoin hprepared.network
    hprepared.valid
  have hinv := hw.withExit hvalid hpending
  rw [← ht] at hinv
  refine finishExit_passes hview howned hinv hshown ?_ ?_ hprepared hdeep fun s hs => ?_
  · rw [ht, NativeWalletState.withExit_withExit]
  · exact hcoin
  rw [hs, NativeWalletState.withExit_withExit]
  have howned' := howned
  rw [← hprepared.network] at howned'
  have hparent := (ExitPackage.validate_spent hprepared.valid howned').1
  obtain ⟨hdestination, hfee, hrate⟩ := hprepared.policy
  rw [hpolicy] at hdestination hfee hrate
  exact ⟨⟨_, rfl, by simp, hparent⟩, _, address, rfl, hparse, hdestination, (hrate _ rfl).symm, hfee⟩

theorem exitCoin_passes (hschnorr : P.SchnorrCorrect) (hsighash : P.SighashDefined)
    (haddress : P.AddressCodec) (hview : FundingUnspent oracle view metadata recovery)
    (howned : ownedRecovery coin config.network = .ok (metadata, recovery, key))
    {destination : String} {feeRateSatVb maxFeeSat : Nat}
    (haffordable : ExitAffordable config.network metadata recovery destination feeRateSatVb
      maxFeeSat) (hw : NativeInv config w.saved) (hstill : view w.env)
    (hpending : w.saved.wallet.pending = none) (hcoin : w.saved.wallet.coin = some coin)
    (hexit : ∀ exit ∈ w.saved.exit, exit.stage = .prepared) :
    Passes (answering oracle) c (fun v => RecoveryArmed v.saved recovery ∧
        ExitSavedFor v.saved destination feeRateSatVb maxFeeSat)
      (exitCoin config destination (some feeRateSatVb) maxFeeSat false) w := by
  obtain ⟨hmetadata, _⟩ := ownedRecovery_eq_ok.1 howned
  have hnetwork := (hw.network coin hcoin metadata hmetadata).2.1
  refine Passes.of_bind (a := ()) ?_ ?_
  · rw [Except.ensure_eq_ok]
    exact hnetwork
  have hload : Reaches (answering oracle) c (fun native v => native = w.saved ∧ v = w)
      (loadNative config) w := loadNative_reaches hw.valid ⟨rfl, rfl⟩
  refine Passes.bind hload ?_
  rintro native v ⟨hnative, hv⟩
  subst hnative hv
  refine Passes.of_bind (a := ()) ?_ ?_
  · rw [Except.ensure_eq_ok, hpending]
    rfl
  · exact exitCoinJournaled_passes hschnorr hsighash haddress hview howned haffordable hw hstill
      hpending hcoin hexit

end Exit

/-! ## With and without a pending operation -/

/-- An exit that was armed before is one with the owned recovery. -/
theorem NativeInv.recoveryArmed {s : NativeWalletState P} (h : NativeInv config s)
    {coin : WalletCoin P} {metadata : CoinMetadata P} {recovery : SignedRecovery P}
    {key : P.SecretKey} (hcoin : s.wallet.coin = some coin)
    (howned : ownedRecovery coin config.network = .ok (metadata, recovery, key))
    {journal : ExitJournal P} (hjournal : s.exit = some journal)
    (hstage : journal.stage ≠ .prepared) : RecoveryArmed s recovery := by
  obtain ⟨coin', hcoin', hnetwork, hvalid⟩ := h.exit_valid hjournal
  obtain rfl := Option.some.inj (hcoin'.symm.trans hcoin)
  rw [← hnetwork] at howned
  exact ⟨journal, hjournal, hstage, (ExitPackage.validate_spent hvalid howned).1⟩

section Pending

variable {s : NativeWalletState P} {services : Services P E} {e : E} {v : CliWorld P E}

/-- With a pending operation the wallet stays as it is, and no exit is saved, if nothing lets a
command change this wallet. -/
theorem kept_of_unchanging (hs : NativeInv config s) (hpending : s.wallet.pending ≠ none)
    (hunchanging : ∀ u, Guarded services (cliContract E config) { saved := s, env := e, log := [] } u →
      u.saved.wallet = s.wallet → ∀ wallet, ¬ WalletChange config u wallet)
    (h : Guarded services (cliContract E config) { saved := s, env := e, log := [] } v) :
    v.saved.wallet = s.wallet ∧ v.saved.exit = none := by
  induction h with
  | refl => exact ⟨rfl, hs.exit_none_of_pending hpending⟩
  | wrote hu _ hwrite ih =>
    obtain ⟨hwallet, hexit⟩ := ih
    obtain ⟨_, _, hchange⟩ := hwrite
    cases hchange with
    | wallet hchanged => exact absurd hchanged (hunchanging _ hu hwallet _)
    | exit _ hidle _ =>
      rw [hwallet] at hidle
      exact absurd hidle hpending
    | sweep _ => exact ⟨hwallet, hexit⟩
  | asked _ _ _ _ ih => exact ih

/-- An operation stays pending for as long as the enclave does not answer. -/
theorem kept_of_silent (hsilent : EnclaveSilent services) (hs : NativeInv config s)
    (hpending : s.wallet.pending ≠ none)
    (h : Guarded services (cliContract E config) { saved := s, env := e, log := [] } v) :
    v.saved.wallet = s.wallet ∧ v.saved.exit = none := by
  refine kept_of_unchanging hs hpending (fun u hu hwallet wallet hchange => ?_) h
  rw [← hwallet] at hpending
  obtain ⟨event, hevent, query, answer, hasked, hquery⟩ :=
    hchange.answered (Or.inl (Option.isSome_iff_ne_none.2 hpending))
  obtain ⟨f, f', hanswer⟩ := hu.answered rfl hevent hasked
  exact hsilent f query f' hquery answer hanswer

/-- A transfer that waits for its signature stays pending for as long as it fails its check, even if
the enclave answers. -/
theorem kept_of_stale {metadata : CoinMetadata P}
    (hstale : TransferStale services (fun _ => True) config s metadata) (hs : NativeInv config s)
    (hmetadata : s.wallet.coin.bind WalletCoin.metadata = some metadata)
    (hprepared : s.wallet.TransferPrepared)
    (h : Guarded services (cliContract E config) { saved := s, env := e, log := [] } v) :
    v.saved.wallet = s.wallet ∧ v.saved.exit = none := by
  have hpending : s.wallet.pending ≠ none := fun hidle =>
    unprepared_of_pending hidle (by simp) hprepared
  refine kept_of_unchanging hs hpending (fun u hu hwallet wallet hchange => ?_) h
  rw [← hwallet] at hprepared
  obtain ⟨metadata', status, observed, hsaved, ⟨first, hfirst, hstatus⟩, ⟨last, hlast, hobserved⟩,
    hvalid⟩ := hchange.checked hprepared
  rw [hwallet] at hsaved hvalid
  obtain rfl := Option.some.inj (hsaved.symm.trans hmetadata)
  obtain ⟨f, f', hstatus⟩ := hu.answered rfl hfirst hstatus
  obtain ⟨g, g', hobserved⟩ := hu.answered rfl hlast hobserved
  exact hstale f g f' g' status observed trivial trivial hstatus hobserved hvalid

end Pending

theorem exitBlocked_of_pending (hsecret : P.SecretCodec) {s : NativeWalletState P}
    {metadata : CoinMetadata P} (hs : NativeInv config s)
    (hmetadata : s.wallet.coin.bind WalletCoin.metadata = some metadata)
    (hpending : s.wallet.pending ≠ none) : ExitBlocked reader config s metadata := by
  intro E services e v hblocked hlife
  have hguarded := hlife.guarded hsecret hs
  have hkept : v.saved.wallet = s.wallet ∧ v.saved.exit = none := by
    rcases hblocked with hsilent | ⟨hprepared, hstale⟩
    · exact kept_of_silent hsilent hs hpending hguarded
    · exact kept_of_stale hstale hs hmetadata hprepared hguarded
  rw [hkept.1]
  exact ⟨hpending, hkept.2⟩

/-- A chain that shows the funding output of every coin as unspent, and as deep as `confirmations`,
and nothing else; and no enclave. -/
def aged (confirmations : Nat) (_ : Unit) : (query : Query P) → query.Reply × Unit
  | .connectChain => (.ok (), ())
  | .observeFunding metadata => (.ok {
      funding := {
        outpoint := metadata.outpoint
        output := { value := metadata.amountSat, scriptPubkey := fundingScript metadata.keys }
        confirmations
        unspent := true
        coinbase := false }
      tipHeight := confirmations
      spendingTxid := none
      spendingConfirmed := false }, ())
  | .transaction _ => (.ok none, ())
  | _ => (.error "connection refused", ())

theorem aged_unspent (metadata : CoinMetadata P) (recovery : SignedRecovery P) :
    FundingUnspent (aged recovery.delayBlocks) (fun _ => True) metadata recovery where
  stays := fun _ _ _ _ => trivial
  connects := fun _ _ => rfl
  unspent := fun _ _ => ⟨_, rfl, rfl, rfl, rfl, le_rfl, Or.inl rfl⟩
  unseen := fun _ _ _ _ => rfl

theorem aged_gone (confirmations : Nat) : EnclaveGone (aged (P := P) confirmations) := by
  intro e query hquery answer hanswer
  cases query <;> first | exact hquery | cases hanswer

section Usable

variable {coin : WalletCoin P} {metadata : CoinMetadata P} {recovery : SignedRecovery P}
  {key : P.SecretKey} {s : NativeWalletState P} {destination : String}
  {feeRateSatVb maxFeeSat : Nat}

theorem staysUsable_of_idle (hschnorr : P.SchnorrCorrect) (hsighash : P.SighashDefined)
    (haddress : P.AddressCodec) (hs : NativeInv config s) (hcoin : s.wallet.coin = some coin)
    (howned : ownedRecovery coin config.network = .ok (metadata, recovery, key))
    (haffordable : ExitAffordable config.network metadata recovery destination feeRateSatVb
      maxFeeSat) (hpending : s.wallet.pending = none) :
    StaysUsable reader config s metadata recovery destination feeRateSatVb maxFeeSat := by
  intro E oracle view e he hview _
  by_cases harmed : ∃ journal, s.exit = some journal ∧ journal.stage ≠ .prepared
  · obtain ⟨journal, hjournal, hstage⟩ := harmed
    exact Or.inl (hs.recoveryArmed hcoin howned hjournal hstage)
  · right
    have hexit : ∀ exit ∈ s.exit, exit.stage = .prepared := by
      intro exit hmem
      by_contra hstage
      exact harmed ⟨exit, hmem, hstage⟩
    exact (Life.refl _).passes (c := .exit destination (some feeRateSatVb) maxFeeSat false)
      (exitCoin_passes hschnorr hsighash haddress hview howned haffordable hs he hpending hcoin
        hexit)

theorem not_staysUsable_of_pending (hsecret : P.SecretCodec) (hs : NativeInv config s)
    (hpending : s.wallet.pending ≠ none) :
    ¬ StaysUsable reader config s metadata recovery destination feeRateSatVb maxFeeSat := by
  intro husable
  rcases husable Unit (aged recovery.delayBlocks) (fun _ => True) () trivial
    (aged_unspent metadata recovery) (Or.inl (aged_gone _)) with harmed | ⟨v, hlife, harmed, _⟩
  · obtain ⟨journal, hjournal, _⟩ := harmed
    rw [hs.exit_none_of_pending hpending] at hjournal
    cases hjournal
  · obtain ⟨journal, hjournal, _⟩ := harmed
    have hsilent : EnclaveSilent (answering (aged (P := P) recovery.delayBlocks)) :=
      fun e query e' hquery answer hanswer =>
        aged_gone _ e query hquery answer (congrArg Prod.fst hanswer)
    obtain ⟨_, hexit⟩ := kept_of_silent hsilent hs hpending (hlife.guarded hsecret hs)
    rw [hexit] at hjournal
    cases hjournal

/-- The secured recovery of a coin can be exited without the enclave, or when the journaled transfer
has become too old, exactly if no operation is pending; a pending one keeps every exit from being
saved until the enclave answers, and a transfer that waits for its signature until it passes its
check. -/
theorem secured_recovery_stays_usable (hsecret : P.SecretCodec) (hschnorr : P.SchnorrCorrect)
    (hsighash : P.SighashDefined) (haddress : P.AddressCodec) {services : Services P E}
    {fundingSecret : P.SecretKey} {v : CliWorld P E} (hw : Initialized config fundingSecret w)
    (h : CliLife services reader config w v) (hcoin : v.saved.wallet.coin = some coin)
    (howned : ownedRecovery coin config.network = .ok (metadata, recovery, key))
    (haffordable : ExitAffordable config.network metadata recovery destination feeRateSatVb
      maxFeeSat) :
    (StaysUsable reader config v.saved metadata recovery destination feeRateSatVb maxFeeSat ↔
      v.saved.wallet.pending = none) ∧
    (v.saved.wallet.pending ≠ none → ExitBlocked reader config v.saved metadata) := by
  have hinv := nativeInv_of_guarded (hw.guarded hsecret h) hw.inv
  refine ⟨⟨?_, ?_⟩, ?_⟩
  · intro husable
    by_contra hpending
    exact not_staysUsable_of_pending hsecret hinv hpending husable
  · intro hpending
    exact staysUsable_of_idle hschnorr hsighash haddress hinv hcoin howned haffordable hpending
  · intro hpending
    have hmetadata : v.saved.wallet.coin.bind WalletCoin.metadata = some metadata := by
      rw [hcoin]
      exact (ownedRecovery_eq_ok.1 howned).1
    exact exitBlocked_of_pending hsecret hinv hmetadata hpending

end Usable

section Alice

open Symbolic WalletState

/-- The owned recovery of the coin can be exited to `aliceAddress` at one satoshi per byte. -/
def OwnsAffordable (s : NativeWalletState platform) : Prop :=
  ∃ coin ∈ s.wallet.coin, ∃ owned ∈ (ownedRecovery coin freshConfig.network).toOption,
    ∃ address ∈ platform.addressFromStr aliceAddress,
    platform.addressOnNetwork address freshConfig.network = true ∧
    platform.vsize owned.2.1.transaction + platform.vsize (exitChild owned.2.1.transaction
      owned.1.amountSat (platform.addressScript address) [List.replicate 64 0]) +
      platform.minimalNonDust (platform.addressScript address) ≤ owned.1.amountSat ∧
    platform.vsize owned.2.1.transaction + platform.vsize (exitChild owned.2.1.transaction
      owned.1.amountSat (platform.addressScript address) [List.replicate 64 0]) ≤ 500

instance (s : NativeWalletState platform) : Decidable (OwnsAffordable s) := by
  unfold OwnsAffordable
  infer_instance

theorem OwnsAffordable.exit {s : NativeWalletState platform} (h : OwnsAffordable s) :
    ∃ coin metadata recovery key, s.wallet.coin = some coin ∧
      ownedRecovery coin freshConfig.network = .ok (metadata, recovery, key) ∧
      ExitAffordable freshConfig.network metadata recovery aliceAddress 1 500 := by
  obtain ⟨coin, hcoin, ⟨metadata, recovery, key⟩, howned, address, hparse, hnetwork, hpays,
    hmax⟩ := h
  refine ⟨coin, metadata, recovery, key, hcoin, ?_, address, hparse, hnetwork, Nat.one_pos, ?_, ?_⟩
  · cases hresult : ownedRecovery coin freshConfig.network with
    | ok owned =>
      rw [hresult] at howned
      exact congrArg _ (Option.some.inj howned)
    | error message =>
      rw [hresult] at howned
      cases howned
  · rw [Nat.one_mul]
    exact hpays
  · rw [Nat.one_mul]
    exact hmax

/-- The answers of the backend, with an enclave that signs nothing once the coin is funded. -/
def signsOnce (backend : Backend platform) :
    (query : Query platform) → query.Reply × Backend platform
  | .sign request =>
    if backend.confirmed = [] then backend.answer aliceDraws (.sign request)
    else (.error "connection refused", backend)
  | query => backend.answer aliceDraws query

/-- The request of another wallet for the coin. -/
def bobRequest : TransferRequest :=
  (incomingTransfer (P := platform) ⟨bytes 20, bytes 5, bytes 22, bytes 23⟩ .regtest (bytes 1)
    ⟨(18 : Nat), 0⟩ 1000 20).request

def aliceSecures : List (Command platform) :=
  [aliceRegisters, .fund ⟨bytes 4, bytes 5⟩ 1000 200 1 500]

def aliceSigns : Command platform := .sign ⟨bytes 24, List.Vector.replicate 24 0⟩ bobRequest

/-- The world after `cs`, with that enclave. -/
def aliceLeft (cs : List (Command platform)) : CliWorld platform (Backend platform) :=
  runAll signsOnce (Command.program aliceReader freshConfig) cs newWorld

theorem cliLife_aliceLeft (cs : List (Command platform)) :
    CliLife (answering signsOnce) aliceReader freshConfig newWorld (aliceLeft cs) :=
  Life.runAll cs newWorld

theorem secured_recovery_stays_usable_secured :
    ∃ metadata recovery, (aliceLeft aliceSecures).saved.wallet.pending = none ∧
      StaysUsable aliceReader freshConfig (aliceLeft aliceSecures).saved metadata recovery
        aliceAddress 1 500 := by
  have hidle : (aliceLeft aliceSecures).saved.wallet.pending = none := by decide +kernel
  have howns : OwnsAffordable (aliceLeft aliceSecures).saved := by decide +kernel
  obtain ⟨coin, metadata, recovery, key, hcoin, howned, haffordable⟩ := howns.exit
  refine ⟨metadata, recovery, hidle, ?_⟩
  exact (secured_recovery_stays_usable secretCodec schnorrCorrect sighashDefined addressCodec
    initialized_newWorld (cliLife_aliceLeft aliceSecures) hcoin howned haffordable).1.2 hidle

/-- A transfer was journaled, and the enclave did not answer: the recovery is secured, and no
commands exit with it while the enclave is silent. -/
theorem secured_recovery_stuck :
    Initialized freshConfig (bytes 7) newWorld ∧
    CliLife (answering signsOnce) aliceReader freshConfig newWorld
      (aliceLeft (aliceSecures ++ [aliceSigns])) ∧
    ∃ coin metadata recovery key,
      (aliceLeft (aliceSecures ++ [aliceSigns])).saved.wallet.coin = some coin ∧
      ownedRecovery coin freshConfig.network = .ok (metadata, recovery, key) ∧
      ExitAffordable freshConfig.network metadata recovery aliceAddress 1 500 ∧
      ¬ StaysUsable aliceReader freshConfig (aliceLeft (aliceSecures ++ [aliceSigns])).saved metadata
        recovery aliceAddress 1 500 := by
  have hlife := cliLife_aliceLeft (aliceSecures ++ [aliceSigns])
  have hinv := nativeInv_of_guarded (initialized_newWorld.guarded secretCodec hlife)
    initialized_newWorld.inv
  have hstate : (aliceLeft (aliceSecures ++ [aliceSigns])).saved.wallet.pending ≠ none ∧
      OwnsAffordable (aliceLeft (aliceSecures ++ [aliceSigns])).saved := by decide +kernel
  obtain ⟨hpending, howns⟩ := hstate
  obtain ⟨coin, metadata, recovery, key, hcoin, howned, haffordable⟩ := howns.exit
  exact ⟨initialized_newWorld, hlife, coin, metadata, recovery, key, hcoin, howned, haffordable,
    not_staysUsable_of_pending secretCodec hinv hpending⟩

end Alice

end Tinylayer
