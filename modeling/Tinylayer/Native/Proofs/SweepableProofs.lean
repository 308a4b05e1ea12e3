import Tinylayer.Native.Proofs.BackendProofs
import Tinylayer.Native.Proofs.SweepChainProofs

/-!
# Deposits without the enclave

A sweep asks nothing of the enclave, so that every deposit that no funding has reserved can be swept
whatever the enclave does: batch by batch, each of them once the one before is confirmed. A deposit
that a funding has reserved waits for the enclave.
-/

namespace Tinylayer

open Durable

variable {P : Platform} {E : Type} {config : Config}

/-! ## Sweep after sweep -/

section Rounds

variable {reader : PayloadReader P} {oracle : E → (query : Query P) → query.Reply × E}
  {view : E → Prop} {unspent listed : E → List (SourceUtxo P)} {taken : E → P.Tx → Prop}
  {waits : E → P.Tx → Nat} {s : NativeWalletState P} {w u : CliWorld P E} {destination : String}
  {feeRateSatVb maxFeeSat : Nat} {address : P.Address} {deposit : SourceUtxo P}

theorem NativeInv.ownSweep {s : NativeWalletState P} (h : NativeInv config s)
    {sweep : SourceSweepJournal P} (hsweep : s.sourceSweep = some sweep) :
    OwnSweep config s sweep := by
  obtain ⟨_, _, _, hvalid⟩ := NativeWalletState.validate_eq_ok.1 h.valid
  simp only [NativeWalletState.validateSweep, hsweep, Except.bind_eq_ok, Except.ensure_eq_ok,
    exists_unit] at hvalid
  exact ⟨hvalid.1, hvalid.2⟩

theorem OwnSweep.canonical {native : NativeWalletState P} {journal : SourceSweepJournal P}
    (h : OwnSweep config native journal) (hcodec : P.AddressCodec)
    (hcanonical : journal.destination = P.addressToString address) :
    0 < journal.feeRateSatVb ∧ P.addressOnNetwork address config.network = true := by
  have hbuild := (SourceSweepJournal.validate_eq_ok.1 h.valid).2
  simp only [buildSourceSweep, Except.bind_eq_ok, Except.ensure_eq_ok, exists_unit,
    Except.context_eq_ok] at hbuild
  obtain ⟨_, _, hrate, parsed, hparsed, hnetwork, _⟩ := hbuild
  rw [hcanonical] at hparsed
  obtain rfl := Option.some.inj ((hcodec.fromStr_toString address).symm.trans hparsed)
  exact ⟨hrate, h.network ▸ hnetwork⟩

/-- If the chain has taken the saved sweep, it leaves all that is unspent. -/
theorem leftBySaved_of_taken {taken : P.Tx → Prop} {deposits : List (SourceUtxo P)}
    (htaken : ∀ sweep ∈ s.sourceSweep, taken sweep.transaction) :
    leftBySaved s taken deposits = deposits := by
  classical
  rw [leftBySaved, List.filter_eq_self]
  intro deposit _
  rw [decide_eq_true_eq]
  exact fun sweep hsweep => Or.inl (htaken sweep hsweep)

theorem leftBySaved_of_untaken {taken : P.Tx → Prop} {deposits : List (SourceUtxo P)}
    {sweep : SourceSweepJournal P} (hsaved : s.sourceSweep = some sweep)
    (huntaken : ¬ taken sweep.transaction) :
    leftBySaved s taken deposits =
      deposits.filter fun deposit => deposit.outpoint ∉ spentOutputs sweep.transaction := by
  refine List.filter_congr fun deposit _ => decide_eq_decide.2 ?_
  rw [hsaved]
  simp [huntaken]

/-- A deposit that is left, on a chain that takes sweeps, and the arguments of a sweep. The wallet
takes the same deposits as in the state `s`. -/
structure Waiting (config : Config) (oracle : E → (query : Query P) → query.Reply × E)
    (view : E → Prop) (unspent listed : E → List (SourceUtxo P)) (taken : E → P.Tx → Prop)
    (waits : E → P.Tx → Nat) (s : NativeWalletState P) (address : P.Address) (feeRateSatVb : Nat)
    (deposit : SourceUtxo P) (w : CliWorld P E) : Prop where
  inv : NativeInv config w.saved
  chain : DepositChain oracle config (sourceFundingAddress w.saved.fundingSecret config.network)
    view unspent listed taken waits
  view : view w.env
  picks : sweepCandidates w.saved = sweepCandidates s
  network : P.addressOnNetwork address config.network = true
  other : P.addressScript address ≠
    P.addressScript (sourceFundingAddress w.saved.fundingSecret config.network)
  rate : 0 < feeRateSatVb
  blocked : ((unspent w.env).filter fun deposit => ¬ Eligible w.saved deposit).length <
    maxSourceUtxoCandidates
  left : deposit ∈ unspent w.env
  eligible : Eligible w.saved deposit

/-- The chain has taken the saved sweep, if there is one. -/
def SavedTaken (config : Config) (taken : E → P.Tx → Prop) (w : CliWorld P E) : Prop :=
  w.saved.sourceSweep = none ∨ ∃ saved, w.saved.sourceSweep = some saved ∧
    OwnSweep config w.saved saved ∧ taken w.env saved.transaction

/-- The next command finds the saved sweep confirmed, if there is one. -/
def SavedConfirmed (config : Config) (oracle : E → (query : Query P) → query.Reply × E)
    (w : CliWorld P E) : Prop :=
  w.saved.sourceSweep = none ∨ ∃ saved, w.saved.sourceSweep = some saved ∧
    OwnSweep config w.saved saved ∧
    ShowsConfirmed oracle config (oracle w.env .connectChain).2 saved.transaction

/-- The deposit was handed to the chain in a sweep. -/
def HandedOver (deposit : SourceUtxo P) (w : CliWorld P E) : Prop :=
  ∃ event ∈ w.log, ∃ transaction, BroadcastsSweep event transaction ∧
    deposit.outpoint ∈ spentOutputs transaction

theorem Waiting.still (h : Waiting config oracle view unspent listed taken waits s address
      feeRateSatVb deposit w) (hstill : StillListed view unspent listed taken waits w u) :
    Waiting config oracle view unspent listed taken waits s address feeRateSatVb deposit u where
  inv := hstill.saved ▸ h.inv
  chain := hstill.saved ▸ h.chain
  view := hstill.view
  picks := hstill.saved ▸ h.picks
  network := h.network
  other := hstill.saved ▸ h.other
  rate := h.rate
  blocked := by
    rw [hstill.saved, hstill.unspent]
    exact h.blocked
  left := hstill.unspent ▸ h.left
  eligible := hstill.saved ▸ h.eligible

/-- A sweep took the deposit, or left it and took others. -/
theorem Waiting.round (h : Waiting config oracle view unspent listed taken waits s address
      feeRateSatVb deposit w) {which : SourceSweepJournal P → Prop}
    (hdone : RoundDone config view unspent taken which w u) (hinv : NativeInv config u.saved) :
    HandedOver deposit u ∨ ∃ journal, which journal ∧ OwnSweep config w.saved journal ∧
      Waiting config oracle view unspent listed taken waits s address feeRateSatVb deposit u ∧
      SavedTaken config taken u ∧ unspent u.env =
        (unspent w.env).filter fun other => other.outpoint ∉ spentOutputs journal.transaction := by
  obtain ⟨journal, hown, hwhich, hswept⟩ := hdone
  by_cases hspent : deposit.outpoint ∈ spentOutputs journal.transaction
  · obtain ⟨event, hevent, hbroadcast⟩ := hswept.event
    exact Or.inl ⟨event, hevent, _, hbroadcast, hspent⟩
  · refine Or.inr ⟨journal, hwhich, hown, ?_, ?_, hswept.unspent⟩
    · refine { inv := hinv, chain := ?_, view := hswept.view, picks := ?_, network := h.network,
               other := ?_, rate := h.rate, blocked := ?_, left := ?_, eligible := ?_ }
      · rw [hswept.saved]
        exact h.chain
      · rw [hswept.saved]
        exact h.picks
      · rw [hswept.saved]
        exact h.other
      · rw [hswept.saved, hswept.unspent]
        exact (List.filter_sublist.filter _).length_le.trans_lt h.blocked
      · rw [hswept.unspent, List.mem_filter]
        exact ⟨h.left, decide_eq_true hspent⟩
      · rw [hswept.saved]
        exact h.eligible
    · rw [SavedTaken, hswept.saved]
      exact Or.inr ⟨_, rfl, ⟨hown.network, hown.valid⟩, hswept.taken⟩

variable (hsecret : P.SecretCodec) (hsize : P.SizeLaws) (hcodec : P.SignatureCodec)
  (haddress : P.AddressP2tr) (hkeypath : P.KeyPathSpend) (hvirtual : P.VirtualSize)
  (hschnorr : P.SchnorrCorrect) (hsighash : P.SighashDefined) (hcodec' : P.AddressCodec)
  (hexplorer : config.chain.isExplorer = true) (hmainnet : config.network ≠ .mainnet)
  (hparse : P.addressFromStr destination = some address)
include hexplorer hmainnet hparse

/-- A sweep that was taken is confirmed at last: by induction on how often the chain has to be asked
for it before. -/
theorem Waiting.confirmed (h : Waiting config oracle view unspent listed taken waits s address
      feeRateSatVb deposit w) (hsaved : SavedTaken config taken w) :
    ∃ v, CliLife (answering oracle) reader config w v ∧
      StillListed view unspent listed taken waits w v ∧ SavedConfirmed config oracle v := by
  have hrefl : StillListed view unspent listed taken waits w w :=
    ⟨rfl, h.view, rfl, rfl, fun _ htaken => ⟨htaken, le_rfl⟩⟩
  rcases hsaved with hnone | ⟨saved, hsaved, hown, htaken⟩
  · exact ⟨w, Life.refl w, hrefl, Or.inl hnone⟩
  obtain ⟨count, hcount⟩ : ∃ count, count = waits w.env saved.transaction := ⟨_, rfl⟩
  induction count using Nat.strong_induction_on generalizing w with
  | _ count ih =>
    obtain ⟨hview, _, _, hlater⟩ := h.chain.stays w.env .connectChain h.view id
    obtain ⟨htaken', hle⟩ := hlater _ htaken
    rcases h.chain.confirms _ _ hview htaken' with hshows | hless
    · exact ⟨w, Life.refl w, hrefl, Or.inr ⟨saved, hsaved, hown, hshows⟩⟩
    · have hbegin : CliLife (answering oracle) reader config w w := Life.refl w
      obtain ⟨u, hlife, hstill, henv⟩ := Life.passes hbegin
        (sourceSweep_passes_asked (c := .sweep destination feeRateSatVb 0) h.chain hexplorer
          hmainnet h.inv.valid h.view h.rate hparse h.network hsaved)
      have hwaiting := h.still hstill
      have hcount' : waits u.env saved.transaction < count := by
        rw [henv, hcount]
        exact hless.trans_le hle
      obtain ⟨v, hlife', hstill', hconfirmed⟩ := ih _ hcount' hwaiting
        ⟨rfl, hwaiting.view, rfl, rfl, fun _ htaken => ⟨htaken, le_rfl⟩⟩ (hstill.saved ▸ hsaved)
        (hstill.saved ▸ hown) (hstill.taken _ htaken).1 rfl
      exact ⟨v, hlife.trans hlife', hstill.trans hstill', hconfirmed⟩

include hsecret hsize hcodec haddress hkeypath hvirtual hschnorr hsighash hcodec'

/-- By induction on the sweeps up to the one that takes the deposit. -/
theorem Waiting.handedOver {deposits : List (SourceUtxo P)}
    (hpays : SweepsPay s deposit (P.addressScript address) feeRateSatVb maxFeeSat deposits)
    (h : Waiting config oracle view unspent listed taken waits s address feeRateSatVb deposit w)
    (hsaved : SavedTaken config taken w) (hdeposits : unspent w.env = deposits) :
    ∃ v, CliLife (answering oracle) reader config w v ∧ HandedOver deposit v := by
  induction hpays generalizing w with
  | done habsent => exact absurd (hdeposits ▸ h.left) habsent
  | @sweep deposits pays _ ih =>
    obtain ⟨v, hlife, hstill, hconfirmed⟩ : ∃ v, CliLife (answering oracle) reader config w v ∧
        StillListed view unspent listed taken waits w v ∧ SavedConfirmed config oracle v :=
      h.confirmed hexplorer hmainnet hparse hsaved
    have hwaiting := h.still hstill
    have hlisting : Listing deposits (listed v.env) := by
      rw [← hdeposits, ← hstill.unspent]
      exact hwaiting.chain.listed v.env hwaiting.view
    have hplan : SweepPlan config v.saved (listed v.env)
        ⟨P.addressToString address, feeRateSatVb, maxFeeSat⟩ address :=
      ⟨rfl, hwaiting.network, hwaiting.other, hwaiting.rate, hwaiting.picks ▸ pays _ hlisting⟩
    have hsome := exists_eligible (hwaiting.chain.listed v.env hwaiting.view) hwaiting.blocked
      hwaiting.left hwaiting.eligible
    have hpasses := sourceSweep_passes_next hwaiting.chain hexplorer hmainnet hwaiting.inv.valid
      hwaiting.view hsize hcodec haddress hkeypath hvirtual hschnorr hsighash hcodec' hconfirmed
      hparse hplan hsome
    obtain ⟨u, hlife', hdone⟩ := Life.passes hlife hpasses
    have hinv := nativeInv_of_guarded (CliLife.guarded hsecret hlife' h.inv) h.inv
    rcases hwaiting.round hdone hinv with hover | ⟨journal, hpicked, hown, hnext, htaken, hunspent⟩
    · exact ⟨u, hlife', hover⟩
    · have hleft : unspent u.env = deposits.filter fun other =>
          other.outpoint ∉ (sweepCandidates s (listed v.env)).map SourceUtxo.outpoint := by
        rw [hunspent, hstill.unspent, hdeposits, ← hwaiting.picks]
        exact List.filter_congr fun other _ =>
          decide_eq_decide.2 (not_congr (hpicked.mem_spent hown))
      obtain ⟨t, hlife'', hover⟩ := ih _ hlisting hnext htaken hleft
      exact ⟨t, hlife'.trans hlife'', hover⟩

/-- A saved sweep is finished first. -/
theorem Waiting.handedOver_resumable
    (hpays : SweepsPay s deposit (P.addressScript address) feeRateSatVb maxFeeSat
      (leftBySaved w.saved (taken w.env) (unspent w.env)))
    (h : Waiting config oracle view unspent listed taken waits s address feeRateSatVb deposit w)
    (hcanonical : ∀ sweep ∈ w.saved.sourceSweep, ∃ address,
      sweep.destination = P.addressToString address)
    (hresumable : SweepResumable (listed w.env) (taken w.env) w.saved) :
    ∃ v, CliLife (answering oracle) reader config w v ∧ HandedOver deposit v := by
  by_cases htaken : ∀ sweep ∈ w.saved.sourceSweep, taken w.env sweep.transaction
  · rw [leftBySaved_of_taken htaken] at hpays
    refine Waiting.handedOver hsecret hsize hcodec haddress hkeypath hvirtual hschnorr hsighash
      hcodec' hexplorer hmainnet hparse hpays h ?_ rfl
    cases hsaved : w.saved.sourceSweep with
    | none => exact Or.inl hsaved
    | some saved => exact Or.inr ⟨saved, hsaved, h.inv.ownSweep hsaved, htaken saved hsaved⟩
  · push Not at htaken
    obtain ⟨saved, hsaved, huntaken⟩ := htaken
    have hown := h.inv.ownSweep hsaved
    have hsources := (hresumable saved hsaved).resolve_left huntaken
    obtain ⟨payee, hpayee⟩ := hcanonical saved hsaved
    obtain ⟨hrate, hnetwork⟩ := hown.canonical hcodec' hpayee
    have hparse' : P.addressFromStr saved.destination = some payee := by
      rw [hpayee]
      exact hcodec'.fromStr_toString payee
    have hpasses := sourceSweep_passes_saved h.chain hexplorer hmainnet h.inv.valid h.view hsize
      hcodec haddress hkeypath hsaved hown hsources hparse' hpayee hnetwork hrate
    have hrefl : CliLife (answering oracle) reader config w w := Life.refl w
    obtain ⟨u, hlife, hdone⟩ := Life.passes hrefl hpasses
    have hinv := nativeInv_of_guarded (CliLife.guarded hsecret hlife h.inv) h.inv
    rcases h.round hdone hinv with hover | ⟨journal, hsame, _, hnext, htaken, hunspent⟩
    · exact ⟨u, hlife, hover⟩
    · rw [leftBySaved_of_untaken hsaved huntaken, ← hsame] at hpays
      obtain ⟨v, hlife', hover⟩ := Waiting.handedOver hsecret hsize hcodec haddress hkeypath
        hvirtual hschnorr hsighash hcodec' hexplorer hmainnet hparse hpays hnext htaken hunspent
      exact ⟨v, hlife.trans hlife', hover⟩

end Rounds

/-! ## A funding without the enclave -/

section Reserved

variable {services : Services P E} {reader : PayloadReader P} {fundingSecret : P.SecretKey}
  {w v : CliWorld P E}

/-- The destination of the saved sweep is in its canonical spelling. -/
theorem canonical_of_guarded (h : Guarded services (cliContract E config) w v)
    (hw : w.saved.sourceSweep = none) :
    ∀ sweep ∈ v.saved.sourceSweep, ∃ address, sweep.destination = P.addressToString address := by
  refine h.keeps (fun u => ∀ sweep ∈ u.saved.sourceSweep, ∃ address,
    sweep.destination = P.addressToString address) ?_ ?_ ?_
  · rw [hw]
    simp
  · rintro u c state _ ⟨_, _, hchange⟩ hu sweep hsweep
    cases hchange with
    | wallet => exact hu sweep hsweep
    | exit => exact hu sweep hsweep
    | sweep hstep =>
      obtain rfl := Option.some.inj hsweep
      obtain ⟨saved, hsaved⟩ : ∃ saved, u.saved.sourceSweep = saved := ⟨_, rfl⟩
      rw [hsaved] at hstep
      cases hstep with
      | prepare _ _ _ hdestination => exact hdestination
      | arm =>
        have hbefore := hu _ hsaved
        exact hbefore
      | observe =>
        have hbefore := hu _ hsaved
        exact hbefore
  · exact fun u c query reply e _ _ _ hu => hu

/-- As long as its recovery is not secured, no command submits a funding, nor anything else that
spends its deposit. -/
theorem reservedKept_of_prepared (hsecret : P.SecretCodec) {s : NativeWalletState P}
    (hs : NativeInv config s) (hstage : s.wallet.fundingStage = some .prepared)
    (hpending : s.wallet.pending ≠ none) : ReservedKept reader config s := by
  intro E services e v hsilent hlife event hevent
  obtain ⟨before, after, hlog⟩ := List.append_of_mem hevent
  obtain ⟨u, hu, hinv, _, _, hallows⟩ := (hlife.guarded hsecret hs).allows rfl hlog
  obtain ⟨hwallet, hexit⟩ := kept_of_silent hsilent hs hpending hu
  have hunsecured : ∀ transaction, ¬ FundingSecured u.saved transaction := by
    rintro transaction ⟨funding, hfunding, hsecured, _⟩
    rw [hwallet] at hfunding
    rw [WalletState.fundingStage_eq, hfunding] at hstage
    exact hsecured (Option.some.inj hstage)
  have hunarmed : ∀ maxFeeSat package, ¬ ExitArmed u.saved maxFeeSat package := by
    rintro maxFeeSat package ⟨harmed, _⟩
    rw [hexit] at harmed
    cases harmed
  refine ⟨fun parentHex childHex hasked => ?_, ?_⟩
  · have hpermitted : Permitted _ _ _ := hallows.of_asked hasked
    cases hc : event.command with
    | exit =>
      simp only [hc, Permitted] at hpermitted
      obtain ⟨package, harmed, _⟩ := hpermitted
      exact hunarmed _ _ harmed
    | _ =>
      rw [hc] at hpermitted
      exact hpermitted
  · rintro transaction (⟨metadata, hasked⟩ | hasked) input hinput
    · have hpermitted : Permitted _ _ _ := hallows.of_asked hasked
      cases hc : event.command with
      | fund =>
        simp only [hc, Permitted] at hpermitted
        exact absurd hpermitted (hunsecured _)
      | _ =>
        rw [hc] at hpermitted
        exact hpermitted.elim
    · have hpermitted : Permitted _ _ _ := hallows.of_asked hasked
      cases hc : event.command with
      | fund =>
        simp only [hc, Permitted] at hpermitted
        exact absurd hpermitted (hunsecured _)
      | sweep =>
        simp only [hc, Permitted] at hpermitted
        obtain ⟨sweep, hsweep, _, rfl⟩ := hpermitted
        refine hinv.reserved sweep hsweep input ?_
        rw [NativeWalletState.fundingInputs, hwallet]
        exact hinput
      | exit =>
        simp only [hc, Permitted] at hpermitted
        obtain ⟨package, harmed, _⟩ := hpermitted
        exact absurd harmed (hunarmed _ _)
      | _ =>
        rw [hc] at hpermitted
        exact hpermitted.elim

end Reserved

section Alice

open Symbolic

/-- A second deposit of the key 7. -/
def otherDeposit : SourceUtxo exactPlatform := { exactDeposit with
  outpoint := ⟨(41 : Nat), 0⟩
  output := { value := 1500, scriptPubkey := 0x51 :: 1 :: (bytes 7).toList } }

/-- A third one, which is worth less than what its sweep would cost. -/
def dustDeposit : SourceUtxo exactPlatform := { otherDeposit with
  outpoint := ⟨(42 : Nat), 0⟩
  output := { value := 10, scriptPubkey := 0x51 :: 1 :: (bytes 7).toList } }

/-- The enclave and the chain; the enclave was restarted. -/
def restarted : Backend exactPlatform where
  signer := .new
  running := true
  deposits := [exactDeposit, otherDeposit, dustDeposit]
  confirmed := []

/-- The answers of the backend, with an enclave that signs nothing. -/
def neverSigns (backend : Backend exactPlatform) :
    (query : Query exactPlatform) → query.Reply × Backend exactPlatform
  | .sign _ => (.error "connection refused", backend)
  | query => backend.answer ⟨bytes 9, bytes 11⟩ query

def exactWorld : CliWorld exactPlatform (Backend exactPlatform) where
  saved := .new (bytes 7) .empty
  env := restarted
  log := []

def exactReader : PayloadReader exactPlatform := ⟨fun _ => none⟩

/-- A funding was journaled, but its recovery was not signed. -/
def exactReserved : CliWorld exactPlatform (Backend exactPlatform) :=
  runAll neverSigns (Command.program exactReader freshConfig)
    [.register ⟨bytes 2, bytes 3, bytes 1⟩, .fund ⟨bytes 4, bytes 5⟩ 1000 100 1 500] exactWorld

theorem cliLife_exactReserved :
    CliLife (answering neverSigns) exactReader freshConfig exactWorld exactReserved :=
  Life.runAll _ exactWorld

/-- The funding waits for its recovery, and has reserved the larger deposit. -/
theorem exactReserved_state :
    exactReserved.saved.wallet.fundingStage = some .prepared ∧
    exactReserved.saved.fundingInputs = [exactDeposit.outpoint] ∧
    exactReserved.saved.sourceSweep.isNone = true ∧
    (exactPlatform.secretBytes exactReserved.saved.fundingSecret : Bytes32) = bytes 7 := by
  decide +kernel

theorem sound_restarted :
    Backend.Sound (sourceFundingAddress (P := exactPlatform) (bytes 7) .regtest) restarted where
  length_le := by decide
  distinct := by decide
  deposits := by
    intro deposit hdeposit
    simp only [restarted, List.mem_cons, List.not_mem_nil, or_false] at hdeposit
    rcases hdeposit with rfl | rfl | rfl
    · exact ⟨by decide, by decide, rfl⟩
    · exact ⟨by decide, by decide, rfl⟩
    · exact ⟨by decide, by decide, rfl⟩
  money := by decide
  confirmed := by decide

/-- A sweep takes the deposits that are not reserved, however they are listed. -/
theorem sweepCandidates_restarted {s : NativeWalletState exactPlatform}
    (hinputs : s.fundingInputs = [exactDeposit.outpoint]) {listed : List (SourceUtxo exactPlatform)}
    (hlisting : Listing restarted.unspent listed) :
    (sweepCandidates s listed).Perm [otherDeposit, dustDeposit] := by
  obtain ⟨hsub, hlength⟩ := hlisting
  have hperm : listed.Perm restarted.unspent := hsub.perm_of_length_le hlength.ge
  have hfilter := hperm.filter fun source =>
    source.coinbase = false ∧ source.outpoint ∉ s.fundingInputs
  rw [hinputs] at hfilter
  have hkept : restarted.unspent.filter (fun source => source.coinbase = false ∧
      source.outpoint ∉ [exactDeposit.outpoint]) = [otherDeposit, dustDeposit] := by decide
  rw [hkept] at hfilter
  have hsorted := (List.perm_insertionSort SourceUtxo.sweepLe _).trans hfilter
  rw [sweepCandidates, hinputs, List.take_of_length_le (hsorted.length_eq.trans_le (by decide))]
  exact hsorted

/-- The sweep of the other deposit pays for the dust as well. -/
theorem affordable_restarted {s : NativeWalletState exactPlatform}
    (hsecret : s.fundingSecret = bytes 7) (hinputs : s.fundingInputs = [exactDeposit.outpoint]) :
    SweepAffordable .regtest s otherDeposit restarted.unspent SourceSweepJournal.sweepAddress 1
      500 := by
  refine ⟨⟨.regtest, 0x51 :: 1 :: (bytes 30).toList⟩, exactAddressCodec.fromStr_toString _, rfl, ?_,
    Nat.one_pos, .sweep (fun listed hlisting => ⟨?_, ?_, ?_⟩) fun listed hlisting => .done ?_⟩
  · rw [hsecret]
    decide
  · change 4 * 111 ≤ 400000
    decide
  · change 1 * 111 ≤ 500
    decide
  · rw [((sweepCandidates_restarted hinputs hlisting).map _).sum_eq]
    change 1 * 111 + 330 ≤ 1500 + 10
    decide
  · intro hleft
    have hunpicked := of_decide_eq_true (List.mem_filter.1 hleft).2
    refine hunpicked (List.mem_map_of_mem ?_)
    exact (sweepCandidates_restarted hinputs hlisting).mem_iff.2 List.mem_cons_self

end Alice

end Tinylayer
