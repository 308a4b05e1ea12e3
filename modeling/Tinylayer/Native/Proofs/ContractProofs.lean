import Tinylayer.Native.Proofs.AdvanceProofs
import Tinylayer.Wallet.Proofs.SweepProofs

/-!
# Rules for commands

When a change of the saved state is within the contract, and what the parts that all commands share
do: connecting, loading and saving.
-/

namespace Tinylayer

open Durable

variable {P : Platform} {E : Type} {config : Config}

/-! ## The invariant of the saved state -/

namespace NativeWalletState

theorem validate_eq_ok {s : NativeWalletState P} {network : NetworkId} {u : Unit} :
    s.validate network = .ok u ↔ s.formatVersion = nativeStateFormatVersion ∧
      s.wallet.validateVersion = .ok () ∧ s.validateExit network = .ok () ∧
      s.validateSweep network = .ok () := by
  simp [validate]

theorem mem_fundingInputs {s : NativeWalletState P} {input : OutPoint P.Txid} :
    input ∈ s.fundingInputs ↔
      ∃ funding ∈ s.wallet.funding, input ∈ spentOutputs funding.transaction := by
  unfold fundingInputs
  rw [← WalletState.funding]
  cases s.wallet.funding with
  | none => simp
  | some funding => simp

@[simp] theorem withWallet_wallet (s : NativeWalletState P) (wallet : WalletState P) :
    (s.withWallet wallet).wallet = wallet := rfl
@[simp] theorem withWallet_exit (s : NativeWalletState P) (wallet : WalletState P) :
    (s.withWallet wallet).exit = s.exit := rfl
@[simp] theorem withWallet_sourceSweep (s : NativeWalletState P) (wallet : WalletState P) :
    (s.withWallet wallet).sourceSweep = s.sourceSweep := rfl
@[simp] theorem withSweep_wallet (s : NativeWalletState P) (journal : SourceSweepJournal P) :
    (s.withSweep journal).wallet = s.wallet := rfl
@[simp] theorem withSweep_exit (s : NativeWalletState P) (journal : SourceSweepJournal P) :
    (s.withSweep journal).exit = s.exit := rfl
@[simp] theorem withSweep_sourceSweep (s : NativeWalletState P) (journal : SourceSweepJournal P) :
    (s.withSweep journal).sourceSweep = some journal := rfl
@[simp] theorem withSweep_fundingSecret (s : NativeWalletState P)
    (journal : SourceSweepJournal P) : (s.withSweep journal).fundingSecret = s.fundingSecret := rfl
@[simp] theorem withSweep_withSweep (s : NativeWalletState P)
    (journal journal' : SourceSweepJournal P) :
    (s.withSweep journal).withSweep journal' = s.withSweep journal' := rfl
@[simp] theorem withExit_wallet (s : NativeWalletState P) (journal : ExitJournal P) :
    (s.withExit journal).wallet = s.wallet := rfl
@[simp] theorem withExit_exit (s : NativeWalletState P) (journal : ExitJournal P) :
    (s.withExit journal).exit = some journal := rfl
@[simp] theorem withExit_sourceSweep (s : NativeWalletState P) (journal : ExitJournal P) :
    (s.withExit journal).sourceSweep = s.sourceSweep := rfl
@[simp] theorem withExit_withExit (s : NativeWalletState P) (journal journal' : ExitJournal P) :
    (s.withExit journal).withExit journal' = s.withExit journal' := rfl

end NativeWalletState

/-- A later funding has the transaction of the earlier one. -/
theorem FundingStep.transaction {saved later : Option (FundingJournal P)}
    (h : FundingStep saved later) {funding : FundingJournal P} (hmem : funding ∈ later) :
    saved = none ∨ ∃ old ∈ saved, old.transaction = funding.transaction := by
  cases h with
  | same => exact Or.inr ⟨funding, hmem, rfl⟩
  | prepared => exact Or.inl rfl
  | secured =>
    obtain rfl := Option.some.inj hmem
    exact Or.inr ⟨_, rfl, rfl⟩
  | broadcast =>
    obtain rfl := Option.some.inj hmem
    exact Or.inr ⟨_, rfl, rfl⟩

/-- The coin keeps its metadata, and the transaction of its funding. -/
theorem CoinEvolves.checked {coin coin' : WalletCoin P} (h : CoinEvolves coin coin')
    {metadata : CoinMetadata P} (hmetadata : coin.metadata = some metadata)
    (hchecked : CoinChecked config coin) : CoinChecked config coin' := by
  intro metadata' hmetadata'
  obtain rfl := Option.some.inj ((h.metadata metadata hmetadata).symm.trans hmetadata')
  obtain ⟨hnetwork, hfunded⟩ := hchecked metadata hmetadata
  refine ⟨hnetwork, fun funding hfunding => ?_⟩
  cases hold : coin.funding with
  | none =>
    rw [h.received (by simp [hmetadata]) hold] at hfunding
    cases hfunding
  | some old =>
    obtain ⟨stage, hstage, _⟩ := h.funding old hold
    obtain rfl := Option.some.inj (hstage.symm.trans hfunding)
    exact hfunded old hold

namespace NativeInv

variable {s : NativeWalletState P} {wallet : WalletState P}

theorem checked (h : NativeInv config s) : ∀ coin ∈ s.wallet.coin, CoinChecked config coin :=
  fun coin hcoin metadata hmetadata =>
    ⟨h.network coin hcoin metadata hmetadata, h.funded coin hcoin metadata hmetadata⟩

/-- The saved sweep passes its own check. -/
theorem sweep_valid (h : NativeInv config s) {sweep : SourceSweepJournal P}
    (hsweep : s.sourceSweep = some sweep) : sweep.validate s.fundingSecret = .ok () := by
  obtain ⟨_, _, _, hvalid⟩ := NativeWalletState.validate_eq_ok.1 h.valid
  simp only [NativeWalletState.validateSweep, hsweep, Except.bind_eq_ok, Except.ensure_eq_ok,
    exists_unit] at hvalid
  exact hvalid.2

theorem spent_of_sweep (h : NativeInv config s) {sweep : SourceSweepJournal P}
    (hsweep : s.sourceSweep = some sweep) {input : OutPoint P.Txid} :
    input ∈ spentOutputs sweep.transaction ↔ input ∈ s.sweepInputs := by
  rw [SourceSweepJournal.spent_of_validate (h.sweep_valid hsweep), NativeWalletState.sweepInputs,
    hsweep, Option.elim_some, List.mem_map, List.mem_map]
  simp only [mem_sortSources]

/-- The saved exit passes its own check. -/
theorem exit_valid (h : NativeInv config s) {exit : ExitJournal P} (hexit : s.exit = some exit) :
    ∃ coin, s.wallet.coin = some coin ∧ exit.package.network = config.network ∧
      exit.package.validate coin = .ok () := by
  obtain ⟨_, _, hvalid, _⟩ := NativeWalletState.validate_eq_ok.1 h.valid
  simp only [NativeWalletState.validateExit, hexit, Except.bind_eq_ok, Except.ensure_eq_ok,
    exists_unit, Except.context_eq_ok] at hvalid
  obtain ⟨hnetwork, coin, hcoin, hvalid⟩ := hvalid
  exact ⟨coin, hcoin, hnetwork, hvalid⟩

/-- A coin with a saved exit has an owner's recovery, and its funding was broadcast. -/
theorem exit_coin (h : NativeInv config s) (hexit : s.exit ≠ none) :
    ∃ coin metadata, s.wallet.coin = some coin ∧ coin.metadata = some metadata ∧
      ∀ funding ∈ coin.funding, funding.stage = .broadcast := by
  obtain ⟨exit, hexit⟩ := Option.ne_none_iff_exists'.1 hexit
  obtain ⟨coin, hcoin, _, hvalid⟩ := h.exit_valid hexit
  obtain ⟨metadata, recovery, key, howned, _⟩ := ExitPackage.validate_ok hvalid
  obtain ⟨hmetadata, _, hfunding, _⟩ := ownedRecovery_eq_ok.1 howned
  exact ⟨coin, metadata, hcoin, hmetadata, hfunding⟩

theorem exit_none_of_unfunded (h : NativeInv config s)
    (hmetadata : ∀ coin ∈ s.wallet.coin, coin.metadata = none) : s.exit = none := by
  by_contra hexit
  obtain ⟨coin, metadata, hcoin, hsome, _⟩ := h.exit_coin hexit
  rw [hmetadata coin hcoin] at hsome
  cases hsome

theorem exit_none_of_pending (h : NativeInv config s) (hpending : s.wallet.pending ≠ none) :
    s.exit = none := by
  by_contra hexit
  exact hpending (h.idle (Option.isSome_iff_ne_none.2 hexit))

theorem exit_none_of_stage (h : NativeInv config s) {funding : FundingJournal P}
    (hfunding : s.wallet.funding = some funding) (hstage : funding.stage ≠ .broadcast) :
    s.exit = none := by
  by_contra hexit
  obtain ⟨coin, metadata, hcoin, _, hbroadcast⟩ := h.exit_coin hexit
  rw [WalletState.funding_of_coin hcoin] at hfunding
  exact hstage (hbroadcast funding hfunding)

/-- The wallet part is changed while no exit is saved. -/
theorem withWallet (h : NativeInv config s) (hexit : s.exit = none)
    {fresh : FundingJournal P → Prop} (hadvance : WalletAdvance config fresh s.wallet wallet)
    (hfresh : ∀ funding, fresh funding → ∀ sweep ∈ s.sourceSweep,
      ∀ input ∈ spentOutputs funding.transaction, input ∉ spentOutputs sweep.transaction) :
    NativeInv config (s.withWallet wallet) := by
  obtain ⟨hformat, _, _, hsweep⟩ := NativeWalletState.validate_eq_ok.1 h.valid
  have hchecked : ∀ coin ∈ wallet.coin, CoinChecked config coin := by
    intro coin hcoin
    by_cases hnew : ∀ old ∈ s.wallet.coin, old.metadata = none
    · exact hadvance.checked coin hcoin hnew
    · push Not at hnew
      obtain ⟨old, hold, hmetadata⟩ := hnew
      obtain ⟨metadata, hmetadata⟩ := Option.ne_none_iff_exists'.1 hmetadata
      obtain ⟨coin', hcoin', hevolves⟩ := hadvance.evolves old hold
      obtain rfl := Option.some.inj (hcoin'.symm.trans hcoin)
      exact hevolves.checked hmetadata (h.checked old hold)
  refine { valid := ?_, wallet := hadvance.inv, network := ?_, funded := ?_, idle := ?_,
           explorer := h.explorer, journaled := hadvance.journaled, reserved := ?_ }
  · refine NativeWalletState.validate_eq_ok.2
      ⟨hformat, hadvance.inv.validateVersion, ?_, hsweep⟩
    simp [NativeWalletState.validateExit, hexit]
  · exact fun coin hcoin metadata hmetadata => (hchecked coin hcoin metadata hmetadata).1
  · exact fun coin hcoin metadata hmetadata => (hchecked coin hcoin metadata hmetadata).2
  · simp [hexit]
  · intro sweep hsweep' input hinput
    obtain ⟨funding, hfunding, hspent⟩ := NativeWalletState.mem_fundingInputs.1 hinput
    rcases hadvance.funding.transaction hfunding with hnone | ⟨old, hold, htransaction⟩
    · exact hfresh funding (hadvance.fresh hnone funding hfunding) sweep hsweep' input hspent
    · rw [← htransaction] at hspent
      exact h.reserved sweep hsweep' input
        (NativeWalletState.mem_fundingInputs.2 ⟨old, hold, hspent⟩)

theorem withExit (h : NativeInv config s) {journal : ExitJournal P}
    (hvalid : (s.withExit journal).validate config.network = .ok ())
    (hpending : s.wallet.pending = none) : NativeInv config (s.withExit journal) :=
  { h with valid := hvalid, idle := fun _ => hpending }

theorem withSweep (h : NativeInv config s) {journal : SourceSweepJournal P}
    (hvalid : (s.withSweep journal).validate config.network = .ok ())
    (hchain : config.chain.isExplorer = true)
    (hreserved : ∀ input ∈ spentOutputs journal.transaction, input ∉ s.fundingInputs) :
    NativeInv config (s.withSweep journal) :=
  { h with
    valid := hvalid
    explorer := fun _ => hchain
    reserved := by
      intro sweep hsweep input hinput hspent
      obtain rfl := Option.some.inj hsweep
      exact hreserved input hspent hinput }

theorem initial (fundingSecret : P.SecretKey) :
    NativeInv config (.new fundingSecret .empty : NativeWalletState P) where
  valid := NativeWalletState.validate_eq_ok.2
    ⟨rfl, WalletInv.empty.validateVersion, rfl, rfl⟩
  wallet := .empty
  network := by simp [NativeWalletState.new, WalletState.empty]
  funded := by simp [NativeWalletState.new, WalletState.empty]
  idle := by simp [NativeWalletState.new]
  explorer := by simp [NativeWalletState.new]
  journaled := by simp [NativeWalletState.new, WalletState.empty, WalletState.fundingStage]
  reserved := by simp [NativeWalletState.new]

end NativeInv

/-! ## Transfers that wait for their signature -/

section Unprepared

variable {s : WalletState P}

theorem unprepared_of_pending {pending : Option (PendingOperation P)}
    (hpending : s.pending = pending) (h : ∀ request attempt,
      pending ≠ some (.recovery ⟨.transfer request, .prepared attempt⟩)) :
    ¬ s.TransferPrepared := by
  rintro ⟨request, attempt, hprepared⟩
  exact h request attempt (hpending.symm.trans hprepared)

theorem WalletInv.unprepared_of_empty (h : WalletInv s) (hcoin : s.coin = none) :
    ¬ s.TransferPrepared := by
  rintro ⟨request, attempt, hprepared⟩
  obtain ⟨coin, hsome, _⟩ := h.recovery _ hprepared
  rw [hcoin] at hsome
  cases hsome

end Unprepared

/-! ## The log -/

/-- Nothing was saved between `w` and `v`. -/
structure Later (w v : CliWorld P E) : Prop where
  saved : v.saved = w.saved
  log : w.log <+: v.log

namespace Later

variable {w v u : CliWorld P E} {c : Command P}

theorem refl (w : CliWorld P E) : Later w w := ⟨rfl, List.prefix_refl _⟩

theorem trans (h : Later w v) (h' : Later v u) : Later w u :=
  ⟨h'.saved.trans h.saved, h.log.trans h'.log⟩

theorem asked {query : Query P} {reply : query.Reply} {e : E} :
    Later w (w.asked c query reply e) := ⟨rfl, List.prefix_append _ _⟩

end Later

theorem EnclaveAnswered.of_prefix {w v : CliWorld P E} (h : EnclaveAnswered w)
    (hlog : w.log <+: v.log) : EnclaveAnswered v := by
  obtain ⟨event, hmem, hevent⟩ := h
  exact ⟨event, hlog.subset hmem, hevent⟩

theorem EnclaveAnswered.asked {w : CliWorld P E} (h : EnclaveAnswered w) {c : Command P}
    {query : Query P} {reply : query.Reply} {e : E} : EnclaveAnswered (w.asked c query reply e) :=
  h.of_prefix Later.asked.log

theorem Confirmed.of_prefix {w v : CliWorld P E} {transaction : P.Tx}
    (h : Confirmed config w transaction) (hlog : w.log <+: v.log) :
    Confirmed config v transaction := by
  obtain ⟨event, hmem, hevent⟩ := h
  exact ⟨event, hlog.subset hmem, hevent⟩

theorem enclaveAnswered_asked {w : CliWorld P E} {c : Command P} {query : Query P}
    {answer : query.Answer} {e : E} (h : query.ForEnclave) :
    EnclaveAnswered (w.asked c query (.ok answer) e) :=
  ⟨⟨c, w.saved, .asked query (.ok answer)⟩, by simp, query, answer, rfl, h⟩

theorem listed_asked {w : CliWorld P E} {c : Command P} {address : P.Address}
    {sources : List (SourceUtxo P)} {e : E} {source : SourceUtxo P} (h : source ∈ sources) :
    Listed (w.asked c (.confirmedSourceUtxos address) (.ok sources) e) source.outpoint := by
  refine ⟨⟨c, w.saved, .asked (.confirmedSourceUtxos address) (.ok sources)⟩, address, sources,
    ?_, rfl, source, h, rfl⟩
  simp

/-! ## The shared parts of the commands -/

/-- A part of a command keeps to the contract, and leads to `post`. -/
abbrev Keeps {α : Type} (services : Services P E) (config : Config) (c : Command P)
    (post : α → CliWorld P E → Prop) (x : Cli P α) (w : CliWorld P E) : Prop :=
  Safe services (cliContract E config) c post x w

variable {services : Services P E} {c : Command P} {w : CliWorld P E} {α β : Type}

theorem bind_keeps {x : Cli P α} {f : α → Cli P β} {post : α → CliWorld P E → Prop}
    {last : β → CliWorld P E → Prop} (hw : NativeInv config w.saved)
    (h : Keeps services config c post x w)
    (hf : ∀ a v, NativeInv config v.saved → post a v → Keeps services config c last (f a) v) :
    Keeps services config c last (x >>= f) w :=
  Safe.bind (Safe.with_inv h hw) fun a v hv => hf a v hv.1 hv.2

theorem call_bind {query : Query P} {f : query.Answer → Cli P β}
    {last : β → CliWorld P E → Prop} (hguard : Permitted c w.saved query)
    (h : ∀ answer e, Keeps services config c last (f answer) (w.asked c query (.ok answer) e)) :
    Keeps services config c last (call query >>= f) w := by
  refine ⟨hguard, fun reply e _ _ => ?_⟩
  cases reply with
  | ok answer => exact h answer e
  | error message => trivial

theorem call_keeps {query : Query P} {post : query.Answer → CliWorld P E → Prop}
    (hguard : Permitted c w.saved query)
    (h : ∀ answer e, post answer (w.asked c query (.ok answer) e)) :
    Keeps services config c post (call query) w := by
  refine ⟨hguard, fun reply e _ _ => ?_⟩
  cases reply with
  | ok answer => exact h answer e
  | error message => trivial

theorem connectVerified_keeps :
    Keeps services config c (fun _ v => Later w v ∧ EnclaveAnswered v) (connectVerified config)
      w := by
  refine Safe.of_bind fun _ _ => ?_
  exact call_keeps trivial fun _ _ => ⟨.asked, enclaveAnswered_asked trivial⟩

theorem connectIf_keeps {needed : Bool} :
    Keeps services config c (fun _ v => Later w v ∧ (needed = true → EnclaveAnswered v))
      (connectIf config needed) w := by
  unfold connectIf
  cases needed with
  | true =>
    rw [if_pos rfl]
    exact connectVerified_keeps.mono fun _ _ h => ⟨h.1, fun _ => h.2⟩
  | false => exact Safe.pure ⟨.refl w, fun h => by cases h⟩

theorem connectChain_keeps :
    Keeps services config c (fun _ v => Later w v ∧ config.Supported) (connectChain config) w := by
  refine Safe.of_bind fun _ hcheck => ?_
  simp only [Except.bind_eq_ok, Except.ensure_eq_ok, exists_unit] at hcheck
  exact call_keeps trivial fun _ _ => ⟨.asked, hcheck⟩

theorem confirmedSourceUtxos_keeps {address : P.Address} :
    Keeps services config c (fun sources v => Later w v ∧ config.chain.isExplorer = true ∧
      ∀ source ∈ sources, Listed v source.outpoint) (confirmedSourceUtxos config address) w := by
  refine Safe.of_bind fun _ hchain => ?_
  exact call_keeps trivial fun _ _ =>
    ⟨.asked, Except.ensure_eq_ok.1 hchain, fun _ => listed_asked⟩

theorem loadNative_bind {f : NativeWalletState P → Cli P β} {last : β → CliWorld P E → Prop}
    (h : Keeps services config c last (f w.saved) w) :
    Keeps services config c last (loadNative config >>= f) w := by
  change Keeps services config c last
    ((Program.of (w.saved.validate config.network) >>= fun _ => pure w.saved) >>= f) w
  cases w.saved.validate config.network with
  | ok u => exact h
  | error message => trivial

theorem saveNative_keeps {native : NativeWalletState P}
    (h : native.validate config.network = .ok () →
      (cliContract E config).write c w native) :
    Keeps services config c (fun _ v => v.saved = native ∧ w.log <+: v.log)
      (saveNative config native) w := by
  refine Safe.of_bind fun u hvalid => ?_
  exact Safe.replace (h hvalid) fun _ => ⟨rfl, List.prefix_append _ _⟩

section Wallet

variable {native : NativeWalletState P} {wallet : WalletState P} {fresh : FundingJournal P → Prop}

theorem save_keeps (hsaved : w.saved = native)
    (h : (cliContract E config).write c w (native.withWallet wallet)) :
    Keeps services config c (fun _ v => v.saved = native.withWallet wallet ∧ w.log <+: v.log)
      (save config wallet) w := by
  subst hsaved
  refine Safe.of_bind fun _ _ => loadNative_bind ?_
  exact Safe.replace h fun _ => ⟨rfl, List.prefix_append _ _⟩

/-- A change of the wallet part is within the contract. -/
theorem WalletAdvance.write (hadvance : WalletAdvance config fresh native.wallet wallet)
    (hw : NativeInv config w.saved) (hsaved : w.saved = native) (hexit : native.exit = none)
    (hfresh : ∀ funding, fresh funding → ∀ input ∈ spentOutputs funding.transaction,
      (config.chain.isExplorer = true → Listed w input) ∧
      ∀ sweep ∈ native.sourceSweep, input ∉ spentOutputs sweep.transaction)
    (hanswered : native.wallet.pending.isSome = true ∨
      native.wallet.fundingStage = some .prepared → EnclaveAnswered w)
    (hchecked : native.wallet.TransferPrepared → TransferChecked config w) :
    (cliContract E config).write c w (native.withWallet wallet) := by
  subst hsaved
  refine ⟨hw.withWallet hexit hadvance fun funding hf sweep hsweep input hinput =>
    (hfresh funding hf input hinput).2 sweep hsweep, rfl, .wallet ?_⟩
  exact { exit := hexit
          evolves := hadvance.evolves
          funding := hadvance.funding
          listed := fun hchain hnone funding hfunding input hinput =>
            (hfresh funding (hadvance.fresh hnone funding hfunding) input hinput).1 hchain
          answered := hanswered
          checked := hchecked }

/-- Saves a change that journals no funding. -/
theorem saveNative_wallet (hw : NativeInv config w.saved) (hsaved : w.saved = native)
    (hexit : native.exit = none) (hadvance : WalletAdvance config NoFunding native.wallet wallet)
    (hanswered : native.wallet.pending.isSome = true ∨
      native.wallet.fundingStage = some .prepared → EnclaveAnswered w)
    (hchecked : native.wallet.TransferPrepared → TransferChecked config w) :
    Keeps services config c (fun _ v => v.saved = native.withWallet wallet ∧ w.log <+: v.log)
      (saveNative config (native.withWallet wallet)) w :=
  saveNative_keeps fun _ =>
    hadvance.write hw hsaved hexit (fun _ h => False.elim h) hanswered hchecked

theorem save_wallet (hw : NativeInv config w.saved) (hsaved : w.saved = native)
    (hexit : native.exit = none) (hadvance : WalletAdvance config NoFunding native.wallet wallet)
    (hanswered : native.wallet.pending.isSome = true ∨
      native.wallet.fundingStage = some .prepared → EnclaveAnswered w)
    (hchecked : native.wallet.TransferPrepared → TransferChecked config w) :
    Keeps services config c (fun _ v => v.saved = native.withWallet wallet ∧ w.log <+: v.log)
      (save config wallet) w :=
  save_keeps hsaved (hadvance.write hw hsaved hexit (fun _ h => False.elim h) hanswered hchecked)

end Wallet

end Tinylayer
