import Tinylayer.Native.Proofs.ContractProofs

/-!
# Sweeping keeps to the contract
-/

namespace Tinylayer

open Durable

variable {P : Platform} {E : Type} {services : Services P E} {config : Config} {c : Command P}
  {w : CliWorld P E}

namespace NativeWalletState

theorem withSweep_of_saved {s : NativeWalletState P} {journal : SourceSweepJournal P}
    (h : s.sourceSweep = some journal) : s.withSweep journal = s := by
  cases s
  simp_all [withSweep]

end NativeWalletState

/-- A sweep takes deposits that the chain lists and that no funding has reserved. -/
theorem mem_sweepCandidates {native : NativeWalletState P} {sources : List (SourceUtxo P)}
    {source : SourceUtxo P} (h : source ∈ sweepCandidates native sources) :
    source ∈ sources ∧ source.coinbase = false ∧ source.outpoint ∉ native.fundingInputs := by
  have hmem := List.mem_of_mem_take h
  rw [(List.perm_insertionSort _ _).mem_iff, List.mem_filter] at hmem
  exact ⟨hmem.1, of_decide_eq_true hmem.2⟩

theorem availableSourceSweepInputs_keeps {native : NativeWalletState P} :
    Keeps services config c (fun sources v => Later w v ∧ config.chain.isExplorer = true ∧
      ∀ source ∈ sources, Listed v source.outpoint ∧ source.outpoint ∉ native.fundingInputs)
      (availableSourceSweepInputs config native) w := by
  refine Safe.bind confirmedSourceUtxos_keeps ?_
  rintro sources v ⟨hlater, hchain, hlisted⟩
  refine Safe.pure ⟨hlater, hchain, fun source hsource => ?_⟩
  obtain ⟨hmem, _, hfree⟩ := mem_sweepCandidates hsource
  exact ⟨hlisted source hmem, hfree⟩

/-! ## Changes of the journal -/

section Journal

variable {native : NativeWalletState P} {journal : SourceSweepJournal P}

/-- A journal whose transaction is already reserved goes on to another stage. -/
theorem sweepWrite (hw : NativeInv config w.saved) (hsaved : w.saved = native.withSweep journal)
    {stage : SourceSweepStage} (hstep : SweepStep config w (some journal) { journal with stage })
    (hvalid : (native.withSweep { journal with stage }).validate config.network = .ok ()) :
    (cliContract E config).write c w (native.withSweep { journal with stage }) := by
  have hinv : NativeInv config (native.withSweep journal) := hsaved ▸ hw
  have hwrite : (native.withSweep journal).withSweep { journal with stage } =
      native.withSweep { journal with stage } := rfl
  refine ⟨?_, ?_, ?_⟩
  · rw [← hwrite] at hvalid ⊢
    refine hinv.withSweep hvalid (hinv.explorer rfl) fun input hspent hinput => ?_
    exact hinv.reserved journal rfl input hinput hspent
  · rw [hsaved]
    rfl
  · rw [← hwrite, ← hsaved]
    refine .sweep ?_
    rw [hsaved]
    exact hstep

theorem armSweep_keeps (hw : NativeInv config w.saved)
    (hsaved : w.saved = native.withSweep journal) :
    Keeps services config c (fun armed v => v.saved = native.withSweep armed ∧
      armed = { journal with stage := .submissionArmed } ∧ w.log <+: v.log)
      (armSweep config native journal) w := by
  refine Safe.of_bind fun armed harm => ?_
  obtain ⟨_, rfl⟩ := SourceSweepJournal.armSubmission_eq_ok.1 harm
  refine Safe.bind (saveNative_keeps fun hvalid => sweepWrite hw hsaved .arm hvalid) ?_
  rintro _ v ⟨hv, hlog⟩
  exact Safe.pure ⟨hv, rfl, hlog⟩

theorem observeSweep_keeps (hw : NativeInv config w.saved)
    (hsaved : w.saved = native.withSweep journal) {observed : P.Tx} :
    Keeps services config c (fun later v => v.saved = native.withSweep later ∧
      later = { journal with stage := .observed } ∧ observed = journal.transaction ∧
      w.log <+: v.log)
      (observeSweep config native journal observed) w := by
  refine Safe.of_bind fun later hobserve => ?_
  obtain ⟨_, hstage, hobserved, rfl⟩ := SourceSweepJournal.markObserved_eq_ok.1 hobserve
  refine Safe.bind (saveNative_keeps fun hvalid => sweepWrite hw hsaved (.observe hstage) hvalid) ?_
  rintro _ v ⟨hv, hlog⟩
  exact Safe.pure ⟨hv, rfl, hobserved, hlog⟩

theorem recordObservedSweep_keeps (hw : NativeInv config w.saved)
    (hsaved : w.saved = native.withSweep journal) {observed : P.Tx} :
    Keeps services config c (fun later v => v.saved = native.withSweep later ∧
      later.transaction = journal.transaction ∧ observed = journal.transaction ∧ w.log <+: v.log)
      (recordObservedSweep config native journal observed) w := by
  refine Safe.of_bind fun _ hobserved => ?_
  rw [Except.ensure_eq_ok] at hobserved
  split
  · exact Safe.pure ⟨hsaved, rfl, hobserved, List.prefix_refl _⟩
  · refine (observeSweep_keeps hw hsaved).mono ?_
    rintro later v ⟨hv, hlater, _, hlog⟩
    exact ⟨hv, by rw [hlater], hobserved, hlog⟩
  · refine bind_keeps hw (armSweep_keeps hw hsaved) ?_
    rintro armed v hv ⟨hv', harmed, hlog⟩
    refine (observeSweep_keeps hv hv').mono ?_
    rintro later u ⟨hu, hlater, _, hlog'⟩
    exact ⟨hu, by rw [hlater, harmed], hobserved, hlog.trans hlog'⟩

theorem prepareSweep_keeps (hw : NativeInv config w.saved) (hsaved : w.saved = native)
    (hchain : config.chain.isExplorer = true) {sources : List (SourceUtxo P)}
    {policy : SweepPolicy}
    (hreplaced : ∀ sweep ∈ native.sourceSweep,
      sweep.stage = .prepared ∨ Confirmed config w sweep.transaction)
    (hsources : ∀ source ∈ sources, Listed w source.outpoint ∧
      source.outpoint ∉ native.fundingInputs) :
    Keeps services config c (fun journal v => v.saved = native.withSweep journal)
      (prepareSweep config native sources policy) w := by
  subst hsaved
  refine Safe.of_bind fun journal hprepare => ?_
  obtain ⟨hstage, hdestination, hspent⟩ := SourceSweepJournal.prepare_ok hprepare
  have hlisted : ∀ input ∈ spentOutputs journal.transaction, Listed w input ∧
      input ∉ w.saved.fundingInputs := by
    intro input hinput
    obtain ⟨source, hsource, rfl⟩ := (hspent input).1 hinput
    exact hsources source hsource
  refine Safe.bind (saveNative_keeps fun hvalid => ?_) fun _ v hv => Safe.pure hv.1
  exact ⟨hw.withSweep hvalid hchain fun input hinput => (hlisted input hinput).2, rfl,
    .sweep (.prepare hreplaced hstage (fun input hinput => (hlisted input hinput).1) hdestination)⟩

end Journal

/-! ## The command -/

section Command

variable {native : NativeWalletState P} {policy : SweepPolicy}

theorem resumeSweep_keeps (hw : NativeInv config w.saved) :
    Keeps services config c (fun progress v => ∀ native, progress = .ongoing native →
      v.saved = native) (resumeSweep config w.saved policy) w := by
  unfold resumeSweep
  split
  · exact Safe.pure fun native h => by cases h; rfl
  · rename_i journal hjournal
    have hsaved := (NativeWalletState.withSweep_of_saved hjournal).symm
    refine call_bind trivial fun observed e => ?_
    split
    · exact Safe.pure fun native h => by cases h; rfl
    · rename_i observed
      refine bind_keeps (by exact hw) (recordObservedSweep_keeps (by exact hw) (by exact hsaved)) ?_
      rintro later v hv ⟨hv', htransaction, hobserved, hlog⟩
      dsimp only
      split
      · rename_i hconfirmed
        refine bind_keeps hv availableSourceSweepInputs_keeps ?_
        rintro sources u hu ⟨hlater, hchain, hsources⟩
        split
        · exact Safe.of_bind fun _ _ => Safe.pure fun native h => by cases h
        · have hreplaced : Confirmed config u later.transaction := by
            refine Confirmed.of_prefix ?_ (hlog.trans hlater.log)
            rw [htransaction]
            exact ⟨⟨c, w.saved, .asked (.transaction (P.computeTxid journal.transaction))
              (.ok (some observed))⟩, by simp, observed, rfl, hobserved, hconfirmed⟩
          refine Safe.bind (prepareSweep_keeps hu (hlater.saved.trans hv') hchain ?_ hsources)
            fun journal t ht => Safe.pure fun native h => by cases h; exact ht
          intro sweep hsweep
          obtain rfl := Option.some.inj hsweep
          exact Or.inr hreplaced
      · exact Safe.of_bind fun _ _ => Safe.pure fun native h => by cases h

theorem prepareSweepIfNeeded_keeps (hw : NativeInv config w.saved) :
    Keeps services config c (fun journal v => v.saved = w.saved.withSweep journal)
      (prepareSweepIfNeeded config w.saved policy) w := by
  unfold prepareSweepIfNeeded
  split
  · rename_i journal hjournal
    refine Safe.pure ?_
    exact (NativeWalletState.withSweep_of_saved (Option.filter_eq_some_iff.1 hjournal).1).symm
  · rename_i hnone
    refine bind_keeps hw availableSourceSweepInputs_keeps ?_
    rintro sources v hv ⟨hlater, hchain, hsources⟩
    refine Safe.of_bind fun _ _ => prepareSweep_keeps hv hlater.saved hchain ?_ hsources
    intro sweep hsweep
    have hkept := Option.filter_eq_none_iff.1 hnone sweep hsweep
    simp only [ne_eq, decide_eq_true_eq, not_or, Decidable.not_not] at hkept
    exact Or.inl hkept.1

variable {journal : SourceSweepJournal P}

theorem submitSweep_keeps (hc : c.IsSweep) (hw : NativeInv config w.saved)
    (hsaved : w.saved = native.withSweep journal) :
    Keeps services config c (fun _ _ => True) (submitSweep config native journal) w := by
  have hinputs : Keeps services config c (fun _ v => Later w v)
      (validateSourceSweepInputs config native journal) w := by
    refine Safe.of_bind fun _ _ => Safe.bind confirmedSourceUtxos_keeps ?_
    rintro _ v ⟨hv, _⟩
    exact Safe.of fun _ _ => hv
  refine bind_keeps hw hinputs fun _ v hv hlater => ?_
  refine bind_keeps hv (armSweep_keeps hv (hlater.saved.trans hsaved)) ?_
  rintro armed u hu ⟨hu', harmed, _⟩
  have hguard : Permitted c u.saved (.broadcastExact armed.transaction) := by
    cases c with
    | sweep => exact ⟨armed, by rw [hu']; rfl, by rw [harmed], rfl⟩
    | _ => cases hc
  refine call_bind hguard fun txid e => call_bind trivial fun observed e' => ?_
  refine Safe.of_bind fun observed _ => ?_
  refine Safe.bind (observeSweep_keeps (by exact hu) (by exact hu')) fun _ _ _ => ?_
  exact Safe.pure trivial

theorem finishSweep_keeps (hc : c.IsSweep) (hw : NativeInv config w.saved)
    (hsaved : w.saved = native.withSweep journal) :
    Keeps services config c (fun _ _ => True) (finishSweep config native journal policy) w := by
  refine Safe.of_bind fun _ _ => call_bind trivial fun observed e => ?_
  split
  · refine Safe.bind (recordObservedSweep_keeps (by exact hw) (by exact hsaved)) fun _ _ _ => ?_
    exact Safe.pure trivial
  · exact submitSweep_keeps hc (by exact hw) (by exact hsaved)

theorem sourceSweep_keeps (hc : c.IsSweep) (hw : NativeInv config w.saved) {destination : String}
    {feeRateSatVb maxFeeSat : Nat} :
    Keeps services config c (fun _ _ => True)
      (sourceSweep config destination feeRateSatVb maxFeeSat) w := by
  refine Safe.of_bind fun _ _ => Safe.of_bind fun _ _ => Safe.of_bind fun address _ => ?_
  refine bind_keeps hw connectChain_keeps fun _ v hv _ => loadNative_bind ?_
  refine bind_keeps hv (resumeSweep_keeps hv) fun progress u hu hprogress => ?_
  split
  · exact Safe.pure trivial
  · rename_i native
    obtain rfl := hprogress native rfl
    refine bind_keeps hu (prepareSweepIfNeeded_keeps hu) fun journal t ht hsaved => ?_
    exact finishSweep_keeps hc ht hsaved

end Command

end Tinylayer
