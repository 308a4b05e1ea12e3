import Tinylayer.Native.Proofs.UsableProofs
import Tinylayer.Wallet.Proofs.AccountingProofs

/-!
# Sweeps against a chain

On a chain that takes what spends the deposits of an address, a sweep of deposits that pay for it can
be made and submitted, and a saved one can be finished.
-/

namespace Tinylayer

open Durable

variable {P : Platform} {E : Type} {config : Config}

/-! ## Sweeps that can be built -/

section Build

variable {secret : P.SecretKey} {network : NetworkId} {batch : List (SourceUtxo P)}
  {destination : String} {address : P.Address} {feeRateSatVb maxFeeSat : Nat}

/-- What a sweep asks of its deposits. -/
structure SweptBatch (network : NetworkId) (secret : P.SecretKey) (batch : List (SourceUtxo P)) :
    Prop where
  nonempty : batch ≠ []
  length_le : batch.length ≤ 100
  distinct : DistinctSources batch
  deposits : ∀ source ∈ batch, 0 < source.confirmations ∧ source.coinbase = false ∧
    P.isNull source.outpoint = false ∧
    source.output.scriptPubkey = P.addressScript (sourceFundingAddress secret network)
  money : (batch.map fun source => source.output.value).sum ≤ u64Max

theorem foldlM_checkedAdd {sources : List (SourceUtxo P)} {start : Nat}
    (h : start + (sources.map fun source => source.output.value).sum ≤ u64Max) :
    sources.foldlM (fun total source => (checkedAdd u64Max total source.output.value).context
      "source sweep input amount overflow") start =
        .ok (start + (sources.map fun source => source.output.value).sum) := by
  induction sources generalizing start with
  | nil => simp [pure, Except.pure]
  | cons source sources ih =>
    rw [List.map_cons, List.sum_cons, ← Nat.add_assoc] at h ⊢
    rw [List.foldlM_cons, Except.bind_eq_ok]
    refine ⟨start + source.output.value, ?_, ih h⟩
    rw [Except.context_eq_ok, checkedAdd_eq_some]
    exact ⟨by omega, rfl⟩

theorem exists_mapM_ok {ε α β : Type} {f : α → Except ε β} {l : List α}
    (h : ∀ a ∈ l, ∃ b, f a = .ok b) : ∃ bs, l.mapM f = .ok bs := by
  induction l with
  | nil => exact ⟨[], rfl⟩
  | cons a l ih =>
    obtain ⟨b, hb⟩ := h a List.mem_cons_self
    obtain ⟨bs, hbs⟩ := ih fun a ha => h a (List.mem_cons_of_mem _ ha)
    refine ⟨b :: bs, ?_⟩
    rw [List.mapM_cons, hb]
    change (l.mapM f >>= fun bs => pure (b :: bs)) = _
    rw [hbs]
    rfl

/-- The inputs of a signed sweep pass the check of every funding transaction. -/
theorem validateFundingInputs_sweep {signatures : List P.Signature} {script : Script} {value : Nat}
    (hlength : batch.length = signatures.length) (hnonempty : batch ≠ [])
    (hle : batch.length ≤ 100)
    (hweight : P.weight (sourceSweepTransaction (signedSources batch signatures) script value) ≤
      400000)
    (hnull : ∀ source ∈ batch, P.isNull source.outpoint = false) :
    validateFundingInputs (P := P)
      (sourceSweepTransaction (signedSources batch signatures) script value) = .ok () := by
  have hcount : (signedSources batch signatures).length = batch.length := by
    rw [signedSources, List.length_zipWith, ← hlength, Nat.min_self]
  simp only [validateFundingInputs, Except.bind_eq_ok, Except.ensure_eq_ok, exists_unit,
    Except.checkAll_eq_ok]
  refine ⟨?_, hcount.trans_le hle, hweight, ?_⟩
  · rw [← List.length_pos_iff] at hnonempty ⊢
    exact hcount ▸ hnonempty
  · intro input hinput
    obtain ⟨index, hindex, rfl⟩ := List.getElem_of_mem hinput
    have hsource : index < batch.length := hcount ▸ hindex
    have hsigned : index < signatures.length := hlength ▸ hsource
    have hget : (sourceSweepTransaction (signedSources batch signatures) script
        value).input[index] = sourceInput [P.signatureBytes signatures[index]] batch[index] :=
      List.getElem_zipWith
    rw [hget]
    exact ⟨hnull _ (List.getElem_mem hsource), ⟨rfl, by simp [sourceInput]⟩, by
      simp [sourceInput, isRbf, sequenceMax]⟩

variable (hsize : P.SizeLaws) (hcodec : P.SignatureCodec) (hvirtual : P.VirtualSize)
  (hschnorr : P.SchnorrCorrect) (hsighash : P.SighashDefined)
include hsize hcodec hvirtual hschnorr hsighash

/-- A sweep of a batch that pays for it can be built. -/
theorem buildSourceSweep_of_pays (hparse : P.addressFromStr destination = some address)
    (hnetwork : P.addressOnNetwork address network = true)
    (hother : P.addressScript address ≠ P.addressScript (sourceFundingAddress secret network))
    (hrate : 0 < feeRateSatVb) (hbatch : SweptBatch network secret batch)
    (hpays : BatchPays batch (P.addressScript address) feeRateSatVb maxFeeSat) :
    ∃ prepared, buildSourceSweep network secret batch destination feeRateSatVb maxFeeSat =
      .ok prepared := by
  obtain ⟨sorted, hsorted⟩ : ∃ sorted, sorted = sortSources batch := ⟨_, rfl⟩
  have hperm : sorted.Perm batch := hsorted ▸ sortSources_perm
  have hmem : ∀ source ∈ sorted, source ∈ batch := fun source h => hperm.mem_iff.1 h
  obtain ⟨total, htotal⟩ : ∃ total, total = (batch.map fun source => source.output.value).sum :=
    ⟨_, rfl⟩
  have hsum : (sorted.map fun source => source.output.value).sum = total := by
    rw [htotal]
    exact (hperm.map _).sum_eq
  obtain ⟨fee, hfee⟩ : ∃ fee, fee = feeRateSatVb * P.vsize (sourceSweepTransaction
    (sorted.map (sourceInput placeholderWitness)) (P.addressScript address) 0) := ⟨_, rfl⟩
  have hmoney := hbatch.money
  have hstandard := hpays.standard
  have hcap := hpays.cap
  have hcovers := hpays.pays
  rw [← htotal] at hmoney hcovers
  rw [sweepVsize, ← hsorted] at hstandard
  rw [sweepVsize, ← hsorted, ← hfee] at hcap hcovers
  obtain ⟨unsigned, hunsigned⟩ : ∃ unsigned, unsigned = sourceSweepTransaction
    (sorted.map (sourceInput [])) (P.addressScript address) (total - fee) := ⟨_, rfl⟩
  obtain ⟨signatures, hsignatures⟩ : ∃ signatures, (List.range sorted.length).mapM
      (fun index => do
        let sighash ← (P.keySpendSighash unsigned index (sorted.map SourceUtxo.output)).context
          "compute source sweep sighash"
        let signature := P.signSchnorr (P.tapTweak secret) sighash
        ensure (P.verifySchnorr signature sighash (P.xOnlyPublicKey (P.tapTweak secret)) = true)
          "verify source sweep signature"
        pure signature) = Except.ok signatures := by
    refine exists_mapM_ok fun index hindex => ?_
    have hdefined := hsighash.keySpend unsigned index (sorted.map SourceUtxo.output)
      (by simpa [hunsigned, sourceSweepTransaction] using List.mem_range.1 hindex)
      (by simp [hunsigned, sourceSweepTransaction])
    obtain ⟨sighash, hsome⟩ := Option.isSome_iff_exists.1 hdefined
    refine ⟨P.signSchnorr (P.tapTweak secret) sighash, ?_⟩
    simp only [Except.bind_eq_ok, Except.context_eq_ok, Except.ensure_eq_ok, exists_unit,
      Except.pure_eq_ok]
    exact ⟨sighash, hsome, hschnorr _ _, rfl⟩
  have hlength : sorted.length = signatures.length := by
    have hforall := (Except.mapM_eq_ok.1 hsignatures).length_eq
    rwa [List.length_range] at hforall
  have hinputs : validateFundingInputs (P := P) (sourceSweepTransaction
      (signedSources sorted signatures) (P.addressScript address) (total - fee)) = .ok () := by
    rw [vsize_sourceSweepTransaction hsize hcodec hlength _ (total - fee)] at hstandard
    refine validateFundingInputs_sweep hlength ?_ ?_ ((hvirtual _).trans hstandard) ?_
    · rw [← List.length_pos_iff, hperm.length_eq]
      exact List.length_pos_iff.2 hbatch.nonempty
    · rw [hperm.length_eq]
      exact hbatch.length_le
    · exact fun source hsource => (hbatch.deposits source (hmem source hsource)).2.2.1
  have hdistinct : ∀ pair ∈ windows sorted, pair.1.outpoint ≠ pair.2.outpoint := by
    have hnodup : DistinctSources sorted := hbatch.distinct.perm hperm.symm
    refine windows_forall (R := fun a b : SourceUtxo P => a.outpoint ≠ b.outpoint).2 ?_
    exact (List.pairwise_map.1 hnodup).isChain
  have hbound : 0 + (sorted.map fun source => source.output.value).sum ≤ u64Max := by omega
  have hfold := foldlM_checkedAdd hbound
  rw [Nat.zero_add, hsum] at hfold
  simp only [buildSourceSweep, Except.bind_eq_ok, Except.ensure_eq_ok, exists_unit,
    Except.context_eq_ok, Except.pure_eq_ok, Except.checkAll_eq_ok, toU64_eq_some,
    checkedSub_eq_some, ← hsorted]
  rw [hunsigned] at hsignatures
  exact ⟨_, hbatch.nonempty, hbatch.length_le, hrate, address, hparse, hnetwork, hother,
    fun source hsource => hbatch.deposits source (hmem source hsource), hdistinct, total, hfold, fee,
    ⟨by omega, hfee.symm⟩, hcap, total - fee, ⟨by omega, rfl⟩, by omega, signatures, hsignatures, hinputs,
    rfl⟩

end Build

/-! ## What a sweep takes -/

section Candidates

variable {s : NativeWalletState P} {deposits listed : List (SourceUtxo P)}

theorem sweepCandidates_subperm : (sweepCandidates s listed).Subperm listed := by
  refine (List.take_sublist _ _).subperm.trans ?_
  exact (List.perm_insertionSort _ _).subperm.trans List.filter_sublist.subperm

theorem DistinctSources.subperm (h : DistinctSources deposits) (hsub : listed.Subperm deposits) :
    DistinctSources listed := by
  obtain ⟨kept, hperm, hkept⟩ := hsub
  have hnodup : DistinctSources kept := (hkept.map _).nodup h
  exact hnodup.perm hperm

theorem sum_le_of_subperm (hsub : listed.Subperm deposits) :
    (listed.map fun source => source.output.value).sum ≤
      (deposits.map fun source => source.output.value).sum := by
  obtain ⟨kept, hperm, hkept⟩ := hsub
  rw [← (hperm.map _).sum_eq]
  exact (hkept.map _).sum_le_sum fun _ _ => Nat.zero_le _

/-- If fewer deposits than are listed cannot be swept, and one can, then one that can is listed. -/
theorem exists_eligible (hlisting : Listing deposits listed)
    (hblocked : (deposits.filter fun deposit => ¬ Eligible s deposit).length <
      maxSourceUtxoCandidates) {deposit : SourceUtxo P} (hdeposit : deposit ∈ deposits)
    (heligible : Eligible s deposit) : ∃ source ∈ listed, Eligible s source := by
  obtain ⟨hsub, hlength⟩ := hlisting
  by_contra hnone
  have hall : (listed.filter fun deposit => ¬ Eligible s deposit) = listed := by
    rw [List.filter_eq_self]
    intro source hsource
    rw [decide_eq_true_eq]
    exact fun h => hnone ⟨source, hsource, h⟩
  have hle := (hsub.filter fun deposit => ¬ Eligible s deposit).length_le
  rw [hall] at hle
  have hperm := hsub.perm_of_length_le (by omega)
  exact hnone ⟨deposit, hperm.mem_iff.2 hdeposit, heligible⟩

theorem sweepCandidates_ne_nil {source : SourceUtxo P} (hsource : source ∈ listed)
    (heligible : Eligible s source) : sweepCandidates s listed ≠ [] := by
  have hmem : source ∈ (listed.filter fun source =>
      source.coinbase = false ∧ source.outpoint ∉ s.fundingInputs).insertionSort
        SourceUtxo.sweepLe := by
    rw [(List.perm_insertionSort _ _).mem_iff, List.mem_filter, decide_eq_true_eq]
    exact ⟨hsource, heligible⟩
  rw [sweepCandidates, ne_eq, List.take_eq_nil_iff, not_or]
  exact ⟨by decide, List.ne_nil_of_mem hmem⟩

end Candidates

namespace SourceSweepJournal

variable {secret : P.SecretKey} {journal : SourceSweepJournal P} {deposits : List (SourceUtxo P)}

theorem sources_ne_nil (hvalid : journal.validate secret = .ok ()) : journal.sources ≠ [] := by
  have hbuild := (validate_eq_ok.1 hvalid).2
  simp only [buildSourceSweep, Except.bind_eq_ok, Except.ensure_eq_ok, exists_unit] at hbuild
  exact hbuild.1

/-- A valid sweep is one that a chain takes, if its deposits are there. -/
theorem spendsSigned (hsize : P.SizeLaws) (hcodec : P.SignatureCodec) (haddress : P.AddressP2tr)
    (hkeypath : P.KeyPathSpend) (hvalid : journal.validate secret = .ok ())
    (hdeposits : ∀ source ∈ journal.sources, ∃ deposit ∈ deposits,
      deposit.outpoint = source.outpoint ∧ deposit.output = source.output) :
    SpendsSigned deposits journal.transaction := by
  have hbuild := (validate_eq_ok.1 hvalid).2
  have hspent := buildSourceSweep_spent hbuild
  have hdistinct := (buildSourceSweep_distinct hbuild).perm sortSources_perm.symm
  have hnonempty := sources_ne_nil hvalid
  have hfee := buildSourceSweep_paysFee hsize hcodec hbuild
  refine ⟨sortSources journal.sources, ?_, ?_, ?_, hspent, ?_, ?_⟩
  · rw [← List.length_pos_iff, sortSources_perm.length_eq]
    exact List.length_pos_iff.2 hnonempty
  · exact fun source hsource => hdeposits source (mem_sortSources.1 hsource)
  · rw [hspent]
    exact hdistinct
  · exact fun index hindex => buildSourceSweep_signed haddress hkeypath hbuild hindex
  · rw [(sortSources_perm.map _).sum_eq, hfee.balance]
    exact Nat.le_add_right _ _

end SourceSweepJournal

/-! ## Sweeps against a chain -/

theorem NativeWalletState.validate_withSweep {native : NativeWalletState P} {network : NetworkId}
    {journal : SourceSweepJournal P} (hvalid : native.validate network = .ok ())
    (hnetwork : journal.network = network)
    (hjournal : journal.validate native.fundingSecret = .ok ()) :
    (native.withSweep journal).validate network = .ok () := by
  obtain ⟨hformat, hversion, hexit, _⟩ := validate_eq_ok.1 hvalid
  refine validate_eq_ok.2 ⟨hformat, hversion, hexit, ?_⟩
  simp only [validateSweep, withSweep_sourceSweep, Except.bind_eq_ok, Except.ensure_eq_ok,
    exists_unit]
  exact ⟨hnetwork, hjournal⟩

section Sweep

variable {oracle : E → (query : Query P) → query.Reply × E} {view : E → Prop}
  {unspent listed : E → List (SourceUtxo P)} {taken : E → P.Tx → Prop} {waits : E → P.Tx → Nat}
  {c : Command P} {native : NativeWalletState P} {journal : SourceSweepJournal P}
  {policy : SweepPolicy} {w v u : CliWorld P E}

/-- The saved state is the same, and the chain has what it had. -/
structure StillListed (view : E → Prop) (unspent listed : E → List (SourceUtxo P))
    (taken : E → P.Tx → Prop) (waits : E → P.Tx → Nat) (w v : CliWorld P E) : Prop where
  saved : v.saved = w.saved
  view : view v.env
  unspent : unspent v.env = unspent w.env
  listed : listed v.env = listed w.env
  taken : ∀ transaction, taken w.env transaction → taken v.env transaction ∧
    waits v.env transaction ≤ waits w.env transaction

theorem StillListed.trans (h : StillListed view unspent listed taken waits w v)
    (h' : StillListed view unspent listed taken waits v u) :
    StillListed view unspent listed taken waits w u where
  saved := h'.saved.trans h.saved
  view := h'.view
  unspent := h'.unspent.trans h.unspent
  listed := h'.listed.trans h.listed
  taken := by
    intro transaction htransaction
    obtain ⟨htaken, hle⟩ := h.taken transaction htransaction
    obtain ⟨htaken', hle'⟩ := h'.taken transaction htaken
    exact ⟨htaken', hle'.trans hle⟩

/-- A valid sweep was made for the wallet and its network. -/
structure OwnSweep (config : Config) (native : NativeWalletState P)
    (journal : SourceSweepJournal P) : Prop where
  network : journal.network = config.network
  valid : journal.validate native.fundingSecret = .ok ()

/-- All that the sweep spends is listed. -/
def SourcesListed (listed : List (SourceUtxo P)) (journal : SourceSweepJournal P) : Prop :=
  ∀ source ∈ journal.sources, ∃ deposit ∈ listed, deposit.outpoint = source.outpoint ∧
    deposit.output = source.output ∧ deposit.coinbase = source.coinbase

/-- The sweep was made of what a sweep takes of the listed deposits. -/
def Picked (native : NativeWalletState P) (listed : List (SourceUtxo P))
    (journal : SourceSweepJournal P) : Prop :=
  journal.sources = sortSources (sweepCandidates native listed)

theorem Picked.sourcesListed {deposits : List (SourceUtxo P)} (h : Picked native deposits journal) :
    SourcesListed deposits journal := by
  intro source hsource
  rw [h, mem_sortSources] at hsource
  exact ⟨source, sweepCandidates_subperm.subset hsource, rfl, rfl, rfl⟩

theorem Picked.mem_spent {deposits : List (SourceUtxo P)} (h : Picked native deposits journal)
    (hown : OwnSweep config native journal) {outpoint : OutPoint P.Txid} :
    outpoint ∈ spentOutputs journal.transaction ↔
      outpoint ∈ (sweepCandidates native deposits).map SourceUtxo.outpoint := by
  rw [SourceSweepJournal.spent_of_validate hown.valid, h]
  simp only [List.mem_map, mem_sortSources]

/-- The sweep was armed, and the chain has taken it. -/
structure Swept (view : E → Prop) (unspent : E → List (SourceUtxo P)) (taken : E → P.Tx → Prop)
    (native : NativeWalletState P) (journal : SourceSweepJournal P)
    (before : List (SourceUtxo P)) (v : CliWorld P E) : Prop where
  saved : v.saved = native.withSweep { journal with stage := .submissionArmed }
  view : view v.env
  taken : taken v.env journal.transaction
  unspent : unspent v.env =
    before.filter fun deposit => deposit.outpoint ∉ spentOutputs journal.transaction
  event : ∃ event ∈ v.log, BroadcastsSweep event journal.transaction

/-- A sweep of what is listed was made with these arguments, and the chain has what it had. -/
structure NewSweep (config : Config) (view : E → Prop) (unspent listed : E → List (SourceUtxo P))
    (native : NativeWalletState P) (policy : SweepPolicy) (w : CliWorld P E)
    (journal : SourceSweepJournal P) (v : CliWorld P E) : Prop where
  own : OwnSweep config native journal
  policy : policy.Matches journal
  picked : Picked native (listed w.env) journal
  view : view v.env
  unspent : unspent v.env = unspent w.env
  listed : listed v.env = listed w.env

/-- The arguments of a sweep that pays for itself, if these deposits are listed. -/
structure SweepPlan (config : Config) (native : NativeWalletState P)
    (listed : List (SourceUtxo P)) (policy : SweepPolicy) (address : P.Address) : Prop where
  destination : policy.destination = P.addressToString address
  network : P.addressOnNetwork address config.network = true
  other : P.addressScript address ≠
    P.addressScript (sourceFundingAddress native.fundingSecret config.network)
  rate : 0 < policy.feeRateSatVb
  pays : BatchPays (sweepCandidates native listed) (P.addressScript address) policy.feeRateSatVb
    policy.maxFeeSat

theorem SweepPlan.withSweep {listed : List (SourceUtxo P)} {address : P.Address}
    (h : SweepPlan config native listed policy address) :
    SweepPlan config (native.withSweep journal) listed policy address :=
  ⟨h.destination, h.network, h.other, h.rate, h.pays⟩

theorem OwnSweep.withSweep {journal' : SourceSweepJournal P} :
    OwnSweep config (native.withSweep journal') journal ↔ OwnSweep config native journal :=
  ⟨fun h => ⟨h.network, h.valid⟩, fun h => ⟨h.network, h.valid⟩⟩

theorem OwnSweep.reaches (hnative : native.validate config.network = .ok ())
    (hown : OwnSweep config native journal) {stage : SourceSweepStage} :
    Reaches (answering oracle) c (fun _ v =>
        v.saved = native.withSweep { journal with stage } ∧ v.env = w.env)
      (saveNative config (native.withSweep { journal with stage })) w :=
  saveNative_reaches (NativeWalletState.validate_withSweep hnative hown.network hown.valid)
    ⟨rfl, rfl⟩

theorem armSweep_reaches (hnative : native.validate config.network = .ok ())
    (hown : OwnSweep config native journal) :
    Reaches (answering oracle) c (fun armed v => armed = { journal with stage := .submissionArmed } ∧
        v.saved = native.withSweep { journal with stage := .submissionArmed } ∧ v.env = w.env)
      (armSweep config native journal) w := by
  refine Reaches.of_bind (SourceSweepJournal.armSubmission_eq_ok.2 ⟨hown.valid, rfl⟩) ?_
  exact Reaches.bind (hown.reaches hnative) fun _ v hv => Reaches.pure ⟨rfl, hv⟩

theorem recordObservedSweep_reaches (hnative : native.validate config.network = .ok ())
    (hown : OwnSweep config native journal) :
    Reaches (answering oracle) c (fun later v => OwnSweep config native later ∧ v.env = w.env)
      (recordObservedSweep config native journal journal.transaction) w := by
  have hobserve : ∀ (v : CliWorld P E) (armed : SourceSweepJournal P), OwnSweep config native armed →
      armed.stage = .submissionArmed → armed.transaction = journal.transaction →
      Reaches (answering oracle) c (fun later u => OwnSweep config native later ∧ u.env = v.env)
        (observeSweep config native armed journal.transaction) v := by
    intro v armed harmed hstage htransaction
    refine Reaches.of_bind (SourceSweepJournal.markObserved_eq_ok.2
      ⟨harmed.valid, hstage, htransaction.symm, rfl⟩) ?_
    exact Reaches.bind (harmed.reaches hnative) fun _ u hu =>
      Reaches.pure ⟨⟨harmed.network, harmed.valid⟩, hu.2⟩
  refine Reaches.of_bind (a := ()) (Except.ensure_eq_ok.2 rfl) ?_
  split
  · exact Reaches.pure ⟨hown, rfl⟩
  · exact hobserve w journal hown (by assumption) rfl
  · refine Reaches.bind (armSweep_reaches hnative hown) ?_
    rintro armed v ⟨harmed, _, hv⟩
    subst harmed
    have hlast := hobserve v { journal with stage := .submissionArmed } ⟨hown.network, hown.valid⟩
      rfl rfl
    exact hlast.mono fun _ u hu => ⟨hu.1, hu.2.trans hv⟩

variable (hchain : DepositChain oracle config
    (sourceFundingAddress native.fundingSecret config.network) view unspent listed taken waits)
include hchain

theorem DepositChain.held (hview : view w.env) {query : Query P} (hquery : ¬ query.Submits)
    {reply : query.Reply} :
    StillListed view unspent listed taken waits w (w.asked c query reply (oracle w.env query).2) := by
  obtain ⟨hview', hunspent, hlisted, htaken⟩ := hchain.stays w.env query hview hquery
  exact ⟨rfl, hview', hunspent, hlisted, htaken⟩

theorem confirmedSourceUtxos_reaches (hexplorer : config.chain.isExplorer = true)
    (hview : view w.env) :
    Reaches (answering oracle) c (fun sources v => sources = listed w.env ∧
        StillListed view unspent listed taken waits w v)
      (confirmedSourceUtxos config (sourceFundingAddress native.fundingSecret config.network)) w := by
  refine Reaches.of_bind (a := ()) (Except.ensure_eq_ok.2 hexplorer) ?_
  exact call_reaches (hchain.lists w.env hview) ⟨rfl, hchain.held hview id⟩

theorem availableSourceSweepInputs_reaches (hexplorer : config.chain.isExplorer = true)
    (hview : view w.env) :
    Reaches (answering oracle) c (fun sources v => sources = sweepCandidates native (listed w.env) ∧
        StillListed view unspent listed taken waits w v)
      (availableSourceSweepInputs config native) w := by
  refine Reaches.bind (confirmedSourceUtxos_reaches hchain hexplorer hview) ?_
  rintro sources v ⟨hsources, hv⟩
  subst hsources
  exact Reaches.pure ⟨rfl, hv⟩

theorem validateSourceSweepInputs_reaches (hexplorer : config.chain.isExplorer = true)
    (hown : OwnSweep config native journal) (hview : view w.env)
    (hsources : SourcesListed (listed w.env) journal) :
    Reaches (answering oracle) c (fun _ v => StillListed view unspent listed taken waits w v)
      (validateSourceSweepInputs config native journal) w := by
  refine Reaches.of_bind hown.valid ?_
  refine Reaches.bind (confirmedSourceUtxos_reaches hchain hexplorer hview) ?_
  rintro available v ⟨havailable, hv⟩
  subst havailable
  refine Reaches.of (a := ()) (Except.checkAll_eq_ok.2 fun source hsource => ?_) hv
  obtain ⟨deposit, hdeposit, houtpoint, houtput, hcoinbase⟩ := hsources source hsource
  obtain ⟨found, hfound⟩ : ∃ found, (listed w.env).find?
      (fun deposit => deposit.outpoint = source.outpoint) = some found := by
    rw [← Option.isSome_iff_exists, List.find?_isSome]
    exact ⟨deposit, hdeposit, decide_eq_true houtpoint⟩
  have hsame : found.outpoint = source.outpoint := by
    simpa using List.find?_some hfound
  have hdistinct : DistinctSources (listed w.env) :=
    DistinctSources.subperm (hchain.distinct w.env hview) (hchain.listed w.env hview).subperm
  have hfound' := List.inj_on_of_nodup_map hdistinct (List.mem_of_find?_eq_some hfound) hdeposit
    (hsame.trans houtpoint.symm)
  simp only [Except.bind_eq_ok, Except.context_eq_ok, Except.ensure_eq_ok]
  refine ⟨found, hfound, ?_⟩
  rw [hfound']
  exact ⟨houtput, hcoinbase⟩

variable (hsize : P.SizeLaws) (hcodec : P.SignatureCodec) (haddress : P.AddressP2tr)
  (hkeypath : P.KeyPathSpend)
include hsize hcodec haddress hkeypath

/-- The chain does not know a sweep of deposits that it lists. -/
theorem OwnSweep.spendsSigned (hown : OwnSweep config native journal) (hview : view w.env)
    (hsources : SourcesListed (listed w.env) journal) :
    SpendsSigned (unspent w.env) journal.transaction := by
  refine SourceSweepJournal.spendsSigned hsize hcodec haddress hkeypath hown.valid
    fun source hsource => ?_
  obtain ⟨deposit, hdeposit, houtpoint, houtput, _⟩ := hsources source hsource
  exact ⟨deposit, (hchain.listed w.env hview).subperm.subset hdeposit, houtpoint, houtput⟩

theorem submitSweep_passes (hc : c.IsSweep) (hexplorer : config.chain.isExplorer = true)
    (hnative : native.validate config.network = .ok ()) (hown : OwnSweep config native journal)
    (hview : view w.env) (hsources : SourcesListed (listed w.env) journal) :
    Passes (answering oracle) c (Swept view unspent taken native journal (unspent w.env))
      (submitSweep config native journal) w := by
  refine Passes.bind (validateSourceSweepInputs_reaches hchain hexplorer hown hview hsources)
    fun _ v hv => ?_
  refine Passes.bind (armSweep_reaches hnative hown) ?_
  rintro armed u ⟨harmed, hu, henv⟩
  subst harmed
  have hsigned := hown.spendsSigned hchain hsize hcodec haddress hkeypath hview hsources
  rw [← hv.unspent, ← henv] at hsigned
  obtain ⟨txid, htxid, hview', htaken, hunspent⟩ := hchain.takes u.env journal.transaction
    (henv ▸ hv.view) hsigned
  have hcall : Reaches (answering oracle) c (fun _ t =>
      Swept view unspent taken native journal (unspent w.env) t)
      (call (.broadcastExact journal.transaction)) u := by
    refine call_reaches htxid ⟨hu, hview', htaken, ?_, ?_⟩
    · rw [← hv.unspent, ← henv]
      exact hunspent
    · exact ⟨_, List.mem_concat_self .., ⟨_, rfl⟩, hc⟩
  exact (Passes.of_reaches hcall fun _ _ ht => ht).left

theorem finishSweep_passes (hc : c.IsSweep) (hexplorer : config.chain.isExplorer = true)
    (hnative : native.validate config.network = .ok ()) (hown : OwnSweep config native journal)
    (hpolicy : policy.Matches journal) (hview : view w.env)
    (hsources : SourcesListed (listed w.env) journal) :
    Passes (answering oracle) c (Swept view unspent taken native journal (unspent w.env))
      (finishSweep config native journal policy) w := by
  refine Passes.of_bind (a := ()) ?_ ?_
  · simp only [validateSourceSweepPolicy, Except.bind_eq_ok, Except.ensure_eq_ok, exists_unit]
    exact ⟨hpolicy, hown.valid⟩
  have hsigned := hown.spendsSigned hchain hsize hcodec haddress hkeypath hview hsources
  have hcall : Reaches (answering oracle) c (fun observed v => observed = none ∧
      StillListed view unspent listed taken waits w v)
      (call (.transaction (P.computeTxid journal.transaction))) w :=
    call_reaches (hchain.unseen w.env _ hview hsigned) ⟨rfl, hchain.held hview id⟩
  refine Passes.bind hcall ?_
  rintro observed v ⟨hnone, hv⟩
  subst hnone
  rw [← hv.unspent]
  rw [← hv.listed] at hsources
  exact submitSweep_passes hchain hsize hcodec haddress hkeypath hc hexplorer hnative hown hv.view
    hsources

variable (hvirtual : P.VirtualSize) (hschnorr : P.SchnorrCorrect) (hsighash : P.SighashDefined)
  (hcodec' : P.AddressCodec) {address : P.Address}
include hvirtual hschnorr hsighash hcodec'

omit haddress hkeypath in
/-- The eligible deposits that are listed can be swept. -/
theorem prepareSweep_reaches (hnative : native.validate config.network = .ok ())
    (hplan : SweepPlan config native (listed w.env) policy address) (hview : view w.env)
    (hsome : ∃ source ∈ listed w.env, Eligible native source) :
    Reaches (answering oracle) c (fun journal v => OwnSweep config native journal ∧
        policy.Matches journal ∧ Picked native (listed w.env) journal ∧ v.env = w.env)
      (prepareSweep config native (sweepCandidates native (listed w.env)) policy) w := by
  obtain ⟨batch, hbatch⟩ : ∃ batch, batch = sweepCandidates native (listed w.env) := ⟨_, rfl⟩
  obtain ⟨hsubperm, _⟩ := hchain.listed w.env hview
  have hlisted : batch.Subperm (listed w.env) := hbatch ▸ sweepCandidates_subperm
  have heligible : ∀ source ∈ batch, source ∈ unspent w.env ∧ Eligible native source := by
    intro source hsource
    obtain ⟨hmem, hfree⟩ := mem_sweepCandidates (hbatch ▸ hsource)
    exact ⟨hsubperm.subset hmem, hfree⟩
  have hswept : SweptBatch config.network native.fundingSecret batch := by
    refine ⟨?_, ?_, ?_, fun source hsource => ?_, ?_⟩
    · obtain ⟨source, hsource, hfree⟩ := hsome
      rw [hbatch]
      exact sweepCandidates_ne_nil hsource hfree
    · rw [hbatch]
      exact List.length_take_le ..
    · exact DistinctSources.subperm (hchain.distinct w.env hview) (hlisted.trans hsubperm)
    · obtain ⟨hmem, hcoinbase, _⟩ := heligible source hsource
      obtain ⟨hconfirmed, hnull, hscript⟩ := hchain.deposits w.env hview source hmem
      exact ⟨hconfirmed, hcoinbase, hnull, hscript⟩
    · refine (sum_le_of_subperm (hlisted.trans hsubperm)).trans ((hchain.money w.env hview).trans ?_)
      decide
  rw [← hbatch]
  obtain ⟨prepared, hbuild⟩ := buildSourceSweep_of_pays hsize hcodec hvirtual hschnorr hsighash
    (hcodec'.fromStr_toString address) hplan.network hplan.other hplan.rate hswept
    (hbatch ▸ hplan.pays)
  have hsorted := buildSourceSweep_perm sortSources_perm.symm rfl hbuild
  obtain ⟨journal, hprepare⟩ : ∃ journal, SourceSweepJournal.prepare native.fundingSecret
      config.network batch (P.addressToString address) policy.feeRateSatVb policy.maxFeeSat =
        .ok journal :=
    ⟨_, SourceSweepJournal.prepare_eq_ok.2 ⟨address, prepared, hcodec'.fromStr_toString address,
      hplan.network, hsorted, rfl⟩⟩
  obtain ⟨hsources, hvalid⟩ := SourceSweepJournal.prepare_validate hprepare
  have hmatches : policy.Matches journal ∧ journal.network = config.network := by
    obtain ⟨address', _, hsame, _, _, rfl⟩ := SourceSweepJournal.prepare_eq_ok.1 hprepare
    obtain rfl := Option.some.inj ((hcodec'.fromStr_toString address).symm.trans hsame)
    exact ⟨⟨hplan.destination.symm, rfl, rfl⟩, rfl⟩
  rw [← hplan.destination] at hprepare
  refine Reaches.of_bind hprepare ?_
  have hown : OwnSweep config native journal := ⟨hmatches.2, hvalid⟩
  refine Reaches.bind (hown.reaches hnative) fun _ v hv => Reaches.pure ⟨hown, hmatches.1, ?_, hv.2⟩
  rw [Picked, hsources, hbatch]

omit hsize hcodec haddress hkeypath hvirtual hschnorr hsighash hcodec' in
/-- A saved sweep that the chain does not know yet is gone on with. -/
theorem resumeSweep_reaches_unseen (hsaved : native.sourceSweep = some journal)
    (hsigned : SpendsSigned (unspent w.env) journal.transaction) (hview : view w.env) :
    Reaches (answering oracle) c (fun progress v => progress = .ongoing native ∧
        StillListed view unspent listed taken waits w v)
      (resumeSweep config native policy) w := by
  unfold resumeSweep
  rw [hsaved]
  have hcall : Reaches (answering oracle) c (fun observed v => observed = none ∧
      StillListed view unspent listed taken waits w v)
      (call (.transaction (P.computeTxid journal.transaction))) w :=
    call_reaches (hchain.unseen w.env _ hview hsigned) ⟨rfl, hchain.held hview id⟩
  refine Reaches.bind hcall ?_
  rintro observed v ⟨hnone, hv⟩
  subst hnone
  exact Reaches.pure ⟨rfl, hv⟩

omit haddress hkeypath in
/-- If there is no saved sweep, the eligible deposits that are listed can be swept. -/
theorem prepareSweepIfNeeded_reaches_new (hexplorer : config.chain.isExplorer = true)
    (hnative : native.validate config.network = .ok ()) (hnone : native.sourceSweep = none)
    (hplan : SweepPlan config native (listed w.env) policy address) (hview : view w.env)
    (hsome : ∃ source ∈ listed w.env, Eligible native source) :
    Reaches (answering oracle) c (NewSweep config view unspent listed native policy w)
      (prepareSweepIfNeeded config native policy) w := by
  unfold prepareSweepIfNeeded
  rw [hnone]
  refine Reaches.bind (availableSourceSweepInputs_reaches hchain hexplorer hview) ?_
  rintro sources v ⟨hsources, hv⟩
  rw [← hv.listed] at hsources hplan hsome
  subst hsources
  obtain ⟨source, hsource, hfree⟩ := hsome
  refine Reaches.of_bind (a := ()) (Except.ensure_eq_ok.2
    (sweepCandidates_ne_nil hsource hfree)) ?_
  refine (prepareSweep_reaches hchain hsize hcodec hvirtual hschnorr hsighash hcodec' hnative
    hplan hv.view ⟨source, hsource, hfree⟩).mono ?_
  rintro journal u ⟨hown, hmatches, hpicked, hu⟩
  exact ⟨hown, hmatches, hv.listed ▸ hpicked, hu ▸ hv.view, hu ▸ hv.unspent, hu ▸ hv.listed⟩

omit haddress hkeypath in
/-- A saved sweep that the chain shows as confirmed is replaced by one of the deposits that are
left. -/
theorem resumeSweep_reaches_confirmed (hexplorer : config.chain.isExplorer = true)
    (hnative : native.validate config.network = .ok ()) {saved : SourceSweepJournal P}
    (hsaved : native.sourceSweep = some saved) (hown : OwnSweep config native saved)
    (hshows : ShowsConfirmed oracle config w.env saved.transaction)
    (hplan : SweepPlan config native (listed w.env) policy address) (hview : view w.env)
    (hsome : ∃ source ∈ listed w.env, Eligible native source) :
    Reaches (answering oracle) c (fun progress v => ∃ later journal,
        progress = .ongoing ((native.withSweep later).withSweep journal) ∧
        NewSweep config view unspent listed native policy w journal v)
      (resumeSweep config native policy) w := by
  obtain ⟨observed, hobserved, hsame, hconfirmed⟩ := hshows
  unfold resumeSweep
  rw [hsaved]
  have hcall : Reaches (answering oracle) c (fun found v => found = some observed ∧
      StillListed view unspent listed taken waits w v)
      (call (.transaction (P.computeTxid saved.transaction))) w :=
    call_reaches hobserved ⟨rfl, hchain.held hview id⟩
  refine Reaches.bind hcall ?_
  rintro found v ⟨hfound, hv⟩
  subst hfound
  dsimp only
  rw [hsame]
  refine Reaches.bind (recordObservedSweep_reaches hnative hown) ?_
  rintro later u ⟨hlater, hu⟩
  rw [if_pos hconfirmed]
  have hview' : view u.env := hu ▸ hv.view
  have hchain' : DepositChain oracle config
      (sourceFundingAddress (native.withSweep later).fundingSecret config.network)
      view unspent listed taken waits := hchain
  refine Reaches.bind (availableSourceSweepInputs_reaches hchain' hexplorer hview') ?_
  rintro sources t ⟨hsources, ht⟩
  have hlisted : listed t.env = listed w.env := by rw [ht.listed, hu, hv.listed]
  have hunspent : unspent t.env = unspent w.env := by rw [ht.unspent, hu, hv.unspent]
  rw [hu, hv.listed, ← hlisted] at hsources
  rw [← hlisted] at hplan hsome
  subst hsources
  obtain ⟨source, hsource, hfree⟩ := hsome
  rw [if_neg (sweepCandidates_ne_nil (s := native.withSweep later) hsource hfree)]
  have hvalid := NativeWalletState.validate_withSweep hnative hlater.network hlater.valid
  refine Reaches.bind (prepareSweep_reaches hchain' hsize hcodec hvirtual hschnorr hsighash
    hcodec' hvalid hplan.withSweep ht.view ⟨source, hsource, hfree⟩) ?_
  rintro journal r ⟨hown', hmatches, hpicked, hr⟩
  exact Reaches.pure ⟨later, journal, rfl, OwnSweep.withSweep.1 hown', hmatches, hlisted ▸ hpicked,
    hr ▸ ht.view, hr ▸ hunspent, hr ▸ hlisted⟩

end Sweep

/-! ## One sweep -/

section Round

variable {oracle : E → (query : Query P) → query.Reply × E} {view : E → Prop}
  {unspent listed : E → List (SourceUtxo P)} {taken : E → P.Tx → Prop} {waits : E → P.Tx → Nat}
  {c : Command P} {journal : SourceSweepJournal P} {policy : SweepPolicy} {w : CliWorld P E}
  {destination : String} {feeRateSatVb maxFeeSat : Nat} {address : P.Address}

/-- A sweep connects to the chain, and goes on with its saved part. -/
theorem sourceSweep_passes_resume {goal : CliWorld P E → Prop}
    (hchain : DepositChain oracle config (sourceFundingAddress w.saved.fundingSecret config.network)
      view unspent listed taken waits) (hexplorer : config.chain.isExplorer = true)
    (hmainnet : config.network ≠ .mainnet) (hvalid : w.saved.validate config.network = .ok ())
    (hview : view w.env) (hrate : 0 < feeRateSatVb)
    (hparse : P.addressFromStr destination = some address)
    (hnetwork : P.addressOnNetwork address config.network = true)
    (hpolicy : policy = { destination := P.addressToString address, feeRateSatVb, maxFeeSat })
    (hresume : ∀ v : CliWorld P E, StillListed view unspent listed taken waits w v →
      v.env = (oracle w.env .connectChain).2 →
      Passes (answering oracle) c goal (do
        match ← resumeSweep config w.saved policy with
        | .finished journal => return emitSourceSweep journal true
        | .ongoing native => do
          let journal ← prepareSweepIfNeeded config native policy
          finishSweep config (native.withSweep journal) journal policy) v) :
    Passes (answering oracle) c goal
      (sourceSweep config destination feeRateSatVb maxFeeSat) w := by
  refine Passes.of_bind (a := ()) (Except.ensure_eq_ok.2 hrate) ?_
  refine Passes.of_bind (a := ()) (Except.ensure_eq_ok.2 hmainnet) ?_
  refine Passes.of_bind (a := address) ?_ ?_
  · simp only [Except.bind_eq_ok, Except.ensure_eq_ok, exists_unit, parseDestination_eq_ok]
    exact ⟨hexplorer, hparse, hnetwork⟩
  simp only [← hpolicy]
  have hconnect : Reaches (answering oracle) c (fun _ v =>
      StillListed view unspent listed taken waits w v ∧ v.env = (oracle w.env .connectChain).2)
      (connectChain config) w :=
    connectChain_reaches ⟨hmainnet, Or.inl hexplorer⟩ (hchain.connects w.env hview)
      ⟨hchain.held hview id, rfl⟩
  refine Passes.bind hconnect ?_
  rintro _ v ⟨hv, henv⟩
  have hload : Reaches (answering oracle) c (fun native u => native = w.saved ∧ u = v)
      (loadNative config) v := by
    refine loadNative_reaches ?_ ⟨hv.saved, rfl⟩
    rw [hv.saved]
    exact hvalid
  refine Passes.bind hload ?_
  rintro native u ⟨hnative, hu⟩
  subst hnative hu
  exact hresume u hv henv

/-- A sweep goes on as its first part says. -/
theorem sourceSweep_passes_of {goal : CliWorld P E → Prop}
    (ready : NativeWalletState P → CliWorld P E → Prop)
    (hchain : DepositChain oracle config (sourceFundingAddress w.saved.fundingSecret config.network)
      view unspent listed taken waits) (hexplorer : config.chain.isExplorer = true)
    (hmainnet : config.network ≠ .mainnet) (hvalid : w.saved.validate config.network = .ok ())
    (hview : view w.env) (hrate : 0 < feeRateSatVb)
    (hparse : P.addressFromStr destination = some address)
    (hnetwork : P.addressOnNetwork address config.network = true)
    (hpolicy : policy = { destination := P.addressToString address, feeRateSatVb, maxFeeSat })
    (hresume : ∀ v : CliWorld P E, StillListed view unspent listed taken waits w v →
      v.env = (oracle w.env .connectChain).2 →
      Reaches (answering oracle) c (fun progress u =>
        ∃ native, progress = .ongoing native ∧ ready native u)
        (resumeSweep config w.saved policy) v)
    (hfinish : ∀ (native : NativeWalletState P) (u : CliWorld P E), ready native u →
      Passes (answering oracle) c goal (do
        let journal ← prepareSweepIfNeeded config native policy
        finishSweep config (native.withSweep journal) journal policy) u) :
    Passes (answering oracle) c goal
      (sourceSweep config destination feeRateSatVb maxFeeSat) w := by
  refine sourceSweep_passes_resume hchain hexplorer hmainnet hvalid hview hrate hparse hnetwork
    hpolicy fun v hv henv => ?_
  refine Passes.bind (hresume v hv henv) ?_
  rintro progress t ⟨native, hprogress, hready⟩
  subst hprogress
  exact hfinish native t hready

/-- A sweep that is stopped after it has asked for the saved one has changed nothing. -/
theorem sourceSweep_passes_asked
    (hchain : DepositChain oracle config (sourceFundingAddress w.saved.fundingSecret config.network)
      view unspent listed taken waits) (hexplorer : config.chain.isExplorer = true)
    (hmainnet : config.network ≠ .mainnet) (hvalid : w.saved.validate config.network = .ok ())
    (hview : view w.env) (hrate : 0 < feeRateSatVb)
    (hparse : P.addressFromStr destination = some address)
    (hnetwork : P.addressOnNetwork address config.network = true)
    (hsaved : w.saved.sourceSweep = some journal) :
    Passes (answering oracle) c (fun v => StillListed view unspent listed taken waits w v ∧
        v.env = (oracle (oracle w.env .connectChain).2
          (.transaction (P.computeTxid journal.transaction))).2)
      (sourceSweep config destination feeRateSatVb maxFeeSat) w := by
  refine sourceSweep_passes_resume hchain hexplorer hmainnet hvalid hview hrate hparse hnetwork rfl
    fun v hv henv => Passes.left ?_
  unfold resumeSweep
  rw [hsaved, ← henv]
  refine Passes.left (Passes.question_bind rfl ⟨?_, rfl⟩)
  exact hv.trans (hchain.held hv.view id)

/-- A saved sweep that was armed, or that these arguments made, is kept. -/
theorem prepareSweepIfNeeded_reaches_saved {native : NativeWalletState P}
    (hsaved : native.sourceSweep = some journal) (hmatches : policy.Matches journal) :
    Reaches (answering oracle) c (fun kept v => kept = journal ∧ v = w)
      (prepareSweepIfNeeded config native policy) w := by
  unfold prepareSweepIfNeeded
  have hkept : (native.sourceSweep.filter fun journal =>
      journal.stage ≠ .prepared ∨ policy.Matches journal) = some journal := by
    rw [hsaved, Option.filter_eq_some_iff]
    exact ⟨rfl, decide_eq_true (Or.inr hmatches)⟩
  rw [hkept]
  exact Reaches.pure ⟨rfl, rfl⟩

/-- One of these sweeps was armed, and the chain has taken it. -/
def RoundDone (config : Config) (view : E → Prop) (unspent : E → List (SourceUtxo P))
    (taken : E → P.Tx → Prop) (which : SourceSweepJournal P → Prop) (w v : CliWorld P E) : Prop :=
  ∃ journal, OwnSweep config w.saved journal ∧ which journal ∧
    Swept view unspent taken w.saved journal (unspent w.env) v

variable (hchain : DepositChain oracle config
    (sourceFundingAddress w.saved.fundingSecret config.network) view unspent listed taken waits)
  (hexplorer : config.chain.isExplorer = true) (hmainnet : config.network ≠ .mainnet)
  (hvalid : w.saved.validate config.network = .ok ()) (hview : view w.env)
  (hsize : P.SizeLaws) (hcodec : P.SignatureCodec) (haddress : P.AddressP2tr)
  (hkeypath : P.KeyPathSpend)
include hchain hexplorer hmainnet hvalid hview hsize hcodec haddress hkeypath

omit hmainnet hview in
/-- The sweep `journal` is finished in a later world. -/
theorem finishSweep_done {u : CliWorld P E} (hc : c.IsSweep) (hown : OwnSweep config w.saved journal)
    (hmatches : policy.Matches journal) (hview' : view u.env)
    (hunspent : unspent u.env = unspent w.env) (hlisted : listed u.env = listed w.env)
    (hsources : SourcesListed (listed w.env) journal) {which : SourceSweepJournal P → Prop}
    (hwhich : which journal) :
    Passes (answering oracle) c (RoundDone config view unspent taken which w)
      (finishSweep config (w.saved.withSweep journal) journal policy) u := by
  have hvalid' := NativeWalletState.validate_withSweep hvalid hown.network hown.valid
  have hlist := hsources
  rw [← hlisted] at hlist
  have hchain' : DepositChain oracle config
      (sourceFundingAddress (w.saved.withSweep journal).fundingSecret config.network)
      view unspent listed taken waits := hchain
  obtain ⟨v, rest, hsteps, hv⟩ := finishSweep_passes hchain' hsize hcodec haddress hkeypath hc
    hexplorer hvalid' (OwnSweep.withSweep.2 hown) hmatches hview' hlist
  rw [hunspent] at hv
  exact ⟨v, rest, hsteps, journal, hown, hwhich, ⟨hv.saved, hv.view, hv.taken, hv.unspent, hv.event⟩⟩

/-- The saved sweep can be finished with the arguments that made it. -/
theorem sourceSweep_passes_saved (hsaved : w.saved.sourceSweep = some journal)
    (hown : OwnSweep config w.saved journal) (hsources : SourcesListed (listed w.env) journal)
    (hparse : P.addressFromStr journal.destination = some address)
    (hcanonical : journal.destination = P.addressToString address)
    (hnetwork : P.addressOnNetwork address config.network = true)
    (hrate : 0 < journal.feeRateSatVb) :
    Passes (answering oracle) (.sweep journal.destination journal.feeRateSatVb journal.maxFeeSat)
      (RoundDone config view unspent taken (fun swept => swept = journal) w)
      (sourceSweep config journal.destination journal.feeRateSatVb journal.maxFeeSat) w := by
  have hsigned := hown.spendsSigned hchain hsize hcodec haddress hkeypath hview hsources
  have hmatches : SweepPolicy.Matches
      ⟨P.addressToString address, journal.feeRateSatVb, journal.maxFeeSat⟩ journal :=
    ⟨hcanonical, rfl, rfl⟩
  refine sourceSweep_passes_of (fun native u => native = w.saved ∧
    StillListed view unspent listed taken waits w u) hchain hexplorer hmainnet hvalid hview hrate
    hparse hnetwork rfl (fun v hv _ => ?_) ?_
  · rw [← hv.unspent] at hsigned
    exact (resumeSweep_reaches_unseen hchain hsaved hsigned hv.view).mono
      fun progress u hu => ⟨_, hu.1, rfl, hv.trans hu.2⟩
  · rintro native u ⟨hnative, hu⟩
    subst hnative
    refine Passes.bind (prepareSweepIfNeeded_reaches_saved hsaved hmatches) ?_
    rintro kept t ⟨hkept, ht⟩
    subst hkept ht
    have hc : (Command.sweep (P := P) kept.destination kept.feeRateSatVb
      kept.maxFeeSat).IsSweep := trivial
    exact finishSweep_done hchain hexplorer hvalid hsize hcodec haddress hkeypath hc hown hmatches
      hu.view hu.unspent hu.listed hsources rfl

variable (hvirtual : P.VirtualSize) (hschnorr : P.SchnorrCorrect) (hsighash : P.SighashDefined)
  (hcodec' : P.AddressCodec)
include hvirtual hschnorr hsighash hcodec'

/-- A new sweep can be made if there is none yet, or the chain shows the saved one as confirmed. -/
theorem sourceSweep_passes_next
    (hsaved : w.saved.sourceSweep = none ∨ ∃ saved, w.saved.sourceSweep = some saved ∧
      OwnSweep config w.saved saved ∧
      ShowsConfirmed oracle config (oracle w.env .connectChain).2 saved.transaction)
    (hparse : P.addressFromStr destination = some address)
    (hplan : SweepPlan config w.saved (listed w.env)
      ⟨P.addressToString address, feeRateSatVb, maxFeeSat⟩ address)
    (hsome : ∃ source ∈ listed w.env, Eligible w.saved source) :
    Passes (answering oracle) (.sweep destination feeRateSatVb maxFeeSat)
      (RoundDone config view unspent taken (Picked w.saved (listed w.env)) w)
      (sourceSweep config destination feeRateSatVb maxFeeSat) w := by
  obtain ⟨policy, hpolicy⟩ : ∃ policy : SweepPolicy,
      policy = ⟨P.addressToString address, feeRateSatVb, maxFeeSat⟩ := ⟨_, rfl⟩
  have hrate : 0 < feeRateSatVb := hplan.rate
  rw [← hpolicy] at hplan
  have hc : (Command.sweep (P := P) destination feeRateSatVb maxFeeSat).IsSweep := trivial
  rcases hsaved with hnone | ⟨saved, hsaved, hown, hshows⟩
  · refine sourceSweep_passes_of (fun native u => native = w.saved ∧
      StillListed view unspent listed taken waits w u) hchain hexplorer hmainnet hvalid hview hrate
      hparse hplan.network hpolicy (fun v hv _ => ?_) ?_
    · unfold resumeSweep
      rw [hnone]
      exact Reaches.pure ⟨_, rfl, rfl, hv⟩
    · rintro native u ⟨hnative, hu⟩
      subst hnative
      rw [← hu.listed] at hplan hsome
      refine Passes.bind (prepareSweepIfNeeded_reaches_new hchain hsize hcodec hvirtual hschnorr
        hsighash hcodec' hexplorer hvalid hnone hplan hu.view hsome) fun journal t ht => ?_
      have hpicked := ht.picked
      rw [hu.listed] at hpicked
      exact finishSweep_done hchain hexplorer hvalid hsize hcodec haddress hkeypath hc ht.own
        ht.policy ht.view (ht.unspent.trans hu.unspent) (ht.listed.trans hu.listed)
        hpicked.sourcesListed hpicked
  · refine sourceSweep_passes_of (fun native u => ∃ later journal,
      native = (w.saved.withSweep later).withSweep journal ∧
      NewSweep config view unspent listed w.saved policy w journal u) hchain hexplorer hmainnet
      hvalid hview hrate hparse hplan.network hpolicy (fun v hv henv => ?_) fun native u hready => ?_
    · rw [← hv.listed] at hplan hsome
      rw [← henv] at hshows
      refine (resumeSweep_reaches_confirmed hchain hsize hcodec hvirtual hschnorr hsighash hcodec'
        hexplorer hvalid hsaved hown hshows hplan hv.view hsome).mono ?_
      rintro progress u ⟨later, journal, hprogress, hu⟩
      exact ⟨_, hprogress, later, journal, rfl, hu.own, hu.policy, hv.listed ▸ hu.picked, hu.view,
        hu.unspent.trans hv.unspent, hu.listed.trans hv.listed⟩
    · obtain ⟨later, journal, hnative, hu⟩ := hready
      subst hnative
      refine Passes.bind (prepareSweepIfNeeded_reaches_saved rfl hu.policy) ?_
      rintro kept t ⟨hkept, ht⟩
      subst hkept ht
      exact finishSweep_done hchain hexplorer hvalid hsize hcodec haddress hkeypath hc hu.own
        hu.policy hu.view hu.unspent hu.listed hu.picked.sourcesListed hu.picked

end Round

end Tinylayer
