import Tinylayer.Lib.KeySort
import Tinylayer.Wallet.Proofs.SweepProofs

/-!
# Proofs: the order of the deposits of a sweep

The deposits are sorted before a sweep is built, so that a sweep depends on which deposits there are
and not on the order in which they are listed. A sweep that was saved can be built again.
-/

namespace Tinylayer

variable {P : Platform}

/-! ## The order of outputs -/

instance : Std.Total (OutPoint.le (P := P)) where
  total a b := by
    unfold OutPoint.le
    rcases lt_trichotomy a.txid b.txid with h | h | h
    · exact Or.inl (Or.inl h)
    · rcases Nat.le_total a.vout b.vout with hv | hv
      · exact Or.inl (Or.inr ⟨h, hv⟩)
      · exact Or.inr (Or.inr ⟨h.symm, hv⟩)
    · exact Or.inr (Or.inl h)

instance : IsTrans (OutPoint P.Txid) OutPoint.le where
  trans a b c hab hbc := by
    rcases hab with hab | ⟨hab, hab'⟩
    · rcases hbc with hbc | ⟨hbc, _⟩
      · exact Or.inl (hab.trans hbc)
      · exact Or.inl (hbc ▸ hab)
    · rcases hbc with hbc | ⟨hbc, hbc'⟩
      · exact Or.inl (hab ▸ hbc)
      · exact Or.inr ⟨hab.trans hbc, hab'.trans hbc'⟩

instance : Std.Antisymm (OutPoint.le (P := P)) where
  antisymm a b hab hba := by
    rcases hab with hab | ⟨hab, hab'⟩
    · rcases hba with hba | ⟨hba, _⟩
      · exact absurd hba hab.asymm
      · exact absurd hba.symm hab.ne
    · rcases hba with hba | ⟨_, hba'⟩
      · exact absurd hab.symm hba.ne
      · exact OutPoint.ext hab (Nat.le_antisymm hab' hba')

theorem sortSources_eq (sources : List (SourceUtxo P)) :
    sortSources sources = KeySort.sortByKey OutPoint.le SourceUtxo.outpoint sources := rfl

theorem sortSources_perm {sources : List (SourceUtxo P)} : (sortSources sources).Perm sources :=
  KeySort.sortByKey_perm

@[simp] theorem sortSources_sortSources (sources : List (SourceUtxo P)) :
    sortSources (sortSources sources) = sortSources sources :=
  KeySort.sortByKey_sortByKey

/-- The outputs of the deposits are different. -/
def DistinctSources (sources : List (SourceUtxo P)) : Prop :=
  (sources.map SourceUtxo.outpoint).Nodup

theorem DistinctSources.perm {sources sources' : List (SourceUtxo P)}
    (h : DistinctSources sources) (hperm : sources.Perm sources') : DistinctSources sources' :=
  (hperm.map _).nodup_iff.1 h

theorem DistinctSources.sort_congr {sources sources' : List (SourceUtxo P)}
    (h : DistinctSources sources) (hperm : sources.Perm sources') :
    sortSources sources = sortSources sources' :=
  KeySort.sortByKey_congr hperm h

/-! ## Sweeps -/

section Build

variable {network : NetworkId} {secret : P.SecretKey} {sources sources' : List (SourceUtxo P)}
  {destination destination' : String} {feeRateSatVb maxFeeSat : Nat}
  {prepared : PreparedSourceSweep P}

/-- The deposits of a sweep are different: their neighbours were compared after sorting. -/
theorem buildSourceSweep_distinct
    (h : buildSourceSweep network secret sources destination feeRateSatVb maxFeeSat =
      .ok prepared) : DistinctSources sources := by
  simp only [buildSourceSweep, Except.bind_eq_ok, Except.ensure_eq_ok, exists_unit,
    Except.context_eq_ok, Except.pure_eq_ok] at h
  obtain ⟨_, _, _, _, _, _, _, _, hwindows, _⟩ := h
  exact KeySort.nodup_of_neighbours
    (windows_forall (R := fun a b : SourceUtxo P => a.outpoint ≠ b.outpoint).1 hwindows)

/-- A sweep does not depend on the order of its deposits, nor on how its address is written. -/
theorem buildSourceSweep_perm (hperm : sources.Perm sources')
    (hdestination : P.addressFromStr destination = P.addressFromStr destination')
    (h : buildSourceSweep network secret sources destination feeRateSatVb maxFeeSat =
      .ok prepared) :
    buildSourceSweep network secret sources' destination' feeRateSatVb maxFeeSat =
      .ok prepared := by
  have hsort := (buildSourceSweep_distinct h).sort_congr hperm
  unfold buildSourceSweep at h ⊢
  have hempty : sources' ≠ [] ↔ sources ≠ [] := by
    rw [ne_eq, ne_eq, ← List.length_eq_zero_iff, ← List.length_eq_zero_iff, hperm.length_eq]
  simp only [← hsort, ← hdestination, ← hperm.length_eq, hempty] at h ⊢
  exact h

/-- Every input of a sweep is signed, over all the deposits in their order. -/
theorem buildSourceSweep_signed (haddress : P.AddressP2tr) (hkeypath : P.KeyPathSpend)
    (h : buildSourceSweep network secret sources destination feeRateSatVb maxFeeSat =
      .ok prepared) {index : Nat} (hindex : index < (sortSources sources).length) :
    SpendsKey prepared.transaction ((sortSources sources).map SourceUtxo.output) index := by
  obtain ⟨address, _, outputSat, signatures, _, hscripts, _, _, _, _, _, hsignatures, htransaction⟩ :=
    buildSourceSweep_ok h
  have hlength := hsignatures.length_eq
  rw [List.length_range] at hlength
  have hsigned : index < signatures.length := hlength ▸ hindex
  obtain ⟨sighash, hsighash, hverify⟩ := hsignatures.get (by simpa using hindex) hsigned
  have hstrip : prepared.transaction.stripWitness = sourceSweepTransaction
      ((sortSources sources).map (sourceInput [])) (P.addressScript address) outputSat := by
    rw [htransaction]
    simp only [Transaction.stripWitness, sourceSweepTransaction, signedSources, List.map_zipWith,
      sourceInput, Transaction.mk.injEq, true_and, and_true]
    exact List.zipWith_fst hlength.le
  refine ⟨sourceInput [P.signatureBytes signatures[index]] (sortSources sources)[index],
    (sortSources sources)[index].output, P.xOnlyPublicKey (P.tapTweak secret), _, sighash, ?_, ?_,
    ?_, rfl, ?_, hverify⟩
  · rw [htransaction]
    simp only [sourceSweepTransaction, signedSources]
    rw [List.getElem?_zipWith, List.getElem?_eq_getElem hindex, List.getElem?_eq_getElem hsigned]
  · rw [List.getElem?_map, List.getElem?_eq_getElem hindex]
    rfl
  · rw [hscripts _ (List.getElem_mem hindex), sourceFundingAddress, haddress, hkeypath]
  · rw [hstrip]
    simpa using hsighash

end Build

/-! ## Journals -/

namespace SourceSweepJournal

/-- The same sweep: the same deposits, in any order, the same address, and the same fee policy. -/
structure SameSweep (journal journal' : SourceSweepJournal P) : Prop where
  network : journal.network = journal'.network
  sources : journal.sources.Perm journal'.sources
  destination : P.addressFromStr journal.destination = P.addressFromStr journal'.destination
  feeRateSatVb : journal.feeRateSatVb = journal'.feeRateSatVb
  maxFeeSat : journal.maxFeeSat = journal'.maxFeeSat

variable {secret : P.SecretKey} {network : NetworkId} {sources sources' : List (SourceUtxo P)}
  {destination : String} {feeRateSatVb maxFeeSat : Nat} {journal journal' : SourceSweepJournal P}

/-- A journal is valid if it holds what is built for it. -/
theorem validate_eq_ok : journal.validate secret = .ok () ↔
    journal.formatVersion = fileFormatVersion ∧
      buildSourceSweep journal.network secret journal.sources journal.destination
        journal.feeRateSatVb journal.maxFeeSat = .ok ⟨journal.transaction, journal.feeSat⟩ := by
  simp only [validate, Except.bind_eq_ok, Except.ensure_eq_ok, exists_unit]
  constructor
  · rintro ⟨hversion, ⟨transaction, feeSat⟩, hbuild, rfl, rfl⟩
    exact ⟨hversion, hbuild⟩
  · rintro ⟨hversion, hbuild⟩
    exact ⟨hversion, _, hbuild, rfl, rfl⟩

/-- A new journal is valid, and holds the deposits in their order. -/
theorem prepare_eq_ok :
    prepare secret network sources destination feeRateSatVb maxFeeSat = .ok journal ↔
      ∃ address prepared, P.addressFromStr destination = some address ∧
        P.addressOnNetwork address network = true ∧
        buildSourceSweep network secret (sortSources sources) (P.addressToString address)
          feeRateSatVb maxFeeSat = .ok prepared ∧
        journal = ⟨fileFormatVersion, network, P.addressToString address, sortSources sources,
          feeRateSatVb, maxFeeSat, prepared.feeSat, prepared.transaction, .prepared⟩ := by
  simp only [prepare, Except.bind_eq_ok, Except.ensure_eq_ok, exists_unit, Except.context_eq_ok,
    Except.pure_eq_ok]
  constructor
  · rintro ⟨address, haddress, hnetwork, prepared, hbuild, rfl⟩
    exact ⟨address, prepared, haddress, hnetwork, hbuild, rfl⟩
  · rintro ⟨address, prepared, haddress, hnetwork, hbuild, rfl⟩
    exact ⟨address, haddress, hnetwork, prepared, hbuild, rfl⟩

theorem prepare_validate
    (h : prepare secret network sources destination feeRateSatVb maxFeeSat = .ok journal) :
    journal.sources = sortSources sources ∧ journal.validate secret = .ok () := by
  obtain ⟨address, prepared, _, _, hbuild, rfl⟩ := prepare_eq_ok.1 h
  exact ⟨rfl, validate_eq_ok.2 ⟨rfl, hbuild⟩⟩

/-- The journal does not depend on the order in which the deposits are listed. -/
theorem prepare_perm (hperm : sources.Perm sources')
    (h : prepare secret network sources destination feeRateSatVb maxFeeSat = .ok journal) :
    prepare secret network sources' destination feeRateSatVb maxFeeSat = .ok journal := by
  obtain ⟨address, prepared, haddress, hnetwork, hbuild, rfl⟩ := prepare_eq_ok.1 h
  have hdistinct := (buildSourceSweep_distinct hbuild).perm sortSources_perm
  have hsort := hdistinct.sort_congr hperm
  rw [hsort] at hbuild ⊢
  exact prepare_eq_ok.2 ⟨address, prepared, haddress, hnetwork, hbuild, rfl⟩

/-- Valid journals for the same sweep hold the same transaction. -/
theorem validate_unique (h : journal.validate secret = .ok ())
    (h' : journal'.validate secret = .ok ()) (hsame : SameSweep journal journal') :
    journal.transaction = journal'.transaction ∧ journal.feeSat = journal'.feeSat := by
  have hbuild := buildSourceSweep_perm hsame.sources hsame.destination (validate_eq_ok.1 h).2
  have hbuild' := (validate_eq_ok.1 h').2
  rw [hsame.network, hsame.feeRateSatVb, hsame.maxFeeSat] at hbuild
  have heq := Except.ok.inj (hbuild.symm.trans hbuild')
  exact ⟨congrArg (·.transaction) heq, congrArg (·.feeSat) heq⟩

/-- Resuming a sweep needs the saved deposits, not their order. -/
theorem validate_perm {stored : List (SourceUtxo P)} (hperm : stored.Perm journal.sources)
    (h : journal.validate secret = .ok ()) :
    SourceSweepJournal.validate { journal with sources := stored } secret = .ok () := by
  obtain ⟨hversion, hbuild⟩ := validate_eq_ok.1 h
  exact validate_eq_ok.2 ⟨hversion, buildSourceSweep_perm hperm.symm rfl hbuild⟩

/-- A sweep does not depend on the order in which the deposits are listed: listed in another order
they give the same journal. It spends each of them once, in ascending order and with a valid
signature, and every valid journal for the same sweep holds the same transaction. -/
theorem sweep_order_independent (haddress : P.AddressP2tr) (hkeypath : P.KeyPathSpend)
    (secret : P.SecretKey) (network : NetworkId) (sources : List (SourceUtxo P))
    (destination : String) (feeRateSatVb maxFeeSat : Nat) :
    (∀ sources', sources.Perm sources' → ∀ journal,
      prepare secret network sources destination feeRateSatVb maxFeeSat = .ok journal ↔
        prepare secret network sources' destination feeRateSatVb maxFeeSat = .ok journal) ∧
    ∀ journal, prepare secret network sources destination feeRateSatVb maxFeeSat = .ok journal →
      journal.sources.Perm sources ∧
      spentOutputs journal.transaction = journal.sources.map SourceUtxo.outpoint ∧
      (spentOutputs journal.transaction).Pairwise (fun a b => OutPoint.le a b ∧ a ≠ b) ∧
      (∀ index < journal.sources.length,
        SpendsKey journal.transaction (journal.sources.map SourceUtxo.output) index) ∧
      journal.validate secret = .ok () ∧
      (∀ stored : List (SourceUtxo P), stored.Perm journal.sources →
        SourceSweepJournal.validate { journal with sources := stored } secret = .ok ()) ∧
      ∀ other : SourceSweepJournal P, other.validate secret = .ok () → SameSweep other journal →
        other.transaction = journal.transaction ∧ other.feeSat = journal.feeSat := by
  refine ⟨fun sources' hperm journal => ⟨prepare_perm hperm, prepare_perm hperm.symm⟩,
    fun journal hprepare => ?_⟩
  obtain ⟨hsources, hvalid⟩ := prepare_validate hprepare
  have hbuild := (validate_eq_ok.1 hvalid).2
  have hsorted : sortSources journal.sources = journal.sources := by
    rw [hsources, sortSources_sortSources]
  have hspent := buildSourceSweep_spent hbuild
  have hascends := KeySort.sortByKey_ascends (r := OutPoint.le) (buildSourceSweep_distinct hbuild)
  rw [← sortSources_eq, hsorted] at hascends
  rw [hsorted] at hspent
  refine ⟨hsources ▸ sortSources_perm, hspent, hspent ▸ hascends, fun index hindex => ?_, hvalid,
    fun stored hperm => validate_perm hperm hvalid,
    fun other hother hsame => validate_unique hother hvalid hsame⟩
  have hsigned := buildSourceSweep_signed haddress hkeypath hbuild (hsorted.symm ▸ hindex)
  rw [hsorted] at hsigned
  exact hsigned

section Demo

open Symbolic

/-- A deposit of the key 7, in output `vout` of the transaction 40. -/
def depositAt (vout : Nat) : SourceUtxo exactPlatform where
  outpoint := ⟨(40 : Nat), vout⟩
  output := { value := 1000, scriptPubkey := 0x51 :: 1 :: (bytes 7).toList }
  confirmations := 1
  coinbase := false

def sweepAddress : String :=
  exactPlatform.addressToString (⟨.regtest, 0x51 :: 1 :: (bytes 30).toList⟩ : Address)

theorem sweep_order_independent_two : ∃ journal,
    prepare (bytes 7) .regtest [depositAt 1, depositAt 0] sweepAddress 1 500 = .ok journal ∧
    prepare (bytes 7) .regtest [depositAt 0, depositAt 1] sweepAddress 1 500 = .ok journal ∧
    SpendsKey journal.transaction (journal.sources.map SourceUtxo.output) 1 ∧
    SourceSweepJournal.validate { journal with sources := [depositAt 1, depositAt 0] } (bytes 7) =
      .ok () := by
  have hsome : (prepare (bytes 7) .regtest [depositAt 1, depositAt 0] sweepAddress 1
      500).toOption.isSome = true := by
    decide +kernel
  obtain ⟨hsame, hall⟩ := sweep_order_independent addressP2tr keyPathSpend (bytes 7) .regtest
    [depositAt 1, depositAt 0] sweepAddress 1 500
  cases hprepare : prepare (bytes 7) .regtest [depositAt 1, depositAt 0] sweepAddress 1 500 with
  | error e =>
    rw [hprepare] at hsome
    cases hsome
  | ok journal =>
    obtain ⟨hperm, _, _, hsigned, _, hstored, _⟩ := hall journal hprepare
    have hswap := (hsame _ (List.Perm.swap _ _ []) journal).1 hprepare
    refine ⟨journal, rfl, hswap, hsigned 1 ?_, hstored _ hperm.symm⟩
    rw [hperm.length_eq]
    decide

end Demo

end SourceSweepJournal

end Tinylayer
