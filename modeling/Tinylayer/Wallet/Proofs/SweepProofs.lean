import Tinylayer.Wallet.Exit
import Tinylayer.Wallet.Funding
import Tinylayer.Wallet.Proofs.StateProofs

/-!
# Sweeps and exits

What the journals of a sweep and of an exit consist of, and when their stages change.
-/

/-- Zipping with a function that ignores the second list. -/
theorem List.zipWith_fst {α β γ : Type} {f : α → γ} {l : List α} {r : List β}
    (h : l.length ≤ r.length) : l.zipWith (fun a _ => f a) r = l.map f := by
  refine List.ext_getElem (by simpa using h) fun i _ _ => ?_
  rw [List.getElem_zipWith, List.getElem_map]

namespace Tinylayer

variable {P : Platform}

/-- An input spends its output along the key path: its witness is one signature, of all `prevouts`,
that is valid for the output key. -/
structure SpendsKey (tx : P.Tx) (prevouts : List TxOut) (index : Nat) : Prop where
  spend : ∃ input prevout outputKey signature digest, tx.input[index]? = some input ∧
    prevouts[index]? = some prevout ∧ prevout.scriptPubkey = P.newP2trTweaked outputKey ∧
    input.witness = [P.signatureBytes signature] ∧
    P.keySpendSighash tx.stripWitness index prevouts = some digest ∧
    P.verifySchnorr signature digest outputKey = true

theorem mem_sortSources {sources : List (SourceUtxo P)} {source : SourceUtxo P} :
    source ∈ sortSources sources ↔ source ∈ sources := by
  unfold sortSources
  exact (List.perm_insertionSort _ sources).mem_iff

section Build

variable {network : NetworkId} {secret : P.SecretKey} {sources : List (SourceUtxo P)}
  {destination : String} {feeRateSatVb maxFeeSat : Nat} {prepared : PreparedSourceSweep P}

/-- The inputs of a sweep, each with its signature. -/
def signedSources (sources : List (SourceUtxo P)) (signatures : List P.Signature) :
    List (TxIn P.Txid) :=
  sources.zipWith (fun source signature => sourceInput [P.signatureBytes signature] source)
    signatures

/-- What `build_source_sweep` returns: the deposits, sorted and signed, pay one output. -/
theorem buildSourceSweep_ok
    (h : buildSourceSweep network secret sources destination feeRateSatVb maxFeeSat =
      .ok prepared) :
    ∃ address inputSat outputSat signatures, P.addressFromStr destination = some address ∧
      (∀ source ∈ sortSources sources, source.output.scriptPubkey =
        P.addressScript (sourceFundingAddress secret network)) ∧
      (sortSources sources).foldlM (fun total source =>
        (checkedAdd u64Max total source.output.value).context
          "source sweep input amount overflow") 0 = .ok inputSat ∧
      prepared.feeSat = feeRateSatVb * P.vsize (sourceSweepTransaction
        ((sortSources sources).map (sourceInput placeholderWitness)) (P.addressScript address) 0) ∧
      prepared.feeSat ≤ maxFeeSat ∧ inputSat = outputSat + prepared.feeSat ∧
      P.minimalNonDust (P.addressScript address) ≤ outputSat ∧
      List.Forall₂ (fun index signature => ∃ sighash,
        P.keySpendSighash (sourceSweepTransaction ((sortSources sources).map (sourceInput []))
          (P.addressScript address) outputSat) index ((sortSources sources).map SourceUtxo.output) =
            some sighash ∧
        P.verifySchnorr signature sighash (P.xOnlyPublicKey (P.tapTweak secret)) = true)
        (List.range (sortSources sources).length) signatures ∧
      prepared.transaction = sourceSweepTransaction (signedSources (sortSources sources) signatures)
        (P.addressScript address) outputSat := by
  simp only [buildSourceSweep, Except.bind_eq_ok, Except.ensure_eq_ok, exists_unit,
    Except.context_eq_ok, Except.pure_eq_ok, Except.mapM_eq_ok, Except.checkAll_eq_ok,
    toU64_eq_some, checkedSub_eq_some] at h
  obtain ⟨_, _, _, address, haddress, _, _, hchecked, _, inputSat, hsum, feeSat, ⟨_, rfl⟩, hmax,
    outputSat, ⟨hle, rfl⟩, hdust, signatures, hsignatures, _, rfl⟩ := h
  refine ⟨address, inputSat, _, signatures, haddress, fun source hmem => (hchecked source hmem).2.2.2,
    hsum, rfl, hmax, (Nat.sub_add_cancel hle).symm, hdust, hsignatures.imp ?_, rfl⟩
  rintro index signature ⟨sighash, hsighash, hverify, rfl⟩
  exact ⟨sighash, hsighash, hverify⟩

/-- A sweep spends its sources, in the order of their outputs. -/
theorem buildSourceSweep_spent
    (h : buildSourceSweep network secret sources destination feeRateSatVb maxFeeSat =
      .ok prepared) :
    spentOutputs prepared.transaction = (sortSources sources).map SourceUtxo.outpoint := by
  obtain ⟨_, _, _, signatures, _, _, _, _, _, _, _, hsignatures, htransaction⟩ :=
    buildSourceSweep_ok h
  have hlength := hsignatures.length_eq
  rw [List.length_range] at hlength
  simp only [htransaction, spentOutputs, sourceSweepTransaction, signedSources, List.map_zipWith,
    sourceInput]
  exact List.zipWith_fst hlength.le

end Build

namespace SourceSweepJournal

variable {secret : P.SecretKey} {journal journal' : SourceSweepJournal P}

theorem spent_of_validate (h : journal.validate secret = .ok ()) :
    spentOutputs journal.transaction = (sortSources journal.sources).map SourceUtxo.outpoint := by
  simp only [validate, Except.bind_eq_ok, Except.ensure_eq_ok, exists_unit] at h
  obtain ⟨_, expected, hbuild, _, htransaction⟩ := h
  rw [← htransaction]
  exact buildSourceSweep_spent hbuild

theorem armSubmission_eq_ok :
    journal.armSubmission secret = .ok journal' ↔
      journal.validate secret = .ok () ∧ { journal with stage := .submissionArmed } = journal' := by
  simp [armSubmission]

theorem markObserved_eq_ok {observed : P.Tx} :
    journal.markObserved secret observed = .ok journal' ↔
      journal.validate secret = .ok () ∧ journal.stage = .submissionArmed ∧
        observed = journal.transaction ∧ { journal with stage := .observed } = journal' := by
  simp [markObserved]

/-- A new journal is in its first stage, sweeps the given sources, and has its destination in the
canonical spelling. -/
theorem prepare_ok {network : NetworkId} {sources : List (SourceUtxo P)} {destination : String}
    {feeRateSatVb maxFeeSat : Nat}
    (h : prepare secret network sources destination feeRateSatVb maxFeeSat = .ok journal) :
    journal.stage = .prepared ∧ (∃ address, journal.destination = P.addressToString address) ∧
      ∀ input, input ∈ spentOutputs journal.transaction ↔
        ∃ source ∈ sources, source.outpoint = input := by
  simp only [prepare, Except.bind_eq_ok, Except.ensure_eq_ok, exists_unit, Except.context_eq_ok,
    Except.pure_eq_ok] at h
  obtain ⟨address, _, _, prepared, hbuild, rfl⟩ := h
  refine ⟨rfl, ⟨address, rfl⟩, fun input => ?_⟩
  simp only [buildSourceSweep_spent hbuild, List.mem_map, mem_sortSources]

end SourceSweepJournal

/-! ## Exits -/

/-- The child of a verified recovery, if the coin pays for the package. -/
theorem buildExitChild_of_affordable (hschnorr : P.SchnorrCorrect) (hsighash : P.SighashDefined)
    {metadata : CoinMetadata P} {recovery : SignedRecovery P} {key : P.SecretKey}
    (hverified : VerifiedRecovery metadata recovery)
    (hkey : recovery.withdrawalXonlyPubkey = secretXonly key) {destination : Script}
    {feeRateSatVb fee : Nat}
    (hfee : fee = feeRateSatVb * (P.vsize recovery.transaction + P.vsize
      (exitChild recovery.transaction metadata.amountSat destination [List.replicate 64 0])))
    (hpays : fee + P.minimalNonDust destination ≤ metadata.amountSat) :
    ∃ child, buildExitChild recovery metadata.amountSat key destination feeRateSatVb = .ok child ∧
      exitFee metadata child = .ok fee := by
  obtain ⟨input, _, hinput, _⟩ := hverified.signed
  have houtput := hverified.output
  obtain ⟨child, hchild⟩ : ∃ child, child = exitChild recovery.transaction
    (metadata.amountSat - fee) destination [] := ⟨_, rfl⟩
  obtain ⟨sighash, hdefined⟩ := Option.isSome_iff_exists.1 (hsighash.keySpend child 0
    [{ value := metadata.amountSat, scriptPubkey := P.newP2tr recovery.withdrawalXonlyPubkey }]
    (by simp [hchild, exitChild]) (by simp [hchild, exitChild]))
  refine ⟨exitChild recovery.transaction (metadata.amountSat - fee) destination
    [P.signatureBytes (P.signSchnorr (P.tapTweak key) sighash)], ?_, ?_⟩
  · simp only [buildExitChild, Except.bind_eq_ok, Except.ensure_eq_ok, exists_unit,
      Except.context_eq_ok, Except.pure_eq_ok, verifySignature_eq_ok, checkedSub_eq_some, ← hfee]
    refine ⟨by simp [hinput, houtput], hkey.symm, _, by rw [houtput]; rfl, ⟨rfl, ?_⟩,
      metadata.amountSat - fee, ⟨by omega, rfl⟩, by omega, sighash, ?_, hschnorr _ _, rfl⟩
    · exact congrArg P.newP2tr hkey
    · rw [← hchild]
      exact hdefined
  · simp only [exitFee, Except.bind_eq_ok, Except.context_eq_ok, checkedSub_eq_some]
    exact ⟨_, rfl, by simp, by dsimp only; omega⟩

theorem parseDestination_eq_ok {network : NetworkId} {destination invalid wrongNetwork : String}
    {address : P.Address} :
    parseDestination network destination invalid wrongNetwork = .ok address ↔
      P.addressFromStr destination = some address ∧ P.addressOnNetwork address network = true := by
  simp only [parseDestination, Except.bind_eq_ok, Except.context_eq_ok, Except.ensure_eq_ok,
    exists_unit, Except.pure_eq_ok]
  constructor
  · rintro ⟨address, haddress, hnetwork, rfl⟩
    exact ⟨haddress, hnetwork⟩
  · rintro ⟨haddress, hnetwork⟩
    exact ⟨address, haddress, hnetwork, rfl⟩

namespace ExitJournal

variable {coin : WalletCoin P} {journal journal' : ExitJournal P}

theorem armSubmission_eq_ok :
    journal.armSubmission coin = .ok journal' ↔
      journal.validate coin = .ok () ∧ { journal with stage := .submissionArmed } = journal' := by
  simp [armSubmission]

theorem markObserved_ok {parent child : P.Tx}
    (h : journal.markObserved coin parent child = .ok journal') :
    journal.stage = .submissionArmed ∧ { journal with stage := .observed } = journal' := by
  simp only [markObserved, Except.bind_eq_ok, Except.ensure_eq_ok, exists_unit,
    Except.pure_eq_ok] at h
  obtain ⟨_, hstage, _, _, hjournal⟩ := h
  exact ⟨hstage, hjournal⟩

theorem prepare_ok {network : NetworkId} {destination : String}
    {fundingConfirmations feeRateSatVb maxFeeSat : Nat}
    (h : prepare coin network destination fundingConfirmations feeRateSatVb maxFeeSat =
      .ok journal) : journal.stage = .prepared := by
  simp only [prepare, Except.bind_eq_ok, Except.pure_eq_ok] at h
  obtain ⟨_, _, rfl⟩ := h
  rfl

end ExitJournal

theorem ownedRecovery_eq_ok {coin : WalletCoin P} {network : NetworkId}
    {metadata : CoinMetadata P} {recovery : SignedRecovery P} {key : P.SecretKey} :
    ownedRecovery coin network = .ok (metadata, recovery, key) ↔
      coin.metadata = some metadata ∧ metadata.network = network ∧
      (∀ funding ∈ coin.funding, funding.stage = .broadcast) ∧
      WalletState.ownedWithdrawalKey coin = .ok key ∧
      ∃ index, coin.withdrawalRecoveryIndex = some index ∧
        coin.history[index]? = some recovery ∧
        recovery.withdrawalXonlyPubkey = secretXonly key ∧
        verifyRecovery metadata recovery = .ok () := by
  simp only [ownedRecovery, Except.bind_eq_ok, Except.context_eq_ok, Except.ensure_eq_ok,
    exists_unit, Client.lift_eq_ok, Except.pure_eq_ok, Prod.mk.injEq]
  constructor
  · rintro ⟨m, hm, hnetwork, hfunding, key', hkey, index, hindex, r, hr, hpays, hverify, rfl, rfl,
      rfl⟩
    exact ⟨hm, hnetwork, hfunding, hkey, index, hindex, hr, hpays, hverify⟩
  · rintro ⟨hm, hnetwork, hfunding, hkey, index, hindex, hr, hpays, hverify⟩
    exact ⟨metadata, hm, hnetwork, hfunding, key, hkey, index, hindex, recovery, hr, hpays, hverify,
      rfl, rfl, rfl⟩

/-- What a saved package that passes its own check consists of. -/
theorem ExitPackage.validate_ok {package : ExitPackage P} {coin : WalletCoin P}
    (h : package.validate coin = .ok ()) :
    ∃ metadata recovery key, ownedRecovery coin package.network = .ok (metadata, recovery, key) ∧
      package.parent = recovery.transaction ∧
      package.recoveryDelayBlocks = recovery.delayBlocks ∧
      exitFee metadata package.child = .ok package.feeSat ∧ package.feeSat ≤ package.maxFeeSat := by
  simp only [validate, Except.bind_eq_ok, Except.ensure_eq_ok, exists_unit, Client.lift_eq_ok,
    Prod.exists] at h
  obtain ⟨_, _, address, _, metadata, recovery, key, howned, ⟨hdelay, hparent⟩, child, _, _, fee,
    hfee, rfl, hmax⟩ := h
  exact ⟨metadata, recovery, key, howned, hparent.symm, hdelay.symm, hfee, hmax⟩

theorem buildExitChild_spent {recovery : SignedRecovery P} {amountSat : Nat} {key : P.SecretKey}
    {destination : Script} {feeRateSatVb : Nat} {child : P.Tx}
    (h : buildExitChild recovery amountSat key destination feeRateSatVb = .ok child) :
    spentOutputs child = [⟨P.computeTxid recovery.transaction, 0⟩] := by
  simp only [buildExitChild, Except.bind_eq_ok, Except.ensure_eq_ok, exists_unit,
    Except.context_eq_ok, Except.pure_eq_ok] at h
  obtain ⟨_, _, _, _, _, _, _, _, _, _, _, rfl⟩ := h
  rfl

theorem VerifiedRecovery.spent {metadata : CoinMetadata P} {recovery : SignedRecovery P}
    (h : VerifiedRecovery metadata recovery) :
    spentOutputs recovery.transaction = [metadata.outpoint] := by
  have hinputs := congrArg spentOutputs h.stripped
  simpa [spentOutputs, Transaction.stripWitness, recoveryTransaction, Function.comp_def] using hinputs

/-- A saved package that passes its own check spends the funding output with the recovery, and the
recovery with the child. -/
theorem ExitPackage.validate_spent {package : ExitPackage P} {coin : WalletCoin P}
    (h : package.validate coin = .ok ()) {metadata : CoinMetadata P} {recovery : SignedRecovery P}
    {key : P.SecretKey}
    (howned : ownedRecovery coin package.network = .ok (metadata, recovery, key)) :
    package.parent = recovery.transaction ∧ package.recoveryDelayBlocks = recovery.delayBlocks ∧
      metadata.outpoint ∈ spentOutputs package.parent ∧
      ⟨P.computeTxid recovery.transaction, 0⟩ ∈ spentOutputs package.child := by
  simp only [validate, Except.bind_eq_ok, Except.ensure_eq_ok, exists_unit, Client.lift_eq_ok,
    Prod.exists] at h
  obtain ⟨_, _, address, _, metadata', recovery', key', howned', ⟨hdelay, hparent⟩, child, hchild,
    rfl, _⟩ := h
  cases howned.symm.trans howned'
  obtain ⟨_, _, _, _, _, _, _, _, hverified⟩ := ownedRecovery_eq_ok.1 howned
  refine ⟨hparent.symm, hdelay.symm, ?_, ?_⟩
  · rw [← hparent, (verifyRecovery_eq_ok.1 hverified).spent]
    exact List.mem_singleton_self _
  · rw [buildExitChild_spent hchild]
    exact List.mem_singleton_self _

/-- A package for a recovery that is final can be prepared, if the coin pays for it. -/
theorem ExitJournal.prepare_of_affordable (hschnorr : P.SchnorrCorrect)
    (hsighash : P.SighashDefined) (haddress : P.AddressCodec) {coin : WalletCoin P}
    {network : NetworkId} {metadata : CoinMetadata P} {recovery : SignedRecovery P}
    {key : P.SecretKey} (howned : ownedRecovery coin network = .ok (metadata, recovery, key))
    {address : P.Address} (hnetwork : P.addressOnNetwork address network = true)
    {confirmations feeRateSatVb maxFeeSat fee : Nat} (hrate : 0 < feeRateSatVb)
    (hfinal : recovery.delayBlocks ≤ confirmations)
    (hfee : fee = feeRateSatVb * (P.vsize recovery.transaction + P.vsize
      (exitChild recovery.transaction metadata.amountSat (P.addressScript address)
        [List.replicate 64 0])))
    (hpays : fee + P.minimalNonDust (P.addressScript address) ≤ metadata.amountSat)
    (hmax : fee ≤ maxFeeSat) :
    ∃ journal, prepare coin network (P.addressToString address) confirmations feeRateSatVb
        maxFeeSat = .ok journal ∧
      journal.validate coin = .ok () ∧ journal.stage = .prepared ∧
      journal.package.network = network ∧
      journal.package.destination = P.addressToString address ∧
      journal.package.feeRateSatVb = feeRateSatVb ∧ journal.package.maxFeeSat = maxFeeSat := by
  obtain ⟨_, _, _, _, _, _, _, hkey, hverified⟩ := ownedRecovery_eq_ok.1 howned
  obtain ⟨child, hchild, hchildFee⟩ := buildExitChild_of_affordable hschnorr hsighash
    (verifyRecovery_eq_ok.1 hverified) hkey hfee hpays
  have hparse := haddress.fromStr_toString address
  obtain ⟨package, hpackage⟩ : ∃ package : ExitPackage P, package = {
    formatVersion := fileFormatVersion
    network
    destination := P.addressToString address
    feeRateSatVb
    maxFeeSat
    feeSat := fee
    recoveryDelayBlocks := recovery.delayBlocks
    parent := recovery.transaction
    child } := ⟨_, rfl⟩
  have hvalid : package.validate coin = .ok () := by
    rw [hpackage]
    simp only [ExitPackage.validate, Except.bind_eq_ok, Except.ensure_eq_ok, exists_unit,
      Client.lift_eq_ok, parseDestination_eq_ok, Prod.exists]
    exact ⟨trivial, hrate, address, ⟨hparse, hnetwork⟩, metadata, recovery, key, howned, ⟨rfl, rfl⟩,
      child, hchild, rfl, fee, hchildFee, rfl, hmax⟩
  refine ⟨{ package, stage := .prepared }, ?_, hvalid, rfl, by rw [hpackage], by rw [hpackage],
    by rw [hpackage], by rw [hpackage]⟩
  simp only [prepare, ExitPackage.prepare, Except.bind_eq_ok, Except.ensure_eq_ok, exists_unit,
    Client.lift_eq_ok, parseDestination_eq_ok, Except.pure_eq_ok, Prod.exists]
  exact ⟨package, ⟨hrate, address, ⟨hparse, hnetwork⟩, metadata, recovery, key, howned, hfinal, child,
    hchild, fee, hchildFee, hmax, hpackage ▸ hvalid, hpackage.symm⟩, rfl⟩

end Tinylayer
