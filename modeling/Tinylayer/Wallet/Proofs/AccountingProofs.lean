import Tinylayer.Wallet.Proofs.MachineProofs
import Tinylayer.Wallet.Proofs.SweepOrderProofs

/-!
# Proofs: fees

Whatever the builders of a funding, a sweep and an exit return pays its fee to the satoshi, and at
the asked rate: a placeholder signature is as long as the one that replaces it. On machine integers
they compute the same, without a panic.
-/

open MayPanic (Computes)

namespace Tinylayer

variable {P : Platform}

/-! ## Sizes -/

section Sizes

variable (hsize : P.SizeLaws) (hcodec : P.SignatureCodec)
include hsize hcodec

theorem vsize_sourceFundingTransaction (source : SourceUtxo P) (statechainScript changeScript : Script)
    (amountSat changeSat : Nat) (signature : P.Signature) :
    P.vsize (sourceFundingTransaction source placeholderWitness statechainScript changeScript
        amountSat 0) =
      P.vsize (sourceFundingTransaction source [P.signatureBytes signature] statechainScript
        changeScript amountSat changeSat) := by
  refine hsize.of_lengths _ _ ?_
  simp [Transaction.lengths, sourceFundingTransaction, sourceInput, placeholderWitness,
    hcodec.length_eq]

theorem vsize_sourceSweepTransaction {sources : List (SourceUtxo P)} {signatures : List P.Signature}
    (hlength : sources.length = signatures.length) (destination : Script) (value : Nat) :
    P.vsize (sourceSweepTransaction (sources.map (sourceInput placeholderWitness)) destination 0) =
      P.vsize (sourceSweepTransaction (signedSources sources signatures) destination value) := by
  refine hsize.of_lengths _ _ ?_
  simp only [Transaction.lengths, sourceSweepTransaction, signedSources, List.map_zipWith,
    List.map_map, sourceInput, placeholderWitness, List.map_cons, List.map_nil, hcodec.length_eq,
    List.length_replicate, Prod.mk.injEq, and_true, Function.comp_def]
  exact (List.zipWith_fst hlength.le).symm

theorem vsize_exitChild (parent : P.Tx) (amountSat value : Nat) (destination : Script)
    (signature : P.Signature) :
    P.vsize (exitChild parent amountSat destination [List.replicate 64 0]) =
      P.vsize (exitChild parent value destination [P.signatureBytes signature]) := by
  refine hsize.of_lengths _ _ ?_
  simp [Transaction.lengths, exitChild, hcodec.length_eq]

end Sizes

/-! ## Fees -/

/-- Transactions of the given size that spend `spentSat` and create `outputs` pay their fee. -/
structure PaysFee (P : Platform) (spentSat : Nat) (outputs : List TxOut)
    (feeSat feeRateSatVb vsize maxFeeSat : Nat) : Prop where
  balance : spentSat = (outputs.map TxOut.value).sum + feeSat
  rate : feeSat = feeRateSatVb * vsize
  cap : feeSat ≤ maxFeeSat
  not_dust : ∀ output ∈ outputs, P.minimalNonDust output.scriptPubkey ≤ output.value

/-- Checked addition adds up. -/
theorem sum_of_foldlM {sources : List (SourceUtxo P)} {start total : Nat}
    (h : sources.foldlM (fun total source => (checkedAdd u64Max total source.output.value).context
      "source sweep input amount overflow") start = .ok total) :
    total = start + (sources.map fun source => source.output.value).sum := by
  induction sources generalizing start with
  | nil =>
    simp only [List.foldlM_nil, Except.pure_eq_ok] at h
    simp [h]
  | cons source sources ih =>
    simp only [List.foldlM_cons, Except.bind_eq_ok, Except.context_eq_ok, checkedAdd_eq_some] at h
    obtain ⟨_, ⟨_, rfl⟩, hrest⟩ := h
    rw [ih hrest, List.map_cons, List.sum_cons, Nat.add_assoc]

section Fees

variable (hsize : P.SizeLaws) (hcodec : P.SignatureCodec)
include hsize hcodec

theorem buildSourceFunding_paysFee {keys : CoinKeys P} {network : NetworkId}
    {secret : P.SecretKey} {source : SourceUtxo P} {amountSat feeRateSatVb maxFeeSat : Nat}
    {funding : PreparedSourceFunding P}
    (h : buildSourceFunding keys network secret source amountSat feeRateSatVb maxFeeSat =
      .ok funding) :
    PaysFee P source.output.value funding.transaction.output funding.feeSat feeRateSatVb
        (P.vsize funding.transaction) maxFeeSat ∧
      funding.transaction.output[0]? = some ⟨amountSat, fundingScript keys⟩ := by
  simp only [buildSourceFunding, Except.bind_eq_ok, Except.ensure_eq_ok, exists_unit,
    Except.context_eq_ok, Except.pure_eq_ok, Option.bind_eq_some_iff, checkedSub_eq_some,
    toU64_eq_some] at h
  obtain ⟨_, _, _, _, _, _, hamountDust, fee, ⟨_, hfee⟩, hmax, change,
    ⟨_, ⟨hamount, rfl⟩, hchange, rfl⟩, hchangeDust, sighash, _, _, _, rfl⟩ := h
  refine ⟨⟨?_, ?_, hmax, ?_⟩, rfl⟩
  · simp only [sourceFundingTransaction, List.map_cons, List.map_nil, List.sum_cons, List.sum_nil]
    omega
  · rw [← hfee]
    exact congrArg _ (vsize_sourceFundingTransaction hsize hcodec _ _ _ _ _ _)
  · simp only [sourceFundingTransaction, List.forall_mem_cons]
    exact ⟨hamountDust, hchangeDust, by simp⟩

theorem buildSourceSweep_paysFee {network : NetworkId} {secret : P.SecretKey}
    {sources : List (SourceUtxo P)} {destination : String} {feeRateSatVb maxFeeSat : Nat}
    {sweep : PreparedSourceSweep P}
    (h : buildSourceSweep network secret sources destination feeRateSatVb maxFeeSat = .ok sweep) :
    PaysFee P (sources.map fun source => source.output.value).sum sweep.transaction.output
      sweep.feeSat feeRateSatVb (P.vsize sweep.transaction) maxFeeSat := by
  obtain ⟨address, inputSat, outputSat, signatures, _, _, hsum, hfee, hmax, hbalance, hdust,
    hsignatures, htransaction⟩ := buildSourceSweep_ok h
  have hlength := hsignatures.length_eq
  rw [List.length_range] at hlength
  have htotal : inputSat = (sources.map fun source => source.output.value).sum := by
    rw [sum_of_foldlM hsum, Nat.zero_add]
    exact (sortSources_perm.map _).sum_eq
  rw [htransaction]
  refine ⟨?_, ?_, hmax, ?_⟩
  · rw [← htotal, hbalance]
    simp [sourceSweepTransaction]
  · rw [hfee, vsize_sourceSweepTransaction hsize hcodec hlength]
  · simpa [sourceSweepTransaction] using hdust

/-- The exit pays with the child alone, for parent and child: the parent passes its amount on. -/
theorem ExitPackage.prepare_paysFee {coin : WalletCoin P} {network : NetworkId}
    {destination : String} {fundingConfirmations feeRateSatVb maxFeeSat : Nat}
    {package : ExitPackage P}
    (h : ExitPackage.prepare coin network destination fundingConfirmations feeRateSatVb maxFeeSat =
      .ok package) :
    ∃ metadata, coin.metadata = some metadata ∧
      spentOutputs package.parent = [metadata.outpoint] ∧
      PaysFee P metadata.amountSat package.parent.output 0 0 (P.vsize package.parent) maxFeeSat ∧
      spentOutputs package.child = [⟨P.computeTxid package.parent, 0⟩] ∧
      PaysFee P metadata.amountSat package.child.output package.feeSat feeRateSatVb
        (P.vsize package.parent + P.vsize package.child) maxFeeSat := by
  simp only [prepare, Except.bind_eq_ok, Except.ensure_eq_ok, exists_unit, Client.lift_eq_ok,
    Except.pure_eq_ok, Prod.exists] at h
  obtain ⟨_, address, _, metadata, recovery, key, howned, _, child, hchild, fee, hfee, hmax, _,
    rfl⟩ := h
  obtain ⟨hmetadata, _, _, _, _, _, _, _, hverify⟩ := ownedRecovery_eq_ok.1 howned
  have hverified := verifyRecovery_eq_ok.1 hverify
  have hspent := buildExitChild_spent hchild
  simp only [buildExitChild, Except.bind_eq_ok, Except.ensure_eq_ok, exists_unit,
    Except.context_eq_ok, Except.pure_eq_ok, verifySignature_eq_ok, checkedSub_eq_some] at hchild
  obtain ⟨_, _, _, _, _, _, ⟨hcovers, rfl⟩, hdust, sighash, _, _, rfl⟩ := hchild
  simp only [exitFee, Except.bind_eq_ok, Except.context_eq_ok, checkedSub_eq_some] at hfee
  obtain ⟨output, houtput, hle, rfl⟩ := hfee
  obtain rfl := Option.some.inj houtput
  refine ⟨metadata, hmetadata, hverified.spent, ⟨?_, ?_, Nat.zero_le _, ?_⟩, hspent, ?_, ?_, hmax, ?_⟩
  · simp [hverified.output]
  · simp
  · simpa [hverified.output] using hverified.terms.not_dust
  · simp only [exitChild, List.map_cons, List.map_nil, List.sum_cons, List.sum_nil] at hle ⊢
    omega
  · dsimp only
    rw [← vsize_exitChild hsize hcodec recovery.transaction metadata.amountSat]
    omega
  · simpa [exitChild] using hdust

end Fees

/-! ## All builders -/

/-- The builders of a funding, a sweep and an exit pay their fee exactly, and on machine integers
they compute the same without a panic. -/
theorem fees_exact (hsize : P.SizeLaws) (hcodec : P.SignatureCodec) :
    (∀ (keys : CoinKeys P) (network : NetworkId) (secret : P.SecretKey) (source : SourceUtxo P)
      (amountSat feeRateSatVb maxFeeSat : Nat) (funding : PreparedSourceFunding P),
      buildSourceFunding keys network secret source amountSat feeRateSatVb maxFeeSat =
        .ok funding →
      PaysFee P source.output.value funding.transaction.output funding.feeSat feeRateSatVb
          (P.vsize funding.transaction) maxFeeSat ∧
        funding.transaction.output[0]? = some ⟨amountSat, fundingScript keys⟩) ∧
    (∀ (network : NetworkId) (secret : P.SecretKey) (sources : List (SourceUtxo P))
      (destination : String) (feeRateSatVb maxFeeSat : Nat) (sweep : PreparedSourceSweep P),
      buildSourceSweep network secret sources destination feeRateSatVb maxFeeSat = .ok sweep →
      PaysFee P (sources.map fun source => source.output.value).sum sweep.transaction.output
        sweep.feeSat feeRateSatVb (P.vsize sweep.transaction) maxFeeSat) ∧
    (∀ (coin : WalletCoin P) (network : NetworkId) (destination : String)
      (fundingConfirmations feeRateSatVb maxFeeSat : Nat) (package : ExitPackage P),
      ExitPackage.prepare coin network destination fundingConfirmations feeRateSatVb maxFeeSat =
        .ok package →
      ∃ metadata, coin.metadata = some metadata ∧
        spentOutputs package.parent = [metadata.outpoint] ∧
        PaysFee P metadata.amountSat package.parent.output 0 0 (P.vsize package.parent) maxFeeSat ∧
        spentOutputs package.child = [⟨P.computeTxid package.parent, 0⟩] ∧
        PaysFee P metadata.amountSat package.child.output package.feeSat feeRateSatVb
          (P.vsize package.parent + P.vsize package.child) maxFeeSat) ∧
    ∀ feeRateSatVb ≤ u64Max,
      (∀ (keys : CoinKeys P) network secret source amountSat maxFeeSat,
        Computes (Machine.buildSourceFunding keys network secret source amountSat feeRateSatVb
            maxFeeSat)
          (buildSourceFunding keys network secret source amountSat feeRateSatVb maxFeeSat)) ∧
      (∀ network (secret : P.SecretKey) sources destination maxFeeSat,
        Computes (Machine.buildSourceSweep network secret sources destination feeRateSatVb
            maxFeeSat)
          (buildSourceSweep network secret sources destination feeRateSatVb maxFeeSat)) ∧
      ∀ (coin : WalletCoin P) network destination fundingConfirmations maxFeeSat,
        Computes (Machine.ExitPackage.prepare coin network destination fundingConfirmations
            feeRateSatVb maxFeeSat)
          (ExitPackage.prepare coin network destination fundingConfirmations feeRateSatVb
            maxFeeSat) := by
  refine ⟨?_, ?_, ?_, fun feeRateSatVb hrate => ⟨?_, ?_, ?_⟩⟩
  · intro _ _ _ _ _ _ _ _ h
    exact buildSourceFunding_paysFee hsize hcodec h
  · intro _ _ _ _ _ _ _ h
    exact buildSourceSweep_paysFee hsize hcodec h
  · intro _ _ _ _ _ _ _ h
    exact ExitPackage.prepare_paysFee hsize hcodec h
  · exact Machine.Library.oneLeaf_lawful.buildSourceFunding_computes hsize hrate
  · exact Machine.buildSourceSweep_computes hsize hrate
  · exact Machine.Library.oneLeaf_lawful.preparePackage_computes hsize hrate

section Demo

open Symbolic

/-- An exit of the funded coin pays for parent and child. -/
theorem fees_exact_exit : ∃ (coin : WalletCoin exactPlatform) (journal : ExitJournal exactPlatform)
    (metadata : CoinMetadata exactPlatform), exactExit = some (coin, journal) ∧
    PaysFee exactPlatform metadata.amountSat journal.package.child.output journal.package.feeSat 1
      222 500 := by
  have hprepared : ∀ exit ∈ exactExit, ExitPackage.prepare exit.1 .regtest
      exit.2.package.destination 100 1 500 = .ok exit.2.package := by
    decide +kernel
  obtain ⟨⟨coin, journal⟩, hexit⟩ := Option.isSome_iff_exists.1 exactExit_observed.1
  obtain ⟨_, _, hexact, _⟩ := fees_exact exactSizeLaws exactSignatureCodec
  obtain ⟨metadata, _, _, _, _, hpays⟩ := hexact _ _ _ _ _ _ _ (hprepared _ hexit)
  exact ⟨coin, journal, metadata, hexit, hpays⟩

end Demo

end Tinylayer
