import Tinylayer.Client.Machine
import Tinylayer.Client.Proofs.RecoveryProofs

/-!
# Proofs: the client does not panic

On machine integers, and with the `expect`s of the source, the functions of the client compute what
they compute without.
-/

open MayPanic (Computes)

namespace Tinylayer.Machine

variable {P : Platform} {ε α : Type}

/-! ## Transactions -/

theorem setWitness_computes {transaction : P.Tx} {index : Nat} {witness : List (List UInt8)}
    {input : TxIn P.Txid} {f : P.Tx → MayPanic ε α} {y : Except ε α}
    (hinput : transaction.input[index]? = some input)
    (hf : Computes (f { transaction with
      input := transaction.input.set index { input with witness } }) y) :
    Computes (setWitness transaction index witness >>= f) y := by
  rw [setWitness, bind_assoc]
  exact .index hinput hf

theorem setValue_computes {transaction : P.Tx} {index value : Nat} {output : TxOut}
    {f : P.Tx → MayPanic ε α} {y : Except ε α}
    (houtput : transaction.output[index]? = some output)
    (hf : Computes (f { transaction with
      output := transaction.output.set index { output with value } }) y) :
    Computes (setValue transaction index value >>= f) y := by
  rw [setValue, bind_assoc]
  exact .index houtput hf

theorem pushWitness_append (transaction : P.Tx) (items items' : List (List UInt8)) :
    (do
      let transaction ← pushWitness transaction items
      pushWitness transaction items') = pushWitness transaction (items ++ items') := by
  cases hinput : transaction.input with
  | nil => simp [pushWitness, hinput, bind, Except.bind]
  | cons input inputs => simp [pushWitness, hinput, bind, Except.bind]

namespace Library

/-- Every slice of two neighbours has both. -/
theorem validateReactionWindows_computes (fundingConfirmations : Nat)
    (history : List (SignedRecovery P)) :
    Computes (validateReactionWindows fundingConfirmations history)
      (checkAll (fun pair => validateReactionWindow fundingConfirmations pair.1.delayBlocks
        pair.2.delayBlocks) (windows history)) :=
  .each_slices fun _ _ => .index rfl (.index rfl (.of _))

namespace Lawful

variable {lib : Library P} (hlib : lib.Lawful)
include hlib

/-! ## The funding output -/

theorem fundingMaterial_computes (keys : CoinKeys P) :
    Computes (lib.fundingMaterial keys : MayPanic ε _)
      (.ok { outputKey := fundingOutputKey keys,
             controlBlock := Tinylayer.fundingControlBlock keys }) := by
  obtain ⟨builder, info, hleaf, hfinal, hkey, hcontrol⟩ :=
    hlib.oneLeaf (fundingTapscript keys) P.numsInternalKey
  unfold fundingMaterial numsInternalKey
  refine .expect hleaf (.expect hlib.internalKey (.expect hfinal (.expect hcontrol ?_)))
  rw [hkey]
  exact .pure _

theorem fundingScript_computes (keys : CoinKeys P) :
    Computes (lib.fundingScript keys : MayPanic ε _) (.ok (Tinylayer.fundingScript keys)) :=
  .value (hlib.fundingMaterial_computes keys) (.pure _)

theorem fundingControlBlock_computes (keys : CoinKeys P) :
    Computes (lib.fundingControlBlock keys : MayPanic ε _)
      (.ok (Tinylayer.fundingControlBlock keys)) :=
  .value (hlib.fundingMaterial_computes keys) (.pure _)

theorem recoverySighash_computes (transaction : P.Tx) (amountSat : Nat) (keys : CoinKeys P) :
    Computes (lib.recoverySighash transaction amountSat keys)
      (Tinylayer.recoverySighash transaction amountSat keys) :=
  .value (hlib.fundingScript_computes keys) (.of _)

theorem verifyFundingUtxo_computes (metadata : CoinMetadata P) (outpoint : OutPoint P.Txid)
    (output : TxOut) :
    Computes (lib.verifyFundingUtxo metadata outpoint output)
      (Tinylayer.verifyFundingUtxo metadata outpoint output) :=
  .check fun _ _ => .value (hlib.fundingScript_computes metadata.keys) (.of _)

/-! ## Recoveries -/

theorem verifySignedRecovery_computes (transaction : P.Tx) (amountSat : Nat) (keys : CoinKeys P) :
    Computes (lib.verifySignedRecovery transaction amountSat keys)
      (Tinylayer.verifySignedRecovery transaction amountSat keys) := by
  unfold verifySignedRecovery Tinylayer.verifySignedRecovery
  refine .check fun _ _ => ?_
  split
  case h_2 hinput =>
    refine .refused fun hlength => ?_
    obtain ⟨input, h⟩ := List.length_eq_one_iff.1 hlength
    exact hinput _ h
  case h_1 input hinput =>
    refine .passed (by rw [hinput]; rfl) (.index (by rw [hinput]; rfl) ?_)
    split
    case h_2 hwitness =>
      refine .refused fun hlength => ?_
      obtain ⟨a, b, c, d, h⟩ := List.length_eq_four.1 hlength
      exact hwitness _ _ _ _ h
    case h_1 hwitness =>
      refine .passed (by rw [hwitness]; rfl) ?_
      rw [hwitness]
      refine .index rfl (.index rfl (.index rfl (.index rfl (.check fun _ _ => ?_))))
      refine .value (hlib.fundingControlBlock_computes keys) (.check fun _ _ => .check fun _ _ => ?_)
      refine .value (hlib.fundingMaterial_computes keys) (.check fun _ _ => .check fun _ _ => ?_)
      refine .check fun _ _ => ?_
      exact (hlib.recoverySighash_computes transaction amountSat keys).bind fun _ _ =>
        .check fun _ _ => .of _

theorem verifyRecovery_computes (metadata : CoinMetadata P) (recovery : SignedRecovery P) :
    Computes (lib.verifyRecovery metadata recovery)
      (Tinylayer.verifyRecovery metadata recovery) := by
  unfold verifyRecovery Tinylayer.verifyRecovery
  refine .check fun _ _ => .check fun _ _ => .check fun _ hlength => ?_
  obtain ⟨input, hinput⟩ := List.length_eq_one_iff.1 (Except.ensure_eq_ok.1 hlength)
  refine setWitness_computes (by rw [hinput]; rfl) ?_
  have hstrip : recovery.transaction.stripWitness = { recovery.transaction with
      input := recovery.transaction.input.set 0 { input with witness := [] } } := by
    simp [Transaction.stripWitness, hinput]
  rw [hstrip]
  refine .check fun _ _ => ?_
  exact hlib.verifySignedRecovery_computes _ _ _

theorem verifyHistory_computes (metadata : CoinMetadata P) (status : CoinStatus P)
    (clientSecret : P.SecretKey) (currentCapability : Capability) (currentHandoff : HandoffToken)
    (expectedLatestWithdrawal : P.XOnlyPublicKey) (fundingConfirmations : Nat)
    (history : List (SignedRecovery P)) :
    Computes (lib.verifyHistory metadata status clientSecret currentCapability currentHandoff
        expectedLatestWithdrawal fundingConfirmations history)
      (Tinylayer.verifyHistory metadata status clientSecret currentCapability currentHandoff
        expectedLatestWithdrawal fundingConfirmations history) := by
  unfold verifyHistory Tinylayer.verifyHistory
  refine .check fun _ _ => .check fun _ _ => .check fun _ _ => ?_
  refine Computes.bind (.each fun recovery _ => hlib.verifyRecovery_computes metadata recovery)
    fun _ _ => ?_
  exact (validateReactionWindows_computes fundingConfirmations history).bind fun _ _ => .of _

theorem prepareRecovery_computes (metadata : CoinMetadata P) (status : CoinStatus P)
    (clientSecret : P.SecretKey) (currentCapability : Capability) (currentHandoff : HandoffToken)
    (nextCapabilityHash : P.Digest) (withdrawalXonlyPubkey : P.XOnlyPublicKey)
    (delayBlocks fundingConfirmations : Nat) :
    Computes (lib.prepareRecovery metadata status clientSecret currentCapability currentHandoff
        nextCapabilityHash withdrawalXonlyPubkey delayBlocks fundingConfirmations)
      (Tinylayer.prepareRecovery metadata status clientSecret currentCapability currentHandoff
        nextCapabilityHash withdrawalXonlyPubkey delayBlocks fundingConfirmations) := by
  unfold prepareRecovery Tinylayer.prepareRecovery
  refine .check fun _ _ => .check fun _ _ => .check fun _ _ => .check fun _ _ => .check fun _ _ =>
    .check fun _ _ => .check fun transaction _ => ?_
  exact (hlib.recoverySighash_computes transaction _ _).bind fun _ _ => .pure _

theorem recoverySerializationTemplate_computes (prepared : PreparedRecovery P) :
    Computes (lib.recoverySerializationTemplate prepared)
      prepared.recoverySerializationTemplate := by
  have hitems : ∀ control : List UInt8,
      [List.replicate 64 0xff, List.replicate 64 0xff, fundingTapscript prepared.metadata.keys,
        control] = [List.replicate 64 0xff, List.replicate 64 0xff,
        fundingTapscript prepared.metadata.keys] ++ [control] := fun _ => rfl
  unfold recoverySerializationTemplate PreparedRecovery.recoverySerializationTemplate
  rw [hitems, ← pushWitness_append, bind_assoc]
  refine .check fun transaction _ => ?_
  exact .value (hlib.fundingControlBlock_computes prepared.metadata.keys)
    (.check fun _ _ => .pure _)

theorem completeRecovery_computes (request : SignRequest P) (enclaveResponse : SignResponse P)
    (prepared : PreparedRecovery P) (clientSecret : P.SecretKey) :
    Computes (lib.completeRecovery request enclaveResponse prepared clientSecret)
      (Tinylayer.completeRecovery request enclaveResponse prepared clientSecret) := by
  unfold completeRecovery Tinylayer.completeRecovery
  refine .check fun _ _ => .check fun _ _ => .check fun _ _ => .check fun _ _ => .check fun _ _ =>
    .check fun _ _ => ?_
  refine (hlib.recoverySighash_computes _ _ _).bind fun sighash _ => ?_
  refine .check fun _ _ => .check fun _ _ => ?_
  refine .value (hlib.fundingControlBlock_computes _) (.check fun transaction _ => ?_)
  exact (hlib.verifySignedRecovery_computes _ _ _).bind fun _ _ => .pure _

end Lawful

end Library

end Tinylayer.Machine
