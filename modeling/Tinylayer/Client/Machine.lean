import Tinylayer.Client.Recovery
import Tinylayer.Lib.MayPanic

/-!
# The client on machine integers

The functions of `client/src/lib.rs` once more, with every index, sum, product and `expect` of the
source as it is there, and a panic where one fails. Functions that have none of these, and call
none that has, cannot panic: they are the functions of the client itself.
-/

namespace Tinylayer.Machine

variable {P : Platform} {ε : Type}

/-! ## Transactions -/

/-- `transaction.input[index].witness`, set to `witness`. -/
def setWitness (transaction : P.Tx) (index : Nat) (witness : List (List UInt8)) :
    MayPanic ε P.Tx := do
  let input ← MayPanic.index transaction.input index
  return { transaction with input := transaction.input.set index { input with witness } }

/-- `transaction.output[index].value`, set to `value`. -/
def setValue (transaction : P.Tx) (index value : Nat) : MayPanic ε P.Tx := do
  let output ← MayPanic.index transaction.output index
  return { transaction with output := transaction.output.set index { output with value } }

/-! ## The funding output -/

/-- `NUMS_INTERNAL_KEY_BYTES`. -/
def numsInternalKeyBytes : List UInt8 := [
  0x50, 0x92, 0x9b, 0x74, 0xc1, 0xa0, 0x49, 0x54, 0xb7, 0x8b, 0x4b, 0x60, 0x35, 0xe9, 0x7a, 0x5e,
  0x07, 0x8a, 0x5a, 0x0f, 0x28, 0xec, 0x96, 0xd5, 0x47, 0xbf, 0xee, 0x9a, 0xce, 0x80, 0x3a, 0xc0]

variable (P) in
/-- The calls of rust-bitcoin whose results `funding_material` expects. -/
structure Library where
  Builder : Type
  SpendInfo : Type
  xOnlyFromSlice : List UInt8 → Option P.XOnlyPublicKey
  newBuilder : Builder
  addLeaf : Builder → Nat → Script → Option Builder
  finalize : Builder → P.XOnlyPublicKey → Option SpendInfo
  outputKey : SpendInfo → P.XOnlyPublicKey
  controlBlock : SpendInfo → Script → Option P.ControlBlock

variable (P) in
structure FundingMaterial where
  outputKey : P.XOnlyPublicKey
  controlBlock : P.ControlBlock

namespace Library

/-- The bytes of the NUMS key are those of a key, and a leaf of depth zero is a complete tree in
which it is found. -/
structure Lawful (lib : Library P) : Prop where
  internalKey : lib.xOnlyFromSlice numsInternalKeyBytes = some P.numsInternalKey
  oneLeaf : ∀ leaf key, ∃ builder info, lib.addLeaf lib.newBuilder 0 leaf = some builder ∧
    lib.finalize builder key = some info ∧ lib.outputKey info = P.taprootOutputKey key leaf ∧
    lib.controlBlock info leaf = some (P.taprootControlBlock key leaf)

variable (P) in
/-- A library that knows the NUMS key, and trees of one leaf. -/
def oneLeaf : Library P where
  Builder := List (Nat × Script)
  SpendInfo := P.XOnlyPublicKey × Script
  xOnlyFromSlice bytes := if bytes = numsInternalKeyBytes then some P.numsInternalKey else none
  newBuilder := []
  addLeaf builder depth leaf := some ((depth, leaf) :: builder)
  finalize
    | [(0, leaf)], key => some (key, leaf)
    | _, _ => none
  outputKey info := P.taprootOutputKey info.1 info.2
  controlBlock info leaf :=
    if leaf = info.2 then some (P.taprootControlBlock info.1 leaf) else none

theorem oneLeaf_lawful : (oneLeaf P).Lawful where
  internalKey := by simp [oneLeaf]
  oneLeaf leaf key := ⟨[(0, leaf)], (key, leaf), rfl, rfl, rfl, by simp [oneLeaf]⟩

variable (lib : Library P)

/-- `nums_internal_key`. -/
def numsInternalKey : MayPanic ε P.XOnlyPublicKey :=
  MayPanic.expect (lib.xOnlyFromSlice numsInternalKeyBytes)

/-- `funding_material`. -/
def fundingMaterial (keys : CoinKeys P) : MayPanic ε (FundingMaterial P) := do
  let leaf := fundingTapscript keys
  let builder ← MayPanic.expect (lib.addLeaf lib.newBuilder 0 leaf)
  let internalKey ← lib.numsInternalKey
  let spendInfo ← MayPanic.expect (lib.finalize builder internalKey)
  let controlBlock ← MayPanic.expect (lib.controlBlock spendInfo leaf)
  return { outputKey := lib.outputKey spendInfo, controlBlock }

/-- `funding_script`. -/
def fundingScript (keys : CoinKeys P) : MayPanic ε Script := do
  let material ← lib.fundingMaterial keys
  return P.newP2trTweaked material.outputKey

/-- `funding_control_block`. -/
def fundingControlBlock (keys : CoinKeys P) : MayPanic ε P.ControlBlock := do
  let material ← lib.fundingMaterial keys
  return material.controlBlock

/-- `recovery_sighash`. -/
def recoverySighash (transaction : P.Tx) (amountSat : Nat) (keys : CoinKeys P) :
    MayPanic Client.Error P.Digest := do
  let scriptPubkey ← lib.fundingScript keys
  let prevout : TxOut := { value := amountSat, scriptPubkey }
  let leafHash := P.tapLeafHash (fundingTapscript keys)
  (P.scriptSpendSighash transaction.stripWitness 0 [prevout] leafHash).context
    Client.Error.sighash

/-- `verify_funding_utxo`. -/
def verifyFundingUtxo (metadata : CoinMetadata P) (outpoint : OutPoint P.Txid) (output : TxOut) :
    MayPanic Client.Error Unit := do
  metadata.validate
  let scriptPubkey ← lib.fundingScript metadata.keys
  let expected : TxOut := { value := metadata.amountSat, scriptPubkey }
  ensure (outpoint = metadata.outpoint ∧ output = expected) Client.Error.fundingMismatch

/-! ## Recoveries -/

/-- `verify_signed_recovery`. -/
def verifySignedRecovery (transaction : P.Tx) (amountSat : Nat) (keys : CoinKeys P) :
    MayPanic Client.Error Unit := do
  keys.validate
  ensure (transaction.input.length = 1) Client.Error.invalidWitness
  let input ← MayPanic.index transaction.input 0
  ensure (input.witness.length = 4) Client.Error.invalidWitness
  let enclaveSignatureBytes ← MayPanic.index input.witness 0
  let clientSignatureBytes ← MayPanic.index input.witness 1
  let scriptBytes ← MayPanic.index input.witness 2
  let controlBytes ← MayPanic.index input.witness 3
  ensure (enclaveSignatureBytes.length = 64 ∧ clientSignatureBytes.length = 64)
    Client.Error.invalidWitness
  let leaf := fundingTapscript keys
  let expectedControl ← lib.fundingControlBlock keys
  ensure (scriptBytes = leaf ∧ controlBytes = P.controlBlockSerialize expectedControl)
    Client.Error.invalidWitness
  let control ← (P.controlBlockDecode controlBytes).context Client.Error.invalidWitness
  let material ← lib.fundingMaterial keys
  ensure (control = expectedControl ∧
    P.verifyTaprootCommitment control material.outputKey leaf = true) Client.Error.invalidWitness
  let enclaveSignature ←
    (P.signatureFromSlice enclaveSignatureBytes).context Client.Error.invalidWitness
  let clientSignature ←
    (P.signatureFromSlice clientSignatureBytes).context Client.Error.invalidWitness
  let sighash ← lib.recoverySighash transaction amountSat keys
  verifySignature enclaveSignature sighash keys.enclavePubkey .invalidEnclaveSignature
  verifySignature clientSignature sighash keys.clientPubkey .invalidClientSignature

/-- `verify_recovery`. -/
def verifyRecovery (metadata : CoinMetadata P) (recovery : SignedRecovery P) :
    MayPanic Client.Error Unit := do
  metadata.validate
  let expected ← canonicalRecovery metadata.outpoint metadata.amountSat
    recovery.withdrawalXonlyPubkey recovery.delayBlocks
  ensure (recovery.transaction.input.length = 1) Client.Error.transactionMismatch
  let unsigned ← setWitness recovery.transaction 0 []
  ensure (unsigned = expected) Client.Error.transactionMismatch
  lib.verifySignedRecovery recovery.transaction metadata.amountSat metadata.keys

/-- The loop of `verify_history` over the neighbours of a history. -/
def validateReactionWindows (fundingConfirmations : Nat) (history : List (SignedRecovery P)) :
    MayPanic Client.Error Unit :=
  MayPanic.each (fun pair => do
    let older ← MayPanic.index pair 0
    let newer ← MayPanic.index pair 1
    validateReactionWindow fundingConfirmations older.delayBlocks newer.delayBlocks)
    (MayPanic.slices history)

/-- `verify_history`. -/
def verifyHistory (metadata : CoinMetadata P) (status : CoinStatus P) (clientSecret : P.SecretKey)
    (currentCapability : Capability) (currentHandoff : HandoffToken)
    (expectedLatestWithdrawal : P.XOnlyPublicKey) (fundingConfirmations : Nat)
    (history : List (SignedRecovery P)) : MayPanic Client.Error Unit := do
  verifyStatus metadata.keys status
  ensure (clientXonly clientSecret = metadata.keys.clientPubkey) Client.Error.wrongClientKey
  let currentCapabilityHash := capabilityHash currentCapability
  ensure (status.authorization =
      authorization metadata.keys.coinId currentCapabilityHash currentHandoff ∧
    status.signatureCount = history.length ∧
    history.getLast?.map (fun recovery => recovery.withdrawalXonlyPubkey) =
      some expectedLatestWithdrawal) Client.Error.historyMismatch
  MayPanic.each (lib.verifyRecovery metadata) history
  validateReactionWindows fundingConfirmations history
  ensure (∃ latest ∈ history.getLast?, fundingConfirmations < latest.delayBlocks)
    Client.Error.unsafeDelay

/-- `prepare_recovery`. -/
def prepareRecovery (metadata : CoinMetadata P) (status : CoinStatus P)
    (clientSecret : P.SecretKey) (currentCapability : Capability) (currentHandoff : HandoffToken)
    (nextCapabilityHash : P.Digest) (withdrawalXonlyPubkey : P.XOnlyPublicKey)
    (delayBlocks fundingConfirmations : Nat) :
    MayPanic Client.Error (SignRequest P × PreparedRecovery P) := do
  metadata.validate
  verifyStatus metadata.keys status
  let currentCapabilityHash := capabilityHash currentCapability
  ensure (status.authorization =
    authorization metadata.keys.coinId currentCapabilityHash currentHandoff)
    Client.Error.responseMismatch
  ensure (nextCapabilityHash ≠ currentCapabilityHash) Client.Error.responseMismatch
  requireFutureDelay fundingConfirmations delayBlocks
  ensure (clientXonly clientSecret = metadata.keys.clientPubkey) Client.Error.wrongClientKey
  let transaction ← canonicalRecovery metadata.outpoint metadata.amountSat withdrawalXonlyPubkey
    delayBlocks
  let sighash ← lib.recoverySighash transaction metadata.amountSat metadata.keys
  let request : SignRequest P :=
    { coinId := metadata.keys.coinId, currentCapability, currentHandoff, nextCapabilityHash,
      sighash }
  return (request, { request, metadata, transaction, withdrawalXonlyPubkey, delayBlocks })

/-- `PreparedRecovery::recovery_serialization_template`. -/
def recoverySerializationTemplate (prepared : PreparedRecovery P) :
    MayPanic Client.Error (SignedRecovery P) := do
  let transaction ← pushWitness prepared.transaction
    [List.replicate 64 0xff, List.replicate 64 0xff, fundingTapscript prepared.metadata.keys]
  let control ← lib.fundingControlBlock prepared.metadata.keys
  let transaction ← pushWitness transaction [P.controlBlockSerialize control]
  return {
    transaction
    withdrawalXonlyPubkey := prepared.withdrawalXonlyPubkey
    delayBlocks := prepared.delayBlocks }

/-- `complete_recovery`. -/
def completeRecovery (request : SignRequest P) (enclaveResponse : SignResponse P)
    (prepared : PreparedRecovery P) (clientSecret : P.SecretKey) :
    MayPanic Client.Error (SignedRecovery P) := do
  ensure (prepared.request = request) Client.Error.responseMismatch
  prepared.metadata.validate
  ensure (request.coinId = prepared.metadata.keys.coinId) Client.Error.responseMismatch
  ensure (clientXonly clientSecret = prepared.metadata.keys.clientPubkey)
    Client.Error.wrongClientKey
  let expected ← canonicalRecovery prepared.metadata.outpoint prepared.metadata.amountSat
    prepared.withdrawalXonlyPubkey prepared.delayBlocks
  ensure (prepared.transaction = expected) Client.Error.transactionMismatch
  let sighash ← lib.recoverySighash prepared.transaction prepared.metadata.amountSat
    prepared.metadata.keys
  ensure (request.sighash = sighash) Client.Error.transactionMismatch
  verifySignature enclaveResponse.signature sighash prepared.metadata.keys.enclavePubkey
    .invalidEnclaveSignature
  let clientSignature := P.signSchnorr clientSecret sighash
  let control ← lib.fundingControlBlock prepared.metadata.keys
  let transaction ← pushWitness prepared.transaction
    [P.signatureBytes enclaveResponse.signature, P.signatureBytes clientSignature,
      fundingTapscript prepared.metadata.keys, P.controlBlockSerialize control]
  lib.verifySignedRecovery transaction prepared.metadata.amountSat prepared.metadata.keys
  return {
    transaction
    withdrawalXonlyPubkey := prepared.withdrawalXonlyPubkey
    delayBlocks := prepared.delayBlocks }

end Library

end Tinylayer.Machine
