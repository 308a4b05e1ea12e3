import Tinylayer.Client.Types

/-!
# The client's protocol

Registration, the two halves of signing a recovery, and the checks of a recovery history, as
`client/src/lib.rs` has them. The client trusts neither the enclave nor a previous owner: whatever
it is handed goes through one of these checks before it is kept.
-/

namespace Tinylayer

variable {P : Platform}

/-- `client_xonly`. -/
def clientXonly (secret : P.SecretKey) : P.XOnlyPublicKey := P.xOnlyPublicKey secret

/-- `verify_signature`. -/
def verifySignature (signature : P.Signature) (sighash : P.Digest) (pubkey : P.XOnlyPublicKey)
    (error : Client.Error) : Except Client.Error Unit :=
  ensure (P.verifySchnorr signature sighash pubkey = true) error

/-- `require_future_delay`. -/
def requireFutureDelay (fundingConfirmations delayBlocks : Nat) : Except Client.Error Unit :=
  ensure (fundingConfirmations < delayBlocks) .unsafeDelay

/-- `validate_reaction_window`. -/
def validateReactionWindow (fundingConfirmations olderDelayBlocks newerDelayBlocks : Nat) :
    Except Client.Error Unit := do
  ensure (checkedSub olderDelayBlocks delayStep = some newerDelayBlocks) .transactionMismatch
  requireFutureDelay fundingConfirmations newerDelayBlocks

/-! ## Registration -/

/-- `prepare_registration`; the coin id is drawn at random. -/
def prepareRegistration (coinId : CoinId) (clientSecret : P.SecretKey)
    (initialCapabilityHash : P.Digest) : Registration P where
  protocolVersion := Tinylayer.protocolVersion
  request := { coinId, initialCapabilityHash }
  clientPubkey := P.xOnlyPublicKey clientSecret

/-- `complete_registration`. -/
def completeRegistration (registration : Registration P) (status : CoinStatus P) :
    Except Client.Error (CoinKeys P) := do
  ensure (registration.protocolVersion = Tinylayer.protocolVersion) .protocolVersionMismatch
  let request := registration.request
  ensure (status.coinId = request.coinId ∧ status.signatureCount = 0 ∧
    status.authorization =
      authorization request.coinId request.initialCapabilityHash initialHandoff) .responseMismatch
  ensure (registration.clientPubkey ≠ status.signingPubkey) .equalSigningKeys
  return {
    protocolVersion := Tinylayer.protocolVersion
    coinId := request.coinId
    clientPubkey := registration.clientPubkey
    enclavePubkey := status.signingPubkey }

/-! ## Checks of the enclave's answers -/

/-- `verify_status`. -/
def verifyStatus (keys : CoinKeys P) (status : CoinStatus P) : Except Client.Error Unit := do
  keys.validate
  ensure (status.coinId = keys.coinId ∧ status.signingPubkey = keys.enclavePubkey)
    .responseMismatch

/-- `verify_sign_response`. -/
def verifySignResponse (request : SignRequest P) (previousSignatureCount : Nat)
    (status : CoinStatus P) (response : SignResponse P) : Except Client.Error Unit := do
  let expectedSignatureCount ←
    (checkedAdd u64Max previousSignatureCount 1).context Client.Error.responseMismatch
  ensure (status.coinId = request.coinId ∧ status.signatureCount = expectedSignatureCount ∧
    status.authorization =
      authorization request.coinId request.nextCapabilityHash response.nextHandoff)
    .responseMismatch
  verifySignature response.signature request.sighash status.signingPubkey .invalidEnclaveSignature

/-! ## Recoveries -/

/-- The only unsigned recovery of a coin that pays `withdrawalKey` after `delayBlocks`. -/
def recoveryTransaction (outpoint : OutPoint P.Txid) (amountSat : Nat)
    (withdrawalKey : P.XOnlyPublicKey) (delayBlocks : Nat) : P.Tx where
  version := trucVersion
  lockTime := 0
  input := [{ previousOutput := outpoint, scriptSig := [], sequence := delayBlocks, witness := [] }]
  output := [{ value := amountSat, scriptPubkey := P.newP2tr withdrawalKey }]

/-- `canonical_recovery`. -/
def canonicalRecovery (outpoint : OutPoint P.Txid) (amountSat : Nat)
    (withdrawalKey : P.XOnlyPublicKey) (delayBlocks : Nat) : Except Client.Error P.Tx := do
  ensure (P.isNull outpoint = false) .invalidOutpoint
  ensure (amountSat ≤ maxMoney) .amountTooLarge
  -- `u16::try_from`
  ensure (delayBlocks < 2 ^ 16) .invalidDelay
  ensure (delayBlocks ≠ 0) .invalidDelay
  ensure (P.minimalNonDust (P.newP2tr withdrawalKey) ≤ amountSat) .dustOutput
  return recoveryTransaction outpoint amountSat withdrawalKey delayBlocks

/-- `verify_signed_recovery`. -/
def verifySignedRecovery (transaction : P.Tx) (amountSat : Nat) (keys : CoinKeys P) :
    Except Client.Error Unit := do
  keys.validate
  match transaction.input with
  | [input] =>
    match input.witness with
    | [enclaveSignatureBytes, clientSignatureBytes, scriptBytes, controlBytes] => do
      ensure (enclaveSignatureBytes.length = 64 ∧ clientSignatureBytes.length = 64) .invalidWitness
      let leaf := fundingTapscript keys
      let expectedControl := fundingControlBlock keys
      ensure (scriptBytes = leaf ∧ controlBytes = P.controlBlockSerialize expectedControl)
        .invalidWitness
      let control ← (P.controlBlockDecode controlBytes).context Client.Error.invalidWitness
      ensure (control = expectedControl ∧
        P.verifyTaprootCommitment control (fundingOutputKey keys) leaf = true) .invalidWitness
      let enclaveSignature ←
        (P.signatureFromSlice enclaveSignatureBytes).context Client.Error.invalidWitness
      let clientSignature ←
        (P.signatureFromSlice clientSignatureBytes).context Client.Error.invalidWitness
      let sighash ← recoverySighash transaction amountSat keys
      verifySignature enclaveSignature sighash keys.enclavePubkey .invalidEnclaveSignature
      verifySignature clientSignature sighash keys.clientPubkey .invalidClientSignature
    | _ => throw .invalidWitness
  | _ => throw .invalidWitness

/-- `verify_recovery`. -/
def verifyRecovery (metadata : CoinMetadata P) (recovery : SignedRecovery P) :
    Except Client.Error Unit := do
  metadata.validate
  let expected ← canonicalRecovery metadata.outpoint metadata.amountSat
    recovery.withdrawalXonlyPubkey recovery.delayBlocks
  ensure (recovery.transaction.input.length = 1) .transactionMismatch
  ensure (recovery.transaction.stripWitness = expected) .transactionMismatch
  verifySignedRecovery recovery.transaction metadata.amountSat metadata.keys

/-- `verify_history`. -/
def verifyHistory (metadata : CoinMetadata P) (status : CoinStatus P) (clientSecret : P.SecretKey)
    (currentCapability : Capability) (currentHandoff : HandoffToken)
    (expectedLatestWithdrawal : P.XOnlyPublicKey) (fundingConfirmations : Nat)
    (history : List (SignedRecovery P)) : Except Client.Error Unit := do
  verifyStatus metadata.keys status
  ensure (clientXonly clientSecret = metadata.keys.clientPubkey) .wrongClientKey
  let currentCapabilityHash := capabilityHash currentCapability
  ensure (status.authorization =
      authorization metadata.keys.coinId currentCapabilityHash currentHandoff ∧
    status.signatureCount = history.length ∧
    history.getLast?.map (fun recovery => recovery.withdrawalXonlyPubkey) =
      some expectedLatestWithdrawal) .historyMismatch
  checkAll (verifyRecovery metadata) history
  checkAll (fun pair => validateReactionWindow fundingConfirmations
    pair.1.delayBlocks pair.2.delayBlocks) (windows history)
  ensure (∃ latest ∈ history.getLast?, fundingConfirmations < latest.delayBlocks) .unsafeDelay

/-- `prepare_recovery`. -/
def prepareRecovery (metadata : CoinMetadata P) (status : CoinStatus P)
    (clientSecret : P.SecretKey) (currentCapability : Capability) (currentHandoff : HandoffToken)
    (nextCapabilityHash : P.Digest) (withdrawalXonlyPubkey : P.XOnlyPublicKey)
    (delayBlocks fundingConfirmations : Nat) :
    Except Client.Error (SignRequest P × PreparedRecovery P) := do
  metadata.validate
  verifyStatus metadata.keys status
  let currentCapabilityHash := capabilityHash currentCapability
  ensure (status.authorization =
    authorization metadata.keys.coinId currentCapabilityHash currentHandoff) .responseMismatch
  ensure (nextCapabilityHash ≠ currentCapabilityHash) .responseMismatch
  requireFutureDelay fundingConfirmations delayBlocks
  ensure (clientXonly clientSecret = metadata.keys.clientPubkey) .wrongClientKey
  let transaction ← canonicalRecovery metadata.outpoint metadata.amountSat withdrawalXonlyPubkey
    delayBlocks
  let sighash ← recoverySighash transaction metadata.amountSat metadata.keys
  let request : SignRequest P :=
    { coinId := metadata.keys.coinId, currentCapability, currentHandoff, nextCapabilityHash,
      sighash }
  return (request, { request, metadata, transaction, withdrawalXonlyPubkey, delayBlocks })

/-- A transaction with `items` pushed on the witness of its first input. -/
def pushWitness (transaction : P.Tx) (items : List (List UInt8)) : Except Client.Error P.Tx :=
  match transaction.input with
  | input :: rest =>
    .ok { transaction with input := { input with witness := input.witness ++ items } :: rest }
  | [] => .error .transactionMismatch

/-- `PreparedRecovery::recovery_serialization_template`. -/
def PreparedRecovery.recoverySerializationTemplate (self : PreparedRecovery P) :
    Except Client.Error (SignedRecovery P) := do
  let transaction ← pushWitness self.transaction
    [List.replicate 64 0xff, List.replicate 64 0xff, fundingTapscript self.metadata.keys,
      P.controlBlockSerialize (fundingControlBlock self.metadata.keys)]
  return {
    transaction
    withdrawalXonlyPubkey := self.withdrawalXonlyPubkey
    delayBlocks := self.delayBlocks }

/-- `complete_recovery`. -/
def completeRecovery (request : SignRequest P) (enclaveResponse : SignResponse P)
    (prepared : PreparedRecovery P) (clientSecret : P.SecretKey) :
    Except Client.Error (SignedRecovery P) := do
  ensure (prepared.request = request) .responseMismatch
  prepared.metadata.validate
  ensure (request.coinId = prepared.metadata.keys.coinId) .responseMismatch
  ensure (clientXonly clientSecret = prepared.metadata.keys.clientPubkey) .wrongClientKey
  let expected ← canonicalRecovery prepared.metadata.outpoint prepared.metadata.amountSat
    prepared.withdrawalXonlyPubkey prepared.delayBlocks
  ensure (prepared.transaction = expected) .transactionMismatch
  let sighash ← recoverySighash prepared.transaction prepared.metadata.amountSat
    prepared.metadata.keys
  ensure (request.sighash = sighash) .transactionMismatch
  verifySignature enclaveResponse.signature sighash prepared.metadata.keys.enclavePubkey
    .invalidEnclaveSignature
  let clientSignature := P.signSchnorr clientSecret sighash
  let transaction ← pushWitness prepared.transaction
    [P.signatureBytes enclaveResponse.signature, P.signatureBytes clientSignature,
      fundingTapscript prepared.metadata.keys,
      P.controlBlockSerialize (fundingControlBlock prepared.metadata.keys)]
  verifySignedRecovery transaction prepared.metadata.amountSat prepared.metadata.keys
  return {
    transaction
    withdrawalXonlyPubkey := prepared.withdrawalXonlyPubkey
    delayBlocks := prepared.delayBlocks }

/-- `verify_funding_utxo`. -/
def verifyFundingUtxo (metadata : CoinMetadata P) (outpoint : OutPoint P.Txid) (output : TxOut) :
    Except Client.Error Unit := do
  metadata.validate
  let expected : TxOut :=
    { value := metadata.amountSat, scriptPubkey := fundingScript metadata.keys }
  ensure (outpoint = metadata.outpoint ∧ output = expected) .fundingMismatch

/-! ## Exits -/

/-- The unsigned child of a recovery: it spends the whole output `spent` of the recovery `parent`
and leaves `value` to `destination`. -/
def exitChild (parent : P.Tx) (value : Nat) (destination : Script) (witness : List (List UInt8)) :
    P.Tx where
  version := trucVersion
  lockTime := 0
  input := [{ previousOutput := { txid := P.computeTxid parent, vout := 0 }
              scriptSig := []
              sequence := sequenceMax
              witness }]
  output := [{ value, scriptPubkey := destination }]

/-- `build_exit_child`. -/
def buildExitChild (recovery : SignedRecovery P) (amountSat : Nat) (withdrawalSecret : P.SecretKey)
    (destination : Script) (feeRateSatVb : Nat) : Except Client.Error P.Tx := do
  let parent := recovery.transaction
  ensure (parent.input.length = 1 ∧ parent.output.length = 1) .transactionMismatch
  let internal := P.xOnlyPublicKey withdrawalSecret
  ensure (internal = recovery.withdrawalXonlyPubkey) .withdrawalKeyMismatch
  let spentOutput ← parent.output.head?.context Client.Error.transactionMismatch
  ensure (spentOutput.value = amountSat ∧ spentOutput.scriptPubkey = P.newP2tr internal)
    .transactionMismatch
  let placeholder := exitChild parent amountSat destination [List.replicate 64 0]
  let packageVsize := P.vsize parent + P.vsize placeholder
  let outputSat ← (checkedSub amountSat (feeRateSatVb * packageVsize)).context
    Client.Error.dustOutput
  ensure (P.minimalNonDust destination ≤ outputSat) .dustOutput
  let child := exitChild parent outputSat destination []
  let sighash ← (P.keySpendSighash child 0 [spentOutput]).context Client.Error.sighash
  let tweaked := P.tapTweak withdrawalSecret
  let signature := P.signSchnorr tweaked sighash
  verifySignature signature sighash (P.xOnlyPublicKey tweaked) .invalidClientSignature
  return exitChild parent outputSat destination [P.signatureBytes signature]

end Tinylayer
