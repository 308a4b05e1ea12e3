import Tinylayer.Wallet.Machine
import Tinylayer.Wallet.State

/-!
# The wallet on machine integers

The functions of `wallet-core/src/validation.rs` and `wallet-core/src/transfer.rs` and the operations
of `wallet-core/src/state.rs` once more, with every `expect`, index, difference and slice conversion
of the source as it is there. An operation takes the state, and gives its result with the next one.
-/

namespace Tinylayer.Machine

variable {P : Platform} {ε : Type}

/-! ## Envelopes -/

/-- `XNonce::from_slice`. -/
def xNonce (bytes : List UInt8) : MayPanic ε (List.Vector UInt8 24) :=
  if h : bytes.length = 24 then pure ⟨bytes, h⟩ else MayPanic.panicked

variable (P) in
/-- `TransferRequest::aad`. The capacity of the vector is a sum. -/
def aad (request : TransferRequest) : MayPanic String (List UInt8) := do
  request.validate P
  let outpoint ← request.parseOutpoint P
  let _capacity ← MayPanic.add 64 transferInfo.length 214
  let id ← request.id
  let coinId ← request.parseCoinId
  let withdrawalKey ← request.withdrawalKey P
  let nextCapabilityHash ← request.parseNextCapabilityHash P
  let transportKey ← request.transportKey P
  return transferInfo ++ beBytes 4 request.protocolVersion ++ id.toList ++ coinId.toList ++
    [TransferRequest.networkByte request.network] ++ P.txidSerialize outpoint.txid ++
    beBytes 4 outpoint.vout ++ beBytes 8 request.expectedAmountSat ++
    P.xOnlySerialize withdrawalKey ++ P.digestBytes nextCapabilityHash ++
    P.publicKeySerialize transportKey ++ beBytes 4 request.minReactionBlocks

/-- `encrypt_transfer`. -/
def encryptTransfer (draws : EnvelopeDraws P) (request : TransferRequest)
    (payload : TransferPayload P) : MayPanic String TransferEnvelope := do
  request.validate P
  payload.validate
  let id ← request.id
  ensure (payload.requestId = id) "transfer request mismatch"
  let ephemeralPublicKey := P.publicKeyOf draws.ephemeral
  let transportKey ← request.transportKey P
  let shared := P.sharedSecret transportKey draws.ephemeral
  let key ← transferKey shared payload.requestId
  let plaintext := payload.toVec
  validateTransferPlaintextSize plaintext.length
  let aad ← aad P request
  let nonce ← xNonce draws.nonce.toList
  let ciphertext ← (P.aeadEncrypt key nonce.toList plaintext aad).context
    "failed to encrypt transfer package"
  return {
    formatVersion := fileFormatVersion
    requestId := request.requestId
    ephemeralPublicKey := P.publicKeyToString ephemeralPublicKey
    nonce := Hex.encode draws.nonce.toList
    ciphertext := Hex.encode ciphertext }

/-- `decrypt_transfer`. -/
def decryptTransfer (reader : PayloadReader P) (request : TransferRequest)
    (transportSecret : Bytes32) (envelope : TransferEnvelope) :
    MayPanic String (TransferPayload P) := do
  request.validate P
  ensure (envelope.formatVersion = fileFormatVersion)
    s!"unsupported transfer package version {envelope.formatVersion}"
  ensure (envelope.requestId = request.requestId) "transfer request mismatch"
  let ephemeral ← (P.publicKeyFromStr envelope.ephemeralPublicKey).context
    "invalid transfer package ephemeral key"
  let transportSecret ← (P.secretKeyFromSlice transportSecret).context "invalid saved transport key"
  let shared := P.sharedSecret ephemeral transportSecret
  let requestId ← request.id
  let key ← transferKey shared requestId
  let nonce ← (Hex.decode envelope.nonce).context "invalid transfer package nonce"
  ensure (nonce.length = 24) "invalid transfer package nonce length"
  let limit ← MayPanic.mul 64 maxTransferCiphertextSize 2
  ensure (envelope.ciphertext.utf8ByteSize ≤ limit)
    "transfer package exceeds 8 MiB ciphertext limit"
  let ciphertext ← (Hex.decode envelope.ciphertext).context "invalid transfer package ciphertext"
  let aad ← aad P request
  let nonce ← xNonce nonce
  let plaintext ← (P.aeadDecrypt key nonce.toList ciphertext aad).context
    "transfer package authentication failed"
  let payload ← (reader.fromSlice plaintext).context "invalid transfer package payload"
  payload.validate
  ensure (payload.requestId = requestId) "transfer request mismatch"
  return payload

/-- The delay of the next recovery, after a history that was checked not to be empty. -/
def nextDelay (history : List (SignedRecovery P)) : MayPanic String Nat := do
  let latest ← MayPanic.expect history.getLast?
  (checkedSub latest.delayBlocks delayStep).context "recovery delay cannot be decremented"

namespace Library

variable (lib : Library P)

/-! ## Validation -/

/-- `validate_finalized_funding`. -/
def validateFinalizedFunding (metadata : CoinMetadata P) (transaction : P.Tx) :
    MayPanic String Unit := do
  validateFundingInputs transaction
  ensure (P.computeTxid transaction = metadata.outpoint.txid)
    "prepared funding transaction txid does not match coin metadata"
  let expectedScript ← lib.fundingScript metadata.keys
  ensure ((transaction.output.filter fun output => output.scriptPubkey = expectedScript).length = 1)
    "funding transaction must contain exactly one Tinylayer output"
  let output ← transaction.output[metadata.outpoint.vout]?.context
    "prepared funding output index is missing"
  lift (lib.verifyFundingUtxo metadata metadata.outpoint output)

/-- `verify_observed_funding`. -/
def verifyObservedFunding (metadata : CoinMetadata P) (observed : ObservedFunding P)
    (minimumConfirmations : Nat) : MayPanic String Unit := do
  lib.verifyObservedFundingOutput metadata observed minimumConfirmations
  ensure (observed.unspent = true) "Tinylayer funding output is spent"

/-- `verify_public_history`. -/
def verifyPublicHistory (metadata : CoinMetadata P) (status : CoinStatus P)
    (history : List (SignedRecovery P)) (fundingConfirmations minimumReactionBlocks : Nat) :
    MayPanic String Unit := do
  Client.lift (verifyStatus metadata.keys status)
  ensure (status.signatureCount = history.length)
    "recovery history does not match enclave signature count"
  ensure (history ≠ []) "coin has no signed recovery"
  lift (MayPanic.each (lib.verifyRecovery metadata) history)
  lift (validateReactionWindows fundingConfirmations history)
  let latest ← MayPanic.expect history.getLast?
  requireReactionMargin fundingConfirmations latest.delayBlocks minimumReactionBlocks

/-! ## Funding -/

/-- `WalletState::begin_funding`. -/
def beginFunding (draws : WalletState.FundingDraws P) (network : NetworkId)
    (sourceSecret : P.SecretKey) (source : SourceUtxo P) (status : CoinStatus P)
    (amountSat delayBlocks feeRateSatVb maxFeeSat minimumReactionBlocks : Nat)
    (self : WalletState P) : MayPanic String (SignRequest P × WalletState P) := do
  self.validateVersion
  ensure (self.pending.isNone = true) "wallet has a pending operation"
  requireReactionMargin 0 delayBlocks minimumReactionBlocks
  let coin ← self.coin.context "register a coin first"
  ensure (coin.metadata.isNone = true ∧ coin.funding.isNone = true ∧ coin.history = [] ∧
      coin.currentHandoff = some initialHandoff)
    "coin has already left the registration stage"
  coin.verifyLiveStatus status
  ensure (status.signatureCount = 0) "coin already has signed recoveries"
  let capability ← coin.currentCapability.context "coin has already been transferred"
  let handoff ← coin.currentHandoff.context "coin has no current handoff"
  let preparedFunding ← lib.buildSourceFunding coin.keys network sourceSecret source amountSat
    feeRateSatVb maxFeeSat
  let metadata := coin.keys.metadata network preparedFunding.outpoint amountSat
  let (request, preparedRecovery) ← lift (lib.prepareRecovery metadata status
    coin.clientSecret capability handoff (capabilityHash draws.nextCapability)
    (P.xOnlyPublicKey draws.withdrawal) delayBlocks 0)
  let coin ← MayPanic.expect self.coin
  let funding : FundingJournal P := {
    transaction := preparedFunding.transaction
    delayBlocks
    feeRateSatVb
    maxFeeSat
    feeSat := preparedFunding.feeSat
    stage := .prepared }
  let pending : PendingRecovery P := {
    purpose := .fund draws.nextCapability (P.secretBytes draws.withdrawal)
    stage := .prepared {
      expectedSignatureCount := status.signatureCount
      delayBlocks
      request
      prepared := preparedRecovery } }
  return (request, { self with
    coin := some { coin with metadata := some metadata, funding := some funding }
    pending := some (.recovery pending) })

/-- `WalletState::complete_funding_recovery`. -/
def completeFundingRecovery (status : CoinStatus P) (self : WalletState P) :
    MayPanic String (Unit × WalletState P) := do
  match self.pending with
  | none => throw "wallet has no pending funding recovery"
  | some (.registration ..) => throw "wallet has a pending registration"
  | some (.recovery ⟨.transfer _, _⟩) => throw "wallet has a pending transfer"
  | some (.recovery ⟨.fund .., .prepared _⟩) =>
    throw "funding recovery has no saved enclave response"
  | some (.recovery ⟨.fund nextCapability withdrawalSecret, .responded attempt response⟩) => do
    ensure (attempt.expectedSignatureCount = 0)
      "initial funding recovery has an invalid signature count"
    let coin ← self.coin.context "pending signing coin is missing"
    Client.lift (verifyStatus coin.keys status)
    Client.lift (verifySignResponse attempt.request attempt.expectedSignatureCount status
      response)
    let recovery ← lift (lib.completeRecovery attempt.request response attempt.prepared
      coin.clientSecret)
    ensure (recovery.delayBlocks = attempt.delayBlocks) "pending signing delay is inconsistent"
    let funding ← coin.funding.context "pending funding journal is missing"
    ensure (funding.stage = .prepared) "funding recovery was already secured"
    let history := coin.history ++ [recovery]
    let index ← MayPanic.sub history.length 1
    return ((), { self with
      coin := some { coin with
        history
        funding := some { funding with stage := .recoverySecured }
        currentCapability := some nextCapability
        currentHandoff := some response.nextHandoff
        withdrawalSecret := some withdrawalSecret
        withdrawalRecoveryIndex := some index }
      pending := none })

/-- `WalletState::funding_transaction`. -/
def fundingTransaction (self : WalletState P) : MayPanic String P.Tx := do
  let coin ← self.coin.context "wallet has no coin"
  let metadata ← coin.metadata.context "coin is not funded"
  let funding ← coin.funding.context "funding journal is missing"
  ensure (funding.stage = .recoverySecured ∨ funding.stage = .broadcast)
    "funding cannot be broadcast before its recovery is durable"
  lib.validateFinalizedFunding metadata funding.transaction
  let recovery ← coin.history.head?.context "secured funding recovery is missing"
  ensure (recovery.delayBlocks = funding.delayBlocks)
    "secured funding recovery has the wrong delay"
  lift (lib.verifyRecovery metadata recovery)
  return funding.transaction

/-- `WalletState::mark_funding_broadcast`. -/
def markFundingBroadcast (txid : P.Txid) (self : WalletState P) :
    MayPanic String (Unit × WalletState P) := do
  let transaction ← lib.fundingTransaction self
  ensure (P.computeTxid transaction = txid)
    "broadcast funding txid does not match recovery outpoint"
  let _funding ← MayPanic.expect (self.coin.bind WalletCoin.funding)
  return ((), { self with coin := self.coin.map WalletState.broadcastCoin })

/-- `WalletState::verify_funding`. -/
def verifyFunding (self : WalletState P) (observed : P.Tx) (confirmations : Nat) (unspent : Bool) :
    MayPanic String Nat := do
  let expected ← lib.fundingTransaction self
  ensure (expected = observed) "chain returned different funding transaction bytes"
  ensure (unspent = true) "Tinylayer funding output is spent"
  let coin ← MayPanic.expect self.coin
  let funding ← MayPanic.expect coin.funding
  ensure (funding.stage = .broadcast) "funding transaction is not marked broadcast"
  return funding.delayBlocks - confirmations

/-! ## Sending -/

/-- `WalletState::begin_transfer`. -/
def beginTransfer (network : NetworkId) (request : TransferRequest) (status : CoinStatus P)
    (observedFunding : ObservedFunding P) (minimumConfirmations minimumReactionBlocks : Nat)
    (self : WalletState P) : MayPanic String (SignRequest P × WalletState P) := do
  ensure (self.pending.isNone = true) "wallet has a pending operation"
  self.validateOutgoingTransferRequest network request
  let coin ← self.coin.context "wallet has no coin"
  ensure (coin.outgoing.isNone = true) "coin has already been transferred"
  let metadata ← coin.metadata.context "coin has no verified funding"
  lib.verifyObservedFunding metadata observedFunding minimumConfirmations
  let capability ← coin.currentCapability.context "coin has already been transferred"
  let handoff ← coin.currentHandoff.context "wallet has no current handoff token"
  let withdrawalSecret ← WalletState.ownedWithdrawalKey coin
  lift (lib.verifyHistory metadata status coin.clientSecret capability handoff
    (secretXonly withdrawalSecret) observedFunding.confirmations coin.history)
  let delayBlocks ← nextDelay coin.history
  requireReactionMargin observedFunding.confirmations delayBlocks
    (max minimumReactionBlocks request.minReactionBlocks)
  let nextCapabilityHash ← request.parseNextCapabilityHash P
  let withdrawalKey ← request.withdrawalKey P
  let (signRequest, prepared) ← lift (lib.prepareRecovery metadata status coin.clientSecret
    capability handoff nextCapabilityHash withdrawalKey delayBlocks
    observedFunding.confirmations)
  let template ← lift (lib.recoverySerializationTemplate prepared)
  validateTransferPayloadSize
    (WalletState.transferPayload coin metadata Bytes32.max Bytes32.max
      (coin.history ++ [template]))
  let pending : PendingRecovery P := {
    purpose := .transfer request
    stage := .prepared {
      expectedSignatureCount := status.signatureCount
      delayBlocks
      request := signRequest
      prepared } }
  return (signRequest, { self with pending := some (.recovery pending) })

/-- `WalletState::validate_pending_transfer`. -/
def validatePendingTransfer (self : WalletState P) (status : CoinStatus P)
    (observedFunding : ObservedFunding P) (minimumConfirmations minimumReactionBlocks : Nat) :
    MayPanic String Unit := do
  match self.pending with
  | none => throw "wallet has no pending transfer"
  | some (.registration ..) => throw "wallet has a pending registration"
  | some (.recovery ⟨.fund .., _⟩) => throw "wallet has pending funding"
  | some (.recovery ⟨.transfer _, .responded ..⟩) =>
    throw "transfer signature response is already saved"
  | some (.recovery ⟨.transfer request, .prepared attempt⟩) => do
    let coin ← self.coin.context "pending transfer coin is missing"
    let metadata ← coin.metadata.context "pending transfer metadata is missing"
    self.validateOutgoingTransferRequest metadata.network request
    Client.lift (verifyStatus coin.keys status)
    let committed ← attemptCommitted status attempt
    if committed then return () else do
    ensure (attemptUncommitted status attempt = true)
      "pending signing journal does not match live enclave state"
    lib.verifyObservedFunding metadata observedFunding minimumConfirmations
    let capability ← coin.currentCapability.context "coin has already been transferred"
    let handoff ← coin.currentHandoff.context "wallet has no current handoff token"
    ensure (attempt.request.currentCapability = capability ∧
      attempt.request.currentHandoff = handoff) "pending transfer does not match local ownership"
    let withdrawalSecret ← WalletState.ownedWithdrawalKey coin
    lift (lib.verifyHistory metadata status coin.clientSecret capability handoff
      (secretXonly withdrawalSecret) observedFunding.confirmations coin.history)
    ensure (attempt.expectedSignatureCount = coin.history.length)
      "pending transfer signature count is inconsistent"
    let expectedDelay ← nextDelay coin.history
    ensure (attempt.delayBlocks = expectedDelay) "pending transfer delay is inconsistent"
    requireReactionMargin observedFunding.confirmations attempt.delayBlocks
      (max minimumReactionBlocks request.minReactionBlocks)

/-- `WalletState::complete_transfer`. -/
def completeTransfer (draws : EnvelopeDraws P) (status : CoinStatus P) (self : WalletState P) :
    MayPanic String (TransferEnvelope × WalletState P) := do
  match self.pending with
  | none => throw "wallet has no pending transfer"
  | some (.registration ..) => throw "wallet has a pending registration"
  | some (.recovery ⟨.fund .., _⟩) => throw "wallet has pending funding"
  | some (.recovery ⟨.transfer _, .prepared _⟩) => throw "transfer has no saved enclave response"
  | some (.recovery ⟨.transfer request, .responded attempt response⟩) => do
    request.validate P
    let coin ← self.coin.context "pending transfer coin is missing"
    let metadata ← coin.metadata.context "pending transfer metadata is missing"
    let coinId ← request.parseCoinId
    let outpoint ← request.parseOutpoint P
    ensure (coinId = coin.keys.coinId ∧ request.network = metadata.network ∧
        outpoint = metadata.outpoint ∧ request.expectedAmountSat = metadata.amountSat)
      "pending transfer request does not match the coin"
    Client.lift (verifyStatus coin.keys status)
    Client.lift (verifySignResponse attempt.request attempt.expectedSignatureCount status
      response)
    let recovery ← lift (lib.completeRecovery attempt.request response attempt.prepared
      coin.clientSecret)
    ensure (recovery.delayBlocks = attempt.delayBlocks) "pending signing delay is inconsistent"
    let index ← coin.withdrawalRecoveryIndex.context "wallet has no owned recovery"
    let retained ← coin.history[index]?.context "owned recovery index is invalid"
    let requestId ← request.id
    let payload := WalletState.transferPayload coin metadata requestId response.nextHandoff
      (coin.history ++ [recovery])
    let envelope ← encryptTransfer draws request payload
    let coin ← MayPanic.expect self.coin
    return (envelope, { self with
      coin := some (WalletState.transferredCoin coin retained request envelope)
      pending := none })

/-! ## Accepting -/

/-- The checks of `accept_transfer` for a wallet without a coin, and the coin they lead to. -/
def acceptCoin (reader : PayloadReader P) (self : WalletState P) (network : NetworkId)
    (request : TransferRequest) (envelope : TransferEnvelope) (status : CoinStatus P)
    (observedFunding : ObservedFunding P) (minimumConfirmations minimumReactionBlocks : Nat) :
    MayPanic String (WalletCoin P) := do
  ensure (self.pending.isNone = true) "wallet has a pending operation"
  let incoming ← self.incoming.context "wallet has no matching transfer request"
  ensure (incoming.request = request) "saved transfer request does not match input"
  let payload ← decryptTransfer reader request incoming.transportSecret envelope
  ensure (payload.metadata.network = network ∧ request.network = network)
    "transfer network mismatch"
  let coinId ← request.parseCoinId
  ensure (payload.metadata.keys.coinId = coinId) "transfer coin ID mismatch"
  let outpoint ← request.parseOutpoint P
  ensure (payload.metadata.outpoint = outpoint) "transfer outpoint mismatch"
  payload.validateExpectedAmount request
  ensure (secretXonly payload.clientSecret = payload.metadata.keys.clientPubkey)
    "transferred client secret does not match coin metadata"
  let latest ← payload.history.getLast?.context "transfer has no recovery history"
  let withdrawalKey ← request.withdrawalKey P
  ensure (latest.withdrawalXonlyPubkey = withdrawalKey) "latest recovery does not pay the receiver"
  let nextCapabilityHash ← request.parseNextCapabilityHash P
  ensure (nextCapabilityHash = capabilityHash incoming.capability)
    "transfer request capability is inconsistent"
  lib.verifyObservedFunding payload.metadata observedFunding minimumConfirmations
  let withdrawal ← (P.secretKeyFromSlice incoming.withdrawalSecret).context
    "saved withdrawal key is invalid"
  lift (lib.verifyHistory payload.metadata status payload.clientSecret incoming.capability
    payload.currentHandoff (secretXonly withdrawal) observedFunding.confirmations payload.history)
  requireReactionMargin observedFunding.confirmations latest.delayBlocks
    (max minimumReactionBlocks request.minReactionBlocks)
  let index ← MayPanic.sub payload.history.length 1
  let coin := WalletState.acceptedCoin payload incoming.capability incoming.withdrawalSecret request
    envelope
  return { coin with withdrawalRecoveryIndex := some index }

/-- `WalletState::accept_transfer`. -/
def acceptTransfer (reader : PayloadReader P) (network : NetworkId) (request : TransferRequest)
    (envelope : TransferEnvelope) (status : CoinStatus P) (observedFunding : ObservedFunding P)
    (minimumConfirmations minimumReactionBlocks : Nat) (self : WalletState P) :
    MayPanic String (Bool × WalletState P) := do
  self.validateVersion
  request.validate P
  match self.coin with
  | some coin => do
    ensure (coin.acceptedRequest = some request ∧
        coin.acceptedEnvelopeFingerprint = some envelope.fingerprint)
      "wallet already contains a different coin or transfer"
    return (false, self)
  | none => do
    let coin ← lib.acceptCoin reader self network request envelope status observedFunding
      minimumConfirmations minimumReactionBlocks
    return (true, { self with coin := some coin, incoming := none })

end Library

end Tinylayer.Machine
