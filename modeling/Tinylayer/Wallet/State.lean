import Tinylayer.Wallet.Funding
import Tinylayer.Wallet.Transfer

/-!
# The wallet state

The operations of `wallet-core/src/state.rs`. Each is an update of the wallet state that may fail;
what it draws at random is an argument. The signing flows journal a request, record the enclave's
response to it, and only then apply it, so that each step can be repeated after an interruption.
-/

namespace Tinylayer

variable {P : Platform}

namespace WalletCoin

/-- `WalletCoin::verify_live_status`. -/
def verifyLiveStatus (self : WalletCoin P) (status : CoinStatus P) : Except String Unit := do
  Client.lift (verifyStatus self.keys status)
  ensure (status.signatureCount = self.history.length) "wallet history does not match enclave"
  match self.currentCapability, self.currentHandoff with
  | some capability, some handoff =>
    ensure (status.authorization =
        authorization self.keys.coinId (capabilityHash capability) handoff)
      "wallet authorization does not match enclave"
  | _, _ => return ()

end WalletCoin

namespace WalletState

/-- `WalletState::empty`. -/
def empty : WalletState P where
  formatVersion := fileFormatVersion
  coin := none
  incoming := none
  pending := none

/-- `WalletState::validate_version`. -/
def validateVersion (self : WalletState P) : Except String Unit := do
  ensure (self.formatVersion = fileFormatVersion)
    s!"unsupported wallet format version {self.formatVersion}"
  match self.coin with
  | some coin =>
    ensure (coin.acceptedRequest.isSome = coin.acceptedEnvelopeFingerprint.isSome)
      "accepted transfer replay binding is incomplete"
  | none => return ()

/-! ## Registration -/

variable (P) in
/-- What `begin_registration` draws at random. -/
structure RegistrationDraws where
  clientSecret : P.SecretKey
  initialCapability : Capability
  coinId : CoinId

/-- `WalletState::begin_registration`. -/
def beginRegistration (draws : RegistrationDraws P) :
    Update String (WalletState P) (RegisterRequest P) := do
  let self ← get
  Update.of do
    self.validateVersion
    ensure (self.coin.isNone = true) "wallet already contains a coin"
    ensure (self.incoming.isNone = true) "wallet has a pending transfer request"
  match self.pending with
  | some (.registration _ _ registration) => return registration.request
  | some (.recovery _) => throw "wallet has a pending signing operation"
  | none => do
    let registration := prepareRegistration draws.coinId draws.clientSecret
      (capabilityHash draws.initialCapability)
    set { self with
      pending := some (.registration draws.clientSecret draws.initialCapability registration) }
    return registration.request

/-- The coin that a completed registration creates. -/
def registeredCoin (clientSecret : P.SecretKey) (initialCapability : Capability)
    (keys : CoinKeys P) : WalletCoin P where
  clientSecret := clientSecret
  keys := keys
  metadata := none
  funding := none
  currentCapability := some initialCapability
  currentHandoff := some initialHandoff
  withdrawalSecret := none
  withdrawalRecoveryIndex := none
  acceptedRequest := none
  acceptedEnvelopeFingerprint := none
  history := []
  outgoing := none

/-- `WalletState::complete_registration`. -/
def completeRegistration (status : CoinStatus P) : Update String (WalletState P) Unit := do
  let self ← get
  let coin ← Update.of do
    self.validateVersion
    ensure (self.coin.isNone = true) "wallet already contains a coin"
    match self.pending with
    | none => throw "wallet has no pending registration"
    | some (.recovery _) => throw "wallet has a pending signing operation"
    | some (.registration clientSecret initialCapability registration) => do
      let keys ← Client.lift (Tinylayer.completeRegistration registration status)
      return registeredCoin clientSecret initialCapability keys
  set { self with coin := some coin, pending := none }

/-! ## Funding -/

variable (P) in
/-- What `begin_funding` draws at random. -/
structure FundingDraws where
  nextCapability : Capability
  withdrawal : P.SecretKey

/-- `WalletState::begin_funding`. -/
def beginFunding (draws : FundingDraws P) (network : NetworkId) (sourceSecret : P.SecretKey)
    (source : SourceUtxo P) (status : CoinStatus P)
    (amountSat delayBlocks feeRateSatVb maxFeeSat minimumReactionBlocks : Nat) :
    Update String (WalletState P) (SignRequest P) := do
  let self ← get
  let (request, coin, pending) ← Update.of do
    self.validateVersion
    ensure (self.pending.isNone = true) "wallet has a pending operation"
    requireReactionMargin 0 delayBlocks minimumReactionBlocks
    let coin ← self.coin.context "register a coin first"
    ensure (coin.metadata.isNone = true ∧ coin.funding.isNone = true ∧ coin.history = [] ∧
        coin.currentHandoff = some initialHandoff)
      "coin has already left the registration stage"
    coin.verifyLiveStatus status
    ensure (status.signatureCount = 0) "coin already has signed recoveries"
    let capability ← coin.currentCapability.context "coin has already been transferred"
    let handoff ← coin.currentHandoff.context "coin has no current handoff"
    let preparedFunding ← buildSourceFunding coin.keys network sourceSecret source amountSat
      feeRateSatVb maxFeeSat
    let metadata := coin.keys.metadata network preparedFunding.outpoint amountSat
    let (request, preparedRecovery) ← Client.lift (prepareRecovery metadata status
      coin.clientSecret capability handoff (capabilityHash draws.nextCapability)
      (P.xOnlyPublicKey draws.withdrawal) delayBlocks 0)
    let funding : FundingJournal P := {
      transaction := preparedFunding.transaction
      delayBlocks
      feeRateSatVb
      maxFeeSat
      feeSat := preparedFunding.feeSat
      stage := .prepared }
    let pending : PendingRecovery P := {
      purpose := .fund draws.nextCapability (P.secretBytes draws.withdrawal)
      stage := .prepared {
        expectedSignatureCount := status.signatureCount
        delayBlocks
        request
        prepared := preparedRecovery } }
    return (request, { coin with metadata := some metadata, funding := some funding }, pending)
  set { self with coin := some coin, pending := some (.recovery pending) }
  return request

/-- `WalletState::pending_sign_request`. -/
def pendingSignRequest (self : WalletState P) : Except String (SignRequest P) := do
  match self.pending with
  | none => throw "wallet has no pending operation"
  | some (.registration ..) => throw "wallet has a pending registration"
  | some (.recovery recovery) => return recovery.stage.attempt.request

/-- `WalletState::record_sign_response`. The pending operation is taken out and put back. -/
def recordSignResponse (response : SignResponse P) : Update String (WalletState P) Unit := do
  let self ← get
  let pending ← Update.of (self.pending.context "wallet has no pending operation")
  set { self with pending := none }
  match pending with
  | .registration clientSecret initialCapability registration => do
    set { self with
      pending := some (.registration clientSecret initialCapability registration) }
    throw "wallet has a pending registration"
  | .recovery ⟨purpose, .prepared attempt⟩ =>
    set { self with pending := some (.recovery ⟨purpose, .responded attempt response⟩) }
  | .recovery ⟨purpose, .responded attempt saved⟩ => do
    set { self with pending := some (.recovery ⟨purpose, .responded attempt saved⟩) }
    Update.of (ensure (saved = response) "enclave response does not match saved response")

/-- `WalletState::complete_funding_recovery`. -/
def completeFundingRecovery (status : CoinStatus P) : Update String (WalletState P) Unit := do
  let self ← get
  let coin ← Update.of do
    match self.pending with
    | none => throw "wallet has no pending funding recovery"
    | some (.registration ..) => throw "wallet has a pending registration"
    | some (.recovery ⟨.transfer _, _⟩) => throw "wallet has a pending transfer"
    | some (.recovery ⟨.fund .., .prepared _⟩) =>
      throw "funding recovery has no saved enclave response"
    | some (.recovery ⟨.fund nextCapability withdrawalSecret, .responded attempt response⟩) => do
      ensure (attempt.expectedSignatureCount = 0)
        "initial funding recovery has an invalid signature count"
      let coin ← self.coin.context "pending signing coin is missing"
      Client.lift (verifyStatus coin.keys status)
      Client.lift (verifySignResponse attempt.request attempt.expectedSignatureCount status
        response)
      let recovery ← Client.lift (completeRecovery attempt.request response attempt.prepared
        coin.clientSecret)
      ensure (recovery.delayBlocks = attempt.delayBlocks) "pending signing delay is inconsistent"
      let funding ← coin.funding.context "pending funding journal is missing"
      ensure (funding.stage = .prepared) "funding recovery was already secured"
      return { coin with
        history := coin.history ++ [recovery]
        funding := some { funding with stage := .recoverySecured }
        currentCapability := some nextCapability
        currentHandoff := some response.nextHandoff
        withdrawalSecret := some withdrawalSecret
        withdrawalRecoveryIndex := some coin.history.length }
  set { self with coin := some coin, pending := none }

/-- `WalletState::funding_transaction`. -/
def fundingTransaction (self : WalletState P) : Except String P.Tx := do
  let coin ← self.coin.context "wallet has no coin"
  let metadata ← coin.metadata.context "coin is not funded"
  let funding ← coin.funding.context "funding journal is missing"
  ensure (funding.stage = .recoverySecured ∨ funding.stage = .broadcast)
    "funding cannot be broadcast before its recovery is durable"
  validateFinalizedFunding metadata funding.transaction
  let recovery ← coin.history.head?.context "secured funding recovery is missing"
  ensure (recovery.delayBlocks = funding.delayBlocks)
    "secured funding recovery has the wrong delay"
  Client.lift (verifyRecovery metadata recovery)
  return funding.transaction

/-- The coin with its funding marked as broadcast. -/
def broadcastCoin (coin : WalletCoin P) : WalletCoin P :=
  { coin with funding := coin.funding.map fun funding => { funding with stage := .broadcast } }

/-- `WalletState::mark_funding_broadcast`. -/
def markFundingBroadcast (txid : P.Txid) : Update String (WalletState P) Unit := do
  let self ← get
  Update.of do
    let transaction ← self.fundingTransaction
    ensure (P.computeTxid transaction = txid)
      "broadcast funding txid does not match recovery outpoint"
  set { self with coin := self.coin.map broadcastCoin }

/-- `WalletState::verify_funding`: how long the first recovery still has to wait. -/
def verifyFunding (self : WalletState P) (observed : P.Tx) (confirmations : Nat) (unspent : Bool) :
    Except String Nat := do
  let expected ← self.fundingTransaction
  ensure (expected = observed) "chain returned different funding transaction bytes"
  ensure (unspent = true) "Tinylayer funding output is spent"
  let coin ← self.coin.context "funding journal is missing"
  let funding ← coin.funding.context "funding journal is missing"
  ensure (funding.stage = .broadcast) "funding transaction is not marked broadcast"
  return funding.delayBlocks - confirmations

/-! ## Receiving -/

variable (P) in
/-- What `begin_transfer_request` draws at random. -/
structure RequestDraws where
  capability : Capability
  withdrawal : P.SecretKey
  transport : P.SecretKey
  requestId : Bytes32

/-- `WalletState::begin_transfer_request`. -/
def beginTransferRequest (draws : RequestDraws P) (network : NetworkId) (coinId : CoinId)
    (outpoint : OutPoint P.Txid) (expectedAmountSat minimumReactionBlocks : Nat) :
    Update String (WalletState P) TransferRequest := do
  let self ← get
  Update.of do
    self.validateVersion
    ensure (self.coin.isNone = true) "wallet already contains a coin"
    ensure (self.pending.isNone = true) "wallet has a pending operation"
    ensure (P.isNull outpoint = false) "transfer outpoint cannot be null"
    ensure (delayStep ≤ minimumReactionBlocks)
      s!"minimum reaction margin must be at least {delayStep} blocks"
  match self.incoming with
  | some incoming => do
    Update.of do
      let savedCoinId ← incoming.request.parseCoinId
      let savedOutpoint ← incoming.request.parseOutpoint P
      ensure (savedCoinId = coinId ∧ savedOutpoint = outpoint ∧
          incoming.request.network = network ∧
          incoming.request.expectedAmountSat = expectedAmountSat ∧
          incoming.request.minReactionBlocks = minimumReactionBlocks)
        "wallet has another pending transfer request"
    return incoming.request
  | none => do
    let request := TransferRequest.new draws.requestId coinId network outpoint expectedAmountSat
      (secretXonly draws.withdrawal) (capabilityHash draws.capability)
      (P.publicKeyOf draws.transport) minimumReactionBlocks
    Update.of (request.validate P)
    set { self with
      incoming := some {
        request
        capability := draws.capability
        withdrawalSecret := P.secretBytes draws.withdrawal
        transportSecret := P.secretBytes draws.transport } }
    return request

/-! ## Sending -/

/-- `WalletState::validate_outgoing_transfer_request`. -/
def validateOutgoingTransferRequest (self : WalletState P) (network : NetworkId)
    (request : TransferRequest) : Except String Unit := do
  self.validateVersion
  request.validate P
  let coin ← self.coin.context "wallet has no coin"
  let metadata ← coin.metadata.context "coin has no verified funding"
  ensure (coin.history ≠ []) "fund the coin before transferring it"
  ensure (∀ funding ∈ coin.funding, funding.stage = .broadcast) "funding has not been broadcast"
  let coinId ← request.parseCoinId
  ensure (coinId = coin.keys.coinId) "transfer request is for another coin"
  ensure (request.network = network) "transfer request network mismatch"
  ensure (metadata.network = network) "coin network mismatch"
  let outpoint ← request.parseOutpoint P
  ensure (outpoint = metadata.outpoint) "transfer request outpoint mismatch"
  ensure (request.expectedAmountSat = metadata.amountSat) "transfer request amount mismatch"

/-- The secret key of the recovery that the wallet owns. -/
def ownedWithdrawalKey (coin : WalletCoin P) : Except String P.SecretKey := do
  let withdrawalSecret ← coin.withdrawalSecret.context "wallet has no current withdrawal key"
  (P.secretKeyFromSlice withdrawalSecret).context "saved withdrawal key is invalid"

/-- The delay of the next recovery. -/
def nextDelay (history : List (SignedRecovery P)) : Except String Nat := do
  let latest ← history.getLast?.context "recovery delay cannot be decremented"
  (checkedSub latest.delayBlocks delayStep).context "recovery delay cannot be decremented"

/-- The payload of a transfer. -/
def transferPayload (coin : WalletCoin P) (metadata : CoinMetadata P) (requestId : Bytes32)
    (handoff : HandoffToken) (history : List (SignedRecovery P)) : TransferPayload P where
  formatVersion := fileFormatVersion
  protocolVersion := Tinylayer.protocolVersion
  requestId := requestId
  clientSecret := coin.clientSecret
  currentHandoff := handoff
  metadata := metadata
  history := history

/-- `WalletState::begin_transfer`. -/
def beginTransfer (network : NetworkId) (request : TransferRequest) (status : CoinStatus P)
    (observedFunding : ObservedFunding P) (minimumConfirmations minimumReactionBlocks : Nat) :
    Update String (WalletState P) (SignRequest P) := do
  let self ← get
  let (signRequest, pending) ← Update.of do
    ensure (self.pending.isNone = true) "wallet has a pending operation"
    self.validateOutgoingTransferRequest network request
    let coin ← self.coin.context "wallet has no coin"
    ensure (coin.outgoing.isNone = true) "coin has already been transferred"
    let metadata ← coin.metadata.context "coin has no verified funding"
    verifyObservedFunding metadata observedFunding minimumConfirmations
    let capability ← coin.currentCapability.context "coin has already been transferred"
    let handoff ← coin.currentHandoff.context "wallet has no current handoff token"
    let withdrawalSecret ← ownedWithdrawalKey coin
    Client.lift (verifyHistory metadata status coin.clientSecret capability handoff
      (secretXonly withdrawalSecret) observedFunding.confirmations coin.history)
    let delayBlocks ← nextDelay coin.history
    requireReactionMargin observedFunding.confirmations delayBlocks
      (max minimumReactionBlocks request.minReactionBlocks)
    let nextCapabilityHash ← request.parseNextCapabilityHash P
    let withdrawalKey ← request.withdrawalKey P
    let (signRequest, prepared) ← Client.lift (prepareRecovery metadata status coin.clientSecret
      capability handoff nextCapabilityHash withdrawalKey delayBlocks
      observedFunding.confirmations)
    let template ← Client.lift prepared.recoverySerializationTemplate
    validateTransferPayloadSize
      (transferPayload coin metadata Bytes32.max Bytes32.max (coin.history ++ [template]))
    let pending : PendingRecovery P := {
      purpose := .transfer request
      stage := .prepared {
        expectedSignatureCount := status.signatureCount
        delayBlocks
        request := signRequest
        prepared } }
    return (signRequest, pending)
  set { self with pending := some (.recovery pending) }
  return signRequest

/-- `WalletState::validate_pending_transfer`. -/
def validatePendingTransfer (self : WalletState P) (status : CoinStatus P)
    (observedFunding : ObservedFunding P) (minimumConfirmations minimumReactionBlocks : Nat) :
    Except String Unit := do
  match self.pending with
  | none => throw "wallet has no pending transfer"
  | some (.registration ..) => throw "wallet has a pending registration"
  | some (.recovery ⟨.fund .., _⟩) => throw "wallet has pending funding"
  | some (.recovery ⟨.transfer _, .responded ..⟩) =>
    throw "transfer signature response is already saved"
  | some (.recovery ⟨.transfer request, .prepared attempt⟩) => do
    let coin ← self.coin.context "pending transfer coin is missing"
    let metadata ← coin.metadata.context "pending transfer metadata is missing"
    self.validateOutgoingTransferRequest metadata.network request
    Client.lift (verifyStatus coin.keys status)
    let committed ← attemptCommitted status attempt
    if committed then return () else do
    ensure (attemptUncommitted status attempt = true)
      "pending signing journal does not match live enclave state"
    verifyObservedFunding metadata observedFunding minimumConfirmations
    let capability ← coin.currentCapability.context "coin has already been transferred"
    let handoff ← coin.currentHandoff.context "wallet has no current handoff token"
    ensure (attempt.request.currentCapability = capability ∧
      attempt.request.currentHandoff = handoff) "pending transfer does not match local ownership"
    let withdrawalSecret ← ownedWithdrawalKey coin
    Client.lift (verifyHistory metadata status coin.clientSecret capability handoff
      (secretXonly withdrawalSecret) observedFunding.confirmations coin.history)
    ensure (attempt.expectedSignatureCount = coin.history.length)
      "pending transfer signature count is inconsistent"
    let expectedDelay ← nextDelay coin.history
    ensure (attempt.delayBlocks = expectedDelay) "pending transfer delay is inconsistent"
    requireReactionMargin observedFunding.confirmations attempt.delayBlocks
      (max minimumReactionBlocks request.minReactionBlocks)

/-- `WalletState::pending_transfer_request`. -/
def pendingTransferRequest (self : WalletState P) : Except String TransferRequest :=
  match self.pending with
  | none => throw "wallet has no pending transfer"
  | some (.registration ..) => throw "wallet has a pending registration"
  | some (.recovery ⟨.fund .., _⟩) => throw "wallet has pending funding"
  | some (.recovery ⟨.transfer request, _⟩) => return request

/-- The coin after it was handed on: only the owner's own recovery is kept. -/
def transferredCoin (coin : WalletCoin P) (retained : SignedRecovery P) (request : TransferRequest)
    (envelope : TransferEnvelope) : WalletCoin P :=
  { coin with
    history := [retained]
    withdrawalRecoveryIndex := some 0
    currentCapability := none
    currentHandoff := none
    outgoing := some { request, envelope } }

/-- `WalletState::complete_transfer`. -/
def completeTransfer (draws : EnvelopeDraws P) (status : CoinStatus P) :
    Update String (WalletState P) TransferEnvelope := do
  let self ← get
  let (coin, envelope) ← Update.of do
    match self.pending with
    | none => throw "wallet has no pending transfer"
    | some (.registration ..) => throw "wallet has a pending registration"
    | some (.recovery ⟨.fund .., _⟩) => throw "wallet has pending funding"
    | some (.recovery ⟨.transfer _, .prepared _⟩) => throw "transfer has no saved enclave response"
    | some (.recovery ⟨.transfer request, .responded attempt response⟩) => do
      request.validate P
      let coin ← self.coin.context "pending transfer coin is missing"
      let metadata ← coin.metadata.context "pending transfer metadata is missing"
      let coinId ← request.parseCoinId
      let outpoint ← request.parseOutpoint P
      ensure (coinId = coin.keys.coinId ∧ request.network = metadata.network ∧
          outpoint = metadata.outpoint ∧ request.expectedAmountSat = metadata.amountSat)
        "pending transfer request does not match the coin"
      Client.lift (verifyStatus coin.keys status)
      Client.lift (verifySignResponse attempt.request attempt.expectedSignatureCount status
        response)
      let recovery ← Client.lift (completeRecovery attempt.request response attempt.prepared
        coin.clientSecret)
      ensure (recovery.delayBlocks = attempt.delayBlocks) "pending signing delay is inconsistent"
      let index ← coin.withdrawalRecoveryIndex.context "wallet has no owned recovery"
      let retained ← coin.history[index]?.context "owned recovery index is invalid"
      let requestId ← request.id
      let payload := transferPayload coin metadata requestId response.nextHandoff
        (coin.history ++ [recovery])
      let envelope ← encryptTransfer draws request payload
      return (transferredCoin coin retained request envelope, envelope)
  set { self with coin := some coin, pending := none }
  return envelope

/-! ## Accepting -/

/-- The coin that an accepted transfer creates. -/
def acceptedCoin (payload : TransferPayload P) (capability : Capability)
    (withdrawalSecret : Bytes32) (request : TransferRequest) (envelope : TransferEnvelope) :
    WalletCoin P where
  clientSecret := payload.clientSecret
  keys := payload.metadata.keys
  metadata := some payload.metadata
  funding := none
  currentCapability := some capability
  currentHandoff := some payload.currentHandoff
  withdrawalSecret := some withdrawalSecret
  withdrawalRecoveryIndex := some (payload.history.length - 1)
  acceptedRequest := some request
  acceptedEnvelopeFingerprint := some envelope.fingerprint
  history := payload.history
  outgoing := none

/-- The checks of `accept_transfer` for a wallet without a coin, and the coin they lead to. -/
def acceptCoin (reader : PayloadReader P) (self : WalletState P) (network : NetworkId)
    (request : TransferRequest) (envelope : TransferEnvelope) (status : CoinStatus P)
    (observedFunding : ObservedFunding P) (minimumConfirmations minimumReactionBlocks : Nat) :
    Except String (WalletCoin P) := do
  ensure (self.pending.isNone = true) "wallet has a pending operation"
  let incoming ← self.incoming.context "wallet has no matching transfer request"
  ensure (incoming.request = request) "saved transfer request does not match input"
  let payload ← decryptTransfer reader request incoming.transportSecret envelope
  ensure (payload.metadata.network = network ∧ request.network = network)
    "transfer network mismatch"
  let coinId ← request.parseCoinId
  ensure (payload.metadata.keys.coinId = coinId) "transfer coin ID mismatch"
  let outpoint ← request.parseOutpoint P
  ensure (payload.metadata.outpoint = outpoint) "transfer outpoint mismatch"
  payload.validateExpectedAmount request
  ensure (secretXonly payload.clientSecret = payload.metadata.keys.clientPubkey)
    "transferred client secret does not match coin metadata"
  let latest ← payload.history.getLast?.context "transfer has no recovery history"
  let withdrawalKey ← request.withdrawalKey P
  ensure (latest.withdrawalXonlyPubkey = withdrawalKey) "latest recovery does not pay the receiver"
  let nextCapabilityHash ← request.parseNextCapabilityHash P
  ensure (nextCapabilityHash = capabilityHash incoming.capability)
    "transfer request capability is inconsistent"
  verifyObservedFunding payload.metadata observedFunding minimumConfirmations
  let withdrawal ← (P.secretKeyFromSlice incoming.withdrawalSecret).context
    "saved withdrawal key is invalid"
  Client.lift (verifyHistory payload.metadata status payload.clientSecret incoming.capability
    payload.currentHandoff (secretXonly withdrawal) observedFunding.confirmations payload.history)
  requireReactionMargin observedFunding.confirmations latest.delayBlocks
    (max minimumReactionBlocks request.minReactionBlocks)
  return acceptedCoin payload incoming.capability incoming.withdrawalSecret request envelope

/-- `WalletState::accept_transfer`. -/
def acceptTransfer (reader : PayloadReader P) (network : NetworkId) (request : TransferRequest)
    (envelope : TransferEnvelope) (status : CoinStatus P) (observedFunding : ObservedFunding P)
    (minimumConfirmations minimumReactionBlocks : Nat) :
    Update String (WalletState P) Bool := do
  let self ← get
  Update.of do
    self.validateVersion
    request.validate P
  match self.coin with
  | some coin => do
    Update.of (ensure (coin.acceptedRequest = some request ∧
        coin.acceptedEnvelopeFingerprint = some envelope.fingerprint)
      "wallet already contains a different coin or transfer")
    return false
  | none => do
    let coin ← Update.of (acceptCoin reader self network request envelope status observedFunding
      minimumConfirmations minimumReactionBlocks)
    set { self with coin := some coin, incoming := none }
    return true

end WalletState

end Tinylayer
