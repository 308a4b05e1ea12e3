import Tinylayer.Wallet.Validation

/-!
# Transfers

Transfer requests, the sealed envelope and its payload, as in `wallet-core/src/transfer.rs`. The
payload is written as JSON by the functions below; reading it back is a parameter.
-/

namespace Tinylayer

variable {P : Platform}

/-- The bytes of a number, most significant byte first (`to_be_bytes`). -/
def beBytes (width n : Nat) : List UInt8 :=
  (List.range width).reverse.map fun i => UInt8.ofNat (n / 256 ^ i)

def transferInfo : List UInt8 := Json.utf8 "Tinylayer/TransferPackage/v1"
def transferEnvelopeFingerprint : List UInt8 :=
  Json.utf8 "Tinylayer/TransferEnvelopeFingerprint/v1"
def maxTransferCiphertextSize : Nat := 8 * 1024 * 1024 - 4096

/-- `parse_hex32`. -/
def parseHex32 (label value : String) : Except String Bytes32 := do
  let bytes ← (Hex.decode value).context s!"invalid {label} hex"
  if h : bytes.length = 32 then return ⟨bytes, h⟩
  else throw s!"invalid {label} length: expected 32 bytes, got {bytes.length}"

/-- `parse_hex32`, for a hash value. -/
def parseHexDigest (label value : String) : Except String P.Digest := do
  let bytes ← (Hex.decode value).context s!"invalid {label} hex"
  (P.digestOfBytes bytes).context
    s!"invalid {label} length: expected 32 bytes, got {bytes.length}"

/-! ## Requests -/

namespace TransferRequest

/-- `TransferRequest::new`. -/
def new (requestId coinId : Bytes32) (network : NetworkId) (outpoint : OutPoint P.Txid)
    (expectedAmountSat : Nat) (withdrawalXonlyPubkey : P.XOnlyPublicKey)
    (nextCapabilityHash : P.Digest) (transportPublicKey : P.PublicKey) (minReactionBlocks : Nat) :
    TransferRequest where
  formatVersion := fileFormatVersion
  protocolVersion := Tinylayer.protocolVersion
  requestId := Hex.encode requestId.toList
  coinId := Hex.encode coinId.toList
  network := network
  outpoint := P.outPointToString outpoint
  expectedAmountSat := expectedAmountSat
  withdrawalXonlyPubkey := P.xOnlyToString withdrawalXonlyPubkey
  nextCapabilityHash := Hex.encode (P.digestBytes nextCapabilityHash)
  transportPublicKey := P.publicKeyToString transportPublicKey
  minReactionBlocks := minReactionBlocks

/-- `TransferRequest::id`. -/
def id (self : TransferRequest) : Except String Bytes32 := parseHex32 "request ID" self.requestId

/-- `TransferRequest::coin_id`. -/
def parseCoinId (self : TransferRequest) : Except String Bytes32 := parseHex32 "coin ID" self.coinId

variable (P)

/-- `TransferRequest::outpoint`. -/
def parseOutpoint (self : TransferRequest) : Except String (OutPoint P.Txid) :=
  (P.outPointFromStr self.outpoint).context "invalid transfer request outpoint"

/-- `TransferRequest::withdrawal_key`. -/
def withdrawalKey (self : TransferRequest) : Except String P.XOnlyPublicKey :=
  (P.xOnlyFromStr self.withdrawalXonlyPubkey).context "invalid transfer request withdrawal key"

/-- `TransferRequest::next_capability_hash`. -/
def parseNextCapabilityHash (self : TransferRequest) : Except String P.Digest :=
  parseHexDigest "next capability hash" self.nextCapabilityHash

/-- `TransferRequest::transport_key`. -/
def transportKey (self : TransferRequest) : Except String P.PublicKey :=
  (P.publicKeyFromStr self.transportPublicKey).context "invalid transfer request transport key"

/-- `TransferRequest::validate`. -/
def validate (self : TransferRequest) : Except String Unit := do
  ensure (self.formatVersion = fileFormatVersion)
    s!"unsupported transfer request version {self.formatVersion}"
  ensure (self.protocolVersion = Tinylayer.protocolVersion) "transfer protocol version mismatch"
  let requestId ← self.id
  let coinId ← self.parseCoinId
  ensure (self.requestId = Hex.encode requestId.toList ∧ self.coinId = Hex.encode coinId.toList)
    "transfer request IDs must use canonical lowercase hex"
  let outpoint ← self.parseOutpoint P
  ensure (P.isNull outpoint = false) "transfer outpoint cannot be null"
  ensure (self.outpoint = P.outPointToString outpoint)
    "transfer outpoint must use canonical txid:vout encoding"
  ensure (self.expectedAmountSat ≤ maxMoney) "transfer request amount exceeds Bitcoin MAX_MONEY"
  let withdrawalKey ← self.withdrawalKey P
  let nextCapabilityHash ← self.parseNextCapabilityHash P
  let transportKey ← self.transportKey P
  ensure (self.withdrawalXonlyPubkey = P.xOnlyToString withdrawalKey ∧
      self.nextCapabilityHash = Hex.encode (P.digestBytes nextCapabilityHash) ∧
      self.transportPublicKey = P.publicKeyToString transportKey)
    "transfer request keys must use canonical lowercase encodings"

/-- `self.network as u8`. -/
def networkByte : NetworkId → UInt8
  | .mutinynet => 1
  | .mainnet => 2
  | .regtest => 3

/-- `TransferRequest::aad`. -/
def aad (self : TransferRequest) : Except String (List UInt8) := do
  self.validate P
  let outpoint ← self.parseOutpoint P
  let id ← self.id
  let coinId ← self.parseCoinId
  let withdrawalKey ← self.withdrawalKey P
  let nextCapabilityHash ← self.parseNextCapabilityHash P
  let transportKey ← self.transportKey P
  return transferInfo ++ beBytes 4 self.protocolVersion ++ id.toList ++ coinId.toList ++
    [networkByte self.network] ++ P.txidSerialize outpoint.txid ++ beBytes 4 outpoint.vout ++
    beBytes 8 self.expectedAmountSat ++ P.xOnlySerialize withdrawalKey ++
    P.digestBytes nextCapabilityHash ++ P.publicKeySerialize transportKey ++
    beBytes 4 self.minReactionBlocks

end TransferRequest

/-- `TransferEnvelope::fingerprint`. -/
def TransferEnvelope.fingerprint (self : TransferEnvelope) : P.Digest :=
  P.sha256 (transferEnvelopeFingerprint ++ beBytes 4 self.formatVersion ++
    [self.requestId, self.ephemeralPublicKey, self.nonce, self.ciphertext].flatMap fun value =>
      beBytes 8 value.utf8ByteSize ++ Json.utf8 value)

/-! ## Payloads -/

def bytes32Json (bytes : Bytes32) : List UInt8 :=
  Json.array (bytes.toList.map fun b => Json.number b.toNat)

def hexJson (bytes : List UInt8) : List UInt8 := Json.text (Hex.encode bytes)

def txInJson (input : TxIn P.Txid) : List UInt8 :=
  Json.object [
    Json.field "previous_output" (Json.text (P.outPointToString input.previousOutput)),
    Json.field "script_sig" (hexJson input.scriptSig),
    Json.field "sequence" (Json.number input.sequence),
    Json.field "witness" (Json.array (input.witness.map hexJson))]

def txOutJson (output : TxOut) : List UInt8 :=
  Json.object [
    Json.field "value" (Json.number output.value),
    Json.field "script_pubkey" (hexJson output.scriptPubkey)]

def transactionJson (transaction : P.Tx) : List UInt8 :=
  Json.object [
    Json.field "version" (Json.int transaction.version),
    Json.field "lock_time" (Json.number transaction.lockTime),
    Json.field "input" (Json.array (transaction.input.map txInJson)),
    Json.field "output" (Json.array (transaction.output.map txOutJson))]

def networkName : NetworkId → String
  | .mutinynet => "mutinynet"
  | .mainnet => "mainnet"
  | .regtest => "regtest"

def coinKeysJson (keys : CoinKeys P) : List UInt8 :=
  Json.object [
    Json.field "protocol_version" (Json.number keys.protocolVersion),
    Json.field "coin_id" (bytes32Json keys.coinId),
    Json.field "client_pubkey" (Json.text (P.xOnlyToString keys.clientPubkey)),
    Json.field "enclave_pubkey" (Json.text (P.xOnlyToString keys.enclavePubkey))]

def coinMetadataJson (metadata : CoinMetadata P) : List UInt8 :=
  Json.object [
    Json.field "keys" (coinKeysJson metadata.keys),
    Json.field "network" (Json.text (networkName metadata.network)),
    Json.field "outpoint" (Json.text (P.outPointToString metadata.outpoint)),
    Json.field "amount_sat" (Json.number metadata.amountSat)]

def signedRecoveryJson (recovery : SignedRecovery P) : List UInt8 :=
  Json.object [
    Json.field "transaction" (transactionJson recovery.transaction),
    Json.field "withdrawal_xonly_pubkey"
      (Json.text (P.xOnlyToString recovery.withdrawalXonlyPubkey)),
    Json.field "delay_blocks" (Json.number recovery.delayBlocks)]

namespace TransferPayload

/-- `serde_json::to_vec` of a payload. -/
def toVec (self : TransferPayload P) : List UInt8 :=
  Json.object [
    Json.field "format_version" (Json.number self.formatVersion),
    Json.field "protocol_version" (Json.number self.protocolVersion),
    Json.field "request_id" (bytes32Json self.requestId),
    Json.field "client_secret" (Json.text (P.secretToString self.clientSecret)),
    Json.field "current_handoff" (bytes32Json self.currentHandoff),
    Json.field "metadata" (coinMetadataJson self.metadata),
    Json.field "history" (Json.array (self.history.map signedRecoveryJson))]

/-- `TransferPayload::validate`. -/
def validate (self : TransferPayload P) : Except String Unit := do
  ensure (self.formatVersion = fileFormatVersion)
    s!"unsupported transfer payload version {self.formatVersion}"
  ensure (self.protocolVersion = Tinylayer.protocolVersion) "transfer protocol version mismatch"

/-- `TransferPayload::validate_expected_amount`. -/
def validateExpectedAmount (self : TransferPayload P) (request : TransferRequest) :
    Except String Unit :=
  ensure (self.metadata.amountSat = request.expectedAmountSat) "transfer amount mismatch"

end TransferPayload

variable (P) in
/-- The JSON reader: `serde_json::from_slice` of a payload, which also checks the coin's keys. -/
structure PayloadReader where
  fromSlice : List UInt8 → Option (TransferPayload P)

/-- What was written is read back, if the coin's keys are valid. -/
def PayloadReader.RoundTrip (reader : PayloadReader P) : Prop :=
  ∀ payload : TransferPayload P, payload.metadata.keys.Valid →
    reader.fromSlice payload.toVec = some payload

/-- `validate_transfer_plaintext_size`. -/
def validateTransferPlaintextSize (plaintextSize : Nat) : Except String Unit :=
  ensure (plaintextSize + 16 ≤ maxTransferCiphertextSize)
    "transfer package exceeds 8 MiB ciphertext limit"

/-- `validate_transfer_payload_size`. -/
def validateTransferPayloadSize (payload : TransferPayload P) : Except String Unit :=
  validateTransferPlaintextSize payload.toVec.length

/-! ## Envelopes -/

/-- `secret_xonly`. -/
def secretXonly (secret : P.SecretKey) : P.XOnlyPublicKey := P.xOnlyPublicKey secret

/-- `transfer_key`. -/
def transferKey (shared : P.SharedSecret) (requestId : Bytes32) : Except String P.CipherKey :=
  (P.hkdfExpand requestId shared transferInfo).context "failed to derive transfer encryption key"

variable (P) in
/-- What `encrypt_transfer` draws at random. -/
structure EnvelopeDraws where
  ephemeral : P.SecretKey
  nonce : List.Vector UInt8 24

/-- `encrypt_transfer`. -/
def encryptTransfer (draws : EnvelopeDraws P) (request : TransferRequest)
    (payload : TransferPayload P) : Except String TransferEnvelope := do
  request.validate P
  payload.validate
  let id ← request.id
  ensure (payload.requestId = id) "transfer request mismatch"
  let ephemeralPublicKey := P.publicKeyOf draws.ephemeral
  let transportKey ← request.transportKey P
  let shared := P.sharedSecret transportKey draws.ephemeral
  let key ← transferKey shared payload.requestId
  let plaintext := payload.toVec
  validateTransferPlaintextSize plaintext.length
  let aad ← request.aad P
  let ciphertext ← (P.aeadEncrypt key draws.nonce.toList plaintext aad).context
    "failed to encrypt transfer package"
  return {
    formatVersion := fileFormatVersion
    requestId := request.requestId
    ephemeralPublicKey := P.publicKeyToString ephemeralPublicKey
    nonce := Hex.encode draws.nonce.toList
    ciphertext := Hex.encode ciphertext }

/-- `decrypt_transfer`. -/
def decryptTransfer (reader : PayloadReader P) (request : TransferRequest)
    (transportSecret : Bytes32) (envelope : TransferEnvelope) :
    Except String (TransferPayload P) := do
  request.validate P
  ensure (envelope.formatVersion = fileFormatVersion)
    s!"unsupported transfer package version {envelope.formatVersion}"
  ensure (envelope.requestId = request.requestId) "transfer request mismatch"
  let ephemeral ← (P.publicKeyFromStr envelope.ephemeralPublicKey).context
    "invalid transfer package ephemeral key"
  let transportSecret ← (P.secretKeyFromSlice transportSecret).context "invalid saved transport key"
  let shared := P.sharedSecret ephemeral transportSecret
  let requestId ← request.id
  let key ← transferKey shared requestId
  let nonce ← (Hex.decode envelope.nonce).context "invalid transfer package nonce"
  ensure (nonce.length = 24) "invalid transfer package nonce length"
  ensure (envelope.ciphertext.utf8ByteSize ≤ maxTransferCiphertextSize * 2)
    "transfer package exceeds 8 MiB ciphertext limit"
  let ciphertext ← (Hex.decode envelope.ciphertext).context "invalid transfer package ciphertext"
  let aad ← request.aad P
  let plaintext ← (P.aeadDecrypt key nonce ciphertext aad).context
    "transfer package authentication failed"
  let payload ← (reader.fromSlice plaintext).context "invalid transfer package payload"
  payload.validate
  ensure (payload.requestId = requestId) "transfer request mismatch"
  return payload

end Tinylayer
