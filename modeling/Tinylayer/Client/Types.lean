import Tinylayer.Enclave.Signer

/-!
# Client data and funding scripts

The records of `client/src/lib.rs` that the client and the wallet exchange and save, the errors of
the client's checks, and the two-party Taproot output that holds a coin.
-/

namespace Tinylayer

variable (P : Platform)

def delayStep : Nat := 10

/-- `TRUC_VERSION`: recovery parents carry no fee and are paid for by a child. -/
def trucVersion : Int := 3

/-- The failures of the client's checks. -/
inductive Client.Error
  | protocolVersionMismatch
  | responseMismatch
  | metadataMismatch
  | wrongClientKey
  | equalSigningKeys
  | invalidEnclaveSignature
  | invalidClientSignature
  | fundingMismatch
  | unsafeDelay
  | transactionMismatch
  | invalidWitness
  | historyMismatch
  | invalidOutpoint
  | amountTooLarge
  | dustOutput
  | invalidDelay
  | sighash
  | withdrawalKeyMismatch
deriving DecidableEq

def Client.Error.message : Client.Error → String
  | protocolVersionMismatch => "client state protocol version does not match"
  | responseMismatch => "enclave response does not match the request"
  | metadataMismatch => "coin metadata is inconsistent"
  | wrongClientKey => "client secret key does not match coin metadata"
  | equalSigningKeys => "client and enclave signing keys must be distinct"
  | invalidEnclaveSignature => "enclave Schnorr signature is invalid"
  | invalidClientSignature => "client Schnorr signature is invalid"
  | fundingMismatch => "funding UTXO does not match coin metadata"
  | unsafeDelay => "recovery delay does not leave a safe reaction window"
  | transactionMismatch => "recovery transaction is not canonical"
  | invalidWitness => "signed recovery has a non-canonical witness"
  | historyMismatch =>
    "recovery history does not match the enclave signature count or authorization"
  | invalidOutpoint => "funding outpoint cannot be null"
  | amountTooLarge => "funding amount exceeds Bitcoin MAX_MONEY"
  | dustOutput => "recovery output would be dust"
  | invalidDelay => "recovery delay is not a valid BIP68 block delay"
  | sighash => "failed to compute Taproot sighash"
  | withdrawalKeyMismatch => "withdrawal key does not match the recovery output"

structure Registration where
  protocolVersion : Nat
  request : RegisterRequest P
  clientPubkey : P.XOnlyPublicKey
deriving DecidableEq

structure CoinKeys where
  protocolVersion : Nat
  coinId : CoinId
  clientPubkey : P.XOnlyPublicKey
  enclavePubkey : P.XOnlyPublicKey
deriving DecidableEq

structure CoinMetadata where
  keys : CoinKeys P
  network : NetworkId
  outpoint : OutPoint P.Txid
  amountSat : Nat
deriving DecidableEq

structure SignedRecovery where
  transaction : P.Tx
  withdrawalXonlyPubkey : P.XOnlyPublicKey
  delayBlocks : Nat
deriving DecidableEq

/-- A recovery that was put together for signing, with the request that asks for the signature. -/
structure PreparedRecovery where
  request : SignRequest P
  metadata : CoinMetadata P
  transaction : P.Tx
  withdrawalXonlyPubkey : P.XOnlyPublicKey
  delayBlocks : Nat
deriving DecidableEq

variable {P}

/-- `CoinKeys::metadata`. -/
def CoinKeys.metadata (self : CoinKeys P) (network : NetworkId) (outpoint : OutPoint P.Txid)
    (amountSat : Nat) : CoinMetadata P :=
  { keys := self, network, outpoint, amountSat }

/-- `CoinKeys::validate`. -/
def CoinKeys.validate (self : CoinKeys P) : Except Client.Error Unit := do
  ensure (self.protocolVersion = Tinylayer.protocolVersion) .protocolVersionMismatch
  ensure (self.clientPubkey ≠ self.enclavePubkey) .metadataMismatch

/-- `CoinMetadata::validate`. -/
def CoinMetadata.validate (self : CoinMetadata P) : Except Client.Error Unit := self.keys.validate

/-- The keys of a coin are well formed. -/
structure CoinKeys.Valid (self : CoinKeys P) : Prop where
  version : self.protocolVersion = Tinylayer.protocolVersion
  distinct : self.clientPubkey ≠ self.enclavePubkey

@[simp] theorem CoinKeys.validate_eq_ok {keys : CoinKeys P} {u : Unit} :
    keys.validate = .ok u ↔ keys.Valid := by
  simp only [CoinKeys.validate, Except.bind_eq_ok, Except.ensure_eq_ok, exists_unit]
  constructor
  · rintro ⟨hversion, hdistinct⟩
    exact ⟨hversion, hdistinct⟩
  · rintro ⟨hversion, hdistinct⟩
    exact ⟨hversion, hdistinct⟩

@[simp] theorem CoinMetadata.validate_eq_ok {metadata : CoinMetadata P} {u : Unit} :
    metadata.validate = .ok u ↔ metadata.keys.Valid :=
  CoinKeys.validate_eq_ok

/-! ## The funding output -/

def opCheckSig : UInt8 := 0xac
def opCheckSigVerify : UInt8 := 0xad

/-- The script that pushes an x-only key. -/
def pushXOnlyKey (key : P.XOnlyPublicKey) : Script := 0x20 :: P.xOnlySerialize key

/-- `funding_tapscript`: both keys have to sign. -/
def fundingTapscript (keys : CoinKeys P) : Script :=
  pushXOnlyKey keys.clientPubkey ++ [opCheckSigVerify] ++
    (pushXOnlyKey keys.enclavePubkey ++ [opCheckSig])

/-- The output key of `funding_material`: the one leaf under the NUMS internal key. -/
def fundingOutputKey (keys : CoinKeys P) : P.XOnlyPublicKey :=
  P.taprootOutputKey P.numsInternalKey (fundingTapscript keys)

/-- `funding_script`. -/
def fundingScript (keys : CoinKeys P) : Script := P.newP2trTweaked (fundingOutputKey keys)

/-- `funding_control_block`. -/
def fundingControlBlock (keys : CoinKeys P) : P.ControlBlock :=
  P.taprootControlBlock P.numsInternalKey (fundingTapscript keys)

/-- `recovery_sighash`: the digest that both signatures of a recovery commit to. It does not cover
witnesses. -/
def recoverySighash (transaction : P.Tx) (amountSat : Nat) (keys : CoinKeys P) :
    Except Client.Error P.Digest :=
  let prevout : TxOut := { value := amountSat, scriptPubkey := fundingScript keys }
  let leafHash := P.tapLeafHash (fundingTapscript keys)
  (P.scriptSpendSighash transaction.stripWitness 0 [prevout] leafHash).context .sighash

end Tinylayer
