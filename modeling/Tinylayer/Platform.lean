import Mathlib.Data.Vector.Basic
import Mathlib.Order.Defs.LinearOrder

/-!
# The libraries the program is built on

Bitcoin's transaction types, and the third-party functions the signer, the client and the wallet
call: hashing, secp256k1, the Taproot and address functions of rust-bitcoin, the transfer cipher
and the text encodings. Every function is a field of `Platform`; what the code relies on about them
is stated below, one property at a time, and assumed only where it is used.

Hash values have a type of their own, `Platform.Digest`, apart from the 32 byte arrays that are
drawn at random. In the program both are `[u8; 32]`.
-/

/-- `[u8; 32]`. -/
abbrev Bytes32 := List.Vector UInt8 32

/-- `[0; 32]`. -/
def Bytes32.zero : Bytes32 := List.Vector.replicate 32 0

/-- `[u8::MAX; 32]`. -/
def Bytes32.max : Bytes32 := List.Vector.replicate 32 255

/-- The byte string of a script (`ScriptBuf`). -/
abbrev Script := List UInt8

/-- A transaction output reference; `vout` is a `u32`. -/
@[ext]
structure OutPoint (Txid : Type) where
  txid : Txid
  vout : Nat
deriving DecidableEq

/-- A transaction input; the witness is the list of its items. -/
structure TxIn (Txid : Type) where
  previousOutput : OutPoint Txid
  scriptSig : Script
  sequence : Nat
  witness : List (List UInt8)
deriving DecidableEq

/-- A transaction output; `value` is an `Amount` in satoshi. -/
structure TxOut where
  value : Nat
  scriptPubkey : Script
deriving DecidableEq

/-- A Bitcoin transaction. -/
structure Transaction (Txid : Type) where
  version : Int
  lockTime : Nat
  input : List (TxIn Txid)
  output : List TxOut
deriving DecidableEq

/-- The transaction without its witnesses. -/
def Transaction.stripWitness {Txid : Type} (tx : Transaction Txid) : Transaction Txid :=
  { tx with input := tx.input.map fun i => { i with witness := [] } }

/-- The transaction with the same witness for each of its inputs. -/
def Transaction.withWitness {Txid : Type} (tx : Transaction Txid) (witness : List (List UInt8)) :
    Transaction Txid :=
  { tx with input := tx.input.map fun i => { i with witness } }

/-- The lengths of the scripts and the witness items of a transaction. -/
def Transaction.lengths {Txid : Type} (tx : Transaction Txid) :
    List (Nat × List Nat) × List Nat :=
  (tx.input.map fun i => (i.scriptSig.length, i.witness.map List.length),
    tx.output.map fun o => o.scriptPubkey.length)

/-- `Transaction.version` 2. -/
def versionTwo : Int := 2

/-- `Sequence::MAX`. -/
def sequenceMax : Nat := 0xffffffff

/-- `Sequence::is_rbf`. -/
def isRbf (sequence : Nat) : Bool := decide (sequence < 0xfffffffe)

/-- `Amount::MAX_MONEY` in satoshi. -/
def maxMoney : Nat := 2100000000000000

/-- The networks the wallet knows. -/
inductive NetworkId
  | mutinynet
  | mainnet
  | regtest
deriving DecidableEq

/-- The types and functions of the third-party libraries. -/
structure Platform where
  /-- Values of SHA-256, transaction digests included. -/
  Digest : Type
  SecretKey : Type
  XOnlyPublicKey : Type
  PublicKey : Type
  Signature : Type
  Txid : Type
  ControlBlock : Type
  Address : Type
  SharedSecret : Type
  CipherKey : Type
  [decDigest : DecidableEq Digest]
  [decSecretKey : DecidableEq SecretKey]
  [decXOnlyPublicKey : DecidableEq XOnlyPublicKey]
  [decPublicKey : DecidableEq PublicKey]
  [decSignature : DecidableEq Signature]
  [ordTxid : LinearOrder Txid]
  [decControlBlock : DecidableEq ControlBlock]
  -- hashing and text
  sha256 : List UInt8 → Digest
  digestBytes : Digest → List UInt8
  digestOfBytes : List UInt8 → Option Digest
  -- secp256k1
  secretKeyFromSlice : Bytes32 → Option SecretKey
  secretBytes : SecretKey → Bytes32
  secretToString : SecretKey → String
  xOnlyPublicKey : SecretKey → XOnlyPublicKey
  xOnlySerialize : XOnlyPublicKey → List UInt8
  xOnlyToString : XOnlyPublicKey → String
  xOnlyFromStr : String → Option XOnlyPublicKey
  publicKeyOf : SecretKey → PublicKey
  publicKeySerialize : PublicKey → List UInt8
  publicKeyToString : PublicKey → String
  publicKeyFromStr : String → Option PublicKey
  signSchnorr : SecretKey → Digest → Signature
  verifySchnorr : Signature → Digest → XOnlyPublicKey → Bool
  signatureBytes : Signature → List UInt8
  signatureFromSlice : List UInt8 → Option Signature
  tapTweak : SecretKey → SecretKey
  sharedSecret : PublicKey → SecretKey → SharedSecret
  -- transactions
  txidOf : Transaction Txid → Txid
  nullTxid : Txid
  txidSerialize : Txid → List UInt8
  outPointToString : OutPoint Txid → String
  outPointFromStr : String → Option (OutPoint Txid)
  serializeHex : Transaction Txid → String
  weight : Transaction Txid → Nat
  vsize : Transaction Txid → Nat
  keySpendSighash : Transaction Txid → Nat → List TxOut → Option Digest
  scriptSpendSighash : Transaction Txid → Nat → List TxOut → Digest → Option Digest
  -- scripts and addresses
  numsInternalKey : XOnlyPublicKey
  tapLeafHash : Script → Digest
  taprootOutputKey : XOnlyPublicKey → Script → XOnlyPublicKey
  taprootControlBlock : XOnlyPublicKey → Script → ControlBlock
  controlBlockSerialize : ControlBlock → List UInt8
  controlBlockDecode : List UInt8 → Option ControlBlock
  verifyTaprootCommitment : ControlBlock → XOnlyPublicKey → Script → Bool
  newP2tr : XOnlyPublicKey → Script
  newP2trTweaked : XOnlyPublicKey → Script
  minimalNonDust : Script → Nat
  addressFromStr : String → Option Address
  addressOnNetwork : Address → NetworkId → Bool
  addressToString : Address → String
  addressScript : Address → Script
  addressP2tr : XOnlyPublicKey → NetworkId → Address
  -- transfer cipher
  hkdfExpand : Bytes32 → SharedSecret → List UInt8 → Option CipherKey
  aeadEncrypt : CipherKey → List UInt8 → List UInt8 → List UInt8 → Option (List UInt8)
  aeadDecrypt : CipherKey → List UInt8 → List UInt8 → List UInt8 → Option (List UInt8)

namespace Platform

attribute [instance] decDigest decSecretKey decXOnlyPublicKey decPublicKey decSignature ordTxid
  decControlBlock

variable (P : Platform)

/-- A transaction over the platform's transaction ids. -/
abbrev Tx := Transaction P.Txid

/-- `Transaction::compute_txid`: the id does not commit to witnesses. -/
def computeTxid (tx : P.Tx) : P.Txid := P.txidOf tx.stripWitness

/-- `OutPoint::is_null`. -/
def isNull (o : OutPoint P.Txid) : Bool := decide (o = ⟨P.nullTxid, 0xffffffff⟩)

/-! ## What the code relies on -/

/-- SHA-256 has no collisions, and a hash value is determined by its bytes. -/
structure CollisionFree : Prop where
  sha256_inj : Function.Injective P.sha256
  digestBytes_inj : Function.Injective P.digestBytes

/-- A saved secret key is read back. -/
def SecretCodec : Prop := ∀ sk, P.secretKeyFromSlice (P.secretBytes sk) = some sk

/-- A Schnorr signature verifies under the key that made it. -/
def SchnorrCorrect : Prop :=
  ∀ sk digest, P.verifySchnorr (P.signSchnorr sk digest) digest (P.xOnlyPublicKey sk) = true

/-- A signature is 64 bytes long and is read back from them. -/
structure SignatureCodec : Prop where
  length_eq : ∀ sig, (P.signatureBytes sig).length = 64
  fromSlice_bytes : ∀ sig, P.signatureFromSlice (P.signatureBytes sig) = some sig

/-- The control block derived for a leaf is read back and commits to the leaf. -/
structure TaprootLaws : Prop where
  decode_serialize : ∀ cb, P.controlBlockDecode (P.controlBlockSerialize cb) = some cb
  commitment : ∀ key leaf,
    P.verifyTaprootCommitment (P.taprootControlBlock key leaf) (P.taprootOutputKey key leaf) leaf
      = true

/-- Text encodings are read back. -/
structure TextCodec : Prop where
  digestOfBytes_bytes : ∀ digest, P.digestOfBytes (P.digestBytes digest) = some digest
  xOnlyFromStr_toString : ∀ key, P.xOnlyFromStr (P.xOnlyToString key) = some key
  publicKeyFromStr_toString : ∀ key, P.publicKeyFromStr (P.publicKeyToString key) = some key
  outPointFromStr_toString : ∀ o, P.outPointFromStr (P.outPointToString o) = some o

/-- Hash values, keys and transaction ids have encodings of a fixed length. -/
structure WireCodec : Prop where
  digest_length : ∀ digest, (P.digestBytes digest).length = 32
  digest_inj : Function.Injective P.digestBytes
  xOnly_length : ∀ key, (P.xOnlySerialize key).length = 32
  xOnly_inj : Function.Injective P.xOnlySerialize
  publicKey_length : ∀ key, (P.publicKeySerialize key).length = 33
  publicKey_inj : Function.Injective P.publicKeySerialize
  txid_length : ∀ txid, (P.txidSerialize txid).length = 32
  txid_inj : Function.Injective P.txidSerialize

/-- Both ends of a key exchange compute the same shared secret. -/
def EcdhSymmetric : Prop :=
  ∀ a b, P.sharedSecret (P.publicKeyOf a) b = P.sharedSecret (P.publicKeyOf b) a

/-- The cipher opens what it sealed, and the sealed text is the 16 byte tag longer. -/
structure AeadCorrect : Prop where
  decrypt_encrypt : ∀ key nonce msg aad ct,
    P.aeadEncrypt key nonce msg aad = some ct → P.aeadDecrypt key nonce ct aad = some msg
  length_encrypt : ∀ key nonce msg aad ct,
    P.aeadEncrypt key nonce msg aad = some ct → ct.length = msg.length + 16

/-- The ciphertext opens only with the key, the nonce and the associated data it was sealed with. -/
def AeadBinding (ct : List UInt8) : Prop :=
  ∀ key nonce msg aad key' nonce' aad' msg', P.aeadEncrypt key nonce msg aad = some ct →
    P.aeadDecrypt key' nonce' ct aad' = some msg' → key' = key ∧ nonce' = nonce ∧ aad' = aad

/-- Deriving a key and sealing a short text do not fail. -/
structure CipherTotal : Prop where
  hkdfExpand_isSome : ∀ salt shared info, (P.hkdfExpand salt shared info).isSome
  aeadEncrypt_isSome : ∀ key nonce msg aad, nonce.length = 24 → msg.length < 2 ^ 32 →
    (P.aeadEncrypt key nonce msg aad).isSome

/-- The text of an address is read back as an address for the same script and networks. -/
structure AddressCodec : Prop where
  fromStr_toString : ∀ a, P.addressFromStr (P.addressToString a) = some a

/-- Signature hashes exist for every input whose spent outputs are given. -/
structure SighashDefined : Prop where
  keySpend : ∀ tx index prevouts, index < tx.input.length → prevouts.length = tx.input.length →
    (P.keySpendSighash tx index prevouts).isSome
  scriptSpend : ∀ tx index prevouts leaf, index < tx.input.length →
    prevouts.length = tx.input.length → (P.scriptSpendSighash tx index prevouts leaf).isSome

/-- A transaction id commits to everything but the witnesses. -/
def TxidCollisionFree : Prop :=
  ∀ tx tx' : P.Tx, P.computeTxid tx = P.computeTxid tx' → tx.stripWitness = tx'.stripWitness

/-- A P2TR script determines the key that it pays. -/
def P2trInjective : Prop := Function.Injective P.newP2tr

/-- The tweaked secret key belongs to the output key of the P2TR script without leaves. -/
def KeyPathSpend : Prop :=
  ∀ sk, P.newP2tr (P.xOnlyPublicKey sk) = P.newP2trTweaked (P.xOnlyPublicKey (P.tapTweak sk))

/-- The address of a key pays its P2TR script. -/
def AddressP2tr : Prop :=
  ∀ key network, P.addressScript (P.addressP2tr key network) = P.newP2tr key

/-- The size of a transaction depends on the lengths of its parts, and is less than what can be
allocated. -/
structure SizeLaws : Prop where
  of_lengths : ∀ tx tx' : P.Tx, tx.lengths = tx'.lengths → P.vsize tx = P.vsize tx'
  bounded : ∀ tx, P.vsize tx < 2 ^ 63

/-- The virtual size is a quarter of the weight, rounded up. -/
def VirtualSize : Prop := ∀ tx, P.weight tx ≤ 4 * P.vsize tx

/-- A compressed public key is written with 66 digits. -/
def PublicKeyWidth : Prop :=
  ∀ sk, (P.publicKeyToString (P.publicKeyOf sk)).utf8ByteSize ≤ 66

end Platform
