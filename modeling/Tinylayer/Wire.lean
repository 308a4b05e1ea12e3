import Tinylayer.Symbolic
import Tinylayer.Wallet.Proofs.AadProofs

/-!
# A platform with encodings of fixed length

A platform whose hash values, keys and transaction ids are written with as many bytes as the real
ones, and whose cipher is used once: it seals with the key, the nonce and the associated data of that
use, and nothing else opens what it sealed. Its functions can be evaluated like those of the symbolic
platform.
-/

namespace Tinylayer.Wire

open Symbolic (checksum length_checksum signature outPointText outPointOfText)

/-- The bytes as an array of `n` bytes. -/
def toArray (n : Nat) (bytes : List UInt8) : Option (List.Vector UInt8 n) :=
  if h : bytes.length = n then some ⟨bytes, h⟩ else none

@[simp] theorem toArray_toList {n : Nat} (v : List.Vector UInt8 n) : toArray n v.toList = some v := by
  rw [toArray, dif_pos v.toList_length]
  exact congrArg some (Subtype.ext rfl)

/-- A checksum of the bytes, as a hash value. -/
def hash (bytes : List UInt8) : Bytes32 := ⟨checksum 32 bytes, length_checksum 32 bytes⟩

/-- Transaction ids are numbers of 32 bytes. -/
abbrev Txid := Fin (256 ^ 32)

instance neZeroTxid : NeZero (256 ^ 32) := ⟨by decide⟩

def outPointToText (o : OutPoint Txid) : String := outPointText ⟨o.txid.val, o.vout⟩

def outPointFromText (text : String) : Option (OutPoint Txid) :=
  (outPointOfText text).bind fun o =>
    if h : o.txid < 256 ^ 32 then some ⟨⟨o.txid, h⟩, o.vout⟩ else none

/-- One use of the cipher: the key, the nonce and the associated data. -/
abbrev CipherUse := List UInt8 × List UInt8 × List UInt8

/-- The platform whose cipher is used as `use` says. -/
def platform (use : CipherUse) : Platform where
  Digest := Bytes32
  SecretKey := Bytes32
  XOnlyPublicKey := Bytes32
  PublicKey := List.Vector UInt8 33
  Signature := List.Vector UInt8 64
  Txid := Txid
  ControlBlock := List UInt8
  Address := Symbolic.Address
  SharedSecret := List UInt8
  CipherKey := List UInt8
  sha256 := hash
  digestBytes := List.Vector.toList
  digestOfBytes := toArray 32
  secretKeyFromSlice := some
  secretBytes := id
  secretToString := fun sk => Hex.encode sk.toList
  xOnlyPublicKey := id
  xOnlySerialize := List.Vector.toList
  xOnlyToString := fun key => Hex.encode key.toList
  xOnlyFromStr := fun text => (Hex.decode text).bind (toArray 32)
  publicKeyOf := fun sk => 2 ::ᵥ sk
  publicKeySerialize := List.Vector.toList
  publicKeyToString := fun key => Hex.encode key.toList
  publicKeyFromStr := fun text => (Hex.decode text).bind (toArray 33)
  signSchnorr := fun sk digest => signature sk.toList digest.toList
  verifySchnorr := fun sig digest key => decide (sig = signature key.toList digest.toList)
  signatureBytes := List.Vector.toList
  signatureFromSlice := toArray 64
  tapTweak := id
  sharedSecret := fun pk sk => pk.tail.toList.zipWith (· ^^^ ·) sk.toList
  txidOf := fun tx => Fin.ofNat (256 ^ 32) (1 + tx.lockTime)
  nullTxid := 0
  txidSerialize := fun txid => beBytes 32 txid.val
  outPointToString := outPointToText
  outPointFromStr := outPointFromText
  serializeHex := fun tx => Hex.encode (beBytes 4 tx.lockTime)
  weight := fun _ => 444
  vsize := fun _ => 111
  keySpendSighash := fun tx _ _ => some (hash (beBytes 4 tx.lockTime))
  scriptSpendSighash := fun tx _ _ leaf => some (hash (beBytes 4 tx.lockTime ++ leaf.toList))
  numsInternalKey := Bytes32.zero
  tapLeafHash := hash
  taprootOutputKey := fun key leaf => hash (key.toList ++ leaf)
  taprootControlBlock := fun key _ => 0xc0 :: key.toList
  controlBlockSerialize := id
  controlBlockDecode := some
  verifyTaprootCommitment := fun cb key leaf => decide (key = hash (cb.tail ++ leaf))
  newP2tr := fun key => 0x51 :: 2 :: key.toList
  newP2trTweaked := fun key => 0x51 :: 1 :: key.toList
  minimalNonDust := fun _ => 330
  addressFromStr := Symbolic.addressOfText
  addressOnNetwork := fun a network => decide (a.network = network)
  addressToString := fun a => Hex.encode (Symbolic.networkByte a.network :: a.script)
  addressScript := Symbolic.Address.script
  addressP2tr := fun key network => { network, script := 0x51 :: 2 :: key.toList }
  hkdfExpand := fun salt shared info => some (salt.toList ++ shared ++ info)
  aeadEncrypt := fun key nonce msg aad =>
    if (key, nonce, aad) = use then some (msg ++ List.replicate 16 0) else none
  aeadDecrypt := fun key nonce ct aad =>
    if (key, nonce, aad) = use then some (ct.take (ct.length - 16)) else none

/-! ## Its laws -/

variable (use : CipherUse)

theorem secretCodec : (platform use).SecretCodec := fun _ => rfl

theorem outPointFromText_text (o : OutPoint Txid) :
    outPointFromText (outPointToText o) = some o := by
  obtain ⟨⟨txid, htxid⟩, vout⟩ := o
  rw [outPointFromText, outPointToText, Symbolic.outPointOfText_text]
  exact dif_pos htxid

theorem readText {n : Nat} (v : List.Vector UInt8 n) :
    (Hex.decode (Hex.encode v.toList)).bind (toArray n) = some v := by
  rw [Hex.decode_encode, Option.bind_some, toArray_toList]

theorem textCodec : (platform use).TextCodec where
  digestOfBytes_bytes := toArray_toList
  xOnlyFromStr_toString := readText
  publicKeyFromStr_toString := readText
  outPointFromStr_toString := outPointFromText_text

theorem wireCodec : (platform use).WireCodec where
  digest_length := List.Vector.toList_length
  digest_inj := List.Vector.toList_injective
  xOnly_length := List.Vector.toList_length
  xOnly_inj := List.Vector.toList_injective
  publicKey_length := List.Vector.toList_length
  publicKey_inj := List.Vector.toList_injective
  txid_length _ := length_beBytes 32 _
  txid_inj a b h := Fin.ext (beBytes_inj a.isLt b.isLt h)

theorem ecdhSymmetric : (platform use).EcdhSymmetric := fun a b => by
  show a.toList.zipWith (· ^^^ ·) b.toList = b.toList.zipWith (· ^^^ ·) a.toList
  exact List.zipWith_comm_of_comm UInt8.xor_comm

theorem aeadEncrypt_eq_some {key nonce msg aad ct : List UInt8} :
    (platform use).aeadEncrypt key nonce msg aad = some ct ↔
      (key, nonce, aad) = use ∧ msg ++ List.replicate 16 0 = ct := by
  simp [platform]

theorem aeadDecrypt_eq_some {key nonce ct aad msg : List UInt8} :
    (platform use).aeadDecrypt key nonce ct aad = some msg ↔
      (key, nonce, aad) = use ∧ ct.take (ct.length - 16) = msg := by
  simp [platform]

theorem aeadCorrect : (platform use).AeadCorrect where
  decrypt_encrypt key nonce msg aad ct h := by
    obtain ⟨huse, rfl⟩ := (aeadEncrypt_eq_some use).1 h
    exact (aeadDecrypt_eq_some use).2 ⟨huse, by simp⟩
  length_encrypt key nonce msg aad ct h := by
    obtain ⟨-, rfl⟩ := (aeadEncrypt_eq_some use).1 h
    simp

theorem aeadBinding (ct : List UInt8) : (platform use).AeadBinding ct := by
  intro key nonce msg aad key' nonce' aad' msg' h h'
  obtain ⟨huse, -⟩ := (aeadEncrypt_eq_some use).1 h
  obtain ⟨huse', -⟩ := (aeadDecrypt_eq_some use).1 h'
  have heq := huse'.trans huse.symm
  obtain ⟨hkey, hrest⟩ := Prod.mk.inj heq
  exact ⟨hkey, Prod.mk.inj hrest⟩

/-- Reads back what was written. -/
noncomputable def writtenReader : PayloadReader (platform use) :=
  ⟨Function.partialInv TransferPayload.toVec⟩

theorem writtenReader_roundTrip : (writtenReader use).RoundTrip := by
  have hhex : PlainText (fun v : Bytes32 => Hex.encode v.toList) :=
    ⟨Hex.encode_injective.comp List.Vector.toList_injective, fun _ => plainText_hex.no_quote _⟩
  have houtpoint : PlainText outPointToText :=
    ⟨fun a b h => Option.some.inj (by rw [← outPointFromText_text, h, outPointFromText_text]),
      fun _ => plainText_hex.no_quote _⟩
  exact fun payload _ => Function.partialInv_left
    (TransferPayload.toVec_injective houtpoint hhex hhex) payload

end Tinylayer.Wire
