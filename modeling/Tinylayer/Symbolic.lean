import Mathlib.Algebra.BigOperators.Group.List.Basic
import Mathlib.Algebra.Order.Ring.Nat
import Mathlib.Order.Basic
import Tinylayer.Lib.Hex
import Tinylayer.Lib.PrefixCode
import Tinylayer.Platform

/-!
# A symbolic platform

A platform all of whose functions can be evaluated: hash values are the hashed data themselves, a
public key is its secret key, and a signature is a checksum of key and digest. It satisfies every
property that is assumed of the real libraries, so that these properties are consistent.
-/

namespace Tinylayer.Symbolic

/-! ## Encoding of transactions -/

def outPointWord (o : OutPoint Nat) : List UInt8 := PrefixCode.nat o.txid ++ PrefixCode.nat o.vout

/-- A list as its length and its elements. -/
def listWord {α : Type} (word : α → List UInt8) (l : List α) : List UInt8 :=
  PrefixCode.nat l.length ++ l.flatMap word

def bytesWord (bytes : List UInt8) : List UInt8 := listWord (fun b => [b]) bytes

def txInWord (i : TxIn Nat) : List UInt8 :=
  outPointWord i.previousOutput ++ (bytesWord i.scriptSig ++
    (PrefixCode.nat i.sequence ++ listWord bytesWord i.witness))

def txOutWord (o : TxOut) : List UInt8 := PrefixCode.nat o.value ++ bytesWord o.scriptPubkey

def intWord (i : Int) : List UInt8 := PrefixCode.nat i.toNat ++ PrefixCode.nat (-i).toNat

def transactionWord (tx : Transaction Nat) : List UInt8 :=
  intWord tx.version ++ (PrefixCode.nat tx.lockTime ++
    (listWord txInWord tx.input ++ listWord txOutWord tx.output))

section Codes

variable {α β : Type}

theorem pairCode {word : α → List UInt8} {word' : β → List UInt8}
    (h : PrefixCode (fun _ => True) word) (h' : PrefixCode (fun _ => True) word') :
    PrefixCode (fun _ => True) fun p : α × β => word p.1 ++ word' p.2 :=
  h.pair h' fun _ _ _ => trivial

theorem listWord_prefixCode {word : α → List UInt8} (h : PrefixCode (fun _ => True) word) :
    PrefixCode (fun _ => True) (listWord word) :=
  PrefixCode.nat_prefixCode.list h

theorem bytesWord_prefixCode : PrefixCode (fun _ => True) bytesWord :=
  listWord_prefixCode PrefixCode.symbol

theorem outPointWord_prefixCode : PrefixCode (fun _ => True) outPointWord :=
  (pairCode PrefixCode.nat_prefixCode PrefixCode.nat_prefixCode).comap
    (f := fun o : OutPoint Nat => (o.txid, o.vout)) fun ⟨_, _⟩ ⟨_, _⟩ h => by
      cases h; rfl

theorem txInWord_prefixCode : PrefixCode (fun _ => True) txInWord :=
  (pairCode outPointWord_prefixCode (pairCode bytesWord_prefixCode
    (pairCode PrefixCode.nat_prefixCode (listWord_prefixCode bytesWord_prefixCode)))).comap
    (f := fun i : TxIn Nat => (i.previousOutput, i.scriptSig, i.sequence, i.witness))
    fun ⟨_, _, _, _⟩ ⟨_, _, _, _⟩ h => by cases h; rfl

theorem txOutWord_prefixCode : PrefixCode (fun _ => True) txOutWord :=
  (pairCode PrefixCode.nat_prefixCode bytesWord_prefixCode).comap
    (f := fun o : TxOut => (o.value, o.scriptPubkey)) fun ⟨_, _⟩ ⟨_, _⟩ h => by
      cases h; rfl

theorem intWord_prefixCode : PrefixCode (fun _ => True) intWord :=
  (pairCode PrefixCode.nat_prefixCode PrefixCode.nat_prefixCode).comap
    (f := fun i : Int => (i.toNat, (-i).toNat)) fun i j h => by
      simp only [Prod.mk.injEq] at h
      omega

theorem transactionWord_prefixCode : PrefixCode (fun _ => True) transactionWord :=
  (pairCode intWord_prefixCode (pairCode PrefixCode.nat_prefixCode
    (pairCode (listWord_prefixCode txInWord_prefixCode)
      (listWord_prefixCode txOutWord_prefixCode)))).comap
    (f := fun tx : Transaction Nat => (tx.version, tx.lockTime, tx.input, tx.output))
    fun ⟨_, _, _, _⟩ ⟨_, _, _, _⟩ h => by cases h; rfl

theorem transactionWord_injective : Function.Injective transactionWord :=
  transactionWord_prefixCode.injective trivial

end Codes

/-! ## The platform -/

/-- A checksum of `bytes` that is `n` bytes long. -/
def checksum (n : Nat) (bytes : List UInt8) : List UInt8 :=
  let sum := bytes.foldl (fun s b => (s * 257 + b.toNat + 1) % 2 ^ 251) bytes.length
  (List.range n).map fun i => UInt8.ofNat (sum / 256 ^ i)

theorem length_checksum (n : Nat) (bytes : List UInt8) : (checksum n bytes).length = n := by
  simp [checksum]

/-- The signature of `digest` by the owner of the public key `key`. -/
def signature (key digest : List UInt8) : List.Vector UInt8 64 :=
  ⟨checksum 32 key ++ checksum 32 digest, by simp [length_checksum]⟩

def toSignature (bytes : List UInt8) : Option (List.Vector UInt8 64) :=
  if h : bytes.length = 64 then some ⟨bytes, h⟩ else none

/-- Output references as text: both numbers in unary. -/
def outPointText (o : OutPoint Nat) : String :=
  Hex.encode (List.replicate o.txid 1 ++ 0 :: List.replicate o.vout 1)

def outPointOfText (text : String) : Option (OutPoint Nat) :=
  (Hex.decode text).map fun bytes =>
    let txid := (bytes.takeWhile (· = 1)).length
    { txid, vout := bytes.length - txid - 1 }

theorem outPointOfText_text (o : OutPoint Nat) : outPointOfText (outPointText o) = some o := by
  obtain ⟨txid, vout⟩ := o
  have h : ∀ l, ((List.replicate txid (1 : UInt8) ++ 0 :: l).takeWhile (· = 1)).length = txid := by
    intro l
    induction txid with
    | zero => simp
    | succ n ih => simp [List.replicate_succ]
  simp only [outPointOfText, outPointText, Hex.decode_encode, Option.map_some, h]
  congr 2
  simp

/-- Addresses: a network and an output script. -/
structure Address where
  network : NetworkId
  script : Script
deriving DecidableEq

def networkByte : NetworkId → UInt8
  | .mutinynet => 1
  | .mainnet => 2
  | .regtest => 3

def networkOfByte (b : UInt8) : Option NetworkId :=
  if b = 1 then some .mutinynet else if b = 2 then some .mainnet
  else if b = 3 then some .regtest else none

def addressOfText (text : String) : Option Address :=
  match Hex.decode text with
  | some (b :: script) => (networkOfByte b).map fun network => { network, script }
  | _ => none

/-- The symbolic platform. -/
def platform : Platform where
  Digest := List UInt8
  SecretKey := Bytes32
  XOnlyPublicKey := List UInt8
  PublicKey := List UInt8
  Signature := List.Vector UInt8 64
  Txid := Nat
  ControlBlock := List UInt8
  Address := Address
  SharedSecret := List UInt8
  CipherKey := List UInt8
  sha256 := id
  digestBytes := id
  digestOfBytes := some
  secretKeyFromSlice := some
  secretBytes := id
  secretToString := fun sk => Hex.encode sk.toList
  xOnlyPublicKey := List.Vector.toList
  xOnlySerialize := id
  xOnlyToString := Hex.encode
  xOnlyFromStr := Hex.decode
  publicKeyOf := List.Vector.toList
  publicKeySerialize := id
  publicKeyToString := Hex.encode
  publicKeyFromStr := Hex.decode
  signSchnorr := fun sk digest => signature sk.toList digest
  verifySchnorr := fun sig digest key => decide (sig = signature key digest)
  signatureBytes := List.Vector.toList
  signatureFromSlice := toSignature
  tapTweak := id
  sharedSecret := fun pk sk => pk.zipWith (· ^^^ ·) sk.toList
  txidOf := fun tx => 1 + tx.version.toNat + (tx.input.map fun i => i.sequence % 16).sum
  nullTxid := 0
  txidSerialize := PrefixCode.nat
  outPointToString := outPointText
  outPointFromStr := outPointOfText
  serializeHex := fun tx => Hex.encode (transactionWord tx)
  weight := fun _ => 444
  vsize := fun _ => 111
  keySpendSighash := fun tx index prevouts =>
    some (transactionWord tx ++ (PrefixCode.nat index ++ listWord txOutWord prevouts))
  scriptSpendSighash := fun tx index prevouts leaf =>
    some (transactionWord tx ++ (PrefixCode.nat index ++ (listWord txOutWord prevouts ++ leaf)))
  numsInternalKey := [0]
  tapLeafHash := id
  taprootOutputKey := fun key leaf => 1 :: (key ++ leaf)
  taprootControlBlock := fun key leaf => key ++ leaf
  controlBlockSerialize := id
  controlBlockDecode := some
  verifyTaprootCommitment := fun cb key _ => decide (key = 1 :: cb)
  newP2tr := fun key => 0x51 :: 2 :: key
  newP2trTweaked := fun key => 0x51 :: 1 :: key
  minimalNonDust := fun _ => 330
  addressFromStr := addressOfText
  addressOnNetwork := fun a network => decide (a.network = network)
  addressToString := fun a => Hex.encode (networkByte a.network :: a.script)
  addressScript := Address.script
  addressP2tr := fun key network => { network, script := 0x51 :: 2 :: key }
  hkdfExpand := fun salt shared info => some (salt.toList ++ shared ++ info)
  aeadEncrypt := fun _ _ msg _ => some (msg ++ List.replicate 16 0)
  aeadDecrypt := fun _ _ ct _ => some (ct.take (ct.length - 16))

/-! ## Its laws -/

theorem collisionFree : platform.CollisionFree where
  sha256_inj := Function.injective_id
  digestBytes_inj := Function.injective_id

theorem secretCodec : platform.SecretCodec := fun _ => rfl

theorem schnorrCorrect : platform.SchnorrCorrect := fun sk digest => by
  show decide (signature sk.toList digest = signature sk.toList digest) = true
  simp

theorem signatureCodec : platform.SignatureCodec where
  length_eq sig := sig.toList_length
  fromSlice_bytes sig := by
    show toSignature sig.toList = some sig
    rw [toSignature, dif_pos sig.toList_length]
    exact congrArg some (Subtype.ext rfl)

theorem taprootLaws : platform.TaprootLaws where
  decode_serialize _ := rfl
  commitment (key leaf : List UInt8) := by
    show decide (1 :: (key ++ leaf) = 1 :: (key ++ leaf)) = true
    simp

theorem textCodec : platform.TextCodec where
  digestOfBytes_bytes _ := rfl
  xOnlyFromStr_toString := Hex.decode_encode
  publicKeyFromStr_toString := Hex.decode_encode
  outPointFromStr_toString := outPointOfText_text

theorem ecdhSymmetric : platform.EcdhSymmetric := fun a b => by
  show a.toList.zipWith (· ^^^ ·) b.toList = b.toList.zipWith (· ^^^ ·) a.toList
  exact List.zipWith_comm_of_comm UInt8.xor_comm

theorem aeadCorrect : platform.AeadCorrect where
  decrypt_encrypt _ _ msg _ ct h := by
    obtain rfl : msg ++ List.replicate 16 0 = ct := Option.some.inj h
    show some _ = some _
    simp
  length_encrypt _ _ msg _ ct h := by
    obtain rfl : msg ++ List.replicate 16 0 = ct := Option.some.inj h
    simp

theorem cipherTotal : platform.CipherTotal where
  hkdfExpand_isSome _ _ _ := rfl
  aeadEncrypt_isSome _ _ _ _ _ _ := rfl

theorem addressCodec : platform.AddressCodec where
  fromStr_toString a := by
    obtain ⟨network, script⟩ := a
    show addressOfText (Hex.encode (networkByte network :: script)) = some _
    cases network <;> simp [addressOfText, networkByte, networkOfByte]

theorem sighashDefined : platform.SighashDefined where
  keySpend _ _ _ _ _ := rfl
  scriptSpend _ _ _ _ _ _ := rfl

theorem publicKeyWidth : platform.PublicKeyWidth := fun (sk : Bytes32) => by
  show (Hex.encode sk.toList).utf8ByteSize ≤ 66
  rw [Hex.utf8ByteSize_encode, sk.toList_length]
  decide

/-! ## Transaction ids without collisions -/

/-- A byte string as a number. -/
def bytesNumber : List UInt8 → Nat
  | [] => 0
  | b :: bytes => b.toNat + 1 + 257 * bytesNumber bytes

theorem bytesNumber_injective : Function.Injective bytesNumber := by
  intro a
  induction a with
  | nil =>
    intro b h
    cases b with
    | nil => rfl
    | cons c b =>
      simp only [bytesNumber] at h
      omega
  | cons c a ih =>
    intro b h
    cases b with
    | nil =>
      simp only [bytesNumber] at h
      omega
    | cons d b =>
      simp only [bytesNumber] at h
      have hc := c.toNat_lt
      have hd := d.toNat_lt
      have hcd : c.toNat = d.toNat := by omega
      have hab : bytesNumber a = bytesNumber b := by omega
      rw [UInt8.toNat_inj.1 hcd, ih hab]

/-- The symbolic platform with a transaction id that is the whole transaction, and with one script
for both ways to pay a key. -/
def exactPlatform : Platform :=
  { platform with
    txidOf := fun tx => bytesNumber (transactionWord tx) + 1
    newP2tr := platform.newP2trTweaked
    addressP2tr := fun key network => { network, script := platform.newP2trTweaked key } }

theorem txidCollisionFree : exactPlatform.TxidCollisionFree := fun _ _ h =>
  transactionWord_injective (bytesNumber_injective (Nat.succ.inj h))

theorem p2trInjective : exactPlatform.P2trInjective := fun (key key' : List UInt8) h => by
  have hcons : (0x51 :: 1 :: key : List UInt8) = 0x51 :: 1 :: key' := h
  exact (List.cons.inj (List.cons.inj hcons).2).2

theorem keyPathSpend : exactPlatform.KeyPathSpend := fun _ => rfl

theorem addressP2tr : exactPlatform.AddressP2tr := fun _ _ => rfl

theorem exactCollisionFree : exactPlatform.CollisionFree :=
  ⟨collisionFree.sha256_inj, collisionFree.digestBytes_inj⟩

theorem exactSecretCodec : exactPlatform.SecretCodec := secretCodec

theorem exactSchnorrCorrect : exactPlatform.SchnorrCorrect := schnorrCorrect

theorem exactAddressCodec : exactPlatform.AddressCodec := ⟨addressCodec.fromStr_toString⟩

theorem exactSignatureCodec : exactPlatform.SignatureCodec :=
  ⟨signatureCodec.length_eq, signatureCodec.fromSlice_bytes⟩

theorem exactTaprootLaws : exactPlatform.TaprootLaws :=
  ⟨taprootLaws.decode_serialize, taprootLaws.commitment⟩

theorem sizeLaws : platform.SizeLaws where
  of_lengths _ _ _ := rfl
  bounded _ := show 111 < 2 ^ 63 by decide

theorem exactSizeLaws : exactPlatform.SizeLaws := ⟨sizeLaws.of_lengths, sizeLaws.bounded⟩

theorem exactVirtualSize : exactPlatform.VirtualSize := fun _ => show 444 ≤ 4 * 111 by decide

theorem exactSighashDefined : exactPlatform.SighashDefined :=
  ⟨sighashDefined.keySpend, sighashDefined.scriptSpend⟩

/-- A secret, or a random draw, made of the byte `b`. -/
def bytes (b : UInt8) : Bytes32 := List.Vector.replicate 32 b

end Tinylayer.Symbolic
