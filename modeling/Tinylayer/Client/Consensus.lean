import Mathlib.Algebra.BigOperators.Group.List.Basic
import Mathlib.Algebra.Order.Ring.Nat
import Tinylayer.Client.Recovery
import Tinylayer.Lib.Tapscript

/-!
# When Bitcoin admits a transaction

What the checks of the client stand for: the rules by which a transaction that spends a Taproot
output gets into a block. The witness is a signature of the output key, or a leaf script with its
control block and the stack it runs on; a relative lock keeps the transaction out of the chain for
some blocks after the output. The signature hash and the commitment to a leaf are parameters.
-/

namespace Tinylayer

variable {P : Platform}

variable (P) in
/-- The functions of Bitcoin's consensus rules that are not spelled out. -/
structure Consensus where
  /-- The key that 32 bytes on the stack stand for. -/
  xOnlyFromSlice : List UInt8 → Option P.XOnlyPublicKey
  /-- The control block proves that the output key commits to the leaf script. -/
  commits : (control : List UInt8) → P.XOnlyPublicKey → Script → Bool
  /-- The signature hash for a hash type, an annex, an input, its spent outputs and the leaf that is
  run; a key path has no leaf. -/
  sighash : UInt8 → Option (List UInt8) → P.Tx → Nat → List TxOut → Option P.Digest →
    Option P.Digest

/-- A signature on the stack: 64 bytes, or 65 with a hash type other than the default. -/
def parseSignature (P : Platform) (bytes : List UInt8) : Option (UInt8 × P.Signature) :=
  if bytes.length = 64 then (P.signatureFromSlice bytes).map fun signature => (0, signature)
  else
    match bytes.drop 64 with
    | [hashType] =>
      if hashType = 0 then none
      else (P.signatureFromSlice (bytes.take 64)).map fun signature => (hashType, signature)
    | _ => none

/-- The first byte of an annex. -/
def annexTag : UInt8 := 0x50

/-- The witness without its annex, and the annex. -/
def splitAnnex (witness : List (List UInt8)) : List (List UInt8) × Option (List UInt8) :=
  match witness.getLast? with
  | some annex =>
    if 2 ≤ witness.length ∧ annex.head? = some annexTag then (witness.dropLast, some annex)
    else (witness, none)
  | none => (witness, none)

namespace Consensus

/-- What a signature hash commits to: neither witnesses nor the scripts of inputs. -/
def committed (tx : P.Tx) : P.Tx :=
  { tx with input := tx.input.map fun i => { i with scriptSig := [], witness := [] } }

variable (rules : Consensus P)

/-- The bytes are a signature of the input by the owner of `key`, for this digest. -/
structure Signs (tx : P.Tx) (index : Nat) (prevouts : List TxOut) (annex : Option (List UInt8))
    (leaf : Option P.Digest) (bytes : List UInt8) (key : P.XOnlyPublicKey) (digest : P.Digest) :
    Prop where
  parsed : ∃ hashType signature, parseSignature P bytes = some (hashType, signature) ∧
    rules.sighash hashType annex tx index prevouts leaf = some digest ∧
    P.verifySchnorr signature digest key = true

/-- Whether the bytes are a signature for the key that is on the stack. -/
def valid (tx : P.Tx) (index : Nat) (prevouts : List TxOut) (annex : Option (List UInt8))
    (leaf : Option P.Digest) (bytes keyBytes : List UInt8) : Bool :=
  match parseSignature P bytes, rules.xOnlyFromSlice keyBytes with
  | some (hashType, signature), some key =>
    match rules.sighash hashType annex tx index prevouts leaf with
    | some digest => P.verifySchnorr signature digest key
    | none => false
  | _, _ => false

/-- The witness of the input `index` spends its Taproot output. -/
inductive Spends (tx : P.Tx) (index : Nat) (prevouts : List TxOut) : Prop
  | keyPath {input : TxIn P.Txid} {prevout : TxOut} {key : P.XOnlyPublicKey} {bytes : List UInt8}
      {annex : Option (List UInt8)} {digest : P.Digest} (input_eq : tx.input[index]? = some input)
      (prevout_eq : prevouts[index]? = some prevout)
      (output : prevout.scriptPubkey = P.newP2trTweaked key) (scriptSig : input.scriptSig = [])
      (witness : splitAnnex input.witness = ([bytes], annex))
      (signs : rules.Signs tx index prevouts annex none bytes key digest)
  | scriptPath {input : TxIn P.Txid} {prevout : TxOut} {key : P.XOnlyPublicKey}
      {stack : List (List UInt8)} {script : Script} {control : List UInt8}
      {annex : Option (List UInt8)} (input_eq : tx.input[index]? = some input)
      (prevout_eq : prevouts[index]? = some prevout)
      (output : prevout.scriptPubkey = P.newP2trTweaked key) (scriptSig : input.scriptSig = [])
      (witness : splitAnnex input.witness = (stack ++ [script, control], annex))
      (commits : rules.commits control key script = true)
      -- the last item of the witness is the top of the stack
      (accepts : Tapscript.accepts
        (rules.valid tx index prevouts annex (some (P.tapLeafHash script))) script stack.reverse =
          true)

/-- For how many blocks the sequence number of an input keeps its transaction from following the
spent output. A lock by time is not counted. -/
def relativeLock (version : Int) (sequence : Nat) : Nat :=
  if version = 0 ∨ version = 1 ∨ sequence.testBit 31 ∨ sequence.testBit 22 then 0
  else sequence % 2 ^ 16

/-- Lock times from here on are times. -/
def lockTimeThreshold : Nat := 500000000

/-- The transaction is final in a block of this height. -/
def Final (tx : P.Tx) (height medianTime : Nat) : Prop :=
  tx.lockTime = 0 ∨
    tx.lockTime < (if tx.lockTime < lockTimeThreshold then height else medianTime) ∨
    ∀ input ∈ tx.input, input.sequence = sequenceMax

/-- The transaction may be in a block of this height, as far as the input `index` goes, which spends
an output of a block at `fundedAt`. -/
structure Admits (tx : P.Tx) (index : Nat) (prevouts : List TxOut)
    (fundedAt height medianTime : Nat) : Prop where
  prevouts_length : prevouts.length = tx.input.length
  spends : rules.Spends tx index prevouts
  mature : ∀ input ∈ tx.input[index]?,
    fundedAt + relativeLock tx.version input.sequence ≤ height
  final : Final tx height medianTime
  value : (tx.output.map TxOut.value).sum ≤ (prevouts.map TxOut.value).sum

/-! ## What is assumed of the rules -/

/-- The key is written as 32 bytes and read back from them. -/
structure ReadsKey (key : P.XOnlyPublicKey) : Prop where
  length : (P.xOnlySerialize key).length = 32
  read : rules.xOnlyFromSlice (P.xOnlySerialize key) = some key

/-- The rules agree with the libraries, and hash values have no collisions. -/
structure Laws : Prop where
  /-- An output key with one leaf under the NUMS key commits to nothing else. -/
  commits_iff : ∀ leaf control script,
    rules.commits control (P.taprootOutputKey P.numsInternalKey leaf) script = true ↔
      script = leaf ∧
        control = P.controlBlockSerialize (P.taprootControlBlock P.numsInternalKey leaf)
  /-- A control block does not look like an annex. -/
  control : ∀ leaf, (P.controlBlockSerialize
    (P.taprootControlBlock P.numsInternalKey leaf)).head? ≠ some annexTag
  output_inj : Function.Injective P.newP2trTweaked
  /-- The signature hash of a recovery is the one for the default hash type. -/
  default : ∀ tx index prevouts leaf, rules.sighash 0 none tx index prevouts (some leaf) =
    P.scriptSpendSighash tx.stripWitness index prevouts leaf
  /-- A signature hash commits to what it is for. -/
  binding : ∀ hashType annex tx index prevouts leaf tx' index' prevouts' leaf' digest,
    rules.sighash hashType annex tx index prevouts leaf = some digest →
    P.scriptSpendSighash tx' index' prevouts' leaf' = some digest →
    committed tx = committed tx'

end Consensus

end Tinylayer
