import Mathlib.Data.List.AList
import Tinylayer.Lib.Fallible
import Tinylayer.Platform

/-!
# The enclave signer

The fail-stop signer of `enclave/src/lib.rs`: it keeps one record for each coin and signs a digest
for whoever presents the capability and the handoff token that open the record's authorization.
What it draws at random, a signing key and the next handoff token, is an argument of each call.
-/

namespace Tinylayer

variable (P : Platform)

def protocolVersion : Nat := 1

abbrev CoinId := Bytes32
abbrev Capability := Bytes32
abbrev HandoffToken := Bytes32

def initialHandoff : HandoffToken := Bytes32.zero

/-- `u64::MAX`. -/
def u64Max : Nat := 2 ^ 64 - 1

/-- `u32::MAX`. -/
def u32Max : Nat := 2 ^ 32 - 1

/-- `checked_add` of an unsigned type whose greatest value is `max`. -/
def checkedAdd (max a b : Nat) : Option Nat := if a + b ≤ max then some (a + b) else none

/-- `checked_sub` of an unsigned type. -/
def checkedSub (a b : Nat) : Option Nat := if b ≤ a then some (a - b) else none

@[simp] theorem checkedAdd_eq_some {max a b c : Nat} :
    checkedAdd max a b = some c ↔ a + b ≤ max ∧ a + b = c := by
  unfold checkedAdd; split <;> simp_all

@[simp] theorem checkedSub_eq_some {a b c : Nat} :
    checkedSub a b = some c ↔ b ≤ a ∧ a - b = c := by
  unfold checkedSub; split <;> simp_all

structure RegisterRequest where
  coinId : CoinId
  initialCapabilityHash : P.Digest
deriving DecidableEq

structure SignRequest where
  coinId : CoinId
  currentCapability : Capability
  currentHandoff : HandoffToken
  nextCapabilityHash : P.Digest
  sighash : P.Digest
deriving DecidableEq

structure SignResponse where
  signature : P.Signature
  nextHandoff : HandoffToken
deriving DecidableEq

structure CoinStatus where
  coinId : CoinId
  signingPubkey : P.XOnlyPublicKey
  authorization : P.Digest
  signatureCount : Nat
deriving DecidableEq

inductive Request
  | register (request : RegisterRequest P)
  | status (coinId : CoinId)
  | sign (request : SignRequest P)

inductive Response
  | status (status : CoinStatus P)
  | signature (response : SignResponse P)

variable {P}

/-- `tagged_hash`. -/
def taggedHash (tag : String) (parts : List (List UInt8)) : P.Digest :=
  let tagHash := P.digestBytes (P.sha256 tag.toUTF8.toList)
  P.sha256 (tagHash ++ tagHash ++ parts.flatten)

/-- `capability_hash`. -/
def capabilityHash (capability : Capability) : P.Digest :=
  taggedHash "Tinylayer/Capability/v1" [capability.toList]

/-- `authorization`. -/
def authorization (coinId : CoinId) (capabilityHash : P.Digest) (handoff : HandoffToken) :
    P.Digest :=
  taggedHash "Tinylayer/Authorization/v1"
    [coinId.toList, P.digestBytes capabilityHash, handoff.toList]

namespace Signer

/-- What the signer answers instead of a result. -/
inductive Error
  | unknownCoin
  | capacityReached
  | unauthorized
  | unchangedCapability
  | signatureCountOverflow
deriving DecidableEq

def Error.message : Error → String
  | unknownCoin => "coin is not registered"
  | capacityReached => "enclave coin capacity is exhausted"
  | unauthorized => "current capability or handoff is stale"
  | unchangedCapability => "next capability is unchanged"
  | signatureCountOverflow => "signature count is exhausted"

variable (P) in
/-- The record of one coin. -/
structure Coin where
  signingKey : P.SecretKey
  authorization : P.Digest
  signatureCount : Nat
  last : Option (SignRequest P × SignResponse P)

variable (P) in
/-- What the signer draws at random in one call. -/
structure Draws where
  signingKey : P.SecretKey
  nextHandoff : HandoffToken

end Signer

variable (P) in
/-- The signer; `LIMIT` bounds the number of coins. -/
structure Signer (LIMIT : Nat) where
  coins : AList fun _ : CoinId => Signer.Coin P

namespace Signer

variable {LIMIT : Nat}

def new : Signer P LIMIT := ⟨∅⟩

/-- `Coin::status`. -/
def Coin.status (coin : Coin P) (coinId : CoinId) : CoinStatus P where
  coinId := coinId
  signingPubkey := P.xOnlyPublicKey coin.signingKey
  authorization := coin.authorization
  signatureCount := coin.signatureCount

/-- `Signer::status`. -/
def status (self : Signer P LIMIT) (coinId : CoinId) : Except Error (CoinStatus P) :=
  ((self.coins.lookup coinId).map fun coin => coin.status coinId).context .unknownCoin

/-- The record a registration creates. -/
def Coin.registered (signingKey : P.SecretKey) (request : RegisterRequest P) : Coin P where
  signingKey := signingKey
  authorization :=
    Tinylayer.authorization request.coinId request.initialCapabilityHash initialHandoff
  signatureCount := 0
  last := none

/-- `Signer::register`. -/
def register (draws : Draws P) (request : RegisterRequest P) :
    Update Error (Signer P LIMIT) (CoinStatus P) := do
  let self ← get
  if (self.coins.lookup request.coinId).isSome then
    Update.of (self.status request.coinId)
  else do
    Update.of (ensure (self.coins.entries.length < LIMIT) .capacityReached)
    let coin := Coin.registered draws.signingKey request
    set (⟨self.coins.insert request.coinId coin⟩ : Signer P LIMIT)
    return coin.status request.coinId

/-- The stored response, if `request` is the one answered last. -/
def Coin.cached (coin : Coin P) (request : SignRequest P) : Option (SignResponse P) :=
  match coin.last with
  | some (last, response) => if last = request then some response else none
  | none => none

/-- The response newly issued to `request`. -/
def Coin.respond (coin : Coin P) (draws : Draws P) (request : SignRequest P) : SignResponse P where
  signature := P.signSchnorr coin.signingKey request.sighash
  nextHandoff := draws.nextHandoff

/-- The record after `response` was issued to `request`. -/
def Coin.advance (coin : Coin P) (request : SignRequest P) (response : SignResponse P) : Coin P where
  signingKey := coin.signingKey
  authorization :=
    Tinylayer.authorization request.coinId request.nextCapabilityHash response.nextHandoff
  signatureCount := coin.signatureCount + 1
  last := some (request, response)

/-- `Signer::sign`. -/
def sign (draws : Draws P) (request : SignRequest P) :
    Update Error (Signer P LIMIT) (SignResponse P) := do
  let self ← get
  let coin ← Update.of ((self.coins.lookup request.coinId).context .unknownCoin)
  match coin.cached request with
  | some response => return response
  | none => do
    let currentCapabilityHash := capabilityHash request.currentCapability
    let expected := authorization request.coinId currentCapabilityHash request.currentHandoff
    Update.of (ensure (expected = coin.authorization) .unauthorized)
    Update.of (ensure (request.nextCapabilityHash ≠ currentCapabilityHash) .unchangedCapability)
    let _ ← Update.of ((checkedAdd u64Max coin.signatureCount 1).context .signatureCountOverflow)
    let response := coin.respond draws request
    set (⟨self.coins.insert request.coinId (coin.advance request response)⟩ : Signer P LIMIT)
    return response

/-- `Signer::handle`. -/
def handle (draws : Draws P) : Request P → Update Error (Signer P LIMIT) (Response P)
  | .register request => .status <$> register draws request
  | .status coinId => do
    let self ← get
    .status <$> Update.of (self.status coinId)
  | .sign request => .signature <$> sign draws request

end Signer

end Tinylayer
