import Tinylayer.Lib.Rotation
import Tinylayer.Enclave.Signer

/-!
# Runs of the signer

A run is a list of calls of `Signer.handle`, by any clients and in any order. `issuances` picks out
the calls that signed a digest anew; a call answered from the retry record is not one of them.
-/

namespace Tinylayer.Signer

variable {P : Platform} {LIMIT : Nat}

/-- The coin that a request is about. -/
def requestCoin : Request P → CoinId
  | .register request => request.coinId
  | .status coinId => coinId
  | .sign request => request.coinId

variable (P) in
/-- One call of the signer, with what the signer draws at random in it. -/
structure Call where
  request : Request P
  draws : Draws P

/-- The signer after a call, whether or not it succeeded. -/
def after (σ : Signer P LIMIT) (call : Call P) : Signer P LIMIT :=
  match handle call.draws call.request σ with
  | .ok _ σ' => σ'
  | .error _ σ' => σ'

/-- The signer after a run. -/
def run (σ : Signer P LIMIT) (calls : List (Call P)) : Signer P LIMIT := calls.foldl after σ

variable (P) in
/-- A signature that was issued, with the request it answers. -/
abbrev Issuance := SignRequest P × SignResponse P

/-- The stored response, if `request` is the one its coin answered last. -/
def cached (σ : Signer P LIMIT) (request : SignRequest P) : Option (SignResponse P) :=
  (σ.coins.lookup request.coinId).bind fun coin => coin.cached request

/-- The signature newly issued by a call. -/
def issued (σ : Signer P LIMIT) (call : Call P) : Option (Issuance P) :=
  match call.request with
  | .sign request =>
    match σ.cached request, sign call.draws request σ with
    | none, .ok response _ => some (request, response)
    | _, _ => none
  | _ => none

/-- The signatures newly issued for a coin in a run, in order. -/
def issuances (coinId : CoinId) (σ : Signer P LIMIT) : List (Call P) → List (Issuance P)
  | [] => []
  | call :: calls =>
    (issued σ call).toList.filter (fun entry => entry.1.coinId = coinId)
      ++ issuances coinId (σ.after call) calls

/-- The registration a call carries out; one for a coin that has a record changes nothing. -/
def registers (σ : Signer P LIMIT) (call : Call P) : Option (RegisterRequest P) :=
  match call.request with
  | .register request =>
    match σ.coins.lookup request.coinId, register call.draws request σ with
    | none, .ok _ _ => some request
    | _, _ => none
  | _ => none

/-- The registration of a coin in a run. -/
def registration (coinId : CoinId) (σ : Signer P LIMIT) : List (Call P) → Option (RegisterRequest P)
  | [] => none
  | call :: calls =>
    match registers σ call with
    | some request =>
      if request.coinId = coinId then some request else registration coinId (σ.after call) calls
    | none => registration coinId (σ.after call) calls

variable (LIMIT) in
/-- The signer reported `status` at some time in the run `calls` or before it. -/
def Reported (calls : List (Call P)) (status : CoinStatus P) : Prop :=
  ∃ earlier, earlier <+: calls ∧
    ((new : Signer P LIMIT).run earlier).status status.coinId = .ok status

variable (LIMIT) in
/-- In the run `calls`, the signer answered the registration `request` with `status` in the last call
of the part `earlier`. -/
def Registered (calls : List (Call P)) (request : RegisterRequest P) (earlier : List (Call P))
    (status : CoinStatus P) : Prop :=
  ∃ before draws, earlier = before ++ [⟨.register request, draws⟩] ∧ earlier <+: calls ∧
    handle draws (.register request) ((new : Signer P LIMIT).run before) =
      .ok (.status status) ((new : Signer P LIMIT).run earlier)

/-- The authorization a sign request presents. -/
def presented (request : SignRequest P) : P.Digest :=
  authorization request.coinId (capabilityHash request.currentCapability) request.currentHandoff

/-- The authorization an issued signature commits the coin to. -/
def committed (entry : Issuance P) : P.Digest :=
  authorization entry.1.coinId entry.1.nextCapabilityHash entry.2.nextHandoff

/-- The authorization a registration commits the coin to. -/
def initialAuthorization (request : RegisterRequest P) : P.Digest :=
  authorization request.coinId request.initialCapabilityHash initialHandoff

/-- The issuances `log` of a coin form one chain that starts at its registration. -/
def Chain (request : RegisterRequest P) (log : List (Issuance P)) : Prop :=
  Rotation.Follows (fun entry => presented entry.1) committed (initialAuthorization request) log

/-- The record of a coin that was registered by `request` and then issued the signatures `log`. -/
def Coin.summary (signingKey : P.SecretKey) (request : RegisterRequest P)
    (log : List (Issuance P)) : Coin P where
  signingKey := signingKey
  authorization := Rotation.key committed (initialAuthorization request) log
  signatureCount := log.length
  last := log.getLast?

/-- The handoff tokens issued for a coin are distinct from each other and from the first one. -/
def FreshHandoffs (log : List (Issuance P)) : Prop :=
  (initialHandoff :: log.map fun entry => entry.2.nextHandoff).Nodup

end Tinylayer.Signer
