import Tinylayer.Enclave.Run
import Tinylayer.Wallet.Run

/-!
# The journal of a wallet

What matters of a wallet state for the exchange with the enclave: the authorization that its coin
can open, and the signing request in its journal. `Moves` says how an operation changes them.
-/

namespace Tinylayer

variable {P : Platform}

/-- What opens an authorization. -/
structure Held where
  coinId : CoinId
  capability : Capability
  handoff : HandoffToken
deriving DecidableEq

/-- The authorization that is opened. -/
def Held.authorization (held : Held) : P.Digest :=
  Tinylayer.authorization held.coinId (capabilityHash held.capability) held.handoff

/-- What a sign request presents. -/
def SignRequest.opens (request : SignRequest P) : Held :=
  ⟨request.coinId, request.currentCapability, request.currentHandoff⟩

namespace WalletState

/-- What the wallet's coin can open. -/
def held (s : WalletState P) : Option Held :=
  s.coin.bind fun coin => match coin.currentCapability, coin.currentHandoff with
    | some capability, some handoff => some ⟨coin.keys.coinId, capability, handoff⟩
    | _, _ => none

/-- The signing request in the journal. -/
def signing (s : WalletState P) : Option (PendingRecovery P) :=
  match s.pending with
  | some (.recovery pending) => some pending
  | _ => none

/-- The capabilities that the wallet keeps. -/
def capabilities (s : WalletState P) : List Capability :=
  (s.coin.bind (·.currentCapability)).toList ++ (s.incoming.map (·.capability)).toList ++
    match s.pending with
    | some (.registration _ capability _) => [capability]
    | some (.recovery ⟨.fund nextCapability _, _⟩) => [nextCapability]
    | _ => []

/-- The coin was handed on. -/
def Transferred (s : WalletState P) : Prop :=
  ∃ coin, s.coin = some coin ∧ coin.outgoing.isSome = true

/-- The coin has a recovery. -/
def Secured (s : WalletState P) : Prop := ∃ coin, s.coin = some coin ∧ coin.history ≠ []

end WalletState

namespace Operation

/-- The enclave's status that an operation is given. -/
def status : Operation P → Option (CoinStatus P)
  | .completeRegistration status => some status
  | .beginFunding _ _ _ _ status .. => some status
  | .completeFundingRecovery status => some status
  | .beginTransfer _ _ status .. => some status
  | .completeTransfer _ status => some status
  | .acceptTransfer _ _ _ _ status .. => some status
  | _ => none

/-- The enclave's answer that an operation is given. -/
def response : Operation P → Option (SignResponse P)
  | .recordSignResponse response => some response
  | _ => none

/-- The capability that an operation draws. -/
def drawn : Operation P → Option Capability
  | .beginRegistration draws => some draws.initialCapability
  | .beginFunding draws .. => some draws.nextCapability
  | .beginTransferRequest draws .. => some draws.capability
  | _ => none

/-- The transfer request that an operation puts together, with its secrets. -/
def published : Operation P → Option IncomingTransfer
  | .beginTransferRequest draws network coinId outpoint expectedAmountSat minimumReactionBlocks =>
    some (WalletState.incomingTransfer draws network coinId outpoint expectedAmountSat
      minimumReactionBlocks)
  | _ => none

/-- The transfer request that an operation answers. -/
def requested : Operation P → Option TransferRequest
  | .beginTransfer _ request .. => some request
  | _ => none

end Operation

/-- How coin and journal change when the wallet is given a status of the enclave or a transfer
request to answer, but no answer of the enclave. -/
inductive Moves (s : WalletState P) (given : Option (CoinStatus P))
    (requested : Option TransferRequest) (s' : WalletState P) : Prop
  /-- Neither changes. -/
  | quiet (held_eq : s'.held = s.held) (signing_eq : s'.signing = s.signing)
  /-- The wallet gets a coin. -/
  | received (coin_none : s.coin = none) (idle : s'.signing = none) (coin : WalletCoin P)
      (coin_eq : s'.coin = some coin)
  /-- A request is journaled, for the authorization that a status reports. -/
  | journaled (idle : s.signing = none) (held_eq : s'.held = s.held) (status : CoinStatus P)
      (purpose : RecoveryPurpose) (attempt : RecoveryAttempt P)
      (given_eq : given = some status)
      (signing_eq : s'.signing = some ⟨purpose, .prepared attempt⟩)
      (requested_eq : ∀ request, purpose = .transfer request → requested = some request)
      (coinId : status.coinId = attempt.request.coinId)
      (signingPubkey : ∀ coin ∈ s'.coin, status.signingPubkey = coin.keys.enclavePubkey)
      (authorization : status.authorization = Signer.presented attempt.request)
      (count : status.signatureCount = attempt.expectedSignatureCount)
  /-- The first recovery is completed. -/
  | secured (nextCapability : Capability) (secret : Bytes32) (attempt : RecoveryAttempt P)
      (response : SignResponse P)
      (signing_eq : s.signing =
        some ⟨.fund nextCapability secret, .responded attempt response⟩)
      (idle : s'.signing = none) (secured : s'.Secured)
      (held_eq : s'.held =
        some ⟨attempt.request.coinId, nextCapability, response.nextHandoff⟩)
  /-- The coin is handed on. -/
  | transferred (request : TransferRequest) (attempt : RecoveryAttempt P)
      (response : SignResponse P)
      (signing_eq : s.signing = some ⟨.transfer request, .responded attempt response⟩)
      (transferred : s'.Transferred)

end Tinylayer
