import Tinylayer.Client.Recovery
import Tinylayer.Lib.Hex
import Tinylayer.Lib.Json

/-!
# Wallet data

The records that `wallet-core` saves, sends and receives: the wallet state with its journals, the
transfer request and the sealed transfer envelope.
-/

namespace Tinylayer

variable (P : Platform)

def fileFormatVersion : Nat := 1

/-- A check of the client, with its failure as text. -/
def Client.lift {α : Type} (x : Except Client.Error α) : Except String α :=
  x.mapError Client.Error.message

@[simp] theorem Client.lift_eq_ok {α : Type} {x : Except Client.Error α} {a : α} :
    Client.lift x = .ok a ↔ x = .ok a := by
  cases x <;> simp [Client.lift, Except.mapError]

/-- An output on the chain that is claimed to fund a coin. -/
structure ObservedFunding where
  outpoint : OutPoint P.Txid
  output : TxOut
  confirmations : Nat
  unspent : Bool
  coinbase : Bool

/-- A confirmed deposit that can pay for a funding. -/
structure SourceUtxo where
  outpoint : OutPoint P.Txid
  output : TxOut
  confirmations : Nat
  coinbase : Bool
deriving DecidableEq

/-! ## Transfers -/

/-- What a receiver hands to the sender; identifiers and keys are text. -/
@[ext]
structure TransferRequest where
  formatVersion : Nat
  protocolVersion : Nat
  requestId : String
  coinId : String
  network : NetworkId
  outpoint : String
  expectedAmountSat : Nat
  withdrawalXonlyPubkey : String
  nextCapabilityHash : String
  transportPublicKey : String
  minReactionBlocks : Nat
deriving DecidableEq

/-- The sealed answer of the sender. -/
structure TransferEnvelope where
  formatVersion : Nat
  requestId : String
  ephemeralPublicKey : String
  nonce : String
  ciphertext : String
deriving DecidableEq

/-- What the envelope contains. -/
structure TransferPayload where
  formatVersion : Nat
  protocolVersion : Nat
  requestId : Bytes32
  clientSecret : P.SecretKey
  currentHandoff : HandoffToken
  metadata : CoinMetadata P
  history : List (SignedRecovery P)
deriving DecidableEq

/-! ## Journals -/

inductive FundingStage
  | prepared
  | recoverySecured
  | broadcast
deriving DecidableEq

structure FundingJournal where
  transaction : P.Tx
  delayBlocks : Nat
  feeRateSatVb : Nat
  maxFeeSat : Nat
  feeSat : Nat
  stage : FundingStage
deriving DecidableEq

/-- A signing request that may have reached the enclave. -/
structure RecoveryAttempt where
  expectedSignatureCount : Nat
  delayBlocks : Nat
  request : SignRequest P
  prepared : PreparedRecovery P
deriving DecidableEq

inductive RecoveryPurpose
  | fund (nextCapability : Capability) (withdrawalSecret : Bytes32)
  | transfer (request : TransferRequest)
deriving DecidableEq

inductive RecoveryStage
  | prepared (attempt : RecoveryAttempt P)
  | responded (attempt : RecoveryAttempt P) (response : SignResponse P)
deriving DecidableEq

structure PendingRecovery where
  purpose : RecoveryPurpose
  stage : RecoveryStage P
deriving DecidableEq

inductive PendingOperation
  | registration (clientSecret : P.SecretKey) (initialCapability : Capability)
      (registration : Registration P)
  | recovery (pending : PendingRecovery P)
deriving DecidableEq

structure IncomingTransfer where
  request : TransferRequest
  capability : Capability
  withdrawalSecret : Bytes32
  transportSecret : Bytes32
deriving DecidableEq

structure OutgoingTransfer where
  request : TransferRequest
  envelope : TransferEnvelope
deriving DecidableEq

/-! ## The wallet -/

structure WalletCoin where
  clientSecret : P.SecretKey
  keys : CoinKeys P
  metadata : Option (CoinMetadata P)
  funding : Option (FundingJournal P)
  currentCapability : Option Capability
  currentHandoff : Option HandoffToken
  withdrawalSecret : Option Bytes32
  withdrawalRecoveryIndex : Option Nat
  acceptedRequest : Option TransferRequest
  acceptedEnvelopeFingerprint : Option P.Digest
  history : List (SignedRecovery P)
  outgoing : Option OutgoingTransfer
deriving DecidableEq

structure WalletState where
  formatVersion : Nat
  coin : Option (WalletCoin P)
  incoming : Option IncomingTransfer
  pending : Option (PendingOperation P)
deriving DecidableEq

variable {P}

/-- The attempt of a signing stage. -/
def RecoveryStage.attempt : RecoveryStage P → RecoveryAttempt P
  | prepared attempt => attempt
  | responded attempt _ => attempt

end Tinylayer
