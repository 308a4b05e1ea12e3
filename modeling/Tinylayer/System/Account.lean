import Tinylayer.Client.Consensus
import Tinylayer.Client.Proofs.ConsensusProofs
import Tinylayer.System.World

/-!
# Accounts

What the saved coin of a wallet says about its record at the signer: what opens the authorization,
and how many signatures were issued for it. The account of the owner, and of nobody else, is still
the signer's own, so that the owner knows every signature that there is, and has the recovery that
gets on the chain before all others.
-/

namespace Tinylayer

variable {P : Platform}

variable (P) in
/-- The record of a coin, as a wallet knows it. A wallet that has handed its coin on holds nothing that
opens the authorization. -/
structure Account where
  coinId : CoinId
  enclavePubkey : P.XOnlyPublicKey
  held : Option Held
  count : Nat

namespace WalletState

/-- The account of the wallet's coin. -/
def account (s : WalletState P) : Option (Account P) :=
  s.coin.map fun coin => ⟨coin.keys.coinId, coin.keys.enclavePubkey, s.held, coin.history.length⟩

end WalletState

/-- A status reports this account. It reports more signatures than a wallet that has handed the coin
on still counts. -/
structure Account.Reports (account : Account P) (status : CoinStatus P) : Prop where
  coinId : status.coinId = account.coinId
  signingPubkey : status.signingPubkey = account.enclavePubkey
  held : ∀ held ∈ account.held, status.authorization = held.authorization ∧
    status.signatureCount = account.count
  handed : account.held = none → account.count < status.signatureCount

/-- How an account changes: it is kept, or replaced by one that the given status reports. -/
inductive Settles (given : Option (CoinStatus P)) (before after : Option (Account P)) : Prop
  | kept (same : after = before)
  | reported (status : CoinStatus P) (account : Account P) (given_eq : given = some status)
      (account_eq : after = some account) (reports : account.Reports status)

/-- The digests that the recoveries of a history are signed for. -/
def recoveryDigests (metadata : CoinMetadata P) (history : List (SignedRecovery P)) :
    List (Except Client.Error P.Digest) :=
  history.map fun recovery =>
    recoveryDigest metadata recovery.withdrawalXonlyPubkey recovery.delayBlocks

/-! ## Who gets on the chain first -/

namespace Consensus

variable (rules : Consensus P)

/-- The signatures by which the transaction spends a coin were made by the signer, for digests that
it signed: nobody else signs with its key, or with an output key that nobody knows the secret of. -/
structure Unforged (metadata : CoinMetadata P) (signed : List P.Digest) (tx : P.Tx) (index : Nat)
    (prevouts : List TxOut) : Prop where
  enclave : ∀ input ∈ tx.input[index]?, ∀ bytes ∈ input.witness, ∀ digest,
    rules.Signs tx index prevouts (splitAnnex input.witness).2
      (some (P.tapLeafHash (fundingTapscript metadata.keys))) bytes metadata.keys.enclavePubkey
      digest → digest ∈ signed
  output : ∀ input ∈ tx.input[index]?, ∀ bytes ∈ input.witness, ∀ digest,
    ¬ rules.Signs tx index prevouts (splitAnnex input.witness).2 none bytes
      (fundingOutputKey metadata.keys) digest

/-- The recovery is admitted when its delay is over. Any other transaction that spends the coin is
admitted `DELAY_STEP` blocks later at the earliest. -/
structure First (metadata : CoinMetadata P) (signed : List P.Digest) (own : SignedRecovery P) :
    Prop where
  admitted : ∀ fundedAt height medianTime,
    rules.Admits own.transaction 0 [metadata.fundingOutput] fundedAt height medianTime ↔
      fundedAt + own.delayBlocks ≤ height
  others : ∀ tx index prevouts fundedAt height medianTime,
    prevouts[index]? = some metadata.fundingOutput →
    rules.Unforged metadata signed tx index prevouts →
    rules.Admits tx index prevouts fundedAt height medianTime →
    tx.stripWitness = own.transaction.stripWitness ∨
      fundedAt + own.delayBlocks + delayStep ≤ height

end Consensus

namespace World

variable {ι : Type} {LIMIT : Nat}

/-- The digests that the signer signed for a coin. -/
def signed (w : World ι P LIMIT) (coinId : CoinId) : List P.Digest :=
  (w.log coinId).map fun entry => entry.1.sighash

/-- The account of the wallet state was reported by the signer. -/
def Attested (w : World ι P LIMIT) (s : WalletState P) : Prop :=
  ∀ account, s.account = some account →
    ∃ status, Signer.Reported LIMIT w.calls status ∧ account.Reports status

end World

end Tinylayer
