import Tinylayer.System.World
import Tinylayer.Wallet.Invariant

/-!
# The invariant of the system

What ties the wallets to the signer. A request that a wallet sent is in its journal, or the signer
has answered it and the wallet has gone on: it holds a later token, or none at all. What is in the
journal was asked for with a status of the signer, and an answer in it is the signer's.
-/

namespace Tinylayer

variable {P : Platform} {LIMIT : Nat}

/-! ## One wallet and the signer -/

/-- The request is in the journal. -/
def WalletState.Journals (s : WalletState P) (request : SignRequest P) : Prop :=
  ∃ pending, s.signing = some pending ∧ pending.stage.attempt.request = request

/-- The signer has answered the request, and the wallet has gone on. -/
structure Done (replies : List (Signer.Issuance P)) (request : SignRequest P)
    (s : WalletState P) : Prop where
  answered : ∃ response, (request, response) ∈ replies
  past : s.Transferred ∨ s.Secured ∧ request.currentHandoff = initialHandoff ∧
    ∀ held, s.held = some held → held.handoff ≠ initialHandoff

/-- The request is in the journal or done. -/
def Tracks (replies : List (Signer.Issuance P)) (request : SignRequest P)
    (s : WalletState P) : Prop :=
  s.Journals request ∨ Done replies request s

variable (LIMIT) in
/-- The journaled attempt was made with a status of the signer, and its answer is the signer's. -/
structure Backed (calls : List (Signer.Call P)) (replies : List (Signer.Issuance P))
    (s : WalletState P) (pending : PendingRecovery P) : Prop where
  reported : ∃ status, Signer.Reported LIMIT calls status ∧
    status.coinId = pending.stage.attempt.request.coinId ∧
    (∀ coin ∈ s.coin, status.signingPubkey = coin.keys.enclavePubkey) ∧
    status.authorization = Signer.presented pending.stage.attempt.request ∧
    status.signatureCount = pending.stage.attempt.expectedSignatureCount
  answered : ∀ attempt response, pending.stage = .responded attempt response →
    (attempt.request, response) ∈ replies

namespace World

variable {ι : Type} [DecidableEq ι]

/-- What holds of a state of the wallet `i`, in memory or saved. -/
structure StateInv (w : World ι P LIMIT) (i : ι) (s : WalletState P) : Prop where
  wallet : WalletInv s
  backed : ∀ pending, s.signing = some pending → Backed LIMIT w.calls w.replies s pending
  tracks : ∀ a ∈ w.sent, a.wallet = i → Tracks w.replies a.request s

/-! ## All wallets and the signer -/

/-- The invariant of the system. -/
structure Inv (w : World ι P LIMIT) : Prop where
  mem : ∀ i, StateInv w i (w.mem i)
  disk : ∀ i, StateInv w i (w.disk i)
  follows : ∀ i, Evolves (w.disk i) (w.mem i)
  replied : ∀ entry ∈ w.replies, entry ∈ w.log entry.1.coinId
  requested : ∀ coinId, ∀ entry ∈ w.log coinId,
    entry.1 ∈ w.sent.map Sent.request ∨ entry.1 ∈ w.others
  pair : ∀ a ∈ w.sent, a.pair = some (a.request.currentCapability, a.request.currentHandoff)
  same : ∀ a ∈ w.sent, ∀ b ∈ w.sent, a.wallet = b.wallet → a.pair = b.pair →
    a.request = b.request

/-- The history of `w'` continues that of `w`. -/
structure Extends (w w' : World ι P LIMIT) : Prop where
  calls : w.calls <+: w'.calls
  sent : w.sent <+: w'.sent
  replies : w.replies <+: w'.replies
  others : w.others <+: w'.others
  drawn : w.drawn <+: w'.drawn
  published : w.published <+: w'.published
  forged : w.forged <+: w'.forged

end World

end Tinylayer
