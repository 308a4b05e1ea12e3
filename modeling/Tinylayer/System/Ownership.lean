import Tinylayer.System.Invariant

/-!
# Ownership

Where the capabilities of the wallets and the transfer requests in their journals come from, and
what it means that a coin has one owner, in whose journal every signature is asked for.
-/

namespace Tinylayer.World

variable {ι : Type} {P : Platform} {LIMIT : Nat}

/-! ## Where things come from -/

/-- A wallet drew its capabilities itself, and answers transfer requests that were published. -/
structure StateOrigin (w : World ι P LIMIT) (i : ι) (s : WalletState P) : Prop where
  drawn : ∀ capability ∈ s.capabilities, (i, capability) ∈ w.drawn
  requested : ∀ request, s.pendingTransferRequest = .ok request →
    request ∈ w.published.map (·.request) ∨ request ∈ w.forged

/-- The hash of a capability that a wallet drew. -/
def DrawnHash (w : World ι P LIMIT) (hash : P.Digest) : Prop :=
  ∃ entry ∈ w.drawn, hash = capabilityHash entry.2

/-- A wallet can open the authorization, or could. -/
def DrawnAuthorization (w : World ι P LIMIT) (coinId : CoinId) (digest : P.Digest) : Prop :=
  ∃ hash handoff, digest = authorization coinId hash handoff ∧ w.DrawnHash hash

/-- The wallets drew every capability that they present or ask the signer to set. -/
structure Origin (w : World ι P LIMIT) : Prop where
  mem : ∀ i, StateOrigin w i (w.mem i)
  disk : ∀ i, StateOrigin w i (w.disk i)
  published : ∀ incoming ∈ w.published, ∃ hash,
    incoming.request.parseNextCapabilityHash P = .ok hash ∧ w.DrawnHash hash
  current : ∀ a ∈ w.sent, (a.wallet, a.request.currentCapability) ∈ w.drawn
  next : ∀ a ∈ w.sent, w.DrawnHash a.request.nextCapabilityHash ∨
    ∃ request ∈ w.forged, request.parseCoinId = .ok a.request.coinId

/-! ## One owner -/

variable [DecidableEq ι]

/-- A coin has at most one owner, and every new signature is asked for in the journal of its owner.
When the completed transfer is saved, the sender gets no new signature any more, and when a transfer
was accepted, the receiver gets the next one. -/
structure OwnedOnce (w : World ι P LIMIT) (coinId : CoinId) : Prop where
  unique : ∀ i j, w.Owns i coinId → w.Owns j coinId → i = j
  issued : ∀ w' entry, Issues w w' coinId entry → Fresh w' → Secret w' → w.Honest coinId →
    ∃ i, w.Owns i coinId ∧ w.Journaled i entry.1
  sender : ∀ i draws status s envelope,
    WalletState.completeTransfer draws status s = .ok envelope (w.disk i) →
    ∀ w' w'' entry, Steps w w' → Issues w' w'' coinId entry → Fresh w'' →
      ¬ w'.Owns i coinId ∧ ∀ a ∈ w'.sent, a.wallet = i → a.request ≠ entry.1
  receiver : ∀ j reader network request envelope status observed minimumConfirmations
      minimumReactionBlocks s,
    WalletState.acceptTransfer reader network request envelope status observed minimumConfirmations
      minimumReactionBlocks (w.mem j) = .ok true s →
    status.coinId = coinId → Signer.Reported LIMIT w.calls status →
    ∀ w', Steps (w.operate j (.acceptTransfer reader network request envelope status observed
        minimumConfirmations minimumReactionBlocks)) w' →
      w'.log coinId = w.log coinId → Fresh w' → Secret w' →
      (∀ i, w'.Owns i coinId → i = j) ∧
      ∀ w'' entry, Issues w' w'' coinId entry → Fresh w'' → Secret w'' → w'.Honest coinId →
        w'.Owns j coinId ∧ w'.Journaled j entry.1

end Tinylayer.World
