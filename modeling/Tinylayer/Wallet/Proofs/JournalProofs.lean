import Tinylayer.Wallet.Journal
import Tinylayer.Wallet.Proofs.InvariantProofs

/-!
# Proofs: the journal of a wallet

Every operation makes one of the moves, and what a move keeps follows from what later states keep of
the coin.
-/

namespace Tinylayer

variable {P : Platform}

open WalletState

namespace WalletState

variable {s s' : WalletState P}

theorem held_of_coin {coin : WalletCoin P} (hcoin : s.coin = some coin) {capability : Capability}
    {handoff : HandoffToken} (hcapability : coin.currentCapability = some capability)
    (hhandoff : coin.currentHandoff = some handoff) :
    s.held = some ⟨coin.keys.coinId, capability, handoff⟩ := by
  simp [held, hcoin, hcapability, hhandoff]

theorem held_eq_some {h : Held} :
    s.held = some h ↔ ∃ coin, s.coin = some coin ∧ coin.keys.coinId = h.coinId ∧
      coin.currentCapability = some h.capability ∧ coin.currentHandoff = some h.handoff := by
  obtain ⟨coinId, capability, handoff⟩ := h
  constructor
  · intro h
    obtain ⟨coin, hcoin, h⟩ := Option.bind_eq_some_iff.1 h
    split at h
    · rename_i c t hc ht
      cases h
      exact ⟨coin, hcoin, rfl, hc, ht⟩
    · cases h
  · rintro ⟨coin, hcoin, rfl, hcapability, hhandoff⟩
    exact held_of_coin hcoin hcapability hhandoff

theorem held_congr (h : s'.coin = s.coin) : s'.held = s.held := by
  unfold held
  rw [h]

theorem signing_eq_some {pending : PendingRecovery P} :
    s.signing = some pending ↔ s.pending = some (.recovery pending) := by
  unfold signing
  split
  · rename_i p hp
    simp [hp]
  · rename_i hp
    constructor
    · nofun
    · exact fun h => absurd h (hp pending)

theorem mem_capabilities {c : Capability} :
    c ∈ s.capabilities ↔ (∃ coin, s.coin = some coin ∧ coin.currentCapability = some c) ∨
      (∃ incoming, s.incoming = some incoming ∧ incoming.capability = c) ∨
      (∃ secret registration, s.pending = some (.registration secret c registration)) ∨
      ∃ secret stage, s.pending = some (.recovery ⟨.fund c secret, stage⟩) := by
  unfold capabilities
  simp only [List.mem_append, Option.mem_toList, Option.bind_eq_some_iff,
    Option.map_eq_some_iff, or_assoc]
  refine or_congr_right (or_congr_right ?_)
  split <;> rename_i hp <;> simp_all [eq_comm]

/-- The request that is resumed is the one in the journal. -/
theorem pendingTransferRequest_eq_ok {request : TransferRequest} :
    s.pendingTransferRequest = .ok request ↔
      ∃ stage, s.pending = some (.recovery ⟨.transfer request, stage⟩) := by
  unfold pendingTransferRequest
  rcases hpending : s.pending with _ | _ | ⟨_ | request', stage⟩ <;> simp

theorem signing_of_idle (h : s.pending = none) : s.signing = none := by
  unfold signing
  rw [h]

end WalletState

/-! ## The moves -/

/-- An update that leaves the state alone when it fails makes a move if it does when it succeeds. -/
theorem Moves.of_update {s : WalletState P} {given : Option (CoinStatus P)}
    {requested : Option TransferRequest} {α : Type} {x : Update String (WalletState P) α}
    (hatomic : x.Atomic s) (hok : ∀ a s', x s = .ok a s' → Moves s given requested s') :
    Moves s given requested (x.stateAfter s) := by
  rcases hatomic.stateAfter_eq with ⟨a, ha⟩ | hs
  · exact hok a _ ha
  · rw [hs]
    exact .quiet rfl rfl

namespace WalletState

variable {s s' : WalletState P}

theorem moves_beginFunding {draws : FundingDraws P} {network : NetworkId}
    {sourceSecret : P.SecretKey} {source : SourceUtxo P} {status : CoinStatus P}
    {amountSat delayBlocks feeRateSatVb maxFeeSat minimumReactionBlocks : Nat}
    {request : SignRequest P}
    (hok : WalletState.beginFunding draws network sourceSecret source status amountSat delayBlocks
      feeRateSatVb maxFeeSat minimumReactionBlocks s = .ok request s') :
    Moves s (some status) none s' := by
  obtain ⟨hpending, coin, capability, funding, prepared, hcoin, ⟨_, _, _, hhandoff, hcapability⟩, _,
    hcount, _, hprepare, rfl⟩ := beginFunding_ok hok
  obtain ⟨⟨_, hid, hkey⟩, hauth, _, _, _, _, _, _, rfl, rfl⟩ := prepareRecovery_eq_ok.1 hprepare
  refine .journaled (signing_of_idle hpending) ?_ status _ _ rfl rfl nofun hid ?_ hauth hcount
  · rw [held_of_coin hcoin hcapability hhandoff]
    exact held_eq_some.2 ⟨_, rfl, rfl, hcapability, hhandoff⟩
  · rintro _ ⟨⟩
    exact hkey

theorem moves_markFundingBroadcast {txid : P.Txid} {u : Unit}
    (hok : WalletState.markFundingBroadcast txid s = .ok u s') :
    Moves s none none s' := by
  obtain ⟨_, _, _, rfl⟩ := markFundingBroadcast_ok.1 hok
  refine .quiet ?_ rfl
  simp only [held]
  cases s.coin <;> rfl

/-- A completed transfer hands the coin on. -/
theorem completeTransfer_transferred {draws : EnvelopeDraws P} {status : CoinStatus P}
    {envelope : TransferEnvelope}
    (hok : WalletState.completeTransfer draws status s = .ok envelope s') : s'.Transferred := by
  obtain ⟨_, _, _, _, _, _, _, _, _, _, _, _, _, _, _, _, _, _, _, _, _, _, rfl⟩ :=
    completeTransfer_ok.1 hok
  exact ⟨_, rfl, rfl⟩

/-- A new coin is accepted by a wallet that has none, for a status whose authorization it can open
with the capability that it published. -/
theorem acceptTransfer_authorization {reader : PayloadReader P} {network : NetworkId}
    {request : TransferRequest} {envelope : TransferEnvelope} {status : CoinStatus P}
    {observed : ObservedFunding P} {minimumConfirmations minimumReactionBlocks : Nat}
    (hok : WalletState.acceptTransfer reader network request envelope status observed
      minimumConfirmations minimumReactionBlocks s = .ok true s') :
    s.coin = none ∧ ∃ capability handoff, capability ∈ s.capabilities ∧
      status.authorization =
        Tinylayer.authorization status.coinId (capabilityHash capability) handoff := by
  obtain ⟨_, _, ⟨_, _, _, _, hfalse, _⟩ | ⟨hcoin, coin, haccept, _⟩⟩ := acceptTransfer_ok.1 hok
  · cases hfalse
  · obtain ⟨_, incoming, payload, hincoming, _, _, hacceptable, _⟩ := acceptCoin_eq_ok.1 haccept
    obtain ⟨_, _, _, _, _, hverify, _⟩ := hacceptable.withdrawal
    obtain ⟨⟨_, hid, _⟩, _, ⟨hauth, _⟩, _⟩ := verifyHistory_eq_ok.1 hverify
    rw [← hid] at hauth
    exact ⟨hcoin, _, _, mem_capabilities.2 (Or.inr (Or.inl ⟨incoming, hincoming, rfl⟩)), hauth⟩

end WalletState

namespace WalletInv

variable {s s' : WalletState P}

/-- The request in the journal presents what the coin can open. -/
theorem held_of_signing (h : WalletInv s) {pending : PendingRecovery P}
    (hs : s.signing = some pending) : s.held = some pending.stage.attempt.request.opens := by
  obtain ⟨coin, hcoin, metadata, hattempt, _⟩ := h.recovery pending (signing_eq_some.1 hs)
  rw [held_of_coin hcoin hattempt.capability hattempt.handoff, SignRequest.opens, hattempt.coinId]

/-- The first recovery is asked for with the handoff token that every coin begins with. -/
theorem initial_of_fund (h : WalletInv s) {pending : PendingRecovery P}
    (hs : s.signing = some pending) {nextCapability : Capability} {secret : Bytes32}
    (hp : pending.purpose = .fund nextCapability secret) :
    pending.stage.attempt.request.currentHandoff = initialHandoff ∧ ¬ s.Secured := by
  obtain ⟨coin, hcoin, metadata, hattempt, hpurpose⟩ := h.recovery pending (signing_eq_some.1 hs)
  have hinv := h.coin coin hcoin
  rw [hp] at hpurpose
  obtain ⟨⟨funding, hfunding, hstage, _⟩, _⟩ := hpurpose
  have hhistory := hinv.prepared funding hfunding hstage
  refine ⟨?_, ?_⟩
  · exact Option.some.inj (hattempt.handoff.symm.trans (hinv.initial hhistory))
  · rintro ⟨coin', hcoin', hne⟩
    cases hcoin.symm.trans hcoin'
    exact hne hhistory

theorem moves_completeFundingRecovery (h : WalletInv s) {status : CoinStatus P} {u : Unit}
    (hok : WalletState.completeFundingRecovery status s = .ok u s') :
    Moves s (some status) none s' := by
  obtain ⟨nextCapability, secret, attempt, response, coin, recovery, funding, hp, _, hcoin, _, _, _,
    _, _, _, rfl⟩ := completeFundingRecovery_ok.1 hok
  obtain ⟨coin', hcoin', metadata, hattempt, _⟩ := h.recovery _ hp
  cases hcoin.symm.trans hcoin'
  refine .secured nextCapability secret attempt response (signing_eq_some.2 hp)
    (signing_of_idle rfl) ⟨_, rfl, by simp [securedCoin]⟩ ?_
  rw [held_of_coin rfl rfl rfl]
  exact congrArg (fun coinId => some (Held.mk coinId _ _)) hattempt.coinId.symm

theorem moves_beginTransfer (h : WalletInv s) {network : NetworkId} {request : TransferRequest}
    {status : CoinStatus P} {observed : ObservedFunding P}
    {minimumConfirmations minimumReactionBlocks : Nat} {signRequest : SignRequest P}
    (hok : WalletState.beginTransfer network request status observed minimumConfirmations
      minimumReactionBlocks s = .ok signRequest s') :
    Moves s (some status) (some request) s' := by
  obtain ⟨hpending, _, coin, metadata, capability, handoff, withdrawal, delay, hash, key, prepared,
    template, hcoin, hfits, _, _, _, hprepare, _, _, rfl⟩ := beginTransfer_ok.1 hok
  obtain ⟨⟨_, hid, hkey⟩, hauth, _, _, _, _, _, _, rfl, rfl⟩ := prepareRecovery_eq_ok.1 hprepare
  have hkeys := (h.coin coin hcoin).metadata_keys metadata hfits.metadata_eq
  refine .journaled (signing_of_idle hpending) rfl status _ _ rfl rfl ?_ hid ?_ hauth rfl
  · rintro _ ⟨⟩
    rfl
  · intro coin' hcoin'
    cases hcoin.symm.trans hcoin'
    rw [← hkeys]
    exact hkey

/-- Every operation that is given no answer of the enclave makes one of the moves. -/
theorem moves (h : WalletInv s) (op : Operation P) (hop : op.response = none) :
    Moves s op.status op.requested (s.after op) := by
  cases op with
  | beginRegistration draws =>
    refine .of_update (beginRegistration_atomic draws s) fun _ _ hok => ?_
    obtain ⟨hcoin, _, ⟨_, _, _, _, rfl, _⟩ | ⟨hp, rfl, _⟩⟩ := beginRegistration_ok hok
    · exact .quiet rfl rfl
    · exact .quiet rfl (signing_of_idle hp).symm
  | completeRegistration status =>
    refine .of_update (completeRegistration_atomic status s) fun _ _ hok => ?_
    obtain ⟨hcoin, _, _, _, _, _, _, rfl⟩ := completeRegistration_ok hok
    exact .received hcoin (signing_of_idle rfl) _ rfl
  | beginFunding =>
    exact .of_update (by apply beginFunding_atomic) fun _ _ hok => moves_beginFunding hok
  | recordSignResponse response => cases hop
  | completeFundingRecovery status =>
    exact .of_update (completeFundingRecovery_atomic status s)
      fun _ _ hok => h.moves_completeFundingRecovery hok
  | markFundingBroadcast txid =>
    exact .of_update (markFundingBroadcast_atomic txid s)
      fun _ _ hok => moves_markFundingBroadcast hok
  | beginTransferRequest =>
    refine .of_update (by apply beginTransferRequest_atomic) fun _ _ hok => ?_
    obtain ⟨_, _, _, _, ⟨_, _, _, rfl⟩ | ⟨_, _, _, rfl⟩⟩ := beginTransferRequest_ok hok
    · exact .quiet rfl rfl
    · exact .quiet rfl rfl
  | beginTransfer =>
    exact .of_update (by apply beginTransfer_atomic) fun _ _ hok => h.moves_beginTransfer hok
  | completeTransfer draws status =>
    refine .of_update (completeTransfer_atomic draws status s) fun _ _ hok => ?_
    have htransferred := completeTransfer_transferred hok
    obtain ⟨request, attempt, response, _, _, _, _, _, _, hp, _⟩ := completeTransfer_ok.1 hok
    exact .transferred request attempt response (signing_eq_some.2 hp) htransferred
  | acceptTransfer =>
    refine .of_update (by apply acceptTransfer_atomic) fun _ _ hok => ?_
    obtain ⟨_, _, ⟨_, _, _, _, _, rfl⟩ | ⟨hcoin, coin, haccept, _, rfl⟩⟩ := acceptTransfer_ok.1 hok
    · exact .quiet rfl rfl
    · exact .received hcoin (signing_of_idle (acceptCoin_eq_ok.1 haccept).1) coin rfl

end WalletInv

/-! ## The capabilities -/

namespace WalletState

variable {s : WalletState P}

/-- What an update may do to the capabilities: keep some of them and add the one that it draws. -/
def Draws (s : WalletState P) (drawn : Option Capability) (s' : WalletState P) : Prop :=
  ∀ c ∈ s'.capabilities, c ∈ s.capabilities ∨ drawn = some c

theorem Draws.of_update {drawn : Option Capability} {α : Type}
    {x : Update String (WalletState P) α} (hatomic : x.Atomic s)
    (hok : ∀ a s', x s = .ok a s' → Draws s drawn s') : Draws s drawn (x.stateAfter s) := by
  rcases hatomic.stateAfter_eq with ⟨a, ha⟩ | hs
  · exact hok a _ ha
  · rw [hs]
    exact fun _ hc => .inl hc

/-- A capability that the wallet did not keep before was drawn by the operation. -/
theorem draws_after (s : WalletState P) (op : Operation P) : Draws s op.drawn (s.after op) := by
  cases op with
  | beginRegistration draws =>
    refine .of_update (beginRegistration_atomic draws s) fun _ _ hok c hc => ?_
    obtain ⟨_, _, ⟨_, _, _, _, rfl, _⟩ | ⟨_, rfl, _⟩⟩ := beginRegistration_ok hok
    · exact .inl hc
    · simp only [mem_capabilities] at hc ⊢
      simp_all [Operation.drawn]
  | completeRegistration status =>
    refine .of_update (completeRegistration_atomic status s) fun _ _ hok c hc => ?_
    obtain ⟨hcoin, _, _, _, _, hp, _, rfl⟩ := completeRegistration_ok hok
    simp only [mem_capabilities] at hc ⊢
    simp_all [registeredCoin]
    grind
  | beginFunding =>
    refine .of_update (by apply beginFunding_atomic) fun _ _ hok c hc => ?_
    obtain ⟨_, _, _, _, _, hcoin, _, _, _, _, _, rfl⟩ := beginFunding_ok hok
    simp only [mem_capabilities] at hc ⊢
    simp_all [preparedCoin, preparedRecovery, Operation.drawn]
    grind
  | recordSignResponse response =>
    refine .of_update (recordSignResponse_atomic response s) fun _ _ hok c hc => ?_
    obtain ⟨_, _, ⟨hp, rfl⟩ | ⟨_, rfl⟩⟩ := recordSignResponse_ok.1 hok
    · simp only [mem_capabilities] at hc ⊢
      simp_all
    · exact .inl hc
  | completeFundingRecovery status =>
    refine .of_update (completeFundingRecovery_atomic status s) fun _ _ hok c hc => ?_
    obtain ⟨_, _, _, _, _, _, _, hp, _, _, _, _, _, _, _, _, rfl⟩ :=
      completeFundingRecovery_ok.1 hok
    simp only [mem_capabilities] at hc ⊢
    simp_all [securedCoin]
    grind
  | markFundingBroadcast txid =>
    refine .of_update (markFundingBroadcast_atomic txid s) fun _ _ hok c hc => ?_
    obtain ⟨_, _, _, rfl⟩ := markFundingBroadcast_ok.1 hok
    simp only [mem_capabilities] at hc ⊢
    simp_all [broadcastCoin]
  | beginTransferRequest =>
    refine .of_update (by apply beginTransferRequest_atomic) fun _ _ hok c hc => ?_
    obtain ⟨_, _, _, _, ⟨_, _, _, rfl⟩ | ⟨_, _, _, rfl⟩⟩ := beginTransferRequest_ok hok
    · exact .inl hc
    · simp only [mem_capabilities] at hc ⊢
      simp_all [Operation.drawn, incomingTransfer]
  | beginTransfer =>
    refine .of_update (by apply beginTransfer_atomic) fun _ _ hok c hc => ?_
    obtain ⟨_, _, _, _, _, _, _, _, _, _, _, _, _, _, _, _, _, _, _, _, rfl⟩ := beginTransfer_ok.1 hok
    simp only [mem_capabilities] at hc ⊢
    simp_all [preparedRecovery]
  | completeTransfer draws status =>
    refine .of_update (completeTransfer_atomic draws status s) fun _ _ hok c hc => ?_
    obtain ⟨_, _, _, _, _, _, _, _, _, _, _, _, _, _, _, _, _, _, _, _, _, _, rfl⟩ :=
      completeTransfer_ok.1 hok
    simp only [mem_capabilities] at hc ⊢
    simp_all [transferredCoin]
  | acceptTransfer =>
    refine .of_update (by apply acceptTransfer_atomic) fun _ _ hok c hc => ?_
    obtain ⟨_, _, ⟨_, _, _, _, _, rfl⟩ | ⟨_, _, haccept, _, rfl⟩⟩ := acceptTransfer_ok.1 hok
    · exact .inl hc
    · obtain ⟨_, incoming, payload, hi, _, _, _, rfl⟩ := acceptCoin_eq_ok.1 haccept
      simp only [mem_capabilities] at hc ⊢
      simp_all [acceptedCoin]

end WalletState

end Tinylayer
