import Tinylayer.Wallet.Proofs.LadderProofs
import Tinylayer.Wallet.Proofs.TransferProofs

/-!
# Proofs: resuming a transfer

`validate_pending_transfer` makes the checks of `begin_transfer` again before a journaled request is
sent once more, unless the enclave has carried it out already.
-/

namespace Tinylayer

variable {P : Platform}

open WalletState

@[simp] theorem attemptUncommitted_eq_true {status : CoinStatus P} {attempt : RecoveryAttempt P} :
    attemptUncommitted status attempt = true ↔
      status.signatureCount = attempt.expectedSignatureCount ∧
      status.authorization = authorization attempt.request.coinId
        (capabilityHash attempt.request.currentCapability) attempt.request.currentHandoff :=
  decide_eq_true_iff

theorem attemptCommitted_eq_ok {status : CoinStatus P} {attempt : RecoveryAttempt P} {b : Bool} :
    attemptCommitted status attempt = .ok b ↔
      attempt.expectedSignatureCount + 1 ≤ u64Max ∧
      decide (status.signatureCount = attempt.expectedSignatureCount + 1) = b := by
  simp only [attemptCommitted, Except.bind_eq_ok, Except.context_eq_ok, checkedAdd_eq_some,
    Except.pure_eq_ok]
  constructor
  · rintro ⟨_, ⟨hmax, rfl⟩, rfl⟩
    exact ⟨hmax, rfl⟩
  · rintro ⟨hmax, rfl⟩
    exact ⟨_, ⟨hmax, rfl⟩, rfl⟩

namespace WalletState

/-- What `validate_pending_transfer` checks before a request that was not answered is sent again. -/
structure Resumable (coin : WalletCoin P) (metadata : CoinMetadata P) (request : TransferRequest)
    (attempt : RecoveryAttempt P) (status : CoinStatus P) (observed : ObservedFunding P)
    (minimumConfirmations minimumReactionBlocks : Nat) : Prop where
  uncommitted : attemptUncommitted status attempt = true
  funding : verifyObservedFunding metadata observed minimumConfirmations = .ok ()
  capability_eq : coin.currentCapability = some attempt.request.currentCapability
  handoff_eq : coin.currentHandoff = some attempt.request.currentHandoff
  history : ∃ withdrawal, ownedWithdrawalKey coin = .ok withdrawal ∧
    verifyHistory metadata status coin.clientSecret attempt.request.currentCapability
      attempt.request.currentHandoff (secretXonly withdrawal) observed.confirmations
      coin.history = .ok ()
  count : attempt.expectedSignatureCount = coin.history.length
  delay : nextDelay coin.history = .ok attempt.delayBlocks
  margin : requireReactionMargin observed.confirmations attempt.delayBlocks
    (max minimumReactionBlocks request.minReactionBlocks) = .ok ()

theorem validatePendingTransfer_eq_ok {s : WalletState P} {request : TransferRequest}
    {attempt : RecoveryAttempt P}
    (hpending : s.pending = some (.recovery ⟨.transfer request, .prepared attempt⟩))
    {status : CoinStatus P} {observed : ObservedFunding P}
    {minimumConfirmations minimumReactionBlocks : Nat} {u : Unit} :
    s.validatePendingTransfer status observed minimumConfirmations minimumReactionBlocks = .ok u ↔
      ∃ coin metadata, s.coin = some coin ∧ s.validateVersion = .ok () ∧
        FitsCoin request metadata.network coin metadata ∧ verifyStatus coin.keys status = .ok () ∧
        (attemptCommitted status attempt = .ok true ∨
          attemptCommitted status attempt = .ok false ∧
          Resumable coin metadata request attempt status observed minimumConfirmations
            minimumReactionBlocks) := by
  unfold validatePendingTransfer
  simp only [hpending, Except.bind_eq_ok, Except.context_eq_ok, exists_unit, Client.lift_eq_ok,
    validateOutgoingTransferRequest_eq_ok]
  constructor
  · rintro ⟨coin, hcoin, metadata, hmetadata, ⟨hversion, coin', metadata', hcoin', hfits⟩, hstatus,
      committed, hcommitted, h⟩
    cases hcoin.symm.trans hcoin'
    cases hmetadata.symm.trans hfits.metadata_eq
    refine ⟨coin, metadata, hcoin, hversion, hfits, hstatus, ?_⟩
    cases committed with
    | true => exact Or.inl hcommitted
    | false =>
      simp only [Bool.false_eq_true, if_false, Except.bind_eq_ok, Except.ensure_eq_ok, exists_unit,
        Except.context_eq_ok, Client.lift_eq_ok] at h
      obtain ⟨huncommitted, hfunding, _, hcapability, _, hhandoff, ⟨rfl, rfl⟩, withdrawal,
        hwithdrawal, hhistory, hcount, _, hdelay, rfl, hmargin⟩ := h
      exact Or.inr ⟨hcommitted, huncommitted, hfunding, hcapability, hhandoff,
        ⟨withdrawal, hwithdrawal, hhistory⟩, hcount, hdelay, hmargin⟩
  · rintro ⟨coin, metadata, hcoin, hversion, hfits, hstatus, hcommitted | ⟨hcommitted, h⟩⟩
    · exact ⟨coin, hcoin, metadata, hfits.metadata_eq, ⟨hversion, coin, metadata, hcoin, hfits⟩,
        hstatus, true, hcommitted, rfl⟩
    · refine ⟨coin, hcoin, metadata, hfits.metadata_eq, ⟨hversion, coin, metadata, hcoin, hfits⟩,
        hstatus, false, hcommitted, ?_⟩
      obtain ⟨withdrawal, hwithdrawal, hhistory⟩ := h.history
      simp only [Bool.false_eq_true, if_false, Except.bind_eq_ok, Except.ensure_eq_ok, exists_unit,
        Except.context_eq_ok, Client.lift_eq_ok]
      exact ⟨h.uncommitted, h.funding, _, h.capability_eq, _, h.handoff_eq, ⟨rfl, rfl⟩, withdrawal,
        hwithdrawal, hhistory, h.count, _, h.delay, rfl, h.margin⟩

end WalletState

/-- A history that a coin keeps is short. -/
theorem CoinInv.length_le {coin : WalletCoin P} (h : CoinInv coin) : coin.history.length ≤ 6554 := by
  cases hm : coin.metadata with
  | none =>
    rw [(h.unfunded.1 hm).2]
    exact Nat.zero_le _
  | some metadata =>
    have hrec := h.recoveries metadata hm
    have hver : VerifiedHistory metadata 0 coin.history := by
      refine ⟨hrec, h.ladder, fun recovery hrecovery => ?_⟩
      have := (hrec recovery hrecovery).terms.delay_ne_zero
      omega
    exact hver.length_le

/-- An attempt asks for what `prepare_recovery` would ask for. -/
theorem AttemptInv.request_eq {coin : WalletCoin P} {metadata : CoinMetadata P}
    {attempt : RecoveryAttempt P} (h : AttemptInv coin metadata attempt)
    (hkeys : metadata.keys = coin.keys) :
    attempt.request = recoveryRequest metadata attempt.request.currentCapability
      attempt.request.currentHandoff attempt.request.nextCapabilityHash attempt.request.sighash := by
  have hid := h.coinId
  rw [← hkeys] at hid
  rw [recoveryRequest, ← hid]

/-- A journaled transfer may be resumed exactly when it could be started anew, and then the same
request would be journaled again. -/
theorem WalletInv.resume_iff {s : WalletState P} (h : WalletInv s) {request : TransferRequest}
    {attempt : RecoveryAttempt P}
    (hpending : s.pending = some (.recovery ⟨.transfer request, .prepared attempt⟩))
    {coin : WalletCoin P} {metadata : CoinMetadata P} (hcoin : s.coin = some coin)
    (hmetadata : coin.metadata = some metadata) {status : CoinStatus P}
    (huncommitted : attemptCommitted status attempt ≠ .ok true) (observed : ObservedFunding P)
    (minimumConfirmations minimumReactionBlocks : Nat) :
    (s.validatePendingTransfer status observed minimumConfirmations minimumReactionBlocks = .ok () ↔
      WalletState.beginTransfer metadata.network request status observed minimumConfirmations
        minimumReactionBlocks { s with pending := none } = .ok attempt.request s) ∧
    ∀ signRequest s', WalletState.beginTransfer metadata.network request status observed
        minimumConfirmations minimumReactionBlocks { s with pending := none } =
          .ok signRequest s' → signRequest = attempt.request ∧ s' = s := by
  have hinv := h.coin coin hcoin
  obtain ⟨coin', hcoin', metadata', hattempt, hfits, hhash, hkey, hdelay, hsize⟩ :=
    h.recovery _ hpending
  cases hcoin.symm.trans hcoin'
  cases hmetadata.symm.trans hattempt.metadata_eq
  change AttemptInv coin metadata attempt at hattempt
  change nextDelay coin.history = .ok attempt.delayBlocks at hdelay
  change request.parseNextCapabilityHash P = .ok attempt.request.nextCapabilityHash at hhash
  change request.withdrawalKey P = .ok attempt.prepared.withdrawalXonlyPubkey at hkey
  have hkeys := hinv.metadata_keys metadata hmetadata
  have hrequest := hattempt.request_eq hkeys
  have hsecret : P.xOnlyPublicKey coin.clientSecret = metadata.keys.clientPubkey :=
    hinv.secret.trans (congrArg (·.clientPubkey) hkeys.symm)
  have hout := hattempt.outgoing hinv
  have hprepared : preparedRecovery (.transfer request) attempt.expectedSignatureCount
      attempt.delayBlocks attempt.request attempt.prepared =
      .recovery ⟨.transfer request, .prepared attempt⟩ := rfl
  have hsame : { { s with pending := none } with pending := some (preparedRecovery (.transfer request)
      attempt.expectedSignatureCount attempt.delayBlocks attempt.request attempt.prepared) } = s := by
    rw [hprepared, ← hpending]
  refine ⟨⟨fun hvalid => ?_, fun hbegin => ?_⟩, fun signRequest s' hbegin => ?_⟩
  · -- what was checked again is what `begin_transfer` checks; the rest is in the journal
    obtain ⟨coin', metadata', hcoin', hversion, hfits', hstatus, hc | ⟨_, hresume⟩⟩ :=
      (validatePendingTransfer_eq_ok hpending).1 hvalid
    · exact absurd hc huncommitted
    cases hcoin.symm.trans hcoin'
    cases hmetadata.symm.trans hfits'.metadata_eq
    obtain ⟨withdrawal, hwithdrawal, hhistory⟩ := hresume.history
    obtain ⟨hlive, _, ⟨hauth, hcount, _⟩, _, _⟩ := verifyHistory_eq_ok.1 hhistory
    obtain ⟨_, hmargin⟩ := requireReactionMargin_eq_ok.1 hresume.margin
    refine beginTransfer_ok.2 ⟨rfl, hversion, coin, metadata, attempt.request.currentCapability,
      attempt.request.currentHandoff, withdrawal, attempt.delayBlocks,
      attempt.request.nextCapabilityHash, attempt.prepared.withdrawalXonlyPubkey, attempt.prepared,
      templateRecovery metadata attempt.prepared.withdrawalXonlyPubkey attempt.delayBlocks, hcoin,
      hfits, ⟨hout, hresume.funding, hresume.capability_eq, hresume.handoff_eq, hwithdrawal, hhistory,
      hdelay, hresume.margin⟩, hhash, hkey, prepareRecovery_eq_ok.2 ⟨hlive, hauth, hattempt.next,
      by omega, hsecret, hattempt.terms, attempt.request.sighash, hattempt.sighash, hrequest,
      hattempt.prepared⟩, ?_, hsize, ?_⟩
    · rw [hattempt.prepared]
      rfl
    · rw [hcount, ← hresume.count]
      exact hsame.symm
  · obtain ⟨_, hversion, coin', metadata', capability, handoff, withdrawal, delay, hash, key,
      prepared, template, hcoin', hfits', hsend, _⟩ := beginTransfer_ok.1 hbegin
    cases hcoin.symm.trans hcoin'
    cases hmetadata.symm.trans hfits'.metadata_eq
    cases hsend.capability_eq.symm.trans hattempt.capability
    cases hsend.handoff_eq.symm.trans hattempt.handoff
    cases hsend.delay.symm.trans hdelay
    obtain ⟨hlive, _, ⟨hauth, hcount, _⟩, _, _⟩ := verifyHistory_eq_ok.1 hsend.history
    rw [hkeys] at hlive hauth
    have hexpected : attempt.expectedSignatureCount = coin.history.length := hattempt.count
    have hlength := hinv.length_le
    have hmax : attempt.expectedSignatureCount + 1 ≤ u64Max := by
      simp only [u64Max]
      omega
    refine (validatePendingTransfer_eq_ok hpending).2 ⟨coin, metadata, hcoin, hversion, hfits,
      verifyStatus_eq_ok.2 hlive, Or.inr ⟨attemptCommitted_eq_ok.2 ⟨hmax, ?_⟩, ?_⟩⟩
    · exact decide_eq_false (by omega)
    · refine { uncommitted := attemptUncommitted_eq_true.2 ⟨hcount.trans hexpected.symm, ?_⟩,
               funding := hsend.funding, capability_eq := hattempt.capability,
               handoff_eq := hattempt.handoff, history := ⟨withdrawal, hsend.withdrawal_eq, hsend.history⟩,
               count := hexpected, delay := hdelay, margin := hsend.margin }
      rw [hauth, hattempt.coinId]
  · obtain ⟨_, _, coin', metadata', capability, handoff, withdrawal, delay, hash, key, prepared,
      template, hcoin', hfits', hsend, hhash', hkey', hprepare, _, _, rfl⟩ := beginTransfer_ok.1 hbegin
    cases hcoin.symm.trans hcoin'
    cases hmetadata.symm.trans hfits'.metadata_eq
    cases hsend.capability_eq.symm.trans hattempt.capability
    cases hsend.handoff_eq.symm.trans hattempt.handoff
    cases hsend.delay.symm.trans hdelay
    cases hhash'.symm.trans hhash
    cases hkey'.symm.trans hkey
    obtain ⟨_, _, _, _, _, _, sighash, hsighash, hsigned, hunsigned⟩ := prepareRecovery_eq_ok.1 hprepare
    cases hsighash.symm.trans hattempt.sighash
    obtain ⟨_, _, ⟨_, hcount, _⟩, _, _⟩ := verifyHistory_eq_ok.1 hsend.history
    have heq : signRequest = attempt.request := hsigned.trans hrequest.symm
    refine ⟨heq, ?_⟩
    rw [hunsigned, heq, ← hattempt.prepared, hcount,
      ← show attempt.expectedSignatureCount = coin.history.length from hattempt.count]
    exact hsame

/-- A journaled transfer that the enclave has not carried out may be resumed exactly when the same
transfer could be started anew from the state without the journal, and that would journal the same
request. -/
theorem resumeTransfer_iff_begin (hsecret : P.SecretCodec) (ops : List (Operation P))
    (request : TransferRequest) (attempt : RecoveryAttempt P)
    (hpending : (empty.run ops).pending =
      some (.recovery ⟨.transfer request, .prepared attempt⟩))
    (status : CoinStatus P) (observed : ObservedFunding P)
    (minimumConfirmations minimumReactionBlocks : Nat)
    (huncommitted : attemptCommitted status attempt ≠ .ok true) :
    ∃ coin metadata, (empty.run ops).coin = some coin ∧ coin.metadata = some metadata ∧
      ((empty.run ops).validatePendingTransfer status observed minimumConfirmations
          minimumReactionBlocks = .ok () ↔
        ∃ signRequest s', beginTransfer metadata.network request status observed
          minimumConfirmations minimumReactionBlocks { empty.run ops with pending := none } =
            .ok signRequest s') ∧
      ∀ signRequest s', beginTransfer metadata.network request status observed
          minimumConfirmations minimumReactionBlocks { empty.run ops with pending := none } =
            .ok signRequest s' → signRequest = attempt.request ∧ s' = empty.run ops := by
  have h := WalletInv.reachable hsecret ops
  obtain ⟨coin, hcoin, metadata, hattempt, _⟩ := h.recovery _ hpending
  obtain ⟨hiff, hsame⟩ := h.resume_iff hpending hcoin hattempt.metadata_eq huncommitted observed
    minimumConfirmations minimumReactionBlocks
  refine ⟨coin, metadata, hcoin, hattempt.metadata_eq, hiff.trans ⟨?_, ?_⟩, hsame⟩
  · exact fun hbegin => ⟨_, _, hbegin⟩
  · rintro ⟨signRequest, s', hbegin⟩
    obtain ⟨rfl, rfl⟩ := hsame signRequest s' hbegin
    exact hbegin

section Second

open Symbolic

/-- The sender has journaled the transfer. -/
def sending : List (Operation platform) :=
  broadcasting ++ [.beginTransfer .regtest received.request (liveStatus (bytes 4) (bytes 11) 1)
    (seen 3) 1 10]

theorem resumeTransfer_iff_begin_sending : ∃ coin metadata,
    (empty.run sending).coin = some coin ∧ coin.metadata = some metadata ∧
    ((empty.run sending).validatePendingTransfer (liveStatus (bytes 4) (bytes 11) 1) (seen 5) 1 10 =
        .ok () ↔
      ∃ signRequest s', beginTransfer metadata.network received.request
        (liveStatus (bytes 4) (bytes 11) 1) (seen 5) 1 10 { empty.run sending with pending := none } =
          .ok signRequest s') := by
  obtain ⟨_, s₁, hbegun⟩ := beginTransfer_broadcasting
  have hrun : empty.run sending = s₁ := by
    rw [sending, run_concat, WalletState.after, Update.stateAfter, hbegun.begun]
  have hpending := hbegun.pending
  rw [← hrun] at hpending
  obtain ⟨coin, metadata, hcoin, hmetadata, hiff, _⟩ := resumeTransfer_iff_begin secretCodec sending
    received.request _ hpending (liveStatus (bytes 4) (bytes 11) 1) (seen 5) 1 10 (by decide +kernel)
  exact ⟨coin, metadata, hcoin, hmetadata, hiff⟩

end Second

end Tinylayer
