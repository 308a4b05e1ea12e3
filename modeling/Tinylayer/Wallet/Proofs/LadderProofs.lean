import Tinylayer.Lib.Descent
import Tinylayer.Wallet.Proofs.HistoryProofs

/-!
# Proofs: the two verifiers of a history

What `verify_history` accepts, in closed form, and that `verify_public_history` accepts the same
histories.
-/

namespace Tinylayer

variable {P : Platform}

/-- A ladder falls by `DELAY_STEP`. -/
theorem ladder_iff_descends {history : List (SignedRecovery P)} :
    Ladder history ↔ Descent.Descends (·.delayBlocks) delayStep history := Iff.rfl

/-- A verified history is a ladder whose last delay is in the future. -/
theorem verifiedHistory_iff_last {metadata : CoinMetadata P} {confirmations : Nat}
    {history : List (SignedRecovery P)} :
    VerifiedHistory metadata confirmations history ↔
      (∀ recovery ∈ history, VerifiedRecovery metadata recovery) ∧ Ladder history ∧
        ∀ latest ∈ history.getLast?, confirmations < latest.delayBlocks := by
  constructor
  · rintro ⟨hrec, hladder, himm⟩
    exact ⟨hrec, hladder, fun latest hlatest => himm latest (List.mem_of_getLast? hlatest)⟩
  · rintro ⟨hrec, hladder, hlast⟩
    refine ⟨hrec, hladder, ?_⟩
    cases hl : history.getLast? with
    | none =>
      rw [List.getLast?_eq_none_iff.1 hl]
      simp
    | some latest => exact hladder.immature hl (hlast latest hl)

/-- A verified history is so short that its delays fit in a `u16`. -/
theorem VerifiedHistory.length_le {metadata : CoinMetadata P} {confirmations : Nat}
    {history : List (SignedRecovery P)} (h : VerifiedHistory metadata confirmations history) :
    history.length ≤ 6554 := by
  cases history with
  | nil => exact Nat.zero_le _
  | cons first rest =>
    have hlast := Descent.descends_cons_iff.1 (ladder_iff_descends.1 h.ladder) rest.length
      (Nat.lt_succ_self _)
    have hfirst := (h.recoveries first List.mem_cons_self).terms.delay_lt
    have hpos := h.immature _ (List.getElem_mem (Nat.lt_succ_self rest.length))
    simp only [delayStep, List.length_cons] at hlast ⊢
    omega

/-- `verify_history` accepts exactly the verified recoveries whose delays fall by `DELAY_STEP` down
to a last one that is in the future. Hence the delays are bounded, there are few of them, and at any
time the recoveries that have matured are the newest ones. -/
theorem verifyHistory_descending (metadata : CoinMetadata P) (status : CoinStatus P)
    (clientSecret : P.SecretKey) (capability : Capability) (handoff : HandoffToken)
    (expected : P.XOnlyPublicKey) (confirmations : Nat) (history : List (SignedRecovery P)) :
    (verifyHistory metadata status clientSecret capability handoff expected confirmations history =
        .ok () ↔
      verifyStatus metadata.keys status = .ok () ∧
      clientXonly clientSecret = metadata.keys.clientPubkey ∧
      status.authorization =
        authorization metadata.keys.coinId (capabilityHash capability) handoff ∧
      status.signatureCount = history.length ∧ 0 < history.length ∧
      (∀ latest ∈ history.getLast?, latest.withdrawalXonlyPubkey = expected) ∧
      (∀ recovery ∈ history, verifyRecovery metadata recovery = .ok ()) ∧
      (∀ first ∈ history.head?, ∀ i (hi : i < history.length),
        delayStep * i ≤ first.delayBlocks ∧
          history[i].delayBlocks = first.delayBlocks - delayStep * i) ∧
      ∀ latest ∈ history.getLast?, confirmations < latest.delayBlocks) ∧
    (verifyHistory metadata status clientSecret capability handoff expected confirmations history =
        .ok () →
      (∀ recovery ∈ history, 1 ≤ recovery.delayBlocks ∧ recovery.delayBlocks ≤ 65535 ∧
        confirmations < recovery.delayBlocks) ∧
      history.length ≤ 6554 ∧
      (∀ later, (history.filter fun recovery => recovery.delayBlocks ≤ later) <:+ history) ∧
      ∀ i j (_ : i < j) (hj : j < history.length),
        history[j].delayBlocks + delayStep ≤ history[i].delayBlocks) := by
  constructor
  · rw [verifyHistory_eq_ok, verifiedHistory_iff_last, ladder_iff_descends, Descent.descends_iff,
      verifyStatus_eq_ok]
    simp only [verifyRecovery_eq_ok, clientXonly]
    constructor
    · rintro ⟨hstatus, hsecret, ⟨hauth, hcount, hlast⟩, ⟨hrec, hladder, hfuture⟩, hne⟩
      refine ⟨hstatus, hsecret, hauth, hcount, List.length_pos_of_ne_nil hne, ?_, hrec, hladder,
        hfuture⟩
      intro latest hlatest
      rw [Option.mem_def.1 hlatest] at hlast
      exact Option.some.inj hlast
    · rintro ⟨hstatus, hsecret, hauth, hcount, hlength, hlast, hrec, hladder, hfuture⟩
      have hne := List.ne_nil_of_length_pos hlength
      refine ⟨hstatus, hsecret, ⟨hauth, hcount, ?_⟩, ⟨hrec, hladder, hfuture⟩, hne⟩
      have hlatest := List.getLast?_eq_some_getLast hne
      rw [hlatest, Option.map_some, hlast _ hlatest]
  · intro h
    obtain ⟨_, _, _, hver, _⟩ := verifyHistory_eq_ok.1 h
    have hdescends := ladder_iff_descends.1 hver.ladder
    refine ⟨fun recovery hrecovery => ?_, hver.length_le, hdescends.filter_suffix,
      fun i j hij hj => hdescends.gap hij hj⟩
    have hterms := (hver.recoveries recovery hrecovery).terms
    have hlt := hterms.delay_lt
    have hpos := hterms.delay_ne_zero
    have himm := hver.immature recovery hrecovery
    omega

/-- With secrets that match, the public verifier accepts a history exactly if the private one does
and the last delay leaves the reaction margin; without a margin both accept the same. -/
theorem verifyPublicHistory_iff (metadata : CoinMetadata P) (status : CoinStatus P)
    (history : List (SignedRecovery P)) (confirmations margin : Nat) (clientSecret : P.SecretKey)
    (capability : Capability) (handoff : HandoffToken) (expected : P.XOnlyPublicKey)
    (hsecret : clientXonly clientSecret = metadata.keys.clientPubkey)
    (hauth : status.authorization =
      authorization metadata.keys.coinId (capabilityHash capability) handoff)
    (hlast : ∀ latest ∈ history.getLast?, latest.withdrawalXonlyPubkey = expected) :
    (verifyPublicHistory metadata status history confirmations margin = .ok () ↔
      verifyHistory metadata status clientSecret capability handoff expected confirmations
        history = .ok () ∧
      confirmations + margin ≤ u32Max ∧
      ∃ latest ∈ history.getLast?, confirmations + margin < latest.delayBlocks) ∧
    (verifyPublicHistory metadata status history confirmations 0 = .ok () ↔
      verifyHistory metadata status clientSecret capability handoff expected confirmations
        history = .ok ()) := by
  have hiff : ∀ margin, verifyPublicHistory metadata status history confirmations margin = .ok () ↔
      verifyHistory metadata status clientSecret capability handoff expected confirmations
        history = .ok () ∧
      confirmations + margin ≤ u32Max ∧
      ∃ latest ∈ history.getLast?, confirmations + margin < latest.delayBlocks := by
    intro margin
    rw [verifyPublicHistory_eq_ok, verifyHistory_eq_ok]
    constructor
    · rintro ⟨hstatus, hcount, hver, latest, hlatest, hmax, hlt⟩
      have hne : history ≠ [] := by
        rintro rfl
        cases hlatest
      refine ⟨⟨hstatus, hsecret, ⟨hauth, hcount, ?_⟩, hver, hne⟩, hmax, latest, hlatest, hlt⟩
      rw [hlatest, Option.map_some, hlast latest hlatest]
    · rintro ⟨⟨hstatus, _, ⟨_, hcount, _⟩, hver, _⟩, hmax, latest, hlatest, hlt⟩
      exact ⟨hstatus, hcount, hver, latest, hlatest, hmax, hlt⟩
  refine ⟨hiff margin, (hiff 0).trans ⟨fun h => h.1, fun h => ⟨h, ?_⟩⟩⟩
  -- a delay fits in a `u16`, so the confirmations below it fit in a `u32`
  obtain ⟨_, _, _, hver, hne⟩ := verifyHistory_eq_ok.1 h
  have hlatest := List.getLast?_eq_some_getLast hne
  have hmem := List.getLast_mem hne
  have hlt := hver.immature _ hmem
  have hmax := (hver.recoveries _ hmem).terms.delay_lt
  refine ⟨?_, _, hlatest, hlt⟩
  simp only [u32Max]
  omega

section TwoOwners

open Symbolic

/-- The status of the coin after `callsOfTwo`. -/
def statusOfTwo : CoinStatus platform :=
  ⟨bytes 1, (bytes 9).toList, authorization (bytes 1) (capabilityHash (bytes 2)) (bytes 12), 2⟩

theorem verifyHistory_descending_two :
    (historyOfTwo.filter fun recovery => recovery.delayBlocks ≤ 95) <:+ historyOfTwo :=
  ((verifyHistory_descending coinOfTwo statusOfTwo (bytes 2) (bytes 2) (bytes 12)
    (bytes 5).toList 10 historyOfTwo).2 (by decide +kernel)).2.2.1 95

theorem verifyPublicHistory_iff_two :
    verifyPublicHistory coinOfTwo statusOfTwo historyOfTwo 10 0 = .ok () ↔
      verifyHistory coinOfTwo statusOfTwo (bytes 2) (bytes 2) (bytes 12) (bytes 5).toList 10
        historyOfTwo = .ok () :=
  (verifyPublicHistory_iff coinOfTwo statusOfTwo historyOfTwo 10 7 (bytes 2) (bytes 2) (bytes 12)
    (bytes 5).toList (by decide +kernel) (by decide +kernel) (by rintro _ ⟨⟩; rfl)).2

end TwoOwners

end Tinylayer
