import Tinylayer.Client.Proofs.RecoveryProofs
import Tinylayer.Enclave.Proofs.ChainProofs

/-!
# Proofs: statuses that the signer reported

A status describes the record of its coin after a part of the issuances: its registration and its
signing key are those of every later record, and its authorization is the one that the next
issuance presents. If this issuance answers the request that a client journaled with the status, and
nobody has used the authorization that it sets, it is the latest one, so it can be had again.
-/

namespace Tinylayer.Signer

variable {P : Platform} {LIMIT : Nat}

theorem run_append (σ : Signer P LIMIT) (calls later : List (Call P)) :
    σ.run (calls ++ later) = (σ.run calls).run later := List.foldl_append

theorem registration_append (coinId : CoinId) (σ : Signer P LIMIT) (calls later : List (Call P)) :
    registration coinId σ (calls ++ later) =
      (registration coinId σ calls).or (registration coinId (σ.run calls) later) := by
  induction later using List.reverseRecOn with
  | nil => simp [registration]
  | append_singleton later call ih =>
    rw [← List.append_assoc, registration_concat, ih, registration_concat, run_append, Option.or_assoc]

/-- No call changes the signing key of a coin. -/
theorem signingKey_after {σ : Signer P LIMIT} {coinId : CoinId} {coin : Coin P}
    (hl : σ.coins.lookup coinId = some coin) (call : Call P) :
    ∃ coin', (σ.after call).coins.lookup coinId = some coin' ∧
      coin'.signingKey = coin.signingKey := by
  rcases effect σ call with ⟨hafter, _, _⟩ | ⟨r, _, _, hlookup, hafter⟩ |
    ⟨entry, coin', _, _, hlookup, _, _, hafter⟩
  -- case unchanged
  · exact ⟨coin, by rw [hafter, hl], rfl⟩
  -- case registered
  · have hne : coinId ≠ r.coinId := by
      rintro rfl
      rw [hlookup] at hl
      cases hl
    exact ⟨coin, by rw [hafter, AList.lookup_insert_ne hne, hl], rfl⟩
  -- case advanced
  · by_cases hid : coinId = entry.1.coinId
    · subst hid
      cases hlookup.symm.trans hl
      exact ⟨coin.advance entry.1 entry.2, by rw [hafter, AList.lookup_insert], rfl⟩
    · exact ⟨coin, by rw [hafter, AList.lookup_insert_ne hid, hl], rfl⟩

theorem signingKey_run {σ : Signer P LIMIT} {coinId : CoinId} {coin : Coin P}
    (hl : σ.coins.lookup coinId = some coin) (calls : List (Call P)) :
    ∃ coin', (σ.run calls).coins.lookup coinId = some coin' ∧
      coin'.signingKey = coin.signingKey := by
  induction calls using List.reverseRecOn with
  | nil => exact ⟨coin, hl, rfl⟩
  | append_singleton calls call ih =>
    obtain ⟨coin', hl', hkey⟩ := ih
    obtain ⟨coin'', hl'', hkey'⟩ := signingKey_after hl' call
    exact ⟨coin'', by rw [run_concat, hl''], hkey'.trans hkey⟩

/-- Every issuance was counted without an overflow. -/
theorem issuances_length_le (calls : List (Call P)) (coinId : CoinId) :
    (issuances coinId (new : Signer P LIMIT) calls).length ≤ u64Max := by
  induction calls using List.reverseRecOn with
  | nil => exact Nat.zero_le _
  | append_singleton calls call ih =>
    rw [issuances_concat, List.length_append]
    unfold issuedCoin
    cases hissued : issued ((new : Signer P LIMIT).run calls) call with
    | none => simpa using ih
    | some entry =>
      by_cases hid : entry.1.coinId = coinId
      · subst hid
        obtain ⟨_, coin, hl, _, _, _, hcount, _⟩ := issued_eq_some.1 hissued
        obtain ⟨r, _, hcoin⟩ := (@recorded_run P LIMIT calls entry.1.coinId).of_lookup hl
        rw [hcoin] at hcount
        simpa [Coin.summary] using hcount
      · simpa [hid] using ih

namespace Reported

variable {calls later : List (Call P)} {status : CoinStatus P}

theorem append (h : Reported LIMIT calls status) (later : List (Call P)) :
    Reported LIMIT (calls ++ later) status := by
  obtain ⟨earlier, hprefix, hstatus⟩ := h
  exact ⟨earlier, hprefix.trans (List.prefix_append calls later), hstatus⟩

/-- What a status says about the record of its coin. -/
theorem spec (h : Reported LIMIT calls status) : ∃ request log rest coin,
    registration status.coinId (new : Signer P LIMIT) calls = some request ∧
    issuances status.coinId (new : Signer P LIMIT) calls = log ++ rest ∧
    ((new : Signer P LIMIT).run calls).coins.lookup status.coinId = some coin ∧
    coin = Coin.summary coin.signingKey request (log ++ rest) ∧
    status.signingPubkey = P.xOnlyPublicKey coin.signingKey ∧
    status.authorization = Rotation.key committed (initialAuthorization request) log ∧
    status.signatureCount = log.length := by
  obtain ⟨earlier, ⟨later, rfl⟩, hstatus⟩ := h
  obtain ⟨coin, hl, hcoin⟩ := status_ok.1 hstatus
  obtain ⟨request, hrequest, hsummary⟩ :=
    (@recorded_run P LIMIT earlier status.coinId).of_lookup hl
  obtain ⟨coin', hl', hkey⟩ := signingKey_run hl later
  rw [← run_append] at hl'
  have hrequest' : registration status.coinId (new : Signer P LIMIT) (earlier ++ later) =
      some request := by rw [registration_append, hrequest, Option.some_or]
  obtain ⟨request', hr, hsummary'⟩ :=
    (@recorded_run P LIMIT (earlier ++ later) status.coinId).of_lookup hl'
  cases hrequest'.symm.trans hr
  refine ⟨request, _, _, coin', hrequest', issuances_append .., hl', ?_, ?_, ?_, ?_⟩
  · rw [← issuances_append]
    exact hsummary'
  · rw [hkey, ← hcoin]
    rfl
  · rw [← hcoin, hsummary]
    rfl
  · rw [← hcoin, hsummary]
    rfl

/-- A reported authorization is still the coin's if no signature was issued for it. -/
theorem current (h : Reported LIMIT calls status)
    (hunused : ∀ entry ∈ issuances status.coinId (new : Signer P LIMIT) calls,
      presented entry.1 ≠ status.authorization) :
    ∃ coin, ((new : Signer P LIMIT).run calls).coins.lookup status.coinId = some coin ∧
      coin.authorization = status.authorization := by
  obtain ⟨request, log, rest, coin, hrequest, hlog, hl, hcoin, _, hauth, _⟩ := h.spec
  have hrec := @recorded_run P LIMIT calls status.coinId
  rw [hrequest] at hrec
  obtain ⟨_, hchain, _⟩ := hrec
  rw [hlog] at hchain hunused
  cases rest with
  | nil =>
    refine ⟨coin, hl, ?_⟩
    rw [hcoin, List.append_nil]
    exact hauth.symm
  | cons entry rest =>
    obtain ⟨_, hopens, _⟩ := Rotation.follows_append.1 hchain
    exact absurd (hopens.trans hauth.symm) (hunused entry (by simp))

/-- The answer to the request that presents a reported authorization can be had again, and the live
status confirms it, as long as nobody has used the authorization that the answer sets. -/
theorem answered (h : Reported LIMIT calls status) (hcf : P.CollisionFree)
    (hschnorr : P.SchnorrCorrect) {entry : Issuance P}
    (hfresh : FreshHandoffs (issuances status.coinId (new : Signer P LIMIT) calls))
    (hentry : entry ∈ issuances status.coinId (new : Signer P LIMIT) calls)
    (hauth : status.authorization = presented entry.1)
    (hlast : ∀ e ∈ issuances status.coinId (new : Signer P LIMIT) calls,
      presented e.1 ≠ committed entry) :
    ∃ live, ((new : Signer P LIMIT).run calls).status status.coinId = .ok live ∧
      live.coinId = status.coinId ∧ live.signingPubkey = status.signingPubkey ∧
      verifySignResponse entry.1 status.signatureCount live entry.2 = .ok () ∧
      ∀ draws, sign draws entry.1 ((new : Signer P LIMIT).run calls) =
        .ok entry.2 ((new : Signer P LIMIT).run calls) := by
  obtain ⟨request, log, rest, coin, hrequest, hlog, hl, hcoin, hkey, hkeys, hcount⟩ := h.spec
  have hrec := @recorded_run P LIMIT calls status.coinId
  have hid := hrec.coinId_eq hentry
  have hle := @issuances_length_le P LIMIT calls status.coinId
  rw [hrequest] at hrec
  obtain ⟨_, hchain, key, hlookup, hsigned⟩ := hrec
  cases hl.symm.trans hlookup
  obtain ⟨_, hsignature, _⟩ := hsigned entry hentry
  -- the answer is the latest one
  rw [hlog] at hfresh hentry hlast hchain hle
  have hrest : rest = [entry] := Rotation.Follows.rest_eq
    (hfresh.of_append.nodup hcf) (hfresh.nodup hcf) hchain hentry (hauth.symm.trans hkeys) hlast
  subst hrest
  rw [List.length_append, List.length_singleton] at hle
  have hstatus : ((new : Signer P LIMIT).run calls).status status.coinId =
      .ok ((Coin.summary key request (log ++ [entry])).status status.coinId) :=
    status_ok.2 ⟨_, by rw [hl, hlog], rfl⟩
  refine ⟨_, hstatus, rfl, hkey.symm, verifySignResponse_eq_ok.2 ⟨?_, ⟨hid.symm, ?_, ?_⟩, ?_⟩, ?_⟩
  · omega
  · simp [Coin.status, Coin.summary, hcount]
  · simp [Coin.status, Coin.summary, committed]
  · rw [hsignature]
    exact hschnorr _ _
  · refine fun draws => sign_ok.2 ⟨_, by rw [hid, hl], Or.inl ⟨cached_eq_some.2 ?_, rfl⟩⟩
    simp [Coin.summary, hlog]

end Reported

end Tinylayer.Signer
