import Tinylayer.Enclave.Proofs.ReportProofs

/-!
# Proofs: one call of the signer changes one record

A call changes at most the record of its own coin, and that one only by registering it or by issuing
one signature; what the record says about the latest signature is always right.
-/

namespace Tinylayer.Signer

variable {P : Platform} {LIMIT : Nat}

/-- A successful call leads to the signer after it. -/
theorem after_of_ok {σ σ' : Signer P LIMIT} {call : Call P} {response : Response P}
    (h : handle call.draws call.request σ = .ok response σ') : σ.after call = σ' := by
  simp only [after, h]

/-- How a call changes the record of a coin that has one. -/
theorem record_after {σ : Signer P LIMIT} {coinId : CoinId} {coin : Coin P}
    (hl : σ.coins.lookup coinId = some coin) (call : Call P) :
    ∃ coin', (σ.after call).coins.lookup coinId = some coin' ∧
      coin'.signingKey = coin.signingKey ∧
      (coin' = coin ∨
        coin'.signatureCount = coin.signatureCount + 1 ∧ coin'.last ≠ coin.last) := by
  rcases effect σ call with ⟨hafter, _, _⟩ | ⟨r, _, _, hlookup, hafter⟩ |
    ⟨entry, coin', hissued, _, hlookup, _, _, hafter⟩
  -- case unchanged
  · exact ⟨coin, by rw [hafter, hl], rfl, Or.inl rfl⟩
  -- case registered
  · have hne : coinId ≠ r.coinId := by
      rintro rfl
      rw [hlookup] at hl
      cases hl
    exact ⟨coin, by rw [hafter, AList.lookup_insert_ne hne, hl], rfl, Or.inl rfl⟩
  -- case advanced
  · by_cases hid : coinId = entry.1.coinId
    · subst hid
      cases hlookup.symm.trans hl
      obtain ⟨_, coin', hl', hcached, _⟩ := issued_eq_some.1 hissued
      cases hl.symm.trans hl'
      refine ⟨coin.advance entry.1 entry.2, by rw [hafter, AList.lookup_insert], rfl,
        Or.inr ⟨rfl, fun hlast => ?_⟩⟩
      -- a request that was answered last is not signed anew
      have := cached_eq_some.2 hlast.symm
      rw [hcached] at this
      cases this
    · exact ⟨coin, by rw [hafter, AList.lookup_insert_ne hid, hl], rfl, Or.inl rfl⟩

/-- A call does not touch the record of another coin. -/
theorem lookup_after_ne (σ : Signer P LIMIT) (call : Call P) {coinId : CoinId}
    (hne : coinId ≠ requestCoin call.request) :
    (σ.after call).coins.lookup coinId = σ.coins.lookup coinId := by
  rcases effect σ call with ⟨hafter, _, _⟩ | ⟨r, hreg, _, _, hafter⟩ |
    ⟨entry, coin', hissued, _, _, _, _, hafter⟩
  -- case unchanged
  · rw [hafter]
  -- case registered
  · rw [(registers_eq_some.1 hreg).1] at hne
    rw [hafter]
    exact AList.lookup_insert_ne hne
  -- case advanced
  · rw [(issued_eq_some.1 hissued).1] at hne
    rw [hafter]
    exact AList.lookup_insert_ne hne

/-- Writing to a key that is there keeps the number of entries. -/
theorem length_insert_of_lookup {coins : AList fun _ : CoinId => Coin P} {coinId : CoinId}
    {coin : Coin P} (hl : coins.lookup coinId = some coin) (coin' : Coin P) :
    (coins.insert coinId coin').entries.length = coins.entries.length := by
  have hmem : coinId ∈ coins.entries.keys :=
    AList.mem_keys.1 (AList.lookup_isSome.1 (by rw [hl]; rfl))
  obtain ⟨_, l₁, l₂, _, hentries, hkerase⟩ := List.exists_of_kerase hmem
  rw [AList.entries_insert, hkerase, hentries]
  simp [Nat.add_assoc]

/-- The capacity is never exceeded. -/
theorem length_run_le (calls : List (Call P)) :
    ((new : Signer P LIMIT).run calls).coins.entries.length ≤ LIMIT := by
  induction calls using List.reverseRecOn with
  | nil => exact Nat.zero_le _
  | append_singleton calls call ih =>
    rw [run_concat]
    rcases effect ((new : Signer P LIMIT).run calls) call with ⟨hafter, _, _⟩ |
      ⟨r, hreg, _, hlookup, hafter⟩ | ⟨entry, coin, _, _, hlookup, _, _, hafter⟩
    -- case unchanged
    · rw [hafter]
      exact ih
    -- case registered
    · rw [hafter, AList.entries_insert_of_notMem (AList.lookup_eq_none.1 hlookup)]
      exact (registers_eq_some.1 hreg).2.2
    -- case advanced
    · rw [hafter]
      exact (length_insert_of_lookup hlookup _).trans_le ih

/-- What the record of a coin says about the latest signature. -/
structure Coin.Consistent (coin : Coin P) (coinId : CoinId) : Prop where
  last : coin.last = none ↔ coin.signatureCount = 0
  answered : ∀ request response, coin.last = some (request, response) →
    coin.authorization =
      Tinylayer.authorization coinId request.nextCapabilityHash response.nextHandoff ∧
    request.coinId = coinId ∧
    P.verifySchnorr response.signature request.sighash (P.xOnlyPublicKey coin.signingKey) = true

theorem Recorded.consistent {σ : Signer P LIMIT} {coinId : CoinId}
    {request : Option (RegisterRequest P)} {log : List (Issuance P)}
    (h : Recorded σ coinId request log) (hschnorr : P.SchnorrCorrect) {coin : Coin P}
    (hl : σ.coins.lookup coinId = some coin) : coin.Consistent coinId := by
  cases request with
  | none =>
    rw [h.1] at hl
    cases hl
  | some r =>
    obtain ⟨_, _, key, hkey, hlog⟩ := h
    cases hl.symm.trans hkey
    refine { last := by simp [Coin.summary], answered := ?_ }
    intro request response hlast
    change log.getLast? = some (request, response) at hlast
    obtain ⟨before, rfl⟩ := List.getLast?_eq_some_iff.1 hlast
    obtain ⟨hid, hsignature, _⟩ := hlog (request, response) (by simp)
    change request.coinId = coinId at hid
    refine ⟨?_, hid, ?_⟩
    · simp [Coin.summary, committed, hid]
    · rw [show response.signature = P.signSchnorr key request.sighash from hsignature]
      exact hschnorr _ _

/-- A call that fails changes nothing. A call that succeeds leaves the records of other coins alone,
and keeps every record, with its signing key, unless it issues one signature, which is counted and
becomes the latest. The capacity is never exceeded, and every record agrees with its latest
signature. -/
theorem handle_isolated (hschnorr : P.SchnorrCorrect) (calls : List (Call P)) (call : Call P) :
    (∀ e σ', handle call.draws call.request ((new : Signer P LIMIT).run calls) = .error e σ' →
      σ' = (new : Signer P LIMIT).run calls) ∧
    (∀ response σ', handle call.draws call.request ((new : Signer P LIMIT).run calls) =
        .ok response σ' →
      (∀ coinId, coinId ≠ requestCoin call.request →
        σ'.coins.lookup coinId = ((new : Signer P LIMIT).run calls).coins.lookup coinId) ∧
      ∀ coinId coin, ((new : Signer P LIMIT).run calls).coins.lookup coinId = some coin →
        ∃ coin', σ'.coins.lookup coinId = some coin' ∧ coin'.signingKey = coin.signingKey ∧
          (coin' = coin ∨
            coin'.signatureCount = coin.signatureCount + 1 ∧ coin'.last ≠ coin.last)) ∧
    ((new : Signer P LIMIT).run calls).coins.entries.length ≤ LIMIT ∧
    ∀ coinId coin, ((new : Signer P LIMIT).run calls).coins.lookup coinId = some coin →
      coin.Consistent coinId := by
  refine ⟨fun e σ' h => handle_error h, ?_, length_run_le calls, ?_⟩
  · intro response σ' h
    rw [← after_of_ok h]
    exact ⟨fun coinId hne => lookup_after_ne _ call hne, fun coinId coin hl => record_after hl call⟩
  · intro coinId coin hl
    exact (recorded_run calls coinId).consistent hschnorr hl

section BackAndForth

open Symbolic

theorem handle_isolated_backAndForth :
    ((new : Signer platform 1).run backAndForth).coins.entries.length ≤ 1 ∧
    ∀ coinId coin, ((new : Signer platform 1).run backAndForth).coins.lookup coinId = some coin →
      coin.Consistent coinId :=
  (handle_isolated schnorrCorrect backAndForth ⟨.status (bytes 1), ⟨bytes 9, bytes 13⟩⟩).2.2

end BackAndForth

end Tinylayer.Signer
