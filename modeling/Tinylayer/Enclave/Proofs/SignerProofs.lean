import Tinylayer.Enclave.Run

/-!
# Proofs: one call of the signer

What each operation does when it succeeds, that a failing call changes nothing, and the three
things a call can do to the coin map: nothing, insert a fresh record, advance one record.
-/

namespace Tinylayer

variable {P : Platform} {LIMIT : Nat}

namespace Signer

/-- The record behind a status of the signer. -/
theorem status_ok {σ : Signer P LIMIT} {coinId : CoinId} {status : CoinStatus P} :
    σ.status coinId = .ok status ↔
      ∃ coin, σ.coins.lookup coinId = some coin ∧ coin.status coinId = status := by
  simp [Signer.status]

theorem register_ok {draws : Draws P} {request : RegisterRequest P} {σ σ' : Signer P LIMIT}
    {status : CoinStatus P} :
    register draws request σ = .ok status σ' ↔
      ((∃ coin, σ.coins.lookup request.coinId = some coin ∧ coin.status request.coinId = status ∧
          σ = σ') ∨
        (σ.coins.lookup request.coinId = none ∧ σ.coins.entries.length < LIMIT ∧
          (Coin.registered draws.signingKey request).status request.coinId = status ∧
          ⟨σ.coins.insert request.coinId (Coin.registered draws.signingKey request)⟩ = σ')) := by
  unfold register
  cases h : σ.coins.lookup request.coinId with
  | none => simp [h, and_comm]
  | some coin => simp [h, Signer.status]

theorem register_error {draws : Draws P} {request : RegisterRequest P} {σ σ' : Signer P LIMIT}
    {e : Error} (h : register draws request σ = .error e σ') : σ' = σ := by
  unfold register at h
  cases hl : σ.coins.lookup request.coinId with
  | none => simp [hl] at h; exact h.2.symm
  | some coin => simp [hl] at h; exact h.2.symm

theorem sign_ok {draws : Draws P} {request : SignRequest P} {σ σ' : Signer P LIMIT}
    {response : SignResponse P} :
    sign draws request σ = .ok response σ' ↔
      ∃ coin, σ.coins.lookup request.coinId = some coin ∧
        ((coin.cached request = some response ∧ σ = σ') ∨
          (coin.cached request = none ∧ presented request = coin.authorization ∧
            request.nextCapabilityHash ≠ capabilityHash request.currentCapability ∧
            coin.signatureCount + 1 ≤ u64Max ∧ coin.respond draws request = response ∧
            ⟨σ.coins.insert request.coinId (coin.advance request response)⟩ = σ')) := by
  unfold sign
  simp only [EStateM.bind_eq_ok, EStateM.get_eq_ok, EStateM.of_eq_ok, Except.context_eq_ok]
  constructor
  · rintro ⟨_, _, ⟨rfl, rfl⟩, coin, _, ⟨hl, rfl⟩, h⟩
    refine ⟨coin, hl, ?_⟩
    cases hc : coin.cached request with
    | some r =>
      simp only [hc, EStateM.pure_eq_ok] at h
      exact Or.inl ⟨congrArg some h.1, h.2⟩
    | none =>
      simp only [hc, EStateM.bind_eq_ok, EStateM.of_eq_ok, Except.ensure_eq_ok, exists_unit,
        Except.context_eq_ok, checkedAdd_eq_some, EStateM.set_eq_ok, EStateM.pure_eq_ok] at h
      obtain ⟨_, ⟨ha, rfl⟩, _, ⟨hn, rfl⟩, _, _, ⟨⟨hcount, _⟩, rfl⟩, _, hset, rfl, rfl⟩ := h
      exact Or.inr ⟨rfl, ha, hn, hcount, rfl, hset⟩
  · rintro ⟨coin, hl, h⟩
    refine ⟨σ, σ, ⟨rfl, rfl⟩, coin, σ, ⟨hl, rfl⟩, ?_⟩
    rcases h with ⟨hc, rfl⟩ | ⟨hc, ha, hn, hcount, rfl, rfl⟩
    · simp [hc]
    · unfold presented at ha
      simp [hc, ha, hn, hcount]

theorem sign_error {draws : Draws P} {request : SignRequest P} {σ σ' : Signer P LIMIT}
    {e : Error} (h : sign draws request σ = .error e σ') : σ' = σ := by
  unfold sign at h
  simp only [EStateM.bind_eq_error, EStateM.get_ne_error, EStateM.get_eq_ok,
    EStateM.of_eq_error, EStateM.of_eq_ok, false_or] at h
  obtain ⟨_, _, ⟨rfl, rfl⟩, ⟨_, rfl⟩ | ⟨coin, _, ⟨_, rfl⟩, h⟩⟩ := h
  · rfl
  · cases hc : coin.cached request with
    | some r => simp [hc] at h
    | none =>
      simp only [hc, EStateM.bind_eq_error, EStateM.of_eq_error, EStateM.of_eq_ok, exists_unit,
        EStateM.set_ne_error, EStateM.pure_ne_error, and_false, exists_false, or_false] at h
      rcases h with ⟨_, rfl⟩ | ⟨_, ⟨_, rfl⟩, ⟨_, rfl⟩ | ⟨_, ⟨_, rfl⟩, _, rfl⟩⟩ <;> rfl

/-- A request that does not present the authorization of its coin is turned down. -/
theorem sign_unauthorized {draws : Draws P} {request : SignRequest P} {σ : Signer P LIMIT}
    {coin : Coin P} (hl : σ.coins.lookup request.coinId = some coin)
    (hc : coin.cached request = none) (ha : presented request ≠ coin.authorization) :
    sign draws request σ = .error .unauthorized σ := by
  unfold sign
  unfold presented at ha
  simp only [EStateM.bind_eq_error, EStateM.get_ne_error, EStateM.get_eq_ok, EStateM.of_eq_error,
    EStateM.of_eq_ok, Except.context_eq_ok, false_or]
  refine ⟨σ, σ, ⟨rfl, rfl⟩, Or.inr ⟨coin, σ, ⟨hl, rfl⟩, ?_⟩⟩
  simp [hc, ha, ensure]

/-- A failing call leaves the signer as it was. -/
theorem handle_error {draws : Draws P} {request : Request P} {σ σ' : Signer P LIMIT} {e : Error}
    (h : handle draws request σ = .error e σ') : σ' = σ := by
  cases request with
  | register request => exact register_error (by simpa [handle] using h)
  | status coinId =>
    simp only [handle, EStateM.bind_eq_error, EStateM.get_ne_error, EStateM.get_eq_ok,
      EStateM.map_eq_error, EStateM.of_eq_error, false_or] at h
    obtain ⟨_, _, ⟨rfl, rfl⟩, _, rfl⟩ := h
    rfl
  | sign request => exact sign_error (by simpa [handle] using h)

theorem cached_eq_some {coin : Coin P} {request : SignRequest P} {response : SignResponse P} :
    coin.cached request = some response ↔ coin.last = some (request, response) := by
  unfold Coin.cached
  cases coin.last with
  | none => simp
  | some entry =>
    obtain ⟨last, r⟩ := entry
    by_cases h : last = request
    · simp [h]
    · simp [h]

theorem issued_eq_some {σ : Signer P LIMIT} {call : Call P} {entry : Issuance P} :
    issued σ call = some entry ↔
      call.request = .sign entry.1 ∧ ∃ coin, σ.coins.lookup entry.1.coinId = some coin ∧
        coin.cached entry.1 = none ∧ presented entry.1 = coin.authorization ∧
        entry.1.nextCapabilityHash ≠ capabilityHash entry.1.currentCapability ∧
        coin.signatureCount + 1 ≤ u64Max ∧ coin.respond call.draws entry.1 = entry.2 := by
  obtain ⟨req, resp⟩ := entry
  obtain ⟨request, draws⟩ := call
  unfold issued
  cases request with
  | register r => simp
  | status c => simp
  | sign r =>
    simp only [Request.sign.injEq]
    constructor
    · intro h
      cases hc : σ.cached r with
      | some x => simp [hc] at h
      | none =>
        cases hs : sign draws r σ with
        | error e σ' => simp [hc, hs] at h
        | ok response σ' =>
          simp only [hc, hs, Option.some.injEq, Prod.mk.injEq] at h
          obtain ⟨rfl, rfl⟩ := h
          obtain ⟨coin, hl, ⟨hcc, _⟩ | ⟨hcc, ha, hn, hcount, hr, _⟩⟩ := sign_ok.1 hs
          · simp [cached, hl, hcc] at hc
          · exact ⟨rfl, coin, hl, hcc, ha, hn, hcount, hr⟩
    · rintro ⟨rfl, coin, hl, hcc, ha, hn, hcount, hr⟩
      have hok := sign_ok.2 ⟨coin, hl, Or.inr ⟨hcc, ha, hn, hcount, hr, rfl⟩⟩
      simp only [cached, hl, Option.bind_some, hcc, hok]

theorem registers_eq_some {σ : Signer P LIMIT} {call : Call P} {request : RegisterRequest P} :
    registers σ call = some request ↔
      call.request = .register request ∧ σ.coins.lookup request.coinId = none ∧
        σ.coins.entries.length < LIMIT := by
  obtain ⟨req, draws⟩ := call
  unfold registers
  cases req with
  | status c => simp
  | sign r => simp
  | register r =>
    simp only [Request.register.injEq]
    constructor
    · intro h
      cases hl : σ.coins.lookup r.coinId with
      | some coin => simp [hl] at h
      | none =>
        cases hr : register draws r σ with
        | error e σ' => simp [hl, hr] at h
        | ok status σ' =>
          simp only [hl, hr, Option.some.injEq] at h
          subst h
          rcases register_ok.1 hr with ⟨coin, hc, _⟩ | ⟨_, hlen, _⟩
          · rw [hl] at hc; cases hc
          · exact ⟨rfl, hl, hlen⟩
    · rintro ⟨rfl, hl, hlen⟩
      have hok := (@register_ok P LIMIT draws _ _ _ _).2 (Or.inr ⟨hl, hlen, rfl, rfl⟩)
      simp only [hl, hok]

/-- What a call can do to the signer. -/
inductive Effect (σ : Signer P LIMIT) (call : Call P) : Prop
  /-- The call changes nothing. -/
  | unchanged (hafter : σ.after call = σ) (hissued : issued σ call = none)
      (hregisters : registers σ call = none)
  /-- The call inserts the record of a coin that had none. -/
  | registered (request : RegisterRequest P) (hregisters : registers σ call = some request)
      (hissued : issued σ call = none) (hlookup : σ.coins.lookup request.coinId = none)
      (hafter : σ.after call =
        ⟨σ.coins.insert request.coinId (Coin.registered call.draws.signingKey request)⟩)
  /-- The call issues a signature and advances the record of its coin. -/
  | advanced (entry : Issuance P) (coin : Coin P) (hissued : issued σ call = some entry)
      (hregisters : registers σ call = none)
      (hlookup : σ.coins.lookup entry.1.coinId = some coin)
      (hpresented : presented entry.1 = coin.authorization)
      (hresponse : coin.respond call.draws entry.1 = entry.2)
      (hafter : σ.after call =
        ⟨σ.coins.insert entry.1.coinId (coin.advance entry.1 entry.2)⟩)

theorem effect (σ : Signer P LIMIT) (call : Call P) : Effect σ call := by
  cases hr : registers σ call with
  | some request =>
    obtain ⟨hreq, hl, hlen⟩ := registers_eq_some.1 hr
    refine .registered request hr (by simp [issued, hreq]) hl ?_
    have hok := (@register_ok P LIMIT call.draws _ _ _ _).2 (Or.inr ⟨hl, hlen, rfl, rfl⟩)
    have hh := EStateM.map_eq_ok (f := Response.status).2 ⟨_, hok, rfl⟩
    simp only [after, hreq, handle, hh]
  | none =>
    cases hi : issued σ call with
    | some entry =>
      obtain ⟨hreq, coin, hl, hc, ha, hn, hcount, hresp⟩ := issued_eq_some.1 hi
      refine .advanced entry coin hi hr hl ha hresp ?_
      have hok := sign_ok.2 ⟨coin, hl, Or.inr ⟨hc, ha, hn, hcount, hresp, rfl⟩⟩
      have hh := EStateM.map_eq_ok (f := Response.signature).2 ⟨_, hok, rfl⟩
      simp only [after, hreq, handle, hh]
    | none =>
      refine .unchanged ?_ hi hr
      unfold after
      cases hh : handle call.draws call.request σ with
      | error e σ' => exact handle_error hh
      | ok response σ' =>
        show σ' = σ
        cases hreq : call.request with
        | status c =>
          simp only [hreq, handle, EStateM.bind_eq_ok, EStateM.get_eq_ok, EStateM.map_eq_ok,
            EStateM.of_eq_ok] at hh
          obtain ⟨_, _, ⟨rfl, rfl⟩, _, ⟨_, rfl⟩, _⟩ := hh
          rfl
        | register request =>
          rw [hreq] at hh
          obtain ⟨status, hok, _⟩ := EStateM.map_eq_ok.1 hh
          rcases register_ok.1 hok with ⟨coin, _, _, h⟩ | ⟨hl, hlen, _, _⟩
          · exact h.symm
          · rw [registers_eq_some.2 ⟨hreq, hl, hlen⟩] at hr; cases hr
        | sign request =>
          rw [hreq] at hh
          obtain ⟨resp, hok, _⟩ := EStateM.map_eq_ok.1 hh
          obtain ⟨coin, hl, ⟨_, h⟩ | ⟨hc, ha, hn, hcount, hresp, _⟩⟩ := sign_ok.1 hok
          · exact h.symm
          · have hsome : issued σ call = some (request, resp) :=
              issued_eq_some.2 ⟨hreq, coin, hl, hc, ha, hn, hcount, hresp⟩
            rw [hi] at hsome; cases hsome

end Signer

end Tinylayer
