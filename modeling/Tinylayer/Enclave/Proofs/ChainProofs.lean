import Tinylayer.Enclave.Proofs.SignerProofs
import Tinylayer.Symbolic

/-!
# Proofs: the records of a run

After any run the record of a coin is determined by its registration and by the signatures issued
for it, and these form one chain: each opens the authorization that the one before it left behind.
-/

namespace Tinylayer.Signer

variable {P : Platform} {LIMIT : Nat}

/-- The record of `coinId` is the one its registration and its issuances `log` leave behind. -/
def Recorded (σ : Signer P LIMIT) (coinId : CoinId) :
    Option (RegisterRequest P) → List (Issuance P) → Prop
  | none, log => σ.coins.lookup coinId = none ∧ log = []
  | some request, log =>
    request.coinId = coinId ∧ Chain request log ∧ ∃ signingKey,
      σ.coins.lookup coinId = some (Coin.summary signingKey request log) ∧
      ∀ entry ∈ log, entry.1.coinId = coinId ∧
        entry.2.signature = P.signSchnorr signingKey entry.1.sighash ∧
        entry.1.nextCapabilityHash ≠ capabilityHash entry.1.currentCapability

/-- The registration of `coinId` that a call carries out. -/
def registersCoin (coinId : CoinId) (σ : Signer P LIMIT) (call : Call P) :
    Option (RegisterRequest P) :=
  (registers σ call).filter fun request => request.coinId = coinId

/-- The signature that a call issues for `coinId`. -/
def issuedCoin (coinId : CoinId) (σ : Signer P LIMIT) (call : Call P) : List (Issuance P) :=
  (issued σ call).toList.filter fun entry => entry.1.coinId = coinId

@[simp] theorem run_concat (σ : Signer P LIMIT) (calls : List (Call P)) (call : Call P) :
    σ.run (calls ++ [call]) = (σ.run calls).after call := by
  simp [run]

theorem issuances_append (coinId : CoinId) (σ : Signer P LIMIT) (calls later : List (Call P)) :
    issuances coinId σ (calls ++ later) =
      issuances coinId σ calls ++ issuances coinId (σ.run calls) later := by
  induction calls generalizing σ with
  | nil => rfl
  | cons c calls ih => simp [issuances, ih, run]

theorem issuances_concat (coinId : CoinId) (σ : Signer P LIMIT) (calls : List (Call P))
    (call : Call P) :
    issuances coinId σ (calls ++ [call]) =
      issuances coinId σ calls ++ issuedCoin coinId (σ.run calls) call := by
  simp [issuances_append, issuances, issuedCoin]

theorem registration_concat (coinId : CoinId) (σ : Signer P LIMIT) (calls : List (Call P))
    (call : Call P) :
    registration coinId σ (calls ++ [call]) =
      (registration coinId σ calls).or (registersCoin coinId (σ.run calls) call) := by
  induction calls generalizing σ with
  | nil =>
    simp only [List.nil_append, registration, registersCoin, run, List.foldl_nil, Option.none_or]
    cases registers σ call with
    | none => rfl
    | some request => simp [Option.filter]
  | cons c calls ih =>
    have hrun : run (σ.after c) calls = run σ (c :: calls) := rfl
    simp only [List.cons_append, registration, ih, hrun]
    cases registers σ c with
    | none => rfl
    | some request =>
      by_cases hid : request.coinId = coinId
      · simp [hid]
      · simp [hid]

/-- A call that registers no such coin and issues nothing for it keeps its record. -/
theorem Recorded.frame {σ σ' : Signer P LIMIT} {coinId : CoinId}
    {request : Option (RegisterRequest P)} {log : List (Issuance P)}
    (h : Recorded σ coinId request log)
    (hl : σ'.coins.lookup coinId = σ.coins.lookup coinId) : Recorded σ' coinId request log := by
  cases request with
  | none => exact ⟨hl ▸ h.1, h.2⟩
  | some request =>
    obtain ⟨hid, hchain, key, hk, hlog⟩ := h
    exact ⟨hid, hchain, key, hl ▸ hk, hlog⟩

/-- One call keeps the record of a coin in step with its registration and its issuances. -/
theorem Recorded.after {σ : Signer P LIMIT} {coinId : CoinId}
    {request : Option (RegisterRequest P)} {log : List (Issuance P)}
    (h : Recorded σ coinId request log) (call : Call P) :
    Recorded (σ.after call) coinId (request.or (registersCoin coinId σ call))
      (log ++ issuedCoin coinId σ call) := by
  rcases effect σ call with ⟨hafter, hissued, hreg⟩ | ⟨r, hreg, hissued, hlookup, hafter⟩ |
    ⟨entry, coin, hissued, hreg, hlookup, hpresented, hresponse, hafter⟩
  -- case unchanged
  · simpa [issuedCoin, registersCoin, hissued, hreg, hafter] using h
  -- case registered
  · have hnone : issuedCoin coinId σ call = [] := by simp [issuedCoin, hissued]
    rw [hnone, List.append_nil]
    by_cases hid : r.coinId = coinId
    · subst hid
      have hsome : registersCoin r.coinId σ call = some r := by
        simp [registersCoin, hreg, Option.filter]
      cases request with
      | some request =>
        obtain ⟨_, _, key, hk, _⟩ := h
        rw [hlookup] at hk
        cases hk
      | none =>
        obtain ⟨_, rfl⟩ := h
        rw [Option.none_or, hsome, hafter]
        refine ⟨rfl, trivial, call.draws.signingKey, ?_, by simp⟩
        simp [Coin.summary, Coin.registered, Rotation.key, initialAuthorization]
    · have hne : coinId ≠ r.coinId := fun he => hid he.symm
      have hsame : registersCoin coinId σ call = none := by
        simp [registersCoin, hreg, Option.filter, hid]
      rw [hsame, Option.or_none]
      exact h.frame (by rw [hafter]; exact AList.lookup_insert_ne hne)
  -- case advanced
  · have hnone : registersCoin coinId σ call = none := by simp [registersCoin, hreg]
    rw [hnone, Option.or_none]
    by_cases hid : entry.1.coinId = coinId
    · subst hid
      have hsome : issuedCoin entry.1.coinId σ call = [entry] := by simp [issuedCoin, hissued]
      rw [hsome]
      cases request with
      | none =>
        have hl := h.1
        rw [hlookup] at hl
        cases hl
      | some request =>
        obtain ⟨hid, hchain, key, hk, hlog⟩ := h
        rw [hlookup] at hk
        cases hk
        obtain ⟨_, _, _, _, _, hnext, _⟩ := issued_eq_some.1 hissued
        rw [hafter]
        refine ⟨hid, Rotation.follows_concat.2 ⟨hchain, hpresented⟩, key, ?_, ?_⟩
        · simp [Coin.summary, Coin.advance, committed]
        · intro e he
          rcases List.mem_append.1 he with he | he
          · exact hlog e he
          · rw [List.mem_singleton.1 he]
            exact ⟨rfl, by rw [← hresponse]; rfl, hnext⟩
    · have hne : coinId ≠ entry.1.coinId := fun he => hid he.symm
      have hsame : issuedCoin coinId σ call = [] := by simp [issuedCoin, hissued, hid]
      rw [hsame, List.append_nil]
      exact h.frame (by rw [hafter]; exact AList.lookup_insert_ne hne)

/-- The record of every coin after any run from the empty signer. -/
theorem recorded_run (calls : List (Call P)) (coinId : CoinId) :
    Recorded ((new : Signer P LIMIT).run calls) coinId
      (registration coinId (new : Signer P LIMIT) calls)
      (issuances coinId (new : Signer P LIMIT) calls) := by
  induction calls using List.reverseRecOn with
  | nil => exact ⟨rfl, rfl⟩
  | append_singleton calls call ih =>
    rw [run_concat, issuances_concat, registration_concat]
    exact ih.after call

/-- A coin that has a record was registered. -/
theorem Recorded.of_lookup {σ : Signer P LIMIT} {coinId : CoinId}
    {request : Option (RegisterRequest P)} {log : List (Issuance P)} {coin : Coin P}
    (h : Recorded σ coinId request log) (hl : σ.coins.lookup coinId = some coin) :
    ∃ r, request = some r ∧ coin = Coin.summary coin.signingKey r log := by
  cases request with
  | none => rw [h.1] at hl; cases hl
  | some r =>
    obtain ⟨_, _, key, hk, _⟩ := h
    rw [hl] at hk
    cases hk
    exact ⟨r, rfl, rfl⟩

/-- Nothing is issued for a coin that has no record. -/
theorem Recorded.log_eq_nil {σ : Signer P LIMIT} {coinId : CoinId}
    {request : Option (RegisterRequest P)} {log : List (Issuance P)}
    (h : Recorded σ coinId request log) (hl : σ.coins.lookup coinId = none) : log = [] := by
  cases request with
  | none => exact h.2
  | some request =>
    obtain ⟨_, _, _, hk, _⟩ := h
    rw [hl] at hk
    cases hk

/-- The issuances of a coin answer requests for this coin. -/
theorem Recorded.coinId_eq {σ : Signer P LIMIT} {coinId : CoinId}
    {request : Option (RegisterRequest P)} {log : List (Issuance P)}
    (h : Recorded σ coinId request log) {entry : Issuance P} (hentry : entry ∈ log) :
    entry.1.coinId = coinId := by
  cases request with
  | none =>
    rw [h.2] at hentry
    cases hentry
  | some request => exact (h.2.2.choose_spec.2 entry hentry).1

/-- The tokens of a part of the log are fresh if those of the whole log are. -/
theorem FreshHandoffs.of_append {log rest : List (Issuance P)} (h : FreshHandoffs (log ++ rest)) :
    FreshHandoffs log := by
  unfold FreshHandoffs at h ⊢
  rw [List.map_append, ← List.cons_append] at h
  exact (List.nodup_append.1 h).1

section Hashes

variable (hcf : P.CollisionFree)
include hcf

theorem taggedHash_inj {tag : String} {a b : List (List UInt8)}
    (h : taggedHash (P := P) tag a = taggedHash tag b) : a.flatten = b.flatten := by
  have := hcf.sha256_inj h
  exact List.append_cancel_left this

theorem capabilityHash_inj {a b : Capability}
    (h : capabilityHash (P := P) a = capabilityHash b) : a = b := by
  have := taggedHash_inj hcf h
  simp only [List.flatten_cons, List.flatten_nil, List.append_nil] at this
  exact List.Vector.toList_injective this

/-- An authorization determines the capability hash and the handoff token it commits to. -/
theorem authorization_inj {coinId coinId' : CoinId} {a b : P.Digest} {s t : HandoffToken}
    (h : authorization coinId a s = authorization coinId' b t) :
    coinId = coinId' ∧ a = b ∧ s = t := by
  have h := taggedHash_inj hcf h
  simp only [List.flatten_cons, List.flatten_nil, List.append_nil] at h
  obtain ⟨hc, h⟩ := List.append_inj h (by simp)
  obtain ⟨hd, hh⟩ := List.append_inj' h (by simp)
  exact ⟨List.Vector.toList_injective hc, hcf.digestBytes_inj hd, List.Vector.toList_injective hh⟩

/-- Fresh handoff tokens make the authorizations of a coin fresh. -/
theorem FreshHandoffs.nodup {request : RegisterRequest P} {log : List (Issuance P)}
    (h : FreshHandoffs log) :
    (initialAuthorization request :: log.map committed).Nodup := by
  obtain ⟨hnot, hnodup⟩ := List.nodup_cons.1 h
  refine List.nodup_cons.2 ⟨?_, ?_⟩
  · intro hm
    obtain ⟨e, he, heq⟩ := List.mem_map.1 hm
    exact hnot (List.mem_map.2 ⟨e, he, (authorization_inj hcf heq).2.2⟩)
  · rw [List.nodup_iff_pairwise_ne, List.pairwise_map] at hnodup ⊢
    exact hnodup.imp fun hne heq => hne (authorization_inj hcf heq).2.2

/-- No authorization of a coin is used twice. -/
theorem Recorded.presented_nodup {σ : Signer P LIMIT} {coinId : CoinId}
    {request : Option (RegisterRequest P)} {log : List (Issuance P)}
    (h : Recorded σ coinId request log) (hfresh : FreshHandoffs log) :
    (log.map fun entry => presented entry.1).Nodup := by
  cases request with
  | none => simp [h.2]
  | some request => exact h.2.1.opens_nodup (hfresh.nodup hcf)

/-- A request that presents a used authorization, other than the one answered last, is turned
down. -/
theorem Recorded.stale {σ : Signer P LIMIT} {coinId : CoinId}
    {request : Option (RegisterRequest P)} {log : List (Issuance P)}
    (h : Recorded σ coinId request log) (hfresh : FreshHandoffs log) {entry : Issuance P}
    (hentry : entry ∈ log) {r : SignRequest P} (hr : presented r = presented entry.1)
    (hlast : ∀ last, log.getLast? = some last → last.1 ≠ r) (draws : Draws P) :
    handle draws (.sign r) σ = .error .unauthorized σ := by
  cases request with
  | none =>
    rw [h.2] at hentry
    cases hentry
  | some request =>
    obtain ⟨_, hchain, key, hl, hlog⟩ := h
    have hid : r.coinId = coinId :=
      (authorization_inj hcf hr).1.trans (hlog entry hentry).1
    have hc : (Coin.summary key request log).cached r = none := by
      rw [Option.eq_none_iff_forall_ne_some]
      intro response hsome
      exact hlast _ (cached_eq_some.1 hsome) rfl
    have ha : presented r ≠ (Coin.summary key request log).authorization := by
      intro heq
      refine hchain.key_notMem (hfresh.nodup hcf) ?_
      rw [show Rotation.key committed (initialAuthorization request) log = presented entry.1 from
        heq.symm.trans hr]
      exact List.mem_map.2 ⟨entry, hentry, rfl⟩
    simp only [handle, EStateM.map_eq_error]
    exact sign_unauthorized (hid ▸ hl) hc ha

end Hashes

/-- The signatures issued for a coin form one unforked chain. In every run the count of a coin is
the number of signatures issued for it, each was requested with the authorization that the one
before it committed to, and the latest request is answered again without any change. If hashes are
collision free and handoff tokens are fresh, no authorization is ever used twice, and a request
that presents a used one is turned down in every later state, unless it is the latest. -/
theorem issuances_unforked :
    (∀ (calls : List (Call P)) (coinId : CoinId) (coin : Coin P),
      ((new : Signer P LIMIT).run calls).coins.lookup coinId = some coin →
      let log := issuances coinId (new : Signer P LIMIT) calls
      ∃ request, registration coinId (new : Signer P LIMIT) calls = some request ∧
        coin.signatureCount = log.length ∧
        (∀ h : 0 < log.length, presented log[0].1 = initialAuthorization request) ∧
        (∀ k (h : k + 1 < log.length), presented log[k + 1].1 = committed log[k]) ∧
        ∀ entry draws, log.getLast? = some entry →
          handle draws (.sign entry.1) ((new : Signer P LIMIT).run calls) =
            .ok (.signature entry.2) ((new : Signer P LIMIT).run calls)) ∧
    (P.CollisionFree → ∀ (calls later : List (Call P)) (coinId : CoinId),
      let log := issuances coinId (new : Signer P LIMIT) calls
      let log' := issuances coinId (new : Signer P LIMIT) (calls ++ later)
      let σ' := (new : Signer P LIMIT).run (calls ++ later)
      FreshHandoffs log' →
      (log.map fun entry => presented entry.1).Nodup ∧
      (∀ coinId', ∀ a ∈ log, ∀ b ∈ issuances coinId' (new : Signer P LIMIT) calls,
        presented a.1 = presented b.1 → coinId = coinId' ∧ a = b) ∧
      (∀ r draws, (∃ entry ∈ log, presented r = presented entry.1) →
        (∀ last, log'.getLast? = some last → last.1 ≠ r) →
        handle draws (.sign r) σ' = .error .unauthorized σ') ∧
      ∀ before entry after draws, log = before ++ entry :: after → after ≠ [] →
        handle draws (.sign entry.1) σ' = .error .unauthorized σ') := by
  constructor
  · intro calls coinId coin hl
    have hrec := @recorded_run P LIMIT calls coinId
    obtain ⟨request, hreq, hcoin⟩ := hrec.of_lookup hl
    have hchain : Chain request (issuances coinId (new : Signer P LIMIT) calls) := by
      rw [hreq] at hrec
      exact hrec.2.1
    refine ⟨request, hreq, by rw [hcoin]; rfl, ?_, ?_, ?_⟩
    · intro h
      exact (Option.some.inj (hchain.opens_get h)).symm
    · intro k h
      have hk := hchain.opens_get h
      rw [List.getElem?_cons_succ, List.getElem?_map, List.getElem?_eq_getElem (by omega)] at hk
      exact (Option.some.inj hk).symm
    · intro entry draws hlast
      have hc : coin.cached entry.1 = some entry.2 := by
        rw [cached_eq_some, hcoin]
        exact hlast
      rw [← hrec.coinId_eq (List.mem_of_getLast? hlast)] at hl
      exact EStateM.map_eq_ok.2 ⟨_, sign_ok.2 ⟨coin, hl, Or.inl ⟨hc, rfl⟩⟩, rfl⟩
  · intro hcf calls later coinId log log' σ' hfresh
    have hrec : Recorded _ coinId _ log := @recorded_run P LIMIT calls coinId
    have hrec' : Recorded σ' coinId _ log' := @recorded_run P LIMIT (calls ++ later) coinId
    have hlog' : log' = log ++ issuances coinId ((new : Signer P LIMIT).run calls) later :=
      issuances_append ..
    have hfreshlog : FreshHandoffs log := by
      rw [hlog'] at hfresh
      exact hfresh.of_append
    have hnodup := hrec.presented_nodup hcf hfreshlog
    refine ⟨hnodup, ?_, ?_, ?_⟩
    · intro coinId' a ha b hb hab
      have hid := (authorization_inj hcf hab).1
      have hb' := (@recorded_run P LIMIT calls coinId').coinId_eq hb
      rw [hrec.coinId_eq ha, hb'] at hid
      subst hid
      exact ⟨rfl, List.inj_on_of_nodup_map hnodup ha hb hab⟩
    · rintro r draws ⟨entry, hentry, hr⟩ hlast
      have hmem : entry ∈ log' := by
        rw [hlog']
        exact List.mem_append_left _ hentry
      exact hrec'.stale hcf hfresh hmem hr hlast draws
    · intro before entry after draws hsplit hafter
      obtain ⟨tail, htail, hne⟩ : ∃ tail, log' = before ++ entry :: tail ∧ tail ≠ [] :=
        ⟨after ++ issuances coinId ((new : Signer P LIMIT).run calls) later, by
          rw [hlog', hsplit, List.append_assoc, List.cons_append], by simp [hafter]⟩
      have hmem : entry ∈ log' := by simp [htail]
      refine hrec'.stale hcf hfresh hmem rfl ?_ draws
      intro last hlast heq
      have hnodup' := hrec'.presented_nodup hcf hfresh
      have hlt : last ∈ tail := by
        rw [htail, List.getLast?_append_cons, List.getLast?_cons_of_ne_nil hne] at hlast
        exact List.mem_of_getLast? hlast
      rw [htail, List.map_append, List.map_cons] at hnodup'
      have hnot := (List.nodup_cons.1 (List.nodup_append.1 hnodup').2.1).1
      exact hnot (List.mem_map.2 ⟨last, hlt, by rw [heq]⟩)

section Reuse

open Symbolic

/-- The request that rotates `coinId` from the capability `current` to the capability `next`. -/
def rotation (current next : Capability) (handoff : HandoffToken) (digest : List UInt8) :
    SignRequest platform :=
  ⟨bytes 1, current, handoff, capabilityHash next, digest⟩

/-- A coin that goes from the capability 2 to 3 and back to 2. -/
def backAndForth : List (Call platform) :=
  [⟨.register ⟨bytes 1, capabilityHash (bytes 2)⟩, ⟨bytes 9, bytes 10⟩⟩,
    ⟨.sign (rotation (bytes 2) (bytes 3) initialHandoff [1]), ⟨bytes 9, bytes 11⟩⟩,
    ⟨.sign (rotation (bytes 3) (bytes 2) (bytes 11) [2]), ⟨bytes 9, bytes 12⟩⟩]

theorem issuances_unforked_backAndForth :
    handle ⟨bytes 9, bytes 13⟩ (.sign (rotation (bytes 2) (bytes 3) initialHandoff [1]))
        ((new : Signer platform 1).run (backAndForth ++ [])) =
      .error .unauthorized ((new : Signer platform 1).run (backAndForth ++ [])) := by
  have hfresh : FreshHandoffs
      (issuances (bytes 1) (new : Signer platform 1) (backAndForth ++ [])) := by
    unfold FreshHandoffs
    decide +kernel
  exact (issuances_unforked.2 collisionFree backAndForth [] (bytes 1) hfresh).2.2.2 []
    (rotation (bytes 2) (bytes 3) initialHandoff [1], ⟨signature (bytes 9).toList [1], bytes 11⟩)
    [(rotation (bytes 3) (bytes 2) (bytes 11) [2], ⟨signature (bytes 9).toList [2], bytes 12⟩)]
    ⟨bytes 9, bytes 13⟩ (by decide +kernel) (by simp)

end Reuse

end Tinylayer.Signer
