import Tinylayer.System.Proofs.TrackingProofs

/-!
# Proofs: the invariant of the system

Every step keeps the invariant, if the handoff tokens are fresh in the end.
-/

namespace Tinylayer

variable {P : Platform} {LIMIT : Nat}

/-- An answer of the signer is among its issuances. -/
theorem Signer.mem_issuances_of_sign {calls : List (Signer.Call P)} {request : SignRequest P}
    {response : SignResponse P} {draws : Signer.Draws P} {σ : Signer P LIMIT}
    (hok : Signer.sign draws request ((Signer.new : Signer P LIMIT).run calls) = .ok response σ) :
    (request, response) ∈ Signer.issuances request.coinId (Signer.new : Signer P LIMIT)
      (calls ++ [⟨.sign request, draws⟩]) := by
  rw [issuances_concat, List.mem_append]
  obtain ⟨coin, hl, ⟨hcached, _⟩ | ⟨hcached, hauth, hnext, hcount, hresponse, _⟩⟩ := sign_ok.1 hok
  · obtain ⟨r, _, hcoin⟩ := (@recorded_run P LIMIT calls request.coinId).of_lookup hl
    rw [cached_eq_some, hcoin] at hcached
    exact Or.inl (List.mem_of_getLast? hcached)
  · have hissued : issued ((new : Signer P LIMIT).run calls) ⟨.sign request, draws⟩ =
        some (request, response) :=
      issued_eq_some.2 ⟨rfl, coin, hl, hcached, hauth, hnext, hcount, hresponse⟩
    right
    simp [issuedCoin, hissued]

namespace World

open WalletState

variable {ι : Type} {w w' w'' : World ι P LIMIT}

/-! ## Histories -/

namespace Extends

theorem refl (w : World ι P LIMIT) : Extends w w :=
  ⟨List.prefix_rfl, List.prefix_rfl, List.prefix_rfl, List.prefix_rfl, List.prefix_rfl,
    List.prefix_rfl, List.prefix_rfl⟩

theorem trans (h : Extends w w') (h' : Extends w' w'') : Extends w w'' :=
  ⟨h.calls.trans h'.calls, h.sent.trans h'.sent, h.replies.trans h'.replies,
    h.others.trans h'.others, h.drawn.trans h'.drawn, h.published.trans h'.published,
    h.forged.trans h'.forged⟩

/-- The signatures issued for a coin are kept. -/
theorem log (h : Extends w w') (coinId : CoinId) : w.log coinId <+: w'.log coinId := by
  obtain ⟨later, hlater⟩ := h.calls
  refine ⟨Signer.issuances coinId w.signer later, ?_⟩
  rw [World.log, World.log, ← hlater]
  exact (Signer.issuances_append coinId _ w.calls later).symm

theorem fresh (h : Extends w w') (hfresh : Fresh w') : Fresh w := by
  intro coinId
  obtain ⟨rest, hrest⟩ := h.log coinId
  have hlog := hfresh coinId
  rw [← hrest] at hlog
  exact hlog.of_append

theorem secret (h : Extends w w') (hsecret : Secret w') : Secret w where
  distinct := hsecret.distinct.sublist (h.drawn.sublist.map _)
  unknown := fun request hrequest entry hentry =>
    hsecret.unknown request (h.others.subset hrequest) entry (h.drawn.subset hentry)

end Extends

/-! ## The invariant -/

theorem Inv.init : Inv (init : World ι P LIMIT) where
  mem := fun _ => ⟨.empty, nofun, nofun⟩
  disk := fun _ => ⟨.empty, nofun, nofun⟩
  follows := fun _ => .refl _
  replied := nofun
  requested := nofun
  pair := nofun
  same := nofun

theorem Inv.fresh_replies (h : Inv w) (hfresh : Fresh w) :
    ∀ entry ∈ w.replies, entry.2.nextHandoff ≠ initialHandoff := by
  intro entry hentry heq
  have hnot := (List.nodup_cons.1 (hfresh entry.1.coinId)).1
  exact hnot (List.mem_map.2 ⟨entry, h.replied entry hentry, heq⟩)

variable [DecidableEq ι]

theorem Step.extends (h : Step w w') : Extends w w' := by
  cases h <;> constructor <;>
    first | exact List.prefix_rfl | exact List.prefix_append _ _

theorem Steps.extends (h : Steps w w') : Extends w w' := by
  induction h with
  | refl => exact .refl w
  | tail _ hstep ih => exact ih.trans hstep.extends

namespace Inv

/-- A step in which the wallet `i` goes to the state `s` in memory and nothing happens to signer and
network. -/
theorem setMem (h : Inv w) (i : ι) {s : WalletState P} (hs : StateInv w i s)
    (hevolves : Evolves (w.disk i) s) (hextends : Extends w w')
    (hmem : w'.mem = Function.update w.mem i s) (hdisk : w'.disk = w.disk)
    (hcalls : w'.calls = w.calls) (hsent : w'.sent = w.sent) (hreplies : w'.replies = w.replies) :
    Inv w' := by
  have hextend : ∀ {j : ι} {t : WalletState P}, StateInv w j t → StateInv w' j t :=
    fun ht => ht.extend hextends fun a ha _ => Or.inl (hsent ▸ ha)
  have hlog : ∀ coinId, w'.log coinId = w.log coinId := by
    intro coinId
    rw [log, log, hcalls]
  refine { mem := fun j => ?_, disk := fun j => ?_, follows := fun j => ?_, replied := ?_,
           requested := ?_, pair := ?_, same := ?_ }
  · rw [hmem]
    by_cases hj : j = i
    · subst hj
      rw [Function.update_self]
      exact hextend hs
    · rw [Function.update_of_ne hj]
      exact hextend (h.mem j)
  · rw [hdisk]
    exact hextend (h.disk j)
  · rw [hmem, hdisk]
    by_cases hj : j = i
    · subst hj
      rw [Function.update_self]
      exact hevolves
    · rw [Function.update_of_ne hj]
      exact h.follows j
  · intro entry hentry
    rw [hlog]
    exact h.replied entry (hreplies ▸ hentry)
  · intro coinId entry hentry
    rw [hlog] at hentry
    rw [hsent]
    exact (h.requested coinId entry hentry).imp_right fun hmem => hextends.others.subset hmem
  · rw [hsent]
    exact h.pair
  · rw [hsent]
    exact h.same

omit [DecidableEq ι] in
/-- A step in which only the signer is called. -/
theorem call (h : Inv w) (hextends : Extends w w') (hmem : w'.mem = w.mem)
    (hdisk : w'.disk = w.disk) (hsent : w'.sent = w.sent) {call : Signer.Call P}
    (hcalls : w'.calls = w.calls ++ [call])
    (hrequested : ∀ request, call.request = .sign request →
      request ∈ w'.sent.map Sent.request ∨ request ∈ w'.others)
    (hreplied : ∀ entry ∈ w'.replies, entry ∈ w.replies ∨ entry ∈ w'.log entry.1.coinId) :
    Inv w' := by
  have hextend : ∀ {j : ι} {t : WalletState P}, StateInv w j t → StateInv w' j t :=
    fun ht => ht.extend hextends fun a ha _ => Or.inl (hsent ▸ ha)
  refine { mem := fun j => ?_, disk := fun j => ?_, follows := fun j => ?_, replied := ?_,
           requested := ?_, pair := ?_, same := ?_ }
  · rw [hmem]
    exact hextend (h.mem j)
  · rw [hdisk]
    exact hextend (h.disk j)
  · rw [hmem, hdisk]
    exact h.follows j
  · intro entry hentry
    rcases hreplied entry hentry with hold | hnew
    · exact (hextends.log _).subset (h.replied entry hold)
    · exact hnew
  · intro coinId entry hentry
    rw [log, hcalls, Signer.issuances_concat, List.mem_append] at hentry
    rcases hentry with hentry | hentry
    · rw [hsent]
      exact (h.requested coinId entry hentry).imp_right fun hmem => hextends.others.subset hmem
    · obtain ⟨hissued, _⟩ := List.mem_filter.1 hentry
      obtain ⟨hrequest, _⟩ := Signer.issued_eq_some.1 (Option.mem_toList.1 hissued)
      exact hrequested _ hrequest
  · rw [hsent]
    exact h.pair
  · rw [hsent]
    exact h.same

/-- A wallet sends the request in its saved journal. -/
theorem send (h : Inv w) (i : ι) {request : SignRequest P} (hsaved : w.mem i = w.disk i)
    (hpending : (w.mem i).pendingSignRequest = .ok request) : Inv (w.send i request) := by
  obtain ⟨pending, hsigning, rfl⟩ := pendingSignRequest_eq_ok.1 hpending
  have hinv := (h.mem i).wallet
  have hheld := hinv.held_of_signing hsigning
  have hextends : Extends w (w.send i pending.stage.attempt.request) :=
    Step.extends (.send i _ hsaved hpending)
  have hnew : ∀ a ∈ (w.send i pending.stage.attempt.request).sent, a ∈ w.sent ∨
      a.wallet = i ∧ a.request = pending.stage.attempt.request ∧
      a.pair = some (pending.stage.attempt.request.currentCapability,
        pending.stage.attempt.request.currentHandoff) := by
    intro a ha
    rcases List.mem_append.1 ha with ha | ha
    · exact Or.inl ha
    · rw [List.mem_singleton.1 ha]
      refine Or.inr ⟨rfl, rfl, ?_⟩
      simp only [hheld, Option.map_some, SignRequest.opens]
  -- an earlier request for the same pair is still in the journal
  have hsame : ∀ a ∈ w.sent, a.wallet = i →
      a.pair = some (pending.stage.attempt.request.currentCapability,
        pending.stage.attempt.request.currentHandoff) →
      a.request = pending.stage.attempt.request := by
    intro a ha hi hpair
    rcases (h.mem i).tracks a ha hi with ⟨pending', hsigning', hrequest⟩ | hdone
    · cases hsigning.symm.trans hsigning'
      exact hrequest.symm
    · rcases hdone.past with htransferred | ⟨_, hinitial, hlater⟩
      · rw [htransferred.signing_eq_none hinv] at hsigning
        cases hsigning
      · have hhandoff : a.request.currentHandoff =
            pending.stage.attempt.request.currentHandoff :=
          congrArg Prod.snd (Option.some.inj ((h.pair a ha).symm.trans hpair))
        exact absurd (hhandoff.symm.trans hinitial) (hlater _ hheld)
  have hjournals : ∀ a ∈ (w.send i pending.stage.attempt.request).sent, ∀ j, a.wallet = j →
      a ∈ w.sent ∨ j = i ∧ a.request = pending.stage.attempt.request := by
    intro a ha j hj
    rcases hnew a ha with hold | ⟨hi, hrequest, _⟩
    · exact Or.inl hold
    · exact Or.inr ⟨hj.symm.trans hi, hrequest⟩
  refine { mem := fun j => ?_, disk := fun j => ?_, follows := h.follows,
           replied := h.replied, requested := ?_, pair := ?_, same := ?_ }
  · refine (h.mem j).extend hextends fun a ha hj => (hjournals a ha j hj).imp_right ?_
    rintro ⟨rfl, hrequest⟩
    exact ⟨pending, hsigning, hrequest.symm⟩
  · refine (h.disk j).extend hextends fun a ha hj => (hjournals a ha j hj).imp_right ?_
    rintro ⟨rfl, hrequest⟩
    exact ⟨pending, hsaved ▸ hsigning, hrequest.symm⟩
  · intro coinId entry hentry
    refine (h.requested coinId entry hentry).imp_left fun hmem => ?_
    exact List.map_subset _ hextends.sent.subset hmem
  · intro a ha
    rcases hnew a ha with ha | ⟨_, hrequest, hpair⟩
    · exact h.pair a ha
    · rw [hpair, hrequest]
  · intro a ha b hb hwallet hpairs
    rcases hnew a ha with ha | ⟨hi, hrequest, hpair⟩
    · rcases hnew b hb with hb | ⟨hi', hrequest', hpair'⟩
      · exact h.same a ha b hb hwallet hpairs
      · rw [hrequest']
        exact hsame a ha (hwallet.trans hi') (hpairs.trans hpair')
    · rcases hnew b hb with hb | ⟨_, hrequest', _⟩
      · rw [hrequest]
        exact (hsame b hb (hwallet.symm.trans hi) (hpairs.symm.trans hpair)).symm
      · rw [hrequest, hrequest']

/-- A wallet saves its state. -/
theorem save (h : Inv w) (i : ι) : Inv (w.save i) := by
  have hextend : ∀ {j : ι} {t : WalletState P}, StateInv w j t → StateInv (w.save i) j t :=
    fun ht => ht.extend (Step.extends (.save i)) fun a ha _ => Or.inl ha
  refine { mem := fun j => hextend (h.mem j), disk := fun j => ?_, follows := fun j => ?_,
           replied := h.replied, requested := h.requested, pair := h.pair, same := h.same }
  · refine hextend ?_
    by_cases hj : j = i
    · subst hj
      simp only [World.save, Function.update_self]
      exact h.mem j
    · simp only [World.save, Function.update_of_ne hj]
      exact h.disk j
  · by_cases hj : j = i
    · subst hj
      simp only [World.save, Function.update_self]
      exact .refl _
    · simp only [World.save, Function.update_of_ne hj]
      exact h.follows j

/-- A request reaches the signer. -/
theorem deliver (h : Inv w) {a : Sent ι P} (draws : Signer.Draws P) (ha : a ∈ w.sent) :
    Inv (w.deliver a.request draws) := by
  refine h.call (Step.extends (.deliver a draws ha)) rfl rfl rfl rfl ?_ ?_
  · rintro request ⟨⟩
    exact Or.inl (List.mem_map.2 ⟨a, ha, rfl⟩)
  · intro entry hentry
    refine (List.mem_append.1 hentry).imp_right fun hanswer => ?_
    unfold answer at hanswer
    split at hanswer
    · rename_i response σ hok
      rw [List.mem_singleton.1 hanswer]
      exact Signer.mem_issuances_of_sign hok
    · cases hanswer

theorem step (h : Inv w) (hsecret : P.SecretCodec) (hfresh : Fresh w) (hstep : Step w w') :
    Inv w' := by
  have hextends := hstep.extends
  have hreplies := h.fresh_replies hfresh
  cases hstep with
  | operate i op response status =>
    obtain ⟨hinv, hevolves⟩ := (h.mem i).wallet.after hsecret op
    exact h.setMem i ((h.mem i).moves hreplies hinv hevolves ((h.mem i).wallet.moves op response)
      status) ((h.follows i).trans hevolves) hextends rfl rfl rfl rfl rfl
  | fundCore i given drawn s funds status =>
    obtain ⟨hinv, hevolves⟩ := funds.keeps hsecret (h.mem i).wallet
    exact h.setMem i ((h.mem i).moves hreplies hinv hevolves (funds.moves (h.mem i).wallet)
      status) ((h.follows i).trans hevolves) hextends rfl rfl rfl rfl rfl
  | save i => exact h.save i
  | crash i => exact h.setMem i (h.disk i) (.refl _) hextends rfl rfl rfl rfl rfl
  | send i request saved pending => exact h.send i saved pending
  | deliver a draws sent => exact h.deliver draws sent
  | reply i request response pending replied =>
    have hevolves := ((h.mem i).wallet.after hsecret (.recordSignResponse response)).2
    exact h.setMem i ((h.mem i).record pending replied) ((h.follows i).trans hevolves) hextends rfl
      rfl rfl rfl rfl
  | other call =>
    refine h.call hextends rfl rfl rfl rfl (fun request hrequest => ?_) fun entry hentry => ?_
    · refine Or.inr (List.mem_append.2 (Or.inr ?_))
      rw [hrequest]
      exact List.mem_singleton_self _
    · exact Or.inl hentry

end Inv

/-- The invariant holds in every run, if the handoff tokens are fresh. -/
theorem Reachable.inv (hsecret : P.SecretCodec) (h : Reachable w) (hfresh : Fresh w) : Inv w := by
  induction h with
  | refl => exact .init
  | tail _ hstep ih =>
    have hfresh' := hstep.extends.fresh hfresh
    exact (ih hfresh').step hsecret hfresh' hstep

end World

end Tinylayer
