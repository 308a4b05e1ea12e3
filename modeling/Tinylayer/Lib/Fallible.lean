import Mathlib.Data.List.Chain
import Mathlib.Data.List.Forall2

/-!
# Fallible computations

Checks that fail with an error, and state updates that may fail half way. Every lemma below says
when such a computation succeeds, so that a chain of checks unfolds to the conjunction of what
it checks.
-/

/-- Succeeds if `p` holds and fails with `e` otherwise. -/
def ensure {ε : Type} (p : Prop) [Decidable p] (e : ε) : Except ε Unit :=
  if p then .ok () else .error e

/-- The value of `o`, or the failure `e` if there is none. -/
def Option.context {ε : Type} {α : Type} (o : Option α) (e : ε) : Except ε α :=
  match o with
  | some a => .ok a
  | none => .error e

/-- Runs `f` on every element of `l` and fails with the first failure. -/
def checkAll {ε α : Type} (f : α → Except ε Unit) : List α → Except ε Unit
  | [] => .ok ()
  | a :: l => f a >>= fun _ => checkAll f l

/-- The pairs of neighbouring elements of `l`. -/
def windows {α : Type} (l : List α) : List (α × α) := l.zip l.tail

/-- The same check, put in another way. -/
theorem ensure_congr {ε : Type} {p q : Prop} [Decidable p] [Decidable q] {e : ε} (h : p ↔ q) :
    ensure p e = ensure q e := by
  simp only [ensure, h]

@[simp] theorem exists_unit {p : Unit → Prop} : (∃ u, p u) ↔ p () :=
  ⟨fun ⟨_, h⟩ => h, fun h => ⟨(), h⟩⟩

/-- A computation that updates a state of type `σ` and may fail; on failure the state holds what
was written before the failing step. -/
abbrev Update (ε σ α : Type) := EStateM ε σ α

/-- A computation that does not touch the state, as an update. -/
def Update.of {ε σ α : Type} (x : Except ε α) : Update ε σ α := fun s =>
  match x with
  | .ok a => .ok a s
  | .error e => .error e s

namespace Except

variable {ε α β : Type}

@[simp] theorem bind_eq_ok {x : Except ε α} {f : α → Except ε β} {b : β} :
    x >>= f = .ok b ↔ ∃ a, x = .ok a ∧ f a = .ok b := by
  cases x <;> simp [bind, Except.bind]

@[simp] theorem map_eq_ok {x : Except ε α} {f : α → β} {b : β} :
    f <$> x = .ok b ↔ ∃ a, x = .ok a ∧ f a = b := by
  cases x <;> simp [Functor.map, Except.map]

@[simp] theorem pure_eq_ok {a b : α} : (pure a : Except ε α) = .ok b ↔ a = b := by
  simp [pure, Except.pure]

@[simp] theorem throw_ne_ok {e : ε} {b : α} : (throw e : Except ε α) = .ok b ↔ False := by
  simp [throw, throwThe, MonadExceptOf.throw]

@[simp] theorem ensure_eq_ok {p : Prop} [Decidable p] {e : ε} {u : Unit} :
    ensure p e = .ok u ↔ p := by
  unfold ensure
  split <;> simp_all

@[simp] theorem context_eq_ok {o : Option α} {e : ε} {a : α} :
    o.context e = .ok a ↔ o = some a := by
  cases o <;> simp [Option.context]

@[simp] theorem checkAll_eq_ok {f : α → Except ε Unit} {l : List α} {u : Unit} :
    checkAll f l = .ok u ↔ ∀ a ∈ l, f a = .ok () := by
  induction l with
  | nil => simp [checkAll]
  | cons a l ih => simp [checkAll, ih]

/-- A computation on every element of a list, element by element. -/
theorem mapM_eq_ok {f : α → Except ε β} {l : List α} {r : List β} :
    l.mapM f = .ok r ↔ List.Forall₂ (fun a b => f a = .ok b) l r := by
  induction l generalizing r with
  | nil =>
    rw [List.mapM_nil, pure_eq_ok, List.forall₂_nil_left_iff, eq_comm]
  | cons a l ih =>
    simp only [List.mapM_cons, bind_eq_ok, pure_eq_ok, ih, List.forall₂_cons_left_iff]
    constructor
    · rintro ⟨b, hb, bs, hbs, rfl⟩
      exact ⟨b, bs, hb, hbs, rfl⟩
    · rintro ⟨b, bs, hb, hbs, rfl⟩
      exact ⟨b, hb, bs, hbs, rfl⟩

/-! A chain of checks cannot fail with an error that none of its checks has. -/

theorem toOption_eq_some {x : Except ε α} {a : α} : x.toOption = some a ↔ x = .ok a := by
  cases x <;> simp [Except.toOption]

theorem ne_error_of_ok {x : Except ε α} {a : α} {e : ε} (h : x = .ok a) : x ≠ .error e := by
  simp [h]

theorem bind_ne_error {x : Except ε α} {f : α → Except ε β} {e : ε} (hx : x ≠ .error e)
    (hf : ∀ a, x = .ok a → f a ≠ .error e) : x >>= f ≠ .error e := by
  cases x with
  | ok a => exact hf a rfl
  | error e' => exact fun h => hx (by rw [Except.error.inj h])

theorem ensure_ne_error {p : Prop} [Decidable p] {e e' : ε} (h : e' ≠ e) :
    ensure p e' ≠ .error e := by
  unfold ensure
  split
  · simp
  · simpa using h

theorem context_ne_error {o : Option α} {e e' : ε} (h : e' ≠ e) : o.context e' ≠ .error e := by
  cases o with
  | none => simpa [Option.context] using h
  | some a => simp [Option.context]

end Except

/-- Neighbours satisfy `R` everywhere exactly when the list is a chain of `R`. -/
theorem windows_forall {α : Type} {R : α → α → Prop} {l : List α} :
    (∀ p ∈ windows l, R p.1 p.2) ↔ l.IsChain R := by
  unfold windows
  induction l with
  | nil => simp
  | cons a l ih =>
    cases l with
    | nil => simp
    | cons b l =>
      simp only [List.tail_cons, List.zip_cons_cons, List.mem_cons, forall_eq_or_imp,
        List.isChain_cons_cons] at ih ⊢
      rw [ih]

namespace EStateM

variable {ε σ α β : Type}

@[simp] theorem bind_eq_ok {x : EStateM ε σ α} {f : α → EStateM ε σ β} {s s'' : σ} {b : β} :
    (x >>= f) s = .ok b s'' ↔ ∃ a s', x s = .ok a s' ∧ f a s' = .ok b s'' := by
  simp only [bind, EStateM.bind]
  cases x s <;> simp

@[simp] theorem bind_eq_error {x : EStateM ε σ α} {f : α → EStateM ε σ β} {s s'' : σ} {e : ε} :
    (x >>= f) s = .error e s'' ↔
      x s = .error e s'' ∨ ∃ a s', x s = .ok a s' ∧ f a s' = .error e s'' := by
  simp only [bind, EStateM.bind]
  cases x s <;> simp

@[simp] theorem map_eq_ok {x : EStateM ε σ α} {f : α → β} {s s' : σ} {b : β} :
    (f <$> x) s = .ok b s' ↔ ∃ a, x s = .ok a s' ∧ f a = b := by
  simp only [Functor.map, EStateM.map]
  cases x s <;> simp [and_comm]

@[simp] theorem map_eq_error {x : EStateM ε σ α} {f : α → β} {s s' : σ} {e : ε} :
    (f <$> x) s = .error e s' ↔ x s = .error e s' := by
  simp only [Functor.map, EStateM.map]
  cases x s <;> simp

@[simp] theorem pure_eq_ok {a b : α} {s s' : σ} :
    (pure a : EStateM ε σ α) s = .ok b s' ↔ a = b ∧ s = s' := by
  simp [pure, EStateM.pure]

@[simp] theorem pure_ne_error {a : α} {s s' : σ} {e : ε} :
    (pure a : EStateM ε σ α) s = .error e s' ↔ False := by
  simp [pure, EStateM.pure]

@[simp] theorem get_eq_ok {s s' t : σ} :
    (get : EStateM ε σ σ) s = .ok t s' ↔ s = t ∧ s = s' := by
  have h : (get : EStateM ε σ σ) s = .ok s s := rfl
  simp [h]

@[simp] theorem get_ne_error {s s' : σ} {e : ε} :
    (get : EStateM ε σ σ) s = .error e s' ↔ False := by
  have h : (get : EStateM ε σ σ) s = .ok s s := rfl
  simp [h]

@[simp] theorem throw_ne_ok {e : ε} {b : α} {s s' : σ} :
    (throw e : EStateM ε σ α) s = .ok b s' ↔ False := by
  have h : (throw e : EStateM ε σ α) s = .error e s := rfl
  simp [h]

@[simp] theorem throw_eq_error {e e' : ε} {s s' : σ} :
    (throw e : EStateM ε σ α) s = .error e' s' ↔ e = e' ∧ s = s' := by
  have h : (throw e : EStateM ε σ α) s = .error e s := rfl
  simp [h]

@[simp] theorem of_eq_ok {x : Except ε α} {a : α} {s s' : σ} :
    (Update.of x : EStateM ε σ α) s = .ok a s' ↔ x = .ok a ∧ s = s' := by
  cases x <;> simp [Update.of]

@[simp] theorem of_eq_error {x : Except ε α} {e : ε} {s s' : σ} :
    (Update.of x : EStateM ε σ α) s = .error e s' ↔ x = .error e ∧ s = s' := by
  cases x <;> simp [Update.of]

@[simp] theorem set_eq_ok {s s' t : σ} {u : Unit} :
    (set t : EStateM ε σ Unit) s = .ok u s' ↔ t = s' := by
  have h : (set t : EStateM ε σ Unit) s = .ok () t := rfl
  simp [h]

@[simp] theorem set_ne_error {s s' t : σ} {e : ε} :
    (set t : EStateM ε σ Unit) s = .error e s' ↔ False := by
  have h : (set t : EStateM ε σ Unit) s = .ok () t := rfl
  simp [h]

end EStateM

/-! ## Updates that leave the state alone when they fail -/

/-- The state after an update, whether or not it succeeded. -/
def Update.stateAfter {ε σ α : Type} (x : Update ε σ α) (s : σ) : σ :=
  match x s with
  | .ok _ s' => s'
  | .error _ s' => s'

/-- The result of an update, if it succeeds. -/
def Update.result? {ε σ α : Type} (x : Update ε σ α) (s : σ) : Option α :=
  match x s with
  | .ok a _ => some a
  | .error _ _ => none

theorem Update.result?_eq_some {ε σ α : Type} {x : Update ε σ α} {s : σ} {a : α} :
    x.result? s = some a ↔ x s = .ok a (x.stateAfter s) := by
  unfold result? stateAfter
  cases x s <;> simp

/-- The result of an update with the state after it, for a caller that drops the state when the
update fails. -/
def Update.attempt {ε σ α : Type} (x : Update ε σ α) (s : σ) : Except ε (α × σ) :=
  match x s with
  | .ok a s' => .ok (a, s')
  | .error e _ => .error e

@[simp] theorem Update.attempt_eq_ok {ε σ α : Type} {x : Update ε σ α} {s s' : σ} {a : α} :
    x.attempt s = .ok (a, s') ↔ x s = .ok a s' := by
  unfold attempt
  cases x s <;> simp

section Attempt

variable {ε σ α β : Type} {s t : σ}

theorem Update.attempt_get_bind {f : σ → Update ε σ α} : attempt (get >>= f) s = attempt (f s) s :=
  rfl

theorem Update.attempt_of_bind {x : Except ε β} {f : β → Update ε σ α} :
    attempt (Update.of x >>= f) s = x >>= fun a => attempt (f a) s := by
  cases x <;> rfl

theorem Update.attempt_set_bind {f : PUnit → Update ε σ α} :
    attempt (set t >>= f) s = attempt (f ⟨⟩) t := rfl

theorem Update.attempt_set : attempt (set t : Update ε σ PUnit) s = .ok (⟨⟩, t) := rfl

theorem Update.attempt_pure {a : α} : attempt (pure a : Update ε σ α) s = .ok (a, s) := rfl

end Attempt

/-- From the state `s`, the update `x` either succeeds or leaves the state as it was. -/
def Update.Atomic {ε σ α : Type} (s : σ) (x : Update ε σ α) : Prop :=
  ∀ e s', x s = .error e s' → s' = s

namespace Update.Atomic

variable {ε σ α β : Type} {s : σ}

theorem of {x : Except ε α} : Atomic s (Update.of x) := fun _ _ h => (EStateM.of_eq_error.1 h).2.symm

theorem pure {a : α} : Atomic s (Pure.pure a : Update ε σ α) := fun _ _ h => by simp at h

theorem throw {e : ε} : Atomic s (MonadExcept.throw e : Update ε σ α) := fun _ _ h =>
  (EStateM.throw_eq_error.1 h).2.symm

theorem get_bind {f : σ → Update ε σ β} (h : Atomic s (f s)) : Atomic s (get >>= f) := by
  intro e s' he
  rcases EStateM.bind_eq_error.1 he with he | ⟨t, t', ht, he⟩
  · simp at he
  · obtain ⟨rfl, rfl⟩ := EStateM.get_eq_ok.1 ht
    exact h e s' he

theorem of_bind {x : Except ε α} {f : α → Update ε σ β} (h : ∀ a, x = .ok a → Atomic s (f a)) :
    Atomic s (Update.of x >>= f) := by
  intro e s' he
  rcases EStateM.bind_eq_error.1 he with he | ⟨a, t', ha, he⟩
  · exact of e s' he
  · obtain ⟨hx, rfl⟩ := EStateM.of_eq_ok.1 ha
    exact h a hx e s' he

theorem set {t : σ} : Atomic s (MonadStateOf.set t : Update ε σ PUnit) := fun _ _ h => by simp at h

theorem set_pure {t : σ} {a : α} :
    Atomic s (MonadStateOf.set t >>= fun _ => Pure.pure a : Update ε σ α) := fun _ _ h => by simp at h

/-- The state after an update that failed. -/
theorem stateAfter_eq {x : Update ε σ α} (h : Atomic s x) :
    (∃ a, x s = .ok a (x.stateAfter s)) ∨ x.stateAfter s = s := by
  unfold stateAfter
  cases hx : x s with
  | ok a s' => exact Or.inl ⟨a, rfl⟩
  | error e s' => exact Or.inr (h e s' hx)

/-- What held before the update and holds of every result holds after it. -/
theorem stateAfter {x : Update ε σ α} (h : Atomic s x) {p : σ → Prop} (hs : p s)
    (hok : ∀ a s', x s = .ok a s' → p s') : p (x.stateAfter s) := by
  rcases h.stateAfter_eq with ⟨a, ha⟩ | hsame
  · exact hok a _ ha
  · rwa [hsame]

end Update.Atomic
