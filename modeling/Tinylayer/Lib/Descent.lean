import Mathlib.Data.List.Chain

/-!
# Descending progressions

Lists on which a measure falls by the same step from each entry to the next: the closed form of the
measure, the distance between any two entries, and the entries below a bound, which form a suffix.
-/

namespace Descent

variable {α : Type} (f : α → Nat) (step : Nat)

/-- The measure falls by `step` from each entry to the next. -/
def Descends (l : List α) : Prop := l.IsChain fun a b => f a = f b + step

variable {f step} {l : List α}

/-- The measure of each entry from that of the first one. -/
theorem descends_cons_iff {a : α} :
    Descends f step (a :: l) ↔
      ∀ i (hi : i < (a :: l).length), f (a :: l)[i] + step * i = f a := by
  constructor
  · intro h i hi
    induction i with
    | zero => simp
    | succ i ih =>
      have hnext := List.isChain_iff_getElem.1 h i hi
      have hi' := ih (by omega)
      rw [Nat.mul_succ]
      omega
  · intro h
    refine List.isChain_iff_getElem.2 fun i hi => ?_
    have hi' := h i (by omega)
    have hnext := h (i + 1) hi
    rw [Nat.mul_succ] at hnext
    omega

/-- The closed form, with a subtraction that cannot underflow. -/
theorem descends_iff :
    Descends f step l ↔ ∀ first ∈ l.head?, ∀ i (hi : i < l.length),
      step * i ≤ f first ∧ f l[i] = f first - step * i := by
  cases l with
  | nil => simp [Descends]
  | cons a l =>
    rw [descends_cons_iff]
    constructor
    · rintro h _ ⟨⟩ i hi
      have hi' := h i hi
      omega
    · intro h i hi
      have hi' := h a rfl i hi
      omega

/-- Any later entry lies at least one step below. -/
theorem Descends.gap (h : Descends f step l) {i j : Nat} (hij : i < j) (hj : j < l.length) :
    f l[j] + step ≤ f l[i] := by
  cases l with
  | nil => cases hj
  | cons a l =>
    have hi' := descends_cons_iff.1 h i (by omega)
    have hj' := descends_cons_iff.1 h j hj
    have hmul : step * i + step ≤ step * j := by
      rw [← Nat.mul_succ]
      exact Nat.mul_le_mul_left step hij
    omega

/-- The entries whose measure is at most `bound` are the last ones. -/
theorem Descends.filter_suffix (h : Descends f step l) (bound : Nat) :
    (l.filter fun a => f a ≤ bound) <:+ l := by
  induction l with
  | nil => exact List.suffix_refl _
  | cons a l ih =>
    by_cases ha : f a ≤ bound
    · have hall : ∀ b ∈ a :: l, decide (f b ≤ bound) = true := by
        intro b hb
        obtain ⟨i, hi, rfl⟩ := List.getElem_of_mem hb
        have := descends_cons_iff.1 h i hi
        exact decide_eq_true (by omega)
      simpa only [List.filter_eq_self.2 hall] using List.suffix_refl (a :: l)
    · rw [List.filter_cons_of_neg (by simpa using ha)]
      exact (ih (List.IsChain.tail h)).trans (List.suffix_cons a l)

end Descent
