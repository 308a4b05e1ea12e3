import Mathlib.Logic.Function.Basic

/-!
# Prefix codes

Encodings of data as lists of symbols whose words can be told apart when they are written one after
the other. What may come after a word can be restricted: a decimal number is only told apart from
another one if no further digit follows.
-/

/-- The words `word a` can be told apart, in front of anything that satisfies `follow`. -/
def PrefixCode {S α : Type} (follow : List S → Prop) (word : α → List S) : Prop :=
  ∀ a b x y, follow x → follow y → word a ++ x = word b ++ y → a = b ∧ x = y

namespace PrefixCode

variable {S α β : Type} {follow : List S → Prop} {word : α → List S} {word' : β → List S}

theorem injective (h : PrefixCode follow word) (hnil : follow []) : Function.Injective word :=
  fun a b hab => (h a b [] [] hnil hnil (by rw [hab])).1

/-- A code of what determines a value is a code of the value. -/
theorem comap (h : PrefixCode follow word') {f : α → β} (hf : Function.Injective f) :
    PrefixCode follow fun a => word' (f a) := by
  intro a b x y hx hy hab
  obtain ⟨h1, h2⟩ := h _ _ _ _ hx hy hab
  exact ⟨hf h1, h2⟩

/-- One part after the other. -/
theorem pair (h : PrefixCode follow word) (h' : PrefixCode follow word')
    (hfollow : ∀ b x, follow x → follow (word' b ++ x)) :
    PrefixCode follow fun p : α × β => word p.1 ++ word' p.2 := by
  intro p q x y hx hy hpq
  simp only [List.append_assoc] at hpq
  obtain ⟨h1, hrest⟩ := h _ _ _ _ (hfollow _ _ hx) (hfollow _ _ hy) hpq
  obtain ⟨h2, hxy⟩ := h' _ _ _ _ hx hy hrest
  exact ⟨Prod.ext h1 h2, hxy⟩

/-- A fixed beginning is read off. -/
theorem after (h : PrefixCode follow word) (begin_ : List S) :
    PrefixCode follow fun a => begin_ ++ word a := by
  intro a b x y hx hy hab
  simp only [List.append_assoc] at hab
  exact h _ _ _ _ hx hy (List.append_cancel_left hab)

/-- A fixed end that may follow a word makes the word readable in front of anything. -/
theorem before (h : PrefixCode follow word) (end_ : List S) (hend : ∀ x, follow (end_ ++ x)) :
    PrefixCode (fun _ => True) fun a => word a ++ end_ := by
  intro a b x y _ _ hab
  simp only [List.append_assoc] at hab
  obtain ⟨h1, h2⟩ := h _ _ _ _ (hend x) (hend y) hab
  exact ⟨h1, List.append_cancel_left h2⟩

theorem mono (h : PrefixCode (fun _ => True) word) : PrefixCode follow word :=
  fun a b x y _ _ hab => h a b x y trivial trivial hab

theorem symbol : PrefixCode (fun _ => True) fun a : S => [a] := by
  intro a b x y _ _ h
  simpa using h

/-- Lists of the same length, as their elements. -/
theorem flatMap_append_inj (h : PrefixCode (fun _ => True) word) (k l : List α) (x y : List S)
    (hlen : k.length = l.length) (hkl : k.flatMap word ++ x = l.flatMap word ++ y) :
    k = l ∧ x = y := by
  induction k generalizing l with
  | nil =>
    cases l with
    | nil => exact ⟨rfl, hkl⟩
    | cons b l => cases hlen
  | cons a k ih =>
    cases l with
    | nil => cases hlen
    | cons b l =>
      simp only [List.flatMap_cons, List.append_assoc] at hkl
      obtain ⟨hab, hkl⟩ := h _ _ _ _ trivial trivial hkl
      obtain ⟨hkl, hxy⟩ := ih l (Nat.succ.inj hlen) hkl
      exact ⟨by rw [hab, hkl], hxy⟩

/-- A list as its length and its elements. -/
theorem list {number : Nat → List S} (hn : PrefixCode (fun _ => True) number)
    (h : PrefixCode (fun _ => True) word) :
    PrefixCode (fun _ => True) fun l : List α => number l.length ++ l.flatMap word := by
  intro k l x y _ _ hkl
  simp only [List.append_assoc] at hkl
  obtain ⟨hlen, hkl⟩ := hn _ _ _ _ trivial trivial hkl
  exact h.flatMap_append_inj k l x y hlen hkl

/-! ## Numbers -/

/-- The base 128 digits of a number, all but the last with 128 added to them. -/
def digits : Nat → Nat → List UInt8
  | 0, n => [UInt8.ofNat (n % 128)]
  | fuel + 1, n =>
    if n < 128 then [UInt8.ofNat n] else UInt8.ofNat (128 + n % 128) :: digits fuel (n / 128)

/-- A number as bytes. -/
def nat (n : Nat) : List UInt8 := digits n n

theorem digits_append_inj (f g m n : Nat) (x y : List UInt8) (hf : m ≤ f) (hg : n ≤ g)
    (h : digits f m ++ x = digits g n ++ y) : m = n ∧ x = y := by
  induction f generalizing g m n with
  | zero =>
    obtain rfl : m = 0 := by omega
    cases g with
    | zero => obtain rfl : n = 0 := by omega
              exact ⟨rfl, by simpa [digits] using h⟩
    | succ g =>
      unfold digits at h
      split at h
      · simp only [List.cons_append, List.nil_append, List.cons.injEq, ← UInt8.toNat_inj] at h
        simp at h
        exact ⟨by omega, h.2⟩
      · simp only [List.cons_append, List.nil_append, List.cons.injEq, ← UInt8.toNat_inj] at h
        simp at h
        omega
  | succ f ih =>
    cases g with
    | zero =>
      obtain rfl : n = 0 := by omega
      unfold digits at h
      split at h
      · simp only [List.cons_append, List.nil_append, List.cons.injEq, ← UInt8.toNat_inj] at h
        simp at h
        exact ⟨by omega, h.2⟩
      · simp only [List.cons_append, List.nil_append, List.cons.injEq, ← UInt8.toNat_inj] at h
        simp at h
        omega
    | succ g =>
      unfold digits at h
      split at h <;> split at h <;>
        simp only [List.cons_append, List.nil_append, List.cons.injEq, ← UInt8.toNat_inj] at h <;>
        simp at h
      · exact ⟨by omega, h.2⟩
      · omega
      · omega
      · obtain ⟨hd, ht⟩ := h
        obtain ⟨hq, hxy⟩ := ih g (m / 128) (n / 128) (by omega) (by omega) ht
        exact ⟨by omega, hxy⟩

theorem nat_prefixCode : PrefixCode (fun _ => True) nat := fun m n x y _ _ h =>
  digits_append_inj m n m n x y (Nat.le_refl _) (Nat.le_refl _) h

end PrefixCode
