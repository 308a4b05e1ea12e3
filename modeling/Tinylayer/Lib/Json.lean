import Mathlib.Algebra.BigOperators.Group.List.Basic
import Mathlib.Algebra.Order.BigOperators.Group.List
import Tinylayer.Lib.PrefixCode

/-!
# JSON text

The bytes of JSON values, put together from the bytes of their parts, how long they are, and that
values without white space can be told apart by them. Texts are written as they are: none of the
texts written here has a character that JSON escapes.
-/

namespace Json

/-- The UTF-8 bytes of a text. -/
def utf8 (s : String) : List UInt8 := s.toByteArray.data.toList

def text (s : String) : List UInt8 := 0x22 :: (utf8 s ++ [0x22])

/-- The decimal digits of a number that has at most `fuel + 1` of them. -/
def decimal : Nat → Nat → List UInt8
  | 0, n => [UInt8.ofNat (48 + n % 10)]
  | fuel + 1, n =>
    if n < 10 then [UInt8.ofNat (48 + n)] else decimal fuel (n / 10) ++ [UInt8.ofNat (48 + n % 10)]

def number (n : Nat) : List UInt8 := decimal n n

def int : Int → List UInt8
  | .ofNat n => number n
  | .negSucc n => 0x2d :: number (n + 1)

/-- The items with commas in between. -/
def sequence : List (List UInt8) → List UInt8
  | [] => []
  | item :: items => item ++ items.flatMap fun item => 0x2c :: item

def array (items : List (List UInt8)) : List UInt8 := 0x5b :: (sequence items ++ [0x5d])

def field (name : String) (value : List UInt8) : List UInt8 := text name ++ 0x3a :: value

def object (fields : List (List UInt8)) : List UInt8 := 0x7b :: (sequence fields ++ [0x7d])

/-- A field as it stands on a line of its own. -/
def prettyField (name : String) (value : List UInt8) : List UInt8 :=
  text name ++ 0x3a :: 0x20 :: value

/-- An object with one field a line, indented by two blanks. -/
def prettyObject : List (List UInt8) → List UInt8
  | [] => [0x7b, 0x7d]
  | field :: fields =>
    0x7b :: 0x0a :: 0x20 :: 0x20 :: field ++
      fields.flatMap (fun field => 0x2c :: 0x0a :: 0x20 :: 0x20 :: field) ++ [0x0a, 0x7d]

/-! ## Sizes -/

@[simp] theorem length_text (s : String) : (text s).length = s.utf8ByteSize + 2 := by
  have h : (utf8 s).length = s.utf8ByteSize := by
    rw [← String.size_toByteArray, utf8, Array.length_toList]
    rfl
  simp [text, h]

/-- Items that are no longer make a sequence that is no longer. -/
theorem length_sequence_le {k l : List (List UInt8)}
    (h : List.Forall₂ (fun a b => a.length ≤ b.length) k l) :
    (sequence k).length ≤ (sequence l).length := by
  cases h with
  | nil => exact Nat.le_refl _
  | cons hab hrest =>
    simp only [sequence, List.length_append]
    refine Nat.add_le_add hab ?_
    induction hrest with
    | nil => exact Nat.le_refl _
    | cons hab _ ih => simp only [List.flatMap_cons, List.length_append, List.length_cons]; omega

theorem length_array_le {k l : List (List UInt8)}
    (h : List.Forall₂ (fun a b => a.length ≤ b.length) k l) :
    (array k).length ≤ (array l).length := by
  have := length_sequence_le h
  simp only [array, List.length_cons, List.length_append]
  omega

theorem length_object_le {k l : List (List UInt8)}
    (h : List.Forall₂ (fun a b => a.length ≤ b.length) k l) :
    (object k).length ≤ (object l).length := by
  have := length_sequence_le h
  simp only [object, List.length_cons, List.length_append]
  omega

theorem length_field_le {name : String} {v w : List UInt8} (h : v.length ≤ w.length) :
    (field name v).length ≤ (field name w).length := by
  simp only [field, List.length_append, List.length_cons]
  omega

/-- A byte has at most three digits, as many as 255. -/
theorem length_number_byte (b : UInt8) : (number b.toNat).length ≤ (number 255).length := by
  have hall : ∀ i : Fin 256, (number i).length ≤ (number 255).length := by decide +kernel
  exact hall ⟨b.toNat, b.toNat_lt⟩

/-! ## Telling values apart -/

/-- What comes after a value: nothing, or a comma or a closing bracket. -/
def Ends (x : List UInt8) : Prop := ∀ b ∈ x.head?, b = 0x2c ∨ b = 0x5d ∨ b = 0x7d

/-- The words of `v` end where something else begins. -/
def Separable {α : Type} (v : α → List UInt8) : Prop :=
  ∀ a b x y, Ends x → Ends y → v a ++ x = v b ++ y → v a = v b ∧ x = y

section Separable

variable {α β : Type}

theorem Separable.of_prefixCode {v : α → List UInt8} (h : PrefixCode Ends v) : Separable v := by
  intro a b x y hx hy hab
  obtain ⟨rfl, hxy⟩ := h a b x y hx hy hab
  exact ⟨rfl, hxy⟩

theorem Separable.comap {v : β → List UInt8} (h : Separable v) (f : α → β) :
    Separable fun a => v (f a) := fun a b => h (f a) (f b)

/-- Where two lists first meet a symbol, they agree up to it. -/
theorem append_cons_inj {c : UInt8} {k l x y : List UInt8} (hk : c ∉ k) (hl : c ∉ l)
    (h : k ++ c :: x = l ++ c :: y) : k = l ∧ x = y := by
  induction k generalizing l with
  | nil =>
    cases l with
    | nil => exact ⟨rfl, (List.cons.inj h).2⟩
    | cons b l => exact absurd (List.mem_cons.2 (Or.inl (List.cons.inj h).1)) hl
  | cons a k ih =>
    cases l with
    | nil => exact absurd (List.mem_cons.2 (Or.inl (List.cons.inj h).1.symm)) hk
    | cons b l =>
      obtain ⟨rfl, hrest⟩ := List.cons.inj h
      obtain ⟨rfl, hxy⟩ := ih (fun hc => hk (List.mem_cons_of_mem _ hc))
        (fun hc => hl (List.mem_cons_of_mem _ hc)) hrest
      exact ⟨rfl, hxy⟩

theorem utf8_injective : Function.Injective utf8 := by
  intro s t h
  refine String.toByteArray_inj.1 ?_
  exact ByteArray.ext (Array.toList_inj.1 h)

theorem text_prefixCode {f : α → String} (hf : Function.Injective f)
    (hquote : ∀ a, 0x22 ∉ utf8 (f a)) : PrefixCode (fun _ => True) fun a => text (f a) := by
  intro a b x y _ _ h
  simp only [text, List.cons_append, List.append_assoc, List.cons.injEq, true_and,
    List.nil_append] at h
  obtain ⟨hab, hxy⟩ := append_cons_inj (hquote a) (hquote b) h
  exact ⟨hf (utf8_injective hab), hxy⟩

/-! ### Numbers -/

/-- The number that a list of decimal digits stands for. -/
def digitsValue (w : List UInt8) : Nat := w.foldl (fun n b => 10 * n + (b.toNat - 48)) 0

theorem digitsValue_concat (w : List UInt8) (b : UInt8) :
    digitsValue (w ++ [b]) = 10 * digitsValue w + (b.toNat - 48) := by
  simp [digitsValue]

def IsDigit (b : UInt8) : Prop := 48 ≤ b.toNat ∧ b.toNat ≤ 57

theorem toNat_digit {n : Nat} (h : n < 10) : (UInt8.ofNat (48 + n)).toNat = 48 + n := by
  rw [UInt8.toNat_ofNat']
  omega

theorem decimal_spec (fuel n : Nat) (h : n ≤ fuel) :
    digitsValue (decimal fuel n) = n ∧ (∀ b ∈ decimal fuel n, IsDigit b) ∧ decimal fuel n ≠ [] := by
  induction fuel generalizing n with
  | zero =>
    obtain rfl := Nat.le_zero.1 h
    refine ⟨rfl, ?_, List.cons_ne_nil _ _⟩
    intro b hb
    rw [List.mem_singleton.1 hb]
    exact ⟨by decide, by decide⟩
  | succ fuel ih =>
    unfold decimal
    split
    · rename_i hlt
      refine ⟨?_, ?_, List.cons_ne_nil _ _⟩
      · rw [digitsValue, List.foldl_cons, List.foldl_nil, toNat_digit hlt]
        omega
      · intro b hb
        rw [List.mem_singleton.1 hb, IsDigit, toNat_digit hlt]
        omega
    · obtain ⟨hvalue, hdigits, hne⟩ := ih (n / 10) (by omega)
      have hmod : n % 10 < 10 := Nat.mod_lt _ (by decide)
      refine ⟨?_, ?_, by simp⟩
      · rw [digitsValue_concat, hvalue, toNat_digit hmod]
        omega
      · intro b hb
        rcases List.mem_append.1 hb with hb | hb
        · exact hdigits b hb
        · rw [List.mem_singleton.1 hb, IsDigit, toNat_digit hmod]
          omega

theorem number_injective : Function.Injective number := by
  intro m n h
  rw [← (decimal_spec m m (Nat.le_refl m)).1, ← (decimal_spec n n (Nat.le_refl n)).1]
  exact congrArg digitsValue h

/-- Two runs of digits with something else behind them. -/
theorem digits_append_inj {k l x y : List UInt8} (hk : ∀ b ∈ k, IsDigit b) (hl : ∀ b ∈ l, IsDigit b)
    (hx : Ends x) (hy : Ends y) (h : k ++ x = l ++ y) : k = l ∧ x = y := by
  have hends : ∀ {z : List UInt8} {b : UInt8} {w}, Ends z → z = b :: w → ¬ IsDigit b := by
    rintro z b w hz rfl ⟨h1, h2⟩
    rcases hz b rfl with rfl | rfl | rfl <;> revert h1 h2 <;> decide
  induction k generalizing l with
  | nil =>
    cases l with
    | nil => exact ⟨rfl, h⟩
    | cons b l => exact absurd (hl b List.mem_cons_self) (hends hx h)
  | cons a k ih =>
    cases l with
    | nil => exact absurd (hk a List.mem_cons_self) (hends hy h.symm)
    | cons b l =>
      obtain ⟨rfl, hrest⟩ := List.cons.inj h
      obtain ⟨rfl, hxy⟩ := ih (fun c hc => hk c (List.mem_cons_of_mem _ hc))
        (fun c hc => hl c (List.mem_cons_of_mem _ hc)) hrest
      exact ⟨rfl, hxy⟩

theorem number_prefixCode : PrefixCode Ends number := by
  intro m n x y hx hy h
  obtain ⟨hmn, hxy⟩ := digits_append_inj (decimal_spec m m (Nat.le_refl m)).2.1
    (decimal_spec n n (Nat.le_refl n)).2.1 hx hy h
  exact ⟨number_injective hmn, hxy⟩

theorem head_number (n : Nat) : ∃ b w, number n = b :: w ∧ IsDigit b := by
  obtain ⟨_, hdigits, hne⟩ := decimal_spec n n (Nat.le_refl n)
  obtain ⟨b, w, hw⟩ := List.exists_cons_of_ne_nil hne
  exact ⟨b, w, hw, hdigits b (by rw [hw]; exact List.mem_cons_self)⟩

theorem int_prefixCode : PrefixCode Ends int := by
  have hminus : ∀ (n : Nat) (w x y : List UInt8), number n ++ x ≠ 0x2d :: w ++ y := by
    intro n w x y h
    obtain ⟨b, v, hb, h1, _⟩ := head_number n
    rw [hb, List.cons_append, List.cons_append] at h
    rw [(List.cons.inj h).1] at h1
    revert h1
    decide
  intro i j x y hx hy h
  cases i with
  | ofNat m =>
    cases j with
    | ofNat n =>
      obtain ⟨rfl, hxy⟩ := number_prefixCode m n x y hx hy h
      exact ⟨rfl, hxy⟩
    | negSucc n => exact absurd h (hminus m _ x y)
  | negSucc m =>
    cases j with
    | ofNat n => exact absurd h.symm (hminus n _ y x)
    | negSucc n =>
      obtain ⟨hmn, hxy⟩ := number_prefixCode _ _ x y hx hy (List.cons.inj h).2
      obtain rfl := Nat.succ.inj hmn
      exact ⟨rfl, hxy⟩

/-! ### Arrays and objects -/

/-- The rest of an array or an object, up to the closing bracket. -/
theorem Ends.rest {c : UInt8} (hc : c = 0x5d ∨ c = 0x7d) (items : List (List UInt8))
    (x : List UInt8) : Ends ((items.flatMap fun item => 0x2c :: item) ++ c :: x) := by
  cases items with
  | nil =>
    rintro b ⟨⟩
    exact Or.inr hc
  | cons item items =>
    rintro b ⟨⟩
    exact Or.inl rfl

theorem array_prefixCode {item : α → List UInt8} (hitem : PrefixCode Ends item)
    (hhead : ∀ a, ∃ b w, item a = b :: w ∧ b ≠ 0x5d) :
    PrefixCode (fun _ => True) fun l : List α => array (l.map item) := by
  have hrest : ∀ (k l : List α) (x y : List UInt8),
      ((k.map item).flatMap fun item => 0x2c :: item) ++ 0x5d :: x =
        ((l.map item).flatMap fun item => 0x2c :: item) ++ 0x5d :: y → k = l ∧ x = y := by
    intro k
    induction k with
    | nil =>
      intro l x y h
      cases l with
      | nil => exact ⟨rfl, (List.cons.inj h).2⟩
      | cons b l => exact absurd (List.cons.inj h).1 (by decide)
    | cons a k ih =>
      intro l x y h
      cases l with
      | nil => exact absurd (List.cons.inj h).1 (by decide)
      | cons b l =>
        simp only [List.map_cons, List.flatMap_cons, List.cons_append, List.append_assoc,
          List.cons.injEq, true_and] at h
        obtain ⟨rfl, h'⟩ := hitem a b _ _ (.rest (Or.inl rfl) _ x) (.rest (Or.inl rfl) _ y) h
        obtain ⟨rfl, hxy⟩ := ih l x y h'
        exact ⟨rfl, hxy⟩
  intro k l x y _ _ h
  simp only [array, List.cons_append, List.append_assoc, List.cons.injEq, true_and,
    List.nil_append] at h
  cases k with
  | nil =>
    cases l with
    | nil => exact ⟨rfl, (List.cons.inj h).2⟩
    | cons b l =>
      obtain ⟨c, w, hc, hne⟩ := hhead b
      simp only [List.map_cons, sequence, hc, List.cons_append] at h
      exact absurd (List.cons.inj h).1.symm hne
  | cons a k =>
    cases l with
    | nil =>
      obtain ⟨c, w, hc, hne⟩ := hhead a
      simp only [List.map_cons, sequence, hc, List.cons_append] at h
      exact absurd (List.cons.inj h).1 hne
    | cons b l =>
      simp only [List.map_cons, sequence, List.append_assoc] at h
      obtain ⟨rfl, h'⟩ := hitem a b _ _ (.rest (Or.inl rfl) _ x) (.rest (Or.inl rfl) _ y) h
      obtain ⟨rfl, hxy⟩ := hrest k l x y h'
      exact ⟨rfl, hxy⟩

/-- An object whose fields determine a value is a code of the value. -/
theorem object_prefixCode (fields : List (String × (α → List UInt8)))
    (hsep : ∀ f ∈ fields, Separable f.2)
    (hdet : ∀ a b, (∀ f ∈ fields, f.2 a = f.2 b) → a = b) :
    PrefixCode (fun _ => True) fun a => object (fields.map fun f => field f.1 (f.2 a)) := by
  have hrest : ∀ (l : List (String × (α → List UInt8))), (∀ f ∈ l, Separable f.2) →
      ∀ (a b : α) (x y : List UInt8),
      ((l.map fun f => field f.1 (f.2 a)).flatMap fun item => 0x2c :: item) ++ 0x7d :: x =
        ((l.map fun f => field f.1 (f.2 b)).flatMap fun item => 0x2c :: item) ++ 0x7d :: y →
      (∀ f ∈ l, f.2 a = f.2 b) ∧ x = y := by
    intro l hl a b x y h
    induction l with
    | nil => exact ⟨by simp, (List.cons.inj h).2⟩
    | cons f l ih =>
      simp only [List.map_cons, List.flatMap_cons, field, List.cons_append, List.append_assoc,
        List.cons.injEq, true_and] at h
      obtain ⟨hf, h'⟩ := hl f List.mem_cons_self a b _ _ (.rest (Or.inr rfl) _ x)
        (.rest (Or.inr rfl) _ y) (List.cons.inj (List.append_cancel_left h)).2
      obtain ⟨hfields, hxy⟩ := ih (fun g hg => hl g (List.mem_cons_of_mem _ hg)) h'
      exact ⟨List.forall_mem_cons.2 ⟨hf, hfields⟩, hxy⟩
  intro a b x y _ _ h
  simp only [object, List.cons_append, List.append_assoc, List.cons.injEq, true_and,
    List.nil_append] at h
  cases fields with
  | nil => exact ⟨hdet a b (by simp), (List.cons.inj h).2⟩
  | cons f fields =>
    simp only [List.map_cons, sequence, field, List.cons_append, List.append_assoc] at h
    obtain ⟨hf, h'⟩ := hsep f List.mem_cons_self a b _ _ (.rest (Or.inr rfl) _ x)
      (.rest (Or.inr rfl) _ y) (List.cons.inj (List.append_cancel_left h)).2
    obtain ⟨hfields, hxy⟩ := hrest fields (fun g hg => hsep g (List.mem_cons_of_mem _ hg)) a b x y h'
    exact ⟨hdet a b (List.forall_mem_cons.2 ⟨hf, hfields⟩), hxy⟩

end Separable

end Json
