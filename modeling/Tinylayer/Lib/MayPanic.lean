import Mathlib.Algebra.Order.Ring.Nat
import Tinylayer.Lib.Fallible

/-!
# Computations that may panic

Computations on machine integers and arrays. Besides failing with an error they can panic: where a
sum or a product does not fit its type, or where an index is out of bounds. `Computes x y` says that
`x` does not panic, and that it gives what `y` gives, which computes with unbounded numbers.
-/

/-- A computation that gives a value, fails with an error, or panics. -/
abbrev MayPanic (ε α : Type) : Type := ExceptT ε Option α

namespace MayPanic

variable {ε α β : Type}

/-- A computation that cannot panic. -/
def of (x : Except ε α) : MayPanic ε α := ExceptT.mk (some x)

instance : MonadLift (Except ε) (ExceptT ε Option) := ⟨of⟩

def panicked : MayPanic ε α := ExceptT.mk none

/-- `a + b`, of an unsigned type of the given width. -/
def add (width a b : Nat) : MayPanic ε Nat :=
  if a + b < 2 ^ width then pure (a + b) else panicked

/-- `a - b`, of an unsigned type. -/
def sub (a b : Nat) : MayPanic ε Nat := if b ≤ a then pure (a - b) else panicked

/-- `a * b`, of an unsigned type of the given width. -/
def mul (width a b : Nat) : MayPanic ε Nat :=
  if a * b < 2 ^ width then pure (a * b) else panicked

/-- `l[i]`. -/
def index (l : List α) (i : Nat) : MayPanic ε α :=
  match l[i]? with
  | some a => pure a
  | none => panicked

/-- `o.expect(..)`. -/
def expect (o : Option α) : MayPanic ε α :=
  match o with
  | some a => pure a
  | none => panicked

/-- `for a in l`, with a body that can fail or panic. -/
def each (f : α → MayPanic ε Unit) : List α → MayPanic ε Unit
  | [] => pure ()
  | a :: l => f a >>= fun _ => each f l

/-- `l.iter().all(..)`, with a predicate that can panic. -/
def all (f : α → MayPanic ε Bool) : List α → MayPanic ε Bool
  | [] => pure true
  | a :: l => do if ← f a then all f l else return false

/-- `l.windows(2)`: the slices of two neighbours. -/
def slices (l : List α) : List (List α) := (windows l).map fun pair => [pair.1, pair.2]

/-- `a.checked_mul(b)`, of an unsigned type of the given width. -/
def checkedMul (width a b : Nat) : Option Nat := if a * b < 2 ^ width then some (a * b) else none

/-- The same computation with other errors. -/
def mapError {ε' : Type} (f : ε → ε') (x : MayPanic ε α) : MayPanic ε' α :=
  ExceptT.mk (x.run.map (Except.mapError f))

/-- The result of a computation; a panic is the failure `e`. -/
def orElse (x : MayPanic ε α) (e : ε) : Except ε α := x.run.getD (.error e)

theorem checkedMul_eq {width a b : Nat} (h : a * b < 2 ^ width) :
    checkedMul width a b = some (a * b) := if_pos h

/-! ## Computations that do not panic -/

/-- `x` does not panic, and gives what `y` gives. -/
def Computes (x : MayPanic ε α) (y : Except ε α) : Prop := x.run = some y

namespace Computes

variable {x : MayPanic ε α} {y : Except ε α} {f : α → MayPanic ε β} {g : α → Except ε β}
  {z : Except ε β}

theorem of (y : Except ε α) : Computes (MayPanic.of y) y := rfl

theorem pure (a : α) : Computes (Pure.pure a : MayPanic ε α) (.ok a) := rfl

theorem bind (hx : Computes x y) (hf : ∀ a, y = .ok a → Computes (f a) (g a)) :
    Computes (x >>= f) (y >>= g) := by
  unfold Computes at hx
  show (x.run >>= ExceptT.bindCont f) = some _
  rw [hx]
  cases y with
  | ok a => exact hf a rfl
  | error e => rfl

/-- A value that only one side computes. -/
theorem value {a : α} (hx : Computes x (.ok a)) (hf : Computes (f a) z) : Computes (x >>= f) z :=
  bind (y := .ok a) (g := fun _ => z) hx fun _ h => Except.ok.inj h ▸ hf

/-- A value that only the other side computes. -/
theorem given {x : MayPanic ε β} {a : α} (hy : y = .ok a) (h : Computes x (g a)) :
    Computes x (y >>= g) := by
  subst hy
  exact h

/-- The same check on both sides. -/
theorem check (hf : ∀ a, y = .ok a → Computes (f a) (g a)) :
    Computes (MayPanic.of y >>= f) (y >>= g) := bind (of y) hf

/-- A check that only one side makes, and that holds. -/
theorem passed {p : Prop} [Decidable p] {e : ε} {f : Unit → MayPanic ε β} (h : p)
    (hf : Computes (f ()) z) : Computes (MayPanic.of (ensure p e) >>= f) z := by
  rw [ensure, if_pos h]
  exact hf

/-- A check that fails. -/
theorem refused {p : Prop} [Decidable p] {e : ε} {f : Unit → MayPanic ε β} (h : ¬p) :
    Computes (MayPanic.of (ensure p e) >>= f) (.error e) := by
  rw [ensure, if_neg h]
  rfl

theorem add {f : Nat → MayPanic ε β} {width a b : Nat} (h : a + b < 2 ^ width)
    (hf : Computes (f (a + b)) z) : Computes (MayPanic.add width a b >>= f) z := by
  rw [MayPanic.add, if_pos h]
  exact hf

theorem sub {f : Nat → MayPanic ε β} {a b : Nat} (h : b ≤ a) (hf : Computes (f (a - b)) z) :
    Computes (MayPanic.sub a b >>= f) z := by
  rw [MayPanic.sub, if_pos h]
  exact hf

theorem mul {f : Nat → MayPanic ε β} {width a b : Nat} (h : a * b < 2 ^ width)
    (hf : Computes (f (a * b)) z) : Computes (MayPanic.mul width a b >>= f) z := by
  rw [MayPanic.mul, if_pos h]
  exact hf

theorem index {l : List α} {i : Nat} {a : α} (h : l[i]? = some a) (hf : Computes (f a) z) :
    Computes (MayPanic.index l i >>= f) z := by
  rw [MayPanic.index, h]
  exact hf

theorem expect {o : Option α} {a : α} (h : o = some a) (hf : Computes (f a) z) :
    Computes (MayPanic.expect o >>= f) z := by
  subst h
  exact hf

/-- A loop whose body computes a check. -/
theorem each {f : α → MayPanic ε Unit} {g : α → Except ε Unit} {l : List α}
    (h : ∀ a ∈ l, Computes (f a) (g a)) : Computes (MayPanic.each f l) (checkAll g l) := by
  induction l with
  | nil => exact pure ()
  | cons a l ih =>
    rw [List.forall_mem_cons] at h
    exact bind h.1 fun _ _ => ih h.2

/-- A loop over the slices of two neighbours, which reads both. -/
theorem each_slices {f : List α → MayPanic ε Unit} {g : α × α → Except ε Unit} {l : List α}
    (h : ∀ a b, Computes (f [a, b]) (g (a, b))) :
    Computes (MayPanic.each f (slices l)) (checkAll g (windows l)) := by
  unfold slices
  induction windows l with
  | nil => exact pure ()
  | cons pair pairs ih => exact bind (h pair.1 pair.2) fun _ _ => ih

/-- A test of all slices of two neighbours, which reads both. -/
theorem all_slices {f : List α → MayPanic ε Bool} {p : α × α → Bool} {l : List α}
    (h : ∀ a b, Computes (f [a, b]) (.ok (p (a, b)))) :
    Computes (MayPanic.all f (slices l)) (.ok ((windows l).all p)) := by
  unfold slices
  induction windows l with
  | nil => exact pure true
  | cons pair pairs ih =>
    rw [List.map_cons, MayPanic.all, List.all_cons]
    refine bind (y := .ok (p pair)) (g := fun b => .ok (b && pairs.all p)) (h pair.1 pair.2)
      fun b hp => ?_
    obtain rfl := Except.ok.inj hp
    cases p pair with
    | true => exact ih
    | false => exact pure false

theorem orElse (h : Computes x y) (e : ε) : x.orElse e = y := by
  unfold Computes at h
  rw [MayPanic.orElse, h, Option.getD_some]

theorem mapError {ε' : Type} (h : Computes x y) (e : ε → ε') :
    Computes (MayPanic.mapError e x) (y.mapError e) := by
  unfold Computes at h
  show x.run.map (Except.mapError e) = some _
  rw [h]
  rfl

end Computes

end MayPanic
