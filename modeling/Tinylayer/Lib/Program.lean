import Mathlib.Logic.Relation
import Mathlib.Tactic.Common

/-!
# Programs with a saved state

A program reads and replaces one saved state, and asks questions of other parties. Replacing the
state can fail before or after the new state is saved, the answers are arbitrary, and the program can
be stopped at any point, after which another one starts from what is saved. The log of a world holds
what was written and asked.

A contract says what a program may write and ask in a given world. A program is safe if it keeps to
the contract whatever it is answered and wherever its writes fail; then all that happens in the life
of the saved state is guarded by the contract.
-/

namespace Durable

/-- A program over a saved state of type `σ` that asks questions of type `Q`. -/
inductive Program (σ Q : Type) (R : Q → Type) (ε α : Type)
  | done (result : Except ε α)
  | read (next : σ → Program σ Q R ε α)
  | write (state : σ) (next : Except ε Unit → Program σ Q R ε α)
  | ask (query : Q) (next : R query → Program σ Q R ε α)

variable {σ Q : Type} {R : Q → Type} {ε α β : Type}

namespace Program

def bind (x : Program σ Q R ε α) (f : α → Program σ Q R ε β) : Program σ Q R ε β :=
  match x with
  | done (.ok a) => f a
  | done (.error e) => done (.error e)
  | read next => read fun state => (next state).bind f
  | write state next => write state fun result => (next result).bind f
  | ask query next => ask query fun reply => (next reply).bind f

instance : Monad (Program σ Q R ε) where
  pure a := done (.ok a)
  bind := bind

/-- A computation that needs nothing else. -/
def of (result : Except ε α) : Program σ Q R ε α := done result

/-- The saved state. -/
def saved : Program σ Q R ε σ := read fun state => done (.ok state)

/-- Replaces the saved state. -/
def replace (state : σ) : Program σ Q R ε Unit := write state done

/-- A question, and its answer. -/
def question (query : Q) : Program σ Q R ε (R query) := ask query fun reply => done (.ok reply)

end Program

/-! ## Runs -/

/-- Something that a command did. -/
inductive Action (σ Q : Type) (R : Q → Type)
  | wrote (state : σ)
  | asked (query : Q) (reply : R query)

/-- An action, with the command that did it and the state that was saved at the time. -/
structure Event (C σ Q : Type) (R : Q → Type) where
  command : C
  saved : σ
  action : Action σ Q R

/-- The event saved `state`. -/
def Event.Wrote {C : Type} (event : Event C σ Q R) (state : σ) : Prop := event.action = .wrote state

/-- The event asked `query`. -/
def Event.Asked {C : Type} (event : Event C σ Q R) (query : Q) : Prop :=
  ∃ reply, event.action = .asked query reply

/-- The saved state, the state of the other parties, and what happened. -/
structure World (C σ Q : Type) (R : Q → Type) (E : Type) where
  saved : σ
  env : E
  log : List (Event C σ Q R)

/-- How the other parties can answer, and where they are afterwards. -/
abbrev Environment (Q : Type) (R : Q → Type) (E : Type) := E → (query : Q) → R query → E → Prop

variable {C E : Type}

namespace World

/-- The command `c` saved `state`. -/
def wrote (w : World C σ Q R E) (c : C) (state : σ) : World C σ Q R E :=
  { w with saved := state, log := w.log ++ [⟨c, w.saved, .wrote state⟩] }

/-- The command `c` asked `query`. -/
def asked (w : World C σ Q R E) (c : C) (query : Q) (reply : R query) (env : E) :
    World C σ Q R E :=
  { w with env, log := w.log ++ [⟨c, w.saved, .asked query reply⟩] }

variable (w : World C σ Q R E) (c : C)

@[simp] theorem wrote_saved (state : σ) : (w.wrote c state).saved = state := rfl
@[simp] theorem wrote_env (state : σ) : (w.wrote c state).env = w.env := rfl
@[simp] theorem wrote_log (state : σ) :
    (w.wrote c state).log = w.log ++ [⟨c, w.saved, .wrote state⟩] := rfl

variable (query : Q) (reply : R query) (env : E)

@[simp] theorem asked_saved : (w.asked c query reply env).saved = w.saved := rfl
@[simp] theorem asked_env : (w.asked c query reply env).env = env := rfl
@[simp] theorem asked_log :
    (w.asked c query reply env).log = w.log ++ [⟨c, w.saved, .asked query reply⟩] := rfl

end World

/-- One step of the command `c`. A write that reports an error may have saved the state. -/
inductive Step (env : Environment Q R E) (c : C) :
    World C σ Q R E × Program σ Q R ε α → World C σ Q R E × Program σ Q R ε α → Prop
  | read {w next} : Step env c (w, .read next) (w, next w.saved)
  | written {w state next} :
      Step env c (w, .write state next) (w.wrote c state, next (.ok ()))
  | unconfirmed {w state next} (e : ε) :
      Step env c (w, .write state next) (w.wrote c state, next (.error e))
  | refused {w state next} (e : ε) : Step env c (w, .write state next) (w, next (.error e))
  | answered {w query next reply e} (h : env w.env query reply e) :
      Step env c (w, .ask query next) (w.asked c query reply e, next reply)

/-- Any number of steps. -/
abbrev Steps (env : Environment Q R E) (c : C) :
    World C σ Q R E × Program σ Q R ε α → World C σ Q R E × Program σ Q R ε α → Prop :=
  Relation.ReflTransGen (Step env c)

/-- Any number of commands, one after the other, each of them stopped at any point. -/
inductive Life (env : Environment Q R E) (commands : C → Program σ Q R ε α) :
    World C σ Q R E → World C σ Q R E → Prop
  | refl (w) : Life env commands w w
  | command {w v u} (h : Life env commands w v) (c : C) {rest}
      (run : Steps env c (v, commands c) (u, rest)) : Life env commands w u

theorem Life.trans {env : Environment Q R E} {commands : C → Program σ Q R ε α}
    {w v u : World C σ Q R E} (h : Life env commands w v) (h' : Life env commands v u) :
    Life env commands w u := by
  induction h' with
  | refl => exact h
  | command _ c run ih => exact ih.command c run

/-! ## Contracts -/

/-- What always holds, and what a command may write and ask. -/
structure Contract (C σ Q : Type) (R : Q → Type) (E : Type) where
  inv : World C σ Q R E → Prop
  write : C → World C σ Q R E → σ → Prop
  ask : C → World C σ Q R E → Q → Prop

/-- What always holds is kept by all that the contract allows. -/
structure Contract.Stable (K : Contract C σ Q R E) (env : Environment Q R E) : Prop where
  wrote : ∀ {c w state}, K.inv w → K.write c w state → K.inv (w.wrote c state)
  asked : ∀ {c w query reply e}, K.inv w → K.ask c w query → env w.env query reply e →
    K.inv (w.asked c query reply e)

variable (env : Environment Q R E) (K : Contract C σ Q R E) (c : C)

/-- Whatever is answered and wherever a write fails, the program keeps to the contract, and `post`
holds of the value it ends with. -/
def Safe (post : α → World C σ Q R E → Prop) :
    Program σ Q R ε α → World C σ Q R E → Prop
  | .done (.ok a), w => post a w
  | .done (.error _), _ => True
  | .read next, w => Safe post (next w.saved) w
  | .write state next, w => K.write c w state ∧
      (K.inv (w.wrote c state) → ∀ result, Safe post (next result) (w.wrote c state)) ∧
      ∀ e, Safe post (next (.error e)) w
  | .ask query next, w => K.ask c w query ∧
      ∀ reply e, env w.env query reply e → K.inv (w.asked c query reply e) →
        Safe post (next reply) (w.asked c query reply e)

/-- What is reached by writing and asking as the contract allows. -/
inductive Guarded : World C σ Q R E → World C σ Q R E → Prop
  | refl (w) : Guarded w w
  | wrote {w v} (h : Guarded w v) {c : C} {state : σ} (inv : K.inv v)
      (guard : K.write c v state) : Guarded w (v.wrote c state)
  | asked {w v} (h : Guarded w v) {c : C} {query : Q} {reply : R query} {e : E} (inv : K.inv v)
      (guard : K.ask c v query) (answer : env v.env query reply e) :
      Guarded w (v.asked c query reply e)

variable {env K c}

theorem Guarded.inv (hstable : K.Stable env) {w v : World C σ Q R E} (h : Guarded env K w v)
    (hw : K.inv w) : K.inv v := by
  induction h with
  | refl => exact hw
  | wrote _ inv guard => exact hstable.wrote inv guard
  | asked _ inv guard answer => exact hstable.asked inv guard answer

theorem Guarded.trans {w v u : World C σ Q R E} (h : Guarded env K w v)
    (h' : Guarded env K v u) : Guarded env K w u := by
  induction h' with
  | refl => exact h
  | wrote _ inv guard ih => exact ih.wrote inv guard
  | asked _ inv guard answer ih => exact ih.asked inv guard answer

/-- What holds at first, and is kept by all that the contract allows, always holds. -/
theorem Guarded.keeps {w v : World C σ Q R E} (h : Guarded env K w v)
    (holds : World C σ Q R E → Prop) (hw : holds w)
    (hwrote : ∀ u c state, K.inv u → K.write c u state → holds u → holds (u.wrote c state))
    (hasked : ∀ u c query reply e, K.inv u → K.ask c u query → env u.env query reply e → holds u →
      holds (u.asked c query reply e)) : holds v := by
  induction h with
  | refl => exact hw
  | wrote _ inv guard ih => exact hwrote _ _ _ inv guard ih
  | asked _ inv guard answer ih => exact hasked _ _ _ _ _ inv guard answer ih

/-- Every answer in the log is one that the other parties gave. -/
theorem Guarded.answered {w v : World C σ Q R E} (h : Guarded env K w v) (hw : w.log = [])
    {event : Event C σ Q R} (hevent : event ∈ v.log) {query : Q} {reply : R query}
    (haction : event.action = .asked query reply) : ∃ e e', env e query reply e' := by
  induction h with
  | refl =>
    rw [hw] at hevent
    cases hevent
  | wrote _ _ _ ih =>
    rw [World.wrote_log, List.mem_append, List.mem_singleton] at hevent
    rcases hevent with hevent | rfl
    · exact ih hevent
    · cases haction
  | asked _ _ _ answer ih =>
    rw [World.asked_log, List.mem_append, List.mem_singleton] at hevent
    rcases hevent with hevent | rfl
    · exact ih hevent
    · cases haction
      exact ⟨_, _, answer⟩

/-- The contract allows this event in the world `w`. -/
def Contract.Allows (K : Contract C σ Q R E) (w : World C σ Q R E) (event : Event C σ Q R) : Prop :=
  match event.action with
  | .wrote state => K.write event.command w state
  | .asked query _ => K.ask event.command w query

theorem Contract.Allows.of_wrote {K : Contract C σ Q R E} {w : World C σ Q R E}
    {event : Event C σ Q R} {state : σ} (h : K.Allows w event) (hevent : event.Wrote state) :
    K.write event.command w state := by
  rw [Event.Wrote] at hevent
  simpa only [Contract.Allows, hevent] using h

theorem Contract.Allows.of_asked {K : Contract C σ Q R E} {w : World C σ Q R E}
    {event : Event C σ Q R} {query : Q} (h : K.Allows w event) (hevent : event.Asked query) :
    K.ask event.command w query := by
  obtain ⟨reply, hevent⟩ := hevent
  simpa only [Contract.Allows, hevent] using h

/-- A last element of a list, and one in the middle of it. -/
theorem append_singleton_split {T : Type} {l before after : List T} {a b : T}
    (h : l ++ [a] = before ++ b :: after) :
    (l = before ∧ a = b ∧ after = []) ∨ ∃ rest, l = before ++ b :: rest ∧ after = rest ++ [a] := by
  rcases List.eq_nil_or_concat after with rfl | ⟨rest, last, rfl⟩
  · obtain ⟨hl, ha⟩ := List.append_inj' h rfl
    exact Or.inl ⟨hl, (List.cons.inj ha).1, rfl⟩
  · rw [List.concat_eq_append, ← List.cons_append, ← List.append_assoc] at h
    obtain ⟨hl, ha⟩ := List.append_inj' h rfl
    obtain rfl := (List.cons.inj ha).1
    exact Or.inr ⟨rest, hl, List.concat_eq_append⟩

/-- Everything that happened was allowed in the world in which it happened. -/
theorem Guarded.allows {w v : World C σ Q R E} (h : Guarded env K w v) (hw : w.log = [])
    {before after : List (Event C σ Q R)} {event : Event C σ Q R}
    (hlog : v.log = before ++ event :: after) :
    ∃ u, Guarded env K w u ∧ K.inv u ∧ u.log = before ∧ u.saved = event.saved ∧
      K.Allows u event := by
  induction h generalizing after with
  | refl =>
    rw [hw] at hlog
    simp at hlog
  | wrote h inv guard ih =>
    rcases append_singleton_split hlog with ⟨hbefore, rfl, -⟩ | ⟨rest, hrest, -⟩
    · exact ⟨_, h, inv, hbefore, rfl, guard⟩
    · exact ih hrest
  | asked h inv guard answer ih =>
    rcases append_singleton_split hlog with ⟨hbefore, rfl, -⟩ | ⟨rest, hrest, -⟩
    · exact ⟨_, h, inv, hbefore, rfl, guard⟩
    · exact ih hrest

namespace Safe

variable {post : α → World C σ Q R E → Prop} {w : World C σ Q R E}

/-- One step of a safe program is guarded, and what is left of the program is safe. -/
theorem step (hstable : K.Stable env) {x : Program σ Q R ε α}
    {next : World C σ Q R E × Program σ Q R ε α} (h : Safe env K c post x w) (hw : K.inv w)
    (hstep : Step env c (w, x) next) :
    Guarded env K w next.1 ∧ Safe env K c post next.2 next.1 := by
  cases hstep with
  | read => exact ⟨.refl w, h⟩
  | written =>
    have hwrote := hstable.wrote hw h.1
    exact ⟨(Guarded.refl w).wrote hw h.1, h.2.1 hwrote _⟩
  | unconfirmed e =>
    have hwrote := hstable.wrote hw h.1
    exact ⟨(Guarded.refl w).wrote hw h.1, h.2.1 hwrote _⟩
  | refused e => exact ⟨.refl w, h.2.2 e⟩
  | answered answer =>
    have hasked := hstable.asked hw h.1 answer
    exact ⟨(Guarded.refl w).asked hw h.1 answer, h.2 _ _ answer hasked⟩

theorem steps (hstable : K.Stable env) {x rest : Program σ Q R ε α} {v : World C σ Q R E}
    (h : Safe env K c post x w) (hw : K.inv w) (hsteps : Steps env c (w, x) (v, rest)) :
    Guarded env K w v ∧ Safe env K c post rest v := by
  obtain ⟨last, hlast⟩ : ∃ last, last = (v, rest) := ⟨_, rfl⟩
  rw [← hlast] at hsteps
  suffices hall : Guarded env K w last.1 ∧ Safe env K c post last.2 last.1 by
    rwa [hlast] at hall
  clear hlast
  induction hsteps with
  | refl => exact ⟨.refl w, h⟩
  | tail _ hstep ih =>
    obtain ⟨hguarded, hsafe⟩ := ih
    obtain ⟨hguarded', hsafe'⟩ := hsafe.step hstable (hguarded.inv hstable hw) hstep
    exact ⟨hguarded.trans hguarded', hsafe'⟩

/-- What always holds also holds where the program ends. -/
theorem with_inv {x : Program σ Q R ε α} (h : Safe env K c post x w) (hw : K.inv w) :
    Safe env K c (fun a v => K.inv v ∧ post a v) x w := by
  induction x generalizing w with
  | done result =>
    cases result with
    | ok a => exact ⟨hw, h⟩
    | error e => trivial
  | read next ih => exact ih w.saved h hw
  | write state next ih =>
    exact ⟨h.1, fun hwrote result => ih result (h.2.1 hwrote result) hwrote,
      fun e => ih _ (h.2.2 e) hw⟩
  | ask query next ih =>
    exact ⟨h.1, fun reply e answer hasked => ih reply (h.2 reply e answer hasked) hasked⟩

theorem bind {x : Program σ Q R ε α} {f : α → Program σ Q R ε β}
    {last : β → World C σ Q R E → Prop} (h : Safe env K c post x w)
    (hf : ∀ a v, post a v → Safe env K c last (f a) v) : Safe env K c last (x >>= f) w := by
  change Safe env K c last (x.bind f) w
  induction x generalizing w with
  | done result =>
    cases result with
    | ok a => exact hf a w h
    | error e => trivial
  | read next ih => exact ih w.saved h
  | write state next ih =>
    exact ⟨h.1, fun hwrote result => ih result (h.2.1 hwrote result), fun e => ih _ (h.2.2 e)⟩
  | ask query next ih =>
    exact ⟨h.1, fun reply e answer hasked => ih reply (h.2 reply e answer hasked)⟩

theorem mono {x : Program σ Q R ε α} {post' : α → World C σ Q R E → Prop}
    (h : Safe env K c post x w) (himp : ∀ a v, post a v → post' a v) :
    Safe env K c post' x w := by
  induction x generalizing w with
  | done result =>
    cases result with
    | ok a => exact himp a w h
    | error e => trivial
  | read next ih => exact ih w.saved h
  | write state next ih =>
    exact ⟨h.1, fun hwrote result => ih result (h.2.1 hwrote result), fun e => ih _ (h.2.2 e)⟩
  | ask query next ih =>
    exact ⟨h.1, fun reply e answer hasked => ih reply (h.2 reply e answer hasked)⟩

theorem pure {a : α} (h : post a w) :
    Safe env K c post (Pure.pure a : Program σ Q R ε α) w := h

theorem of {result : Except ε α} (h : ∀ a, result = .ok a → post a w) :
    Safe env K c post (Program.of result : Program σ Q R ε α) w := by
  cases result with
  | ok a => exact h a rfl
  | error e => trivial

theorem of_bind {result : Except ε α} {f : α → Program σ Q R ε β}
    {last : β → World C σ Q R E → Prop}
    (h : ∀ a, result = .ok a → Safe env K c last (f a) w) :
    Safe env K c last (Program.of result >>= f) w := by
  cases result with
  | ok a => exact h a rfl
  | error e => trivial

theorem saved_bind {f : σ → Program σ Q R ε β} {last : β → World C σ Q R E → Prop}
    (h : Safe env K c last (f w.saved) w) :
    Safe env K c last (Program.saved >>= f) w := h

theorem replace {state : σ} {post : Unit → World C σ Q R E → Prop} (hguard : K.write c w state)
    (h : K.inv (w.wrote c state) → post () (w.wrote c state)) :
    Safe env K c post (Program.replace state : Program σ Q R ε Unit) w := by
  refine ⟨hguard, fun hwrote result => ?_, fun e => trivial⟩
  cases result with
  | ok u => exact h hwrote
  | error e => trivial

theorem question {query : Q} {post : R query → World C σ Q R E → Prop} (hguard : K.ask c w query)
    (h : ∀ reply e, env w.env query reply e → K.inv (w.asked c query reply e) →
      post reply (w.asked c query reply e)) :
    Safe env K c post (Program.question query : Program σ Q R ε (R query)) w :=
  ⟨hguard, h⟩

end Safe

/-- The contract of a program of which only the result matters. -/
def Contract.free : Contract C σ Q R E where
  inv _ := True
  write _ _ _ := True
  ask _ _ _ := True

theorem Contract.free_stable : (Contract.free : Contract C σ Q R E).Stable env where
  wrote := fun _ _ => trivial
  asked := fun _ _ _ => trivial

/-- What holds of the value that a program ends with. -/
theorem Safe.result {x : Program σ Q R ε α} {post : α → World C σ Q R E → Prop}
    {w v : World C σ Q R E} {a : α} (h : Safe env Contract.free c post x w)
    (hsteps : Steps env c (w, x) (v, .done (.ok a))) : post a v :=
  (h.steps Contract.free_stable trivial hsteps).2

/-- If every command is safe, then all that ever happens is guarded. -/
theorem Life.guarded {commands : C → Program σ Q R ε α} (hstable : K.Stable env)
    (hsafe : ∀ c w, K.inv w → Safe env K c (fun _ _ => True) (commands c) w)
    {w v : World C σ Q R E} (h : Life env commands w v) (hw : K.inv w) : Guarded env K w v := by
  induction h with
  | refl => exact .refl w
  | command _ c run ih =>
    have hinv := ih.inv hstable hw
    exact ih.trans ((hsafe c _ hinv).steps hstable hinv run).1

/-! ## Runs with given answers -/

/-- The run of a program whose writes succeed and whose questions `oracle` answers. -/
def Program.run (oracle : E → (query : Q) → R query × E) (c : C) :
    Program σ Q R ε α → World C σ Q R E → Except ε α × World C σ Q R E
  | .done result, w => (result, w)
  | .read next, w => (next w.saved).run oracle c w
  | .write state next, w => (next (.ok ())).run oracle c (w.wrote c state)
  | .ask query next, w =>
    let (reply, e) := oracle w.env query
    (next reply).run oracle c (w.asked c query reply e)

/-- The environment in which `oracle` answers. -/
def answering (oracle : E → (query : Q) → R query × E) : Environment Q R E :=
  fun e query reply e' => oracle e query = (reply, e')

variable {oracle : E → (query : Q) → R query × E}

/-- A sequence runs to a value exactly if both of its parts do. -/
theorem Program.run_bind_eq_ok {c : C} {x : Program σ Q R ε α} {f : α → Program σ Q R ε β}
    {w u : World C σ Q R E} {b : β} :
    (x >>= f).run oracle c w = (.ok b, u) ↔
      ∃ a v, x.run oracle c w = (.ok a, v) ∧ (f a).run oracle c v = (.ok b, u) := by
  change (x.bind f).run oracle c w = _ ↔ _
  induction x generalizing w with
  | done result =>
    cases result with
    | ok a => simp [Program.bind, run]
    | error e => simp [Program.bind, run]
  | read next ih => exact ih w.saved
  | write state next ih => exact ih (.ok ())
  | ask query next ih => exact ih _

@[simp] theorem Program.run_of_eq {c : C} {result result' : Except ε α} {w v : World C σ Q R E} :
    (Program.of result : Program σ Q R ε α).run oracle c w = (result', v) ↔
      result = result' ∧ w = v := by
  rw [← Prod.mk.injEq]
  rfl

theorem Program.run_steps (c : C) (x : Program σ Q R ε α) (w : World C σ Q R E) :
    Steps (answering oracle) c (w, x) ((x.run oracle c w).2, .done (x.run oracle c w).1) := by
  induction x generalizing w with
  | done result => exact .refl
  | read next ih => exact .head .read (ih w.saved w)
  | write state next ih => exact .head .written (ih (.ok ()) (w.wrote c state))
  | ask query next ih => exact .head (.answered rfl) (ih _ _)

/-- The world after `cs` were run, one after the other. -/
def runAll (oracle : E → (query : Q) → R query × E) (commands : C → Program σ Q R ε α) (cs : List C)
    (w : World C σ Q R E) : World C σ Q R E :=
  cs.foldl (fun v c => ((commands c).run oracle c v).2) w

/-- Commands that are run with the answers of `oracle` are a life. -/
theorem Life.runAll {commands : C → Program σ Q R ε α} (cs : List C) (w : World C σ Q R E) :
    Life (answering oracle) commands w (runAll oracle commands cs w) := by
  induction cs generalizing w with
  | nil => exact .refl w
  | cons c cs ih =>
    refine Life.trans ?_ (ih _)
    exact (Life.refl w).command c (Program.run_steps c (commands c) w)

/-! ## What a program can reach -/

theorem Steps.bind {env : Environment Q R E} {c : C} {f : α → Program σ Q R ε β}
    {w v : World C σ Q R E} {x y : Program σ Q R ε α} (h : Steps env c (w, x) (v, y)) :
    Steps env c (w, x.bind f) (v, y.bind f) := by
  refine h.lift (fun state => (state.1, state.2.bind f)) fun a b hstep => ?_
  cases hstep with
  | read => exact .read
  | written => exact .written
  | unconfirmed e => exact .unconfirmed e
  | refused e => exact .refused e
  | answered answer => exact .answered answer

/-- What can happen with some answers can happen if there are more of them. -/
theorem Steps.mono {env env' : Environment Q R E} {c : C} (henv : ∀ {e query reply e'},
    env e query reply e' → env' e query reply e') {x y : World C σ Q R E × Program σ Q R ε α}
    (h : Steps env c x y) : Steps env' c x y := by
  refine Relation.ReflTransGen.mono ?_ _ _ h
  rintro _ _ (⟨⟩ | ⟨⟩ | e | e | hanswer)
  · exact .read
  · exact .written
  · exact .unconfirmed e
  · exact .refused e
  · exact .answered (henv hanswer)

section Reaches

variable (env : Environment Q R E) (c : C)

/-- The program can run to a value and a world of which `post` holds. -/
def Reaches (post : α → World C σ Q R E → Prop) (x : Program σ Q R ε α) (w : World C σ Q R E) :
    Prop :=
  ∃ a v, Steps env c (w, x) (v, .done (.ok a)) ∧ post a v

/-- The program can run to a world of which `post` holds, and be stopped there. -/
def Passes (post : World C σ Q R E → Prop) (x : Program σ Q R ε α) (w : World C σ Q R E) : Prop :=
  ∃ v rest, Steps env c (w, x) (v, rest) ∧ post v

variable {env c} {post : α → World C σ Q R E → Prop} {w : World C σ Q R E}

namespace Reaches

theorem pure {a : α} (h : post a w) :
    Reaches env c post (Pure.pure a : Program σ Q R ε α) w := ⟨a, w, .refl, h⟩

theorem of {result : Except ε α} {a : α} (hresult : result = .ok a) (h : post a w) :
    Reaches env c post (Program.of result : Program σ Q R ε α) w := by
  subst hresult
  exact ⟨a, w, .refl, h⟩

theorem replace {state : σ} {post : Unit → World C σ Q R E → Prop}
    (h : post () (w.wrote c state)) :
    Reaches env c post (Program.replace state : Program σ Q R ε Unit) w :=
  ⟨(), w.wrote c state, .single .written, h⟩

theorem question_bind {query : Q} {f : R query → Program σ Q R ε α} {reply : R query} {e : E}
    (hanswer : env w.env query reply e) (h : Reaches env c post (f reply) (w.asked c query reply e)) :
    Reaches env c post (Program.question query >>= f) w := by
  obtain ⟨a, v, hsteps, ha⟩ := h
  exact ⟨a, v, .head (.answered hanswer) hsteps, ha⟩

theorem saved_bind {f : σ → Program σ Q R ε α} (h : Reaches env c post (f w.saved) w) :
    Reaches env c post (Program.saved >>= f) w := by
  obtain ⟨a, v, hsteps, ha⟩ := h
  exact ⟨a, v, .head .read hsteps, ha⟩

theorem bind {x : Program σ Q R ε α} {f : α → Program σ Q R ε β}
    {last : β → World C σ Q R E → Prop} (h : Reaches env c post x w)
    (hf : ∀ a v, post a v → Reaches env c last (f a) v) : Reaches env c last (x >>= f) w := by
  obtain ⟨a, v, hsteps, ha⟩ := h
  obtain ⟨b, u, hsteps', hb⟩ := hf a v ha
  exact ⟨b, u, hsteps.bind.trans hsteps', hb⟩

theorem mono {x : Program σ Q R ε α} {post' : α → World C σ Q R E → Prop}
    (h : Reaches env c post x w) (himp : ∀ a v, post a v → post' a v) :
    Reaches env c post' x w := by
  obtain ⟨a, v, hsteps, ha⟩ := h
  exact ⟨a, v, hsteps, himp a v ha⟩

theorem of_bind {result : Except ε α} {f : α → Program σ Q R ε β}
    {last : β → World C σ Q R E → Prop} {a : α} (hresult : result = .ok a)
    (h : Reaches env c last (f a) w) : Reaches env c last (Program.of result >>= f) w := by
  subst hresult
  exact h

end Reaches

namespace Passes

variable {goal : World C σ Q R E → Prop}

theorem left {x : Program σ Q R ε α} {f : α → Program σ Q R ε β} (h : Passes env c goal x w) :
    Passes env c goal (x >>= f) w := by
  obtain ⟨v, rest, hsteps, hv⟩ := h
  exact ⟨v, rest.bind f, hsteps.bind, hv⟩

theorem bind {x : Program σ Q R ε α} {f : α → Program σ Q R ε β} (h : Reaches env c post x w)
    (hf : ∀ a v, post a v → Passes env c goal (f a) v) : Passes env c goal (x >>= f) w := by
  obtain ⟨a, v, hsteps, ha⟩ := h
  obtain ⟨u, rest, hsteps', hu⟩ := hf a v ha
  exact ⟨u, rest, hsteps.bind.trans hsteps', hu⟩

/-- The program can be stopped after its question, whatever the answer. -/
theorem question_bind {query : Q} {f : R query → Program σ Q R ε α} {reply : R query} {e : E}
    (hanswer : env w.env query reply e) (h : goal (w.asked c query reply e)) :
    Passes env c goal (Program.question query >>= f) w :=
  ⟨_, _, .single (.answered hanswer), h⟩

theorem of_reaches {x : Program σ Q R ε α} (h : Reaches env c post x w)
    (himp : ∀ a v, post a v → goal v) : Passes env c goal x w := by
  obtain ⟨a, v, hsteps, ha⟩ := h
  exact ⟨v, _, hsteps, himp a v ha⟩

theorem of_bind {result : Except ε α} {f : α → Program σ Q R ε β} {a : α}
    (hresult : result = .ok a) (h : Passes env c goal (f a) w) :
    Passes env c goal (Program.of result >>= f) w := by
  subst hresult
  exact h

end Passes

/-- A command that can be stopped in a world leads a life to that world. -/
theorem Life.passes {commands : C → Program σ Q R ε α} {goal : World C σ Q R E → Prop}
    {v : World C σ Q R E} (h : Life env commands w v)
    (hpasses : Passes env c goal (commands c) v) : ∃ u, Life env commands w u ∧ goal u := by
  obtain ⟨u, rest, hsteps, hu⟩ := hpasses
  exact ⟨u, h.command c hsteps, hu⟩

end Reaches

end Durable
