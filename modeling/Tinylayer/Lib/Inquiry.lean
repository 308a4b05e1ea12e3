import Mathlib.Data.List.Forall2
import Mathlib.Order.Basic
import Tinylayer.Lib.Program

/-!
# Inquiries

An inquiry is a program without a saved state: all that it does is to ask questions. What it can end
with is a relation between the state of the other parties before and after it. If that state is
ordered, and every answer moves it on, then it only moves on while an inquiry is made.

The questions of one program can be answered by inquiries of another kind; the answers of such a
service are all that these inquiries can end with.
-/

namespace Durable

variable {Q : Type} {R : Q → Type} {ε α β E : Type}

/-- A program without a saved state. -/
abbrev Inquiry (Q : Type) (R : Q → Type) (ε α : Type) : Type := Program Unit Q R ε α

namespace Inquiry

/-- The inquiry can end with this result, and with the other parties in this state. -/
def Ends (env : Environment Q R E) : Inquiry Q R ε α → E → Except ε α → E → Prop
  | .done result, e, result', e' => result = result' ∧ e = e'
  | .read next, e, result, e' => Ends env (next ()) e result e'
  | .write _ next, e, result, e' => ∃ written, Ends env (next written) e result e'
  | .ask query next, e, result, e' =>
    ∃ reply e₁, env e query reply e₁ ∧ Ends env (next reply) e₁ result e'

variable {env : Environment Q R E} {e e' : E} {result : Except ε α}

@[simp] theorem ends_pure {a : α} :
    Ends env (pure a : Inquiry Q R ε α) e result e' ↔ .ok a = result ∧ e = e' := Iff.rfl

@[simp] theorem ends_of {given : Except ε α} :
    Ends env (Program.of given : Inquiry Q R ε α) e result e' ↔ given = result ∧ e = e' := Iff.rfl

@[simp] theorem ends_question {query : Q} {answer : Except ε (R query)} :
    Ends env (Program.question query : Inquiry Q R ε (R query)) e answer e' ↔
      ∃ reply, env e query reply e' ∧ .ok reply = answer := by
  constructor
  · rintro ⟨reply, _, hreply, hanswer, rfl⟩
    exact ⟨reply, hreply, hanswer⟩
  · rintro ⟨reply, hreply, hanswer⟩
    exact ⟨reply, e', hreply, hanswer, rfl⟩

/-- A sequence of inquiries ends with a value exactly if both of its parts do. -/
@[simp] theorem ends_bind {x : Inquiry Q R ε α} {f : α → Inquiry Q R ε β} {b : β} :
    Ends env (x >>= f) e (.ok b) e' ↔
      ∃ a e₁, Ends env x e (.ok a) e₁ ∧ Ends env (f a) e₁ (.ok b) e' := by
  change Ends env (x.bind f) e (.ok b) e' ↔ _
  induction x generalizing e with
  | done given =>
    cases given with
    | ok a =>
      constructor
      · exact fun h => ⟨a, e, ⟨rfl, rfl⟩, h⟩
      · rintro ⟨a', e₁, ⟨ha, rfl⟩, h⟩
        cases ha
        exact h
    | error error =>
      constructor
      · rintro ⟨h, -⟩
        cases h
      · rintro ⟨a', e₁, ⟨ha, -⟩, -⟩
        cases ha
  | read next ih => exact ih ()
  | write state next ih =>
    constructor
    · rintro ⟨written, h⟩
      obtain ⟨a, e₁, hx, hf⟩ := (ih written).1 h
      exact ⟨a, e₁, ⟨written, hx⟩, hf⟩
    · rintro ⟨a, e₁, ⟨written, hx⟩, hf⟩
      exact ⟨written, (ih written).2 ⟨a, e₁, hx, hf⟩⟩
  | ask query next ih =>
    constructor
    · rintro ⟨reply, e₀, hreply, h⟩
      obtain ⟨a, e₁, hx, hf⟩ := (ih reply).1 h
      exact ⟨a, e₁, ⟨reply, e₀, hreply, hx⟩, hf⟩
    · rintro ⟨a, e₁, ⟨reply, e₀, hreply, hx⟩, hf⟩
      exact ⟨reply, e₀, hreply, (ih reply).2 ⟨a, e₁, hx, hf⟩⟩

/-! ## Questions one after the other -/

/-- The same inquiry about every element of a list. -/
def forEach (f : α → Inquiry Q R ε β) : List α → Inquiry Q R ε (List β)
  | [] => pure []
  | a :: l => do
    let b ← f a
    let bs ← forEach f l
    return b :: bs

theorem forall₂_mem_left {p : α → β → Prop} {l : List α} {r : List β} (h : List.Forall₂ p l r)
    {a : α} (ha : a ∈ l) : ∃ b ∈ r, p a b := by
  induction h with
  | nil => cases ha
  | cons hab _ ih =>
    rcases List.mem_cons.1 ha with rfl | ha
    · exact ⟨_, List.mem_cons_self, hab⟩
    · obtain ⟨b, hb, hp⟩ := ih ha
      exact ⟨b, List.mem_cons_of_mem _ hb, hp⟩

theorem forall₂_mem_right {p : α → β → Prop} {l : List α} {r : List β} (h : List.Forall₂ p l r)
    {b : β} (hb : b ∈ r) : ∃ a ∈ l, p a b :=
  forall₂_mem_left (List.Forall₂.flip (R := fun b a => p a b) h) hb

section Order

variable [Preorder E]

/-- Every answer moves the state of the other parties on. -/
def MovesOn (env : Environment Q R E) : Prop :=
  ∀ {e query reply e'}, env e query reply e' → e ≤ e'

variable (hmoves : MovesOn env)
include hmoves

theorem Ends.le {x : Inquiry Q R ε α} (h : Ends env x e result e') : e ≤ e' := by
  induction x generalizing e with
  | done given => exact h.2.le
  | read next ih => exact ih () h
  | write state next ih =>
    obtain ⟨written, h⟩ := h
    exact ih written h
  | ask query next ih =>
    obtain ⟨reply, e₁, hreply, h⟩ := h
    exact le_trans (hmoves hreply) (ih reply h)

/-- Each part of an inquiry about a list is made while the whole of it is. -/
theorem forEach_ends {f : α → Inquiry Q R ε β} {l : List α} {r : List β}
    (h : Ends env (forEach f l) e (.ok r) e') :
    List.Forall₂ (fun a b => ∃ e₁ e₂, e ≤ e₁ ∧ Ends env (f a) e₁ (.ok b) e₂ ∧ e₂ ≤ e') l r := by
  induction l generalizing e r with
  | nil =>
    cases h.1
    exact .nil
  | cons a l ih =>
    obtain ⟨b, e₁, hb, h⟩ := ends_bind.1 h
    obtain ⟨bs, e₂, hbs, h⟩ := ends_bind.1 h
    obtain ⟨hr, rfl⟩ := ends_pure.1 h
    cases hr
    refine .cons ⟨e, e₁, le_refl e, hb, Ends.le hmoves hbs⟩ ((ih hbs).imp ?_)
    rintro a' b' ⟨e₃, e₄, hle, hends, hle'⟩
    exact ⟨e₃, e₄, le_trans (Ends.le hmoves hb) hle, hends, hle'⟩

end Order

/-! ## What is asked -/

/-- A question, with its answer. -/
structure Exchange (Q : Type) (R : Q → Type) where
  query : Q
  reply : R query

/-- Whatever the answers are, the inquiry can come to `rest` with these questions. -/
inductive Trace : Inquiry Q R ε α → List (Exchange Q R) → Inquiry Q R ε α → Prop
  | refl (x) : Trace x [] x
  | read {next l rest} (h : Trace (next ()) l rest) : Trace (.read next) l rest
  | write {state next written l rest} (h : Trace (next written) l rest) :
      Trace (.write state next) l rest
  | ask {query next l rest} (reply : R query) (h : Trace (next reply) l rest) :
      Trace (.ask query next) (⟨query, reply⟩ :: l) rest

/-- Every question that the inquiry can ask is one of these. -/
def Asks (p : Q → Prop) : Inquiry Q R ε α → Prop
  | .done _ => True
  | .read next => Asks p (next ())
  | .write _ next => ∀ written, Asks p (next written)
  | .ask query next => p query ∧ ∀ reply, Asks p (next reply)

section Trace

variable {x rest : Inquiry Q R ε α} {f : α → Inquiry Q R ε β} {l : List (Exchange Q R)}
  {p : Q → Prop}

/-- A sequence ends with a value only after its first part has. -/
theorem Trace.of_bind_ok {b : β} (h : Trace (x >>= f) l (.done (.ok b))) :
    ∃ a l₁ l₂, l = l₁ ++ l₂ ∧ Trace x l₁ (pure a) ∧ Trace (f a) l₂ (.done (.ok b)) := by
  change Trace (x.bind f) l _ at h
  induction x generalizing l with
  | done given =>
    cases given with
    | ok a => exact ⟨a, [], l, rfl, .refl _, h⟩
    | error error => cases h
  | read next ih =>
    cases h with
    | read h =>
      obtain ⟨a, l₁, l₂, hl, hx, hf⟩ := ih () h
      exact ⟨a, l₁, l₂, hl, .read hx, hf⟩
  | write state next ih =>
    cases h with
    | write h =>
      obtain ⟨a, l₁, l₂, hl, hx, hf⟩ := ih _ h
      exact ⟨a, l₁, l₂, hl, .write hx, hf⟩
  | ask query next ih =>
    cases h with
    | ask reply h =>
      obtain ⟨a, l₁, l₂, rfl, hx, hf⟩ := ih reply h
      exact ⟨a, _, l₂, rfl, .ask reply hx, hf⟩

theorem Trace.of_pure {a : α} (h : Trace (pure a : Inquiry Q R ε α) l rest) :
    l = [] ∧ rest = pure a := by
  cases h
  exact ⟨rfl, rfl⟩

theorem Trace.of_of {given : Except ε α} (h : Trace (Program.of given : Inquiry Q R ε α) l rest) :
    l = [] ∧ rest = .done given := by
  cases h
  exact ⟨rfl, rfl⟩

/-- The value of a computation that needs no answers. -/
theorem Trace.of_of_ok {given : Except ε α} {a : α}
    (h : Trace (Program.of given : Inquiry Q R ε α) l (pure a)) : l = [] ∧ given = .ok a := by
  obtain ⟨rfl, hrest⟩ := h.of_of
  exact ⟨rfl, (Program.done.inj hrest).symm⟩

theorem Trace.of_question_ok {query : Q} {reply : R query}
    (h : Trace (Program.question query : Inquiry Q R ε (R query)) l (pure reply)) :
    l = [⟨query, reply⟩] := by
  cases h with
  | ask reply' h =>
    cases h
    rfl

theorem Asks.exchange (h : Asks p x) (htrace : Trace x l rest) {exchange : Exchange Q R}
    (hmem : exchange ∈ l) : p exchange.query := by
  induction htrace with
  | refl => cases hmem
  | read _ ih => exact ih h hmem
  | write _ ih => exact ih (h _) hmem
  | ask reply _ ih =>
    rcases List.mem_cons.1 hmem with rfl | hmem
    · exact h.1
    · exact ih (h.2 reply) hmem

theorem Asks.pure {a : α} : Asks p (Pure.pure a : Inquiry Q R ε α) := trivial

theorem Asks.of {given : Except ε α} : Asks p (Program.of given : Inquiry Q R ε α) := trivial

theorem Asks.question {query : Q} (h : p query) :
    Asks p (Program.question query : Inquiry Q R ε (R query)) := ⟨h, fun _ => trivial⟩

theorem Asks.bind (h : Asks p x) (hf : ∀ a, Asks p (f a)) : Asks p (x >>= f) := by
  change Asks p (x.bind f)
  induction x with
  | done given =>
    cases given with
    | ok a => exact hf a
    | error error => trivial
  | read next ih => exact ih () h
  | write state next ih => exact fun written => ih written (h written)
  | ask query next ih => exact ⟨h.1, fun reply => ih reply (h.2 reply)⟩

theorem Asks.forEach {f : α → Inquiry Q R ε β} (hf : ∀ a, Asks p (f a)) (as : List α) :
    Asks p (Inquiry.forEach f as) := by
  induction as with
  | nil => exact .pure
  | cons a as ih => exact (hf a).bind fun _ => ih.bind fun _ => .pure

end Trace

/-! ## One submission -/

/-- After what was asked before, the inquiry submits something at most once, and only when it is
ready to. -/
def Careful (submits : Q → Prop) (ready : List (Exchange Q R) → Q → Prop) :
    List (Exchange Q R) → Inquiry Q R ε α → Prop
  | _, .done _ => True
  | past, .read next => Careful submits ready past (next ())
  | past, .write _ next => ∀ written, Careful submits ready past (next written)
  | past, .ask query next =>
    (submits query → ready past query ∧ ∀ exchange ∈ past, ¬ submits exchange.query) ∧
      ∀ reply, Careful submits ready (past ++ [⟨query, reply⟩]) (next reply)

section Careful

variable {submits : Q → Prop} {ready : List (Exchange Q R) → Q → Prop}
  {past l : List (Exchange Q R)} {x rest : Inquiry Q R ε α} {f : α → Inquiry Q R ε β}

theorem Careful.of_asks (h : Asks (fun query => ¬ submits query) x) :
    Careful submits ready past x := by
  induction x generalizing past with
  | done given => trivial
  | read next ih => exact ih () h
  | write state next ih => exact fun written => ih written (h written)
  | ask query next ih => exact ⟨fun hsubmits => absurd hsubmits h.1, fun reply => ih reply (h.2 reply)⟩

theorem Careful.question {query : Q}
    (h : submits query → ready past query ∧ ∀ exchange ∈ past, ¬ submits exchange.query) :
    Careful submits ready past (Program.question query : Inquiry Q R ε (R query)) :=
  ⟨h, fun _ => trivial⟩

theorem Careful.bind (h : Careful submits ready past x)
    (hf : ∀ a l, Trace x l (Pure.pure a) → Careful submits ready (past ++ l) (f a)) :
    Careful submits ready past (x >>= f) := by
  change Careful submits ready past (x.bind f)
  induction x generalizing past with
  | done given =>
    cases given with
    | ok a =>
      have hdone := hf a [] (.refl _)
      rwa [List.append_nil] at hdone
    | error error => trivial
  | read next ih => exact ih () h fun a l htrace => hf a l (.read htrace)
  | write state next ih =>
    exact fun written => ih written (h written) fun a l htrace => hf a l (.write htrace)
  | ask query next ih =>
    refine ⟨h.1, fun reply => ih reply (h.2 reply) fun a l htrace => ?_⟩
    rw [List.append_assoc]
    exact hf a _ (.ask reply htrace)

/-- Each submission came when the inquiry was ready for it, and was the first one. -/
theorem Careful.submitted (h : Careful submits ready past x) (htrace : Trace x l rest)
    {before after : List (Exchange Q R)} {exchange : Exchange Q R}
    (hl : l = before ++ exchange :: after) (hsubmits : submits exchange.query) :
    ready (past ++ before) exchange.query ∧
      ∀ earlier ∈ past ++ before, ¬ submits earlier.query := by
  induction htrace generalizing past before with
  | refl => simp at hl
  | read _ ih => exact ih h hl
  | write _ ih => exact ih (h _) hl
  | ask reply _ ih =>
    cases before with
    | nil =>
      obtain ⟨rfl, -⟩ := List.cons.inj hl
      rw [List.append_nil]
      exact h.1 hsubmits
    | cons first before =>
      obtain ⟨rfl, hrest⟩ := List.cons.inj hl
      have hlater := ih (h.2 reply) hrest
      rwa [List.append_assoc] at hlater

end Careful

/-! ## Servers -/

section Server

variable {S : Type} (server : S → (query : Q) → R query × S)

/-- What the inquiry ends with if a server answers it, and the state of the server then. -/
def eval : Inquiry Q R ε α → S → Except ε α × S
  | .done result, s => (result, s)
  | .read next, s => eval (next ()) s
  | .write _ next, s => eval (next (.ok ())) s
  | .ask query next, s => eval (next (server s query).1) (server s query).2

/-- The server lets the inquiry end with a value of which `post` holds. -/
def Yields (post : α → S → Prop) (x : Inquiry Q R ε α) (s : S) : Prop :=
  ∃ a s', eval server x s = (.ok a, s') ∧ post a s'

variable {server} {s : S} {post : α → S → Prop}

theorem Yields.pure {a : α} (h : post a s) :
    Yields server post (Pure.pure a : Inquiry Q R ε α) s := ⟨a, s, rfl, h⟩

theorem Yields.of {given : Except ε α} {a : α} (hgiven : given = .ok a) (h : post a s) :
    Yields server post (Program.of given : Inquiry Q R ε α) s := by
  subst hgiven
  exact ⟨a, s, rfl, h⟩

theorem Yields.question {query : Q} {post : R query → S → Prop}
    (h : post (server s query).1 (server s query).2) :
    Yields server post (Program.question query : Inquiry Q R ε (R query)) s := ⟨_, _, rfl, h⟩

theorem Yields.bind {x : Inquiry Q R ε α} {f : α → Inquiry Q R ε β} {last : β → S → Prop}
    (h : Yields server post x s) (hf : ∀ a s', post a s' → Yields server last (f a) s') :
    Yields server last (x >>= f) s := by
  change Yields server last (x.bind f) s
  obtain ⟨a, s', heval, ha⟩ := h
  induction x generalizing s with
  | done given =>
    obtain ⟨rfl, rfl⟩ := Prod.mk.inj heval
    exact hf a _ ha
  | read next ih => exact ih () heval
  | write state next ih => exact ih (.ok ()) heval
  | ask query next ih => exact ih _ heval

/-- A computation in between that does not fail. -/
theorem Yields.of_bind {given : Except ε α} {f : α → Inquiry Q R ε β} {last : β → S → Prop} {a : α}
    (hgiven : given = .ok a) (h : Yields server last (f a) s) :
    Yields server last (Program.of given >>= f) s := by
  subst hgiven
  exact h

theorem Yields.mono {x : Inquiry Q R ε α} {post' : α → S → Prop} (h : Yields server post x s)
    (himp : ∀ a s', post a s' → post' a s') : Yields server post' x s := by
  obtain ⟨a, s', heval, ha⟩ := h
  exact ⟨a, s', heval, himp a s' ha⟩

/-- What a server answers is what the other parties can answer. -/
theorem ends_eval {env : Environment Q R S} (h : ∀ s query, env s query (server s query).1
    (server s query).2) (x : Inquiry Q R ε α) (s : S) :
    Ends env x s (eval server x s).1 (eval server x s).2 := by
  induction x generalizing s with
  | done given => exact ⟨rfl, rfl⟩
  | read next ih => exact ih () s
  | write state next ih => exact ⟨.ok (), ih (.ok ()) s⟩
  | ask query next ih => exact ⟨_, _, h s query, ih _ _⟩

variable (server) in
/-- What the inquiry asks the server. -/
def exchanges : Inquiry Q R ε α → S → List (Exchange Q R)
  | .done _, _ => []
  | .read next, s => exchanges (next ()) s
  | .write _ next, s => exchanges (next (.ok ())) s
  | .ask query next, s =>
    ⟨query, (server s query).1⟩ :: exchanges (next (server s query).1) (server s query).2

theorem trace_exchanges (x : Inquiry Q R ε α) (s : S) :
    Trace x (exchanges server x s) (.done (eval server x s).1) := by
  induction x generalizing s with
  | done given => exact .refl _
  | read next ih => exact .read (ih () s)
  | write state next ih => exact .write (ih (.ok ()) s)
  | ask query next ih => exact .ask _ (ih _ _)

/-- What every question keeps is kept by the inquiry. -/
theorem Asks.eval {p : Q → Prop} {inv : S → Prop} {x : Inquiry Q R ε α} (h : Asks p x)
    (hkeeps : ∀ s query, inv s → p query → inv (server s query).2) (hs : inv s) :
    inv (Inquiry.eval server x s).2 := by
  induction x generalizing s with
  | done given => exact hs
  | read next ih => exact ih () h hs
  | write state next ih => exact ih _ (h _) hs
  | ask query next ih => exact ih _ (h.2 _) (hkeeps s query hs h.1)

end Server

/-! ## Services -/

section Services

variable {Q' : Type} {A : Q' → Type} {F S : Type}

/-- Services of which some questions are answered by inquiries of another kind. -/
def serve (answer : (query : Q') → Option (Inquiry Q R ε (A query))) (env : Environment Q R E)
    (others : Environment Q' (fun query => Except ε (A query)) F) :
    Environment Q' (fun query => Except ε (A query)) (F × E) :=
  fun e query reply e' =>
    (∃ inquiry, answer query = some inquiry ∧ e'.1 = e.1 ∧ Ends env inquiry e.2 reply e'.2) ∨
      (answer query = none ∧ e'.2 = e.2 ∧ others e.1 query reply e'.1)

section Serve

variable {answer : (query : Q') → Option (Inquiry Q R ε (A query))} {env : Environment Q R E}
  {others : Environment Q' (fun query => Except ε (A query)) F} {e e' : F × E} {query : Q'}
  {reply : Except ε (A query)}

/-- A question that is answered by an inquiry is answered with what the inquiry ends with. -/
theorem serve_ends {inquiry : Inquiry Q R ε (A query)} (hinquiry : answer query = some inquiry)
    (h : serve answer env others e query reply e') : Ends env inquiry e.2 reply e'.2 := by
  rcases h with ⟨found, hfound, -, hends⟩ | ⟨hnone, -, -⟩
  · cases hinquiry.symm.trans hfound
    exact hends
  · cases hinquiry.symm.trans hnone

theorem serve_le [Preorder E] (hmoves : MovesOn env)
    (h : serve answer env others e query reply e') : e.2 ≤ e'.2 := by
  rcases h with ⟨inquiry, -, -, hends⟩ | ⟨-, hsame, -⟩
  · exact Ends.le hmoves hends
  · exact hsame ▸ le_refl e.2

end Serve

/-- The same, if a server answers the inquiries. -/
def serveBy (answer : (query : Q') → Option (Inquiry Q R ε (A query)))
    (server : S → (query : Q) → R query × S)
    (others : F → (query : Q') → Except ε (A query) × F) (e : F × S) (query : Q') :
    Except ε (A query) × (F × S) :=
  match answer query with
  | some inquiry => ((eval server inquiry e.2).1, (e.1, (eval server inquiry e.2).2))
  | none => ((others e.1 query).1, ((others e.1 query).2, e.2))

variable {answer : (query : Q') → Option (Inquiry Q R ε (A query))}
  {server : S → (query : Q) → R query × S} {others : F → (query : Q') → Except ε (A query) × F}
  {e : F × S} {query : Q'}

theorem serveBy_some {inquiry : Inquiry Q R ε (A query)} (h : answer query = some inquiry) :
    serveBy answer server others e query =
      ((eval server inquiry e.2).1, (e.1, (eval server inquiry e.2).2)) := by
  simp only [serveBy, h]

theorem serveBy_none (h : answer query = none) :
    serveBy answer server others e query =
      ((others e.1 query).1, ((others e.1 query).2, e.2)) := by
  simp only [serveBy, h]

/-- What servers answer is what the services of their inquiries can answer. -/
theorem serve_serveBy {env : Environment Q R S}
    {relation : Environment Q' (fun query => Except ε (A query)) F}
    (h : ∀ s query, env s query (server s query).1 (server s query).2)
    (hothers : ∀ f query, relation f query (others f query).1 (others f query).2) (e : F × S)
    (query : Q') : serve answer env relation e query (serveBy answer server others e query).1
      (serveBy answer server others e query).2 := by
  cases hanswer : answer query with
  | some inquiry =>
    rw [serveBy_some hanswer]
    exact Or.inl ⟨inquiry, hanswer, rfl, ends_eval h inquiry e.2⟩
  | none =>
    rw [serveBy_none hanswer]
    exact Or.inr ⟨hanswer, rfl, hothers e.1 query⟩

end Services

end Inquiry

end Durable
