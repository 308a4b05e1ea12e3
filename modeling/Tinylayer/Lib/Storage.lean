import Mathlib.Logic.Function.Basic
import Mathlib.Tactic.Common

/-!
# Directories that are changed by calls

A directory as running programs see it, and the part of it that is certain to be there after a
crash. A program changes it by a sequence of calls, and an interruption ends the sequence at one of
them: the call reports an error, or the machine crashes. After a crash each name stands for what it
stood for when the directory was last synced, or for what a program saw last, and the data of a file
that was not synced can be anything.
-/

namespace Storage

/-- What a name stands for. `shared` nodes are accessible by other users, `synced` data are on the
disk, and a symlink that `leads` somewhere can be followed. -/
inductive Node
  | file (shared synced : Bool) (data : List UInt8)
  | directory (shared : Bool)
  | symlink (leads : Bool)
deriving DecidableEq

/-- The data of a file. -/
def Node.data : Node → Option (List UInt8)
  | file _ _ data => some data
  | _ => none

/-- The node that is found after a crash; `torn` is what became of data that were not synced. -/
def Node.recover (torn : List UInt8) : Node → Node
  | file shared false _ => file shared true torn
  | node => node

/-- A directory: what programs see, and what was there when it was last synced. -/
structure Disk (Name : Type) where
  live : Name → Option Node
  durable : Name → Option Node

/-- How a program is interrupted. -/
structure Interruption (Name : Type) where
  /-- The number of calls that are carried out before. -/
  after : Nat
  /-- The program was ended by an error, and its clean-up worked. -/
  cleaned : Bool
  /-- The changes that survive, if the machine crashes. -/
  crash : Option (Name → Bool)
  /-- What becomes of data that were not synced. -/
  torn : Name → List UInt8

variable {Name : Type}

namespace Disk

/-- Both views after a crash. -/
def afterCrash (d : Disk Name) (survives : Name → Bool) (torn : Name → List UInt8) (n : Name) :
    Option Node :=
  (if survives n = true then d.live n else d.durable n).map (Node.recover (torn n))

/-- The directory that is found after the interruption. -/
def settle (d : Disk Name) (i : Interruption Name) : Disk Name :=
  match i.crash with
  | none => d
  | some survives => ⟨d.afterCrash survives i.torn, d.afterCrash survives i.torn⟩

/-- What `n` stands for is on the disk. -/
structure Settled (d : Disk Name) (n : Name) : Prop where
  durable_eq : d.durable n = d.live n
  synced : ∀ node ∈ d.live n, ∀ torn, node.recover torn = node

variable [DecidableEq Name]

def set (d : Disk Name) (n : Name) (node : Option Node) : Disk Name :=
  { d with live := Function.update d.live n node }

/-- The directory in which a file of the user was opened, which is made if there is none. -/
def withFile (d : Disk Name) (n : Name) : Except String (Disk Name) :=
  match d.live n with
  | none => .ok (d.set n (some (.file false false [])))
  | some (.directory _) => .error "is a directory"
  | some _ => .ok d

/-- Removes a name, if it is there. -/
def remove (d : Disk Name) (n : Name) : Disk Name := d.set n none

end Disk

/-! ## Programs -/

/-- A directory on which `calls` calls were made. -/
structure Machine (Name : Type) where
  disk : Disk Name
  calls : Nat

/-- How a program ends: with a value, with an error of its own, or interrupted. -/
inductive Outcome (Name α : Type)
  | done (value : α) (machine : Machine Name)
  | failed (message : String) (machine : Machine Name)
  | stopped (disk : Disk Name)

/-- The directory that a program leaves. -/
def Outcome.disk {α : Type} : Outcome Name α → Disk Name
  | done _ machine => machine.disk
  | failed _ machine => machine.disk
  | stopped disk => disk

/-- A program: what it does without an interruption, and with a given one. -/
def FileM (Name α : Type) : Type := Option (Interruption Name) → Machine Name → Outcome Name α

namespace FileM

variable {α β : Type}

instance : Monad (FileM Name) where
  pure a := fun _ machine => .done a machine
  bind x f := fun interruption machine =>
    match x interruption machine with
    | .done a machine' => f a interruption machine'
    | .failed message machine' => .failed message machine'
    | .stopped disk => .stopped disk

/-- A check that makes no call. -/
def of (x : Except String α) : FileM Name α := fun _ machine =>
  match x with
  | .ok a => .done a machine
  | .error message => .failed message machine

/-- What a program sees. -/
def view : FileM Name (Name → Option Node) := fun _ machine => .done machine.disk.live machine

/-- A call that changes the directory with `change`; `partly` is what is left of one that is
interrupted. -/
def call (change : Disk Name → Except String (Disk Name))
    (partly : Interruption Name → Disk Name → Disk Name) : FileM Name Unit :=
  fun interruption machine =>
    match interruption.filter fun i => i.after = machine.calls with
    | some i => .stopped (partly i machine.disk)
    | none =>
      match change machine.disk with
      | .ok disk => .done () { disk, calls := machine.calls + 1 }
      | .error message => .failed message machine

/-- Runs `x`, and after an error of it the clean-up. -/
def onError (x : FileM Name α) (cleanUp : Disk Name → Disk Name) : FileM Name α :=
  fun interruption machine =>
    match x interruption machine with
    | .done a machine' => .done a machine'
    | .failed message machine' => .failed message { machine' with disk := cleanUp machine'.disk }
    | .stopped disk =>
      .stopped (if interruption.any Interruption.cleaned = true then cleanUp disk else disk)

section Calls

variable [DecidableEq Name]

/-- Makes an empty directory. That it is there is not lost in a crash. -/
def makeDirectory (n : Name) : FileM Name Unit :=
  call (fun d =>
    if d.live n = none then
      .ok ⟨Function.update d.live n (some (.directory false)),
        Function.update d.durable n (some (.directory false))⟩
    else .error "file exists") fun _ d => d

/-- Opens a file of the user, which is made if there is none. -/
def openFile (n : Name) : FileM Name Unit := call (fun d => d.withFile n) fun _ d => d

/-- Makes a new empty file of the user. -/
def create (n : Name) : FileM Name Unit :=
  call (fun d =>
    if d.live n = none then .ok (d.set n (some (.file false false []))) else .error "file exists")
    fun _ d => d

/-- Fills a file; an interrupted call leaves part of the data. -/
def write (n : Name) (data : List UInt8) : FileM Name Unit :=
  call (fun d => .ok (d.set n (some (.file false false data))))
    fun i d => d.set n (some (.file false false (i.torn n)))

/-- Brings the data of a file to the disk. -/
def sync (n : Name) : FileM Name Unit :=
  call (fun d => .ok (d.set n ((d.live n).map fun node =>
    match node with
    | .file shared _ data => .file shared true data
    | node => node))) fun _ d => d

/-- Gives a file another name, in place of what that name stood for. -/
def rename (source target : Name) : FileM Name Unit :=
  call (fun d =>
    match d.live target with
    | some (.directory _) => .error "is a directory"
    | _ => .ok ((d.set target (d.live source)).remove source)) fun _ d => d

/-- Brings the names to the disk. -/
def syncDirectory : FileM Name Unit := call (fun d => .ok { d with durable := d.live }) fun _ d => d

/-- Replaces a file by way of a temporary one. -/
def replaceFile (temporary target : Name) (data : List UInt8) : FileM Name Unit :=
  onError (do
    create temporary
    write temporary data
    sync temporary
    rename temporary target
    syncDirectory) fun d => d.remove temporary

end Calls

/-! ## What programs do -/

section Outcomes

variable {change : Disk Name → Except String (Disk Name)}
  {partly : Interruption Name → Disk Name → Disk Name} {interruption : Option (Interruption Name)}
  {i : Interruption Name} {m m' : Machine Name} {x : FileM Name α} {f : α → FileM Name β}

theorem bind_done {a : α} (h : x interruption m = .done a m') :
    (x >>= f) interruption m = f a interruption m' := by
  simp only [bind, h]

theorem bind_stopped {d : Disk Name} (h : x interruption m = .stopped d) :
    (x >>= f) interruption m = .stopped d := by
  simp only [bind, h]

theorem bind_congr {y : FileM Name α} (h : x interruption m = y interruption m') :
    (x >>= f) interruption m = (y >>= f) interruption m' := by
  simp only [bind, h]

@[simp] theorem of_ok {a : α} : (of (.ok a) : FileM Name α) interruption m = .done a m := rfl

@[simp] theorem of_error {message : String} :
    (of (.error message) : FileM Name α) interruption m = .failed message m := rfl

/-- A call that is not the one that is interrupted. -/
theorem call_done {d : Disk Name} (hcut : ∀ i ∈ interruption, i.after ≠ m.calls)
    (h : change m.disk = .ok d) :
    call change partly interruption m = .done () { disk := d, calls := m.calls + 1 } := by
  have hfilter : (interruption.filter fun i => i.after = m.calls) = none := by
    rw [Option.filter_eq_none_iff]
    exact fun i hi => by simpa using hcut i hi
  simp only [call, hfilter, h]

@[simp] theorem bind_eq_done {b : β} {m'' : Machine Name} :
    (x >>= f) interruption m = .done b m'' ↔
      ∃ a m', x interruption m = .done a m' ∧ f a interruption m' = .done b m'' := by
  simp only [bind]
  cases x interruption m <;> simp

@[simp] theorem pure_eq_done {a b : α} :
    (pure a : FileM Name α) interruption m = .done b m' ↔ a = b ∧ m = m' := by
  simp [pure]

@[simp] theorem of_eq_done {y : Except String α} {a : α} :
    (of y : FileM Name α) interruption m = .done a m' ↔ y = .ok a ∧ m = m' := by
  cases y <;> simp [of]

@[simp] theorem view_eq_done {live : Name → Option Node} :
    (view : FileM Name _) interruption m = .done live m' ↔ m.disk.live = live ∧ m = m' := by
  simp [view]

@[simp] theorem onError_eq_done {cleanUp : Disk Name → Disk Name} {a : α} :
    onError x cleanUp interruption m = .done a m' ↔ x interruption m = .done a m' := by
  simp only [onError]
  cases x interruption m <;> simp

/-- A call without interruption. -/
@[simp] theorem call_none_eq_done {u : Unit} :
    call change partly none m = .done u m' ↔
      ∃ d, change m.disk = .ok d ∧ m' = ⟨d, m.calls + 1⟩ := by
  simp only [call, Option.filter]
  cases change m.disk <;> simp [eq_comm]

theorem call_stopped (h : i.after = m.calls) :
    call change partly (some i) m = .stopped (partly i m.disk) := by
  simp [call, Option.filter, h]

end Outcomes

end FileM

/-! ## Replacing a file -/

variable [DecidableEq Name]

/-- The directory after a file was replaced. -/
def Disk.replaced (d : Disk Name) (temporary target : Name) (data : List UInt8) : Disk Name :=
  let live := fun n =>
    if n = temporary then none else if n = target then some (.file false true data) else d.live n
  ⟨live, live⟩

/-- What the calls of a replacement do, one after the other. -/
theorem FileM.replaceFile_calls {temporary target : Name} (data : List UInt8) {d : Disk Name}
    (hne : temporary ≠ target) (hnew : d.live temporary = none)
    (htarget : ∀ shared, d.live target ≠ some (.directory shared)) (calls : Nat)
    (interruption : Option (Interruption Name)) :
    ((∀ i ∈ interruption, i.after < calls ∨ calls + 5 ≤ i.after) →
      replaceFile temporary target data interruption ⟨d, calls⟩ =
        .done () ⟨d.replaced temporary target data, calls + 5⟩) ∧
    ∀ i ∈ interruption, ∀ k < 5, i.after = calls + k →
      ∃ d', replaceFile temporary target data interruption ⟨d, calls⟩ = .stopped d' ∧
        ∀ n ≠ temporary, d'.durable n = d.durable n ∧
          d'.live n =
            if k = 4 ∧ n = target then some (.file false true data) else d.live n := by
  obtain ⟨d₁, hd₁⟩ : ∃ d₁, d₁ = d.set temporary (some (.file false false [])) := ⟨_, rfl⟩
  obtain ⟨d₂, hd₂⟩ : ∃ d₂, d₂ = d₁.set temporary (some (.file false false data)) := ⟨_, rfl⟩
  obtain ⟨d₃, hd₃⟩ : ∃ d₃, d₃ = d₂.set temporary (some (.file false true data)) := ⟨_, rfl⟩
  obtain ⟨d₄, hd₄⟩ : ∃ d₄, d₄ = (d₃.set target (some (.file false true data))).remove temporary :=
    ⟨_, rfl⟩
  have hlive₃ : d₃.live temporary = some (.file false true data) := by simp [hd₃, Disk.set]
  have htarget₃ : d₃.live target = d.live target := by
    simp [hd₃, hd₂, hd₁, Disk.set, Function.update_of_ne hne.symm]
  -- each call, if it is not the one that is interrupted
  have h₁ (h : ∀ i ∈ interruption, i.after ≠ calls) :
      create temporary interruption ⟨d, calls⟩ = .done () ⟨d₁, calls + 1⟩ :=
    call_done h (by rw [if_pos hnew, hd₁])
  have h₂ (h : ∀ i ∈ interruption, i.after ≠ calls + 1) :
      write temporary data interruption ⟨d₁, calls + 1⟩ = .done () ⟨d₂, calls + 2⟩ :=
    call_done h (by rw [hd₂])
  have h₃ (h : ∀ i ∈ interruption, i.after ≠ calls + 2) :
      sync temporary interruption ⟨d₂, calls + 2⟩ = .done () ⟨d₃, calls + 3⟩ :=
    call_done h (by simp [hd₃, hd₂, Disk.set])
  have h₄ (h : ∀ i ∈ interruption, i.after ≠ calls + 3) :
      rename temporary target interruption ⟨d₃, calls + 3⟩ = .done () ⟨d₄, calls + 4⟩ := by
    refine call_done h ?_
    show (match d₃.live target with
      | some (.directory _) => _
      | _ => _) = _
    rw [htarget₃, hlive₃, ← hd₄]
    cases ht : d.live target with
    | none => rfl
    | some node =>
      cases node with
      | file => rfl
      | symlink => rfl
      | directory shared => exact absurd ht (htarget shared)
  have h₅ (h : ∀ i ∈ interruption, i.after ≠ calls + 4) :
      syncDirectory interruption ⟨d₄, calls + 4⟩ = .done () ⟨⟨d₄.live, d₄.live⟩, calls + 5⟩ :=
    call_done h rfl
  constructor
  · intro hcut
    have hother (k : Nat) (hk : k < 5) : ∀ i ∈ interruption, i.after ≠ calls + k := fun i hi => by
      have := hcut i hi
      omega
    have hsteps : (do
        create temporary
        write temporary data
        sync temporary
        rename temporary target
        syncDirectory : FileM Name Unit) interruption ⟨d, calls⟩ =
          .done () ⟨⟨d₄.live, d₄.live⟩, calls + 5⟩ := by
      rw [bind_done (h₁ (hother 0 (by omega))), bind_done (h₂ (hother 1 (by omega))),
        bind_done (h₃ (hother 2 (by omega))), bind_done (h₄ (hother 3 (by omega)))]
      exact h₅ (hother 4 (by omega))
    have hlive : d₄.live = (d.replaced temporary target data).live := by
      funext n
      simp only [hd₄, hd₃, hd₂, hd₁, Disk.set, Disk.remove, Disk.replaced, Function.update_apply]
      split <;> simp_all
    simp only [replaceFile, onError, hsteps, hlive]
    rfl
  · rintro i hi k hk hafter
    obtain rfl : interruption = some i := hi
    have hother (j : Nat) (hj : j ≠ k) : ∀ i' ∈ some i, i'.after ≠ calls + j := by
      rintro _ ⟨⟩
      omega
    have hsteps : ∃ d', (do
        create temporary
        write temporary data
        sync temporary
        rename temporary target
        syncDirectory : FileM Name Unit) (some i) ⟨d, calls⟩ = .stopped d' ∧
        ∀ n ≠ temporary, d'.durable n = d.durable n ∧
          d'.live n =
            if k = 4 ∧ n = target then some (.file false true data) else d.live n := by
      rcases k with _ | _ | _ | _ | _ | k
      · refine ⟨_, bind_stopped (call_stopped hafter), fun n _ => ⟨rfl, by simp⟩⟩
      · refine ⟨_, (bind_done (h₁ (hother 0 (by omega)))).trans (bind_stopped (call_stopped hafter)),
          fun n hn => ⟨by simp [hd₁, Disk.set], ?_⟩⟩
        simp [hd₁, Disk.set, Function.update_of_ne hn]
      · refine ⟨_, ((bind_done (h₁ (hother 0 (by omega)))).trans
          (bind_done (h₂ (hother 1 (by omega))))).trans (bind_stopped (call_stopped hafter)),
          fun n hn => ⟨by simp [hd₂, hd₁, Disk.set], ?_⟩⟩
        simp [hd₂, hd₁, Disk.set, Function.update_of_ne hn]
      · refine ⟨_, (((bind_done (h₁ (hother 0 (by omega)))).trans
          (bind_done (h₂ (hother 1 (by omega))))).trans (bind_done (h₃ (hother 2 (by omega))))).trans
          (bind_stopped (call_stopped hafter)),
          fun n hn => ⟨by simp [hd₃, hd₂, hd₁, Disk.set], ?_⟩⟩
        simp [hd₃, hd₂, hd₁, Disk.set, Function.update_of_ne hn]
      · refine ⟨_, ((((bind_done (h₁ (hother 0 (by omega)))).trans
          (bind_done (h₂ (hother 1 (by omega))))).trans (bind_done (h₃ (hother 2 (by omega))))).trans
          (bind_done (h₄ (hother 3 (by omega))))).trans (call_stopped hafter),
          fun n hn => ⟨by simp [hd₄, hd₃, hd₂, hd₁, Disk.set, Disk.remove], ?_⟩⟩
        simp only [hd₄, hd₃, hd₂, hd₁, Disk.set, Disk.remove, Function.update_apply]
        split <;> simp_all
      · omega
    obtain ⟨d', hstopped, hagree⟩ := hsteps
    refine ⟨_, by simp only [replaceFile, onError, hstopped]; rfl, fun n hn => ?_⟩
    have hremove : (d'.remove temporary).live n = d'.live n := by
      simp [Disk.remove, Disk.set, Function.update_of_ne hn]
    split
    · exact ⟨(hagree n hn).1, hremove.trans (hagree n hn).2⟩
    · exact hagree n hn

/-- When a replacement is carried out without interruption. -/
theorem FileM.replaceFile_eq_done {temporary target : Name} {data : List UInt8}
    {m m' : Machine Name} (hne : temporary ≠ target) {u : Unit} :
    replaceFile temporary target data none m = .done u m' ↔
      m.disk.live temporary = none ∧ (∀ shared, m.disk.live target ≠ some (.directory shared)) ∧
        m' = ⟨m.disk.replaced temporary target data, m.calls + 5⟩ := by
  constructor
  · intro h
    have hsteps := h
    simp only [replaceFile, onError_eq_done, bind_eq_done, create, write, sync, rename,
      syncDirectory, call_none_eq_done] at hsteps
    obtain ⟨_, _, ⟨d₁, hcreate, rfl⟩, _, _, ⟨d₂, hwrite, rfl⟩, _, _, ⟨d₃, hsync, rfl⟩, _, _,
      ⟨d₄, hrename, rfl⟩, -⟩ := hsteps
    have hnew : m.disk.live temporary = none := by
      by_contra hold
      rw [if_neg hold] at hcreate
      cases hcreate
    rw [if_pos hnew] at hcreate
    cases hcreate
    cases hwrite
    cases hsync
    have htarget : ∀ shared, m.disk.live target ≠ some (.directory shared) := by
      intro shared hdirectory
      simp only [Disk.set, Function.update_of_ne hne.symm, hdirectory] at hrename
      cases hrename
    have hdone := (replaceFile_calls data hne hnew htarget m.calls none).1 (by simp)
    cases hdone.symm.trans h
    exact ⟨hnew, htarget, rfl⟩
  · rintro ⟨hnew, htarget, rfl⟩
    exact (replaceFile_calls data hne hnew htarget m.calls none).1 (by simp)

/-! ## What is found after an interruption -/

/-- The change of `n` survives the interruption. -/
def Interruption.Keeps (i : Interruption Name) (n : Name) : Prop :=
  ∀ survives ∈ i.crash, survives n = true

/-- A file that is replaced from the call number `calls` on is in place after the interruption: its
renaming was carried out, and was synced or survives. -/
def Interruption.InPlace (i : Interruption Name) (calls : Nat) (target : Name) : Prop :=
  calls + 5 ≤ i.after ∨ i.after = calls + 4 ∧ i.Keeps target

omit [DecidableEq Name] in
/-- What is on the disk is found again. -/
theorem Disk.Settled.settle_live {d : Disk Name} {n : Name} (h : d.Settled n)
    (i : Interruption Name) : (d.settle i).live n = d.live n := by
  unfold settle
  cases i.crash with
  | none => rfl
  | some survives =>
    show d.afterCrash survives i.torn n = d.live n
    have hnode : (if survives n = true then d.live n else d.durable n) = d.live n := by
      rw [h.durable_eq, ite_self]
    rw [afterCrash, hnode]
    cases hlive : d.live n with
    | none => rfl
    | some node => exact congrArg some (h.synced node hlive (i.torn n))

omit [DecidableEq Name] in
/-- A node that neither view of the directory has is not found either. -/
theorem Disk.settle_live_ne {d : Disk Name} {n : Name} {p : Node → Prop}
    (hrecover : ∀ node torn, p (node.recover torn) → p node) (hlive : ∀ node ∈ d.live n, ¬ p node)
    (hdurable : ∀ node ∈ d.durable n, ¬ p node) (i : Interruption Name) :
    ∀ node ∈ (d.settle i).live n, ¬ p node := by
  unfold settle
  cases i.crash with
  | none => exact hlive
  | some survives =>
    intro node hnode hp
    obtain ⟨node', hnode', rfl⟩ := Option.map_eq_some_iff.1 hnode
    split at hnode'
    · exact hlive node' hnode' (hrecover node' _ hp)
    · exact hdurable node' hnode' (hrecover node' _ hp)

/-- A replacement that is interrupted leaves the old file or the new one, and the other files as they
were. -/
theorem FileM.settle_replaceFile {temporary target : Name} (data : List UInt8) {d : Disk Name}
    (hne : temporary ≠ target) (hnew : d.live temporary = none)
    (htarget : ∀ shared, d.live target ≠ some (.directory shared)) (calls : Nat)
    (i : Interruption Name) (hcut : calls ≤ i.after ∧ i.after < calls + 5) :
    ∃ d', replaceFile temporary target data (some i) ⟨d, calls⟩ = .stopped d' ∧
      (∀ n ≠ temporary, d.Settled n → n ≠ target → (d'.settle i).live n = d.live n) ∧
      (d.Settled target →
        (i.InPlace calls target → (d'.settle i).live target = some (.file false true data)) ∧
        (¬ i.InPlace calls target → (d'.settle i).live target = d.live target)) ∧
      ∀ n ≠ temporary, n ≠ target → d'.live n = d.live n ∧ d'.durable n = d.durable n := by
  obtain ⟨k, hafter⟩ := Nat.exists_eq_add_of_le hcut.1
  obtain ⟨d', hstopped, hagree⟩ := (replaceFile_calls data hne hnew htarget calls
    (some i)).2 i rfl k (by omega) hafter
  have hother : ∀ n ≠ temporary, n ≠ target → d'.live n = d.live n ∧ d'.durable n = d.durable n :=
    fun n hn hnt => ⟨by rw [(hagree n hn).2, if_neg (fun h => hnt h.2)], (hagree n hn).1⟩
  refine ⟨d', hstopped, fun n hn hsettled hnt => ?_, fun hsettled => ?_, hother⟩
  · have hsettled' : d'.Settled n := by
      obtain ⟨hl, hd⟩ := hother n hn hnt
      exact ⟨by rw [hl, hd, hsettled.durable_eq], by rw [hl]; exact hsettled.synced⟩
    rw [hsettled'.settle_live, (hother n hn hnt).1]
  · obtain ⟨hdurable, hlive⟩ := hagree target hne.symm
    by_cases hk : k = 4
    · rw [if_pos ⟨hk, rfl⟩] at hlive
      unfold Disk.settle
      constructor
      · rintro (hin | ⟨-, hkeeps⟩)
        · omega
        · cases hcrash : i.crash with
          | none => exact hlive
          | some survives =>
            show Disk.afterCrash d' survives i.torn target = _
            rw [Disk.afterCrash, if_pos (hkeeps survives hcrash), hlive]
            rfl
      · intro hout
        cases hcrash : i.crash with
        | none =>
          exact absurd (Or.inr ⟨by omega, fun survives h => by rw [hcrash] at h; cases h⟩) hout
        | some survives =>
          show Disk.afterCrash d' survives i.torn target = _
          have hlost : ¬ survives target = true := fun h => hout (Or.inr ⟨by omega, fun _ h' => by
            obtain rfl := Option.some.inj (hcrash.symm.trans h')
            exact h⟩)
          rw [Disk.afterCrash, if_neg hlost, hdurable, hsettled.durable_eq]
          cases hold : d.live target with
          | none => rfl
          | some node => exact congrArg some (hsettled.synced node hold _)
    · rw [if_neg fun h => hk h.1] at hlive
      have hsettled' : d'.Settled target :=
        ⟨by rw [hlive, hdurable, hsettled.durable_eq], by rw [hlive]; exact hsettled.synced⟩
      refine ⟨fun hin => ?_, fun _ => by rw [hsettled'.settle_live, hlive]⟩
      rcases hin with hin | ⟨hin, -⟩ <;> omega

/-- After a replacement that was carried out everything is on the disk. -/
theorem Disk.Settled.replaced {d : Disk Name} {temporary target n : Name} {data : List UInt8}
    (h : n = target ∨ ∀ node ∈ d.live n, ∀ torn, node.recover torn = node) :
    (d.replaced temporary target data).Settled n where
  durable_eq := rfl
  synced node hnode torn := by
    simp only [Disk.replaced] at hnode
    split at hnode
    · cases hnode
    · split at hnode
      · obtain rfl := Option.some.inj hnode
        rfl
      · rename_i hne
        exact (h.resolve_left hne) node hnode torn

end Storage
