import Mathlib.Data.List.Forall2
import Mathlib.Tactic.Common

/-!
# Tapscripts of signature checks

The part of Bitcoin's script language that pushes data and checks signatures, with the rules of
BIP 342: an empty signature fails its check, any other one has to be valid, and a script succeeds if
it leaves one true item. The first item of a stack is its top. Whether a signature is valid is a
parameter.

`allOf` is the script for which every one of a list of keys has to sign. It succeeds on exactly the
stacks that hold one valid signature for each key.
-/

namespace Tapscript

/-- An item of the stack. -/
abbrev Item := List UInt8

/-- A step of a script. -/
inductive Op
  | push (data : Item)
  | checkSig
  | checkSigVerify
deriving DecidableEq

/-- `OP_CHECKSIG`. -/
def checkSigByte : UInt8 := 0xac

/-- `OP_CHECKSIGVERIFY`. -/
def checkSigVerifyByte : UInt8 := 0xad

/-- Reads a script of which `left` bytes still belong to the push of `data`. -/
def read : Nat → Item → List UInt8 → Option (List Op)
  | 0, _, [] => some []
  | _ + 1, _, [] => none
  | 0, _, byte :: rest =>
    if byte = checkSigByte then (read 0 [] rest).map (.checkSig :: ·)
    else if byte = checkSigVerifyByte then (read 0 [] rest).map (.checkSigVerify :: ·)
    else if 1 ≤ byte.toNat ∧ byte.toNat ≤ 75 then read byte.toNat [] rest
    else none
  | 1, data, byte :: rest => (read 0 [] rest).map (.push (data ++ [byte]) :: ·)
  | left + 2, data, byte :: rest => read (left + 1) (data ++ [byte]) rest

/-- Reads a script. -/
def decode (script : List UInt8) : Option (List Op) := read 0 [] script

/-- `CastToBool`: an item is false if it is zero or negative zero. -/
def truthy : Item → Bool
  | [] => false
  | [byte] => byte ≠ 0 ∧ byte ≠ 0x80
  | byte :: next :: rest => byte ≠ 0 ∨ truthy (next :: rest)

variable (valid : Item → Item → Bool)

/-- A signature check: whether it succeeds, if the script goes on. -/
def check (signature key : Item) : Option Bool :=
  if key = [] then none
  else if signature = [] then some false
  else if key.length = 32 then if valid signature key then some true else none
  else some true

/-- One step on a stack. -/
def step : Op → List Item → Option (List Item)
  | .push data, stack => some (data :: stack)
  | .checkSig, key :: signature :: stack =>
    (check valid signature key).map fun ok => (if ok then [1] else []) :: stack
  | .checkSigVerify, key :: signature :: stack =>
    (check valid signature key).bind fun ok => if ok then some stack else none
  | _, _ => none

def run (ops : List Op) (stack : List Item) : Option (List Item) :=
  ops.foldlM (fun stack op => step valid op stack) stack

/-- The script succeeds on this stack. -/
def accepts (script : List UInt8) (stack : List Item) : Bool :=
  match (decode script).bind fun ops => run valid ops stack with
  | some [top] => truthy top
  | _ => false

/-! ## Scripts for a list of keys -/

/-- The bytes that push a key. -/
def pushKey (key : Item) : List UInt8 := UInt8.ofNat key.length :: key

/-- The script for which all of these keys have to sign. -/
def allOf : List Item → List UInt8
  | [] => []
  | [key] => pushKey key ++ [checkSigByte]
  | key :: next :: keys => pushKey key ++ [checkSigVerifyByte] ++ allOf (next :: keys)

/-- The steps of this script. -/
def allOfOps : List Item → List Op
  | [] => []
  | [key] => [.push key, .checkSig]
  | key :: next :: keys => .push key :: .checkSigVerify :: allOfOps (next :: keys)

/-- A push is read to its end. -/
theorem read_push {data taken : Item} {rest : List UInt8} (hne : data ≠ []) :
    read data.length taken (data ++ rest) =
      (read 0 [] rest).map (.push (taken ++ data) :: ·) := by
  induction data generalizing taken with
  | nil => exact absurd rfl hne
  | cons byte data ih =>
    cases data with
    | nil => rfl
    | cons next data =>
      have hnext : read (byte :: next :: data).length taken (byte :: next :: data ++ rest) =
          read (next :: data).length (taken ++ [byte]) (next :: data ++ rest) := rfl
      rw [hnext, ih (List.cons_ne_nil _ _), List.append_assoc, List.singleton_append]

theorem decode_pushKey {key : Item} {rest : List UInt8} (hkey : key.length = 32) :
    decode (pushKey key ++ rest) = (decode rest).map (.push key :: ·) := by
  have hne : key ≠ [] := by
    rintro rfl
    cases hkey
  have hpush : decode (pushKey key ++ rest) = read key.length [] (key ++ rest) := by
    rw [pushKey, hkey]
    rfl
  rw [hpush, read_push hne]
  rfl

theorem decode_checkSig (rest : List UInt8) :
    decode (checkSigByte :: rest) = (decode rest).map (.checkSig :: ·) := rfl

theorem decode_checkSigVerify (rest : List UInt8) :
    decode (checkSigVerifyByte :: rest) = (decode rest).map (.checkSigVerify :: ·) := rfl

theorem decode_allOf {keys : List Item} (hkeys : ∀ key ∈ keys, key.length = 32) :
    decode (allOf keys) = some (allOfOps keys) := by
  induction keys with
  | nil => rfl
  | cons key keys ih =>
    have hkey := hkeys key List.mem_cons_self
    cases keys with
    | nil =>
      rw [allOf, decode_pushKey hkey, decode_checkSig]
      rfl
    | cons next keys =>
      have hrest := ih fun k hk => hkeys k (List.mem_cons_of_mem _ hk)
      rw [allOf, List.append_assoc, decode_pushKey hkey, List.singleton_append,
        decode_checkSigVerify, hrest]
      rfl

variable {valid}

theorem check_eq_true {signature key : Item} (hkey : key.length = 32) :
    check valid signature key = some true ↔ signature ≠ [] ∧ valid signature key = true := by
  have hne : key ≠ [] := by
    rintro rfl
    cases hkey
  unfold check
  rw [if_neg hne]
  by_cases hsig : signature = []
  · simp [hsig]
  · rw [if_neg hsig, if_pos hkey]
    by_cases hvalid : valid signature key = true
    · simp [hsig, hvalid]
    · simp [hvalid]

/-- One check of a script for several keys takes the signature on top. -/
theorem run_verify {key : Item} (hkey : key.length = 32) {ops : List Op} {stack last : List Item} :
    run valid (.push key :: .checkSigVerify :: ops) stack = some last ↔
      ∃ signature rest, stack = signature :: rest ∧ signature ≠ [] ∧
        valid signature key = true ∧ run valid ops rest = some last := by
  cases stack with
  | nil => simp [run, step]
  | cons signature rest =>
    have hrun : run valid (.push key :: .checkSigVerify :: ops) (signature :: rest) =
        ((check valid signature key).bind fun ok => if ok then some rest else none).bind
          (run valid ops) := by
      rw [run, List.foldlM_cons]
      rfl
    rw [hrun]
    constructor
    · intro h
      obtain ⟨rest', h, hlast⟩ := Option.bind_eq_some_iff.1 h
      obtain ⟨ok, hok, hrest⟩ := Option.bind_eq_some_iff.1 h
      cases ok with
      | false => cases hrest
      | true =>
        cases hrest
        obtain ⟨hsig, hvalid⟩ := (check_eq_true hkey).1 hok
        exact ⟨signature, rest, rfl, hsig, hvalid, hlast⟩
    · rintro ⟨_, _, ⟨⟩, hsig, hvalid, hlast⟩
      rw [(check_eq_true hkey).2 ⟨hsig, hvalid⟩]
      exact hlast

/-- The last check of a script leaves what is below the signature. -/
theorem run_checkSig {key : Item} (hkey : key.length = 32) {stack : List Item} {top : Item} :
    run valid [.push key, .checkSig] stack = some [top] ∧ truthy top = true ↔
      ∃ signature, stack = [signature] ∧ signature ≠ [] ∧ valid signature key = true ∧
        top = [1] := by
  cases stack with
  | nil => simp [run, step]
  | cons signature rest =>
    have hrun : run valid [.push key, .checkSig] (signature :: rest) =
        (check valid signature key).map fun ok => (if ok then [1] else []) :: rest := by
      rw [run, List.foldlM_cons]
      exact Option.bind_fun_some ((check valid signature key).map _)
    rw [hrun]
    constructor
    · rintro ⟨h, htop⟩
      obtain ⟨ok, hok, hrest⟩ := Option.map_eq_some_iff.1 h
      obtain ⟨hhead, rfl⟩ := List.cons.inj hrest
      cases ok with
      | false =>
        rw [← hhead] at htop
        cases htop
      | true =>
        obtain ⟨hsig, hvalid⟩ := (check_eq_true hkey).1 hok
        exact ⟨signature, rfl, hsig, hvalid, hhead.symm⟩
    · rintro ⟨_, hstack, hsig, hvalid, rfl⟩
      obtain ⟨rfl, rfl⟩ := List.cons.inj hstack
      rw [(check_eq_true hkey).2 ⟨hsig, hvalid⟩]
      exact ⟨rfl, rfl⟩

theorem run_allOf {keys : List Item} (hne : keys ≠ []) (hkeys : ∀ key ∈ keys, key.length = 32)
    {stack : List Item} {top : Item} :
    run valid (allOfOps keys) stack = some [top] ∧ truthy top = true ↔
      List.Forall₂ (fun signature key => signature ≠ [] ∧ valid signature key = true) stack keys ∧
        top = [1] := by
  induction keys generalizing stack with
  | nil => exact absurd rfl hne
  | cons key keys ih =>
    have hkey := hkeys key List.mem_cons_self
    cases keys with
    | nil =>
      rw [allOfOps, run_checkSig hkey]
      constructor
      · rintro ⟨signature, rfl, hsig, hvalid, htop⟩
        exact ⟨.cons ⟨hsig, hvalid⟩ .nil, htop⟩
      · rintro ⟨hall, htop⟩
        cases hall with
        | cons hhead hnil =>
          cases hnil
          exact ⟨_, rfl, hhead.1, hhead.2, htop⟩
    | cons next keys =>
      have hrest := @ih (List.cons_ne_nil _ _) fun k hk => hkeys k (List.mem_cons_of_mem _ hk)
      rw [allOfOps, run_verify hkey]
      constructor
      · rintro ⟨⟨signature, rest, rfl, hsig, hvalid, hrun⟩, htop⟩
        obtain ⟨hall, hone⟩ := hrest.1 ⟨hrun, htop⟩
        exact ⟨.cons ⟨hsig, hvalid⟩ hall, hone⟩
      · rintro ⟨hall, hone⟩
        cases hall with
        | cons hhead hall =>
          obtain ⟨hrun, htop⟩ := hrest.2 ⟨hall, hone⟩
          exact ⟨⟨_, _, rfl, hhead.1, hhead.2, hrun⟩, htop⟩

/-- The script for a list of keys succeeds on exactly the stacks with one valid signature for each
key, in their order. -/
theorem accepts_allOf {keys : List Item} (hne : keys ≠ []) (hkeys : ∀ key ∈ keys, key.length = 32)
    {stack : List Item} :
    accepts valid (allOf keys) stack = true ↔
      List.Forall₂ (fun signature key => signature ≠ [] ∧ valid signature key = true)
        stack keys := by
  have haccepts : accepts valid (allOf keys) stack = true ↔
      ∃ top, run valid (allOfOps keys) stack = some [top] ∧ truthy top = true := by
    rw [accepts, decode_allOf hkeys, Option.bind_some]
    constructor
    · intro h
      split at h
      · rename_i top hrun
        exact ⟨top, hrun, h⟩
      · cases h
    · rintro ⟨top, hrun, htop⟩
      rw [hrun]
      exact htop
  rw [haccepts]
  constructor
  · rintro ⟨top, h⟩
    exact ((run_allOf hne hkeys).1 h).1
  · intro h
    exact ⟨[1], (run_allOf hne hkeys).2 ⟨h, rfl⟩⟩

example : accepts (fun signature key => signature = key) (allOf [List.replicate 32 7])
    [List.replicate 32 7] = true := by decide

end Tapscript
