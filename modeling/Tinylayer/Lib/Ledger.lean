import Mathlib.Data.List.Basic
import Mathlib.Tactic.Common

/-!
# Ledgers

Blocks are known by their hashes. Each block but the first ones has a parent, so all the blocks that
were ever made form a tree. A ledger is what a node of the network sees: a path through that tree
from a first block to the last one, and the transactions that wait for a block.

As time goes on, the path grows, and the end of it can be replaced. But a block determines the whole
path that leads to it: ledgers that have one block in common are the same up to this block.
-/

namespace Ledger

/-- The blocks that were made: each has a parent, unless it is a first block, and transactions. -/
structure BlockTree (H T : Type) where
  parent : H → Option H
  transactions : H → List T

variable {H T : Type}

/-- Each block is the parent of the next one, and `last` is the parent of the first one. -/
def BlockTree.Linked (tree : BlockTree H T) : Option H → List H → Prop
  | _, [] => True
  | last, hash :: chain => tree.parent hash = last ∧ tree.Linked (some hash) chain

instance BlockTree.decidableLinked [DecidableEq H] (tree : BlockTree H T) (last : Option H)
    (chain : List H) : Decidable (tree.Linked last chain) :=
  match chain with
  | [] => .isTrue trivial
  | hash :: chain =>
    have := tree.decidableLinked (some hash) chain
    inferInstanceAs (Decidable (_ ∧ _))

/-- What a node of the network sees. -/
structure View (tree : BlockTree H T) where
  chain : List H
  mempool : List T
  linked : tree.Linked none chain
  nonempty : chain ≠ []

variable {tree : BlockTree H T}

namespace View

variable (view : View tree)

/-- The height of the last block. -/
def tip : Nat := view.chain.length - 1

/-- The transaction is in the block of the given height and hash. -/
def Holds (height : Nat) (hash : H) (transaction : T) : Prop :=
  view.chain[height]? = some hash ∧ transaction ∈ tree.transactions hash

/-- The transaction is in a block, or waits for one. -/
def Knows (transaction : T) : Prop :=
  transaction ∈ view.mempool ∨ ∃ height hash, view.Holds height hash transaction

end View

variable {view view' : View tree} {height height' : Nat} {hash : H} {transaction : T}

theorem View.Holds.knows (h : view.Holds height hash transaction) : view.Knows transaction :=
  Or.inr ⟨height, hash, h⟩

theorem View.length_pos : 0 < view.chain.length := List.length_pos_iff.2 view.nonempty

theorem View.chain_length : view.chain.length = view.tip + 1 := by
  have := view.length_pos
  unfold tip
  omega

theorem View.Holds.le_tip (h : view.Holds height hash transaction) : height ≤ view.tip := by
  have hlength := (List.getElem?_eq_some_iff.1 h.1).1
  rw [view.chain_length] at hlength
  exact Nat.le_of_lt_succ hlength

/-! ## Parents -/

theorem BlockTree.Linked.parent_zero {last : Option H} {chain : List H}
    (h : tree.Linked last chain) (hhash : chain[0]? = some hash) : tree.parent hash = last := by
  cases chain with
  | nil => cases hhash
  | cons first chain =>
    cases hhash
    exact h.1

theorem BlockTree.Linked.parent_succ {last : Option H} {chain : List H}
    (h : tree.Linked last chain) (hhash : chain[height + 1]? = some hash) :
    tree.parent hash = chain[height]? ∧ chain[height]? ≠ none := by
  induction chain generalizing last height with
  | nil => cases hhash
  | cons first chain ih =>
    cases height with
    | zero => exact ⟨h.2.parent_zero hhash, Option.some_ne_none _⟩
    | succ height => exact ih h.2 hhash

/-- Ledgers with a block in common have it at the same height, and are the same up to it. -/
theorem View.common_prefix (hhash : view.chain[height]? = some hash)
    (hhash' : view'.chain[height']? = some hash) :
    height = height' ∧ view.chain.take (height + 1) = view'.chain.take (height + 1) := by
  -- The parents of the block lead down both paths at the same time.
  induction height generalizing hash height' with
  | zero =>
    have hparent := view.linked.parent_zero hhash
    cases height' with
    | zero => exact ⟨rfl, by rw [List.take_add_one, hhash, List.take_add_one, hhash']; rfl⟩
    | succ height' =>
      obtain ⟨hparent', hne⟩ := view'.linked.parent_succ hhash'
      exact absurd (hparent'.symm.trans hparent) hne
  | succ height ih =>
    obtain ⟨hparent, hne⟩ := view.linked.parent_succ hhash
    cases height' with
    | zero => exact absurd (hparent.symm.trans (view'.linked.parent_zero hhash')) hne
    | succ height' =>
      obtain ⟨hparent', _⟩ := view'.linked.parent_succ hhash'
      obtain ⟨below, hbelow⟩ := Option.ne_none_iff_exists'.1 hne
      obtain ⟨rfl, htake⟩ := ih hbelow (hparent'.symm.trans (hparent.trans hbelow))
      exact ⟨rfl, by rw [List.take_add_one, hhash, htake, List.take_add_one (i := height + 1), hhash']⟩

/-- A transaction of a block is on every ledger that has the block. -/
theorem View.Holds.of_common (h : view.Holds height hash transaction)
    (hhash : view'.chain[height']? = some hash) :
    height = height' ∧ view'.Holds height hash transaction := by
  obtain ⟨rfl, -⟩ := common_prefix h.1 hhash
  exact ⟨rfl, hhash, h.2⟩

/-- Ledgers with the same last block have the same blocks. -/
theorem View.chain_eq (h : view.chain.getLast? = view'.chain.getLast?) :
    view.chain = view'.chain := by
  obtain ⟨hash, hhash⟩ := Option.ne_none_iff_exists'.1
    (mt List.getLast?_eq_none_iff.1 view.nonempty)
  have hlast := hhash
  rw [h, List.getLast?_eq_getElem?] at hlast
  rw [List.getLast?_eq_getElem?] at hhash
  obtain ⟨hheight, htake⟩ := common_prefix hhash hlast
  have hlength : view.chain.length = view'.chain.length := by
    rw [view.chain_length, view'.chain_length]
    exact congrArg (· + 1) hheight
  rwa [List.take_of_length_le (by omega), List.take_of_length_le (by omega)] at htake

/-! ## Numbered blocks -/

/-- One path of blocks, each of which has its height as its hash. -/
def numbered (transactions : Nat → List T) : BlockTree Nat T where
  parent
    | 0 => none
    | height + 1 => some height
  transactions := transactions

theorem linked_numbered (transactions : Nat → List T) (length height : Nat) :
    (numbered transactions).Linked ((numbered transactions).parent height)
      (List.range' height length) := by
  induction length generalizing height with
  | zero => trivial
  | succ length ih => exact ⟨rfl, ih (height + 1)⟩

/-- The path up to the given height. -/
def numberedView (transactions : Nat → List T) (mempool : List T) (tip : Nat) :
    View (numbered transactions) where
  chain := List.range' 0 (tip + 1)
  mempool := mempool
  linked := linked_numbered transactions (tip + 1) 0
  nonempty := List.cons_ne_nil _ _

section Numbered

variable {transactions : Nat → List T} {mempool : List T} {tip : Nat}

@[simp] theorem tip_numberedView : (numberedView transactions mempool tip).tip = tip := by
  simp [View.tip, numberedView]

theorem getElem?_numberedView (hheight : height ≤ tip) :
    (numberedView transactions mempool tip).chain[height]? = some height := by
  simp [numberedView, Nat.lt_succ_of_le hheight]

theorem holds_numberedView {number : Nat} :
    (numberedView transactions mempool tip).Holds height number transaction ↔
      height ≤ tip ∧ number = height ∧ transaction ∈ transactions height := by
  constructor
  · rintro ⟨hnumber, hmem⟩
    have hheight : height ≤ tip := by
      have hlength := (List.getElem?_eq_some_iff.1 hnumber).1
      simp only [numberedView, List.length_range'] at hlength
      omega
    rw [getElem?_numberedView hheight] at hnumber
    cases hnumber
    exact ⟨hheight, rfl, hmem⟩
  · rintro ⟨hheight, rfl, hmem⟩
    exact ⟨getElem?_numberedView hheight, hmem⟩

end Numbered

end Ledger
