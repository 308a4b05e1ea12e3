import Mathlib.Data.List.Chain
import Mathlib.Data.List.Sort

/-!
# Sorting by a key

Lists that are sorted by a key of their elements. A stable sort by a key depends on the order in
which the list is given, but only for elements with the same key: if all keys are different, lists
with the same elements are sorted to the same list. That all keys are different can be seen from the
neighbours of the sorted list.
-/

namespace KeySort

variable {α κ : Type} (r : κ → κ → Prop) [DecidableRel r] (key : α → κ)

/-- The list, sorted by the keys of its elements. -/
def sortByKey (l : List α) : List α := l.insertionSort fun a b => r (key a) (key b)

variable {r key} {l l' : List α}

theorem sortByKey_perm : (sortByKey r key l).Perm l := List.perm_insertionSort _ l

theorem map_sortByKey_perm : ((sortByKey r key l).map key).Perm (l.map key) := sortByKey_perm.map key

section Order

variable [Std.Total r] [IsTrans κ r]

theorem sortByKey_pairwise : (sortByKey r key l).Pairwise fun a b => r (key a) (key b) := by
  have : Std.Total fun a b : α => r (key a) (key b) := ⟨fun a b => Std.Total.total (key a) (key b)⟩
  have : IsTrans α fun a b : α => r (key a) (key b) :=
    ⟨fun a b c hab hbc => IsTrans.trans (key a) (key b) (key c) hab hbc⟩
  exact List.pairwise_insertionSort _ l

/-- A sorted list stays as it is. -/
theorem sortByKey_sortByKey : sortByKey r key (sortByKey r key l) = sortByKey r key l :=
  sortByKey_pairwise.insertionSort_eq

/-- The keys of a sorted list ascend strictly if they are different. -/
theorem sortByKey_ascends (hnodup : (l.map key).Nodup) :
    ((sortByKey r key l).map key).Pairwise fun a b => r a b ∧ a ≠ b := by
  have hle : ((sortByKey r key l).map key).Pairwise r := List.pairwise_map.2 sortByKey_pairwise
  exact List.pairwise_and_iff.2 ⟨hle, map_sortByKey_perm.nodup_iff.2 hnodup⟩

variable [Std.Antisymm r]

/-- All keys are different if the keys of neighbours in the sorted list are. -/
theorem nodup_of_neighbours
    (hchain : (sortByKey r key l).IsChain fun a b => key a ≠ key b) : (l.map key).Nodup := by
  have hsorted : ((sortByKey r key l).map key).Pairwise fun a b => r a b ∧ a ≠ b := by
    have : IsTrans κ fun a b => r a b ∧ a ≠ b := by
      refine ⟨fun a b c ⟨hab, hne⟩ ⟨hbc, _⟩ => ⟨IsTrans.trans a b c hab hbc, ?_⟩⟩
      rintro rfl
      exact hne (Std.Antisymm.antisymm a b hab hbc)
    refine List.isChain_iff_pairwise.1 ((List.isChain_map key).2 ?_)
    refine List.isChain_iff_getElem.2 fun i hi => ⟨?_, hchain.getElem i hi⟩
    exact sortByKey_pairwise.isChain.getElem i hi
  exact map_sortByKey_perm.nodup_iff.1 (hsorted.imp And.right)

/-- Lists with the same elements, whose keys are different, are sorted to the same list. -/
theorem sortByKey_congr (hperm : l.Perm l') (hnodup : (l.map key).Nodup) :
    sortByKey r key l = sortByKey r key l' := by
  refine List.Perm.eq_of_pairwise ?_ sortByKey_pairwise sortByKey_pairwise
    (sortByKey_perm.trans (hperm.trans sortByKey_perm.symm))
  intro a b ha hb hab hba
  have hkey : key a = key b := Std.Antisymm.antisymm _ _ hab hba
  have ha' : a ∈ l := sortByKey_perm.mem_iff.1 ha
  have hb' : b ∈ l := hperm.mem_iff.2 (sortByKey_perm.mem_iff.1 hb)
  exact List.inj_on_of_nodup_map hnodup ha' hb' hkey

end Order

/-- An element of a sorted list is among the first ones, unless there are enough that come before
it. -/
theorem mem_take_or {s : α → α → Prop} (hsorted : l.Pairwise s) {a : α} (ha : a ∈ l) (n : Nat) :
    a ∈ l.take n ∨ ((l.take n).length = n ∧ ∀ b ∈ l.take n, s b a) := by
  rw [← List.take_append_drop n l] at hsorted
  rw [← List.take_append_drop n l, List.mem_append] at ha
  rcases ha with ha | ha
  · exact Or.inl ha
  · refine Or.inr ⟨?_, fun b hb => (List.pairwise_append.1 hsorted).2.2 b hb a ha⟩
    have hdrop : (l.drop n).length ≠ 0 := fun h => by
      rw [List.length_eq_zero_iff.1 h] at ha
      cases ha
    rw [List.length_drop] at hdrop
    rw [List.length_take]
    omega

end KeySort
