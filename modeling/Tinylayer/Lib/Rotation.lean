import Mathlib.Data.List.Induction
import Mathlib.Data.List.Nodup

/-!
# Rotating keys

A lock whose key changes with every use. A use `l` presents the key `opens l` and leaves behind the
key `sets l`; the lock accepts it only if it presents the key left behind by the use before. If the
keys that are left behind never repeat, the uses form one unforked chain: no key opens the lock
twice, and a key that was used up never opens it again.
-/

namespace Rotation

variable {L K : Type} (opens sets : L → K)

/-- The uses `log`, in order, of a lock whose first key is `k`. -/
def Follows : K → List L → Prop
  | _, [] => True
  | k, l :: log => opens l = k ∧ Follows (sets l) log

/-- The key left behind by the uses `log` of a lock whose first key is `k`. -/
def key : K → List L → K
  | k, [] => k
  | _, l :: log => key (sets l) log

variable {opens sets} {k : K} {log : List L} {l : L}

@[simp] theorem key_concat : key sets k (log ++ [l]) = sets l := by
  induction log generalizing k with
  | nil => rfl
  | cons a log ih => exact ih

@[simp] theorem follows_concat :
    Follows opens sets k (log ++ [l]) ↔ Follows opens sets k log ∧ opens l = key sets k log := by
  induction log generalizing k with
  | nil => simp [Follows, key]
  | cons a log ih => simp [Follows, key, ih, and_assoc]

theorem follows_append {rest : List L} :
    Follows opens sets k (log ++ rest) ↔
      Follows opens sets k log ∧ Follows opens sets (key sets k log) rest := by
  induction log generalizing k with
  | nil => simp [Follows, key]
  | cons a log ih => simp [Follows, key, ih, and_assoc]

/-- What holds of the first key and is passed on from key to key holds of the present key. -/
theorem Follows.key_of_step {good : K → Prop} (h : Follows opens sets k log) (hk : good k)
    (hstep : ∀ l ∈ log, good (opens l) → good (sets l)) : good (key sets k log) := by
  induction log generalizing k with
  | nil => exact hk
  | cons a log ih =>
    obtain ⟨rfl, hlog⟩ := h
    exact ih hlog (hstep a List.mem_cons_self hk) fun l hl => hstep l (List.mem_cons_of_mem a hl)

/-- Each use presents the key that was left behind before it. -/
theorem Follows.keys_eq (h : Follows opens sets k log) :
    log.map opens ++ [key sets k log] = k :: log.map sets := by
  induction log generalizing k with
  | nil => rfl
  | cons a log ih =>
    obtain ⟨ha, hlog⟩ := h
    simp only [List.map_cons, List.cons_append, key, ih hlog, ha]

/-- The key presented by a use is the one set by the use before it, the first key for the first. -/
theorem Follows.opens_get (h : Follows opens sets k log) {i : Nat} (hi : i < log.length) :
    (k :: log.map sets)[i]? = some (opens log[i]) := by
  rw [← h.keys_eq, List.getElem?_append_left (by simpa using hi), List.getElem?_map,
    List.getElem?_eq_getElem hi, Option.map_some]

section Fresh

variable (hfresh : (k :: log.map sets).Nodup)
include hfresh

/-- No key is presented twice. -/
theorem Follows.opens_nodup (h : Follows opens sets k log) : (log.map opens).Nodup := by
  rw [← h.keys_eq] at hfresh
  exact (List.nodup_append.1 hfresh).1

/-- The present key of the lock was never presented. -/
theorem Follows.key_notMem (h : Follows opens sets k log) : key sets k log ∉ log.map opens := by
  rw [← h.keys_eq] at hfresh
  intro hm
  exact (List.nodup_append.1 hfresh).2.2 _ hm _ (List.mem_singleton.2 rfl) rfl

/-- The use that presented a key is unique. -/
theorem Follows.unique (h : Follows opens sets k log) {a b : L} (ha : a ∈ log) (hb : b ∈ log)
    (hab : opens a = opens b) : a = b :=
  List.inj_on_of_nodup_map (h.opens_nodup hfresh) ha hb hab

/-- A use that presents the key left behind by `log` comes right after `log`; it is the last one if
no use presents the key that it leaves behind. -/
theorem Follows.rest_eq {rest : List L} (hfresh' : (k :: (log ++ rest).map sets).Nodup)
    (h : Follows opens sets k (log ++ rest)) (hl : l ∈ log ++ rest)
    (hopens : opens l = key sets k log) (hlast : ∀ m ∈ log ++ rest, opens m ≠ sets l) :
    rest = [l] := by
  cases rest with
  | nil =>
    rw [List.append_nil] at h hl
    exact absurd (List.mem_map.2 ⟨l, hl, hopens⟩) (h.key_notMem hfresh)
  | cons a rest =>
    obtain ⟨_, ha, hrest⟩ := follows_append.1 h
    have hal : a = l := h.unique hfresh' (by simp) hl (ha.trans hopens.symm)
    cases rest with
    | nil => rw [hal]
    | cons b rest =>
      rw [← hal] at hlast
      exact absurd hrest.1 (hlast b (by simp))

end Fresh

/-- The present key is the first one or was set. -/
theorem key_mem : key sets k log ∈ k :: log.map sets := by
  induction log generalizing k with
  | nil => exact List.mem_singleton_self k
  | cons a log ih => exact List.mem_cons_of_mem k ih

/-- A key that is still the present one was set by the last use. -/
theorem key_unchanged {rest : List L} (hfresh : (k :: (log ++ rest).map sets).Nodup)
    (h : key sets k log = key sets k (log ++ rest)) : rest = [] := by
  induction rest using List.reverseRecOn with
  | nil => rfl
  | append_singleton rest l _ =>
    rw [← List.append_assoc, key_concat] at h
    rw [List.map_append, List.map_append, ← List.append_assoc, ← List.cons_append,
      ← List.cons_append] at hfresh
    have hmem : sets l ∈ (k :: log.map sets) ++ rest.map sets :=
      List.mem_append_left _ (h ▸ key_mem)
    exact absurd rfl ((List.nodup_append.1 hfresh).2.2 _ hmem _ (List.mem_singleton_self (sets l)))

end Rotation
