/-!
# First Occurrences

A list without its repetitions: of the members that share a key, the first is kept.

Main statements: the keys that are kept are pairwise distinct
(`nodup_firstOccurrences`), they are the keys of the list
(`mem_map_firstOccurrences`), and they stand in the order in which they come there
(`pairwise_idxOf_firstOccurrences`).  Of two lists in a row, the second one adds what the
first one lacks (`firstOccurrences_append`).
-/

namespace Flowchart

variable {α κ : Type} [DecidableEq κ]

/-- The members of a list whose key no member before them has. -/
def firstOccurrences (key : α → κ) : List α → List α
  | [] => []
  | x :: xs => x :: (firstOccurrences key xs).filter fun y => key y ≠ key x

theorem nodup_firstOccurrences (key : α → κ) (xs : List α) :
    ((firstOccurrences key xs).map key).Nodup := by
  induction xs with
  | nil => exact .nil
  | cons x xs ih =>
    rw [firstOccurrences, List.map_cons, List.nodup_cons]
    refine ⟨by simp, ?_⟩
    exact ih.sublist (List.filter_sublist.map key)

theorem mem_map_firstOccurrences (key : α → κ) {xs : List α} {k : κ} :
    k ∈ (firstOccurrences key xs).map key ↔ k ∈ xs.map key := by
  induction xs with
  | nil => rfl
  | cons x xs ih =>
    by_cases hk : k = key x
    · simp [firstOccurrences, hk]
    · -- a key other than the first survives the filter exactly if it occurs
      have hfilter : k ∈ ((firstOccurrences key xs).filter fun y => key y ≠ key x).map key ↔
          k ∈ (firstOccurrences key xs).map key := by
        simp only [List.mem_map, List.mem_filter, decide_eq_true_eq]
        constructor
        · rintro ⟨y, ⟨hy, _⟩, rfl⟩
          exact ⟨y, hy, rfl⟩
        · rintro ⟨y, hy, rfl⟩
          exact ⟨y, ⟨hy, hk⟩, rfl⟩
      rw [firstOccurrences, List.map_cons, List.map_cons, List.mem_cons, List.mem_cons, hfilter, ih]

theorem map_firstOccurrences (key : α → κ) (xs : List α) :
    (firstOccurrences key xs).map key = firstOccurrences id (xs.map key) := by
  induction xs with
  | nil => rfl
  | cons x xs ih =>
    rw [List.map_cons, firstOccurrences, firstOccurrences, List.map_cons, ← ih, List.filter_map]
    rfl

theorem firstOccurrences_sublist (key : α → κ) (xs : List α) :
    (firstOccurrences key xs).Sublist xs := by
  induction xs with
  | nil => exact .slnil
  | cons x xs ih => exact (List.filter_sublist.trans ih).cons_cons x

theorem pairwise_idxOf_firstOccurrences (key : α → κ) (xs : List α) :
    (firstOccurrences key xs).Pairwise fun x y =>
      (xs.map key).idxOf (key x) < (xs.map key).idxOf (key y) := by
  induction xs with
  | nil => exact .nil
  | cons x xs ih =>
    -- every key but the first comes one place later
    have hlater : ∀ y, key y ≠ key x →
        ((x :: xs).map key).idxOf (key y) = (xs.map key).idxOf (key y) + 1 := by
      intro y hy
      have hbeq : (key x == key y) = false := beq_false_of_ne hy.symm
      rw [List.map_cons, List.idxOf_cons, hbeq, cond_false]
    have hfirst : ((x :: xs).map key).idxOf (key x) = 0 := by
      rw [List.map_cons, List.idxOf_cons, beq_self_eq_true, cond_true]
    rw [firstOccurrences, List.pairwise_cons]
    constructor
    · intro y hy
      have hne : key y ≠ key x := by simpa using (List.mem_filter.1 hy).2
      rw [hfirst, hlater y hne]
      exact Nat.succ_pos _
    · refine (ih.sublist List.filter_sublist).imp_of_mem ?_
      intro y z hy hz hyz
      have hy : key y ≠ key x := by simpa using (List.mem_filter.1 hy).2
      have hz : key z ≠ key x := by simpa using (List.mem_filter.1 hz).2
      rw [hlater y hy, hlater z hz]
      exact Nat.succ_lt_succ hyz

theorem firstOccurrences_append (key : α → κ) (xs ys : List α) :
    firstOccurrences key (xs ++ ys) =
      firstOccurrences key xs ++
        (firstOccurrences key ys).filter fun y => key y ∉ xs.map key := by
  induction xs with
  | nil =>
    rw [List.nil_append, List.filter_eq_self.2 (by simp)]
    rfl
  | cons x xs ih =>
    rw [List.cons_append, firstOccurrences, ih, firstOccurrences, List.filter_append,
      List.filter_filter, List.cons_append]
    congr 2
    refine List.filter_congr fun y _ => ?_
    simp [not_or]

theorem firstOccurrences_concat (key : α → κ) (xs : List α) (x : α) :
    firstOccurrences key (xs ++ [x]) =
      firstOccurrences key xs ++ if key x ∈ xs.map key then [] else [x] := by
  rw [firstOccurrences_append]
  by_cases h : key x ∈ xs.map key <;>
    simp only [firstOccurrences, List.filter_nil, List.filter_cons, h] <;> rfl

/-- A list without repetitions is kept as it is. -/
theorem firstOccurrences_of_nodup (key : α → κ) {xs : List α} (h : (xs.map key).Nodup) :
    firstOccurrences key xs = xs := by
  induction xs with
  | nil => rfl
  | cons x xs ih =>
    obtain ⟨hx, hxs⟩ := List.nodup_cons.1 h
    rw [firstOccurrences, ih hxs, List.filter_eq_self.2]
    intro y hy
    rw [decide_eq_true_eq]
    intro hkey
    exact hx (hkey ▸ List.mem_map_of_mem hy)

/-- What is left out of a list makes no difference to what comes after it. -/
theorem firstOccurrences_append_left (key : α → κ) (xs ys : List α) :
    firstOccurrences key (firstOccurrences key xs ++ ys) = firstOccurrences key (xs ++ ys) := by
  rw [firstOccurrences_append, firstOccurrences_append,
    firstOccurrences_of_nodup key (nodup_firstOccurrences key xs)]
  simp only [mem_map_firstOccurrences]

end Flowchart
