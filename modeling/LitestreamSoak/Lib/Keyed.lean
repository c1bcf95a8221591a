import Mathlib

/-!
# Lib — lists with a key

A table without an order of its own is a list of rows with a key that no two rows share. A row is
written back by replacing the row of its key, or added at the end where its key is new.
-/

namespace LitestreamSoak.Lib

open List

variable {α κ : Type} {key : α → κ}

variable {a : α} {l : List α}

theorem nodup_map_concat (hnodup : (l.map key).Nodup)
    (ha : ∀ x ∈ l, key x ≠ key a) : ((l ++ [a]).map key).Nodup := by
  rw [map_append, nodup_append]
  refine ⟨hnodup, nodup_singleton _, ?_⟩
  intro x hx y hy
  obtain ⟨b, hb, rfl⟩ := mem_map.mp hx
  rw [map_singleton, mem_singleton] at hy
  rw [hy]
  exact ha b hb

variable [DecidableEq κ]

theorem map_replace {k : κ} (g : α → α) (hg : ∀ x, key x = k → key (g x) = key x)
    (l : List α) :
    (l.map fun x => if key x = k then g x else x).map key = l.map key := by
  rw [map_map]
  refine map_congr_left fun x _ => ?_
  show key (if _ then _ else _) = _
  split
  · next hx => exact hg x hx
  · rfl

theorem replace_of_notMem {k : κ} (g : α → α) (h : k ∉ l.map key) :
    (l.map fun x => if key x = k then g x else x) = l := by
  refine (map_congr_left fun y hy => if_neg fun hkey => ?_).trans (map_id l)
  exact h (hkey ▸ mem_map_of_mem hy)

/-- **A row written back**: a sum over the rows trades its size. -/
theorem sum_replace (size : α → Nat) (g : α → α) (hnodup : (l.map key).Nodup)
    (ha : a ∈ l) :
    ((l.map fun x => if key x = key a then g x else x).map size).sum + size a =
      (l.map size).sum + size (g a) := by
  induction l with
  | nil => cases ha
  | cons x l ih =>
    rw [map_cons, nodup_cons] at hnodup
    simp only [map_cons, sum_cons]
    rcases mem_cons.mp ha with rfl | ha
    · -- no later row has this key
      rw [if_pos rfl, replace_of_notMem g hnodup.1]
      omega
    · have hne : key x ≠ key a := fun hkey => hnodup.1 (hkey ▸ mem_map_of_mem ha)
      have := ih hnodup.2 ha
      rw [if_neg hne]
      omega

theorem perm_flatMap_replace {β : Type} (entries : α → List β) (g : α → α)
    (hnodup : (l.map key).Nodup) (ha : a ∈ l) {b : β}
    (hg : entries (g a) = entries a ++ [b]) :
    ((l.map fun x => if key x = key a then g x else x).flatMap entries).Perm
      (b :: l.flatMap entries) := by
  induction l with
  | nil => cases ha
  | cons x l ih =>
    rw [map_cons, nodup_cons] at hnodup
    simp only [map_cons, flatMap_cons]
    rcases mem_cons.mp ha with rfl | ha
    · rw [if_pos rfl, replace_of_notMem g hnodup.1, hg, append_assoc]
      exact perm_middle
    · have hne : key x ≠ key a := fun hkey => hnodup.1 (hkey ▸ mem_map_of_mem ha)
      rw [if_neg hne]
      exact ((ih hnodup.2 ha).append_left _).trans perm_middle

/-- **A row deleted**: a sum over the rows loses its size. -/
theorem sum_delete (size : α → Nat) (hnodup : (l.map key).Nodup)
    (ha : a ∈ l) :
    ((l.filter fun x => key x ≠ key a).map size).sum + size a = (l.map size).sum := by
  induction l with
  | nil => cases ha
  | cons x l ih =>
    rw [map_cons, nodup_cons] at hnodup
    rw [filter_cons, map_cons, sum_cons]
    rcases mem_cons.mp ha with rfl | ha
    · have hrest : (l.filter fun x => key x ≠ key a) = l :=
        filter_eq_self.mpr fun y hy => by
          simpa using fun hkey : key y = key a => hnodup.1 (hkey ▸ mem_map_of_mem hy)
      rw [if_neg (by simp), hrest]
      omega
    · have hne : key x ≠ key a := fun hkey => hnodup.1 (hkey ▸ mem_map_of_mem ha)
      have := ih hnodup.2 ha
      rw [if_pos (by simpa using hne), map_cons, sum_cons]
      omega

end LitestreamSoak.Lib
