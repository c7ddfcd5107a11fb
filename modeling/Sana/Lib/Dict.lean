import Mathlib.Data.List.Basic
import Mathlib.Tactic.Common

/-!
# Dictionaries

A dictionary is the list of its entries, in the order their keys were first written.
Writing a key that is there replaces its value in place; a new key goes to the end.
-/

namespace Sana.Lib.Dict

variable {κ ν : Type*} [DecidableEq κ]

/-- `d[key] = value`. -/
def set (key : κ) (value : ν) : List (κ × ν) → List (κ × ν)
  | [] => [(key, value)]
  | (k, v) :: rest => if k = key then (k, value) :: rest else (k, v) :: set key value rest

/-- `d.pop(key, None)`. -/
def erase (key : κ) (d : List (κ × ν)) : List (κ × ν) := d.filter (·.1 ≠ key)

variable {key k : κ} {value v : ν} {d : List (κ × ν)} {e : κ × ν}

theorem lookup_set : (set key value d).lookup k = if k = key then some value else d.lookup k := by
  induction d with
  | nil =>
      by_cases hk : k = key
      · simp [set, hk]
      · simp [set, List.lookup_cons, hk, beq_false_of_ne hk]
  | cons p d ih =>
      obtain ⟨k', v'⟩ := p
      by_cases hk' : k' = key
      · subst hk'
        by_cases hk : k = k'
        · simp [set, hk]
        · simp [set, List.lookup_cons, hk, beq_false_of_ne hk]
      · rw [set, if_neg hk']
        by_cases hk : k = k'
        · subst hk
          simp [hk']
        · simp only [List.lookup_cons, beq_false_of_ne hk]
          exact ih

/-- An entry of a written dictionary is the new one or an old one. -/
theorem mem_set (h : e ∈ set key value d) : e = (key, value) ∨ e ∈ d := by
  induction d with
  | nil => exact .inl (by simpa [set] using h)
  | cons p d ih =>
      rw [set] at h
      split at h
      · rename_i hk
        rcases List.mem_cons.mp h with rfl | h
        · exact .inl (by rw [hk])
        · exact .inr (List.mem_cons_of_mem _ h)
      · rcases List.mem_cons.mp h with rfl | h
        · exact .inr List.mem_cons_self
        · exact (ih h).imp_right (List.mem_cons_of_mem _)

/-- The new entry is there. -/
theorem mem_set_self : (key, value) ∈ set key value d := by
  induction d with
  | nil => simp [set]
  | cons p d ih =>
      rw [set]
      split
      · rename_i hk
        rw [hk]
        exact List.mem_cons_self
      · exact List.mem_cons_of_mem _ ih

/-- An old entry is still there, unless it was what the key was looked up to be. -/
theorem mem_set_of_mem (h : e ∈ d) :
    e ∈ set key value d ∨ e.1 = key ∧ d.lookup key = some e.2 := by
  induction d with
  | nil => cases h
  | cons p d ih =>
      obtain ⟨k', v'⟩ := p
      by_cases hk : k' = key
      · subst hk
        rw [set, if_pos rfl]
        rcases List.mem_cons.mp h with rfl | h
        · exact .inr ⟨rfl, by simp⟩
        · exact .inl (List.mem_cons_of_mem _ h)
      · rw [set, if_neg hk]
        rcases List.mem_cons.mp h with rfl | h
        · exact .inl List.mem_cons_self
        · refine (ih h).imp (List.mem_cons_of_mem _) fun ⟨hkey, hlook⟩ => ⟨hkey, ?_⟩
          rw [List.lookup_cons, beq_false_of_ne (Ne.symm hk)]
          exact hlook

/-- A new key goes to the end. -/
theorem set_of_lookup_eq_none (h : d.lookup key = none) : set key value d = d ++ [(key, value)] := by
  induction d with
  | nil => rfl
  | cons p d ih =>
      obtain ⟨k', v'⟩ := p
      by_cases hk : key = k'
      · simp [hk] at h
      · rw [List.lookup_cons, beq_false_of_ne hk] at h
        rw [set, if_neg (Ne.symm hk), ih h]
        rfl

theorem lookup_eq_none_iff : d.lookup key = none ↔ key ∉ d.map (·.1) := by
  rw [List.lookup_eq_none_iff]
  constructor
  · intro h hmem
    obtain ⟨p, hp, hk⟩ := List.mem_map.mp hmem
    simpa [hk] using h p hp
  · intro h p hp
    have hne : key ≠ p.1 := fun hk => h (hk ▸ List.mem_map_of_mem hp)
    simpa using hne

theorem mem_of_lookup (h : d.lookup key = some value) : (key, value) ∈ d := by
  induction d with
  | nil => cases h
  | cons p d ih =>
      rw [List.lookup_cons] at h
      split at h
      · rename_i hk
        obtain rfl := Option.some.inj h
        obtain rfl := eq_of_beq hk
        exact List.mem_cons_self
      · exact List.mem_cons_of_mem _ (ih h)

/-- Of distinct keys, every entry is found by its key. -/
theorem lookup_of_mem (hnd : (d.map (·.1)).Nodup) (h : (key, value) ∈ d) :
    d.lookup key = some value := by
  induction d with
  | nil => cases h
  | cons p d ih =>
      rw [List.map_cons, List.nodup_cons] at hnd
      rw [List.lookup_cons]
      rcases List.mem_cons.mp h with rfl | h
      · rw [beq_self_eq_true]
      · have hne : key ≠ p.1 := by
          rintro rfl
          exact hnd.1 (List.mem_map.mpr ⟨_, h, rfl⟩)
        rw [beq_false_of_ne hne]
        exact ih hnd.2 h

/-- A key that is there keeps its place. -/
theorem map_fst_set_of_lookup {old : ν} (h : d.lookup key = some old) :
    (set key value d).map (·.1) = d.map (·.1) := by
  induction d with
  | nil => cases h
  | cons p d ih =>
      rw [set]
      split
      · rfl
      · rename_i hne
        rw [List.lookup_cons, beq_false_of_ne (Ne.symm hne)] at h
        rw [List.map_cons, List.map_cons, ih h]

theorem erase_eq_self_iff : erase key d = d ↔ key ∉ d.map (·.1) := by
  unfold erase
  rw [List.filter_eq_self]
  simp only [List.mem_map, not_exists, not_and, decide_eq_true_eq, ne_eq]

theorem erase_of_lookup_eq_none (h : d.lookup key = none) : erase key d = d :=
  erase_eq_self_iff.mpr (lookup_eq_none_iff.mp h)

end Sana.Lib.Dict
