import Mathlib.Data.List.Nodup
import Mathlib.Logic.Relation

/-!
# Rows listed after what they depend on

A row names other rows by key. If rows are only ever added at the end, under a new key and
with dependencies that are there already, the list is an order of the graph: nothing
depends on itself, however many steps it takes, and the first row with some property
depends only on rows without it.
-/

namespace Sana.Lib

variable {κ α : Type*} {key : α → κ} {deps : α → List κ} {l : List α} {x : α}

/-- Rows with distinct keys, each after its dependencies. -/
inductive Listed (key : α → κ) (deps : α → List κ) : List α → Prop
  | nil : Listed key deps []
  | snoc {l : List α} {x : α} (h : Listed key deps l) (hfresh : key x ∉ l.map key)
      (hdeps : ∀ d ∈ deps x, d ∈ l.map key) : Listed key deps (l ++ [x])

/-- The row under the first key names the second. -/
def DependsOn (key : α → κ) (deps : α → List κ) (l : List α) (a b : κ) : Prop :=
  ∃ x ∈ l, key x = a ∧ b ∈ deps x

namespace Listed

theorem nodup (h : Listed key deps l) : (l.map key).Nodup := by
  induction h with
  | nil => exact List.nodup_nil
  | snoc _ hfresh _ ih =>
      rw [List.map_append, List.nodup_append]
      refine ⟨ih, List.nodup_singleton _, ?_⟩
      intro a ha b hb hab
      rw [List.map_singleton, List.mem_singleton] at hb
      exact hfresh (hb ▸ hab ▸ ha)

theorem mem_keys_of_dep (h : Listed key deps l) (hx : x ∈ l) {d : κ} (hd : d ∈ deps x) :
    d ∈ l.map key := by
  induction h with
  | nil => simp at hx
  | snoc _ _ hdeps ih =>
      rw [List.map_append, List.mem_append]
      rcases List.mem_append.mp hx with hx | hx
      · exact .inl (ih hx)
      · rw [List.mem_singleton] at hx
        exact .inl (hdeps d (hx ▸ hd))

/-- What a row names stands before it. -/
theorem idxOf_lt [DecidableEq κ] (h : Listed key deps l) {a b : κ}
    (hab : DependsOn key deps l a b) : (l.map key).idxOf b < (l.map key).idxOf a := by
  induction h with
  | nil =>
      obtain ⟨x, hx, -⟩ := hab
      simp at hx
  | @snoc l y hl hfresh hdeps ih =>
      obtain ⟨x, hx, rfl, hb⟩ := hab
      rw [List.map_append]
      rcases List.mem_append.mp hx with hx | hx
      · have hmem : b ∈ l.map key := hl.mem_keys_of_dep hx hb
        rw [List.idxOf_append_of_mem hmem, List.idxOf_append_of_mem (List.mem_map_of_mem hx)]
        exact ih ⟨x, hx, rfl, hb⟩
      · rw [List.mem_singleton] at hx
        subst hx
        have hmem : b ∈ l.map key := hdeps b hb
        rw [List.idxOf_append_of_mem hmem, List.idxOf_append_of_notMem hfresh]
        have := List.idxOf_lt_length_of_mem hmem
        omega

/-- **Nothing depends on itself.** -/
theorem acyclic (h : Listed key deps l) (a : κ) : ¬ Relation.TransGen (DependsOn key deps l) a a := by
  classical
  have hlt : ∀ a b, Relation.TransGen (DependsOn key deps l) a b →
      (l.map key).idxOf b < (l.map key).idxOf a := by
    intro a b hab
    induction hab with
    | single hab => exact h.idxOf_lt hab
    | tail _ hbc ih => exact Nat.lt_trans (h.idxOf_lt hbc) ih
  exact fun hcycle => Nat.lt_irrefl _ (hlt a a hcycle)

/-- **The first row with a property depends only on rows without it.** -/
theorem exists_first (h : Listed key deps l) {p : α → Prop} (hp : ∃ x ∈ l, p x) :
    ∃ x ∈ l, p x ∧ ∀ d ∈ deps x, ∃ y ∈ l, key y = d ∧ ¬ p y := by
  induction h with
  | nil =>
      obtain ⟨x, hx, -⟩ := hp
      simp at hx
  | @snoc l y hl _ hdeps ih =>
      by_cases hearlier : ∃ x ∈ l, p x
      · obtain ⟨x, hx, hpx, hfirst⟩ := ih hearlier
        refine ⟨x, List.mem_append_left _ hx, hpx, fun d hd => ?_⟩
        obtain ⟨z, hz, hkey, hnot⟩ := hfirst d hd
        exact ⟨z, List.mem_append_left _ hz, hkey, hnot⟩
      · obtain ⟨x, hx, hpx⟩ := hp
        rcases List.mem_append.mp hx with hx' | hx'
        · exact absurd ⟨x, hx', hpx⟩ hearlier
        · rw [List.mem_singleton] at hx'
          subst hx'
          refine ⟨x, hx, hpx, fun d hd => ?_⟩
          obtain ⟨z, hz, hkey⟩ := List.mem_map.mp (hdeps d hd)
          exact ⟨z, List.mem_append_left _ hz, hkey, fun hpz => hearlier ⟨z, hz, hpz⟩⟩

end Listed

end Sana.Lib
