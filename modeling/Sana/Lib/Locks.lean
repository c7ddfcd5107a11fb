import Mathlib.Data.List.Basic
import Mathlib.Logic.Relation
import Sana.Lib.Transition

/-!
# Transactions that take locks

A transaction has a script, the locks it takes one after the other. It keeps what it has
until it ends; it may end at any time. While the next lock is with somebody else it waits.
Transactions are numbered in the order in which they begin.

A deadlock is a cycle of transactions each of which waits for a lock of the next. The rule
for ruling it out is a rank that goes down along every edge of the graph.
-/

namespace Sana.Lib

universe u v

variable {κ : Type u} {ℓ : Type v}

/-- A transaction: what it has, the latest first, and what it has yet to take. -/
structure Locking (κ : Type u) (ℓ : Type v) where
  kind : κ
  held : List ℓ
  rest : List ℓ
  waiting : Bool
deriving DecidableEq, Repr

namespace Locking

/-- A transaction that has just begun. -/
def start (script : κ → List ℓ) (kind : κ) : Locking κ ℓ := ⟨kind, [], script kind, false⟩

/-- It gets the next lock. -/
def take (t : Locking κ ℓ) (lock : ℓ) (rest : List ℓ) : Locking κ ℓ :=
  { t with held := lock :: t.held, rest, waiting := false }

/-- It has to wait for it. -/
def queue (t : Locking κ ℓ) : Locking κ ℓ := { t with waiting := true }

/-- It gives everything back. -/
def letGo (t : Locking κ ℓ) : Locking κ ℓ := { t with held := [], rest := [], waiting := false }

/-- The lock it waits for. -/
def awaits (t : Locking κ ℓ) : Option ℓ := if t.waiting then t.rest.head? else none

/-- It has taken a first part of its script, or it is over. -/
def Follows (script : κ → List ℓ) (t : Locking κ ℓ) : Prop :=
  t.held.reverse ++ t.rest = script t.kind ∨ (t.held = [] ∧ t.rest = [])

end Locking

/-- The transactions so far. -/
abbrev Sessions (κ : Type u) (ℓ : Type v) := List (Locking κ ℓ)

/-- What a transaction can do. -/
inductive LockAction (κ : Type u)
  | start (kind : κ)
  /-- Ask for the next lock, or ask again. -/
  | ask (i : Nat)
  | finish (i : Nat)
deriving DecidableEq, Repr

namespace Sessions

/-- Nobody else has the lock. -/
def Free (s : Sessions κ ℓ) (i : Nat) (lock : ℓ) : Prop :=
  ∀ j t, s[j]? = some t → lock ∈ t.held → j = i

/-- One transaction waits for a lock that another one has. -/
def Waits (s : Sessions κ ℓ) (i j : Nat) : Prop :=
  i ≠ j ∧ ∃ t u lock, s[i]? = some t ∧ t.awaits = some lock ∧ s[j]? = some u ∧ lock ∈ u.held

/-- A cycle of transactions, each waiting for the next. -/
def Deadlocked (s : Sessions κ ℓ) : Prop := ∃ i, Relation.TransGen s.Waits i i

/-- Nobody waits in a circle if waiting always leads to a lower rank. -/
theorem not_deadlocked_of_rank {s : Sessions κ ℓ} (rank : Nat → Nat)
    (h : ∀ i j, s.Waits i j → rank j < rank i) : ¬ s.Deadlocked := by
  rintro ⟨i, hcycle⟩
  have hlt : ∀ j, Relation.TransGen s.Waits i j → rank j < rank i := by
    intro j hpath
    induction hpath with
    | single hw => exact h _ _ hw
    | tail _ hw ih => exact Nat.lt_trans (h _ _ hw) ih
  exact Nat.lt_irrefl _ (hlt i hcycle)

section Steps

variable [DecidableEq ℓ]

instance (s : Sessions κ ℓ) (i : Nat) (lock : ℓ) : Decidable (s.Free i lock) :=
  decidable_of_iff (∀ p ∈ s.zipIdx, lock ∈ p.1.held → p.2 = i) (by
    constructor
    · intro h j t ht hl
      exact h (t, j) (List.mem_zipIdx_iff_getElem?.mpr ht) hl
    · rintro h ⟨t, j⟩ ht hl
      exact h j t (List.mem_zipIdx_iff_getElem?.mp ht) hl)

/-- Perform an action, if it can be taken. -/
def act (script : κ → List ℓ) (s : Sessions κ ℓ) : LockAction κ → Option (Sessions κ ℓ)
  | .start kind => some (s ++ [.start script kind])
  | .ask i => s[i]?.bind fun t =>
      match t.rest with
      | [] => none
      | lock :: rest =>
          if s.Free i lock then some (s.set i (t.take lock rest)) else some (s.set i t.queue)
  | .finish i => s[i]?.map fun t => s.set i t.letGo

/-- The transactions that actions which all meet a condition lead to. -/
abbrev ReachableBy (script : κ → List ℓ) (ok : Sessions κ ℓ → LockAction κ → Prop) :
    Sessions κ ℓ → Prop :=
  Lib.Reachable (· = []) fun s t => ∃ a, ok s a ∧ s.act script a = some t

/-- Actions that can be performed lead somewhere. -/
theorem reachable_of_exec {script : κ → List ℓ} {ok : Sessions κ ℓ → LockAction κ → Prop}
    [∀ s a, Decidable (ok s a)] (actions : List (LockAction κ)) {s : Sessions κ ℓ}
    (h : actions.foldlM (fun s a => if ok s a then Sessions.act script s a else none)
      ([] : Sessions κ ℓ) = some s) : ReachableBy script ok s := by
  refine Lib.Reachable.of_exec ?_ (.init rfl) h
  intro s a t hstep
  rw [Option.ite_none_right_eq_some] at hstep
  exact ⟨a, hstep⟩

/-- What an action does to the list. -/
theorem act_cases {script : κ → List ℓ} {s s' : Sessions κ ℓ} {a : LockAction κ}
    (h : s.act script a = some s') :
    (∃ kind, a = .start kind ∧ s' = s ++ [.start script kind]) ∨
    (∃ i t lock rest, a = .ask i ∧ s[i]? = some t ∧ t.rest = lock :: rest ∧ s.Free i lock ∧
      s' = s.set i (t.take lock rest)) ∨
    (∃ i t lock rest, a = .ask i ∧ s[i]? = some t ∧ t.rest = lock :: rest ∧ ¬ s.Free i lock ∧
      s' = s.set i t.queue) ∨
    ∃ i t, a = .finish i ∧ s[i]? = some t ∧ s' = s.set i t.letGo := by
  cases a with
  | start kind => exact .inl ⟨kind, rfl, (Option.some.inj h).symm⟩
  | ask i =>
      obtain ⟨t, ht, h⟩ := Option.bind_eq_some_iff.mp h
      cases hrest : t.rest with
      | nil => simp [hrest] at h
      | cons lock rest =>
          simp only [hrest] at h
          split at h
          · rename_i hfree
            exact .inr (.inl ⟨i, t, lock, rest, rfl, ht, hrest, hfree, (Option.some.inj h).symm⟩)
          · rename_i hfree
            exact .inr (.inr (.inl ⟨i, t, lock, rest, rfl, ht, hrest, hfree,
              (Option.some.inj h).symm⟩))
  | finish i =>
      obtain ⟨t, ht, rfl⟩ := Option.map_eq_some_iff.mp h
      exact .inr (.inr (.inr ⟨i, t, rfl, ht, rfl⟩))

/-- Every transaction follows its script, and no two have the same lock. -/
structure Sound (script : κ → List ℓ) (s : Sessions κ ℓ) : Prop where
  follows : ∀ t ∈ s, t.Follows script
  exclusive : ∀ (i j : Nat) (t u : Locking κ ℓ), s[i]? = some t → s[j]? = some u → ∀ lock ∈ t.held, lock ∈ u.held → i = j

omit [DecidableEq ℓ] in
/-- The one transaction that was changed, or another. -/
theorem getElem?_set_cases {s : Sessions κ ℓ} {i j : Nat} {t u : Locking κ ℓ}
    (h : (s.set i t)[j]? = some u) : (j = i ∧ u = t) ∨ (j ≠ i ∧ s[j]? = some u) := by
  rw [List.getElem?_set] at h
  by_cases hij : i = j
  · subst hij
    rw [if_pos rfl] at h
    split at h
    · exact .inl ⟨rfl, (Option.some.inj h).symm⟩
    · cases h
  · rw [if_neg hij] at h
    exact .inr ⟨Ne.symm hij, h⟩

theorem Sound.act {script : κ → List ℓ} {s s' : Sessions κ ℓ} {a : LockAction κ}
    (hs : s.Sound script) (h : s.act script a = some s') : s'.Sound script := by
  -- a transaction that is changed to one that has no lock it did not have
  have hset : ∀ (i : Nat) (t t' : Locking κ ℓ), s[i]? = some t → t'.Follows script → (∀ lock ∈ t'.held, lock ∈ t.held) →
      Sound script (s.set i t') := by
    intro i t t' ht hfollows hsub
    constructor
    · intro u hu
      rcases List.mem_or_eq_of_mem_set hu with hu | rfl
      · exact hs.follows u hu
      · exact hfollows
    · intro j k u v hu hv lock hlu hlv
      rcases getElem?_set_cases hu with ⟨rfl, rfl⟩ | ⟨_, hu'⟩ <;>
        rcases getElem?_set_cases hv with ⟨rfl, rfl⟩ | ⟨_, hv'⟩
      · rfl
      · exact hs.exclusive _ _ _ _ ht hv' lock (hsub lock hlu) hlv
      · exact hs.exclusive _ _ _ _ hu' ht lock hlu (hsub lock hlv)
      · exact hs.exclusive _ _ _ _ hu' hv' lock hlu hlv
  rcases act_cases h with ⟨kind, -, rfl⟩ | ⟨i, t, lock, rest, -, ht, hrest, hfree, rfl⟩ |
    ⟨i, t, lock, rest, -, ht, hrest, -, rfl⟩ | ⟨i, t, -, ht, rfl⟩
  · constructor
    · intro u hu
      rcases List.mem_append.mp hu with hu | hu
      · exact hs.follows u hu
      · obtain rfl := List.mem_singleton.mp hu
        exact .inl rfl
    · -- the new one has no lock
      have hold : ∀ (j : Nat) (u : Locking κ ℓ), (s ++ [Locking.start script kind])[j]? = some u →
          ∀ lock ∈ u.held, s[j]? = some u := by
        intro j u hu lock hl
        rw [List.getElem?_append] at hu
        split at hu
        · exact hu
        · rw [List.getElem?_singleton] at hu
          split at hu
          · cases hu
            cases hl
          · cases hu
      intro j k u v hu hv lock hlu hlv
      exact hs.exclusive j k u v (hold j u hu lock hlu) (hold k v hv lock hlv) lock hlu hlv
  · constructor
    · intro u hu
      rcases List.mem_or_eq_of_mem_set hu with hu | rfl
      · exact hs.follows u hu
      · refine .inl ?_
        rcases hs.follows t (List.mem_of_getElem? ht) with hf | ⟨_, hf⟩
        · rw [hrest] at hf
          rw [Locking.take, List.reverse_cons, List.append_assoc, List.singleton_append]
          exact hf
        · rw [hrest] at hf
          cases hf
    · intro j k u v hu hv l hlu hlv
      rcases getElem?_set_cases hu with ⟨rfl, rfl⟩ | ⟨hj, hu'⟩ <;>
        rcases getElem?_set_cases hv with ⟨rfl, rfl⟩ | ⟨hk, hv'⟩
      · rfl
      · rcases List.mem_cons.mp hlu with rfl | hlu
        · exact absurd (hfree k v hv' hlv) hk
        · exact hs.exclusive _ _ _ _ ht hv' l hlu hlv
      · rcases List.mem_cons.mp hlv with rfl | hlv
        · exact absurd (hfree j u hu' hlu) hj
        · exact hs.exclusive _ _ _ _ hu' ht l hlu hlv
      · exact hs.exclusive _ _ _ _ hu' hv' l hlu hlv
  · refine hset i t _ ht ?_ fun _ h => h
    exact hs.follows t (List.mem_of_getElem? ht)
  · refine hset i t _ ht (.inr ⟨rfl, rfl⟩) fun _ h => ?_
    cases h

theorem sound_reachable {script : κ → List ℓ} {ok : Sessions κ ℓ → LockAction κ → Prop}
    {s : Sessions κ ℓ} (hr : ReachableBy script ok s) : s.Sound script := by
  refine Lib.Reachable.invariant (P := fun s => Sound script s) ?_ ?_ hr
  · rintro s rfl
    constructor
    · intro t ht
      cases ht
    · intro i j t u ht
      simp at ht
  · rintro s s' hs ⟨a, -, h⟩
    exact hs.act h

end Steps

end Sessions

end Sana.Lib
