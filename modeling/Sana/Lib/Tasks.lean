import Mathlib.Algebra.BigOperators.Group.List.Basic
import Mathlib.Algebra.GroupWithZero.Nat
import Mathlib.Data.List.Basic
import Mathlib.Tactic.Common
import Sana.Lib.Transition

/-!
# Tasks and semaphores on an event loop

Tasks are named by their position in a list that only grows. A step rewrites one
of them, so what has to be counted over all tasks changes by that one.

A semaphore is an object: a dictionary may name it, drop it and name another one
under the same key while tasks still hold the first. `Heap` therefore keeps every
semaphore ever made, by its identity, and `Accounted` says of each that its free
permits and the permits the tasks hold add up to its limit. `Registry` is the
usual way to make semaphores on demand and drop them when the last user is gone;
`Tracks` is what has to hold for no user to be left with a dropped one.
-/

namespace Sana.Lib

universe u v

/-! ## Counting over tasks -/

section Counting

variable {α : Type u} {l : List α} {i : Nat} {x y : α}

/-- Rewriting one task changes a sum over the tasks by that task. -/
theorem sum_set_add (f : α → Nat) (h : l[i]? = some x) :
    ((l.set i y).map f).sum + f x = (l.map f).sum + f y := by
  induction l generalizing i with
  | nil => simp at h
  | cons a rest ih =>
      cases i with
      | zero =>
          obtain rfl : a = x := by simpa using h
          simp only [List.set_cons_zero, List.map_cons, List.sum_cons]
          omega
      | succ i =>
          have := ih (by simpa using h)
          simp only [List.set_cons_succ, List.map_cons, List.sum_cons]
          omega

/-- Rewriting one task changes a count over the tasks by that task. -/
theorem countP_set_add (p : α → Bool) (h : l[i]? = some x) :
    (l.set i y).countP p + (p x).toNat = l.countP p + (p y).toNat := by
  have hsum : ∀ m : List α, m.countP p = (m.map fun a => (p a).toNat).sum := by
    intro m
    induction m with
    | nil => rfl
    | cons a rest ih =>
        rw [List.countP_cons, ih, List.map_cons, List.sum_cons, Nat.add_comm]
        cases p a <;> rfl
  rw [hsum, hsum]
  exact sum_set_add _ h

/-- A task of the rewritten list is the new one or was there before. -/
theorem mem_set_cases {z : α} (h : z ∈ l.set i y) : z = y ∨ z ∈ l :=
  (List.mem_or_eq_of_mem_set h).symm

/-- A task is the one that is rewritten or is still there after it. -/
theorem eq_or_mem_set {z : α} (hi : l[i]? = some x) (hz : z ∈ l) : z = x ∨ z ∈ l.set i y := by
  obtain ⟨j, hj⟩ := List.mem_iff_getElem?.mp hz
  by_cases hij : i = j
  · subst hij
    exact .inl (Option.some.inj (hj.symm.trans hi))
  · refine .inr (List.mem_of_getElem? (i := j) ?_)
    rwa [List.getElem?_set_ne hij]

end Counting

/-! ## Semaphores -/

/-- A semaphore: its limit, and the permits that are free. -/
structure Semaphore where
  limit : Nat
  value : Nat
deriving DecidableEq, Repr

/-- The semaphores made so far. A position is the identity of an object. -/
abbrev Heap := List Semaphore

namespace Heap

variable {heap heap' : Heap} {o : Nat} {s : Semaphore}

/-- A new semaphore, and its identity. -/
def make (heap : Heap) (limit : Nat) : Heap × Nat := (heap ++ [⟨limit, limit⟩], heap.length)

/-- A permit is free and is taken. -/
def acquire (heap : Heap) (o : Nat) : Option Heap :=
  match heap[o]? with
  | some s => if 0 < s.value then some (heap.set o { s with value := s.value - 1 }) else none
  | none => none

/-- A permit is given back. -/
def release (heap : Heap) (o : Nat) : Heap := heap.modify o fun s => { s with value := s.value + 1 }

/-- Permits of several semaphores are given back, one after another. -/
def releaseAll (heap : Heap) (os : List Nat) : Heap := os.foldl release heap

/-- The limit of a semaphore, if there is one. -/
def limitOf (heap : Heap) (o : Nat) : Option Nat := (heap[o]?).map (·.limit)

theorem limitOf_make {limit : Nat} : limitOf (make heap limit).1 heap.length = some limit := by
  simp [limitOf, make]

theorem limitOf_make_of_some {n limit : Nat} (h : limitOf heap o = some n) :
    limitOf (make heap limit).1 o = some n := by
  simp only [limitOf, Option.map_eq_some_iff] at h ⊢
  obtain ⟨s, hs, rfl⟩ := h
  exact ⟨s, by simp [make, List.getElem?_append_left (List.getElem?_eq_some_iff.mp hs).1, hs], rfl⟩

theorem limitOf_acquire (h : acquire heap o = some heap') (k : Nat) :
    limitOf heap' k = limitOf heap k := by
  unfold acquire at h
  split at h
  next s hs =>
    split at h
    · obtain rfl := Option.some.inj h
      by_cases hk : k = o
      · subst hk
        simp only [limitOf, hs, List.getElem?_set_self (List.getElem?_eq_some_iff.mp hs).1]
        rfl
      · simp [limitOf, List.getElem?_set_ne (Ne.symm hk)]
    · cases h
  next => cases h

/-- Each permit that is given back is free again. -/
theorem getElem?_releaseAll (os : List Nat) (k : Nat) :
    (releaseAll heap os)[k]?
      = (heap[k]?).map fun s => { s with value := s.value + os.count k } := by
  induction os generalizing heap with
  | nil => simp [releaseAll]
  | cons o rest ih =>
      have hrest := @ih (release heap o)
      rw [show releaseAll heap (o :: rest) = releaseAll (release heap o) rest from rfl, hrest,
        release, List.getElem?_modify]
      by_cases hk : o = k
      · subst hk
        cases heap[o]? with
        | none => rfl
        | some s => simp [List.count_cons_self, Nat.add_assoc, Nat.add_comm 1]
      · simp [hk, List.count_cons_of_ne hk]

theorem limitOf_releaseAll (os : List Nat) (k : Nat) :
    limitOf (releaseAll heap os) k = limitOf heap k := by
  rw [limitOf, getElem?_releaseAll, limitOf, Option.map_map]
  rfl

theorem length_releaseAll (os : List Nat) : (releaseAll heap os).length = heap.length := by
  induction os generalizing heap with
  | nil => rfl
  | cons o rest ih => exact (@ih (release heap o)).trans (List.length_modify ..)

end Heap

/-! ## Every permit is accounted for -/

section Accounted

variable {τ : Type u} {tasks : List τ} {held : τ → List Nat} {heap heap' : Heap}
variable {i o : Nat} {x y : τ}

/-- The permits of a semaphore that the tasks hold. -/
def heldBy (held : τ → List Nat) (tasks : List τ) (o : Nat) : Nat :=
  (tasks.map fun t => (held t).count o).sum

/-- Free and held permits add up to the limit, and only existing semaphores are held. -/
structure Accounted (heap : Heap) (tasks : List τ) (held : τ → List Nat) : Prop where
  balance : ∀ o s, heap[o]? = some s → s.value + heldBy held tasks o = s.limit
  exist : ∀ t ∈ tasks, ∀ o ∈ held t, o < heap.length

/-- What one task holds is part of what is held. -/
theorem heldBy_set (held : τ → List Nat) (y : τ) (hi : tasks[i]? = some x) (o : Nat) :
    heldBy held (tasks.set i y) o + (held x).count o = heldBy held tasks o + (held y).count o :=
  sum_set_add (fun t => (held t).count o) hi

/-- Permits of a semaphore that does not exist are not held. -/
theorem Accounted.heldBy_length (h : Accounted heap tasks held) :
    heldBy held tasks heap.length = 0 := by
  refine List.sum_eq_zero fun n hn => ?_
  obtain ⟨t, ht, rfl⟩ := List.mem_map.mp hn
  refine List.count_eq_zero.mpr fun hmem => ?_
  exact Nat.lt_irrefl _ (h.exist t ht _ hmem)

/-- A task that holds what it held before changes nothing. -/
theorem Accounted.keep (h : Accounted heap tasks held) (hi : tasks[i]? = some x)
    (hxy : held y = held x) : Accounted heap (tasks.set i y) held := by
  constructor
  · intro o s hs
    have hbalance := h.balance o s hs
    have hset := heldBy_set held y hi o
    rw [hxy] at hset
    omega
  · intro t ht o ho
    obtain rfl | ht := mem_set_cases ht
    · exact h.exist x (List.mem_of_getElem? hi) o (hxy ▸ ho)
    · exact h.exist t ht o ho

/-- A new task holds nothing. -/
theorem Accounted.start (h : Accounted heap tasks held) (hy : held y = []) :
    Accounted heap (tasks ++ [y]) held := by
  constructor
  · intro o s hs
    have hbalance := h.balance o s hs
    simp [heldBy, hy] at hbalance ⊢
    exact hbalance
  · intro t ht o ho
    obtain ht | ht := List.mem_append.mp ht
    · exact h.exist t ht o ho
    · obtain rfl := List.mem_singleton.mp ht
      rw [hy] at ho
      cases ho

/-- A new semaphore has all its permits free. -/
theorem Accounted.make (h : Accounted heap tasks held) (limit : Nat) :
    Accounted (heap.make limit).1 tasks held := by
  constructor
  · intro o s hs
    by_cases ho : o < heap.length
    · exact h.balance o s (by rwa [Heap.make, List.getElem?_append_left ho] at hs)
    · obtain ⟨hlt, hs⟩ := List.getElem?_eq_some_iff.mp hs
      obtain rfl : o = heap.length := by simp [Heap.make] at hlt; omega
      obtain rfl : (⟨limit, limit⟩ : Semaphore) = s := by simpa [Heap.make] using hs
      rw [h.heldBy_length]
      rfl
  · intro t ht o ho
    have := h.exist t ht o ho
    simp only [Heap.make, List.length_append, List.length_singleton]
    omega

/-- The task that takes a permit holds it. -/
theorem Accounted.acquire (h : Accounted heap tasks held) (hi : tasks[i]? = some x)
    (hy : held y = o :: held x) (ha : heap.acquire o = some heap') :
    Accounted heap' (tasks.set i y) held := by
  unfold Heap.acquire at ha
  split at ha
  next s hs =>
    split at ha
    next hpos =>
      obtain rfl := Option.some.inj ha
      have hlt := (List.getElem?_eq_some_iff.mp hs).1
      constructor
      · intro k s' hs'
        have hset := heldBy_set held y hi k
        rw [hy] at hset
        by_cases hk : k = o
        · subst hk
          obtain rfl : { s with value := s.value - 1 } = s' := by simpa [hlt] using hs'
          have hbalance := h.balance k s hs
          simp only [List.count_cons_self] at hset
          show s.value - 1 + _ = s.limit
          omega
        · rw [List.getElem?_set_ne (Ne.symm hk)] at hs'
          have hbalance := h.balance k s' hs'
          rw [List.count_cons_of_ne (Ne.symm hk)] at hset
          omega
      · intro t ht k hk
        rw [List.length_set]
        obtain rfl | ht := mem_set_cases ht
        · rw [hy] at hk
          obtain rfl | hk := List.mem_cons.mp hk
          · exact hlt
          · exact h.exist x (List.mem_of_getElem? hi) k hk
        · exact h.exist t ht k hk
    next => cases ha
  next => cases ha

/-- The task that gives permits back no longer holds them. -/
theorem Accounted.releaseAll {os : List Nat} (h : Accounted heap tasks held)
    (hi : tasks[i]? = some x) (hx : held x = os ++ held y) :
    Accounted (heap.releaseAll os) (tasks.set i y) held := by
  constructor
  · intro k s' hs'
    rw [Heap.getElem?_releaseAll] at hs'
    obtain ⟨s, hs, rfl⟩ := Option.map_eq_some_iff.mp hs'
    have hbalance := h.balance k s hs
    have hset := heldBy_set held y hi k
    rw [hx, List.count_append] at hset
    show s.value + os.count k + _ = s.limit
    omega
  · intro t ht k hk
    rw [Heap.length_releaseAll]
    obtain rfl | ht := mem_set_cases ht
    · exact h.exist x (List.mem_of_getElem? hi) k (hx ▸ List.mem_append_right os hk)
    · exact h.exist t ht k hk

/-- No more tasks hold a semaphore than it has permits. -/
theorem Accounted.countP_le {p : τ → Bool} {n : Nat} (h : Accounted heap tasks held)
    (hlimit : heap.limitOf o = some n) (hp : ∀ t ∈ tasks, p t = true → o ∈ held t) :
    tasks.countP p ≤ n := by
  obtain ⟨s, hs, rfl⟩ := Option.map_eq_some_iff.mp hlimit
  have hbalance := h.balance o s hs
  have hle : tasks.countP p ≤ heldBy held tasks o := by
    clear hbalance h
    induction tasks with
    | nil => exact Nat.zero_le _
    | cons t rest ih =>
        have hrest := ih fun t' ht' => hp t' (List.mem_cons_of_mem t ht')
        have hcount : (if p t = true then 1 else 0) ≤ (held t).count o := by
          split
          next hpt => exact List.count_pos_iff.mpr (hp t List.mem_cons_self hpt)
          next => exact Nat.zero_le _
        simp only [heldBy, List.countP_cons, List.map_cons, List.sum_cons] at hrest ⊢
        omega
  omega

end Accounted

/-! ## Semaphores made on demand -/

/-- The semaphore under each key, and how many users it has. -/
structure Registry (κ : Type v) where
  semaphores : κ → Option Nat := fun _ => none
  references : κ → Option Nat := fun _ => none

namespace Registry

variable {κ : Type v} [DecidableEq κ]

/-- One more user of the key: the semaphore under it, made if there is none. -/
def checkOut (r : Registry κ) (heap : Heap) (limit : Nat) (k : κ) : Registry κ × Heap × Nat :=
  let (heap, o) := match r.semaphores k with
    | some o => (heap, o)
    | none => heap.make limit
  ({ semaphores := Function.update r.semaphores k (some o)
     references := Function.update r.references k (some ((r.references k).getD 0 + 1)) }, heap, o)

/-- One user less: with the last one the entry is deleted. There is no result without a count. -/
def checkIn (r : Registry κ) (k : κ) : Option (Registry κ) :=
  match r.references k with
  | none => none
  | some n =>
      if n = 1 then some
        { semaphores := Function.update r.semaphores k none
          references := Function.update r.references k none }
      else some { r with references := Function.update r.references k (some (n - 1)) }

end Registry

section Tracks

variable {κ : Type v} [DecidableEq κ] {τ : Type u} {tasks : List τ}
variable {lease : τ → Option (κ × Nat)} {r r' : Registry κ} {heap heap' : Heap}
variable {limit i o : Nat} {x y : τ} {k : κ}

/-- The task is a user of the key. -/
def uses (lease : τ → Option (κ × Nat)) (k : κ) (t : τ) : Bool :=
  (lease t).any fun l => l.1 = k

/--
Every user has the semaphore that is under its key now, and there is a reference
for each of them. References may outnumber the users: a user that goes away
without a word leaves one behind.
-/
structure Tracks (r : Registry κ) (heap : Heap) (limit : Nat) (tasks : List τ)
    (lease : τ → Option (κ × Nat)) : Prop where
  entry : ∀ t ∈ tasks, ∀ k o, lease t = some (k, o) → r.semaphores k = some o
  counted : ∀ k, tasks.countP (uses lease k) ≤ (r.references k).getD 0
  limited : ∀ k o, r.semaphores k = some o → heap.limitOf o = some limit
  distinct : ∀ k k' o, r.semaphores k = some o → r.semaphores k' = some o → k = k'

/-- Semaphores may be made and their permits taken and given back. -/
theorem Tracks.of_heap (h : Tracks r heap limit tasks lease)
    (hheap : ∀ o n, heap.limitOf o = some n → heap'.limitOf o = some n) :
    Tracks r heap' limit tasks lease :=
  { h with limited := fun k o hk => hheap o limit (h.limited k o hk) }

/-- A user that goes away, or a task that moves on. -/
theorem Tracks.keep (h : Tracks r heap limit tasks lease) (hi : tasks[i]? = some x)
    (hxy : lease y = lease x ∨ lease y = none) : Tracks r heap limit (tasks.set i y) lease := by
  refine { h with entry := ?_, counted := ?_ }
  · intro t ht k o hk
    obtain rfl | ht := mem_set_cases ht
    · obtain hxy | hxy := hxy
      · exact h.entry x (List.mem_of_getElem? hi) k o (hxy ▸ hk)
      · rw [hxy] at hk
        cases hk
    · exact h.entry t ht k o hk
  · intro k
    have hcounted := h.counted k
    have hset := countP_set_add (y := y) (uses lease k) hi
    have hle : (uses lease k y).toNat ≤ (uses lease k x).toNat := by
      obtain hxy | hxy := hxy
      · simp [uses, hxy]
      · simp [uses, hxy]
    omega

/-- A new task is a user of nothing. -/
theorem Tracks.start (h : Tracks r heap limit tasks lease) (hy : lease y = none) :
    Tracks r heap limit (tasks ++ [y]) lease := by
  refine { h with entry := ?_, counted := ?_ }
  · intro t ht k o hk
    obtain ht | ht := List.mem_append.mp ht
    · exact h.entry t ht k o hk
    · obtain rfl := List.mem_singleton.mp ht
      rw [hy] at hk
      cases hk
  · intro k
    simpa [uses, hy] using h.counted k

/-- The semaphores a registry hands out have its limit, and the old ones keep theirs. -/
theorem Registry.limitOf_checkOut {n : Nat} (h : heap.limitOf o = some n) :
    Heap.limitOf (r.checkOut heap limit k).2.1 o = some n := by
  unfold Registry.checkOut
  cases r.semaphores k with
  | some o' => exact h
  | none => exact Heap.limitOf_make_of_some h

/-- A semaphore that is made on demand has all its permits free. -/
theorem Accounted.checkOut {held : τ → List Nat} (h : Accounted heap tasks held) :
    Accounted (r.checkOut heap limit k).2.1 tasks held := by
  unfold Registry.checkOut
  cases r.semaphores k with
  | some o => exact h
  | none => exact h.make limit

/-- A new user does not replace a semaphore. -/
theorem Registry.semaphores_checkOut {k' : κ} (h : r.semaphores k' = some o) :
    (r.checkOut heap limit k).1.semaphores k' = some o := by
  unfold Registry.checkOut
  by_cases hk : k' = k
  · subst hk
    simp [h]
  · simp [Function.update_of_ne hk, h]

/-- A new user gets the semaphore that is then under its key. -/
theorem Tracks.checkOut (h : Tracks r heap limit tasks lease) (hi : tasks[i]? = some x)
    (hx : lease x = none) (hy : lease y = some (k, (r.checkOut heap limit k).2.2)) :
    Tracks (r.checkOut heap limit k).1 (r.checkOut heap limit k).2.1 limit (tasks.set i y)
      lease := by
  have hsemaphores : (r.checkOut heap limit k).1.semaphores
      = Function.update r.semaphores k (some (r.checkOut heap limit k).2.2) := rfl
  have hreferences : (r.checkOut heap limit k).1.references
      = Function.update r.references k (some ((r.references k).getD 0 + 1)) := rfl
  -- what the user is given is what was under the key, or new
  have hgiven : r.semaphores k = some (r.checkOut heap limit k).2.2
      ∨ (r.semaphores k = none ∧ (r.checkOut heap limit k).2.2 = heap.length
        ∧ Heap.limitOf (r.checkOut heap limit k).2.1 heap.length = some limit) := by
    unfold Registry.checkOut
    cases hk : r.semaphores k with
    | some o => exact .inl rfl
    | none => exact .inr ⟨rfl, rfl, Heap.limitOf_make⟩
  have hfresh : ∀ k' , r.semaphores k' ≠ some heap.length := by
    intro k' hk'
    obtain ⟨s, hs, -⟩ := Option.map_eq_some_iff.mp (h.limited k' _ hk')
    exact Nat.lt_irrefl _ (List.getElem?_eq_some_iff.mp hs).1
  refine ⟨?_, ?_, ?_, ?_⟩
  · intro t ht k' o hk'
    rw [hsemaphores]
    obtain rfl | ht := mem_set_cases ht
    · rw [hy] at hk'
      obtain ⟨rfl, rfl⟩ := Prod.mk.inj (Option.some.inj hk')
      exact Function.update_self ..
    · have hentry := h.entry t ht k' o hk'
      by_cases hkk : k' = k
      · subst hkk
        rw [Function.update_self]
        obtain hold | ⟨hnone, -, -⟩ := hgiven
        · rw [← hold, hentry]
        · rw [hnone] at hentry
          cases hentry
      · rwa [Function.update_of_ne hkk]
  · intro k'
    rw [hreferences]
    have hcounted := h.counted k'
    have hset := countP_set_add (y := y) (uses lease k') hi
    have hxuses : uses lease k' x = false := by simp [uses, hx]
    have hyuses : uses lease k' y = decide (k = k') := by simp [uses, hy]
    rw [hxuses, hyuses, Bool.toNat_false] at hset
    by_cases hkk : k' = k
    · subst hkk
      rw [Function.update_self]
      simp only [decide_true, Bool.toNat_true] at hset
      simp only [Option.getD_some]
      omega
    · rw [Function.update_of_ne hkk]
      simp only [Ne.symm hkk, decide_false, Bool.toNat_false] at hset
      omega
  · intro k' o hk'
    rw [hsemaphores] at hk'
    by_cases hkk : k' = k
    · subst hkk
      rw [Function.update_self] at hk'
      obtain rfl := Option.some.inj hk'
      obtain hold | ⟨-, hlen, hlimit⟩ := hgiven
      · exact Registry.limitOf_checkOut (h.limited k' _ hold)
      · rw [hlen]
        exact hlimit
    · rw [Function.update_of_ne hkk] at hk'
      exact Registry.limitOf_checkOut (h.limited k' o hk')
  · intro k₁ k₂ o h₁ h₂
    rw [hsemaphores] at h₁ h₂
    -- another key never has the semaphore the user is given
    have hother : ∀ k', k' ≠ k → r.semaphores k' ≠ some (r.checkOut heap limit k).2.2 := by
      intro k' hkk hk'
      obtain hold | ⟨-, hlen, -⟩ := hgiven
      · exact hkk (h.distinct k' k _ hk' hold)
      · rw [hlen] at hk'
        exact hfresh k' hk'
    by_cases hk₁ : k₁ = k <;> by_cases hk₂ : k₂ = k
    · rw [hk₁, hk₂]
    · subst hk₁
      rw [Function.update_self] at h₁
      rw [Function.update_of_ne hk₂] at h₂
      exact absurd (h₂.trans h₁.symm) (hother k₂ hk₂)
    · subst hk₂
      rw [Function.update_self] at h₂
      rw [Function.update_of_ne hk₁] at h₁
      exact absurd (h₁.trans h₂.symm) (hother k₁ hk₁)
    · rw [Function.update_of_ne hk₁] at h₁
      rw [Function.update_of_ne hk₂] at h₂
      exact h.distinct k₁ k₂ o h₁ h₂

/-- What `checkIn` does: it deletes the entry of the last user, or it counts down. -/
theorem Registry.checkIn_cases (h : r.checkIn k = some r') :
    (r.references k = some 1 ∧ r'.semaphores = Function.update r.semaphores k none
        ∧ r'.references = Function.update r.references k none)
      ∨ ∃ n, n ≠ 1 ∧ r.references k = some n ∧ r'.semaphores = r.semaphores
        ∧ r'.references = Function.update r.references k (some (n - 1)) := by
  unfold Registry.checkIn at h
  split at h
  · cases h
  next n hn =>
    split at h
    next hone =>
      obtain rfl := Option.some.inj h
      exact .inl ⟨hone ▸ hn, rfl, rfl⟩
    next hone =>
      obtain rfl := Option.some.inj h
      exact .inr ⟨n, hone, hn, rfl, rfl⟩

/-- A user that signs off takes its reference with it. -/
theorem Tracks.checkIn (h : Tracks r heap limit tasks lease) (hi : tasks[i]? = some x)
    (hx : uses lease k x = true) (hy : lease y = none) (hr : r.checkIn k = some r') :
    Tracks r' heap limit (tasks.set i y) lease := by
  have hkeep := h.keep hi (.inr hy)
  -- the user was counted, and is not any more
  have hcount : ∀ k', (tasks.set i y).countP (uses lease k') + (uses lease k' x).toNat
      ≤ (r.references k').getD 0 := by
    intro k'
    have hset := countP_set_add (y := y) (uses lease k') hi
    have hy : uses lease k' y = false := by simp [uses, hy]
    have hcounted := h.counted k'
    rw [hy, Bool.toNat_false] at hset
    omega
  obtain ⟨hone, hsem, href⟩ | ⟨n, hn, hcur, hsem, href⟩ := Registry.checkIn_cases hr
  · have hgone : ∀ t ∈ tasks.set i y, uses lease k t = false := by
      have hzero := hcount k
      rw [hone, hx] at hzero
      simp only [Option.getD_some, Bool.toNat_true] at hzero
      have hzero : (tasks.set i y).countP (uses lease k) = 0 := by omega
      simpa using List.countP_eq_zero.mp hzero
    refine ⟨?_, ?_, ?_, ?_⟩
    · intro t ht k' o hk'
      have hne : k' ≠ k := by
        rintro rfl
        have := hgone t ht
        simp [uses, hk'] at this
      rw [hsem, Function.update_of_ne hne]
      exact hkeep.entry t ht k' o hk'
    · intro k'
      by_cases hkk : k' = k
      · subst hkk
        have hzero : (tasks.set i y).countP (uses lease k') = 0 :=
          List.countP_eq_zero.mpr fun t ht => by simp [hgone t ht]
        omega
      · rw [href, Function.update_of_ne hkk]
        exact hkeep.counted k'
    · intro k' o hk'
      rw [hsem] at hk'
      by_cases hkk : k' = k
      · subst hkk
        simp at hk'
      · rw [Function.update_of_ne hkk] at hk'
        exact h.limited k' o hk'
    · intro k₁ k₂ o h₁ h₂
      rw [hsem] at h₁ h₂
      by_cases hk₁ : k₁ = k
      · subst hk₁
        simp at h₁
      · by_cases hk₂ : k₂ = k
        · subst hk₂
          simp at h₂
        · rw [Function.update_of_ne hk₁] at h₁
          rw [Function.update_of_ne hk₂] at h₂
          exact h.distinct k₁ k₂ o h₁ h₂
  · refine ⟨?_, ?_, ?_, ?_⟩
    · rw [hsem]
      exact hkeep.entry
    · intro k'
      have hcount := hcount k'
      rw [href]
      by_cases hkk : k' = k
      · subst hkk
        rw [Function.update_self]
        rw [hcur, hx] at hcount
        simp only [Option.getD_some, Bool.toNat_true] at hcount ⊢
        omega
      · rw [Function.update_of_ne hkk]
        exact hkeep.counted k'
    · rw [hsem]
      exact h.limited
    · rw [hsem]
      exact h.distinct

/-- A user has a reference, so signing off finds one. -/
theorem Tracks.exists_checkIn (h : Tracks r heap limit tasks lease) (hx : x ∈ tasks)
    (hk : uses lease k x = true) : ∃ r', r.checkIn k = some r' := by
  have hpos : 0 < tasks.countP (uses lease k) := List.countP_pos_iff.mpr ⟨x, hx, hk⟩
  have hcounted := h.counted k
  unfold Registry.checkIn
  cases href : r.references k with
  | none =>
      rw [href] at hcounted
      simp only [Option.getD_none] at hcounted
      omega
  | some n =>
      by_cases hone : n = 1
      · exact ⟨_, by simp only [hone]; rfl⟩
      · exact ⟨_, by simp only [hone]; rfl⟩

/-- No more tasks hold the semaphore of a key than the registry allows. -/
theorem Tracks.countP_le {p : τ → Bool} {held : τ → List Nat}
    (h : Tracks r heap limit tasks lease) (ha : Accounted heap tasks held)
    (hp : ∀ t ∈ tasks, p t = true → ∃ o ∈ held t, lease t = some (k, o)) :
    tasks.countP p ≤ limit := by
  by_cases hany : ∃ t ∈ tasks, p t = true
  · obtain ⟨t, ht, hpt⟩ := hany
    obtain ⟨o, -, hlease⟩ := hp t ht hpt
    have hentry := h.entry t ht k o hlease
    refine ha.countP_le (h.limited k o hentry) fun t' ht' hpt' => ?_
    obtain ⟨o', ho', hlease'⟩ := hp t' ht' hpt'
    have hsame : o' = o := Option.some.inj ((h.entry t' ht' k o' hlease').symm.trans hentry)
    exact hsame ▸ ho'
  · have hzero : tasks.countP p = 0 :=
      List.countP_eq_zero.mpr fun t ht hpt => hany ⟨t, ht, hpt⟩
    omega

/-- An entry that is gone had nobody left: no task is a user of a key without a semaphore. -/
theorem Tracks.not_leased (h : Tracks r heap limit tasks lease) (hk : r.semaphores k = none) :
    ∀ t ∈ tasks, ∀ o, lease t ≠ some (k, o) := by
  intro t ht o hlease
  rw [h.entry t ht k o hlease] at hk
  cases hk

/-- The entry of a semaphore is deleted by the last of its users. -/
theorem Tracks.eq_of_deleted (h : Tracks r heap limit tasks lease)
    (h' : Tracks r' heap' limit (tasks.set i y) lease) (hi : tasks[i]? = some x)
    (hk : r.semaphores k = some o) (hk' : r'.semaphores k = none) {t : τ} (ht : t ∈ tasks)
    {key : κ} (hlease : lease t = some (key, o)) : t = x := by
  obtain rfl : key = k := h.distinct key k o (h.entry t ht key o hlease) hk
  obtain heq | hmem := eq_or_mem_set (y := y) hi ht
  · exact heq
  · exact absurd hlease (h'.not_leased hk' t hmem o)

/-- Signing off leaves a semaphore under its key or deletes the entry. -/
theorem Registry.semaphores_checkIn {k' : κ} (h : r.checkIn k = some r')
    (hk : r.semaphores k' = some o) : r'.semaphores k' = some o ∨ r'.semaphores k' = none := by
  obtain ⟨-, hsem, -⟩ | ⟨n, -, -, hsem, -⟩ := Registry.checkIn_cases h
  · by_cases hkk : k' = k
    · exact .inr (by rw [hsem, hkk, Function.update_self])
    · exact .inl (by rw [hsem, Function.update_of_ne hkk, hk])
  · exact .inl (by rw [hsem, hk])

end Tracks

end Sana.Lib
