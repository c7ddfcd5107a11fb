import Mathlib.Data.List.Count
import Mathlib.Data.Finset.Insert
import Sana.Lib.Ranking

/-!
# Taking turns

Two ways to spread a choice. Within one queue, elements of a class that has come before are put
off until every class has come. Between queues, one element of each is taken, round after round.
What is said of the result is said of every front of it, so it survives cutting the result off.
-/

namespace Sana.Lib

variable {α β ι : Type*} [DecidableEq ι]

/-! ## Putting off -/

section PutOff

variable (cls : α → ι)

/-- The first of every class that is not in `seen`, and all the others. -/
def putOff (seen : Finset ι) : List α → List α × List α
  | [] => ([], [])
  | a :: l =>
      if cls a ∈ seen then ((putOff seen l).1, a :: (putOff seen l).2)
      else (a :: (putOff (insert (cls a) seen) l).1, (putOff (insert (cls a) seen) l).2)

/-- Newcomers first. -/
def newFirst (l : List α) : List α := (putOff cls ∅ l).1 ++ (putOff cls ∅ l).2

variable {cls} {seen : Finset ι} {l : List α}

theorem putOff_cons_of_mem {a : α} (h : cls a ∈ seen) :
    putOff cls seen (a :: l) = ((putOff cls seen l).1, a :: (putOff cls seen l).2) := by
  rw [putOff, if_pos h]

theorem putOff_cons_of_notMem {a : α} (h : cls a ∉ seen) :
    putOff cls seen (a :: l) = (a :: (putOff cls (insert (cls a) seen) l).1,
      (putOff cls (insert (cls a) seen) l).2) := by
  rw [putOff, if_neg h]

theorem putOff_perm (cls : α → ι) (seen : Finset ι) (l : List α) :
    ((putOff cls seen l).1 ++ (putOff cls seen l).2).Perm l := by
  induction l generalizing seen with
  | nil => exact List.Perm.refl _
  | cons a l ih =>
      by_cases h : cls a ∈ seen
      · rw [putOff_cons_of_mem h]
        exact List.perm_middle.trans ((ih seen).cons a)
      · rw [putOff_cons_of_notMem h]
        exact (ih (insert (cls a) seen)).cons a

theorem newFirst_perm (cls : α → ι) (l : List α) : (newFirst cls l).Perm l := putOff_perm cls ∅ l

theorem putOff_sublist (cls : α → ι) (seen : Finset ι) (l : List α) :
    (putOff cls seen l).1.Sublist l := by
  induction l generalizing seen with
  | nil => exact List.Sublist.refl _
  | cons a l ih =>
      by_cases h : cls a ∈ seen
      · rw [putOff_cons_of_mem h]
        exact (ih seen).cons a
      · rw [putOff_cons_of_notMem h]
        exact (ih (insert (cls a) seen)).cons_cons a

/-- No class comes twice among the first ones, and none that was there before. -/
theorem putOff_distinct (cls : α → ι) (seen : Finset ι) (l : List α) :
    ((putOff cls seen l).1.map cls).Nodup ∧ ∀ x ∈ (putOff cls seen l).1, cls x ∉ seen := by
  induction l generalizing seen with
  | nil => exact ⟨List.nodup_nil, fun x hx => by cases hx⟩
  | cons a l ih =>
      by_cases h : cls a ∈ seen
      · rw [putOff_cons_of_mem h]
        exact ih seen
      · rw [putOff_cons_of_notMem h]
        obtain ⟨hnodup, hnew⟩ := ih (insert (cls a) seen)
        constructor
        · rw [List.map_cons, List.nodup_cons]
          refine ⟨fun hmem => ?_, hnodup⟩
          obtain ⟨x, hx, hcls⟩ := List.mem_map.mp hmem
          exact hnew x hx (hcls ▸ Finset.mem_insert_self _ _)
        · intro x hx
          rcases List.mem_cons.mp hx with rfl | hx
          · exact h
          · exact fun hseen => hnew x hx (Finset.mem_insert_of_mem hseen)

/-- Every class is there, among the first ones or from before. -/
theorem putOff_covers {x : α} (hx : x ∈ l) :
    cls x ∈ seen ∨ cls x ∈ (putOff cls seen l).1.map cls := by
  induction l generalizing seen with
  | nil => cases hx
  | cons a l ih =>
      by_cases h : cls a ∈ seen
      · rw [putOff_cons_of_mem h]
        rcases List.mem_cons.mp hx with rfl | hx
        · exact .inl h
        · exact ih hx
      · rw [putOff_cons_of_notMem h, List.map_cons]
        rcases List.mem_cons.mp hx with rfl | hx
        · exact .inr List.mem_cons_self
        have hcovers : cls x ∈ insert (cls a) seen ∨
            cls x ∈ (putOff cls (insert (cls a) seen) l).1.map cls := ih hx
        rcases hcovers with hseen | hmem
        · rcases Finset.mem_insert.mp hseen with heq | hseen
          · exact .inr (heq ▸ List.mem_cons_self)
          · exact .inl hseen
        · exact .inr (List.mem_cons_of_mem _ hmem)

/-- **A class comes again only when every class has come.** -/
theorem newFirst_repeats {before after : List α} {c : α}
    (h : before ++ c :: after <+: newFirst cls l) (hc : cls c ∈ before.map cls) {x : α}
    (hx : x ∈ l) : cls x ∈ before.map cls := by
  obtain ⟨rest, hrest⟩ := h
  have hsplit : (putOff cls ∅ l).1 ++ (putOff cls ∅ l).2 = before ++ c :: (after ++ rest) := by
    rw [← newFirst, ← hrest, List.append_assoc, List.cons_append]
  have hall : cls x ∈ (putOff cls ∅ l).1.map cls :=
    (putOff_covers hx).resolve_left (Finset.notMem_empty _)
  rcases List.append_eq_append_iff.mp hsplit with ⟨m, rfl, -⟩ | ⟨m, hm, hcm⟩
  · rw [List.map_append]
    exact List.mem_append_left _ hall
  · cases m with
    | nil => rwa [List.append_nil, ← hm] at *
    | cons d m =>
        -- `c` would be one of the first ones, which do not repeat a class
        obtain ⟨rfl, -⟩ := List.cons.inj hcm
        have hnodup := (putOff_distinct cls ∅ l).1
        rw [hm, List.map_append, List.map_cons] at hnodup
        exact absurd List.mem_cons_self (List.disjoint_of_nodup_append hnodup hc)

/-- The first of a class has only such before it as stand before it in the list. -/
theorem newFirst_sorted {R : α → α → Prop} (hl : l.Pairwise R) {before after : List α} {c : α}
    (h : before ++ c :: after <+: newFirst cls l) (hc : cls c ∉ before.map cls) {x : α}
    (hx : x ∈ before) : R x c := by
  obtain ⟨rest, hrest⟩ := h
  have hsplit : (putOff cls ∅ l).1 ++ (putOff cls ∅ l).2 = before ++ c :: (after ++ rest) := by
    rw [← newFirst, ← hrest, List.append_assoc, List.cons_append]
  have hfirst := hl.sublist (putOff_sublist cls ∅ l)
  have hcl : c ∈ l := (newFirst_perm cls l).mem_iff.mp (by rw [newFirst, hsplit]; simp)
  have hall : cls c ∈ (putOff cls ∅ l).1.map cls :=
    (putOff_covers hcl).resolve_left (Finset.notMem_empty _)
  rcases List.append_eq_append_iff.mp hsplit with ⟨m, rfl, -⟩ | ⟨m, hm, hcm⟩
  · rw [List.map_append] at hc
    exact absurd (List.mem_append_left _ hall) hc
  · cases m with
    | nil =>
        rw [List.append_nil] at hm
        exact absurd (hm ▸ hall) hc
    | cons d m =>
        obtain ⟨rfl, -⟩ := List.cons.inj hcm
        rw [hm] at hfirst
        exact (List.pairwise_append.mp hfirst).2.2 x hx c List.mem_cons_self

/-- Putting off looks at the classes only. -/
theorem putOff_map (f : β → α) (seen : Finset ι) (l : List β) :
    putOff cls seen (l.map f) = ((putOff (fun b => cls (f b)) seen l).1.map f,
      (putOff (fun b => cls (f b)) seen l).2.map f) := by
  induction l generalizing seen with
  | nil => rfl
  | cons a l ih =>
      rw [List.map_cons, putOff, putOff]
      by_cases h : cls (f a) ∈ seen
      · rw [if_pos h, if_pos h, ih, List.map_cons]
      · rw [if_neg h, if_neg h, ih, List.map_cons]

theorem newFirst_map (f : β → α) (l : List β) :
    newFirst cls (l.map f) = (newFirst (fun b => cls (f b)) l).map f := by
  rw [newFirst, newFirst, putOff_map, List.map_append]

end PutOff

/-! ## Round robin -/

section RoundRobin

/-- Round after round, one element of each queue. -/
def roundRobin (rounds : Nat) (queues : List (List α)) : List α :=
  (List.range rounds).flatMap fun round => queues.filterMap (·[round]?)

variable {rounds : Nat} {queues : List (List α)}

theorem roundRobin_succ (rounds : Nat) (queues : List (List α)) :
    roundRobin (rounds + 1) queues
      = roundRobin rounds queues ++ queues.filterMap (·[rounds]?) := by
  rw [roundRobin, List.range_succ, List.flatMap_append, List.flatMap_singleton, ← roundRobin]

/-- With enough rounds every element has its turn. -/
theorem mem_roundRobin {x : α} :
    x ∈ roundRobin rounds queues ↔ ∃ queue ∈ queues, x ∈ queue.take rounds := by
  simp only [roundRobin, List.mem_flatMap, List.mem_range, List.mem_filterMap]
  constructor
  · rintro ⟨round, hround, queue, hqueue, hx⟩
    refine ⟨queue, hqueue, List.mem_of_getElem? (i := round) ?_⟩
    rw [List.getElem?_take, if_pos hround]
    exact hx
  · rintro ⟨queue, hqueue, hx⟩
    obtain ⟨round, hround⟩ := List.getElem?_of_mem hx
    rw [List.getElem?_take] at hround
    split at hround
    · rename_i hlt
      exact ⟨round, hlt, queue, hqueue, hround⟩
    · cases hround

theorem roundRobin_map (f : β → α) (rounds : Nat) (queues : List (List β)) :
    roundRobin rounds (queues.map fun queue => queue.map f) = (roundRobin rounds queues).map f := by
  induction rounds with
  | zero => rfl
  | succ rounds ih =>
      rw [roundRobin_succ, roundRobin_succ, ih, List.map_append, List.filterMap_map,
        List.map_filterMap]
      congr 1
      exact List.filterMap_congr fun queue _ => List.getElem?_map

/-! A queue is told by its name, which its elements carry as a tag. -/

variable {κ : Type*} {tag : α → ι} {name : κ → ι} {keys : List κ} {queue : κ → List α}

variable (tag)

/-- A round has one element of each queue that is long enough. -/
theorem filter_round (hkeys : (keys.map name).Nodup)
    (htag : ∀ k ∈ keys, ∀ x ∈ queue k, tag x = name k) {k : κ} (hk : k ∈ keys) (round : Nat) :
    ((keys.map queue).filterMap (·[round]?)).filter (fun x => tag x == name k)
      = (queue k)[round]?.toList := by
  induction keys with
  | nil => cases hk
  | cons a keys ih =>
      rw [List.map_cons, List.nodup_cons] at hkeys
      have hrest : ∀ k ∈ keys, ∀ x ∈ queue k, tag x = name k :=
        fun k hk => htag k (List.mem_cons_of_mem _ hk)
      -- the first element of the round is `a`'s, if it has one
      have hcons : ((a :: keys).map queue).filterMap (·[round]?)
          = (queue a)[round]?.toList ++ (keys.map queue).filterMap (·[round]?) := by
        rw [List.map_cons, List.filterMap_cons]
        cases (queue a)[round]? <;> rfl
      rw [hcons, List.filter_append]
      rcases List.mem_cons.mp hk with rfl | hk
      · have hnone : ((keys.map queue).filterMap (·[round]?)).filter (fun x => tag x == name k)
            = [] := by
          refine List.filter_eq_nil_iff.mpr fun x hx heq => ?_
          obtain ⟨q, hq, hround⟩ := List.mem_filterMap.mp hx
          obtain ⟨j, hj, rfl⟩ := List.mem_map.mp hq
          have htagx := hrest j hj x (List.mem_of_getElem? hround)
          exact hkeys.1 (List.mem_map.mpr ⟨j, hj, htagx.symm.trans (eq_of_beq heq)⟩)
        rw [hnone, List.append_nil]
        refine List.filter_eq_self.mpr fun x hx => ?_
        rw [Option.mem_toList] at hx
        exact beq_iff_eq.mpr (htag k List.mem_cons_self x (List.mem_of_getElem? hx))
      · rw [ih hkeys.2 hrest hk]
        have hnone : ((queue a)[round]?.toList).filter (fun x => tag x == name k) = [] := by
          refine List.filter_eq_nil_iff.mpr fun x hx heq => ?_
          rw [Option.mem_toList] at hx
          have htagx := htag a List.mem_cons_self x (List.mem_of_getElem? hx)
          exact hkeys.1 (List.mem_map.mpr ⟨k, hk, (eq_of_beq heq).symm.trans htagx⟩)
        rw [hnone, List.nil_append]

/-- **Each queue keeps its order.** -/
theorem filter_roundRobin (hkeys : (keys.map name).Nodup)
    (htag : ∀ k ∈ keys, ∀ x ∈ queue k, tag x = name k)
    {k : κ} (hk : k ∈ keys) (rounds : Nat) :
    (roundRobin rounds (keys.map queue)).filter (fun x => tag x == name k)
      = (queue k).take rounds := by
  induction rounds with
  | zero => rfl
  | succ rounds ih =>
      rw [roundRobin_succ, List.filter_append, ih, filter_round tag hkeys htag hk, List.take_add_one]

/-- What is taken in a later round waits for all earlier rounds. -/
theorem roundRobin_waits (hkeys : (keys.map name).Nodup)
    (htag : ∀ k ∈ keys, ∀ x ∈ queue k, tag x = name k)
    {m rest : List α} {c : α} (h : (keys.map queue).filterMap (·[rounds]?) = m ++ c :: rest)
    {k : κ} (hk : k ∈ keys) :
    min ((roundRobin rounds (keys.map queue) ++ m).countP fun x => tag x == tag c)
        (queue k).length
      ≤ (roundRobin rounds (keys.map queue) ++ m).countP fun x => tag x == name k := by
  have hcount : ∀ j ∈ keys, ((roundRobin rounds (keys.map queue)).countP fun x => tag x == name j)
      = min rounds (queue j).length := by
    intro j hj
    rw [List.countP_eq_length_filter, filter_roundRobin tag hkeys htag hj, List.length_take]
  obtain ⟨j, hj, hc⟩ : ∃ j ∈ keys, tag c = name j := by
    have hmem : c ∈ (keys.map queue).filterMap (·[rounds]?) := by rw [h]; simp
    obtain ⟨q, hq, hround⟩ := List.mem_filterMap.mp hmem
    obtain ⟨j, hj, rfl⟩ := List.mem_map.mp hq
    exact ⟨j, hj, htag j hj c (List.mem_of_getElem? hround)⟩
  have hm : (m.countP fun x => tag x == tag c) = 0 := by
    have hone : (((keys.map queue).filterMap (·[rounds]?)).countP fun x => tag x == tag c) ≤ 1 := by
      rw [hc, List.countP_eq_length_filter, filter_round tag hkeys htag hj]
      cases (queue j)[rounds]? <;> simp
    rw [h, List.countP_append, List.countP_cons, if_pos (beq_self_eq_true _)] at hone
    omega
  rw [List.countP_append, List.countP_append, hm, hc, hcount j hj, hcount k hk]
  omega

/-- **Nobody is ahead of a queue that still waits.** When an element is taken, every other queue
has had as many turns as the element's own, or all it can have. -/
theorem roundRobin_fair (hkeys : (keys.map name).Nodup)
    (htag : ∀ k ∈ keys, ∀ x ∈ queue k, tag x = name k)
    {before after : List α} {c : α} (h : before ++ c :: after <+: roundRobin rounds (keys.map queue))
    {k : κ} (hk : k ∈ keys) :
    min (before.countP fun x => tag x == tag c) (queue k).length
      ≤ before.countP fun x => tag x == name k := by
  induction rounds generalizing after with
  | zero => simp [roundRobin] at h
  | succ rounds ih =>
      obtain ⟨rest, hrest⟩ := h
      rw [roundRobin_succ, List.append_assoc] at hrest
      rcases List.append_eq_append_iff.mp hrest with ⟨m, hm, hround⟩ | ⟨m, rfl, hround⟩
      · cases m with
        | nil =>
            rw [List.append_nil] at hm
            have hwaits := roundRobin_waits tag (m := []) hkeys htag hround.symm hk
            rwa [List.append_nil, hm] at hwaits
        | cons d m =>
            obtain ⟨rfl, -⟩ := List.cons.inj hround
            have hbefore : before ++ c :: m <+: roundRobin rounds (keys.map queue) := by rw [hm]
            exact ih hbefore
      · exact roundRobin_waits tag hkeys htag hround hk

end RoundRobin

end Sana.Lib
