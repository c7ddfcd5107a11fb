import Mathlib.Data.List.Sort
import Mathlib.Order.Lattice
import Sana.Lib.Table

/-!
# Ranked lists

A list that is sorted by a key does not depend on the order it was given in, if the key tells
its elements apart. In a ranked list the place of an element is the number of elements before
it, so what is taken from its front is what has few enough before it.
-/

namespace Sana.Lib

variable {α κ ι : Type*} [LinearOrder κ] {key : α → κ} {l l' : List α} {x : α}

/-- Sort by a key. -/
def rank (key : α → κ) (l : List α) : List α := l.insertionSort fun a b => key a ≤ key b

theorem rank_perm (key : α → κ) (l : List α) : (rank key l).Perm l := List.perm_insertionSort _ _

theorem mem_rank : x ∈ rank key l ↔ x ∈ l := (rank_perm key l).mem_iff

theorem pairwise_rank (key : α → κ) (l : List α) :
    (rank key l).Pairwise fun a b => key a ≤ key b := by
  have htotal : Std.Total fun a b : α => key a ≤ key b := ⟨fun a b => le_total _ _⟩
  have htrans : IsTrans α fun a b => key a ≤ key b := ⟨fun _ _ _ => le_trans⟩
  exact List.pairwise_insertionSort _ _

/-- **A ranked list forgets the order it was given in.** -/
theorem rank_eq_of_perm (h : l.Perm l') (hinj : ∀ a ∈ l, ∀ b ∈ l, key a = key b → a = b) :
    rank key l = rank key l' := by
  have hperm : (rank key l).Perm (rank key l') :=
    ((rank_perm key l).trans h).trans (rank_perm key l').symm
  refine List.Perm.eq_of_pairwise (fun a b ha hb hab hba => ?_)
    (pairwise_rank key l) (pairwise_rank key l') hperm
  have hb' : b ∈ l := h.mem_iff.mpr (mem_rank.mp hb)
  exact hinj a (mem_rank.mp ha) b hb' (le_antisymm hab hba)

/-- Ranking the images is ranking by the keys of the images. -/
theorem rank_map {β : Type*} (key : β → κ) (f : α → β) (l : List α) :
    rank key (l.map f) = (rank (fun a => key (f a)) l).map f :=
  (List.map_insertionSort (fun a b => key (f a) ≤ key (f b)) (fun a b => key a ≤ key b) f l
    fun _ _ _ _ => Iff.rfl).symm

/-- Only the order of the keys matters. -/
theorem rank_congr {κ' : Type*} [LinearOrder κ'] {key' : α → κ'}
    (h : ∀ a ∈ l, ∀ b ∈ l, key a ≤ key b ↔ key' a ≤ key' b) : rank key l = rank key' l := by
  have hmap := List.map_insertionSort (fun a b => key a ≤ key b) (fun a b => key' a ≤ key' b) id l h
  rw [List.map_id, List.map_id] at hmap
  exact hmap

/-- A ranked list is ranked. -/
theorem rank_rank (key : α → κ) (l : List α) : rank key (rank key l) = rank key l :=
  List.Pairwise.insertionSort_eq (pairwise_rank key l)

/-! ## What is computed of every element -/

theorem mapM_cons_eq_some {β : Type*} {f : α → Option β} {r : List β} :
    (x :: l).mapM f = some r ↔ ∃ y s, f x = some y ∧ l.mapM f = some s ∧ r = y :: s := by
  rw [List.mapM_cons]
  cases f x with
  | none => simp
  | some y =>
      cases l.mapM f with
      | none => simp
      | some s => simp [eq_comm]

/-- What was computed was computed of something. -/
theorem mem_mapM {β : Type*} {f : α → Option β} {r : List β} (h : l.mapM f = some r) :
    (∀ a ∈ l, ∃ b ∈ r, f a = some b) ∧ ∀ b ∈ r, ∃ a ∈ l, f a = some b := by
  induction l generalizing r with
  | nil =>
      cases h
      exact ⟨List.forall_mem_nil _, List.forall_mem_nil _⟩
  | cons a l ih =>
      obtain ⟨b, s, hb, hs, rfl⟩ := mapM_cons_eq_some.mp h
      obtain ⟨hto, hfrom⟩ := ih hs
      refine ⟨List.forall_mem_cons.mpr ⟨⟨b, List.mem_cons_self, hb⟩, fun x hx => ?_⟩,
        List.forall_mem_cons.mpr ⟨⟨a, List.mem_cons_self, hb⟩, fun y hy => ?_⟩⟩
      · obtain ⟨y, hy, hxy⟩ := hto x hx
        exact ⟨y, List.mem_cons_of_mem _ hy, hxy⟩
      · obtain ⟨x, hx, hxy⟩ := hfrom y hy
        exact ⟨x, List.mem_cons_of_mem _ hx, hxy⟩

/-- What a partial function makes of a list in another order. -/
theorem mapM_perm {β : Type*} {f : α → Option β} {r : List β} (h : l.Perm l')
    (hr : l.mapM f = some r) : ∃ r', l'.mapM f = some r' ∧ r.Perm r' := by
  induction h generalizing r with
  | nil => exact ⟨r, hr, List.Perm.refl _⟩
  | cons a h ih =>
      obtain ⟨y, s, hy, hs, rfl⟩ := mapM_cons_eq_some.mp hr
      obtain ⟨s', hs', hperm⟩ := ih hs
      exact ⟨y :: s', mapM_cons_eq_some.mpr ⟨y, s', hy, hs', rfl⟩, hperm.cons y⟩
  | swap a c l =>
      obtain ⟨y, t, hy, ht, rfl⟩ := mapM_cons_eq_some.mp hr
      obtain ⟨z, s, hz, hs, rfl⟩ := mapM_cons_eq_some.mp ht
      have hswap : (c :: l).mapM f = some (y :: s) := mapM_cons_eq_some.mpr ⟨y, s, hy, hs, rfl⟩
      exact ⟨z :: y :: s, mapM_cons_eq_some.mpr ⟨z, y :: s, hz, hswap, rfl⟩, List.Perm.swap z y s⟩
  | trans _ _ ih ih' =>
      obtain ⟨s, hs, hperm⟩ := ih hr
      obtain ⟨s', hs', hperm'⟩ := ih' hs
      exact ⟨s', hs', hperm.trans hperm'⟩

/-- So a function of the results that forgets their order forgets the order of the list. -/
theorem map_mapM_perm {β γ : Type*} {f : α → Option β} {g : List β → γ} (h : l.Perm l')
    (hg : ∀ r r', l.mapM f = some r → r.Perm r' → g r' = g r) :
    (l'.mapM f).map g = (l.mapM f).map g := by
  cases hr : l.mapM f with
  | some r =>
      obtain ⟨r', hr', hperm⟩ := mapM_perm h hr
      rw [hr', Option.map_some, Option.map_some, hg r r' hr hperm]
  | none =>
      cases hr' : l'.mapM f with
      | none => rfl
      | some r' =>
          obtain ⟨s, hs, -⟩ := mapM_perm h.symm hr'
          rw [hr] at hs
          cases hs

/-- One element is replaced by another with the same result. -/
theorem mapM_replace {β : Type*} {f : α → Option β} {a a' : α} (h : f a' = f a)
    (before after : List α) :
    (before ++ a' :: after).mapM f = (before ++ a :: after).mapM f := by
  rw [List.mapM_append, List.mapM_append, List.mapM_cons, List.mapM_cons, h]

/-! ## The first of the best -/

section FirstBest

variable {y : α}

/-- The first of the elements with the greatest key. -/
def FirstBest (key : α → κ) (l : List α) (x : α) : Prop :=
  ∃ before after, l = before ++ x :: after ∧ (∀ y ∈ before, key y < key x) ∧
    ∀ y ∈ after, key y ≤ key x

theorem FirstBest.mem (h : FirstBest key l x) : x ∈ l := by
  obtain ⟨before, after, rfl, -, -⟩ := h
  exact List.mem_append_right _ List.mem_cons_self

theorem FirstBest.le (h : FirstBest key l x) (hy : y ∈ l) : key y ≤ key x := by
  obtain ⟨before, after, rfl, hbefore, hafter⟩ := h
  rcases List.mem_append.mp hy with hy | hy
  · exact le_of_lt (hbefore y hy)
  · rcases List.mem_cons.mp hy with rfl | hy
    · exact le_refl _
    · exact hafter y hy

theorem firstBest_singleton : FirstBest key [x] x :=
  ⟨[], [], rfl, (fun _ h => by cases h), (fun _ h => by cases h)⟩

/-- What comes behind and is not better changes nothing. -/
theorem FirstBest.append (h : FirstBest key l x) (hle : ∀ y ∈ l', key y ≤ key x) :
    FirstBest key (l ++ l') x := by
  obtain ⟨before, after, rfl, hbefore, hafter⟩ := h
  refine ⟨before, after ++ l', by simp, hbefore, fun y hy => ?_⟩
  rcases List.mem_append.mp hy with hy | hy
  · exact hafter y hy
  · exact hle y hy

/-- What comes in front and is worse changes nothing. -/
theorem FirstBest.prepend (h : FirstBest key l' x) (hlt : ∀ y ∈ l, key y < key x) :
    FirstBest key (l ++ l') x := by
  obtain ⟨before, after, rfl, hbefore, hafter⟩ := h
  refine ⟨l ++ before, after, by simp, fun y hy => ?_, hafter⟩
  rcases List.mem_append.mp hy with hy | hy
  · exact hlt y hy
  · exact hbefore y hy

/-- One more element replaces the first of the best only if it is better. -/
theorem FirstBest.snoc (h : FirstBest key l x) (y : α) :
    FirstBest key (l ++ [y]) (if key x < key y then y else x) := by
  by_cases hlt : key x < key y
  · rw [if_pos hlt]
    exact firstBest_singleton.prepend fun z hz => lt_of_le_of_lt (h.le hz) hlt
  · rw [if_neg hlt]
    refine h.append fun z hz => ?_
    rw [List.mem_singleton.mp hz]
    exact not_lt.mp hlt

theorem exists_firstBest (h : l ≠ []) : ∃ x, FirstBest key l x := by
  induction l using List.reverseRecOn with
  | nil => exact absurd rfl h
  | append_singleton l a ih =>
      by_cases hl : l = []
      · subst hl
        exact ⟨a, firstBest_singleton⟩
      · obtain ⟨x, hx⟩ := ih hl
        exact ⟨_, hx.snoc a⟩

/-- The first of the best is in the first part, or all of the first part is worse. -/
theorem FirstBest.of_append (h : FirstBest key (l ++ l') x) :
    FirstBest key l x ∨ (∀ y ∈ l, key y < key x) ∧ FirstBest key l' x := by
  obtain ⟨before, after, heq, hbefore, hafter⟩ := h
  rcases List.append_eq_append_iff.mp heq with ⟨m, rfl, rfl⟩ | ⟨m, rfl, hm⟩
  · refine .inr ⟨fun y hy => hbefore y (List.mem_append_left _ hy), m, after, rfl, ?_, hafter⟩
    exact fun y hy => hbefore y (List.mem_append_right _ hy)
  · cases m with
    | nil =>
        refine .inr ⟨fun y hy => hbefore y (by simpa using hy), [], after, ?_, ?_, hafter⟩
        · simpa using hm.symm
        · exact fun y hy => by cases hy
    | cons a m =>
        obtain ⟨rfl, rfl⟩ := List.cons.inj hm
        refine .inl ⟨before, m, rfl, hbefore, fun y hy => ?_⟩
        exact hafter y (List.mem_append_left _ hy)

/-- The first of the best among many lists is the first of the best of one of them. -/
theorem FirstBest.of_flatMap {β : Type*} {f : β → List α} {l : List β}
    (h : FirstBest key (l.flatMap f) x) : ∃ b ∈ l, FirstBest key (f b) x := by
  induction l with
  | nil => cases h.mem
  | cons b l ih =>
      rw [List.flatMap_cons] at h
      rcases h.of_append with hhead | ⟨-, hrest⟩
      · exact ⟨b, List.mem_cons_self, hhead⟩
      · obtain ⟨c, hc, hfirst⟩ := ih hrest
        exact ⟨c, List.mem_cons_of_mem _ hc, hfirst⟩

theorem FirstBest.unique (h : FirstBest key l x) (h' : FirstBest key l y) : x = y := by
  obtain ⟨before, after, rfl, hbefore, hafter⟩ := h
  rcases h'.of_append with hy | ⟨-, hy⟩
  · have hle := h'.le (List.mem_append_right before (List.mem_cons_self (a := x) (l := after)))
    exact absurd (hbefore y hy.mem) (not_lt.mpr hle)
  · rw [← List.singleton_append] at hy
    rcases hy.of_append with hy | ⟨hworse, hy⟩
    · exact (List.mem_singleton.mp hy.mem).symm
    · exact absurd (hworse x List.mem_cons_self) (not_lt.mpr (hafter y hy.mem))

end FirstBest

/-! ## The front of a ranked list -/

/-- **What is taken from the front has few elements before it.** -/
theorem mem_take_iff (hl : l.Pairwise fun a b => key a < key b) (n : Nat) :
    x ∈ l.take n ↔ x ∈ l ∧ (l.countP fun y => decide (key y < key x)) < n := by
  induction l generalizing n with
  | nil => simp
  | cons a l ih =>
      rw [List.pairwise_cons] at hl
      cases n with
      | zero => simp
      | succ n =>
          rw [List.take_succ_cons, List.mem_cons, List.mem_cons, List.countP_cons]
          by_cases hx : x = a
          · subst hx
            have hnone : l.countP (fun y => decide (key y < key x)) = 0 := by
              rw [List.countP_eq_zero]
              intro y hy
              simpa using le_of_lt (hl.1 y hy)
            simp [hnone]
          · have hbefore : ∀ hmem : x ∈ l, decide (key a < key x) = true :=
              fun hmem => decide_eq_true (hl.1 x hmem)
            rw [ih hl.2]
            constructor
            · rintro (h | ⟨hmem, hlt⟩)
              · exact absurd h hx
              · exact ⟨.inr hmem, by rw [if_pos (hbefore hmem)]; omega⟩
            · rintro ⟨h | hmem, hlt⟩
              · exact absurd h hx
              · rw [if_pos (hbefore hmem)] at hlt
                exact .inr ⟨hmem, by omega⟩

variable [DecidableEq ι] {cls : α → ι}

omit [LinearOrder κ] in
theorem distinctBy_sublist (cls : α → ι) (l : List α) : (distinctBy cls l).Sublist l := by
  induction l with
  | nil => exact List.Sublist.refl _
  | cons a l ih => exact (List.filter_sublist.trans ih).cons_cons a

omit [LinearOrder κ] in
/-- Leaving out whole classes. -/
theorem distinctBy_filter (cls : α → ι) (p : ι → Bool) (l : List α) :
    distinctBy cls (l.filter fun a => p (cls a)) = (distinctBy cls l).filter fun a => p (cls a) := by
  induction l with
  | nil => rfl
  | cons a l ih =>
      rw [distinctBy, List.filter_cons, List.filter_cons]
      split
      · rw [distinctBy, ih, List.filter_filter, List.filter_filter]
        simp only [Bool.and_comm]
      · rename_i ha
        rw [ih, List.filter_filter]
        refine List.filter_congr fun b _ => ?_
        by_cases hb : cls b = cls a
        · simp [hb, ha]
        · simp [hb]

omit [LinearOrder κ] in
/-- One more element is the first of its class or is not there. -/
theorem distinctBy_concat (cls : α → ι) (l : List α) (a : α) :
    distinctBy cls (l ++ [a])
      = if cls a ∈ l.map cls then distinctBy cls l else distinctBy cls l ++ [a] := by
  induction l with
  | nil => rfl
  | cons b l ih =>
      rw [List.cons_append, distinctBy, ih, distinctBy, List.map_cons]
      by_cases hb : cls a = cls b
      · have hin : cls a ∈ cls b :: l.map cls := by rw [hb]; exact List.mem_cons_self
        rw [if_pos hin]
        split
        · rfl
        · rw [List.filter_append]
          simp [hb]
      · have hmem : cls a ∈ cls b :: l.map cls ↔ cls a ∈ l.map cls := by simp [hb]
        by_cases h : cls a ∈ l.map cls
        · rw [if_pos h, if_pos (hmem.mpr h)]
        · rw [if_neg h, if_neg (hmem.not.mpr h), List.filter_append]
          simp [hb]

omit [LinearOrder κ] in
theorem length_distinctBy (cls : α → ι) (l : List α) :
    (distinctBy cls l).length = (l.map cls).toFinset.card := by
  induction l using List.reverseRecOn with
  | nil => rfl
  | append_singleton l a ih =>
      rw [distinctBy_concat, List.map_append, List.map_singleton]
      split
      · rename_i h
        have hsame : (l.map cls ++ [cls a]).toFinset = (l.map cls).toFinset := by
          ext k
          simp only [List.mem_toFinset, List.mem_append, List.mem_singleton]
          exact ⟨fun hk => hk.elim id fun hk => hk ▸ h, .inl⟩
        rw [hsame, ih]
      · rename_i h
        have hinsert : (l.map cls ++ [cls a]).toFinset = insert (cls a) (l.map cls).toFinset := by
          ext k
          simp only [List.mem_toFinset, List.mem_append, List.mem_singleton, Finset.mem_insert]
          exact or_comm
        rw [hinsert, Finset.card_insert_of_notMem (by rwa [List.mem_toFinset]), ← ih,
          List.length_append, List.length_singleton]

omit [LinearOrder κ] in
/-- **The first ones of the first classes**: none of the class is before them, and few classes are. -/
theorem mem_take_distinctBy_iff (cls : α → ι) (l : List α) (n : Nat) :
    x ∈ (distinctBy cls l).take n ↔ ∃ before after, l = before ++ x :: after ∧
      cls x ∉ before.map cls ∧ (before.map cls).toFinset.card < n := by
  induction l using List.reverseRecOn with
  | nil => simp [distinctBy]
  | append_singleton l a ih =>
      -- whoever is before the last element was already there without it
      have hextend : (∃ before after, l ++ [a] = before ++ x :: after ∧ cls x ∉ before.map cls ∧
          (before.map cls).toFinset.card < n) ↔
          x ∈ (distinctBy cls l).take n ∨
            x = a ∧ cls a ∉ l.map cls ∧ (l.map cls).toFinset.card < n := by
        rw [ih]
        constructor
        · rintro ⟨before, after, heq, hnew, hcard⟩
          rcases List.eq_nil_or_concat after with rfl | ⟨after, b, rfl⟩
          · obtain ⟨rfl, hax⟩ := List.append_inj' heq rfl
            obtain rfl : a = x := List.cons.inj hax |>.1
            exact .inr ⟨rfl, hnew, hcard⟩
          · rw [List.concat_eq_append, ← List.cons_append, ← List.append_assoc] at heq
            obtain ⟨rfl, -⟩ := List.append_inj' heq rfl
            exact .inl ⟨before, after, rfl, hnew, hcard⟩
        · rintro (⟨before, after, rfl, hnew, hcard⟩ | ⟨rfl, hnew, hcard⟩)
          · exact ⟨before, after ++ [a], by simp, hnew, hcard⟩
          · exact ⟨l, [], rfl, hnew, hcard⟩
      rw [hextend, distinctBy_concat]
      split
      · rename_i h
        exact ⟨.inl, fun hx => hx.elim id fun hx => absurd h hx.2.1⟩
      · rename_i h
        rw [List.take_append, List.mem_append, length_distinctBy]
        refine or_congr_right ?_
        by_cases hn : (l.map cls).toFinset.card < n
        · rw [List.take_of_length_le (by rw [List.length_singleton]; omega), List.mem_singleton]
          exact ⟨fun hx => ⟨hx, h, hn⟩, fun hx => hx.1⟩
        · rw [Nat.sub_eq_zero_of_le (by omega), List.take_zero]
          exact ⟨fun hx => (by cases hx), fun hx => absurd hx.2.2 hn⟩

/-- The first of a class in a ranked list is the least of its class. -/
theorem le_of_mem_distinctBy (hl : l.Pairwise fun a b => key a ≤ key b) (hx : x ∈ distinctBy cls l)
    {y : α} (hy : y ∈ l) (h : cls y = cls x) : key x ≤ key y := by
  induction l with
  | nil => cases hy
  | cons a l ih =>
      rw [List.pairwise_cons] at hl
      rcases List.mem_cons.mp hx with rfl | hx
      · rcases List.mem_cons.mp hy with rfl | hy
        · exact le_refl _
        · exact hl.1 y hy
      · obtain ⟨hx, hne⟩ := List.mem_filter.mp hx
        rcases List.mem_cons.mp hy with rfl | hy
        · exact absurd h.symm (of_decide_eq_true hne)
        · exact ih hl.2 hx hy

/-! ## Counting common elements -/

/-- Two lists without repetition have as many elements in common either way. -/
theorem countP_mem_comm {α : Type*} [DecidableEq α] {l l' : List α} (h : l.Nodup) (h' : l'.Nodup) :
    (l.countP fun x => decide (x ∈ l')) = l'.countP fun x => decide (x ∈ l) := by
  rw [List.countP_eq_length_filter, List.countP_eq_length_filter]
  refine List.Perm.length_eq ?_
  refine (List.perm_ext_iff_of_nodup (h.filter _) (h'.filter _)).mpr fun x => ?_
  simp only [List.mem_filter, decide_eq_true_eq]
  exact and_comm

end Sana.Lib
