import Mathlib.Data.List.Nodup
import Mathlib.Algebra.BigOperators.Group.List.Basic
import Mathlib.Tactic

/-!
# Tables keyed by an identifier

A table is a list of rows and `key` reads a row's primary key. `update k f` is
the SQL statement `UPDATE ... WHERE key = k`: it rewrites the rows with that key
and leaves the rest, in place. With distinct keys it rewrites one row, which is
what the lemmas on membership, on uniqueness and on sums over a column use.
-/

namespace Sana.Lib

universe u v

variable {α : Type u} {κ : Type v} {key : α → κ}
variable {k : κ} {f : α → α} {l : List α} {r x : α}

/-- Two rows of a table with distinct keys and the same key are one row. -/
theorem eq_of_key_eq (hnd : (l.map key).Nodup) (hr : r ∈ l) (hx : x ∈ l)
    (h : key r = key x) : r = x :=
  List.inj_on_of_nodup_map hnd hr hx h

variable [DecidableEq κ]

/-- Rewrite the rows whose key is `k`. -/
def update (key : α → κ) (k : κ) (f : α → α) (l : List α) : List α :=
  l.map fun r => if key r = k then f r else r

/-- A row of the updated table is a rewritten row or one the statement did not match. -/
theorem mem_update :
    x ∈ update key k f l ↔ (∃ r ∈ l, key r = k ∧ f r = x) ∨ (x ∈ l ∧ key x ≠ k) := by
  simp only [update, List.mem_map]
  constructor
  · rintro ⟨r, hr, rfl⟩
    by_cases h : key r = k
    · exact .inl ⟨r, hr, h, by simp [h]⟩
    · rw [if_neg h]
      exact .inr ⟨hr, h⟩
  · rintro (⟨r, hr, hk, rfl⟩ | ⟨hx, hk⟩)
    · exact ⟨r, hr, by simp [hk]⟩
    · exact ⟨x, hx, by simp [hk]⟩

/-- Rows with another key stay. -/
theorem mem_update_of_ne (hx : x ∈ l) (hk : key x ≠ k) : x ∈ update key k f l :=
  mem_update.mpr (.inr ⟨hx, hk⟩)

theorem mem_update_self (hr : r ∈ l) (hk : key r = k) : f r ∈ update key k f l :=
  mem_update.mpr (.inl ⟨r, hr, hk, rfl⟩)

/-- A column the statement does not write reads the same in the whole table. -/
theorem map_update_of_eq {β : Type*} {g : α → β} (hf : ∀ r ∈ l, key r = k → g (f r) = g r) :
    (update key k f l).map g = l.map g := by
  simp only [update, List.map_map]
  refine List.map_congr_left fun r hr => ?_
  by_cases h : key r = k
  · simp [h, hf r hr h]
  · simp [h]

/-- With distinct keys, an update of an existing row's key rewrites that row only. -/
theorem mem_update_iff (hnd : (l.map key).Nodup) (hr : r ∈ l) :
    x ∈ update key (key r) f l ↔ x = f r ∨ (x ∈ l ∧ key x ≠ key r) := by
  rw [mem_update]
  constructor
  · rintro (⟨y, hy, hk, rfl⟩ | h)
    · exact .inl (by rw [eq_of_key_eq hnd hy hr hk])
    · exact .inr h
  · rintro (rfl | h)
    · exact .inl ⟨r, hr, rfl, rfl⟩
    · exact .inr h

/-- With distinct keys, only what the statement does to the one matching row matters. -/
theorem update_eq_const (hnd : (l.map key).Nodup) (hr : r ∈ l) :
    update key (key r) f l = update key (key r) (fun _ => f r) l := by
  refine List.map_congr_left fun x hx => ?_
  by_cases h : key x = key r
  · simp [eq_of_key_eq hnd hx hr h]
  · simp [h]

/-- Writing a row back unchanged changes nothing. -/
theorem update_self (hnd : (l.map key).Nodup) (hr : r ∈ l) :
    update key (key r) (fun _ => r) l = l := by
  conv_rhs => rw [← List.map_id l]
  refine List.map_congr_left fun x hx => ?_
  by_cases h : key x = key r
  · simp [eq_of_key_eq hnd hx hr h]
  · simp [h]

/-- A statement that matches no row changes nothing. -/
theorem update_of_forall_ne (h : ∀ x ∈ l, key x ≠ k) : update key k f l = l := by
  conv_rhs => rw [← List.map_id l]
  refine List.map_congr_left fun x hx => ?_
  simp [h x hx]

/-- A selection the statement does not move rows in or out of. -/
theorem filter_update {p : α → Bool} (hp : ∀ r ∈ l, key r = k → p (f r) = p r) :
    (update key k f l).filter p = update key k f (l.filter p) := by
  induction l with
  | nil => rfl
  | cons a l ih =>
      have hcons : ∀ l : List α, update key k f (a :: l)
          = (if key a = k then f a else a) :: update key k f l := fun _ => rfl
      have ih := ih fun r hr => hp r (List.mem_cons_of_mem _ hr)
      have ha : p (if key a = k then f a else a) = p a := by
        split_ifs with h
        · exact hp a List.mem_cons_self h
        · rfl
      rw [hcons, List.filter_cons, List.filter_cons, ha, ih]
      cases p a with
      | true => exact (hcons _).symm
      | false => rfl

/--
**Sums over a column move by the difference on the rewritten row.** This is how
an incrementally maintained counter is compared with a recomputed one.
-/
theorem sum_update {M : Type*} [AddCommGroup M] {g : α → M} (hnd : (l.map key).Nodup)
    (hr : r ∈ l) :
    ((update key (key r) f l).map g).sum = (l.map g).sum + (g (f r) - g r) := by
  induction l with
  | nil => simp at hr
  | cons a l ih =>
      simp only [List.map_cons, List.nodup_cons] at hnd
      have hcons : update key (key r) f (a :: l)
          = (if key a = key r then f a else a) :: update key (key r) f l := rfl
      rw [hcons]
      simp only [List.map_cons, List.sum_cons]
      rcases List.mem_cons.mp hr with rfl | hr'
      · -- the first row is the one rewritten; the rest has other keys
        have hrest : update key (key r) f l = l := by
          refine update_of_forall_ne fun y hy h => ?_
          exact hnd.1 (h ▸ List.mem_map_of_mem hy)
        rw [hrest, if_pos rfl]
        abel
      · have hne : key a ≠ key r := fun h => hnd.1 (h ▸ List.mem_map_of_mem hr')
        rw [if_neg hne, ih hnd.2 hr']
        abel

/-- Rewriting a row that counts afterwards only if it counted before. -/
theorem countP_update_le {p q : α → Bool} (hf : ∀ x ∈ l, key x = k → p (f x) = true → q x = true)
    (hpq : ∀ x ∈ l, key x ≠ k → p x = true → q x = true) :
    (update key k f l).countP p ≤ l.countP q := by
  rw [update, List.countP_map]
  refine List.countP_mono_left fun x hx hp => ?_
  rw [Function.comp_apply] at hp
  by_cases hk : key x = k
  · rw [if_pos hk] at hp
    exact hf x hx hk hp
  · rw [if_neg hk] at hp
    exact hpq x hx hk hp

/-- Rewriting one row adds at most that row to a count. -/
theorem countP_update_le_succ {p q : α → Bool} (hnd : (l.map key).Nodup)
    (hpq : ∀ x ∈ l, key x ≠ k → p x = true → q x = true) :
    (update key k f l).countP p ≤ l.countP q + 1 := by
  induction l with
  | nil => simp [update]
  | cons a l ih =>
      simp only [List.map_cons, List.nodup_cons] at hnd
      have hcons : update key k f (a :: l) = (if key a = k then f a else a) :: update key k f l := rfl
      have htail : ∀ x ∈ l, key x ≠ k → p x = true → q x = true :=
        fun x hx => hpq x (List.mem_cons_of_mem _ hx)
      rw [hcons, List.countP_cons, List.countP_cons]
      by_cases hk : key a = k
      · -- the other rows have other keys
        have hrest : update key k f l = l :=
          update_of_forall_ne fun y hy h => hnd.1 (hk ▸ h ▸ List.mem_map_of_mem hy)
        have hle : l.countP p ≤ l.countP q :=
          List.countP_mono_left fun x hx =>
            htail x hx fun h => hnd.1 (hk ▸ h ▸ List.mem_map_of_mem hx)
        rw [hrest]
        split_ifs <;> omega
      · have := ih hnd.2 htail
        rw [if_neg hk]
        by_cases hp : p a = true
        · rw [if_pos hp, if_pos (hpq a List.mem_cons_self hk hp)]
          omega
        · rw [if_neg hp]
          omega

omit [DecidableEq κ] in
/-- Rewriting rows without changing which of them are selected. -/
theorem filter_map_of_eq {p : α → Bool} {g : α → α} (hp : ∀ x ∈ l, p (g x) = p x) :
    (l.map g).filter p = (l.filter p).map g := by
  rw [List.filter_map]
  congr 1
  exact List.filter_congr hp

/-- A row that is selected only once it is rewritten adds what it then counts for. -/
theorem sum_filter_update {p : α → Bool} {g : α → Nat} (hnd : (l.map key).Nodup) (hr : r ∈ l)
    (hp : p r = false) (hp' : p (f r) = true) :
    (((update key (key r) f l).filter p).map g).sum = ((l.filter p).map g).sum + g (f r) := by
  induction l with
  | nil => simp at hr
  | cons a l ih =>
      simp only [List.map_cons, List.nodup_cons] at hnd
      have hcons : update key (key r) f (a :: l)
          = (if key a = key r then f a else a) :: update key (key r) f l := rfl
      rw [hcons]
      rcases List.mem_cons.mp hr with rfl | hr'
      · -- the first row is the one rewritten; the rest has other keys
        have hrest : update key (key r) f l = l := by
          refine update_of_forall_ne fun y hy h => ?_
          exact hnd.1 (h ▸ List.mem_map_of_mem hy)
        rw [hrest, if_pos rfl, List.filter_cons_of_pos hp', List.map_cons, List.sum_cons,
          List.filter_cons_of_neg (by simp [hp])]
        omega
      · have hne : key a ≠ key r := fun h => hnd.1 (h ▸ List.mem_map_of_mem hr')
        rw [if_neg hne]
        by_cases ha : p a = true
        · rw [List.filter_cons_of_pos ha, List.filter_cons_of_pos ha, List.map_cons, List.map_cons,
            List.sum_cons, List.sum_cons, ih hnd.2 hr']
          omega
        · rw [List.filter_cons_of_neg ha, List.filter_cons_of_neg ha, ih hnd.2 hr']

/-- The row with key `k`, if there is one. -/
def lookup (key : α → κ) (k : κ) (l : List α) : Option α :=
  l.find? fun r => decide (key r = k)

theorem lookup_eq_some (h : lookup key k l = some r) : r ∈ l ∧ key r = k := by
  unfold lookup at h
  exact ⟨List.mem_of_find?_eq_some h, by simpa using List.find?_some h⟩

theorem lookup_eq_none : lookup key k l = none ↔ ∀ r ∈ l, key r ≠ k := by
  simp [lookup, List.find?_eq_none]

/-- With distinct keys a lookup finds the row it is asked for. -/
theorem lookup_of_mem (hnd : (l.map key).Nodup) (hr : r ∈ l) :
    lookup key (key r) l = some r := by
  cases h : lookup key (key r) l with
  | none => exact absurd rfl (lookup_eq_none.mp h r hr)
  | some x =>
      obtain ⟨hx, hk⟩ := lookup_eq_some h
      rw [eq_of_key_eq hnd hx hr hk]

/-- The first row of every key, in order: a dictionary filled with `setdefault`. -/
def distinctBy (key : α → κ) : List α → List α
  | [] => []
  | a :: l => a :: (distinctBy key l).filter fun b => decide (key b ≠ key a)

theorem mem_of_mem_distinctBy {l : List α} (h : x ∈ distinctBy key l) : x ∈ l := by
  induction l with
  | nil => simp [distinctBy] at h
  | cons a l ih =>
      rcases List.mem_cons.mp h with rfl | h
      · exact List.mem_cons_self
      · exact List.mem_cons_of_mem _ (ih (List.mem_of_mem_filter h))

/-- No key is lost. -/
theorem exists_mem_distinctBy (key : α → κ) {l : List α} (h : x ∈ l) :
    ∃ y ∈ distinctBy key l, key y = key x := by
  induction l with
  | nil => simp at h
  | cons a l ih =>
      by_cases hk : key x = key a
      · exact ⟨a, List.mem_cons_self, hk.symm⟩
      · have hx : x ∈ l := by
          rcases List.mem_cons.mp h with rfl | h
          · exact absurd rfl hk
          · exact h
        obtain ⟨y, hy, hyx⟩ := ih hx
        exact ⟨y, List.mem_cons_of_mem _ (List.mem_filter.mpr ⟨hy, by simpa [hyx] using hk⟩), hyx⟩

/-- The keys are distinct. -/
theorem nodup_distinctBy (l : List α) : ((distinctBy key l).map key).Nodup := by
  induction l with
  | nil => simp [distinctBy]
  | cons a l ih =>
      rw [distinctBy, List.map_cons, List.nodup_cons]
      refine ⟨?_, ih.sublist (List.filter_sublist.map key)⟩
      intro hmem
      obtain ⟨b, hb, hk⟩ := List.mem_map.mp hmem
      have := (List.mem_filter.mp hb).2
      simp [hk] at this

/-- Where a key determines the row, the rows are the same. -/
theorem mem_distinctBy {l : List α} (hkey : ∀ a ∈ l, ∀ b ∈ l, key a = key b → a = b) :
    x ∈ distinctBy key l ↔ x ∈ l := by
  constructor
  · exact mem_of_mem_distinctBy
  · intro hx
    obtain ⟨y, hy, hyx⟩ := exists_mem_distinctBy key hx
    rw [← hkey y (mem_of_mem_distinctBy hy) x hx hyx]
    exact hy

omit [DecidableEq κ] in
/-- Of two lists computed row by row, each row has its counterpart. -/
theorem exists_left_of_forall₂ {β : Type*} {R : α → β → Prop} {l : List α} {m : List β}
    (h : List.Forall₂ R l m) {y : β} (hy : y ∈ m) : ∃ x ∈ l, R x y := by
  induction h with
  | nil => simp at hy
  | cons hxy _ ih =>
      rcases List.mem_cons.mp hy with rfl | hy
      · exact ⟨_, List.mem_cons_self, hxy⟩
      · obtain ⟨x, hx, hr⟩ := ih hy
        exact ⟨x, List.mem_cons_of_mem _ hx, hr⟩

omit [DecidableEq κ] in
theorem exists_right_of_forall₂ {β : Type*} {R : α → β → Prop} {l : List α} {m : List β}
    (h : List.Forall₂ R l m) {x : α} (hx : x ∈ l) : ∃ y ∈ m, R x y :=
  exists_left_of_forall₂ h.flip hx

/-- A dictionary written entry by entry: a key keeps its place and gets its last value. -/
def dictOf {ν : Type*} (l : List (κ × ν)) : List (κ × ν) :=
  l.foldl (fun d p => if d.any (·.1 = p.1) then update (·.1) p.1 (fun _ => p) d else d ++ [p]) []

omit [DecidableEq κ] in
/-- A table with distinct keys has distinct rows. -/
theorem nodup_of_keys (hnd : (l.map key).Nodup) : l.Nodup := List.Nodup.of_map key hnd

omit [DecidableEq κ] in
/-- Distinct values are of distinct rows. -/
theorem eq_of_filterMap_nodup {β : Type*} {g : α → Option β} (hnd : (l.filterMap g).Nodup)
    (hr : r ∈ l) (hx : x ∈ l) {b : β} (hgr : g r = some b) (hgx : g x = some b) : x = r := by
  induction l with
  | nil => simp at hr
  | cons a l ih =>
      have hmem : ∀ y ∈ l, g y = some b → b ∈ l.filterMap g :=
        fun y hy hgy => List.mem_filterMap.mpr ⟨y, hy, hgy⟩
      rcases List.mem_cons.mp hr with rfl | hr' <;> rcases List.mem_cons.mp hx with rfl | hx'
      · rfl
      · rw [List.filterMap_cons_some hgr, List.nodup_cons] at hnd
        exact absurd (hmem x hx' hgx) hnd.1
      · rw [List.filterMap_cons_some hgx, List.nodup_cons] at hnd
        exact absurd (hmem r hr' hgr) hnd.1
      · refine ih ?_ hr' hx'
        cases hga : g a with
        | none => rwa [List.filterMap_cons_none hga] at hnd
        | some c =>
            rw [List.filterMap_cons_some hga, List.nodup_cons] at hnd
            exact hnd.2

omit [DecidableEq κ] in
/-- Where only one row is selected, the selection is that row. -/
theorem filter_eq_singleton {p : α → Bool} (hnd : (l.map key).Nodup) (hr : r ∈ l)
    (hp : p r = true) (h : ∀ x ∈ l, p x = true → x = r) : l.filter p = [r] := by
  induction l with
  | nil => simp at hr
  | cons a l ih =>
      rw [List.map_cons, List.nodup_cons] at hnd
      by_cases ha : a = r
      · subst ha
        have hrest : l.filter p = [] := by
          rw [List.filter_eq_nil_iff]
          intro x hx hpx
          have hxa := h x (List.mem_cons_of_mem _ hx) hpx
          subst hxa
          exact hnd.1 (List.mem_map_of_mem hx)
        rw [List.filter_cons_of_pos hp, hrest]
      · have hpa : ¬ p a = true := fun hpa => ha (h a List.mem_cons_self hpa)
        have hmem : r ∈ l := (List.mem_cons.mp hr).resolve_left fun h => ha h.symm
        rw [List.filter_cons_of_neg hpa]
        exact ih hnd.2 hmem fun x hx => h x (List.mem_cons_of_mem _ hx)

/-- Where only one row yields a value, the values are that row's. -/
theorem filterMap_of_unique {β : Type*} {g : α → Option β} {l : List α} {v : α} (hnd : l.Nodup)
    (hv : v ∈ l) (h : ∀ x ∈ l, x ≠ v → g x = none) : l.filterMap g = (g v).toList := by
  induction l with
  | nil => simp at hv
  | cons a l ih =>
      rw [List.nodup_cons] at hnd
      rcases List.mem_cons.mp hv with rfl | hv'
      · -- the rest of the list yields nothing
        have hrest : l.filterMap g = [] := by
          rw [List.filterMap_eq_nil_iff]
          intro x hx
          exact h x (List.mem_cons_of_mem _ hx) (fun e => hnd.1 (e ▸ hx))
        cases hg : g v <;> simp [hg, hrest]
      · have hne : a ≠ v := fun e => hnd.1 (e ▸ hv')
        have hnone : g a = none := h a List.mem_cons_self hne
        rw [List.filterMap_cons_none hnone]
        exact ih hnd.2 hv' fun x hx => h x (List.mem_cons_of_mem _ hx)

/-! ## The largest number -/

/-- The largest of a list of numbers, with one more number behind them. -/
theorem foldr_max_append (l : List Nat) (n : Nat) :
    (l ++ [n]).foldr max 0 = max (l.foldr max 0) n := by
  induction l with
  | nil => simp
  | cons a l ih =>
      rw [List.cons_append, List.foldr_cons, ih, List.foldr_cons]
      omega

/-- The largest of `1, …, n`. -/
theorem foldr_max_range' (n : Nat) : (List.range' 1 n).foldr max 0 = n := by
  induction n with
  | zero => rfl
  | succ n ih =>
      rw [List.range'_concat, foldr_max_append, ih]
      omega

/-! ## Numbered lists -/

section Numbered

variable {α : Type u} {l : List α} {num : α → Nat}

theorem getElem?_numbered (h : l.map num = List.range' 1 l.length) {i : Nat} {x : α}
    (hx : l[i]? = some x) : num x = i + 1 := by
  have hmap : (l.map num)[i]? = some (num x) := by rw [List.getElem?_map, hx]; rfl
  obtain ⟨hi, -⟩ := List.getElem?_eq_some_iff.mp hx
  rw [h, List.getElem?_range' hi] at hmap
  have hnum := Option.some.inj hmap
  omega

theorem getElem?_of_numbered (h : l.map num = List.range' 1 l.length) {x : α} (hx : x ∈ l) :
    l[num x - 1]? = some x ∧ 1 ≤ num x := by
  obtain ⟨i, hi⟩ := List.mem_iff_getElem?.mp hx
  have hnum := getElem?_numbered h hi
  rw [hnum, Nat.add_sub_cancel]
  exact ⟨hi, by omega⟩

/-- What is past a number is what is left after dropping that many. -/
theorem filter_lt_numbered (h : l.map num = List.range' 1 l.length) (c : Nat) :
    l.filter (c < num ·) = l.drop c := by
  have hsplit : l.filter (c < num ·)
      = (l.take c).filter (c < num ·) ++ (l.drop c).filter (c < num ·) := by
    rw [← List.filter_append, List.take_append_drop]
  have hlow : (l.take c).filter (c < num ·) = [] := by
    rw [List.filter_eq_nil_iff]
    intro x hx
    obtain ⟨i, hi⟩ := List.mem_iff_getElem?.mp hx
    rw [List.getElem?_take] at hi
    split at hi
    · have := getElem?_numbered h hi
      simp only [decide_eq_true_eq]
      omega
    · cases hi
  have hhigh : (l.drop c).filter (c < num ·) = l.drop c := by
    rw [List.filter_eq_self]
    intro x hx
    obtain ⟨i, hi⟩ := List.mem_iff_getElem?.mp hx
    rw [List.getElem?_drop] at hi
    have := getElem?_numbered h hi
    simp only [decide_eq_true_eq]
    omega
  rw [hsplit, hlow, hhigh, List.nil_append]

theorem map_drop_numbered (h : l.map num = List.range' 1 l.length) (c k : Nat) :
    ((l.drop c).take k).map num = List.range' (c + 1) ((l.drop c).take k).length := by
  rw [List.map_take, List.map_drop, h]
  apply List.ext_getElem?
  intro i
  rw [List.getElem?_take, List.getElem?_drop]
  simp only [List.length_take, List.length_drop]
  by_cases hi : i < k ∧ c + i < l.length
  · rw [if_pos hi.1, List.getElem?_range' hi.2, List.getElem?_range' (by omega)]
    congr 1
    omega
  · rw [List.getElem?_eq_none (l := List.range' (c + 1) _) (by simp; omega)]
    split
    · exact List.getElem?_eq_none (by simp; omega)
    · rfl

end Numbered

/-! ## Rows that are left alone -/

section Untouched

variable {α : Type*} {p q : α → Prop} {l l' : List α}

/-- Of the rows that meet a condition, none is written and none is added. -/
def Untouched (p : α → Prop) (l l' : List α) : Prop :=
  ∃ f new, l' = l.map f ++ new ∧ (∀ x ∈ l, p x → f x = x) ∧ (∀ x ∈ l, ¬ p x → ¬ p (f x)) ∧
    ∀ x ∈ new, ¬ p x

namespace Untouched

theorem of_eq (h : l' = l) : Untouched p l l' :=
  ⟨id, [], by simp [h], fun _ _ _ => rfl, fun _ _ hx => hx, by simp⟩

theorem of_append {new : List α} (h : l' = l ++ new) (hnew : ∀ x ∈ new, ¬ p x) :
    Untouched p l l' :=
  ⟨id, new, by simp [h], fun _ _ _ => rfl, fun _ _ hx => hx, hnew⟩

/-- The one row that is written does not meet the condition, before or after. -/
theorem of_update_append {κ : Type*} [DecidableEq κ] {key : α → κ} {r r' : α} {new : List α}
    (hnd : (l.map key).Nodup) (hr : r ∈ l)
    (h : l' = update key (key r) (fun _ => r') l ++ new) (hp : ¬ p r) (hp' : ¬ p r')
    (hnew : ∀ x ∈ new, ¬ p x) : Untouched p l l' := by
  refine ⟨fun x => if key x = key r then r' else x, new, h, ?_, ?_, hnew⟩
  · intro x hx hpx
    refine if_neg fun hk => hp ?_
    rw [← eq_of_key_eq hnd hx hr hk]
    exact hpx
  · intro x _ hpx
    dsimp only
    split
    · exact hp'
    · exact hpx

theorem of_update {κ : Type*} [DecidableEq κ] {key : α → κ} {r r' : α} (hnd : (l.map key).Nodup)
    (hr : r ∈ l) (h : l' = update key (key r) (fun _ => r') l) (hp : ¬ p r) (hp' : ¬ p r') :
    Untouched p l l' :=
  of_update_append hnd hr (by rw [h, List.append_nil]) hp hp' (by simp)

/-- Fewer rows are left alone as well. -/
theorem mono (h : Untouched p l l') (hq : ∀ x, q x → p x) : Untouched q l l' := by
  obtain ⟨f, new, heq, hfix, hout, hnew⟩ := h
  refine ⟨f, new, heq, fun x hx hqx => hfix x hx (hq x hqx), ?_, fun x hx => mt (hq x) (hnew x hx)⟩
  intro x hx hqx
  by_cases hp : p x
  · rw [hfix x hx hp]
    exact hqx
  · exact mt (hq _) (hout x hx hp)

/-- What is selected among the rows that meet the condition stays the same. -/
theorem filter_eq (h : Untouched p l l') {s : α → Bool} (hs : ∀ x, s x = true → p x) :
    l'.filter s = l.filter s := by
  obtain ⟨f, new, rfl, hfix, hout, hnew⟩ := h
  have hnil : new.filter s = [] :=
    List.filter_eq_nil_iff.mpr fun x hx hsx => hnew x hx (hs x hsx)
  have hsel : ∀ x ∈ l, s (f x) = s x := by
    intro x hx
    by_cases hp : p x
    · rw [hfix x hx hp]
    · rw [Bool.eq_false_iff.mpr fun hsx => hout x hx hp (hs _ hsx),
        Bool.eq_false_iff.mpr fun hsx => hp (hs _ hsx)]
  rw [List.filter_append, hnil, List.append_nil, filter_map_of_eq hsel]
  conv_rhs => rw [← List.map_id (l.filter s)]
  refine List.map_congr_left fun x hx => ?_
  obtain ⟨hmem, hsx⟩ := List.mem_filter.mp hx
  exact hfix x hmem (hs x hsx)

/-- A row that meets the condition is still found. -/
theorem lookup_eq {κ : Type*} [DecidableEq κ] {key : α → κ} {k : κ} (h : Untouched p l l')
    (hk : ∀ x, key x = k → p x) : lookup key k l' = lookup key k l := by
  unfold lookup
  rw [← List.head?_filter, ← List.head?_filter, h.filter_eq]
  intro x hx
  exact hk x (of_decide_eq_true hx)

end Untouched

end Untouched

/-! ## Batches -/

section Batch

variable {α : Type*} {r : α → α → Prop} {l : List α} {x : α}

/-- The first rows of a sorted list hold a row, or they are full of rows that come before it. -/
theorem mem_take_or_full (hsort : l.Pairwise r) (hx : x ∈ l) (n : Nat) :
    x ∈ l.take n ∨ ((l.take n).length = n ∧ ∀ y ∈ l.take n, r y x) := by
  induction l generalizing n with
  | nil => cases hx
  | cons a rest ih =>
      obtain ⟨hfirst, hrest⟩ := List.pairwise_cons.mp hsort
      cases n with
      | zero => exact .inr ⟨rfl, by simp⟩
      | succ n =>
          rw [List.take_succ_cons, List.mem_cons]
          rcases List.mem_cons.mp hx with rfl | hin
          · exact .inl (.inl rfl)
          · rcases ih hrest hin n with htake | ⟨hfull, hbefore⟩
            · exact .inl (.inr htake)
            · refine .inr ⟨by rw [List.length_cons, hfull], ?_⟩
              intro y hy
              rcases List.mem_cons.mp hy with rfl | hy
              · exact hfirst x hin
              · exact hbefore y hy

end Batch

end Sana.Lib
