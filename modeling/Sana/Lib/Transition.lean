import Mathlib.Logic.Relation

/-!
# Transition systems and fallible transactions

Nothing here knows what the states are. A system is a set of initial states and a
step relation; the rules below are the only inductions over runs the development
performs. The second half is about `Except`: a transaction that raises leaves no
trace, so every argument about one starts from the equation "it returned `ok`"
and takes the computation apart from there.
-/

namespace Sana.Lib

universe u

/-! ## Runs -/

section Runs

variable {σ : Type u} {Init : σ → Prop} {Step : σ → σ → Prop} {P Q : σ → Prop}

/-- The states a system can get to. -/
inductive Reachable (Init : σ → Prop) (Step : σ → σ → Prop) : σ → Prop
  | init {s : σ} (h : Init s) : Reachable Init Step s
  | tail {s t : σ} (hr : Reachable Init Step s) (hs : Step s t) : Reachable Init Step t

/-- **The invariant rule.** True at the start and kept by every step, so true everywhere. -/
theorem Reachable.invariant (hinit : ∀ s, Init s → P s)
    (hstep : ∀ s t, P s → Step s t → P t) {s : σ} (h : Reachable Init Step s) : P s := by
  induction h with
  | init h => exact hinit _ h
  | tail hr hs ih => exact hstep _ _ ih hs

/--
**The relative invariant rule.** A step may also use what is already known of
every reachable state.
-/
theorem Reachable.invariant_of (hQ : ∀ s, Reachable Init Step s → Q s)
    (hinit : ∀ s, Init s → P s)
    (hstep : ∀ s t, Q s → P s → Step s t → P t) {s : σ}
    (h : Reachable Init Step s) : P s := by
  induction h with
  | init h => exact hinit _ h
  | tail hr hs ih => exact hstep _ _ (hQ _ hr) ih hs

/-- A run that starts in a reachable state ends in one. -/
theorem Reachable.trans {s t : σ} (hr : Reachable Init Step s)
    (hs : Relation.ReflTransGen Step s t) : Reachable Init Step t := by
  induction hs with
  | refl => exact hr
  | tail _ hst ih => exact .tail ih hst

/--
**What one step preserves, a run preserves.** `R` relates an earlier state to a
later one (a row is still there, a column still has its value); it only has to
be established for one step out of a reachable state.
-/
theorem Reachable.run_rel {R : σ → σ → Prop} (hrefl : ∀ s, R s s)
    (htrans : ∀ s t v, R s t → R t v → R s v)
    (hstep : ∀ s t, Reachable Init Step s → Step s t → R s t) {s t : σ}
    (hr : Reachable Init Step s) (hs : Relation.ReflTransGen Step s t) : R s t := by
  induction hs with
  | refl => exact hrefl s
  | tail hst hlast ih => exact htrans _ _ _ ih (hstep _ _ (hr.trans hst) hlast)

/--
**Executions are runs.** `exec` performs one labelled step where it is enabled;
if what it does is a step, a list of labels that can be performed is a run.
-/
theorem run_of_exec {α : Type*} {exec : σ → α → Option σ}
    (hexec : ∀ s a t, exec s a = some t → Step s t) {s t : σ} {labels : List α}
    (h : labels.foldlM exec s = some t) : Relation.ReflTransGen Step s t := by
  induction labels generalizing s with
  | nil => exact Option.some.inj h ▸ .refl
  | cons a rest ih =>
      rw [List.foldlM_cons, Option.bind_eq_bind, Option.bind_eq_some_iff] at h
      obtain ⟨v, hv, h⟩ := h
      exact .head (hexec _ _ _ hv) (ih h)

/-- An execution out of a reachable state ends in one. -/
theorem Reachable.of_exec {α : Type*} {exec : σ → α → Option σ}
    (hexec : ∀ s a t, exec s a = some t → Step s t) {s t : σ} (hr : Reachable Init Step s)
    {labels : List α} (h : labels.foldlM exec s = some t) : Reachable Init Step t :=
  hr.trans (run_of_exec hexec h)

end Runs

/-! ## Transactions that may raise -/

section Except

variable {ε α β : Type u}

/-- A sequence of two computations returned, so each of them did. -/
theorem ok_bind (a : α) (f : α → Except ε β) : (Except.ok a >>= f) = f a := rfl

theorem bind_ok_iff {x : Except ε α} {f : α → Except ε β} {b : β} :
    (x >>= f) = .ok b ↔ ∃ a, x = .ok a ∧ f a = .ok b := by
  cases x with
  | error e => simp [bind, Except.bind]
  | ok a => simp [bind, Except.bind]

/-- A sequence raised: the first part did, or it returned and the second did. -/
theorem bind_error_iff {x : Except ε α} {f : α → Except ε β} {e : ε} :
    (x >>= f) = .error e ↔ x = .error e ∨ ∃ a, x = .ok a ∧ f a = .error e := by
  cases x with
  | error e => simp [bind, Except.bind]
  | ok a => simp [bind, Except.bind]

/-- Returning a value returns that value. -/
theorem pure_ok_iff {a b : α} : (pure a : Except ε α) = .ok b ↔ a = b := by
  simp [pure, Except.pure]

/-- Applying a function to a result returned, so the computation did. -/
theorem map_ok_iff {x : Except ε α} {f : α → β} {b : β} :
    (f <$> x) = .ok b ↔ ∃ a, x = .ok a ∧ f a = b := by
  cases x with
  | error e => simp [Functor.map, Except.map]
  | ok a => simp [Functor.map, Except.map]

/-- Returning a value does not raise. -/
theorem pure_ne_error {a : α} {e : ε} : (pure a : Except ε α) ≠ .error e := by
  simp [pure, Except.pure]

theorem map_error_iff {x : Except ε α} {f : α → β} {e : ε} :
    (f <$> x) = .error e ↔ x = .error e := by
  cases x with
  | error e => simp [Functor.map, Except.map]
  | ok a => simp [Functor.map, Except.map]

/-- Raise `e` unless the check passes. -/
def check (c : Bool) (e : ε) : Except ε PUnit.{u + 1} :=
  if c then .ok ⟨⟩ else .error e

@[simp] theorem check_eq_ok {c : Bool} {e : ε} {u : PUnit} :
    check c e = .ok u ↔ c = true := by
  cases c <;> simp [check]

@[simp] theorem check_eq_error {c : Bool} {e e' : ε} :
    check c e = .error e' ↔ c = false ∧ e = e' := by
  cases c <;> simp [check]

/-- A test of the result that passes: there is a result, and it passes. -/
theorem exists_ok_of_any {x : Except ε α} {p : α → Bool} (h : x.toOption.any p = true) :
    ∃ a, x = .ok a ∧ p a = true := by
  cases x with
  | error e => cases h
  | ok a => exact ⟨a, rfl, h⟩

/-- A loop returns if every turn does. -/
theorem forM_ok_iff {ε α : Type} {l : List α} {f : α → Except ε Unit} :
    l.forM f = .ok () ↔ ∀ x ∈ l, f x = .ok () := by
  induction l with
  | nil => simp [pure, Except.pure]
  | cons x l ih =>
      have hcons : (x :: l).forM f = (f x >>= fun _ => l.forM f) := rfl
      rw [hcons, bind_ok_iff, List.forall_mem_cons, ← ih]
      exact ⟨fun ⟨_, hx, hl⟩ => ⟨hx, hl⟩, fun ⟨hx, hl⟩ => ⟨_, hx, hl⟩⟩

/-- Computing a list row by row: each row was computed from an element. -/
theorem mapM_ok {f : α → Except ε β} {l : List α} {r : List β}
    (h : l.mapM f = .ok r) {y : β} (hy : y ∈ r) : ∃ x ∈ l, f x = .ok y := by
  induction l generalizing r with
  | nil =>
      rw [List.mapM_nil, pure_ok_iff] at h
      subst h
      simp at hy
  | cons a l ih =>
      simp only [List.mapM_cons, bind_ok_iff, pure_ok_iff] at h
      obtain ⟨z, hz, zs, hzs, rfl⟩ := h
      rcases List.mem_cons.mp hy with rfl | hy
      · exact ⟨a, List.mem_cons_self, hz⟩
      · obtain ⟨x, hx, hfx⟩ := ih hzs hy
        exact ⟨x, List.mem_cons_of_mem _ hx, hfx⟩

/-- All rows are computed if each is. -/
theorem mapM_total {f : α → Except ε β} {l : List α} (h : ∀ x ∈ l, ∃ y, f x = .ok y) :
    ∃ r, l.mapM f = .ok r := by
  induction l with
  | nil => exact ⟨[], rfl⟩
  | cons x l ih =>
      obtain ⟨y, hy⟩ := h x List.mem_cons_self
      obtain ⟨r, hr⟩ := ih fun z hz => h z (List.mem_cons_of_mem _ hz)
      refine ⟨y :: r, ?_⟩
      simp only [List.mapM_cons, bind_ok_iff, pure_ok_iff]
      exact ⟨y, hy, r, hr, rfl⟩

/-- Every element has its row. -/
theorem mapM_ok_of_mem {f : α → Except ε β} {l : List α} {r : List β}
    (h : l.mapM f = .ok r) {x : α} (hx : x ∈ l) : ∃ y ∈ r, f x = .ok y := by
  induction l generalizing r with
  | nil => simp at hx
  | cons a l ih =>
      simp only [List.mapM_cons, bind_ok_iff, pure_ok_iff] at h
      obtain ⟨z, hz, zs, hzs, rfl⟩ := h
      rcases List.mem_cons.mp hx with rfl | hx
      · exact ⟨z, List.mem_cons_self, hz⟩
      · obtain ⟨y, hy, hxy⟩ := ih hzs hx
        exact ⟨y, List.mem_cons_of_mem _ hy, hxy⟩

/-- A column of the computed rows that only depends on what they were computed from. -/
theorem map_of_mapM_ok {γ : Type u} {f : α → Except ε β} {l : List α} {r : List β} {g : β → γ}
    {k : α → γ} (h : l.mapM f = .ok r) (hg : ∀ x y, f x = .ok y → g y = k x) :
    r.map g = l.map k := by
  induction l generalizing r with
  | nil =>
      rw [List.mapM_nil, pure_ok_iff] at h
      subst h
      rfl
  | cons a l ih =>
      simp only [List.mapM_cons, bind_ok_iff, pure_ok_iff] at h
      obtain ⟨z, hz, zs, hzs, rfl⟩ := h
      rw [List.map_cons, List.map_cons, hg a z hz, ih hzs]

end Except

end Sana.Lib
