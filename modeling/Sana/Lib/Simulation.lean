import Mathlib.Logic.Relation

/-!
# Runs that are seen from outside

A labelled system moves silently or with an event, and only its events are seen. If every move of
one system can be answered by moves of another with the same events, then whatever is seen of the
first could have been seen of the second. Nothing here knows what the events are.
-/

namespace Sana.Lib

universe u v

variable {σ : Type u} {τ : Type v} {ε : Type}

/-- What a labelled system can do; a move without a label is seen by nobody. -/
abbrev Moves (σ : Type u) (ε : Type) := σ → Option ε → σ → Prop

/-- `Runs step s trace t`: the system can get from `s` to `t`, and `trace` is what is seen. -/
inductive Runs (step : Moves σ ε) (s : σ) : List ε → σ → Prop
  | refl : Runs step s [] s
  | silent {trace : List ε} {t u : σ} (h : Runs step s trace t) (hs : step t none u) :
      Runs step s trace u
  | seen {trace : List ε} {t u : σ} {e : ε} (h : Runs step s trace t) (hs : step t (some e) u) :
      Runs step s (trace ++ [e]) u

namespace Runs

variable {step : Moves σ ε} {s t u : σ} {trace trace' : List ε} {P : σ → Prop}

theorem single {label : Option ε} (h : step s label t) : Runs step s label.toList t := by
  cases label with
  | none => exact .silent .refl h
  | some e => exact .seen .refl h

theorem trans (h : Runs step s trace t) (h' : Runs step t trace' u) :
    Runs step s (trace ++ trace') u := by
  induction h' with
  | refl => rwa [List.append_nil]
  | silent _ hs ih => exact .silent ih hs
  | seen _ hs ih =>
      rw [← List.append_assoc]
      exact .seen ih hs

/-- **The invariant rule.** What every move keeps, a run keeps. -/
theorem invariant (hstep : ∀ s label t, P s → step s label t → P t) (hs : P s)
    (h : Runs step s trace t) : P t := by
  induction h with
  | refl => exact hs
  | silent _ hmove ih => exact hstep _ _ _ ih hmove
  | seen _ hmove ih => exact hstep _ _ _ ih hmove

/-- The same for a run in which only events of the kind `Q` are seen. -/
theorem invariant_of_seen {Q : ε → Prop} (hsilent : ∀ s t, P s → step s none t → P t)
    (hseen : ∀ s e t, P s → Q e → step s (some e) t → P t) (htrace : ∀ e ∈ trace, Q e) (hs : P s)
    (h : Runs step s trace t) : P t := by
  induction h with
  | refl => exact hs
  | silent _ hmove ih => exact hsilent _ _ (ih htrace) hmove
  | seen _ hmove ih =>
      rw [List.forall_mem_append, List.forall_mem_singleton] at htrace
      exact hseen _ _ _ (ih htrace.1) htrace.2 hmove

/-- A run is taken apart where its trace is. -/
theorem split {trace trace' : List ε} (h : Runs step s (trace ++ trace') u) :
    ∃ t, Runs step s trace t ∧ Runs step t trace' u := by
  generalize hall : trace ++ trace' = all at h
  induction h generalizing trace' with
  | refl =>
      obtain ⟨rfl, rfl⟩ := List.append_eq_nil_iff.mp hall
      exact ⟨s, .refl, .refl⟩
  | silent h hmove ih =>
      obtain ⟨t, hleft, hright⟩ := ih hall
      exact ⟨t, hleft, .silent hright hmove⟩
  | seen h hmove ih =>
      rename_i before v w e
      rcases List.eq_nil_or_concat trace' with rfl | ⟨rest, last, rfl⟩
      · rw [List.append_nil] at hall
        rw [hall]
        exact ⟨w, .seen h hmove, .refl⟩
      · rw [List.concat_eq_append, ← List.append_assoc] at hall
        obtain ⟨hrest, hlast⟩ := List.append_inj' hall rfl
        obtain ⟨t, hleft, hright⟩ := ih hrest
        refine ⟨t, hleft, ?_⟩
        rw [List.concat_eq_append, List.singleton_inj.mp hlast]
        exact .seen hright hmove

/-- The event that is seen first, and the move it is seen of. -/
theorem cons {e : ε} (h : Runs step s (e :: trace) u) :
    ∃ t v, Runs step s [] t ∧ step t (some e) v ∧ Runs step v trace u := by
  obtain ⟨x, hfirst, hrest⟩ : ∃ x, Runs step s [e] x ∧ Runs step x trace u := Runs.split h
  clear h
  generalize hone : [e] = one at hfirst
  induction hfirst generalizing trace u with
  | refl => cases hone
  | silent h' hmove ih => exact ih ((Runs.silent .refl hmove).trans hrest) hone
  | seen h' hmove ih =>
      rename_i before v w e'
      have hnil : before = [] := by
        cases before with
        | nil => rfl
        | cons _ _ => simp at hone
      subst hnil
      obtain rfl := List.singleton_inj.mp hone
      exact ⟨v, w, h', hmove, hrest⟩

/-- **The event rule.** If every move out of a state that satisfies the invariant has an event of
the kind `Q`, or none, then all that is seen is of that kind. -/
theorem forall_seen {Q : ε → Prop} (hstep : ∀ s label t, P s → step s label t → P t)
    (hseen : ∀ s e t, P s → step s (some e) t → Q e) (hs : P s) (h : Runs step s trace t) :
    ∀ e ∈ trace, Q e := by
  induction h with
  | refl => exact List.forall_mem_nil _
  | silent _ _ ih => exact ih
  | seen h hmove ih =>
      rw [List.forall_mem_append]
      exact ⟨ih, List.forall_mem_singleton.mpr (hseen _ _ _ (h.invariant hstep hs) hmove)⟩

end Runs

/-- **A forward simulation.** States related by `R` stay related, whatever the first system does. -/
def Simulates (concrete : Moves σ ε) (abstract : Moves τ ε) (R : σ → τ → Prop) : Prop :=
  ∀ s t label s', R s t → concrete s label s' → ∃ t', Runs abstract t label.toList t' ∧ R s' t'

/-- **What is seen of the first system could have been seen of the second.** -/
theorem Simulates.runs {concrete : Moves σ ε} {abstract : Moves τ ε} {R : σ → τ → Prop}
    (hsim : Simulates concrete abstract R) {s s' : σ} {t : τ} {trace : List ε} (hR : R s t)
    (h : Runs concrete s trace s') : ∃ t', Runs abstract t trace t' ∧ R s' t' := by
  induction h with
  | refl => exact ⟨t, .refl, hR⟩
  | silent _ hs ih =>
      obtain ⟨v, hrun, hv⟩ := ih
      obtain ⟨v', hrun', hv'⟩ := hsim _ _ _ _ hv hs
      refine ⟨v', ?_, hv'⟩
      have hboth := hrun.trans hrun'
      rwa [Option.toList_none, List.append_nil] at hboth
  | seen _ hs ih =>
      obtain ⟨v, hrun, hv⟩ := ih
      obtain ⟨v', hrun', hv'⟩ := hsim _ _ _ _ hv hs
      exact ⟨v', hrun.trans hrun', hv'⟩

end Sana.Lib
