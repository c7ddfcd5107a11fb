import Sana.ModelGateway.Proof.Service

/-!
# Which exceptions leave a generate

Everything the outside raises is a `TypedError` or a timeout, and the loop passes it on as a
`TypedError`. What else can leave a generate comes from the constructors: those of the first
request are about what the caller passes, and those of the repair are about what the provider has
answered. An answer that is cut down to nothing by `strip` and is not empty cannot be quoted in
the repair.

The proof follows the loop: the turns before the one that ends it have failed in a way worth
repeating, and what the last one brings is what the loop returns.
-/

namespace Sana.ModelGateway.Service

open Sana.Lib Method

/-! ## What turns bring -/

/-- The exception is a `TypedError`. -/
def IsTypedError (e : Raised) : Prop := e.typed?.isSome = true

/-- The audit sink raises only `TypedError`, and so does the provider, if its time is not up. -/
structure Turn.Typed (t : Turn) : Prop where
  reuse : ∀ e, t.reuse = .error e → IsTypedError e
  start : ∀ e, t.start = .error e → IsTypedError e
  outcome : ∀ e, t.outcome = .error e → e = .timeoutError ∨ IsTypedError e
  sealed : ∀ e, t.sealed = .error e → IsTypedError e

section Turns

variable (g : Gateway) (deadline : Deadline) (b : ModelCallBudget)

/-- The call of turn `i` is reserved, where every turn before it has made a call. -/
def Turn.Reserved (i : Nat) (t : Turn) : Prop :=
  if g.audited then t.reuse = .ok none ∧ ∃ r, t.start = .ok r else b.usedCalls + i < b.maxCalls

/-- A completed call is used instead. -/
def Turn.Reuses (t : Turn) (response : ProviderResponse) : Prop :=
  g.audited = true ∧ ∃ source, t.reuse = .ok (some ⟨response, source⟩)

/-- The answer is recorded: the sink has completed the call, or the budget has its tokens. -/
def Turn.Recorded (t : Turn) (response : ProviderResponse) : Prop :=
  if g.audited then t.sealed = .ok ()
  else b.usedTotalTokens + response.promptTokens + response.completionTokens ≤ b.maxTotalTokens

/-- The provider fails in a way worth repeating. -/
def Turn.Retryable (t : Turn) : Prop :=
  t.outcome = .error .timeoutError ∨
    ∃ e error, t.outcome = .error e ∧ e.typed? = some error ∧ error.retryable = true

/-- The provider is called in turn `i`. -/
def Turn.Called (i : Nat) (t : Turn) : Prop :=
  late deadline t.now = false ∧ t.Reserved g b i ∧ late deadline t.later = false

/-- Turn `i` brings a response. -/
def Turn.Brings (i : Nat) (t : Turn) (response : ProviderResponse) : Prop :=
  late deadline t.now = false ∧ t.Reuses g response ∨
    t.Called g deadline b i ∧ t.outcome = .ok response ∧ t.Recorded g b response

/-- Turn `i` fails in a way worth repeating. -/
def Turn.Repeats (i : Nat) (t : Turn) : Prop :=
  t.Called g deadline b i ∧ t.Retryable ∧ (g.audited = true → t.sealed = .ok ())

/-- The first answer that some turns bring, all of the turns before it having failed. -/
def FirstAnswer (turns : Nat → Turn) (maxRetries : Nat) (response : ProviderResponse) : Prop :=
  ∃ i ≤ maxRetries, (∀ j < i, (turns j).Repeats g deadline b j) ∧
    (turns i).Brings g deadline b i response

variable {g deadline b}

theorem Turn.Reuses.not_reserved {t : Turn} {response : ProviderResponse} {i : Nat}
    (h : t.Reuses g response) : ¬t.Reserved g b i := by
  obtain ⟨hg, source, hreuse⟩ := h
  unfold Turn.Reserved
  rw [if_pos hg, hreuse]
  rintro ⟨hnone, -⟩
  cases hnone

theorem Turn.Brings.not_repeats {t : Turn} {response : ProviderResponse} {i : Nat}
    (h : t.Brings g deadline b i response) : ¬t.Repeats g deadline b i := by
  rintro ⟨⟨-, hreserved, -⟩, hretry, -⟩
  rcases h with ⟨-, hreuse⟩ | ⟨-, houtcome, -⟩
  · exact hreuse.not_reserved hreserved
  · rcases hretry with hfails | ⟨e, -, hfails, -⟩
    · rw [hfails] at houtcome
      cases houtcome
    · rw [hfails] at houtcome
      cases houtcome

theorem Turn.Brings.unique {t : Turn} {response response' : ProviderResponse} {i : Nat}
    (h : t.Brings g deadline b i response) (h' : t.Brings g deadline b i response') :
    response = response' := by
  rcases h with ⟨-, hreuse⟩ | ⟨hcalled, houtcome, -⟩
  · rcases h' with ⟨-, hreuse'⟩ | ⟨hcalled', -, -⟩
    · obtain ⟨-, source, hsource⟩ := hreuse
      obtain ⟨-, source', hsource'⟩ := hreuse'
      rw [hsource] at hsource'
      injection hsource' with hsame
      injection hsame with hsame
      injection hsame
    · exact absurd hcalled'.2.1 hreuse.not_reserved
  · rcases h' with ⟨-, hreuse'⟩ | ⟨-, houtcome', -⟩
    · exact absurd hcalled.2.1 hreuse'.not_reserved
    · rw [houtcome] at houtcome'
      exact Except.ok.inj houtcome'

/-- There is one first answer at most. -/
theorem FirstAnswer.unique {turns : Nat → Turn} {maxRetries : Nat}
    {response response' : ProviderResponse}
    (h : FirstAnswer g deadline b turns maxRetries response)
    (h' : FirstAnswer g deadline b turns maxRetries response') : response = response' := by
  obtain ⟨i, -, hbefore, hbrings⟩ := h
  obtain ⟨j, -, hbefore', hbrings'⟩ := h'
  rcases Nat.lt_trichotomy i j with hlt | rfl | hgt
  · exact absurd (hbefore' i hlt) hbrings.not_repeats
  · exact hbrings.unique hbrings'
  · exact absurd (hbefore j hgt) hbrings'.not_repeats

/-- If the deadline is too close for the first turn, no turn brings an answer. -/
theorem not_firstAnswer_of_late {turns : Nat → Turn} {maxRetries : Nat}
    {response : ProviderResponse} (hlate : late deadline (turns 0).now = true) :
    ¬FirstAnswer g deadline b turns maxRetries response := by
  rintro ⟨i, -, hbefore, hbrings⟩
  rcases Nat.eq_zero_or_pos i with rfl | hpos
  · rcases hbrings with ⟨hearly, -⟩ | ⟨⟨hearly, -⟩, -⟩
    · rw [hlate] at hearly
      cases hearly
    · rw [hlate] at hearly
      cases hearly
  · have hearly := (hbefore 0 hpos).1.1
    rw [hlate] at hearly
    cases hearly

end Turns

/-! ## One turn -/

section Loop

variable {g : Gateway} {turns : Nat → Turn} {inv : Invocation} {b : ModelCallBudget} {k : Nat}

/-- Turn `i` after the `k`-th is next, and `n` calls have been reserved. -/
structure At (g : Gateway) (b : ModelCallBudget) (k i n : Nat) (s : Progress) : Prop where
  turn : s.turn = k + i
  budget : s.budget = if g.audited then b else { b with usedCalls := b.usedCalls + n }

theorem At.tell {i n : Nat} {s : Progress} (h : At g b k i n s) (event : Event) :
    At g b k i n { s with trace := s.trace ++ [event] } :=
  ⟨h.turn, h.budget⟩

theorem typed_deadlineExceeded : IsTypedError modelDeadlineExceeded := rfl

theorem typed_providerTimeout : IsTypedError (.ofTyped modelProviderTimeout) := rfl

/-- A deadline that is not naive is refused with a `TypedError`, and only if it is too close. -/
theorem margin_at (haware : inv.deadline.aware = true) {i n : Nat} (now : Time) :
    Yields (At g b k i n) (Method.ofExcept (remainingBeforeMargin inv.deadline now))
      (fun _ s => At g b k i n s ∧ late inv.deadline now = false)
      (fun e s => At g b k i n s ∧ e = modelDeadlineExceeded ∧ late inv.deadline now = true) := by
  intro s hs
  rw [remainingBeforeMargin_eq, if_neg (by simp [haware]), call_ofExcept]
  by_cases hlate : late inv.deadline now = true
  · rw [if_pos hlate]
    exact ⟨hs, rfl, hlate⟩
  · rw [if_neg hlate]
    exact ⟨hs, Bool.eq_false_iff.mpr hlate⟩

theorem reserve_at (hcontext : g.audited = true → inv.context.isSome = true) {turn : Turn}
    (hturn : turn.Typed) (i callNo : Nat) :
    Yields (At g b k (i + 1) i) (reserve g inv turn callNo)
      (fun r s => match r with
        | .inl response => turn.Reuses g response
        | .inr reservation => turn.Reserved g b i ∧ reservation.isSome = g.audited ∧
            At g b k (i + 1) (i + 1) s)
      (fun e _ => IsTypedError e ∧ ¬turn.Reserved g b i ∧ ∀ response, ¬turn.Reuses g response) := by
  intro s hs
  unfold reserve
  by_cases hg : g.audited = true
  · obtain ⟨context, hsome⟩ := Option.isSome_iff_exists.mp (hcontext hg)
    rw [if_pos hg, hsome]
    dsimp only
    rcases hreuse : turn.reuse with e | _ | ⟨response, source⟩
    · refine ⟨hturn.reuse e hreuse, ?_, ?_⟩
      · rw [Turn.Reserved, if_pos hg, hreuse]
        rintro ⟨h, -⟩
        cases h
      · rintro response ⟨-, source, h⟩
        rw [hreuse] at h
        cases h
    · have hnothing : ∀ response, ¬turn.Reuses g response := by
        rintro response ⟨-, source, h⟩
        rw [hreuse] at h
        cases h
      rcases hstart : turn.start with e | reservation
      · refine ⟨hturn.start e hstart, ?_, hnothing⟩
        rw [Turn.Reserved, if_pos hg, hstart]
        rintro ⟨-, r, h⟩
        cases h
      · refine ⟨?_, hg.symm, hs.turn, ?_⟩
        · rw [Turn.Reserved, if_pos hg]
          exact ⟨hreuse, reservation, hstart⟩
        · rw [if_pos hg]
          exact hs.budget.trans (if_pos hg)
    · exact ⟨hg, source, hreuse⟩
  · have hbudget := hs.budget
    rw [if_neg hg] at hbudget
    rw [if_neg hg]
    simp only [spend, ModelCallBudget.reserveCall, call_bind, call_get, call_ofExcept, hbudget]
    by_cases hfull : b.usedCalls + i + 1 > b.maxCalls
    · rw [if_pos hfull]
      refine ⟨rfl, ?_, fun response h => hg h.1⟩
      rw [Turn.Reserved, if_neg hg]
      omega
    · rw [if_neg hfull]
      refine ⟨?_, (Bool.eq_false_iff.mpr hg).symm, hs.turn, ?_⟩
      · rw [Turn.Reserved, if_neg hg]
        omega
      · rw [if_neg hg]
        rfl

theorem callProvider_at (haware : inv.deadline.aware = true) (turn : Turn) {i n : Nat} :
    Yields (At g b k i n) (callProvider inv turn)
      (fun response s => At g b k i n s ∧ late inv.deadline turn.later = false ∧
        turn.outcome = .ok response)
      (fun e s => At g b k i n s ∧ (e = modelDeadlineExceeded ∧ late inv.deadline turn.later = true ∨
        late inv.deadline turn.later = false ∧ turn.outcome = .error e)) := by
  refine Yields.bind ((margin_at haware turn.later).weaken (fun _ hs => hs) (fun _ _ h => h)
    fun e s h => ⟨h.1, .inl h.2⟩) fun remaining => ?_
  refine yields_of_pre (fun s hs => hs.2) fun hearly => ?_
  refine Yields.bind (Q := fun _ => At g b k i n) (yields_modify fun s hs => hs.1.tell _)
    fun _ => ?_
  refine Yields.bind (yields_ofExcept fun s e hs h => ⟨hs, .inr ⟨hearly, h⟩⟩) fun response => ?_
  refine yields_of_pre (fun s hs => hs.2) fun houtcome => ?_
  refine Yields.bind (Q := fun _ => At g b k i n) (yields_modify fun s hs => hs.1.tell _)
    fun _ => ?_
  exact yields_pure fun s hs => ⟨hs, hearly, houtcome⟩

/-- What a sink that has reserved the call raises is typed, and it raises only if it has not sealed
the call. -/
theorem failCall_at {turn : Turn} (hturn : turn.Typed)
    {reservation : Option ModelInvocationReservation} (hres : reservation.isSome = g.audited)
    {raised : Raised} (hraised : IsTypedError raised) {i n : Nat} :
    Yields (At g b k i n) (failCall turn reservation raised)
      (fun _ s => At g b k i n s ∧ (g.audited = true → turn.sealed = .ok ()))
      (fun e _ => IsTypedError e ∧ g.audited = true ∧ turn.sealed ≠ .ok ()) := by
  cases reservation with
  | none => exact yields_pure fun s hs => ⟨hs, fun hg => by rw [← hres] at hg; cases hg⟩
  | some reservation =>
      obtain ⟨error, herror⟩ := Option.isSome_iff_exists.mp hraised
      have hredacted : RedactedInvocationError.fromException raised = .ok (.ofTyped error) := by
        simp only [RedactedInvocationError.fromException, herror]
      refine Yields.bind (Q := fun _ => At g b k i n) ?_ fun redacted => ?_
      · rw [hredacted]
        exact yields_pure fun s hs => hs
      refine Yields.bind (yields_ofExcept fun s e hs h => ?_) fun _ => ?_
      · refine ⟨hturn.sealed e h, hres.symm, fun hok => ?_⟩
        rw [hok] at h
        cases h
      · exact yields_modify fun s hs => ⟨hs.1.tell _, fun _ => hs.2⟩

theorem handle_at {turn : Turn} (hturn : turn.Typed)
    {reservation : Option ModelInvocationReservation} (hres : reservation.isSome = g.audited)
    (attempt : Nat) {raised : Raised} {i n : Nat} :
    Yields (fun s => At g b k i n s ∧
        (raised = modelDeadlineExceeded ∧ late inv.deadline turn.later = true ∨
          late inv.deadline turn.later = false ∧ turn.outcome = .error raised))
      (handle inv turn reservation attempt raised)
      (fun _ s => At g b k i n s ∧ late inv.deadline turn.later = false ∧ turn.Retryable ∧
        (g.audited = true → turn.sealed = .ok ()) ∧ attempt < inv.config.maxRetries)
      (fun e _ => IsTypedError e ∧ (∀ response, turn.outcome = .ok response →
          late inv.deadline turn.later = true) ∧
        (late inv.deadline turn.later = false → turn.Retryable →
          (g.audited = true → turn.sealed = .ok ()) → inv.config.maxRetries ≤ attempt)) := by
  refine yields_of_pre (fun s hs => hs.2) fun hraised => ?_
  have hnotOk : ∀ response, turn.outcome = .ok response →
      late inv.deadline turn.later = true := by
    intro response hok
    rcases hraised with ⟨-, hlate⟩ | ⟨-, herror⟩
    · exact hlate
    · rw [herror] at hok
      cases hok
  unfold handle
  split
  · -- the provider's time is up
    rcases hraised with ⟨h, -⟩ | ⟨hearly, houtcome⟩
    · cases h
    refine Yields.bind ((failCall_at hturn hres typed_providerTimeout).weaken (fun s hs => hs.1) (fun _ _ h => h)
      fun e s h => ⟨h.1, hnotOk, fun _ _ hsealed => absurd (hsealed h.2.1) h.2.2⟩) fun _ => ?_
    split
    · rename_i hlast
      exact yields_throw fun s hs => ⟨rfl, hnotOk, fun _ _ _ => hlast⟩
    · rename_i hmore
      exact yields_pure fun s hs => ⟨hs.1, hearly, .inl houtcome, hs.2, Nat.not_le.mp hmore⟩
  · rename_i hnotTimeout
    have htyped : IsTypedError raised := by
      rcases hraised with ⟨rfl, -⟩ | ⟨-, houtcome⟩
      · rfl
      · rcases hturn.outcome raised houtcome with h | h
        · exact absurd h hnotTimeout
        · exact h
    obtain ⟨error, herror⟩ := Option.isSome_iff_exists.mp htyped
    refine Yields.bind ((failCall_at hturn hres htyped).weaken (fun s hs => hs.1) (fun _ _ h => h)
      fun e s h => ⟨h.1, hnotOk, fun _ _ hsealed => absurd (hsealed h.2.1) h.2.2⟩) fun _ => ?_
    rw [herror]
    dsimp only
    split
    · rename_i hstop
      refine yields_throw fun s hs => ⟨htyped, hnotOk, fun hearly hretry _ => ?_⟩
      rcases hstop with hfinal | hlast
      · exfalso
        rcases hraised with ⟨-, hlate⟩ | ⟨-, houtcome⟩
        · rw [hearly] at hlate
          cases hlate
        · rcases hretry with htimeout | ⟨e, error', houtcome', herror', hagain⟩
          · rw [houtcome] at htimeout
            exact hnotTimeout (Except.error.inj htimeout)
          · rw [houtcome] at houtcome'
            cases Except.error.inj houtcome'
            rw [herror] at herror'
            cases herror'
            rw [hfinal] at hagain
            cases hagain
      · exact hlast
    · rename_i hgoes
      rw [not_or] at hgoes
      rcases hraised with ⟨rfl, -⟩ | ⟨hearly, houtcome⟩
      · cases herror
        exact absurd rfl hgoes.1
      · refine yields_pure fun s hs => ⟨hs.1, hearly, .inr ⟨raised, error, houtcome, herror, ?_⟩,
          hs.2, Nat.not_le.mp hgoes.2⟩
        exact Bool.not_eq_false _ ▸ hgoes.1

theorem settle_at {turn : Turn} (hturn : turn.Typed)
    {reservation : Option ModelInvocationReservation} (hres : reservation.isSome = g.audited)
    (response : ProviderResponse) {i n : Nat} :
    Yields (At g b k i n) (settle turn reservation response)
      (fun _ _ => turn.Recorded g b response)
      (fun e _ => IsTypedError e ∧ ¬turn.Recorded g b response) := by
  intro s hs
  cases reservation with
  | some reservation =>
      have hg : g.audited = true := hres.symm
      simp only [settle, call_bind, call_ofExcept, Turn.Recorded, if_pos hg]
      cases hsealed : turn.sealed with
      | ok _ => exact rfl
      | error e => exact ⟨hturn.sealed e hsealed, fun h => by cases h⟩
  | none =>
      have hg : ¬g.audited = true := by
        rw [← hres]
        exact Bool.false_ne_true
      have hbudget := hs.budget
      rw [if_neg hg] at hbudget
      simp only [settle, spend, ModelCallBudget.recordTokens, call_bind, call_get, call_ofExcept,
        hbudget, Turn.Recorded, if_neg hg]
      by_cases hfull : b.usedTotalTokens + response.promptTokens + response.completionTokens
          > b.maxTotalTokens
      · have hcall : (⟨b.maxCalls, b.maxTotalTokens, b.usedCalls + n, b.usedPromptTokens,
            b.usedCompletionTokens⟩ : ModelCallBudget).usedTotalTokens = b.usedTotalTokens := rfl
        rw [hcall, if_pos hfull]
        exact ⟨rfl, by omega⟩
      · have hcall : (⟨b.maxCalls, b.maxTotalTokens, b.usedCalls + n, b.usedPromptTokens,
            b.usedCompletionTokens⟩ : ModelCallBudget).usedTotalTokens = b.usedTotalTokens := rfl
        rw [hcall, if_neg hfull]
        show b.usedTotalTokens + response.promptTokens + response.completionTokens
          ≤ b.maxTotalTokens
        omega

/-- **One turn** returns what the turn brings, or goes on if it fails in a way worth repeating and
there is a turn left, or raises a `TypedError`. -/
theorem takeTurn_at (haware : inv.deadline.aware = true)
    (hcontext : g.audited = true → inv.context.isSome = true) (hturns : ∀ i, (turns i).Typed)
    (i attempt calls : Nat) :
    Yields (At g b k i i) (takeTurn g turns inv attempt calls)
      (fun ended s => match ended with
        | .answered response _ => (turns (k + i)).Brings g inv.deadline b i response
        | .again _ _ => (turns (k + i)).Repeats g inv.deadline b i ∧
            attempt < inv.config.maxRetries ∧ At g b k (i + 1) (i + 1) s)
      (fun e _ => IsTypedError e ∧
        (∀ response, ¬(turns (k + i)).Brings g inv.deadline b i response) ∧
        ((turns (k + i)).Repeats g inv.deadline b i → inv.config.maxRetries ≤ attempt)) := by
  refine Yields.bind (Q := fun turn s => turn = turns (k + i) ∧ At g b k (i + 1) i s) ?_
    fun turn => ?_
  · exact fun s hs => ⟨congrArg turns hs.turn, congrArg (· + 1) hs.turn, hs.budget⟩
  refine yields_of_pre (fun s hs => hs.1) fun hturn => ?_
  have htyped : turn.Typed := hturn ▸ hturns (k + i)
  rw [← hturn]
  refine Yields.bind ((margin_at haware turn.now).weaken (fun s hs => hs.2) (fun _ _ h => h) ?_)
    fun remaining => ?_
  · rintro e s ⟨-, rfl, hlate⟩
    refine ⟨typed_deadlineExceeded, ?_, ?_⟩
    · rintro response (⟨hearly, -⟩ | ⟨⟨hearly, -⟩, -⟩)
      · rw [hlate] at hearly
        cases hearly
      · rw [hlate] at hearly
        cases hearly
    · rintro ⟨⟨hearly, -⟩, -⟩
      rw [hlate] at hearly
      cases hearly
  refine yields_of_pre (fun s hs => hs.2) fun hnow => ?_
  refine Yields.bind ((reserve_at hcontext htyped i _).weaken (fun s hs => hs.1)
    (fun _ _ h => h) ?_) fun r => ?_
  · rintro e s ⟨he, hreserved, hreuses⟩
    refine ⟨he, ?_, fun hrepeats => absurd hrepeats.1.2.1 hreserved⟩
    rintro response (⟨-, hreuse⟩ | ⟨hcalled, -⟩)
    · exact hreuses response hreuse
    · exact hreserved hcalled.2.1
  cases r with
  | inl response => exact yields_pure fun s hs => .inl ⟨hnow, hs⟩
  | inr reservation =>
      refine yields_of_pre (p := turn.Reserved g b i ∧ reservation.isSome = g.audited)
        (fun s hs => ⟨hs.1, hs.2.1⟩) fun ⟨hreserved, hres⟩ => ?_
      have hcalled : late inv.deadline turn.later = false → turn.Called g inv.deadline b i :=
        fun hlater => ⟨hnow, hreserved, hlater⟩
      have hnotReuse : ∀ response, ¬turn.Reuses g response := fun _ h => h.not_reserved hreserved
      refine Yields.bind (Q := fun outcome s => At g b k (i + 1) (i + 1) s ∧
          late inv.deadline turn.later = false ∧ match outcome with
          | .ok response => turn.outcome = .ok response
          | .error _ => turn.Repeats g inv.deadline b i ∧ attempt < inv.config.maxRetries)
        (Yields.tryCatch (Yields.bind ((callProvider_at haware turn).weaken (fun s hs => hs.2.2)
          (fun _ _ h => h) fun _ _ h => h) fun response => yields_pure fun s hs => hs)
          fun raised => Yields.bind ((handle_at htyped hres attempt).weaken (fun _ h => h)
            (fun _ _ h => h) ?_) fun e => yields_pure ?_) fun outcome => ?_
      · rintro e s ⟨he, houtcome, hretry⟩
        refine ⟨he, ?_, fun hrepeats => hretry hrepeats.1.2.2 hrepeats.2.1 hrepeats.2.2⟩
        rintro response (⟨-, hreuse⟩ | ⟨⟨-, -, hlater⟩, hok, -⟩)
        · exact hnotReuse response hreuse
        · rw [houtcome response hok] at hlater
          cases hlater
      · rintro s ⟨hat, hlater, hretryable, hsealed, hmore⟩
        exact ⟨hat, hlater, ⟨hcalled hlater, hretryable, hsealed⟩, hmore⟩
      · cases outcome with
        | error lastError => exact yields_pure fun s hs => ⟨hs.2.2.1, hs.2.2.2, hs.1⟩
        | ok response =>
            refine yields_of_pre (fun s hs => hs.2) fun ⟨hlater, hok⟩ => ?_
            refine Yields.bind ((settle_at htyped hres response).weaken (fun s hs => hs.1)
              (fun _ _ h => h) ?_) fun _ => ?_
            · rintro e s ⟨he, hnot⟩
              refine ⟨he, ?_, ?_⟩
              · rintro response' (⟨-, hreuse⟩ | ⟨-, hok', hrecorded⟩)
                · exact hnotReuse response' hreuse
                · rw [hok] at hok'
                  cases Except.ok.inj hok'
                  exact hnot hrecorded
              · rintro ⟨-, hfails | ⟨e', -, hfails, -⟩, -⟩
                · rw [hok] at hfails
                  cases hfails
                · rw [hok] at hfails
                  cases hfails
            · exact yields_pure fun s hs => .inr ⟨hcalled hlater, hok, hs⟩

/-- **The loop** returns the first answer of its turns, or raises a `TypedError` if they have
none. The induction is on the turns left; those before the next one have all been repeated. -/
theorem attempts_at (haware : inv.deadline.aware = true)
    (hcontext : g.audited = true → inv.context.isSome = true) (hturns : ∀ i, (turns i).Typed)
    (i calls left : Nat) (lastError : Option Raised) (hi : i ≤ inv.config.maxRetries)
    (hleft : i + left = inv.config.maxRetries + 1)
    (hbefore : ∀ j < i, (turns (k + j)).Repeats g inv.deadline b j) :
    Yields (At g b k i i) (attempts g turns inv i calls lastError left)
      (fun r _ => FirstAnswer g inv.deadline b (fun j => turns (k + j)) inv.config.maxRetries r.1)
      (fun e _ => IsTypedError e ∧ ∀ response,
        ¬FirstAnswer g inv.deadline b (fun j => turns (k + j)) inv.config.maxRetries response) := by
  induction left generalizing i calls lastError with
  | zero => omega
  | succ left ih =>
      refine Yields.bind ((takeTurn_at haware hcontext hturns i i calls).weaken (fun _ h => h)
        (fun _ _ h => h) ?_) fun ended => ?_
      · rintro e s ⟨he, hbrings, hrepeats⟩
        refine ⟨he, ?_⟩
        rintro response ⟨m, hm, hrepeated, hbrought⟩
        rcases Nat.lt_trichotomy m i with hlt | rfl | hgt
        · exact hbrought.not_repeats (hbefore m hlt)
        · exact hbrings response hbrought
        · have := hrepeats (hrepeated i hgt)
          omega
      cases ended with
      | answered response calls => exact yields_pure fun s hs => ⟨i, hi, hbefore, hs⟩
      | again e calls =>
          refine yields_of_pre (fun s hs => hs.1) fun hrepeats => ?_
          refine yields_of_pre (fun s hs => hs.2.1) fun hmore => ?_
          refine (ih (i + 1) calls (some e) hmore (by omega) fun j hj => ?_).weaken
            (fun s hs => hs.2.2) (fun _ _ h => h) fun _ _ h => h
          rcases Nat.lt_succ_iff_lt_or_eq.mp hj with hlt | rfl
          · exact hbefore j hlt
          · exact hrepeats

variable (turns inv) in
/-- `_invoke` from any state. -/
theorem invoke_answers (hprovider : inv.config.provider ∈ g.providers)
    (haware : inv.deadline.aware = true)
    (hcontext : g.audited = true → inv.context.isSome = true) (hturns : ∀ i, (turns i).Typed)
    (s : Progress) :
    match (invoke g turns inv).call s with
    | (.ok r, _) =>
        FirstAnswer g inv.deadline s.budget (fun j => turns (s.turn + j)) inv.config.maxRetries r.1
    | (.error e, _) => IsTypedError e ∧ ∀ response,
        ¬FirstAnswer g inv.deadline s.budget (fun j => turns (s.turn + j)) inv.config.maxRetries
          response := by
  have hat : At g s.budget s.turn 0 0 s := ⟨rfl, by split <;> rfl⟩
  have h := attempts_at haware hcontext hturns 0 0 (inv.config.maxRetries + 1) none
    (Nat.zero_le _) (Nat.zero_add _) (fun j hj => absurd hj (Nat.not_lt_zero j)) s hat
  unfold invoke
  rw [if_pos hprovider]
  rcases hcall : (attempts g turns inv 0 0 none (inv.config.maxRetries + 1)).call s with ⟨r, t⟩
  rw [hcall] at h
  cases r with
  | ok r => exact h
  | error e => exact h

/-! ## What the caller passes -/

section Refused

variable (turns inv)

theorem invoke_unknown (hprovider : inv.config.provider ∉ g.providers) (s : Progress) :
    ¬IsTypedError (.exn (.valueError ("Unknown model provider: " ++ inv.config.provider))) ∧
      (invoke g turns inv).call s
        = (.error (.exn (.valueError ("Unknown model provider: " ++ inv.config.provider))), s) := by
  refine ⟨Bool.false_ne_true, ?_⟩
  unfold invoke
  rw [if_neg hprovider]
  rfl

/-- The first turn of the loop raises if the deadline is refused. -/
theorem invoke_refused (hprovider : inv.config.provider ∈ g.providers) (s : Progress) {e : Raised}
    (h : remainingBeforeMargin inv.deadline (turns s.turn).now = .error e) :
    ∃ t, (invoke g turns inv).call s = (.error e, t) := by
  refine ⟨{ s with turn := s.turn + 1 }, ?_⟩
  unfold invoke
  rw [if_pos hprovider]
  simp only [attempts, takeTurn, nextTurn, call_bind, call_get, call_modify, call_pure,
    call_ofExcept, h]

/-- The first turn raises if the audit sink has no context. -/
theorem invoke_contextless (hprovider : inv.config.provider ∈ g.providers)
    (hg : g.audited = true) (hcontext : inv.context = none) (s : Progress) {remaining : Rat}
    (h : remainingBeforeMargin inv.deadline (turns s.turn).now = .ok remaining) :
    ∃ t, (invoke g turns inv).call s = (.error (.exn (.valueError
      "Model invocation context is required when audit is enabled")), t) := by
  refine ⟨{ s with turn := s.turn + 1 }, ?_⟩
  unfold invoke
  rw [if_pos hprovider]
  simp only [attempts, takeTurn, nextTurn, call_bind, call_get, call_modify, call_pure,
    call_ofExcept, h]
  unfold reserve
  rw [if_pos hg, hcontext]
  rfl

end Refused

end Loop

/-! ## One generate -/

section Generate

variable {α : Type} {g : Gateway} {turns : Nat → Turn} {ask : Asking} {config : RoleConfig}

/-- A result is what the parser makes of its text; an exception is a `TypedError`. -/
def Sound (parser : Parser α) : Except Raised (ModelResult α) → Prop
  | .ok result => ∃ value, result.parsed = some value ∧ parser.parse result.text = .ok value
  | .error e => IsTypedError e

/-- The repair can quote the text, and has an instruction. -/
def Quotable (parser : Parser α) (text : String) (firstError : Exn) : Prop :=
  (text = "" ∨ Text.isBlank text = false) ∧
    Text.isBlank (parser.repairInstruction firstError) = false

/-- The caller passes what `generate` asks for. -/
structure Posed (g : Gateway) (turns : Nat → Turn) (ask : Asking) (config : RoleConfig) : Prop where
  provider : config.provider ∈ g.providers
  messages : ask.messages ≠ []
  aware : ask.deadline.aware = true
  /-- A missing context is not noticed if the deadline is too close. -/
  context : g.audited = true → ask.context = none → late ask.deadline (turns 0).now = true

theorem make_ok {messages : List ModelMessage} (h : messages ≠ []) (temperature : Rat) :
    (config.request ask.role messages temperature).make
      = .ok (config.request ask.role messages temperature) := by
  have hmodel : ¬(Text.isBlank config.model = true ∨ messages = []) := by
    rw [config.named.2]
    exact not_or.mpr ⟨Bool.false_ne_true, h⟩
  have hlimit : ¬config.maxOutputTokens < 1 := Nat.not_lt.mpr config.limited
  have hprompt : ¬Text.isBlank config.promptTemplateVersion = true := by
    rw [config.versioned.1]
    exact Bool.false_ne_true
  have hparser : ¬Text.isBlank config.parserSchemaVersion = true := by
    rw [config.versioned.2]
    exact Bool.false_ne_true
  exact ((if_neg hmodel).trans (if_neg hlimit)).trans ((if_neg hprompt).trans (if_neg hparser))

theorem make_empty (temperature : Rat) :
    (config.request ask.role [] temperature).make
      = .error (.valueError "Model and messages are required") :=
  if_pos (.inr rfl)

theorem repairMessages_ok {parser : Parser α} {text : String} {firstError : Exn}
    (h : Quotable parser text firstError) :
    ∃ messages, repairMessages parser ask.messages text firstError = .ok messages ∧
      messages ≠ [] := by
  obtain ⟨htext, hinstruction⟩ := h
  have hquoted : Text.isBlank (if text = "" then "<empty>" else text) = false := by
    rcases htext with rfl | htext
    · decide
    · split
      · decide
      · exact htext
  refine ⟨ask.messages ++ [⟨.assistant, _, hquoted⟩, ⟨.user, _, hinstruction⟩], ?_, by simp⟩
  simp only [repairMessages, ModelMessage.make, dif_pos hquoted, dif_pos hinstruction]
  rfl

theorem repairMessages_error {parser : Parser α} {text : String} {firstError : Exn}
    (h : ¬Quotable parser text firstError) :
    repairMessages parser ask.messages text firstError
      = .error (.valueError "Model message content cannot be empty") := by
  by_cases hquoted : Text.isBlank (if text = "" then "<empty>" else text) = false
  · have hinstruction : ¬Text.isBlank (parser.repairInstruction firstError) = false := by
      intro hinstruction
      refine h ⟨?_, hinstruction⟩
      by_cases htext : text = ""
      · exact .inl htext
      · rw [if_neg htext] at hquoted
        exact .inr hquoted
    simp only [repairMessages, ModelMessage.make, dif_pos hquoted, dif_neg hinstruction]
    rfl
  · simp only [repairMessages, ModelMessage.make, dif_neg hquoted]
    rfl

/-- **The repair** raises something else only if it cannot quote the answer. -/
theorem repair_sound_iff {parser : Parser α}
    (hparser : ∀ text e, parser.parse text = .error e → unparsable e = true)
    (hturns : ∀ i, (turns i).Typed) (hprovider : config.provider ∈ g.providers)
    (haware : ask.deadline.aware = true) (hcontext : g.audited = true → ask.context.isSome = true)
    (response : ProviderResponse) (calls : Nat) (firstError : Exn) (s : Progress) :
    Sound parser ((repair g turns ask config parser response calls firstError).call s).1 ↔
      Quotable parser response.text firstError := by
  by_cases hquotable : Quotable parser response.text firstError
  · refine iff_of_true ?_ hquotable
    obtain ⟨messages, hmessages, hne⟩ : ∃ messages,
        repairMessages parser ask.messages response.text firstError = .ok messages ∧
          messages ≠ [] := repairMessages_ok hquotable
    simp only [repair, raising, call_bind, call_ofExcept, hmessages, make_ok hne, Except.mapError]
    have h := invoke_answers turns
      (ask.invocation config (config.request ask.role messages 0) (max calls 1))
      hprovider haware hcontext hturns s
    rcases hcall : (invoke g turns (ask.invocation config (config.request ask.role messages 0)
      (max calls 1))).call s with ⟨r, t⟩
    rw [hcall] at h
    cases r with
    | error e => exact h.1
    | ok r =>
        dsimp only
        cases hparse : parser.parse r.1.text with
        | ok value => exact ⟨value, rfl, hparse⟩
        | error e =>
            dsimp only
            rw [if_pos (hparser _ _ hparse)]
            exact rfl
  · refine iff_of_false ?_ hquotable
    simp only [repair, raising, call_bind, call_ofExcept, repairMessages_error hquotable,
      Except.mapError]
    exact Bool.false_ne_true

/-- A generate whose caller passes something else raises a `ValueError`. -/
theorem not_sound_of_not_posed (hrole : g.roles ask.role = some config) {parser : Parser α}
    (b : ModelCallBudget) (h : ¬Posed g turns ask config) :
    ¬Sound parser (generated g turns ask (some parser) b).1 := by
  unfold generated generate
  simp only [hrole]
  by_cases hmessages : ask.messages = []
  · simp only [hmessages, raising, call_bind, call_ofExcept, make_empty, Except.mapError]
    exact Bool.false_ne_true
  simp only [raising, call_bind, call_ofExcept, make_ok hmessages, Except.mapError]
  by_cases hprovider : config.provider ∈ g.providers
  · by_cases haware : ask.deadline.aware = true
    · by_cases hlate : late ask.deadline (turns 0).now = true
      · exact absurd ⟨hprovider, hmessages, haware, fun _ _ => hlate⟩ h
      by_cases hcontext : g.audited = true ∧ ask.context = none
      · obtain ⟨hg, hnone⟩ := hcontext
        have hmargin : remainingBeforeMargin ask.deadline (turns 0).now
            = .ok (((ask.deadline.instant - (turns 0).now : Int) : Rat) / 1000000) := by
          rw [remainingBeforeMargin_eq, if_neg (by simp [haware]), if_neg hlate]
        obtain ⟨t, hcall⟩ := invoke_contextless turns
          (ask.invocation config (config.request ask.role ask.messages config.temperature) 0)
          hprovider hg hnone { budget := b } hmargin
        rw [hcall]
        exact Bool.false_ne_true
      · refine absurd ⟨hprovider, hmessages, haware, fun hg hnone => ?_⟩ h
        exact absurd ⟨hg, hnone⟩ hcontext
    · have hnaive : remainingBeforeMargin ask.deadline (turns 0).now
          = .error (.exn (.valueError "Model deadline must be timezone-aware")) := by
        rw [remainingBeforeMargin_eq, if_pos (Bool.eq_false_iff.mpr haware)]
      obtain ⟨t, hcall⟩ := invoke_refused turns
        (ask.invocation config (config.request ask.role ask.messages config.temperature) 0)
        hprovider { budget := b } hnaive
      rw [hcall]
      exact Bool.false_ne_true
  · have hcall := (invoke_unknown turns
      (ask.invocation config (config.request ask.role ask.messages config.temperature) 0)
      hprovider { budget := b }).2
    rw [hcall]
    exact Bool.false_ne_true

/--
**Which exceptions leave a generate.** The parser raises a `ValueError`, a `TypeError` or a
`KeyError`, the outside raises a `TypedError` or runs out of its time, and the role is configured.
Then a generate ends as it should exactly if the caller passes what it asks for and the first
answer, if the parser refuses it, can be quoted in the repair.
-/
theorem generate_sound_iff (g : Gateway) (turns : Nat → Turn) (ask : Asking) {config : RoleConfig}
    (hrole : g.roles ask.role = some config) (parser : Parser α)
    (hparser : ∀ text e, parser.parse text = .error e → unparsable e = true)
    (hturns : ∀ i, (turns i).Typed) (b : ModelCallBudget) :
    Sound parser (generated g turns ask (some parser) b).1 ↔
      Posed g turns ask config ∧
        ∀ response e, FirstAnswer g ask.deadline b turns config.maxRetries response →
          parser.parse response.text = .error e → Quotable parser response.text e := by
  by_cases hposed : Posed g turns ask config
  swap
  · exact iff_of_false (not_sound_of_not_posed hrole b hposed) fun h => hposed h.1
  rw [and_iff_right hposed]
  have hmake : (config.request ask.role ask.messages config.temperature).make = .ok _ :=
    make_ok hposed.messages config.temperature
  unfold generated generate
  simp only [hrole, raising, call_bind, call_ofExcept, hmake, Except.mapError]
  by_cases hcontext : g.audited = true → ask.context.isSome = true
  · have h := invoke_answers turns
      (ask.invocation config (config.request ask.role ask.messages config.temperature) 0)
      hposed.provider hposed.aware hcontext hturns { budget := b }
    simp only [Nat.zero_add] at h
    rcases hcall : (invoke g turns (ask.invocation config
      (config.request ask.role ask.messages config.temperature) 0)).call { budget := b } with ⟨r, t⟩
    rw [hcall] at h
    cases r with
    | error e => exact iff_of_true h.1 fun response _ hfirst => absurd hfirst (h.2 response)
    | ok r =>
        obtain ⟨response, calls⟩ := r
        have hfirst : FirstAnswer g ask.deadline b turns config.maxRetries response := h
        dsimp only
        cases hparse : parser.parse response.text with
        | ok value =>
            refine iff_of_true ⟨value, rfl, hparse⟩ fun response' e hfirst' herror => ?_
            rw [hfirst'.unique hfirst, hparse] at herror
            cases herror
        | error firstError =>
            dsimp only
            rw [if_pos (hparser _ _ hparse), repair_sound_iff hparser hturns hposed.provider
              hposed.aware hcontext response calls firstError t]
            constructor
            · intro hquotable response' e hfirst' herror
              cases hfirst'.unique hfirst
              rw [hparse] at herror
              cases herror
              exact hquotable
            · exact fun hall => hall response firstError hfirst hparse
  · -- there is no context, and no time either
    rw [Classical.not_imp, Bool.not_eq_true, Option.isSome_eq_false_iff, Option.isNone_iff_eq_none]
      at hcontext
    have hlate := hposed.context hcontext.1 hcontext.2
    have hmargin : remainingBeforeMargin ask.deadline (turns 0).now
        = .error modelDeadlineExceeded := by
      rw [remainingBeforeMargin_eq, if_neg (by simp [hposed.aware]), if_pos hlate]
    obtain ⟨t, hcall⟩ := invoke_refused turns
      (ask.invocation config (config.request ask.role ask.messages config.temperature) 0)
      hposed.provider { budget := b } hmargin
    rw [hcall]
    refine iff_of_true typed_deadlineExceeded fun response _ hfirst => ?_
    exact absurd hfirst (not_firstAnswer_of_late hlate)

/-- A parser that accepts one text. -/
def sampleParser : Parser Unit where
  parse text := if text = "ok" then .ok () else .error (.valueError "not ok")
  repairInstruction _ := "answer ok"
  errorText _ := "not ok"

theorem sampleParser_unparsable (text : String) (e : Exn)
    (h : sampleParser.parse text = .error e) : unparsable e = true := by
  unfold sampleParser at h
  dsimp only at h
  split at h
  · cases h
  · cases h
    rfl

theorem answering_typed (text : String) (i : Nat) : (answering text i).Typed where
  reuse _ h := by cases h
  start _ h := by cases h
  outcome _ h := by cases h
  sealed _ h := by cases h

/-- The law where the parser accepts the answer. -/
theorem generate_sound_iff_ok :
    Sound sampleParser
        (generated (sampleGateway true) (answering "ok") sampleAsking (some sampleParser)
          ⟨0, 0, 0, 0, 0⟩).1 ↔
      Posed (sampleGateway true) (answering "ok") sampleAsking sampleConfig ∧
        ∀ response e, FirstAnswer (sampleGateway true) sampleAsking.deadline ⟨0, 0, 0, 0, 0⟩
            (answering "ok") sampleConfig.maxRetries response →
          sampleParser.parse response.text = .error e → Quotable sampleParser response.text e :=
  generate_sound_iff (sampleGateway true) (answering "ok") sampleAsking rfl sampleParser
    sampleParser_unparsable (answering_typed "ok") ⟨0, 0, 0, 0, 0⟩

/-- A provider that answers with a space: the repair cannot quote it. -/
theorem blank_answer_escapes :
    (sampleGateway false).roles sampleAsking.role = some sampleConfig ∧
      (∀ text e, sampleParser.parse text = .error e → unparsable e = true) ∧
      (∀ i, (answering " " i).Typed) ∧
      ¬Sound sampleParser
        (generated (sampleGateway false) (answering " ") sampleAsking (some sampleParser)
          ⟨2, 24000, 0, 0, 0⟩).1 := by
  refine ⟨rfl, sampleParser_unparsable, answering_typed " ", ?_⟩
  have hescapes : (generated (sampleGateway false) (answering " ") sampleAsking
      (some sampleParser) ⟨2, 24000, 0, 0, 0⟩).1
        = .error (.exn (.valueError "Model message content cannot be empty")) := by
    decide +kernel
  rw [hescapes]
  exact Bool.false_ne_true

end Generate

end Sana.ModelGateway.Service
