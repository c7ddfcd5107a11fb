import Mathlib.Data.Rat.Cast.Order
import Mathlib.Tactic.NormNum
import Sana.ModelGateway.Service

/-!
# What a generate spends

The calls a generate makes and the answers it gets can be read off its trace. Between two turns
the budget has counted every call, and the tokens of every answer. A reservation that is followed
by no call is the exception: the deadline has come between the two, and the generate is over.

With an audit sink the budget is not looked at. There each call has a reservation of the sink
before it.
-/

namespace Sana.ModelGateway.Service

open Sana.Lib Method

/-! ## Reading a trace -/

def Event.isCall : Event → Bool
  | .called .. => true
  | _ => false

def Event.isStart : Event → Bool
  | .started .. => true
  | _ => false

def Event.answer? : Event → Option ProviderResponse
  | .answered response => some response
  | _ => none

/-- The calls the provider has had. -/
def providerCalls (trace : List Event) : Nat := trace.countP Event.isCall

/-- The reservations the audit sink has made. -/
def reservations (trace : List Event) : Nat := trace.countP Event.isStart

/-- What the provider has answered. -/
def answers (trace : List Event) : List ProviderResponse := trace.filterMap Event.answer?

/-- The tokens of some responses. -/
def tokens (responses : List ProviderResponse) : Nat :=
  (responses.map fun r => r.promptTokens + r.completionTokens).sum

@[simp] theorem providerCalls_nil : providerCalls [] = 0 := rfl
@[simp] theorem answers_nil : answers [] = [] := rfl
@[simp] theorem tokens_nil : tokens [] = 0 := rfl

@[simp]
theorem providerCalls_append (l m : List Event) :
    providerCalls (l ++ m) = providerCalls l + providerCalls m := List.countP_append

@[simp]
theorem reservations_append (l m : List Event) :
    reservations (l ++ m) = reservations l + reservations m := List.countP_append

@[simp]
theorem answers_append (l m : List Event) : answers (l ++ m) = answers l ++ answers m :=
  List.filterMap_append

@[simp]
theorem tokens_append (l m : List ProviderResponse) : tokens (l ++ m) = tokens l + tokens m := by
  simp [tokens]

@[simp]
theorem providerCalls_singleton (event : Event) :
    providerCalls [event] = if event.isCall then 1 else 0 := by
  cases event <;> rfl

@[simp]
theorem reservations_singleton (event : Event) :
    reservations [event] = if event.isStart then 1 else 0 := by
  cases event <;> rfl

@[simp]
theorem answers_singleton (event : Event) : answers [event] = event.answer?.toList := by
  cases event <;> rfl

/-- A reservation before each call. -/
def Preceded (trace : List Event) : Prop :=
  ∀ l, l <+: trace → providerCalls l ≤ reservations l

theorem preceded_snoc {trace : List Event} {event : Event} (h : Preceded trace)
    (hlast : providerCalls (trace ++ [event]) ≤ reservations (trace ++ [event])) :
    Preceded (trace ++ [event]) := by
  intro l hl
  rcases List.prefix_concat_iff.mp hl with rfl | hl
  · exact hlast
  · exact h l hl

/-! ## Deadlines -/

/-- Less is left than the margin. -/
def late (deadline : Deadline) (now : Time) : Bool := deadline.instant - now ≤ seconds 2

theorem late_iff (deadline : Deadline) (now : Time) :
    late deadline now = true ↔
      ((deadline.instant - now : Int) : Rat) / 1000000 ≤ completionMarginSeconds := by
  have hcast : ((deadline.instant - now : Int) : Rat) / 1000000 ≤ 2
      ↔ ((deadline.instant - now : Int) : Rat) ≤ ((2000000 : Int) : Rat) := by
    rw [div_le_iff₀ (by norm_num)]
    norm_num
  rw [late, decide_eq_true_iff, completionMarginSeconds, hcast, Int.cast_le]
  rfl

/-- A deadline is refused if it is naive, or too close. -/
theorem remainingBeforeMargin_eq (deadline : Deadline) (now : Time) :
    remainingBeforeMargin deadline now
      = if deadline.aware = false then
          .error (.exn (.valueError "Model deadline must be timezone-aware"))
        else if late deadline now = true then .error modelDeadlineExceeded
        else .ok (((deadline.instant - now : Int) : Rat) / 1000000) := by
  unfold remainingBeforeMargin remainingSeconds
  by_cases haware : deadline.aware = false
  · rw [if_pos haware, if_pos haware]
    rfl
  rw [if_neg haware, if_neg haware]
  by_cases hlate : late deadline now = true
  · rw [if_pos hlate]
    dsimp only
    by_cases hpast : ((deadline.instant - now : Int) : Rat) / 1000000 ≤ 0
    · rw [if_pos hpast]
      rfl
    · rw [if_neg hpast]
      exact if_pos ((late_iff deadline now).mp hlate)
  · have hmargin : ¬((deadline.instant - now : Int) : Rat) / 1000000 ≤ completionMarginSeconds :=
      fun h => hlate ((late_iff deadline now).mpr h)
    have hfuture : ¬((deadline.instant - now : Int) : Rat) / 1000000 ≤ 0 := by
      intro h
      exact hmargin (h.trans (by norm_num [completionMarginSeconds]))
    rw [if_neg hlate]
    dsimp only
    rw [if_neg hfuture]
    exact if_neg hmargin

theorem remainingBeforeMargin_error {deadline : Deadline} {now : Time} {e : Raised}
    (h : remainingBeforeMargin deadline now = .error e) :
    e = modelDeadlineExceeded ∨ deadline.aware = false := by
  rw [remainingBeforeMargin_eq] at h
  split at h
  · exact .inr ‹_›
  · split at h
    · exact .inl (Except.error.inj h).symm
    · cases h

theorem remainingBeforeMargin_ok {deadline : Deadline} {now : Time} {remaining : Rat}
    (h : remainingBeforeMargin deadline now = .ok remaining) : deadline.aware = true := by
  by_contra haware
  rw [remainingBeforeMargin_eq, if_pos (Bool.eq_false_iff.mpr haware)] at h
  cases h

/-! ## Without an audit sink -/

/-- The budget `b` is the one the generate was given, and `n` calls have been counted. -/
structure Counted (b : ModelCallBudget) (n : Nat) (s : Progress) : Prop where
  maxCalls : s.budget.maxCalls = b.maxCalls
  maxTotalTokens : s.budget.maxTotalTokens = b.maxTotalTokens
  used : s.budget.usedCalls = b.usedCalls + n
  within : n ≤ b.maxCalls - b.usedCalls

/-- Between two turns: every call and the tokens of every answer are in the budget. -/
structure Settled (b : ModelCallBudget) (s : Progress) : Prop where
  counted : Counted b (providerCalls s.trace) s
  tokens : s.budget.usedTotalTokens = b.usedTotalTokens + tokens (answers s.trace)

/-- A call is reserved and not made. -/
structure Owing (b : ModelCallBudget) (s : Progress) : Prop where
  counted : Counted b (providerCalls s.trace + 1) s
  tokens : s.budget.usedTotalTokens = b.usedTotalTokens + Service.tokens (answers s.trace)

/-- An answer is there whose tokens are not counted. -/
structure Answered (b : ModelCallBudget) (response : ProviderResponse) (s : Progress) : Prop where
  counted : Counted b (providerCalls s.trace) s
  tokens : s.budget.usedTotalTokens + Service.tokens [response]
    = b.usedTotalTokens + Service.tokens (answers s.trace)

/-- How a turn can raise: every call is counted, or the deadline came between a reservation and its
call. -/
def Stopped (b : ModelCallBudget) (e : Raised) (s : Progress) : Prop :=
  Counted b (providerCalls s.trace) s ∨
    Counted b (providerCalls s.trace + 1) s ∧ e = modelDeadlineExceeded

/-- The tokens are within the budget. -/
def Afforded (s : Progress) : Prop := s.budget.usedTotalTokens ≤ s.budget.maxTotalTokens

section Unaudited

variable {g : Gateway} {turns : Nat → Turn} {inv : Invocation} {b : ModelCallBudget}

theorem nextTurn_yields {P : Progress → Prop} {E : Raised → Progress → Prop}
    (h : ∀ s n, P s → P { s with turn := n }) :
    Yields P (nextTurn turns) (fun _ => P) E :=
  fun s hs => h s (s.turn + 1) hs

theorem reserve_yields (hg : g.audited = false) (turn : Turn) (callNo : Nat) :
    Yields (Settled b) (reserve g inv turn callNo) (fun r s => r = .inr none ∧ Owing b s)
      (Stopped b) := by
  intro s hs
  obtain ⟨⟨hmax, htotal, hused, hwithin⟩, htokens⟩ := hs
  simp only [reserve, hg, Bool.false_eq_true, if_false, spend, ModelCallBudget.reserveCall]
  by_cases hfull : s.budget.usedCalls + 1 > s.budget.maxCalls
  · simp only [call_bind, call_get, call_ofExcept, if_pos hfull]
    exact .inl ⟨hmax, htotal, hused, hwithin⟩
  · simp only [call_bind, call_get, call_ofExcept, if_neg hfull, call_modify, call_pure]
    refine ⟨trivial, ⟨hmax, htotal, ?_, ?_⟩, htokens⟩
    · show s.budget.usedCalls + 1 = b.usedCalls + (providerCalls s.trace + 1)
      omega
    · show providerCalls s.trace + 1 ≤ b.maxCalls - b.usedCalls
      omega

theorem callProvider_yields (haware : inv.deadline.aware = true) (turn : Turn) :
    Yields (Owing b) (callProvider inv turn) (Answered b)
      (fun e s => Settled b s ∨ Owing b s ∧ e = modelDeadlineExceeded) := by
  refine Yields.bind (yields_ofExcept fun s e hs hlate => ?_) fun remaining => ?_
  · rcases remainingBeforeMargin_error hlate with rfl | hnaive
    · exact .inr ⟨hs, rfl⟩
    · rw [hnaive] at haware
      cases haware
  refine Yields.bind (Q := fun _ => Settled b) (yields_modify ?_) fun _ => ?_
  · rintro s ⟨⟨⟨hmax, htotal, hused, hwithin⟩, htokens⟩, -⟩
    refine ⟨⟨hmax, htotal, ?_, ?_⟩, ?_⟩
    · simpa [Event.isCall] using hused
    · simpa [Event.isCall] using hwithin
    · simpa [Event.answer?] using htokens
  refine Yields.bind (yields_ofExcept fun s e hs _ => .inl hs) fun response => ?_
  refine Yields.bind (Q := fun _ => Answered b response) (yields_modify ?_) fun _ => ?_
  · rintro s ⟨⟨⟨hmax, htotal, hused, hwithin⟩, htokens⟩, -⟩
    refine ⟨⟨hmax, htotal, ?_, ?_⟩, ?_⟩
    · simpa [Event.isCall] using hused
    · simpa [Event.isCall] using hwithin
    · show s.budget.usedTotalTokens + tokens [response]
        = b.usedTotalTokens + tokens (answers (s.trace ++ [.answered response]))
      rw [htokens, answers_append, tokens_append, answers_singleton]
      exact Nat.add_assoc _ _ _
  exact yields_pure fun _ hs => hs

theorem handle_yields (turn : Turn) (attempt : Nat) (raised : Raised) :
    Yields (fun s => Settled b s ∨ Owing b s ∧ raised = modelDeadlineExceeded)
      (handle inv turn none attempt raised) (fun _ => Settled b) (Stopped b) := by
  by_cases hdeadline : raised = modelDeadlineExceeded
  · -- the deadline is not worth repeating
    subst hdeadline
    intro s hs
    rcases hs with hs | ⟨hs, -⟩
    · exact .inl hs.counted
    · exact .inr ⟨hs.counted, rfl⟩
  have hsettled : Yields (Settled b) (handle inv turn none attempt raised) (fun _ => Settled b)
      (Stopped b) := by
    unfold handle
    split
    · refine Yields.bind (Q := fun _ => Settled b) (yields_pure fun s hs => hs) fun _ => ?_
      split
      · exact yields_throw fun s hs => .inl hs.counted
      · exact yields_pure fun s hs => hs
    · refine Yields.bind (Q := fun _ => Settled b) (yields_pure fun s hs => hs) fun _ => ?_
      split
      · exact yields_throw fun s hs => .inl hs.counted
      · split
        · exact yields_throw fun s hs => .inl hs.counted
        · exact yields_pure fun s hs => hs
  refine hsettled.weaken (fun s hs => ?_) (fun _ _ h => h) fun _ _ h => h
  rcases hs with hs | ⟨-, hs⟩
  · exact hs
  · exact absurd hs hdeadline

theorem settle_yields (turn : Turn) (response : ProviderResponse) :
    Yields (Answered b response) (settle turn none response)
      (fun _ s => Settled b s ∧ Afforded s) (Stopped b) := by
  rintro s ⟨⟨hmax, htotal, hused, hwithin⟩, htokens⟩
  have hsum : tokens [response] = response.promptTokens + response.completionTokens := by
    simp [tokens]
  simp only [settle, spend, ModelCallBudget.recordTokens]
  by_cases hfull : s.budget.usedTotalTokens + response.promptTokens + response.completionTokens
      > s.budget.maxTotalTokens
  · simp only [call_bind, call_get, call_ofExcept, if_pos hfull]
    exact .inl ⟨hmax, htotal, hused, hwithin⟩
  · simp only [call_bind, call_get, call_ofExcept, if_neg hfull, call_modify]
    have hnew : s.budget.usedPromptTokens + response.promptTokens
        + (s.budget.usedCompletionTokens + response.completionTokens)
        = s.budget.usedTotalTokens + tokens [response] := by
      rw [hsum, ModelCallBudget.usedTotalTokens]
      omega
    refine ⟨⟨⟨hmax, htotal, hused, hwithin⟩, hnew.trans htokens⟩, ?_⟩
    refine hnew.le.trans ?_
    show s.budget.usedTotalTokens + tokens [response] ≤ s.budget.maxTotalTokens
    omega

/-- **One turn.** -/
theorem takeTurn_yields (hg : g.audited = false) (attempt calls : Nat) :
    Yields (Settled b) (takeTurn g turns inv attempt calls)
      (fun ended s => Settled b s ∧ ∀ r n, ended = .answered r n → Afforded s) (Stopped b) := by
  have hcounted : ∀ (s : Progress) (e : Raised), Settled b s → Stopped b e s :=
    fun s e hs => .inl hs.counted
  refine Yields.bind (Q := fun _ => Settled b) (nextTurn_yields fun s n hs => ?_) fun turn => ?_
  · exact ⟨⟨hs.counted.maxCalls, hs.counted.maxTotalTokens, hs.counted.used, hs.counted.within⟩,
      hs.tokens⟩
  refine Yields.bind (yields_ofExcept fun s e hs _ => hcounted s e hs) fun remaining => ?_
  refine yields_of_pre (fun s hs => remainingBeforeMargin_ok hs.2) fun haware => ?_
  refine Yields.bind ((reserve_yields hg turn _).weaken (fun s hs => hs.1) (fun r s h => h)
    fun e s h => h) fun r => ?_
  refine yields_of_pre (fun s hs => hs.1) fun hr => ?_
  subst hr
  refine Yields.bind (Q := fun outcome s => match outcome with
    | .ok response => Answered b response s
    | .error _ => Settled b s) (Yields.tryCatch (Yields.bind
      ((callProvider_yields haware turn).weaken (fun s hs => hs.2) (fun r s h => h)
        fun e s h => h) fun response => yields_pure fun s hs => hs)
      fun raised => Yields.bind (handle_yields turn attempt raised) fun e =>
        yields_pure fun s hs => hs) fun outcome => ?_
  cases outcome with
  | error lastError => exact yields_pure fun s hs => ⟨hs, fun _ _ h => by cases h⟩
  | ok response =>
      refine Yields.bind (settle_yields turn response) fun _ => ?_
      exact yields_pure fun s hs => ⟨hs.1, fun _ _ _ => hs.2⟩

/-- **The loop.** -/
theorem attempts_yields (hg : g.audited = false) (attempt calls left : Nat)
    (lastError : Option Raised) :
    Yields (Settled b) (attempts g turns inv attempt calls lastError left)
      (fun _ s => Settled b s ∧ Afforded s) (Stopped b) := by
  induction left generalizing attempt calls lastError with
  | zero =>
      cases lastError with
      | none => exact yields_throw fun s hs => .inl hs.counted
      | some e => exact yields_throw fun s hs => .inl hs.counted
  | succ left ih =>
      refine Yields.bind (takeTurn_yields hg attempt calls) fun ended => ?_
      cases ended with
      | answered response calls => exact yields_pure fun s hs => ⟨hs.1, hs.2 _ _ rfl⟩
      | again e calls =>
          exact (ih (attempt + 1) calls (some e)).weaken (fun s hs => hs.1) (fun _ _ h => h)
            fun _ _ h => h

theorem invoke_yields (hg : g.audited = false) :
    Yields (Settled b) (invoke g turns inv) (fun _ s => Settled b s ∧ Afforded s) (Stopped b) := by
  unfold invoke
  split
  · exact attempts_yields hg 0 0 _ none
  · exact yields_throw fun s hs => .inl hs.counted

variable {α : Type} {ask : Asking}

theorem raising_yields {P : Progress → Prop} (hP : ∀ s, P s → Settled b s) (r : Except Exn α) :
    Yields P (raising r) (fun _ => P) (Stopped b) :=
  (yields_ofExcept fun s _ hs _ => .inl (hP s hs).counted).weaken (fun _ hs => hs)
    (fun _ _ h => h.1) fun _ _ h => h

theorem repair_yields (hg : g.audited = false) (config : RoleConfig) (parser : Parser α)
    (response : ProviderResponse) (calls : Nat) (firstError : Exn) :
    Yields (Settled b) (repair g turns ask config parser response calls firstError)
      (fun _ s => Settled b s ∧ Afforded s) (Stopped b) := by
  refine Yields.bind (raising_yields (fun _ hs => hs) _) fun messages => ?_
  refine Yields.bind (raising_yields (fun _ hs => hs) _) fun request => ?_
  refine Yields.bind (invoke_yields hg) fun ⟨repaired, repairCalls⟩ => ?_
  dsimp only
  cases parser.parse repaired.text with
  | ok parsed => exact yields_pure fun s hs => hs
  | error secondError =>
      dsimp only
      split
      · exact yields_throw fun s hs => .inl hs.1.counted
      · exact yields_throw fun s hs => .inl hs.1.counted

variable (turns ask) in
/-- **A generate without an audit sink.** -/
theorem generate_yields (hg : g.audited = false) (parser : Option (Parser α)) :
    Yields (Settled b) (generate g turns ask parser) (fun _ s => Settled b s ∧ Afforded s)
      (Stopped b) := by
  unfold generate
  split
  · exact yields_throw fun s hs => .inl hs.counted
  refine Yields.bind (raising_yields (fun _ hs => hs) _) fun request => ?_
  refine Yields.bind (invoke_yields hg) fun ⟨response, calls⟩ => ?_
  cases parser with
  | none => exact yields_pure fun s hs => hs
  | some parser =>
      dsimp only
      cases parser.parse response.text with
      | ok parsed => exact yields_pure fun s hs => hs
      | error firstError =>
          dsimp only
          split
          · exact (repair_yields hg _ parser response calls firstError).weaken (fun _ hs => hs.1)
              (fun _ _ h => h) fun _ _ h => h
          · exact yields_throw fun s hs => .inl hs.1.counted

end Unaudited

/-! ## With an audit sink -/

/-- The budget is as it was, each call has its reservation, and there are at most `n` calls. -/
structure Paid (b : ModelCallBudget) (n : Nat) (s : Progress) : Prop where
  untouched : s.budget = b
  preceded : Preceded s.trace
  calls : providerCalls s.trace ≤ n

theorem Paid.mono {b : ModelCallBudget} {m n : Nat} {s : Progress} (h : Paid b m s) (hn : m ≤ n) :
    Paid b n s :=
  ⟨h.untouched, h.preceded, h.calls.trans hn⟩

/-- What is told after a call, and is no call, changes nothing of this. -/
theorem Paid.tell {b : ModelCallBudget} {n : Nat} {s : Progress} (h : Paid b n s) {event : Event}
    (hcall : event.isCall = false) : Paid b n { s with trace := s.trace ++ [event] } := by
  have hsame : providerCalls (s.trace ++ [event]) = providerCalls s.trace := by simp [hcall]
  refine ⟨h.untouched, preceded_snoc h.preceded ?_, hsame.trans_le h.calls⟩
  rw [hsame, reservations_append]
  exact (h.preceded s.trace (List.prefix_refl _)).trans (Nat.le_add_right _ _)

section Audited

variable {g : Gateway} {turns : Nat → Turn} {inv : Invocation} {b : ModelCallBudget} {n : Nat}

theorem tell_paid {event : Event} (hcall : event.isCall = false) {E : Raised → Progress → Prop} :
    Yields (Paid b n) (tell event) (fun _ => Paid b n) E :=
  yields_modify fun _ hs => hs.tell hcall

/-- What the sink or the provider raises or returns is no change. -/
theorem ofExcept_paid {α : Type} (r : Except Raised α) :
    Yields (Paid b n) (Method.ofExcept r) (fun _ => Paid b n) (fun _ => Paid b n) :=
  (yields_ofExcept fun _ _ hs _ => hs).weaken (fun _ hs => hs) (fun _ _ h => h.1) fun _ _ h => h

theorem reserve_paid (hg : g.audited = true) (turn : Turn) (callNo : Nat) :
    Yields (Paid b n) (reserve g inv turn callNo)
      (fun r s => Paid b n s ∧ ∀ reservation, r = .inr reservation →
        reservation.isSome = true ∧ providerCalls s.trace + 1 ≤ reservations s.trace)
      (fun _ => Paid b n) := by
  unfold reserve
  rw [if_pos hg]
  split
  · exact yields_throw fun s hs => hs
  refine Yields.bind (ofExcept_paid _) fun reused => ?_
  cases reused with
  | some reused => exact yields_pure fun s hs => ⟨hs, fun _ h => by cases h⟩
  | none =>
      refine Yields.bind (ofExcept_paid _) fun reservation => ?_
      refine Yields.bind (Q := fun _ s => Paid b n s ∧
        providerCalls s.trace + 1 ≤ reservations s.trace) (yields_modify fun s hs => ?_) fun _ => ?_
      · refine ⟨hs.tell rfl, ?_⟩
        have hbefore := hs.preceded s.trace (List.prefix_refl _)
        show providerCalls (s.trace ++ [.started callNo reservation]) + 1
          ≤ reservations (s.trace ++ [.started callNo reservation])
        simpa [Event.isCall, Event.isStart] using hbefore
      · refine yields_pure fun s hs => ⟨hs.1, fun x hx => ?_⟩
        cases hx
        exact ⟨rfl, hs.2⟩

theorem callProvider_paid (turn : Turn) :
    Yields (fun s => Paid b n s ∧ providerCalls s.trace + 1 ≤ reservations s.trace)
      (callProvider inv turn) (fun _ => Paid b (n + 1)) (fun _ => Paid b (n + 1)) := by
  refine Yields.bind (yields_ofExcept fun s e hs _ => hs.1.mono (Nat.le_succ n)) fun remaining => ?_
  refine Yields.bind (Q := fun _ => Paid b (n + 1)) (yields_modify ?_) fun _ => ?_
  · rintro s ⟨⟨hs, hpaid⟩, -⟩
    have hcalls : ∀ request timeout, providerCalls (s.trace ++ [Event.called request timeout])
        = providerCalls s.trace + 1 := by
      intro request timeout
      simp [Event.isCall]
    refine ⟨hs.untouched, preceded_snoc hs.preceded ?_, ?_⟩
    · rw [hcalls]
      simpa [Event.isStart] using hpaid
    · exact (hcalls _ _).trans_le (Nat.succ_le_succ hs.calls)
  refine Yields.bind (ofExcept_paid _) fun response => ?_
  exact Yields.bind (tell_paid rfl) fun _ => yields_pure fun s hs => hs

theorem failCall_paid (turn : Turn) (reservation : Option ModelInvocationReservation)
    (raised : Raised) :
    Yields (Paid b n) (failCall turn reservation raised) (fun _ => Paid b n)
      (fun _ => Paid b n) := by
  unfold failCall
  split
  · exact yields_pure fun s hs => hs
  · refine Yields.bind (ofExcept_paid _) fun error => ?_
    refine Yields.bind (ofExcept_paid _) fun _ => ?_
    exact tell_paid rfl

theorem handle_paid (turn : Turn) (reservation : Option ModelInvocationReservation) (attempt : Nat)
    (raised : Raised) :
    Yields (Paid b n) (handle inv turn reservation attempt raised) (fun _ => Paid b n)
      (fun _ => Paid b n) := by
  unfold handle
  split
  · refine Yields.bind (failCall_paid turn reservation _) fun _ => ?_
    split
    · exact yields_throw fun s hs => hs
    · exact yields_pure fun s hs => hs
  · refine Yields.bind (failCall_paid turn reservation _) fun _ => ?_
    split
    · exact yields_throw fun s hs => hs
    · split
      · exact yields_throw fun s hs => hs
      · exact yields_pure fun s hs => hs

theorem settle_paid (turn : Turn) (reservation : ModelInvocationReservation)
    (response : ProviderResponse) :
    Yields (Paid b n) (settle turn (some reservation) response) (fun _ => Paid b n)
      (fun _ => Paid b n) :=
  Yields.bind (ofExcept_paid _) fun _ => tell_paid rfl

/-- **One turn.** -/
theorem takeTurn_paid (hg : g.audited = true) (attempt calls : Nat) :
    Yields (Paid b n) (takeTurn g turns inv attempt calls) (fun _ => Paid b (n + 1))
      (fun _ => Paid b (n + 1)) := by
  have hmono : ∀ (s : Progress), Paid b n s → Paid b (n + 1) s := fun s hs => hs.mono (Nat.le_succ n)
  refine Yields.bind (Q := fun _ => Paid b n) (nextTurn_yields fun s _ hs => ?_) fun turn => ?_
  · exact ⟨hs.untouched, hs.preceded, hs.calls⟩
  refine Yields.bind ((ofExcept_paid _).weaken (fun _ hs => hs) (fun _ _ h => h) fun _ => hmono)
    fun _ => ?_
  refine Yields.bind ((reserve_paid hg turn _).weaken (fun _ hs => hs) (fun _ _ h => h)
    fun _ => hmono) fun r => ?_
  cases r with
  | inl response => exact yields_pure fun s hs => hmono s hs.1
  | inr reservation =>
      refine yields_of_pre (fun s hs => (hs.2 _ rfl).1) fun hsome => ?_
      obtain ⟨reservation, rfl⟩ := Option.isSome_iff_exists.mp hsome
      refine Yields.bind (Q := fun _ => Paid b (n + 1)) (Yields.tryCatch (Yields.bind
        ((callProvider_paid turn).weaken (fun s hs => ⟨hs.1, (hs.2 _ rfl).2⟩) (fun _ _ h => h)
          fun _ _ h => h) fun response => yields_pure fun s hs => hs)
        fun raised => Yields.bind (handle_paid turn _ attempt raised) fun e =>
          yields_pure fun s hs => hs) fun outcome => ?_
      cases outcome with
      | error lastError => exact yields_pure fun s hs => hs
      | ok response =>
          refine Yields.bind (settle_paid turn reservation response) fun _ => ?_
          exact yields_pure fun s hs => hs

/-- **The loop** makes at most one call a turn. -/
theorem attempts_paid (hg : g.audited = true) (attempt calls left : Nat)
    (lastError : Option Raised) :
    Yields (Paid b n) (attempts g turns inv attempt calls lastError left)
      (fun _ => Paid b (n + left)) (fun _ => Paid b (n + left)) := by
  induction left generalizing n attempt calls lastError with
  | zero =>
      cases lastError with
      | none => exact yields_throw fun s hs => hs
      | some e => exact yields_throw fun s hs => hs
  | succ left ih =>
      have hturn : n + 1 ≤ n + (left + 1) := by omega
      refine Yields.bind ((takeTurn_paid hg attempt calls).weaken (fun _ hs => hs) (fun _ _ h => h)
        fun _ _ h => h.mono hturn) fun ended => ?_
      cases ended with
      | answered response calls => exact yields_pure fun s hs => hs.mono hturn
      | again e calls =>
          have hrest := ih (n := n + 1) (attempt + 1) calls (some e)
          rwa [Nat.add_right_comm] at hrest

theorem invoke_paid (hg : g.audited = true) :
    Yields (Paid b n) (invoke g turns inv) (fun _ => Paid b (n + (inv.config.maxRetries + 1)))
      (fun _ => Paid b (n + (inv.config.maxRetries + 1))) := by
  unfold invoke
  split
  · exact attempts_paid hg 0 0 _ none
  · exact yields_throw fun s hs => hs.mono (Nat.le_add_right _ _)

variable {α : Type} {ask : Asking}

theorem repair_paid (hg : g.audited = true) (config : RoleConfig) (parser : Parser α)
    (response : ProviderResponse) (calls : Nat) (firstError : Exn) :
    Yields (Paid b n) (repair g turns ask config parser response calls firstError)
      (fun _ => Paid b (n + (config.maxRetries + 1)))
      (fun _ => Paid b (n + (config.maxRetries + 1))) := by
  have hraise : ∀ {β : Type} (r : Except Exn β), Yields (Paid b n) (raising r)
      (fun _ => Paid b n) (fun _ => Paid b (n + (config.maxRetries + 1))) :=
    fun r => (ofExcept_paid _).weaken (fun _ hs => hs) (fun _ _ h => h)
      fun _ _ h => h.mono (Nat.le_add_right _ _)
  refine Yields.bind (hraise _) fun messages => ?_
  refine Yields.bind (hraise _) fun request => ?_
  refine Yields.bind (invoke_paid hg) fun ⟨repaired, repairCalls⟩ => ?_
  dsimp only
  cases parser.parse repaired.text with
  | ok parsed => exact yields_pure fun s hs => hs
  | error secondError =>
      dsimp only
      split
      · exact yields_throw fun s hs => hs
      · exact yields_throw fun s hs => hs

variable (turns ask) in
/-- **A generate with an audit sink**: the loop is gone through twice at most. -/
theorem generate_paid (hg : g.audited = true) {config : RoleConfig}
    (hconfig : g.roles ask.role = some config) (parser : Option (Parser α)) :
    Yields (Paid b 0) (generate g turns ask parser)
      (fun _ => Paid b (2 * (config.maxRetries + 1)))
      (fun _ => Paid b (2 * (config.maxRetries + 1))) := by
  have htwice : 0 + (config.maxRetries + 1) + (config.maxRetries + 1)
      = 2 * (config.maxRetries + 1) := by omega
  have honce : 0 + (config.maxRetries + 1) ≤ 2 * (config.maxRetries + 1) := by omega
  unfold generate
  simp only [hconfig]
  refine Yields.bind ((ofExcept_paid _).weaken (fun _ hs => hs) (fun _ _ h => h)
    fun _ _ h => h.mono (Nat.zero_le _)) fun request => ?_
  refine Yields.bind ((invoke_paid hg).weaken (fun _ hs => hs) (fun _ _ h => h)
    fun _ _ h => h.mono honce) fun ⟨response, calls⟩ => ?_
  cases parser with
  | none => exact yields_pure fun s hs => hs.mono honce
  | some parser =>
      dsimp only
      cases parser.parse response.text with
      | ok parsed => exact yields_pure fun s hs => hs.mono honce
      | error firstError =>
          dsimp only
          split
          · rw [← htwice]
            exact repair_paid hg config parser response calls firstError
          · exact yields_throw fun s hs => hs.mono honce

end Audited

/-! ## The budget of a generate -/

section Budget

variable {α : Type} (g : Gateway) (turns : Nat → Turn) (ask : Asking)

/-- `generate` with a budget: what it returns or raises, the budget it leaves, and its trace. -/
def generated (parser : Option (Parser α)) (b : ModelCallBudget) :
    Except Raised (ModelResult α) × Progress :=
  (generate g turns ask parser).call { budget := b }

/--
**What a generate may spend.** Without an audit sink the budget bounds the calls, counts each of
them, and counts one more only if the deadline comes between the reservation of a call and the
call; there is a result only if the tokens are within the budget. With an audit sink the budget is
left alone, the sink has made a reservation before each call, and the loop bounds the calls.
-/
theorem generate_budget (parser : Option (Parser α)) (b : ModelCallBudget) :
    let r := (generated g turns ask parser b).1
    let t := (generated g turns ask parser b).2
    if g.audited then
      t.budget = b ∧ Preceded t.trace ∧
        ∀ config, g.roles ask.role = some config →
          providerCalls t.trace ≤ 2 * (config.maxRetries + 1)
    else
      providerCalls t.trace ≤ b.maxCalls - b.usedCalls ∧
        (t.budget.usedCalls = b.usedCalls + providerCalls t.trace ∨
          t.budget.usedCalls = b.usedCalls + providerCalls t.trace + 1 ∧
            r = .error modelDeadlineExceeded) ∧
        ∀ result, r = .ok result →
          b.usedTotalTokens + tokens (answers t.trace) ≤ b.maxTotalTokens := by
  intro r t
  by_cases hg : g.audited = true
  · rw [if_pos hg]
    cases hconfig : g.roles ask.role with
    | none =>
        have hraised : generated g turns ask parser b
            = (.error (.exn (.valueError "Model role is not configured")), { budget := b }) := by
          unfold generated generate
          rw [hconfig]
          rfl
        simp only [t, hraised]
        exact ⟨trivial, fun l hl => by simp [List.prefix_nil.mp hl], fun _ h => by cases h⟩
    | some config =>
        have hstart : Paid b 0 { budget := b } :=
          ⟨rfl, fun l hl => by simp [List.prefix_nil.mp hl], Nat.le_refl _⟩
        have hpaid : Paid b (2 * (config.maxRetries + 1)) t := by
          have h := generate_paid turns ask hg hconfig parser _ hstart
          show Paid b _ ((generate g turns ask parser).call { budget := b }).2
          split at h <;> simp_all
        refine ⟨hpaid.untouched, hpaid.preceded, fun c hc => ?_⟩
        cases hc
        exact hpaid.calls
  · rw [if_neg hg]
    have hstart : Settled b { budget := b } :=
      ⟨⟨rfl, rfl, rfl, Nat.zero_le _⟩, rfl⟩
    have h := generate_yields turns ask (Bool.eq_false_iff.mpr hg) parser _ hstart
    rcases hcall : (generate g turns ask parser).call { budget := b } with ⟨r', t'⟩
    have hr : r = r' := congrArg Prod.fst hcall
    have ht : t = t' := congrArg Prod.snd hcall
    rw [hcall] at h
    rw [hr, ht]
    cases r' with
    | ok result =>
        obtain ⟨⟨hcounted, htokens⟩, hafforded⟩ := h
        refine ⟨hcounted.within, .inl hcounted.used, fun _ _ => ?_⟩
        rw [← htokens, ← hcounted.maxTotalTokens]
        exact hafforded
    | error e =>
        rcases h with hcounted | ⟨hcounted, rfl⟩
        · exact ⟨hcounted.within, .inl hcounted.used, fun _ h => by cases h⟩
        · refine ⟨?_, .inr ⟨hcounted.used, rfl⟩, fun _ h => by cases h⟩
          exact (Nat.le_succ _).trans hcounted.within

end Budget

/-! ## A gateway for examples -/

/-- A role that repeats a call once. -/
def sampleConfig : RoleConfig where
  provider := "deepseek"
  model := "chat"
  temperature := 0
  maxOutputTokens := 1024
  maxRetries := 1
  requestTimeoutSeconds := 60
  outputFormat := .jsonObject
  thinkingMode := .disabled
  promptTemplateVersion := "planner-v1"
  parserSchemaVersion := "intent-v1"
  named := by decide
  limited := by decide
  timed := by decide
  versioned := by decide

def sampleGateway (audited : Bool) : Gateway where
  providers := ["deepseek"]
  roles := fun _ => some sampleConfig
  audited := audited

def sampleContext : ModelInvocationContext where
  runId := ⟨1⟩
  stepId := ⟨2⟩
  stepKey := "plan"
  attemptId := ⟨3⟩
  attemptNo := 1
  inputRefs := []

/-- A question an hour before its deadline. -/
def sampleAsking : Asking where
  role := .planner
  messages := [⟨.user, "plan this", by decide⟩]
  deadline := { instant := seconds 3600 }
  context := some sampleContext

/-- A provider that answers each call with the same text, and a sink that lets it. -/
def answering (text : String) (_ : Nat) : Turn where
  now := 0
  reuse := .ok none
  start := .ok ⟨⟨4⟩, 1, "key"⟩
  later := 0
  outcome := .ok ⟨text, "chat", 10, 5, none⟩
  sealed := .ok ()

/-- A call under an audit sink does not ask the budget: one that allows no call has one made. -/
theorem audited_call_passes_budget :
    ¬providerCalls (generated (sampleGateway true) (answering "yes") sampleAsking
        (none : Option (Parser Unit)) ⟨0, 0, 0, 0, 0⟩).2.trace
      ≤ (⟨0, 0, 0, 0, 0⟩ : ModelCallBudget).maxCalls
        - (⟨0, 0, 0, 0, 0⟩ : ModelCallBudget).usedCalls := by
  decide +kernel

end Sana.ModelGateway.Service
