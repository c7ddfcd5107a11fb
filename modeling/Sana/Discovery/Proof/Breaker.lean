import Sana.Discovery.Service
import Sana.Lib.Tasks

/-!
# When the circuit breaker wedges

A half-open breaker admits one request and sets its probe flag; only an outcome
that is reported takes the flag down again. A call reports a success and the
errors of the categories `TRANSIENT` and `INTERNAL`. An admitted call that ends
in any other way says nothing to the breaker.

The argument is one invariant: while the flag is up, the breaker is half-open and
some admitted call is in progress. Every step keeps it but one, the silent end of
the last admitted call. That step is the defect: from there on nobody is left to
report, so nothing takes the flag down and every later request is refused.
-/

namespace Sana.Discovery

open Sana.Lib

/-! ## What the breaker does -/

namespace CircuitBreaker

variable {b b' : CircuitBreaker} {now : Time}

/-- The flag is up in a half-open breaker only. -/
def Flagged (b : CircuitBreaker) : Prop := b.probeInFlight = true → b.state = .halfOpen

/-- A refusal changes nothing. -/
theorem eq_of_refused (h : b.allowRequest now = (false, b')) : b' = b := by
  unfold allowRequest admitProbe at h
  split at h
  · cases h
  · split at h
    · exact (Prod.mk.inj h).2.symm
    · simp [halfOpened] at h
  · split at h
    · exact (Prod.mk.inj h).2.symm
    · cases h

/-- An admission leaves a closed breaker alone and otherwise sends a probe. -/
theorem flagged_of_admitted (hb : b.Flagged) (h : b.allowRequest now = (true, b')) : b'.Flagged := by
  unfold allowRequest admitProbe at h
  split at h
  · obtain ⟨-, rfl⟩ := Prod.mk.inj h
    exact hb
  · split at h
    · cases h
    · simp only [halfOpened, Bool.false_eq_true, if_false, Prod.mk.injEq, true_and] at h
      subst h
      exact fun _ => rfl
  · rename_i hs
    split at h
    · cases h
    · obtain ⟨-, rfl⟩ := Prod.mk.inj h
      exact fun _ => hs

@[simp] theorem recordSuccess_probe : b.recordSuccess.probeInFlight = false := rfl

@[simp] theorem recordFailure_probe : (b.recordFailure now).probeInFlight = false := by
  unfold recordFailure open_
  dsimp only
  split
  · rfl
  · split <;> rfl

/-- Half-open with the probe out: nobody else is admitted. -/
theorem refused_of_probe (hs : b.state = .halfOpen) (hp : b.probeInFlight = true) :
    b.allowRequest now = (false, b) := by
  unfold allowRequest
  split
  · simp_all
  · simp_all
  · simp [admitProbe, hp]

/-- Half-open with no probe out: the next request is admitted. -/
theorem admitted_of_halfOpen (hs : b.state = .halfOpen) (hp : b.probeInFlight = false) :
    (b.allowRequest now).1 = true := by
  unfold allowRequest
  split
  · rfl
  · simp_all
  · simp [admitProbe, hp]

/-- With no probe out, a request that comes late enough is admitted. -/
theorem exists_admitted (hp : b.probeInFlight = false) :
    ∃ t, ∀ now, t ≤ now → (b.allowRequest now).1 = true := by
  cases hs : b.state with
  | closed =>
      refine ⟨0, fun now _ => ?_⟩
      unfold allowRequest
      split <;> simp_all
  | halfOpen => exact ⟨0, fun now _ => admitted_of_halfOpen hs hp⟩
  | opened =>
      refine ⟨b.openedAt.get (b.timed hs) + b.recovery, fun now hnow => ?_⟩
      unfold allowRequest
      split
      · rfl
      · have hlate : ¬ now < b.openedAt.get (b.timed hs) + b.recovery := Int.not_lt.mpr hnow
        simp [hlate, admitProbe, halfOpened]
      · simp_all

end CircuitBreaker

/-! ## What a step does -/

/-- The response is one the breaker is told of. -/
def ProviderResponse.reported (r : ProviderResponse) : Bool :=
  match r.error with
  | none => true
  | some error => countsAsFailure error

/-- A response that is reported takes the flag down. -/
theorem report_probe {b : CircuitBreaker} {r : ProviderResponse} {now : Time}
    (h : r.reported = true) : (report b r now).probeInFlight = false := by
  unfold report
  cases herror : r.error with
  | none => rfl
  | some error =>
      have hcounts : countsAsFailure error = true := by
        simpa [ProviderResponse.reported, herror] using h
      simp [hcounts]

theorem report_down {b : CircuitBreaker} {r : ProviderResponse} {now : Time}
    (h : r.reported = true) : ¬ (report b r now).probeInFlight = true := by
  rw [report_probe h]
  exact Bool.false_ne_true

/-- A response that is not reported leaves the breaker alone. -/
theorem report_of_not_reported {b : CircuitBreaker} {r : ProviderResponse} {now : Time}
    (h : r.reported = false) : report b r now = b := by
  unfold report
  cases herror : r.error with
  | none => simp [ProviderResponse.reported, herror] at h
  | some error =>
      have hcounts : countsAsFailure error = false := by
        simpa [ProviderResponse.reported, herror] using h
      simp [hcounts]

namespace Circuit

/-- The admitted calls in progress. -/
def load (c : Circuit) : Nat := c.calls.countP (·.phase.inProgress)

/-- The action ends an admitted call and the breaker is not told. -/
def endsSilently (c : Circuit) : Action → Bool
  | .left i _ => (c.calls[i]?).any fun call =>
      match call.phase with
      | .answered r => !r.reported
      | .unwinding admitted => admitted
      | _ => false
  | .cancel i => (c.calls[i]?).any fun call =>
      match call.phase with
      | .answered _ => true
      | .unwinding admitted => admitted
      | _ => false
  | .start _ _ | .entered _ _ _ | .ended _ _ => false

/-- The last admitted call ends silently while the probe flag is up. -/
def strands (c : Circuit) (a : Action) : Bool :=
  c.endsSilently a && c.breaker.probeInFlight && c.load == 1

/-- What an action that moves a call does to its phase and to the breaker. -/
inductive Effect (c : Circuit) (call : Call) (a : Action) : Phase → CircuitBreaker → Prop
  /-- Neither the breaker nor the calls in progress change. -/
  | idle {phase : Phase} (hs : c.endsSilently a = false)
      (h : phase.inProgress = call.phase.inProgress) : Effect c call a phase c.breaker
  | admitted {later : Time} {b : CircuitBreaker} (hs : c.endsSilently a = false)
      (h : call.phase.inProgress = false) (hb : c.breaker.allowRequest later = (true, b)) :
      Effect c call a .searching b
  | reported {r : ProviderResponse} {now : Time} (hs : c.endsSilently a = false)
      (h : call.phase.inProgress = true) (hr : r.reported = true) :
      Effect c call a (.returned r) (report c.breaker r now)
  | silent {phase : Phase} (h : call.phase.inProgress = true) (hp : phase.inProgress = false)
      (hs : c.endsSilently a = true) : Effect c call a phase c.breaker

/-- **What a step can do**: a new call, or one call moved with one of the effects. -/
theorem act_cases {c c' : Circuit} {a : Action} (h : c.act a = some c') :
    (∃ call, c.endsSilently a = false ∧ call.phase = .acquiring
        ∧ c' = { c with calls := c.calls ++ [call] })
      ∨ ∃ i call phase b, c.calls[i]? = some call ∧ c' = c.move i call phase b
        ∧ Effect c call a phase b := by
  cases a with
  | start query deadline => exact .inl ⟨_, rfl, rfl, (Option.some.inj h).symm⟩
  | entered i now later =>
      simp only [act, Option.bind_eq_bind, Option.bind_eq_some_iff] at h
      obtain ⟨call, hcall, h⟩ := h
      split at h
      next hphase =>
        have hidle : call.phase.inProgress = false := by rw [hphase]; rfl
        refine .inr ⟨i, call, _, _, hcall, (Option.some.inj h).symm, ?_⟩
        unfold enter
        split
        · exact .idle rfl hidle.symm
        · split
          next b hb =>
            rw [CircuitBreaker.eq_of_refused hb]
            exact .idle rfl hidle.symm
          next b hb => exact .admitted rfl hidle hb
      next => cases h
  | ended i outcome =>
      simp only [act, Option.bind_eq_bind, Option.bind_eq_some_iff] at h
      obtain ⟨call, hcall, h⟩ := h
      split at h
      next hphase =>
        exact .inr ⟨i, call, _, _, hcall, (Option.some.inj h).symm,
          .idle rfl (by rw [hphase]; rfl)⟩
      next => cases h
  | left i now =>
      simp only [act, Option.bind_eq_bind, Option.bind_eq_some_iff] at h
      obtain ⟨call, hcall, h⟩ := h
      split at h
      next r hphase =>
        refine .inr ⟨i, call, _, _, hcall, (Option.some.inj h).symm, ?_⟩
        have hin : call.phase.inProgress = true := by rw [hphase]; rfl
        cases hr : r.reported with
        | true => exact .reported (by simp [endsSilently, hcall, hphase, hr]) hin hr
        | false =>
            rw [report_of_not_reported hr]
            exact .silent hin rfl (by simp [endsSilently, hcall, hphase, hr])
      next r hphase =>
        exact .inr ⟨i, call, _, _, hcall, (Option.some.inj h).symm,
          .idle (by simp [endsSilently, hcall, hphase]) (by rw [hphase]; rfl)⟩
      next admitted hphase =>
        refine .inr ⟨i, call, _, _, hcall, (Option.some.inj h).symm, ?_⟩
        cases admitted with
        | true => exact .silent (by rw [hphase]; rfl) rfl (by simp [endsSilently, hcall, hphase])
        | false => exact .idle (by simp [endsSilently, hcall, hphase]) (by rw [hphase]; rfl)
      next => cases h
  | cancel i =>
      simp only [act, Option.bind_eq_bind, Option.bind_eq_some_iff] at h
      obtain ⟨call, hcall, h⟩ := h
      split at h
      next hphase =>
        exact .inr ⟨i, call, _, _, hcall, (Option.some.inj h).symm,
          .idle (by simp [endsSilently, hcall, hphase]) (by rw [hphase]; rfl)⟩
      next hphase =>
        exact .inr ⟨i, call, _, _, hcall, (Option.some.inj h).symm,
          .idle (by simp [endsSilently, hcall, hphase]) (by rw [hphase]; rfl)⟩
      next r hphase =>
        exact .inr ⟨i, call, _, _, hcall, (Option.some.inj h).symm,
          .silent (by rw [hphase]; rfl) rfl (by simp [endsSilently, hcall, hphase])⟩
      next r hphase =>
        exact .inr ⟨i, call, _, _, hcall, (Option.some.inj h).symm,
          .idle (by simp [endsSilently, hcall, hphase]) (by rw [hphase]; rfl)⟩
      next admitted hphase =>
        refine .inr ⟨i, call, _, _, hcall, (Option.some.inj h).symm, ?_⟩
        cases admitted with
        | true => exact .silent (by rw [hphase]; rfl) rfl (by simp [endsSilently, hcall, hphase])
        | false => exact .idle (by simp [endsSilently, hcall, hphase]) (by rw [hphase]; rfl)
      next => cases h
      next => cases h

/-- Moving a call changes the load by that call. -/
theorem load_move {c : Circuit} {i : Nat} {call : Call} (hcall : c.calls[i]? = some call)
    (phase : Phase) (b : CircuitBreaker) :
    (c.move i call phase b).load + call.phase.inProgress.toNat
      = c.load + phase.inProgress.toNat :=
  countP_set_add (fun call : Call => call.phase.inProgress) hcall

theorem load_pos {c : Circuit} :
    0 < c.load ↔ ∃ call ∈ c.calls, call.phase.inProgress = true :=
  List.countP_pos_iff

/-! ## The invariant -/

/-- While the flag is up, the breaker is half-open and an admitted call is in progress. -/
structure Attended (c : Circuit) : Prop where
  halfOpen : c.breaker.Flagged
  inProgress : c.breaker.probeInFlight = true → 0 < c.load

theorem attended_of_init {c : Circuit} (h : Init c) : Attended c := by
  obtain ⟨-, -, -, hprobe, -⟩ := h
  exact ⟨fun hp => by simp [hprobe] at hp, fun hp => by simp [hprobe] at hp⟩

/-- The flag is up in a half-open breaker only, whatever the calls do. -/
theorem flagged_act {c c' : Circuit} {a : Action} (hc : c.breaker.Flagged)
    (h : c.act a = some c') : c'.breaker.Flagged := by
  obtain ⟨call, -, -, rfl⟩ | ⟨i, call, phase, b, -, rfl, heffect⟩ := act_cases h
  · exact hc
  · cases heffect with
    | idle => exact hc
    | admitted _ _ hb => exact CircuitBreaker.flagged_of_admitted hc hb
    | reported _ _ hr =>
        intro hp
        exact absurd hp (report_down hr)
    | silent => exact hc

/-- Every step but the silent end of the last admitted call keeps the invariant. -/
theorem attended_act {c c' : Circuit} {a : Action} (hc : Attended c) (h : c.act a = some c')
    (hclean : c.strands a = false) : Attended c' := by
  refine ⟨flagged_act hc.halfOpen h, ?_⟩
  obtain ⟨call, -, hcall, rfl⟩ | ⟨i, call, phase, b, hcall, rfl, heffect⟩ := act_cases h
  · intro hp
    have := hc.inProgress hp
    simp only [load, List.countP_append]
    exact Nat.add_pos_left this _
  · have hload := load_move hcall phase b
    cases heffect with
    | idle _ hsame =>
        intro hp
        have := hc.inProgress hp
        rw [hsame] at hload
        omega
    | admitted _ hidle _ =>
        intro _
        rw [hidle, show Phase.searching.inProgress = true from rfl] at hload
        simp only [Bool.toNat_true, Bool.toNat_false] at hload
        omega
    | reported _ _ hr =>
        intro hp
        exact absurd hp (report_down hr)
    | silent hin hout hsilent =>
        intro hp
        -- a silent end under the flag is not the end of the last call
        have hp : c.breaker.probeInFlight = true := hp
        have hne : c.load ≠ 1 := by
          intro hone
          simp [strands, hsilent, hp, hone] at hclean
        have := hc.inProgress hp
        simp only [hin, hout, Bool.toNat_true, Bool.toNat_false] at hload
        omega

/-! ## The wedge -/

/-- The flag is up and nobody is left to take it down. -/
structure Wedged (c : Circuit) : Prop where
  halfOpen : c.breaker.state = .halfOpen
  probe : c.breaker.probeInFlight = true
  empty : c.load = 0

/-- A wedged breaker stays wedged: no call is admitted, so none can report. -/
theorem Wedged.act {c c' : Circuit} {a : Action} (hc : Wedged c) (h : c.act a = some c') :
    Wedged c' := by
  obtain ⟨call, -, hcall, rfl⟩ | ⟨i, call, phase, b, hcall, rfl, heffect⟩ := act_cases h
  · refine ⟨hc.halfOpen, hc.probe, ?_⟩
    have hnew : call.phase.inProgress = false := by rw [hcall]; rfl
    have hempty := hc.empty
    simp only [load] at hempty
    simp only [load, List.countP_append, hempty, List.countP_singleton, hnew]
    rfl
  · have hload := load_move hcall phase b
    rw [hc.empty] at hload
    have hidle : call.phase.inProgress = false := by
      by_contra hin
      have hpos : 0 < c.load :=
        load_pos.mpr ⟨call, List.mem_of_getElem? hcall, by simpa using hin⟩
      rw [hc.empty] at hpos
      omega
    cases heffect with
    | idle _ hsame =>
        rw [hsame] at hload
        exact ⟨hc.halfOpen, hc.probe, by omega⟩
    | admitted _ _ hb =>
        rw [CircuitBreaker.refused_of_probe hc.halfOpen hc.probe] at hb
        cases hb
    | reported _ hin _ => simp [hidle] at hin
    | silent hin _ _ => simp [hidle] at hin

/-- A step that strands the flag wedges the breaker. -/
theorem wedged_of_strands {c c' : Circuit} {a : Action} (hc : c.breaker.Flagged)
    (h : c.act a = some c') (hstrands : c.strands a = true) : Wedged c' := by
  simp only [strands, Bool.and_eq_true, beq_iff_eq] at hstrands
  obtain ⟨⟨hsilent, hprobe⟩, hone⟩ := hstrands
  obtain ⟨call, hs, -, rfl⟩ | ⟨i, call, phase, b, hcall, rfl, heffect⟩ := act_cases h
  · rw [hs] at hsilent
    cases hsilent
  · have hload := load_move hcall phase b
    cases heffect with
    | idle hs _ | admitted hs _ _ | reported hs _ _ => rw [hs] at hsilent; cases hsilent
    | silent hin hout _ =>
        simp only [hin, hout, hone, Bool.toNat_true, Bool.toNat_false] at hload
        exact ⟨hc hprobe, hprobe, by omega⟩

/-! ## The property, and when it holds -/

/-- The breaker is not wedged, in the words a caller would use. -/
structure NotWedged (c : Circuit) : Prop where
  /-- A probe in flight is a request that has not ended. -/
  attended : c.breaker.probeInFlight = true → ∃ call ∈ c.calls, call.phase.inProgress = true
  /-- Half-open and no request in progress: the next one is admitted. -/
  admits : c.breaker.state = .halfOpen → (∀ call ∈ c.calls, call.phase.inProgress = false) →
    ∀ now, (c.breaker.allowRequest now).1 = true
  /-- When all requests are over, those that come late enough are admitted. -/
  recovers : (∀ call ∈ c.calls, call.phase.inProgress = false) →
    ∃ t, ∀ now, t ≤ now → (c.breaker.allowRequest now).1 = true

/-- A step that does not strand the flag. -/
def CleanStep (c c' : Circuit) : Prop := ∃ a, c.act a = some c' ∧ c.strands a = false

theorem Attended.notWedged {c : Circuit} (hc : Attended c) : NotWedged c := by
  have hdown : (∀ call ∈ c.calls, call.phase.inProgress = false) →
      c.breaker.probeInFlight = false := by
    intro hidle
    by_contra hp
    obtain ⟨call, hcall, hin⟩ := load_pos.mp (hc.inProgress (by simpa using hp))
    rw [hidle call hcall] at hin
    cases hin
  exact {
    attended := fun hp => load_pos.mp (hc.inProgress hp)
    admits := fun hs hidle now => CircuitBreaker.admitted_of_halfOpen hs (hdown hidle)
    recovers := fun hidle => CircuitBreaker.exists_admitted (hdown hidle) }

/-- A wedged breaker breaks every part of the property. -/
theorem Wedged.not_notWedged {c : Circuit} (hc : Wedged c) : ¬ NotWedged c := by
  intro h
  have hpos := load_pos.mpr (h.attended hc.probe)
  rw [hc.empty] at hpos
  omega

/--
**A breaker wedges at the silent end of its last admitted call, and only there.**
As long as no step of the run is one, no state is wedged. After one, no state is
anything else: the flag stays up and every request is refused, at any time.
-/
theorem breaker_wedges_exactly (c : Circuit) :
    (Reachable Init CleanStep c → NotWedged c)
      ∧ (Reachable Init Step c → ∀ a c', c.act a = some c' → c.strands a = true →
          ∀ d, Relation.ReflTransGen Step c' d →
            ¬ NotWedged d ∧ ∀ now, (d.breaker.allowRequest now).1 = false) := by
  constructor
  · intro h
    have hattended : Attended c := by
      refine h.invariant (fun _ => attended_of_init) ?_
      rintro s t hs ⟨a, ha, hclean⟩
      exact attended_act hs ha hclean
    exact hattended.notWedged
  · intro h a c' ha hstrands d hd
    have hflagged : c.breaker.Flagged := by
      refine h.invariant (P := fun c => c.breaker.Flagged)
        (fun s hs => (attended_of_init hs).halfOpen) ?_
      rintro s t hs ⟨a, ha⟩
      exact flagged_act hs ha
    have hwedged : Wedged d := by
      induction hd with
      | refl => exact wedged_of_strands hflagged ha hstrands
      | tail _ hlast ih =>
          obtain ⟨a, ha⟩ := hlast
          exact ih.act ha
    refine ⟨hwedged.not_notWedged, fun now => ?_⟩
    rw [CircuitBreaker.refused_of_probe hwedged.halfOpen hwedged.probe]

/-! ## A probe that succeeds and a probe that is refused the page -/

/-- A breaker that opens at the first failure. -/
def fragile : Circuit where
  provider := ⟨"web", by decide⟩
  breaker := { failureThreshold := 1, positive := by decide, timed := by decide }

theorem fragile_init : Init fragile := ⟨rfl, rfl, rfl, rfl, rfl⟩

/-- A query of the sample runs. -/
def sampleQuery : DiscoveryQuery where
  key := "q"
  text := "lean"
  locale := "en"
  required := by decide

/-- HTTP 404 from the search endpoint. -/
def notFound : TypedError where
  category := .permanent
  code := "search_http_404"
  message := "Search endpoint returned HTTP 404"
  retryable := false

/-- A timeout opens the breaker; after the recovery time a probe is in `provider.search`. -/
def probing : List Action :=
  [.start sampleQuery (seconds 100), .entered 0 0 0, .ended 0 .timedOut, .left 0 0,
    .start sampleQuery (seconds 100), .entered 1 (seconds 31) (seconds 31)]

/-- The probe times out as well. -/
def timedOutAgain : List Action := probing ++ [.ended 1 .timedOut, .left 1 (seconds 40)]

/-- The probe is answered, with an error that is not reported. -/
def probeNotFound : List Action := probing ++ [.ended 1 (.raised notFound), .left 1 (seconds 40)]

/-- The circuit a list of actions leads to. -/
def after (actions : List Action) : Circuit := (actions.foldlM act fragile).getD fragile

/-- An action that does not strand the flag. -/
def cleanAct (c : Circuit) (a : Action) : Option Circuit :=
  if c.strands a then none else c.act a

theorem cleanStep_of_cleanAct (c : Circuit) (a : Action) (c' : Circuit)
    (h : c.cleanAct a = some c') : CleanStep c c' := by
  unfold cleanAct at h
  split at h
  · cases h
  · exact ⟨a, h, by simp_all⟩

/-- A probe that times out opens the breaker again. -/
theorem breaker_wedges_exactly_timeout : NotWedged (after timedOutAgain) := by
  have hrun : timedOutAgain.foldlM cleanAct fragile = some (after timedOutAgain) := by decide
  have hreach : Reachable Init CleanStep (after timedOutAgain) :=
    Reachable.of_exec cleanStep_of_cleanAct (.init fragile_init) hrun
  exact (breaker_wedges_exactly _).1 hreach

/-- A probe that is answered with HTTP 404 leaves its flag up for good. -/
theorem breaker_wedged_by_probe : ¬ ∀ c, Reachable Init Step c → NotWedged c := by
  intro h
  have hrun : probeNotFound.foldlM act fragile = some (after probeNotFound) := by decide
  have hreach : Reachable Init Step (after probeNotFound) :=
    Reachable.of_exec (fun _ a _ ha => ⟨a, ha⟩) (.init fragile_init) hrun
  have hattended := (h _ hreach).attended (by decide)
  revert hattended
  decide

end Circuit

end Sana.Discovery
