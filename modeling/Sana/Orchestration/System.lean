import Sana.Orchestration.Delivery
import Sana.Orchestration.Conversation

/-!
# The workflow as a transition system

The state is the database together with every lease that was ever handed out. A
worker may die, stall or come back hours later, so leases are never taken away:
any of them can be presented again at any time, by anyone, with any result. A
dispatch message is only a hint to call `claim`, which may be called on any step
at any time; redelivery needs no extra step.

Model calls are audited in transactions of their own, and so is what the dispatcher
and the reconciler record of their deliveries.

A transaction that raises is rolled back and is no step. Clocks and identifiers
are arbitrary in each transaction.
-/

namespace Sana.Orchestration

open Sana.Lib

/-- The deployment: outside services, the routing policy and the store's settings. -/
structure Deployment where
  ports : Ports
  policy : SearchPolicy
  cfg : StoreSettings

/-- The database, and every lease that was ever handed out. -/
structure World where
  db : Db
  claims : List ClaimedStep

/-- No rows and no leases. -/
def World.init : World := ⟨Db.empty, []⟩

/-- One committed transaction. -/
inductive Step (d : Deployment) : World → World → Prop
  /-- A conversation is created, or found under its key. -/
  | create {w : World} {db' : Db} (env : Env) (userId : Uuid) (title : String)
      (key : Option String) (view : ConversationView)
      (h : createConversation d.ports env w.db userId title key = .ok (view, db')) :
      Step d w ⟨db', w.claims⟩
  /-- A message is submitted, or found under its key. -/
  | submit {w : World} {db' : Db} (env : Env) (command : SubmitMessageCommand)
      (receipt : SubmissionReceipt)
      (h : submitMessage d.ports d.policy env w.db command = .ok (receipt, db')) :
      Step d w ⟨db', w.claims⟩
  /-- A user cancels a run. -/
  | cancel {w : World} {db' : Db} (env : Env) (runId : Uuid) (run : Option SearchRun)
      (h : cancelRun env w.db runId = .ok (run, db')) :
      Step d w ⟨db', w.claims⟩
  /-- A worker claims a step. -/
  | claim {w : World} {db' : Db} (env : Env) (stepId : Uuid) (workerId : String)
      (result : ClaimResult)
      (h : Orchestration.claim d.ports d.cfg env w.db stepId workerId = .ok (result, db')) :
      Step d w ⟨db', w.claims ++ result.claimed.toList⟩
  /-- A worker reports success under some lease it was given. -/
  | succeed {w : World} {db' : Db} (env : Env) (claimed : ClaimedStep) (hc : claimed ∈ w.claims)
      (result : StepExecutionResult) (disposition : Disposition)
      (h : Orchestration.succeed d.ports env w.db claimed result = .ok (disposition, db')) :
      Step d w ⟨db', w.claims⟩
  /-- A worker reports a failure under some lease it was given. -/
  | fail {w : World} {db' : Db} (env : Env) (claimed : ClaimedStep) (hc : claimed ∈ w.claims)
      (error : TypedError) (disposition : Disposition)
      (h : Orchestration.fail d.ports d.cfg env w.db claimed error = .ok (disposition, db')) :
      Step d w ⟨db', w.claims⟩
  /-- A heartbeat extends a lease; the worker goes on with the extended one. -/
  | renew {w : World} {db' : Db} (env : Env) (claimed : ClaimedStep) (hc : claimed ∈ w.claims)
      (answer : Bool) (renewed : ClaimedStep)
      (h : Orchestration.renew d.cfg env w.db claimed = .ok (answer, renewed, db')) :
      Step d w ⟨db', w.claims ++ [renewed]⟩
  /-- The heartbeat's transaction is lost after the worker extended its lease in memory. -/
  | renewLost {w : World} (claimed : ClaimedStep) (hc : claimed ∈ w.claims)
      (attempt : StepAttempt) (leasedUntil : Time)
      (h : claimed.attempt.renewLease leasedUntil = .ok attempt) :
      Step d w ⟨w.db, w.claims ++ [{ claimed with attempt }]⟩
  /-- The reconciler releases a step, on a candidate it may have read long ago. -/
  | makeReady {w : World} {db' : Db} (env : Env) (candidate : ReconcileCandidate) (now : Time)
      (answer : Bool)
      (h : Orchestration.makeReady env w.db candidate now = .ok (answer, db')) :
      Step d w ⟨db', w.claims⟩
  /-- A model call is reserved, answered or sealed; a worker does so under some lease. -/
  | audit {w : World} {db' : Db} (env : Env) (op : AuditOp)
      (hc : ∀ context ∈ op.context, ∃ c ∈ w.claims, isContextOf context c = true)
      (h : op.run env w.db = .ok db') :
      Step d w ⟨db', w.claims⟩
  /-- A delivery is recorded. -/
  | deliver {w : World} {db' : Db} (env : Env) (op : DeliveryOp) (h : op.run env w.db = .ok db') :
      Step d w ⟨db', w.claims⟩

/-- The worlds a deployment can get to. -/
abbrev Reachable (d : Deployment) : World → Prop := Lib.Reachable (· = World.init) (Step d)

/-! ## Transactions as values -/

/-- A transaction, with what it is handed. -/
inductive Call
  | create (env : Env) (userId : Uuid) (title : String) (key : Option String)
  | submit (env : Env) (command : SubmitMessageCommand)
  | cancel (env : Env) (runId : Uuid)
  | claim (env : Env) (stepId : Uuid) (workerId : String)
  | succeed (env : Env) (claimed : ClaimedStep) (result : StepExecutionResult)
  | fail (env : Env) (claimed : ClaimedStep) (error : TypedError)
  | renew (env : Env) (claimed : ClaimedStep)
  | renewLost (claimed : ClaimedStep) (leasedUntil : Time)
  | makeReady (env : Env) (candidate : ReconcileCandidate) (now : Time)
  | audit (env : Env) (op : AuditOp)
  | deliver (env : Env) (op : DeliveryOp)

/-- A worker reports under a lease it was given. -/
def Call.Held (w : World) : Call → Prop
  | .succeed _ claimed _ | .fail _ claimed _ | .renew _ claimed | .renewLost claimed _ =>
      claimed ∈ w.claims
  | .audit _ op => ∀ context ∈ op.context, ∃ c ∈ w.claims, isContextOf context c = true
  | _ => True

instance (w : World) (op : AuditOp) :
    Decidable (∀ context ∈ op.context, ∃ c ∈ w.claims, isContextOf context c = true) :=
  match h : op.context with
  | none => isTrue (by simp)
  | some context => decidable_of_iff (∃ c ∈ w.claims, isContextOf context c = true) (by simp)

instance (w : World) (call : Call) : Decidable (call.Held w) := by
  cases call <;> unfold Call.Held <;> infer_instance

/-- Perform a transaction. -/
def Call.run (d : Deployment) (w : World) : Call → Except Exn World
  | .create env userId title key => do
      let (_, db) ← createConversation d.ports env w.db userId title key
      return ⟨db, w.claims⟩
  | .submit env command => do
      let (_, db) ← submitMessage d.ports d.policy env w.db command
      return ⟨db, w.claims⟩
  | .cancel env runId => do
      let (_, db) ← cancelRun env w.db runId
      return ⟨db, w.claims⟩
  | .claim env stepId workerId => do
      let (result, db) ← Orchestration.claim d.ports d.cfg env w.db stepId workerId
      return ⟨db, w.claims ++ result.claimed.toList⟩
  | .succeed env claimed result => do
      let (_, db) ← Orchestration.succeed d.ports env w.db claimed result
      return ⟨db, w.claims⟩
  | .fail env claimed error => do
      let (_, db) ← Orchestration.fail d.ports d.cfg env w.db claimed error
      return ⟨db, w.claims⟩
  | .renew env claimed => do
      let (_, renewed, db) ← Orchestration.renew d.cfg env w.db claimed
      return ⟨db, w.claims ++ [renewed]⟩
  | .renewLost claimed leasedUntil => do
      let attempt ← claimed.attempt.renewLease leasedUntil
      return ⟨w.db, w.claims ++ [{ claimed with attempt }]⟩
  | .makeReady env candidate now => do
      let (_, db) ← Orchestration.makeReady env w.db candidate now
      return ⟨db, w.claims⟩
  | .audit env op => do
      let db ← op.run env w.db
      return ⟨db, w.claims⟩
  | .deliver env op => do
      let db ← op.run env w.db
      return ⟨db, w.claims⟩

/-- **A step is a transaction that committed.** -/
theorem step_iff_call {d : Deployment} {w w' : World} :
    Step d w w' ↔ ∃ call : Call, call.Held w ∧ call.run d w = .ok w' := by
  constructor
  · intro h
    cases h with
    | create env userId title key view h =>
        exact ⟨.create env userId title key, trivial, bind_ok_iff.mpr ⟨_, h, rfl⟩⟩
    | submit env command receipt h =>
        exact ⟨.submit env command, trivial, bind_ok_iff.mpr ⟨_, h, rfl⟩⟩
    | cancel env runId run h =>
        exact ⟨.cancel env runId, trivial, bind_ok_iff.mpr ⟨_, h, rfl⟩⟩
    | claim env stepId workerId result h =>
        exact ⟨.claim env stepId workerId, trivial, bind_ok_iff.mpr ⟨_, h, rfl⟩⟩
    | succeed env claimed hc result disposition h =>
        exact ⟨.succeed env claimed result, hc, bind_ok_iff.mpr ⟨_, h, rfl⟩⟩
    | fail env claimed hc error disposition h =>
        exact ⟨.fail env claimed error, hc, bind_ok_iff.mpr ⟨_, h, rfl⟩⟩
    | renew env claimed hc answer renewed h =>
        exact ⟨.renew env claimed, hc, bind_ok_iff.mpr ⟨_, h, rfl⟩⟩
    | renewLost claimed hc attempt leasedUntil h =>
        exact ⟨.renewLost claimed leasedUntil, hc, bind_ok_iff.mpr ⟨_, h, rfl⟩⟩
    | makeReady env candidate now answer h =>
        exact ⟨.makeReady env candidate now, trivial, bind_ok_iff.mpr ⟨_, h, rfl⟩⟩
    | audit env op hc h => exact ⟨.audit env op, hc, bind_ok_iff.mpr ⟨_, h, rfl⟩⟩
    | deliver env op h => exact ⟨.deliver env op, trivial, bind_ok_iff.mpr ⟨_, h, rfl⟩⟩
  · intro h
    obtain ⟨call, hheld, h⟩ := h
    cases call <;> simp only [Call.run, bind_ok_iff, pure_ok_iff, Prod.exists] at h
    case create env userId title key =>
      obtain ⟨view, db, h, rfl⟩ := h
      exact .create env userId title key view h
    case submit env command =>
      obtain ⟨receipt, db, h, rfl⟩ := h
      exact .submit env command receipt h
    case cancel env runId =>
      obtain ⟨run, db, h, rfl⟩ := h
      exact .cancel env runId run h
    case claim env stepId workerId =>
      obtain ⟨result, db, h, rfl⟩ := h
      exact .claim env stepId workerId result h
    case succeed env claimed result =>
      obtain ⟨disposition, db, h, rfl⟩ := h
      exact .succeed env claimed hheld result disposition h
    case fail env claimed error =>
      obtain ⟨disposition, db, h, rfl⟩ := h
      exact .fail env claimed hheld error disposition h
    case renew env claimed =>
      obtain ⟨answer, renewed, db, h, rfl⟩ := h
      exact .renew env claimed hheld answer renewed h
    case renewLost claimed leasedUntil =>
      obtain ⟨attempt, h, rfl⟩ := h
      exact .renewLost claimed hheld attempt leasedUntil h
    case makeReady env candidate now =>
      obtain ⟨answer, db, h, rfl⟩ := h
      exact .makeReady env candidate now answer h
    case audit env op =>
      obtain ⟨db, h, rfl⟩ := h
      exact .audit env op hheld h
    case deliver env op =>
      obtain ⟨db, h, rfl⟩ := h
      exact .deliver env op h

/-- A transaction that meets a condition on the world it is performed in. -/
def Moves (d : Deployment) (ok : World → Call → Prop) (w w' : World) : Prop :=
  ∃ call : Call, ok w call ∧ call.Held w ∧ call.run d w = .ok w'

/-- The worlds a deployment can get to by transactions that all meet a condition. -/
abbrev ReachableBy (d : Deployment) (ok : World → Call → Prop) : World → Prop :=
  Lib.Reachable (· = World.init) (Moves d ok)

theorem Moves.step {d : Deployment} {ok : World → Call → Prop} {w w' : World}
    (h : Moves d ok w w') : Step d w w' := by
  obtain ⟨call, _, hheld, hrun⟩ := h
  exact step_iff_call.mpr ⟨call, hheld, hrun⟩

theorem ReachableBy.reachable {d : Deployment} {ok : World → Call → Prop} {w : World}
    (h : ReachableBy d ok w) : Reachable d w := by
  induction h with
  | init h => exact .init h
  | tail _ hs ih => exact .tail ih hs.step

/-! ## Running it -/

/-- A transaction to perform; a lease is named by its position among those handed out. -/
inductive Action
  | create (env : Env) (userId : Uuid) (title : String) (key : Option String)
  | submit (env : Env) (command : SubmitMessageCommand)
  | cancel (env : Env) (runId : Uuid)
  | claim (env : Env) (stepId : Uuid) (workerId : String)
  | succeed (env : Env) (lease : Nat) (result : StepExecutionResult)
  | fail (env : Env) (lease : Nat) (error : TypedError)
  | renew (env : Env) (lease : Nat)
  | makeReady (env : Env) (candidate : ReconcileCandidate) (now : Time)
  | audit (env : Env) (lease : Nat) (op : ClaimedStep → AuditOp)
  | deliver (env : Env) (op : DeliveryOp)

/-- The transaction an action stands for. -/
def Action.call (w : World) : Action → Option Call
  | .create env userId title key => some (.create env userId title key)
  | .submit env command => some (.submit env command)
  | .cancel env runId => some (.cancel env runId)
  | .claim env stepId workerId => some (.claim env stepId workerId)
  | .succeed env lease result => w.claims[lease]?.map fun c => .succeed env c result
  | .fail env lease error => w.claims[lease]?.map fun c => .fail env c error
  | .renew env lease => w.claims[lease]?.map fun c => .renew env c
  | .makeReady env candidate now => some (.makeReady env candidate now)
  | .audit env lease op => w.claims[lease]?.map fun c => .audit env (op c)
  | .deliver env op => some (.deliver env op)

/-- Perform one transaction, if its lease was handed out and it commits. -/
def exec (d : Deployment) (w : World) (a : Action) : Option World :=
  (a.call w).bind fun call => if call.Held w then (call.run d w).toOption else none

theorem toOption_eq_some {ε α : Type} {x : Except ε α} {a : α} (h : x.toOption = some a) :
    x = .ok a := by
  cases x with
  | error e => simp [Except.toOption] at h
  | ok b => simpa [Except.toOption] using h

/-- **What is performed is a step.** -/
theorem exec_step {d : Deployment} {w w' : World} {a : Action} (h : exec d w a = some w') :
    Step d w w' := by
  obtain ⟨call, _, h⟩ := Option.bind_eq_some_iff.mp h
  split at h
  · rename_i hheld
    exact step_iff_call.mpr ⟨call, hheld, toOption_eq_some h⟩
  · cases h

/-- Perform transactions one after the other from the empty database. -/
def perform (d : Deployment) (actions : List Action) : Option World :=
  actions.foldlM (exec d) World.init

/-- What can be performed is reachable. -/
theorem reachable_of_perform {d : Deployment} {actions : List Action} {w : World}
    (h : perform d actions = some w) : Reachable d w := by
  refine Lib.Reachable.of_exec ?_ (.init rfl) h
  intro _ _ _ hstep
  exact exec_step hstep

/-- A property checked on a performed list of transactions is reached. -/
theorem exists_reachable (d : Deployment) (actions : List Action) (p : World → Bool)
    (h : (perform d actions).any p = true) : ∃ w, Reachable d w ∧ p w = true := by
  obtain ⟨w, hw, hp⟩ := (Option.any_eq_true _ _).mp h
  exact ⟨w, reachable_of_perform hw, hp⟩

section Conditions

variable (d : Deployment) (ok : World → Call → Prop) [∀ w call, Decidable (ok w call)]

/-- Perform one transaction, if it meets the condition and commits. -/
def execBy (w : World) (a : Action) : Option World :=
  (a.call w).bind fun call =>
    if ok w call ∧ call.Held w then (call.run d w).toOption else none

theorem execBy_moves {w w' : World} {a : Action} (h : execBy d ok w a = some w') :
    Moves d ok w w' := by
  obtain ⟨call, _, h⟩ := Option.bind_eq_some_iff.mp h
  split at h
  · rename_i hok
    exact ⟨call, hok.1, hok.2, toOption_eq_some h⟩
  · cases h

/-- A property checked after transactions that all meet a condition. -/
theorem exists_reachableBy (actions : List Action) (p : World → Bool)
    (h : (actions.foldlM (execBy d ok) World.init).any p = true) :
    ∃ w, ReachableBy d ok w ∧ p w = true := by
  obtain ⟨w, hw, hp⟩ := (Option.any_eq_true _ _).mp h
  refine ⟨w, Lib.Reachable.of_exec ?_ (.init rfl) hw, hp⟩
  intro _ _ _ hstep
  exact execBy_moves d ok hstep

end Conditions

/-! ## A small run -/

/-- A deployment whose steps all write an empty object, with the digests of two messages. -/
def sample : Deployment where
  ports := {
    artifacts := fun _ => some {}
    uuid5 := fun namespaceId _ => namespaceId
    sha256 := fun s =>
      if s = "hello" then "2cf24dba5fb0a30e26e83b2ac5b9e29e1b161e5c1fa7425e73043362938b9824"
      else if s = "bye" then "b49f425a7e1f9cff3856329ada223f2f9d368f15a00cf48df16ca95986137fe8"
      else "" }
  policy := .default
  cfg := .default

/-- The n-th second, with identifiers of its own. -/
def sampleEnv (n : Nat) : Env where
  ids i := ⟨BitVec.ofNat 128 (100 * n + i)⟩
  now := seconds n
  hookNow := seconds n
  dbNow := seconds n

/-- A result without usage. -/
def sampleResult : StepExecutionResult := ⟨⟨"file:///a", "00"⟩, { phase := .routePlan }⟩

/-- A run whose plan asks for nothing: it is routed, planned and goes on to synthesis. -/
def sampleActions : List Action := [
  .create (sampleEnv 1) ⟨7#128⟩ "hello" none,
  .submit (sampleEnv 2) ⟨⟨7#128⟩, (sampleEnv 1).ids 0, "hello", "k1", ⟨.fast, [], "search-v12"⟩⟩,
  .claim (sampleEnv 3) ((sampleEnv 2).ids 3) "worker",
  .succeed (sampleEnv 4) 0 sampleResult,
  .claim (sampleEnv 5) ((sampleEnv 4).ids 0) "worker",
  .succeed (sampleEnv 6) 1 sampleResult]

end Sana.Orchestration
