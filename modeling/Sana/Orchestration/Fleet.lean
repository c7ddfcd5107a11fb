import Sana.Orchestration.System

/-!
# Workers, messages and the two senders

Around the database: the broker's messages, the workers that took one and are
executing, the dispatcher between a send and the commit of its marks, and the
reconciler between the release of a step and its send. None of them is durable. The
broker may lose a message or deliver it again, a worker may die, and a sender may
stop half way.

A message names a step and is used up by the claim it causes. What a worker holds
is the lease that claim returned; it is gone once the worker has reported, or died.
-/

namespace Sana.Orchestration

open Sana.Lib

/-- The database with everything that is under way. -/
structure Fleet where
  world : World
  /-- The broker's messages, by the steps they name. -/
  queue : List Uuid
  /-- The steps the reconciler has released and not sent yet. -/
  releasing : List Uuid
  /-- The outbox rows the dispatcher has sent in a transaction that is still open. -/
  sent : List Uuid
  /-- The leases under which workers are executing. -/
  executing : List ClaimedStep

def Fleet.init : Fleet := ⟨.init, [], [], [], []⟩

/-- A transaction that uses up no message, no release and no worker. -/
def Call.isBeside : Call → Bool
  | .create _ _ _ _ | .submit _ _ | .cancel _ _ | .audit _ _ => true
  | .deliver _ (.failed _ _) | .deliver _ (.dispatched _ _) => true
  | _ => false

/-- What can happen next. -/
inductive Fleet.Act
  | transact (call : Call)
  /-- The dispatcher sends the message of a row that is due. -/
  | send (now : Time) (messageId : Uuid)
  /-- The dispatcher marks a row it has sent. -/
  | mark (env : Env) (messageId : Uuid) (publishedAt : Time)
  /-- The dispatcher's transaction ends without the marks that are left. -/
  | abort
  /-- A worker takes a message and claims the step. -/
  | take (message : Nat) (env : Env) (workerId : String)
  /-- The broker loses a message. -/
  | lose (message : Nat)
  /-- A message arrives that no row stands for: redelivered, or sent by the reconciler. -/
  | deliver (stepId : Uuid)
  | succeed (worker : Nat) (env : Env) (result : StepExecutionResult)
  | fail (worker : Nat) (env : Env) (error : TypedError)
  | renew (worker : Nat) (env : Env)
  | renewLost (worker : Nat) (leasedUntil : Time)
  /-- A worker dies, or its report cannot be committed. -/
  | crash (worker : Nat)
  /-- The reconciler releases a step. -/
  | release (env : Env) (candidate : ReconcileCandidate) (now : Time)
  /-- The reconciler sends a step it has released. -/
  | dispatch (released : Nat)
  /-- The reconciler cannot send it, or dies. -/
  | drop (released : Nat)

/-- Perform it, if it can happen. -/
def Fleet.act (d : Deployment) (f : Fleet) : Fleet.Act → Option Fleet
  | .transact call =>
      if call.isBeside = true ∧ call.Held f.world then
        (call.run d f.world).toOption.map fun w => { f with world := w }
      else none
  | .send now messageId =>
      (lookup (·.id) messageId f.world.db.outbox).bind fun o =>
        if o.isDue now && (queueOf o.eventType).isOk then
          some { f with queue := f.queue ++ [o.aggregateId], sent := f.sent ++ [o.id] }
        else none
  | .mark env messageId publishedAt =>
      if messageId ∈ f.sent then
        (markPublished env f.world.db messageId publishedAt).toOption.map fun db =>
          { f with world := ⟨db, f.world.claims⟩, sent := f.sent.filter (· ≠ messageId) }
      else none
  | .abort => some { f with sent := [] }
  | .take message env workerId =>
      f.queue[message]?.bind fun stepId =>
        (claim d.ports d.cfg env f.world.db stepId workerId).toOption.map fun (result, db) =>
          { f with
            world := ⟨db, f.world.claims ++ result.claimed.toList⟩
            queue := f.queue.eraseIdx message
            executing := f.executing ++ result.claimed.toList }
  | .lose message => some { f with queue := f.queue.eraseIdx message }
  | .deliver stepId => some { f with queue := f.queue ++ [stepId] }
  | .succeed worker env result =>
      f.executing[worker]?.bind fun claimed =>
        (Orchestration.succeed d.ports env f.world.db claimed result).toOption.map fun (_, db) =>
          { f with world := ⟨db, f.world.claims⟩, executing := f.executing.eraseIdx worker }
  | .fail worker env error =>
      f.executing[worker]?.bind fun claimed =>
        (Orchestration.fail d.ports d.cfg env f.world.db claimed error).toOption.map fun (_, db) =>
          { f with world := ⟨db, f.world.claims⟩, executing := f.executing.eraseIdx worker }
  | .renew worker env =>
      f.executing[worker]?.bind fun claimed =>
        (Orchestration.renew d.cfg env f.world.db claimed).toOption.map fun (_, renewed, db) =>
          { f with
            world := ⟨db, f.world.claims ++ [renewed]⟩
            executing := f.executing.set worker renewed }
  | .renewLost worker leasedUntil =>
      f.executing[worker]?.bind fun claimed =>
        (claimed.attempt.renewLease leasedUntil).toOption.map fun attempt =>
          { f with
            world := ⟨f.world.db, f.world.claims ++ [{ claimed with attempt }]⟩
            executing := f.executing.set worker { claimed with attempt } }
  | .crash worker => some { f with executing := f.executing.eraseIdx worker }
  | .release env candidate now =>
      (makeReady env f.world.db candidate now).toOption.map fun (answer, db) =>
        { f with
          world := ⟨db, f.world.claims⟩
          releasing := if answer then f.releasing ++ [candidate.stepId] else f.releasing }
  | .dispatch released =>
      f.releasing[released]?.map fun stepId =>
        { f with queue := f.queue ++ [stepId], releasing := f.releasing.eraseIdx released }
  | .drop released => some { f with releasing := f.releasing.eraseIdx released }

/-- One thing happens, under a condition on the state it happens in. -/
def Fleet.Moves (d : Deployment) (ok : Fleet → Fleet.Act → Prop) (f g : Fleet) : Prop :=
  ∃ a, ok f a ∧ f.act d a = some g

/-- The states in which everything so far met a condition. -/
abbrev Fleet.ReachableBy (d : Deployment) (ok : Fleet → Fleet.Act → Prop) : Fleet → Prop :=
  Lib.Reachable (· = .init) (Fleet.Moves d ok)

/-- A property checked after a list of things that all meet a condition. -/
theorem Fleet.exists_reachableBy (d : Deployment) (ok : Fleet → Fleet.Act → Prop)
    [∀ f a, Decidable (ok f a)] (acts : List Fleet.Act) (p : Fleet → Bool)
    (h : (acts.foldlM (fun f a => if ok f a then Fleet.act d f a else none) Fleet.init).any p
      = true) : ∃ f, Fleet.ReachableBy d ok f ∧ p f = true := by
  obtain ⟨f, hf, hp⟩ := (Option.any_eq_true _ _).mp h
  refine ⟨f, Lib.Reachable.of_exec ?_ (.init rfl) hf, hp⟩
  intro f a g hstep
  split at hstep
  · rename_i hok
    exact ⟨a, hok, hstep⟩
  · cases hstep

end Sana.Orchestration
