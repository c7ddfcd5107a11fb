import Sana.Orchestration.System
import Sana.Shadow.Execution
import Sana.Shadow.Report
import Sana.Shadow.Review

/-!
# The campaign as a transition system

The state is the service under test, the campaign tables, every lease that was
ever handed out, every request a worker put on the wire and everything the service
did about one. Nothing is taken away: a worker that stalls can come back with an
old lease, a request can arrive late, twice or never, and a reply can be lost after
the service has committed. A crash is a worker that takes no further step.

A transaction that raises is rolled back and is no step, unless it has moved the lease
in the worker's memory: a renewal does so before it compares the fencing token. Clocks
are arbitrary in each transaction.
-/

namespace Sana.Shadow

open Sana.Lib

/-! ## Transactions -/

/-- What is asked of the lifecycle of a campaign. -/
inductive Mutation
  | start (now : Time)
  | resume (now : Time)
  | requestStop (intent : StopIntent) (reason : String)
  | escalateStop (intent : StopIntent) (reason : String)
  | settleStop (now : Time)
  | awaitReview (now deadline : Time)
  | complete (decision : GateStatus) (now : Time)
  | abort (reason : String) (now : Time)
deriving DecidableEq, Repr

def Mutation.apply (c : Campaign) : Mutation → Except Exn Campaign
  | .start now => c.start now
  | .resume now => c.resume now
  | .requestStop intent reason => c.requestStop intent reason
  | .escalateStop intent reason => c.escalateStop intent reason
  | .settleStop now => c.settleStop now
  | .awaitReview now deadline => c.awaitReview now deadline
  | .complete decision now => c.complete decision now
  | .abort reason now => c.abort reason now

/-- A transaction on the campaign tables, with what the caller hands it. -/
inductive Op
  | add (c : Campaign)
  | materialize (userId campaignId : Uuid) (cases : List PlannedCase) (repetitions : Nat)
  | mutate (owner : Option Uuid) (campaignId : Uuid) (mutation : Mutation)
  | review (submission : ReviewSubmission)
  | bindReport (binding : FinalReportBinding) (current : String)
  | claim (campaignId : Uuid) (workerId : String) (leaseDuration : Duration) (locked : List Uuid)
  | renew (lease : RunLease) (leaseDuration : Duration)
  | reserve (lease : RunLease)
  | release (lease : RunLease)
  | settle (campaignId resultId : Uuid) (digest : String) (usage : SettlementUsage)
  | prepareConversation (lease : RunLease)
  | bindConversation (lease : RunLease) (conversationId : Uuid)
  | prepareSubmission (lease : RunLease)
  | bindSubmission (lease : RunLease) (receipt : CandidateSubmissionReceipt)
  | fail (lease : RunLease) (failure : RunnerFailure) (digest : String)
  | skip (campaignId : Uuid) (reason : String)
  | claimCollection (campaignId : Uuid) (workerId : String) (leaseDuration : Duration)
      (locked : List Uuid)
  | renewCollection (lease : CollectorLease) (leaseDuration : Duration)
  | persist (lease : CollectorLease) (outcome : CollectionOutcome)
  | failCollection (lease : CollectorLease) (failure : RunnerFailure)
      (invocations : List ModelInvocation) (digest : String)

/-- What a transaction leaves behind: the tables, and the leases the caller goes on with. -/
structure Outcome where
  db : Db
  leases : List RunLease := []
  collections : List CollectorLease := []

/-- Perform a transaction. -/
def Op.run (ports : Orchestration.Ports) (app : Orchestration.Tables) (db : Db) (now : Time) :
    Op → Except Exn Outcome
  | .add c => do
      return { db := ← addCampaign db c }
  | .materialize userId campaignId cases repetitions => do
      return { db := ← Shadow.materialize ports.uuid5 db userId campaignId cases repetitions }
  | .mutate owner campaignId mutation => do
      return { db := ← mutateLifecycle db owner campaignId fun c => mutation.apply c }
  | .review submission => do
      return { db := ← addReview ports.uuid5 db now submission }
  | .bindReport binding current => do
      return { db := ← Shadow.bindReport db now binding current }
  | .claim campaignId workerId duration locked => do
      let (lease, db) ← claimNextResult db now campaignId workerId duration locked
      return { db, leases := lease.toList }
  | .renew lease duration => do
      let (lease, db) ← renewResultLease db now lease duration
      return { db, leases := [lease] }
  | .reserve lease => do
      let (_, lease, db) ← reserveRunBudget db now lease
      return { db, leases := [lease] }
  | .release lease => do
      let (lease, db) ← releaseRunBudget db now lease
      return { db, leases := [lease] }
  | .settle campaignId resultId digest usage => do
      let (_, db) ← settleRunBudget db now campaignId resultId digest usage
      return { db }
  | .prepareConversation lease => do
      let (lease, db) ← prepareConversationAttempt db now lease
      return { db, leases := [lease] }
  | .bindConversation lease conversationId => do
      let (lease, db) ← Shadow.bindConversation ports db app now lease conversationId
      return { db, leases := [lease] }
  | .prepareSubmission lease => do
      let (lease, db) ← prepareSubmissionAttempt db now lease
      return { db, leases := [lease] }
  | .bindSubmission lease receipt => do
      return { db := ← Shadow.bindSubmission ports db app now lease receipt }
  | .fail lease failure digest => do
      return { db := ← markFailure db now lease failure digest }
  | .skip campaignId reason => do
      return { db := ← skipPending db campaignId reason }
  | .claimCollection campaignId workerId duration locked => do
      let (lease, db) ← Shadow.claimCollection db app now campaignId workerId duration locked
      return { db, collections := lease.toList }
  | .renewCollection lease duration => do
      let (lease, db) ← Shadow.renewCollection db now lease duration
      return { db, collections := [lease] }
  | .persist lease outcome => do
      let (_, db) ← persistCollection db now lease outcome
      return { db }
  | .failCollection lease failure invocations digest => do
      return { db := ← markCollectorFailure db app now lease failure invocations digest }

/-! ## Worlds -/

/-- A repetition of a case in a campaign: what is to be run once. -/
structure RunUnit where
  campaignId : Uuid
  caseId : String
  repetition : Nat
deriving DecidableEq, Repr

def RunLease.unit (l : RunLease) : RunUnit := ⟨l.campaignId, l.caseId, l.repetition⟩

def RunResult.unit (r : RunResult) : RunUnit := ⟨r.campaignId, r.caseId, r.repetition⟩

/-- A request a worker sent for a unit, as the user it is authenticated as. -/
structure Sent where
  unit : RunUnit
  userId : Uuid
  request : Request
deriving DecidableEq, Repr

/-- What the service did about a request for a unit. -/
structure Served where
  unit : RunUnit
  reply : Reply
deriving DecidableEq, Repr

/-- The service, the campaign tables, and everything that was ever handed out or sent. -/
structure World where
  app : Orchestration.World
  db : Db
  leases : List RunLease := []
  collections : List CollectorLease := []
  sent : List Sent := []
  served : List Served := []

/-- No rows, no leases and no requests. -/
def World.init : World := { app := .init, db := .empty }

/-- The world after a transaction that committed. -/
def World.after (w : World) (out : Outcome) : World :=
  { w with
    db := out.db, leases := w.leases ++ out.leases
    collections := w.collections ++ out.collections }

/-- The leases a transaction presents were handed out, and the receipts it binds were returned. -/
def Op.Held (w : World) : Op → Prop
  | .renew lease _ | .reserve lease | .release lease | .prepareConversation lease
  | .prepareSubmission lease | .fail lease _ _ => lease ∈ w.leases
  | .bindConversation lease conversationId =>
      lease ∈ w.leases ∧ ⟨lease.unit, .conversation conversationId⟩ ∈ w.served
  | .bindSubmission lease receipt =>
      lease ∈ w.leases ∧ ⟨lease.unit, .message receipt⟩ ∈ w.served
  | .renewCollection lease _ | .persist lease _ | .failCollection lease _ _ _ =>
      lease ∈ w.collections
  | _ => True

/-- What can happen next. -/
inductive Label
  /-- The service under test goes on by itself. -/
  | service
  | transact (now : Time) (op : Op)
  /-- A transaction is rolled back after the worker moved its lease on in memory. -/
  | lost (now : Time) (op : Op)
  /-- A renewal raises when the worker has moved its lease, but not its persisted version. -/
  | strayed (now : Time) (lease : RunLease)
  | send (lease : RunLease) (prompt : String)
  | serve (env : Orchestration.Env) (routing : Orchestration.RoutingDecision) (sent : Sent)

/-- One step. -/
inductive Step (d : Orchestration.Deployment) : Label → World → World → Prop
  | service {w : World} {app : Orchestration.World} (h : Orchestration.Step d w.app app) :
      Step d .service w { w with app }
  | transact {w : World} {now : Time} {op : Op} {out : Outcome} (hheld : op.Held w)
      (h : op.run d.ports w.app.db.toTables w.db now = .ok out) :
      Step d (.transact now op) w (w.after out)
  | lost {w : World} {now : Time} {op : Op} {out : Outcome} (hheld : op.Held w)
      (h : op.run d.ports w.app.db.toTables w.db now = .ok out) :
      Step d (.lost now op) w { w.after out with db := w.db }
  | strayed {w : World} {now : Time} {lease lease' : RunLease} {leaseDuration : Duration}
      (hlease : lease ∈ w.leases)
      (h : lease.renew now (max now lease.leaseExpiresAt + leaseDuration) = .ok lease') :
      Step d (.strayed now lease) w { w with leases := w.leases ++ [lease'] }
  /-- A worker sends what its lease is at. It only runs campaigns of the user it is. -/
  | send {w : World} {lease : RunLease} {prompt : String} {c : Campaign} {request : Request}
      (hlease : lease ∈ w.leases) (hc : lookup (·.id) lease.campaignId w.db.campaigns = some c)
      (h : lease.nextRequest d.ports prompt = .ok request) :
      Step d (.send lease prompt) w
        { w with sent := w.sent ++ [⟨lease.unit, c.createdByUserId, request⟩] }
  /-- The service gets a request, for the first time or again. -/
  | serve {w : World} {env : Orchestration.Env} {routing : Orchestration.RoutingDecision}
      {sent : Sent} {reply : Reply} {app : Orchestration.Db} (hsent : sent ∈ w.sent)
      (h : answer d.ports d.policy env routing w.app.db sent.userId sent.request
        = .ok (reply, app)) :
      Step d (.serve env routing sent) w
        { w with
          app := { w.app with db := app }
          served := w.served ++ [⟨sent.unit, reply⟩] }

/-- A step that meets a condition on the world it is taken in. -/
def Moves (d : Orchestration.Deployment) (ok : World → Label → Prop) (w w' : World) : Prop :=
  ∃ label, ok w label ∧ Step d label w w'

/-- The worlds a deployment can get to by steps that all meet a condition. -/
abbrev ReachableBy (d : Orchestration.Deployment) (ok : World → Label → Prop) : World → Prop :=
  Lib.Reachable (· = World.init) (Moves d ok)

/-- The worlds a deployment can get to. -/
abbrev Reachable (d : Orchestration.Deployment) : World → Prop := ReachableBy d fun _ _ => True

/-! ## Running it -/

instance (w : World) (op : Op) : Decidable (op.Held w) := by
  cases op <;> unfold Op.Held <;> infer_instance

/-- What to do next, chosen by what has been handed out and sent so far. -/
inductive Action
  | service (action : Orchestration.Action)
  | transact (now : Time) (choose : World → Option Op)
  | send (lease : Nat) (prompt : String)
  | serve (env : Orchestration.Env) (routing : Orchestration.RoutingDecision) (sent : Nat)

section Run

variable (d : Orchestration.Deployment) (ok : World → Label → Prop)
  [∀ w label, Decidable (ok w label)]

/-- Perform one step, if it meets the condition and can be taken. -/
def exec (w : World) : Action → Option World
  | .service action =>
      if ok w .service then
        (Orchestration.exec d w.app action).map fun app => { w with app }
      else none
  | .transact now choose =>
      (choose w).bind fun op =>
        if op.Held w ∧ ok w (.transact now op) then
          (op.run d.ports w.app.db.toTables w.db now).toOption.map w.after
        else none
  | .send lease prompt =>
      w.leases[lease]?.bind fun lease =>
        (lookup (·.id) lease.campaignId w.db.campaigns).bind fun c =>
          if ok w (.send lease prompt) then
            (lease.nextRequest d.ports prompt).toOption.map fun request =>
              { w with sent := w.sent ++ [⟨lease.unit, c.createdByUserId, request⟩] }
          else none
  | .serve env routing sent =>
      w.sent[sent]?.bind fun sent =>
        if ok w (.serve env routing sent) then
          (answer d.ports d.policy env routing w.app.db sent.userId sent.request).toOption.map
            fun r => { w with
              app := { w.app with db := r.2 }
              served := w.served ++ [⟨sent.unit, r.1⟩] }
        else none

/-- **What is performed is a step that meets the condition.** -/
theorem exec_moves {w w' : World} {a : Action} (h : exec d ok w a = some w') :
    Moves d ok w w' := by
  cases a with
  | service action =>
      simp only [exec] at h
      split at h
      · rename_i hok
        obtain ⟨app, happ, rfl⟩ := Option.map_eq_some_iff.mp h
        exact ⟨_, hok, .service (Orchestration.exec_step happ)⟩
      · cases h
  | transact now choose =>
      obtain ⟨op, _, h⟩ := Option.bind_eq_some_iff.mp h
      split at h
      · rename_i hop
        obtain ⟨out, hout, rfl⟩ := Option.map_eq_some_iff.mp h
        exact ⟨_, hop.2, .transact hop.1 (Orchestration.toOption_eq_some hout)⟩
      · cases h
  | send lease prompt =>
      obtain ⟨lease, hl, h⟩ := Option.bind_eq_some_iff.mp h
      obtain ⟨c, hc, h⟩ := Option.bind_eq_some_iff.mp h
      split at h
      · rename_i hok
        obtain ⟨request, hreq, rfl⟩ := Option.map_eq_some_iff.mp h
        exact ⟨_, hok, .send (List.mem_of_getElem? hl) hc (Orchestration.toOption_eq_some hreq)⟩
      · cases h
  | serve env routing sent =>
      obtain ⟨sent, hs, h⟩ := Option.bind_eq_some_iff.mp h
      split at h
      · rename_i hok
        obtain ⟨r, hr, rfl⟩ := Option.map_eq_some_iff.mp h
        exact ⟨_, hok, .serve (List.mem_of_getElem? hs) (Orchestration.toOption_eq_some hr)⟩
      · cases h

/-- Perform steps one after the other from the empty world. -/
def perform (actions : List Action) : Option World :=
  actions.foldlM (exec d ok) World.init

/-- A property checked on a performed list of steps is reached. -/
theorem exists_reachable (actions : List Action) (p : World → Bool)
    (h : (perform d ok actions).any p = true) : ∃ w, ReachableBy d ok w ∧ p w = true := by
  obtain ⟨w, hw, hp⟩ := (Option.any_eq_true _ _).mp h
  refine ⟨w, ?_, hp⟩
  refine Lib.Reachable.of_exec ?_ (.init rfl) hw
  intro _ _ _ hstep
  exact exec_moves d ok hstep

end Run

/-! ## A small campaign -/

namespace Sample

/-- Sixty-four zeros. -/
def digest : String := String.ofList (List.replicate 64 '0')

/-- A deployment whose hash is constant and whose derived identifiers spell their name. -/
def deployment : Orchestration.Deployment where
  ports := {
    artifacts := fun _ => some {}
    uuid5 := fun _ name => ⟨BitVec.ofNat 128 (name.toList.foldl (fun n c => 256 * n + c.toNat) 0)⟩
    sha256 := fun _ => digest }
  policy := .default
  cfg := .default

def owner : Uuid := ⟨7#128⟩

def campaignId : Uuid := ⟨9#128⟩

/-- Six runs, two at a time; each reserves eight calls and 0.002 USD of 0.01 USD. -/
def campaign : Campaign where
  id := campaignId
  createdByUserId := owner
  costRate := ⟨1, 1, 1 / 500, none⟩
  collectorSchemaVersion := "collector"
  maxRuns := 6
  maxConcurrency := 2
  limits := ⟨32, 48, 100000000⟩

def cases : List PlannedCase := [⟨"a", digest, []⟩, ⟨"b", digest, []⟩, ⟨"c", digest, []⟩]

/-- The campaign is created, planned and started. -/
def started : List Action := [
  .transact 1 fun _ => some (.add campaign),
  .transact 2 fun _ => some (.materialize owner campaignId cases 2),
  .transact 3 fun _ => some (.mutate (some owner) campaignId (.start 3))]

/-- The lease handed out last. -/
def last (w : World) (op : RunLease → Op) : Option Op := w.leases.getLast?.map op

/-- The reply served last. -/
def replied (w : World) : Option Reply := w.served.getLast?.map (·.reply)

/-- A worker claims a unit, reserves its budget and has its conversation created and bound. -/
def bound (n : Nat) : List Action := [
  .transact (seconds n) fun _ => some (.claim campaignId "worker" (seconds 60) []),
  .transact (seconds n) fun w => last w .reserve,
  .transact (seconds n) fun w => last w .prepareConversation,
  .send (5 * n + 2) "prompt",
  .serve (Orchestration.sampleEnv (10 + 2 * n)) ⟨.fast, [], "search-v12"⟩ (2 * n),
  .transact (seconds n) fun w => match replied w with
    | some (.conversation id) => last w (.bindConversation · id)
    | _ => none,
  .transact (seconds n) fun w => last w .prepareSubmission]

/-- And its prompt is submitted and the run bound; the request is delivered twice. -/
def submitted (n : Nat) : List Action := bound n ++ [
  .send (5 * n + 4) "prompt",
  .serve (Orchestration.sampleEnv (11 + 2 * n)) ⟨.fast, [], "search-v12"⟩ (2 * n + 1),
  .serve (Orchestration.sampleEnv (40 + 2 * n)) ⟨.fast, [], "search-v12"⟩ (2 * n + 1),
  .transact (seconds n) fun w => match replied w with
    | some (.message receipt) => last w (.bindSubmission · receipt)
    | _ => none]

end Sample

end Sana.Shadow
