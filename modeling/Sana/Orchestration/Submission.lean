import Sana.Orchestration.System

/-!
# Submissions that run at the same time

`submit_message` reads before it writes: it locks the conversation, looks for a
submission under the key, and only then adds its rows and commits. Between the two
halves any other transaction may commit, except another submission to the same
conversation, which waits for the lock. `submitMessage` is the two halves with
nothing in between; here they are steps of their own. A worker that dies in between
loses its connection, and with it the lock and the rows it had added.
-/

namespace Sana.Orchestration

open Sana.Lib

/-- What the reading half of `submit_message` comes to. -/
inductive Lookup
  /-- The key was used for the same content. -/
  | found (receipt : SubmissionReceipt)
  /-- The key is free. -/
  | free (content key requestHash : String)
deriving DecidableEq, Repr

section Halves

variable (ports : Ports) (policy : SearchPolicy) (env : Env)

/-- `submit_message` up to the lookup, under the conversation's lock. -/
def submitLookup (t : Tables) (command : SubmitMessageCommand) : Except Exn Lookup := do
  check (!Text.isBlank command.content) (.valueError "Message content cannot be empty")
  let key := Text.strip command.idempotencyKey
  check (1 ≤ key.length && key.length ≤ 200)
    (.valueError "Idempotency-Key must contain between 1 and 200 characters")
  check (command.routing.policyVersion = policy.version)
    (.invariant "Routing decision uses a different search policy version"
      "policy_version_mismatch")
  let content := Text.strip command.content
  let requestHash ← normalizedContentSha256 ports content
  check (t.conversations.any fun c => c.id = command.conversationId && c.userId = command.userId)
    (.invariant "Conversation does not belong to the authenticated user" "conversation_not_found")
  match ← findSubmission ports t command.conversationId key with
  | some existing =>
      check (existing.requestHash = requestHash)
        (.invariant "Idempotency-Key was already used for different content"
          "idempotency_conflict")
      return .found { existing with duplicate := true, requestHash }
  | none => return .free content key requestHash

/-- The rest of `submit_message`, once the key was found free. -/
def submitInsert (db : Db) (command : SubmitMessageCommand) (content key requestHash : String) :
    Except Exn (SubmissionReceipt × Db) := do
  let budget ← policy.snapshot command.routing.mode env.hookNow
  let rows := newSubmission env command content key requestHash budget
  let db ← commitSubmission env db rows
  return ({
    messageId := rows.message.id, responseRunId := rows.responseRun.id
    searchRunId := rows.run.id, status := .queued, duplicate := false, requestHash }, db)

/-- **The two halves are the whole.** -/
theorem submitMessage_eq (db : Db) (command : SubmitMessageCommand) :
    submitMessage ports policy env db command = (do
      match ← submitLookup ports policy db.toTables command with
      | .found receipt => return (receipt, db)
      | .free content key requestHash =>
          submitInsert policy env db command content key requestHash) := by
  simp only [submitMessage, submitLookup, bind_assoc]
  refine bind_congr fun _ => bind_congr fun _ => bind_congr fun _ => bind_congr fun _ =>
    bind_congr fun _ => bind_congr fun found => ?_
  cases found with
  | none => rfl
  | some existing =>
      simp only [bind_assoc]
      exact bind_congr fun _ => rfl

end Halves

/-- A submission between its two halves. -/
structure Held where
  env : Env
  command : SubmitMessageCommand
  content : String
  key : String
  requestHash : String

/-- The world, the submissions under way, and what the ones before were answered. -/
structure Intake where
  world : World
  /-- Each of them holds the lock of its conversation. -/
  held : List Held := []
  receipts : List (SubmitMessageCommand × SubmissionReceipt) := []

/-- Nothing was submitted. -/
def Intake.init : Intake := { world := World.init }

/-- The lock of a conversation can be had. -/
def Intake.Free (s : Intake) (conversationId : Uuid) : Prop :=
  ∀ h ∈ s.held, h.command.conversationId ≠ conversationId

/-- One step of a submission, or any other transaction. -/
inductive Intake.Step (d : Deployment) : Intake → Intake → Prop
  /-- A transaction that is no submission. -/
  | other {s : Intake} {w : World} (call : Call) (hno : ∀ env command, call ≠ .submit env command)
      (hheld : call.Held s.world) (h : call.run d s.world = .ok w) :
      Step d s { s with world := w }
  /-- A submission gets the lock and finds its key free. -/
  | begin {s : Intake} (env : Env) (command : SubmitMessageCommand) {content key hash : String}
      (hlock : s.Free command.conversationId)
      (h : submitLookup d.ports d.policy s.world.db.toTables command = .ok (.free content key hash)) :
      Step d s { s with held := ⟨env, command, content, key, hash⟩ :: s.held }
  /-- A submission gets the lock and finds itself. -/
  | replay {s : Intake} (command : SubmitMessageCommand) (receipt : SubmissionReceipt)
      (hlock : s.Free command.conversationId)
      (h : submitLookup d.ports d.policy s.world.db.toTables command = .ok (.found receipt)) :
      Step d s { s with receipts := (command, receipt) :: s.receipts }
  /-- A submission commits and gives the lock back. -/
  | insert {s : Intake} {before after : List Held} (h : Held) {db : Db}
      (receipt : SubmissionReceipt) (hheld : s.held = before ++ h :: after)
      (hop : submitInsert d.policy h.env s.world.db h.command h.content h.key h.requestHash
        = .ok (receipt, db)) :
      Step d s ⟨⟨db, s.world.claims⟩, before ++ after, (h.command, receipt) :: s.receipts⟩
  /-- A submission raises or dies, and is rolled back. -/
  | rollback {s : Intake} {before after : List Held} (h : Held)
      (hheld : s.held = before ++ h :: after) :
      Step d s { s with held := before ++ after }

/-- The states submissions can get to. -/
abbrev Intake.Reachable (d : Deployment) : Intake → Prop :=
  Lib.Reachable (· = Intake.init) (Intake.Step d)

/-! ## Running it -/

/-- A step to perform; a submission is named by its position among those under way. -/
inductive Intake.Action
  | other (action : Orchestration.Action)
  | begin (env : Env) (command : SubmitMessageCommand)
  | replay (command : SubmitMessageCommand)
  | insert (i : Nat)
  | rollback (i : Nat)

def Call.isSubmit : Call → Bool
  | .submit _ _ => true
  | _ => false

instance (s : Intake) (id : Uuid) : Decidable (s.Free id) :=
  inferInstanceAs (Decidable (∀ h ∈ s.held, _))

/-- Perform one step, if it can be. -/
def Intake.exec (d : Deployment) (s : Intake) : Intake.Action → Option Intake
  | .other action => (action.call s.world).bind fun call =>
      if call.isSubmit = false ∧ call.Held s.world then
        (call.run d s.world).toOption.map fun w => { s with world := w }
      else none
  | .begin env command =>
      if s.Free command.conversationId then
        match submitLookup d.ports d.policy s.world.db.toTables command with
        | .ok (.free content key hash) =>
            some { s with held := ⟨env, command, content, key, hash⟩ :: s.held }
        | _ => none
      else none
  | .replay command =>
      if s.Free command.conversationId then
        match submitLookup d.ports d.policy s.world.db.toTables command with
        | .ok (.found receipt) => some { s with receipts := (command, receipt) :: s.receipts }
        | _ => none
      else none
  | .insert i => s.held[i]?.bind fun h =>
      (submitInsert d.policy h.env s.world.db h.command h.content h.key h.requestHash).toOption.map
        fun (receipt, db) => ⟨⟨db, s.world.claims⟩, s.held.take i ++ s.held.drop (i + 1),
          (h.command, receipt) :: s.receipts⟩
  | .rollback i => s.held[i]?.map fun _ => { s with held := s.held.take i ++ s.held.drop (i + 1) }

/-- A list, split at one of its positions. -/
theorem take_drop_of_getElem? {α : Type} {l : List α} {i : Nat} {a : α} (h : l[i]? = some a) :
    l = l.take i ++ a :: l.drop (i + 1) := by
  obtain ⟨hi, ha⟩ := List.getElem?_eq_some_iff.mp h
  rw [← ha, ← List.drop_eq_getElem_cons hi, List.take_append_drop]

/-- **What is performed is a step.** -/
theorem Intake.exec_step {d : Deployment} {s t : Intake} {a : Intake.Action}
    (h : s.exec d a = some t) : Intake.Step d s t := by
  cases a with
  | other action =>
      obtain ⟨call, _, h⟩ := Option.bind_eq_some_iff.mp h
      split at h
      · rename_i hok
        obtain ⟨w, hw, rfl⟩ := Option.map_eq_some_iff.mp h
        refine .other call (fun env command heq => ?_) hok.2 (toOption_eq_some hw)
        rw [heq] at hok
        cases hok.1
      · cases h
  | begin env command =>
      simp only [Intake.exec] at h
      split at h
      · rename_i hlock
        split at h
        · rename_i hlook
          obtain rfl := Option.some.inj h
          exact .begin env command hlock hlook
        · cases h
      · cases h
  | replay command =>
      simp only [Intake.exec] at h
      split at h
      · rename_i hlock
        split at h
        · rename_i hlook
          obtain rfl := Option.some.inj h
          exact .replay command _ hlock hlook
        · cases h
      · cases h
  | insert i =>
      obtain ⟨x, hx, h⟩ := Option.bind_eq_some_iff.mp h
      obtain ⟨⟨receipt, db⟩, hop, rfl⟩ := Option.map_eq_some_iff.mp h
      exact .insert x receipt (take_drop_of_getElem? hx) (toOption_eq_some hop)
  | rollback i =>
      obtain ⟨x, hx, rfl⟩ := Option.map_eq_some_iff.mp h
      exact .rollback x (take_drop_of_getElem? hx)

/-- A property checked after a list of steps. -/
theorem Intake.exists_reachable (d : Deployment) (actions : List Intake.Action)
    (p : Intake → Bool) (h : (actions.foldlM (Intake.exec d) Intake.init).any p = true) :
    ∃ s, Intake.Reachable d s ∧ p s = true := by
  obtain ⟨s, hs, hp⟩ := (Option.any_eq_true _ _).mp h
  refine ⟨s, Lib.Reachable.of_exec ?_ (.init rfl) hs, hp⟩
  intro _ _ _ hstep
  exact Intake.exec_step hstep

end Sana.Orchestration
