import Sana.Orchestration.Proof.Events
import Sana.Orchestration.Submission

/-!
# A key is submitted once

The rows of a submission are added in one transaction and found again through each
other: a user's message has one response, a response one run, a run one first step and
the step one outbox row. `Filed` says so; the lookup of a key that was submitted
therefore yields exactly one row. What a submission under the conversation's lock has
looked up stays true until it commits (`lookup_stable`), so a commit does what the whole
of `submit_message` would do at that moment: concurrent submissions are a run of the
workflow.
-/

namespace Sana.Orchestration

open Sana.Lib

variable {who : Actor} {db db' : Db} {d : Deployment} {w w' : World}

/-! ## What other transactions leave -/

/-- What a transaction that submits nothing leaves of the rows of submissions. -/
structure Carried (db db' : Db) : Prop where
  conversations : ∃ touch rows, db'.conversations = db.conversations.map touch ++ rows ∧
    ∀ c, Conversation.Same c (touch c)
  messages : ∃ rows, db'.messages = db.messages ++ rows ∧ ∀ m ∈ rows, m.authorUserId = none
  responses : ∃ settle, db'.responseRuns = db.responseRuns.map settle ∧
    ∀ r, ResponseRun.Same r (settle r)
  runs : ∀ r ∈ db.runs, ∃ r' ∈ db'.runs, r.Kept r'
  runs_back : ∀ r' ∈ db'.runs, ∃ r ∈ db.runs, r.Kept r'

theorem Sides.carried {new : List SearchStep} (hs : Sides who db db' new)
    (hruns : ∀ r ∈ db.runs, ∃ r' ∈ db'.runs, r.Kept r')
    (hback : ∀ r' ∈ db'.runs, ∃ r ∈ db.runs, r.Kept r') : Carried db db' := by
  obtain ⟨settle, hmap, hsettle⟩ := hs.responses
  exact ⟨hs.conversations, hs.messages, ⟨settle, hmap, fun r => (hsettle r).1⟩, hruns, hback⟩

/-- A transaction submits, or carries the rows of the submissions before. -/
theorem Effect.carried (he : Effect who db db') :
    (∃ rows route, Submitted db db' rows route ∧ who = .submitter) ∨ Carried db db' := by
  have hruns : ∀ r ∈ db.runs, ∃ r' ∈ db'.runs, r.Kept r' := fun r hr => he.run_persists hr
  have written : ∀ {x x' : SearchRun}, x ∈ db.runs → x.Kept x' →
      db'.runs = update (·.id) x.id (fun _ => x') db.runs →
      ∀ r' ∈ db'.runs, ∃ r ∈ db.runs, r.Kept r' := by
    intro x x' hx hkept hupd r' hr'
    rw [hupd, mem_update_iff db.valid.pk_runs hx] at hr'
    rcases hr' with rfl | ⟨hold, -⟩
    · exact ⟨x, hx, hkept⟩
    · exact ⟨r', hold, .rfl⟩
  cases he with
  | idle _ hr _ hsides =>
      exact .inr (hsides.carried hruns fun r' hr' => ⟨r', hr ▸ hr', .rfl⟩)
  | renewed _ _ _ _ _ _ _ hr _ hsides =>
      exact .inr (hsides.carried hruns fun r' hr' => ⟨r', hr ▸ hr', .rfl⟩)
  | runWritten run run' hmem _ _ _ hr _ hkept _ hsides =>
      exact .inr (hsides.carried hruns (written hmem hkept hr))
  | submitted rows route hsub hwho => exact .inl ⟨rows, route, hsub, hwho⟩
  | moved cur cur' run run' new m =>
      exact .inr (m.sides.carried hruns (written m.run_mem m.orderly.ran.toKept m.runs))

namespace Carried

/-- A response that is there was there. -/
theorem response_back (h : Carried db db') {q' : ResponseRun} (hq : q' ∈ db'.responseRuns) :
    ∃ q ∈ db.responseRuns, ResponseRun.Same q q' := by
  obtain ⟨settle, hmap, hsame⟩ := h.responses
  rw [hmap] at hq
  obtain ⟨q, hmem, rfl⟩ := List.mem_map.mp hq
  exact ⟨q, hmem, hsame q⟩

/-- A response that was there is there. -/
theorem response (h : Carried db db') {q : ResponseRun} (hq : q ∈ db.responseRuns) :
    ∃ q' ∈ db'.responseRuns, ResponseRun.Same q q' := by
  obtain ⟨settle, hmap, hsame⟩ := h.responses
  exact ⟨settle q, by rw [hmap]; exact List.mem_map_of_mem hq, hsame q⟩

theorem message (h : Carried db db') {m : Message} (hm : m ∈ db.messages) : m ∈ db'.messages := by
  obtain ⟨rows, hrows, -⟩ := h.messages
  rw [hrows]
  exact List.mem_append_left _ hm

/-- A user's message that is there was there. -/
theorem message_back (h : Carried db db') {m : Message} (hm : m ∈ db'.messages)
    (hauthor : m.authorUserId ≠ none) : m ∈ db.messages := by
  obtain ⟨rows, hrows, hnone⟩ := h.messages
  rw [hrows, List.mem_append] at hm
  rcases hm with hm | hm
  · exact hm
  · exact absurd (hnone m hm) hauthor

/-- The message of a response that was there. -/
theorem message_of_response (h : Carried db db') {q : ResponseRun} (hq : q ∈ db.responseRuns)
    {m : Message} (hm : m ∈ db'.messages) (hid : m.id = q.messageId) : m ∈ db.messages := by
  obtain ⟨o, ho, hoid⟩ := db.valid.fk_responseRuns q hq
  rw [eq_of_key_eq db'.valid.pk_messages hm (h.message ho) (hid.trans hoid.symm)]
  exact ho

/-- A conversation keeps its owner. -/
theorem owner (h : Carried db db') {id user : Uuid}
    (hc : ∃ c ∈ db.conversations, c.id = id ∧ c.userId = user) :
    ∃ c ∈ db'.conversations, c.id = id ∧ c.userId = user := by
  obtain ⟨c, hc, hid, huser⟩ := hc
  obtain ⟨touch, rows, hmap, hsame⟩ := h.conversations
  refine ⟨touch c, ?_, (hsame c).id.trans hid, (hsame c).userId.trans huser⟩
  rw [hmap]
  exact List.mem_append_left _ (List.mem_map_of_mem hc)

end Carried

/-! ## Rows that belong together -/

/-- The rows of every submission belong together, and to no other. -/
structure Filed (db : Db) : Prop where
  response_unique : ∀ q ∈ db.responseRuns, ∀ q' ∈ db.responseRuns,
    q'.messageId = q.messageId → q' = q
  /-- A response answers a user. -/
  response_author : ∀ q ∈ db.responseRuns, ∀ m ∈ db.messages, m.id = q.messageId →
    m.authorUserId ≠ none
  /-- A user is answered. -/
  message_response : ∀ m ∈ db.messages, m.authorUserId ≠ none →
    ∃ q ∈ db.responseRuns, q.messageId = m.id
  response_run : ∀ q ∈ db.responseRuns, ∃ r ∈ db.runs, r.responseRunId = q.id
  run_message : ∀ r ∈ db.runs, ∃ q ∈ db.responseRuns, q.id = r.responseRunId ∧
    q.messageId = r.messageId ∧ q.conversationId = r.conversationId

/-- A submission adds one of each. -/
theorem Filed.submitted {rows : SubmissionRows} {route : SearchStep} (h : Filed db)
    (hsub : Submitted db db' rows route) : Filed db' := by
  have hl := hsub.linked
  have hmsg : ∀ m, m ∈ db'.messages ↔ m ∈ db.messages ∨ m = rows.message := by
    simp [hsub.tables]
  have hres : ∀ q, q ∈ db'.responseRuns ↔ q ∈ db.responseRuns ∨ q = rows.responseRun := by
    simp [hsub.tables]
  have hrun : ∀ r, r ∈ db'.runs ↔ r ∈ db.runs ∨ r = rows.run := by simp [hsub.tables]
  -- the new message is no old response's
  have hfresh : ∀ q ∈ db.responseRuns, q.messageId ≠ rows.message.id := by
    intro q hq hid
    obtain ⟨m, hm, hmid⟩ := db.valid.fk_responseRuns q hq
    have hnd := db'.valid.pk_messages
    rw [hsub.tables, List.map_append, List.nodup_append] at hnd
    exact hnd.2.2 m.id (List.mem_map_of_mem hm) rows.message.id (by simp) (hmid.trans hid)
  refine ⟨?_, ?_, ?_, ?_, ?_⟩
  · intro q hq q' hq' hid
    rcases (hres q).mp hq with hq | rfl <;> rcases (hres q').mp hq' with hq' | rfl
    · exact h.response_unique q hq q' hq' hid
    · exact absurd (hid.symm.trans hl.response_message) (hfresh q hq)
    · exact absurd (hid.trans hl.response_message) (hfresh q' hq')
    · rfl
  · intro q hq m hm hid
    rcases (hmsg m).mp hm with hm | rfl
    · rcases (hres q).mp hq with hq | rfl
      · exact h.response_author q hq m hm hid
      · have hnd := db'.valid.pk_messages
        rw [hsub.tables, List.map_append, List.nodup_append] at hnd
        exact absurd (hid.trans hl.response_message)
          (hnd.2.2 m.id (List.mem_map_of_mem hm) rows.message.id (by simp))
    · exact hl.message_author
  · intro m hm hauthor
    rcases (hmsg m).mp hm with hm | rfl
    · obtain ⟨q, hq, hid⟩ := h.message_response m hm hauthor
      exact ⟨q, (hres q).mpr (.inl hq), hid⟩
    · exact ⟨rows.responseRun, (hres _).mpr (.inr rfl), hl.response_message⟩
  · intro q hq
    rcases (hres q).mp hq with hq | rfl
    · obtain ⟨r, hr, hid⟩ := h.response_run q hq
      exact ⟨r, (hrun r).mpr (.inl hr), hid⟩
    · exact ⟨rows.run, (hrun _).mpr (.inr rfl), hl.run_response⟩
  · intro r hr
    rcases (hrun r).mp hr with hr | rfl
    · obtain ⟨q, hq, hid, hm, hc⟩ := h.run_message r hr
      exact ⟨q, (hres q).mpr (.inl hq), hid, hm, hc⟩
    · exact ⟨rows.responseRun, (hres _).mpr (.inr rfl), hl.run_response.symm,
        hl.response_message.trans hl.run_message.symm,
        hl.response_conversation.trans hl.run_conversation.symm⟩

/-- What is carried stays filed. -/
theorem Filed.carried (h : Filed db) (hc : Carried db db') : Filed db' := by
  refine ⟨?_, ?_, ?_, ?_, ?_⟩
  · intro q hq q' hq' hid
    obtain ⟨o, ho, hs⟩ := hc.response_back hq
    obtain ⟨o', ho', hs'⟩ := hc.response_back hq'
    have heq : o' = o := by
      refine h.response_unique o ho o' ho' ?_
      rw [← hs.messageId, ← hs'.messageId]
      exact hid
    refine eq_of_key_eq db'.valid.pk_responseRuns hq' hq ?_
    rw [hs.id, hs'.id, heq]
  · intro q hq m hm hid
    obtain ⟨o, ho, hs⟩ := hc.response_back hq
    rw [hs.messageId] at hid
    exact h.response_author o ho m (hc.message_of_response ho hm hid) hid
  · intro m hm hauthor
    obtain ⟨q, hq, hid⟩ := h.message_response m (hc.message_back hm hauthor) hauthor
    obtain ⟨q', hq', hs⟩ := hc.response hq
    exact ⟨q', hq', hs.messageId.trans hid⟩
  · intro q hq
    obtain ⟨o, ho, hs⟩ := hc.response_back hq
    obtain ⟨r, hr, hid⟩ := h.response_run o ho
    obtain ⟨r', hr', hk⟩ := hc.runs r hr
    exact ⟨r', hr', (hk.responseRunId.trans hid).trans hs.id.symm⟩
  · intro r' hr'
    obtain ⟨r, hr, hk⟩ := hc.runs_back r' hr'
    obtain ⟨q, hq, hid, hm, hconv⟩ := h.run_message r hr
    obtain ⟨q', hq', hs⟩ := hc.response hq
    exact ⟨q', hq', (hs.id.trans hid).trans hk.responseRunId.symm,
      (hs.messageId.trans hm).trans hk.messageId.symm,
      (hs.conversationId.trans hconv).trans hk.conversationId.symm⟩

theorem filed_reachable (hr : Reachable d w) : Filed w.db := by
  refine hr.invariant_of (P := fun w => Filed w.db) (Q := WInv) (fun _ => winv_reachable) ?_ ?_
  · intro s hs
    subst hs
    refine ⟨?_, ?_, ?_, ?_, ?_⟩ <;> simp [World.init, Db.empty]
  · intro s t hi hf hs
    obtain ⟨who, he, -⟩ := step_effect hi hs
    rcases he.carried with ⟨rows, route, hsub, -⟩ | hc
    · exact hf.submitted hsub
    · exact hf.carried hc

/-! ## Finding a submission -/

section Lookup

variable {c : Uuid} {k : String} {ports : Ports} {policy : SearchPolicy}
  {command : SubmitMessageCommand}

theorem mem_submissionRows {t : Tables} {m : Message} {q : ResponseRun} {r : SearchRun} :
    (m, q, r) ∈ submissionRows t c k ↔
      (m ∈ t.messages ∧ m.conversationId = c ∧ m.idempotencyKey = some k) ∧
      (q ∈ t.responseRuns ∧ q.messageId = m.id) ∧ r ∈ t.runs ∧ r.responseRunId = q.id := by
  simp only [submissionRows, List.mem_flatMap, List.mem_filter, List.mem_map, Bool.and_eq_true,
    decide_eq_true_eq, Prod.mk.injEq]
  constructor
  · intro h
    obtain ⟨m', hm, q', hq, r', hr, rfl, rfl, rfl⟩ := h
    exact ⟨⟨hm.1, hm.2⟩, hq, hr⟩
  · intro h
    obtain ⟨hm, hq, hr⟩ := h
    exact ⟨m, ⟨hm.1, hm.2⟩, q, hq, r, hr, rfl, rfl, rfl⟩

/-- A key names one message of its conversation. -/
theorem message_of_key {m m' : Message} (hm : m ∈ db.messages) (hm' : m' ∈ db.messages)
    (hconv : m'.conversationId = m.conversationId) (hkey : m.idempotencyKey = some k)
    (hkey' : m'.idempotencyKey = some k) : m' = m := by
  refine eq_of_filterMap_nodup db.valid.uq_messages_idempotency hm hm'
    (b := (m.conversationId, k)) ?_ ?_
  · rw [hkey]
    rfl
  · rw [hkey', hconv]
    rfl

/-- **A key that was submitted is found, once.** -/
theorem Filed.submissionRows_eq (h : Filed db) {m : Message} (hm : m ∈ db.messages)
    (hauthor : m.authorUserId ≠ none) (hconv : m.conversationId = c)
    (hkey : m.idempotencyKey = some k) :
    ∃ q r, submissionRows db.toTables c k = [(m, q, r)] := by
  obtain ⟨q, hq, hqm⟩ := h.message_response m hm hauthor
  obtain ⟨r, hr, hrq⟩ := h.response_run q hq
  refine ⟨q, r, ?_⟩
  have hms : (db.messages.filter fun x => x.conversationId = c && x.idempotencyKey = some k)
      = [m] := by
    refine filter_eq_singleton db.valid.pk_messages hm (by simp [hconv, hkey]) fun x hx hp => ?_
    simp only [Bool.and_eq_true, decide_eq_true_eq] at hp
    exact message_of_key hm hx (hp.1.trans hconv.symm) hkey hp.2
  have hqs : (db.responseRuns.filter fun x => x.messageId = m.id) = [q] := by
    refine filter_eq_singleton db.valid.pk_responseRuns hq (by simp [hqm]) fun x hx hp => ?_
    rw [decide_eq_true_eq] at hp
    exact h.response_unique q hq x hx (hp.trans hqm.symm)
  have hrs : (db.runs.filter fun x => x.responseRunId = q.id) = [r] := by
    refine filter_eq_singleton db.valid.pk_runs hr (by simp [hrq]) fun x hx hp => ?_
    rw [decide_eq_true_eq] at hp
    exact eq_of_key_eq db.valid.uq_runs_responseRun hx hr (hp.trans hrq.symm)
  simp [submissionRows, hms, hqs, hrs]

/-- The checks `submit_message` makes before it looks for its key. -/
structure Accepted (policy : SearchPolicy) (t : Tables) (command : SubmitMessageCommand) : Prop where
  content : Text.isBlank command.content = false
  key : 1 ≤ (Text.strip command.idempotencyKey).length ∧
    (Text.strip command.idempotencyKey).length ≤ 200
  version : command.routing.policyVersion = policy.version
  owner : ∃ c ∈ t.conversations, c.id = command.conversationId ∧ c.userId = command.userId

theorem normalizedContentSha256_ok {s : String} (h : Text.isBlank s = false) :
    normalizedContentSha256 ports (Text.strip s) = .ok (ports.sha256 (Text.strip s)) := by
  have hne : Text.strip s ≠ "" := by
    rw [Ne, Text.strip_eq_empty_iff, h]
    simp
  simp [normalizedContentSha256, Text.strip_strip, hne, check, bind, Except.bind, pure, Except.pure]

/-- Past its checks, the reading half is the lookup. -/
theorem submitLookup_of_accepted {t : Tables} (h : Accepted policy t command) :
    submitLookup ports policy t command = (do
      match ← findSubmission ports t command.conversationId
          (Text.strip command.idempotencyKey) with
      | some existing =>
          check (existing.requestHash = ports.sha256 (Text.strip command.content))
            (.invariant "Idempotency-Key was already used for different content"
              "idempotency_conflict")
          return .found { existing with
            duplicate := true, requestHash := ports.sha256 (Text.strip command.content) }
      | none =>
          return .free (Text.strip command.content) (Text.strip command.idempotencyKey)
            (ports.sha256 (Text.strip command.content))) := by
  have howner : (t.conversations.any fun c => c.id = command.conversationId
      && c.userId = command.userId) = true := by
    rw [List.any_eq_true]
    obtain ⟨c, hc, hid, huser⟩ := h.owner
    exact ⟨c, hc, by simp [hid, huser]⟩
  have hlookup : submitLookup ports policy t command = submitLookup ports policy t command := rfl
  conv_rhs at hlookup =>
    simp only [submitLookup, h.content, h.version, h.key, howner,
      normalizedContentSha256_ok h.content, check, Bool.not_false, if_true, decide_true,
      Bool.and_self, bind, Except.bind]
  exact hlookup

/-- A lookup that returns has passed its checks. -/
theorem accepted_of_lookup {t : Tables} {found : Lookup}
    (h : submitLookup ports policy t command = .ok found) : Accepted policy t command := by
  simp only [submitLookup, bind_ok_iff, check_eq_ok, Bool.not_eq_true', Bool.and_eq_true,
    decide_eq_true_eq, List.any_eq_true] at h
  obtain ⟨_, hcontent, _, hkey, _, hver, _, _, _, howner, _⟩ := h
  exact ⟨hcontent, hkey, hver, howner⟩

/-- The lookup finds a key free exactly if no submission is filed under it. -/
theorem submitLookup_free_iff {t : Tables} {content key hash : String} :
    submitLookup ports policy t command = .ok (.free content key hash) ↔
      Accepted policy t command ∧ content = Text.strip command.content ∧
        key = Text.strip command.idempotencyKey ∧ hash = ports.sha256 (Text.strip command.content) ∧
        submissionRows t command.conversationId (Text.strip command.idempotencyKey) = [] := by
  constructor
  · intro h
    have hacc := accepted_of_lookup h
    rw [submitLookup_of_accepted hacc, bind_ok_iff] at h
    obtain ⟨found, hfind, h⟩ := h
    cases found with
    | some existing => simp at h
    | none =>
        obtain ⟨rfl, rfl, rfl⟩ := Lookup.free.inj (pure_ok_iff.mp h)
        refine ⟨hacc, rfl, rfl, rfl, ?_⟩
        unfold findSubmission at hfind
        split at hfind
        · assumption
        · simp at hfind
        · cases hfind
  · intro h
    obtain ⟨hacc, rfl, rfl, rfl, hrows⟩ := h
    rw [submitLookup_of_accepted hacc]
    simp [findSubmission, hrows, bind, Except.bind, pure, Except.pure]

end Lookup

/-! ## What was looked up stays true -/

section Stable

variable {ports : Ports} {policy : SearchPolicy} {command : SubmitMessageCommand}
  {content key hash : String}

/-- A key is not filed by anything but a submission. -/
theorem Carried.submissionRows_nil (h : Carried db db') {c : Uuid} {k : String}
    (hnil : submissionRows db.toTables c k = []) : submissionRows db'.toTables c k = [] := by
  rw [List.eq_nil_iff_forall_not_mem] at hnil ⊢
  intro x hx
  obtain ⟨m, q', r'⟩ := x
  obtain ⟨⟨hm, hkey⟩, ⟨hq', hqm⟩, hr', hrq⟩ := mem_submissionRows.mp hx
  obtain ⟨q, hq, hs⟩ := h.response_back hq'
  obtain ⟨r, hr, hk⟩ := h.runs_back r' hr'
  have hmq : m.id = q.messageId := by rw [← hs.messageId, hqm]
  refine hnil (m, q, r) (mem_submissionRows.mpr
    ⟨⟨h.message_of_response hq hm hmq, hkey⟩, ⟨hq, hmq.symm⟩, hr, ?_⟩)
  rw [← hk.responseRunId, hrq, hs.id]

/-- **A key that was found free stays free**, while no other submission gets the lock. -/
theorem lookup_stable
    (h : submitLookup ports policy db.toTables command = .ok (.free content key hash))
    (hc : Carried db db') :
    submitLookup ports policy db'.toTables command = .ok (.free content key hash) := by
  rw [submitLookup_free_iff] at h ⊢
  obtain ⟨hacc, hcontent, hkey, hhash, hnil⟩ := h
  exact ⟨⟨hacc.content, hacc.key, hacc.version, hc.owner hacc.owner⟩, hcontent, hkey, hhash,
    hc.submissionRows_nil hnil⟩

/-- A submission to another conversation does not file the key either. -/
theorem lookup_stable_submitted {rows : SubmissionRows} {route : SearchStep}
    (h : submitLookup ports policy db.toTables command = .ok (.free content key hash))
    (hsub : Submitted db db' rows route)
    (hne : rows.message.conversationId ≠ command.conversationId) :
    submitLookup ports policy db'.toTables command = .ok (.free content key hash) := by
  rw [submitLookup_free_iff] at h ⊢
  obtain ⟨hacc, hcontent, hkey, hhash, hnil⟩ := h
  have hl := hsub.linked
  refine ⟨⟨hacc.content, hacc.key, hacc.version, ?_⟩, hcontent, hkey, hhash, ?_⟩
  · rw [hsub.tables]
    exact hacc.owner
  · rw [List.eq_nil_iff_forall_not_mem] at hnil ⊢
    intro x hx
    obtain ⟨m, q, r⟩ := x
    obtain ⟨⟨hm, hconv, hk⟩, ⟨hq, hqm⟩, hr, hrq⟩ := mem_submissionRows.mp hx
    simp only [hsub.tables, List.mem_append, List.mem_singleton] at hm hq hr
    -- the message is an old one, so its response and its run are
    have hmold : m ∈ db.messages := hm.resolve_right fun heq => hne (heq ▸ hconv)
    have hqold : q ∈ db.responseRuns := by
      refine hq.resolve_right fun heq => ?_
      have hnd := db'.valid.pk_messages
      rw [hsub.tables, List.map_append, List.nodup_append] at hnd
      refine hnd.2.2 m.id (List.mem_map_of_mem hmold) rows.message.id (by simp) ?_
      rw [← hqm, heq, hl.response_message]
    have hrold : r ∈ db.runs := by
      refine hr.resolve_right fun heq => ?_
      have hnd := db'.valid.pk_responseRuns
      rw [hsub.tables, List.map_append, List.nodup_append] at hnd
      refine hnd.2.2 q.id (List.mem_map_of_mem hqold) rows.responseRun.id (by simp) ?_
      rw [← hrq, heq, hl.run_response]
    exact hnil (m, q, r) (mem_submissionRows.mpr ⟨⟨hmold, hconv, hk⟩, ⟨hqold, hqm⟩, hrold, hrq⟩)

end Stable

/-! ## Concurrent submissions -/

/-- What a call was answered is filed: its rows, under its key, for its content. -/
structure Returned (ports : Ports) (t : Tables) (command : SubmitMessageCommand)
    (receipt : SubmissionReceipt) (m : Message) (q : ResponseRun) (r : SearchRun) : Prop where
  message : m ∈ t.messages
  conversation : m.conversationId = command.conversationId
  key : m.idempotencyKey = some (Text.strip command.idempotencyKey)
  author : m.authorUserId ≠ none
  content : normalizedContentSha256 ports m.content = .ok (ports.sha256 (Text.strip command.content))
  response : q ∈ t.responseRuns
  response_message : q.messageId = m.id
  run : r ∈ t.runs
  run_response : r.responseRunId = q.id
  messageId : receipt.messageId = m.id
  responseRunId : receipt.responseRunId = q.id
  searchRunId : receipt.searchRunId = r.id

section Calls

variable {ports : Ports} {policy : SearchPolicy} {env : Env} {command : SubmitMessageCommand}
  {receipt : SubmissionReceipt} {content key hash : String}

/-- Other transactions leave what was filed. -/
theorem Returned.carried {m : Message} {q : ResponseRun} {r : SearchRun}
    (h : Returned ports db.toTables command receipt m q r) (hc : Carried db db') :
    ∃ q' r', Returned ports db'.toTables command receipt m q' r' := by
  obtain ⟨q', hq', hs⟩ := hc.response h.response
  obtain ⟨r', hr', hk⟩ := hc.runs r h.run
  exact ⟨q', r', hc.message h.message, h.conversation, h.key, h.author, h.content, hq',
    hs.messageId.trans h.response_message, hr',
    (hk.responseRunId.trans h.run_response).trans hs.id.symm, h.messageId,
    h.responseRunId.trans hs.id.symm, h.searchRunId.trans hk.id.symm⟩

/-- Other submissions leave what was filed. -/
theorem Returned.submitted {m : Message} {q : ResponseRun} {r : SearchRun} {rows : SubmissionRows}
    {route : SearchStep} (h : Returned ports db.toTables command receipt m q r)
    (hsub : Submitted db db' rows route) : Returned ports db'.toTables command receipt m q r := by
  refine ⟨?_, h.conversation, h.key, h.author, h.content, ?_, h.response_message, ?_,
    h.run_response, h.messageId, h.responseRunId, h.searchRunId⟩ <;> rw [hsub.tables]
  · exact List.mem_append_left _ h.message
  · exact List.mem_append_left _ h.response
  · exact List.mem_append_left _ h.run

/-- A submission that commits has filed what it returns. -/
theorem submitInsert_ok (ports : Ports) (hacc : Accepted policy db.toTables command)
    (h : submitInsert policy env db command (Text.strip command.content)
      (Text.strip command.idempotencyKey) hash = .ok (receipt, db')) :
    ∃ rows route, Submitted db db' rows route ∧
      rows.message.conversationId = command.conversationId ∧
      Returned ports db'.toTables command receipt rows.message rows.responseRun rows.run := by
  simp only [submitInsert, bind_ok_iff, pure_ok_iff, Prod.mk.injEq] at h
  obtain ⟨budget, hbudget, db₁, hcommit, rfl, rfl⟩ := h
  have hsub := commitSubmission_ok (hacc.version.trans (snapshot_policyVersion hbudget).symm) hcommit
  refine ⟨_, _, hsub, rfl, ?_, rfl, rfl, by simp [newSubmission],
    normalizedContentSha256_ok hacc.content, ?_, rfl, ?_, rfl, rfl, rfl, rfl⟩ <;> rw [hsub.tables]
  · simp
  · simp
  · simp

/-- A submission that is found was filed before. -/
theorem submitLookup_found (hf : Filed db)
    (h : submitLookup ports policy db.toTables command = .ok (.found receipt)) :
    ∃ m q r, Returned ports db.toTables command receipt m q r := by
  rw [submitLookup_of_accepted (accepted_of_lookup h), bind_ok_iff] at h
  obtain ⟨found, hfind, h⟩ := h
  cases found with
  | none => simp at h
  | some existing =>
      simp only [bind_ok_iff, check_eq_ok, decide_eq_true_eq, pure_ok_iff, Lookup.found.injEq] at h
      obtain ⟨_, hsame, rfl⟩ := h
      unfold findSubmission at hfind
      split at hfind
      · simp at hfind
      · rename_i m q r hrows
        simp only [bind_ok_iff, pure_ok_iff, Option.some.injEq] at hfind
        obtain ⟨digest, hdigest, rfl⟩ := hfind
        have hmem : (m, q, r) ∈ submissionRows db.toTables command.conversationId
            (Text.strip command.idempotencyKey) := by
          rw [hrows]
          exact List.mem_singleton_self _
        obtain ⟨⟨hm, hconv, hkey⟩, ⟨hq, hqm⟩, hr, hrq⟩ := mem_submissionRows.mp hmem
        exact ⟨m, q, r, hm, hconv, hkey, hf.response_author q hq m hm hqm.symm,
          hdigest.trans (congrArg _ hsame), hq, hqm, hr, hrq, rfl, rfl, rfl⟩
      · cases hfind

/-- The error of a key that was used for other content. -/
def idempotencyConflict : Exn :=
  .invariant "Idempotency-Key was already used for different content" "idempotency_conflict"

/-- **Other content under a filed key is refused**, at the lookup. -/
theorem lookup_conflict {first : SubmitMessageCommand} {m : Message} {q : ResponseRun}
    {r : SearchRun} (hf : Filed db) (h : Returned ports db.toTables first receipt m q r)
    (hconv : command.conversationId = first.conversationId)
    (hkey : Text.strip command.idempotencyKey = Text.strip first.idempotencyKey)
    (hne : ports.sha256 (Text.strip command.content) ≠ ports.sha256 (Text.strip first.content))
    (hacc : Accepted policy db.toTables command) :
    submitLookup ports policy db.toTables command = .error idempotencyConflict := by
  obtain ⟨q', r', hrows⟩ := hf.submissionRows_eq h.message h.author
    (h.conversation.trans hconv.symm) h.key
  rw [← hkey] at hrows
  rw [submitLookup_of_accepted hacc]
  simp only [findSubmission, hrows, h.content, bind, Except.bind, pure, Except.pure, check]
  rw [if_neg]
  · rfl
  · simpa using hne.symm

end Calls

/-! ## One submission a key -/

/-- At most one of each row is filed under a key of a conversation. -/
structure OneSubmission (t : Tables) (conversation : Uuid) (key : String) : Prop where
  message : ∀ m ∈ t.messages, ∀ m' ∈ t.messages, m.conversationId = conversation →
    m'.conversationId = conversation → m.idempotencyKey = some key →
    m'.idempotencyKey = some key → m' = m
  response : ∀ m ∈ t.messages, m.conversationId = conversation → m.idempotencyKey = some key →
    ∀ q ∈ t.responseRuns, ∀ q' ∈ t.responseRuns, q.messageId = m.id → q'.messageId = m.id → q' = q
  run : ∀ m ∈ t.messages, m.conversationId = conversation → m.idempotencyKey = some key →
    ∀ r ∈ t.runs, ∀ r' ∈ t.runs, r.messageId = m.id → r'.messageId = m.id → r' = r
  /-- The runs of different messages have different steps, so a run's is a message's. -/
  route : ∀ r ∈ t.runs, ∀ s ∈ t.steps, ∀ s' ∈ t.steps, s.runId = r.id → s'.runId = r.id →
    s.stepType = .route → s'.stepType = .route → s' = s
  outbox : ∀ s ∈ t.steps, ∀ o ∈ t.outbox, ∀ o' ∈ t.outbox, o.aggregateId = s.id →
    o'.aggregateId = s.id → o' = o

theorem oneSubmission_reachable (hr : Reachable d w) (conversation : Uuid) (key : String) :
    OneSubmission w.db.toTables conversation key := by
  have hf := filed_reachable hr
  have hsh := (winv_reachable hr).shape
  have hlab := labelled_reachable hr
  refine ⟨?_, ?_, ?_, ?_, ?_⟩
  · intro m hm m' hm' hc hc' hk hk'
    exact message_of_key hm hm' (hc'.trans hc.symm) hk hk'
  · intro m _ _ _ q hq q' hq' hid hid'
    exact hf.response_unique q hq q' hq' (hid'.trans hid.symm)
  · -- a run is its response's, and a response its message's
    intro m _ _ _ r hrm r' hrm' hid hid'
    obtain ⟨q, hq, hqid, hqm, -⟩ := hf.run_message r hrm
    obtain ⟨q', hq', hqid', hqm', -⟩ := hf.run_message r' hrm'
    have heq : q' = q := hf.response_unique q hq q' hq' (by rw [hqm, hqm', hid, hid'])
    refine eq_of_key_eq w.db.valid.uq_runs_responseRun hrm' hrm ?_
    show r'.responseRunId = r.responseRunId
    rw [← hqid, ← hqid', heq]
  · intro r _ s hs s' hs' hrun hrun' hty hty'
    have hkey := hsh.key s hs
    have hkey' := hsh.key s' hs'
    rw [hty] at hkey
    rw [hty'] at hkey'
    refine eq_of_key_eq w.db.valid.uq_steps_identity hs' hs ?_
    simp only [Tables.stepIdentity, hrun, hrun', hsh.revision s hs, hsh.revision s' hs']
    exact congrArg _ (congrArg _ (hkey'.trans hkey.symm))
  · intro s _ o ho o' ho' hid hid'
    refine eq_of_key_eq w.db.valid.uq_outbox_dedupe ho' ho ?_
    show o'.dedupeKey = o.dedupeKey
    rw [hlab o ho, hlab o' ho', hid, hid']

/-! ## Concurrent submissions are a run of the workflow -/

/-- What holds while submissions are under way. -/
structure Intake.Inv (d : Deployment) (s : Intake) : Prop where
  /-- What has committed so far could have been committed one call after the other. -/
  world : Orchestration.Reachable d s.world
  /-- What was looked up is still so. -/
  looked : ∀ h ∈ s.held, submitLookup d.ports d.policy s.world.db.toTables h.command
    = .ok (.free h.content h.key h.requestHash)
  locks : (s.held.map fun h => h.command.conversationId).Nodup
  receipts : ∀ p ∈ s.receipts, ∃ m q r, Returned d.ports s.world.db.toTables p.1 p.2 m q r

/-- Only a submission submits. -/
theorem carried_of_call {call : Call} (hi : WInv w) (hno : ∀ env command, call ≠ .submit env command)
    (hheld : call.Held w) (hrun : call.run d w = .ok w') : Carried w.db w'.db := by
  rcases (call_effect hi hheld hrun).carried with ⟨rows, route, -, hwho⟩ | hc
  · exfalso
    cases call with
    | submit env command => exact hno env command rfl
    | deliver env op => cases op <;> simp [Call.actor, DeliveryOp.actor] at hwho
    | _ => simp [Call.actor] at hwho
  · exact hc

/-- A commit is what the whole of `submit_message` would do. -/
theorem submitMessage_of_insert {env : Env} {command : SubmitMessageCommand}
    {content key hash : String} {receipt : SubmissionReceipt}
    (hlook : submitLookup d.ports d.policy db.toTables command = .ok (.free content key hash))
    (h : submitInsert d.policy env db command content key hash = .ok (receipt, db')) :
    submitMessage d.ports d.policy env db command = .ok (receipt, db') := by
  rw [submitMessage_eq, hlook]
  exact h

/-- **Preserved by every step.** -/
theorem Intake.inv_step {s t : Intake} (hi : s.Inv d) (hs : Intake.Step d s t) : t.Inv d := by
  cases hs with
  | other call hno hheld h =>
      have hc := carried_of_call (winv_reachable hi.world) hno hheld h
      refine ⟨.tail hi.world (step_iff_call.mpr ⟨call, hheld, h⟩), ?_, hi.locks, ?_⟩
      · intro x hx
        exact lookup_stable (hi.looked x hx) hc
      · intro p hp
        obtain ⟨m, q, r, hret⟩ := hi.receipts p hp
        obtain ⟨q', r', hret'⟩ := hret.carried hc
        exact ⟨m, q', r', hret'⟩
  | begin env command hlock h =>
      refine ⟨hi.world, ?_, ?_, hi.receipts⟩
      · intro x hx
        rcases List.mem_cons.mp hx with rfl | hx
        · exact h
        · exact hi.looked x hx
      · rw [List.map_cons, List.nodup_cons]
        refine ⟨fun hmem => ?_, hi.locks⟩
        obtain ⟨x, hx, hid⟩ := List.mem_map.mp hmem
        exact hlock x hx hid
  | replay command receipt hlock h =>
      refine ⟨hi.world, hi.looked, hi.locks, ?_⟩
      intro p hp
      rcases List.mem_cons.mp hp with rfl | hp
      · exact submitLookup_found (filed_reachable hi.world) h
      · exact hi.receipts p hp
  | @insert before after x db receipt hheld hop =>
      have hlook := hi.looked x (by rw [hheld]; simp)
      obtain ⟨hacc, hcontent, hkey, -, -⟩ := submitLookup_free_iff.mp hlook
      have hop' := hop
      rw [hcontent, hkey] at hop'
      obtain ⟨rows, route, hsub, hconv, hret⟩ := submitInsert_ok d.ports hacc hop'
      have hlocks := hi.locks
      rw [hheld, List.map_append, List.map_cons, List.nodup_append] at hlocks
      obtain ⟨hbefore, hafter, hdisj⟩ := hlocks
      rw [List.nodup_cons] at hafter
      refine ⟨.tail hi.world (.submit x.env x.command receipt (submitMessage_of_insert hlook hop)),
        ?_, ?_, ?_⟩
      · -- the others wait for another conversation
        intro y hy
        refine lookup_stable_submitted (hi.looked y (by
          rw [hheld]
          rcases List.mem_append.mp hy with hy | hy <;> simp [hy])) hsub ?_
        rw [hconv]
        intro hid
        rcases List.mem_append.mp hy with hy | hy
        · exact hdisj _ (List.mem_map_of_mem hy) _ List.mem_cons_self hid.symm
        · refine hafter.1 ?_
          rw [hid]
          exact List.mem_map_of_mem hy
      · rw [List.map_append, List.nodup_append]
        exact ⟨hbefore, hafter.2, fun a ha b hb => hdisj a ha b (List.mem_cons_of_mem _ hb)⟩
      · intro p hp
        rcases List.mem_cons.mp hp with rfl | hp
        · exact ⟨_, _, _, hret⟩
        · obtain ⟨m, q, r, hold⟩ := hi.receipts p hp
          exact ⟨m, q, r, hold.submitted hsub⟩
  | @rollback before after x hheld =>
      have hlocks := hi.locks
      rw [hheld] at hlocks
      refine ⟨hi.world, ?_, ?_, hi.receipts⟩
      · intro y hy
        refine hi.looked y ?_
        rw [hheld]
        rcases List.mem_append.mp hy with hy | hy <;> simp [hy]
      · refine hlocks.sublist ?_
        exact ((List.Sublist.refl _).append (List.sublist_cons_self _ _)).map _

theorem Intake.inv_reachable {s : Intake} (hr : Intake.Reachable d s) : s.Inv d := by
  refine hr.invariant ?_ fun _ _ hi hs => Intake.inv_step hi hs
  intro s hs
  subst hs
  exact ⟨.init rfl, by simp [Intake.init], by simp [Intake.init], by simp [Intake.init]⟩

/--
**Submission is idempotent.** However the submissions to a conversation interleave with
each other and with everything else: at most one message, response, run, first step and
outbox row is filed under a key; every call that returned under the key returned their
identifiers; and a call with the key of one that returned, but with other content, never
succeeds. Unless it fails an earlier check, it raises `idempotency_conflict`.
-/
theorem submission_idempotent {s : Intake} (hr : Intake.Reachable d s) :
    (∀ conversation key, OneSubmission s.world.db.toTables conversation key) ∧
    (∀ p ∈ s.receipts, ∃ m q r, Returned d.ports s.world.db.toTables p.1 p.2 m q r) ∧
    ∀ p ∈ s.receipts, ∀ command : SubmitMessageCommand,
      command.conversationId = p.1.conversationId →
      Text.strip command.idempotencyKey = Text.strip p.1.idempotencyKey →
      -- the digests of the two contents do not collide
      (d.ports.sha256 (Text.strip command.content) = d.ports.sha256 (Text.strip p.1.content) →
        Text.strip command.content = Text.strip p.1.content) →
      Text.strip command.content ≠ Text.strip p.1.content →
      (∀ env result, submitMessage d.ports d.policy env s.world.db command ≠ .ok result) ∧
      (Accepted d.policy s.world.db.toTables command → ∀ env,
        submitMessage d.ports d.policy env s.world.db command = .error idempotencyConflict) := by
  have hi := Intake.inv_reachable hr
  refine ⟨fun c k => oneSubmission_reachable hi.world c k, hi.receipts, ?_⟩
  intro p hp command hconv hkey hcollide hne
  obtain ⟨m, q, r, hret⟩ := hi.receipts p hp
  have hhash : d.ports.sha256 (Text.strip command.content)
      ≠ d.ports.sha256 (Text.strip p.1.content) := fun h => hne (hcollide h)
  have hconflict : Accepted d.policy s.world.db.toTables command → ∀ env,
      submitMessage d.ports d.policy env s.world.db command = .error idempotencyConflict := by
    intro hacc env
    rw [submitMessage_eq, lookup_conflict (filed_reachable hi.world) hret hconv hkey hhash hacc]
    rfl
  refine ⟨fun env result hok => ?_, hconflict⟩
  have hacc : Accepted d.policy s.world.db.toTables command := by
    rw [submitMessage_eq, bind_ok_iff] at hok
    obtain ⟨found, hfound, -⟩ := hok
    exact accepted_of_lookup hfound
  rw [hconflict hacc env] at hok
  cases hok

/-- The sample's message, with some content. -/
def sampleCommand (content : String) : SubmitMessageCommand :=
  ⟨⟨7#128⟩, (sampleEnv 1).ids 0, content, " k1", ⟨.fast, [], "search-v12"⟩⟩

/-- A first call dies with the lock, a second one commits, and a third one finds it. -/
def retriedSubmission : List Intake.Action := [
  .other (.create (sampleEnv 1) ⟨7#128⟩ "hello" none),
  .begin (sampleEnv 2) (sampleCommand "hello"), .rollback 0,
  .begin (sampleEnv 3) (sampleCommand "hello"), .insert 0,
  .replay (sampleCommand "hello ")]

theorem submission_idempotent_sample : ∃ s, Intake.Reachable sample s ∧
    s.receipts.length = 2 ∧ s.world.db.runs.length = 1 ∧
    (∀ p ∈ s.receipts, ∃ m q r, Returned sample.ports s.world.db.toTables p.1 p.2 m q r) ∧
    ∀ env, submitMessage sample.ports sample.policy env s.world.db (sampleCommand "bye")
      = .error idempotencyConflict := by
  obtain ⟨s, hr, hp⟩ := Intake.exists_reachable sample retriedSubmission
    (fun s => s.receipts.length = 2 && s.world.db.runs.length = 1 &&
      s.receipts.any (fun p => p.1 = sampleCommand "hello") &&
      s.world.db.conversations.any fun c => c.id = (sampleEnv 1).ids 0 && c.userId = ⟨7#128⟩)
    (by decide +kernel)
  simp only [Bool.and_eq_true, decide_eq_true_eq, List.any_eq_true] at hp
  obtain ⟨⟨⟨hlen, hruns⟩, p, hmem, hcommand⟩, howner⟩ := hp
  have h := submission_idempotent hr
  refine ⟨s, hr, hlen, hruns, h.2.1, ?_⟩
  refine (h.2.2 p hmem (sampleCommand "bye") ?_ ?_ ?_ ?_).2 ⟨by decide, by decide, by decide, howner⟩
  · rw [hcommand]
    rfl
  · rw [hcommand]
    rfl
  · rw [hcommand]
    decide
  · rw [hcommand]
    decide

end Sana.Orchestration
