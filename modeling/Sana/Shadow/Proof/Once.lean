import Sana.Shadow.Proof.Effect
import Sana.Orchestration.Proof.Submission

/-!
# A unit is submitted once

Three things have to agree. The keys of a unit are derived from the unit and never
change, so every worker that ever gets hold of it asks under the same keys. A lease
learns its conversation from the row or from the service, so a message is only ever
sent to the conversation the service answered the unit with. And the service answers
a key it knows with what it created under it. Where a worker dies does not matter:
requests and replies are never forgotten here, and whatever was served stays filed.
-/

namespace Sana.Shadow

open Sana.Lib

/-! ## Leases -/

/-- What a result is for, and the keys it is asked for under. -/
structure Ticket where
  id : Uuid
  unit : RunUnit
  conversationKey : String
  messageKey : String

def RunLease.ticket (l : RunLease) : Ticket :=
  ⟨l.id, l.unit, l.conversationIdempotencyKey, l.messageIdempotencyKey⟩

def RunResult.ticket (r : RunResult) : Ticket :=
  ⟨r.id, r.unit, r.conversationIdempotencyKey, r.messageIdempotencyKey⟩

theorem RunResult.Same.ticket {r r' : RunResult} (h : r.Same r') : r'.ticket = r.ticket := by
  rw [RunResult.ticket, h.id, h.unit, h.conversationKey, h.messageKey]
  rfl

/-- The keys of a ticket are those of its unit. -/
structure Ticket.Derived (t : Ticket) : Prop where
  conversationKey : t.conversationKey
    = Shadow.conversationKey t.unit.campaignId t.unit.caseId t.unit.repetition
  messageKey : t.messageKey
    = Shadow.messageKey t.unit.campaignId t.unit.caseId t.unit.repetition

/-- The lease an operation of a worker presents. -/
def Op.lease : Op → Option RunLease
  | .renew lease _ | .reserve lease | .release lease | .prepareConversation lease
  | .bindConversation lease _ | .prepareSubmission lease | .bindSubmission lease _
  | .fail lease _ _ => some lease
  | _ => none

theorem Op.Held.lease_mem {w : World} {op : Op} (h : op.Held w) {lease : RunLease}
    (hl : op.lease = some lease) : lease ∈ w.leases := by
  cases op <;> cases hl
  case bindConversation => exact h.1
  case bindSubmission => exact h.1
  all_goals exact h

/-- Where the lease an operation hands out comes from. -/
inductive Handed (op : Op) (db : Db) (l : RunLease) : Prop
  /-- A row was claimed. -/
  | claimed (r : RunResult) (hr : r ∈ db.results) (hticket : l.ticket = r.ticket)
      (hconv : l.conversationId = r.conversationId)
  /-- The lease that was presented goes on. -/
  | kept (lease : RunLease) (hop : op.lease = some lease) (hticket : l.ticket = lease.ticket)
      (hconv : l.conversationId = lease.conversationId)
  /-- The lease that was presented has its conversation bound. -/
  | bound (lease : RunLease) (conversationId : Uuid)
      (hop : op = .bindConversation lease conversationId) (hticket : l.ticket = lease.ticket)
      (hconv : l.conversationId = some conversationId)

section Handed

variable {ports : Orchestration.Ports} {app : Orchestration.Tables} {db db' : Db} {now : Time}

theorem acceptAttemptFence_ok {l l' : RunLease} {version : Nat}
    (h : l.acceptAttemptFence version = .ok l') :
    l' = { l with version, persistedVersion := version } := by
  unfold RunLease.acceptAttemptFence at h
  simp only [bind_ok_iff, pure_ok_iff] at h
  obtain ⟨_, _, rfl⟩ := h
  rfl

theorem acceptBudgetFence_ok {l l' : RunLease} {version : Nat} {state : ReservationState}
    (h : l.acceptBudgetFence version state = .ok l') :
    l' = { l with version, persistedVersion := version, reservationState := state } := by
  unfold RunLease.acceptBudgetFence at h
  simp only [bind_ok_iff, pure_ok_iff] at h
  obtain ⟨_, _, rfl⟩ := h
  rfl

theorem claimNextResult_handed {op : Op} {campaignId : Uuid} {worker : String}
    {duration : Duration} {locked : List Uuid} {lease : RunLease}
    (h : claimNextResult db now campaignId worker duration locked = .ok (some lease, db')) :
    Handed op db lease := by
  obtain ⟨h, -⟩ | ⟨l, c, r, h, hcl⟩ := claimNextResult_ok h
  · cases h
  · cases h
    rw [hcl.lease_eq]
    exact .claimed r hcl.result_mem rfl rfl

theorem renewResultLease_handed {lease lease' : RunLease} {duration : Duration}
    (h : renewResultLease db now lease duration = .ok (lease', db')) :
    Handed (.renew lease duration) db lease' := by
  unfold renewResultLease at h
  obtain ⟨l, hl, h⟩ := bind_ok_iff.mp h
  obtain rfl := renew_eq hl
  split at h
  · cases h
  · simp only [bind_ok_iff, pure_ok_iff, Prod.mk.injEq] at h
    obtain ⟨_, _, _, _, rfl, _⟩ := h
    exact .kept lease rfl rfl rfl

theorem reserveRunBudget_handed {lease lease' : RunLease} {receipt : BudgetReservationReceipt}
    (h : reserveRunBudget db now lease = .ok (receipt, lease', db')) :
    Handed (.reserve lease) db lease' := by
  unfold reserveRunBudget at h
  obtain ⟨⟨c, r⟩, _, h⟩ := bind_ok_iff.mp h
  obtain ⟨_, _, h⟩ := bind_ok_iff.mp h
  simp only [] at h
  split at h
  · simp only [pure_ok_iff, Prod.mk.injEq] at h
    exact .kept lease rfl (by rw [← h.2.1]) (by rw [← h.2.1])
  simp only [bind_ok_iff] at h
  obtain ⟨_, _, _, _, request, _, h⟩ := h
  split at h
  · split at h
    · simp only [pure_ok_iff, Prod.mk.injEq] at h
      exact .kept lease rfl (by rw [← h.2.1]) (by rw [← h.2.1])
    · simp only [bind_ok_iff, pure_ok_iff, Prod.mk.injEq] at h
      obtain ⟨_, _, l, hl, _, rfl, _⟩ := h
      rw [acceptBudgetFence_ok hl]
      exact .kept lease rfl rfl rfl
  · simp only [bind_ok_iff, pure_ok_iff, Prod.mk.injEq] at h
    obtain ⟨_, _, l, hl, _, rfl, _⟩ := h
    rw [acceptBudgetFence_ok hl]
    exact .kept lease rfl rfl rfl

theorem releaseRunBudget_handed {lease lease' : RunLease}
    (h : releaseRunBudget db now lease = .ok (lease', db')) :
    Handed (.release lease) db lease' := by
  unfold releaseRunBudget at h
  obtain ⟨⟨c, r⟩, _, h⟩ := bind_ok_iff.mp h
  obtain ⟨_, _, h⟩ := bind_ok_iff.mp h
  simp only [] at h
  split at h
  · simp only [pure_ok_iff, Prod.mk.injEq] at h
    exact .kept lease rfl (by rw [← h.1]) (by rw [← h.1])
  simp only [bind_ok_iff, pure_ok_iff, Prod.mk.injEq] at h
  obtain ⟨_, _, _, _, _, _, _, _, l, hl, rfl, _⟩ := h
  rw [acceptBudgetFence_ok hl]
  exact .kept lease rfl rfl rfl

theorem prepareConversationAttempt_handed {lease lease' : RunLease}
    (h : prepareConversationAttempt db now lease = .ok (lease', db')) :
    Handed (.prepareConversation lease) db lease' := by
  unfold prepareConversationAttempt at h
  obtain ⟨⟨c, r⟩, _, h⟩ := bind_ok_iff.mp h
  simp only [bind_ok_iff, pure_ok_iff, Prod.mk.injEq] at h
  obtain ⟨_, _, _, _, _, _, _, _, _, _, l, hl, rfl, _⟩ := h
  rw [acceptAttemptFence_ok hl]
  exact .kept lease rfl rfl rfl

theorem bindConversation_handed {lease lease' : RunLease} {conversationId : Uuid}
    (h : bindConversation ports db app now lease conversationId = .ok (lease', db')) :
    Handed (.bindConversation lease conversationId) db lease' := by
  unfold bindConversation at h
  obtain ⟨⟨c, r⟩, _, h⟩ := bind_ok_iff.mp h
  obtain ⟨_, _, h⟩ := bind_ok_iff.mp h
  obtain ⟨_, _, h⟩ := bind_ok_iff.mp h
  simp only [] at h
  split at h
  · simp only [bind_ok_iff, pure_ok_iff, Prod.mk.injEq] at h
    obtain ⟨_, _, rfl, _⟩ := h
    exact .kept lease rfl rfl rfl
  simp only [bind_ok_iff, pure_ok_iff, Prod.mk.injEq, RunLease.acceptConversationFence] at h
  obtain ⟨_, _, _, _, _, _, _, _, l, ⟨l₁, hl, rfl⟩, rfl, _⟩ := h
  rw [acceptAttemptFence_ok hl]
  exact .bound lease conversationId rfl rfl rfl

theorem prepareSubmissionAttempt_handed {lease lease' : RunLease}
    (h : prepareSubmissionAttempt db now lease = .ok (lease', db')) :
    Handed (.prepareSubmission lease) db lease' := by
  unfold prepareSubmissionAttempt at h
  obtain ⟨⟨c, r⟩, _, h⟩ := bind_ok_iff.mp h
  simp only [bind_ok_iff, pure_ok_iff, Prod.mk.injEq] at h
  obtain ⟨_, _, _, _, _, _, _, _, l, hl, rfl, _⟩ := h
  rw [acceptAttemptFence_ok hl]
  exact .kept lease rfl rfl rfl

/-- **Where leases come from.** -/
theorem run_handed {op : Op} {out : Outcome} (h : op.run ports app db now = .ok out)
    {l : RunLease} (hl : l ∈ out.leases) : Handed op db l := by
  cases op <;> simp only [Op.run, bind_ok_iff, pure_ok_iff, Prod.exists] at h
  case claim campaignId worker duration locked =>
    obtain ⟨lease, _, h, rfl⟩ := h
    simp only [Option.mem_toList] at hl
    cases hl
    exact claimNextResult_handed h
  case renew lease duration =>
    obtain ⟨_, _, h, rfl⟩ := h
    obtain rfl := List.mem_singleton.mp hl
    exact renewResultLease_handed h
  case reserve lease =>
    obtain ⟨_, _, _, h, rfl⟩ := h
    obtain rfl := List.mem_singleton.mp hl
    exact reserveRunBudget_handed h
  case release lease =>
    obtain ⟨_, _, h, rfl⟩ := h
    obtain rfl := List.mem_singleton.mp hl
    exact releaseRunBudget_handed h
  case prepareConversation lease =>
    obtain ⟨_, _, h, rfl⟩ := h
    obtain rfl := List.mem_singleton.mp hl
    exact prepareConversationAttempt_handed h
  case bindConversation lease conversationId =>
    obtain ⟨_, _, h, rfl⟩ := h
    obtain rfl := List.mem_singleton.mp hl
    exact bindConversation_handed h
  case prepareSubmission lease =>
    obtain ⟨_, _, h, rfl⟩ := h
    obtain rfl := List.mem_singleton.mp hl
    exact prepareSubmissionAttempt_handed h
  case claimCollection campaignId worker duration locked =>
    obtain ⟨_, _, h, rfl⟩ := h
    cases hl
  case renewCollection lease duration =>
    obtain ⟨_, _, h, rfl⟩ := h
    cases hl
  case settle campaignId resultId digest usage =>
    obtain ⟨_, _, h, rfl⟩ := h
    cases hl
  case persist lease outcome =>
    obtain ⟨_, _, h, rfl⟩ := h
    cases hl
  all_goals
    obtain ⟨_, h, rfl⟩ := h
    cases hl

end Handed

/-! ## Rows -/

/-- What a transaction can do to what a result is bound to. -/
structure Bindings (op : Op) (r r' : RunResult) : Prop where
  conversation : r'.conversationId = r.conversationId ∨
    ∃ lease id, op = .bindConversation lease id ∧ lease.id = r.id ∧ r'.conversationId = some id
  searchRun : r'.searchRunId = r.searchRunId ∨
    ∃ lease receipt, op = .bindSubmission lease receipt ∧ lease.id = r.id ∧
      r'.searchRunId = some receipt.searchRunId

theorem Bindings.of_eq {op : Op} {r r' : RunResult} (hconv : r'.conversationId = r.conversationId)
    (hrun : r'.searchRunId = r.searchRunId) : Bindings op r r' := ⟨.inl hconv, .inl hrun⟩

theorem Settling.bindings {op : Op} {now : Time} {digest : String} {usage : SettlementUsage}
    {c c' : Campaign} {r r' : RunResult} (h : Settling now digest usage c r c' r') :
    Bindings op r r' := by
  cases h with
  | again _ => exact .of_eq rfl rfl
  | first _ _ _ _ => exact .of_eq rfl rfl

/-- **Only the two binding operations bind, and only the row of the lease.** -/
theorem Change.bindings {op : Op} {c c' : Campaign} {r r' : RunResult} (h : Change op now c r c' r')
    (htarget : ∀ x ∈ op.target, x = (c.id, r.id)) : Bindings op r r' := by
  cases h with
  | held h _ => exact .of_eq h.conversationId h.searchRunId
  | @bound _ lease conversationId hop _ _ =>
      subst hop
      have hid := congrArg Prod.snd (htarget (lease.campaignId, lease.id) rfl)
      exact ⟨.inr ⟨lease, conversationId, rfl, hid, rfl⟩, .inl rfl⟩
  | attempted _ _ => exact .of_eq rfl rfl
  | reserved _ _ _ => exact .of_eq rfl rfl
  | refused _ => exact .of_eq rfl rfl
  | released _ _ => exact .of_eq rfl rfl
  | @submitted _ lease receipt hop _ _ =>
      subst hop
      have hid := congrArg Prod.snd (htarget (lease.campaignId, lease.id) rfl)
      exact ⟨.inl rfl, .inr ⟨lease, receipt, rfl, hid, rfl⟩⟩
  | failed _ _ h =>
      unfold failReservation at h
      split at h
      · split at h <;> cases h <;> exact .of_eq rfl rfl
      · cases h
        exact .of_eq rfl rfl
      · cases h
      · cases h
  | settled _ _ h => exact (settleRows_ok h).bindings
  | sealed _ _ _ _ h =>
      have hset : Bindings op _ _ := (settleRows_ok h).bindings
      exact ⟨hset.conversation, hset.searchRun⟩
  | collected _ _ _ _ h =>
      have hset : Bindings op _ _ := (settleRows_ok h).bindings
      exact ⟨hset.conversation, hset.searchRun⟩

section Rows

variable {ports : Orchestration.Ports} {op : Op} {db db' : Db}

/-- A row is planned, or was there before. -/
theorem Effect.result_back (he : Effect ports op now db db') {r' : RunResult} (hr' : r' ∈ db'.results) :
    (∃ r ∈ db.results, r.Same r' ∧ Bindings op r r') ∨
    (r'.ticket.Derived ∧ r'.conversationId = none ∧ r'.searchRunId = none) := by
  have unchanged : r' ∈ db.results → ∃ r ∈ db.results, r.Same r' ∧ Bindings op r r' :=
    fun h => ⟨r', h, .refl r', .of_eq rfl rfl⟩
  cases he.origin hr' with
  | kept hr' => exact .inl (unchanged hr')
  | planned => exact .inr ⟨⟨rfl, rfl⟩, rfl, rfl⟩
  | skipped _ hr _ => exact .inl ⟨_, hr, ⟨rfl, rfl, rfl, rfl, rfl⟩, .of_eq rfl rfl⟩
  | changed _ hr _ htarget _ hch => exact .inl ⟨_, hr, hch.framed.same, hch.bindings htarget⟩

/-- No row is removed. -/
theorem Effect.result_persists (he : Effect ports op now db db') {r : RunResult} (hr : r ∈ db.results) :
    ∃ r' ∈ db'.results, r.Same r' := by
  cases he with
  | idle hdb => exact ⟨r, hdb ▸ hr, .refl r⟩
  | added hdb => exact ⟨r, by rw [hdb]; exact hr, .refl r⟩
  | materialized _ _ _ _ hdb => exact ⟨r, by rw [hdb]; exact List.mem_append_left _ hr, .refl r⟩
  | moved _ _ _ hdb => exact ⟨r, by rw [hdb]; exact hr, .refl r⟩
  | skipped _ _ hdb =>
      refine ⟨_, by rw [hdb]; exact List.mem_map_of_mem hr, ?_⟩
      split
      · exact ⟨rfl, rfl, rfl, rfl, rfl⟩
      · exact .refl r
  | @rows c c' o o' hc ho hcr htarget _ hch hdb =>
      rw [hdb]
      by_cases hid : r.id = o.id
      · obtain rfl := eq_of_key_eq db.valid.pk_results hr ho hid
        exact ⟨o', (mem_put_results ho hch.framed.same.id).mpr (.inl rfl), hch.framed.same⟩
      · exact ⟨r, (mem_put_results ho hch.framed.same.id).mpr (.inr ⟨hr, hid⟩), .refl r⟩

/-- The user a unit is run as. -/
def Owner (db : Db) (campaignId userId : Uuid) : Prop :=
  ∃ c ∈ db.campaigns, c.id = campaignId ∧ c.createdByUserId = userId

theorem Owner.unique {campaignId u v : Uuid} (hu : Owner db campaignId u)
    (hv : Owner db campaignId v) : u = v := by
  obtain ⟨c, hc, hid, rfl⟩ := hu
  obtain ⟨c', hc', hid', rfl⟩ := hv
  rw [eq_of_key_eq db.valid.pk_campaigns hc hc' (hid.trans hid'.symm)]

/-- A campaign keeps its owner. -/
theorem Effect.owner (he : Effect ports op now db db') {campaignId userId : Uuid}
    (h : Owner db campaignId userId) : Owner db' campaignId userId := by
  obtain ⟨c, hc, hid, howner⟩ := h
  have written : ∀ {x x' : Campaign}, x ∈ db.campaigns → x'.id = x.id →
      x'.createdByUserId = x.createdByUserId →
      ∃ y ∈ (db.toTables.putCampaign x').campaigns, y.id = campaignId ∧ y.createdByUserId = userId := by
    intro x x' hx hxid hxowner
    by_cases heq : c.id = x.id
    · obtain rfl := eq_of_key_eq db.valid.pk_campaigns hc hx heq
      exact ⟨x', (mem_putCampaign hc hxid).mpr (.inl rfl), hxid.trans hid, hxowner.trans howner⟩
    · exact ⟨c, (mem_putCampaign hx hxid).mpr (.inr ⟨hc, heq⟩), hid, howner⟩
  cases he with
  | idle hdb => exact ⟨c, hdb ▸ hc, hid, howner⟩
  | added hdb =>
      refine ⟨c, ?_, hid, howner⟩
      rw [hdb]
      exact List.mem_append_left _ hc
  | materialized hx _ _ _ hdb =>
      unfold Owner
      rw [hdb]
      exact written hx rfl rfl
  | moved hx hm _ hdb =>
      unfold Owner
      rw [hdb]
      exact written hx hm.id hm.owner
  | skipped hx _ hdb =>
      unfold Owner
      rw [hdb]
      exact written hx rfl rfl
  | rows hx _ _ _ _ hch hdb =>
      unfold Owner
      rw [hdb]
      exact written hx hch.framed.id hch.framed.owner

end Rows

/-! ## The service -/

/-- A conversation is filed under a user's key. -/
def Filed (app : Orchestration.Db) (userId : Uuid) (key : String) (id : Uuid) : Prop :=
  ∃ c ∈ app.conversations, c.id = id ∧ c.userId = userId ∧ c.creationIdempotencyKey = some key

/-- A submission is filed under a key of a conversation, and its receipt names its rows. -/
def Received (ports : Orchestration.Ports) (app : Orchestration.Db) (conversationId : Uuid)
    (key : String) (receipt : CandidateSubmissionReceipt) : Prop :=
  ∃ (command : Orchestration.SubmitMessageCommand) (full : Orchestration.SubmissionReceipt)
    (m : Orchestration.Message) (q : Orchestration.ResponseRun) (r : Orchestration.SearchRun),
    Orchestration.Returned ports app.toTables command full m q r ∧
    command.conversationId = conversationId ∧ Text.strip command.idempotencyKey = key ∧
    receipt = ⟨full.messageId, full.responseRunId, full.searchRunId⟩

section Service

variable {d : Orchestration.Deployment} {app app' : Orchestration.World}
  {ports : Orchestration.Ports} {env : Orchestration.Env} {db db' : Orchestration.Db}

/-- A key names one conversation of its user. -/
theorem Filed.unique {userId a b : Uuid} {key : String} (ha : Filed db userId key a)
    (hb : Filed db userId key b) : a = b := by
  obtain ⟨c, hc, rfl, huser, hkey⟩ := ha
  obtain ⟨c', hc', rfl, huser', hkey'⟩ := hb
  have heq : c = c' := by
    refine eq_of_filterMap_nodup db.valid.uq_conversations_creation_key hc' hc
      (b := (userId, key)) ?_ ?_
    · rw [hkey', huser']
      rfl
    · rw [hkey, huser]
      rfl
  rw [heq]

/-- A key names one submission of its conversation. -/
theorem Received.unique (hf : Orchestration.Filed db) {conversationId : Uuid} {key : String}
    {a b : CandidateSubmissionReceipt} (ha : Received ports db conversationId key a)
    (hb : Received ports db conversationId key b) : a = b := by
  obtain ⟨command, full, m, q, r, h, hconv, hkey, rfl⟩ := ha
  obtain ⟨command', full', m', q', r', h', hconv', hkey', rfl⟩ := hb
  have hm : m' = m := by
    refine Orchestration.message_of_key h.message h'.message ?_ h.key ?_
    · rw [h.conversation, h'.conversation, hconv, hconv']
    · rw [h'.key, hkey, hkey']
  have hq : q' = q := by
    refine hf.response_unique q h.response q' h'.response ?_
    rw [h.response_message, h'.response_message, hm]
  have hr : r' = r := by
    refine eq_of_key_eq db.valid.uq_runs_responseRun h'.run h.run ?_
    show r'.responseRunId = r.responseRunId
    rw [h.run_response, h'.run_response, hq]
  rw [h.messageId, h.responseRunId, h.searchRunId, h'.messageId, h'.responseRunId, h'.searchRunId,
    hm, hq, hr]

/-- What is filed stays filed. -/
theorem Filed.step (hr : Orchestration.Reachable d app) (hs : Orchestration.Step d app app')
    {userId id : Uuid} {key : String} (h : Filed app.db userId key id) :
    Filed app'.db userId key id := by
  obtain ⟨c, hc, hid, huser, hkey⟩ := h
  obtain ⟨who, he, -⟩ := Orchestration.step_effect (Orchestration.winv_reachable hr) hs
  rcases he.carried with ⟨rows, route, hsub, -⟩ | hcarried
  · exact ⟨c, by rw [hsub.tables]; exact hc, hid, huser, hkey⟩
  · obtain ⟨touch, rows, hmap, hsame⟩ := hcarried.conversations
    refine ⟨touch c, ?_, (hsame c).id.trans hid, (hsame c).userId.trans huser,
      (hsame c).creationIdempotencyKey.trans hkey⟩
    rw [hmap]
    exact List.mem_append_left _ (List.mem_map_of_mem hc)

theorem Received.step (hr : Orchestration.Reachable d app) (hs : Orchestration.Step d app app')
    {conversationId : Uuid} {key : String} {receipt : CandidateSubmissionReceipt}
    (h : Received ports app.db conversationId key receipt) :
    Received ports app'.db conversationId key receipt := by
  obtain ⟨command, full, m, q, r, h, hrest⟩ := h
  obtain ⟨who, he, -⟩ := Orchestration.step_effect (Orchestration.winv_reachable hr) hs
  rcases he.carried with ⟨rows, route, hsub, -⟩ | hcarried
  · exact ⟨command, full, m, q, r, h.submitted hsub, hrest⟩
  · obtain ⟨q', r', h'⟩ := h.carried hcarried
    exact ⟨command, full, m, q', r', h', hrest⟩

/-- **A conversation is created under its key, or found there.** -/
theorem createConversation_filed {userId : Uuid} {title key : String}
    {view : Orchestration.ConversationView} (hkey : key ≠ "")
    (h : Orchestration.createConversation ports env db userId title (some key) = .ok (view, db')) :
    Filed db' userId (Text.strip key) view.id ∧ db'.runs = db.runs ∧
      ∀ c ∈ db'.conversations, c ∈ db.conversations ∨ c.id = view.id := by
  simp only [Orchestration.createConversation, Orchestration.normalizeKey, if_neg hkey,
    bind_ok_iff, pure_ok_iff] at h
  obtain ⟨_, ⟨_, _, rfl⟩, h⟩ := h
  simp only [Option.bind_some] at h
  split at h
  · rename_i c hc
    simp only [bind_ok_iff, pure_ok_iff, Prod.mk.injEq] at h
    obtain ⟨_, _, rfl, rfl⟩ := h
    have hp := List.find?_some hc
    simp only [Bool.and_eq_true, decide_eq_true_eq] at hp
    exact ⟨⟨c, List.mem_of_find?_eq_some hc, rfl, hp⟩, rfl, fun x hx => .inl hx⟩
  · simp only [bind_ok_iff, pure_ok_iff, Prod.mk.injEq] at h
    obtain ⟨db₁, hcommit, rfl, rfl⟩ := h
    have htables := Orchestration.commit_ok hcommit
    unfold Filed
    rw [htables]
    refine ⟨⟨_, List.mem_append_right _ (List.mem_singleton_self _), rfl, rfl, rfl⟩, rfl,
      fun c hc => ?_⟩
    rcases List.mem_append.mp hc with hc | hc
    · exact .inl hc
    · exact .inr (by rw [List.mem_singleton.mp hc])

/-- **A message is submitted under its key, or found there.** -/
theorem submitMessage_received {policy : Orchestration.SearchPolicy}
    {command : Orchestration.SubmitMessageCommand} {full : Orchestration.SubmissionReceipt}
    (hf : Orchestration.Filed db)
    (h : Orchestration.submitMessage ports policy env db command = .ok (full, db')) :
    Received ports db' command.conversationId (Text.strip command.idempotencyKey)
      ⟨full.messageId, full.responseRunId, full.searchRunId⟩ ∧
      db'.conversations = db.conversations ∧
      ∀ r ∈ db'.runs, r ∈ db.runs ∨ r.id = full.searchRunId := by
  rw [Orchestration.submitMessage_eq, bind_ok_iff] at h
  obtain ⟨found, hfound, h⟩ := h
  cases found with
  | found receipt =>
      simp only [pure_ok_iff, Prod.mk.injEq] at h
      obtain ⟨rfl, rfl⟩ := h
      obtain ⟨m, q, r, hret⟩ := Orchestration.submitLookup_found hf hfound
      exact ⟨⟨command, receipt, m, q, r, hret, rfl, rfl, rfl⟩, rfl, fun r hr => .inl hr⟩
  | free content key hash =>
      obtain ⟨hacc, rfl, rfl, -, -⟩ := Orchestration.submitLookup_free_iff.mp hfound
      obtain ⟨rows, route, hsub, -, hret⟩ := Orchestration.submitInsert_ok ports hacc h
      refine ⟨⟨command, full, _, _, _, hret, rfl, rfl, rfl⟩, by rw [hsub.tables], fun r hr => ?_⟩
      rw [hsub.runs, List.mem_append, List.mem_singleton] at hr
      rcases hr with hr | rfl
      · exact .inl hr
      · exact .inr hret.searchRunId.symm

end Service

/-! ## What was asked and answered -/

/-- A request is made as the owner, under the unit's key, and to the unit's conversation. -/
def Sent.Sound (w : World) (x : Sent) : Prop :=
  Owner w.db x.unit.campaignId x.userId ∧
    match x.request with
    | .conversation _ key => key ≠ "" ∧
        key = Text.strip (conversationKey x.unit.campaignId x.unit.caseId x.unit.repetition)
    | .message conversationId _ key => ⟨x.unit, .conversation conversationId⟩ ∈ w.served ∧
        key = Text.strip (messageKey x.unit.campaignId x.unit.caseId x.unit.repetition)

/-- A reply names what is filed under the unit's key. -/
def Reply.Sound (ports : Orchestration.Ports) (app : Orchestration.Db) (served : List Served)
    (unit : RunUnit) (userId : Uuid) : Reply → Prop
  | .conversation id => Filed app userId
      (Text.strip (conversationKey unit.campaignId unit.caseId unit.repetition)) id
  | .message receipt => ∃ conversationId, ⟨unit, .conversation conversationId⟩ ∈ served ∧
      Received ports app conversationId
        (Text.strip (messageKey unit.campaignId unit.caseId unit.repetition)) receipt

/-- An answer was given to the owner. -/
def Served.Sound (ports : Orchestration.Ports) (w : World) (x : Served) : Prop :=
  ∃ userId, Owner w.db x.unit.campaignId userId ∧
    x.reply.Sound ports w.app.db w.served x.unit userId

/-- What a later world still knows. -/
structure Later (ports : Orchestration.Ports) (w w' : World) : Prop where
  owner : ∀ campaignId userId, Owner w.db campaignId userId → Owner w'.db campaignId userId
  served : ∀ x ∈ w.served, x ∈ w'.served
  filed : ∀ userId key id, Filed w.app.db userId key id → Filed w'.app.db userId key id
  received : ∀ conversationId key receipt, Received ports w.app.db conversationId key receipt →
    Received ports w'.app.db conversationId key receipt

section Later

variable {ports : Orchestration.Ports} {w w' : World}

theorem Sent.Sound.later {x : Sent} (h : x.Sound w) (hl : Later ports w w') : x.Sound w' := by
  refine ⟨hl.owner _ _ h.1, ?_⟩
  have hr := h.2
  split
  · rename_i hreq
    rw [hreq] at hr
    exact hr
  · rename_i hreq
    rw [hreq] at hr
    exact ⟨hl.served _ hr.1, hr.2⟩

theorem Served.Sound.later {x : Served} (h : x.Sound ports w) (hl : Later ports w w') :
    x.Sound ports w' := by
  obtain ⟨userId, howner, hreply⟩ := h
  refine ⟨userId, hl.owner _ _ howner, ?_⟩
  cases hrep : x.reply with
  | conversation id =>
      rw [hrep] at hreply
      exact hl.filed _ _ _ hreply
  | message receipt =>
      rw [hrep] at hreply
      obtain ⟨conversationId, hserved, hreceived⟩ := hreply
      exact ⟨conversationId, hl.served _ hserved, hl.received _ _ _ hreceived⟩

end Later

/-- What holds of every world. -/
structure Once (d : Orchestration.Deployment) (w : World) : Prop where
  app : Orchestration.Reachable d w.app
  rows : ∀ r ∈ w.db.results, r.ticket.Derived
  leases : ∀ l ∈ w.leases, ∃ r ∈ w.db.results, l.ticket = r.ticket
  /-- A lease or a row that knows a conversation was told by the service. -/
  leased : ∀ l ∈ w.leases, ∀ id, l.conversationId = some id →
    ⟨l.unit, .conversation id⟩ ∈ w.served
  conversation : ∀ r ∈ w.db.results, ∀ id, r.conversationId = some id →
    ⟨r.unit, .conversation id⟩ ∈ w.served
  searchRun : ∀ r ∈ w.db.results, ∀ id, r.searchRunId = some id →
    ∃ receipt, ⟨r.unit, .message receipt⟩ ∈ w.served ∧ receipt.searchRunId = id
  sent : ∀ x ∈ w.sent, x.Sound w
  served : ∀ x ∈ w.served, x.Sound d.ports w

section Once

variable {d : Orchestration.Deployment} {w : World}

/-- The row of a lease. -/
theorem Once.unit_of_id (h : Once d w) {l : RunLease} (hl : l ∈ w.leases) {r : RunResult}
    (hr : r ∈ w.db.results) (hid : l.id = r.id) : l.unit = r.unit := by
  obtain ⟨o, ho, hticket⟩ := h.leases l hl
  have heq : o = r := eq_of_key_eq w.db.valid.pk_results ho hr
    ((congrArg Ticket.id hticket).symm.trans hid)
  rw [← heq]
  exact congrArg Ticket.unit hticket

/-- The leases a transaction hands out. -/
theorem Once.handed (h : Once d w) {op : Op} (hheld : op.Held w) {l : RunLease}
    (hl : Handed op w.db l) :
    (∃ r ∈ w.db.results, l.ticket = r.ticket) ∧
      ∀ id, l.conversationId = some id → ⟨l.unit, .conversation id⟩ ∈ w.served := by
  cases hl with
  | claimed r hr hticket hconv =>
      refine ⟨⟨r, hr, hticket⟩, fun id hid => ?_⟩
      rw [show l.unit = r.unit from congrArg Ticket.unit hticket]
      exact h.conversation r hr id (hconv ▸ hid)
  | kept lease hop hticket hconv =>
      have hmem := hheld.lease_mem hop
      obtain ⟨r, hr, hrow⟩ := h.leases lease hmem
      refine ⟨⟨r, hr, hticket.trans hrow⟩, fun id hid => ?_⟩
      rw [show l.unit = lease.unit from congrArg Ticket.unit hticket]
      exact h.leased lease hmem id (hconv ▸ hid)
  | bound lease conversationId hop hticket hconv =>
      subst hop
      obtain ⟨r, hr, hrow⟩ := h.leases lease hheld.1
      refine ⟨⟨r, hr, hticket.trans hrow⟩, fun id hid => ?_⟩
      rw [show l.unit = lease.unit from congrArg Ticket.unit hticket]
      obtain rfl := Option.some.inj (hconv.symm.trans hid)
      exact hheld.2

/-- **A transaction binds only what the service answered.** -/
theorem Once.transact (h : Once d w) {op : Op} (hheld : op.Held w) {out : Outcome}
    (he : Effect d.ports op now w.db out.db) (hout : ∀ l ∈ out.leases, Handed op w.db l) :
    Once d (w.after out) := by
  have hl : Later d.ports w (w.after out) :=
    ⟨fun _ _ => he.owner, fun _ hx => hx, fun _ _ _ hx => hx, fun _ _ _ hx => hx⟩
  refine ⟨h.app, ?_, ?_, ?_, ?_, ?_, fun x hx => (h.sent x hx).later hl,
    fun x hx => (h.served x hx).later hl⟩
  · intro r' hr'
    rcases he.result_back hr' with ⟨r, hr, hsame, -⟩ | ⟨hderived, -⟩
    · rw [hsame.ticket]
      exact h.rows r hr
    · exact hderived
  · intro l hmem
    obtain ⟨r, hr, hticket⟩ : ∃ r ∈ w.db.results, l.ticket = r.ticket := by
      rcases List.mem_append.mp hmem with hmem | hmem
      · exact h.leases l hmem
      · exact (h.handed hheld (hout l hmem)).1
    obtain ⟨r', hr', hsame⟩ := he.result_persists hr
    exact ⟨r', hr', hticket.trans hsame.ticket.symm⟩
  · intro l hmem
    rcases List.mem_append.mp hmem with hmem | hmem
    · exact h.leased l hmem
    · exact (h.handed hheld (hout l hmem)).2
  · intro r' hr' id hid
    rcases he.result_back hr' with ⟨r, hr, hsame, hbind⟩ | ⟨-, hnone, -⟩
    · rw [hsame.unit]
      rcases hbind.conversation with hkeep | ⟨lease, id', rfl, hlease, hset⟩
      · exact h.conversation r hr id (hkeep ▸ hid)
      · obtain rfl := Option.some.inj (hset.symm.trans hid)
        rw [← h.unit_of_id hheld.1 hr hlease]
        exact hheld.2
    · rw [hnone] at hid
      cases hid
  · intro r' hr' id hid
    rcases he.result_back hr' with ⟨r, hr, hsame, hbind⟩ | ⟨-, -, hnone⟩
    · rw [hsame.unit]
      rcases hbind.searchRun with hkeep | ⟨lease, receipt, rfl, hlease, hset⟩
      · exact h.searchRun r hr id (hkeep ▸ hid)
      · refine ⟨receipt, ?_, Option.some.inj (hset.symm.trans hid)⟩
        rw [← h.unit_of_id hheld.1 hr hlease]
        exact hheld.2
    · rw [hnone] at hid
      cases hid

/-- A rolled back transaction leaves the worker with its lease. -/
theorem Once.lost (h : Once d w) {op : Op} (hheld : op.Held w) {out : Outcome}
    (hout : ∀ l ∈ out.leases, Handed op w.db l) : Once d { w.after out with db := w.db } := by
  have hl : Later d.ports w { w.after out with db := w.db } :=
    ⟨fun _ _ hx => hx, fun _ hx => hx, fun _ _ _ hx => hx, fun _ _ _ hx => hx⟩
  refine ⟨h.app, h.rows, ?_, ?_, h.conversation, h.searchRun,
    fun x hx => (h.sent x hx).later hl, fun x hx => (h.served x hx).later hl⟩
  · intro l hmem
    rcases List.mem_append.mp hmem with hmem | hmem
    · exact h.leases l hmem
    · exact (h.handed hheld (hout l hmem)).1
  · intro l hmem
    rcases List.mem_append.mp hmem with hmem | hmem
    · exact h.leased l hmem
    · exact (h.handed hheld (hout l hmem)).2

/-- A renewal that raises leaves the worker with the lease of its unit. -/
theorem Once.strayed (h : Once d w) {lease lease' : RunLease} {now expiresAt : Time}
    (hlease : lease ∈ w.leases) (hrenew : lease.renew now expiresAt = .ok lease') :
    Once d { w with leases := w.leases ++ [lease'] } := by
  have hl : Later d.ports w { w with leases := w.leases ++ [lease'] } :=
    ⟨fun _ _ hx => hx, fun _ hx => hx, fun _ _ _ hx => hx, fun _ _ _ hx => hx⟩
  -- the new lease is the old one with another version, so it is for the same unit
  rw [renew_eq hrenew] at hl ⊢
  refine ⟨h.app, h.rows, ?_, ?_, h.conversation, h.searchRun,
    fun x hx => (h.sent x hx).later hl, fun x hx => (h.served x hx).later hl⟩
  · intro l hmem
    rcases List.mem_append.mp hmem with hmem | hmem
    · exact h.leases l hmem
    · obtain rfl := List.mem_singleton.mp hmem
      exact h.leases lease hlease
  · intro l hmem
    rcases List.mem_append.mp hmem with hmem | hmem
    · exact h.leased l hmem
    · obtain rfl := List.mem_singleton.mp hmem
      exact h.leased lease hlease

/-- The service goes on, in whatever way. -/
theorem Once.service (h : Once d w) {app : Orchestration.World}
    (hs : Orchestration.Step d w.app app) : Once d { w with app } := by
  have hl : Later d.ports w { w with app } :=
    ⟨fun _ _ hx => hx, fun _ hx => hx, fun _ _ _ hx => hx.step h.app hs,
      fun _ _ _ hx => hx.step h.app hs⟩
  exact ⟨.tail h.app hs, h.rows, h.leases, h.leased, h.conversation, h.searchRun,
    fun x hx => (h.sent x hx).later hl, fun x hx => (h.served x hx).later hl⟩

/-- **A worker asks under the keys of its unit.** -/
theorem Once.send (h : Once d w) {lease : RunLease} {prompt : String} {c : Campaign}
    {request : Request} (hlease : lease ∈ w.leases)
    (hc : lookup (·.id) lease.campaignId w.db.campaigns = some c)
    (hreq : lease.nextRequest d.ports prompt = .ok request) :
    Once d { w with sent := w.sent ++ [⟨lease.unit, c.createdByUserId, request⟩] } := by
  have hl : Later d.ports w { w with sent := w.sent ++ [⟨lease.unit, c.createdByUserId, request⟩] } :=
    ⟨fun _ _ hx => hx, fun _ hx => hx, fun _ _ _ hx => hx, fun _ _ _ hx => hx⟩
  refine ⟨h.app, h.rows, h.leases, h.leased, h.conversation, h.searchRun, ?_,
    fun x hx => (h.served x hx).later hl⟩
  intro x hx
  rcases List.mem_append.mp hx with hx | hx
  · exact (h.sent x hx).later hl
  obtain rfl := List.mem_singleton.mp hx
  obtain ⟨hcm, hcid⟩ := lookup_eq_some hc
  obtain ⟨r, hr, hticket⟩ := h.leases lease hlease
  have hderived : lease.ticket.Derived := hticket ▸ h.rows r hr
  refine ⟨⟨c, hcm, hcid, rfl⟩, ?_⟩
  simp only [RunLease.nextRequest, bind_ok_iff] at hreq
  obtain ⟨_, _, _, _, _, _, hreq⟩ := hreq
  split at hreq
  · simp only [conversationRequest, bind_ok_iff, check_eq_ok, pure_ok_iff, Bool.and_eq_true,
      decide_eq_true_eq] at hreq
    obtain ⟨_, hne, rfl⟩ := hreq
    exact ⟨hne.2, congrArg Text.strip hderived.conversationKey⟩
  · rename_i conversationId hconv
    simp only [messageRequest, bind_ok_iff, check_eq_ok, pure_ok_iff] at hreq
    obtain ⟨_, _, rfl⟩ := hreq
    exact ⟨h.leased lease hlease conversationId hconv, congrArg Text.strip hderived.messageKey⟩

/-- What the service does about a request, and what it creates for it. -/
theorem Once.answer (h : Once d w) {env : Orchestration.Env}
    {routing : Orchestration.RoutingDecision} {x : Sent} {reply : Reply} {app : Orchestration.Db}
    (hsent : x ∈ w.sent)
    (ha : answer d.ports d.policy env routing w.app.db x.userId x.request = .ok (reply, app)) :
    Orchestration.Step d w.app { w.app with db := app } ∧
    reply.Sound d.ports app w.served x.unit x.userId ∧
    (∀ c ∈ app.conversations, c ∈ w.app.db.conversations ∨ reply = .conversation c.id) ∧
    ∀ r ∈ app.runs, r ∈ w.app.db.runs ∨
      ∃ receipt, reply = .message receipt ∧ receipt.searchRunId = r.id := by
  have hsound := (h.sent x hsent).2
  cases hreq : x.request with
  | conversation title key =>
      rw [hreq] at hsound ha
      obtain ⟨hne, hkey⟩ := hsound
      simp only [Shadow.answer, bind_ok_iff, pure_ok_iff, Prod.mk.injEq, Prod.exists] at ha
      obtain ⟨view, app', hcreate, rfl, rfl⟩ := ha
      obtain ⟨hfiled, hruns, hnew⟩ := createConversation_filed hne hcreate
      rw [hkey, Text.strip_strip] at hfiled
      refine ⟨.create env x.userId title (some key) view hcreate, hfiled, ?_, ?_⟩
      · intro c hc
        rcases hnew c hc with hc | hc
        · exact .inl hc
        · exact .inr (by rw [hc])
      · intro r hr
        exact .inl (hruns ▸ hr)
  | message conversationId content key =>
      rw [hreq] at hsound ha
      obtain ⟨hserved, hkey⟩ := hsound
      simp only [Shadow.answer, bind_ok_iff, pure_ok_iff, Prod.mk.injEq, Prod.exists] at ha
      obtain ⟨full, app', hsubmit, rfl, rfl⟩ := ha
      obtain ⟨hreceived, hconvs, hnew⟩ :=
        submitMessage_received (Orchestration.filed_reachable h.app) hsubmit
      rw [hkey, Text.strip_strip] at hreceived
      refine ⟨.submit env _ full hsubmit, ⟨conversationId, hserved, hreceived⟩, ?_, ?_⟩
      · intro c hc
        exact .inl (hconvs ▸ hc)
      · intro r hr
        rcases hnew r hr with hr | hr
        · exact .inl hr
        · exact .inr ⟨_, rfl, hr.symm⟩

theorem Once.serve (h : Once d w) {env : Orchestration.Env}
    {routing : Orchestration.RoutingDecision} {x : Sent} {reply : Reply} {app : Orchestration.Db}
    (hsent : x ∈ w.sent)
    (ha : Shadow.answer d.ports d.policy env routing w.app.db x.userId x.request
      = .ok (reply, app)) :
    Once d { w with
      app := { w.app with db := app }
      served := w.served ++ [⟨x.unit, reply⟩] } := by
  obtain ⟨hstep, hreply, -, -⟩ := h.answer hsent ha
  have hl : Later d.ports w { w with
      app := { w.app with db := app }
      served := w.served ++ [⟨x.unit, reply⟩] } :=
    ⟨fun _ _ hx => hx, fun _ hx => List.mem_append_left _ hx, fun _ _ _ hx => hx.step h.app hstep,
      fun _ _ _ hx => hx.step h.app hstep⟩
  refine ⟨.tail h.app hstep, h.rows, h.leases, ?_, ?_, ?_, fun y hy => (h.sent y hy).later hl, ?_⟩
  · intro l hlease id hid
    exact List.mem_append_left _ (h.leased l hlease id hid)
  · intro r hr id hid
    exact List.mem_append_left _ (h.conversation r hr id hid)
  · intro r hr id hid
    obtain ⟨receipt, hserved, heq⟩ := h.searchRun r hr id hid
    exact ⟨receipt, List.mem_append_left _ hserved, heq⟩
  · intro y hy
    rcases List.mem_append.mp hy with hy | hy
    · exact (h.served y hy).later hl
    obtain rfl := List.mem_singleton.mp hy
    refine ⟨x.userId, (h.sent x hsent).1, ?_⟩
    cases reply with
    | conversation id => exact hreply
    | message receipt =>
        obtain ⟨conversationId, hserved, hreceived⟩ := hreply
        exact ⟨conversationId, List.mem_append_left _ hserved, hreceived⟩

theorem once_reachable (h : Reachable d w) : Once d w := by
  refine Lib.Reachable.invariant (P := Once d) ?_ ?_ h
  · intro w hw
    subst hw
    refine ⟨.init rfl, ?_, ?_, ?_, ?_, ?_, ?_, ?_⟩ <;> simp [World.init, Db.empty]
  · intro w w' hi hmove
    obtain ⟨label, -, hs⟩ := hmove
    cases hs with
    | service hs => exact hi.service hs
    | transact hheld hrun => exact hi.transact hheld (run_effect hrun) fun l hl => run_handed hrun hl
    | lost hheld hrun => exact hi.lost hheld fun l hl => run_handed hrun hl
    | strayed hlease h => exact hi.strayed hlease h
    | send hlease hc hreq => exact hi.send hlease hc hreq
    | serve hsent ha => exact hi.serve hsent ha

/-- Two conversations a unit was answered with are one. -/
theorem Once.conversation_unique (h : Once d w) {unit : RunUnit} {a b : Uuid}
    (ha : ⟨unit, .conversation a⟩ ∈ w.served) (hb : ⟨unit, .conversation b⟩ ∈ w.served) : a = b := by
  obtain ⟨u, hu, hfa⟩ := h.served _ ha
  obtain ⟨v, hv, hfb⟩ := h.served _ hb
  rw [hu.unique hv] at hfa
  exact hfa.unique hfb

/-- Two receipts a unit was answered with are one. -/
theorem Once.message_unique (h : Once d w) {unit : RunUnit} {a b : CandidateSubmissionReceipt}
    (ha : ⟨unit, .message a⟩ ∈ w.served) (hb : ⟨unit, .message b⟩ ∈ w.served) : a = b := by
  obtain ⟨-, -, x, hx, hra⟩ := h.served _ ha
  obtain ⟨-, -, y, hy, hrb⟩ := h.served _ hb
  rw [h.conversation_unique hx hy] at hra
  exact hra.unique (Orchestration.filed_reachable h.app) hrb

end Once

/--
**A unit is submitted once.** However workers, crashes, expired leases, reclaims, lost
replies and late requests interleave: whatever serving a request of a unit creates is
what the request is answered with, all the conversations a unit is ever answered with
are one and so are all its receipts, and the run bound to its result is the run of that
receipt.
-/
theorem submitted_once {d : Orchestration.Deployment} {w : World} (h : Reachable d w)
    (unit : RunUnit) :
    (∀ a b, ⟨unit, .conversation a⟩ ∈ w.served → ⟨unit, .conversation b⟩ ∈ w.served → a = b) ∧
    (∀ a b, ⟨unit, .message a⟩ ∈ w.served → ⟨unit, .message b⟩ ∈ w.served → a = b) ∧
    (∀ r ∈ w.db.results, r.unit = unit → ∀ id, r.searchRunId = some id →
      ∃ receipt, ⟨unit, .message receipt⟩ ∈ w.served ∧ receipt.searchRunId = id ∧
        ∃ run ∈ w.app.db.runs, run.id = id) ∧
    ∀ env routing sent w', sent.unit = unit → Step d (.serve env routing sent) w w' →
      (∀ c ∈ w'.app.db.conversations, c ∈ w.app.db.conversations ∨
        ⟨unit, .conversation c.id⟩ ∈ w'.served) ∧
      ∀ run ∈ w'.app.db.runs, run ∈ w.app.db.runs ∨
        ∃ receipt, ⟨unit, .message receipt⟩ ∈ w'.served ∧ receipt.searchRunId = run.id := by
  have hi := once_reachable h
  refine ⟨fun a b => hi.conversation_unique, fun a b => hi.message_unique, ?_, ?_⟩
  · rintro r hr rfl id hid
    obtain ⟨receipt, hserved, heq⟩ := hi.searchRun r hr id hid
    obtain ⟨-, -, conversationId, -, command, full, m, q, run, hret, -, -, rfl⟩ :=
      hi.served _ hserved
    exact ⟨_, hserved, heq, run, hret.run, hret.searchRunId.symm.trans heq⟩
  · rintro env routing sent w' rfl hs
    cases hs with
    | serve hsent ha =>
        obtain ⟨-, -, hconvs, hruns⟩ := hi.answer hsent ha
        refine ⟨fun c hc => ?_, fun run hrun => ?_⟩
        · rcases hconvs c hc with hc | rfl
          · exact .inl hc
          · exact .inr (List.mem_append_right _ (List.mem_singleton_self _))
        · rcases hruns run hrun with hrun | ⟨receipt, rfl, heq⟩
          · exact .inl hrun
          · exact .inr ⟨receipt, List.mem_append_right _ (List.mem_singleton_self _), heq⟩

/-- A unit whose submission was delivered twice, with its run bound. -/
theorem submitted_once_sample : ∃ w, Reachable Sample.deployment w ∧
    w.served.length = 3 ∧ w.app.db.runs.length = 1 ∧
    ∃ r ∈ w.db.results, ∃ id, r.searchRunId = some id ∧
      ∃ receipt, ⟨r.unit, .message receipt⟩ ∈ w.served ∧ receipt.searchRunId = id ∧
        ∃ run ∈ w.app.db.runs, run.id = id := by
  obtain ⟨w, hr, hp⟩ := exists_reachable Sample.deployment (fun _ _ => True)
    (Sample.started ++ Sample.submitted 0)
    (fun w => w.served.length = 3 && w.app.db.runs.length = 1
      && w.db.results.any fun r => r.searchRunId.isSome) (by decide +kernel)
  simp only [Bool.and_eq_true, decide_eq_true_eq, List.any_eq_true, Option.isSome_iff_exists] at hp
  obtain ⟨⟨hserved, hruns⟩, r, hmem, id, hid⟩ := hp
  exact ⟨w, hr, hserved, hruns, r, hmem, id, hid,
    (submitted_once hr r.unit).2.2.1 r hmem rfl id hid⟩

end Sana.Shadow
