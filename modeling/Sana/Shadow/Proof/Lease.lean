import Sana.Shadow.Proof.Once

/-!
# Fencing

Runners and collectors hold leases on the same rows, under three repositories that
each check them in their own words. What they have in common is the version of the
row: a lease carries the one it was given, every write moves the row's on, and so a
lease is powerless from the moment anybody else has written. The only thing such a
lease still gets is the answer that what it wants to record is recorded already.
-/

namespace Sana.Shadow

open Sana.Lib

/-! ## Tokens -/

/-- What fences a lease off: the row it is for and the version it was given. -/
structure Token where
  resultId : Uuid
  version : Nat
deriving DecidableEq, Repr

def RunLease.token (l : RunLease) : Token := ⟨l.id, l.persistedVersion⟩

def CollectorLease.token (l : CollectorLease) : Token := ⟨l.id, l.persistedVersion⟩

/-- The token an operation presents. -/
def Op.token : Op → Option Token
  | .renew lease _ | .reserve lease | .release lease | .prepareConversation lease
  | .bindConversation lease _ | .prepareSubmission lease | .bindSubmission lease _
  | .fail lease _ _ => some lease.token
  | .renewCollection lease _ | .persist lease _ | .failCollection lease _ _ _ => some lease.token
  | _ => none

/-- The tokens a transaction hands out. -/
def Outcome.tokens (out : Outcome) : List Token :=
  out.leases.map (·.token) ++ out.collections.map (·.token)

/-- A claim, of a runner or of a collector. -/
def Op.isClaim : Op → Bool
  | .claim _ _ _ _ | .claimCollection _ _ _ _ => true
  | _ => false

/-- The row of a token still has the version it was given. -/
def Fenced (db : Db) (t : Token) : Prop :=
  ∃ r ∈ db.results, r.id = t.resultId ∧ r.version = t.version

/-- What the operation would record is on the row already. -/
def Op.Replayed (db : Db) : Op → Prop
  | .bindSubmission lease receipt => ∃ r ∈ db.results, r.id = lease.id ∧
      r.schedulingState = .submitted ∧ r.searchRunId = some receipt.searchRunId
  | .fail lease _ _ => ∃ r ∈ db.results, r.id = lease.id ∧ r.schedulingState = .failed
  | .failCollection lease _ _ _ =>
      ∃ r ∈ db.results, r.id = lease.id ∧ r.schedulingState = .failed
  | .persist lease outcome => ∃ r ∈ db.results, r.id = lease.id ∧
      r.schedulingState = .collected ∧ r.matchesOutcome outcome = true
  | _ => False

/-- A lease whose version in memory is not behind the one it was persisted with. -/
def RunLease.Synced (l : RunLease) : Prop := l.persistedVersion ≤ l.version

/-! ## One lemma an operation -/

section Ops

variable {ports : Orchestration.Ports} {app : Orchestration.Tables} {db db' : Db} {now : Time}
  {c c' : Campaign} {r r' : RunResult}

theorem mem_of_put (h : (db.toTables.put c' r').commit = .ok db') (hr : r ∈ db.results)
    (hid : r'.id = r.id) : r' ∈ db'.results := by
  rw [commit_ok h]
  exact (mem_put_results hr hid).mpr (.inl rfl)

theorem mem_of_putResult (h : (db.toTables.putResult r').commit = .ok db') (hr : r ∈ db.results)
    (hid : r'.id = r.id) : r' ∈ db'.results := by
  obtain ⟨c, hc, _⟩ := db.valid.fk_results r hr
  rw [putResult_eq_put hc] at h
  exact mem_of_put h hr hid

theorem fenced_of_held {lease : RunLease} (hrows : Rows db.toTables lease.campaignId lease.id c r)
    (h : r.assertActiveLease lease now = .ok ()) : Fenced db lease.token :=
  ⟨r, hrows.result_mem, hrows.result_id, (assertActiveLease_ok h).fence⟩

theorem fenced_of_collected {lease : CollectorLease}
    (hrows : Rows db.toTables lease.campaignId lease.id c r)
    (h : r.assertCollectorLease lease now = .ok ()) : Fenced db lease.token :=
  ⟨r, hrows.result_mem, hrows.result_id, (assertCollectorLease_ok h).fence⟩

theorem claimNextResult_fenced {campaignId : Uuid} {worker : String} {duration : Duration}
    {locked : List Uuid} {lease : RunLease}
    (h : claimNextResult db now campaignId worker duration locked = .ok (some lease, db')) :
    ∃ r ∈ db.results, r.id = lease.id ∧ r.version < lease.persistedVersion ∧
      Fenced db' lease.token ∧ lease.Synced := by
  obtain ⟨h, -⟩ | ⟨l, c, r, h, hcl⟩ := claimNextResult_ok h
  · cases h
  · cases h
    rw [hcl.lease_eq]
    refine ⟨r, hcl.result_mem, rfl, Nat.lt_succ_self _, ⟨r.claimedBy worker now duration, ?_, rfl, rfl⟩,
      Nat.le_refl _⟩
    rw [hcl.tables, putResult_eq_put hcl.campaign_mem]
    refine (mem_put_results hcl.result_mem ?_).mpr (.inl rfl)
    rfl

theorem claimCollection_fenced {campaignId : Uuid} {worker : String} {duration : Duration}
    {locked : List Uuid} {lease : CollectorLease}
    (h : claimCollection db app now campaignId worker duration locked = .ok (some lease, db')) :
    ∃ r ∈ db.results, r.id = lease.id ∧ r.version < lease.persistedVersion ∧
      Fenced db' lease.token := by
  unfold claimCollection at h
  split at h
  swap
  · simp at h
  split at h
  · simp at h
  simp only [] at h
  split at h
  · simp at h
  split at h
  · simp at h
  rename_i r hr
  obtain ⟨db₁, hput, h⟩ := bind_ok_iff.mp h
  split at h
  swap
  · cases h
  split at h
  swap
  · cases h
  simp only [pure_ok_iff, Prod.mk.injEq, Option.some.injEq] at h
  obtain ⟨rfl, rfl⟩ := h
  have hmem := mem_of_firstScheduled hr
  simp only [Tables.resultsOf, List.mem_filter] at hmem
  exact ⟨r, hmem.1.1, rfl, Nat.lt_succ_self _, _, mem_of_putResult hput hmem.1.1 rfl, rfl, rfl⟩

theorem renewResultLease_fenced {lease lease' : RunLease} {duration : Duration}
    (h : renewResultLease db now lease duration = .ok (lease', db')) :
    Fenced db lease.token ∧ Fenced db' lease'.token ∧ lease'.Synced := by
  unfold renewResultLease at h
  obtain ⟨l, hl, h⟩ := bind_ok_iff.mp h
  obtain rfl := renew_eq hl
  split at h
  · cases h
  rename_i r hfound
  obtain ⟨hr, _, hid⟩ := find_ok hfound
  simp only [bind_ok_iff, pure_ok_iff, Prod.mk.injEq, check_eq_ok, Bool.and_eq_true,
    decide_eq_true_eq] at h
  obtain ⟨_, ⟨⟨_, hfence⟩, _⟩, _, hput, rfl, rfl⟩ := h
  exact ⟨⟨r, hr, hid, hfence⟩, ⟨_, mem_of_putResult hput hr rfl, hid, rfl⟩, Nat.le_refl _⟩

theorem reserveRunBudget_fenced {lease lease' : RunLease} {receipt : BudgetReservationReceipt}
    (h : reserveRunBudget db now lease = .ok (receipt, lease', db')) :
    Fenced db lease.token ∧ Fenced db' lease'.token ∧ (lease.Synced → lease'.Synced) := by
  unfold reserveRunBudget at h
  obtain ⟨⟨c, r⟩, hrows, h⟩ := bind_ok_iff.mp h
  have hrows := lockedRows_ok hrows
  obtain ⟨_, hlease, h⟩ := bind_ok_iff.mp h
  have hf := fenced_of_held hrows hlease
  refine ⟨hf, ?_⟩
  simp only [] at h
  split at h
  · simp only [pure_ok_iff, Prod.mk.injEq] at h
    obtain ⟨_, rfl, rfl⟩ := h
    exact ⟨hf, id⟩
  simp only [bind_ok_iff] at h
  obtain ⟨_, _, _, _, request, _, h⟩ := h
  split at h
  · split at h
    · simp only [pure_ok_iff, Prod.mk.injEq] at h
      obtain ⟨_, rfl, rfl⟩ := h
      exact ⟨hf, id⟩
    · simp only [bind_ok_iff, pure_ok_iff, Prod.mk.injEq] at h
      obtain ⟨_, hput, l, hl, _, rfl, rfl⟩ := h
      rw [acceptBudgetFence_ok hl]
      exact ⟨⟨_, mem_of_put hput hrows.result_mem rfl, hrows.result_id, rfl⟩,
      fun _ => Nat.le_refl _⟩
  · simp only [bind_ok_iff, pure_ok_iff, Prod.mk.injEq] at h
    obtain ⟨_, hput, l, hl, _, rfl, rfl⟩ := h
    rw [acceptBudgetFence_ok hl]
    exact ⟨⟨_, mem_of_put hput hrows.result_mem rfl, hrows.result_id, rfl⟩,
      fun _ => Nat.le_refl _⟩

theorem releaseRunBudget_fenced {lease lease' : RunLease}
    (h : releaseRunBudget db now lease = .ok (lease', db')) :
    Fenced db lease.token ∧ Fenced db' lease'.token ∧ (lease.Synced → lease'.Synced) := by
  unfold releaseRunBudget at h
  obtain ⟨⟨c, r⟩, hrows, h⟩ := bind_ok_iff.mp h
  have hrows := lockedRows_ok hrows
  obtain ⟨_, hlease, h⟩ := bind_ok_iff.mp h
  have hf := fenced_of_held hrows hlease
  refine ⟨hf, ?_⟩
  simp only [] at h
  split at h
  · simp only [pure_ok_iff, Prod.mk.injEq] at h
    obtain ⟨rfl, rfl⟩ := h
    exact ⟨hf, id⟩
  simp only [bind_ok_iff, pure_ok_iff, Prod.mk.injEq] at h
  obtain ⟨_, _, _, _, _, _, _, hput, l, hl, rfl, rfl⟩ := h
  rw [acceptBudgetFence_ok hl]
  exact ⟨⟨_, mem_of_put hput hrows.result_mem rfl, hrows.result_id, rfl⟩,
    fun _ => Nat.le_refl _⟩

theorem prepareConversationAttempt_fenced {lease lease' : RunLease}
    (h : prepareConversationAttempt db now lease = .ok (lease', db')) :
    Fenced db lease.token ∧ Fenced db' lease'.token ∧ lease'.Synced := by
  unfold prepareConversationAttempt at h
  obtain ⟨⟨c, r⟩, hrows, h⟩ := bind_ok_iff.mp h
  have hrows := lockedRows_ok hrows
  simp only [bind_ok_iff, pure_ok_iff, Prod.mk.injEq] at h
  obtain ⟨_, hlease, _, _, _, _, _, _, _, hput, l, hl, rfl, rfl⟩ := h
  rw [acceptAttemptFence_ok hl]
  exact ⟨fenced_of_held hrows hlease,
    ⟨_, mem_of_putResult hput hrows.result_mem rfl, hrows.result_id, rfl⟩, Nat.le_refl _⟩

theorem bindConversation_fenced {lease lease' : RunLease} {conversationId : Uuid}
    (h : bindConversation ports db app now lease conversationId = .ok (lease', db')) :
    Fenced db lease.token ∧ Fenced db' lease'.token ∧ (lease.Synced → lease'.Synced) := by
  unfold bindConversation at h
  obtain ⟨⟨c, r⟩, hrows, h⟩ := bind_ok_iff.mp h
  have hrows := lockedRows_ok hrows
  obtain ⟨_, hlease, h⟩ := bind_ok_iff.mp h
  obtain ⟨_, _, h⟩ := bind_ok_iff.mp h
  have hf := fenced_of_held hrows hlease
  refine ⟨hf, ?_⟩
  simp only [] at h
  split at h
  · simp only [bind_ok_iff, pure_ok_iff, Prod.mk.injEq] at h
    obtain ⟨_, _, rfl, rfl⟩ := h
    exact ⟨hf, id⟩
  simp only [bind_ok_iff, pure_ok_iff, Prod.mk.injEq, RunLease.acceptConversationFence] at h
  obtain ⟨_, _, _, _, _, _, _, hput, l, ⟨l₁, hl, rfl⟩, rfl, rfl⟩ := h
  rw [acceptAttemptFence_ok hl]
  exact ⟨⟨_, mem_of_putResult hput hrows.result_mem rfl, hrows.result_id, rfl⟩,
    fun _ => Nat.le_refl _⟩

theorem prepareSubmissionAttempt_fenced {lease lease' : RunLease}
    (h : prepareSubmissionAttempt db now lease = .ok (lease', db')) :
    Fenced db lease.token ∧ Fenced db' lease'.token ∧ lease'.Synced := by
  unfold prepareSubmissionAttempt at h
  obtain ⟨⟨c, r⟩, hrows, h⟩ := bind_ok_iff.mp h
  have hrows := lockedRows_ok hrows
  simp only [bind_ok_iff, pure_ok_iff, Prod.mk.injEq] at h
  obtain ⟨_, hlease, _, _, _, _, _, hput, l, hl, rfl, rfl⟩ := h
  rw [acceptAttemptFence_ok hl]
  exact ⟨fenced_of_held hrows hlease,
    ⟨_, mem_of_putResult hput hrows.result_mem rfl, hrows.result_id, rfl⟩, Nat.le_refl _⟩

theorem renewCollection_fenced {lease lease' : CollectorLease} {duration : Duration}
    (h : renewCollection db now lease duration = .ok (lease', db')) :
    Fenced db lease.token ∧ Fenced db' lease'.token := by
  unfold renewCollection at h
  obtain ⟨⟨c, r⟩, hrows, h⟩ := bind_ok_iff.mp h
  have hrows := lockedRows_ok hrows
  simp only [bind_ok_iff, pure_ok_iff, Prod.mk.injEq] at h
  obtain ⟨_, hlease, _, _, _, hput, rfl, rfl⟩ := h
  exact ⟨fenced_of_collected hrows hlease, _, mem_of_putResult hput hrows.result_mem rfl,
    hrows.result_id, rfl⟩

theorem bindSubmission_fenced {lease : RunLease} {receipt : CandidateSubmissionReceipt}
    (h : bindSubmission ports db app now lease receipt = .ok db') :
    Fenced db lease.token ∨ db' = db ∧ (Op.bindSubmission lease receipt).Replayed db := by
  unfold bindSubmission at h
  obtain ⟨⟨c, r⟩, hrows, h⟩ := bind_ok_iff.mp h
  have hrows := lockedRows_ok hrows
  simp only [] at h
  split at h
  · simp only [bind_ok_iff, pure_ok_iff, check_eq_ok, Bool.and_eq_true, decide_eq_true_eq] at h
    obtain ⟨_, ⟨hrun, hst⟩, _, _, rfl⟩ := h
    exact .inr ⟨rfl, r, hrows.result_mem, hrows.result_id, hst, hrun⟩
  · obtain ⟨_, hlease, _⟩ := bind_ok_iff.mp h
    exact .inl (fenced_of_held hrows hlease)

theorem markFailure_fenced {lease : RunLease} {failure : RunnerFailure} {digest : String}
    (h : markFailure db now lease failure digest = .ok db') :
    Fenced db lease.token ∨ db' = db ∧ (Op.fail lease failure digest).Replayed db := by
  unfold markFailure at h
  obtain ⟨⟨c, r⟩, hrows, h⟩ := bind_ok_iff.mp h
  have hrows := lockedRows_ok hrows
  simp only [] at h
  split at h
  · rename_i hst
    exact .inr ⟨(pure_ok_iff.mp h).symm, r, hrows.result_mem, hrows.result_id, hst⟩
  · obtain ⟨_, hlease, _⟩ := bind_ok_iff.mp h
    simp only [check_eq_ok, Bool.and_eq_true, decide_eq_true_eq] at hlease
    exact .inl ⟨r, hrows.result_mem, hrows.result_id, hlease.2⟩

theorem markCollectorFailure_fenced {lease : CollectorLease} {failure : RunnerFailure}
    {invocations : List ModelInvocation} {digest : String}
    (h : markCollectorFailure db app now lease failure invocations digest = .ok db') :
    Fenced db lease.token ∨
      db' = db ∧ (Op.failCollection lease failure invocations digest).Replayed db := by
  unfold markCollectorFailure at h
  obtain ⟨⟨c, r⟩, hrows, h⟩ := bind_ok_iff.mp h
  have hrows := lockedRows_ok hrows
  simp only [] at h
  split at h
  · rename_i hst
    exact .inr ⟨(pure_ok_iff.mp h).symm, r, hrows.result_mem, hrows.result_id, hst⟩
  · obtain ⟨_, hlease, _⟩ := bind_ok_iff.mp h
    simp only [check_eq_ok, Bool.and_eq_true, decide_eq_true_eq] at hlease
    exact .inl ⟨r, hrows.result_mem, hrows.result_id, hlease.1.2⟩

theorem persistCollection_fenced {lease : CollectorLease} {outcome : CollectionOutcome}
    {receipt : CollectionReceipt}
    (h : persistCollection db now lease outcome = .ok (receipt, db')) :
    Fenced db lease.token ∨ db' = db ∧ (Op.persist lease outcome).Replayed db := by
  unfold persistCollection at h
  obtain ⟨⟨c, r⟩, hrows, h⟩ := bind_ok_iff.mp h
  have hrows := lockedRows_ok hrows
  simp only [] at h
  split at h
  · rename_i hst
    simp only [bind_ok_iff, pure_ok_iff, check_eq_ok, Prod.mk.injEq] at h
    obtain ⟨_, hmatch, _, _, _, rfl⟩ := h
    exact .inr ⟨rfl, r, hrows.result_mem, hrows.result_id, hst, hmatch⟩
  · obtain ⟨_, hlease, _⟩ := bind_ok_iff.mp h
    exact .inl (fenced_of_collected hrows hlease)

/-- **An operation that returns was fenced in by its row, or is a replay that writes nothing.** -/
theorem run_fenced {op : Op} {out : Outcome} (h : op.run ports app db now = .ok out) {t : Token}
    (ht : op.token = some t) : Fenced db t ∨ out.db = db ∧ op.Replayed db := by
  cases op <;> cases ht <;> simp only [Op.run, bind_ok_iff, pure_ok_iff, Prod.exists] at h
  case renew lease duration =>
    obtain ⟨_, _, h, rfl⟩ := h
    exact .inl (renewResultLease_fenced h).1
  case reserve lease =>
    obtain ⟨_, _, _, h, rfl⟩ := h
    exact .inl (reserveRunBudget_fenced h).1
  case release lease =>
    obtain ⟨_, _, h, rfl⟩ := h
    exact .inl (releaseRunBudget_fenced h).1
  case prepareConversation lease =>
    obtain ⟨_, _, h, rfl⟩ := h
    exact .inl (prepareConversationAttempt_fenced h).1
  case bindConversation lease conversationId =>
    obtain ⟨_, _, h, rfl⟩ := h
    exact .inl (bindConversation_fenced h).1
  case prepareSubmission lease =>
    obtain ⟨_, _, h, rfl⟩ := h
    exact .inl (prepareSubmissionAttempt_fenced h).1
  case renewCollection lease duration =>
    obtain ⟨_, _, h, rfl⟩ := h
    exact .inl (renewCollection_fenced h).1
  case bindSubmission lease receipt =>
    obtain ⟨_, h, rfl⟩ := h
    exact bindSubmission_fenced h
  case fail lease failure digest =>
    obtain ⟨_, h, rfl⟩ := h
    exact markFailure_fenced h
  case persist lease outcome =>
    obtain ⟨_, _, h, rfl⟩ := h
    exact persistCollection_fenced h
  case failCollection lease failure invocations digest =>
    obtain ⟨_, h, rfl⟩ := h
    exact markCollectorFailure_fenced h

/-- **A token that is handed out has the version of its row.** -/
theorem run_issued {op : Op} {out : Outcome} (h : op.run ports app db now = .ok out) {t : Token}
    (ht : t ∈ out.tokens) : Fenced out.db t := by
  cases op <;> simp only [Op.run, bind_ok_iff, pure_ok_iff, Prod.exists] at h
  case claim campaignId worker duration locked =>
    obtain ⟨lease, _, h, rfl⟩ := h
    cases lease with
    | none => cases ht
    | some lease =>
        obtain rfl := List.mem_singleton.mp ht
        obtain ⟨_, _, _, _, hf, _⟩ := claimNextResult_fenced h
        exact hf
  case claimCollection campaignId worker duration locked =>
    obtain ⟨lease, _, h, rfl⟩ := h
    cases lease with
    | none => cases ht
    | some lease =>
        obtain rfl := List.mem_singleton.mp ht
        obtain ⟨_, _, _, _, hf⟩ := claimCollection_fenced h
        exact hf
  case renew lease duration =>
    obtain ⟨_, _, h, rfl⟩ := h
    obtain rfl := List.mem_singleton.mp ht
    exact (renewResultLease_fenced h).2.1
  case reserve lease =>
    obtain ⟨_, _, _, h, rfl⟩ := h
    obtain rfl := List.mem_singleton.mp ht
    exact (reserveRunBudget_fenced h).2.1
  case release lease =>
    obtain ⟨_, _, h, rfl⟩ := h
    obtain rfl := List.mem_singleton.mp ht
    exact (releaseRunBudget_fenced h).2.1
  case prepareConversation lease =>
    obtain ⟨_, _, h, rfl⟩ := h
    obtain rfl := List.mem_singleton.mp ht
    exact (prepareConversationAttempt_fenced h).2.1
  case bindConversation lease conversationId =>
    obtain ⟨_, _, h, rfl⟩ := h
    obtain rfl := List.mem_singleton.mp ht
    exact (bindConversation_fenced h).2.1
  case prepareSubmission lease =>
    obtain ⟨_, _, h, rfl⟩ := h
    obtain rfl := List.mem_singleton.mp ht
    exact (prepareSubmissionAttempt_fenced h).2.1
  case renewCollection lease duration =>
    obtain ⟨_, _, h, rfl⟩ := h
    obtain rfl := List.mem_singleton.mp ht
    exact (renewCollection_fenced h).2
  case settle campaignId resultId digest usage =>
    obtain ⟨_, _, h, rfl⟩ := h
    cases ht
  case persist lease outcome =>
    obtain ⟨_, _, h, rfl⟩ := h
    cases ht
  all_goals
    obtain ⟨_, h, rfl⟩ := h
    cases ht

/-- A claim moves the version on from what any earlier token has. -/
theorem claim_issued {op : Op} (hclaim : op.isClaim = true) {out : Outcome}
    (h : op.run ports app db now = .ok out) {t : Token} (ht : t ∈ out.tokens) :
    ∃ r ∈ db.results, r.id = t.resultId ∧ r.version < t.version := by
  cases op <;> cases hclaim <;> simp only [Op.run, bind_ok_iff, pure_ok_iff, Prod.exists] at h
  case claim.refl campaignId worker duration locked =>
    obtain ⟨lease, _, h, rfl⟩ := h
    cases lease with
    | none => cases ht
    | some lease =>
        obtain rfl := List.mem_singleton.mp ht
        obtain ⟨r, hr, hid, hlt, _⟩ := claimNextResult_fenced h
        exact ⟨r, hr, hid, hlt⟩
  case claimCollection.refl campaignId worker duration locked =>
    obtain ⟨lease, _, h, rfl⟩ := h
    cases lease with
    | none => cases ht
    | some lease =>
        obtain rfl := List.mem_singleton.mp ht
        obtain ⟨r, hr, hid, hlt, _⟩ := claimCollection_fenced h
        exact ⟨r, hr, hid, hlt⟩

theorem run_synced {op : Op} {out : Outcome} (h : op.run ports app db now = .ok out)
    (hop : ∀ l, op.lease = some l → l.Synced) {l : RunLease} (hl : l ∈ out.leases) : l.Synced := by
  cases op <;> simp only [Op.run, bind_ok_iff, pure_ok_iff, Prod.exists] at h
  case claim campaignId worker duration locked =>
    obtain ⟨lease, _, h, rfl⟩ := h
    simp only [Option.mem_toList] at hl
    cases hl
    obtain ⟨_, _, _, _, _, hsync⟩ := claimNextResult_fenced h
    exact hsync
  case renew lease duration =>
    obtain ⟨_, _, h, rfl⟩ := h
    obtain rfl := List.mem_singleton.mp hl
    exact (renewResultLease_fenced h).2.2
  case reserve lease =>
    obtain ⟨_, _, _, h, rfl⟩ := h
    obtain rfl := List.mem_singleton.mp hl
    exact (reserveRunBudget_fenced h).2.2 (hop lease rfl)
  case release lease =>
    obtain ⟨_, _, h, rfl⟩ := h
    obtain rfl := List.mem_singleton.mp hl
    exact (releaseRunBudget_fenced h).2.2 (hop lease rfl)
  case prepareConversation lease =>
    obtain ⟨_, _, h, rfl⟩ := h
    obtain rfl := List.mem_singleton.mp hl
    exact (prepareConversationAttempt_fenced h).2.2
  case bindConversation lease conversationId =>
    obtain ⟨_, _, h, rfl⟩ := h
    obtain rfl := List.mem_singleton.mp hl
    exact (bindConversation_fenced h).2.2 (hop lease rfl)
  case prepareSubmission lease =>
    obtain ⟨_, _, h, rfl⟩ := h
    obtain rfl := List.mem_singleton.mp hl
    exact (prepareSubmissionAttempt_fenced h).2.2
  case claimCollection campaignId worker duration locked =>
    obtain ⟨_, _, h, rfl⟩ := h
    cases hl
  case renewCollection lease duration =>
    obtain ⟨_, _, h, rfl⟩ := h
    cases hl
  case settle campaignId resultId digest usage =>
    obtain ⟨_, _, h, rfl⟩ := h
    cases hl
  case persist lease outcome =>
    obtain ⟨_, _, h, rfl⟩ := h
    cases hl
  all_goals
    obtain ⟨_, h, rfl⟩ := h
    cases hl

end Ops

/-! ## Versions -/

section Versions

variable {ports : Orchestration.Ports} {op : Op} {now : Time} {db db' : Db} {c c' : Campaign}
  {r r' : RunResult}

/-- The row is as it was, or its version has moved on. -/
def RunResult.Advanced (r r' : RunResult) : Prop := r' = r ∨ r.version < r'.version

theorem RunResult.Advanced.le (h : r.Advanced r') : r.version ≤ r'.version := by
  rcases h with rfl | h
  · exact Nat.le_refl _
  · exact Nat.le_of_lt h

theorem Settling.version_le {digest : String} {usage : SettlementUsage}
    (h : Settling now digest usage c r c' r') : r.Advanced r' := by
  cases h with
  | again _ => exact .inl rfl
  | first _ _ _ _ => exact .inr (Nat.lt_succ_self _)

theorem failReservation_version {failure : RunnerFailure} {digest : String}
    (h : failReservation now failure digest c r = .ok (c', r')) : r'.version = r.version := by
  unfold failReservation at h
  split at h
  · split at h <;> cases h <;> rfl
  · cases h
    rfl
  · cases h
  · cases h

theorem Change.advanced (h : Change op now c r c' r')
    (hsync : ∀ lease duration, op = .renew lease duration → r.version ≤ lease.version) :
    r.Advanced r' := by
  cases h with
  | held _ how =>
      cases how with
      | renewed hop =>
          exact .inr (Nat.lt_succ_of_le (hsync _ _ hop))
      | claimed _ => exact .inr (Nat.lt_succ_self _)
      | prepared _ => exact .inr (Nat.lt_succ_self _)
      | collecting _ => exact .inr (Nat.lt_succ_self _)
      | collectingOn _ => exact .inr (Nat.lt_succ_self _)
  | bound _ _ _ => exact .inr (Nat.lt_succ_self _)
  | attempted _ _ => exact .inr (Nat.lt_succ_self _)
  | reserved _ _ _ => exact .inr (Nat.lt_succ_self _)
  | refused _ => exact .inr (Nat.lt_succ_self _)
  | released _ _ => exact .inr (Nat.lt_succ_self _)
  | submitted _ _ _ => exact .inr (Nat.lt_succ_self _)
  | failed _ _ h =>
      refine .inr ?_
      rw [← failReservation_version h]
      exact Nat.lt_succ_self _
  | settled _ _ h => exact (settleRows_ok h).version_le
  | sealed _ _ _ _ h =>
      have hle := (settleRows_ok h).version_le.le
      exact .inr (Nat.lt_of_lt_of_le (Nat.lt_succ_self _) hle)
  | collected _ _ _ _ h =>
      have hle := (settleRows_ok h).version_le.le
      exact .inr (Nat.lt_succ_of_le hle)

/-- **Every accepted write moves the version of its row on, and no row is lost.** -/
theorem Effect.advanced (he : Effect ports op now db db')
    (hsync : ∀ lease duration, op = .renew lease duration → lease.Synced)
    (hr : r ∈ db.results) : ∃ r' ∈ db'.results, r'.id = r.id ∧ r.Advanced r' := by
  cases he with
  | idle h => exact ⟨r, h ▸ hr, rfl, .inl rfl⟩
  | added h => exact ⟨r, by rw [h]; exact hr, rfl, .inl rfl⟩
  | materialized _ _ _ _ h =>
      exact ⟨r, by rw [h]; exact List.mem_append_left _ hr, rfl, .inl rfl⟩
  | moved _ _ _ h => exact ⟨r, by rw [h]; exact hr, rfl, .inl rfl⟩
  | skipped _ _ h =>
      refine ⟨_, by rw [h]; exact List.mem_map_of_mem hr, ?_⟩
      split
      · exact ⟨rfl, .inr (Nat.lt_succ_self _)⟩
      · exact ⟨rfl, .inl rfl⟩
  | @rows c c' o o' _ ho _ _ hguard hch h =>
      by_cases hid : r.id = o.id
      · obtain rfl := eq_of_key_eq db.valid.pk_results hr ho hid
        refine ⟨o', by rw [h]; exact (mem_put_results hr hch.framed.same.id).mpr (.inl rfl),
          hch.framed.same.id, hch.advanced ?_⟩
        rintro lease duration rfl
        exact hguard.fence.le.trans (hsync lease duration rfl)
      · exact ⟨r, by rw [h]; exact (mem_put_results ho hch.framed.same.id).mpr (.inr ⟨hr, hid⟩), rfl,
          .inl rfl⟩

end Versions

/-! ## Runs -/

section Runs

variable {d : Orchestration.Deployment} {ok : World → Label → Prop} {w w' : World}

/-- No lease that was ever handed out is behind what it was given. -/
theorem synced_reachable (hr : ReachableBy d ok w) : ∀ l ∈ w.leases, l.Synced := by
  refine Lib.Reachable.invariant (P := fun w : World => ∀ l ∈ w.leases, l.Synced) ?_ ?_ hr
  · rintro w rfl l hl
    cases hl
  · rintro w w' hp ⟨label, -, hs⟩ l hl
    cases hs with
    | service _ => exact hp l hl
    | transact hheld hrun =>
        rcases List.mem_append.mp hl with hl | hl
        · exact hp l hl
        · exact run_synced hrun (fun l hop => hp l (hheld.lease_mem hop)) hl
    | lost hheld hrun =>
        rcases List.mem_append.mp hl with hl | hl
        · exact hp l hl
        · exact run_synced hrun (fun l hop => hp l (hheld.lease_mem hop)) hl
    | strayed hlease h =>
        rcases List.mem_append.mp hl with hl | hl
        · exact hp l hl
        · -- only the version in memory has moved
          obtain rfl := List.mem_singleton.mp hl
          rw [renew_eq h]
          exact Nat.le_succ_of_le (hp _ hlease)
    | send _ _ _ => exact hp l hl
    | serve _ _ => exact hp l hl

/-- What a committed transaction of a reachable world does to a row. -/
theorem advanced_transact (hr : ReachableBy d ok w) {op : Op} {now : Time} {out : Outcome}
    (hheld : op.Held w) (hrun : op.run d.ports w.app.db.toTables w.db now = .ok out)
    {r : RunResult} (hmem : r ∈ w.db.results) :
    ∃ r' ∈ out.db.results, r'.id = r.id ∧ r.Advanced r' := by
  refine (run_effect hrun).advanced ?_ hmem
  rintro lease duration rfl
  exact synced_reachable hr lease hheld

/-- The version a row has reached is never undercut. -/
theorem version_le_of_run (hr : ReachableBy d ok w)
    (hs : Relation.ReflTransGen (Moves d ok) w w') {r : RunResult} (hmem : r ∈ w.db.results) :
    ∃ r' ∈ w'.db.results, r'.id = r.id ∧ r.version ≤ r'.version := by
  refine hr.run_rel (R := fun w w' : World => ∀ r ∈ w.db.results, ∃ r' ∈ w'.db.results,
    r'.id = r.id ∧ r.version ≤ r'.version) ?_ ?_ ?_ hs r hmem
  · exact fun _ r h => ⟨r, h, rfl, Nat.le_refl _⟩
  · intro _ _ _ h₁ h₂ r h
    obtain ⟨r₁, hm₁, hid₁, hle₁⟩ := h₁ r h
    obtain ⟨r₂, hm₂, hid₂, hle₂⟩ := h₂ r₁ hm₁
    exact ⟨r₂, hm₂, hid₂.trans hid₁, Nat.le_trans hle₁ hle₂⟩
  · rintro w w' hw ⟨label, -, hs⟩ r h
    cases hs with
    | transact hheld hrun =>
        obtain ⟨r', hm, hid, hadv⟩ := advanced_transact hw hheld hrun h
        exact ⟨r', hm, hid, hadv.le⟩
    | service _ => exact ⟨r, h, rfl, Nat.le_refl _⟩
    | lost _ _ => exact ⟨r, h, rfl, Nat.le_refl _⟩
    | strayed _ _ => exact ⟨r, h, rfl, Nat.le_refl _⟩
    | send _ _ _ => exact ⟨r, h, rfl, Nat.le_refl _⟩
    | serve _ _ => exact ⟨r, h, rfl, Nat.le_refl _⟩

/-- A transaction that commits in a world and hands out a token. -/
structure Issues (d : Orchestration.Deployment) (w : World) (op : Op) (out : Outcome) (t : Token) :
    Prop where
  held : op.Held w
  ran : ∃ now, op.run d.ports w.app.db.toTables w.db now = .ok out
  mem : t ∈ out.tokens

/-- The token was handed out, and later a claim handed out another one for the same result. -/
def Superseded (d : Orchestration.Deployment) (t : Token) (w : World) : Prop :=
  ∃ w₀ op₀ out₀, Reachable d w₀ ∧ Issues d w₀ op₀ out₀ t ∧
    ∃ w₁ op₁ out₁ t₁, Relation.ReflTransGen (Moves d fun _ _ => True) (w₀.after out₀) w₁ ∧
      op₁.isClaim = true ∧ Issues d w₁ op₁ out₁ t₁ ∧ t₁.resultId = t.resultId ∧
      Relation.ReflTransGen (Moves d fun _ _ => True) (w₁.after out₁) w

theorem Issues.reachable {op : Op} {out : Outcome} {t : Token} (h : Issues d w op out t)
    (hr : Reachable d w) : Reachable d (w.after out) := by
  obtain ⟨now, hrun⟩ := h.ran
  exact hr.tail ⟨.transact now op, trivial, .transact h.held hrun⟩

/-- A superseded token is behind the version of its row. -/
theorem Superseded.not_fenced {t : Token} (h : Superseded d t w) : ¬ Fenced w.db t := by
  obtain ⟨w₀, op₀, out₀, hr₀, hissue₀, w₁, op₁, out₁, t₁, hrun₁, hclaim, hissue₁, hid₁, hrun⟩ := h
  have hr₁ := (hissue₀.reachable hr₀).trans hrun₁
  obtain ⟨now₀, hop₀⟩ := hissue₀.ran
  obtain ⟨now₁, hop₁⟩ := hissue₁.ran
  -- the version the token was given, the one before the claim, the one after it, the one now
  obtain ⟨r₀, hm₀, hid₀, hv₀⟩ := run_issued hop₀ hissue₀.mem
  obtain ⟨r₁, hm₁, hid, hle⟩ := version_le_of_run (hissue₀.reachable hr₀) hrun₁ hm₀
  obtain ⟨o₁, ho₁, hoid, hlt⟩ := claim_issued hclaim hop₁ hissue₁.mem
  obtain rfl := eq_of_key_eq w₁.db.valid.pk_results hm₁ ho₁
    ((hid.trans hid₀).trans (hoid.trans hid₁).symm)
  obtain ⟨r₂, hm₂, hid₂, hv₂⟩ := run_issued hop₁ hissue₁.mem
  obtain ⟨r₃, hm₃, hid₃, hle₃⟩ := version_le_of_run (hissue₁.reachable hr₁) hrun hm₂
  rintro ⟨r, hr, hrid, hv⟩
  obtain rfl := eq_of_key_eq w.db.valid.pk_results hr hm₃
    (hrid.trans ((hid₃.trans hid₂).trans hid₁).symm)
  omega

end Runs

/-! ## The result -/

/--
**Every accepted write moves the version of its row on, and a superseded lease writes nothing.**
An operation that presents one raises, unless the row already records what it brings. The
lease is one that a committed transaction returned: a worker whose transaction was rolled
back holds a version that its row was not given, and the next claim may give the row that
very version.
-/
theorem result_fencing {d : Orchestration.Deployment} {w : World} (hr : Reachable d w) {op : Op}
    {now : Time} {out : Outcome} (hheld : op.Held w)
    (hrun : op.run d.ports w.app.db.toTables w.db now = .ok out) :
    (∀ r ∈ w.db.results, ∃ r' ∈ out.db.results, r'.id = r.id ∧ r.Advanced r') ∧
      ∀ t, op.token = some t → Superseded d t w → out.db = w.db ∧ op.Replayed w.db := by
  refine ⟨fun r hmem => advanced_transact hr hheld hrun hmem, fun t ht hsup => ?_⟩
  rcases run_fenced hrun ht with hf | hreplay
  · exact absurd hf hsup.not_fenced
  · exact hreplay

/-! ## A late response -/

namespace Sample

/-- Up to where a worker is about to record that it submits the prompt. -/
def beforeSubmission : List Action := started ++ (bound 0).dropLast

/-- The worker sends the prompt and the service starts the run; the worker then stalls. -/
def sentAndServed : List Action := [
  .send 4 "prompt",
  .serve (Orchestration.sampleEnv 11) ⟨.fast, [], "search-v12"⟩ 1]

/-- Whoever has claimed the unit in the meantime binds the run. -/
def boundByOther : List Action := [
  .transact (seconds 100) fun w => match replied w with
    | some (.message receipt) => last w (.bindSubmission · receipt)
    | _ => none]

/-- What the stalled worker asks for when it wakes up. -/
def lateBind (l : RunLease) (w : World) : Option Op :=
  match replied w with
  | some (.message receipt) => some (.bindSubmission l receipt)
  | _ => none

/-- The whole story, step by step. -/
def lateStory : Bool :=
  let run (w : World) (now : Time) (op : Op) : Option Outcome :=
    if op.Held w then (op.run deployment.ports w.app.db.toTables w.db now).toOption else none
  (perform deployment (fun _ _ => True) beforeSubmission).any fun w₀ =>
    (last w₀ .prepareSubmission).any fun op₀ => (run w₀ (seconds 0) op₀).any fun out₀ =>
      (sentAndServed.foldlM (exec deployment fun _ _ => True) (w₀.after out₀)).any fun w₁ =>
        (run w₁ (seconds 100) (.claim campaignId "other" (seconds 60) [])).any fun out₁ =>
          (boundByOther.foldlM (exec deployment fun _ _ => True) (w₁.after out₁)).any fun w =>
            out₀.leases.any fun l => out₁.leases.any fun l₁ => l₁.id = l.id &&
              (lateBind l w).any fun op => (run w (seconds 101) op).isSome

end Sample

/-- A worker stalls after it has submitted; another one claims the unit and binds its run. -/
theorem late_bind_returns : ∃ w op out l receipt, Reachable Sample.deployment w ∧
    op = Op.bindSubmission l receipt ∧ Superseded Sample.deployment l.token w ∧ op.Held w ∧
    op.run Sample.deployment.ports w.app.db.toTables w.db (seconds 101) = .ok out := by
  have hstory : Sample.lateStory = true := by decide +kernel
  simp only [Sample.lateStory, Option.any_eq_true, List.any_eq_true, Bool.and_eq_true,
    decide_eq_true_eq, Option.isSome_iff_exists, Option.ite_none_right_eq_some] at hstory
  obtain ⟨w₀, hw₀, op₀, hop₀, out₀, ⟨hheld₀, hrun₀⟩, w₁, hw₁, out₁, ⟨hheld₁, hrun₁⟩, w, hw, l, hl,
    l₁, hl₁, hid, op, hop, out, hheld, hrun⟩ := hstory
  have hexec : ∀ (s : World) (a : Action) (t : World),
      exec Sample.deployment (fun _ _ => True) s a = some t →
        Moves Sample.deployment (fun _ _ => True) s t := fun _ _ _ h => exec_moves _ _ h
  have hr₀ : Reachable Sample.deployment w₀ := Lib.Reachable.of_exec hexec (.init rfl) hw₀
  have hissue₀ : Issues Sample.deployment w₀ op₀ out₀ l.token :=
    ⟨hheld₀, ⟨_, Orchestration.toOption_eq_some hrun₀⟩,
      List.mem_append_left _ (List.mem_map_of_mem hl)⟩
  have hissue₁ : Issues Sample.deployment w₁
      (.claim Sample.campaignId "other" (seconds 60) []) out₁ l₁.token :=
    ⟨hheld₁, ⟨_, Orchestration.toOption_eq_some hrun₁⟩,
      List.mem_append_left _ (List.mem_map_of_mem hl₁)⟩
  have hpath₁ := Lib.run_of_exec hexec hw₁
  have hpath := Lib.run_of_exec hexec hw
  have hr := (hissue₁.reachable ((hissue₀.reachable hr₀).trans hpath₁)).trans hpath
  have hsup : Superseded Sample.deployment l.token w :=
    ⟨w₀, op₀, out₀, hr₀, hissue₀, w₁, _, out₁, l₁.token, hpath₁, rfl, hissue₁, hid, hpath⟩
  unfold Sample.lateBind at hop
  split at hop
  · cases hop
    exact ⟨w, _, out, l, _, hr, rfl, hsup, hheld, Orchestration.toOption_eq_some hrun⟩
  · cases hop

/-- The worker that comes back is told that its run is bound. -/
theorem result_fencing_sample : ∃ w op out l receipt, op = Op.bindSubmission l receipt ∧
    Superseded Sample.deployment l.token w ∧
    op.run Sample.deployment.ports w.app.db.toTables w.db (seconds 101) = .ok out ∧
    out.db = w.db ∧ op.Replayed w.db := by
  obtain ⟨w, op, out, l, receipt, hr, rfl, hsup, hheld, hrun⟩ := late_bind_returns
  exact ⟨w, _, out, l, receipt, rfl, hsup, hrun, (result_fencing hr hheld hrun).2 _ rfl hsup⟩

/-- A superseded lease does not make every operation raise. -/
theorem superseded_lease_returns : ¬ ∀ (w : World) (op : Op) (t : Token) (now : Time),
    Reachable Sample.deployment w → op.Held w → op.token = some t →
      Superseded Sample.deployment t w →
      ∃ e, op.run Sample.deployment.ports w.app.db.toTables w.db now = .error e := by
  intro hall
  obtain ⟨w, op, out, l, receipt, hr, rfl, hsup, hheld, hrun⟩ := late_bind_returns
  obtain ⟨e, he⟩ := hall w _ l.token (seconds 101) hr hheld rfl hsup
  rw [hrun] at he
  cases he

end Sana.Shadow
