import Sana.Shadow.Proof.Effect

/-!
# What happens to the budget of a submitted unit

A submission attempt is recorded before the request leaves, so from then on the
service may have run the unit and its budget must not be given back: it stays
reserved or is settled. `release_run_budget` looks at the attempt counter. The
failure path does not: it goes by the flag of the failure, which is derived from the
last HTTP outcome only. The budget of a submitted unit is accounted for in every run
in which failures after an attempt carry the flag, and not in others.
-/

namespace Sana.Shadow

open Sana.Lib

/-- The budget of a unit that may have been submitted is reserved or settled. -/
def RunResult.SpendAccounted (r : RunResult) : Prop :=
  0 < r.submissionAttemptCount → r.reservationState = .active ∨ r.reservationState = .settled

/--
A failure of a unit under lease that has a recorded submission attempt is reported as
possibly billed.
-/
def BilledFailures (w : World) : Label → Prop
  | .transact _ (.fail lease failure _) =>
      ∀ r ∈ w.db.results, r.campaignId = lease.campaignId → r.id = lease.id →
        r.isLeased = true → 0 < r.submissionAttemptCount → failure.possiblyBilled = true
  | _ => True

/-! ## Two rows -/

section TwoRows

variable {c c' : Campaign} {r r' : RunResult} {now : Time}

theorem spendAccounted_congr (hcount : r'.submissionAttemptCount = r.submissionAttemptCount)
    (hstate : r'.reservationState = r.reservationState) (h : r.SpendAccounted) :
    r'.SpendAccounted := by
  unfold RunResult.SpendAccounted at h ⊢
  rw [hcount, hstate]
  exact h

theorem spendAccounted_of_settled (h : r.reservationState = .settled) : r.SpendAccounted :=
  fun _ => .inr h

theorem settling_spendAccounted {digest : String} {usage : SettlementUsage}
    (h : Settling now digest usage c r c' r') (hp : r.SpendAccounted) : r'.SpendAccounted := by
  cases h with
  | again _ => exact hp
  | first _ _ _ _ => exact spendAccounted_of_settled rfl

/-- A failure gives the reservation back only where nothing was attempted. -/
theorem failReservation_spendAccounted {failure : RunnerFailure} {digest : String}
    (hbilled : 0 < r.submissionAttemptCount → failure.possiblyBilled = true)
    (h : failReservation now failure digest c r = .ok (c', r')) (hp : r.SpendAccounted) :
    r'.SpendAccounted := by
  unfold failReservation at h
  split at h
  · split at h
    · cases h
      exact spendAccounted_of_settled rfl
    · rename_i hnot
      cases h
      intro hcount
      exact absurd (hbilled hcount) hnot
  · cases h
    exact hp
  · cases h
  · cases h

theorem change_spendAccounted {op : Op}
    (hbilled : ∀ lease failure digest, op = .fail lease failure digest → r.isLeased = true →
      0 < r.submissionAttemptCount → failure.possiblyBilled = true)
    (h : Change op now c r c' r') (hp : r.SpendAccounted) : r'.SpendAccounted := by
  cases h with
  | held h _ => exact spendAccounted_congr h.submissionAttemptCount h.reservationState hp
  | bound _ _ _ => exact spendAccounted_congr rfl rfl hp
  | attempted _ hactive => exact fun _ => .inl hactive
  | reserved _ _ _ => exact fun _ => .inl rfl
  | refused _ => exact spendAccounted_congr rfl rfl hp
  | released _ hcount =>
      intro hpos
      have hzero : 0 < r.submissionAttemptCount := hpos
      omega
  | submitted _ _ _ => exact spendAccounted_congr rfl rfl hp
  | failed hop hleased h =>
      have hres := failReservation_spendAccounted (hbilled _ _ _ hop hleased) h hp
      exact spendAccounted_congr rfl rfl hres
  | settled _ _ h => exact settling_spendAccounted (settleRows_ok h) hp
  | sealed _ _ _ _ h =>
      exact settling_spendAccounted (settleRows_ok h) (spendAccounted_congr rfl rfl hp)
  | collected _ _ _ _ h =>
      have hset := settling_spendAccounted (settleRows_ok h) (spendAccounted_congr rfl rfl hp)
      exact spendAccounted_congr rfl rfl hset

end TwoRows

/-! ## Runs -/

/-- Every result's spend is accounted for. -/
def SpendInv (db : Db) : Prop := ∀ r ∈ db.results, r.SpendAccounted

theorem spendInv_empty : SpendInv Db.empty := by
  intro r hr
  simp [Db.empty] at hr

theorem spendInv_effect {ports : Orchestration.Ports} {op : Op} {w : World} {db' : Db} {now : Time}
    (hok : BilledFailures w (.transact now op)) (he : Effect ports op now w.db db')
    (hp : SpendInv w.db) : SpendInv db' := by
  intro y hy
  cases he.origin hy with
  | kept hy => exact hp y hy
  | planned =>
      intro hpos
      simp at hpos
  | skipped _ hr _ =>
      refine spendAccounted_congr ?_ ?_ (hp _ hr)
      · rfl
      · rfl
  | changed _ hr hcr htarget _ hch =>
      refine change_spendAccounted ?_ hch (hp _ hr)
      intro lease failure digest hop hleased
      subst hop
      -- the row the failure is about is the one the lease names
      have ht := htarget (lease.campaignId, lease.id) rfl
      simp only [Prod.mk.injEq] at ht
      exact hok _ hr (hcr.trans ht.1.symm) ht.2.symm hleased

/--
**No unaccounted spend, while failures after an attempt are reported as possibly
billed.** In every run whose failures do, the reservation of a result with a recorded
submission attempt is active or settled, never released.
-/
theorem spend_accounted {d : Orchestration.Deployment} {w : World}
    (h : ReachableBy d BilledFailures w) {r : RunResult} (hr : r ∈ w.db.results)
    (hpos : 0 < r.submissionAttemptCount) :
    r.reservationState = .active ∨ r.reservationState = .settled := by
  have hinv : SpendInv w.db := by
    refine tables_invariant (P := SpendInv) spendInv_empty ?_ h
    intro w now op db' hok he hp
    exact spendInv_effect hok he hp
  exact hinv r hr hpos

instance (w : World) : (label : Label) → Decidable (BilledFailures w label)
  | .transact now op => by
      apply @Op.casesOn (fun op => Decidable (BilledFailures w (.transact now op))) op <;> intros <;>
        unfold BilledFailures <;> infer_instance
  | .service | .lost _ _ | .strayed _ _ | .send _ _ | .serve _ _ _ => isTrue trivial

/-- A unit whose submission timed out and is reported as possibly billed. -/
theorem spend_accounted_sample : ∃ w, ReachableBy Sample.deployment BilledFailures w ∧
    ∃ r ∈ w.db.results, 0 < r.submissionAttemptCount ∧ r.schedulingState = .failed ∧
      (r.reservationState = .active ∨ r.reservationState = .settled) := by
  obtain ⟨w, hr, hp⟩ := exists_reachable Sample.deployment BilledFailures
    (Sample.started ++ Sample.bound 0 ++ [.transact 9 fun w => Sample.last w fun lease =>
      .fail lease (apiFailure ⟨"transport_exhausted", true, true⟩) Sample.digest])
    (fun w => w.db.results.any fun r => 0 < r.submissionAttemptCount
      && r.schedulingState = .failed) (by decide +kernel)
  simp only [List.any_eq_true, Bool.and_eq_true, decide_eq_true_eq] at hp
  obtain ⟨r, hmem, hpos, hst⟩ := hp
  exact ⟨w, hr, r, hmem, hpos, hst, spend_accounted hr hmem hpos⟩

/--
The service answers the submission with status 200 and a body that cannot be read.
The client calls that final and not committed, the worker stops the campaign and fails
the unit, and its reservation is released although a submission was attempted.
-/
theorem spend_released : ∃ w, Reachable Sample.deployment w ∧
    ∃ r ∈ w.db.results, 0 < r.submissionAttemptCount ∧ r.reservationState = .released := by
  obtain ⟨w, hr, hp⟩ := exists_reachable Sample.deployment (fun _ _ => True)
    (Sample.started ++ Sample.bound 0 ++ [
      .transact 8 fun _ => some (.mutate (some Sample.owner) Sample.campaignId
        (.requestStop .fatal "invalid_response")),
      .transact 9 fun w =>
        match request 3 [HttpOutcome.status 200 (none : Option CandidateSubmissionReceipt)] with
        | .error error => Sample.last w fun lease =>
            .fail lease (apiFailure error) Sample.digest
        | .ok _ => none])
    (fun w => w.db.results.any fun r => 0 < r.submissionAttemptCount
      && r.reservationState = .released) (by decide +kernel)
  simp only [List.any_eq_true, Bool.and_eq_true, decide_eq_true_eq] at hp
  exact ⟨w, hr, hp⟩

end Sana.Shadow
