import Sana.Shadow.Schedule

/-!
# Run plans are complete, and reviews are spread over the strata

The cases of a valid manifest fall into the four strata, so taking the strata in turn loses
no case; a run stands for one case and one repetition. Which runs are reviewed depends on the
digests alone: within a stratum the first run of a case represents it, and the cases with the
smallest representatives are taken.

The candidates are the cases of the whole manifest. A smoke profile plans only the smoke
cases, so a chosen run is planned only if its case is one of them.
-/

namespace Sana.Shadow.Schedule

open Sana.Lib Orchestration Manifest

/-! ## Taking lists in turn -/

section Interleave

variable {α : Type} {a : List α} {lists : List (List α)} {n : Nat}

theorem flatMap_getElem? (h : a.length ≤ n) :
    ((List.range n).flatMap fun i => a[i]?.toList) = a := by
  induction a generalizing n with
  | nil => simp
  | cons x a ih =>
      cases n with
      | zero => simp at h
      | succ n =>
          rw [List.range_succ_eq_map, List.flatMap_cons, List.flatMap_map]
          have hrest := ih (n := n) (by simpa using h)
          simpa using hrest

/-- Taking lists in turn takes everything there is. -/
theorem interleave_perm (h : ∀ a ∈ lists, a.length ≤ n) : (interleave n lists).Perm lists.flatten := by
  induction lists with
  | nil => simp [interleave]
  | cons a lists ih =>
      have hsplit : interleave n (a :: lists)
          = (List.range n).flatMap fun i => a[i]?.toList ++ lists.filterMap (·[i]?) := by
        unfold interleave
        refine List.flatMap_congr fun i _ => ?_
        cases hi : a[i]? with
        | none => rw [List.filterMap_cons, hi]; rfl
        | some x => rw [List.filterMap_cons, hi]; rfl
      rw [hsplit, List.flatten_cons]
      refine (List.flatMap_append_perm _ _ _).symm.trans ?_
      rw [flatMap_getElem? (h a List.mem_cons_self)]
      exact (ih fun b hb => h b (List.mem_cons_of_mem _ hb)).append_left a

theorem length_le_foldr_max {ns : List Nat} {m : Nat} (h : m ∈ ns) : m ≤ ns.foldr max 0 := by
  induction ns with
  | nil => cases h
  | cons k ns ih =>
      rw [List.foldr_cons]
      rcases List.mem_cons.mp h with rfl | h
      · exact le_max_left _ _
      · exact (ih h).trans (le_max_right _ _)

end Interleave

/-! ## Valid manifests -/

section Cases

variable {cases cases' : List ShadowCase} {c d : ShadowCase} {s : Stratum}

/-- What the distribution of a valid manifest gives. -/
structure Distributed (cases : List ShadowCase) : Prop where
  distinct : (cases.map (·.id)).Nodup
  answerable : ∀ s ∈ strata, 5 ≤ cases.countP fun c => c.stratum = s && c.isAnswerable

theorem CaseFields.stratum_mem (c : ShadowCase) : c.stratum ∈ strata := by
  have h := c.valid
  simp only [CaseFields.postInit, bind_ok_iff, check_eq_ok, Bool.or_eq_true,
    decide_eq_true_eq] at h
  obtain ⟨-, -, -, -, -, hlocale, -⟩ := h
  unfold CaseFields.stratum strata
  rcases hlocale with hl | hl <;> rw [hl] <;> cases c.expectedMode <;> decide

theorem distributed_of_valid {casefold : String → String} {now : Time} {window : Duration}
    (h : validateDistribution casefold cases now window = .ok ()) : Distributed cases := by
  simp only [validateDistribution, bind_ok_iff, check_eq_ok, decide_eq_true_eq] at h
  obtain ⟨-, -, -, hdistinct, -, -, -, -, _, hstrata, -⟩ := h
  refine ⟨hdistinct, fun s hs => ?_⟩
  have hpair : s ∈ stratumPairs := by
    have hsub : ∀ s ∈ strata, s ∈ stratumPairs := by decide
    exact hsub s hs
  have hchecks := forM_ok_iff.mp hstrata s hpair
  simp only [checkStratum, bind_ok_iff, check_eq_ok, decide_eq_true_eq] at hchecks
  exact hchecks.choose_spec.1

/-! ## The order of the cases -/

theorem mem_grouped : c ∈ grouped cases s ↔ c ∈ cases ∧ c.stratum = s := by
  rw [grouped, mem_rank, List.mem_filter, decide_eq_true_eq]

theorem nodup_grouped (h : (cases.map (·.id)).Nodup) : ((strata.map (grouped cases)).flatten).Nodup := by
  rw [List.nodup_flatten]
  constructor
  · intro l hl
    obtain ⟨s, -, rfl⟩ := List.mem_map.mp hl
    exact (rank_perm _ _).nodup_iff.mpr ((nodup_of_keys h).filter _)
  · rw [List.pairwise_map]
    have hstrata : strata.Nodup := by decide
    refine hstrata.imp fun {s t} hne c hs ht => ?_
    exact hne ((mem_grouped.mp hs).2.symm.trans (mem_grouped.mp ht).2)

/-- The four groups hold all cases. -/
theorem grouped_perm (h : (cases.map (·.id)).Nodup) :
    ((strata.map (grouped cases)).flatten).Perm cases := by
  refine (List.perm_ext_iff_of_nodup (nodup_grouped h) (nodup_of_keys h)).mpr fun c => ?_
  rw [List.mem_flatten]
  constructor
  · rintro ⟨l, hl, hc⟩
    obtain ⟨s, -, rfl⟩ := List.mem_map.mp hl
    exact (mem_grouped.mp hc).1
  · intro hc
    exact ⟨_, List.mem_map_of_mem (CaseFields.stratum_mem c), mem_grouped.mpr ⟨hc, rfl⟩⟩

/-- **Ordering the cases keeps them all.** -/
theorem orderedCases_ok (h : (cases.map (·.id)).Nodup) :
    ∃ ordered, orderedCases cases = .ok ordered ∧ ordered.Perm cases := by
  have hlength := (grouped_perm h).length_eq
  rw [List.length_flatten] at hlength
  let groups := strata.map (grouped cases)
  refine ⟨interleave ((groups.map List.length).foldr max 0) groups, ?_, ?_⟩
  · rw [orderedCases, decide_eq_true hlength]
    rfl
  · refine (interleave_perm fun a ha => ?_).trans (grouped_perm h)
    exact length_le_foldr_max (List.mem_map_of_mem ha)

/-- The order does not depend on the order of the manifest. -/
theorem orderedCases_perm (h : (cases.map (·.id)).Nodup) (hperm : cases'.Perm cases) :
    orderedCases cases' = orderedCases cases := by
  have hgroup : ∀ s, grouped cases' s = grouped cases s := by
    intro s
    refine rank_eq_of_perm (hperm.filter _) fun a ha b hb hab => ?_
    have hmem : ∀ x ∈ cases'.filter (·.stratum = s), x ∈ cases :=
      fun x hx => hperm.mem_iff.mp (List.mem_of_mem_filter hx)
    exact eq_of_key_eq h (hmem a ha) (hmem b hb) hab
  have hgroups : strata.map (grouped cases') = strata.map (grouped cases) :=
    List.map_congr_left fun s _ => hgroup s
  rw [orderedCases, orderedCases, hgroups, hperm.length_eq]

end Cases

/-! ## Representatives -/

/-- **The loop takes the first run of each case, up to the number of cases.** -/
theorem choose_eq {n : Nat} {chosen : List String} (l : List ReviewUnit) (h : chosen.length < n) :
    choose n chosen l
      = ((distinctBy (·.caseId) l).filter (·.caseId ∉ chosen)).take (n - chosen.length) := by
  induction l generalizing chosen with
  | nil => simp [choose, distinctBy]
  | cons u l ih =>
      rw [choose, distinctBy]
      by_cases hu : u.caseId ∈ chosen
      · rw [if_pos hu, ih h, List.filter_cons_of_neg (by simpa using hu), List.filter_filter]
        congr 1
        refine List.filter_congr fun v _ => ?_
        by_cases hv : v.caseId ∈ chosen
        · simp [hv]
        · have hne : v.caseId ≠ u.caseId := fun heq => hv (heq ▸ hu)
          simp [hv, hne]
      · rw [if_neg hu, List.filter_cons_of_pos (by simpa using hu)]
        obtain ⟨k, hk⟩ : ∃ k, n - chosen.length = k + 1 := ⟨n - chosen.length - 1, by omega⟩
        rw [hk, List.take_succ_cons]
        by_cases hlast : chosen.length + 1 = n
        · have hzero : k = 0 := by omega
          rw [if_pos hlast, hzero, List.take_zero]
        · rw [if_neg hlast, ih (by rw [List.length_cons]; omega), List.filter_filter]
          congr 2
          · rw [List.length_cons]
            omega
          · refine List.filter_congr fun v _ => ?_
            by_cases hv : v.caseId ∈ chosen <;> by_cases hne : v.caseId = u.caseId <;> simp [hv, hne]

section Ranks

variable (b : Builtins) (campaignId : Uuid) {cases cases' : List ShadowCase} {c d : ShadowCase}
  {repetitions n : Nat} {s : Stratum} {u v : ReviewUnit}

/-- The answerable runs of a stratum in the order of their digests. -/
def ranked (cases : List ShadowCase) (repetitions : Nat) (s : Stratum) : List ReviewUnit :=
  rank ReviewUnit.key (candidates b campaignId cases repetitions s)

/-- The first run of every answerable case of a stratum. -/
def representatives (cases : List ShadowCase) (repetitions : Nat) (s : Stratum) : List ReviewUnit :=
  distinctBy (·.caseId) (ranked b campaignId cases repetitions s)

variable {b campaignId}

theorem mem_candidates : u ∈ candidates b campaignId cases repetitions s ↔
    ∃ c ∈ cases, (c.stratum = s ∧ c.isAnswerable = true) ∧
      ∃ r, (1 ≤ r ∧ r ≤ repetitions) ∧ reviewUnit b campaignId c r = u := by
  simp only [candidates, List.mem_flatMap, List.mem_filter, List.mem_map, List.mem_range'_1,
    Bool.and_eq_true, decide_eq_true_eq]
  constructor
  · rintro ⟨c, ⟨hc, hs⟩, r, hr, rfl⟩
    exact ⟨c, hc, hs, r, ⟨hr.1, by omega⟩, rfl⟩
  · rintro ⟨c, hc, hs, r, hr, rfl⟩
    exact ⟨c, ⟨hc, hs⟩, r, ⟨hr.1, by omega⟩, rfl⟩

theorem key_inj (h : u.key = v.key) : u.caseId = v.caseId ∧ u.repetition = v.repetition := by
  unfold ReviewUnit.key at h
  have hpair := toLex.injective (Prod.mk.inj (toLex.injective h)).2
  exact Prod.mk.inj hpair

/-- The key tells the candidates of a stratum apart. -/
theorem candidates_inj (hnd : (cases.map (·.id)).Nodup)
    (hu : u ∈ candidates b campaignId cases repetitions s)
    (hv : v ∈ candidates b campaignId cases repetitions s) (h : u.key = v.key) : u = v := by
  obtain ⟨c, hc, -, r, -, rfl⟩ := mem_candidates.mp hu
  obtain ⟨d, hd, -, t, -, rfl⟩ := mem_candidates.mp hv
  obtain ⟨hid, hr⟩ := key_inj h
  obtain rfl := eq_of_key_eq hnd hc hd hid
  rw [show r = t from hr]

theorem ranked_perm (hnd : (cases.map (·.id)).Nodup) (hperm : cases'.Perm cases) :
    ranked b campaignId cases' repetitions s = ranked b campaignId cases repetitions s := by
  have hcand : (candidates b campaignId cases' repetitions s).Perm
      (candidates b campaignId cases repetitions s) := (hperm.filter _).flatMap_right _
  refine rank_eq_of_perm hcand fun u hu v hv h => ?_
  exact candidates_inj hnd (hcand.mem_iff.mp hu) (hcand.mem_iff.mp hv) h

theorem mem_ranked : u ∈ ranked b campaignId cases repetitions s ↔
    u ∈ candidates b campaignId cases repetitions s := mem_rank

/-- A representative is a candidate, and no candidate of its case comes before it. -/
theorem mem_representatives (hu : u ∈ representatives b campaignId cases repetitions s) :
    u ∈ candidates b campaignId cases repetitions s ∧
    ∀ v ∈ candidates b campaignId cases repetitions s, v.caseId = u.caseId → u.key ≤ v.key := by
  refine ⟨mem_ranked.mp (mem_of_mem_distinctBy hu), fun v hv hcase => ?_⟩
  exact le_of_mem_distinctBy (pairwise_rank _ _) hu (mem_ranked.mpr hv) hcase

theorem nodup_representatives :
    ((representatives b campaignId cases repetitions s).map (·.caseId)).Nodup := nodup_distinctBy _

theorem pairwise_representatives :
    (representatives b campaignId cases repetitions s).Pairwise fun u v => u.key < v.key := by
  have hsub := distinctBy_sublist (fun u : ReviewUnit => u.caseId)
    (ranked b campaignId cases repetitions s)
  have hle := (pairwise_rank ReviewUnit.key (candidates b campaignId cases repetitions s)).sublist hsub
  have hne : (representatives b campaignId cases repetitions s).Pairwise
      fun u v => u.caseId ≠ v.caseId := List.pairwise_map.mp nodup_representatives
  refine (hle.and hne).imp fun {u v} h => lt_of_le_of_ne h.1 fun hkey => h.2 (key_inj hkey).1

/-- Every answerable case of a stratum has its representative. -/
theorem exists_representative (hrep : 1 ≤ repetitions) (hc : c ∈ cases) (hs : c.stratum = s)
    (ha : c.isAnswerable = true) :
    ∃ u ∈ representatives b campaignId cases repetitions s, u.caseId = c.id := by
  have hcand : reviewUnit b campaignId c 1 ∈ candidates b campaignId cases repetitions s :=
    mem_candidates.mpr ⟨c, hc, ⟨hs, ha⟩, 1, ⟨le_refl _, hrep⟩, rfl⟩
  exact exists_mem_distinctBy _ (mem_ranked.mpr hcand)

/-- The representatives stand for the answerable cases of their stratum. -/
theorem representatives_ids (hnd : (cases.map (·.id)).Nodup) (hrep : 1 ≤ repetitions) :
    ((representatives b campaignId cases repetitions s).map (·.caseId)).Perm
      ((cases.filter fun c => c.stratum = s && c.isAnswerable).map (·.id)) := by
  refine (List.perm_ext_iff_of_nodup nodup_representatives
    (hnd.sublist (List.filter_sublist.map _))).mpr fun id => ?_
  simp only [List.mem_map, List.mem_filter, Bool.and_eq_true, decide_eq_true_eq]
  constructor
  · rintro ⟨u, hu, rfl⟩
    obtain ⟨c, hc, hs, r, -, rfl⟩ := mem_candidates.mp (mem_representatives hu).1
    exact ⟨c, ⟨hc, hs⟩, rfl⟩
  · rintro ⟨c, ⟨hc, hs, ha⟩, rfl⟩
    exact exists_representative hrep hc hs ha

theorem length_representatives (hnd : (cases.map (·.id)).Nodup) (hrep : 1 ≤ repetitions) :
    (representatives b campaignId cases repetitions s).length
      = cases.countP fun c => c.stratum = s && c.isAnswerable := by
  have h := (@representatives_ids b campaignId cases repetitions s hnd hrep).length_eq
  rwa [List.length_map, List.length_map, ← List.countP_eq_length_filter] at h

/-! ## Which cases are taken -/

variable (b campaignId)

/-- Some run of one case comes before every run of another. -/
def ranksBefore (repetitions : Nat) (c d : ShadowCase) : Bool :=
  (List.range' 1 repetitions).any fun r => (List.range' 1 repetitions).all fun t =>
    decide ((reviewUnit b campaignId c r).key < (reviewUnit b campaignId d t).key)

/-- How many answerable cases of its stratum are ranked before a case. -/
def rankOf (cases : List ShadowCase) (repetitions : Nat) (c : ShadowCase) : Nat :=
  cases.countP fun d => d.stratum = c.stratum && d.isAnswerable
    && ranksBefore b campaignId repetitions d c

variable {b campaignId}

theorem ranksBefore_iff : ranksBefore b campaignId repetitions c d = true ↔
    ∃ r, (1 ≤ r ∧ r ≤ repetitions) ∧ ∀ t, 1 ≤ t ∧ t ≤ repetitions →
      (reviewUnit b campaignId c r).key < (reviewUnit b campaignId d t).key := by
  have hrange : ∀ r, r ∈ List.range' 1 repetitions ↔ 1 ≤ r ∧ r ≤ repetitions := by
    intro r
    rw [List.mem_range'_1]
    omega
  simp only [ranksBefore, List.any_eq_true, List.all_eq_true, decide_eq_true_eq, hrange]

/-- A representative comes before another if its case is ranked before the other's. -/
theorem key_lt_iff (hnd : (cases.map (·.id)).Nodup)
    (hu : u ∈ representatives b campaignId cases repetitions s)
    (hv : v ∈ representatives b campaignId cases repetitions s) (hc : c ∈ cases) (hd : d ∈ cases)
    (huc : u.caseId = c.id) (hvd : v.caseId = d.id) :
    u.key < v.key ↔ ranksBefore b campaignId repetitions c d = true := by
  obtain ⟨hucand, humin⟩ := mem_representatives hu
  obtain ⟨hvcand, hvmin⟩ := mem_representatives hv
  obtain ⟨c', hc', hcs, r, hr, rfl⟩ := mem_candidates.mp hucand
  obtain ⟨d', hd', hds, t, ht, rfl⟩ := mem_candidates.mp hvcand
  obtain rfl := eq_of_key_eq hnd hc' hc huc
  obtain rfl := eq_of_key_eq hnd hd' hd hvd
  rw [ranksBefore_iff]
  constructor
  · intro hlt
    refine ⟨r, hr, fun t' ht' => lt_of_lt_of_le hlt ?_⟩
    exact hvmin _ (mem_candidates.mpr ⟨d', hd', hds, t', ht', rfl⟩) rfl
  · rintro ⟨r', hr', hall⟩
    refine lt_of_le_of_lt ?_ (hall t ht)
    exact humin _ (mem_candidates.mpr ⟨c', hc', hcs, r', hr', rfl⟩) rfl

/-- The place of a representative is the rank of its case. -/
theorem countP_before (hnd : (cases.map (·.id)).Nodup) (hrep : 1 ≤ repetitions)
    (hu : u ∈ representatives b campaignId cases repetitions c.stratum) (hc : c ∈ cases)
    (huc : u.caseId = c.id) :
    ((representatives b campaignId cases repetitions c.stratum).countP
        fun v => decide (v.key < u.key))
      = rankOf b campaignId cases repetitions c := by
  let before (id : String) : Bool := (representatives b campaignId cases repetitions c.stratum).any
    fun v => v.caseId = id && decide (v.key < u.key)
  -- both sides count the identifiers of the cases before it
  have hleft : (representatives b campaignId cases repetitions c.stratum).countP
        (fun v => decide (v.key < u.key))
      = ((representatives b campaignId cases repetitions c.stratum).map (·.caseId)).countP before := by
    rw [List.countP_map]
    refine List.countP_congr fun v hv => ?_
    simp only [before, Function.comp_apply, List.any_eq_true, Bool.and_eq_true, decide_eq_true_eq]
    constructor
    · intro hlt
      exact ⟨v, hv, rfl, hlt⟩
    · rintro ⟨w, hw, hid, hlt⟩
      rwa [eq_of_key_eq nodup_representatives hw hv hid] at hlt
  have hright : rankOf b campaignId cases repetitions c
      = ((cases.filter fun d => d.stratum = c.stratum && d.isAnswerable).map (·.id)).countP before := by
    rw [List.countP_map, List.countP_filter, rankOf]
    refine List.countP_congr fun d hd => ?_
    by_cases hds : (decide (d.stratum = c.stratum) && d.isAnswerable) = true
    · rw [hds, Bool.true_and, Function.comp_apply, Bool.and_true]
      rw [Bool.and_eq_true, decide_eq_true_eq] at hds
      obtain ⟨v, hv, hvd⟩ := @exists_representative b campaignId cases d repetitions _ hrep
        hd hds.1 hds.2
      rw [← key_lt_iff hnd hv hu hd hc hvd huc]
      simp only [before, List.any_eq_true, Bool.and_eq_true, decide_eq_true_eq]
      constructor
      · intro hlt
        exact ⟨v, hv, hvd, hlt⟩
      · rintro ⟨w, hw, hid, hlt⟩
        rwa [eq_of_key_eq nodup_representatives hw hv (hid.trans hvd.symm)] at hlt
    · rw [Bool.not_eq_true] at hds
      rw [hds, Bool.false_and, Bool.and_false]
  rw [hleft, hright]
  exact (representatives_ids hnd hrep).countP_eq _

/-- **A case is taken if it has a place among the first.** -/
theorem mem_take_representatives (hnd : (cases.map (·.id)).Nodup) (hrep : 1 ≤ repetitions)
    (hu : u ∈ representatives b campaignId cases repetitions c.stratum) (hc : c ∈ cases)
    (huc : u.caseId = c.id) :
    u ∈ (representatives b campaignId cases repetitions c.stratum).take n ↔
      rankOf b campaignId cases repetitions c < n := by
  rw [mem_take_iff pairwise_representatives, countP_before hnd hrep hu hc huc]
  exact and_iff_right hu

/-! ## The selection -/

theorem selectStratum_ok (hnd : (cases.map (·.id)).Nodup) (hrep : 1 ≤ repetitions) (hn : 1 ≤ n)
    (hcount : n ≤ cases.countP fun c => c.stratum = s && c.isAnswerable) :
    selectStratum b campaignId cases repetitions n s
      = .ok ((representatives b campaignId cases repetitions s).take n) := by
  have hchoose : choose n [] (rank ReviewUnit.key (candidates b campaignId cases repetitions s))
      = (representatives b campaignId cases repetitions s).take n := by
    rw [choose_eq _ (by rw [List.length_nil]; omega)]
    have hall : ∀ l : List ReviewUnit, l.filter (fun u => decide (u.caseId ∉ [])) = l :=
      fun l => List.filter_eq_self.mpr fun u _ => by simp
    rw [hall]
    rfl
  have hlength : ((representatives b campaignId cases repetitions s).take n).length = n := by
    rw [List.length_take, length_representatives hnd hrep]
    omega
  rw [selectStratum, hchoose, decide_eq_true hlength]
  rfl

/-- What is selected from the manifest. -/
def reviewed (b : Builtins) (campaignId : Uuid) (cases : List ShadowCase) (repetitions n : Nat) :
    List ReviewUnit :=
  stratumPairs.flatMap fun s => (representatives b campaignId cases repetitions s).take n

theorem selectReviewUnits_ok (hnd : (cases.map (·.id)).Nodup) (hrep : 1 ≤ repetitions) (hn : 1 ≤ n)
    (hcount : ∀ s ∈ strata, n ≤ cases.countP fun c => c.stratum = s && c.isAnswerable) :
    selectReviewUnits b campaignId cases repetitions n
      = .ok (reviewed b campaignId cases repetitions n) := by
  have hstratum : ∀ s ∈ strata, selectStratum b campaignId cases repetitions n s
      = .ok ((representatives b campaignId cases repetitions s).take n) :=
    fun s hs => selectStratum_ok hnd hrep hn (hcount s hs)
  have hpositive : (!(decide (repetitions < 1) || decide (n < 1))) = true := by
    simp only [Bool.not_eq_true', Bool.or_eq_false_iff, decide_eq_false_iff_not]
    omega
  rw [selectReviewUnits, hpositive]
  simp only [stratumPairs, List.mapM_cons, List.mapM_nil,
    hstratum (.fast, "zh-CN") (by decide), hstratum (.fast, "en") (by decide),
    hstratum (.research, "zh-CN") (by decide), hstratum (.research, "en") (by decide)]
  rfl

theorem selectReviewUnits_perm (hnd : (cases.map (·.id)).Nodup) (hperm : cases'.Perm cases) :
    selectReviewUnits b campaignId cases' repetitions n
      = selectReviewUnits b campaignId cases repetitions n := by
  have hstratum : ∀ s, selectStratum b campaignId cases' repetitions n s
      = selectStratum b campaignId cases repetitions n s := by
    intro s
    have hranked : rank ReviewUnit.key (candidates b campaignId cases' repetitions s)
        = rank ReviewUnit.key (candidates b campaignId cases repetitions s) := ranked_perm hnd hperm
    rw [selectStratum, selectStratum, hranked]
  rw [selectReviewUnits, selectReviewUnits, funext hstratum]

end Ranks

/-! ## The runs -/

section Runs

variable {ordered : List ShadowCase} {repetitions : Nat}

theorem mem_runs {x : Nat × ShadowCase} : x ∈ runs repetitions ordered ↔
    (1 ≤ x.1 ∧ x.1 ≤ repetitions) ∧ x.2 ∈ ordered := by
  simp only [runs, List.mem_flatMap, List.mem_map, List.mem_range'_1]
  constructor
  · rintro ⟨r, hr, c, hc, rfl⟩
    exact ⟨⟨hr.1, by omega⟩, hc⟩
  · rintro ⟨hr, hc⟩
    exact ⟨x.1, ⟨hr.1, by omega⟩, x.2, hc, rfl⟩

theorem length_runs : (runs repetitions ordered).length = ordered.length * repetitions := by
  rw [runs, List.length_flatMap]
  simp [List.map_const', Nat.mul_comm]

/-- A run stands for one case and one repetition. -/
theorem nodup_runs (hnd : (ordered.map (·.id)).Nodup) :
    ((runs repetitions ordered).map fun x => (x.2.id, x.1)).Nodup := by
  rw [runs, List.map_flatMap, List.nodup_flatMap]
  constructor
  · intro r _
    rw [List.map_map]
    have hid : (ordered.map (·.id)).Pairwise (· ≠ ·) := hnd
    rw [List.pairwise_map] at hid
    exact List.pairwise_map.mpr (hid.imp fun hne h => hne (Prod.mk.inj h).1)
  · have hrange : (List.range' 1 repetitions).Pairwise (· ≠ ·) := List.nodup_range'
    refine hrange.imp fun {r t} hne x hr ht => ?_
    obtain ⟨y, hy, rfl⟩ := List.mem_map.mp hr
    obtain ⟨z, hz, hyz⟩ := List.mem_map.mp ht
    obtain ⟨c, -, rfl⟩ := List.mem_map.mp hy
    obtain ⟨d, -, rfl⟩ := List.mem_map.mp hz
    exact hne (Prod.mk.inj hyz).2.symm

end Runs

/-! ## The plan -/

section Plan

variable {b : Builtins} {campaignId : Uuid} {m : ShadowManifest} {profile : CampaignProfile}
  {requiredReviews : Int} {plans : List RunPlan} {c : ShadowCase} {u : ReviewUnit} {s : Stratum}

/-- The manifest and the profile fit, and the strata can provide the reviews. -/
structure Admits (m : ShadowManifest) (profile : CampaignProfile) (requiredReviews : Int) : Prop where
  runs : (profile.selectedCases m).length * profile.repetitions = profile.maxRuns
  divides : 0 ≤ requiredReviews ∧ requiredReviews % 4 = 0
  provided : ∀ s ∈ strata,
    requiredReviews / 4 ≤ m.cases.countP fun c => c.stratum = s && c.isAnswerable

/-- The plans, from the cases in their order. -/
def plansOf (b : Builtins) (campaignId : Uuid) (selected : List (String × Nat)) (repetitions : Nat)
    (ordered : List ShadowCase) : List RunPlan :=
  (runs repetitions ordered).zipIdx.map fun x =>
    runPlan b campaignId selected x.1.1 x.1.2 (x.2 + 1)

/-- The runs that are selected for a review. -/
def selectedRuns (b : Builtins) (campaignId : Uuid) (cases : List ShadowCase)
    (repetitions n : Nat) : List (String × Nat) :=
  (reviewed b campaignId cases repetitions n).map fun u => (u.caseId, u.repetition)

theorem selectedCases_sublist : (profile.selectedCases m).Sublist m.cases := by
  unfold CampaignProfile.selectedCases
  split
  · exact List.filter_sublist
  · exact List.Sublist.refl _

theorem nodup_selectedCases (hnd : (m.cases.map (·.id)).Nodup) :
    ((profile.selectedCases m).map (·.id)).Nodup := hnd.sublist (selectedCases_sublist.map _)

/-- **What is materialized.** -/
theorem materialize_ok (hnd : (m.cases.map (·.id)).Nodup) (ha : Admits m profile requiredReviews) :
    ∃ ordered, ordered.Perm (profile.selectedCases m) ∧
      materializeRunPlans b campaignId m profile requiredReviews
        = .ok (plansOf b campaignId (selectedRuns b campaignId m.cases profile.repetitions
            (requiredReviews / 4).toNat) profile.repetitions ordered) := by
  obtain ⟨ordered, hordered, hperm⟩ := orderedCases_ok (@nodup_selectedCases m profile hnd)
  refine ⟨ordered, hperm, ?_⟩
  have hruns : ordered.length * profile.repetitions = profile.maxRuns := by
    rw [hperm.length_eq, ha.runs]
  have hdivides : (!(decide (requiredReviews < 0) || decide (requiredReviews % 4 ≠ 0))) = true := by
    simp [ha.divides]
  have hselected : selectedReviews b campaignId m.cases profile.repetitions requiredReviews
      = .ok (selectedRuns b campaignId m.cases profile.repetitions (requiredReviews / 4).toNat) := by
    by_cases hzero : requiredReviews = 0
    · subst hzero
      rfl
    · have hpos : 1 ≤ (requiredReviews / 4).toNat := by
        have := ha.divides
        omega
      have hcount : ∀ s ∈ strata, (requiredReviews / 4).toNat
          ≤ m.cases.countP fun c => c.stratum = s && c.isAnswerable := by
        intro s hs
        have := ha.provided s hs
        omega
      rw [selectedReviews, if_neg hzero, selectReviewUnits_ok hnd profile.positive.2 hpos hcount]
      rfl
  rw [materializeRunPlans, hordered]
  have hbind : ∀ {α β : Type} (a : α) (f : α → Except Exn β), (Except.ok a >>= f) = f a :=
    fun _ _ => rfl
  rw [hbind, decide_eq_true hruns, hdivides, hselected]
  rfl

/-- **The order of the manifest does not matter.** -/
theorem materialize_perm (hnd : (m.cases.map (·.id)).Nodup) {cases' : List ShadowCase}
    (hperm : cases'.Perm m.cases) :
    materializeRunPlans b campaignId { m with cases := cases' } profile requiredReviews
      = materializeRunPlans b campaignId m profile requiredReviews := by
  have hselected : (profile.selectedCases { m with cases := cases' }).Perm
      (profile.selectedCases m) := by
    unfold CampaignProfile.selectedCases
    split
    · exact hperm.filter _
    · exact hperm
  rw [materializeRunPlans, materializeRunPlans,
    orderedCases_perm (@nodup_selectedCases m profile hnd) hselected]
  simp only [selectedReviews, selectReviewUnits_perm hnd hperm]

/-! ## Counting reviews -/

section Counting

variable {ordered cases : List ShadowCase} {selected : List (String × Nat)} {repetitions n : Nat}
  {x : String × Nat}

/-- What does not depend on the ordinal can be read off the runs. -/
theorem map_plansOf {β : Type} {g : RunPlan → β} {h : Nat × ShadowCase → β}
    (hg : ∀ r c o, g (runPlan b campaignId selected r c o) = h (r, c)) :
    (plansOf b campaignId selected repetitions ordered).map g
      = (runs repetitions ordered).map h := by
  have hfst : (runs repetitions ordered).zipIdx.map (fun x => h x.1)
      = (runs repetitions ordered).map h := by
    have hcomp : (runs repetitions ordered).zipIdx.map (fun x => h x.1)
        = ((runs repetitions ordered).zipIdx.map Prod.fst).map h := by
      rw [List.map_map]
      rfl
    rw [hcomp, List.zipIdx_map_fst]
  rw [plansOf, List.map_map, ← hfst]
  exact List.map_congr_left fun x _ => hg _ _ _

theorem ordinals_plansOf : (plansOf b campaignId selected repetitions ordered).map
    (·.scheduleOrdinal) = List.range' 1 (runs repetitions ordered).length := by
  have hsnd : (runs repetitions ordered).zipIdx.map (fun x => x.2 + 1)
      = ((runs repetitions ordered).zipIdx.map Prod.snd).map (· + 1) := by
    rw [List.map_map]
    rfl
  rw [plansOf, List.map_map]
  refine hsnd.trans ?_
  rw [List.zipIdx_map_snd, show (fun x : Nat => x + 1) = (1 + ·) from funext fun x => Nat.add_comm x 1,
    List.map_add_range']

/-- The runs of a stratum that are selected. -/
def selectedIn (b : Builtins) (campaignId : Uuid) (cases : List ShadowCase) (repetitions n : Nat)
    (s : Stratum) : List (String × Nat) :=
  ((representatives b campaignId cases repetitions s).take n).map fun u => (u.caseId, u.repetition)

theorem selectedRuns_eq : selectedRuns b campaignId cases repetitions n
    = stratumPairs.flatMap (selectedIn b campaignId cases repetitions n) := by
  rw [selectedRuns, reviewed, List.map_flatMap]
  rfl

theorem mem_selectedIn (hx : x ∈ selectedIn b campaignId cases repetitions n s) :
    ∃ c ∈ cases, c.id = x.1 ∧ c.stratum = s ∧ c.isAnswerable = true ∧
      1 ≤ x.2 ∧ x.2 ≤ repetitions := by
  obtain ⟨u, hu, rfl⟩ := List.mem_map.mp hx
  obtain ⟨c, hc, ⟨hs, ha⟩, r, hr, rfl⟩ :=
    mem_candidates.mp (mem_representatives (List.mem_of_mem_take hu)).1
  exact ⟨c, hc, rfl, hs, ha, hr⟩

theorem nodup_selectedIn :
    ((selectedIn b campaignId cases repetitions n s).map (·.1)).Nodup := by
  rw [selectedIn, List.map_map]
  exact nodup_representatives.sublist ((List.take_sublist _ _).map _)

/-- A selected run of a case is selected in the stratum of the case. -/
theorem mem_selectedRuns_iff (hnd : (cases.map (·.id)).Nodup) (hc : c ∈ cases) {r : Nat} :
    ((c.id, r) ∈ selectedRuns b campaignId cases repetitions n ∧ c.stratum = s) ↔
      (c.id, r) ∈ selectedIn b campaignId cases repetitions n s := by
  rw [selectedRuns_eq, List.mem_flatMap]
  constructor
  · rintro ⟨⟨t, -, hx⟩, rfl⟩
    obtain ⟨d, hd, hid, ht, -⟩ := mem_selectedIn hx
    obtain rfl := eq_of_key_eq hnd hd hc hid
    rwa [ht]
  · intro hx
    obtain ⟨d, hd, hid, ht, -⟩ := mem_selectedIn hx
    obtain rfl := eq_of_key_eq hnd hd hc hid
    have hall : ∀ s ∈ strata, s ∈ stratumPairs := by decide
    exact ⟨⟨s, hall s (ht ▸ CaseFields.stratum_mem d), hx⟩, ht⟩

/-- No case is selected twice. -/
theorem nodup_selectedRuns (hnd : (cases.map (·.id)).Nodup) :
    ((selectedRuns b campaignId cases repetitions n).map (·.1)).Nodup := by
  rw [selectedRuns_eq, List.map_flatMap, List.nodup_flatMap]
  refine ⟨fun s _ => nodup_selectedIn, ?_⟩
  have hpairs : stratumPairs.Pairwise (· ≠ ·) := by decide
  refine hpairs.imp fun {s t} hne id hs ht => ?_
  obtain ⟨x, hx, rfl⟩ := List.mem_map.mp hs
  obtain ⟨y, hy, hyx⟩ := List.mem_map.mp ht
  obtain ⟨c, hc, hid, hcs, -⟩ := mem_selectedIn hx
  obtain ⟨d, hd, hid', hdt, -⟩ := mem_selectedIn hy
  obtain rfl := eq_of_key_eq hnd hc hd (hid.trans (hyx.symm.trans hid'.symm))
  exact hne (hcs.symm.trans hdt)

/-- The runs of the plan, by case and repetition. -/
def pairs (repetitions : Nat) (ordered : List ShadowCase) : List (String × Nat) :=
  (runs repetitions ordered).map fun x => (x.2.id, x.1)

theorem mem_pairs {id : String} {r : Nat} : (id, r) ∈ pairs repetitions ordered ↔
    (∃ c ∈ ordered, c.id = id) ∧ 1 ≤ r ∧ r ≤ repetitions := by
  simp only [pairs, List.mem_map, mem_runs]
  constructor
  · rintro ⟨y, ⟨hr, hc⟩, hxy⟩
    obtain ⟨rfl, rfl⟩ := Prod.mk.inj hxy
    exact ⟨⟨y.2, hc, rfl⟩, hr⟩
  · rintro ⟨⟨c, hc, rfl⟩, hr⟩
    exact ⟨(r, c), ⟨hr, hc⟩, rfl⟩

/-- **The reviewed runs of a stratum are the selected ones that are planned.** -/
theorem countP_reviewed (hnd : (cases.map (·.id)).Nodup) (hsub : ∀ c ∈ ordered, c ∈ cases)
    (hordered : (ordered.map (·.id)).Nodup) :
    ((plansOf b campaignId (selectedRuns b campaignId cases repetitions n) repetitions
        ordered).countP fun p => p.manualReviewSelected && (p.expectedMode, p.locale) = s)
      = (selectedIn b campaignId cases repetitions n s).countP
          fun x => decide (x ∈ pairs repetitions ordered) := by
  have hmarked : (plansOf b campaignId (selectedRuns b campaignId cases repetitions n) repetitions
        ordered).map (fun p => p.manualReviewSelected && decide ((p.expectedMode, p.locale) = s))
      = (runs repetitions ordered).map fun x =>
        decide ((x.2.id, x.1) ∈ selectedRuns b campaignId cases repetitions n)
          && decide (x.2.stratum = s) := map_plansOf fun _ _ _ => rfl
  have hcount := congrArg (List.countP id) hmarked
  rw [List.countP_map, List.countP_map] at hcount
  refine hcount.trans ?_
  have hnodup : (selectedIn b campaignId cases repetitions n s).Nodup :=
    List.Nodup.of_map _ nodup_selectedIn
  have hpairs : (pairs repetitions ordered).Nodup := nodup_runs hordered
  refine Eq.trans ?_ ((countP_mem_comm hpairs hnodup).trans
    (List.countP_congr fun x _ => by simp only [decide_eq_true_eq]))
  rw [pairs, List.countP_map]
  refine List.countP_congr fun x hx => ?_
  have hc := hsub x.2 (mem_runs.mp hx).2
  simp only [Function.comp_apply, id_eq, Bool.and_eq_true, decide_eq_true_eq]
  exact mem_selectedRuns_iff hnd hc

end Counting

/-! ## When every selected run is planned -/

section Coverage

variable {n : Nat}

/-- Among the first of every stratum there are only smoke cases. -/
def SmokeFirst (b : Builtins) (campaignId : Uuid) (cases : List ShadowCase) (repetitions n : Nat) :
    Prop :=
  ∀ c ∈ cases, c.isAnswerable = true → c.smoke = false →
    n ≤ rankOf b campaignId cases repetitions c

theorem mem_selectedCases : c ∈ profile.selectedCases m ↔
    c ∈ m.cases ∧ (profile.smokeOnly = true → c.smoke = true) := by
  unfold CampaignProfile.selectedCases ShadowManifest.smokeCases
  cases profile.smokeOnly <;> simp

/-- **Every selected run is planned** if all cases are, or the first ones are smoke cases. -/
theorem selected_planned_iff (hnd : (m.cases.map (·.id)).Nodup) :
    (∀ s ∈ strata, ∀ x ∈ selectedIn b campaignId m.cases profile.repetitions n s,
        ∃ c ∈ profile.selectedCases m, c.id = x.1) ↔
      profile.smokeOnly = false ∨ SmokeFirst b campaignId m.cases profile.repetitions n := by
  constructor
  · intro h
    by_cases hsmoke : profile.smokeOnly = true
    case neg => exact .inl (by simpa using hsmoke)
    refine .inr fun c hc ha hnot => ?_
    by_contra hlt
    obtain ⟨u, hu, huc⟩ := @exists_representative b campaignId m.cases c profile.repetitions _
      profile.positive.2 hc rfl ha
    have htaken := (mem_take_representatives hnd profile.positive.2 hu hc huc).mpr (not_le.mp hlt)
    obtain ⟨d, hd, hid⟩ := h c.stratum (CaseFields.stratum_mem c) _
      (List.mem_map_of_mem (f := fun u : ReviewUnit => (u.caseId, u.repetition)) htaken)
    obtain ⟨hd, hdsmoke⟩ := mem_selectedCases.mp hd
    obtain rfl := eq_of_key_eq hnd hd hc (hid.trans huc)
    rw [hdsmoke hsmoke] at hnot
    cases hnot
  · rintro hcond s - x hx
    obtain ⟨u, hu, rfl⟩ := List.mem_map.mp hx
    have hrep := List.mem_of_mem_take hu
    obtain ⟨c, hc, ⟨rfl, ha⟩, r, -, rfl⟩ := mem_candidates.mp (mem_representatives hrep).1
    refine ⟨c, mem_selectedCases.mpr ⟨hc, fun hsmoke => ?_⟩, rfl⟩
    rcases hcond with hall | hfirst
    · rw [hall] at hsmoke
      cases hsmoke
    · by_contra hnot
      have hplace := (mem_take_representatives hnd profile.positive.2 hrep hc rfl).mp hu
      have := hfirst c hc ha (by simpa using hnot)
      omega

end Coverage

/-! ## Every manifest and every profile -/

/-- What a plan promises. -/
structure Planned (m : ShadowManifest) (profile : CampaignProfile) (requiredReviews : Int)
    (plans : List RunPlan) : Prop where
  ordinals : plans.map (·.scheduleOrdinal) = List.range' 1 profile.maxRuns
  /-- Each case and repetition once. -/
  once : (plans.map fun p => (p.caseId, p.repetition)).Nodup
  every : ∀ id r, (∃ p ∈ plans, p.caseId = id ∧ p.repetition = r) ↔
    (∃ c ∈ profile.selectedCases m, c.id = id) ∧ 1 ≤ r ∧ r ≤ profile.repetitions
  reviews : (plans.countP (·.manualReviewSelected) : Int) = requiredReviews
  quotas : ∀ s ∈ strata, ((plans.countP fun p =>
    p.manualReviewSelected && (p.expectedMode, p.locale) = s) : Int) = requiredReviews / 4
  /-- No case is reviewed twice. -/
  spread : ((plans.filter (·.manualReviewSelected)).map (·.caseId)).Nodup

/-- The reviews of a plan are the reviews of its strata. -/
theorem countP_strata (plans : List RunPlan)
    (h : ∀ p ∈ plans, ((p.expectedMode, p.locale) : Stratum) ∈ strata) :
    plans.countP (·.manualReviewSelected) = (strata.map fun s => plans.countP fun p =>
      p.manualReviewSelected && decide (((p.expectedMode, p.locale) : Stratum) = s)).sum := by
  induction plans with
  | nil => rfl
  | cons p plans ih =>
      have hp := h p List.mem_cons_self
      have hrest := ih fun q hq => h q (List.mem_cons_of_mem _ hq)
      cases hm : p.manualReviewSelected with
      | false => simpa only [List.countP_cons, hm, Bool.false_and, Bool.false_eq_true, if_false,
          Nat.add_zero] using hrest
      | true =>
          simp only [strata, List.mem_cons, List.not_mem_nil, or_false] at hp
          simp only [strata, List.map_cons, List.map_nil, List.sum_cons, List.sum_nil,
            List.countP_cons, hm, Bool.true_and] at hrest ⊢
          rcases hp with h | h | h | h <;> simp only [h] <;> simp at hrest ⊢ <;> omega

theorem length_selectedIn {n : Nat} (hnd : (m.cases.map (·.id)).Nodup)
    (h : n ≤ m.cases.countP fun c => c.stratum = s && c.isAnswerable) :
    (selectedIn b campaignId m.cases profile.repetitions n s).length = n := by
  rw [selectedIn, List.length_map, List.length_take, length_representatives hnd profile.positive.2]
  omega

/-- The quota of a stratum is met if every run selected in it is planned. -/
theorem quota_iff {n : Nat} {ordered : List ShadowCase} (hnd : (m.cases.map (·.id)).Nodup)
    (hperm : ordered.Perm (profile.selectedCases m))
    (h : n ≤ m.cases.countP fun c => c.stratum = s && c.isAnswerable) :
    ((plansOf b campaignId (selectedRuns b campaignId m.cases profile.repetitions n)
        profile.repetitions ordered).countP fun p =>
          p.manualReviewSelected && (p.expectedMode, p.locale) = s) = n ↔
      ∀ x ∈ selectedIn b campaignId m.cases profile.repetitions n s,
        ∃ c ∈ profile.selectedCases m, c.id = x.1 := by
  have hsub : ∀ c ∈ ordered, c ∈ m.cases :=
    fun c hc => selectedCases_sublist.subset (hperm.mem_iff.mp hc)
  have hordered : (ordered.map (·.id)).Nodup :=
    (hperm.map _).nodup_iff.mpr (nodup_selectedCases hnd)
  have hlength := @length_selectedIn b campaignId m profile s n hnd h
  rw [countP_reviewed hnd hsub hordered]
  have hall : ∀ x ∈ selectedIn b campaignId m.cases profile.repetitions n s,
      x ∈ pairs profile.repetitions ordered ↔ ∃ c ∈ profile.selectedCases m, c.id = x.1 := by
    intro x hx
    obtain ⟨c, -, -, -, -, hr⟩ := mem_selectedIn hx
    obtain ⟨id, r⟩ := x
    rw [mem_pairs]
    constructor
    · rintro ⟨⟨d, hd, hid⟩, -⟩
      exact ⟨d, hperm.mem_iff.mp hd, hid⟩
    · rintro ⟨d, hd, hid⟩
      exact ⟨⟨d, hperm.mem_iff.mpr hd, hid⟩, hr⟩
  constructor
  · intro hn x hx
    have hevery : ∀ x ∈ selectedIn b campaignId m.cases profile.repetitions n s,
        decide (x ∈ pairs profile.repetitions ordered) = true :=
      List.countP_eq_length.mp (hn.trans hlength.symm)
    exact (hall x hx).mp (of_decide_eq_true (hevery x hx))
  · intro hx
    refine Eq.trans (List.countP_eq_length.mpr fun x hmem => ?_) hlength
    exact decide_eq_true ((hall x hmem).mpr (hx x hmem))

/-- What a plan keeps in any case. -/
theorem plan_always {ordered : List ShadowCase} (hnd : (m.cases.map (·.id)).Nodup)
    (ha : Admits m profile requiredReviews) (hperm : ordered.Perm (profile.selectedCases m))
    (plans : List RunPlan) (hplans : plans = plansOf b campaignId
      (selectedRuns b campaignId m.cases profile.repetitions (requiredReviews / 4).toNat)
      profile.repetitions ordered) :
    plans.map (·.scheduleOrdinal) = List.range' 1 profile.maxRuns ∧
    (plans.map fun p => (p.caseId, p.repetition)).Nodup ∧
    (∀ id r, (∃ p ∈ plans, p.caseId = id ∧ p.repetition = r) ↔
      (∃ c ∈ profile.selectedCases m, c.id = id) ∧ 1 ≤ r ∧ r ≤ profile.repetitions) ∧
    ((plans.filter (·.manualReviewSelected)).map (·.caseId)).Nodup := by
  subst hplans
  have hordered : (ordered.map (·.id)).Nodup :=
    (hperm.map _).nodup_iff.mpr (nodup_selectedCases hnd)
  have hpairs : (plansOf b campaignId (selectedRuns b campaignId m.cases profile.repetitions
      (requiredReviews / 4).toNat) profile.repetitions ordered).map
        (fun p => (p.caseId, p.repetition)) = pairs profile.repetitions ordered :=
    map_plansOf fun _ _ _ => rfl
  refine ⟨?_, ?_, fun id r => ?_, ?_⟩
  · rw [ordinals_plansOf, length_runs, hperm.length_eq, ha.runs]
  · rw [hpairs]
    exact nodup_runs hordered
  · have hmem : (∃ p ∈ plansOf b campaignId (selectedRuns b campaignId m.cases profile.repetitions
        (requiredReviews / 4).toNat) profile.repetitions ordered, p.caseId = id ∧ p.repetition = r) ↔
        (id, r) ∈ pairs profile.repetitions ordered := by
      rw [← hpairs, List.mem_map]
      simp only [Prod.mk.injEq]
    rw [hmem, mem_pairs]
    simp only [hperm.mem_iff]
  · -- the reviewed runs are selected runs, and no case is selected twice
    have hnodup := @nodup_selectedRuns b campaignId m.cases profile.repetitions
      (requiredReviews / 4).toNat hnd
    have honce : ((plansOf b campaignId (selectedRuns b campaignId m.cases profile.repetitions
        (requiredReviews / 4).toNat) profile.repetitions ordered).map
          (fun p => (p.caseId, p.repetition))).Nodup := by
      rw [hpairs]
      exact nodup_runs hordered
    rw [List.Nodup, List.pairwise_map] at honce
    rw [List.Nodup, List.pairwise_map]
    refine (honce.sublist List.filter_sublist).imp_of_mem fun {p q} hp hq hne hcase => hne ?_
    have hselected : ∀ p ∈ (plansOf b campaignId (selectedRuns b campaignId m.cases
        profile.repetitions (requiredReviews / 4).toNat) profile.repetitions ordered).filter
          (·.manualReviewSelected), (p.caseId, p.repetition) ∈ selectedRuns b campaignId m.cases
            profile.repetitions (requiredReviews / 4).toNat := by
      intro p hp
      obtain ⟨hmem, hmark⟩ := List.mem_filter.mp hp
      obtain ⟨x, -, rfl⟩ := List.mem_map.mp hmem
      exact of_decide_eq_true hmark
    exact eq_of_key_eq hnodup (hselected p hp) (hselected q hq) hcase

/--
**A plan keeps its promises exactly where the selected runs are planned.** Of every valid
manifest and every profile it admits: a plan is materialized, the same for every order of the
cases, that numbers its runs from one, has each case and repetition once, and reviews as many
runs as required, a quarter of them in each stratum and no case twice, if and only if the
profile plans all cases or the cases ranked first in every stratum are smoke cases.
-/
theorem run_plans_iff {casefold : String → String} {now : Time} {window : Duration}
    (hvalid : validateDistribution casefold m.cases now window = .ok ())
    (ha : Admits m profile requiredReviews) :
    (∃ plans, materializeRunPlans b campaignId m profile requiredReviews = .ok plans ∧
      Planned m profile requiredReviews plans ∧
      ∀ cases' : List ShadowCase, cases'.Perm m.cases →
        materializeRunPlans b campaignId { m with cases := cases' } profile requiredReviews
          = .ok plans) ↔
      profile.smokeOnly = false ∨
      SmokeFirst b campaignId m.cases profile.repetitions (requiredReviews / 4).toNat := by
  have hnd := (distributed_of_valid hvalid).distinct
  obtain ⟨ordered, hperm, hok⟩ := @materialize_ok b campaignId m profile requiredReviews hnd ha
  have hcount : ∀ s ∈ strata, (requiredReviews / 4).toNat
      ≤ m.cases.countP fun c => c.stratum = s && c.isAnswerable := by
    intro s hs
    have := ha.provided s hs
    omega
  rw [← selected_planned_iff hnd]
  constructor
  · rintro ⟨plans, hplans, hplanned, -⟩ s hs
    rw [hok] at hplans
    obtain rfl := Except.ok.inj hplans
    have hquota := hplanned.quotas s hs
    exact (quota_iff hnd hperm (hcount s hs)).mp (by omega)
  · intro hplanned
    have hquota := fun s hs => (quota_iff hnd hperm (hcount s hs)).mpr (hplanned s hs)
    obtain ⟨hordinals, honce, hevery, hspread⟩ := plan_always hnd ha hperm _ rfl
    refine ⟨_, hok, ⟨hordinals, honce, hevery, ?_, fun s hs => ?_, hspread⟩,
      fun cases' h => (materialize_perm hnd h).trans hok⟩
    · rw [countP_strata]
      · have hsum : (strata.map fun s => (plansOf b campaignId (selectedRuns b campaignId m.cases
            profile.repetitions (requiredReviews / 4).toNat) profile.repetitions ordered).countP
              fun p => p.manualReviewSelected
                && decide (((p.expectedMode, p.locale) : Stratum) = s)).sum
            = (strata.map fun _ => (requiredReviews / 4).toNat).sum :=
          congrArg List.sum (List.map_congr_left hquota)
        rw [hsum]
        have := ha.divides
        simp only [strata, List.map_cons, List.map_nil, List.sum_cons, List.sum_nil]
        omega
      · intro p hp
        obtain ⟨x, -, rfl⟩ := List.mem_map.mp hp
        exact CaseFields.stratum_mem x.1.2
    · have := hquota s hs
      have := ha.divides
      rw [hquota s hs]
      omega

end Plan

/-! ## A manifest -/

namespace Sample

/-- Conversions; with equal digests the identifiers rank the cases. -/
def builtins : Builtins where
  strOf _ := ""
  floatOf _ := none
  lower := Text.lowerAscii
  isoformat _ := ""
  fromisoformat _ := none
  uuid5 id _ := id
  sha256 _ := ""

def assertion : Manifest.GoldAssertion where
  id := "a"
  expected := .normalizedEquals (.text "3")
  critical := true
  stripped := by decide +kernel
  bounded := by decide
  expected_ok := by decide

/-- The case of a stratum with an index: four are deterministic, two are unanswerable. -/
def fields (s : Stratum) (index : Nat) : CaseFields where
  id := (if s.1 = .fast then "f" else "r") ++ (if s.2 = "en" then "e" else "z") ++ toString index
  prompt := "?"
  locale := s.2
  expectedMode := s.1
  category := .version
  answerability := if index < 8 then .answerable else .intentionallyUnanswerable
  minimumRequiredFacts := 1
  goldAssertions := if index < 4 then [assertion] else []
  oracleType := if index < 4 then .deterministic else if index < 8 then .manualRequired
    else .notApplicable
  validFrom := if index < 4 then some 0 else none
  validUntil := if index < 4 then some (seconds 86400) else none
  requiredSourceClasses := []
  forbiddenQueryTerms := []
  mustNotComplete := 8 ≤ index
  tags := if 8 ≤ index then ["apex"] else []
  smoke := s.2 = "zh-CN" && (index < 2 || index = 9)

/-- Ten cases for every stratum. The six smoke cases are all Chinese. -/
def manifest : ShadowManifest where
  version := "shadow-cases-v1"
  cases := (strata.flatMap fun s => (List.range 10).map (fields s)).filterMap fun f =>
    (ShadowCase.make f).toOption
  sha256 := ""

/-- `SHADOW_FULL_V1`. -/
def full : CampaignProfile where
  maxRuns := 120
  repetitions := 3
  smokeOnly := false
  positive := by decide
  divides := by decide

/-- `DOCKER_SMOKE_V1`. -/
def smoke : CampaignProfile where
  maxRuns := 6
  repetitions := 1
  smokeOnly := true
  positive := by decide
  divides := by decide

theorem manifest_valid :
    validateDistribution Text.lowerAscii manifest.cases 0 (seconds 21600) = .ok () := by
  decide +kernel

end Sample

theorem run_plans_iff_full :
    ∃ plans, materializeRunPlans Sample.builtins ⟨1⟩ Sample.manifest Sample.full 20 = .ok plans ∧
      Planned Sample.manifest Sample.full 20 plans ∧
      ∀ cases' : List ShadowCase, cases'.Perm Sample.manifest.cases →
        materializeRunPlans Sample.builtins ⟨1⟩ { Sample.manifest with cases := cases' }
          Sample.full 20 = .ok plans := by
  have hadmits : Admits Sample.manifest Sample.full 20 :=
    ⟨by decide +kernel, by decide, by decide +kernel⟩
  exact (run_plans_iff Sample.manifest_valid hadmits).mpr (.inl rfl)

/--
**A smoke profile loses reviews.** One review is required in every stratum. The English
strata have no smoke case, so what is selected in them is not planned. How many of the
Chinese ones are left depends on the digests.
-/
theorem smoke_plan_misses_reviews :
    validateDistribution Text.lowerAscii Sample.manifest.cases 0 (seconds 21600) = .ok () ∧
    Admits Sample.manifest Sample.smoke 4 ∧
    ∃ plans, materializeRunPlans Sample.builtins ⟨1⟩ Sample.manifest Sample.smoke 4 = .ok plans ∧
      plans.countP (·.manualReviewSelected) < 4 ∧
      (plans.countP fun p => p.manualReviewSelected && p.locale = "en") = 0 := by
  refine ⟨Sample.manifest_valid, ⟨by decide +kernel, by decide, by decide +kernel⟩, ?_⟩
  have hany : (materializeRunPlans Sample.builtins ⟨1⟩ Sample.manifest Sample.smoke 4).toOption.any
      (fun plans => plans.countP (·.manualReviewSelected) < 4 &&
        (plans.countP fun p => p.manualReviewSelected && p.locale = "en") = 0) = true := by
    decide +kernel
  obtain ⟨plans, hplans, hcounts⟩ := exists_ok_of_any hany
  rw [Bool.and_eq_true, decide_eq_true_eq, decide_eq_true_eq] at hcounts
  exact ⟨plans, hplans, hcounts⟩

example : Sample.manifest.smokeCases.length = 6 := by decide +kernel

end Sana.Shadow.Schedule
