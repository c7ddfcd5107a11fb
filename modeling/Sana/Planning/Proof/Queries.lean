import Sana.Planning.Expansion

/-!
# Queries cover the facts

A text always fits and always says something. What `compile` returns are the first variants of the
first signatures, so a fact keeps a query exactly if one of its variants is among those. In a round
of expansion the signatures there are count against the total, so over all rounds they stay
different and within it.
-/

namespace Sana.Planning

open Sana.Lib Sana.Orchestration

/-- Limits under which `compile` can do its work; the ones it has by default are such. -/
structure SearchPlanningPolicy.Sound (policy : SearchPlanningPolicy) : Prop where
  characters : 64 ≤ policy.maxQueryCharacters
  fast_le : policy.fastMaxQueries ≤ policy.researchTotalMaxQueries
  initial_le : policy.researchInitialMaxQueries ≤ policy.researchTotalMaxQueries

/-! ## Texts -/

section Texts

variable {py : CompilerText} {policy : SearchPlanningPolicy} {intent : NormalizedIntent}

theorem length_of_isSearchTerm {value : String} {n : Nat} (h : isSearchTerm value n = true) :
    (Text.strip value).length ≤ n := by
  simp only [isSearchTerm, Bool.and_eq_true, decide_eq_true_eq] at h
  exact h.1.1.2

variable (py intent) in
/-- The entity of a query starts with a word and is short. -/
theorem safeEntity_spec (fact : FactRequirement) :
    Text.Starts (safeEntity py intent fact) ∧ (safeEntity py intent fact).length ≤ 64 := by
  rw [safeEntity]
  generalize hfound : ((intent.entity :: intent.aliases ++ [fact.subject]).map
    fun candidate => Text.strip (Text.squeeze candidate)).find?
      (fun normalized => !normalized.isEmpty && !isUnsafe py normalized) = found
  cases found with
  | none => exact ⟨⟨'p', "ublic evidence".toList, rfl, rfl⟩, by decide⟩
  | some normalized =>
      rw [Option.getD_some]
      have hmem := List.mem_of_find?_eq_some hfound
      have hcheck := List.find?_some hfound
      obtain ⟨candidate, hcandidate, rfl⟩ := List.mem_map.mp hmem
      have hlength : (Text.strip candidate).length ≤ 64 := by
        rcases List.mem_append.mp hcandidate with h | h
        · rcases List.mem_cons.mp h with rfl | h
          · exact length_of_isSearchTerm intent.entity_term
          · exact (length_of_isSearchTerm (intent.alias_terms candidate h)).trans (by omega)
        · rw [List.mem_singleton.mp h]
          exact (length_of_isSearchTerm fact.subject_term).trans (by omega)
      refine ⟨Text.starts_strip fun hnil => ?_, ?_⟩
      · rw [hnil] at hcheck
        simp at hcheck
      · exact ((Text.length_strip_le _).trans (Text.length_squeeze_le candidate)).trans hlength

variable (policy) in
/-- Dropping components leaves the entity in front. -/
theorem shorten_cons (n : Nat) (entity : String) (components : List String) :
    ∃ rest, shorten policy n (entity :: components) = entity :: rest := by
  induction n generalizing components with
  | zero => exact ⟨components, rfl⟩
  | succ n ih =>
      rw [shorten]
      split
      · rename_i h
        cases components with
        | nil => simp at h
        | cons c cs =>
            rw [List.dropLast_cons_cons]
            exact ih _
      · exact ⟨components, rfl⟩

/-- A query that starts with a short entity fits. -/
theorem fit_ok {entity : String} (hstarts : Text.Starts entity)
    (hlength : entity.length ≤ policy.maxQueryCharacters) (components : List String) :
    ∃ text, fit policy entity components = .ok text ∧ Text.Starts text ∧
      text.length ≤ policy.maxQueryCharacters := by
  obtain ⟨rest, hrest⟩ := shorten_cons policy components.length entity components
  have hquery : Text.Starts (" ".intercalate (shorten policy components.length
      (entity :: components))) := by
    rw [hrest]
    exact hstarts.intercalate rest
  have hpos : 1 ≤ policy.maxQueryCharacters := by
    obtain ⟨c, cs, hentity, -⟩ := hstarts
    have : entity.toList.length = cs.length + 1 := by rw [hentity, List.length_cons]
    rw [String.length_toList] at this
    omega
  rw [fit]
  split
  · rw [if_neg (by omega)]
    refine ⟨_, rfl, hquery.rstrip_take hpos, (Text.length_rstrip_le _).trans ?_⟩
    rw [String.length_ofList]
    exact List.length_take_le _ _
  · rename_i hle
    exact ⟨_, rfl, hquery, by omega⟩

variable (py intent) in
/-- Every variant has a text, which says something and is not too long. -/
theorem variantText_ok (hpolicy : policy.Sound) (v : Variant) :
    ∃ text, variantText py policy intent v = .ok text ∧ Text.Starts text ∧
      text.length ≤ policy.maxQueryCharacters := by
  obtain ⟨hstarts, hlength⟩ := safeEntity_spec py intent v.fact
  exact fit_ok hstarts (hlength.trans hpolicy.characters) _

end Texts

/-! ## What is compiled -/

section Compile

variable (py : CompilerText) (policy : SearchPlanningPolicy) (intent : NormalizedIntent)

/-- The signature of a variant. -/
def variantSignature (v : Variant) : String :=
  match variantText py policy intent v with
  | .ok text => signature py text (some v.fact.key)
  | .error _ => ""

/-- The query of a variant. -/
structure OfVariant (planRevision : Nat) (v : Variant) (q : QuerySpec) : Prop where
  key : q.key = "q:" ++ toString planRevision ++ ":" ++ v.fact.key ++ ":" ++ toString (v.index + 1)
  factKey : q.factKey = v.fact.key
  signature : q.signature = variantSignature py policy intent v
  revision : q.planRevision = planRevision
  starts : Text.Starts q.text
  length_le : q.text.length ≤ policy.maxQueryCharacters

variable {py policy intent}

variable (py intent) in
/-- One turn of the loop. -/
theorem querySpec_ok (hpolicy : policy.Sound) {planRevision : Nat} (hrevision : 1 ≤ planRevision)
    (v : Variant) : ∃ text q, variantText py policy intent v = .ok text ∧
      signature py text (some v.fact.key) = variantSignature py policy intent v ∧
      querySpec py intent planRevision v text = .ok q ∧
      OfVariant py policy intent planRevision v q := by
  obtain ⟨text, htext, hstarts, hlength⟩ := variantText_ok py intent hpolicy v
  have hsignature : signature py text (some v.fact.key) = variantSignature py policy intent v := by
    rw [variantSignature, htext]
  have hkey : Text.isBlank ("q:" ++ toString planRevision ++ ":" ++ v.fact.key ++ ":" ++
      toString (v.index + 1)) = false := by
    have hq : Text.Starts "q:" := ⟨'q', [':'], rfl, rfl⟩
    exact ((((hq.append _).append _).append _).append _ |>.append _).not_blank
  have hgiven : Text.isBlank ("q:" ++ toString planRevision ++ ":" ++ v.fact.key ++ ":" ++
      toString (v.index + 1)) = false ∧ Text.isBlank v.fact.key = false ∧
        Text.isBlank text = false := ⟨hkey, v.fact.given.1, hstarts.not_blank⟩
  obtain ⟨q, hq, hof⟩ : ∃ q, querySpec py intent planRevision v text = .ok q ∧
      OfVariant py policy intent planRevision v q :=
    ⟨_, (dif_pos hgiven).trans (dif_pos hrevision), rfl, rfl, hsignature, rfl, hstarts, hlength⟩
  exact ⟨text, q, htext, hsignature, hq, hof⟩

/-- **What the loop returns**: the queries of the first variants of the first new signatures. -/
theorem compileVariants_ok (hpolicy : policy.Sound) {planRevision : Nat}
    (hrevision : 1 ≤ planRevision) {room : Nat} (hroom : 1 ≤ room) (signatures : Finset String)
    (variants : List Variant) :
    ∃ queries, compileVariants py policy intent planRevision room signatures variants
        = .ok queries ∧
      List.Forall₂ (OfVariant py policy intent planRevision)
        ((distinctBy (variantSignature py policy intent) (variants.filter fun v =>
          variantSignature py policy intent v ∉ signatures)).take room) queries := by
  induction variants generalizing room signatures with
  | nil => exact ⟨[], rfl, by simp [distinctBy]⟩
  | cons v rest ih =>
      obtain ⟨text, q, htext, hsignature, hq, hof⟩ := querySpec_ok py intent hpolicy hrevision v
      rw [compileVariants, htext]
      by_cases hseen : variantSignature py policy intent v ∈ signatures
      · obtain ⟨queries, hok, hqueries⟩ := ih hroom signatures
        refine ⟨queries, ?_, ?_⟩
        · show (if signature py text (some v.fact.key) ∈ signatures then _ else _) = _
          rw [hsignature, if_pos hseen, hok]
        · rwa [List.filter_cons_of_neg (by simpa using hseen)]
      · rw [List.filter_cons_of_pos (by simpa using hseen), distinctBy]
        obtain ⟨n, rfl⟩ : ∃ n, room = n + 1 := ⟨room - 1, by omega⟩
        rw [List.take_succ_cons]
        by_cases hn : n = 0
        · subst hn
          refine ⟨[q], ?_, List.Forall₂.cons hof List.Forall₂.nil⟩
          show (if signature py text (some v.fact.key) ∈ signatures then _ else _) = _
          rw [hsignature, if_neg hseen, hq]
          rfl
        · have hpos : 1 ≤ n := by omega
          obtain ⟨queries, hok, hqueries⟩ :=
            ih hpos (insert (variantSignature py policy intent v) signatures)
          refine ⟨q :: queries, ?_, List.Forall₂.cons hof ?_⟩
          · show (if signature py text (some v.fact.key) ∈ signatures then _ else _) = _
            rw [hsignature, if_neg hseen, hq]
            show (if n + 1 ≤ 1 then _ else _) = _
            rw [if_neg (by omega), Nat.add_sub_cancel, hok]
            rfl
          · -- what is left has neither an old signature nor the one just added
            have hfilter : (rest.filter fun u => variantSignature py policy intent u
                ∉ insert (variantSignature py policy intent v) signatures)
              = (rest.filter fun u => variantSignature py policy intent u ∉ signatures).filter
                  fun u => decide (variantSignature py policy intent u
                    ≠ variantSignature py policy intent v) := by
              rw [List.filter_filter]
              refine List.filter_congr fun u _ => ?_
              simp [Finset.mem_insert, not_or]
            rw [hfilter, distinctBy_filter (variantSignature py policy intent)
              (fun k => decide (k ≠ variantSignature py policy intent v))] at hqueries
            exact hqueries

variable (py intent) in
/-- **What `compile` returns** without earlier queries, or in a round that has room for more. -/
theorem compile_ok (hpolicy : policy.Sound) {planRevision : Nat} (hrevision : 1 ≤ planRevision)
    (mode : SearchMode) (expansion : Bool) (existing : Finset String) :
    ∃ queries, compile py policy intent mode planRevision expansion existing = .ok queries ∧
      List.Forall₂ (OfVariant py policy intent planRevision)
        ((distinctBy (variantSignature py policy intent)
          ((variantsOf py policy intent mode).filter fun v =>
            variantSignature py policy intent v ∉ existing)).take
          (if expansion then policy.queryLimit mode expansion - existing.card
            else policy.queryLimit mode expansion)) queries := by
  rw [compile]
  generalize (if expansion then policy.queryLimit mode expansion - existing.card
    else policy.queryLimit mode expansion) = limit
  by_cases hlimit : limit = 0
  · subst hlimit
    exact ⟨[], if_pos rfl, by simp⟩
  · rw [if_neg hlimit]
    exact compileVariants_ok hpolicy hrevision (by omega) existing _

/-- A variant is one of the variants of its fact. -/
theorem of_mem_variantsOf {mode : SearchMode} {v : Variant}
    (h : v ∈ variantsOf py policy intent mode) :
    v.fact ∈ intent.facts ∧ (keywords v.fact.factType
      (Text.startsWith (py.lower intent.locale) "zh"))[v.index]? = some v.keywords := by
  obtain ⟨queue, hqueue, hv⟩ := mem_roundRobin.mp h
  obtain ⟨fact, hfact, rfl⟩ := List.mem_map.mp hqueue
  obtain ⟨⟨words, index⟩, hwords, rfl⟩ := List.mem_map.mp (List.mem_of_mem_take hv)
  exact ⟨hfact, (List.mem_zipIdx_iff_getElem?.mp hwords)⟩

theorem index_lt {mode : SearchMode} {v : Variant} (h : v ∈ variantsOf py policy intent mode) :
    v.index < 3 := by
  have hlt := List.getElem?_eq_some_iff.mp (of_mem_variantsOf h).2 |>.1
  have hthree : ∀ (factType : FactType) (chinese : Bool),
      (keywords factType chinese).length = 3 := by
    intro factType chinese
    cases factType <;> cases chinese <;> rfl
  rwa [hthree] at hlt

/-- Key and place tell a variant. -/
theorem variant_ext {mode : SearchMode} {v v' : Variant}
    (h : v ∈ variantsOf py policy intent mode) (h' : v' ∈ variantsOf py policy intent mode)
    (hkey : v.fact.key = v'.fact.key) (hindex : v.index = v'.index) : v = v' := by
  obtain ⟨hfact, hwords⟩ := of_mem_variantsOf h
  obtain ⟨hfact', hwords'⟩ := of_mem_variantsOf h'
  have heq : v.fact = v'.fact := eq_of_key_eq intent.keys hfact hfact' hkey
  rw [heq, hindex, hwords'] at hwords
  cases v
  cases v'
  cases heq
  cases hindex
  cases Option.some.inj hwords
  rfl

/-- The key of a query tells the key of its fact and the place of the variant. -/
theorem queryKey_inj {planRevision i j : Nat} {key key' : String} (hi : i < 3) (hj : j < 3)
    (h : "q:" ++ toString planRevision ++ ":" ++ key ++ ":" ++ toString (i + 1)
      = "q:" ++ toString planRevision ++ ":" ++ key' ++ ":" ++ toString (j + 1)) :
    key = key' ∧ i = j := by
  have hdigit : ∀ n < 3, (toString (n + 1)).toList.length = 1 := by decide
  have hdigits : ∀ m < 3, ∀ n < 3, toString (m + 1) = toString (n + 1) → m = n := by decide
  have hlist := congrArg String.toList h
  simp only [String.toList_append] at hlist
  obtain ⟨hfront, hlast⟩ := List.append_inj' hlist (by rw [hdigit i hi, hdigit j hj])
  have hcolon := List.append_cancel_right hfront
  exact ⟨String.toList_inj.mp (List.append_cancel_left hcolon),
    hdigits i hi j hj (String.toList_inj.mp hlast)⟩

/-- Queries of variants with different signatures have different signatures and keys. -/
theorem nodup_of_variants {mode : SearchMode} {planRevision : Nat} {variants : List Variant}
    {queries : List QuerySpec} (hmem : ∀ v ∈ variants, v ∈ variantsOf py policy intent mode)
    (hnodup : (variants.map (variantSignature py policy intent)).Nodup)
    (h : List.Forall₂ (OfVariant py policy intent planRevision) variants queries) :
    (queries.map (·.signature)).Nodup ∧ (queries.map (·.key)).Nodup := by
  have hsignatures : queries.map (·.signature) = variants.map (variantSignature py policy intent) :=
    by
      induction h with
      | nil => rfl
      | cons hvq _ ih =>
          rw [List.map_cons, List.map_cons, hvq.signature]
          rw [List.map_cons, List.nodup_cons] at hnodup
          rw [ih (fun v hv => hmem v (List.mem_cons_of_mem _ hv)) hnodup.2]
  have hkeys : queries.map (·.key) = variants.map fun v =>
      "q:" ++ toString planRevision ++ ":" ++ v.fact.key ++ ":" ++ toString (v.index + 1) := by
    clear hsignatures hnodup hmem
    induction h with
    | nil => rfl
    | cons hvq _ ih => rw [List.map_cons, List.map_cons, hvq.key, ih]
  refine ⟨hsignatures ▸ hnodup, ?_⟩
  rw [hkeys, List.Nodup, List.pairwise_map]
  rw [List.Nodup, List.pairwise_map] at hnodup
  refine hnodup.imp_of_mem fun {v v'} hv hv' hne heq => hne ?_
  obtain ⟨hkey, hindex⟩ := queryKey_inj (index_lt (hmem v hv)) (index_lt (hmem v' hv')) heq
  rw [variant_ext (hmem v hv) (hmem v' hv') hkey hindex]

variable (py policy intent) in
/-- The variants that get queries: they are variants, with different signatures, all new. -/
theorem chosen_spec (mode : SearchMode) (existing : Finset String) (n : Nat) :
    let chosen := (distinctBy (variantSignature py policy intent)
      ((variantsOf py policy intent mode).filter fun v =>
        variantSignature py policy intent v ∉ existing)).take n
    (∀ v ∈ chosen, v ∈ variantsOf py policy intent mode ∧
        variantSignature py policy intent v ∉ existing) ∧
      (chosen.map (variantSignature py policy intent)).Nodup := by
  refine ⟨fun v hv => ?_, (nodup_distinctBy _).sublist ((List.take_sublist _ _).map _)⟩
  obtain ⟨hv, hnew⟩ := List.mem_filter.mp (mem_of_mem_distinctBy (List.mem_of_mem_take hv))
  exact ⟨hv, of_decide_eq_true hnew⟩

end Compile

/-! ## Rounds -/

/-- The invariants of a decision. -/
structure ExpansionDecision.Valid (d : ExpansionDecision) : Prop where
  revision : 1 ≤ d.planRevision
  gain : 0 ≤ d.expectedGain ∧ d.expectedGain ≤ 1
  work : d.shouldExpand = true ↔ d.queries ≠ [] ∧ d.steps ≠ []
  reason : d.shouldExpand = true ↔ d.reason = .expand
  queries : ∀ q ∈ d.queries, q.planRevision = d.planRevision
  steps : List.Forall₂ (fun s q => s.planRevision = d.planRevision ∧ s.queryKey = q.key)
    d.steps d.queries
  gains : ∀ g ∈ d.gainByFact, 0 ≤ g.2 ∧ g.2 ≤ 1

/-- A valid decision passes all checks. -/
theorem ExpansionDecision.Valid.make {d : ExpansionDecision} (h : d.Valid) : d.make = .ok d := by
  have hwork : d.shouldExpand = (!d.queries.isEmpty && !d.steps.isEmpty) := by
    rw [Bool.eq_iff_iff, h.work]
    simp
  have hsteps : ((d.steps.zip d.queries).any fun p =>
      p.1.planRevision ≠ d.planRevision || p.1.queryKey ≠ p.2.key) = false := by
    rw [List.any_eq_false]
    rintro ⟨s, q⟩ hp
    obtain ⟨hrevision, hkey⟩ := List.forall₂_zip h.steps hp
    simp [hrevision, hkey]
  have hqueries : d.queries.any (·.planRevision ≠ d.planRevision) = false := by
    rw [List.any_eq_false]
    intro q hq
    simp [h.queries q hq]
  have hgains : (d.gainByFact.any fun g => ¬(0 ≤ g.2 ∧ g.2 ≤ 1)) = false := by
    rw [List.any_eq_false]
    intro g hg
    simp [h.gains g hg]
  rw [ExpansionDecision.make, if_neg (by have := h.revision; omega), if_neg (not_not.mpr h.gain),
    if_neg (not_not.mpr hwork), if_neg (fun hr => hr.2 (h.reason.mp hr.1)),
    if_neg (fun hr => hr.1 (h.reason.mpr hr.2)), if_neg (not_not.mpr h.steps.length_eq.symm),
    hqueries, if_neg Bool.false_ne_true, hsteps, if_neg Bool.false_ne_true, hgains,
    if_neg Bool.false_ne_true]

section Rounds

variable {py : CompilerText} {policy : SearchPlanningPolicy} {planner : ExpansionPlanner}
  {r : ExpansionPlanner.Round}

theorem gainByFact_range : ∀ g ∈ ExpansionPlanner.gainByFact r, 0 ≤ g.2 ∧ g.2 ≤ 1 := by
  have hfold : ∀ (gains : List ExpectedEvidenceGain) (d : List (String × Rat)),
      (∀ g ∈ d, 0 ≤ g.2 ∧ g.2 ≤ 1) →
        ∀ g ∈ gains.foldl (fun d gain => Dict.set gain.factKey gain.score d) d,
          0 ≤ g.2 ∧ g.2 ≤ 1 := by
    intro gains
    induction gains with
    | nil => exact fun d hd => hd
    | cons gain gains ih =>
        intro d hd
        refine ih _ fun g hg => ?_
        rcases Dict.mem_set hg with rfl | hg
        · exact gain.range
        · exact hd g hg
  exact hfold _ [] fun g hg => by cases hg

/-- Every gain that a mean is taken of is between zero and one, so the mean is. -/
theorem meanGain_range {gains : List (String × Rat)} (h : ∀ g ∈ gains, 0 ≤ g.2 ∧ g.2 ≤ 1)
    (facts : List FactRequirement) :
    0 ≤ ExpansionPlanner.meanGain gains facts ∧ ExpansionPlanner.meanGain gains facts ≤ 1 := by
  have hgain : ∀ key, 0 ≤ (gains.lookup key).getD 0 ∧ (gains.lookup key).getD 0 ≤ 1 := by
    intro key
    cases hlookup : gains.lookup key with
    | none => simp
    | some gain => exact h (key, gain) (Dict.mem_of_lookup hlookup)
  have hsum : 0 ≤ (facts.map fun fact => (gains.lookup fact.key).getD 0).sum ∧
      (facts.map fun fact => (gains.lookup fact.key).getD 0).sum ≤ facts.length := by
    induction facts with
    | nil => simp
    | cons fact facts ih =>
        rw [List.map_cons, List.sum_cons, List.length_cons]
        push_cast
        have := hgain fact.key
        constructor <;> linarith [ih.1, ih.2]
  rw [ExpansionPlanner.meanGain]
  refine ⟨div_nonneg hsum.1 (Nat.cast_nonneg _), ?_⟩
  exact div_le_one_of_le₀ hsum.2 (Nat.cast_nonneg _)

/-- What a round may add to the queries there are. -/
structure Adds (policy : SearchPlanningPolicy) (existing : List QuerySpec) (d : ExpansionDecision) :
    Prop where
  valid : d.Valid
  nodup : (d.queries.map (·.signature)).Nodup
  new : ∀ q ∈ d.queries, q.signature ∉ existing.map (·.signature)
  length_le : d.queries.length
    ≤ policy.researchTotalMaxQueries - (existing.map (·.signature)).toFinset.card

theorem stop_ok {existing : List QuerySpec} {reason : ExpansionStopReason}
    {gains : List (String × Rat)} (hreason : reason ≠ .expand)
    (hgains : ∀ g ∈ gains, 0 ≤ g.2 ∧ g.2 ≤ 1) (revision : Nat) :
    ∃ d, ExpansionPlanner.stop (revision + 1) reason gains = .ok d ∧ Adds policy existing d := by
  have hvalid : ExpansionDecision.Valid ⟨false, revision + 1, [], [], 0, reason, gains⟩ := {
    revision := Nat.le_add_left 1 revision
    gain := ⟨le_refl 0, zero_le_one⟩
    work := by simp
    reason := by simp [hreason]
    queries := fun q hq => by cases hq
    steps := List.Forall₂.nil
    gains := hgains }
  exact ⟨_, hvalid.make, hvalid, List.nodup_nil, (fun q hq => by cases hq), Nat.zero_le _⟩

variable (py planner) in
/-- **A round never fails, and what it adds is new and within the total.** -/
theorem plan_ok (hpolicy : policy.Sound) (hrevision : 1 ≤ r.currentRevision)
    (existing : List QuerySpec) :
    ∃ d, planner.plan py policy r existing = .ok d ∧ Adds policy existing d := by
  rw [ExpansionPlanner.plan, if_neg (by omega)]
  split
  · exact stop_ok (by decide) (fun g hg => by cases hg) _
  split
  · exact stop_ok (by decide) (fun g hg => by cases hg) _
  split
  · exact stop_ok (by decide) gainByFact_range _
  split
  · exact stop_ok (by decide) gainByFact_range _
  rename_i hne
  have hrevision' : 1 ≤ r.currentRevision + 1 := Nat.le_add_left 1 _
  generalize hintent : ExpansionPlanner.narrowedIntent r.intent (planner.selectedFacts r) hne
    List.filter_sublist = intent
  obtain ⟨queries, hqueries, hof⟩ := compile_ok py intent hpolicy hrevision' .research true
    (existing.map (·.signature)).toFinset
  dsimp only
  rw [hintent, hqueries]
  show ∃ d, (if queries.isEmpty then _ else _) = _ ∧ _
  split
  · exact stop_ok (by decide) gainByFact_range _
  rename_i hsome
  have hnil : queries ≠ [] := fun hnil => hsome (by rw [hnil]; rfl)
  have hrevisions : ∀ q ∈ queries, q.planRevision = r.currentRevision + 1 := by
    intro q hq
    obtain ⟨v, -, hvq⟩ := exists_left_of_forall₂ hof hq
    exact hvq.revision
  have hvalid : ExpansionDecision.Valid {
      shouldExpand := true
      planRevision := r.currentRevision + 1
      queries
      steps := queries.map fun query =>
        ⟨"discover:" ++ query.key, .discovery, r.currentRevision + 1, query.key⟩
      expectedGain := ExpansionPlanner.meanGain (ExpansionPlanner.gainByFact r)
        (planner.selectedFacts r)
      reason := .expand
      gainByFact := ExpansionPlanner.gainByFact r } := {
    revision := hrevision'
    gain := meanGain_range gainByFact_range _
    work := by simpa using hnil
    reason := by simp
    queries := hrevisions
    steps := by
      rw [List.forall₂_map_left_iff]
      exact List.forall₂_same.mpr fun q _ => ⟨rfl, rfl⟩
    gains := gainByFact_range }
  obtain ⟨hchosen, hnodup⟩ := chosen_spec py policy intent .research
    (existing.map (·.signature)).toFinset (policy.queryLimit .research true
      - (existing.map (·.signature)).toFinset.card)
  refine ⟨_, hvalid.make, hvalid, ?_, fun q hq => ?_, ?_⟩
  · exact (nodup_of_variants (fun v hv => (hchosen v hv).1) hnodup hof).1
  · obtain ⟨v, hv, hvq⟩ := exists_left_of_forall₂ hof hq
    rw [hvq.signature, ← List.mem_toFinset]
    exact (hchosen v hv).2
  · rw [← hof.length_eq]
    exact List.length_take_le _ _

variable (py policy planner)

/-- Rounds of expansion, each with all queries there are. -/
inductive Rounds : List QuerySpec → List QuerySpec → Prop
  | done (queries : List QuerySpec) : Rounds queries queries
  | round {queries found : List QuerySpec} {r : ExpansionPlanner.Round} {d : ExpansionDecision}
      (before : Rounds queries found) (decided : planner.plan py policy r found = .ok d) :
      Rounds queries (found ++ d.queries)

/-- Over all rounds signatures stay different and within the total, and no round fails. -/
def RoundsSafe (queries : List QuerySpec) : Prop :=
  ∀ found, Rounds py policy planner queries found →
    (found.map (·.signature)).Nodup ∧ found.length ≤ policy.researchTotalMaxQueries ∧
      ∀ r : ExpansionPlanner.Round, 1 ≤ r.currentRevision →
        ∃ d, planner.plan py policy r found = .ok d ∧ d.Valid

variable {py policy planner}

theorem plan_revision_pos {existing : List QuerySpec} {d : ExpansionDecision}
    (h : planner.plan py policy r existing = .ok d) : 1 ≤ r.currentRevision := by
  by_contra hrevision
  rw [ExpansionPlanner.plan, if_pos (by omega)] at h
  cases h

/-- **Rounds are safe** from queries with different signatures within the total. -/
theorem roundsSafe_of_nodup (hpolicy : policy.Sound) {queries : List QuerySpec}
    (hnodup : (queries.map (·.signature)).Nodup)
    (hlength : queries.length ≤ policy.researchTotalMaxQueries) :
    RoundsSafe py policy planner queries := by
  intro found hfound
  have hinv : (found.map (·.signature)).Nodup ∧
      found.length ≤ policy.researchTotalMaxQueries := by
    induction hfound with
    | done => exact ⟨hnodup, hlength⟩
    | @round found r d _ decided ih =>
        obtain ⟨d', hd', hadds⟩ := plan_ok py planner hpolicy (plan_revision_pos decided) found
        obtain rfl : d' = d := Except.ok.inj (hd'.symm.trans decided)
        obtain ⟨ihnodup, ihlength⟩ := ih
        have hcard : (found.map (·.signature)).toFinset.card = found.length := by
          rw [List.toFinset_card_of_nodup ihnodup, List.length_map]
        have hle := hadds.length_le
        rw [hcard] at hle
        constructor
        · rw [List.map_append]
          refine ihnodup.append hadds.nodup fun signature hold hnew => ?_
          obtain ⟨q, hq, rfl⟩ := List.mem_map.mp hnew
          exact hadds.new q hq hold
        · rw [List.length_append]
          omega
  refine ⟨hinv.1, hinv.2, fun r hrevision => ?_⟩
  obtain ⟨d, hd, hadds⟩ := plan_ok py planner hpolicy hrevision found
  exact ⟨d, hd, hadds.valid⟩

end Rounds

/-! ## Coverage -/

/-- Every fact has a query, keys and signatures are different, and texts say something and fit. -/
structure Covering (policy : SearchPlanningPolicy) (intent : NormalizedIntent)
    (queries : List QuerySpec) : Prop where
  covers : ∀ fact ∈ intent.facts, ∃ q ∈ queries, q.factKey = fact.key
  keys : (queries.map (·.key)).Nodup
  signatures : (queries.map (·.signature)).Nodup
  texts : ∀ q ∈ queries, q.text ≠ "" ∧ q.text.length ≤ policy.maxQueryCharacters

section Coverage

variable (py : CompilerText) (policy : SearchPlanningPolicy) (intent : NormalizedIntent)

/-- A fact has a variant of its own: no variant before it has its signature, and there are fewer
signatures before it than queries. -/
def OwnVariant (mode : SearchMode) (fact : FactRequirement) : Prop :=
  ∃ before v after, variantsOf py policy intent mode = before ++ v :: after ∧ v.fact = fact ∧
    variantSignature py policy intent v ∉ before.map (variantSignature py policy intent) ∧
    (before.map (variantSignature py policy intent)).toFinset.card < policy.queryLimit mode false

variable {py policy intent}

/-- **Queries cover every fact exactly if every fact has a variant of its own.** Keys, signatures
and texts are always as they should be, and so are all rounds that follow. -/
theorem compile_covers_iff (hpolicy : policy.Sound) (planner : ExpansionPlanner) (mode : SearchMode)
    {planRevision : Nat} (hrevision : 1 ≤ planRevision) :
    (∃ queries, compile py policy intent mode planRevision false ∅ = .ok queries ∧
        Covering policy intent queries ∧ RoundsSafe py policy planner queries) ↔
      ∀ fact ∈ intent.facts, OwnVariant py policy intent mode fact := by
  obtain ⟨queries, hqueries, hof⟩ := compile_ok py intent hpolicy hrevision mode false ∅
  obtain ⟨hchosen, hnodup⟩ := chosen_spec py policy intent mode ∅ (policy.queryLimit mode false)
  have hall : (variantsOf py policy intent mode).filter (fun v =>
      variantSignature py policy intent v ∉ (∅ : Finset String))
        = variantsOf py policy intent mode :=
    List.filter_eq_self.mpr fun v _ => by simp
  simp only [hall] at hof hchosen hnodup
  rw [if_neg Bool.false_ne_true] at hof
  constructor
  · rintro ⟨found, hfound, hcovering, -⟩ fact hfact
    obtain rfl : found = queries := Except.ok.inj (hfound.symm.trans hqueries)
    obtain ⟨q, hq, hkey⟩ := hcovering.covers fact hfact
    obtain ⟨v, hv, hvq⟩ := exists_left_of_forall₂ hof hq
    obtain ⟨before, after, hsplit, hnew, hcard⟩ := (mem_take_distinctBy_iff _ _ _).mp hv
    have hvfact := (of_mem_variantsOf (hchosen v hv).1).1
    refine ⟨before, v, after, hsplit, ?_, hnew, hcard⟩
    exact eq_of_key_eq intent.keys hvfact hfact (hvq.factKey.symm.trans hkey)
  · intro h
    obtain ⟨hsignatures, hkeys⟩ := nodup_of_variants (fun v hv => (hchosen v hv).1) hnodup hof
    refine ⟨queries, hqueries, ⟨fun fact hfact => ?_, hkeys, hsignatures, fun q hq => ?_⟩, ?_⟩
    · obtain ⟨before, v, after, hsplit, rfl, hnew, hcard⟩ := h fact hfact
      have hv := (mem_take_distinctBy_iff _ _ _).mpr ⟨before, after, hsplit, hnew, hcard⟩
      obtain ⟨q, hq, hvq⟩ := exists_right_of_forall₂ hof hv
      exact ⟨q, hq, hvq.factKey⟩
    · obtain ⟨v, -, hvq⟩ := exists_left_of_forall₂ hof hq
      refine ⟨fun hnil => ?_, hvq.length_le⟩
      obtain ⟨c, cs, htext, -⟩ := hvq.starts
      rw [hnil] at htext
      cases htext
    · refine roundsSafe_of_nodup hpolicy hsignatures ?_
      rw [← hof.length_eq]
      refine (List.length_take_le _ _).trans ?_
      cases mode with
      | fast => exact hpolicy.fast_le
      | research => exact hpolicy.initial_le

variable (py intent) in
/-- The first variant of a fact. -/
def firstVariant (fact : FactRequirement) : Variant :=
  ⟨fact, 0, (keywords fact.factType (Text.startsWith (py.lower intent.locale) "zh")).headD []⟩

variable (py intent) in
/-- The first variants of the facts come first. -/
theorem exists_firstVariants {mode : SearchMode} (hperFact : 1 ≤ policy.perFactLimit mode) :
    ∃ rest, variantsOf py policy intent mode
      = intent.facts.map (firstVariant py intent) ++ rest := by
  obtain ⟨n, hn⟩ : ∃ n, policy.perFactLimit mode = n + 1 :=
    ⟨policy.perFactLimit mode - 1, by omega⟩
  have hhead : ∀ (factType : FactType) (chinese : Bool), ∃ words rest,
      keywords factType chinese = words :: rest := by
    intro factType chinese
    cases factType <;> cases chinese <;> exact ⟨_, _, rfl⟩
  have hfirst : ∀ fact : FactRequirement, (((keywords fact.factType
      (Text.startsWith (py.lower intent.locale) "zh")).zipIdx.map
        fun v => (⟨fact, v.2, v.1⟩ : Variant))[0]?) = some (firstVariant py intent fact) := by
    intro fact
    obtain ⟨words, rest, hwords⟩ := hhead fact.factType
      (Text.startsWith (py.lower intent.locale) "zh")
    rw [firstVariant, hwords]
    rfl
  rw [variantsOf, hn, roundRobin, List.range_succ_eq_map, List.flatMap_cons, List.filterMap_map]
  simp only [Function.comp_def, hfirst, List.filterMap_eq_map']
  exact ⟨_, rfl⟩

/-- It is enough that the first variants have different signatures, where the facts are not more
than the queries. -/
theorem ownVariant_of_first {mode : SearchMode} (hperFact : 1 ≤ policy.perFactLimit mode)
    (hfacts : intent.facts.length ≤ policy.queryLimit mode false)
    (hfirst : (intent.facts.map fun fact =>
      variantSignature py policy intent (firstVariant py intent fact)).Nodup) :
    ∀ fact ∈ intent.facts, OwnVariant py policy intent mode fact := by
  intro fact hfact
  obtain ⟨rest, hrest⟩ := exists_firstVariants py intent hperFact
  obtain ⟨front, back, hsplit⟩ := List.append_of_mem hfact
  refine ⟨front.map (firstVariant py intent), firstVariant py intent fact,
    back.map (firstVariant py intent) ++ rest, ?_, rfl, ?_, ?_⟩
  · rw [hrest, hsplit, List.map_append, List.map_cons, List.append_assoc, List.cons_append]
  · rw [hsplit, List.map_append, List.map_cons] at hfirst
    rw [List.map_map]
    exact fun hmem =>
      List.disjoint_of_nodup_append hfirst hmem List.mem_cons_self
  · refine (List.toFinset_card_le _).trans_lt ?_
    rw [List.length_map, List.length_map]
    rw [hsplit, List.length_append, List.length_cons] at hfacts
    omega

end Coverage

/-! ## Two keys that differ in case -/

namespace Sample

/-- What the patterns and tables say about ASCII texts without an unsafe fragment. -/
def py : CompilerText where
  search _ _ := false
  casefold := Text.lowerAscii
  lower := Text.lowerAscii
  nfkc text := text
  isWord c := c.isAlphanum || c == '_'
  sha256 text := text

def planner : ExpansionPlanner where
  range := by norm_num

def policy : SearchPlanningPolicy := {}

theorem policy_sound : policy.Sound := ⟨by decide, by decide, by decide⟩

def fact (key : String) (h : Text.isBlank key = false) : FactRequirement where
  key
  factType := .version
  description := "Python release"
  subject := "Python"
  given := ⟨h, by decide +kernel, by decide⟩
  subject_term := by decide

theorem no_aliases : ∀ name ∈ ([] : List String), isSearchTerm name 48 = true := by simp

/-- Two facts whose keys differ in case only. -/
def twoCases : NormalizedIntent where
  entity := "Python"
  aliases := []
  locale := "en"
  facts := [fact "Release" (by decide), fact "release" (by decide)]
  given := by decide
  entity_term := by decide
  alias_terms := no_aliases
  keys := by decide

/-- One fact. -/
def oneFact : NormalizedIntent where
  entity := "Python"
  aliases := []
  locale := "en"
  facts := [fact "release" (by decide)]
  given := by decide
  entity_term := by decide
  alias_terms := no_aliases
  keys := by decide

end Sample

open Sample in
/-- The second fact gets no query. -/
theorem fact_without_query : ∃ queries,
    compile py policy twoCases .fast 1 false ∅ = .ok queries ∧
      queries.map (·.factKey) = ["Release"] := by
  have hkeys : (match compile py policy twoCases .fast 1 false ∅ with
      | .ok queries => queries.map (·.factKey)
      | .error _ => []) = ["Release"] := by decide +kernel
  obtain ⟨queries, hqueries, -⟩ :=
    compile_ok py twoCases policy_sound (Nat.le_refl 1) .fast false ∅
  rw [hqueries] at hkeys
  exact ⟨queries, hqueries, hkeys⟩

open Sample in
/-- One fact has its queries. -/
theorem compile_covers_iff_one : ∃ queries,
    compile py policy oneFact .research 1 false ∅ = .ok queries ∧
      Covering policy oneFact queries ∧ RoundsSafe py policy planner queries := by
  refine (compile_covers_iff policy_sound planner .research (Nat.le_refl 1)).mpr ?_
  exact ownVariant_of_first (by decide) (by decide) (List.nodup_singleton _)

end Sana.Planning
