import Mathlib.Data.Set.Function
import Sana.Evidence.CandidateSelector

/-!
# Quotas of candidates

The candidates of a fact are ranked, newcomers first, and the facts take turns; both are the
library's, and so is what holds of every front of the result. That the candidates have different
identifiers is another matter: an identifier says which chunk the quote is from, and two hits that
end at one page have the same chunks.
-/

namespace Sana.Evidence

open Sana.Lib Sana.Planning

/-- Within each tag nothing comes twice, and what is the same has the same tag. -/
theorem nodup_map_of_filter {α β ι : Type*} [DecidableEq ι] (tag : α → ι) {f : α → β} {l : List α}
    (hfilter : ∀ x ∈ l, ((l.filter fun y => tag y == tag x).map f).Nodup)
    (htag : ∀ x ∈ l, ∀ y ∈ l, f x = f y → tag x = tag y) : (l.map f).Nodup := by
  induction l with
  | nil => exact List.nodup_nil
  | cons a l ih =>
      rw [List.map_cons, List.nodup_cons]
      constructor
      · intro hmem
        obtain ⟨b, hb, hf⟩ := List.mem_map.mp hmem
        have hab : tag b = tag a :=
          htag b (List.mem_cons_of_mem _ hb) a List.mem_cons_self hf
        have hnodup := hfilter a List.mem_cons_self
        rw [List.filter_cons, if_pos (beq_self_eq_true _), List.map_cons, List.nodup_cons] at hnodup
        refine hnodup.1 (List.mem_map.mpr ⟨b, List.mem_filter.mpr ⟨hb, ?_⟩, hf⟩)
        exact beq_iff_eq.mpr hab
      · refine ih (fun x hx => ?_) fun x hx y hy =>
          htag x (List.mem_cons_of_mem _ hx) y (List.mem_cons_of_mem _ hy)
        refine (hfilter x (List.mem_cons_of_mem _ hx)).sublist ?_
        exact ((List.sublist_cons_self a l).filter _).map f

section Names

variable {run : SelectionRun} {factId factId' chunkId chunkId' : Uuid} {quote quote' : String}

theorem length_str (u : Uuid) : u.str.toList.length = 36 := by
  simp [Uuid.str]

/-- A name says which fact, which chunk and which digest. -/
theorem candidateName_inj
    (h : candidateName run factId chunkId quote = candidateName run factId' chunkId' quote') :
    factId = factId' ∧ chunkId = chunkId' ∧
      run.builtins.sha256 quote = run.builtins.sha256 quote' := by
  have hlist := congrArg String.toList h
  simp only [candidateName, String.toList_append, List.append_assoc] at hlist
  have hrest := List.append_cancel_left hlist
  obtain ⟨hfact, hrest⟩ := List.append_inj hrest (by rw [length_str, length_str])
  have hrest := List.append_cancel_left hrest
  obtain ⟨hchunk, hrest⟩ := List.append_inj hrest (by rw [length_str, length_str])
  have hdigest := List.append_cancel_left hrest
  exact ⟨Uuid.str_injective (String.toList_inj.mp hfact),
    Uuid.str_injective (String.toList_inj.mp hchunk), String.toList_inj.mp hdigest⟩

end Names

/-! ## The candidates of a fact -/

section Candidates

variable (selector : CandidateSelector) (run : SelectionRun) (e : Enumeration)

/-- The same selector with other limits. -/
def CandidateSelector.limited (perFact total : Nat) (h : 1 ≤ perFact ∧ 1 ≤ total) :
    CandidateSelector where
  classify := selector.classify
  perFact
  total
  quoteChars := selector.quoteChars
  positive := ⟨h.1, h.2, selector.positive.2.2⟩

/-- The chunk and the quote of every match of a fact. -/
def matchedQuotes (fact : Uuid × FactRequirement) (documents : List CandidateDocument) :
    List (Uuid × String) :=
  documents.flatMap fun document =>
    if fact.1 ∈ document.mappedFactIds then
      document.chunks.filterMap fun chunk => (chunkScore run e fact.2 chunk.2.text).map fun _ =>
        (chunk.1, chunkQuote run e selector.quoteChars fact.2 chunk.2.text)
    else []

/-- All candidates of a fact. -/
def CandidateSelector.candidates (documents : List CandidateDocument)
    (fact : Uuid × FactRequirement) : List Selectable :=
  documents.flatMap fun document =>
    match selector.classify document.url run.entity with
    | .ok source => documentCandidates run e selector.quoteChars fact.1 fact.2 (document, source)
    | .error _ => []

variable {documents : List CandidateDocument} {fact : Uuid × FactRequirement}

/-- A document gives candidates with the chunks and the quotes of its matches. -/
theorem documentCandidates_matches (fact : Uuid × FactRequirement) (document : CandidateDocument)
    (source : String × SourceAuthority) :
    (documentCandidates run e selector.quoteChars fact.1 fact.2 (document, source)).map
        (fun c => (c.chunkId, c.quote))
      = matchedQuotes selector run e fact [document] := by
  rw [matchedQuotes, List.flatMap_singleton, documentCandidates]
  split
  · rw [List.map_filterMap]
    refine List.filterMap_congr fun chunk _ => ?_
    rw [chunkCandidate, Option.map_map]
    rfl
  · rfl

variable {selector run e}

/-- Every candidate carries its fact, and its identifier is derived from fact, chunk and quote. -/
theorem of_mem_candidates {c : Selectable} (h : c ∈ selector.candidates run e documents fact) :
    c.factId = fact.1 ∧ c.id = candidateId run fact.1 c.chunkId c.quote := by
  obtain ⟨document, -, hc⟩ := List.mem_flatMap.mp h
  split at hc
  · rw [documentCandidates] at hc
    split at hc
    · obtain ⟨chunk, -, hchunk⟩ := List.mem_filterMap.mp hc
      rw [chunkCandidate, Option.map_eq_some_iff] at hchunk
      obtain ⟨score, -, rfl⟩ := hchunk
      exact ⟨rfl, rfl⟩
    · cases hc
  · cases hc

/-- With known sources, the candidates are the matches. -/
theorem candidates_matches
    (h : ∀ document ∈ documents, ∃ source, selector.classify document.url run.entity = .ok source) :
    (selector.candidates run e documents fact).map (fun c => (c.chunkId, c.quote))
      = matchedQuotes selector run e fact documents := by
  induction documents with
  | nil => rfl
  | cons document documents ih =>
      obtain ⟨source, hsource⟩ := h document List.mem_cons_self
      have hhead := documentCandidates_matches selector run e fact document source
      have hrest := ih fun d hd => h d (List.mem_cons_of_mem _ hd)
      rw [matchedQuotes, List.flatMap_singleton] at hhead
      rw [CandidateSelector.candidates, matchedQuotes, List.flatMap_cons, List.flatMap_cons,
        List.map_append, hsource, hhead]
      exact congrArg _ hrest

/-- The loop over the documents collects the candidates of every fact. -/
theorem classifyAll_ok
    (h : ∀ document ∈ documents, ∃ source, selector.classify document.url run.entity = .ok source) :
    ∃ classified, selector.classifyAll run documents = .ok classified ∧
      ∀ fact : Uuid × FactRequirement,
        classified.flatMap (documentCandidates run e selector.quoteChars fact.1 fact.2)
          = selector.candidates run e documents fact := by
  induction documents with
  | nil => exact ⟨[], rfl, fun _ => rfl⟩
  | cons document documents ih =>
      obtain ⟨source, hsource⟩ := h document List.mem_cons_self
      obtain ⟨classified, hall, hcandidates⟩ := ih fun d hd => h d (List.mem_cons_of_mem _ hd)
      refine ⟨(document, source) :: classified, ?_, fun fact => ?_⟩
      · rw [CandidateSelector.classifyAll] at hall ⊢
        rw [List.mapM_cons, hsource, hall]
        rfl
      · rw [List.flatMap_cons, hcandidates, CandidateSelector.candidates,
          CandidateSelector.candidates, List.flatMap_cons, hsource]

/-- It fails unless every source is known. -/
theorem classify_of_classifyAll {classified : List (CandidateDocument × String × SourceAuthority)}
    (h : selector.classifyAll run documents = .ok classified) :
    ∀ document ∈ documents, ∃ source, selector.classify document.url run.entity = .ok source := by
  induction documents generalizing classified with
  | nil => exact fun d hd => by cases hd
  | cons document documents ih =>
      rw [CandidateSelector.classifyAll, List.mapM_cons] at h
      cases hsource : selector.classify document.url run.entity with
      | error error => rw [hsource] at h; cases h
      | ok source =>
          rw [hsource] at h
          cases hrest : selector.classifyAll run documents with
          | error error =>
              rw [CandidateSelector.classifyAll] at hrest
              rw [hrest] at h
              cases h
          | ok rest =>
              intro d hd
              rcases List.mem_cons.mp hd with rfl | hd
              · exact ⟨source, hsource⟩
              · exact ih hrest d hd

variable (selector run e) in
/-- What `select` returns where every source is known. -/
theorem select_ok {facts : List (Uuid × FactRequirement)}
    (h : ∀ document ∈ documents, ∃ source, selector.classify document.url run.entity = .ok source) :
    selector.select run e facts documents = .ok ((roundRobin selector.perFact
      (facts.map fun fact =>
        rankedCandidates selector.perFact (selector.candidates run e documents fact))).take
          selector.total) := by
  obtain ⟨classified, hall, hcandidates⟩ := classifyAll_ok (e := e) h
  rw [CandidateSelector.select, hall]
  show Except.ok _ = _
  rw [CandidateSelector.byFact, List.map_map]
  congr 4
  funext fact
  exact congrArg _ (hcandidates fact)

end Candidates

/-! ## Quotas and turns -/

/-- Candidates are taken fairly from those of every fact. -/
structure Fair (facts : List (Uuid × FactRequirement))
    (candidates : Uuid × FactRequirement → List Selectable) (perFact total : Nat)
    (selected : List Selectable) : Prop where
  known : ∀ c ∈ selected, ∃ fact ∈ facts, c ∈ candidates fact
  distinct : (selected.map (·.id)).Nodup
  perFact_le : ∀ fact ∈ facts, (selected.countP fun c => c.factId == fact.1) ≤ perFact
  total_le : selected.length ≤ total
  /-- A fact gets a second candidate only after every fact with candidates has got one. -/
  turns : ∀ before c after, selected = before ++ c :: after → c.factId ∈ before.map (·.factId) →
    ∀ fact ∈ facts, candidates fact ≠ [] → fact.1 ∈ before.map (·.factId)
  /-- A source of a fact is repeated only after every source of it has come. -/
  sources : ∀ fact ∈ facts, ∀ before c after,
    selected.filter (fun c => c.factId == fact.1) = before ++ c :: after →
    c.sourceIdentity ∈ before.map (·.sourceIdentity) →
    ∀ x ∈ candidates fact, x.sourceIdentity ∈ before.map (·.sourceIdentity)
  /-- Among those of different sources, the official ones are in front. -/
  official : ∀ fact ∈ facts, ∀ before c after,
    selected.filter (fun c => c.factId == fact.1) = before ++ c :: after →
    c.sourceIdentity ∉ before.map (·.sourceIdentity) → c.sourceAuthority = .official →
    ∀ x ∈ before, x.sourceAuthority = .official

/-- No two quotes of a call have the same digest, and no two names the same identifier. -/
structure NoCollision (selector : CandidateSelector) (run : SelectionRun) (e : Enumeration)
    (facts : List (Uuid × FactRequirement)) (documents : List CandidateDocument) : Prop where
  sha256 : Set.InjOn run.builtins.sha256
    {quote | ∃ fact ∈ facts, ∃ m ∈ matchedQuotes selector run e fact documents, m.2 = quote}
  uuid5 : Set.InjOn (run.builtins.uuid5 run.runId)
    {name | ∃ fact ∈ facts, ∃ m ∈ matchedQuotes selector run e fact documents,
      candidateName run fact.1 m.1 m.2 = name}

section Fairness

variable {selector : CandidateSelector} {run : SelectionRun} {e : Enumeration}
  {facts : List (Uuid × FactRequirement)} {documents : List CandidateDocument}

theorem ranked_perm (candidates : List Selectable) :
    (newFirst (fun c : Selectable => c.sourceIdentity) (rank candidateKey candidates)).Perm
      candidates :=
  (newFirst_perm _ _).trans (rank_perm _ _)

theorem mem_of_mem_ranked {n : Nat} {candidates : List Selectable} {c : Selectable}
    (h : c ∈ rankedCandidates n candidates) : c ∈ candidates :=
  (ranked_perm candidates).mem_iff.mp (List.mem_of_mem_take h)

/-- The chosen ones of a fact are a front of its ranked candidates. -/
theorem filter_prefix (hfacts : (facts.map Prod.fst).Nodup) {perFact total : Nat}
    {fact : Uuid × FactRequirement} (hfact : fact ∈ facts) :
    ((roundRobin perFact (facts.map fun fact =>
        rankedCandidates perFact (selector.candidates run e documents fact))).take total).filter
          (fun c => c.factId == fact.1)
      <+: rankedCandidates perFact (selector.candidates run e documents fact) := by
  have htag : ∀ fact ∈ facts, ∀ c ∈ rankedCandidates perFact
      (selector.candidates run e documents fact), c.factId = fact.1 :=
    fun fact _ c hc => (of_mem_candidates (mem_of_mem_ranked hc)).1
  have hfilter := filter_roundRobin (fun c : Selectable => c.factId) hfacts htag hfact perFact
  rw [rankedCandidates, List.take_take, Nat.min_self, ← rankedCandidates] at hfilter
  have hstarts := (List.take_prefix total (roundRobin perFact (facts.map fun fact =>
    rankedCandidates perFact (selector.candidates run e documents fact)))).filter
      fun c => c.factId == fact.1
  rwa [hfilter] at hstarts

/-- Quotas, turns and sources hold whatever the identifiers are. -/
theorem fair_of_distinct (hfacts : (facts.map Prod.fst).Nodup) {perFact total : Nat}
    (hpositive : 1 ≤ perFact) {selected : List Selectable}
    (hselected : selected = (roundRobin perFact (facts.map fun fact =>
      rankedCandidates perFact (selector.candidates run e documents fact))).take total)
    (hdistinct : (selected.map (·.id)).Nodup) :
    Fair facts (selector.candidates run e documents) perFact total selected := by
  have hstarts : ∀ fact ∈ facts, selected.filter (fun c => c.factId == fact.1)
      <+: rankedCandidates perFact (selector.candidates run e documents fact) :=
    fun fact hfact => hselected ▸ filter_prefix hfacts hfact
  have hnew : ∀ fact ∈ facts, selected.filter (fun c => c.factId == fact.1)
      <+: newFirst (fun c : Selectable => c.sourceIdentity)
        (rank candidateKey (selector.candidates run e documents fact)) :=
    fun fact hfact => (hstarts fact hfact).trans (List.take_prefix _ _)
  refine ⟨fun c hc => ?_, hdistinct, fun fact hfact => ?_, ?_, ?_, ?_, ?_⟩
  · rw [hselected] at hc
    obtain ⟨queue, hqueue, hmem⟩ := mem_roundRobin.mp (List.mem_of_mem_take hc)
    obtain ⟨fact, hfact, rfl⟩ := List.mem_map.mp hqueue
    exact ⟨fact, hfact, mem_of_mem_ranked (List.mem_of_mem_take hmem)⟩
  · rw [List.countP_eq_length_filter]
    exact (hstarts fact hfact).length_le.trans (List.length_take_le _ _)
  · rw [hselected]
    exact List.length_take_le _ _
  · intro before c after hsplit hc fact hfact hne
    have htag : ∀ fact ∈ facts, ∀ c ∈ rankedCandidates perFact
        (selector.candidates run e documents fact), c.factId = fact.1 :=
      fun fact _ c hc => (of_mem_candidates (mem_of_mem_ranked hc)).1
    have hfair := roundRobin_fair (fun c : Selectable => c.factId) hfacts htag
      (hsplit ▸ hselected ▸ List.take_prefix _ _) hfact
    have hone : 0 < before.countP fun x => x.factId == c.factId := by
      obtain ⟨x, hx, heq⟩ := List.mem_map.mp hc
      exact List.countP_pos_iff.mpr ⟨x, hx, beq_iff_eq.mpr heq⟩
    have hranked : 0 < (rankedCandidates perFact
        (selector.candidates run e documents fact)).length := by
      rw [rankedCandidates, List.length_take, (ranked_perm _).length_eq]
      have := List.length_pos_iff.mpr hne
      omega
    have hpos : 0 < before.countP fun x => x.factId == fact.1 := by omega
    obtain ⟨x, hx, heq⟩ := List.countP_pos_iff.mp hpos
    exact List.mem_map.mpr ⟨x, hx, eq_of_beq heq⟩
  · intro fact hfact before c after hsplit hc x hx
    exact newFirst_repeats (hsplit ▸ hnew fact hfact) hc (mem_rank.mpr hx)
  · intro fact hfact before c after hsplit hc hofficial x hx
    have hsorted := newFirst_sorted (pairwise_rank candidateKey _) (hsplit ▸ hnew fact hfact) hc hx
    have hle := Prod.Lex.monotone_fst _ _ hsorted
    by_contra hx
    simp only [candidateKey, ofLex_toLex, if_pos hofficial, if_neg hx] at hle
    omega

/-- Without collisions the identifiers differ as the matches do. -/
theorem distinct_of_matches (hfacts : (facts.map Prod.fst).Nodup)
    (hcollision : NoCollision selector run e facts documents)
    (hsource : ∀ document ∈ documents,
      ∃ source, selector.classify document.url run.entity = .ok source)
    (hmatches : ∀ fact ∈ facts, (matchedQuotes selector run e fact documents).Nodup)
    {perFact total : Nat} :
    (((roundRobin perFact (facts.map fun fact => rankedCandidates perFact
      (selector.candidates run e documents fact))).take total).map (·.id)).Nodup := by
  generalize hselected : (roundRobin perFact (facts.map fun fact => rankedCandidates perFact
    (selector.candidates run e documents fact))).take total = selected
  have hknown : ∀ c ∈ selected, ∃ fact ∈ facts, c ∈ selector.candidates run e documents fact := by
    intro c hc
    rw [← hselected] at hc
    obtain ⟨queue, hqueue, hmem⟩ := mem_roundRobin.mp (List.mem_of_mem_take hc)
    obtain ⟨fact, hfact, rfl⟩ := List.mem_map.mp hqueue
    exact ⟨fact, hfact, mem_of_mem_ranked (List.mem_of_mem_take hmem)⟩
  have hmem : ∀ fact, ∀ c ∈ selector.candidates run e documents fact,
      (c.chunkId, c.quote) ∈ matchedQuotes selector run e fact documents := by
    intro fact c hc
    rw [← candidates_matches hsource]
    exact List.mem_map.mpr ⟨c, hc, rfl⟩
  -- equal identifiers come from equal names, so from one fact, one chunk and one quote
  have hname : ∀ fact ∈ facts, ∀ fact' ∈ facts, ∀ c ∈ selector.candidates run e documents fact,
      ∀ c' ∈ selector.candidates run e documents fact', c.id = c'.id →
        fact.1 = fact'.1 ∧ (c.chunkId, c.quote) = (c'.chunkId, c'.quote) := by
    intro fact hfact fact' hfact' c hc c' hc' hid
    rw [(of_mem_candidates hc).2, (of_mem_candidates hc').2] at hid
    obtain ⟨hf, hchunk, hdigest⟩ := candidateName_inj (hcollision.uuid5
      ⟨fact, hfact, _, hmem fact c hc, rfl⟩ ⟨fact', hfact', _, hmem fact' c' hc', rfl⟩ hid)
    have hquote := hcollision.sha256 ⟨fact, hfact, _, hmem fact c hc, rfl⟩
      ⟨fact', hfact', _, hmem fact' c' hc', rfl⟩ hdigest
    exact ⟨hf, Prod.ext hchunk hquote⟩
  refine nodup_map_of_filter (fun c : Selectable => c.factId) (fun c hc => ?_) ?_
  · obtain ⟨fact, hfact, hcandidate⟩ := hknown c hc
    rw [(of_mem_candidates hcandidate).1]
    have hstarts : selected.filter (fun c => c.factId == fact.1)
        <+: rankedCandidates perFact (selector.candidates run e documents fact) :=
      hselected ▸ filter_prefix hfacts hfact
    have hids : ((selector.candidates run e documents fact).map (·.id)).Nodup := by
      have hnodup := hmatches fact hfact
      rw [← candidates_matches hsource, List.Nodup, List.pairwise_map] at hnodup
      rw [List.Nodup, List.pairwise_map]
      exact hnodup.imp_of_mem fun {c c'} hc hc' hne hid =>
        hne (hname fact hfact fact hfact c hc c' hc' hid).2
    have hranked : ((rankedCandidates perFact (selector.candidates run e documents fact)).map
        (·.id)).Nodup :=
      (((ranked_perm _).map (·.id)).nodup_iff.mpr hids).sublist ((List.take_sublist _ _).map _)
    exact hranked.sublist (hstarts.sublist.map _)
  · intro c hc c' hc' hid
    obtain ⟨fact, hfact, hcandidate⟩ := hknown c hc
    obtain ⟨fact', hfact', hcandidate'⟩ := hknown c' hc'
    rw [(of_mem_candidates hcandidate).1, (of_mem_candidates hcandidate').1]
    exact (hname fact hfact fact' hfact' c hcandidate c' hcandidate' hid).1

/-- With limits that are large enough, every candidate of a fact is chosen. -/
theorem candidates_chosen (hfacts : (facts.map Prod.fst).Nodup)
    (hsource : ∀ document ∈ documents,
      ∃ source, selector.classify document.url run.entity = .ok source)
    {fact : Uuid × FactRequirement} (hfact : fact ∈ facts) :
    ∃ perFact total, ∃ h : 1 ≤ perFact ∧ 1 ≤ total, ∀ selected,
      (selector.limited perFact total h).select run e facts documents = .ok selected →
        (selected.filter fun c => c.factId == fact.1).Perm
          (selector.candidates run e documents fact) := by
  generalize hn : (selector.candidates run e documents fact).length + 1 = n
  generalize hall : roundRobin n (facts.map fun fact =>
    rankedCandidates n (selector.candidates run e documents fact)) = all
  refine ⟨n, all.length + 1, ⟨by omega, by omega⟩, fun selected hselected => ?_⟩
  rw [select_ok (selector.limited n (all.length + 1) ⟨by omega, by omega⟩) run e hsource]
    at hselected
  have hselected : (roundRobin n (facts.map fun fact =>
      rankedCandidates n (selector.candidates run e documents fact))).take (all.length + 1)
        = selected := Except.ok.inj hselected
  have htag : ∀ fact ∈ facts, ∀ c ∈ rankedCandidates n
      (selector.candidates run e documents fact), c.factId = fact.1 :=
    fun fact _ c hc => (of_mem_candidates (mem_of_mem_ranked hc)).1
  have hfilter := filter_roundRobin (fun c : Selectable => c.factId) hfacts htag hfact n
  rw [hall, List.take_of_length_le (Nat.le_succ _)] at hselected
  rw [hall, rankedCandidates, List.take_take, Nat.min_self, List.take_of_length_le
    (by rw [(ranked_perm _).length_eq]; omega)] at hfilter
  rw [← hselected, hfilter]
  exact ranked_perm _

/-- **Quotas and fairness.** For given facts and documents, `select` returns distinct candidates
within its limits, and fairly, whatever the limits are, exactly if every source is known and no
two matches of a fact have the same chunk and the same quote. -/
theorem select_fair_iff (hfacts : (facts.map Prod.fst).Nodup)
    (hcollision : NoCollision selector run e facts documents) :
    (∀ perFact total, ∀ h : 1 ≤ perFact ∧ 1 ≤ total, ∃ selected,
        (selector.limited perFact total h).select run e facts documents = .ok selected ∧
          Fair facts (selector.candidates run e documents) perFact total selected) ↔
      (∀ document ∈ documents,
        ∃ source, selector.classify document.url run.entity = .ok source) ∧
      ∀ fact ∈ facts, (matchedQuotes selector run e fact documents).Nodup := by
  constructor
  · intro h
    have hsource : ∀ document ∈ documents,
        ∃ source, selector.classify document.url run.entity = .ok source := by
      obtain ⟨selected, hselected, -⟩ := h 1 1 ⟨Nat.le_refl 1, Nat.le_refl 1⟩
      cases hall : selector.classifyAll run documents with
      | ok classified => exact classify_of_classifyAll hall
      | error error =>
          have hlimited : (selector.limited 1 1 ⟨Nat.le_refl 1, Nat.le_refl 1⟩).classifyAll run
              documents = .error error := hall
          rw [CandidateSelector.select, hlimited] at hselected
          cases hselected
    refine ⟨hsource, fun fact hfact => ?_⟩
    obtain ⟨perFact, total, hlimits, hchosen⟩ := candidates_chosen (e := e) hfacts hsource hfact
    obtain ⟨selected, hselected, hfair⟩ := h perFact total hlimits
    have hids : ((selector.candidates run e documents fact).map (·.id)).Nodup :=
      ((hchosen selected hselected).map _).nodup_iff.mp
        (hfair.distinct.sublist (List.filter_sublist.map _))
    rw [← candidates_matches hsource, List.Nodup, List.pairwise_map]
    rw [List.Nodup, List.pairwise_map] at hids
    refine hids.imp_of_mem fun {c c'} hc hc' hne heq => hne ?_
    obtain ⟨hchunk, hquote⟩ := Prod.mk.inj heq
    rw [(of_mem_candidates hc).2, (of_mem_candidates hc').2, hchunk, hquote]
  · rintro ⟨hsource, hmatches⟩ perFact total hlimits
    refine ⟨_, select_ok (selector.limited perFact total hlimits) run e hsource, ?_⟩
    exact fair_of_distinct hfacts hlimits.1 rfl
      (distinct_of_matches hfacts hcollision hsource hmatches)

end Fairness

/-! ## One page and two hits -/

namespace Sample

/-- The words of a text of letters and blanks. -/
def words (text : String) : List String :=
  (text.toList.splitOnP (· == ' ')).filterMap fun word =>
    if word.isEmpty then none else some (String.ofList word)

/-- What the patterns say about texts of small letters and blanks. -/
def py : PyText where
  search _ _ _ := false
  finditer pattern text _ :=
    (words text).flatMap fun word =>
      if pattern = "(?<![A-Za-z0-9_])" ++ word ++ "(?:s)?(?![A-Za-z0-9_])" then
        (positionsOf text.toList word.toList).map fun i => (i, i + word.length)
      else []
  sub _ _ text _ := text
  findall pattern text := if pattern = "[\\w\\u3400-\\u9fff]+" then words text else []
  escape text := text
  casefold := Text.lowerAscii
  isdecimal text := text.toList.all Char.isDigit
  isalpha text := text.toList.all Char.isAlpha

/-- The digests of these quotes, and the identifiers of their candidates in the run. -/
def digests : List (String × String × Uuid) := [
  ("leader", "4d5b660943625c0af95e935e7bb6fcbb803a79eaff63cd5c0a62d6627cc06733",
    ⟨0x9f9e7c322728571d85b27bcecdd12f72⟩),
  ("leader elect", "8a1b7ffa23a989162d9b14566b19295e2e700d43e66181cac0a3456b99503031",
    ⟨0xdfabaa1709bb5df2a3f77190d8456656⟩),
  ("s a follower", "694340be9d8fa352223a6341fad2a5d17778f5a36af683d10637faadd7535450",
    ⟨0xa6b33f1324475fa6b0c7c7ea7382d5f3⟩)]

/-- Builtins that know these quotes for the fact and the chunk below. -/
def builtins : Builtins where
  strOf _ := ""
  floatOf _ := none
  lower := Text.lowerAscii
  isoformat _ := ""
  fromisoformat _ := none
  uuid5 runId name := ((digests.find? fun d => runId = ⟨1⟩ ∧
    name = "candidate:00000000-0000-0000-0000-000000000002:00000000-0000-0000-0000-000000000006:"
      ++ d.2.1).map (·.2.2)).getD ⟨0⟩
  sha256 text := ((digests.find? (·.1 = text)).map (·.2.1)).getD
    (String.ofList (List.replicate 64 '0'))

def run : SelectionRun := ⟨py, builtins, ⟨1⟩, "etcd"⟩

/-- Sets in alphabetical order. -/
def alphabetical : Enumeration where
  list s := Quot.liftOn s.val (rank id) fun _ _ h => rank_eq_of_perm h fun _ _ _ _ h => h
  nodup s := by
    obtain ⟨⟨l⟩, h⟩ := s
    exact (rank_perm id l).nodup_iff.mpr h
  mem_list s t := by
    obtain ⟨⟨l⟩, h⟩ := s
    exact (rank_perm id l).mem_iff

def fact : FactRequirement where
  key := "etcd_leader"
  factType := .background
  description := "leader"
  subject := "etcd"
  given := by decide
  subject_term := by decide

def selector : CandidateSelector where
  classify _ _ := .ok ("etcd.io", .independent)
  perFact := 3
  total := 8
  quoteChars := 600
  positive := by decide

/-- A page that is mapped to the fact; its identifiers come from its final address and text. -/
def page : CandidateDocument where
  documentId := ⟨3⟩
  version := ⟨⟨4⟩, ⟨5⟩, ⟨3⟩, "leader"⟩
  chunks := [(⟨6⟩, ⟨⟨"leader", 0, 6, by decide⟩, 0⟩)]
  url := "https://etcd.io/"
  title := "etcd"
  mappedFactIds := [⟨2⟩]
  bound := by decide
  distinct := by decide

end Sample

open Sample in
/-- Two hits have been redirected to one page: one candidate is there twice. -/
theorem page_twice : ∃ selected,
    selector.select run alphabetical [(⟨2⟩, fact)] [page, page] = .ok selected ∧
      ¬(selected.map (·.id)).Nodup := by
  refine ⟨_, select_ok selector run alphabetical fun document _ => ⟨_, rfl⟩, ?_⟩
  decide +kernel

open Sample in
/-- With the page alone all is well. -/
theorem select_fair_iff_once :
    (matchedQuotes selector run alphabetical (⟨2⟩, fact) [page]).Nodup ∧
      ∀ perFact total, ∀ h : 1 ≤ perFact ∧ 1 ≤ total, ∃ selected,
        (selector.limited perFact total h).select run alphabetical [(⟨2⟩, fact)] [page]
            = .ok selected ∧
          Fair [(⟨2⟩, fact)] (selector.candidates run alphabetical [page]) perFact total
            selected := by
  have hmatches : matchedQuotes selector run alphabetical (⟨2⟩, fact) [page] = [(⟨6⟩, "leader")] := by
    decide +kernel
  have hone : (matchedQuotes selector run alphabetical (⟨2⟩, fact) [page]).Nodup := by
    rw [hmatches]
    exact List.nodup_singleton _
  refine ⟨hone, (select_fair_iff (by simp) ⟨?_, ?_⟩).mpr
    ⟨fun _ _ => ⟨_, rfl⟩, ?_⟩⟩
  · rintro quote ⟨x, hx, m, hm, rfl⟩ quote' ⟨x', hx', m', hm', rfl⟩ -
    rw [List.mem_singleton.mp hx, hmatches, List.mem_singleton] at hm
    rw [List.mem_singleton.mp hx', hmatches, List.mem_singleton] at hm'
    rw [hm, hm']
  · rintro name ⟨x, hx, m, hm, rfl⟩ name' ⟨x', hx', m', hm', rfl⟩ -
    rw [List.mem_singleton.mp hx, hmatches, List.mem_singleton] at hm
    rw [List.mem_singleton.mp hx', hmatches, List.mem_singleton] at hm'
    rw [hm, hm', List.mem_singleton.mp hx, List.mem_singleton.mp hx']
  · intro x hx
    rw [List.mem_singleton.mp hx]
    exact hone

end Sana.Evidence
