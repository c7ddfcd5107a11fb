import Mathlib.Algebra.BigOperators.Group.Finset.Basic
import Sana.Evidence.Proof.Quotas

/-!
# Selection and the order of sets

Terms and anchors are gone through in an order that another process need not share. Scores count
and add, so they do not depend on it. The quote of a long chunk does: of the best windows the loop
keeps the one it meets first, and that is the leading window of the term that happens to come
first. Nothing else of a candidate looks at the order, and no key that candidates are sorted by
looks at the quote.
-/

namespace Sana.Evidence

open Sana.Lib Sana.Planning

/-! ## What does not depend on the order -/

section Order

variable {run : SelectionRun} {py : PyText} (e e' : Enumeration)

theorem Enumeration.perm (s : Finset String) : (e.list s).Perm (e'.list s) := by
  refine (List.perm_ext_iff_of_nodup (e.nodup s) (e'.nodup s)).mpr fun t => ?_
  rw [e.mem_list, e'.mem_list]

theorem Enumeration.toFinset_list (s : Finset String) : (e.list s).toFinset = s := by
  ext t
  rw [List.mem_toFinset, e.mem_list]

theorem Enumeration.countP_list (s : Finset String) (p : String → Bool) :
    (e.list s).countP p = (s.filter (p ·)).card := by
  have hfilter : ((e.list s).filter p).toFinset = s.filter (p ·) := by
    rw [List.toFinset_filter, e.toFinset_list]
  rw [List.countP_eq_length_filter, ← hfilter,
    List.toFinset_card_of_nodup ((e.nodup s).filter _)]

theorem Enumeration.sum_list (s : Finset String) (f : String → Nat) :
    ((e.list s).map f).sum = ∑ t ∈ s, f t := by
  have hsum := List.sum_toFinset f (e.nodup s)
  rw [e.toFinset_list] at hsum
  exact hsum.symm

theorem foldl_max {α : Type*} (f : α → Nat) (l : List α) (b : Nat) :
    l.foldl (fun b x => max b (f x)) b = max b (l.foldl (fun b x => max b (f x)) 0) := by
  induction l generalizing b with
  | nil => simp
  | cons a l ih =>
      rw [List.foldl_cons, List.foldl_cons, ih, ih (max 0 (f a))]
      omega

theorem numericRelationScore_order (text : String) (anchors : Finset String) :
    numericRelationScore py e text anchors = numericRelationScore py e' text anchors := by
  have hnumeric := (e.perm e' anchors).filter (py.isdecimal ·)
  have hsemantic := (e.perm e' anchors).filter fun term => !py.isdecimal term
  have hnumeric_nil : (e.list anchors).filter (py.isdecimal ·) = []
      ↔ (e'.list anchors).filter (py.isdecimal ·) = [] := by
    rw [← List.length_eq_zero_iff, hnumeric.length_eq, List.length_eq_zero_iff]
  have hsemantic_nil : ((e.list anchors).filter fun term => !py.isdecimal term) = []
      ↔ ((e'.list anchors).filter fun term => !py.isdecimal term) = [] := by
    rw [← List.length_eq_zero_iff, hsemantic.length_eq, List.length_eq_zero_iff]
  unfold numericRelationScore
  simp only [hnumeric_nil, hsemantic_nil, hsemantic.length_eq, hsemantic.countP_eq]
  split
  · rfl
  · congr 2
    -- every number takes the maximum further, whichever comes first
    refine List.Perm.foldl_eq' hnumeric (fun x _ y _ best => ?_) 0
    rw [foldl_max _ _ (List.foldl _ _ _), foldl_max _ _ best, foldl_max _ _ (List.foldl _ _ _),
      foldl_max _ _ best]
    omega

theorem definitionRelationScore_order (text : String) (anchors : Finset String)
    (fact : FactRequirement) :
    definitionRelationScore py e text anchors fact
      = definitionRelationScore py e' text anchors fact := by
  have hnumeric := (e.perm e' anchors).filter (py.isdecimal ·)
  unfold definitionRelationScore
  simp only [hnumeric.isEmpty_eq, hnumeric.any_eq, (e.perm e' anchors).any_eq]

/-- A chunk is worth the same in every order. -/
theorem chunkScore_order (fact : FactRequirement) (text : String) :
    chunkScore run e fact text = chunkScore run e' fact text := by
  unfold chunkScore
  simp only [definitionRelationScore_order e e', numericRelationScore_order e e',
    e.countP_list, e'.countP_list]

end Order

/-! ## Quotes -/

section Quote

variable {py : PyText} {quoteChars : Nat} {text : String} {terms anchors : Finset String}

/-- The score of a window, counted over sets. -/
def setScore (quoteChars : Nat) (folded : List Char) (terms anchors : Finset String)
    (start : Nat) : WindowScore :=
  let window := (folded.drop start).take quoteChars
  toLex ((anchors.filter fun t => (Text.indexChars t.toList window).isSome).card,
    toLex (∑ t ∈ anchors, count window t.toList,
      toLex ((terms.filter fun t => (Text.indexChars t.toList window).isSome).card,
        ∑ t ∈ terms, count window t.toList)))

theorem windowScore_eq (e : Enumeration) :
    windowScore e quoteChars = setScore quoteChars := by
  funext folded terms anchors start
  unfold windowScore setScore
  simp only [e.countP_list, e.sum_list]

/-- The loop keeps the first of the best. -/
theorem foldl_betterWindow {score : Nat → WindowScore} {starts : List Nat} (h : starts ≠ []) :
    ∃ s, starts.foldl (betterWindow score) none = some s ∧ FirstBest score starts s := by
  induction starts using List.reverseRecOn with
  | nil => exact absurd rfl h
  | append_singleton starts a ih =>
      rw [List.foldl_append]
      by_cases hnil : starts = []
      · subst hnil
        exact ⟨a, rfl, firstBest_singleton⟩
      · obtain ⟨s, hs, hfirst⟩ := ih hnil
        refine ⟨_, ?_, hfirst.snoc a⟩
        rw [hs]
        show (if score a > score s then some a else some s) = _
        split <;> rfl

variable (py quoteChars text terms anchors)

/-- The windows around the occurrences of a term, in order. -/
def windowsOf (term : String) : List Nat :=
  (positionsOf (py.casefold text).toList term.toList).map (windowStart quoteChars text.length)

/-- The terms whose occurrences are looked at. -/
def positionTerms : Finset String := if anchors = ∅ then terms else anchors

/-- The window that a term leads with: the first of its best ones. It is as good as any window of
any term. -/
def Leading (term : String) (start : Nat) : Prop :=
  FirstBest (setScore quoteChars (py.casefold text).toList terms anchors)
      (windowsOf py quoteChars text term) start ∧
    ∀ t ∈ positionTerms terms anchors, ∀ s ∈ windowsOf py quoteChars text t,
      setScore quoteChars (py.casefold text).toList terms anchors s
        ≤ setScore quoteChars (py.casefold text).toList terms anchors start

/-- All terms that lead with a best window lead to the same text. -/
def Steady : Prop :=
  ∀ t ∈ positionTerms terms anchors, ∀ t' ∈ positionTerms terms anchors, ∀ s s',
    Leading py quoteChars text terms anchors t s → Leading py quoteChars text terms anchors t' s' →
      Text.slice text s (s + quoteChars) = Text.slice text s' (s' + quoteChars)

variable {py quoteChars text terms anchors}

/-- The quote of a long text, from the windows of the terms. -/
theorem quoteWindow_long (e : Enumeration) (hlong : quoteChars < text.length) :
    quoteWindow py e quoteChars text terms anchors
      = match ((e.list (positionTerms terms anchors)).flatMap
          (windowsOf py quoteChars text)).foldl
            (betterWindow (setScore quoteChars (py.casefold text).toList terms anchors)) none with
        | none => Text.slice text 0 quoteChars
        | some start => Text.slice text start (start + quoteChars) := by
  have hstarts : ((e.list (positionTerms terms anchors)).flatMap fun term =>
      positionsOf (py.casefold text).toList term.toList).map (windowStart quoteChars text.length)
        = (e.list (positionTerms terms anchors)).flatMap (windowsOf py quoteChars text) :=
    List.map_flatMap
  rw [← hstarts, ← windowScore_eq e]
  exact if_neg (by omega)

variable (py terms anchors) in
/-- The quote of a long text is the leading window of some term, or there is no window. -/
theorem quoteWindow_leading (e : Enumeration) (hlong : quoteChars < text.length) :
    (∃ t ∈ positionTerms terms anchors, ∃ s, Leading py quoteChars text terms anchors t s ∧
        quoteWindow py e quoteChars text terms anchors = Text.slice text s (s + quoteChars)) ∨
      (∀ t ∈ positionTerms terms anchors, windowsOf py quoteChars text t = []) ∧
        quoteWindow py e quoteChars text terms anchors = Text.slice text 0 quoteChars := by
  rw [quoteWindow_long e hlong]
  by_cases hnil : (e.list (positionTerms terms anchors)).flatMap (windowsOf py quoteChars text) = []
  · refine .inr ⟨fun t ht => ?_, by rw [hnil]; rfl⟩
    exact List.flatMap_eq_nil_iff.mp hnil t ((e.mem_list _ _).mpr ht)
  · obtain ⟨s, hs, hfirst⟩ := foldl_betterWindow hnil
    obtain ⟨t, ht, hterm⟩ := hfirst.of_flatMap
    refine .inl ⟨t, (e.mem_list _ _).mp ht, s, ⟨hterm, fun t' ht' s' hs' => ?_⟩, by rw [hs]⟩
    exact hfirst.le (List.mem_flatMap.mpr ⟨t', (e.mem_list _ _).mpr ht', hs'⟩)

/-- The order that puts one string in front. -/
def Enumeration.first (e : Enumeration) (t : String) : Enumeration where
  list s := if t ∈ s then t :: (e.list s).filter (· ≠ t) else e.list s
  nodup s := by
    split
    · refine List.nodup_cons.mpr ⟨fun hmem => ?_, (e.nodup s).filter _⟩
      exact of_decide_eq_true (List.mem_filter.mp hmem).2 rfl
    · exact e.nodup s
  mem_list s x := by
    split
    · rename_i ht
      rw [List.mem_cons, List.mem_filter, e.mem_list]
      by_cases hx : x = t
      · subst hx
        simp [ht]
      · simp [hx]
    · exact e.mem_list s x

/-- With a leading term in front, the quote is its window. -/
theorem quoteWindow_first (e : Enumeration) (hlong : quoteChars < text.length) {t : String} {s : Nat}
    (ht : t ∈ positionTerms terms anchors) (h : Leading py quoteChars text terms anchors t s) :
    quoteWindow py (e.first t) quoteChars text terms anchors
      = Text.slice text s (s + quoteChars) := by
  have hlist : (e.first t).list (positionTerms terms anchors)
      = t :: (e.list (positionTerms terms anchors)).filter (· ≠ t) := if_pos ht
  have hstarts : FirstBest (setScore quoteChars (py.casefold text).toList terms anchors)
      (((e.first t).list (positionTerms terms anchors)).flatMap (windowsOf py quoteChars text))
      s := by
    rw [hlist, List.flatMap_cons]
    refine h.1.append fun y hy => ?_
    obtain ⟨t', ht', hy⟩ := List.mem_flatMap.mp hy
    exact h.2 t' ((e.mem_list _ _).mp (List.mem_filter.mp ht').1) y hy
  have hne : ((e.first t).list (positionTerms terms anchors)).flatMap
      (windowsOf py quoteChars text) ≠ [] := List.ne_nil_of_mem hstarts.mem
  obtain ⟨s', hs', hfirst⟩ := foldl_betterWindow hne
  rw [quoteWindow_long _ hlong, hs', hstarts.unique hfirst]

/-- A short text is quoted as a whole, and all windows start in front. -/
theorem windowsOf_short (hshort : text.length ≤ quoteChars) {t : String} {s : Nat}
    (h : s ∈ windowsOf py quoteChars text t) : s = 0 := by
  obtain ⟨position, -, rfl⟩ := List.mem_map.mp h
  rw [windowStart]
  omega

/-- **A quote is independent of the order exactly if it is steady.** -/
theorem quoteWindow_order_iff :
    (∀ e e', quoteWindow py e quoteChars text terms anchors
        = quoteWindow py e' quoteChars text terms anchors)
      ↔ Steady py quoteChars text terms anchors := by
  constructor
  · intro h t ht t' ht' s s' hs hs'
    let e : Enumeration := ⟨Finset.toList, Finset.nodup_toList, fun _ _ => Finset.mem_toList⟩
    by_cases hlong : quoteChars < text.length
    · rw [← quoteWindow_first e hlong ht hs, ← quoteWindow_first e hlong ht' hs']
      exact h _ _
    · rw [windowsOf_short (by omega) hs.1.mem, windowsOf_short (by omega) hs'.1.mem]
  · intro h e e'
    by_cases hlong : quoteChars < text.length
    · rcases quoteWindow_leading py terms anchors e hlong with
        ⟨t, ht, s, hs, hquote⟩ | ⟨hnone, hquote⟩
      · rcases quoteWindow_leading py terms anchors e' hlong with
          ⟨t', ht', s', hs', hquote'⟩ | ⟨hnone', -⟩
        · rw [hquote, hquote', h t ht t' ht' s s' hs hs']
        · have hmem := hs.1.mem
          rw [hnone' t ht] at hmem
          cases hmem
      · rcases quoteWindow_leading py terms anchors e' hlong with
          ⟨t', ht', s', hs', -⟩ | ⟨-, hquote'⟩
        · have hmem := hs'.1.mem
          rw [hnone t' ht'] at hmem
          cases hmem
        · rw [hquote, hquote']
    · rw [quoteWindow, quoteWindow, if_pos (by omega), if_pos (by omega)]

end Quote

/-! ## Selection -/

/-- A chunk that matches a fact: all of a candidate but the quote. -/
structure Passage where
  document : CandidateDocument
  source : String × SourceAuthority
  factId : Uuid
  fact : FactRequirement
  chunk : Uuid × OrdinalChunk
  score : Rat

section Passages

variable (selector : CandidateSelector) (run : SelectionRun) (e : Enumeration)

/-- The candidate of a passage. -/
def Passage.candidate (p : Passage) : Selectable where
  id := candidateId run p.factId p.chunk.1
    (chunkQuote run e selector.quoteChars p.fact p.chunk.2.text)
  factId := p.factId
  fact := p.fact
  documentId := p.document.documentId
  version := p.document.version
  chunkId := p.chunk.1
  chunk := p.chunk.2.toDocumentChunk
  url := p.document.url
  sourceIdentity := p.source.1
  sourceAuthority := p.source.2
  quote := chunkQuote run e selector.quoteChars p.fact p.chunk.2.text
  score := p.score
  ordinal := p.chunk.2.ordinal
  title := p.document.title

/-- The passages of the documents for a fact. -/
def passages (documents : List CandidateDocument) (fact : Uuid × FactRequirement) : List Passage :=
  documents.flatMap fun document =>
    match selector.classify document.url run.entity with
    | .error _ => []
    | .ok source =>
        if fact.1 ∈ document.mappedFactIds then
          document.chunks.filterMap fun chunk => (chunkScore run e fact.2 chunk.2.text).map
            fun score => ⟨document, source, fact.1, fact.2, chunk, score⟩
        else []

/-- The key candidates are sorted by looks at the passage only. -/
def passageKey (p : Passage) : Nat ×ₗ Rat ×ₗ String ×ₗ Nat :=
  toLex (if p.source.2 = .official then 0 else 1,
    toLex (-p.score, toLex (p.source.1, p.chunk.2.ordinal)))

/-- The passages of a fact, best first. -/
def rankedPassages (documents : List CandidateDocument) (fact : Uuid × FactRequirement) :
    List Passage :=
  newFirst (fun p : Passage => p.source.1) (rank passageKey (passages selector run e documents fact))

/-- The passages that are chosen. -/
def chosenPassages (perFact total : Nat) (facts : List (Uuid × FactRequirement))
    (documents : List CandidateDocument) : List Passage :=
  (roundRobin perFact
    (facts.map fun fact => (rankedPassages selector run e documents fact).take perFact)).take total

variable {selector run e} {documents : List CandidateDocument}
  {facts : List (Uuid × FactRequirement)} {fact : Uuid × FactRequirement}

theorem candidates_passages :
    selector.candidates run e documents fact
      = (passages selector run e documents fact).map (Passage.candidate selector run e) := by
  rw [CandidateSelector.candidates, passages, List.map_flatMap]
  congr 1
  funext document
  cases selector.classify document.url run.entity with
  | error => rfl
  | ok source =>
      dsimp only
      rw [documentCandidates]
      split
      · rw [List.map_filterMap]
        refine List.filterMap_congr fun chunk _ => ?_
        rw [Option.map_map, chunkCandidate]
        rfl
      · rfl

theorem passages_order (e e' : Enumeration) :
    passages selector run e documents fact = passages selector run e' documents fact := by
  unfold passages
  simp only [chunkScore_order e e']

theorem chosenPassages_order (e e' : Enumeration) {perFact total : Nat} :
    chosenPassages selector run e perFact total facts documents
      = chosenPassages selector run e' perFact total facts documents := by
  unfold chosenPassages rankedPassages
  simp only [passages_order e e']

theorem rankedPassages_perm :
    (rankedPassages selector run e documents fact).Perm (passages selector run e documents fact) :=
  (newFirst_perm _ _).trans (rank_perm _ _)

/-- What is chosen are the candidates of chosen passages. -/
theorem select_passages
    (h : ∀ document ∈ documents, ∃ source, selector.classify document.url run.entity = .ok source)
    {perFact total : Nat} (hlimits : 1 ≤ perFact ∧ 1 ≤ total) :
    (selector.limited perFact total hlimits).select run e facts documents
      = .ok ((chosenPassages selector run e perFact total facts documents).map
        (Passage.candidate selector run e)) := by
  have hranked : ∀ fact, rankedCandidates perFact (selector.candidates run e documents fact)
      = ((rankedPassages selector run e documents fact).take perFact).map
        (Passage.candidate selector run e) := by
    intro fact
    rw [rankedCandidates, rankedPassages, candidates_passages, rank_map, newFirst_map,
      List.map_take]
    rfl
  rw [select_ok (selector.limited perFact total hlimits) run e h, chosenPassages, List.map_take,
    ← roundRobin_map, List.map_map]
  show Except.ok ((roundRobin perFact (facts.map fun fact =>
    rankedCandidates perFact (selector.candidates run e documents fact))).take total) = _
  simp only [hranked]
  rfl

/-- Where a source is not known, the order of sets does not matter either. -/
theorem select_error (e' : Enumeration)
    (h : ¬∀ document ∈ documents,
      ∃ source, selector.classify document.url run.entity = .ok source) :
    selector.select run e facts documents = selector.select run e' facts documents := by
  cases hall : selector.classifyAll run documents with
  | ok => exact absurd (classify_of_classifyAll hall) h
  | error error =>
      have hfails : ∀ e, selector.select run e facts documents = .error error := by
        intro e
        rw [CandidateSelector.select, hall]
        rfl
      rw [hfails e, hfails e']

/-- With limits that are large enough, every passage is chosen. -/
theorem passages_chosen {p : Passage} (hfact : fact ∈ facts)
    (hp : p ∈ passages selector run e documents fact) :
    ∃ perFact total, (1 ≤ perFact ∧ 1 ≤ total) ∧
      p ∈ chosenPassages selector run e perFact total facts documents := by
  generalize hn : (passages selector run e documents fact).length + 1 = n
  generalize hall : roundRobin n
    (facts.map fun fact => (rankedPassages selector run e documents fact).take n) = all
  refine ⟨n, all.length + 1, ⟨by omega, by omega⟩, ?_⟩
  rw [chosenPassages, hall, List.take_of_length_le (Nat.le_succ _), ← hall]
  refine mem_roundRobin.mpr ⟨_, List.mem_map.mpr ⟨fact, hfact, rfl⟩, ?_⟩
  rw [List.take_take, Nat.min_self,
    List.take_of_length_le (by rw [rankedPassages_perm.length_eq]; omega)]
  exact rankedPassages_perm.mem_iff.mpr hp

theorem mem_passages_iff {p : Passage} :
    p ∈ passages selector run e documents fact ↔
      p.document ∈ documents ∧ selector.classify p.document.url run.entity = .ok p.source ∧
        fact = (p.factId, p.fact) ∧ p.factId ∈ p.document.mappedFactIds ∧
        p.chunk ∈ p.document.chunks ∧ chunkScore run e p.fact p.chunk.2.text = some p.score := by
  rw [passages, List.mem_flatMap]
  constructor
  · rintro ⟨document, hdocument, hp⟩
    split at hp
    · cases hp
    · rename_i source hsource
      split at hp
      · rename_i hmapped
        obtain ⟨chunk, hchunk, hscore⟩ := List.mem_filterMap.mp hp
        rw [Option.map_eq_some_iff] at hscore
        obtain ⟨score, hscore, rfl⟩ := hscore
        exact ⟨hdocument, hsource, rfl, hmapped, hchunk, hscore⟩
      · cases hp
  · rintro ⟨hdocument, hsource, rfl, hmapped, hchunk, hscore⟩
    refine ⟨p.document, hdocument, ?_⟩
    rw [hsource]
    dsimp only
    rw [if_pos hmapped]
    exact List.mem_filterMap.mpr ⟨p.chunk, hchunk, by rw [hscore]; rfl⟩

end Passages

/-- The quotes of all chunks that match a fact are steady. -/
def SteadyQuotes (selector : CandidateSelector) (run : SelectionRun)
    (facts : List (Uuid × FactRequirement)) (documents : List CandidateDocument) : Prop :=
  ∀ fact ∈ facts, ∀ document ∈ documents, fact.1 ∈ document.mappedFactIds →
    ∀ chunk ∈ document.chunks, ∀ e : Enumeration,
      (chunkScore run e fact.2 chunk.2.text).isSome = true →
      Steady run.py selector.quoteChars chunk.2.text (termSets run.py run.entity fact.2).1
        (termSets run.py run.entity fact.2).2

/-- **Selection and set order.** For given facts and documents, `select` returns the same in every
order of the sets, whatever the limits are, exactly if a source is not known or the quotes of all
chunks that match a fact are steady. -/
theorem select_order_iff (selector : CandidateSelector) (run : SelectionRun)
    (facts : List (Uuid × FactRequirement)) (documents : List CandidateDocument) :
    (∀ perFact total, ∀ h : 1 ≤ perFact ∧ 1 ≤ total, ∀ e e',
        (selector.limited perFact total h).select run e facts documents
          = (selector.limited perFact total h).select run e' facts documents) ↔
      ((∀ document ∈ documents,
          ∃ source, selector.classify document.url run.entity = .ok source) →
        SteadyQuotes selector run facts documents) := by
  constructor
  · intro h hsource fact hfact document hdocument hmapped chunk hchunk e hscore
    obtain ⟨score, hscore⟩ := Option.isSome_iff_exists.mp hscore
    obtain ⟨source, hclassify⟩ := hsource document hdocument
    have hp : ⟨document, source, fact.1, fact.2, chunk, score⟩
        ∈ passages selector run e documents fact :=
      mem_passages_iff.mpr ⟨hdocument, hclassify, rfl, hmapped, hchunk, hscore⟩
    obtain ⟨perFact, total, hlimits, hchosen⟩ := passages_chosen hfact hp
    refine quoteWindow_order_iff.mp fun e₁ e₂ => ?_
    have heq := h perFact total hlimits e₁ e₂
    rw [select_passages hsource hlimits, select_passages hsource hlimits,
      chosenPassages_order e₁ e, chosenPassages_order e₂ e] at heq
    have hquote := List.map_inj_left.mp (Except.ok.inj heq) _ hchosen
    exact congrArg (fun c : Selectable => c.quote) hquote
  · intro h perFact total hlimits e e'
    by_cases hsource : ∀ document ∈ documents,
        ∃ source, selector.classify document.url run.entity = .ok source
    · have hsteady := h hsource
      rw [select_passages hsource hlimits, select_passages hsource hlimits,
        chosenPassages_order e' e]
      refine congrArg Except.ok (List.map_congr_left fun p hp => ?_)
      obtain ⟨queue, hqueue, hmem⟩ := mem_roundRobin.mp (List.mem_of_mem_take hp)
      obtain ⟨fact, hfact, rfl⟩ := List.mem_map.mp hqueue
      have hpassage : p ∈ passages selector run e documents fact :=
        rankedPassages_perm.mem_iff.mp (List.mem_of_mem_take (List.mem_of_mem_take hmem))
      obtain ⟨hdocument, -, rfl, hmapped, hchunk, hscore⟩ := mem_passages_iff.mp hpassage
      have hquote : chunkQuote run e selector.quoteChars p.fact p.chunk.2.text
          = chunkQuote run e' selector.quoteChars p.fact p.chunk.2.text :=
        quoteWindow_order_iff.mpr (hsteady _ hfact p.document hdocument hmapped p.chunk hchunk e
          (by rw [hscore]; rfl)) e e'
      rw [Passage.candidate, Passage.candidate, hquote]
    · exact select_error e' hsource

namespace Sample

theorem roles_subject : Planning.isSearchTerm "etcd" 48 = true := by decide

theorem rolesPage_bound : [(⟨2⟩ : Uuid)] ≠ [] := by decide

theorem rolesPage_distinct : [(⟨2⟩ : Uuid)].Nodup := by decide

def roles : FactRequirement where
  key := "etcd_leader_follower"
  factType := .background
  description := "leader follower"
  subject := "etcd"
  given := by decide
  subject_term := roles_subject

/-- A chunk with one anchor at each end. -/
def rolesPage : CandidateDocument where
  documentId := ⟨3⟩
  version := ⟨⟨4⟩, ⟨5⟩, ⟨3⟩, "leader elects a follower"⟩
  chunks := [(⟨6⟩, ⟨⟨"leader elects a follower", 0, 24, by decide⟩, 0⟩)]
  url := "https://etcd.io/"
  title := "etcd"
  mappedFactIds := [⟨2⟩]
  bound := rolesPage_bound
  distinct := rolesPage_distinct

/-- Quotes of twelve code points. -/
def brief : CandidateSelector where
  classify _ _ := .ok ("etcd.io", .independent)
  perFact := 3
  total := 8
  quoteChars := 12
  positive := by decide

end Sample

open Sample in
/-- Two orders of one set give two quotes. -/
theorem quote_depends_on_order : ∃ selected selected',
    brief.select run alphabetical [(⟨2⟩, roles)] [rolesPage] = .ok selected ∧
      brief.select run (alphabetical.first "leader") [(⟨2⟩, roles)] [rolesPage] = .ok selected' ∧
      selected.map (·.quote) = ["s a follower"] ∧ selected'.map (·.quote) = ["leader elect"] := by
  refine ⟨_, _, select_ok brief run alphabetical fun document _ => ⟨_, rfl⟩,
    select_ok brief run (alphabetical.first "leader") fun document _ => ⟨_, rfl⟩, ?_, ?_⟩
  · decide +kernel
  · decide +kernel

end Sana.Evidence
