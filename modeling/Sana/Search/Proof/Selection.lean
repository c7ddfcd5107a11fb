import Sana.Search.Selection

/-!
# Ranked selection covers facts first

The candidates are sorted by a key that tells their URLs apart, so the order they come in does not
matter. The RESEARCH loop is the greedy loop, and what it takes next is said by one lemma about its
rule: a candidate that covers something new is taken as long as there is one, and a trusted page
as long as there is a trusted page that does. The loop ends early only when all is covered.
-/

namespace Sana.Search

open Sana.Lib Sana.Orchestration

/-! ## Memory -/

section Memory

variable {classify : Classify} {entity : String}

theorem mem_targetFacts {l : List Candidate} {f : String} :
    f ∈ targetFacts l ↔ ∃ c ∈ l, f ∈ c.facts := by
  induction l with
  | nil => simp [targetFacts]
  | cons a l ih =>
      have hcons : targetFacts (a :: l) = a.facts ∪ targetFacts l := rfl
      rw [hcons, Finset.mem_union, ih]
      simp

/-- The loop remembers the facts of what it has taken, -/
theorem covered_foldl (l : List Candidate) (s : Selected) :
    (l.foldl (Selected.note classify entity) s).covered = s.covered ∪ targetFacts l := by
  induction l generalizing s with
  | nil => simp [targetFacts]
  | cons a l ih =>
      have hcons : targetFacts (a :: l) = a.facts ∪ targetFacts l := rfl
      rw [List.foldl_cons, ih, hcons, ← Finset.union_assoc]
      rfl

/-- and its publishers. -/
theorem seen_foldl (l : List Candidate) (s : Selected) :
    (l.foldl (Selected.note classify entity) s).seen
      = s.seen ∪ (l.map (identity classify entity)).toFinset := by
  induction l generalizing s with
  | nil => simp
  | cons a l ih =>
      rw [List.foldl_cons, ih, List.map_cons, List.toFinset_cons]
      show insert (identity classify entity a) s.seen ∪ _ = _
      rw [Finset.insert_union, Finset.union_insert]

/-- A candidate adds something exactly if not all of its facts are covered. -/
theorem gain_pos_iff {s : Selected} {c : Candidate} : 0 < gain s c ↔ ¬c.facts ⊆ s.covered := by
  rw [gain, Finset.card_pos, Finset.sdiff_nonempty]

end Memory

/-! ## The rule of the RESEARCH loop -/

section Rule

variable {classify : Classify} {entity : String} {s : Selected}

theorem le_maximumGain {l : List (Candidate × Nat)} {v : Candidate × Nat} (h : v ∈ l) :
    gain s v.1 ≤ maximumGain s l := by
  induction l with
  | nil => cases h
  | cons a l ih =>
      have hcons : maximumGain s (a :: l) = max (gain s a.1) (maximumGain s l) := rfl
      rw [hcons]
      rcases List.mem_cons.mp h with rfl | h
      · exact le_max_left _ _
      · exact (ih h).trans (le_max_right _ _)

theorem exists_maximumGain {l : List (Candidate × Nat)} (h : l ≠ []) :
    ∃ v ∈ l, gain s v.1 = maximumGain s l := by
  induction l with
  | nil => exact absurd rfl h
  | cons a l ih =>
      have hcons : maximumGain s (a :: l) = max (gain s a.1) (maximumGain s l) := rfl
      rw [hcons]
      by_cases hl : l = []
      · subst hl
        exact ⟨a, List.mem_cons_self, (Nat.max_zero _).symm⟩
      · obtain ⟨v, hv, hmax⟩ := ih hl
        rcases Nat.le_total (maximumGain s l) (gain s a.1) with hle | hle
        · exact ⟨a, List.mem_cons_self, (Nat.max_eq_left hle).symm⟩
        · exact ⟨v, List.mem_cons_of_mem _ hv, hmax.trans (Nat.max_eq_right hle).symm⟩

theorem exists_argmin {α κ : Type*} [LinearOrder κ] (key : α → κ) {l : List α} (h : l ≠ []) :
    ∃ v ∈ l, l.argmin key = some v := by
  cases hv : l.argmin key with
  | none => exact absurd (List.argmin_eq_none.mp hv) h
  | some v => exact ⟨v, List.argmin_mem hv, rfl⟩

/-- While there is something to gain, the loop takes something it gains from, and a trusted page if
there is one. -/
theorem chooseGain_spec {remaining : List Candidate} (h : maximumGain s remaining.zipIdx ≠ 0) :
    ∃ i a, chooseGain classify entity s remaining = some i ∧ remaining[i]? = some a ∧
      0 < gain s a ∧ ∀ r ∈ remaining, trustedDirect classify entity r = true → 0 < gain s r →
        trustedDirect classify entity a = true ∧ gain s r ≤ gain s a := by
  unfold chooseGain
  dsimp only
  generalize hgaining : (remaining.zipIdx.filter fun v => decide (gain s v.1 > 0)) = gaining
  generalize htrusted : (gaining.filter fun v => trustedDirect classify entity v.1) = trusted
  generalize hpool : (if trusted.isEmpty then gaining else trusted) = pool
  have hgains : ∀ v ∈ gaining, 0 < gain s v.1 := by
    intro v hv
    rw [← hgaining] at hv
    exact of_decide_eq_true (List.mem_filter.mp hv).2
  have hsub : ∀ v ∈ pool, v ∈ gaining := by
    intro v hv
    rw [← hpool] at hv
    split at hv
    · exact hv
    · rw [← htrusted] at hv
      exact (List.mem_filter.mp hv).1
  have hne : pool ≠ [] := by
    rw [← hpool]
    split
    · -- there is something to gain
      obtain ⟨v, hv, hmax⟩ := exists_maximumGain (s := s) (l := remaining.zipIdx) (by
        intro hnil
        rw [hnil] at h
        exact h rfl)
      refine List.ne_nil_of_mem (a := v) ?_
      rw [← hgaining]
      refine List.mem_filter.mpr ⟨hv, decide_eq_true ?_⟩
      rw [hmax]
      exact Nat.pos_of_ne_zero h
    · rename_i hfull
      intro hnil
      rw [hnil] at hfull
      exact hfull rfl
  have hbest : (pool.filter fun v => gain s v.1 == maximumGain s pool) ≠ [] := by
    obtain ⟨v, hv, hmax⟩ := exists_maximumGain (s := s) hne
    exact List.ne_nil_of_mem (List.mem_filter.mpr ⟨hv, beq_iff_eq.mpr hmax⟩)
  obtain ⟨⟨a, i⟩, hmem, hmin⟩ := exists_argmin (fun v : Candidate × Nat =>
    (toLex (v.1.facts.card, toLex (if official classify entity v.1 then 0 else 1,
      toLex (if identity classify entity v.1 ∈ s.seen then 1 else 0, v.2))) :
      Nat ×ₗ Nat ×ₗ Nat ×ₗ Nat)) hbest
  obtain ⟨hmem, hmax⟩ := List.mem_filter.mp hmem
  have ha : remaining[i]? = some a := by
    have hin := hsub _ hmem
    rw [← hgaining] at hin
    exact List.mem_zipIdx_iff_getElem?.mp (List.mem_filter.mp hin).1
  refine ⟨i, a, by rw [hmin]; rfl, ha, hgains _ (hsub _ hmem), fun r hr htrust hgain => ?_⟩
  obtain ⟨j, hj⟩ := List.mem_iff_getElem?.mp hr
  have hin : (r, j) ∈ trusted := by
    rw [← htrusted, ← hgaining]
    refine List.mem_filter.mpr ⟨List.mem_filter.mpr ⟨?_, decide_eq_true hgain⟩, htrust⟩
    exact List.mem_zipIdx_iff_getElem?.mpr hj
  have hfull : ¬trusted.isEmpty = true := by
    rw [List.isEmpty_iff]
    exact List.ne_nil_of_mem hin
  rw [if_neg hfull] at hpool
  rw [← hpool] at hmem hmax
  constructor
  · rw [← htrusted] at hmem
    exact (List.mem_filter.mp hmem).2
  · rw [beq_iff_eq.mp hmax]
    exact le_maximumGain hin

variable (classify entity s) in
/-- **What the loop takes next.** -/
theorem chooseNext_spec {remaining : List Candidate} (h : remaining ≠ []) :
    ∃ i a, chooseNext classify entity s remaining = some i ∧ remaining[i]? = some a ∧
      ((∃ r ∈ remaining, 0 < gain s r) → 0 < gain s a) ∧
      ∀ r ∈ remaining, trustedDirect classify entity r = true → 0 < gain s r →
        trustedDirect classify entity a = true ∧ gain s r ≤ gain s a := by
  unfold chooseNext
  split
  · rename_i hgain
    obtain ⟨i, a, hi, ha, hpos, htrusted⟩ := chooseGain_spec hgain
    exact ⟨i, a, hi, ha, fun _ => hpos, htrusted⟩
  · rename_i hnone
    have hzero : ∀ r ∈ remaining, gain s r = 0 := by
      intro r hr
      obtain ⟨j, hj⟩ := List.mem_iff_getElem?.mp hr
      have hin : (r, j) ∈ remaining.zipIdx := List.mem_zipIdx_iff_getElem?.mpr hj
      have hle : gain s r ≤ maximumGain s remaining.zipIdx := le_maximumGain hin
      omega
    unfold chooseNew
    obtain ⟨⟨a, i⟩, hmem, hmin⟩ := exists_argmin (fun v : Candidate × Nat =>
      (toLex (if identity classify entity v.1 ∈ s.seen then 1 else 0,
        toLex (if official classify entity v.1 then 0 else 1, v.2)) : Nat ×ₗ Nat ×ₗ Nat))
      (fun hnil => h (List.zipIdx_eq_nil_iff.mp hnil))
    refine ⟨i, a, by rw [hmin]; rfl, List.mem_zipIdx_iff_getElem?.mp hmem, ?_, ?_⟩
    · rintro ⟨r, hr, hpos⟩
      rw [hzero r hr] at hpos
      exact absurd hpos (Nat.lt_irrefl 0)
    · intro r hr _ hpos
      rw [hzero r hr] at hpos
      exact absurd hpos (Nat.lt_irrefl 0)

end Rule

/-! ## The selection -/

section Selections

variable {classify : Classify} {entity : String}

/-- What RESEARCH selects from some candidates. -/
structure CoversFirst (classify : Classify) (entity : String) (limit : Nat)
    (candidates selected : List Candidate) : Prop where
  /-- While a trusted page covers something new, the next hit is such a page, and one that covers
  the most. -/
  trusted : ∀ k c, selected[k]? = some c →
    ∀ r ∈ candidates, r ∉ selected.take k → trustedDirect classify entity r = true →
      ¬r.facts ⊆ targetFacts (selected.take k) →
        trustedDirect classify entity c = true ∧
          (r.facts \ targetFacts (selected.take k)).card
            ≤ (c.facts \ targetFacts (selected.take k)).card
  /-- While any hit covers something new, the next hit does. -/
  covering : ∀ k c, selected[k]? = some c →
    (∃ r ∈ candidates, r ∉ selected.take k ∧ ¬r.facts ⊆ targetFacts (selected.take k)) →
      ¬c.facts ⊆ targetFacts (selected.take k)
  /-- A selection that ends early covers everything, and has two publishers if it could. -/
  early : selected.length < limit → (∃ c ∈ candidates, c ∉ selected) →
    (∀ c ∈ candidates, c.facts ⊆ targetFacts selected) ∧
      (2 ≤ (selected.map (identity classify entity)).toFinset.card ∨
        ∀ c ∈ candidates, c ∉ selected →
          identity classify entity c ∈ selected.map (identity classify entity))

/-- What is not taken is what is left. -/
theorem mem_rest_iff {taken rest l : List Candidate} (hperm : (taken ++ rest).Perm l)
    (hnd : l.Nodup) {c : Candidate} : c ∈ rest ↔ c ∈ l ∧ c ∉ taken := by
  have hdisjoint := List.disjoint_of_nodup_append (hperm.nodup_iff.mpr hnd)
  rw [← hperm.mem_iff, List.mem_append]
  constructor
  · exact fun h => ⟨.inr h, fun ht => hdisjoint ht h⟩
  · rintro ⟨ht | h, hn⟩
    · exact absurd ht hn
    · exact h

variable (classify entity) in
theorem selectResearch_coversFirst (limit : Nat) {l : List Candidate} (hnd : l.Nodup) :
    CoversFirst classify entity limit l (selectResearch classify entity limit l) := by
  unfold selectResearch
  generalize hselected : greedy (chooseNext classify entity) (Selected.note classify entity)
    (enough classify entity (targetFacts l)) limit {} l = selected
  have hstep : ∀ k c, selected[k]? = some c →
      ((∃ r ∈ l, r ∉ selected.take k ∧ ¬r.facts ⊆ targetFacts (selected.take k)) →
        ¬c.facts ⊆ targetFacts (selected.take k)) ∧
      ∀ r ∈ l, r ∉ selected.take k → trustedDirect classify entity r = true →
        ¬r.facts ⊆ targetFacts (selected.take k) → trustedDirect classify entity c = true ∧
          (r.facts \ targetFacts (selected.take k)).card
            ≤ (c.facts \ targetFacts (selected.take k)).card := by
    intro k c hc
    rw [← hselected] at hc
    obtain ⟨rest, i, hperm, hi, hci⟩ := greedy_taken _ _ _ hc
    rw [hselected] at hperm hi
    obtain ⟨j, a, hj, ha, hpos, htrust⟩ := chooseNext_spec classify entity
      ((selected.take k).foldl (Selected.note classify entity) {}) (List.ne_nil_of_mem
        (List.mem_of_getElem? hci))
    cases hi.symm.trans hj
    cases hci.symm.trans ha
    have hcovered : ((selected.take k).foldl (Selected.note classify entity) {}).covered
        = targetFacts (selected.take k) := by
      rw [covered_foldl]
      exact Finset.empty_union _
    simp only [gain_pos_iff, hcovered] at hpos htrust
    simp only [gain, hcovered] at htrust
    refine ⟨?_, fun r hr hn htr hnew => ?_⟩
    · rintro ⟨r, hr, hn, hnew⟩
      exact hpos ⟨r, (mem_rest_iff hperm hnd).mpr ⟨hr, hn⟩, hnew⟩
    · exact htrust r ((mem_rest_iff hperm hnd).mpr ⟨hr, hn⟩) htr hnew
  refine ⟨fun k c hc => (hstep k c hc).2, fun k c hc => (hstep k c hc).1, ?_⟩
  rintro hshort ⟨c, hc, hleft⟩
  obtain ⟨rest, hperm, hlast⟩ := greedy_end (chooseNext classify entity)
    (Selected.note classify entity) (enough classify entity (targetFacts l)) limit {} l
  rw [hselected] at hperm hlast
  have hrest : rest ≠ [] := List.ne_nil_of_mem ((mem_rest_iff hperm hnd).mpr ⟨hc, hleft⟩)
  rcases hlast with hfull | hnone | henough
  · omega
  · obtain ⟨i, a, hi, ha, -⟩ := chooseNext_spec classify entity
      (selected.foldl (Selected.note classify entity) {}) hrest
    have hlong := hnone i hi
    rw [List.getElem?_eq_none hlong] at ha
    cases ha
  · rw [enough, Bool.and_eq_true, decide_eq_true_iff, covered_foldl, seen_foldl] at henough
    obtain ⟨⟨-, hcovered⟩, hpublishers⟩ := henough
    have hcovered' : targetFacts l ⊆ targetFacts selected := by
      rwa [show (({} : Selected).covered) = ∅ from rfl, Finset.empty_union] at hcovered
    refine ⟨fun r hr f hf => hcovered' (mem_targetFacts.mpr ⟨r, hr, hf⟩), ?_⟩
    rw [show (({} : Selected).seen) = ∅ from rfl, Finset.empty_union, Bool.or_eq_true,
      decide_eq_true_iff] at hpublishers
    refine hpublishers.imp id fun hunseen r hr hn => ?_
    by_contra hnew
    have hr' := (mem_rest_iff hperm hnd).mpr ⟨hr, hn⟩
    rw [Bool.not_eq_true', List.any_eq_false] at hunseen
    exact hunseen r hr' (decide_eq_true fun h => hnew (List.mem_toFinset.mp h))

theorem spread_perm (seen : Finset String) (l : List Candidate) :
    ((spread classify entity seen l).1 ++ (spread classify entity seen l).2).Perm l := by
  induction l generalizing seen with
  | nil => exact .nil
  | cons c l ih =>
      rw [spread]
      split
      · exact List.perm_middle.trans ((ih seen).cons c)
      · exact (ih _).cons c

theorem selectFast_subperm (limit : Nat) (l : List Candidate) :
    (selectFast classify entity limit l).Subperm l := by
  unfold selectFast
  dsimp only
  split
  · exact (greedy_subperm _ _ _ _ _ _).trans List.filter_sublist.subperm
  · exact (List.take_sublist _ _).subperm.trans (spread_perm ∅ l).subperm

theorem length_selectFast_le (limit : Nat) (l : List Candidate) :
    (selectFast classify entity limit l).length ≤ min limit 2 := by
  unfold selectFast
  dsimp only
  split
  · exact length_greedy_le _ _ _ _ _ _
  · refine (List.length_take_le _ _).trans ?_
    split <;> omega

/-- The key tells URLs apart. -/
theorem url_eq_of_rankKey_eq {a b : Candidate}
    (hkey : rankKey classify entity a = rankKey classify entity b) :
    a.canonicalUrl = b.canonicalUrl := by
  have hkey := congrArg ofLex (congrArg Prod.snd (congrArg ofLex hkey))
  have hkey := congrArg ofLex (congrArg Prod.snd hkey)
  exact congrArg Prod.snd (congrArg ofLex (congrArg Prod.snd hkey))

variable (classify entity) in
/-- Candidates with distinct URLs are ranked the same in any order. -/
theorem ranked_eq_of_perm {l l' : List Candidate} (hurl : (l.map (·.canonicalUrl)).Nodup)
    (h : l.Perm l') : ranked classify entity l = ranked classify entity l' := by
  refine rank_eq_of_perm h fun a ha b hb hkey => ?_
  exact List.inj_on_of_nodup_map hurl ha hb (url_eq_of_rankKey_eq hkey)

variable (classify entity) in
/--
**Ranked selection covers facts first.** Of candidates with distinct URLs it selects some, once
each, as many as the limit allows and two at most in FAST mode, and the same ones in whatever order
they come; in RESEARCH mode it covers facts first.
-/
theorem selectRankedHits_covers_first (mode : SearchMode) (limit : Nat)
    (candidates : List Candidate) (hurl : (candidates.map (·.canonicalUrl)).Nodup) :
    let selected := selectRankedHits classify entity mode limit candidates
    selected.Nodup ∧ selected.Subperm candidates ∧ selected.length ≤ limit ∧
      (mode = .fast → selected.length ≤ 2) ∧
      (∀ candidates', candidates'.Perm candidates →
        selectRankedHits classify entity mode limit candidates' = selected) ∧
      (mode = .research → CoversFirst classify entity limit candidates selected) := by
  intro selected
  have hperm : (ranked classify entity candidates).Perm candidates := rank_perm _ _
  have hnd : candidates.Nodup := List.Nodup.of_map _ hurl
  have hsame : ∀ candidates', candidates'.Perm candidates →
      selectRankedHits classify entity mode limit candidates' = selected := by
    intro candidates' h
    have hranked := ranked_eq_of_perm classify entity hurl h.symm
    simp only [selected, selectRankedHits, hranked]
  have hsub : selected.Subperm candidates := by
    cases mode with
    | fast => exact (selectFast_subperm _ _).trans hperm.subperm
    | research => exact (greedy_subperm _ _ _ _ _ _).trans hperm.subperm
  refine ⟨?_, hsub, ?_, ?_, hsame, ?_⟩
  · obtain ⟨l, hl, hsublist⟩ := hsub
    exact hl.nodup_iff.mp (hsublist.nodup hnd)
  · cases mode with
    | fast => exact (length_selectFast_le _ _).trans (Nat.min_le_left _ _)
    | research => exact length_greedy_le _ _ _ _ _ _
  · rintro rfl
    exact (length_selectFast_le _ _).trans (Nat.min_le_right _ _)
  · rintro rfl
    have hcovers := selectResearch_coversFirst classify entity limit
      (hperm.nodup_iff.mpr hnd)
    refine ⟨fun k c hc r hr => hcovers.trusted k c hc r (hperm.mem_iff.mpr hr), ?_, ?_⟩
    · rintro k c hc ⟨r, hr, hnew⟩
      exact hcovers.covering k c hc ⟨r, hperm.mem_iff.mpr hr, hnew⟩
    · rintro hshort ⟨c, hc, hleft⟩
      obtain ⟨hall, hpublishers⟩ := hcovers.early hshort ⟨c, hperm.mem_iff.mpr hc, hleft⟩
      refine ⟨fun r hr => hall r (hperm.mem_iff.mpr hr), ?_⟩
      exact hpublishers.imp id fun hseen r hr => hseen r (hperm.mem_iff.mpr hr)

/-- A page of a provider about some facts. -/
def samplePage (url provider : String) (facts : List String) : Candidate where
  provider := provider
  queryKey := "q1"
  rank := 1
  url := url
  canonicalUrl := url
  title := ""
  snippet := ""
  score := 1
  id := "hit"
  queryId := "query"
  factId := "f1"
  factIds := facts

/-- Everything is its own publisher, and nothing is official. -/
def sampleClassify : Classify := fun _ _ => none

/-- The law for two pages. -/
theorem selectRankedHits_covers_first_two :
    let candidates := [samplePage "https://a/" "searxng" ["f1"],
      samplePage "https://b/" "direct" ["f1", "f2"]]
    let selected := selectRankedHits sampleClassify "python" .research 4 candidates
    selected.Nodup ∧ selected.Subperm candidates ∧ selected.length ≤ 4 ∧
      (SearchMode.research = .fast → selected.length ≤ 2) ∧
      (∀ candidates', candidates'.Perm candidates →
        selectRankedHits sampleClassify "python" .research 4 candidates' = selected) ∧
      (SearchMode.research = .research →
        CoversFirst sampleClassify "python" 4 candidates selected) :=
  selectRankedHits_covers_first sampleClassify "python" .research 4 _ (by decide)

end Selections

end Sana.Search
