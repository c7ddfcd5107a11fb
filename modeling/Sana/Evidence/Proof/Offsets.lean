import Sana.Evidence.ExplicitTerms
import Sana.Evidence.Proof.Windows
import Sana.Lib.Expand
import Sana.Shared.Words

/-!
# Offsets of the folded text

Terms and anchors are looked for in the folded text, and what is found there is cut out of the text
itself. Case folding makes some code points longer, so an offset of the folded text may lie further
behind than the same offset of the text. What is cut out folds to the part of the folded text
between the translated offsets, and that is where the terms have to be.
-/

namespace Sana.Evidence

open Sana.Lib Sana.Planning

-- a statement about the characters of a list is decided along the list, not along all characters
attribute [local instance (10000)] List.decidableBAll List.decidableBEx

/-- `str.casefold` goes code point by code point. Nothing vanishes, blanks stay what they are, and
nothing else becomes a blank. -/
structure CaseFolding (casefold : String → String) where
  fold : Char → List Char
  folds : ∀ text, (casefold text).toList = text.toList.flatMap fold
  remains : ∀ c, fold c ≠ []
  blank : ∀ c, Text.isSpace c = true → fold c = [c]
  plain : ∀ c, Text.isSpace c = false → ∀ d ∈ fold c, Text.isSpace d = false

/-- Where an offset of a text goes in the folded text. -/
def CaseFolding.offset {casefold : String → String} (folding : CaseFolding casefold) (text : String)
    (i : Nat) : Nat := Lib.offset folding.fold text.toList i

section Folding

variable {casefold : String → String} (folding : CaseFolding casefold)

/-- A slice folds to the part between the translated offsets. -/
theorem fold_slice (text : String) (a b : Nat) :
    (casefold (Text.slice text a b)).toList
      = ((casefold text).toList.take (folding.offset text b)).drop (folding.offset text a) := by
  rw [folding.folds, folding.folds, Text.slice, String.toList_ofList, flatMap_slice]
  rfl

theorem isAlphanum_of_isSpace (c : Char) (h : Text.isSpace c = true) : c.isAlphanum = false := by
  have hn : ∀ n : UInt32, c.val ≤ n ↔ c.toNat ≤ n.toNat := fun n => UInt32.le_iff_toNat_le
  have hm : ∀ n : UInt32, n ≤ c.val ↔ n.toNat ≤ c.toNat := fun n => UInt32.le_iff_toNat_le
  simp only [Text.isSpace, Bool.or_eq_true, Bool.and_eq_true, decide_eq_true_eq, beq_iff_eq] at h
  delta Char.isAlphanum Char.isAlpha Char.isUpper Char.isLower Char.isDigit
  simp only [Bool.or_eq_false_iff, Bool.and_eq_false_iff, decide_eq_false_iff_not, hn, hm]
  simp
  omega

include folding in
/-- The blanks of a text that are stripped off are blanks of the folded text. -/
theorem fold_strip (text : String) : ∃ pre post,
    (casefold text).toList = pre ++ (casefold (Text.strip text)).toList ++ post ∧
      (∀ c ∈ pre, Text.isSpace c = true) ∧ ∀ c ∈ post, Text.isSpace c = true := by
  have hblank : ∀ l : List Char, (∀ c ∈ l, Text.isSpace c = true) → l.flatMap folding.fold = l := by
    intro l hl
    induction l with
    | nil => rfl
    | cons c l ih =>
        rw [List.flatMap_cons, folding.blank c (hl c List.mem_cons_self),
          ih fun d hd => hl d (List.mem_cons_of_mem _ hd), List.singleton_append]
  have hfront : ∀ c ∈ text.toList.takeWhile Text.isSpace, Text.isSpace c = true :=
    fun c hc => List.mem_takeWhile_imp hc
  have hback : ∀ c ∈ (text.toList.dropWhile Text.isSpace).rtakeWhile Text.isSpace,
      Text.isSpace c = true := by
    intro c hc
    rw [List.rtakeWhile, List.mem_reverse] at hc
    exact List.mem_takeWhile_imp hc
  refine ⟨text.toList.takeWhile Text.isSpace,
    (text.toList.dropWhile Text.isSpace).rtakeWhile Text.isSpace, ?_, hfront, hback⟩
  conv_lhs => rw [folding.folds, ← List.takeWhile_append_dropWhile (p := Text.isSpace)
    (l := text.toList), ← List.rdropWhile_append_rtakeWhile (p := Text.isSpace)
      (l := text.toList.dropWhile Text.isSpace)]
  rw [List.flatMap_append, List.flatMap_append, hblank _ hfront, hblank _ hback, folding.folds,
    Text.strip, String.toList_ofList, Text.stripChars_eq, List.append_assoc]

end Folding

/-! ## Listed terms -/

section Terms

variable {text term : List Char}

theorem isTermAt_iff {p : Nat} : isTermAt text term p = true ↔ WordAt Char.isAlphanum text term p := by
  rw [isTermAt, Bool.and_eq_true, Bool.and_eq_true, List.isPrefixOf_iff_prefix, WordAt, and_assoc]
  have hall : ∀ o : Option Char, o.all (!·.isAlphanum) = true ↔ ∀ c ∈ o, c.isAlphanum = false := by
    intro o
    cases o with
    | none => simp
    | some c => simp
  rw [hall, hall]

/-- The term is there as a word for the first time. -/
def FirstWord (text term : List Char) (p : Nat) : Prop :=
  IsLeast {q | WordAt Char.isAlphanum text term q} p

/-- The search finds the first place at which the term is a word. -/
theorem termSpan_eq_some_iff (hterm : term ≠ []) {span : Nat × Nat} :
    termSpan text term = some span
      ↔ FirstWord text term span.1 ∧ span.2 = span.1 + term.length := by
  rw [termSpan, Option.map_eq_some_iff]
  constructor
  · rintro ⟨p, hp, rfl⟩
    rw [List.find?_range_eq_some] at hp
    refine ⟨⟨isTermAt_iff.mp hp.1, fun q hq => ?_⟩, rfl⟩
    by_contra hlt
    have := hp.2.2 q (by omega)
    rw [isTermAt_iff.mpr hq] at this
    cases this
  · rintro ⟨⟨hp, hleast⟩, hend⟩
    refine ⟨span.1, List.find?_range_eq_some.mpr ⟨isTermAt_iff.mpr hp, ?_, fun q hq => ?_⟩, ?_⟩
    · have hlength := hp.1.length_le
      rw [List.length_drop] at hlength
      have := List.length_pos_of_ne_nil hterm
      rw [List.mem_range]
      omega
    · by_contra htrue
      have := hleast (isTermAt_iff.mp (by simpa using htrue) : WordAt Char.isAlphanum text term q)
      omega
    · rw [← hend]

/-- The search finds a term that is there as a word. -/
theorem termSpan_isSome (hterm : term ≠ []) (h : ∃ p, WordAt Char.isAlphanum text term p) :
    (termSpan text term).isSome = true := by
  rw [termSpan, Option.isSome_map, List.find?_isSome]
  obtain ⟨p, hp⟩ := h
  refine ⟨p, List.mem_range.mpr ?_, isTermAt_iff.mpr hp⟩
  have hlength := hp.1.length_le
  rw [List.length_drop] at hlength
  have := List.length_pos_of_ne_nil hterm
  omega

end Terms

section Kept

variable {casefold : String → String} {quote : String} {values : List String}

/-- Where a listed term is a word of the folded quote for the first time. -/
def FirstTerm (casefold : String → String) (quote : String) (values : List String) (p : Nat) :
    Prop :=
  IsLeast {q | ∃ v ∈ values, WordAt Char.isAlphanum (casefold quote).toList (casefold v).toList q} p

/-- The last end of such a first place. -/
def LastTerm (casefold : String → String) (quote : String) (values : List String) (b : Nat) :
    Prop :=
  IsGreatest {q | ∃ v ∈ values, ∃ p, FirstWord (casefold quote).toList (casefold v).toList p ∧
    q = p + (casefold v).toList.length} b

/-- Every listed term is a word of the part of the folded quote between the offsets that the ends of
the proposal go to. -/
def TermsKept (folding : CaseFolding casefold) (quote : String) (values : List String) : Prop :=
  ∀ first last, FirstTerm casefold quote values first → LastTerm casefold quote values last →
    ∀ v ∈ values, WordWithin Char.isAlphanum (casefold quote).toList (casefold v).toList
      (folding.offset quote (first - 120)) (folding.offset quote (min quote.length (last + 120)))

/-- What lies between the ends of the spans. -/
theorem spans_ends {spans : List (Nat × Nat)} (hvalues : values ≠ [])
    (hterms : ∀ v ∈ values, (casefold v).toList ≠ [])
    (h : termSpans casefold quote values = some spans) :
    FirstTerm casefold quote values (((spans.map (·.1)).min?).getD 0) ∧
      LastTerm casefold quote values (((spans.map (·.2)).max?).getD 0) := by
  obtain ⟨hto, hback⟩ := mem_mapM h
  have hof : ∀ span ∈ spans, ∃ v ∈ values,
      FirstWord (casefold quote).toList (casefold v).toList span.1 ∧
        span.2 = span.1 + (casefold v).toList.length := by
    intro span hspan
    obtain ⟨v, hv, hfound⟩ := hback span hspan
    exact ⟨v, hv, (termSpan_eq_some_iff (hterms v hv)).mp hfound⟩
  have hfor : ∀ v ∈ values, ∃ span ∈ spans,
      FirstWord (casefold quote).toList (casefold v).toList span.1 ∧
        span.2 = span.1 + (casefold v).toList.length := by
    intro v hv
    obtain ⟨span, hspan, hfound⟩ := hto v hv
    exact ⟨span, hspan, (termSpan_eq_some_iff (hterms v hv)).mp hfound⟩
  have hne : spans ≠ [] := by
    obtain ⟨v, hv⟩ := List.exists_mem_of_ne_nil _ hvalues
    obtain ⟨span, hspan, -⟩ := hfor v hv
    exact List.ne_nil_of_mem hspan
  obtain ⟨first, hfirst⟩ := Option.ne_none_iff_exists'.mp
    (mt List.min?_eq_none_iff.mp (mt List.map_eq_nil_iff.mp hne) : (spans.map (·.1)).min? ≠ none)
  obtain ⟨last, hlast⟩ := Option.ne_none_iff_exists'.mp
    (mt List.max?_eq_none_iff.mp (mt List.map_eq_nil_iff.mp hne) : (spans.map (·.2)).max? ≠ none)
  rw [hfirst, hlast, Option.getD_some, Option.getD_some]
  obtain ⟨hmem, hle⟩ := List.min?_eq_some_iff.mp hfirst
  obtain ⟨hmem', hle'⟩ := List.max?_eq_some_iff.mp hlast
  obtain ⟨span, hspan, rfl⟩ := List.mem_map.mp hmem
  obtain ⟨span', hspan', rfl⟩ := List.mem_map.mp hmem'
  refine ⟨⟨?_, ?_⟩, ?_, ?_⟩
  · obtain ⟨v, hv, hword, -⟩ := hof span hspan
    exact ⟨v, hv, hword.1⟩
  · rintro q ⟨v, hv, hq⟩
    obtain ⟨other, hother, hword, -⟩ := hfor v hv
    exact (hle _ (List.mem_map_of_mem hother)).trans (hword.2 hq)
  · obtain ⟨v, hv, hword, hend⟩ := hof span' hspan'
    exact ⟨v, hv, span'.1, hword, hend⟩
  · rintro q ⟨v, hv, p, hp, rfl⟩
    obtain ⟨other, hother, hword, hend⟩ := hfor v hv
    rw [hp.unique hword, ← hend]
    exact hle' _ (List.mem_map_of_mem hother)

end Kept

section Explicit

variable {patterns : ListPatterns} {casefold : String → String} {candidate : SelectedCandidate}
variable {proposal : ProposedVerification}

theorem listedTerms_token (description : String) :
    ∀ v ∈ listedTerms patterns description, IsToken v := by
  have hparse : ∀ pieces, ∀ parsed, parsePieces patterns pieces = some parsed →
      ∀ v ∈ parsed, IsToken v := by
    intro pieces
    induction pieces with
    | nil =>
        intro parsed h v hv
        cases h
        cases hv
    | cons piece pieces ih =>
        intro parsed h v hv
        rw [parsePieces] at h
        split at h
        · rename_i token htoken
          obtain ⟨rest, hrest, rfl⟩ := Option.map_eq_some_iff.mp h
          rcases List.mem_cons.mp hv with rfl | hv
          · exact patterns.explicitTokens_token piece v (htoken ▸ List.mem_singleton_self v)
          · exact ih rest hrest v hv
        · cases h
  intro v hv
  rw [listedTerms] at hv
  split at hv
  · rename_i both hboth
    obtain ⟨hone, htwo⟩ := patterns.bothTerms_token _ _ hboth
    rcases List.mem_cons.mp hv with rfl | hv
    · exact hone
    · exact List.mem_singleton.mp hv ▸ htwo
  · split at hv
    · cases hv
    · rename_i listed _
      have hmem := (distinctBy_sublist id _).subset hv
      cases hpieces : parsePieces patterns (patterns.splitList (Text.strip listed)) with
      | none => rw [hpieces] at hmem; cases hmem
      | some parsed => rw [hpieces] at hmem; exact hparse _ parsed hpieces v hmem

/-- What an accepted candidate is accepted for. -/
theorem deterministicExplicitTerms_some
    (h : deterministicExplicitTerms patterns casefold candidate = some proposal) :
    2 ≤ (listedTerms patterns candidate.fact.description).length ∧
      ∃ spans, termSpans casefold candidate.quote
          (listedTerms patterns candidate.fact.description) = some spans ∧
        proposal.quote = Text.strip (Text.slice candidate.quote (proposalStart spans)
          (proposalEnd candidate.quote spans)) := by
  rw [deterministicExplicitTerms] at h
  split at h
  · cases h
  · dsimp only at h
    split at h
    · cases h
    · rename_i hlength
      split at h
      · cases h
      · split at h
        · cases h
        · rename_i spans hspans
          cases h
          exact ⟨(not_not.mp hlength).1, spans, hspans, rfl⟩

/-- Folded tokens are not empty and have no blanks. -/
theorem fold_token (folding : CaseFolding casefold) {v : String} (h : IsToken v) :
    (casefold v).toList ≠ [] ∧ ∀ c ∈ (casefold v).toList, Text.isSpace c = false := by
  rw [folding.folds]
  constructor
  · obtain ⟨c, cs, hv⟩ := List.exists_cons_of_ne_nil (mt String.toList_eq_nil_iff.mp h.1)
    rw [hv, List.flatMap_cons]
    exact List.append_ne_nil_of_left_ne_nil (folding.remains c) _
  · intro d hd
    obtain ⟨c, hc, hd⟩ := List.mem_flatMap.mp hd
    exact folding.plain c (h.2 c hc) d hd

/-- **An accepted candidate's proposal has the listed terms exactly if they are kept.** -/
theorem explicit_terms_iff (folding : CaseFolding casefold)
    (h : deterministicExplicitTerms patterns casefold candidate = some proposal) :
    (proposal.quote ≠ "" ∧ ∀ v ∈ listedTerms patterns candidate.fact.description,
        ∃ p, WordAt Char.isAlphanum (casefold proposal.quote).toList (casefold v).toList p)
      ↔ TermsKept folding candidate.quote (listedTerms patterns candidate.fact.description) := by
  obtain ⟨htwo, spans, hspans, hquote⟩ := deterministicExplicitTerms_some h
  generalize hvalues : listedTerms patterns candidate.fact.description = values at *
  have htoken : ∀ v ∈ values, IsToken v := hvalues ▸ listedTerms_token _
  have hne : values ≠ [] := List.ne_nil_of_length_pos (by omega)
  obtain ⟨hfirst, hlast⟩ := spans_ends hne (fun v hv => (fold_token folding (htoken v hv)).1) hspans
  -- the blanks around the slice are not part of a term
  have hword : ∀ v ∈ values, (∃ p, WordAt Char.isAlphanum (casefold proposal.quote).toList
      (casefold v).toList p) ↔ WordWithin Char.isAlphanum (casefold candidate.quote).toList
        (casefold v).toList (folding.offset candidate.quote (proposalStart spans))
        (folding.offset candidate.quote (proposalEnd candidate.quote spans)) := by
    intro v hv
    obtain ⟨hterm, hplain⟩ := fold_token folding (htoken v hv)
    obtain ⟨pre, post, hfold, hpre, hpost⟩ := fold_strip folding
      (Text.slice candidate.quote (proposalStart spans) (proposalEnd candidate.quote spans))
    rw [fold_slice folding, ← hquote] at hfold
    rw [← wordAt_slice_iff hterm, hfold]
    exact (wordAt_pad_iff hpre hpost isAlphanum_of_isSpace hterm hplain).symm
  constructor
  · rintro ⟨-, hall⟩ first last hfirst' hlast' v hv
    rw [hfirst'.unique hfirst, hlast'.unique hlast]
    exact (hword v hv).mp (hall v hv)
  · intro hkept
    have hall : ∀ v ∈ values, ∃ p, WordAt Char.isAlphanum (casefold proposal.quote).toList
        (casefold v).toList p := fun v hv => (hword v hv).mpr (hkept _ _ hfirst hlast v hv)
    refine ⟨fun hempty => ?_, hall⟩
    obtain ⟨v, hv⟩ := List.exists_mem_of_ne_nil _ hne
    obtain ⟨p, hstarts, -⟩ := hall v hv
    have hnil : (casefold "").toList = [] := by rw [folding.folds]; rfl
    rw [hempty, hnil, List.drop_nil] at hstarts
    exact (fold_token folding (htoken v hv)).1 (List.prefix_nil.mp hstarts)

end Explicit

/-! ## Windows -/

section Windows

variable {py : PyText} {quoteChars : Nat} {text : String} {terms anchors : Finset String}

/-- The text has an anchor that is not longer than a third of the limit. -/
def HasShortAnchor (py : PyText) (quoteChars : Nat) (text : String) (anchors : Finset String) :
    Prop :=
  ∃ a ∈ anchors, 3 * a.length ≤ quoteChars ∧
    (py.casefold a).toList <:+: (py.casefold text).toList

/-- An anchor lies in the part of the folded text between the offsets that the ends of the window
go to. -/
def AnchorKept (folding : CaseFolding py.casefold) (quoteChars : Nat) (text : String)
    (anchors : Finset String) (start : Nat) : Prop :=
  ∃ a ∈ anchors, Within (py.casefold text).toList (py.casefold a).toList
    (folding.offset text start) (folding.offset text (start + quoteChars))

/-- Every window that a term leads with keeps an anchor; so does the front of the text, if no term
has a window. -/
def AnchorsKept (folding : CaseFolding py.casefold) (quoteChars : Nat) (text : String)
    (terms anchors : Finset String) : Prop :=
  quoteChars < text.length → HasShortAnchor py quoteChars text anchors →
    (∀ t ∈ positionTerms terms anchors, ∀ s, Leading py quoteChars text terms anchors t s →
      AnchorKept folding quoteChars text anchors s) ∧
    ((∀ t ∈ positionTerms terms anchors, windowsOf py quoteChars text t = []) →
      AnchorKept folding quoteChars text anchors 0)

theorem anchorKept_iff (folding : CaseFolding py.casefold) (start : Nat) :
    (∃ a ∈ anchors, (py.casefold a).toList <:+:
        (py.casefold (Text.slice text start (start + quoteChars))).toList)
      ↔ AnchorKept folding quoteChars text anchors start := by
  rw [fold_slice folding, AnchorKept]
  refine exists_congr fun a => and_congr_right fun _ => infix_slice_iff ?_
  exact offset_mono (Nat.le_add_right _ _)

variable (quoteChars text) in
theorem slice_infix (start : Nat) :
    (Text.slice text start (start + quoteChars)).toList <:+: text.toList ∧
      (Text.slice text start (start + quoteChars)).length ≤ quoteChars := by
  rw [Text.slice, String.toList_ofList, String.length_ofList, List.drop_take,
    Nat.add_sub_cancel_left]
  exact ⟨(List.take_prefix _ _).isInfix.trans (List.drop_suffix _ _).isInfix,
    List.length_take_le _ _⟩

variable (terms anchors) in
/-- **A quote has an anchor exactly if the anchors are kept.** -/
theorem quoteWindow_has_anchor_iff (folding : CaseFolding py.casefold) :
    (∀ e, (quoteWindow py e quoteChars text terms anchors).toList <:+: text.toList ∧
        (quoteWindow py e quoteChars text terms anchors).length ≤ quoteChars ∧
        (HasShortAnchor py quoteChars text anchors → ∃ a ∈ anchors, (py.casefold a).toList <:+:
          (py.casefold (quoteWindow py e quoteChars text terms anchors)).toList))
      ↔ AnchorsKept folding quoteChars text terms anchors := by
  constructor
  · intro h hlong hshort
    let e : Enumeration := ⟨Finset.toList, Finset.nodup_toList, fun _ _ => Finset.mem_toList⟩
    refine ⟨fun t ht s hs => ?_, fun hnone => ?_⟩
    · have hquote := (h (e.first t)).2.2 hshort
      rw [quoteWindow_first e hlong ht hs] at hquote
      exact (anchorKept_iff folding s).mp hquote
    · have hquote := (h e).2.2 hshort
      rcases quoteWindow_leading py terms anchors e hlong with ⟨t, ht, s, hs, -⟩ | ⟨-, hfront⟩
      · have hmem := hs.1.mem
        rw [hnone t ht] at hmem
        cases hmem
      · rw [hfront, ← Nat.zero_add quoteChars] at hquote
        exact (anchorKept_iff folding 0).mp hquote
  · intro hkept e
    by_cases hlong : quoteChars < text.length
    · rcases quoteWindow_leading py terms anchors e hlong with
        ⟨t, ht, s, hs, hquote⟩ | ⟨hnone, hquote⟩
      · obtain ⟨hinside, hlength⟩ := slice_infix quoteChars text s
        rw [hquote]
        exact ⟨hinside, hlength, fun hshort =>
          (anchorKept_iff folding s).mpr ((hkept hlong hshort).1 t ht s hs)⟩
      · obtain ⟨hinside, hlength⟩ := slice_infix quoteChars text 0
        rw [Nat.zero_add] at hinside hlength
        rw [hquote]
        refine ⟨hinside, hlength, fun hshort => ?_⟩
        have hfront := (anchorKept_iff folding 0).mpr ((hkept hlong hshort).2 hnone)
        rwa [Nat.zero_add] at hfront
    · have hquote : quoteWindow py e quoteChars text terms anchors = text := if_pos (by omega)
      rw [hquote]
      refine ⟨List.infix_rfl, by omega, ?_⟩
      rintro ⟨a, ha, -, hinside⟩
      exact ⟨a, ha, hinside⟩

end Windows

/-! ## Proposed quotes and windows -/

/-- **Proposed quotes have the listed terms exactly if these are kept, and windows have an anchor
exactly if one is kept.** -/
theorem chosen_for_iff (py : PyText) (folding : CaseFolding py.casefold) (patterns : ListPatterns)
    (candidate : SelectedCandidate) (quoteChars : Nat) (text : String) (terms anchors : Finset String) :
    (∀ proposal, deterministicExplicitTerms patterns py.casefold candidate = some proposal →
      ((proposal.quote ≠ "" ∧ ∀ v ∈ listedTerms patterns candidate.fact.description, ∃ p,
          WordAt Char.isAlphanum (py.casefold proposal.quote).toList (py.casefold v).toList p)
        ↔ TermsKept folding candidate.quote
            (listedTerms patterns candidate.fact.description))) ∧
    ((∀ e, (quoteWindow py e quoteChars text terms anchors).toList <:+: text.toList ∧
        (quoteWindow py e quoteChars text terms anchors).length ≤ quoteChars ∧
        (HasShortAnchor py quoteChars text anchors → ∃ a ∈ anchors, (py.casefold a).toList <:+:
          (py.casefold (quoteWindow py e quoteChars text terms anchors)).toList))
      ↔ AnchorsKept folding quoteChars text terms anchors) :=
  ⟨fun _ haccepted => explicit_terms_iff folding haccepted,
    quoteWindow_has_anchor_iff terms anchors folding⟩

namespace Sample

/-- Case folding on texts of small letters. -/
def foldSharp (c : Char) : List Char := if c = 'ß' then ['s', 's'] else [c]

def german : PyText := { py with casefold t := String.ofList (t.toList.flatMap foldSharp) }

def germanFolding : CaseFolding german.casefold where
  fold := foldSharp
  folds _ := String.toList_ofList
  remains c := by
    rw [foldSharp]
    split <;> exact List.cons_ne_nil _ _
  blank c h := by
    rw [foldSharp, if_neg]
    rintro rfl
    revert h
    decide
  plain c h d hd := by
    rw [foldSharp] at hd
    split at hd
    · simp only [List.mem_cons, List.not_mem_nil, or_false] at hd
      rcases hd with rfl | rfl <;> decide
    · rw [List.mem_singleton.mp hd]
      exact h

/-- Finds what is listed in one description. -/
def patterns : ListPatterns where
  bothTerms text := if text = "both get and head" then some ("get", "head") else none
  explicitList _ := none
  splitList _ := []
  explicitTokens _ := []
  bothTerms_token d t h := by
    split at h
    · cases h
      exact ⟨⟨by decide, by decide⟩, by decide, by decide⟩
    · cases h
  explicitTokens_token _ t h := by cases h

/-- Terms behind a hundred and twenty-one code points that fold to two. -/
def farTerms : List Char := List.replicate 121 'ß' ++ [' ', 'g', 'e', 't', ' ', 'h', 'e', 'a', 'd']

theorem leader_length : 0 < 6 := by decide

/-- The terms of the fact stand behind long code points. -/
def methods : SelectedCandidate where
  id := ⟨1⟩
  factId := ⟨2⟩
  fact := { fact with description := "both get and head", given := by decide, subject_term := by decide }
  documentId := ⟨3⟩
  version := ⟨⟨4⟩, ⟨5⟩, ⟨3⟩, ""⟩
  chunkId := ⟨6⟩
  chunk := ⟨"leader", 0, 6, leader_length⟩
  url := "https://etcd.io/"
  sourceIdentity := "etcd.io"
  sourceAuthority := .official
  quote := String.ofList farTerms
  score := 1

end Sample

section Missed

open Sample

theorem methods_spans :
    termSpans german.casefold methods.quote ["get", "head"] = some [(243, 246), (247, 251)] := by
  have hfold : (german.casefold methods.quote).toList = farTerms.flatMap foldSharp := by
    rw [germanFolding.folds, methods, String.toList_ofList]
    rfl
  rw [termSpans]
  simp only [hfold]
  decide +kernel

/-- The first term loses its first letter. -/
theorem term_missed : ∃ proposal,
    deterministicExplicitTerms patterns german.casefold methods = some proposal ∧
      "get" ∈ listedTerms patterns methods.fact.description ∧
      ¬∃ p, WordAt Char.isAlphanum (german.casefold proposal.quote).toList
        (german.casefold "get").toList p := by
  have hlisted : listedTerms patterns methods.fact.description = ["get", "head"] := by decide
  have hsome : (deterministicExplicitTerms patterns german.casefold methods).isSome = true := by
    rw [deterministicExplicitTerms, if_neg (by decide +kernel)]
    dsimp only
    rw [hlisted, if_neg (by decide), if_neg (by decide), methods_spans]
    rfl
  obtain ⟨proposal, haccepted⟩ := Option.isSome_iff_exists.mp hsome
  obtain ⟨-, spans, hspans, hquote⟩ := deterministicExplicitTerms_some haccepted
  rw [hlisted, methods_spans] at hspans
  cases hspans
  have hcut : Text.strip (Text.slice methods.quote (proposalStart [(243, 246), (247, 251)])
      (proposalEnd methods.quote [(243, 246), (247, 251)])) = "et head" := by
    rw [methods, proposalEnd, String.length_ofList, Text.slice, String.toList_ofList]
    decide +kernel
  refine ⟨proposal, haccepted, hlisted ▸ List.mem_cons_self, fun hword => ?_⟩
  have hfound := termSpan_isSome (by decide) hword
  rw [hquote, hcut] at hfound
  revert hfound
  decide

/-- A window of six misses its only anchor. -/
theorem anchor_missed :
    HasShortAnchor german 6 "ßßßßßß go ahead now" ["go"].toFinset ∧
      quoteWindow german alphabetical 6 "ßßßßßß go ahead now" ∅ ["go"].toFinset = "head n" ∧
      ¬∃ a ∈ ["go"].toFinset, (german.casefold a).toList <:+: (german.casefold "head n").toList := by
  refine ⟨⟨"go", by decide, by decide, by decide⟩, by decide, ?_⟩
  decide

/-- Neither the proposal nor the window has what it was chosen for. -/
theorem chosen_for_missed :
    (∃ proposal, deterministicExplicitTerms patterns german.casefold methods = some proposal ∧
      "get" ∈ listedTerms patterns methods.fact.description ∧
      ¬∃ p, WordAt Char.isAlphanum (german.casefold proposal.quote).toList
        (german.casefold "get").toList p) ∧
    HasShortAnchor german 6 "ßßßßßß go ahead now" ["go"].toFinset ∧
      ¬∃ a ∈ ["go"].toFinset, (german.casefold a).toList <:+: (german.casefold
        (quoteWindow german alphabetical 6 "ßßßßßß go ahead now" ∅ ["go"].toFinset)).toList := by
  obtain ⟨proposal, haccepted, hlisted, hword⟩ := term_missed
  obtain ⟨hshort, hwindow, hanchor⟩ := anchor_missed
  rw [hwindow]
  exact ⟨⟨proposal, haccepted, hlisted, hword⟩, hshort, hanchor⟩

/-- So neither is kept. -/
theorem chosen_for_iff_missed :
    ¬TermsKept germanFolding methods.quote (listedTerms patterns methods.fact.description) ∧
      ¬AnchorsKept germanFolding 6 "ßßßßßß go ahead now" ∅ ["go"].toFinset := by
  obtain ⟨proposal, haccepted, hlisted, hword⟩ := term_missed
  obtain ⟨hshort, hwindow, hanchor⟩ := anchor_missed
  have hiff := chosen_for_iff german germanFolding patterns methods 6 "ßßßßßß go ahead now" ∅
    ["go"].toFinset
  refine ⟨fun hkept => ?_, fun hkept => ?_⟩
  · exact hword (((hiff.1 proposal haccepted).mpr hkept).2 "get" hlisted)
  · have hquote := (hiff.2.mpr hkept alphabetical).2.2 hshort
    rw [hwindow] at hquote
    exact hanchor hquote

end Missed

end Sana.Evidence
