import Mathlib.Data.List.DropRight
import Mathlib.Tactic.Common
import Sana.Shared.Json

/-!
# Words of a text

Splitting a text at blanks and joining the words again. What is joined is no longer than the
stripped text, and a text that starts with a word still does so after cutting it off behind.
-/

namespace Sana.Text

/-- The runs of code points with a property; `word` is the run that is going on. -/
def runsFrom (p : Char → Bool) (word : List Char) : List Char → List (List Char)
  | [] => if word.isEmpty then [] else [word]
  | c :: cs =>
      if p c then runsFrom p (word ++ [c]) cs
      else if word.isEmpty then runsFrom p [] cs
      else word :: runsFrom p [] cs

/-- `text.split()`. -/
def split (text : String) : List String :=
  (runsFrom (!isSpace ·) [] text.toList).map String.ofList

/-- `" ".join(text.split())`. -/
def squeeze (text : String) : String := " ".intercalate (split text)

/-- `text.rstrip()`. -/
def rstrip (text : String) : String := String.ofList (text.toList.rdropWhile isSpace)

theorem stripChars_of_forall {cs : List Char} (h : ∀ x ∈ cs, isSpace x = false) :
    stripChars cs = cs := by
  have hdrop : ∀ l : List Char, (∀ x ∈ l, isSpace x = false) → l.dropWhile isSpace = l := by
    intro l hl
    cases l with
    | nil => rfl
    | cons x l => rw [List.dropWhile_cons_of_neg (by rw [hl x List.mem_cons_self]; decide)]
  rw [stripChars, hdrop cs h, hdrop cs.reverse fun x hx => h x (List.mem_reverse.mp hx),
    List.reverse_reverse]

/-! ## Lengths -/

section Length

variable {p : Char → Bool}

/-- The runs, with a separator each, are not longer than the text with one more. -/
theorem sum_runsFrom_le (word l : List Char) :
    ((runsFrom p word l).map fun run => run.length + 1).sum ≤ word.length + l.length + 1 := by
  induction l generalizing word with
  | nil =>
      rw [runsFrom]
      split
      · exact Nat.zero_le _
      · simp
  | cons c cs ih =>
      rw [runsFrom, List.length_cons]
      split
      · have := ih (word ++ [c])
        rw [List.length_append, List.length_singleton] at this
        omega
      · have := ih []
        rw [List.length_nil] at this
        split
        · omega
        · rw [List.map_cons, List.sum_cons]
          omega

theorem runsFrom_none {rest : List Char} (word : List Char) (h : ∀ c ∈ rest, p c = false) :
    runsFrom p word rest = runsFrom p word [] := by
  induction rest generalizing word with
  | nil => rfl
  | cons c rest ih =>
      have hc : p c = false := h c List.mem_cons_self
      have hrest : runsFrom p [] rest = [] := ih [] fun c hc => h c (List.mem_cons_of_mem _ hc)
      by_cases hword : word.isEmpty = true
      · simp [runsFrom, hc, hrest, hword]
      · simp [runsFrom, hc, hrest, hword]

/-- What comes behind without a run changes nothing. -/
theorem runsFrom_append {l rest : List Char} (word : List Char) (h : ∀ c ∈ rest, p c = false) :
    runsFrom p word (l ++ rest) = runsFrom p word l := by
  induction l generalizing word with
  | nil => exact runsFrom_none word h
  | cons c l ih => rw [List.cons_append, runsFrom, runsFrom, ih, ih]

/-- Nor does what comes in front. -/
theorem runsFrom_dropWhile (l : List Char) :
    runsFrom p [] (l.dropWhile (!p ·)) = runsFrom p [] l := by
  induction l with
  | nil => rfl
  | cons c l ih =>
      by_cases hc : p c = true
      · rw [List.dropWhile_cons_of_neg (by simp [hc])]
      · rw [List.dropWhile_cons_of_pos (by simp [hc]), ih, runsFrom, if_neg hc]
        rfl

theorem split_strip (text : String) : split (strip text) = split text := by
  have hpred : (fun c => !!isSpace c) = isSpace := funext fun c => Bool.not_not _
  have hfront := runsFrom_dropWhile (p := (!isSpace ·)) text.toList
  simp only [hpred] at hfront
  have hblank : ∀ c ∈ (text.toList.dropWhile isSpace).rtakeWhile isSpace,
      (!isSpace c) = false := by
    intro c hc
    rw [List.rtakeWhile, List.mem_reverse] at hc
    rw [List.mem_takeWhile_imp hc]
    rfl
  have hback := runsFrom_append (l := (text.toList.dropWhile isSpace).rdropWhile isSpace) []
    hblank
  rw [List.rdropWhile_append_rtakeWhile, hfront] at hback
  rw [split, split, strip, String.toList_ofList, stripChars_eq, hback]

theorem length_intercalate_le (words : List String) :
    (" ".intercalate words).length ≤ (words.map fun word => word.length + 1).sum - 1 := by
  induction words with
  | nil => simp
  | cons word words ih =>
      by_cases hnil : words = []
      · subst hnil
        simp
      · rw [String.intercalate_cons_of_ne_nil hnil, String.length_append, String.length_append,
          List.map_cons, List.sum_cons]
        have hpos : 1 ≤ (words.map fun word => word.length + 1).sum := by
          cases words with
          | nil => exact absurd rfl hnil
          | cons w ws =>
              rw [List.map_cons, List.sum_cons]
              omega
        have hone : " ".length = 1 := by decide
        omega

/-- Joining the words makes a text no longer. -/
theorem length_squeeze_le (text : String) : (squeeze text).length ≤ (strip text).length := by
  have hsum := sum_runsFrom_le (p := (!isSpace ·)) [] (strip text).toList
  have hle := length_intercalate_le (split (strip text))
  rw [split_strip] at hle
  have hwords : ((split text).map fun word => word.length + 1).sum
      = ((runsFrom (!isSpace ·) [] (strip text).toList).map fun run => run.length + 1).sum := by
    rw [← split_strip, split, List.map_map]
    simp [Function.comp_def]
  rw [squeeze]
  rw [List.length_nil, String.length_toList] at hsum
  omega

theorem length_strip_le (text : String) : (strip text).length ≤ text.length := by
  rw [strip, String.length_ofList, stripChars_eq, ← String.length_toList]
  exact (List.rdropWhile_prefix _ _).length_le.trans (List.dropWhile_suffix _).length_le

end Length

/-! ## Starts -/

/-- The text starts with a code point that is no blank. -/
def Starts (text : String) : Prop := ∃ c cs, text.toList = c :: cs ∧ isSpace c = false

section Start

variable {text : String}

theorem Starts.not_blank (h : Starts text) : isBlank text = false := by
  obtain ⟨c, cs, htext, hc⟩ := h
  rw [isBlank, htext, List.all_cons, hc]
  rfl

theorem Starts.append (h : Starts text) (rest : String) : Starts (text ++ rest) := by
  obtain ⟨c, cs, htext, hc⟩ := h
  exact ⟨c, cs ++ rest.toList, by rw [String.toList_append, htext, List.cons_append], hc⟩

theorem Starts.intercalate (h : Starts text) (words : List String) :
    Starts (" ".intercalate (text :: words)) := by
  by_cases hnil : words = []
  · subst hnil
    rwa [String.intercalate_singleton]
  · rw [String.intercalate_cons_of_ne_nil hnil, String.append_assoc]
    exact h.append _

/-- Cutting off blanks and more behind keeps the start. -/
theorem Starts.rstrip_take (h : Starts text) {n : Nat} (hn : 1 ≤ n) :
    Starts (rstrip (String.ofList (text.toList.take n))) := by
  obtain ⟨c, cs, htext, hc⟩ := h
  obtain ⟨n, rfl⟩ : ∃ m, n = m + 1 := ⟨n - 1, by omega⟩
  rw [rstrip, String.toList_ofList, htext, List.take_succ_cons]
  have hne : (c :: cs.take n).rdropWhile isSpace ≠ [] := by
    intro hnil
    have := List.rdropWhile_eq_nil_iff.mp hnil c List.mem_cons_self
    rw [hc] at this
    cases this
  obtain ⟨rest, hrest⟩ := List.rdropWhile_prefix isSpace (l := c :: cs.take n)
  obtain ⟨d, ds, hd⟩ := List.exists_cons_of_ne_nil hne
  rw [hd, List.cons_append] at hrest
  obtain ⟨rfl, -⟩ := List.cons.inj hrest
  exact ⟨d, ds, by rw [String.toList_ofList, hd], hc⟩

theorem length_rstrip_le (text : String) : (rstrip text).length ≤ text.length := by
  rw [rstrip, String.length_ofList, ← String.length_toList]
  exact (List.rdropWhile_prefix _ _).length_le

/-- What is stripped is nothing or starts with a word. -/
theorem starts_strip (h : strip text ≠ "") : Starts (strip text) := by
  have hlist : stripChars text.toList ≠ [] := by
    intro hnil
    exact h (by rw [strip, hnil, String.ofList_nil])
  obtain ⟨c, cs, hc⟩ := List.exists_cons_of_ne_nil hlist
  refine ⟨c, cs, by rw [strip, String.toList_ofList, hc], ?_⟩
  have hstarts : stripChars text.toList <+: text.toList.dropWhile isSpace :=
    List.rdropWhile_prefix _ _
  have hsame := dropWhile_of_isPrefix hstarts
  rw [hc] at hsame
  by_contra hspace
  rw [List.dropWhile_cons_of_pos (by simpa using hspace)] at hsame
  have hle := (List.dropWhile_suffix isSpace (l := cs)).length_le
  rw [hsame, List.length_cons] at hle
  omega

/-- Cutting off behind keeps the start. -/
theorem Starts.slice (h : Starts text) {n : Nat} (hn : 1 ≤ n) : Starts (slice text 0 n) := by
  obtain ⟨c, cs, htext, hc⟩ := h
  obtain ⟨n, rfl⟩ : ∃ m, n = m + 1 := ⟨n - 1, by omega⟩
  refine ⟨c, cs.take n, ?_, hc⟩
  rw [Text.slice, String.toList_ofList, htext, List.take_succ_cons, List.drop_zero]

/-- A run is not empty and has nothing else in it. -/
theorem runsFrom_spec {p : Char → Bool} {word l : List Char} (hword : ∀ c ∈ word, p c = true) :
    ∀ run ∈ runsFrom p word l, run ≠ [] ∧ ∀ c ∈ run, p c = true := by
  induction l generalizing word with
  | nil =>
      intro run hrun
      rw [runsFrom] at hrun
      split at hrun
      · cases hrun
      · rename_i hempty
        rw [List.mem_singleton.mp hrun]
        exact ⟨fun hnil => hempty (List.isEmpty_iff.mpr hnil), hword⟩
  | cons c l ih =>
      intro run hrun
      rw [runsFrom] at hrun
      split at hrun
      · rename_i hc
        refine ih (fun d hd => ?_) run hrun
        rcases List.mem_append.mp hd with hd | hd
        · exact hword d hd
        · exact List.mem_singleton.mp hd ▸ hc
      · split at hrun
        · exact ih (List.forall_mem_nil _) run hrun
        · rename_i hempty
          rcases List.mem_cons.mp hrun with rfl | hrun
          · exact ⟨fun hnil => hempty (List.isEmpty_iff.mpr hnil), hword⟩
          · exact ih (List.forall_mem_nil _) run hrun

theorem mem_intercalate {words : List String} {c : Char}
    (h : c ∈ (" ".intercalate words).toList) : c = ' ' ∨ ∃ word ∈ words, c ∈ word.toList := by
  induction words with
  | nil => cases h
  | cons word words ih =>
      by_cases hnil : words = []
      · subst hnil
        rw [String.intercalate_singleton] at h
        exact .inr ⟨word, List.mem_cons_self, h⟩
      · rw [String.intercalate_cons_of_ne_nil hnil, String.toList_append, String.toList_append,
          List.mem_append, List.mem_append] at h
        rcases h with (h | h) | h
        · exact .inr ⟨word, List.mem_cons_self, h⟩
        · exact .inl (List.mem_singleton.mp h)
        · rcases ih h with h | ⟨w, hw, h⟩
          · exact .inl h
          · exact .inr ⟨w, List.mem_cons_of_mem _ hw, h⟩

/-- What words are joined to is nothing or starts with a word. -/
theorem starts_squeeze (h : squeeze text ≠ "") : Starts (squeeze text) := by
  have hspec := runsFrom_spec (p := (!isSpace ·)) (l := text.toList) (List.forall_mem_nil _)
  rw [squeeze, split] at h ⊢
  cases hruns : runsFrom (!isSpace ·) [] text.toList with
  | nil =>
      rw [hruns] at h
      exact absurd rfl h
  | cons run runs =>
      rw [List.map_cons]
      obtain ⟨hne, hplain⟩ := hspec run (hruns ▸ List.mem_cons_self)
      obtain ⟨c, cs, rfl⟩ := List.exists_cons_of_ne_nil hne
      refine Starts.intercalate ⟨c, cs, String.toList_ofList, ?_⟩ _
      simpa using hplain c List.mem_cons_self

/-- Joined words have no other blanks than those between them. -/
theorem blank_squeeze {c : Char} (hc : c ∈ (squeeze text).toList) (hblank : isSpace c = true) :
    c = ' ' := by
  rcases mem_intercalate hc with h | ⟨word, hword, h⟩
  · exact h
  · obtain ⟨run, hrun, rfl⟩ := List.mem_map.mp hword
    have hplain := (runsFrom_spec (p := (!isSpace ·)) (List.forall_mem_nil _) run hrun).2 c
      (by rwa [String.toList_ofList] at h)
    rw [hblank] at hplain
    cases hplain

end Start

/-! ## Finding -/

section Finding

variable {sub l : List Char} {p : Nat}

theorem indexChars_isSome_iff : (indexChars sub l).isSome = true ↔ sub <:+: l := by
  induction l with
  | nil =>
      rw [indexChars, List.infix_nil, ← List.isEmpty_iff]
      cases sub.isEmpty <;> simp
  | cons c l ih =>
      rw [indexChars, List.infix_cons_iff, ← List.isPrefixOf_iff_prefix]
      cases hstarts : sub.isPrefixOf (c :: l) with
      | true => simp
      | false => simp [ih]

end Finding

/-- What occurs in two lists together occurs in one of them, or starts in the first and ends in the
second. -/
theorem infix_append_iff {α : Type*} {l a b : List α} :
    l <:+: a ++ b ↔ l <:+: a ∨ l <:+: b ∨
      ∃ front back, l = front ++ back ∧ back ≠ [] ∧ front <:+ a ∧ back <+: b := by
  constructor
  · rintro ⟨pre, post, h⟩
    rcases List.append_eq_append_iff.mp h with ⟨c, ha, -⟩ | ⟨c, hpre, hb⟩
    · exact .inl ⟨pre, c, ha.symm⟩
    · rcases List.append_eq_append_iff.mp hpre with ⟨d, ha, hl⟩ | ⟨d, hpre', hc⟩
      · by_cases hnil : c = []
        · subst hnil
          rw [List.append_nil] at hpre
          exact .inl ⟨pre, [], by rw [List.append_nil, hpre]⟩
        · exact .inr (.inr ⟨d, c, hl, hnil, ⟨pre, ha.symm⟩, ⟨post, hb.symm⟩⟩)
      · exact .inr (.inl ⟨d, post, by rw [hb, hc]⟩)
  · rintro (h | h | ⟨front, back, rfl, -, ⟨pre, rfl⟩, ⟨post, rfl⟩⟩)
    · exact h.trans (List.prefix_append _ _).isInfix
    · exact h.trans (List.suffix_append _ _).isInfix
    · exact ⟨pre, post, by simp only [List.append_assoc]⟩

end Sana.Text
