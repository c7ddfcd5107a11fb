import Sana.Lib.Utf8
import Sana.Orchestration.Proof.Aggregate
import Sana.Shadow.ManifestFile
import Sana.Shadow.Proof.Schedule

/-!
# Manifests and their files

A case is read from the line it is written as. So a manifest is read from its file, provided
that the file has a line for every case. JSON keeps three code points as they are that end a
line for `splitlines`: U+0085, U+2028 and U+2029. A case with one of them in a string is
written as a line that is read as two, and the file has more lines than cases. The parser
also strips tags and forbidden terms, which a case does not ask for.

Together these say exactly which manifests come back from their files
(`manifest_round_trip_iff`).
-/

namespace Sana.Shadow.Manifest

open Sana.Lib Orchestration Evidence
open Lib.JsonText (Value Decoder Codec numeral intText dumps Stops isDigit isPlain)
open Lib.Lines (splitLines join endsLine markedLines)
open Lib.Utf8 (fromUTF8?_toUTF8)

/-! ## Decimals -/

theorem numeral_text (d : Decimal) : numeral d.text =
    some (⟨decide (d.coefficient < 0), Nat.toDigits 10 d.coefficient.natAbs,
      'E' :: intText d.exponent⟩, []) :=
  Lib.JsonText.numeral_scientific d.coefficient d.exponent

theorem signedDigits_intText (n : Int) : signedDigits (intText n) = n := by
  obtain ⟨c, cs, hcs, hc⟩ := Lib.JsonText.head_toDigits n.natAbs
  have hminus : c ≠ '-' := by
    rintro rfl
    exact absurd hc (by decide)
  have hplus : c ≠ '+' := by
    rintro rfl
    exact absurd hc (by decide)
  have hread : Nat.ofDigitChars 10 (c :: cs) 0 = n.natAbs := by
    rw [← hcs]
    exact Nat.ofDigitChars_ten_toDigits
  unfold intText
  rw [hcs]
  by_cases hneg : n < 0
  · rw [if_pos hneg]
    show -(Nat.ofDigitChars 10 (c :: cs) 0 : Int) = n
    omega
  · rw [if_neg hneg]
    simp only [signedDigits]
    split
    · rename_i heq
      simp only [List.cons.injEq] at heq
      exact absurd heq.1 hminus
    · rename_i heq
      simp only [List.cons.injEq] at heq
      exact absurd heq.1 hplus
    · omega

theorem ofToken_text (d : Decimal) : Decimal.ofToken d.text = .ok d := by
  have hfraction : Lib.JsonText.fraction ('E' :: intText d.exponent) = [] := rfl
  have hcoefficient : (if decide (d.coefficient < 0) = true
      then -(Nat.ofDigitChars 10 (Nat.toDigits 10 d.coefficient.natAbs) 0 : Int)
      else Nat.ofDigitChars 10 (Nat.toDigits 10 d.coefficient.natAbs) 0) = d.coefficient := by
    rw [Nat.ofDigitChars_ten_toDigits]
    by_cases hneg : d.coefficient < 0
    · rw [if_pos (decide_eq_true hneg)]
      omega
    · rw [if_neg (by simpa using hneg)]
      omega
  unfold Decimal.ofToken
  rw [numeral_text]
  simp only [hfraction, List.drop_nil, List.append_nil, List.length_nil, List.drop_zero,
    Lib.JsonText.exponent_intText, List.drop_succ_cons, signedDigits_intText, hcoefficient]
  simp

/-- What a manifest is written with is what it is read with. -/
theorem codec (n : Nat) : Codec Decimal.text (decoder n) where
  token := by
    intro d
    refine ⟨_, numeral_text d, by simp, ?_⟩
    unfold Lib.JsonText.Numeral.text Decimal.text intText
    by_cases hneg : d.coefficient < 0 <;> simp [hneg]
  real := ofToken_text
  object := by
    intro ms h
    show strictJsonObject ms = .ok ms
    simp [strictJsonObject, check, h, bind, Except.bind, pure, Except.pure]

/-! ## Documents -/

theorem distinctItems_map {α : Type} {f : α → Value Decimal} {l : List α}
    (h : ∀ a ∈ l, (f a).Distinct) : Lib.JsonText.DistinctItems (l.map f) := by
  induction l with
  | nil => trivial
  | cons a l ih =>
      exact ⟨h a List.mem_cons_self, ih fun x hx => h x (List.mem_cons_of_mem _ hx)⟩

theorem distinct_expectation (e : Expectation) : e.document.Distinct := by
  cases e with
  | normalizedContainsAll items => exact distinctItems_map fun _ _ => trivial
  | setContains items => exact distinctItems_map fun _ _ => trivial
  | normalizedEquals value => cases value <;> trivial
  | numberInRange minimum maximum => exact ⟨(by decide : ["min", "max"].Nodup), trivial, trivial, trivial⟩
  | sourceClassAtLeast authority => trivial

theorem distinct_assertion (a : GoldAssertion) : a.document.Distinct :=
  ⟨(by decide : assertionFields.Nodup), trivial, trivial, distinct_expectation a.expected, trivial, trivial⟩

theorem distinct_moment (b : FileBuiltins) (t : Option Time) : (momentDocument b t).Distinct := by
  cases t <;> trivial

theorem distinct_document (b : FileBuiltins) (version : String) (c : ShadowCase) :
    (c.document b version).Distinct := by
  refine ⟨(by decide : caseFields.Nodup), ?_⟩
  refine ⟨trivial, trivial, trivial, trivial, trivial, trivial, trivial, trivial,
    distinctItems_map fun a _ => distinct_assertion a, trivial, distinct_moment b _,
    distinct_moment b _, ?_, ?_, trivial, ?_, trivial, trivial⟩
  · exact distinctItems_map fun _ _ => trivial
  · exact distinctItems_map fun _ _ => trivial
  · exact distinctItems_map fun _ _ => trivial

/-! ## A case is read from its document -/

section Read

variable {b : FileBuiltins}

theorem mapM_map {α β γ : Type} {f : α → β} {g : β → Except Exn γ} {l : List α} {h : α → γ}
    (hread : ∀ a ∈ l, g (f a) = .ok (h a)) : (l.map f).mapM g = .ok (l.map h) := by
  induction l with
  | nil => rfl
  | cons a l ih =>
      rw [List.map_cons, List.mapM_cons, hread a List.mem_cons_self]
      simp only [bind, Except.bind, ih fun x hx => hread x (List.mem_cons_of_mem _ hx)]
      rfl

theorem strings?_map (items : List String) :
    strings? (.arr (items.map (.str : String → Value Decimal))) = some items := by
  unfold strings?
  induction items with
  | nil => rfl
  | cons s items ih =>
      dsimp only at ih ⊢
      rw [List.map_cons, List.mapM_cons, ih]
      rfl

theorem modeOf_value (m : SearchMode) : modeOf b (.str m.value) = .ok m := by cases m <;> rfl

theorem categoryOf_value (c : CaseCategory) : categoryOf b (.str c.value) = .ok c := by
  cases c <;> rfl

theorem answerabilityOf_value (a : Answerability) : answerabilityOf b (.str a.value) = .ok a := by
  cases a <;> rfl

theorem oracleTypeOf_value (o : OracleType) : oracleTypeOf b (.str o.value) = .ok o := by
  cases o <;> rfl

theorem authorityOf_value (a : SourceAuthority) : authorityOf b (.str a.value) = .ok a := by
  cases a <;> rfl

theorem expectation_document (e : Expectation) : expectation b e.operator e.document = .ok e := by
  cases e with
  | normalizedContainsAll items =>
      simp only [expectation, Expectation.operator, Expectation.document, strings?_map, true_or,
        if_true]
      rfl
  | setContains items =>
      simp only [expectation, Expectation.operator, Expectation.document, strings?_map, or_true,
        if_true]
  | normalizedEquals value => cases value <;> rfl
  | numberInRange minimum maximum => rfl
  | sourceClassAtLeast authority => cases authority <;> rfl

theorem make_assertion (a : GoldAssertion) :
    GoldAssertion.make b a.id a.expected.operator a.expected.document a.critical = .ok a := by
  have hid : Text.strip a.id ≠ "" ∧ (Text.strip a.id).length ≤ 100 := by
    rw [a.stripped]
    exact a.bounded
  unfold GoldAssertion.make
  rw [dif_pos hid, expectation_document]
  dsimp only
  split
  · rename_i e he
    rw [a.expected_ok] at he
    cases he
  · congr
    exact a.stripped

theorem parseAssertion_document (caseId : String) (a : GoldAssertion) :
    parseAssertion b caseId a.document = .ok a := by
  have hfields : checkFields b ("Case " ++ caseId ++ " gold assertion") assertionFields
      [("id", .str a.id), ("operator", .str a.expected.operator),
        ("expected", a.expected.document), ("critical", .bool a.critical)] = .ok () := rfl
  show (checkFields b ("Case " ++ caseId ++ " gold assertion") assertionFields
      [("id", .str a.id), ("operator", .str a.expected.operator),
        ("expected", a.expected.document), ("critical", .bool a.critical)] >>= fun _ =>
      GoldAssertion.make b a.id a.expected.operator a.expected.document a.critical) = .ok a
  rw [hfields]
  exact make_assertion a

/-- A moment is read back from the text it is written as, and that text is ASCII. -/
def Reads (b : FileBuiltins) (t : Time) : Prop :=
  b.fromisoformat (Text.replace (b.isoformat t) "Z" "+00:00") = some (t, true) ∧
    (b.isoformat t).toList.all isPlain = true

/-- The moments of a case. -/
def ShadowCase.moments (c : ShadowCase) : List Time := c.validFrom.toList ++ c.validUntil.toList

theorem parseDatetime_document {t : Option Time} (h : ∀ x ∈ t.toList, Reads b x) (name : String) :
    parseDatetime b (momentDocument b t) name = .ok t := by
  cases t with
  | none => rfl
  | some t =>
      have hread := (h t (by simp)).1
      simp only [momentDocument, parseDatetime, hread, if_true]

theorem stringTuple_map (items : List String) (h : ∀ s ∈ items, Text.strip s = s)
    (name : String) : stringTuple (.arr (items.map .str)) name = .ok items := by
  have hstrip : items.map Text.strip = items := by
    conv_rhs => rw [← List.map_id items]
    exact List.map_congr_left fun s hs => h s hs
  simp only [stringTuple, strings?_map, hstrip]

theorem sources_map (l : List SourceAuthority) :
    stringTuple (.arr (l.map fun a => .str a.value)) = fun _ => .ok (l.map (·.value)) := by
  funext name
  have hmap : l.map (fun a => (.str a.value : Value Decimal)) =
      (l.map (·.value)).map .str := by
    rw [List.map_map]
    rfl
  rw [hmap]
  apply stringTuple_map _
  intro s hs
  obtain ⟨a, -, rfl⟩ := List.mem_map.mp hs
  cases a <;> decide

/-- The parser makes of a case what the case is, if it has nothing to strip. -/
theorem parseCase_document {version : String} {c : ShadowCase}
    (hversion : Text.isBlank version = false) (hmoments : ∀ t ∈ c.moments, Reads b t)
    (hstrip : ∀ s ∈ c.forbiddenQueryTerms ++ c.tags, Text.strip s = s) (n : Nat) :
    parseCase b n (c.document b version) = .ok (Text.strip version, c) := by
  have hassertions : (c.goldAssertions.map (·.document)).mapM (parseAssertion b c.id) =
      .ok c.goldAssertions := by
    have hread := mapM_map (h := id) fun a (_ : a ∈ c.goldAssertions) =>
      parseAssertion_document (b := b) c.id a
    rw [List.map_id] at hread
    exact hread
  have hsources : (c.requiredSourceClasses.map (·.value)).mapM
      (fun s => authorityOf b (.str s)) = .ok c.requiredSourceClasses := by
    have hread := mapM_map (g := fun s => authorityOf b (.str s)) (h := id)
      fun a (_ : a ∈ c.requiredSourceClasses) => authorityOf_value (b := b) a
    rw [List.map_id] at hread
    exact hread
  have hfrom := parseDatetime_document (b := b) (t := c.validFrom)
    (fun t ht => hmoments t (List.mem_append_left _ ht))
  have huntil := parseDatetime_document (b := b) (t := c.validUntil)
    (fun t ht => hmoments t (List.mem_append_right _ ht))
  have hterms := stringTuple_map c.forbiddenQueryTerms
    (fun s hs => hstrip s (List.mem_append_left _ hs))
  have htags := stringTuple_map c.tags
    (fun s hs => hstrip s (List.mem_append_right _ hs))
  have hmake : ShadowCase.make c.toCaseFields = .ok c := Aggregate.checked_of_valid c.valid
  have hnames : ∀ line, checkFields b line caseFields (c.members b version) = .ok () :=
    fun _ => rfl
  have hversionField : ∀ message, stringField (c.members b version) "manifest_version" message =
      .ok version := fun _ => rfl
  have hid : ∀ message, stringField (c.members b version) "id" message = .ok c.id := fun _ => rfl
  have hprompt : ∀ message, stringField (c.members b version) "prompt" message = .ok c.prompt :=
    fun _ => rfl
  have hlocale : ∀ message, stringField (c.members b version) "locale" message = .ok c.locale :=
    fun _ => rfl
  have hfacts : field (c.members b version) "minimum_required_facts" =
      .int c.minimumRequiredFacts := rfl
  have hgold : field (c.members b version) "gold_assertions" =
      .arr (c.goldAssertions.map (·.document)) := rfl
  have hcomplete : field (c.members b version) "must_not_complete" = .bool c.mustNotComplete := rfl
  have hsmoke : field (c.members b version) "smoke" = .bool c.smoke := rfl
  unfold parseCase ShadowCase.document
  refine bind_ok_iff.mpr ⟨(), hnames _, ?_⟩
  refine bind_ok_iff.mpr ⟨version, hversionField _, ?_⟩
  refine bind_ok_iff.mpr ⟨(), check_eq_ok.mpr (by rw [hversion]; rfl), ?_⟩
  refine bind_ok_iff.mpr ⟨c.id, hid _, ?_⟩
  refine bind_ok_iff.mpr ⟨c.prompt, hprompt _, ?_⟩
  refine bind_ok_iff.mpr ⟨c.locale, hlocale _, ?_⟩
  simp only [hfacts, hgold, hcomplete, hsmoke]
  refine bind_ok_iff.mpr ⟨c.goldAssertions, hassertions, ?_⟩
  refine bind_ok_iff.mpr ⟨c.expectedMode, modeOf_value _, ?_⟩
  refine bind_ok_iff.mpr ⟨c.category, categoryOf_value _, ?_⟩
  refine bind_ok_iff.mpr ⟨c.answerability, answerabilityOf_value _, ?_⟩
  refine bind_ok_iff.mpr ⟨c.oracleType, oracleTypeOf_value _, ?_⟩
  refine bind_ok_iff.mpr ⟨c.validFrom, hfrom _, ?_⟩
  refine bind_ok_iff.mpr ⟨c.validUntil, huntil _, ?_⟩
  refine bind_ok_iff.mpr ⟨_, congrFun (sources_map c.requiredSourceClasses) _, ?_⟩
  refine bind_ok_iff.mpr ⟨c.requiredSourceClasses, hsources, ?_⟩
  refine bind_ok_iff.mpr ⟨c.forbiddenQueryTerms, hterms _, ?_⟩
  refine bind_ok_iff.mpr ⟨c.tags, htags _, ?_⟩
  exact bind_ok_iff.mpr ⟨c, hmake, rfl⟩

/-! ## What is read has been stripped -/

theorem stringTuple_stripped {v : Value Decimal} {name : String} {items : List String}
    (h : stringTuple v name = .ok items) : ∀ s ∈ items, Text.strip s = s := by
  unfold stringTuple at h
  split at h
  · obtain rfl := Except.ok.inj h
    intro s hs
    obtain ⟨raw, -, rfl⟩ := List.mem_map.mp hs
    exact Text.strip_strip raw
  · cases h

theorem ShadowCase.make_ok {f : CaseFields} {c : ShadowCase} (h : ShadowCase.make f = .ok c) :
    c.toCaseFields = f := by
  unfold ShadowCase.make Aggregate.checked at h
  split at h
  · obtain rfl := Except.ok.inj h
    rfl
  · cases h

theorem parseCase_stripped {n : Nat} {v : Value Decimal} {x : String × ShadowCase}
    (h : parseCase b n v = .ok x) :
    ∀ s ∈ x.2.forbiddenQueryTerms ++ x.2.tags, Text.strip s = s := by
  unfold parseCase at h
  dsimp only at h
  split at h
  swap
  · cases h
  simp only [bind_ok_iff] at h
  obtain ⟨-, -, version, -, -, -, id, -, prompt, -, locale, -, h⟩ := h
  split at h
  · simp only [bind_ok_iff, pure_ok_iff] at h
    obtain ⟨_, _, _, _, _, _, _, _, _, _, _, _, _, _, _, _, _, _, terms, hterms, tags, htags, c,
      hmake, rfl⟩ := h
    have hc := ShadowCase.make_ok hmake
    have hfields : c.forbiddenQueryTerms = terms ∧ c.tags = tags := by
      rw [hc]
      exact ⟨rfl, rfl⟩
    intro s hs
    rw [hfields.1, hfields.2] at hs
    rcases List.mem_append.mp hs with hs | hs
    · exact stringTuple_stripped hterms s hs
    · exact stringTuple_stripped htags s hs
  all_goals cases h

/-! ## Lines -/

theorem isBlankLine_eq (line : List Char) :
    isBlankLine line = !Lib.Lines.marked Text.isSpace line := by
  simp [isBlankLine, Lib.Lines.marked, List.not_any_eq_all_not]

/-- Every line that is not blank is a case, and there are no others. -/
theorem parseLines_ok {n : Nat} {lines : List (List Char)} {parsed : List (String × ShadowCase)}
    (h : parseLines b n lines = .ok parsed) :
    parsed.length = lines.countP (Lib.Lines.marked Text.isSpace) ∧
      ∀ x ∈ parsed, ∀ s ∈ x.2.forbiddenQueryTerms ++ x.2.tags, Text.strip s = s := by
  induction lines generalizing n parsed with
  | nil =>
      obtain rfl := Except.ok.inj h
      simp
  | cons line lines ih =>
      rw [parseLines, isBlankLine_eq] at h
      cases hmarked : Lib.Lines.marked Text.isSpace line with
      | false =>
          rw [hmarked, Bool.not_false, if_pos rfl] at h
          obtain ⟨hlen, hstrip⟩ := ih h
          rw [List.countP_cons_of_neg (by rw [hmarked]; decide)]
          exact ⟨hlen, hstrip⟩
      | true =>
          rw [hmarked, Bool.not_true, if_neg (by decide)] at h
          simp only [bind_ok_iff, pure_ok_iff] at h
          obtain ⟨v, -, x, hx, rest, hrest, rfl⟩ := h
          obtain ⟨hlen, hstrip⟩ := ih hrest
          rw [List.countP_cons_of_pos hmarked, List.length_cons, hlen]
          refine ⟨rfl, ?_⟩
          intro y hy
          rcases List.mem_cons.mp hy with rfl | hy
          · exact parseCase_stripped hx
          · exact hstrip y hy

/-- A case is written on a line that begins and ends with a brace. -/
theorem line_shape (version : String) (c : ShadowCase) : ∃ mid,
    c.line b version = '\x7b' :: (mid ++ ['\x7d']) := by
  obtain ⟨l, hl⟩ := Lib.JsonText.dumpsMembers_end (p := Decimal.text)
    ((c.members b version).drop 1)
  refine ⟨Lib.JsonText.quote "manifest_version" ++ ':' :: (Lib.JsonText.quote version ++ l), ?_⟩
  have hline : c.line b version = '\x7b' :: (Lib.JsonText.quote "manifest_version" ++ ':' ::
      (Lib.JsonText.quote version ++
        Lib.JsonText.dumpsMembers Decimal.text ((c.members b version).drop 1))) := rfl
  rw [hline, hl]
  simp

theorem isSpace_of_endsLine (c : Char) (h : endsLine c = true) : Text.isSpace c = true := by
  simp only [endsLine, Bool.or_eq_true, Bool.and_eq_true, decide_eq_true_eq, beq_iff_eq] at h
  simp only [Text.isSpace, Bool.or_eq_true, Bool.and_eq_true, decide_eq_true_eq, beq_iff_eq]
  omega

theorem isPlain_not_endsLine {c : Char} (h : isPlain c = true) : endsLine c = false := by
  simp only [isPlain, Bool.and_eq_true, decide_eq_true_eq] at h
  simp only [endsLine, Bool.or_eq_false_iff, Bool.and_eq_false_iff, decide_eq_false_iff_not,
    beq_eq_false_iff_ne]
  omega

/-! ## The code points of a line -/

/-- The code points that stand as they are in a line of JSON and end a line all the same. -/
def separators : List Char := ['\u0085', '\u2028', '\u2029']

theorem mem_separators_iff (c : Char) : c ∈ separators ↔ endsLine c = true ∧ 128 ≤ c.toNat := by
  constructor
  · intro h
    simp only [separators, List.mem_cons, List.not_mem_nil, or_false] at h
    rcases h with rfl | rfl | rfl <;> decide
  · rintro ⟨hends, hlarge⟩
    simp only [endsLine, Bool.or_eq_true, Bool.and_eq_true, decide_eq_true_eq, beq_iff_eq] at hends
    have hcode : c.toNat = 0x85 ∨ c.toNat = 0x2028 ∨ c.toNat = 0x2029 := by omega
    rcases hcode with h | h | h
    · obtain rfl : c = '\u0085' := Lib.JsonText.eq_of_toNat_eq h
      decide
    · obtain rfl : c = '\u2028' := Lib.JsonText.eq_of_toNat_eq h
      decide
    · obtain rfl : c = '\u2029' := Lib.JsonText.eq_of_toNat_eq h
      decide

theorem notMem_of_plain {x : Char} (hx : isPlain x = false) {s : String}
    (hs : s.toList.all isPlain = true) : x ∉ s.toList := by
  intro h
  rw [List.all_eq_true.mp hs x h] at hx
  cases hx

theorem mem_chars_strings {x : Char} (l : List String) :
    x ∈ (.arr (l.map .str) : Value Decimal).chars ↔ ∃ s ∈ l, x ∈ s.toList := by
  simp [Value.chars, Lib.JsonText.mem_charsItems]

theorem mem_chars_expectation {x : Char} (hx : isPlain x = false) (e : Expectation) :
    x ∈ e.document.chars ↔ ∃ s ∈ e.strings, x ∈ s.toList := by
  cases e with
  | normalizedContainsAll items => exact mem_chars_strings items
  | setContains items => exact mem_chars_strings items
  | normalizedEquals value =>
      cases value <;> simp [Expectation.document, Expectation.strings, Value.chars]
  | numberInRange minimum maximum =>
      have hmin := notMem_of_plain hx (s := "min") (by decide)
      have hmax := notMem_of_plain hx (s := "max") (by decide)
      simp only [Expectation.document, Expectation.strings, Value.chars,
        Lib.JsonText.mem_charsMembers, List.mem_cons, List.not_mem_nil, or_false,
        exists_eq_or_imp, exists_eq_left, hmin, hmax, false_and, exists_false]
  | sourceClassAtLeast authority =>
      have hvalue : x ∉ authority.value.toList := by
        cases authority <;> exact notMem_of_plain hx (by decide)
      simp [Expectation.document, Expectation.strings, Value.chars, hvalue]

theorem operator_plain (e : Expectation) : e.operator.toList.all isPlain = true := by
  have hoperators : ∀ s ∈ ["normalized_contains_all", "normalized_equals", "number_in_range",
      "set_contains", "source_class_at_least"], s.toList.all isPlain = true := by decide
  apply hoperators
  cases e <;> simp [Expectation.operator]

theorem mem_chars_assertion {x : Char} (hx : isPlain x = false) (a : GoldAssertion) :
    x ∈ a.document.chars ↔ ∃ s ∈ a.id :: a.expected.strings, x ∈ s.toList := by
  have hkeys : ∀ k ∈ assertionFields, x ∉ k.toList := by
    intro k hk
    exact notMem_of_plain hx (by revert k; decide)
  have hoperator : x ∉ a.expected.operator.toList := notMem_of_plain hx (operator_plain _)
  have hmembers : x ∈ a.document.chars ↔ ∃ m ∈ [("id", Value.str a.id),
      ("operator", .str a.expected.operator), ("expected", a.expected.document),
      ("critical", .bool a.critical)], x ∈ m.1.toList ∨ x ∈ m.2.chars :=
    Lib.JsonText.mem_charsMembers
  rw [hmembers]
  simp only [List.mem_cons, List.not_mem_nil, or_false, exists_eq_or_imp, exists_eq_left,
    hkeys "id" (by decide), hkeys "operator" (by decide), hkeys "expected" (by decide),
    hkeys "critical" (by decide), hoperator, mem_chars_expectation hx, Value.chars, false_or]

/-- Outside ASCII a line has the code points of the version and of the strings of its case. -/
theorem mem_chars_document {x : Char} (hx : isPlain x = false) {version : String} {c : ShadowCase}
    (hmoments : ∀ t ∈ c.moments, Reads b t) :
    x ∈ (c.document b version).chars ↔ ∃ s ∈ version :: c.strings, x ∈ s.toList := by
  have hkeys : ∀ k ∈ caseFields, x ∉ k.toList := by
    intro k hk
    exact notMem_of_plain hx (by revert k; decide)
  have hmoment : ∀ t : Option Time, (∀ y ∈ t.toList, Reads b y) →
      x ∉ (momentDocument b t).chars := by
    intro t ht
    cases t with
    | none => simp [momentDocument, Value.chars]
    | some t => exact notMem_of_plain hx (ht t (by simp)).2
  have hfrom := hmoment c.validFrom fun y hy => hmoments y (List.mem_append_left _ hy)
  have huntil := hmoment c.validUntil fun y hy => hmoments y (List.mem_append_right _ hy)
  have hmode : x ∉ c.expectedMode.value.toList := by
    cases c.expectedMode <;> exact notMem_of_plain hx (by decide)
  have hcategory : x ∉ c.category.value.toList := by
    cases c.category <;> exact notMem_of_plain hx (by decide)
  have hanswerability : x ∉ c.answerability.value.toList := by
    cases c.answerability <;> exact notMem_of_plain hx (by decide)
  have horacle : x ∉ c.oracleType.value.toList := by
    cases c.oracleType <;> exact notMem_of_plain hx (by decide)
  have hsources : ∀ a ∈ c.requiredSourceClasses, x ∉ a.value.toList := by
    intro a _
    cases a <;> exact notMem_of_plain hx (by decide)
  have hmembers : x ∈ (c.document b version).chars ↔ ∃ m ∈ c.members b version,
      x ∈ m.1.toList ∨ x ∈ m.2.chars := Lib.JsonText.mem_charsMembers
  have hnames : ∀ m ∈ c.members b version, x ∉ m.1.toList := by
    intro m hm
    exact hkeys m.1 (List.mem_map_of_mem (f := fun m : String × Value Decimal => m.1) hm)
  have hvalues : x ∈ (c.document b version).chars ↔
      ∃ v ∈ (c.members b version).map (·.2), x ∈ v.chars := by
    rw [hmembers]
    constructor
    · rintro ⟨m, hm, hkey | hvalue⟩
      · exact absurd hkey (hnames m hm)
      · exact ⟨m.2, List.mem_map_of_mem hm, hvalue⟩
    · rintro ⟨v, hv, hx⟩
      obtain ⟨m, hm, rfl⟩ := List.mem_map.mp hv
      exact ⟨m, hm, .inr hx⟩
  have harr : ∀ {α : Type} (f : α → Value Decimal) (l : List α),
      x ∈ (Value.arr (l.map f)).chars ↔ ∃ a ∈ l, x ∈ (f a).chars := by
    intro α f l
    simp [Value.chars, Lib.JsonText.mem_charsItems]
  rw [hvalues]
  simp only [ShadowCase.members, List.map_cons, List.map_nil, List.mem_cons, List.not_mem_nil,
    or_false, exists_eq_or_imp, exists_eq_left, harr, hfrom, huntil]
  simp only [Value.chars, hmode, hcategory, hanswerability, horacle, List.not_mem_nil, false_or,
    or_false, mem_chars_assertion hx, ShadowCase.strings]
  have hnone : ¬∃ a ∈ c.requiredSourceClasses, x ∈ a.value.toList := by
    rintro ⟨a, ha, hxa⟩
    exact hsources a ha hxa
  have happend : ∀ l l' : List String, (∃ s ∈ l ++ l', x ∈ s.toList) ↔
      (∃ s ∈ l, x ∈ s.toList) ∨ ∃ s ∈ l', x ∈ s.toList := by
    intro l l'
    simp only [List.mem_append, or_and_right, exists_or]
  have hflat : (∃ s ∈ c.goldAssertions.flatMap (fun a => a.id :: a.expected.strings), x ∈ s.toList) ↔
      ∃ a ∈ c.goldAssertions, ∃ s ∈ a.id :: a.expected.strings, x ∈ s.toList := by
    simp only [List.mem_flatMap]
    constructor
    · rintro ⟨s, ⟨a, ha, hs⟩, hxs⟩
      exact ⟨a, ha, s, hs, hxs⟩
    · rintro ⟨a, ha, s, hs, hxs⟩
      exact ⟨s, ⟨a, ha, hs⟩, hxs⟩
  have hfixed : (∃ s ∈ [c.id, c.prompt, c.locale], x ∈ s.toList) ↔
      x ∈ c.id.toList ∨ x ∈ c.prompt.toList ∨ x ∈ c.locale.toList := by simp
  simp only [hnone, happend, hflat, hfixed, false_or, or_assoc]

/-! ## A file and its manifest -/

/-- The lines of a manifest's file. -/
def fileLines (b : FileBuiltins) (version : String) (cases : List ShadowCase) : List (List Char) :=
  cases.map (·.line b version)

theorem toList_manifestText (version : String) (cases : List ShadowCase) :
    (manifestText b version cases).toList = join (fileLines b version cases) :=
  String.toList_ofList

/-- A line has a code point that ends it exactly if the version or the case has a separator. -/
theorem line_broken_iff {version : String} {c : ShadowCase} (hmoments : ∀ t ∈ c.moments, Reads b t) :
    (∃ x ∈ c.line b version, endsLine x = true) ↔
      ∃ s ∈ version :: c.strings, ∃ x ∈ s.toList, x ∈ separators := by
  constructor
  · rintro ⟨x, hx, hends⟩
    rcases Lib.JsonText.mem_dumps (codec 0) _ hx with hplain | ⟨hchars, hlarge⟩
    · rw [isPlain_not_endsLine hplain] at hends
      cases hends
    · have hnot : isPlain x = false := by
        cases hp : isPlain x with
        | false => rfl
        | true =>
            rw [isPlain_not_endsLine hp] at hends
            cases hends
      obtain ⟨s, hs, hxs⟩ := (mem_chars_document hnot hmoments).mp hchars
      exact ⟨s, hs, x, hxs, (mem_separators_iff x).mpr ⟨hends, hlarge⟩⟩
  · rintro ⟨s, hs, x, hxs, hx⟩
    obtain ⟨hends, hlarge⟩ := (mem_separators_iff x).mp hx
    have hnot : isPlain x = false := by
      simp only [isPlain, Bool.and_eq_false_iff, decide_eq_false_iff_not]
      omega
    have hchars := (mem_chars_document hnot hmoments).mpr ⟨s, hs, hxs⟩
    exact ⟨x, Lib.JsonText.mem_dumps_of_chars hlarge _ hchars, hends⟩

/-- A line has no carriage return. -/
theorem return_notMem_line {version : String} {c : ShadowCase} : '\r' ∉ c.line b version := by
  intro h
  rcases Lib.JsonText.mem_dumps (codec 0) _ h with hplain | ⟨-, hlarge⟩
  · exact absurd hplain (by decide)
  · exact absurd hlarge (by decide)

/-- The file is read line by line, if every line is a case. -/
theorem parseLines_fileLines {version : String} (hversion : Text.isBlank version = false)
    {cases : List ShadowCase} (hmoments : ∀ c ∈ cases, ∀ t ∈ c.moments, Reads b t)
    (hstrip : ∀ c ∈ cases, ∀ s ∈ c.forbiddenQueryTerms ++ c.tags, Text.strip s = s) (n : Nat) :
    parseLines b n (fileLines b version cases) = .ok (cases.map fun c => (Text.strip version, c)) := by
  induction cases generalizing n with
  | nil => rfl
  | cons c cases ih =>
      have hload := Lib.JsonText.Decoder.loads_dumps (codec n) _ (distinct_document b version c)
      have hparse := parseCase_document (b := b) hversion (hmoments c List.mem_cons_self)
        (hstrip c List.mem_cons_self) n
      have hrest := ih (fun x hx => hmoments x (List.mem_cons_of_mem _ hx))
        (fun x hx => hstrip x (List.mem_cons_of_mem _ hx)) (n + 1)
      have hblank : isBlankLine (c.line b version) = false := by
        obtain ⟨mid, hmid⟩ := line_shape (b := b) version c
        rw [hmid]
        rfl
      rw [fileLines, List.map_cons, parseLines, hblank, if_neg (by decide)]
      refine bind_ok_iff.mpr ⟨_, hload, bind_ok_iff.mpr ⟨_, hparse, bind_ok_iff.mpr ⟨_, hrest, ?_⟩⟩⟩
      rfl

theorem isEmpty_toUTF8 (s : String) (h : s ≠ "") : s.toUTF8.isEmpty = false := by
  cases hempty : s.toUTF8.isEmpty with
  | false => rfl
  | true =>
      refine absurd ?_ h
      rw [← String.toByteArray_inj]
      have hsize : s.toByteArray.size = 0 := by simpa [ByteArray.isEmpty] using hempty
      exact ByteArray.size_eq_zero_iff.mp hsize

theorem parseManifestBytes_ok {s : String} {now : Time} {window : Duration} {m : ShadowManifest}
    (h : parseManifestBytes b s.toUTF8 now window = .ok m) :
    ∃ parsed, parseLines b 1 (splitLines s.toList) = .ok parsed ∧ m.cases = parsed.map (·.2) := by
  unfold parseManifestBytes at h
  rw [fromUTF8?_toUTF8] at h
  simp only [bind_ok_iff] at h
  obtain ⟨-, -, parsed, hparsed, h⟩ := h
  refine ⟨parsed, hparsed, ?_⟩
  cases parsed with
  | nil => cases h
  | cons x parsed =>
      simp only [bind_ok_iff, pure_ok_iff] at h
      obtain ⟨-, -, -, -, rfl⟩ := h
      rfl

/-! ## What comes back -/

variable {version : String} {cases : List ShadowCase} {now : Time} {window : Duration}

theorem line_ends (l : List Char) (hl : l ∈ fileLines b version cases) :
    ∃ first mid last, l = first :: (mid ++ [last]) ∧ Text.isSpace first = false ∧
      Text.isSpace last = false := by
  obtain ⟨c, -, rfl⟩ := List.mem_map.mp hl
  obtain ⟨mid, hmid⟩ := line_shape (b := b) version c
  exact ⟨_, mid, _, hmid, by decide, by decide⟩

/-- A manifest that comes back has no separator: a broken line would be read as two. -/
theorem separators_absent {m : ShadowManifest} (hne : cases ≠ [])
    (hmoments : ∀ c ∈ cases, ∀ t ∈ c.moments, Reads b t)
    (hm : parseManifestBytes b (manifestText b version cases).toUTF8 now window = .ok m)
    (hcases : m.cases = cases) :
    ∀ s ∈ version :: cases.flatMap (·.strings), ∀ x ∈ s.toList, x ∉ separators := by
  intro s hs x hxs hx
  obtain ⟨parsed, hparsed, hmap⟩ := parseManifestBytes_ok hm
  obtain ⟨hcount, -⟩ := parseLines_ok hparsed
  have hlines : parsed.length = (fileLines b version cases).length := by
    rw [fileLines, List.length_map, ← hcases, hmap, List.length_map]
  have hbroken : ∃ l ∈ fileLines b version cases, ∃ x ∈ l, endsLine x = true := by
    have hline : ∀ c ∈ cases, s ∈ version :: c.strings → ∃ l ∈ fileLines b version cases,
        ∃ x ∈ l, endsLine x = true := by
      intro c hc hmem
      exact ⟨_, List.mem_map_of_mem hc,
        (line_broken_iff (hmoments c hc)).mpr ⟨s, hmem, x, hxs, hx⟩⟩
    rcases List.mem_cons.mp hs with rfl | hs
    · obtain ⟨c, hc⟩ := List.exists_mem_of_ne_nil cases hne
      exact hline c hc List.mem_cons_self
    · obtain ⟨c, hc, hs⟩ := List.mem_flatMap.mp hs
      exact hline c hc (List.mem_cons_of_mem _ hs)
  have hreturn : ∀ l ∈ fileLines b version cases, '\r' ∉ l := by
    intro l hl
    obtain ⟨c, -, rfl⟩ := List.mem_map.mp hl
    exact return_notMem_line
  have hmore := (Lib.Lines.length_le_markedLines_join isSpace_of_endsLine hreturn line_ends).2
    hbroken
  rw [toList_manifestText] at hcount
  have hmarked : markedLines Text.isSpace (join (fileLines b version cases)) = parsed.length :=
    hcount.symm
  omega

/-- The cases that come back have been stripped. -/
theorem terms_stripped {s : String} {m : ShadowManifest}
    (hm : parseManifestBytes b s.toUTF8 now window = .ok m) :
    ∀ c ∈ m.cases, ∀ s ∈ c.forbiddenQueryTerms ++ c.tags, Text.strip s = s := by
  obtain ⟨parsed, hparsed, hmap⟩ := parseManifestBytes_ok hm
  obtain ⟨-, hstripped⟩ := parseLines_ok hparsed
  intro c hc
  rw [hmap] at hc
  obtain ⟨x, hx, rfl⟩ := List.mem_map.mp hc
  exact hstripped x hx

theorem manifestText_ne_empty (hne : cases ≠ []) : manifestText b version cases ≠ "" := by
  intro hempty
  have hlist := toList_manifestText (b := b) version cases
  obtain ⟨first, rest, rfl⟩ := List.exists_cons_of_ne_nil hne
  obtain ⟨mid, hmid⟩ := line_shape (b := b) version first
  have hjoin : ∃ tail, join (fileLines b version (first :: rest)) =
      first.line b version ++ tail := by
    cases rest with
    | nil => exact ⟨[], (List.append_nil _).symm⟩
    | cons c rest => exact ⟨_, rfl⟩
  obtain ⟨tail, htail⟩ := hjoin
  rw [hempty, htail, hmid] at hlist
  cases hlist

/-- Without separators the lines of the file are the lines that were written. -/
theorem splitLines_manifestText (hmoments : ∀ c ∈ cases, ∀ t ∈ c.moments, Reads b t)
    (hseparators : ∀ s ∈ version :: cases.flatMap (·.strings), ∀ x ∈ s.toList, x ∉ separators) :
    splitLines (manifestText b version cases).toList = fileLines b version cases := by
  have hwhole : ∀ l ∈ fileLines b version cases, ∀ x ∈ l, endsLine x = false := by
    intro l hl x hx
    obtain ⟨c, hc, rfl⟩ := List.mem_map.mp hl
    cases hends : endsLine x with
    | false => rfl
    | true =>
        obtain ⟨s, hs, y, hys, hy⟩ := (line_broken_iff (hmoments c hc)).mp ⟨x, hx, hends⟩
        refine absurd hy (hseparators s ?_ y hys)
        rcases List.mem_cons.mp hs with rfl | hs
        · exact List.mem_cons_self
        · exact List.mem_cons_of_mem _ (List.mem_flatMap.mpr ⟨c, hc, hs⟩)
  rw [toList_manifestText]
  apply Lib.Lines.splitLines_join hwhole
  intro l hl
  obtain ⟨first, mid, last, rfl, -⟩ := line_ends l hl
  exact List.cons_ne_nil _ _

theorem round_trip (hne : cases ≠ []) (hversion : Text.isBlank version = false)
    (hvalid : validateDistribution b.casefold cases now window = .ok ())
    (hmoments : ∀ c ∈ cases, ∀ t ∈ c.moments, Reads b t)
    (hseparators : ∀ s ∈ version :: cases.flatMap (·.strings), ∀ x ∈ s.toList, x ∉ separators)
    (hstrip : ∀ c ∈ cases, ∀ s ∈ c.forbiddenQueryTerms ++ c.tags, Text.strip s = s) :
    ∃ m, parseManifestBytes b (manifestText b version cases).toUTF8 now window = .ok m ∧
      m.cases = cases := by
  have hparsed := parseLines_fileLines (b := b) hversion hmoments hstrip 1
  have hbytes := isEmpty_toUTF8 (manifestText b version cases) (manifestText_ne_empty hne)
  have hsplit := splitLines_manifestText hmoments hseparators
  obtain ⟨first, rest, rfl⟩ := List.exists_cons_of_ne_nil hne
  refine ⟨⟨Text.strip version, first :: rest,
    b.sha256 (manifestText b version (first :: rest)).toUTF8⟩, ?_, rfl⟩
  unfold parseManifestBytes
  rw [fromUTF8?_toUTF8, hbytes]
  refine bind_ok_iff.mpr ⟨(), rfl, ?_⟩
  dsimp only
  rw [hsplit]
  refine bind_ok_iff.mpr ⟨_, hparsed, ?_⟩
  rw [List.map_cons]
  refine bind_ok_iff.mpr ⟨(), check_eq_ok.mpr (by simp), ?_⟩
  have hmap : ((Text.strip version, first) :: rest.map fun c => (Text.strip version, c)).map
      (·.2) = first :: rest := by
    rw [List.map_cons, List.map_map]
    exact congrArg _ (List.map_id rest)
  rw [hmap]
  exact bind_ok_iff.mpr ⟨(), hvalid, rfl⟩

end Read

/-- A manifest has forty cases. -/
theorem cases_ne_nil {casefold : String → String} {cases : List ShadowCase} {now : Time}
    {window : Duration} (h : validateDistribution casefold cases now window = .ok ()) :
    cases ≠ [] := by
  rintro rfl
  simp only [validateDistribution, bind_ok_iff] at h
  obtain ⟨_, hforty, _⟩ := h
  exact absurd (check_eq_ok.mp hforty) (by decide)

/--
**Which manifests come back from their files.** A manifest whose cases are written as JSON
lines is parsed again, case by case, exactly if no string in it has a U+0085, a U+2028 or a
U+2029, and if its tags and forbidden terms have no blanks around them.
-/
theorem manifest_round_trip_iff (b : FileBuiltins) (version : String) (cases : List ShadowCase)
    (now : Time) (window : Duration) (hversion : Text.isBlank version = false)
    (hvalid : validateDistribution b.casefold cases now window = .ok ())
    (hmoments : ∀ c ∈ cases, ∀ t ∈ c.moments, Reads b t) :
    (∃ m, parseManifestBytes b (manifestText b version cases).toUTF8 now window = .ok m ∧
        m.cases = cases) ↔
      (∀ s ∈ version :: cases.flatMap (·.strings), ∀ x ∈ s.toList, x ∉ separators) ∧
        ∀ c ∈ cases, ∀ s ∈ c.forbiddenQueryTerms ++ c.tags, Text.strip s = s := by
  have hne := cases_ne_nil hvalid
  constructor
  · rintro ⟨m, hm, hcases⟩
    refine ⟨separators_absent hne hmoments hm hcases, ?_⟩
    rw [← hcases]
    exact terms_stripped hm
  · rintro ⟨hseparators, hstrip⟩
    exact round_trip hne hversion hvalid hmoments hseparators hstrip

namespace Sample

/-- The moments of the cases below, as they are printed. -/
def fileBuiltins : FileBuiltins where
  casefold := Text.lowerAscii
  repr _ := ""
  decimalOf _ := none
  isoformat t := if t = 0 then "1970-01-01T00:00:00+00:00" else "1970-01-02T00:00:00+00:00"
  fromisoformat s := if s = "1970-01-01T00:00:00+00:00" then some (0, true)
    else if s = "1970-01-02T00:00:00+00:00" then some (seconds 86400, true) else none
  sha256 _ := ""

/-- Ten cases for every stratum, all with the same prompt. -/
def cases (prompt : String) : List ShadowCase :=
  (strata.flatMap fun s => (List.range 10).map fun i =>
    { Schedule.Sample.fields s i with prompt }).filterMap fun f => (ShadowCase.make f).toOption

/-- A prompt in two scripts, with what JSON escapes. -/
def mixedPrompt : String := "ß 北京 😀?\t\"\\\u0001\n\u007f"

theorem cases_valid : ∀ prompt ∈ [mixedPrompt, "?\u2028?"],
    validateDistribution fileBuiltins.casefold (cases prompt) 0 (seconds 21600) = .ok () := by
  decide +kernel

theorem cases_moments : ∀ prompt ∈ [mixedPrompt, "?\u2028?"],
    ∀ c ∈ cases prompt, ∀ t ∈ c.moments, t = 0 ∨ t = seconds 86400 := by
  decide +kernel

theorem cases_reads (prompt : String) (h : prompt ∈ [mixedPrompt, "?\u2028?"]) :
    ∀ c ∈ cases prompt, ∀ t ∈ c.moments, Reads fileBuiltins t := by
  intro c hc t ht
  rcases cases_moments prompt h c hc t ht with rfl | rfl
  · exact ⟨by decide +kernel, by decide +kernel⟩
  · exact ⟨by decide +kernel, by decide +kernel⟩

example : (cases mixedPrompt).length = 40 := by decide +kernel

end Sample

theorem manifest_round_trip_iff_mixed :
    ∃ m, parseManifestBytes Sample.fileBuiltins
      (manifestText Sample.fileBuiltins "v" (Sample.cases Sample.mixedPrompt)).toUTF8 0
        (seconds 21600) = .ok m ∧
        m.cases = Sample.cases Sample.mixedPrompt := by
  have hvalid := Sample.cases_valid Sample.mixedPrompt List.mem_cons_self
  have hreads := Sample.cases_reads Sample.mixedPrompt List.mem_cons_self
  have hall : ("v" :: (Sample.cases Sample.mixedPrompt).flatMap (·.strings)).all
      (fun s => s.toList.all fun x => decide (x ∉ separators)) = true := by decide +kernel
  have hseparators : ∀ s ∈ "v" :: (Sample.cases Sample.mixedPrompt).flatMap (·.strings),
      ∀ x ∈ s.toList, x ∉ separators := by
    intro s hs x hx
    exact of_decide_eq_true (List.all_eq_true.mp (List.all_eq_true.mp hall s hs) x hx)
  have hstrip : ∀ c ∈ Sample.cases Sample.mixedPrompt, ∀ s ∈ c.forbiddenQueryTerms ++ c.tags,
      Text.strip s = s := by decide +kernel
  exact (manifest_round_trip_iff Sample.fileBuiltins "v" (Sample.cases Sample.mixedPrompt) 0
    (seconds 21600) (by decide) hvalid hreads).mpr ⟨hseparators, hstrip⟩

/-- **A line separator loses the manifest.** Every case asks the same two lines. -/
theorem separator_breaks_manifest :
    validateDistribution Sample.fileBuiltins.casefold (Sample.cases "?\u2028?") 0
      (seconds 21600) = .ok () ∧
    ¬∃ m, parseManifestBytes Sample.fileBuiltins
      (manifestText Sample.fileBuiltins "v" (Sample.cases "?\u2028?")).toUTF8 0 (seconds 21600) =
        .ok m ∧ m.cases = Sample.cases "?\u2028?" := by
  have hvalid := Sample.cases_valid "?\u2028?" (by decide)
  have hreads := Sample.cases_reads "?\u2028?" (by decide)
  refine ⟨hvalid, ?_⟩
  rintro ⟨m, hm, hcases⟩
  have hmem : "?\u2028?" ∈ "v" :: (Sample.cases "?\u2028?").flatMap (·.strings) := by
    decide +kernel
  have habsent := separators_absent (cases_ne_nil hvalid) hreads hm hcases
  exact habsent _ hmem '\u2028' (by decide) (by decide)

end Sana.Shadow.Manifest
