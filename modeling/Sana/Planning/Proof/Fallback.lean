import Sana.Planning.HeuristicPlanner

/-!
# The fallback planner is not total

A search term must be short and must not sound like talk. The entity that the fallback cuts out of
a message need not be either, and a number behind it makes it longer still. The constructors then
refuse it, and a count word that only `re.I` takes for one is looked up in vain. What is left is
exactly when the fallback has a plan.
-/

namespace Sana.Planning

open Sana.Lib

-- a statement about the characters of a list is decided along the list, not along all characters
attribute [local instance (10000)] List.decidableBAll List.decidableBEx

/-! ## Search terms -/

section Term

variable {value : String} {maxLength : Nat}

/-- What makes a text a search term. -/
theorem isSearchTerm_iff : isSearchTerm value maxLength = true ↔
    Text.strip value ≠ "" ∧ (Text.strip value).length ≤ maxLength ∧
      (∀ c ∈ (Text.strip value).toList, c ∉ ['!', '?', '！', '？', '。', '\r', '\n']) ∧
      ∀ t ∈ conversationalTerms, ¬t.toList <:+: (Text.strip value).toList.map ignoreCase := by
  have hcontains : ∀ t, Text.contains (String.ofList ((Text.strip value).toList.map ignoreCase)) t
      = true ↔ t.toList <:+: (Text.strip value).toList.map ignoreCase := by
    intro t
    rw [Text.contains, Text.index, Text.indexChars_isSome_iff, String.toList_ofList]
  rw [isSearchTerm]
  simp only [Bool.and_eq_true, Bool.not_eq_true', decide_eq_true_eq, List.any_eq_false,
    hcontains, String.isEmpty_eq_false_iff, and_assoc, ne_eq]

/-- A term may be longer elsewhere. -/
theorem isSearchTerm_mono {n : Nat} (h : isSearchTerm value maxLength = true) (hn : maxLength ≤ n) :
    isSearchTerm value n = true := by
  rw [isSearchTerm_iff] at h ⊢
  exact ⟨h.1, h.2.1.trans hn, h.2.2⟩

theorem not_blank_of_isSearchTerm (h : isSearchTerm value maxLength = true) :
    Text.isBlank value = false := by
  rw [← Bool.not_eq_true, ← Text.strip_eq_empty_iff]
  exact (isSearchTerm_iff.mp h).1

/-- A text that starts with a word is what is left of it and blanks. -/
theorem strip_append_blanks (hstarts : Text.Starts value) : ∃ blanks,
    value.toList = (Text.strip value).toList ++ blanks ∧
      ∀ c ∈ blanks, Text.isSpace c = true := by
  obtain ⟨c, cs, hvalue, hc⟩ := hstarts
  have hfront : value.toList.dropWhile Text.isSpace = value.toList := by
    rw [hvalue, List.dropWhile_cons_of_neg (by simp [hc])]
  refine ⟨value.toList.rtakeWhile Text.isSpace, ?_, fun d hd => ?_⟩
  · rw [Text.strip, String.toList_ofList, Text.stripChars_eq, hfront,
      List.rdropWhile_append_rtakeWhile]
  · rw [List.rtakeWhile, List.mem_reverse] at hd
    exact List.mem_takeWhile_imp hd

/-- A text with a word at both ends is stripped already. -/
theorem strip_of_ends (hstarts : Text.Starts value) {c : Char} (hlast : value.toList.getLast? = some c)
    (hc : Text.isSpace c = false) : Text.strip value = value := by
  obtain ⟨blanks, hvalue, hblanks⟩ := strip_append_blanks hstarts
  cases hnil : blanks with
  | nil =>
      rw [hnil, List.append_nil] at hvalue
      exact (String.toList_inj.mp hvalue).symm
  | cons d ds =>
      have hmem : c ∈ blanks := by
        rw [hvalue, List.getLast?_append_of_ne_nil _ (hnil ▸ List.cons_ne_nil _ _)] at hlast
        exact List.mem_of_getLast? hlast
      rw [hblanks c hmem] at hc
      cases hc

end Term

/-! ## Numbers behind the entity -/

section Suffix

/-- A tail that no conversational term ends in or is part of. -/
structure Neutral (tail : List Char) : Prop where
  alien : ∀ t ∈ conversationalTerms, ∃ c ∈ t.toList, c ∉ tail
  start : ∃ d rest, tail = ' ' :: d :: rest ∧ (d = ' ' ∨ d = 'i' ∨ d = '第')

/-- A neutral tail makes nothing sound like talk. -/
theorem Neutral.infix_iff {tail : List Char} (h : Neutral tail) {t : String}
    (ht : t ∈ conversationalTerms) (l : List Char) :
    t.toList <:+: l ++ tail ↔ t.toList <:+: l := by
  refine ⟨fun hin => ?_, fun hin => hin.trans (List.prefix_append _ _).isInfix⟩
  rcases Text.infix_append_iff.mp hin with hl | htail | ⟨front, back, hsplit, hne, -, hback⟩
  · exact hl
  · obtain ⟨c, hc, hnot⟩ := h.alien t ht
    exact absurd (htail.subset hc) hnot
  · -- the term would end in a blank, or go on behind one in a way no term does
    obtain ⟨d, rest, htail, hd⟩ := h.start
    have hends : ∀ t ∈ conversationalTerms, t.toList.getLast? ≠ some ' ' := by decide
    have hgoes : ∀ t ∈ conversationalTerms, ∀ d ∈ [' ', 'i', '第'], ¬[' ', d] <:+: t.toList := by
      decide
    rw [htail] at hback
    match back, hne, hback with
    | [b], _, hback =>
        have hb : b = ' ' := (List.cons_prefix_cons.mp hback).1
        refine absurd ?_ (hends t ht)
        rw [hsplit, hb, List.getLast?_append_of_ne_nil _ (List.cons_ne_nil _ _)]
        rfl
    | b :: b' :: more, _, hwhole =>
        obtain ⟨-, hback⟩ := List.cons_prefix_cons.mp hwhole
        obtain ⟨rfl, -⟩ := List.cons_prefix_cons.mp hback
        refine absurd ?_ (hgoes t ht b' (by simpa using hd))
        have hb : b = ' ' := (List.cons_prefix_cons.mp hwhole).1
        exact ⟨front, more, by rw [hsplit, hb]; simp⟩

variable {py : PlannerText} {message : String}

/-- How many code points a number takes. -/
def suffixLength (py : PlannerText) (message : String) : Nat :=
  if py.search hanPattern message then 4 else 7

/-- What is behind the entity for a number of one digit. -/
structure Suffix (suffix : List Char) (length : Nat) : Prop where
  length : suffix.length = length
  last : ∃ c, suffix.getLast? = some c ∧ Text.isSpace c = false
  plain : ∀ c ∈ suffix, c ∉ ['!', '?', '！', '？', '。', '\r', '\n']
  alien : ∀ t ∈ conversationalTerms, ∃ c ∈ t.toList, c ≠ ' ' ∧ c ∉ suffix.map ignoreCase
  start : ∃ d rest, suffix.map ignoreCase = ' ' :: d :: rest ∧ (d = 'i' ∨ d = '第')

theorem suffix_of_digit {d : Char} (hd : d ∈ ['0', '1', '2', '3', '4', '5', '6', '7', '8', '9']) :
    Suffix [' ', '第', d, '项'] 4 ∧ Suffix [' ', 'i', 't', 'e', 'm', ' ', d] 7 := by
  have halien : ∀ d ∈ ['0', '1', '2', '3', '4', '5', '6', '7', '8', '9'],
      ∀ suffix ∈ [[' ', '第', d, '项'], [' ', 'i', 't', 'e', 'm', ' ', d]],
        (∀ t ∈ conversationalTerms, ∃ c ∈ t.toList, c ≠ ' ' ∧ c ∉ suffix.map ignoreCase) ∧
          ∀ c ∈ suffix, c ∉ ['!', '?', '！', '？', '。', '\r', '\n'] := by
    decide
  have hspace : ∀ d ∈ ['0', '1', '2', '3', '4', '5', '6', '7', '8', '9'],
      Text.isSpace d = false := by decide
  obtain ⟨hzh, hzh'⟩ := halien d hd _ List.mem_cons_self
  obtain ⟨hen, hen'⟩ := halien d hd _ (List.mem_cons_of_mem _ List.mem_cons_self)
  exact ⟨⟨rfl, ⟨'项', rfl, by decide⟩, hzh', hzh, '第', _, rfl, .inr rfl⟩,
    ⟨rfl, ⟨d, rfl, hspace d hd⟩, hen', hen, 'i', _, rfl, .inl rfl⟩⟩

/-- Numbers of one digit. -/
theorem itemSuffix_spec {index : Nat} (h : index < 10) :
    Suffix (itemSuffix py message index).toList (suffixLength py message) := by
  have hdigit : ∀ index ∈ List.range 10, ∃ d ∈ ['0', '1', '2', '3', '4', '5', '6', '7', '8', '9'],
      (toString index).toList = [d] := by decide
  obtain ⟨d, hd, hindex⟩ := hdigit index (List.mem_range.mpr h)
  obtain ⟨hzh, hen⟩ := suffix_of_digit hd
  rw [itemSuffix, suffixLength]
  split
  · rwa [String.toList_append, String.toList_append, hindex]
  · rwa [String.toList_append, hindex]

/-- Blanks in front of it do not matter. -/
theorem Suffix.neutral {suffix : List Char} {length : Nat} (h : Suffix suffix length)
    {blanks : List Char} (hblanks : ∀ c ∈ blanks, c = ' ') :
    Neutral ((blanks ++ suffix).map ignoreCase) := by
  have hsame : blanks.map ignoreCase = blanks := by
    refine (List.map_congr_left fun c hc => ?_).trans (List.map_id _)
    rw [hblanks c hc]
    rfl
  rw [List.map_append, hsame]
  obtain ⟨d, rest, hstart, hd⟩ := h.start
  refine ⟨fun t ht => ?_, ?_⟩
  · obtain ⟨c, hc, hne, hnot⟩ := h.alien t ht
    refine ⟨c, hc, fun hmem => ?_⟩
    rcases List.mem_append.mp hmem with hmem | hmem
    · exact hne (hblanks c hmem)
    · exact hnot hmem
  · rw [hstart]
    match blanks, hblanks with
    | [], _ => exact ⟨d, rest, rfl, .inr hd⟩
    | [b], hb => exact ⟨' ', d :: rest, by rw [hb b List.mem_cons_self]; rfl, .inl rfl⟩
    | b :: b' :: more, hb =>
        refine ⟨' ', more ++ ' ' :: d :: rest, ?_, .inl rfl⟩
        rw [hb b List.mem_cons_self, hb b' (List.mem_cons_of_mem _ List.mem_cons_self)]
        rfl

/-- **A number behind a search term leaves a search term exactly if there is room for it.** -/
theorem isSearchTerm_append_iff {entity suffix : String} {n length : Nat}
    (hterm : isSearchTerm entity n = true) (hstarts : Text.Starts entity)
    (hblank : ∀ c ∈ entity.toList, Text.isSpace c = true → c = ' ')
    (hsuffix : Suffix suffix.toList length) (maxLength : Nat) :
    isSearchTerm (entity ++ suffix) maxLength = true ↔ entity.length + length ≤ maxLength := by
  obtain ⟨c, hlast, hc⟩ := hsuffix.last
  obtain ⟨blanks, hentity, hblanks⟩ := strip_append_blanks hstarts
  have hspaces : ∀ c ∈ blanks, c = ' ' := fun c hc =>
    hblank c (hentity ▸ List.mem_append_right _ hc) (hblanks c hc)
  have hne : suffix.toList ≠ [] := by
    intro hnil
    rw [hnil] at hlast
    cases hlast
  have hstrip : Text.strip (entity ++ suffix) = entity ++ suffix := by
    refine strip_of_ends (hstarts.append suffix) ?_ hc
    rw [String.toList_append, List.getLast?_append_of_ne_nil _ hne]
    exact hlast
  have hlength : (entity ++ suffix).length = entity.length + length := by
    rw [String.length_append, ← hsuffix.length, String.length_toList]
  rw [isSearchTerm_iff, hstrip, hlength]
  obtain ⟨-, -, hplain, htalk⟩ := isSearchTerm_iff.mp hterm
  refine ⟨fun h => h.2.1, fun hroom => ⟨?_, hroom, fun d hd => ?_, fun t ht => ?_⟩⟩
  · intro hnil
    obtain ⟨d, ds, hd, -⟩ := hstarts.append suffix
    rw [hnil] at hd
    cases hd
  · rw [String.toList_append, hentity] at hd
    rcases List.mem_append.mp hd with hd | hd
    · rcases List.mem_append.mp hd with hd | hd
      · exact hplain d hd
      · rw [hspaces d hd]
        decide
    · exact hsuffix.plain d hd
  · rw [String.toList_append, hentity, List.append_assoc, List.map_append,
      (hsuffix.neutral hspaces).infix_iff ht]
    exact htalk t ht

end Suffix

/-! ## The entity -/

section Entity

variable (py : PlannerText) (message : String)

/-- The entity is nothing or starts with a word, and its blanks are plain ones. -/
theorem entityOf_spec : (entityOf py message ≠ "" → Text.Starts (entityOf py message)) ∧
    ∀ c ∈ (entityOf py message).toList, Text.isSpace c = true → c = ' ' := by
  have hslice : ∀ text : String, ∀ n, 1 ≤ n → (Text.slice (Text.squeeze text) 0 n ≠ "" →
      Text.Starts (Text.slice (Text.squeeze text) 0 n)) ∧
        ∀ c ∈ (Text.slice (Text.squeeze text) 0 n).toList, Text.isSpace c = true → c = ' ' := by
    intro text n hn
    refine ⟨fun hne => ?_, fun c hc hblank => ?_⟩
    · refine (Text.starts_squeeze fun hnil => hne ?_).slice hn
      rw [hnil, Text.slice]
      simp
    · rw [Text.slice, String.toList_ofList, List.drop_zero] at hc
      exact Text.blank_squeeze (List.take_subset _ _ hc) hblank
  rw [entityOf]
  split
  · exact ⟨Text.starts_squeeze, fun c hc => Text.blank_squeeze hc⟩
  · split
    · rename_i candidate hfound
      obtain ⟨latin, -, rfl⟩ := List.mem_map.mp (List.mem_of_find?_eq_some hfound)
      exact hslice latin 64 (by decide)
    · split
      · refine ⟨fun _ => ⟨'公', _, rfl, by decide⟩, ?_⟩
        decide
      · exact hslice _ 48 (by decide)

end Entity

/-! ## Facts -/

section Facts

variable {py : PlannerText} {message : String}

/-- What the constructor of a fact accepts. -/
theorem FactRequirement.exists_make_iff {key description subject : String} {factType : FactType}
    {freshness : Freshness} {consequence : Consequence} {kinds : List String}
    (hkey : Text.isBlank key = false) (hdescription : Text.isBlank description = false) :
    (∃ fact, FactRequirement.make key factType description subject freshness consequence kinds
      = .ok fact) ↔ isSearchTerm subject 48 = true := by
  rw [FactRequirement.make]
  constructor
  · rintro ⟨fact, hfact⟩
    split at hfact
    · split at hfact
      · assumption
      · cases hfact
    · cases hfact
  · intro hterm
    rw [dif_pos ⟨hkey, hdescription, not_blank_of_isSearchTerm hterm⟩, dif_pos hterm]
    exact ⟨_, rfl⟩

theorem FactRequirement.make_key {key description subject : String} {factType : FactType}
    {freshness : Freshness} {consequence : Consequence} {kinds : List String}
    {fact : FactRequirement}
    (h : FactRequirement.make key factType description subject freshness consequence kinds
      = .ok fact) : fact.key = key := by
  rw [FactRequirement.make] at h
  split at h
  · split at h
    · cases h
      rfl
    · cases h
  · cases h

theorem NormalizedIntent.make_facts {entity locale : String} {facts : List FactRequirement}
    {intent : NormalizedIntent} (h : NormalizedIntent.make entity locale facts = .ok intent) :
    intent.facts = facts := by
  rw [NormalizedIntent.make] at h
  repeat' split at h
  all_goals cases h
  rfl

/-- A text is not blank if a part of it is not. -/
theorem not_blank_append {a b : String} (h : Text.isBlank b = false) :
    Text.isBlank (a ++ b) = false := by
  rw [Text.isBlank] at h ⊢
  rw [String.toList_append, List.all_append, h, Bool.and_false]

/-- A typed fact is accepted exactly if the entity is a search term. -/
theorem typedFact_iff (factType : FactType) :
    (∃ fact, typedFact py message factType = .ok fact)
      ↔ isSearchTerm (entityOf py message) 48 = true := by
  refine FactRequirement.exists_make_iff ?_ (not_blank_append ?_)
  · cases factType <;> decide
  · cases factType <;> decide

/-- A requested fact is accepted exactly if there is room for its number. -/
theorem requestedFact_iff (hterm : isSearchTerm (entityOf py message) 48 = true) {index : Nat}
    (hindex : index < 10) :
    (∃ fact, requestedFact py message index = .ok fact)
      ↔ (entityOf py message).length + suffixLength py message ≤ 48 := by
  obtain ⟨hstarts, hblank⟩ := entityOf_spec py message
  have hne : entityOf py message ≠ "" := by
    intro hnil
    rw [hnil] at hterm
    revert hterm
    decide
  have hdigits : ∀ index ∈ List.range 10, Text.isBlank (toString index) = false := by
    decide
  have hdigit := hdigits index (List.mem_range.mpr hindex)
  rw [← isSearchTerm_append_iff hterm (hstarts hne) hblank (itemSuffix_spec hindex)]
  exact FactRequirement.exists_make_iff (not_blank_append hdigit) (not_blank_append hdigit)

/-- A plan keeps eight facts at most. -/
theorem minimumFactCount_le {n : Nat} (h : minimumFactCount py message = .ok n) : n ≤ 8 := by
  rw [minimumFactCount] at h
  dsimp only at h
  split at h
  · cases h
    decide
  · simp only [bind_ok_iff, pure_ok_iff] at h
    obtain ⟨_, _, _, _, _, _, _, _, rfl⟩ := h
    exact Nat.min_le_left _ _

variable (py message) in
theorem factTypesOf_ne_nil : factTypesOf py message ≠ [] := by
  rw [factTypesOf]
  split
  · exact List.cons_ne_nil _ _
  · assumption

theorem nodup_factTypesOf : (factTypesOf py message).Nodup := by
  rw [factTypesOf]
  split
  · exact List.nodup_singleton _
  · have hall : (factPatterns.map (·.1)).Nodup := by decide
    exact hall.sublist (List.filter_sublist.map _)

end Facts

/-! ## Plans -/

section Plans

variable (py : PlannerText) (message policyVersion : String)

/-- The entity is a term that a fact may be about. If more facts are asked for than there are types
of them, there is room for a number behind it. -/
def Plannable : Prop :=
  isSearchTerm (entityOf py message) 48 = true ∧ ∃ n, minimumFactCount py message = .ok n ∧
    ((factTypesOf py message).length < n →
      (entityOf py message).length + suffixLength py message ≤ 48)

/-- What the fallback has a plan for that keeps all facts. -/
def Coverable : Prop :=
  match py.reviewed message with
  | some intent => ∃ n, minimumFactCount py message = .ok n ∧ n ≤ intent.facts.length
  | none => Plannable py message

variable {py message policyVersion}

/-- The facts of a plan without a reviewed template. -/
theorem plan_facts {result : IntentPlanningResult} (hreviewed : py.reviewed message = none)
    (h : HeuristicIntentPlanner.plan py message policyVersion = .ok result) :
    Plannable py message ∧
      ∀ n, minimumFactCount py message = .ok n → n ≤ result.intent.facts.length := by
  rw [HeuristicIntentPlanner.plan, hreviewed] at h
  simp only [bind_ok_iff, pure_ok_iff] at h
  obtain ⟨facts, hfacts, n, hn, requested, hrequested, intent, hintent, rfl⟩ := h
  have htypes : facts.length = (factTypesOf py message).length := by
    rw [← (rank_perm FactType.value (factTypesOf py message)).length_eq]
    simpa using congrArg List.length (map_of_mapM_ok (g := fun _ => ()) (k := fun _ => ()) hfacts
      fun _ _ _ => rfl)
  have hcount : requested.length = n - facts.length := by
    simpa using congrArg List.length (map_of_mapM_ok (g := fun _ => ()) (k := fun _ => ()) hrequested
      fun _ _ _ => rfl)
  have hall := NormalizedIntent.make_facts hintent
  -- there is a first type, and its fact was accepted
  have hterm : isSearchTerm (entityOf py message) 48 = true := by
    obtain ⟨factType, hmem⟩ := List.exists_mem_of_ne_nil _ (factTypesOf_ne_nil py message)
    obtain ⟨fact, -, hfact⟩ := mapM_ok_of_mem hfacts (mem_rank.mpr hmem)
    exact (typedFact_iff factType).mp ⟨fact, hfact⟩
  refine ⟨⟨hterm, n, hn, fun hmore => ?_⟩, fun m hm => ?_⟩
  · have hfirst : 0 ∈ List.range (n - facts.length) := List.mem_range.mpr (by omega)
    obtain ⟨fact, -, hfact⟩ := mapM_ok_of_mem hrequested hfirst
    have := minimumFactCount_le hn
    exact (requestedFact_iff hterm (by omega)).mp ⟨fact, hfact⟩
  · obtain rfl := Except.ok.inj (hn.symm.trans hm)
    rw [hall, List.length_append, hcount]
    omega

/-- Numbers tell the requested facts apart, from each other and from typed ones. -/
theorem nodup_keys {n : Nat} (hn : n ≤ 8) :
    ((rank FactType.value (factTypesOf py message)).map FactType.value ++
      (List.range (n - (factTypesOf py message).length)).map fun i =>
        "requested_fact_" ++ toString ((factTypesOf py message).length + i + 1)).Nodup := by
  have hvalue : ∀ a b : FactType, a.value = b.value → a = b := by
    intro a b
    cases a <;> cases b <;> decide
  have hnumber : ∀ i ∈ List.range 10, ∀ j ∈ List.range 10,
      "requested_fact_" ++ toString i = "requested_fact_" ++ toString j → i = j := by
    decide
  have hother : ∀ i ∈ List.range 10, ∀ a : FactType, a.value ≠ "requested_fact_" ++ toString i := by
    intro i hi a
    have hall : ∀ i ∈ List.range 10, ∀ a ∈ [FactType.characterChanges, .version, .patchNotes,
        .teamMeta, .currentValue, .comparison, .background],
        a.value ≠ "requested_fact_" ++ toString i := by
      decide
    exact hall i hi a (by cases a <;> decide)
  refine List.nodup_append.mpr ⟨?_, ?_, ?_⟩
  · refine List.Nodup.map_on (fun a _ b _ => hvalue a b) ?_
    exact (rank_perm _ _).nodup_iff.mpr nodup_factTypesOf
  · refine List.Nodup.map_on (fun i hi j hj hij => ?_) List.nodup_range
    rw [List.mem_range] at hi hj
    have := hnumber _ (List.mem_range.mpr (by omega)) _ (List.mem_range.mpr (by omega)) hij
    omega
  · intro a ha b hb hab
    obtain ⟨factType, -, rfl⟩ := List.mem_map.mp ha
    obtain ⟨i, hi, rfl⟩ := List.mem_map.mp hb
    rw [List.mem_range] at hi
    exact hother _ (List.mem_range.mpr (by omega)) factType hab

/-- Where it can plan, it does. -/
theorem plan_total (hreviewed : py.reviewed message = none) (h : Plannable py message) :
    ∃ result, HeuristicIntentPlanner.plan py message policyVersion = .ok result := by
  obtain ⟨hterm, n, hn, hroom⟩ := h
  have hle := minimumFactCount_le hn
  obtain ⟨facts, hfacts⟩ := mapM_total (l := rank FactType.value (factTypesOf py message))
    fun factType _ => (typedFact_iff factType).mpr hterm
  have hkeys := map_of_mapM_ok (g := (·.key)) (k := FactType.value) hfacts
    fun _ _ hfact => FactRequirement.make_key hfact
  have htypes : facts.length = (factTypesOf py message).length := by
    simpa [(rank_perm FactType.value (factTypesOf py message)).length_eq] using
      congrArg List.length hkeys
  obtain ⟨requested, hrequested⟩ : ∃ requested, (List.range (n - facts.length)).mapM
      (fun i => requestedFact py message (facts.length + i + 1)) = .ok requested := by
    refine mapM_total fun i hi => ?_
    rw [List.mem_range] at hi
    exact (requestedFact_iff hterm (by omega)).mpr (hroom (by omega))
  have hkeys' := map_of_mapM_ok (g := (·.key))
    (k := fun i => "requested_fact_" ++ toString (facts.length + i + 1)) hrequested
    fun _ _ hfact => FactRequirement.make_key hfact
  have hnodup : ((facts ++ requested).map (·.key)).Nodup := by
    rw [List.map_append, hkeys, hkeys', htypes]
    exact nodup_keys hle
  have hne : facts ++ requested ≠ [] := by
    have := List.length_pos_of_ne_nil (factTypesOf_ne_nil py message)
    exact List.ne_nil_of_length_pos (by rw [List.length_append]; omega)
  have hlocale : Text.isBlank (if py.search hanPattern message then "zh-CN" else "en") = false := by
    split <;> decide
  have hintent : ∃ intent, NormalizedIntent.make (entityOf py message)
      (if py.search hanPattern message then "zh-CN" else "en") (facts ++ requested)
        = .ok intent := by
    rw [NormalizedIntent.make, dif_pos (not_blank_of_isSearchTerm hterm), dif_pos hlocale,
      dif_pos hne, dif_pos (isSearchTerm_mono hterm (by decide)), dif_pos hnodup]
    exact ⟨_, rfl⟩
  obtain ⟨intent, hintent⟩ := hintent
  rw [HeuristicIntentPlanner.plan, hreviewed]
  simp only [bind_ok_iff, pure_ok_iff]
  exact ⟨_, facts, hfacts, n, hn, requested, hrequested, intent, hintent, rfl⟩

/-- **The fallback has a plan that keeps all facts exactly if it is coverable.** A failure of the
model's planner is absorbed exactly if the request is reviewed or the fallback can plan. -/
theorem fallback_total_iff (py : PlannerText) (message policyVersion : String) (usedCalls : Nat)
    (error : TypedError) :
    ((∃ result n, HeuristicIntentPlanner.plan py message policyVersion = .ok result ∧
        minimumFactCount py message = .ok n ∧ n ≤ result.intent.facts.length)
      ↔ Coverable py message) ∧
    ((∃ result, ModelIntentPlanner.plan py message policyVersion usedCalls (.error (.typed error))
        = .ok result)
      ↔ (py.reviewed message).isSome = true ∨ Plannable py message) := by
  cases hreviewed : py.reviewed message with
  | some intent =>
      rw [Coverable, HeuristicIntentPlanner.plan, ModelIntentPlanner.plan, hreviewed]
      refine ⟨⟨?_, ?_⟩, ?_⟩
      · rintro ⟨result, n, hresult, hn, hle⟩
        cases hresult
        exact ⟨n, hn, hle⟩
      · rintro ⟨n, hn, hle⟩
        exact ⟨_, n, rfl, hn, hle⟩
      · exact ⟨fun _ => .inl rfl, fun _ => ⟨_, rfl⟩⟩
  | none =>
      rw [Coverable, ModelIntentPlanner.plan, hreviewed]
      refine ⟨⟨?_, fun h => ?_⟩, ⟨?_, ?_⟩⟩
      · rintro ⟨result, n, hresult, -, -⟩
        exact (plan_facts hreviewed hresult).1
      · obtain ⟨result, hresult⟩ := plan_total hreviewed h
        obtain ⟨n, hn, -⟩ := (show Plannable py message from h).2
        exact ⟨result, n, hresult, hn, (plan_facts hreviewed hresult).2 n hn⟩
      · rintro ⟨result, hresult⟩
        simp only [bind_ok_iff, pure_ok_iff] at hresult
        obtain ⟨fallback, hfallback, -⟩ := hresult
        exact .inr (plan_facts hreviewed hfallback).1
      · rintro (hsome | h)
        · cases hsome
        · obtain ⟨result, hresult⟩ := plan_total hreviewed h
          simp only [bind_ok_iff, pure_ok_iff]
          exact ⟨_, result, hresult, rfl⟩

end Plans

namespace FallbackSample

def compared : String := "compare PostgreSQL and MySQL"

/-- Where the patterns match in this message. In one without any of their words they do not. -/
def spans (pattern : Pattern) (text : String) : List (Nat × Nat) :=
  if text = compared then
    if (FactType.comparison, pattern) ∈ factPatterns then [(0, 7)]
    else if pattern = latinEntity then [(8, 18), (23, 28)]
    else []
  else []

/-- The functions of `re` for these messages, and those of `str` for ASCII. -/
def py : PlannerText where
  search pattern text := !(spans pattern text).isEmpty
  found pattern text := (spans pattern text).head?.map fun s => Text.slice text s.1 s.2
  groups pattern text := (spans pattern text).map fun s => Text.slice text s.1 s.2
  finditer pattern text := (spans pattern text).map fun s => Text.slice text s.1 s.2
  behind pattern text := (spans pattern text).head?.map fun s => Text.slice text s.2 text.length
  front pattern text := Text.slice text 0 (((spans pattern text).head?.map (·.1)).getD text.length)
  blanked pattern text := (spans pattern text).foldr
    (fun s rest => Text.slice rest 0 s.1 ++ " " ++ Text.slice rest s.2 rest.length) text
  casefold := Text.lowerAscii
  decimal text := text.toNat?
  reviewed _ := none

-- the comparison is planned as one fact about the first name
example : (HeuristicIntentPlanner.plan py compared "search-v12").toOption.map
    (fun result => result.intent.facts.map fun fact => (fact.key, fact.subject)) =
      some [("comparison", "PostgreSQL")] := by
  decide +kernel

end FallbackSample

open FallbackSample in
/-- A polite message that asks for one fact has no plan. -/
theorem polite_message :
    (¬∃ result, HeuristicIntentPlanner.plan py "could you help me" "search-v12" = .ok result) ∧
      minimumFactCount py "could you help me" = .ok 1 := by
  have hterm : isSearchTerm (entityOf py "could you help me") 48 = false := by decide
  refine ⟨?_, rfl⟩
  rintro ⟨result, hresult⟩
  have hplannable := (plan_facts rfl hresult).1.1
  rw [hterm] at hplannable
  cases hplannable

end Sana.Planning
