import Sana.Migration.UserProfile

/-!
# What a profile gives away

The reader looks at the names of the preferences, and writes the value of a preference out whole. So
what stands under a secret name stays out of the records exactly where no imported value has such a
name inside: then profiles that differ only there give the same imports, and otherwise something
longer can be put there, and the text of some import gets longer.
-/

namespace Sana.Migration

open Sana.Lib Lib.PyJson ProfileBuiltins

variable {δ : Type} {b : ProfileBuiltins δ} {data data' : List (PyStr × PyJson δ)}
  {rs rs' : List ProfileRecord}

/-- The records marked for import. -/
def imports (rs : List ProfileRecord) : List ProfileRecord :=
  rs.filter (·.disposition = .import_)

local instance lawfulBEqName : LawfulBEq PyStr := inferInstance

variable (b) in
/-- The profiles differ only in what stands under secret names in the categories of preferences. -/
def ProfilesDiffer (data data' : List (PyStr × PyJson δ)) : Prop :=
  List.Forall₂ (fun m n => m.1 = n.1 ∧
    if m.1 ∈ safeCategories.map PyStr.ofString then DifferUnder b.Secret m.2 n.2 else m.2 = n.2)
    data data'

/-! ## Records that are made -/

/-- All records are made, or none is. -/
theorem mapM_id_iff {l : List (Option ProfileRecord)} : l.mapM id = some rs ↔ l = rs.map some := by
  induction l generalizing rs with
  | nil => cases rs <;> simp
  | cons a l ih =>
    rw [mapM_cons_eq_some]
    constructor
    · rintro ⟨r, s, hr, hs, rfl⟩
      obtain rfl : a = some r := hr
      rw [ih.mp hs, List.map_cons]
    · cases rs with
      | nil => exact nofun
      | cons r rs =>
        intro h
        obtain ⟨ha, hl⟩ := List.cons.inj h
        exact ⟨r, rs, ha, ih.mpr hl, rfl⟩

/-- The imports among records in the making. -/
def imported (l : List (Option ProfileRecord)) : List ProfileRecord :=
  l.filterMap fun a => a.filter (·.disposition = .import_)

theorem imported_map_some (rs : List ProfileRecord) : imported (rs.map some) = imports rs := by
  rw [imported, List.filterMap_map, imports, ← List.filterMap_eq_filter]
  rfl

theorem imported_append (l l' : List (Option ProfileRecord)) :
    imported (l ++ l') = imported l ++ imported l' := List.filterMap_append

theorem imported_flatMap {α : Type} (l : List α) (f : α → List (Option ProfileRecord)) :
    imported (l.flatMap f) = l.flatMap fun a => imported (f a) := List.filterMap_flatMap

theorem imports_eq (h : b.parse data = some rs) : imports rs = imported (b.records data) := by
  rw [mapM_id_iff.mp h, imported_map_some]

theorem record_disposition {sourceId : PyStr} {kind reason : String} {content : Option PyStr}
    {disposition : MigrationDisposition} {metadata : List (String × PyStr)} {v : PyJson δ}
    {r : ProfileRecord}
    (h : b.record sourceId kind content disposition reason metadata v = some r) :
    r.disposition = disposition ∧ r.content = content := by
  obtain ⟨hash, -, hr⟩ := Option.bind_eq_some_iff.mp h
  obtain rfl := Option.some.inj hr
  exact ⟨rfl, rfl⟩

/-- What is skipped is no import. -/
theorem filter_skip {sourceId : PyStr} {kind reason : String} {content : Option PyStr}
    {metadata : List (String × PyStr)} {v : PyJson δ} :
    (b.record sourceId kind content .skip reason metadata v).filter
      (·.disposition = .import_) = none := by
  cases h : b.record sourceId kind content .skip reason metadata v with
  | none => rfl
  | some r =>
    rw [Option.filter_some_neg]
    rw [(record_disposition h).1]
    decide

theorem filter_secret {category : String} {key : PyStr} {v : PyJson δ} (h : b.Secret key) :
    (b.preferenceRecord category key v).filter (·.disposition = .import_) = none := by
  rw [preferenceRecord, if_pos h]
  cases b.canonicalHash (.str key) with
  | none => rfl
  | some hash => exact filter_skip

/-! ## Profiles that differ under secret names -/

theorem lookup_differ (h : ProfilesDiffer b data data') (name : PyStr) :
    if name ∈ safeCategories.map PyStr.ofString then
      Option.Rel (DifferUnder b.Secret) (data.lookup name) (data'.lookup name)
    else data.lookup name = data'.lookup name := by
  induction h with
  | nil => split <;> [exact .none; rfl]
  | @cons m n _ _ hmn _ ih =>
    obtain ⟨k, v⟩ := m
    obtain ⟨k', v'⟩ := n
    obtain ⟨rfl, hv⟩ := hmn
    by_cases hk : name = k
    · subst hk
      rw [List.lookup_cons_self, List.lookup_cons_self]
      split
      case isTrue hsafe => exact .some (if_pos hsafe ▸ hv :)
      case isFalse hsafe => exact congrArg some (if_neg hsafe ▸ hv :)
    · rw [List.lookup_cons, List.lookup_cons, beq_false_of_ne hk]
      exact ih

/-- Members that differ under secret names, side by side. -/
theorem exists_zip {p : PyStr → Prop} {ms ns : List (PyStr × PyJson δ)}
    (h : MembersDifferUnder p ms ns)
    (hclean : ∀ m ∈ ms, ¬p m.1 → m.2.All (fun k => ¬p k) fun _ => True) :
    ∃ z : List (PyStr × PyJson δ × PyJson δ), z.map (fun t => (t.1, t.2.1)) = ms ∧
      z.map (fun t => (t.1, t.2.2)) = ns ∧ ∀ t ∈ z, ¬p t.1 → t.2.1 = t.2.2 := by
  induction ms generalizing ns with
  | nil =>
    cases h
    exact ⟨[], rfl, rfl, List.forall_mem_nil _⟩
  | cons m ms ih =>
    obtain ⟨hm, hms⟩ := List.forall_mem_cons.mp hclean
    cases h with
    | @kept v w _ _ k hdiffer hs =>
      obtain ⟨z, rfl, rfl, hz⟩ := ih hs hms
      refine ⟨(k, v, w) :: z, rfl, rfl, List.forall_mem_cons.mpr ⟨fun hk => ?_, hz⟩⟩
      exact hdiffer.eq (hm hk)
    | @hidden _ _ k hk v w hs =>
      obtain ⟨z, rfl, rfl, hz⟩ := ih hs hms
      exact ⟨(k, v, w) :: z, rfl, rfl, List.forall_mem_cons.mpr ⟨fun hne => absurd hk hne, hz⟩⟩

/-- **A category without secret names inside its imported values gives the same imports.** -/
theorem imported_category {category : String} {v w : PyJson δ} (h : DifferUnder b.Secret v w)
    (hclean : ∀ values, v = .obj values → ∀ m ∈ values, ¬b.Secret m.1 →
      m.2.All (fun k => ¬b.Secret k) fun _ => True) :
    imported (b.categoryRecords category v) = imported (b.categoryRecords category w) := by
  cases h with
  | same => rfl
  | arr h =>
    show imported [_] = imported [_]
    rw [imported, imported, List.filterMap_cons_none filter_skip,
      List.filterMap_cons_none filter_skip]
  | obj h =>
    obtain ⟨z, rfl, rfl, hz⟩ := exists_zip h (hclean _ rfl)
    rw [categoryRecords, categoryRecords, rank_map, rank_map, imported, imported, List.map_map,
      List.map_map, List.filterMap_map, List.filterMap_map]
    refine List.filterMap_congr fun t ht => ?_
    by_cases hsecret : b.Secret t.1
    · exact (filter_secret hsecret).trans (filter_secret hsecret).symm
    · simp only [Function.comp_apply, hz t (mem_rank.mp ht) hsecret]

/-! ## The length of the imports -/

/-- The length of what a record imports. -/
def importLength (a : Option ProfileRecord) : Nat :=
  (a.filter (·.disposition = .import_)).elim 0 fun r => (r.content.getD []).length

def importLengths (l : List (Option ProfileRecord)) : Nat := (l.map importLength).sum

theorem importLengths_eq (l : List (Option ProfileRecord)) :
    importLengths l = ((imported l).map fun r => (r.content.getD []).length).sum := by
  induction l with
  | nil => rfl
  | cons a l ih =>
    rw [importLengths, List.map_cons, List.sum_cons, ← importLengths, ih, imported, imported,
      importLength]
    cases h : a.filter (·.disposition = .import_) with
    | none => rw [List.filterMap_cons_none h, Option.elim_none, Nat.zero_add]
    | some r => rw [List.filterMap_cons_some h, List.map_cons, List.sum_cons, Option.elim_some]

theorem importLengths_append (l l' : List (Option ProfileRecord)) :
    importLengths (l ++ l') = importLengths l + importLengths l' := by
  rw [importLengths, List.map_append, List.sum_append]
  rfl

theorem importLengths_flatMap {α : Type} (l : List α) (f : α → List (Option ProfileRecord)) :
    importLengths (l.flatMap f) = (l.map fun a => importLengths (f a)).sum := by
  induction l with
  | nil => rfl
  | cons a l ih => rw [List.flatMap_cons, importLengths_append, ih, List.map_cons, List.sum_cons]

theorem importLengths_category (category : String) (values : List (PyStr × PyJson δ)) :
    importLengths (b.categoryRecords category (.obj values)) =
      (values.map fun m => importLength (b.preferenceRecord category m.1 m.2)).sum := by
  rw [categoryRecords, importLengths, List.map_map]
  exact ((rank_perm _ values).map _).sum_eq

theorem importLength_preference {category : String} {key : PyStr} {v : PyJson δ}
    (hkey : ¬b.Secret key) (h : (b.preferenceRecord category key v).isSome = true) :
    importLength (b.preferenceRecord category key v) = (b.content v).length := by
  obtain ⟨r, hr⟩ := Option.isSome_iff_exists.mp h
  rw [importLength, hr]
  rw [preferenceRecord, if_neg hkey] at hr
  obtain ⟨himport, hcontent⟩ := record_disposition hr
  simp only [Option.filter_some, himport, decide_true, if_true, Option.elim_some, hcontent,
    Option.getD_some]

/-- A preference is imported if its strings are texts. -/
theorem preferenceRecord_isSome_iff {category : String} {key : PyStr} {v : PyJson δ}
    (hkey : ¬b.Secret key) :
    (b.preferenceRecord category key v).isSome = true ↔ v.All PyStr.IsText PyStr.IsText := by
  have htext : (b.canonicalHash (.str (b.content v))).isSome = true ↔
      v.All PyStr.IsText PyStr.IsText := by
    rw [canonicalHash, Option.isSome_map, encode_isSome_iff, dumpsSorted, sortKeys, dumps,
      isText_quote, ProfileBuiltins.content, dumpsSorted, isText_dumps, all_sortKeys]
  rw [preferenceRecord, if_neg hkey, ← htext, ProfileBuiltins.record]
  cases h : b.canonicalHash (.str (b.content v)) <;> simp [h]

/-! ## A longer value -/

theorem parse_isSome_iff :
    (b.parse data).isSome = true ↔ ∀ a ∈ b.records data, a.isSome = true := by
  rw [parse]
  induction b.records data with
  | nil => exact ⟨fun _ => List.forall_mem_nil _, fun _ => rfl⟩
  | cons a l ih =>
    rw [List.forall_mem_cons, ← ih, List.mapM_cons]
    cases a <;> cases hl : l.mapM id <;> simp

/-- Writing something else under the name of a category. -/
theorem differ_set {category : String} (hcategory : category ∈ safeCategories) {v w : PyJson δ}
    (hv : data.lookup (PyStr.ofString category) = some v) (h : DifferUnder b.Secret v w) :
    ProfilesDiffer b data (Dict.set (PyStr.ofString category) w data) := by
  have hsame : ∀ l : List (PyStr × PyJson δ), ProfilesDiffer b l l := fun l =>
    List.forall₂_same.mpr fun m _ => ⟨rfl, by split <;> [exact .same _; rfl]⟩
  induction data with
  | nil => exact nomatch hv
  | cons m data ih =>
    obtain ⟨k, u⟩ := m
    by_cases hk : k = PyStr.ofString category
    · subst hk
      rw [List.lookup_cons_self] at hv
      obtain rfl := Option.some.inj hv
      rw [Dict.set, if_pos rfl]
      exact .cons ⟨rfl, by rw [if_pos (List.mem_map_of_mem hcategory)]; exact h⟩ (hsame data)
    · rw [List.lookup_cons, beq_false_of_ne (Ne.symm hk)] at hv
      rw [Dict.set, if_neg hk]
      exact .cons ⟨rfl, by split <;> [exact .same _; rfl]⟩ (ih hv)

theorem membersDifferUnder_replace {p : PyStr → Prop} {pre post : List (PyStr × PyJson δ)}
    {k : PyStr} {v w : PyJson δ} (h : DifferUnder p v w) :
    MembersDifferUnder p (pre ++ (k, v) :: post) (pre ++ (k, w) :: post) := by
  induction pre with
  | nil => exact .kept k h (membersDifferUnder_same post)
  | cons m pre ih => exact .kept m.1 (.same m.2) ih

/-- Names that are no categories of preferences. -/
theorem not_safe_of_mem {name : String} (h : name ∈ "name" :: excludedCategories) :
    ∀ category ∈ safeCategories, PyStr.ofString name ≠ PyStr.ofString category := by
  intro category hcategory heq
  rw [PyStr.ofString_inj] at heq
  subst heq
  revert h hcategory
  simp only [excludedCategories, safeCategories, List.mem_cons, List.not_mem_nil, or_false]
  rintro (rfl | rfl | rfl | rfl | rfl) <;> decide

section Longer

variable {category : String} {pre post : List (PyStr × PyJson δ)} {key : PyStr} {v w : PyJson δ}

/-- A longer value makes the imports of its category longer. -/
theorem importLengths_replace (hkey : ¬b.Secret key)
    (hv : (b.preferenceRecord category key v).isSome = true)
    (hw : (b.preferenceRecord category key w).isSome = true)
    (hlonger : (b.content v).length < (b.content w).length) :
    importLengths (b.categoryRecords category (.obj (pre ++ (key, v) :: post))) <
      importLengths (b.categoryRecords category (.obj (pre ++ (key, w) :: post))) := by
  rw [importLengths_category, importLengths_category, List.map_append, List.map_append,
    List.map_cons, List.map_cons, List.sum_append, List.sum_append, List.sum_cons, List.sum_cons,
    importLength_preference hkey hv, importLength_preference hkey hw]
  omega

/-- If it can be made, so can the records of its category. -/
theorem categoryRecords_replace (hw : (b.preferenceRecord category key w).isSome = true)
    (h : ∀ a ∈ b.categoryRecords category (.obj (pre ++ (key, v) :: post)), a.isSome = true) :
    ∀ a ∈ b.categoryRecords category (.obj (pre ++ (key, w) :: post)), a.isSome = true := by
  intro a ha
  obtain ⟨m, hm, rfl⟩ := List.mem_map.mp ha
  rcases List.mem_append.mp (mem_rank.mp hm) with hm | hm
  · exact h _ (List.mem_map_of_mem (mem_rank.mpr (List.mem_append_left _ hm)))
  · rcases List.mem_cons.mp hm with rfl | hm
    · exact hw
    · exact h _ (List.mem_map_of_mem
        (mem_rank.mpr (List.mem_append_right _ (List.mem_cons_of_mem _ hm))))

end Longer

/-- Only the category that is written has other preferences. -/
theorem preferences_set {category name : String} {w : PyJson δ} :
    preferences (Dict.set (PyStr.ofString category) w data) name =
      if name = category then w else preferences data name := by
  rw [preferences, Dict.lookup_set]
  simp only [PyStr.ofString_inj]
  split <;> rfl

theorem lookup_set_of_not_safe {category name : String} (hcategory : category ∈ safeCategories)
    (hname : name ∈ "name" :: excludedCategories) (w : PyJson δ) :
    (Dict.set (PyStr.ofString category) w data).lookup (PyStr.ofString name) =
      data.lookup (PyStr.ofString name) := by
  rw [Dict.lookup_set, if_neg (not_safe_of_mem hname category hcategory)]

/-- **Where an imported value has a secret name inside, the imports can be made longer** by what is
put there. -/
theorem exists_longer_import {category : String} (hcategory : category ∈ safeCategories)
    {values : List (PyStr × PyJson δ)} (hvalues : preferences data category = .obj values)
    {key : PyStr} {v : PyJson δ} (hmem : (key, v) ∈ values) (hkey : ¬b.Secret key)
    (hinside : ¬ v.All (fun k => ¬b.Secret k) fun _ => True)
    (hparse : (b.parse data).isSome = true) :
    ∃ data', ProfilesDiffer b data data' ∧ (b.parse data').isSome = true ∧
      importLengths (b.records data) < importLengths (b.records data') := by
  obtain ⟨w, hdiffer, hlonger, htext⟩ := exists_longer b.repr .spaced hinside
  obtain ⟨pre, post, rfl⟩ := List.append_of_mem hmem
  have hlookup : data.lookup (PyStr.ofString category) = some (.obj (pre ++ (key, v) :: post)) := by
    rw [preferences] at hvalues
    cases h : data.lookup (PyStr.ofString category) with
    | none => simp [h] at hvalues
    | some u => rw [← hvalues, h, Option.getD_some]
  rw [parse_isSome_iff] at hparse
  -- both values can be written, and the second is longer
  have hcategoryRecords : ∀ c ∈ safeCategories, ∀ a ∈ b.categoryRecords c (preferences data c),
      a.isSome = true := fun c hc a ha => hparse a (List.mem_append_left _
    (List.mem_append_right _ (List.mem_flatMap.mpr ⟨c, hc, ha⟩)))
  have hv : (b.preferenceRecord category key v).isSome = true :=
    hcategoryRecords category hcategory _ (by
      rw [hvalues]
      exact List.mem_map_of_mem (mem_rank.mpr hmem))
  have hw : (b.preferenceRecord category key w).isSome = true :=
    (preferenceRecord_isSome_iff hkey).mpr (htext ((preferenceRecord_isSome_iff hkey).mp hv))
  have hlength : (b.content v).length < (b.content w).length := by
    rw [ProfileBuiltins.content, ProfileBuiltins.content, dumpsSorted, dumpsSorted,
      length_dumps_sortKeys, length_dumps_sortKeys]
    exact hlonger
  -- the rest of the profile is as it was
  have hname : b.nameRecords (Dict.set (PyStr.ofString category)
      (.obj (pre ++ (key, w) :: post)) data) = b.nameRecords data := by
    rw [nameRecords, nameRecords, lookup_set_of_not_safe hcategory List.mem_cons_self]
  have hexcluded : excludedCategories.flatMap (b.excludedRecords (Dict.set
      (PyStr.ofString category) (.obj (pre ++ (key, w) :: post)) data)) =
        excludedCategories.flatMap (b.excludedRecords data) := by
    refine List.flatMap_congr fun c hc => ?_
    rw [excludedRecords, excludedRecords,
      lookup_set_of_not_safe hcategory (List.mem_cons_of_mem _ hc)]
  refine ⟨_, differ_set hcategory hlookup (.obj (membersDifferUnder_replace hdiffer)), ?_, ?_⟩
  · rw [parse_isSome_iff, records, hname, hexcluded]
    intro a ha
    rcases List.mem_append.mp ha with ha | ha
    · rcases List.mem_append.mp ha with ha | ha
      · exact hparse a (List.mem_append_left _ (List.mem_append_left _ ha))
      · obtain ⟨c, hc, hac⟩ := List.mem_flatMap.mp ha
        rw [preferences_set] at hac
        split at hac
        case isTrue heq =>
          subst heq
          exact categoryRecords_replace hw (hvalues ▸ hcategoryRecords c hc) a hac
        case isFalse => exact hcategoryRecords c hc a hac
    · exact hparse a (List.mem_append_right _ ha)
  · rw [records, records, hname, hexcluded, importLengths_append, importLengths_append,
      importLengths_append, importLengths_append, importLengths_flatMap safeCategories,
      importLengths_flatMap safeCategories]
    have hsum : (safeCategories.map fun c =>
          importLengths (b.categoryRecords c (preferences data c))).sum <
        (safeCategories.map fun c => importLengths (b.categoryRecords c
          (preferences (Dict.set (PyStr.ofString category)
            (.obj (pre ++ (key, w) :: post)) data) c))).sum := by
      refine List.sum_lt_sum _ _ (fun c hc => ?_) ⟨category, hcategory, ?_⟩
      · rw [preferences_set]
        split
        case isTrue heq =>
          rw [heq, hvalues]
          exact (importLengths_replace hkey hv hw hlength).le
        case isFalse => exact le_rfl
      · rw [preferences_set, if_pos rfl, hvalues]
        exact importLengths_replace hkey hv hw hlength
    omega

/-! ## What stays out -/

/-- **What stands under secret names stays out of the imports exactly where** no imported value has
such a name inside. -/
theorem secrets_stay_out_iff (h : b.parse data = some rs) :
    (∀ data' rs', ProfilesDiffer b data data' → b.parse data' = some rs' →
        imports rs' = imports rs) ↔
      ∀ category ∈ safeCategories, ∀ values, preferences data category = .obj values →
        ∀ m ∈ values, ¬b.Secret m.1 → m.2.All (fun k => ¬b.Secret k) fun _ => True := by
  constructor
  · intro hsame category hcategory values hvalues m hm hkey
    by_contra hinside
    obtain ⟨data', hdiffer, hparse, hlonger⟩ :=
      exists_longer_import hcategory hvalues hm hkey hinside (by rw [h]; rfl)
    obtain ⟨rs', hrs'⟩ := Option.isSome_iff_exists.mp hparse
    have himports := hsame data' rs' hdiffer hrs'
    rw [imports_eq h, imports_eq hrs'] at himports
    rw [importLengths_eq, importLengths_eq, himports] at hlonger
    exact lt_irrefl _ hlonger
  · intro hclean data' rs' hdiffer hrs'
    have hother : ∀ name ∈ "name" :: excludedCategories,
        data'.lookup (PyStr.ofString name) = data.lookup (PyStr.ofString name) := by
      intro name hname
      have hnot : PyStr.ofString name ∉ safeCategories.map PyStr.ofString := by
        intro hmem
        obtain ⟨c, hc, heq⟩ := List.mem_map.mp hmem
        exact not_safe_of_mem hname c hc heq.symm
      have := lookup_differ hdiffer (PyStr.ofString name)
      rw [if_neg hnot] at this
      exact this.symm
    have hcategories : ∀ c ∈ safeCategories, imported (b.categoryRecords c (preferences data' c)) =
        imported (b.categoryRecords c (preferences data c)) := by
      intro c hc
      have hlookup := lookup_differ hdiffer (PyStr.ofString c)
      rw [if_pos (List.mem_map_of_mem hc)] at hlookup
      refine (imported_category ?_ (hclean c hc)).symm
      rw [preferences, preferences]
      generalize data.lookup (PyStr.ofString c) = v, data'.lookup (PyStr.ofString c) = w at hlookup
      cases hlookup with
      | none => exact .same _
      | some hvalue => exact hvalue
    have hname : b.nameRecords data' = b.nameRecords data := by
      rw [nameRecords, nameRecords, hother "name" List.mem_cons_self]
    have hexcluded : excludedCategories.flatMap (b.excludedRecords data') =
        excludedCategories.flatMap (b.excludedRecords data) := by
      refine List.flatMap_congr fun c hc => ?_
      rw [excludedRecords, excludedRecords, hother c (List.mem_cons_of_mem _ hc)]
    rw [imports_eq h, imports_eq hrs', records, records, hname, hexcluded, imported_append,
      imported_append, imported_append, imported_append, imported_flatMap safeCategories,
      imported_flatMap safeCategories, List.flatMap_congr hcategories]

/-- A code point without its case, with the letters outside ASCII that `re.I` takes for ASCII ones. -/
def caseless : CodePoint → CodePoint
  | .scalar c =>
      if c = 'ı' ∨ c = 'İ' then .scalar 'i' else if c = 'ſ' then .scalar 's'
      else if c.toNat = 0x212A then .scalar 'k' else .scalar c.toLower
  | .lone n => .lone n

/-- `_SECRET_KEY.search`. -/
def searchSecretKey (key : PyStr) : Bool :=
  (key.map caseless).tails.any fun rest =>
    ["token", "secret", "password", "authorization", "apikey"].any
        (fun word => (PyStr.ofString word).isPrefixOf rest)
      || (PyStr.ofString "api").isPrefixOf rest && (rest.drop 3).head? ≠ some (.scalar '\n')
        && (PyStr.ofString "key").isPrefixOf (rest.drop 4)

/-- The digests of the texts that the profiles below are made of. -/
def digests : List (String × String) := [
  ("1", "6b86b273ff34fce19d6b804eff5a3f5747ada4eaa22f1d49c01e52ddb7875b4b"),
  ("\"token\"", "3d872b2ab22a2475ca9ba197dc3cc954d8c991e44284994557fbcaf873cdb73f"),
  ("\"\x7b\\\"api_key\\\": \\\"a1\\\"\x7d\"",
    "a4edb08eebe68fa463f13865ae20e8151569da562aae0ee3d38436d16b5c3731"),
  ("\"\x7b\\\"api_key\\\": \\\"b2\\\"\x7d\"",
    "eda033ee11a43d0f6a3170f35abb198ade3a13738fecbd4d512f8843d3eab896")]

/-- The search for the pattern, and these digests. -/
def sampleProfile : ProfileBuiltins Unit where
  search _ := searchSecretKey
  repr _ := []
  sha256 raw := ((digests.find? fun d => d.1.toUTF8.data = raw.data).map (·.2)).getD ""

example : ["Api-Key", "ACCESS_TOKEN", "paſſword", "api\nkey", "apk"].map
    (fun key => searchSecretKey (PyStr.ofString key)) = [true, true, true, false, false] := by
  decide +kernel

/-- A profile with a key for a search service inside a preference. -/
def serviceProfile (key : String) : List (PyStr × PyJson Unit) :=
  [(PyStr.ofString "general_preferences", .obj [(PyStr.ofString "search", .obj
    [(PyStr.ofString "api_key", .str (PyStr.ofString key))])])]

theorem serviceProfile_differ (key key' : String) :
    ProfilesDiffer sampleProfile (serviceProfile key) (serviceProfile key') := by
  have hsafe : PyStr.ofString "general_preferences" ∈ safeCategories.map PyStr.ofString := by
    decide +kernel
  refine .cons ⟨rfl, ?_⟩ .nil
  rw [if_pos hsafe]
  exact .obj (.kept _ (.obj (.hidden (by decide +kernel) _ _ .nil)) .nil)

/-- The text of the import has the key in it. -/
theorem nested_key_imported :
    ∃ rs rs', sampleProfile.parse (serviceProfile "a1") = some rs ∧
      sampleProfile.parse (serviceProfile "b2") = some rs' ∧
      ProfilesDiffer sampleProfile (serviceProfile "a1") (serviceProfile "b2") ∧
      imports rs ≠ imports rs' ∧
      (imports rs).map (·.content) = [some (PyStr.ofString "\x7b\"api_key\": \"a1\"\x7d")] := by
  have hchecked : ((sampleProfile.parse (serviceProfile "a1")).any fun rs =>
      (sampleProfile.parse (serviceProfile "b2")).any fun rs' => decide (imports rs ≠ imports rs' ∧
        (imports rs).map (·.content) = [some (PyStr.ofString "\x7b\"api_key\": \"a1\"\x7d")])) := by
    decide +kernel
  obtain ⟨rs, hrs, hinner⟩ := (Option.any_eq_true _ _).mp hchecked
  obtain ⟨rs', hrs', himports⟩ := (Option.any_eq_true _ _).mp hinner
  exact ⟨rs, rs', hrs, hrs', serviceProfile_differ _ _, of_decide_eq_true himports⟩

/-- What is left of a preference named `token` with the value 1. -/
def skippedToken : ProfileRecord where
  sourceId := PyStr.ofString "relationships:token"
  kind := "profile_preference"
  content := none
  sourceHash := "6b86b273ff34fce19d6b804eff5a3f5747ada4eaa22f1d49c01e52ddb7875b4b"
  disposition := .skip
  reason := "excluded_secret"
  metadata := [("category", PyStr.ofString "relationships"),
    ("key_hash",
      PyStr.ofString "3d872b2ab22a2475ca9ba197dc3cc954d8c991e44284994557fbcaf873cdb73f")]

/-- A secret among the preferences themselves stays out. -/
theorem plain_secret_stays_out :
    sampleProfile.parse
        [(PyStr.ofString "relationships", .obj [(PyStr.ofString "token", .int 1)])] = some
      [skippedToken] ∧
    ∀ data' rs', ProfilesDiffer sampleProfile
        [(PyStr.ofString "relationships", .obj [(PyStr.ofString "token", .int 1)])] data' →
      sampleProfile.parse data' = some rs' → imports rs' = imports [skippedToken] := by
  have hparse : sampleProfile.parse
      [(PyStr.ofString "relationships", .obj [(PyStr.ofString "token", .int 1)])] =
        some [skippedToken] := by
    decide +kernel
  refine ⟨hparse, (secrets_stay_out_iff hparse).mpr ?_⟩
  intro category hcategory values hvalues m hm hkey
  simp only [safeCategories, List.mem_cons, List.not_mem_nil, or_false] at hcategory
  have htoken : values = [] ∨ values = [(PyStr.ofString "token", .int 1)] := by
    rcases hcategory with rfl | rfl | rfl
    · exact .inl (PyJson.obj.inj hvalues).symm
    · exact .inl (PyJson.obj.inj hvalues).symm
    · exact .inr (PyJson.obj.inj hvalues).symm
  rcases htoken with rfl | rfl
  · exact absurd hm List.not_mem_nil
  · obtain rfl := List.mem_singleton.mp hm
    exact trivial

end Sana.Migration
