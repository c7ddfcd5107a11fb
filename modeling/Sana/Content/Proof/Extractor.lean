import Sana.Content.Extractor

/-!
# What the parser takes for visible

In a well-nested page the depth is the number of open elements that are not shown, and the flag says
what the last title tag was. A title that is open has been started, but after a title inside a title
the flag is down, and a title inside an element that is not shown puts it up. So the parts are right
where no data stands in such a place, and only there.
-/

namespace Sana.Content

variable {lower : String → String} {events : List MarkupEvent} {openTags : List String}
  {titleTag : Bool} {p : VisibleTextParser}

/-- The parser is where the page is: it counts what is open and has seen the last title tag. -/
structure VisibleTextParser.At (p : VisibleTextParser) (openTags : List String) (titleTag : Bool) :
    Prop where
  depth : p.ignoredDepth = openTags.countP (· ∈ ignoredTags)
  title : p.inTitle = titleTag

namespace VisibleTextParser

theorem At.start (h : p.At openTags titleTag) (tag : String) :
    (p.handleStarttag lower tag).At (lower tag :: openTags)
      (if lower tag = "title" then true else titleTag) := by
  constructor
  · rw [handleStarttag, h.depth, List.countP_cons]
    simp only [decide_eq_true_eq]
    split <;> rfl
  · rw [handleStarttag, h.title]

theorem At.end_ {tag : String} (h : p.At openTags titleTag)
    (hopen : openTags.head? = some (lower tag)) :
    (p.handleEndtag lower tag).At openTags.tail
      (if lower tag = "title" then false else titleTag) := by
  obtain ⟨rest, rfl⟩ := List.head?_eq_some_iff.mp hopen
  have hdepth := h.depth
  rw [List.countP_cons] at hdepth
  simp only [decide_eq_true_eq] at hdepth
  constructor
  · rw [handleEndtag, List.tail_cons]
    simp only
    by_cases hignored : lower tag ∈ ignoredTags
    · rw [if_pos hignored] at hdepth
      rw [if_pos ⟨hignored, by omega⟩]
      omega
    · rw [if_neg hignored, Nat.add_zero] at hdepth
      rwa [if_neg fun h => hignored h.1]
  · rw [handleEndtag, h.title]

theorem At.data (h : p.At openTags titleTag) (data : String) :
    (p.handleData data).At openTags titleTag := by
  rw [handleData]
  split
  · exact h
  · exact ⟨h.depth, h.title⟩

theorem At.outside (h : p.At openTags titleTag) :
    p.ignoredDepth = 0 ↔ openTags.any (· ∈ ignoredTags) = false := by
  rw [h.depth, List.countP_eq_zero, List.any_eq_false]

/-- **What the parser collects** from a place on: it goes by the depth and the last title tag. -/
theorem foldl_parts (h : p.At openTags titleTag) (hnested : nested lower openTags events = true) :
    (events.foldl (handle lower) p).textParts = p.textParts ++
        ((placesFrom lower openTags titleTag events).filter fun place =>
          !place.blank && !place.ignored && !place.titleTag).map (Text.squeeze ·.data) ∧
      (events.foldl (handle lower) p).titleParts = p.titleParts ++
        ((placesFrom lower openTags titleTag events).filter fun place =>
          !place.blank && place.titleTag).map (Text.squeeze ·.data) := by
  induction events generalizing openTags titleTag p with
  | nil => exact ⟨(List.append_nil _).symm, (List.append_nil _).symm⟩
  | cons event events ih =>
    cases event with
    | startTag tag => exact ih (h.start tag) hnested
    | endTag tag =>
      obtain ⟨hopen, hrest⟩ := Bool.and_eq_true_iff.mp hnested
      exact ih (h.end_ (of_decide_eq_true hopen)) hrest
    | data data =>
      obtain ⟨htext, htitle⟩ := ih (h.data data) hnested
      rw [List.foldl_cons, handle, htext, htitle, placesFrom, handleData]
      by_cases hblank : Text.squeeze data = ""
      · simp [hblank, Place.blank]
      · have houtside := h.outside
        cases hignored : openTags.any (· ∈ ignoredTags) <;> cases titleTag <;>
          simp_all [Place.blank, Place.ignored, h.title]

theorem feed_parts (hnested : nested lower [] events = true) :
    (feed lower events).textParts = ((places lower events).filter fun place =>
        !place.blank && !place.ignored && !place.titleTag).map (Text.squeeze ·.data) ∧
      (feed lower events).titleParts = ((places lower events).filter fun place =>
        !place.blank && place.titleTag).map (Text.squeeze ·.data) :=
  foldl_parts (p := {}) ⟨rfl, rfl⟩ hnested

end VisibleTextParser

/-! ## Titles -/

/-- A title that has been started and not been closed is open. -/
theorem inTitle_of_titleTag (htitle : titleTag = true → "title" ∈ openTags)
    (hnested : nested lower openTags events = true) :
    ∀ place ∈ placesFrom lower openTags titleTag events,
      place.titleTag = true → place.inTitle = true := by
  induction events generalizing openTags titleTag with
  | nil => exact fun place hplace => absurd hplace List.not_mem_nil
  | cons event events ih =>
    cases event with
    | startTag tag =>
      refine ih (fun h => ?_) hnested
      split at h
      case isTrue heq => exact heq ▸ List.mem_cons_self
      case isFalse => exact List.mem_cons_of_mem _ (htitle h)
    | endTag tag =>
      obtain ⟨hopen, hrest⟩ := Bool.and_eq_true_iff.mp hnested
      obtain ⟨rest, rfl⟩ := List.head?_eq_some_iff.mp (of_decide_eq_true hopen)
      refine ih (fun h => ?_) hrest
      split at h
      case isTrue => exact absurd h Bool.false_ne_true
      case isFalse hne =>
        exact (List.mem_cons.mp (htitle h)).resolve_left fun heq => hne heq.symm
    | data data =>
      refine List.forall_mem_cons.mpr ⟨fun h => ?_, ih htitle hnested⟩
      exact decide_eq_true (htitle h)

/-! ## Hiding -/

theorem nested_hide (hnested : nested lower openTags events = true) :
    nested lower openTags (hideFrom lower openTags events) = true := by
  induction events generalizing openTags with
  | nil => exact hnested
  | cons event events ih =>
    cases event with
    | startTag tag => exact ih hnested
    | endTag tag =>
      obtain ⟨hopen, hrest⟩ := Bool.and_eq_true_iff.mp hnested
      exact Bool.and_eq_true_iff.mpr ⟨hopen, ih hrest⟩
    | data data =>
      rw [hideFrom]
      split
      · exact ih hnested
      · exact ih hnested

/-- Hiding takes the places inside elements that are not shown, and leaves the others as they are. -/
theorem placesFrom_hide (openTags : List String) (titleTag : Bool) (events : List MarkupEvent) :
    placesFrom lower openTags titleTag (hideFrom lower openTags events) =
      (placesFrom lower openTags titleTag events).filter fun place => !place.ignored := by
  induction events generalizing openTags titleTag with
  | nil => rfl
  | cons event events ih =>
    cases event with
    | startTag tag => exact ih _ _
    | endTag tag => exact ih _ _
    | data data =>
      rw [hideFrom, placesFrom]
      split
      case isTrue hignored =>
        rw [ih, List.filter_cons_of_neg (by simpa [Place.ignored] using hignored)]
      case isFalse hignored =>
        rw [placesFrom, ih, List.filter_cons_of_pos (by simpa [Place.ignored] using hignored)]

/-! ## Where the parts are right -/

/-- What passes a narrower filter is as much as what passes the wider one only if it is the same. -/
theorem map_filter_eq_iff {α β : Type} {p q : α → Bool} {f : α → β} {l : List α}
    (h : ∀ a ∈ l, p a = true → q a = true) :
    (l.filter p).map f = (l.filter q).map f ↔ ∀ a ∈ l, q a = true → p a = true := by
  have hnarrow : l.filter p = (l.filter q).filter p := by
    rw [List.filter_filter]
    refine List.filter_congr fun a ha => Bool.eq_iff_iff.mpr ⟨fun hp => ?_, fun hpq => ?_⟩
    · exact Bool.and_eq_true_iff.mpr ⟨hp, h a ha hp⟩
    · exact (Bool.and_eq_true_iff.mp hpq).1
  constructor
  · intro heq a ha hq
    have hlength := congrArg List.length heq
    rw [List.length_map, List.length_map, hnarrow, List.length_filter_eq_length_iff] at hlength
    exact hlength a (List.mem_filter.mpr ⟨ha, hq⟩)
  · intro hback
    rw [List.filter_congr fun a ha => Bool.eq_iff_iff.mpr ⟨h a ha, hback a ha⟩]

/-- **The parts are right exactly where the last title tag tells.** Inside an element that is not
shown it must not be a start tag, and outside, inside a title, it must be one. -/
theorem visible_text_iff (hnested : nested lower [] events = true) :
    ((VisibleTextParser.feed lower events).textParts = visible lower events ∧
        (VisibleTextParser.feed lower (hideIgnored lower events)).textParts =
          (VisibleTextParser.feed lower events).textParts ∧
        (VisibleTextParser.feed lower (hideIgnored lower events)).titleParts =
          (VisibleTextParser.feed lower events).titleParts) ↔
      ∀ place ∈ places lower events, place.blank = false →
        (place.ignored = true → place.titleTag = false) ∧
          (place.ignored = false → place.inTitle = true → place.titleTag = true) := by
  have htitle : ∀ place ∈ places lower events, place.titleTag = true → place.inTitle = true :=
    inTitle_of_titleTag nofun hnested
  obtain ⟨htext, htitles⟩ := VisibleTextParser.feed_parts hnested
  obtain ⟨hhidden, hhiddenTitles⟩ := VisibleTextParser.feed_parts (nested_hide hnested)
  have hplaces : places lower (hideFrom lower [] events) = (places lower events).filter _ :=
    placesFrom_hide [] false events
  have hshown := map_filter_eq_iff (f := (Text.squeeze ·.data)) (l := places lower events)
    (p := fun place => !place.blank && !place.ignored && !place.inTitle)
    (q := fun place => !place.blank && !place.ignored && !place.titleTag)
    fun place hplace h => by
      have := htitle place hplace
      grind
  have hnamed := map_filter_eq_iff (f := (Text.squeeze ·.data)) (l := places lower events)
    (p := fun place => !place.blank && place.titleTag && !place.ignored)
    (q := fun place => !place.blank && place.titleTag)
    fun place hplace h => (Bool.and_eq_true_iff.mp h).1
  have hsame := map_filter_eq_iff (f := (Text.squeeze ·.data)) (l := places lower events)
    (p := fun place => !place.blank && !place.ignored && !place.titleTag && !place.ignored)
    (q := fun place => !place.blank && !place.ignored && !place.titleTag)
    fun place hplace h => (Bool.and_eq_true_iff.mp h).1
  rw [hideIgnored, htext, htitles, hhidden, hhiddenTitles, hplaces, List.filter_filter,
    List.filter_filter, visible, eq_comm, hshown, hnamed, hsame]
  constructor
  · rintro ⟨hshown, -, hnamed⟩ place hplace hblank
    have hshown := hshown place hplace
    have hnamed := hnamed place hplace
    grind
  · intro h
    refine ⟨fun place hplace => ?_, fun place hplace => ?_, fun place hplace => ?_⟩
    · have := h place hplace
      grind
    · grind
    · have := h place hplace
      grind

/-- The title of an icon becomes the title of the page. -/
theorem icon_title :
    nested id [] [.startTag "svg", .startTag "title", .data "icon", .endTag "title", .endTag "svg"] ∧
      (VisibleTextParser.feed id [.startTag "svg", .startTag "title", .data "icon",
        .endTag "title", .endTag "svg"]).titleParts = ["icon"] ∧
      (VisibleTextParser.feed id (hideIgnored id [.startTag "svg", .startTag "title",
        .data "icon", .endTag "title", .endTag "svg"])).titleParts = [] := by
  decide

/-- A page without titles inside titles or inside what is not shown. -/
theorem visible_text_plain :
    (VisibleTextParser.feed id [.startTag "title", .data " A  page", .endTag "title",
      .startTag "nav", .data "Home", .endTag "nav", .data "Text"]).textParts = ["Text"] :=
  ((@visible_text_iff id _ (by decide)).mpr (by decide)).1.trans
    (by decide)

end Sana.Content
