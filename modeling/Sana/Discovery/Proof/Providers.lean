import Sana.Discovery.Proof.CanonicalUrl
import Sana.Discovery.Providers

/-!
# When an item costs the others their hits

The loop appends the hits of the accepted items one by one, and each depends on its item and its rank
alone; but the first one that raises ends the whole response. So every accepted item has its hit
exactly where no accepted item has a field that raises: a date without a time zone, a score that is no
number a hit may have, a character reference that is too long. Everything else is let pass.
-/

namespace Sana.Discovery.Providers

open Sana.Lib Lib.Url

variable {δ : Type} {t : ProviderText δ}

/-! ## URLs -/

theorem strip_eq_nil_iff {text : PyStr} : strip text = [] ↔ ∀ c ∈ text, isSpace c = true := by
  rw [strip, List.rdropWhile_eq_nil_iff]
  constructor
  · intro h c hc
    by_contra hspace
    have hmem : c ∈ text.takeWhile isSpace ∨ c ∈ text.dropWhile isSpace := by
      rwa [← List.mem_append, List.takeWhile_append_dropWhile]
    rcases hmem with hmem | hmem
    · exact hspace (List.mem_takeWhile_imp hmem)
    · exact hspace (h c hmem)
  · exact fun h c hc => h c ((List.dropWhile_sublist _).subset hc)

/-- A blank text is no URL. -/
theorem canonicalizeUrl_blank {u : UrlText} {cs : List Char}
    (h : ∀ c ∈ cs, Text.isSpace c = true) : u.canonicalizeUrl cs = none := by
  have hstrip : Text.stripChars cs = [] := by
    rw [Text.stripChars_eq, List.dropWhile_eq_nil_iff.mpr h]
    rfl
  rw [UrlText.canonicalizeUrl, hstrip]
  have hsplit : urlsplit u.checks [] =
      if validNetloc u.checks [] then some ⟨[], [], [], [], []⟩ else none := rfl
  rw [hsplit]
  split <;> rfl

/-- **A URL that is accepted is not blank.** -/
theorem strip_ne_nil {url canonical : PyStr} (h : t.canonicalizeUrl url = some canonical) :
    strip url ≠ [] := by
  intro hnil
  have hspace := strip_eq_nil_iff.mp hnil
  rw [ProviderText.canonicalizeUrl] at h
  cases hchars : url.chars? with
  | none =>
    -- a surrogate on its own is no white space
    have htext : url.IsText := fun c hc => by
      cases c with
      | scalar c => rfl
      | lone n => exact nomatch hspace _ hc
    rw [← PyJson.chars?_isSome_iff, hchars] at htext
    exact Bool.noConfusion htext
  | some cs =>
    have hurl : PyStr.ascii cs = url := PyJson.chars?_eq_some_iff.mp hchars
    have hblank : t.url.canonicalizeUrl cs = none := by
      refine canonicalizeUrl_blank fun c hc => hspace (.scalar c) ?_
      rw [← hurl]
      exact List.mem_map_of_mem hc
    simp only [hchars, hblank] at h
    exact nomatch h

/-! ## The loop -/

section Loop

variable {ι κ η : Type} {accept : ι → Option κ} {build : Nat → κ → Except Raised η}

/-- What is made of the accepted items, each with its rank. -/
def ranked (build : Nat → κ → Except Raised η) (n : Nat) (accepted : List κ) :
    List (Except Raised η) := accepted.mapIdx fun i found => build (n + i + 1) found

theorem ranked_cons (n : Nat) (found : κ) (rest : List κ) :
    ranked build n (found :: rest) = build (n + 1) found :: ranked build (n + 1) rest := by
  rw [ranked, ranked, List.mapIdx_cons]
  simp only [Nat.add_zero, Nat.add_comm 1, Nat.add_assoc]

/-- **The loop returns the hits of the accepted items in order**, if each of them has one. -/
theorem gather_ok_iff {raws : List ι} {hits out : List η} :
    gather accept build raws hits = .ok out ↔
      ∃ new, out = hits ++ new ∧ new.map .ok = ranked build hits.length (raws.filterMap accept) := by
  induction raws generalizing hits with
  | nil =>
    rw [gather]
    constructor
    · intro h
      obtain rfl := Except.ok.inj h
      exact ⟨[], (List.append_nil _).symm, rfl⟩
    · rintro ⟨new, rfl, hnew⟩
      obtain rfl := List.map_eq_nil_iff.mp hnew
      rw [List.append_nil]
  | cons raw raws ih =>
    rw [gather]
    cases haccept : accept raw with
    | none =>
      simp only
      rw [ih, List.filterMap_cons_none haccept]
    | some found =>
      simp only
      rw [List.filterMap_cons_some haccept, ranked_cons]
      constructor
      · intro h
        obtain ⟨hit, hhit, h⟩ := bind_ok_iff.mp h
        obtain ⟨new, rfl, hnew⟩ := ih.mp h
        rw [List.length_append, List.length_singleton] at hnew
        refine ⟨hit :: new, by rw [List.append_assoc, List.singleton_append], ?_⟩
        rw [List.map_cons, hhit, hnew]
      · rintro ⟨new, rfl, hnew⟩
        cases new with
        | nil => exact nomatch hnew
        | cons hit new =>
          rw [List.map_cons, List.cons.injEq] at hnew
          refine bind_ok_iff.mpr ⟨hit, hnew.1.symm, ih.mpr ⟨new, ?_, ?_⟩⟩
          · rw [List.append_assoc, List.singleton_append]
          · rw [List.length_append, List.length_singleton, hnew.2]

/-- The accepted items have their hits exactly where each of them has one at any rank. -/
theorem exists_hits_iff {fits : κ → Prop} {accepted : List κ}
    (hbuild : ∀ found ∈ accepted, ∀ n, (∃ hit, build (n + 1) found = .ok hit) ↔ fits found)
    (n : Nat) : (∃ hits : List η, hits.map .ok = ranked build n accepted) ↔
      ∀ found ∈ accepted, fits found := by
  induction accepted generalizing n with
  | nil => exact ⟨fun _ => List.forall_mem_nil _, fun _ => ⟨[], rfl⟩⟩
  | cons found rest ih =>
    rw [List.forall_mem_cons] at hbuild
    rw [List.forall_mem_cons, ← ih hbuild.2 (n + 1), ← hbuild.1 n, ranked_cons]
    constructor
    · rintro ⟨hits, hhits⟩
      cases hits with
      | nil => exact nomatch hhits
      | cons hit hits =>
        obtain ⟨hhit, hrest⟩ := List.cons.inj hhits
        exact ⟨⟨hit, hhit.symm⟩, ⟨hits, hrest⟩⟩
    · rintro ⟨⟨hit, hhit⟩, ⟨hits, hrest⟩⟩
      exact ⟨hit :: hits, by rw [List.map_cons, hhit, hrest]⟩

end Loop

/-! ## Responses -/

section Responses

variable {κ : Type} {build : Nat → κ → Except Raised (SearchHit t)} {canonical : κ → PyStr}

/-- Every accepted item has its hit, which is made of this item and its rank alone, and the ranks are
1 to the number of hits. -/
def Isolates (build : Nat → κ → Except Raised (SearchHit t)) (canonical : κ → PyStr)
    (accepted : List κ) (result : Except Raised (Response t)) : Prop :=
  ∃ response, result = .ok response ∧ response.error = none ∧
    response.hits.map .ok = ranked build 0 accepted ∧
    response.hits.map (·.canonicalUrl) = accepted.map canonical ∧
    response.hits.map (·.rank) = List.range' 1 accepted.length

/-- What a hit takes from its place. -/
def Placed (build : Nat → κ → Except Raised (SearchHit t)) (canonical : κ → PyStr) : Prop :=
  ∀ n found hit, build n found = .ok hit → hit.rank = n ∧ hit.canonicalUrl = canonical found

theorem placed_hits (hplaced : Placed build canonical) {accepted : List κ} {n : Nat}
    {hits : List (SearchHit t)} (h : hits.map .ok = ranked build n accepted) :
    hits.map (·.canonicalUrl) = accepted.map canonical ∧
      hits.map (·.rank) = List.range' (n + 1) accepted.length := by
  induction accepted generalizing n hits with
  | nil =>
    obtain rfl := List.map_eq_nil_iff.mp h
    exact ⟨rfl, rfl⟩
  | cons found rest ih =>
    rw [ranked_cons] at h
    cases hits with
    | nil => exact nomatch h
    | cons hit hits =>
      obtain ⟨hhit, hrest⟩ := List.cons.inj h
      obtain ⟨hrank, hurl⟩ := hplaced _ _ _ hhit.symm
      obtain ⟨hurls, hranks⟩ := ih hrest
      rw [List.map_cons, List.map_cons, List.map_cons, hrank, hurl, hurls, hranks,
        List.length_cons, List.range'_succ]
      exact ⟨rfl, rfl⟩

/-- **A response that is gathered isolates its items** exactly where all of them fit. -/
theorem isolates_iff {ι : Type} {accept : ι → Option κ} {fits : κ → Prop} {raws : List ι}
    {result : Except Raised (Response t)} (hplaced : Placed build canonical)
    (hbuild : ∀ found ∈ raws.filterMap accept, ∀ n,
      (∃ hit, build (n + 1) found = .ok hit) ↔ fits found)
    (hok : ∀ hits, gather accept build raws [] = .ok hits →
      ∃ count, result = .ok { hits := hits, rawHitCount := count }) :
    Isolates build canonical (raws.filterMap accept) result ↔
      ∀ found ∈ raws.filterMap accept, fits found := by
  rw [← exists_hits_iff hbuild 0]
  constructor
  · rintro ⟨response, -, -, hhits, -⟩
    exact ⟨response.hits, hhits⟩
  · rintro ⟨hits, hhits⟩
    have hgather : gather accept build raws [] = .ok hits :=
      gather_ok_iff.mpr ⟨hits, rfl, hhits⟩
    obtain ⟨count, hresult⟩ := hok hits hgather
    obtain ⟨hurls, hranks⟩ := placed_hits hplaced hhits
    exact ⟨_, hresult, rfl, hhits, hurls, hranks⟩

end Responses

/-- How floats behave: the scores the code makes up itself are scores a hit may have. -/
structure FloatText.Lawful (f : FloatText δ) : Prop where
  one : f.finite f.one = true ∧ f.negative f.one = false
  inverse : ∀ n, f.finite (f.inverse (n + 1)) = true ∧ f.negative (f.inverse (n + 1)) = false

theorem make_ok {fields : HitFields δ} {hit : SearchHit t} (h : SearchHit.make t fields = .ok hit) :
    hit.toHitFields = fields := by
  rw [SearchHit.make] at h
  split at h
  · rw [← Except.ok.inj h]
  · exact nomatch h

theorem exists_make_iff {fields : HitFields δ} :
    (∃ hit, SearchHit.make t fields = .ok hit) ↔ fields.Valid t := by
  rw [SearchHit.make]
  constructor
  · rintro ⟨hit, hhit⟩
    split at hhit
    case isTrue hvalid => exact hvalid
    case isFalse => exact nomatch hhit
  · exact fun hvalid => ⟨_, dif_pos hvalid⟩

/-! ## SearXNG -/

namespace Searxng

/-- The score is one a hit may have. -/
def Good (t : ProviderText δ) (x : δ) : Prop :=
  t.floats.finite x = true ∧ t.floats.negative x = false

/-- What stands under `score` becomes a score a hit may have, or counts as not given. -/
def ScoreFits (t : ProviderText δ) : Option (PyJson δ) → Prop
  | none | some (.bool _) => True
  | some (.real x) => Good t x
  | some (.int n) => ∃ x ∈ t.floats.ofInt n, Good t x
  | some (.str s) => ∃ x ∈ t.floats.ofText s, Good t x
  | some .null | some (.arr _) | some (.obj _) => False

/-- The item has no field that raises: its score fits, and its date, if it can be read, has a time
zone. -/
structure Fits (t : ProviderText δ) (found : Found δ) : Prop where
  score : ScoreFits t (given t found.raw "score")
  date : ∀ date ∈ given t found.raw "publishedDate", ∀ at' ∈ t.fromisoformat (str t date),
    at'.aware = true

theorem accept_spec {raw : PyJson δ} {found : Found δ} (h : accept t raw = some found) :
    t.canonicalizeUrl found.url = some found.canonical := by
  cases raw with
  | obj members =>
    obtain ⟨url, -, h⟩ := Option.bind_eq_some_iff.mp h
    obtain ⟨canonical, hcanonical, rfl⟩ := Option.map_eq_some_iff.mp h
    exact hcanonical
  | _ => exact nomatch h

/-- Whether there is a score, and it is one a hit may have. -/
theorem score_fits_iff (ht : t.floats.Lawful) (value : Option (PyJson δ)) (n : Nat) :
    (∃ x, score t (n + 1) value = .ok x ∧ Good t x) ↔ ScoreFits t value := by
  have hoption : ∀ {o : Option δ} {e : Raised},
      (∃ x, o.elim (Except.error e) Except.ok = .ok x ∧ Good t x) ↔ ∃ x ∈ o, Good t x := by
    intro o e
    cases o with
    | none => exact iff_of_false (fun ⟨_, hx, _⟩ => nomatch hx) fun ⟨_, hx, _⟩ => nomatch hx
    | some y =>
      constructor
      · rintro ⟨x, hx, hgood⟩
        exact ⟨x, congrArg some (Except.ok.inj hx), hgood⟩
      · rintro ⟨x, hx, hgood⟩
        exact ⟨x, congrArg Except.ok (Option.some.inj hx), hgood⟩
  cases value with
  | none => exact ⟨fun _ => trivial, fun _ => ⟨_, rfl, ht.inverse n⟩⟩
  | some value =>
    cases value with
    | str s => exact hoption
    | int m => exact hoption
    | real x => exact ⟨fun ⟨y, hy, hgood⟩ => Except.ok.inj hy ▸ hgood, fun h => ⟨x, rfl, h⟩⟩
    | bool b => exact ⟨fun _ => trivial, fun _ => ⟨_, rfl, ht.one⟩⟩
    | null => exact iff_of_false (fun ⟨_, hx, _⟩ => nomatch hx) id
    | arr items => exact iff_of_false (fun ⟨_, hx, _⟩ => nomatch hx) id
    | obj members => exact iff_of_false (fun ⟨_, hx, _⟩ => nomatch hx) id

/-- **An accepted item has a hit exactly where it fits.** -/
theorem build_ok_iff (ht : t.floats.Lawful) (query : DiscoveryQuery) {found : Found δ}
    (hurl : t.canonicalizeUrl found.url = some found.canonical) (n : Nat) :
    (∃ hit, build t query (n + 1) found = .ok hit) ↔ Fits t found := by
  have hname : Text.isBlank "searxng" = false := by decide
  have hdate : (∀ at' ∈ published t found.raw, at'.aware = true) ↔
      ∀ date ∈ given t found.raw "publishedDate", ∀ at' ∈ t.fromisoformat (str t date),
        at'.aware = true := by
    simp only [published, Option.mem_def, Option.bind_eq_some_iff]
    exact ⟨fun h date hd at' ha => h at' ⟨date, hd, ha⟩, fun h at' ⟨date, hd, ha⟩ => h date hd at' ha⟩
  constructor
  · rintro ⟨hit, hhit⟩
    obtain ⟨x, hx, hhit⟩ := bind_ok_iff.mp hhit
    obtain ⟨-, -, hgood, hpublished⟩ := exists_make_iff.mp ⟨hit, hhit⟩
    exact ⟨(score_fits_iff ht _ n).mp ⟨x, hx, hgood⟩, hdate.mp hpublished⟩
  · intro hfits
    obtain ⟨x, hx, hgood⟩ := (score_fits_iff ht _ n).mpr hfits.score
    obtain ⟨hit, hhit⟩ := exists_make_iff.mpr (show HitFields.Valid t
      { provider := "searxng", queryKey := query.key, rank := n + 1, url := found.url,
        canonicalUrl := found.canonical
        title := (given t found.raw "title").elim found.canonical (str t)
        snippet := (given t found.raw "content").elim [] (str t)
        score := x, publishedAt := published t found.raw } from
      ⟨Nat.succ_pos n, ⟨hname, query.required.1, strip_ne_nil hurl⟩, hgood, hdate.mpr hfits.date⟩)
    exact ⟨hit, bind_ok_iff.mpr ⟨x, hx, hhit⟩⟩

theorem placed_build (query : DiscoveryQuery) : Placed (build t query) Found.canonical := by
  intro n found hit h
  obtain ⟨x, -, h⟩ := bind_ok_iff.mp h
  have hfields := make_ok h
  exact ⟨congrArg HitFields.rank hfields, congrArg HitFields.canonicalUrl hfields⟩

/-- **SearXNG's items are isolated** exactly where all accepted ones fit. -/
theorem search_isolates_iff (ht : t.floats.Lawful) (query : DiscoveryQuery) (maxResults : Nat)
    {payload : List (PyStr × PyJson δ)} {raws : List (PyJson δ)}
    (h : payload.lookup (PyStr.ofString "results") = some (.arr raws)) :
    Isolates (build t query) Found.canonical ((raws.take maxResults).filterMap (accept t))
        (search t query maxResults (.ok (some (.obj payload)))) ↔
      ∀ found ∈ (raws.take maxResults).filterMap (accept t), Fits t found := by
  have hparse : parse t query maxResults (.obj payload) =
      (gather (accept t) (build t query) (raws.take maxResults) []).bind fun hits =>
        .ok { hits := hits, rawHitCount := raws.length } := by
    rw [parse, h]
    rfl
  refine isolates_iff (placed_build query) (fun found hfound n => ?_) fun hits hhits => ?_
  · obtain ⟨raw, -, hraw⟩ := List.mem_filterMap.mp hfound
    exact build_ok_iff ht query (accept_spec hraw) n
  · refine ⟨raws.length, ?_⟩
    rw [search]
    simp only [hparse, hhits, Except.bind]

end Searxng

/-! ## Bing -/

namespace Bing

/-- The item has no field that raises: its description can be unescaped, and its date has a time zone
or cannot be read in one of the ways that are expected. -/
structure Fits (t : ProviderText δ) (found : Found) : Prop where
  description : ∃ text, t.unescape (found.item.description.getD []) = .ok text
  date : ∀ date ∈ found.item.pubDate.filter (· ≠ []),
    (∀ at', t.parsedate date = .ok at' → at'.aware = true) ∧
      ∀ e, t.parsedate date = .error e → e = .typeError ∨ e = .valueError

theorem accept_spec {item : Item} {found : Found} (h : accept t item = some found) :
    t.canonicalizeUrl found.url = some found.canonical := by
  rw [accept] at h
  split at h
  · exact nomatch h
  · obtain ⟨canonical, hcanonical, rfl⟩ := Option.map_eq_some_iff.mp h
    exact hcanonical

/-- Whether there is a publication time, and it is one a hit may have. -/
theorem published_fits_iff (item : Item) :
    (∃ at', published t item = .ok at' ∧ ∀ published ∈ at', published.aware = true) ↔
      ∀ date ∈ item.pubDate.filter (· ≠ []),
        (∀ at', t.parsedate date = .ok at' → at'.aware = true) ∧
          ∀ e, t.parsedate date = .error e → e = .typeError ∨ e = .valueError := by
  rw [published]
  cases item.pubDate.filter (· ≠ []) with
  | none =>
    refine ⟨fun _ date hd => ?_, fun _ => ⟨none, rfl, fun at' ha => ?_⟩⟩
    · exact nomatch hd
    · exact nomatch ha
  | some date =>
    simp only [Option.mem_def, Option.some.injEq, forall_eq']
    cases t.parsedate date with
    | ok at' => simp
    | error e => cases e <;> simp

/-- **An accepted item has a hit exactly where it fits.** -/
theorem build_ok_iff (ht : t.floats.Lawful) (query : DiscoveryQuery) {found : Found}
    (hurl : t.canonicalizeUrl found.url = some found.canonical) (n : Nat) :
    (∃ hit, build t query (n + 1) found = .ok hit) ↔ Fits t found := by
  have hname : Text.isBlank "bing_rss" = false := by decide
  constructor
  · rintro ⟨hit, hhit⟩
    obtain ⟨description, hdescription, hhit⟩ := bind_ok_iff.mp hhit
    obtain ⟨at', hat, hhit⟩ := bind_ok_iff.mp hhit
    obtain ⟨-, -, -, hpublished⟩ := exists_make_iff.mp ⟨hit, hhit⟩
    exact ⟨⟨description, hdescription⟩, (published_fits_iff _).mp ⟨at', hat, hpublished⟩⟩
  · rintro ⟨⟨description, hdescription⟩, hdate⟩
    obtain ⟨at', hat, hpublished⟩ := (published_fits_iff _).mpr hdate
    obtain ⟨hit, hhit⟩ := exists_make_iff.mpr (show HitFields.Valid t
      { provider := "bing_rss", queryKey := query.key, rank := n + 1, url := found.url,
        canonicalUrl := found.canonical
        title := strip ((found.item.title.filter (· ≠ [])).getD found.canonical)
        snippet := squeeze (stripTags none description)
        score := t.floats.inverse (n + 1), publishedAt := at' } from
      ⟨Nat.succ_pos n, ⟨hname, query.required.1, strip_ne_nil hurl⟩, ht.inverse n, hpublished⟩)
    exact ⟨hit, bind_ok_iff.mpr ⟨description, hdescription, bind_ok_iff.mpr ⟨at', hat, hhit⟩⟩⟩

theorem placed_build (query : DiscoveryQuery) : Placed (build t query) Found.canonical := by
  intro n found hit h
  obtain ⟨description, -, h⟩ := bind_ok_iff.mp h
  obtain ⟨at', -, h⟩ := bind_ok_iff.mp h
  have hfields := make_ok h
  exact ⟨congrArg HitFields.rank hfields, congrArg HitFields.canonicalUrl hfields⟩

/-- **Bing's items are isolated** exactly where all accepted ones fit. -/
theorem search_isolates_iff (ht : t.floats.Lawful) (query : DiscoveryQuery) (maxResults : Nat)
    (items : List Item) :
    Isolates (build t query) Found.canonical ((items.take maxResults).filterMap (accept t))
        (search t query maxResults (.ok (some items))) ↔
      ∀ found ∈ (items.take maxResults).filterMap (accept t), Fits t found := by
  refine isolates_iff (placed_build query) (fun found hfound n => ?_) fun hits hhits => ?_
  · obtain ⟨item, -, hitem⟩ := List.mem_filterMap.mp hfound
    exact build_ok_iff ht query (accept_spec hitem) n
  · refine ⟨items.length, ?_⟩
    rw [search]
    simp only [hhits, bind, Except.bind]
    rfl

end Bing

/-- **Providers isolate their items exactly where no accepted item has a field that raises.** -/
theorem providers_isolate_iff (ht : t.floats.Lawful) (query : DiscoveryQuery) (maxResults : Nat) :
    (∀ payload raws, payload.lookup (PyStr.ofString "results") = some (.arr raws) →
      (Isolates (Searxng.build t query) Searxng.Found.canonical
          ((raws.take maxResults).filterMap (Searxng.accept t))
          (Searxng.search t query maxResults (.ok (some (.obj payload)))) ↔
        ∀ found ∈ (raws.take maxResults).filterMap (Searxng.accept t), Searxng.Fits t found)) ∧
    ∀ items, (Isolates (Bing.build t query) Bing.Found.canonical
          ((items.take maxResults).filterMap (Bing.accept t))
          (Bing.search t query maxResults (.ok (some items))) ↔
        ∀ found ∈ (items.take maxResults).filterMap (Bing.accept t), Bing.Fits t found) :=
  ⟨fun _ _ h => Searxng.search_isolates_iff ht query maxResults h,
    fun items => Bing.search_isolates_iff ht query maxResults items⟩

/-! ## Samples -/

/-- Floats without rounding, and dates of the new year 2024 only. -/
def sampleText : ProviderText Rat where
  url := asciiText
  loneUrl := fun _ => none
  floats := {
    finite := fun _ => true
    negative := fun x => x < 0
    zero := fun x => x = 0
    one := 1
    inverse := fun n => 1 / n
    ofInt := fun n => some n
    ofText := fun _ => none }
  str := fun _ => []
  fromisoformat text :=
    if text = PyStr.ofString "2024-01-01T00:00:00" then some ⟨1704067200000000, false⟩
    else if text = PyStr.ofString "2024-01-01T00:00:00Z" then some ⟨1704067200000000, true⟩
    else none
  parsedate text :=
    if text = PyStr.ofString "Mon, 01 Jan 2024 00:00:00 -0000" then
      .ok ⟨1704067200000000, false⟩
    else .error .valueError
  unescape := .ok

theorem sampleText_lawful : sampleText.floats.Lawful where
  one := by decide
  inverse n := by
    refine ⟨rfl, decide_eq_false ?_⟩
    exact not_lt.mpr (div_nonneg zero_le_one (Nat.cast_nonneg _))

def sampleQuery : DiscoveryQuery :=
  { key := "q", text := "q", locale := "en", required := by decide }

/-- `{"url": url, "publishedDate": date}`. -/
def sampleItem (url date : String) : PyJson Rat :=
  .obj [(PyStr.ofString "url", .str (PyStr.ofString url)),
    (PyStr.ofString "publishedDate", .str (PyStr.ofString date))]

def samplePayload (date : String) : List (PyStr × PyJson Rat) :=
  [(PyStr.ofString "results", .arr [sampleItem "http://a/" date, sampleItem "http://b/" ""])]

theorem sample_fits {url date : String} {found : Searxng.Found Rat}
    (hdate : ∀ at' ∈ sampleText.fromisoformat (PyStr.ofString date), at'.aware = true)
    (h : Searxng.accept sampleText (sampleItem url date) = some found) :
    Searxng.Fits sampleText found := by
  obtain ⟨value, -, h⟩ := Option.bind_eq_some_iff.mp h
  obtain ⟨canonical, -, rfl⟩ := Option.map_eq_some_iff.mp h
  have hscore : Searxng.given sampleText [(PyStr.ofString "url", .str (PyStr.ofString url)),
      (PyStr.ofString "publishedDate", .str (PyStr.ofString date))] "score" = none := rfl
  have hgiven : Searxng.given sampleText [(PyStr.ofString "url", .str (PyStr.ofString url)),
      (PyStr.ofString "publishedDate", .str (PyStr.ofString date))] "publishedDate" =
        (some (.str (PyStr.ofString date))).filter (Searxng.truthy sampleText) := rfl
  refine ⟨?_, fun given hgiven' => ?_⟩
  · rw [hscore]
    trivial
  · rw [hgiven] at hgiven'
    obtain rfl := Option.some.inj (Option.filter_eq_some_iff.mp hgiven').1
    exact hdate

/-- A date with a time zone. -/
theorem sample_isolates :
    Isolates (Searxng.build sampleText sampleQuery) Searxng.Found.canonical
      (([sampleItem "http://a/" "2024-01-01T00:00:00Z", sampleItem "http://b/" ""].take 10).filterMap
        (Searxng.accept sampleText))
      (Searxng.search sampleText sampleQuery 10
        (.ok (some (.obj (samplePayload "2024-01-01T00:00:00Z"))))) := by
  refine ((providers_isolate_iff sampleText_lawful sampleQuery 10).1 _ _ rfl).mpr
    fun found hfound => ?_
  obtain ⟨raw, hraw, hfound⟩ := List.mem_filterMap.mp hfound
  have hdates : ∀ date ∈ ["2024-01-01T00:00:00Z", ""],
      ∀ at' ∈ sampleText.fromisoformat (PyStr.ofString date), at'.aware = true := by decide +kernel
  simp only [List.take, List.mem_cons, List.not_mem_nil, or_false] at hraw
  rcases hraw with rfl | rfl
  · exact sample_fits (hdates _ List.mem_cons_self) hfound
  · exact sample_fits (hdates _ (List.mem_cons_of_mem _ List.mem_cons_self)) hfound

/-- A date without a time zone costs both items of SearXNG their hits, and it raises in Bing. -/
theorem naive_date_discards :
    ([sampleItem "http://a/" "2024-01-01T00:00:00", sampleItem "http://b/" ""].filterMap
        (Searxng.accept sampleText)).length = 2 ∧
      ((Searxng.search sampleText sampleQuery 10
        (.ok (some (.obj (samplePayload "2024-01-01T00:00:00"))))).toOption.map
          (·.hits.length)) = some 0 ∧
      (Bing.search sampleText sampleQuery 10 (.ok (some
        [⟨some (PyStr.ofString "http://a/"), none,
          some (PyStr.ofString "Mon, 01 Jan 2024 00:00:00 -0000"), none⟩,
        ⟨some (PyStr.ofString "http://b/"), none, none, none⟩]))).toOption.isNone = true := by
  decide +kernel

end Sana.Discovery.Providers
