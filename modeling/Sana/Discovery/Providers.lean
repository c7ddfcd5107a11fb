import Sana.Discovery.CanonicalUrl
import Sana.Discovery.Service
import Sana.Lib.PyDumps

/-!
# What providers make of a payload

`SearxngProvider.search` and `BingRssProvider.search`, after the payload has been fetched: one loop
over the first items, which passes over items without a URL that `canonicalize_url` accepts and makes
a hit of every other. What raises in between ends the loop.
-/

namespace Sana.Discovery.Providers

open Sana.Lib

/-- Exceptions that are no `TypedError`. -/
inductive Raised
  | valueError | typeError | overflowError | attributeError
deriving DecidableEq, Repr

/-- `datetime`. -/
structure DateTime where
  instant : Time
  aware : Bool
deriving DecidableEq, Repr

/-! ## Strings -/

/-- A code point that `strip` and `split` take for white space. -/
def isSpace : CodePoint → Bool
  | .scalar c => Text.isSpace c
  | .lone _ => false

/-- `text.strip()`. -/
def strip (text : PyStr) : PyStr := (text.dropWhile isSpace).rdropWhile isSpace

/-- `" ".join(text.split())`. -/
def squeeze (text : PyStr) : PyStr :=
  [.scalar ' '].intercalate ((text.splitOnP isSpace).filter (· ≠ []))

/-- `_HTML_TAG.sub(" ", text)`; `inside` is what follows a `<` that is not known to open a tag yet. -/
def stripTags : Option PyStr → PyStr → PyStr
  | none, [] => []
  | some inside, [] => .scalar '<' :: inside
  | none, c :: cs => if c = .scalar '<' then stripTags (some []) cs else c :: stripTags none cs
  | some inside, c :: cs =>
      if c = .scalar '>' then
        if inside = [] then .scalar '<' :: .scalar '>' :: stripTags none cs
        else .scalar ' ' :: stripTags none cs
      else stripTags (some (inside ++ [c])) cs

/-! ## What the parsers call -/

/-- Floats, and how values become floats. -/
structure FloatText (δ : Type) where
  finite : δ → Bool
  negative : δ → Bool
  zero : δ → Bool
  /-- `1.0`. -/
  one : δ
  /-- `1.0 / n`. -/
  inverse : Nat → δ
  /-- `float(n)`, `none` for an `OverflowError`. -/
  ofInt : Int → Option δ
  /-- `float(text)`, `none` for a `ValueError`. -/
  ofText : PyStr → Option δ

structure ProviderText (δ : Type) where
  url : UrlText
  /-- `canonicalize_url` of a string that is no Unicode text. -/
  loneUrl : PyStr → Option PyStr
  floats : FloatText δ
  /-- `str(value)` of a value that is no string. -/
  str : PyJson δ → PyStr
  /-- `datetime.fromisoformat(text.replace("Z", "+00:00"))`, `none` for a `ValueError`. -/
  fromisoformat : PyStr → Option DateTime
  /-- `parsedate_to_datetime(text)`. -/
  parsedate : PyStr → Except Raised DateTime
  /-- `html.unescape(text)`, which raises for numbers of too many digits. -/
  unescape : PyStr → Except Raised PyStr

variable {δ : Type} (t : ProviderText δ)

namespace ProviderText

/-- `canonicalize_url`, `none` for a `ValueError`. -/
def canonicalizeUrl (url : PyStr) : Option PyStr :=
  match url.chars? with
  | some cs => (t.url.canonicalizeUrl cs).map PyStr.ascii
  | none => t.loneUrl url

end ProviderText

/-! ## Hits -/

/-- The fields of a `SearchHit`. -/
structure HitFields (δ : Type) where
  provider : String
  queryKey : String
  rank : Nat
  url : PyStr
  canonicalUrl : PyStr
  title : PyStr
  snippet : PyStr
  score : δ
  publishedAt : Option DateTime := none

/-- `SearchHit.__post_init__`. -/
def HitFields.Valid (hit : HitFields δ) : Prop :=
  1 ≤ hit.rank ∧
  (Text.isBlank hit.provider = false ∧ Text.isBlank hit.queryKey = false ∧ strip hit.url ≠ []) ∧
  (t.floats.finite hit.score = true ∧ t.floats.negative hit.score = false) ∧
  ∀ published ∈ hit.publishedAt, published.aware = true

instance (hit : HitFields δ) : Decidable (hit.Valid t) := inferInstanceAs (Decidable (_ ∧ _ ∧ _ ∧ _))

/-- `SearchHit`. -/
structure SearchHit extends HitFields δ where
  valid : toHitFields.Valid t

/-- `SearchHit(...)`. -/
def SearchHit.make (hit : HitFields δ) : Except Raised (SearchHit t) :=
  if h : hit.Valid t then .ok ⟨hit, h⟩ else .error .valueError

/-- `ProviderResponse`, without its measurements. -/
structure Response where
  hits : List (SearchHit t)
  error : Option TypedError := none
  rawHitCount : Nat := 0

/-- The loop of both providers: items that are not accepted are passed over, and what is made of the
others is appended. -/
def gather {ι κ η : Type} (accept : ι → Option κ) (build : Nat → κ → Except Raised η) :
    List ι → List η → Except Raised (List η)
  | [], hits => .ok hits
  | raw :: rest, hits =>
      match accept raw with
      | none => gather accept build rest hits
      | some found => do
          let hit ← build (hits.length + 1) found
          gather accept build rest (hits ++ [hit])

/-! ## SearXNG -/

namespace Searxng

/-- `bool(value)`. -/
def truthy : PyJson δ → Bool
  | .null => false
  | .bool b => b
  | .int n => n ≠ 0
  | .real x => !t.floats.zero x
  | .str s => s ≠ []
  | .arr items => !items.isEmpty
  | .obj members => !members.isEmpty

/-- `raw.get(key)`, where it counts as given. -/
def given (raw : List (PyStr × PyJson δ)) (key : String) : Option (PyJson δ) :=
  (raw.lookup (PyStr.ofString key)).filter (truthy t)

/-- `str(value)`. -/
def str : PyJson δ → PyStr
  | .str s => s
  | value => t.str value

/-- An item with a URL that is accepted. -/
structure Found (δ : Type) where
  raw : List (PyStr × PyJson δ)
  url : PyStr
  canonical : PyStr

def accept : PyJson δ → Option (Found δ)
  | .obj raw =>
      (given t raw "url").bind fun url =>
        (t.canonicalizeUrl (str t url)).map fun canonical => ⟨raw, str t url, canonical⟩
  | _ => none

/-- The publication time of an item, if it has one that can be read. -/
def published (raw : List (PyStr × PyJson δ)) : Option DateTime :=
  (given t raw "publishedDate").bind fun date => t.fromisoformat (str t date)

/-- `float(raw.get("score") or (1.0 / rank))`. -/
def score (rank : Nat) : Option (PyJson δ) → Except Raised δ
  | none => .ok (t.floats.inverse rank)
  | some (.str s) => (t.floats.ofText s).elim (.error .valueError) .ok
  | some (.int n) => (t.floats.ofInt n).elim (.error .overflowError) .ok
  | some (.real x) => .ok x
  | some (.bool _) => .ok t.floats.one
  | some _ => .error .typeError

/-- The hit of an item. -/
def build (query : DiscoveryQuery) (rank : Nat) (found : Found δ) : Except Raised (SearchHit t) := do
  let score ← score t rank (given t found.raw "score")
  SearchHit.make t {
    provider := "searxng"
    queryKey := query.key
    rank := rank
    url := found.url
    canonicalUrl := found.canonical
    title := (given t found.raw "title").elim found.canonical (str t)
    snippet := (given t found.raw "content").elim [] (str t)
    score := score
    publishedAt := published t found.raw }

/-- What is made of a payload. -/
def parse (query : DiscoveryQuery) (maxResults : Nat) : PyJson δ → Except Raised (Response t)
  | .obj payload =>
      match (payload.lookup (PyStr.ofString "results")).getD (.arr []) with
      | .arr rawResults => do
          let hits ← gather (accept t) (build t query) (rawResults.take maxResults) []
          return { hits := hits, rawHitCount := rawResults.length }
      | _ => .error .valueError
  | _ => .error .attributeError

/-- `search`, of what was fetched: an error, or what `json.loads` made of the content. -/
def search (query : DiscoveryQuery) (maxResults : Nat)
    (fetched : Except TypedError (Option (PyJson δ))) : Except Raised (Response t) :=
  let invalid : Response t := {
    hits := []
    error := some ⟨.content, "invalid_searxng_response", "SearXNG returned invalid JSON data", false⟩ }
  match fetched with
  | .error error => .ok { hits := [], error := some error }
  | .ok none => .ok invalid
  | .ok (some payload) =>
      match parse t query maxResults payload with
      | .error .valueError | .error .typeError => .ok invalid
      | result => result

end Searxng

/-! ## Bing -/

namespace Bing

/-- An `item` of the feed, with the texts of its children. -/
structure Item where
  link : Option PyStr
  description : Option PyStr
  pubDate : Option PyStr
  title : Option PyStr
deriving DecidableEq, Repr

/-- An item with a URL that is accepted. -/
structure Found where
  item : Item
  url : PyStr
  canonical : PyStr

def accept (item : Item) : Option Found :=
  let url := strip (item.link.getD [])
  if url = [] then none else (t.canonicalizeUrl url).map fun canonical => ⟨item, url, canonical⟩

/-- The publication time of an item; what cannot be read is passed over, an overflow is not. -/
def published (item : Item) : Except Raised (Option DateTime) :=
  match item.pubDate.filter (· ≠ []) with
  | none => .ok none
  | some date =>
    match t.parsedate date with
    | .ok at' => .ok (some at')
    | .error .typeError | .error .valueError => .ok none
    | .error e => .error e

/-- The hit of an item. -/
def build (query : DiscoveryQuery) (rank : Nat) (found : Found) : Except Raised (SearchHit t) := do
  let description ← t.unescape (found.item.description.getD [])
  let publishedAt ← published t found.item
  SearchHit.make t {
    provider := "bing_rss"
    queryKey := query.key
    rank := rank
    url := found.url
    canonicalUrl := found.canonical
    title := strip ((found.item.title.filter (· ≠ [])).getD found.canonical)
    snippet := squeeze (stripTags none description)
    score := t.floats.inverse rank
    publishedAt := publishedAt }

/-- `search`, of what was fetched: an error, or the items of the feed (`none` for a `ParseError`). -/
def search (query : DiscoveryQuery) (maxResults : Nat)
    (fetched : Except TypedError (Option (List Item))) : Except Raised (Response t) :=
  match fetched with
  | .error error => .ok { hits := [], error := some error }
  | .ok none => .ok {
      hits := []
      error := some ⟨.content, "invalid_bing_rss", "Bing returned invalid RSS", false⟩ }
  | .ok (some items) => do
      let hits ← gather (accept t) (build t query) (items.take maxResults) []
      return { hits := hits, rawHitCount := items.length }

end Bing

end Sana.Discovery.Providers
