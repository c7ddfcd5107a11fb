import Sana.Shared.Words

/-!
# The visible text of a page

`_VisibleTextParser` gets a page as start tags, end tags and data. It counts the open elements that
are not shown and keeps a flag for titles; the two know nothing of each other.
-/

namespace Sana.Content

/-- What `HTMLParser` reports of a page; attributes are not looked at. -/
inductive MarkupEvent where
  | startTag (tag : String)
  | endTag (tag : String)
  | data (data : String)
deriving DecidableEq, Repr

/-- `_IGNORED`. -/
def ignoredTags : List String := ["script", "style", "noscript", "svg", "nav", "footer"]

/-- `_VisibleTextParser`. -/
structure VisibleTextParser where
  ignoredDepth : Nat := 0
  textParts : List String := []
  titleParts : List String := []
  inTitle : Bool := false
deriving DecidableEq, Repr

namespace VisibleTextParser

-- `str.lower`
variable (lower : String → String) (p : VisibleTextParser)

/-- `handle_starttag`. -/
def handleStarttag (tag : String) : VisibleTextParser :=
  { p with
    ignoredDepth := if lower tag ∈ ignoredTags then p.ignoredDepth + 1 else p.ignoredDepth
    inTitle := if lower tag = "title" then true else p.inTitle }

/-- `handle_endtag`. -/
def handleEndtag (tag : String) : VisibleTextParser :=
  { p with
    ignoredDepth :=
      if lower tag ∈ ignoredTags ∧ p.ignoredDepth ≠ 0 then p.ignoredDepth - 1 else p.ignoredDepth
    inTitle := if lower tag = "title" then false else p.inTitle }

/-- `handle_data`. -/
def handleData (data : String) : VisibleTextParser :=
  let normalized := Text.squeeze data
  if normalized = "" then p
  else
    { p with
      titleParts := if p.inTitle then p.titleParts ++ [normalized] else p.titleParts
      textParts :=
        if p.ignoredDepth = 0 ∧ p.inTitle = false then p.textParts ++ [normalized]
        else p.textParts }

def handle : MarkupEvent → VisibleTextParser
  | .startTag tag => p.handleStarttag lower tag
  | .endTag tag => p.handleEndtag lower tag
  | .data data => p.handleData data

/-- The parser after a page. -/
def feed (events : List MarkupEvent) : VisibleTextParser := events.foldl (handle lower) {}

end VisibleTextParser

/-! ## The elements of a page -/

/-- A piece of data, the elements that are open around it, innermost first, and whether the last
title tag in front of it is a start tag. -/
structure Place where
  data : String
  openTags : List String
  titleTag : Bool
deriving DecidableEq, Repr

namespace Place

variable (place : Place)

/-- Inside an element that is not shown. -/
def ignored : Bool := place.openTags.any (· ∈ ignoredTags)

def inTitle : Bool := "title" ∈ place.openTags

def blank : Bool := Text.squeeze place.data = ""

end Place

variable (lower : String → String)

/-- Each end tag closes the innermost open element, and at the end none is open. -/
def nested (openTags : List String) : List MarkupEvent → Bool
  | [] => openTags.isEmpty
  | .startTag tag :: events => nested (lower tag :: openTags) events
  | .endTag tag :: events => openTags.head? = some (lower tag) && nested openTags.tail events
  | .data _ :: events => nested openTags events

/-- The data of a page with what is open around it. -/
def placesFrom (openTags : List String) (titleTag : Bool) : List MarkupEvent → List Place
  | [] => []
  | .startTag tag :: events =>
      placesFrom (lower tag :: openTags) (if lower tag = "title" then true else titleTag) events
  | .endTag tag :: events =>
      placesFrom openTags.tail (if lower tag = "title" then false else titleTag) events
  | .data data :: events => ⟨data, openTags, titleTag⟩ :: placesFrom openTags titleTag events

def places (events : List MarkupEvent) : List Place := placesFrom lower [] false events

/-- What a reader of the page sees: data outside titles and outside elements that are not shown. -/
def visible (events : List MarkupEvent) : List String :=
  ((places lower events).filter fun place =>
    !place.blank && !place.ignored && !place.inTitle).map (Text.squeeze ·.data)

/-- The page without the data inside elements that are not shown. -/
def hideFrom (openTags : List String) : List MarkupEvent → List MarkupEvent
  | [] => []
  | .startTag tag :: events => .startTag tag :: hideFrom (lower tag :: openTags) events
  | .endTag tag :: events => .endTag tag :: hideFrom openTags.tail events
  | .data data :: events =>
      if openTags.any (· ∈ ignoredTags) then hideFrom openTags events
      else .data data :: hideFrom openTags events

def hideIgnored (events : List MarkupEvent) : List MarkupEvent := hideFrom lower [] events

end Sana.Content
