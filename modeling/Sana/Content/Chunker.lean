import Mathlib.Order.Lattice
import Sana.Shared.Json

/-!
# Chunks of a document

`DocumentChunker.chunk` goes over a text with a window. Where there is more text behind the window,
its end is taken back to the end of a line or of a sentence in its second half, and the next window
starts a little in front of that end.
-/

namespace Sana.Content

/-- `DocumentChunk`; its hash is that of its text. -/
structure DocumentChunk where
  ordinal : Nat
  text : String
  textHash : String
  tokenCount : Nat
  startOffset : Nat
  endOffset : Nat
deriving DecidableEq, Repr

/-- What the chunker uses of Unicode's tables and of `hashlib`. -/
structure ChunkerText where
  /-- `\w`. -/
  isWord : Char → Bool
  /-- Hex digest of a text's UTF-8 bytes. -/
  sha256 : String → String

/-- `DocumentChunker`, with the check of its constructor. -/
structure DocumentChunker where
  max : Nat := 1800
  overlap : Nat := 200
  valid : 100 ≤ max ∧ overlap < max := by decide

/-- `len(re.findall(r"[\w]+|[\u3400-\u9fff]", text))`; `inWord` if a word is going on. -/
def tokenCount (isWord : Char → Bool) (inWord : Bool) : List Char → Nat
  | [] => 0
  | c :: cs =>
      if isWord c then (if inWord then 0 else 1) + tokenCount isWord true cs
      else (if '\u3400' ≤ c ∧ c ≤ '\u9fff' then 1 else 0) + tokenCount isWord false cs

/-- `text.rfind(sub, start, stop)`, `none` for `-1`. -/
def rfind (text sub : List Char) (start stop : Nat) : Option Nat :=
  (List.range stop).reverse.find? fun i =>
    decide (start ≤ i) && decide (i + sub.length ≤ stop) && sub.isPrefixOf (text.drop i)

namespace DocumentChunker

variable (chunker : DocumentChunker) (t : ChunkerText) (text : List Char)

/-- `boundary`: the last place in the second half of the window at which a line or a sentence ends. -/
def boundary (start hardEnd : Nat) : Option Nat :=
  ([rfind text ['\n'] (start + chunker.max / 2) hardEnd,
    rfind text ['。'] (start + chunker.max / 2) hardEnd,
    rfind text ['.', ' '] (start + chunker.max / 2) hardEnd].filterMap id).max?

/-- `end`. -/
def windowEnd (start : Nat) : Nat :=
  let hardEnd := min text.length (start + chunker.max)
  if hardEnd < text.length then
    match chunker.boundary text start hardEnd with
    | some boundary => if boundary > start then boundary + 1 else hardEnd
    | none => hardEnd
  else hardEnd

/-- The chunk of a window. -/
def window (start ordinal : Nat) : DocumentChunk where
  ordinal := ordinal
  text := String.ofList ((text.take (chunker.windowEnd text start)).drop start)
  textHash := t.sha256 (String.ofList ((text.take (chunker.windowEnd text start)).drop start))
  tokenCount := tokenCount t.isWord false ((text.take (chunker.windowEnd text start)).drop start)
  startOffset := start
  endOffset := chunker.windowEnd text start

/-- Where the next window starts. -/
def nextStart (start : Nat) : Nat :=
  Max.max (start + 1) (chunker.windowEnd text start - chunker.overlap)

/-- The loop of `chunk`: every turn starts further behind. -/
def chunkFrom (start ordinal : Nat) : List DocumentChunk :=
  if start < text.length then
    chunker.window t text start ordinal ::
      if chunker.windowEnd text start = text.length then []
      else chunkFrom (chunker.nextStart text start) (ordinal + 1)
  else []
termination_by text.length - start
decreasing_by
  have : start + 1 ≤ chunker.nextStart text start := le_max_left _ _
  omega

/-- `DocumentChunker.chunk`. -/
def chunk (text : String) : List DocumentChunk := chunker.chunkFrom t text.toList 0 0

end DocumentChunker

end Sana.Content
