import Mathlib.Data.List.Chain
import Sana.Content.Chunker

/-!
# Chunks cover the text

A window ends in its second half or at the end of the text, and the next window starts behind the
start of this one and no later than its end. That is all the loop needs: from it, each chunk is
linked to the next, and the links carry from the start of the text to its end. If the overlap is no
more than half a window, the next window starts exactly that much in front of this one's end.
-/

namespace Sana.Content

variable {chunker : DocumentChunker} {t : ChunkerText} {text : List Char} {start : Nat}

/-! ## A window -/

theorem rfind_spec {sub : List Char} {lo hi i : Nat} (h : rfind text sub lo hi = some i) :
    lo ≤ i ∧ i + sub.length ≤ hi := by
  have hfound := List.find?_some h
  simp only [Bool.and_eq_true, decide_eq_true_eq] at hfound
  exact hfound.1

theorem boundary_spec {hi i : Nat} (h : chunker.boundary text start hi = some i) :
    start + chunker.max / 2 ≤ i ∧ i + 1 ≤ hi := by
  have hmem := List.max?_mem h
  obtain ⟨found, hfound, hi⟩ := List.mem_filterMap.mp hmem
  obtain rfl : found = some i := hi
  simp only [List.mem_cons, List.not_mem_nil, or_false] at hfound
  rcases hfound with hfound | hfound | hfound
  · exact rfind_spec hfound.symm
  · exact rfind_spec hfound.symm
  · have := rfind_spec hfound.symm
    exact ⟨this.1, (Nat.add_le_add_left (by decide) _).trans this.2⟩

variable (chunker text start) in
/-- **A window ends in its second half, or with the text.** -/
theorem windowEnd_spec :
    chunker.windowEnd text start ≤ text.length ∧
      chunker.windowEnd text start ≤ start + chunker.max ∧
      (start + chunker.max / 2 < chunker.windowEnd text start ∨
        chunker.windowEnd text start = text.length) := by
  have hmax := chunker.valid.1
  rw [DocumentChunker.windowEnd]
  split
  · split
    · rename_i boundary hboundary
      have := boundary_spec hboundary
      split
      · omega
      · omega
    · omega
  · omega

variable (chunker) in
theorem lt_windowEnd (hstart : start < text.length) : start < chunker.windowEnd text start := by
  have := windowEnd_spec chunker text start
  omega

variable (chunker) in
/-- The next window starts behind this one's start, and no later than its end. -/
theorem nextStart_spec (hstart : start < text.length) :
    start < chunker.nextStart text start ∧
      chunker.nextStart text start ≤ chunker.windowEnd text start := by
  have := lt_windowEnd chunker hstart
  rw [DocumentChunker.nextStart]
  omega

/-- With a small overlap it starts exactly that much in front of it. -/
theorem nextStart_overlap (hmore : chunker.windowEnd text start ≠ text.length)
    (hoverlap : 2 * chunker.overlap ≤ chunker.max) :
    chunker.nextStart text start + chunker.overlap = chunker.windowEnd text start := by
  have := windowEnd_spec chunker text start
  rw [DocumentChunker.nextStart]
  omega

/-! ## The loop -/

/-- A chunk is the exact span of the text at its offsets, and of a proper length. -/
def Exact (chunker : DocumentChunker) (text : List Char) (c : DocumentChunk) : Prop :=
  c.text.toList = (text.take c.endOffset).drop c.startOffset ∧ c.endOffset ≤ text.length ∧
    c.startOffset + c.text.length = c.endOffset ∧ 1 ≤ c.text.length ∧ c.text.length ≤ chunker.max

/-- How a chunk is linked to the next one. -/
def Linked (chunker : DocumentChunker) (c next : DocumentChunk) : Prop :=
  c.startOffset < next.startOffset ∧ next.startOffset ≤ c.endOffset ∧
    (2 * chunker.overlap ≤ chunker.max →
      c.endOffset < next.endOffset ∧ next.startOffset + chunker.overlap = c.endOffset)

theorem exact_window (hstart : start < text.length) (ordinal : Nat) :
    Exact chunker text (chunker.window t text start ordinal) := by
  have hend := windowEnd_spec chunker text start
  have hlt := lt_windowEnd chunker hstart
  have hlength : (chunker.window t text start ordinal).text.length
      = chunker.windowEnd text start - start := by
    rw [DocumentChunker.window, String.length_ofList, List.length_drop, List.length_take,
      Nat.min_eq_left hend.1]
  refine ⟨String.toList_ofList, hend.1, ?_, ?_, ?_⟩
  · rw [hlength]
    show start + (chunker.windowEnd text start - start) = chunker.windowEnd text start
    omega
  · omega
  · omega

/-- A window is linked to the next. -/
theorem linked_window (hstart : start < text.length)
    (hmore : chunker.windowEnd text start ≠ text.length) (ordinal ordinal' : Nat) :
    chunker.nextStart text start < text.length ∧
      Linked chunker (chunker.window t text start ordinal)
        (chunker.window t text (chunker.nextStart text start) ordinal') := by
  have hend := windowEnd_spec chunker text start
  have hnext := nextStart_spec chunker hstart
  have hlt : chunker.nextStart text start < text.length := by omega
  refine ⟨hlt, hnext.1, hnext.2, fun hoverlap => ⟨?_, nextStart_overlap hmore hoverlap⟩⟩
  have hback := nextStart_overlap hmore hoverlap
  have hend' := windowEnd_spec chunker text (chunker.nextStart text start)
  show chunker.windowEnd text start
    < chunker.windowEnd text (chunker.nextStart text start)
  omega

variable (chunker t) in
/-- **The chunks from a window on.** -/
theorem chunkFrom_spec (hstart : start < text.length) (ordinal : Nat) :
    ∃ rest, chunker.chunkFrom t text start ordinal
        = chunker.window t text start ordinal :: rest ∧
      (∀ c ∈ chunker.chunkFrom t text start ordinal, Exact chunker text c) ∧
      (chunker.chunkFrom t text start ordinal).IsChain (Linked chunker) ∧
      (chunker.chunkFrom t text start ordinal).map (·.ordinal)
        = List.range' ordinal (chunker.chunkFrom t text start ordinal).length ∧
      ∀ c ∈ (chunker.chunkFrom t text start ordinal).getLast?, c.endOffset = text.length := by
  induction start, ordinal using DocumentChunker.chunkFrom.induct chunker text with
  | case1 start ordinal _ ih =>
      rw [DocumentChunker.chunkFrom, if_pos hstart]
      by_cases hend : chunker.windowEnd text start = text.length
      · rw [if_pos hend]
        refine ⟨[], rfl, ?_, List.isChain_singleton _, rfl, ?_⟩
        · intro c hc
          rw [List.mem_singleton.mp hc]
          exact exact_window hstart ordinal
        · intro c hc
          rw [List.getLast?_singleton] at hc
          obtain rfl := Option.some.inj hc
          exact hend
      · obtain ⟨hnext, hlinked⟩ := linked_window (t := t) hstart hend ordinal (ordinal + 1)
        rw [if_neg hend]
        obtain ⟨rest, hrest, hexact, hchain, hordinals, hlast⟩ := ih hnext
        refine ⟨_, rfl, ?_, ?_, ?_, ?_⟩
        · exact List.forall_mem_cons.mpr ⟨exact_window hstart ordinal, hexact⟩
        · rw [hrest] at hchain ⊢
          exact List.isChain_cons_cons.mpr ⟨hlinked, hchain⟩
        · rw [List.map_cons, hordinals, List.length_cons, List.range'_succ]
          rfl
        · rw [hrest, List.getLast?_cons_cons, ← hrest]
          exact hlast
  | case2 start ordinal hdone => exact absurd hstart hdone

/-! ## The text -/

/-- **Chunking is an exact cover.** -/
theorem chunk_covers (chunker : DocumentChunker) (t : ChunkerText) (text : String) :
    (∀ c ∈ chunker.chunk t text, c.text = Text.slice text c.startOffset c.endOffset ∧
        c.endOffset ≤ text.length ∧ c.startOffset + c.text.length = c.endOffset ∧
        1 ≤ c.text.length ∧ c.text.length ≤ chunker.max) ∧
      (chunker.chunk t text).map (·.ordinal) = List.range (chunker.chunk t text).length ∧
      ((chunker.chunk t text).IsChain fun c next =>
        c.startOffset < next.startOffset ∧ next.startOffset ≤ c.endOffset) ∧
      (text ≠ "" → chunker.chunk t text ≠ []) ∧
      (∀ c ∈ (chunker.chunk t text).head?, c.startOffset = 0) ∧
      (∀ c ∈ (chunker.chunk t text).getLast?, c.endOffset = text.length) ∧
      (2 * chunker.overlap ≤ chunker.max → (chunker.chunk t text).IsChain fun c next =>
        c.endOffset < next.endOffset ∧ next.startOffset + chunker.overlap = c.endOffset) := by
  rw [DocumentChunker.chunk, ← String.length_toList]
  by_cases hnil : text = ""
  · subst hnil
    have hempty : chunker.chunkFrom t "".toList 0 0 = [] := by
      rw [DocumentChunker.chunkFrom]
      rfl
    rw [hempty]
    exact ⟨List.forall_mem_nil _, rfl, .nil, fun h => absurd rfl h, nofun, nofun, fun _ => .nil⟩
  · have hstart : 0 < text.toList.length :=
      List.length_pos_of_ne_nil (mt String.toList_eq_nil_iff.mp hnil)
    obtain ⟨rest, hfirst, hexact, hchain, hordinals, hlast⟩ :=
      chunkFrom_spec chunker t hstart 0
    refine ⟨fun c hc => ?_, ?_, hchain.imp fun c next h => ⟨h.1, h.2.1⟩, ?_, ?_, hlast,
      fun hoverlap => hchain.imp fun c next h => h.2.2 hoverlap⟩
    · obtain ⟨htext, hrest⟩ := hexact c hc
      refine ⟨String.toList_inj.mp ?_, hrest⟩
      rw [htext, Text.slice, String.toList_ofList]
    · rw [hordinals, List.range_eq_range']
    · rw [hfirst]
      exact fun _ => List.cons_ne_nil _ _
    · rw [hfirst]
      rintro c hc
      obtain rfl := Option.some.inj hc
      rfl

end Sana.Content
