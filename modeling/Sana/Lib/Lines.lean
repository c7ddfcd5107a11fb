import Mathlib.Data.List.Basic
import Mathlib.Tactic

/-!
# Lines of a text

`str.splitlines` ends a line at any of ten code points, and takes a carriage return and a
line feed together. A text that is joined with line feeds is split into what it was joined
from if nothing in it ends a line; otherwise it has more lines with something on them than
it was joined from (`length_le_markedLines_join`).
-/

namespace Sana.Lib.Lines

/-- A code point that ends a line. -/
def endsLine (c : Char) : Bool :=
  let n := c.toNat
  (10 ≤ n && n ≤ 13) || (28 ≤ n && n ≤ 30) || n == 0x85 || n == 0x2028 || n == 0x2029

/-- The lines of a text, the first of which has begun with `line`. -/
def splitFrom (line : List Char) : List Char → List (List Char)
  | [] => if line = [] then [] else [line]
  | '\r' :: '\n' :: cs => line :: splitFrom [] cs
  | c :: cs => if endsLine c then line :: splitFrom [] cs else splitFrom (line ++ [c]) cs

/-- `text.splitlines()`. -/
def splitLines (cs : List Char) : List (List Char) := splitFrom [] cs

/-- `"\n".join(lines)`. -/
def join : List (List Char) → List Char
  | [] => []
  | [l] => l
  | l :: m :: ls => l ++ '\n' :: join (m :: ls)

theorem splitFrom_cons {c : Char} (h : c ≠ '\r') (line cs : List Char) :
    splitFrom line (c :: cs) =
      if endsLine c then line :: splitFrom [] cs else splitFrom (line ++ [c]) cs := by
  rw [splitFrom.eq_def]
  split
  · rename_i heq
    cases heq
  · rename_i heq
    simp only [List.cons.injEq] at heq
    exact absurd heq.1 h
  · rename_i heq
    simp only [List.cons.injEq] at heq
    rw [heq.1, heq.2]

/-- A line without an end in it is read to its end. -/
theorem splitFrom_append {l : List Char} (hl : ∀ c ∈ l, endsLine c = false) (line cs : List Char) :
    splitFrom line (l ++ cs) = splitFrom (line ++ l) cs := by
  induction l generalizing line with
  | nil => simp
  | cons c l ih =>
      have hc := hl c List.mem_cons_self
      have hreturn : c ≠ '\r' := by
        rintro rfl
        exact absurd hc (by decide)
      rw [List.cons_append, splitFrom_cons hreturn, hc, if_neg (by decide),
        ih (fun x hx => hl x (List.mem_cons_of_mem _ hx)), List.append_assoc]
      rfl

/-- **Lines without an end in them are found again.** -/
theorem splitLines_join {ls : List (List Char)} (hends : ∀ l ∈ ls, ∀ c ∈ l, endsLine c = false)
    (hne : ∀ l ∈ ls, l ≠ []) : splitLines (join ls) = ls := by
  induction ls with
  | nil => rfl
  | cons l ls ih =>
      have hl := hends l List.mem_cons_self
      cases ls with
      | nil =>
          have hread := splitFrom_append hl [] []
          rw [List.append_nil, List.nil_append] at hread
          show splitFrom [] l = [l]
          rw [hread, splitFrom, if_neg (hne l List.mem_cons_self)]
      | cons m ls =>
          have hrest := ih (fun x hx => hends x (List.mem_cons_of_mem _ hx))
            (fun x hx => hne x (List.mem_cons_of_mem _ hx))
          show splitFrom [] (l ++ '\n' :: join (m :: ls)) = _
          rw [splitFrom_append hl, splitFrom_cons (by decide), if_pos (by decide),
            List.nil_append]
          exact congrArg _ hrest

/-! ## Lines with something on them -/

section Count

variable {p : Char → Bool}

/-- Something other than `p` is on the line. -/
def marked (p : Char → Bool) (l : List Char) : Bool := l.any fun c => !p c

/-- How many lines of a text have something on them. -/
def markedLines (p : Char → Bool) (cs : List Char) : Nat := (splitLines cs).countP (marked p)

/-- A line's end that is no carriage return splits the text in two. -/
theorem splitFrom_end {c : Char} (hc : endsLine c = true) (line a b : List Char)
    (hreturn : '\r' ∉ a ++ [c]) :
    splitFrom line (a ++ c :: b) = splitFrom line (a ++ [c]) ++ splitFrom [] b := by
  induction a generalizing line with
  | nil =>
      have hne : c ≠ '\r' := by
        rintro rfl
        exact hreturn (by simp)
      simp [splitFrom_cons hne, hc, splitFrom]
  | cons x a ih =>
      have hx : x ≠ '\r' := by
        rintro rfl
        exact hreturn (by simp)
      have htail : '\r' ∉ a ++ [c] := fun h => hreturn (List.mem_cons_of_mem _ h)
      rw [List.cons_append, List.cons_append, splitFrom_cons hx, splitFrom_cons hx]
      by_cases hend : endsLine x = true
      · rw [if_pos hend, if_pos hend, ih _ htail]
        rfl
      · rw [if_neg hend, if_neg hend, ih _ htail]

/-- What is in a text is on one of its lines, unless it ends one. -/
theorem exists_mem_splitFrom {x : Char} (hx : endsLine x = false) (line cs : List Char)
    (hmem : x ∈ line ++ cs) : ∃ l ∈ splitFrom line cs, x ∈ l := by
  induction line, cs using splitFrom.induct with
  | case1 => simp at hmem
  | case2 line hline =>
      rw [List.append_nil] at hmem
      rw [splitFrom, if_neg hline]
      exact ⟨line, List.mem_singleton_self _, hmem⟩
  | case3 line cs ih =>
      rw [splitFrom]
      rcases List.mem_append.mp hmem with hline | hcs
      · exact ⟨line, List.mem_cons_self, hline⟩
      · simp only [List.mem_cons] at hcs
        rcases hcs with rfl | rfl | hcs
        · exact absurd hx (by decide)
        · exact absurd hx (by decide)
        · obtain ⟨l, hl, hxl⟩ := ih hcs
          exact ⟨l, List.mem_cons_of_mem _ hl, hxl⟩
  | case4 line c cs hne hend ih =>
      rw [splitFrom.eq_3 _ _ _ hne, if_pos hend]
      rcases List.mem_append.mp hmem with hline | hcs
      · exact ⟨line, List.mem_cons_self, hline⟩
      · rcases List.mem_cons.mp hcs with rfl | hcs
        · rw [hend] at hx
          cases hx
        · obtain ⟨l, hl, hxl⟩ := ih hcs
          exact ⟨l, List.mem_cons_of_mem _ hl, hxl⟩
  | case5 line c cs hne hend ih =>
      rw [splitFrom.eq_3 _ _ _ hne, if_neg hend]
      exact ih (by simpa using hmem)

variable (hp : ∀ c, endsLine c = true → p c = true)
include hp

theorem markedLines_pos {cs : List Char} {x : Char} (hmem : x ∈ cs) (hx : p x = false) :
    0 < markedLines p cs := by
  have hend : endsLine x = false := by
    cases h : endsLine x with
    | false => rfl
    | true =>
        rw [hp x h] at hx
        cases hx
  obtain ⟨l, hl, hxl⟩ := exists_mem_splitFrom hend [] cs hmem
  refine List.countP_pos_iff.mpr ⟨l, hl, ?_⟩
  exact List.any_eq_true.mpr ⟨x, hxl, by rw [hx]; rfl⟩

/-- A line with something on it at both ends, and what follows it. -/
theorem markedLines_broken {first last : Char} {mid tail : List Char} (hfirst : p first = false)
    (hlast : p last = false) (hreturn : '\r' ∉ first :: (mid ++ [last])) {c : Char}
    (hc : endsLine c = true) (hmem : c ∈ first :: (mid ++ [last])) :
    2 ≤ markedLines p (first :: (mid ++ [last]) ++ tail) := by
  have hspace := hp c hc
  have hmid : c ∈ mid := by
    simp only [List.mem_cons, List.mem_append, List.not_mem_nil, or_false] at hmem
    rcases hmem with rfl | hmem | rfl
    · rw [hspace] at hfirst
      cases hfirst
    · exact hmem
    · rw [hspace] at hlast
      cases hlast
  obtain ⟨a, b, rfl⟩ := List.append_of_mem hmid
  have hfront : '\r' ∉ (first :: a) ++ [c] := by
    intro h
    apply hreturn
    simp only [List.mem_cons, List.mem_append, List.not_mem_nil, or_false] at h ⊢
    tauto
  have hsplit := splitFrom_end hc [] (first :: a) (b ++ [last] ++ tail) hfront
  have hleft : 0 < markedLines p (first :: a ++ [c]) := markedLines_pos hp (by simp) hfirst
  have hright : 0 < markedLines p (b ++ [last] ++ tail) := markedLines_pos hp (by simp) hlast
  have hsum : markedLines p (first :: (a ++ c :: b ++ [last]) ++ tail) =
      markedLines p (first :: a ++ [c]) + markedLines p (b ++ [last] ++ tail) := by
    have htext : first :: (a ++ c :: b ++ [last]) ++ tail =
        first :: a ++ c :: (b ++ [last] ++ tail) := by simp
    rw [htext, markedLines, splitLines, hsplit, List.countP_append]
    rfl
  omega

/-- **A text has at least as many marked lines as it was joined from, and more with a line broken.** -/
theorem length_le_markedLines_join {ls : List (List Char)} (hreturn : ∀ l ∈ ls, '\r' ∉ l)
    (hshape : ∀ l ∈ ls, ∃ first mid last, l = first :: (mid ++ [last]) ∧ p first = false ∧
      p last = false) :
    ls.length ≤ markedLines p (join ls) ∧
      ((∃ l ∈ ls, ∃ c ∈ l, endsLine c = true) → ls.length < markedLines p (join ls)) := by
  induction ls with
  | nil => simp
  | cons l ls ih =>
      obtain ⟨first, mid, last, hl, hfirst, hlast⟩ := hshape l List.mem_cons_self
      have hcr := hreturn l List.mem_cons_self
      have hbroken : ∀ tail, (∃ c ∈ l, endsLine c = true) → 2 ≤ markedLines p (l ++ tail) := by
        rintro tail ⟨c, hmem, hc⟩
        rw [hl] at hmem hcr ⊢
        exact markedLines_broken hp hfirst hlast hcr hc hmem
      have hone : ∀ tail, 1 ≤ markedLines p (l ++ tail) := by
        intro tail
        exact markedLines_pos hp (x := first) (by simp [hl]) hfirst
      cases ls with
      | nil =>
          have hend := hone []
          rw [List.append_nil] at hend
          refine ⟨hend, ?_⟩
          rintro ⟨m, hm, hc⟩
          obtain rfl := List.mem_singleton.mp hm
          have hmore := hbroken [] hc
          rw [List.append_nil] at hmore
          exact hmore
      | cons m ls =>
          obtain ⟨hle, hlt⟩ := ih (fun x hx => hreturn x (List.mem_cons_of_mem _ hx))
            (fun x hx => hshape x (List.mem_cons_of_mem _ hx))
          have hfront : '\r' ∉ l ++ ['\n'] := by
            intro h
            rcases List.mem_append.mp h with h | h
            · exact hcr h
            · exact absurd (List.mem_singleton.mp h) (by decide)
          have hsum : markedLines p (join (l :: m :: ls)) =
              markedLines p (l ++ ['\n']) + markedLines p (join (m :: ls)) := by
            show markedLines p (l ++ '\n' :: join (m :: ls)) = _
            rw [markedLines, splitLines, splitFrom_end (by decide) [] l _ hfront,
              List.countP_append]
            rfl
          have hthis := hone ['\n']
          rw [hsum, List.length_cons]
          refine ⟨by omega, ?_⟩
          rintro ⟨x, hx, hc⟩
          rcases List.mem_cons.mp hx with rfl | hx
          · have hmore := hbroken ['\n'] hc
            omega
          · have hmore := hlt ⟨x, hx, hc⟩
            omega

end Count

end Sana.Lib.Lines
