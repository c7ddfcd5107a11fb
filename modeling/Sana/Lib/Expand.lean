import Mathlib.Data.List.Infix
import Mathlib.Data.List.TakeDrop
import Mathlib.Tactic.Common

/-!
# Offsets in an expanded list

A list is expanded element by element, as a text is by case folding. An offset into the list is
translated to one into the expanded list; slices go over to slices between translated offsets. What
occurs in a slice occurs in the whole list between its ends.
-/

namespace Sana.Lib

variable {α β : Type*}

section Expand

variable (f : α → List β)

/-- Where an offset goes. -/
def offset (l : List α) (i : Nat) : Nat := ((l.take i).flatMap f).length

variable {f} {l : List α} {i j : Nat}

theorem offset_add (l : List α) (i j : Nat) :
    offset f l (i + j) = offset f l i + offset f (l.drop i) j := by
  rw [offset, List.take_add, List.flatMap_append, List.length_append, offset, offset]

theorem offset_mono (h : i ≤ j) : offset f l i ≤ offset f l j := by
  obtain ⟨k, rfl⟩ := Nat.exists_eq_add_of_le h
  rw [offset_add]
  exact Nat.le_add_right _ _

theorem flatMap_take (l : List α) (i : Nat) :
    (l.take i).flatMap f = (l.flatMap f).take (offset f l i) := by
  conv_rhs => rw [← List.take_append_drop i l, List.flatMap_append]
  rw [offset, List.take_append_of_le_length (by rw [List.take_append_drop]), List.take_append_drop,
    List.take_length]

theorem flatMap_drop (l : List α) (i : Nat) :
    (l.drop i).flatMap f = (l.flatMap f).drop (offset f l i) := by
  conv_rhs => rw [← List.take_append_drop i l, List.flatMap_append]
  rw [offset, List.drop_append_of_le_length (by rw [List.take_append_drop]), List.take_append_drop,
    List.drop_length, List.nil_append]

/-- **A slice goes over to the slice between the offsets of its ends.** -/
theorem flatMap_slice (l : List α) (i j : Nat) :
    ((l.take j).drop i).flatMap f
      = ((l.flatMap f).take (offset f l j)).drop (offset f l i) := by
  rcases Nat.le_total i j with h | h
  · have hsame : offset f (l.take j) i = offset f l i := by
      rw [offset, List.take_take, Nat.min_eq_left h, offset]
    rw [flatMap_drop, flatMap_take, hsame]
  · rw [List.drop_eq_nil_of_le ((List.length_take_le _ _).trans h), List.flatMap_nil,
      List.drop_eq_nil_of_le ((List.length_take_le _ _).trans (offset_mono h))]

end Expand

/-! ## Occurrences -/

section Within

variable {text term : List α} {a b : Nat}

/-- The term occurs between two offsets. -/
def Within (text term : List α) (a b : Nat) : Prop :=
  ∃ p, a ≤ p ∧ p + term.length ≤ b ∧ term <+: text.drop p

/-- What occurs in a slice occurs between its ends. -/
theorem infix_slice_iff (hab : a ≤ b) :
    term <:+: (text.take b).drop a ↔ Within text term a b := by
  rw [List.drop_take]
  constructor
  · rintro ⟨pre, post, h⟩
    have hlength := congrArg List.length h
    rw [List.length_append, List.length_append] at hlength
    have hle := List.length_take_le (b - a) (text.drop a)
    refine ⟨a + pre.length, Nat.le_add_right _ _, by omega, ?_⟩
    have hdrop := congrArg (List.drop pre.length) h
    rw [List.append_assoc, List.drop_left, List.drop_take, List.drop_drop] at hdrop
    exact (List.prefix_append term post).trans (hdrop ▸ List.take_prefix _ _)
  · rintro ⟨p, hap, hpb, hstarts⟩
    have hslice : term <+: ((text.drop a).take (b - a)).drop (p - a) := by
      rw [List.drop_take, List.drop_drop, Nat.add_sub_cancel' hap]
      exact List.prefix_take_iff.mpr ⟨hstarts, by omega⟩
    exact hslice.isInfix.trans (List.drop_suffix _ _).isInfix

end Within

/-! ## Occurrences as words -/

section Words

variable (isLetter : α → Bool)

/-- The term occurs there, and no letter is next to it. -/
def WordAt (text term : List α) (p : Nat) : Prop :=
  term <+: text.drop p ∧ (∀ c ∈ (text.take p).getLast?, isLetter c = false) ∧
    ∀ c ∈ (text.drop (p + term.length)).head?, isLetter c = false

/-- The term occurs as a word of what is between two offsets. -/
def WordWithin (text term : List α) (a b : Nat) : Prop :=
  ∃ p, a ≤ p ∧ p + term.length ≤ b ∧ term <+: text.drop p ∧
    (∀ c ∈ ((text.take p).drop a).getLast?, isLetter c = false) ∧
    ∀ c ∈ ((text.take b).drop (p + term.length)).head?, isLetter c = false

variable {isLetter} {text term : List α} {a b : Nat}

/-- What occurs as a word of a slice occurs as a word of what is between its ends. -/
theorem wordAt_slice_iff (hterm : term ≠ []) :
    (∃ q, WordAt isLetter ((text.take b).drop a) term q) ↔ WordWithin isLetter text term a b := by
  have hshift : ∀ q, ((text.take b).drop a).take q = (text.take (a + q) |>.take b).drop a := by
    intro q
    rw [List.take_drop, List.take_take, List.take_take, Nat.min_comm]
  constructor
  · rintro ⟨q, hstarts, hleft, hright⟩
    have hlength := hstarts.length_le
    have hpos := List.length_pos_of_ne_nil hterm
    rw [List.length_drop, List.length_drop, List.length_take] at hlength
    refine ⟨a + q, Nat.le_add_right _ _, by omega, ?_, ?_, ?_⟩
    · rw [List.drop_drop, List.drop_take] at hstarts
      exact hstarts.trans (List.take_prefix _ _)
    · rw [hshift, List.take_take, Nat.min_eq_right (by omega)] at hleft
      exact hleft
    · rw [List.drop_drop] at hright
      rwa [← Nat.add_assoc] at hright
  · rintro ⟨p, hap, hpb, hstarts, hleft, hright⟩
    refine ⟨p - a, ?_, ?_, ?_⟩
    · rw [List.drop_drop, Nat.add_sub_cancel' hap, List.drop_take]
      exact List.prefix_take_iff.mpr ⟨hstarts, by omega⟩
    · rw [hshift, Nat.add_sub_cancel' hap, List.take_take, Nat.min_eq_right (by omega)]
      exact hleft
    · rw [List.drop_drop, ← Nat.add_assoc, Nat.add_sub_cancel' hap]
      exact hright

/-- Blanks around a list are not part of any word. -/
theorem wordAt_pad_iff {blank : α → Bool} {pre core post : List α}
    (hpre : ∀ c ∈ pre, blank c = true) (hpost : ∀ c ∈ post, blank c = true)
    (hblank : ∀ c, blank c = true → isLetter c = false) (hterm : term ≠ [])
    (hplain : ∀ c ∈ term, blank c = false) :
    (∃ q, WordAt isLetter (pre ++ core ++ post) term q) ↔ ∃ q, WordAt isLetter core term q := by
  generalize htext : pre ++ core ++ post = text
  have hcore : core = (text.take (pre.length + core.length)).drop pre.length := by
    rw [← htext, List.take_append_of_le_length (by rw [List.length_append]),
      List.take_of_length_le (by rw [List.length_append]), List.drop_left]
  have hslice : (∃ q, WordAt isLetter ((text.take (pre.length + core.length)).drop pre.length)
      term q) ↔ WordWithin isLetter text term pre.length (pre.length + core.length) :=
    wordAt_slice_iff hterm
  rw [← hcore] at hslice
  rw [hslice]
  have hpos := List.length_pos_of_ne_nil hterm
  have htake : text.take pre.length = pre := by rw [← htext, List.append_assoc, List.take_left]
  have hdrop : text.drop (pre.length + core.length) = post := by
    rw [← htext, List.drop_left' (by rw [List.length_append])]
  constructor
  · rintro ⟨p, hstarts, hleft, hright⟩
    have hget : ∀ i < term.length, text[p + i]? = term[i]? := by
      intro i hi
      obtain ⟨rest, hrest⟩ := hstarts
      rw [← List.getElem?_drop, ← hrest, List.getElem?_append_left hi]
    have hnotblank : ∀ i < term.length, ∀ c, text[p + i]? = some c → blank c = false :=
      fun i hi c hc => hplain c (List.mem_of_getElem? ((hget i hi).symm.trans hc))
    -- a word that reaches into the blanks would hold one
    have hfront : pre.length ≤ p := by
      by_contra hlt
      obtain ⟨c, hc⟩ : ∃ c, pre[p]? = some c :=
        ⟨_, List.getElem?_eq_getElem (by omega)⟩
      have htextp : text[p + 0]? = some c := by
        rw [Nat.add_zero, ← htext, List.append_assoc, List.getElem?_append_left (by omega), hc]
      have := hnotblank 0 hpos c htextp
      rw [hpre c (List.mem_of_getElem? hc)] at this
      cases this
    have hback : p + term.length ≤ pre.length + core.length := by
      by_contra hlt
      have hlast := hget (term.length - 1) (by omega)
      rw [List.getElem?_eq_getElem (by omega : term.length - 1 < term.length)] at hlast
      have hmem : term[term.length - 1] ∈ post := by
        rw [← hdrop]
        refine List.mem_of_getElem? (i := p + (term.length - 1) - (pre.length + core.length)) ?_
        rw [List.getElem?_drop, ← hlast]
        congr 1
        omega
      have := hplain _ (List.getElem_mem (by omega : term.length - 1 < term.length))
      rw [hpost _ hmem] at this
      cases this
    refine ⟨p, hfront, hback, hstarts, fun c hc => hleft c ?_, fun c hc => hright c ?_⟩
    · rw [List.getLast?_drop] at hc
      split at hc
      · cases hc
      · exact hc
    · rw [List.drop_take, List.head?_take] at hc
      split at hc
      · cases hc
      · exact hc
  · rintro ⟨p, hfront, hback, hstarts, hleft, hright⟩
    refine ⟨p, hstarts, fun c hc => ?_, fun c hc => ?_⟩
    · by_cases hp : p = pre.length
      · rw [hp, htake] at hc
        exact hblank c (hpre c (List.mem_of_getLast? hc))
      · refine hleft c ?_
        have hlong : ¬(text.take p).length ≤ pre.length := by
          have := hstarts.length_le
          rw [List.length_drop] at this
          rw [List.length_take]
          omega
        rw [List.getLast?_drop, if_neg hlong]
        exact hc
    · by_cases hp : p + term.length = pre.length + core.length
      · rw [hp, hdrop] at hc
        exact hblank c (hpost c (List.mem_of_head? hc))
      · refine hright c ?_
        rw [List.drop_take, List.head?_take, if_neg (by omega)]
        exact hc

end Words

end Sana.Lib
