import Mathlib.Data.List.Basic

/-!
# Patterns over texts

Regular expressions as a backtracking matcher reads them: what a pattern matches at a place is the list
of the places where it can end, the preferred one first. Looking around sees both sides of a place.
Patterns that can match nothing are only tested for, never collected.
-/

namespace Sana.Lib

/-- A pattern. -/
inductive Regex
  | empty
  /-- One code point. -/
  | one (p : Char → Bool)
  | seq (a b : Regex)
  /-- The first, or else the second. -/
  | alt (a b : Regex)
  /-- As often as possible. -/
  | star (r : Regex)
  /-- Nothing, at a place that has the property. -/
  | look (p : List Char → List Char → Bool)

namespace Regex

/-- A place in a text: what comes before it, read backwards, and what comes after it. -/
abbrev Place := List Char × List Char

/-- Steps that go on, as many as possible first. -/
def repeated (step : Place → List Place) : Nat → Place → List Place
  | 0, place => [place]
  | n + 1, place =>
      ((step place).flatMap fun next =>
        if next.2.length < place.2.length then repeated step n next else []) ++ [place]

/-- Where a match can end. -/
def run : Regex → Place → List Place
  | .empty, place => [place]
  | .one _, (_, []) => []
  | .one p, (before, c :: after) => if p c then [(c :: before, after)] else []
  | .seq a b, place => (run a place).flatMap (run b)
  | .alt a b, place => run a place ++ run b place
  | .star r, place => repeated (run r) place.2.length place
  | .look p, place => if p place.1 place.2 then [place] else []

/-- A match begins somewhere from a place on. -/
def foundFrom (r : Regex) (before : List Char) : List Char → Bool
  | [] => !(run r (before, [])).isEmpty
  | c :: after => !(run r (before, c :: after)).isEmpty || foundFrom r (c :: before) after

/-- `re.search(r, text)` finds something. -/
def found (r : Regex) (text : List Char) : Bool := foundFrom r [] text

/-- The text cut into its matches, marked `true`, and single code points between them. -/
def pieces (r : Regex) : Nat → Place → List (Bool × List Char)
  | 0, _ | _ + 1, (_, []) => []
  | n + 1, (before, c :: after) =>
      match (run r (before, c :: after)).head? with
      | some next =>
          if next.2.length < (c :: after).length then
            (true, (c :: after).take ((c :: after).length - next.2.length)) :: pieces r n next
          else (false, [c]) :: pieces r n (c :: before, after)
      | none => (false, [c]) :: pieces r n (c :: before, after)

/-- `re.findall(r, text)`, for a pattern without groups. -/
def findall (r : Regex) (text : List Char) : List (List Char) :=
  ((pieces r text.length ([], text)).filter (·.1)).map (·.2)

/-- `re.sub(r, by, text)`. -/
def sub (r : Regex) (by' text : List Char) : List Char :=
  (pieces r text.length ([], text)).flatMap fun piece => if piece.1 then by' else piece.2

/-! ## Shorthands -/

/-- A literal, compared by `same`. -/
def lit (same : Char → Char → Bool) : List Char → Regex
  | [] => .empty
  | c :: cs => .seq (.one (same c)) (lit same cs)

/-- `r+`. -/
def plus (r : Regex) : Regex := .seq r (.star r)

/-- `r{0,n}`. -/
def upTo (r : Regex) : Nat → Regex
  | 0 => .empty
  | n + 1 => .alt (.seq r (upTo r n)) .empty

/-- `\b`, for what counts as a letter of a word. -/
def boundary (word : Char → Bool) : Regex :=
  .look fun before after => before.head?.any word != after.head?.any word

/-- `(?<![p])`. -/
def notBehind (p : Char → Bool) : Regex := .look fun before _ => !before.head?.any p

/-- `(?![p])`. -/
def notAhead (p : Char → Bool) : Regex := .look fun _ after => !after.head?.any p

/-- `$`: at the end, or before a line break at the end. -/
def atEnd : Regex := .look fun _ after => after = [] || after = ['\n']

/-- A literal with no code point of `p` at either side. -/
def token (same : Char → Char → Bool) (p : Char → Bool) (text : List Char) : Regex :=
  .seq (notBehind p) (.seq (lit same text) (notAhead p))

/-! ## What is found -/

theorem isEmpty_not_iff {α : Type} {l : List α} : (!l.isEmpty) = true ↔ ∃ x, x ∈ l := by
  rw [Bool.not_eq_true', List.isEmpty_eq_false_iff_exists_mem]

theorem foundFrom_iff {r : Regex} {before after : List Char} : foundFrom r before after = true ↔
    ∃ pre post, after = pre ++ post ∧ ∃ next, next ∈ run r (pre.reverse ++ before, post) := by
  induction after generalizing before with
  | nil =>
    rw [foundFrom, isEmpty_not_iff]
    constructor
    · exact fun h => ⟨[], [], rfl, h⟩
    · rintro ⟨pre, post, hsplit, h⟩
      obtain ⟨rfl, rfl⟩ := List.append_eq_nil_iff.mp hsplit.symm
      exact h
  | cons c after ih =>
    rw [foundFrom, Bool.or_eq_true, isEmpty_not_iff, ih]
    constructor
    · rintro (h | ⟨pre, post, rfl, h⟩)
      · exact ⟨[], c :: after, rfl, h⟩
      · refine ⟨c :: pre, post, rfl, ?_⟩
        rwa [List.reverse_cons, List.append_assoc, List.singleton_append]
    · rintro ⟨pre, post, hsplit, h⟩
      cases pre with
      | nil =>
        obtain rfl := hsplit
        exact .inl h
      | cons d pre =>
        obtain ⟨rfl, rfl⟩ := List.cons.inj hsplit
        refine .inr ⟨pre, post, rfl, ?_⟩
        rwa [List.reverse_cons, List.append_assoc, List.singleton_append] at h

/-- **What a pattern is found at.** -/
theorem found_iff {r : Regex} {text : List Char} : found r text = true ↔
    ∃ pre post, text = pre ++ post ∧ ∃ next, next ∈ run r (pre.reverse, post) := by
  rw [found, foundFrom_iff]
  simp only [List.append_nil]

theorem mem_run_look {p : List Char → List Char → Bool} {place next : Place} :
    next ∈ run (.look p) place ↔ p place.1 place.2 = true ∧ next = place := by
  rw [run]
  split
  case isTrue h => rw [List.mem_singleton, and_iff_right h]
  case isFalse h => exact iff_of_false List.not_mem_nil fun h' => h h'.1

theorem mem_run_seq {a b : Regex} {place next : Place} :
    next ∈ run (.seq a b) place ↔ ∃ mid ∈ run a place, next ∈ run b mid := by
  rw [run, List.mem_flatMap]

/-- A literal consumes code points that are the same. -/
theorem mem_run_lit {same : Char → Char → Bool} {text before after : List Char} {next : Place} :
    next ∈ run (lit same text) (before, after) ↔ ∃ m rest, after = m ++ rest ∧
      List.Forall₂ (fun c d => same c d = true) text m ∧ next = (m.reverse ++ before, rest) := by
  induction text generalizing before after with
  | nil =>
    rw [lit, run, List.mem_singleton]
    constructor
    · exact fun h => ⟨[], after, rfl, .nil, h⟩
    · rintro ⟨m, rest, rfl, hm, rfl⟩
      cases hm
      rfl
  | cons c text ih =>
    rw [lit, mem_run_seq]
    constructor
    · rintro ⟨mid, hmid, h⟩
      cases after with
      | nil => exact absurd hmid List.not_mem_nil
      | cons d after =>
        rw [run] at hmid
        split at hmid
        case isFalse => exact absurd hmid List.not_mem_nil
        case isTrue hsame =>
          obtain rfl := List.mem_singleton.mp hmid
          obtain ⟨m, rest, rfl, hm, rfl⟩ := ih.mp h
          refine ⟨d :: m, rest, rfl, .cons hsame hm, ?_⟩
          rw [List.reverse_cons, List.append_assoc, List.singleton_append]
    · rintro ⟨m, rest, rfl, hm, rfl⟩
      cases hm with
      | @cons _ d _ m hsame hm =>
        refine ⟨(d :: before, m ++ rest), ?_, ih.mpr ⟨m, rest, rfl, hm, ?_⟩⟩
        · rw [List.cons_append, run, if_pos hsame]
          exact List.mem_singleton_self _
        · rw [List.reverse_cons, List.append_assoc, List.singleton_append]

/-- **A token is found** where code points that are the same stand alone. -/
theorem found_token_iff {same : Char → Char → Bool} {p : Char → Bool} {text token' : List Char} :
    found (token same p token') text = true ↔ ∃ pre m post, text = pre ++ (m ++ post) ∧
      List.Forall₂ (fun c d => same c d = true) token' m ∧
        pre.getLast?.any p = false ∧ post.head?.any p = false := by
  rw [found_iff]
  constructor
  · rintro ⟨pre, after, rfl, next, h⟩
    obtain ⟨mid, hmid, h⟩ := mem_run_seq.mp h
    obtain ⟨hbehind, rfl⟩ := mem_run_look.mp hmid
    obtain ⟨mid, hmid, h⟩ := mem_run_seq.mp h
    obtain ⟨m, post, rfl, hm, rfl⟩ := mem_run_lit.mp hmid
    obtain ⟨hahead, -⟩ := mem_run_look.mp h
    rw [Bool.not_eq_true', List.head?_reverse] at hbehind
    rw [Bool.not_eq_true'] at hahead
    exact ⟨pre, m, post, rfl, hm, hbehind, hahead⟩
  · rintro ⟨pre, m, post, rfl, hm, hbehind, hahead⟩
    refine ⟨pre, m ++ post, rfl, _, mem_run_seq.mpr ⟨_, mem_run_look.mpr ⟨?_, rfl⟩, mem_run_seq.mpr
      ⟨_, mem_run_lit.mpr ⟨m, post, rfl, hm, rfl⟩, mem_run_look.mpr ⟨?_, rfl⟩⟩⟩⟩
    · rw [Bool.not_eq_true', List.head?_reverse]
      exact hbehind
    · rw [Bool.not_eq_true']
      exact hahead

end Regex

end Sana.Lib
