import Sana.Lib.PyJson
import Sana.Lib.Ranking

/-!
# Writing JSON values with Python's strings

`json.dumps(value, ensure_ascii=False, sort_keys=True)`. The text of a value has a surrogate on its
own exactly where one of its strings has, and its length does not depend on the order of members.
-/

namespace Sana.Lib

namespace CodePoint

def toNat : CodePoint → Nat
  | .scalar c => c.toNat
  | .lone n => 0xD800 + n

/-- A scalar value. -/
def isScalar : CodePoint → Bool
  | .scalar _ => true
  | .lone _ => false

end CodePoint

namespace PyStr

/-- Code points as strings are compared by them. -/
def order (s : PyStr) : List Nat := s.map CodePoint.toNat

/-- Characters as a string. -/
def ascii (cs : List Char) : PyStr := cs.map .scalar

/-- The string is a Unicode text. -/
def IsText (s : PyStr) : Prop := ∀ c ∈ s, c.isScalar = true

instance (s : PyStr) : Decidable s.IsText := inferInstanceAs (Decidable (∀ c ∈ s, _))

/-- The characters of a text. -/
def chars? (s : PyStr) : Option (List Char) :=
  s.mapM fun
    | .scalar c => some c
    | .lone _ => none

/-- `s.encode("utf-8")`, `none` for a `UnicodeEncodeError`. -/
def encode (s : PyStr) : Option ByteArray := s.chars?.map fun cs => (String.ofList cs).toUTF8

end PyStr

namespace PyJson

open PyStr

variable {δ : Type}

/-! ## The writer -/

def escape : CodePoint → PyStr
  | .scalar c => ascii (JsonText.escape c)
  | .lone n => [.lone n]

/-- A string in its quotes. -/
def quote (s : PyStr) : PyStr := .scalar '"' :: (s.flatMap escape ++ [.scalar '"'])

/-- `separators`. -/
structure Separators where
  item : List Char
  key : List Char

def Separators.spaced : Separators := ⟨[',', ' '], [':', ' ']⟩

def Separators.compact : Separators := ⟨[','], [':']⟩

-- `repr` writes floats
variable (repr : δ → List Char) (sep : Separators)

mutual

/-- `json.dumps(v, ensure_ascii=False)`. -/
def dumps : PyJson δ → PyStr
  | .null => ascii ['n', 'u', 'l', 'l']
  | .bool true => ascii ['t', 'r', 'u', 'e']
  | .bool false => ascii ['f', 'a', 'l', 's', 'e']
  | .int n => ascii (JsonText.intText n)
  | .real x => ascii (repr x)
  | .str s => quote s
  | .arr items =>
      .scalar '[' :: ((ascii sep.item).intercalate (dumpsItems items) ++ [.scalar ']'])
  | .obj members =>
      .scalar '\x7b' :: ((ascii sep.item).intercalate (dumpsMembers members) ++ [.scalar '\x7d'])

def dumpsItems : List (PyJson δ) → List PyStr
  | [] => []
  | v :: vs => dumps v :: dumpsItems vs

def dumpsMembers : List (PyStr × PyJson δ) → List PyStr
  | [] => []
  | (k, v) :: ms => (quote k ++ ascii sep.key ++ dumps v) :: dumpsMembers ms

end

mutual

/-- A value with the names of its objects sorted. -/
def sortKeys : PyJson δ → PyJson δ
  | .arr items => .arr (sortItems items)
  | .obj members => .obj (rank (fun m => PyStr.order m.1) (sortMembers members))
  | .null => .null
  | .bool b => .bool b
  | .int n => .int n
  | .real x => .real x
  | .str s => .str s

def sortItems : List (PyJson δ) → List (PyJson δ)
  | [] => []
  | v :: vs => sortKeys v :: sortItems vs

def sortMembers : List (PyStr × PyJson δ) → List (PyStr × PyJson δ)
  | [] => []
  | (k, v) :: ms => (k, sortKeys v) :: sortMembers ms

end

/-- `json.dumps(v, ensure_ascii=False, sort_keys=True)`. -/
def dumpsSorted (v : PyJson δ) : PyStr := dumps repr sep v.sortKeys

variable {repr : δ → List Char} {sep : Separators} {p q : PyStr → Prop}

theorem dumpsMembers_eq (ms : List (PyStr × PyJson δ)) :
    dumpsMembers repr sep ms =
      ms.map fun m => quote m.1 ++ ascii sep.key ++ dumps repr sep m.2 := by
  induction ms with
  | nil => rfl
  | cons m ms ih => rw [dumpsMembers, ih, List.map_cons]

theorem sortMembers_eq (ms : List (PyStr × PyJson δ)) :
    sortMembers ms = ms.map fun m => (m.1, m.2.sortKeys) := by
  induction ms with
  | nil => rfl
  | cons m ms ih => rw [sortMembers, ih, List.map_cons]

/-! ## Texts -/

theorem isText_ascii (cs : List Char) : (ascii cs).IsText := by
  intro c hc
  obtain ⟨d, -, rfl⟩ := List.mem_map.mp hc
  rfl

theorem isText_append {s t : PyStr} : (s ++ t).IsText ↔ s.IsText ∧ t.IsText :=
  List.forall_mem_append

theorem isText_cons {c : CodePoint} {s : PyStr} :
    PyStr.IsText (c :: s) ↔ c.isScalar = true ∧ s.IsText := List.forall_mem_cons

theorem isText_quote {s : PyStr} : (quote s).IsText ↔ s.IsText := by
  have hend : PyStr.IsText [.scalar '"'] := isText_ascii ['"']
  rw [quote, isText_cons, isText_append]
  refine ⟨fun h c hc => ?_, fun h => ⟨rfl, fun d hd => ?_, hend⟩⟩
  · cases c with
    | scalar c => rfl
    | lone n => exact h.2.1 (.lone n) (List.mem_flatMap.mpr ⟨_, hc, List.mem_singleton_self _⟩)
  · obtain ⟨c, hc, hd⟩ := List.mem_flatMap.mp hd
    cases c with
    | scalar c => exact isText_ascii _ d hd
    | lone n => exact nomatch h _ hc

theorem chars?_isSome_iff {s : PyStr} : s.chars?.isSome = true ↔ s.IsText := by
  induction s with
  | nil => exact ⟨fun _ => List.forall_mem_nil _, fun _ => rfl⟩
  | cons c s ih =>
    rw [isText_cons, ← ih, chars?, List.mapM_cons]
    cases c with
    | scalar c => cases hs : chars? s <;> simp_all [chars?, CodePoint.isScalar]
    | lone n => simp [CodePoint.isScalar]

/-- The characters of a text are the ones it is made of. -/
theorem chars?_eq_some_iff {s : PyStr} {cs : List Char} : s.chars? = some cs ↔ ascii cs = s := by
  induction s generalizing cs with
  | nil => simp [chars?, ascii]
  | cons c s ih =>
    rw [chars?, mapM_cons_eq_some]
    cases c with
    | lone n =>
      refine iff_of_false (fun ⟨y, t, hy, _⟩ => nomatch hy) fun h => ?_
      obtain ⟨d, -, hd⟩ := List.mem_map.mp (h.symm ▸ List.mem_cons_self : CodePoint.lone n ∈ ascii cs)
      exact nomatch hd
    | scalar c =>
      constructor
      · rintro ⟨y, t, hy, ht, rfl⟩
        obtain rfl := Option.some.inj hy
        exact congrArg (CodePoint.scalar c :: ·) (ih.mp ht)
      · intro h
        cases cs with
        | nil => exact nomatch h
        | cons d cs =>
          obtain ⟨hd, hcs⟩ := List.cons.inj h
          obtain rfl := CodePoint.scalar.inj hd
          exact ⟨d, cs, rfl, ih.mpr hcs, rfl⟩

/-- **A string can be encoded exactly where it is a text.** -/
theorem encode_isSome_iff {s : PyStr} : s.encode.isSome = true ↔ s.IsText := by
  rw [encode, Option.isSome_map, chars?_isSome_iff]

theorem isText_intercalate {sep : PyStr} (hsep : sep.IsText) {texts : List PyStr} :
    PyStr.IsText (sep.intercalate texts) ↔ ∀ t ∈ texts, t.IsText := by
  induction texts with
  | nil => exact ⟨fun _ => List.forall_mem_nil _, fun _ => List.forall_mem_nil _⟩
  | cons t texts ih =>
    cases texts with
    | nil => simp [List.intercalate]
    | cons u texts =>
      rw [List.intercalate_cons_cons, isText_append, isText_append, ih,
        List.forall_mem_cons (a := t)]
      exact ⟨fun h => ⟨h.1.1, h.2⟩, fun h => ⟨⟨h.1, hsep⟩, h.2⟩⟩

mutual

/-- **What is written of a value is a text exactly where all its strings are.** -/
theorem isText_dumps (v : PyJson δ) :
    (dumps repr sep v).IsText ↔ v.All PyStr.IsText PyStr.IsText := by
  cases v with
  | null => exact ⟨fun _ => trivial, fun _ => isText_ascii _⟩
  | bool b => cases b <;> exact ⟨fun _ => trivial, fun _ => isText_ascii _⟩
  | int n => exact ⟨fun _ => trivial, fun _ => isText_ascii _⟩
  | real x => exact ⟨fun _ => trivial, fun _ => isText_ascii _⟩
  | str s => exact isText_quote
  | arr items =>
    have hend : PyStr.IsText [.scalar ']'] := isText_ascii [']']
    rw [dumps, isText_cons, isText_append, isText_intercalate (isText_ascii _), isText_dumpsItems]
    exact ⟨fun h => h.2.1, fun h => ⟨rfl, h, hend⟩⟩
  | obj members =>
    have hend : PyStr.IsText [.scalar '\x7d'] := isText_ascii ['\x7d']
    rw [dumps, isText_cons, isText_append, isText_intercalate (isText_ascii _),
      isText_dumpsMembers]
    exact ⟨fun h => h.2.1, fun h => ⟨rfl, h, hend⟩⟩

theorem isText_dumpsItems (vs : List (PyJson δ)) :
    (∀ t ∈ dumpsItems repr sep vs, t.IsText) ↔ AllItems PyStr.IsText PyStr.IsText vs := by
  cases vs with
  | nil => exact ⟨fun _ => trivial, fun _ => List.forall_mem_nil _⟩
  | cons v vs => rw [dumpsItems, List.forall_mem_cons, isText_dumps v, isText_dumpsItems vs, AllItems]

theorem isText_dumpsMembers (ms : List (PyStr × PyJson δ)) :
    (∀ t ∈ dumpsMembers repr sep ms, t.IsText) ↔ AllMembers PyStr.IsText PyStr.IsText ms := by
  match ms with
  | [] => exact ⟨fun _ => trivial, fun _ => List.forall_mem_nil _⟩
  | (k, v) :: ms =>
    rw [dumpsMembers, List.forall_mem_cons, isText_append, isText_append, isText_quote,
      isText_dumps v, isText_dumpsMembers ms, AllMembers]
    exact ⟨fun h => ⟨⟨h.1.1.1, h.1.2⟩, h.2⟩, fun h => ⟨⟨⟨h.1.1, isText_ascii _⟩, h.1.2⟩, h.2⟩⟩

end

/-! ## Sorting -/

mutual

theorem all_sortKeys (v : PyJson δ) : v.sortKeys.All p q ↔ v.All p q := by
  cases v with
  | arr items => exact all_sortItems items
  | obj members =>
    have hmembers := all_sortMembers members
    rw [sortKeys, All, All, ← hmembers, allMembers_iff, allMembers_iff]
    exact forall_congr' fun m => imp_congr_left mem_rank
  | _ => rfl

theorem all_sortItems (vs : List (PyJson δ)) : AllItems p q (sortItems vs) ↔ AllItems p q vs := by
  cases vs with
  | nil => rfl
  | cons v vs => exact and_congr (all_sortKeys v) (all_sortItems vs)

theorem all_sortMembers (ms : List (PyStr × PyJson δ)) :
    AllMembers p q (sortMembers ms) ↔ AllMembers p q ms := by
  match ms with
  | [] => rfl
  | (k, v) :: ms =>
    exact and_congr (and_congr_right' (all_sortKeys v)) (all_sortMembers ms)

end

theorem length_intercalate (sep : PyStr) (texts : List PyStr) :
    (sep.intercalate texts).length =
      (texts.map List.length).sum + sep.length * (texts.length - 1) := by
  induction texts with
  | nil => rfl
  | cons t texts ih =>
    cases texts with
    | nil => simp [List.intercalate]
    | cons u texts =>
      rw [List.intercalate_cons_cons, List.length_append, List.length_append, ih]
      simp only [List.map_cons, List.sum_cons, List.length_cons, Nat.add_sub_cancel, Nat.mul_succ]
      omega

mutual

/-- **Sorting the names does not change the length.** -/
theorem length_dumps_sortKeys (v : PyJson δ) :
    (dumps repr sep v.sortKeys).length = (dumps repr sep v).length := by
  cases v with
  | arr items =>
    have hitems := lengths_sortItems items
    have hlength := congrArg List.length hitems
    rw [List.length_map, List.length_map] at hlength
    rw [sortKeys, dumps, dumps, List.length_cons, List.length_cons, List.length_append,
      List.length_append, length_intercalate, length_intercalate, hitems, hlength]
  | obj members =>
    have hmembers := lengths_sortMembers members
    have hperm := ((rank_perm (fun m => PyStr.order m.1) (sortMembers members)).map
      fun m => quote m.1 ++ ascii sep.key ++ dumps repr sep m.2).map List.length
    rw [← dumpsMembers_eq, ← dumpsMembers_eq, hmembers] at hperm
    have hlength := hperm.length_eq
    rw [List.length_map, List.length_map] at hlength
    rw [sortKeys, dumps, dumps, List.length_cons, List.length_cons, List.length_append,
      List.length_append, length_intercalate, length_intercalate, hperm.sum_eq, hlength]
  | _ => rfl

theorem lengths_sortItems (vs : List (PyJson δ)) :
    (dumpsItems repr sep (sortItems vs)).map List.length =
      (dumpsItems repr sep vs).map List.length := by
  cases vs with
  | nil => rfl
  | cons v vs =>
    rw [sortItems, dumpsItems, dumpsItems, List.map_cons, List.map_cons, length_dumps_sortKeys v,
      lengths_sortItems vs]

theorem lengths_sortMembers (ms : List (PyStr × PyJson δ)) :
    (dumpsMembers repr sep (sortMembers ms)).map List.length =
      (dumpsMembers repr sep ms).map List.length := by
  match ms with
  | [] => rfl
  | (k, v) :: ms =>
    rw [sortMembers, dumpsMembers, dumpsMembers, List.map_cons, List.map_cons,
      lengths_sortMembers ms]
    simp only [List.length_append, length_dumps_sortKeys v]

end

/-! ## Values that differ under some names -/

mutual

/-- The values differ only in what stands under the names of `p`, at any depth. -/
inductive DifferUnder (p : PyStr → Prop) : PyJson δ → PyJson δ → Prop
  | same (v : PyJson δ) : DifferUnder p v v
  | arr {vs ws : List (PyJson δ)} (h : ItemsDifferUnder p vs ws) :
      DifferUnder p (.arr vs) (.arr ws)
  | obj {ms ns : List (PyStr × PyJson δ)} (h : MembersDifferUnder p ms ns) :
      DifferUnder p (.obj ms) (.obj ns)

inductive ItemsDifferUnder (p : PyStr → Prop) : List (PyJson δ) → List (PyJson δ) → Prop
  | nil : ItemsDifferUnder p [] []
  | cons {v w : PyJson δ} {vs ws : List (PyJson δ)} (h : DifferUnder p v w)
      (hs : ItemsDifferUnder p vs ws) : ItemsDifferUnder p (v :: vs) (w :: ws)

inductive MembersDifferUnder (p : PyStr → Prop) :
    List (PyStr × PyJson δ) → List (PyStr × PyJson δ) → Prop
  | nil : MembersDifferUnder p [] []
  | kept {v w : PyJson δ} {ms ns : List (PyStr × PyJson δ)} (k : PyStr) (h : DifferUnder p v w)
      (hs : MembersDifferUnder p ms ns) : MembersDifferUnder p ((k, v) :: ms) ((k, w) :: ns)
  | hidden {ms ns : List (PyStr × PyJson δ)} {k : PyStr} (hk : p k) (v w : PyJson δ)
      (hs : MembersDifferUnder p ms ns) : MembersDifferUnder p ((k, v) :: ms) ((k, w) :: ns)

end

theorem itemsDifferUnder_same (vs : List (PyJson δ)) : ItemsDifferUnder p vs vs := by
  induction vs with
  | nil => exact .nil
  | cons v vs ih => exact .cons (.same v) ih

theorem membersDifferUnder_same (ms : List (PyStr × PyJson δ)) : MembersDifferUnder p ms ms := by
  induction ms with
  | nil => exact .nil
  | cons m ms ih => exact .kept m.1 (.same m.2) ih

mutual

/-- Without such names they do not differ. -/
theorem DifferUnder.eq {v w : PyJson δ} (h : DifferUnder p v w)
    (hnone : v.All (fun k => ¬p k) fun _ => True) : v = w := by
  cases h with
  | same => rfl
  | arr h => exact congrArg PyJson.arr (h.eq hnone)
  | obj h => exact congrArg PyJson.obj (h.eq hnone)

theorem ItemsDifferUnder.eq {vs ws : List (PyJson δ)} (h : ItemsDifferUnder p vs ws)
    (hnone : AllItems (fun k => ¬p k) (fun _ => True) vs) : vs = ws := by
  cases h with
  | nil => rfl
  | cons h hs => rw [h.eq hnone.1, hs.eq hnone.2]

theorem MembersDifferUnder.eq {ms ns : List (PyStr × PyJson δ)} (h : MembersDifferUnder p ms ns)
    (hnone : AllMembers (fun k => ¬p k) (fun _ => True) ms) : ms = ns := by
  cases h with
  | nil => rfl
  | kept k h hs => rw [h.eq hnone.1.2, hs.eq hnone.2]
  | hidden hk => exact absurd hk hnone.1.1

end

variable (repr sep) in
mutual

/-- **Where there is such a name, something longer can stand under it.** -/
theorem exists_longer {v : PyJson δ} (h : ¬ v.All (fun k => ¬p k) fun _ => True) :
    ∃ w, DifferUnder p v w ∧ (dumps repr sep v).length < (dumps repr sep w).length ∧
      (v.All PyStr.IsText PyStr.IsText → w.All PyStr.IsText PyStr.IsText) := by
  cases v with
  | arr items =>
    obtain ⟨ws, hdiffer, hlength, hsum, htext⟩ := exists_longer_items h
    refine ⟨.arr ws, .arr hdiffer, ?_, htext⟩
    simp only [dumps, List.length_cons, List.length_append, length_intercalate, hlength]
    omega
  | obj members =>
    obtain ⟨ns, hdiffer, hlength, hsum, htext⟩ := exists_longer_members h
    refine ⟨.obj ns, .obj hdiffer, ?_, htext⟩
    simp only [dumps, List.length_cons, List.length_append, length_intercalate, hlength]
    omega
  | _ => exact absurd trivial h

theorem exists_longer_items {vs : List (PyJson δ)}
    (h : ¬ AllItems (fun k => ¬p k) (fun _ => True) vs) :
    ∃ ws, ItemsDifferUnder p vs ws ∧
      (dumpsItems repr sep ws).length = (dumpsItems repr sep vs).length ∧
      ((dumpsItems repr sep vs).map List.length).sum <
        ((dumpsItems repr sep ws).map List.length).sum ∧
      (AllItems PyStr.IsText PyStr.IsText vs → AllItems PyStr.IsText PyStr.IsText ws) := by
  cases vs with
  | nil => exact absurd trivial h
  | cons v vs =>
    by_cases hv : v.All (fun k => ¬p k) fun _ => True
    · obtain ⟨ws, hdiffer, hlength, hsum, htext⟩ := exists_longer_items fun hvs => h ⟨hv, hvs⟩
      refine ⟨v :: ws, .cons (.same v) hdiffer, ?_, ?_, fun h => ⟨h.1, htext h.2⟩⟩
      · simp only [dumpsItems, List.length_cons, hlength]
      · simp only [dumpsItems, List.map_cons, List.sum_cons]
        omega
    · obtain ⟨w, hdiffer, hlength, htext⟩ := exists_longer hv
      refine ⟨w :: vs, .cons hdiffer (itemsDifferUnder_same vs), ?_, ?_,
        fun h => ⟨htext h.1, h.2⟩⟩
      · simp only [dumpsItems, List.length_cons]
      · simp only [dumpsItems, List.map_cons, List.sum_cons]
        omega

theorem exists_longer_members {ms : List (PyStr × PyJson δ)}
    (h : ¬ AllMembers (fun k => ¬p k) (fun _ => True) ms) :
    ∃ ns, MembersDifferUnder p ms ns ∧
      (dumpsMembers repr sep ns).length = (dumpsMembers repr sep ms).length ∧
      ((dumpsMembers repr sep ms).map List.length).sum <
        ((dumpsMembers repr sep ns).map List.length).sum ∧
      (AllMembers PyStr.IsText PyStr.IsText ms → AllMembers PyStr.IsText PyStr.IsText ns) := by
  match ms with
  | [] => exact absurd trivial h
  | (k, v) :: ms =>
    by_cases hk : p k
    · refine ⟨(k, .arr [v]) :: ms, .hidden hk v _ (membersDifferUnder_same ms), ?_, ?_,
        fun h => ⟨⟨h.1.1, h.1.2, trivial⟩, h.2⟩⟩
      · simp only [dumpsMembers, List.length_cons]
      · simp only [dumpsMembers, List.map_cons, List.sum_cons, List.length_append, dumps,
          dumpsItems, List.length_cons, length_intercalate, List.map_nil, List.sum_nil]
        omega
    · by_cases hv : v.All (fun k => ¬p k) fun _ => True
      · obtain ⟨ns, hdiffer, hlength, hsum, htext⟩ :=
          exists_longer_members fun hms => h ⟨⟨hk, hv⟩, hms⟩
        refine ⟨(k, v) :: ns, .kept k (.same v) hdiffer, ?_, ?_, fun h => ⟨h.1, htext h.2⟩⟩
        · simp only [dumpsMembers, List.length_cons, hlength]
        · simp only [dumpsMembers, List.map_cons, List.sum_cons]
          omega
      · obtain ⟨w, hdiffer, hlength, htext⟩ := exists_longer hv
        refine ⟨(k, w) :: ms, .kept k hdiffer (membersDifferUnder_same ms), ?_, ?_,
          fun h => ⟨⟨h.1.1, htext h.1.2⟩, h.2⟩⟩
        · simp only [dumpsMembers, List.length_cons]
        · simp only [dumpsMembers, List.map_cons, List.sum_cons, List.length_append]
          omega

end

end PyJson

end Sana.Lib
