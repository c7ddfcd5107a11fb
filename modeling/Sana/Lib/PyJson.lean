import Sana.Lib.Dict
import Sana.Lib.JsonText
import Sana.Lib.PyText

/-!
# JSON values with Python's strings

What a JSON text says, with all members of its objects in their order, and what `json.loads` makes
of it: of members with one name the last is kept. Strings may hold surrogates on their own, since an
escape can name them.
-/

namespace Sana.Lib

open JsonText (skip hex4 simpleEscape numeral)

/-- A JSON value; its numbers with a fraction or an exponent are of type `δ`. -/
inductive PyJson (δ : Type)
  | null
  | bool (b : Bool)
  | int (n : Int)
  | real (x : δ)
  | str (s : PyStr)
  | arr (items : List (PyJson δ))
  | obj (members : List (PyStr × PyJson δ))

namespace PyJson

variable {δ : Type}

/-! ## Reading strings -/

/-- A code point given by its number. -/
def codePoint (n : Nat) : CodePoint :=
  if h : 0xD800 ≤ n ∧ n < 0xE000 then .lone ⟨n - 0xD800, by omega⟩ else .scalar (Char.ofNat n)

/-- The code point after `\u`, and what follows. Only a high and a low surrogate go together. -/
def unicodeEscape (cs : List Char) : Option (CodePoint × List Char) := do
  let (high, rest) ← hex4 cs
  if 0xD800 ≤ high ∧ high < 0xDC00 then
    match rest with
    | '\\' :: 'u' :: cs =>
        let (low, after) ← hex4 cs
        if 0xDC00 ≤ low ∧ low < 0xE000 then
          return (.scalar (Char.ofNat (0x10000 + (high - 0xD800) * 0x400 + (low - 0xDC00))), after)
        return (codePoint high, rest)
    | _ => return (codePoint high, rest)
  else return (codePoint high, rest)

/-- The next code point of a string: `none` inside stands for the closing quote. -/
def nextCode : List Char → Option (Option CodePoint × List Char)
  | [] => none
  | c :: cs =>
      if c = '"' then some (none, cs)
      else if c = '\\' then
        match cs with
        | [] => none
        | d :: cs =>
            if d = 'u' then (unicodeEscape cs).map fun x => (some x.1, x.2)
            else (simpleEscape d).map fun c => (some (.scalar c), cs)
      else if c.toNat < 32 then none
      else some (some (.scalar c), cs)

/-- The rest of a string after its opening quote, and what follows. -/
def stringBody : Nat → List Char → Option (PyStr × List Char)
  | 0, _ => none
  | n + 1, cs =>
      match nextCode cs with
      | none => none
      | some (none, rest) => some ([], rest)
      | some (some c, rest) => (stringBody n rest).map fun x => (c :: x.1, x.2)

/-! ## Reading values -/

/-- `float`, for the numbers of a text and for the names `NaN`, `Infinity` and `-Infinity`. -/
structure Floats (δ : Type) where
  real : List Char → δ
  constant : String → δ

variable (f : Floats δ)

/-- A value that is no string, array or object. -/
def scalar (cs : List Char) : Option (PyJson δ × List Char) :=
  if "null".toList <+: cs then some (.null, cs.drop 4)
  else if "true".toList <+: cs then some (.bool true, cs.drop 4)
  else if "false".toList <+: cs then some (.bool false, cs.drop 5)
  else if "NaN".toList <+: cs then some (.real (f.constant "NaN"), cs.drop 3)
  else if "Infinity".toList <+: cs then some (.real (f.constant "Infinity"), cs.drop 8)
  else if "-Infinity".toList <+: cs then some (.real (f.constant "-Infinity"), cs.drop 9)
  else (numeral cs).map fun (m, rest) =>
    (if m.tail = [] then .int m.int else .real (f.real m.text), rest)

mutual

/-- The value at the start of a text, and what follows. -/
def value : Nat → List Char → Option (PyJson δ × List Char)
  | 0, _ => none
  | _ + 1, [] => none
  | n + 1, c :: cs =>
      if c = '"' then do
        let (s, rest) ← stringBody (cs.length + 1) cs
        return (.str s, rest)
      else if c = '[' then
        if (skip cs).head? = some ']' then some (.arr [], (skip cs).tail)
        else do
          let (v, rest) ← value n (skip cs)
          let (vs, rest) ← items n (skip rest)
          return (.arr (v :: vs), rest)
      else if c = '\x7b' then
        if (skip cs).head? = some '\x7d' then some (.obj [], (skip cs).tail)
        else do
          let (m, rest) ← member n (skip cs)
          let (ms, rest) ← members n (skip rest)
          return (.obj (m :: ms), rest)
      else scalar f (c :: cs)

/-- The items of an array after the first, up to its end. -/
def items : Nat → List Char → Option (List (PyJson δ) × List Char)
  | 0, _ => none
  | _ + 1, [] => none
  | n + 1, c :: cs =>
      if c = ']' then some ([], cs)
      else if c = ',' then do
        let (v, rest) ← value n (skip cs)
        let (vs, rest) ← items n (skip rest)
        return (v :: vs, rest)
      else none

/-- A member of an object. -/
def member : Nat → List Char → Option ((PyStr × PyJson δ) × List Char)
  | 0, _ => none
  | _ + 1, [] => none
  | n + 1, c :: cs =>
      if c = '"' then do
        let (k, rest) ← stringBody (cs.length + 1) cs
        if (skip rest).head? = some ':' then do
          let (v, rest) ← value n (skip (skip rest).tail)
          return ((k, v), rest)
        else none
      else none

/-- The members of an object after the first, up to its end. -/
def members : Nat → List Char → Option (List (PyStr × PyJson δ) × List Char)
  | 0, _ => none
  | _ + 1, [] => none
  | n + 1, c :: cs =>
      if c = '\x7d' then some ([], cs)
      else if c = ',' then do
        let (m, rest) ← member n (skip cs)
        let (ms, rest) ← members n (skip rest)
        return (m :: ms, rest)
      else none

end

/-- What a JSON text says. -/
def syntaxTree (cs : List Char) : Option (PyJson δ) := do
  let (v, rest) ← value f (2 * cs.length + 2) (skip cs)
  if skip rest = [] then return v
  none

mutual

/-- The dictionaries of a value: of members with one name the last is kept, in the first's place. -/
def collapse : PyJson δ → PyJson δ
  | .arr items => .arr (collapseItems items)
  | .obj members => .obj (collapseMembers [] members)
  | .null => .null
  | .bool b => .bool b
  | .int n => .int n
  | .real x => .real x
  | .str s => .str s

def collapseItems : List (PyJson δ) → List (PyJson δ)
  | [] => []
  | v :: vs => v.collapse :: collapseItems vs

/-- Writes members to a dictionary. -/
def collapseMembers (d : List (PyStr × PyJson δ)) :
    List (PyStr × PyJson δ) → List (PyStr × PyJson δ)
  | [] => d
  | (k, v) :: ms => collapseMembers (Dict.set k v.collapse d) ms

end

/-- `json.loads` of a text. -/
def loads (cs : List Char) : Option (PyJson δ) := (syntaxTree f cs).map collapse

/-! ## What holds at any depth -/

mutual

/-- Every name in a value, at any depth, is one of `p`, and every string value one of `q`. -/
def All (p q : PyStr → Prop) : PyJson δ → Prop
  | .str s => q s
  | .arr items => AllItems p q items
  | .obj members => AllMembers p q members
  | .null | .bool _ | .int _ | .real _ => True

def AllItems (p q : PyStr → Prop) : List (PyJson δ) → Prop
  | [] => True
  | v :: vs => v.All p q ∧ AllItems p q vs

def AllMembers (p q : PyStr → Prop) : List (PyStr × PyJson δ) → Prop
  | [] => True
  | (k, v) :: ms => (p k ∧ v.All p q) ∧ AllMembers p q ms

end

mutual

/-- In every object at any depth, the members whose name comes again later satisfy `r`. -/
def Shadowed (r : PyJson δ → Prop) : PyJson δ → Prop
  | .arr items => ShadowedItems r items
  | .obj members => ShadowedMembers r members
  | .null | .bool _ | .int _ | .real _ | .str _ => True

def ShadowedItems (r : PyJson δ → Prop) : List (PyJson δ) → Prop
  | [] => True
  | v :: vs => v.Shadowed r ∧ ShadowedItems r vs

def ShadowedMembers (r : PyJson δ → Prop) : List (PyStr × PyJson δ) → Prop
  | [] => True
  | (k, v) :: ms => (if k ∈ ms.map (·.1) then r v else v.Shadowed r) ∧ ShadowedMembers r ms

end

mutual

def decidableAll (p q : PyStr → Prop) [DecidablePred p] [DecidablePred q] :
    (v : PyJson δ) → Decidable (v.All p q)
  | .str s => inferInstanceAs (Decidable (q s))
  | .arr items => decidableAllItems p q items
  | .obj members => decidableAllMembers p q members
  | .null => isTrue trivial
  | .bool _ => isTrue trivial
  | .int _ => isTrue trivial
  | .real _ => isTrue trivial

def decidableAllItems (p q : PyStr → Prop) [DecidablePred p] [DecidablePred q] :
    (vs : List (PyJson δ)) → Decidable (AllItems p q vs)
  | [] => isTrue trivial
  | v :: vs =>
      @instDecidableAnd (v.All p q) (AllItems p q vs) (decidableAll p q v)
        (decidableAllItems p q vs)

def decidableAllMembers (p q : PyStr → Prop) [DecidablePred p] [DecidablePred q] :
    (ms : List (PyStr × PyJson δ)) → Decidable (AllMembers p q ms)
  | [] => isTrue trivial
  | (k, v) :: ms =>
      @instDecidableAnd (p k ∧ v.All p q) (AllMembers p q ms)
        (@instDecidableAnd (p k) (v.All p q) inferInstance (decidableAll p q v))
        (decidableAllMembers p q ms)

end

instance (p q : PyStr → Prop) [DecidablePred p] [DecidablePred q] (v : PyJson δ) :
    Decidable (v.All p q) := decidableAll p q v

variable {p p' q q' : PyStr → Prop}

theorem allMembers_iff {ms : List (PyStr × PyJson δ)} :
    AllMembers p q ms ↔ ∀ m ∈ ms, p m.1 ∧ m.2.All p q := by
  induction ms with
  | nil => exact ⟨fun _ => List.forall_mem_nil _, fun _ => trivial⟩
  | cons m ms ih => rw [AllMembers, ih, List.forall_mem_cons]

mutual

theorem all_and (v : PyJson δ) :
    v.All (fun k => p k ∧ p' k) (fun s => q s ∧ q' s) ↔ v.All p q ∧ v.All p' q' := by
  cases v with
  | arr items => exact allItems_and items
  | obj members => exact allMembers_and members
  | str s => exact Iff.rfl
  | _ => exact (and_self_iff).symm

theorem allItems_and (vs : List (PyJson δ)) :
    AllItems (fun k => p k ∧ p' k) (fun s => q s ∧ q' s) vs ↔
      AllItems p q vs ∧ AllItems p' q' vs := by
  cases vs with
  | nil => exact (and_self_iff).symm
  | cons v vs =>
    rw [AllItems, all_and v, allItems_and vs]
    exact and_and_and_comm

theorem allMembers_and (ms : List (PyStr × PyJson δ)) :
    AllMembers (fun k => p k ∧ p' k) (fun s => q s ∧ q' s) ms ↔
      AllMembers p q ms ∧ AllMembers p' q' ms := by
  cases ms with
  | nil => exact (and_self_iff).symm
  | cons m ms =>
    rw [AllMembers, AllMembers, AllMembers, all_and m.2, allMembers_and ms]
    tauto

end

/-! ## What collapsing keeps -/

/-- A member that is not written again stays. -/
theorem mem_collapseMembers {ms d : List (PyStr × PyJson δ)} {m : PyStr × PyJson δ} (hm : m ∈ d)
    (hlater : m.1 ∉ ms.map (·.1)) : m ∈ collapseMembers d ms := by
  induction ms generalizing d with
  | nil => exact hm
  | cons n ms ih =>
    rw [List.map_cons, List.mem_cons, not_or] at hlater
    exact ih ((Dict.mem_set_of_mem hm).resolve_right fun h => hlater.1 h.1) hlater.2

mutual

/-- **What holds after collapsing and of all that was shadowed holds of the whole text.** -/
theorem all_of_collapse {v : PyJson δ} (hshadowed : v.Shadowed (All p q))
    (h : v.collapse.All p q) : v.All p q := by
  cases v with
  | arr items => exact allItems_of_collapse hshadowed h
  | obj members => exact allMembers_of_collapse hshadowed (allMembers_iff.mp h)
  | str s => exact h
  | _ => trivial

theorem allItems_of_collapse {vs : List (PyJson δ)} (hshadowed : ShadowedItems (All p q) vs)
    (h : AllItems p q (collapseItems vs)) : AllItems p q vs := by
  cases vs with
  | nil => trivial
  | cons v vs =>
    exact ⟨all_of_collapse hshadowed.1 h.1, allItems_of_collapse hshadowed.2 h.2⟩

theorem allMembers_of_collapse {ms d : List (PyStr × PyJson δ)}
    (hshadowed : ShadowedMembers (All p q) ms)
    (h : ∀ m ∈ collapseMembers d ms, p m.1 ∧ m.2.All p q) : AllMembers p q ms := by
  match ms with
  | [] => trivial
  | (k, v) :: ms =>
    have hrest := allMembers_of_collapse hshadowed.2 h
    refine ⟨?_, hrest⟩
    by_cases hagain : k ∈ ms.map (·.1)
    · obtain ⟨m, hm, rfl⟩ := List.mem_map.mp hagain
      exact ⟨(allMembers_iff.mp hrest m hm).1, (if_pos hagain ▸ hshadowed.1 :)⟩
    · have hself : (k, v.collapse) ∈ Dict.set k v.collapse d := Dict.mem_set_self
      have hmem : (k, v.collapse) ∈ collapseMembers (Dict.set k v.collapse d) ms :=
        mem_collapseMembers hself hagain
      have hkept := h _ hmem
      have hv : v.Shadowed (All p q) := (if_neg hagain ▸ hshadowed.1 :)
      exact ⟨hkept.1, all_of_collapse hv hkept.2⟩

end

mutual

theorem shadowed_of_all {v : PyJson δ} (h : v.All p q) : v.Shadowed (All p q) := by
  cases v with
  | arr items => exact shadowedItems_of_all h
  | obj members => exact shadowedMembers_of_all h
  | _ => trivial

theorem shadowedItems_of_all {vs : List (PyJson δ)} (h : AllItems p q vs) :
    ShadowedItems (All p q) vs := by
  cases vs with
  | nil => trivial
  | cons v vs => exact ⟨shadowed_of_all h.1, shadowedItems_of_all h.2⟩

theorem shadowedMembers_of_all {ms : List (PyStr × PyJson δ)} (h : AllMembers p q ms) :
    ShadowedMembers (All p q) ms := by
  match ms with
  | [] => trivial
  | (k, v) :: ms =>
    refine ⟨?_, shadowedMembers_of_all h.2⟩
    split
    · exact h.1.2
    · exact shadowed_of_all h.1.2

end

end PyJson

end Sana.Lib
