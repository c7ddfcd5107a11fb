import Sana.Lib.PyDumps

/-!
# What is written with Python's strings is read again

A value whose strings are texts is a value of `JsonText` in other clothes. It is written as that value
is, and what a strict reader makes of a text the lenient one makes of it too; so the round trip is the
one of `JsonText`. What `json.loads` returns has distinct names, and sorting them makes the same
dictionaries.
-/

namespace Sana.Lib.PyJson

open PyStr

open JsonText (skip hex4 numeral)

variable {δ γ : Type}

/-! ## Values -/

mutual

/-- Every number with a fraction or an exponent, at any depth, is one of `p`. -/
def Reals (p : δ → Prop) : PyJson δ → Prop
  | .real x => p x
  | .arr items => RealsItems p items
  | .obj members => RealsMembers p members
  | .null | .bool _ | .int _ | .str _ => True

def RealsItems (p : δ → Prop) : List (PyJson δ) → Prop
  | [] => True
  | v :: vs => v.Reals p ∧ RealsItems p vs

def RealsMembers (p : δ → Prop) : List (PyStr × PyJson δ) → Prop
  | [] => True
  | (_, v) :: ms => v.Reals p ∧ RealsMembers p ms

end

mutual

/-- No object has two members of one name, at any depth. -/
def Distinct : PyJson δ → Prop
  | .arr items => DistinctItems items
  | .obj members => (members.map (·.1)).Nodup ∧ DistinctMembers members
  | .null | .bool _ | .int _ | .real _ | .str _ => True

def DistinctItems : List (PyJson δ) → Prop
  | [] => True
  | v :: vs => v.Distinct ∧ DistinctItems vs

def DistinctMembers : List (PyStr × PyJson δ) → Prop
  | [] => True
  | (_, v) :: ms => v.Distinct ∧ DistinctMembers ms

end

/-- The values are equal: their dictionaries have the same members, in whatever order. -/
def Equal (v w : PyJson δ) : Prop := v.sortKeys = w.sortKeys

section Members

variable {p : δ → Prop} {ms : List (PyStr × PyJson δ)}

theorem realsMembers_iff : RealsMembers p ms ↔ ∀ m ∈ ms, m.2.Reals p := by
  induction ms with
  | nil => exact ⟨fun _ => List.forall_mem_nil _, fun _ => trivial⟩
  | cons m ms ih => rw [RealsMembers, ih, List.forall_mem_cons]

theorem distinctMembers_iff : DistinctMembers ms ↔ ∀ m ∈ ms, m.2.Distinct := by
  induction ms with
  | nil => exact ⟨fun _ => List.forall_mem_nil _, fun _ => trivial⟩
  | cons m ms ih => rw [DistinctMembers, ih, List.forall_mem_cons]

end Members

/-! ## Collapsing -/

section Collapse

variable {ms d : List (PyStr × PyJson δ)}

theorem nodup_set {k : PyStr} {v : PyJson δ} (h : (d.map (·.1)).Nodup) :
    ((Dict.set k v d).map (·.1)).Nodup := by
  cases hk : d.lookup k with
  | none =>
    rw [Dict.set_of_lookup_eq_none hk, List.map_append, List.nodup_append]
    refine ⟨h, List.nodup_singleton _, fun a ha b hb => ?_⟩
    obtain rfl := List.mem_singleton.mp hb
    rintro rfl
    exact Dict.lookup_eq_none_iff.mp hk ha
  | some old => rwa [Dict.map_fst_set_of_lookup hk]

mutual

/-- **Collapsing leaves distinct names.** -/
theorem distinct_collapse (v : PyJson δ) : v.collapse.Distinct := by
  cases v with
  | arr items => exact distinct_collapseItems items
  | obj members =>
    have hmembers := distinct_collapseMembers members [] List.nodup_nil (List.forall_mem_nil _)
    exact ⟨hmembers.1, distinctMembers_iff.mpr hmembers.2⟩
  | _ => trivial

theorem distinct_collapseItems (vs : List (PyJson δ)) : DistinctItems (collapseItems vs) := by
  cases vs with
  | nil => trivial
  | cons v vs => exact ⟨distinct_collapse v, distinct_collapseItems vs⟩

theorem distinct_collapseMembers (ms d : List (PyStr × PyJson δ)) (hnodup : (d.map (·.1)).Nodup)
    (hd : ∀ m ∈ d, m.2.Distinct) : ((collapseMembers d ms).map (·.1)).Nodup ∧
      ∀ m ∈ collapseMembers d ms, m.2.Distinct := by
  match ms with
  | [] => exact ⟨hnodup, hd⟩
  | (k, v) :: ms =>
    refine distinct_collapseMembers ms _ (nodup_set hnodup) fun m hm => ?_
    rcases Dict.mem_set hm with rfl | hm
    · exact distinct_collapse v
    · exact hd m hm

end

mutual

theorem collapse_of_distinct {v : PyJson δ} (h : v.Distinct) : v.collapse = v := by
  cases v with
  | arr items => exact congrArg PyJson.arr (collapseItems_of_distinct h)
  | obj members =>
    have hmembers := collapseMembers_of_distinct (d := []) h.2 h.1
    exact congrArg PyJson.obj hmembers
  | _ => rfl

theorem collapseItems_of_distinct {vs : List (PyJson δ)} (h : DistinctItems vs) :
    collapseItems vs = vs := by
  cases vs with
  | nil => rfl
  | cons v vs => rw [collapseItems, collapse_of_distinct h.1, collapseItems_of_distinct h.2]

theorem collapseMembers_of_distinct {ms d : List (PyStr × PyJson δ)} (h : DistinctMembers ms)
    (hnodup : ((d ++ ms).map (·.1)).Nodup) : collapseMembers d ms = d ++ ms := by
  match ms with
  | [] => rw [collapseMembers, List.append_nil]
  | (k, v) :: ms =>
    have hnew : k ∉ d.map (·.1) := by
      rw [List.map_append, List.map_cons, List.nodup_append] at hnodup
      exact fun hk => hnodup.2.2 k hk k List.mem_cons_self rfl
    have happend : d ++ (k, v) :: ms = (d ++ [(k, v)]) ++ ms := by
      rw [List.append_assoc, List.singleton_append]
    rw [collapseMembers, collapse_of_distinct h.1,
      Dict.set_of_lookup_eq_none (Dict.lookup_eq_none_iff.mpr hnew), happend]
    rw [happend] at hnodup
    exact collapseMembers_of_distinct h.2 hnodup

end

end Collapse

/-! ## Sorting -/

section Sorting

variable {p : δ → Prop}

theorem map_fst_sortMembers (ms : List (PyStr × PyJson δ)) :
    (sortMembers ms).map (·.1) = ms.map (·.1) := by
  rw [sortMembers_eq, List.map_map]
  rfl

mutual

theorem reals_sortKeys {v : PyJson δ} (h : v.Reals p) : v.sortKeys.Reals p := by
  cases v with
  | arr items => exact reals_sortItems h
  | obj members =>
    have hmembers := realsMembers_iff.mp (reals_sortMembers h)
    exact realsMembers_iff.mpr fun m hm => hmembers m (mem_rank.mp hm)
  | real x => exact h
  | _ => trivial

theorem reals_sortItems {vs : List (PyJson δ)} (h : RealsItems p vs) :
    RealsItems p (sortItems vs) := by
  cases vs with
  | nil => trivial
  | cons v vs => exact ⟨reals_sortKeys h.1, reals_sortItems h.2⟩

theorem reals_sortMembers {ms : List (PyStr × PyJson δ)} (h : RealsMembers p ms) :
    RealsMembers p (sortMembers ms) := by
  match ms with
  | [] => trivial
  | (k, v) :: ms => exact ⟨reals_sortKeys h.1, reals_sortMembers h.2⟩

end

mutual

theorem distinct_sortKeys {v : PyJson δ} (h : v.Distinct) : v.sortKeys.Distinct := by
  cases v with
  | arr items => exact distinct_sortItems h
  | obj members =>
    have hmembers := distinctMembers_iff.mp (distinct_sortMembers h.2)
    refine ⟨?_, distinctMembers_iff.mpr fun m hm => hmembers m (mem_rank.mp hm)⟩
    rw [((rank_perm _ _).map _).nodup_iff, map_fst_sortMembers]
    exact h.1
  | _ => trivial

theorem distinct_sortItems {vs : List (PyJson δ)} (h : DistinctItems vs) :
    DistinctItems (sortItems vs) := by
  cases vs with
  | nil => trivial
  | cons v vs => exact ⟨distinct_sortKeys h.1, distinct_sortItems h.2⟩

theorem distinct_sortMembers {ms : List (PyStr × PyJson δ)} (h : DistinctMembers ms) :
    DistinctMembers (sortMembers ms) := by
  match ms with
  | [] => trivial
  | (k, v) :: ms => exact ⟨distinct_sortKeys h.1, distinct_sortMembers h.2⟩

end

mutual

/-- **Sorting the names gives an equal value.** -/
theorem equal_sortKeys (v : PyJson δ) : v.sortKeys.Equal v := by
  cases v with
  | arr items => exact congrArg PyJson.arr (sortItems_sortItems items)
  | obj members =>
    have hmembers : sortMembers (rank (fun m => PyStr.order m.1) (sortMembers members)) =
        rank (fun m => PyStr.order m.1) (sortMembers members) := by
      rw [sortMembers_eq, ← rank_map (fun m => PyStr.order m.1) fun m : PyStr × PyJson δ =>
        (m.1, m.2.sortKeys), ← sortMembers_eq, sortMembers_sortMembers]
    rw [Equal, sortKeys, sortKeys, hmembers, rank_rank]
  | _ => rfl

theorem sortItems_sortItems (vs : List (PyJson δ)) : sortItems (sortItems vs) = sortItems vs := by
  cases vs with
  | nil => rfl
  | cons v vs =>
    have hv : v.sortKeys.sortKeys = v.sortKeys := equal_sortKeys v
    rw [sortItems, sortItems, hv, sortItems_sortItems vs]

theorem sortMembers_sortMembers (ms : List (PyStr × PyJson δ)) :
    sortMembers (sortMembers ms) = sortMembers ms := by
  match ms with
  | [] => rfl
  | (k, v) :: ms =>
    have hv : v.sortKeys.sortKeys = v.sortKeys := equal_sortKeys v
    rw [sortMembers, sortMembers, hv, sortMembers_sortMembers ms]

end

end Sorting

/-! ## Values whose strings are texts -/

mutual

/-- A value of texts as a value of strings. -/
def ofValue (g : γ → δ) : JsonText.Value γ → PyJson δ
  | .null => .null
  | .bool b => .bool b
  | .int n => .int n
  | .real x => .real (g x)
  | .str s => .str (ofString s)
  | .arr items => .arr (ofItems g items)
  | .obj members => .obj (ofMembers g members)

def ofItems (g : γ → δ) : List (JsonText.Value γ) → List (PyJson δ)
  | [] => []
  | v :: vs => ofValue g v :: ofItems g vs

def ofMembers (g : γ → δ) : List (String × JsonText.Value γ) → List (PyStr × PyJson δ)
  | [] => []
  | (k, v) :: ms => (ofString k, ofValue g v) :: ofMembers g ms

end

theorem exists_ofString {s : PyStr} (h : s.IsText) : ∃ t, ofString t = s := by
  induction s with
  | nil => exact ⟨"", rfl⟩
  | cons c s ih =>
    rw [isText_cons] at h
    obtain ⟨t, rfl⟩ := ih h.2
    cases c with
    | scalar c => exact ⟨String.ofList (c :: t.toList), by rw [ofString, String.toList_ofList]; rfl⟩
    | lone n => exact absurd h.1 (by simp [CodePoint.isScalar])

theorem map_fst_ofMembers (g : γ → δ) (ms : List (String × JsonText.Value γ)) :
    (ofMembers g ms).map (·.1) = (ms.map (·.1)).map ofString := by
  induction ms with
  | nil => rfl
  | cons m ms ih => rw [ofMembers, List.map_cons, ih]; rfl

mutual

/-- A value whose strings are texts is a value of texts. -/
theorem exists_ofValue {p : δ → Prop} {v : PyJson δ} (htext : v.All IsText IsText)
    (hreals : v.Reals p) (hdistinct : v.Distinct) :
    ∃ w : JsonText.Value {x // p x}, w.Distinct ∧ ofValue Subtype.val w = v := by
  cases v with
  | null => exact ⟨.null, trivial, rfl⟩
  | bool b => exact ⟨.bool b, trivial, rfl⟩
  | int n => exact ⟨.int n, trivial, rfl⟩
  | real x => exact ⟨.real ⟨x, hreals⟩, trivial, rfl⟩
  | str s =>
    obtain ⟨t, rfl⟩ := exists_ofString htext
    exact ⟨.str t, trivial, rfl⟩
  | arr items =>
    obtain ⟨ws, hws, rfl⟩ := exists_ofItems htext hreals hdistinct
    exact ⟨.arr ws, hws, rfl⟩
  | obj members =>
    obtain ⟨ns, hns, rfl⟩ := exists_ofMembers htext hreals hdistinct.2
    refine ⟨.obj ns, ⟨?_, hns⟩, rfl⟩
    have hnodup := hdistinct.1
    rw [map_fst_ofMembers] at hnodup
    exact hnodup.of_map _

theorem exists_ofItems {p : δ → Prop} {vs : List (PyJson δ)} (htext : AllItems IsText IsText vs)
    (hreals : RealsItems p vs) (hdistinct : DistinctItems vs) :
    ∃ ws : List (JsonText.Value {x // p x}),
      JsonText.DistinctItems ws ∧ ofItems Subtype.val ws = vs := by
  cases vs with
  | nil => exact ⟨[], trivial, rfl⟩
  | cons v vs =>
    obtain ⟨w, hw, rfl⟩ := exists_ofValue htext.1 hreals.1 hdistinct.1
    obtain ⟨ws, hws, rfl⟩ := exists_ofItems htext.2 hreals.2 hdistinct.2
    exact ⟨w :: ws, ⟨hw, hws⟩, rfl⟩

theorem exists_ofMembers {p : δ → Prop} {ms : List (PyStr × PyJson δ)}
    (htext : AllMembers IsText IsText ms) (hreals : RealsMembers p ms)
    (hdistinct : DistinctMembers ms) : ∃ ns : List (String × JsonText.Value {x // p x}),
      JsonText.DistinctMembers ns ∧ ofMembers Subtype.val ns = ms := by
  match ms with
  | [] => exact ⟨[], trivial, rfl⟩
  | (k, v) :: ms =>
    obtain ⟨s, rfl⟩ := exists_ofString htext.1.1
    obtain ⟨w, hw, rfl⟩ := exists_ofValue htext.1.2 hreals.1 hdistinct.1
    obtain ⟨ns, hns, rfl⟩ := exists_ofMembers htext.2 hreals.2 hdistinct.2
    exact ⟨(s, w) :: ns, ⟨hw, hns⟩, rfl⟩

end

/-! ## Writing -/

section Writing

variable {repr : δ → List Char} {g : γ → δ}

theorem ascii_append (cs ds : List Char) : ascii (cs ++ ds) = ascii cs ++ ascii ds :=
  List.map_append

theorem ascii_cons (c : Char) (cs : List Char) : ascii (c :: cs) = .scalar c :: ascii cs := rfl

theorem quote_ofString (s : String) : quote (ofString s) = ascii (JsonText.quote s) := by
  have hbody : (ofString s).flatMap escape = ascii (s.toList.flatMap JsonText.escape) := by
    rw [ofString, List.flatMap_map, ascii, List.map_flatMap]
    rfl
  rw [quote, JsonText.quote, hbody, ascii_cons, ascii_append]
  rfl

/-- Texts with commas between them, and an end. -/
theorem intercalate_comma (t : PyStr) (ts : List PyStr) (last : CodePoint) :
    (ascii [',']).intercalate (t :: ts) ++ [last] =
      t ++ (ts.flatMap (fun u => .scalar ',' :: u) ++ [last]) := by
  induction ts generalizing t with
  | nil => simp [List.intercalate]
  | cons u ts ih =>
    rw [List.intercalate_cons_cons, List.append_assoc, List.append_assoc, ih, List.flatMap_cons]
    simp only [ascii, List.map_cons, List.map_nil, List.cons_append, List.nil_append,
      List.append_assoc]

mutual

/-- **A value of texts is written as such.** -/
theorem dumps_ofValue (v : JsonText.Value γ) :
    dumps repr .compact (ofValue g v) = ascii (JsonText.dumps (fun x => repr (g x)) v) := by
  match v with
  | .null => rfl
  | .bool true => rfl
  | .bool false => rfl
  | .int _ => rfl
  | .real _ => rfl
  | .str s => exact quote_ofString s
  | .arr [] => rfl
  | .arr (v :: vs) =>
    have hv := dumps_ofValue v
    have hvs := dumps_ofItems vs
    rw [JsonText.dumps, ascii_cons, ascii_append, ← hv, ← hvs]
    exact congrArg _ (intercalate_comma _ _ _)
  | .obj [] => rfl
  | .obj ((k, v) :: ms) =>
    have hv := dumps_ofValue v
    have hms := dumps_ofMembers ms
    have hjoin := intercalate_comma (quote (ofString k) ++ ascii [':'] ++
      dumps repr .compact (ofValue g v)) (dumpsMembers repr .compact (ofMembers g ms)) (.scalar '\x7d')
    rw [JsonText.dumps, ascii_cons, ascii_append, ascii_cons, ascii_append, ← hv, ← hms,
      ← quote_ofString]
    refine (congrArg _ hjoin).trans ?_
    simp only [ascii, List.map_cons, List.map_nil, List.append_assoc, List.cons_append,
      List.nil_append]

theorem dumps_ofItems (vs : List (JsonText.Value γ)) :
    (dumpsItems repr .compact (ofItems g vs)).flatMap (fun u => .scalar ',' :: u) ++ [.scalar ']'] =
      ascii (JsonText.dumpsItems (fun x => repr (g x)) vs) := by
  match vs with
  | [] => rfl
  | v :: vs =>
    have hv := dumps_ofValue v
    have hvs := dumps_ofItems vs
    rw [ofItems, dumpsItems, List.flatMap_cons, List.append_assoc, hvs, hv, JsonText.dumpsItems,
      ascii_cons, ascii_append, List.cons_append]

theorem dumps_ofMembers (ms : List (String × JsonText.Value γ)) :
    (dumpsMembers repr .compact (ofMembers g ms)).flatMap (fun u => .scalar ',' :: u)
        ++ [.scalar '\x7d'] =
      ascii (JsonText.dumpsMembers (fun x => repr (g x)) ms) := by
  match ms with
  | [] => rfl
  | (k, v) :: ms =>
    have hv := dumps_ofValue v
    have hms := dumps_ofMembers ms
    rw [ofMembers, dumpsMembers, List.flatMap_cons, List.append_assoc, hms, hv,
      JsonText.dumpsMembers, quote_ofString]
    simp only [ascii, Separators.compact, List.map_cons, List.map_append, List.map_nil,
      List.append_assoc, List.cons_append, List.nil_append]

end

end Writing

/-! ## Reading -/

section Reading

variable (f : Floats δ) (p : δ → Prop) [DecidablePred p]

/-- A reader that takes neither a surrogate on its own, nor a constant, nor a number outside `p`. -/
def strict : JsonText.Decoder Unit {x // p x} where
  malformed := ()
  real cs := if h : p (f.real cs) then .ok ⟨f.real cs, h⟩ else .error ()
  constant _ := .error ()
  object := .ok

variable {f p} {cs rest : List Char}

theorem expect_ok {α : Type} {x : Option α} {a : α} (h : (strict f p).expect x = .ok a) :
    x = some a := by
  cases x with
  | none => exact nomatch h
  | some b => exact congrArg some (Except.ok.inj h)

theorem codePoint_of {n : Nat} (h : ¬(0xD800 ≤ n ∧ n < 0xE000)) :
    codePoint n = .scalar (Char.ofNat n) := dif_neg h

theorem unicodeEscape_of_text {c : Char} (h : JsonText.unicodeEscape cs = some (c, rest)) :
    unicodeEscape cs = some (.scalar c, rest) := by
  obtain ⟨⟨high, behind⟩, hhigh, h⟩ := Option.bind_eq_some_iff.mp h
  simp only [unicodeEscape, hhigh, Option.bind_eq_bind, Option.bind_some] at h ⊢
  by_cases hsurrogate : 0xD800 ≤ high ∧ high < 0xDC00
  · rw [if_pos hsurrogate] at h ⊢
    split at h
    case h_2 => cases h
    case h_1 cs =>
      obtain ⟨⟨low, behind⟩, hlow, h⟩ := Option.bind_eq_some_iff.mp h
      by_cases hpair : 0xDC00 ≤ low ∧ low < 0xE000
      · simp only [if_pos hpair] at h
        obtain ⟨rfl, rfl⟩ := Prod.mk.inj (Option.some.inj h)
        simp only [hlow, Option.bind_some, if_pos hpair]
        rfl
      · simp only [if_neg hpair] at h
        cases h
  · rw [if_neg hsurrogate] at h ⊢
    split at h
    · cases h
    case isFalse hlow =>
      obtain ⟨rfl, rfl⟩ := Prod.mk.inj (Option.some.inj h)
      rw [codePoint_of (by omega)]
      rfl

theorem nextCode_of_text {c : Option Char} (h : JsonText.nextChar cs = some (c, rest)) :
    nextCode cs = some (c.map .scalar, rest) := by
  cases cs with
  | nil => cases h
  | cons d cs =>
    unfold JsonText.nextChar at h
    unfold nextCode
    simp only at h ⊢
    split at h
    case isTrue hquote =>
      obtain ⟨rfl, rfl⟩ := Prod.mk.inj (Option.some.inj h)
      rw [if_pos hquote]
      rfl
    case isFalse hquote =>
      rw [if_neg hquote]
      split at h
      case isTrue hslash =>
        rw [if_pos hslash]
        cases cs with
        | nil => cases h
        | cons e cs =>
          simp only at h ⊢
          split at h
          case isTrue hu =>
            obtain ⟨⟨x, behind⟩, hx, heq⟩ := Option.map_eq_some_iff.mp h
            obtain ⟨rfl, rfl⟩ := Prod.mk.inj heq
            rw [if_pos hu, unicodeEscape_of_text hx]
            rfl
          case isFalse hu =>
            obtain ⟨x, hx, heq⟩ := Option.map_eq_some_iff.mp h
            obtain ⟨rfl, rfl⟩ := Prod.mk.inj heq
            rw [if_neg hu, hx]
            rfl
      case isFalse hslash =>
        rw [if_neg hslash]
        split at h
        · cases h
        case isFalse hcontrol =>
          obtain ⟨rfl, rfl⟩ := Prod.mk.inj (Option.some.inj h)
          rw [if_neg hcontrol]
          rfl

theorem stringBody_of_text {n : Nat} {s : List Char}
    (h : JsonText.stringBody n cs = some (s, rest)) : stringBody n cs = some (ascii s, rest) := by
  induction n generalizing cs s with
  | zero => cases h
  | succ n ih =>
    rw [JsonText.stringBody] at h
    rw [stringBody]
    split at h
    · cases h
    case h_2 behind hnext =>
      obtain ⟨rfl, rfl⟩ := Prod.mk.inj (Option.some.inj h)
      rw [nextCode_of_text hnext]
      rfl
    case h_3 c behind hnext =>
      obtain ⟨⟨s', rest'⟩, hs, heq⟩ := Option.map_eq_some_iff.mp h
      obtain ⟨rfl, rfl⟩ := Prod.mk.inj heq
      rw [nextCode_of_text hnext]
      simp only [Option.map_some, ih hs]
      rfl

theorem string_of_text {s : String} (h : (strict f p).string cs = .ok (s, rest)) :
    stringBody (cs.length + 1) cs = some (ofString s, rest) := by
  obtain ⟨⟨s', rest'⟩, hbody, heq⟩ := bind_ok_iff.mp h
  obtain ⟨rfl, rfl⟩ := Prod.mk.inj (Except.ok.inj heq)
  rw [stringBody_of_text (expect_ok hbody), ofString, String.toList_ofList]
  rfl

theorem scalar_of_text {w : JsonText.Value {x // p x}}
    (h : (strict f p).scalar cs = .ok (w, rest)) :
    scalar f cs = some (ofValue Subtype.val w, rest) := by
  unfold JsonText.Decoder.scalar at h
  unfold scalar
  simp only at h
  split at h
  case isTrue hword =>
    obtain ⟨rfl, rfl⟩ := Prod.mk.inj (Except.ok.inj h)
    rw [if_pos hword]
    rfl
  case isFalse hnull =>
    rw [if_neg hnull]
    split at h
    case isTrue hword =>
      obtain ⟨rfl, rfl⟩ := Prod.mk.inj (Except.ok.inj h)
      rw [if_pos hword]
      rfl
    case isFalse htrue =>
      rw [if_neg htrue]
      split at h
      case isTrue hword =>
        obtain ⟨rfl, rfl⟩ := Prod.mk.inj (Except.ok.inj h)
        rw [if_pos hword]
        rfl
      case isFalse hfalse =>
        rw [if_neg hfalse]
        split at h
        · exact nomatch h
        case isFalse hnan =>
          rw [if_neg hnan]
          split at h
          · exact nomatch h
          case isFalse hinf =>
            rw [if_neg hinf]
            split at h
            · exact nomatch h
            case isFalse hneg =>
              rw [if_neg hneg]
              obtain ⟨⟨m, behind⟩, hm, h⟩ := bind_ok_iff.mp h
              rw [expect_ok hm, Option.map_some]
              simp only at h ⊢
              split at h
              case isTrue htail =>
                obtain ⟨rfl, rfl⟩ := Prod.mk.inj (Except.ok.inj h)
                rw [if_pos htail]
                rfl
              case isFalse htail =>
                rw [if_neg htail]
                obtain ⟨x, hx, h⟩ := bind_ok_iff.mp h
                obtain ⟨rfl, rfl⟩ := Prod.mk.inj (Except.ok.inj h)
                simp only [strict] at hx
                split at hx
                · obtain rfl := Except.ok.inj hx
                  rfl
                · exact nomatch hx

mutual

/-- **What the strict reader makes of a text the other one makes of it.** -/
theorem value_of_text {n : Nat} {cs rest : List Char} {w : JsonText.Value {x // p x}}
    (h : (strict f p).value n cs = .ok (w, rest)) :
    value f n cs = some (ofValue Subtype.val w, rest) := by
  match n, cs with
  | 0, _ => exact nomatch h
  | _ + 1, [] => exact nomatch h
  | n + 1, c :: cs =>
    rw [JsonText.Decoder.value] at h
    rw [value]
    by_cases hquote : c = '"'
    · rw [if_pos hquote] at h ⊢
      obtain ⟨⟨s, behind⟩, hs, h⟩ := bind_ok_iff.mp h
      obtain ⟨rfl, rfl⟩ := Prod.mk.inj (Except.ok.inj h)
      rw [string_of_text hs]
      rfl
    rw [if_neg hquote] at h ⊢
    by_cases harray : c = '['
    · rw [if_pos harray] at h ⊢
      by_cases hend : (skip cs).head? = some ']'
      · rw [if_pos hend] at h ⊢
        obtain ⟨rfl, rfl⟩ := Prod.mk.inj (Except.ok.inj h)
        rfl
      · rw [if_neg hend] at h ⊢
        obtain ⟨⟨v, behind⟩, hv, h⟩ := bind_ok_iff.mp h
        obtain ⟨⟨vs, behind'⟩, hvs, h⟩ := bind_ok_iff.mp h
        obtain ⟨rfl, rfl⟩ := Prod.mk.inj (Except.ok.inj h)
        simp only [value_of_text hv, items_of_text hvs, Option.bind_eq_bind, Option.bind_some]
        rfl
    rw [if_neg harray] at h ⊢
    by_cases hobject : c = '\x7b'
    · rw [if_pos hobject] at h ⊢
      by_cases hend : (skip cs).head? = some '\x7d'
      · rw [if_pos hend] at h ⊢
        obtain ⟨rfl, rfl⟩ := Prod.mk.inj (Except.ok.inj h)
        rfl
      · rw [if_neg hend] at h ⊢
        obtain ⟨⟨m, behind⟩, hm, h⟩ := bind_ok_iff.mp h
        obtain ⟨⟨ms, behind'⟩, hms, h⟩ := bind_ok_iff.mp h
        obtain ⟨rfl, rfl⟩ := Prod.mk.inj (Except.ok.inj h)
        simp only [member_of_text hm, members_of_text hms, Option.bind_eq_bind, Option.bind_some]
        rfl
    · rw [if_neg hobject] at h ⊢
      exact scalar_of_text h

theorem items_of_text {n : Nat} {cs rest : List Char} {ws : List (JsonText.Value {x // p x})}
    (h : (strict f p).items n cs = .ok (ws, rest)) :
    items f n cs = some (ofItems Subtype.val ws, rest) := by
  match n, cs with
  | 0, _ => exact nomatch h
  | _ + 1, [] => exact nomatch h
  | n + 1, c :: cs =>
    rw [JsonText.Decoder.items] at h
    rw [items]
    by_cases hend : c = ']'
    · rw [if_pos hend] at h ⊢
      obtain ⟨rfl, rfl⟩ := Prod.mk.inj (Except.ok.inj h)
      rfl
    rw [if_neg hend] at h ⊢
    by_cases hcomma : c = ','
    · rw [if_pos hcomma] at h ⊢
      obtain ⟨⟨v, behind⟩, hv, h⟩ := bind_ok_iff.mp h
      obtain ⟨⟨vs, behind'⟩, hvs, h⟩ := bind_ok_iff.mp h
      obtain ⟨rfl, rfl⟩ := Prod.mk.inj (Except.ok.inj h)
      simp only [value_of_text hv, items_of_text hvs, Option.bind_eq_bind, Option.bind_some]
      rfl
    · rw [if_neg hcomma] at h
      exact nomatch h

theorem member_of_text {n : Nat} {cs rest : List Char} {m : String × JsonText.Value {x // p x}}
    (h : (strict f p).member n cs = .ok (m, rest)) :
    member f n cs = some ((ofString m.1, ofValue Subtype.val m.2), rest) := by
  match n, cs with
  | 0, _ => exact nomatch h
  | _ + 1, [] => exact nomatch h
  | n + 1, c :: cs =>
    rw [JsonText.Decoder.member] at h
    rw [member]
    by_cases hquote : c = '"'
    · rw [if_pos hquote] at h ⊢
      obtain ⟨⟨k, behind⟩, hk, h⟩ := bind_ok_iff.mp h
      simp only at h
      by_cases hcolon : (skip behind).head? = some ':'
      · rw [if_pos hcolon] at h
        obtain ⟨⟨v, behind'⟩, hv, h⟩ := bind_ok_iff.mp h
        obtain ⟨rfl, rfl⟩ := Prod.mk.inj (Except.ok.inj h)
        simp only [string_of_text hk, Option.bind_eq_bind, Option.bind_some, if_pos hcolon,
          value_of_text hv]
        rfl
      · rw [if_neg hcolon] at h
        exact nomatch h
    · rw [if_neg hquote] at h
      exact nomatch h

theorem members_of_text {n : Nat} {cs rest : List Char}
    {ms : List (String × JsonText.Value {x // p x})}
    (h : (strict f p).members n cs = .ok (ms, rest)) :
    members f n cs = some (ofMembers Subtype.val ms, rest) := by
  match n, cs with
  | 0, _ => exact nomatch h
  | _ + 1, [] => exact nomatch h
  | n + 1, c :: cs =>
    rw [JsonText.Decoder.members] at h
    rw [members]
    by_cases hend : c = '\x7d'
    · rw [if_pos hend] at h ⊢
      obtain ⟨rfl, rfl⟩ := Prod.mk.inj (Except.ok.inj h)
      rfl
    rw [if_neg hend] at h ⊢
    by_cases hcomma : c = ','
    · rw [if_pos hcomma] at h ⊢
      obtain ⟨⟨m, behind⟩, hm, h⟩ := bind_ok_iff.mp h
      obtain ⟨⟨ms, behind'⟩, hms, h⟩ := bind_ok_iff.mp h
      obtain ⟨rfl, rfl⟩ := Prod.mk.inj (Except.ok.inj h)
      simp only [member_of_text hm, members_of_text hms, Option.bind_eq_bind, Option.bind_some]
      rfl
    · rw [if_neg hcomma] at h
      exact nomatch h

end

theorem syntaxTree_of_text {w : JsonText.Value {x // p x}} (h : (strict f p).loads cs = .ok w) :
    syntaxTree f cs = some (ofValue Subtype.val w) := by
  obtain ⟨⟨v, behind⟩, hv, h⟩ := bind_ok_iff.mp h
  simp only at h
  by_cases hend : skip behind = []
  · rw [if_pos hend] at h
    obtain rfl := Except.ok.inj h
    simp only [syntaxTree, value_of_text hv, Option.bind_eq_bind, Option.bind_some, if_pos hend]
    rfl
  · rw [if_neg hend] at h
    exact nomatch h

end Reading

/-! ## The round trip -/

/-- Reals of `p` are written as numerals with a fraction or an exponent and read back. -/
structure Reads (f : Floats δ) (repr : δ → List Char) (p : δ → Prop) : Prop where
  token : ∀ x, p x → ∃ m, numeral (repr x) = some (m, []) ∧ m.tail ≠ [] ∧ m.text = repr x
  real : ∀ x, p x → f.real (repr x) = x

section RoundTrip

variable {f : Floats δ} {repr : δ → List Char} {p : δ → Prop} {v : PyJson δ}

/-- **What was written of a value of texts is read again.** -/
theorem loads_dumps (hreads : Reads f repr p) (htext : v.All IsText IsText) (hreals : v.Reals p)
    (hdistinct : v.Distinct) :
    ∃ cs, cs ≠ [] ∧ (dumps repr .compact v).chars? = some cs ∧ loads f cs = some v := by
  classical
  obtain ⟨w, hw, rfl⟩ := exists_ofValue htext hreals hdistinct
  have hcodec : JsonText.Codec (fun x : {x // p x} => repr x.val) (strict f p) := by
    refine ⟨fun x => hreads.token x.val x.property, fun x => ?_, fun _ _ => rfl⟩
    have hreal := hreads.real x.val x.property
    simp only [strict]
    rw [dif_pos (hreal.symm ▸ x.property)]
    exact congrArg Except.ok (Subtype.ext hreal)
  refine ⟨JsonText.dumps (fun x => repr x.val) w, ?_, ?_, ?_⟩
  · exact List.ne_nil_of_length_pos (JsonText.length_dumps hcodec w)
  · exact chars?_eq_some_iff.mpr (dumps_ofValue w).symm
  · rw [loads, syntaxTree_of_text (JsonText.Decoder.loads_dumps hcodec w hw), Option.map_some,
      collapse_of_distinct hdistinct]

end RoundTrip

end Sana.Lib.PyJson
