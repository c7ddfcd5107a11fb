import Sana.Lib.PyRoundTrip
import Sana.Lib.Utf8

/-!
# Dictionaries with known names, written and read again

A record is written from a list of names and values. Whoever reads it back asks by name, so it does
not matter that the writer sorts the names. A value is writable where nothing stands between it and its
text: no surrogate on its own, no name twice, no float that does not read back.
-/

namespace Sana.Lib

/-! ## The order of strings and of their bytes -/

theorem CodePoint.toNat_injective : Function.Injective CodePoint.toNat := by
  intro c d h
  cases c with
  | scalar c =>
    cases d with
    | scalar d => exact congrArg scalar (Char.toNat_inj.mp h)
    | lone n =>
      -- a scalar value is no surrogate
      have hcode : c.toNat = 0xD800 + n := h
      have hvalid : c.toNat < 0xD800 ∨ 0xDFFF < c.toNat ∧ c.toNat < 0x110000 := c.valid
      omega
  | lone n =>
    cases d with
    | scalar d =>
      have hcode : 0xD800 + n = d.toNat := h
      have hvalid : d.toNat < 0xD800 ∨ 0xDFFF < d.toNat ∧ d.toNat < 0x110000 := d.valid
      omega
    | lone m =>
      have hcode : 0xD800 + n.val = 0xD800 + m.val := h
      exact congrArg lone (Fin.ext (Nat.add_left_cancel hcode))

namespace PyStr

theorem order_injective : Function.Injective order :=
  List.map_injective_iff.mpr CodePoint.toNat_injective

theorem order_ascii_le_iff (cs ds : List Char) : order (ascii cs) ≤ order (ascii ds) ↔ cs ≤ ds := by
  have hmap : ∀ l : List Char, order (ascii l) = l.map Char.toNat := fun l => List.map_map
  rw [hmap, hmap]
  have hlt : ∀ {x y : List Char}, x < y → x.map Char.toNat < y.map Char.toNat := fun h =>
    List.map_lt (fun _ _ h => h) h
  constructor
  · intro h
    by_contra hne
    exact absurd (hlt (not_le.mp hne)) (not_lt.mpr h)
  · intro h
    rcases lt_or_eq_of_le h with h | rfl
    · exact le_of_lt (hlt h)
    · exact le_refl _

/-- **Encoded strings come in the order of the strings.** -/
theorem order_encode_le_iff {s t : PyStr} {x y : ByteArray} (hs : s.encode = some x)
    (ht : t.encode = some y) : Utf8.order x ≤ Utf8.order y ↔ s.order ≤ t.order := by
  obtain ⟨cs, hcs, rfl⟩ := Option.map_eq_some_iff.mp hs
  obtain ⟨ds, hds, rfl⟩ := Option.map_eq_some_iff.mp ht
  rw [Utf8.order_le_iff, ← PyJson.chars?_eq_some_iff.mp hcs, ← PyJson.chars?_eq_some_iff.mp hds,
    order_ascii_le_iff]

end PyStr

namespace PyJson

open PyStr

variable {δ : Type}

/-! ## Records -/

/-- A dictionary with these names. -/
def record (members : List (String × PyJson δ)) : PyJson δ :=
  .obj (members.map fun m => (ofString m.1, m.2))

/-- A string of characters. -/
def text (s : String) : PyJson δ := .str (ofString s)

/-- `value[name]` of a dictionary, `none` for a `KeyError` or a value that is no dictionary. -/
def field (name : String) : PyJson δ → Option (PyJson δ)
  | .obj members => members.lookup (ofString name)
  | .null | .bool _ | .int _ | .real _ | .str _ | .arr _ => none

/-- What `json.loads` makes of the bytes of `json.dumps(value, sort_keys=True)`. -/
def reload (f : Floats δ) (repr : δ → List Char) (v : PyJson δ) : Option (PyJson δ) := do
  let payload ← (dumpsSorted repr .compact v).encode
  let source ← String.fromUTF8? payload
  loads f source.toList

/-- The value can be written, and its floats, names and strings are read again. -/
structure Writable (p : δ → Prop) (v : PyJson δ) : Prop where
  texts : v.All IsText IsText
  reals : v.Reals p
  distinct : v.Distinct

variable {p : δ → Prop} {v : PyJson δ} {ms : List (String × PyJson δ)}

theorem isText_ofString (s : String) : (ofString s).IsText := isText_ascii s.toList

theorem writable_text (s : String) : (text s : PyJson δ).Writable p :=
  ⟨isText_ofString s, trivial, trivial⟩

theorem writable_arr {vs : List (PyJson δ)} (h : ∀ v ∈ vs, v.Writable p) :
    (PyJson.arr vs).Writable p := by
  have hitems : AllItems IsText IsText vs ∧ RealsItems p vs ∧ DistinctItems vs := by
    induction vs with
    | nil => exact ⟨trivial, trivial, trivial⟩
    | cons v vs ih =>
      rw [List.forall_mem_cons] at h
      obtain ⟨htexts, hreals, hdistinct⟩ := ih h.2
      exact ⟨⟨h.1.texts, htexts⟩, ⟨h.1.reals, hreals⟩, h.1.distinct, hdistinct⟩
  exact ⟨hitems.1, hitems.2.1, hitems.2.2⟩

theorem writable_record (hnodup : (ms.map (·.1)).Nodup) (h : ∀ m ∈ ms, m.2.Writable p) :
    (record ms).Writable p := by
  have hnames : ((ms.map fun m => (ofString m.1, m.2)).map (·.1)).Nodup := by
    have hinj := hnodup.map ofString_injective
    rw [List.map_map] at hinj ⊢
    exact hinj
  refine ⟨allMembers_iff.mpr ?_, realsMembers_iff.mpr ?_, hnames, distinctMembers_iff.mpr ?_⟩
  · rw [List.forall_mem_map]
    exact fun m hm => ⟨isText_ofString m.1, (h m hm).texts⟩
  · rw [List.forall_mem_map]
    exact fun m hm => (h m hm).reals
  · rw [List.forall_mem_map]
    exact fun m hm => (h m hm).distinct

theorem sortItems_eq (vs : List (PyJson δ)) : sortItems vs = vs.map sortKeys := by
  induction vs with
  | nil => rfl
  | cons v vs ih => rw [sortItems, ih, List.map_cons]

/-- A name is found among the sorted members. -/
theorem field_sortKeys_record (hnodup : (ms.map (·.1)).Nodup) {name : String}
    (h : (name, v) ∈ ms) : (record ms).sortKeys.field name = some v.sortKeys := by
  -- the members as the writer arranges them
  have hperm := rank_perm (fun m => PyStr.order m.1)
    (sortMembers (ms.map fun m => (ofString m.1, m.2)))
  have hnames : ((sortMembers (ms.map fun m => (ofString m.1, m.2))).map (·.1)).Nodup := by
    have hinj := hnodup.map ofString_injective
    rw [List.map_map] at hinj
    rw [sortMembers_eq, List.map_map, List.map_map]
    exact hinj
  have hmem : (ofString name, v.sortKeys) ∈ sortMembers (ms.map fun m => (ofString m.1, m.2)) := by
    rw [sortMembers_eq, List.map_map]
    exact List.mem_map.mpr ⟨(name, v), h, rfl⟩
  rw [record, sortKeys, field]
  exact Dict.lookup_of_mem ((hperm.map (·.1)).nodup_iff.mpr hnames) (hperm.mem_iff.mpr hmem)

/-! ## Reading what was written -/

variable {f : Floats δ} {repr : δ → List Char}

/-- The text of a writable value, and what it is read as. -/
theorem exists_encoding (hreads : Reads f repr p) (h : v.Writable p) : ∃ cs, cs ≠ [] ∧
    (dumpsSorted repr .compact v).encode = some (String.ofList cs).toUTF8 ∧
      loads f cs = some v.sortKeys := by
  obtain ⟨cs, hne, hchars, hloads⟩ := loads_dumps hreads ((all_sortKeys v).mpr h.texts)
    (reals_sortKeys h.reals) (distinct_sortKeys h.distinct)
  refine ⟨cs, hne, ?_, hloads⟩
  rw [encode, dumpsSorted, hchars, Option.map_some]

/-- **A writable value is read again, with its names sorted.** -/
theorem reload_eq (hreads : Reads f repr p) (h : v.Writable p) :
    reload f repr v = some v.sortKeys := by
  obtain ⟨cs, -, hencode, hloads⟩ := exists_encoding hreads h
  rw [reload, hencode, Option.bind_eq_bind, Option.bind_some, Utf8.fromUTF8?_toUTF8,
    Option.bind_eq_bind, Option.bind_some, String.toList_ofList, hloads]

/-- The texts of writable values tell them apart. -/
theorem dumps_inj (hreads : Reads f repr p) {w : PyJson δ} (hv : v.Writable p)
    (hw : w.Writable p) (h : dumps repr .compact v = dumps repr .compact w) : v = w := by
  obtain ⟨cs, -, hcs, hloads⟩ := loads_dumps hreads hv.texts hv.reals hv.distinct
  obtain ⟨ds, -, hds, hloads'⟩ := loads_dumps hreads hw.texts hw.reals hw.distinct
  obtain rfl : cs = ds := Option.some.inj (hcs.symm.trans (h ▸ hds))
  exact Option.some.inj (hloads.symm.trans hloads')

end PyJson

end Sana.Lib
