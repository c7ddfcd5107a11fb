import Sana.Shadow.Canonical

/-!
# What canonical snapshots keep

A value has one normal form: its canonical value with the keys sorted, where that can be
written. The text, the hash and the snapshot are functions of it, so each law is an equation
between normal forms. Freezing keeps the canonical value itself. A set is ranked by the texts
of its members, which tell them apart because a written text is read again.
-/

namespace Sana.Shadow

open Sana.Lib Orchestration
open PyStr (IsText)
open PyJson (AllItems AllMembers RealsItems RealsMembers DistinctItems DistinctMembers sortItems
  sortMembers sortItems_eq sortMembers_eq allMembers_iff realsMembers_iff distinctMembers_iff)

variable {φ : Type}

/-! ## Sorting by a computed key -/

section Sorted

variable {α : Type} {key : α → Except Exn (List Nat)} {k : α → List Nat} {l r : List α}

theorem sortedBy_of_ok (h : ∀ x ∈ l, key x = .ok (k x)) : sortedBy key l = .ok (rank k l) := by
  have hkeyed : (l.mapM fun x => do return (← key x, x)) = .ok (l.map fun x => (k x, x)) := by
    induction l with
    | nil => rfl
    | cons x l ih =>
        rw [List.forall_mem_cons] at h
        rw [List.mapM_cons, h.1, ih h.2]
        rfl
  refine bind_ok_iff.mpr ⟨_, hkeyed, ?_⟩
  rw [rank_map, List.map_map]
  exact congrArg Except.ok (List.map_id _)

theorem key_of_mapM {keyed : List (List Nat × α)}
    (h : (l.mapM fun x => do return (← key x, x)) = .ok keyed) : ∀ x ∈ l, ∃ n, key x = .ok n := by
  induction l generalizing keyed with
  | nil => exact List.forall_mem_nil _
  | cons x l ih =>
      rw [List.mapM_cons] at h
      obtain ⟨m, hm, h⟩ := bind_ok_iff.mp h
      obtain ⟨n, hn, -⟩ := bind_ok_iff.mp hm
      obtain ⟨rest, hrest, -⟩ := bind_ok_iff.mp h
      exact List.forall_mem_cons.mpr ⟨⟨n, hn⟩, ih hrest⟩

/-- **What is sorted had all its keys.** -/
theorem key_of_sortedBy (h : sortedBy key l = .ok r) : ∀ x ∈ l, ∃ n, key x = .ok n := by
  obtain ⟨keyed, hkeyed, -⟩ := bind_ok_iff.mp h
  exact key_of_mapM hkeyed

end Sorted

/-! ## What can be written -/

theorem printableItems_iff {vs : List (PyJson φ)} :
    printableItems vs = true ↔ ∀ v ∈ vs, printable v = true := by
  induction vs with
  | nil => simp [printableItems]
  | cons v vs ih => rw [printableItems, Bool.and_eq_true, ih, List.forall_mem_cons]

theorem printableMembers_iff {ms : List (PyStr × PyJson φ)} :
    printableMembers ms = true ↔ ∀ m ∈ ms, printable m.2 = true := by
  induction ms with
  | nil => simp [printableMembers]
  | cons m ms ih => rw [printableMembers, Bool.and_eq_true, ih, List.forall_mem_cons]

theorem allItems_iff {p q : PyStr → Prop} {vs : List (PyJson φ)} :
    AllItems p q vs ↔ ∀ v ∈ vs, v.All p q := by
  induction vs with
  | nil => exact ⟨fun _ => List.forall_mem_nil _, fun _ => trivial⟩
  | cons v vs ih => rw [AllItems, ih, List.forall_mem_cons]

mutual

/-- Sorting the keys changes no integer. -/
theorem printable_sortKeys (v : PyJson φ) : printable v.sortKeys = printable v := by
  cases v with
  | arr items => exact printable_sortItems items
  | obj members =>
      rw [PyJson.sortKeys, printable, printable, ← printable_sortMembers members, Bool.eq_iff_iff,
        printableMembers_iff, printableMembers_iff]
      exact forall_congr' fun m => imp_congr_left mem_rank
  | _ => rfl

theorem printable_sortItems (vs : List (PyJson φ)) :
    printableItems (sortItems vs) = printableItems vs := by
  cases vs with
  | nil => rfl
  | cons v vs => exact congrArg₂ and (printable_sortKeys v) (printable_sortItems vs)

theorem printable_sortMembers (ms : List (PyStr × PyJson φ)) :
    printableMembers (sortMembers ms) = printableMembers ms := by
  cases ms with
  | nil => rfl
  | cons m ms => exact congrArg₂ and (printable_sortKeys m.2) (printable_sortMembers ms)

end

/-- A value has a text in UTF-8: no integer is too long, and no surrogate is on its own. -/
structure Written (v : PyJson φ) : Prop where
  ints : printable v = true
  texts : v.All IsText IsText

theorem written_iff {v : PyJson φ} : Written v ↔ printable v = true ∧ v.All IsText IsText :=
  ⟨fun h => ⟨h.ints, h.texts⟩, fun h => ⟨h.1, h.2⟩⟩

instance (v : PyJson φ) : Decidable (Written v) := decidable_of_iff _ written_iff.symm

theorem written_arr {vs : List (PyJson φ)} : Written (.arr vs) ↔ ∀ v ∈ vs, Written v := by
  rw [written_iff, printable, PyJson.All, printableItems_iff, allItems_iff]
  exact ⟨fun h v hv => ⟨h.1 v hv, h.2 v hv⟩, fun h => ⟨fun v hv => (h v hv).ints,
    fun v hv => (h v hv).texts⟩⟩

theorem written_obj {ms : List (PyStr × PyJson φ)} :
    Written (.obj ms) ↔ ∀ m ∈ ms, m.1.IsText ∧ Written m.2 := by
  rw [written_iff, printable, PyJson.All, printableMembers_iff, allMembers_iff]
  exact ⟨fun h m hm => ⟨(h.2 m hm).1, h.1 m hm, (h.2 m hm).2⟩,
    fun h => ⟨fun m hm => (h m hm).2.ints, fun m hm => ⟨(h m hm).1, (h m hm).2.texts⟩⟩⟩

theorem written_sortKeys {v : PyJson φ} : Written v.sortKeys ↔ Written v := by
  rw [written_iff, written_iff, printable_sortKeys, PyJson.all_sortKeys]

theorem sortKeys_arr (vs : List (PyJson φ)) :
    (PyJson.arr vs).sortKeys = .arr (vs.map PyJson.sortKeys) := by
  rw [PyJson.sortKeys, sortItems_eq]

theorem sortKeys_obj (ms : List (PyStr × PyJson φ)) : (PyJson.obj ms).sortKeys =
    .obj ((rank (fun m => PyStr.order m.1) ms).map fun m => (m.1, m.2.sortKeys)) := by
  rw [PyJson.sortKeys, sortMembers_eq, rank_map]

/-! ### What is written of a value -/

/-- The value with its keys sorted, if it can be written. -/
def written (v : PyJson φ) : Option (PyJson φ) := if Written v then some v.sortKeys else none

theorem written_eq_some_iff {v w : PyJson φ} : written v = some w ↔ Written v ∧ w = v.sortKeys := by
  unfold written
  split
  · rename_i h
    rw [Option.some.injEq, eq_comm]
    exact (and_iff_right h).symm
  · rename_i h
    exact iff_of_false (by simp) fun hv => h hv.1

/-- A list of values has a text where all of them have. -/
theorem mapM_written (vs : List (PyJson φ)) : vs.mapM written =
    if ∀ v ∈ vs, Written v then some (vs.map PyJson.sortKeys) else none := by
  induction vs with
  | nil => rfl
  | cons v vs ih =>
      rw [List.mapM_cons, ih, written]
      by_cases hv : Written v
      · by_cases hvs : ∀ w ∈ vs, Written w
        · rw [if_pos hv, if_pos hvs, if_pos (List.forall_mem_cons.mpr ⟨hv, hvs⟩)]
          rfl
        · rw [if_pos hv, if_neg hvs, if_neg fun h => hvs (List.forall_mem_cons.mp h).2]
          rfl
      · rw [if_neg hv, if_neg fun h => hv (List.forall_mem_cons.mp h).1]
        rfl

/-- What is written of a member. -/
def writtenMember (m : PyStr × PyJson φ) : Option (PyStr × PyJson φ) :=
  if m.1.IsText then (written m.2).map (m.1, ·) else none

theorem mapM_writtenMember (ms : List (PyStr × PyJson φ)) : ms.mapM writtenMember =
    if ∀ m ∈ ms, m.1.IsText ∧ Written m.2 then some (ms.map fun m => (m.1, m.2.sortKeys))
    else none := by
  induction ms with
  | nil => rfl
  | cons m ms ih =>
      rw [List.mapM_cons, ih, writtenMember, written]
      by_cases hk : m.1.IsText
      · by_cases hv : Written m.2
        · by_cases hms : ∀ n ∈ ms, n.1.IsText ∧ Written n.2
          · rw [if_pos hk, if_pos hv, if_pos hms, if_pos (List.forall_mem_cons.mpr ⟨⟨hk, hv⟩, hms⟩)]
            rfl
          · rw [if_pos hk, if_pos hv, if_neg hms, if_neg fun h => hms (List.forall_mem_cons.mp h).2]
            rfl
        · have hall : ¬∀ n ∈ m :: ms, n.1.IsText ∧ Written n.2 := fun h =>
            hv (h m List.mem_cons_self).2
          rw [if_pos hk, if_neg hv, if_neg hall]
          rfl
      · have hall : ¬∀ n ∈ m :: ms, n.1.IsText ∧ Written n.2 := fun h =>
          hk (h m List.mem_cons_self).1
        rw [if_neg hk, if_neg hall]
        rfl

theorem written_items (vs : List (PyJson φ)) : written (.arr vs) = (vs.mapM written).map .arr := by
  rw [mapM_written, written]
  by_cases h : ∀ v ∈ vs, Written v
  · rw [if_pos h, if_pos (written_arr.mpr h), sortKeys_arr]
    rfl
  · rw [if_neg h, if_neg fun hw => h (written_arr.mp hw)]
    rfl

theorem written_members (ms : List (PyStr × PyJson φ)) : written (.obj ms) =
    (ms.mapM writtenMember).map fun ns => .obj (rank (fun n => PyStr.order n.1) ns) := by
  rw [mapM_writtenMember, written]
  by_cases h : ∀ m ∈ ms, m.1.IsText ∧ Written m.2
  · rw [if_pos h, if_pos (written_obj.mpr h), sortKeys_obj, Option.map_some, rank_map]
  · rw [if_neg h, if_neg fun hw => h (written_obj.mp hw)]
    rfl

/-! ## Canonical values -/

theorem ofJsonMembers_eq (ms : List (PyStr × PyJson φ)) :
    ofJsonMembers ms = ms.map fun m => (m.1, PyValue.ofJson m.2) := by
  induction ms with
  | nil => rfl
  | cons m ms ih => rw [ofJsonMembers, ih, List.map_cons]

theorem distinctItems_iff {vs : List (PyJson φ)} : DistinctItems vs ↔ ∀ v ∈ vs, v.Distinct := by
  induction vs with
  | nil => simp [DistinctItems]
  | cons v vs ih => rw [DistinctItems, ih, List.forall_mem_cons]

theorem realsItems_iff {p : φ → Prop} {vs : List (PyJson φ)} :
    RealsItems p vs ↔ ∀ v ∈ vs, v.Reals p := by
  induction vs with
  | nil => simp [RealsItems]
  | cons v vs ih => rw [RealsItems, ih, List.forall_mem_cons]

namespace SnapshotBuiltins

variable {b : SnapshotBuiltins φ}

mutual

/-- What was loaded is canonical, if its floats are finite. -/
theorem canonicalValue_ofJson (v : PyJson φ) (h : v.Reals (b.isFinite · = true)) :
    b.canonicalValue (.ofJson v) = .ok v := by
  cases v with
  | arr items =>
      rw [PyValue.ofJson, canonicalValue, canonicalItems_ofJson items h]
      rfl
  | obj members =>
      rw [PyValue.ofJson, canonicalValue, canonicalMembers_ofJson members h]
      rfl
  | real x => exact if_pos h
  | _ => rfl

theorem canonicalItems_ofJson (vs : List (PyJson φ)) (h : RealsItems (b.isFinite · = true) vs) :
    b.canonicalItems (ofJsonItems vs) = .ok vs := by
  cases vs with
  | nil => rfl
  | cons v vs =>
      rw [ofJsonItems, canonicalItems, canonicalValue_ofJson v h.1, canonicalItems_ofJson vs h.2]
      rfl

theorem canonicalMembers_ofJson (ms : List (PyStr × PyJson φ))
    (h : RealsMembers (b.isFinite · = true) ms) :
    b.canonicalMembers (ofJsonMembers ms) = .ok ms := by
  cases ms with
  | nil => rfl
  | cons m ms =>
      obtain ⟨k, v⟩ := m
      rw [ofJsonMembers, canonicalMembers, canonicalValue_ofJson v h.1,
        canonicalMembers_ofJson ms h.2]
      rfl

end

/-- The canonical members have the names of the members. -/
theorem names_canonicalMembers {ms : List (PyStr × PyValue φ)} {ws : List (PyStr × PyJson φ)}
    (h : b.canonicalMembers ms = .ok ws) : ws.map (·.1) = ms.map (·.1) := by
  induction ms generalizing ws with
  | nil =>
      obtain rfl := Except.ok.inj h
      rfl
  | cons m ms ih =>
      obtain ⟨w, -, h⟩ := bind_ok_iff.mp h
      obtain ⟨rest, hrest, h⟩ := bind_ok_iff.mp h
      obtain rfl := pure_ok_iff.mp h
      rw [List.map_cons, List.map_cons, ih hrest]

/-! ### Sets -/

variable (b) in
/-- What the members of a set are ranked by. -/
def textOrder (w : PyJson φ) : List Nat := PyStr.order (PyJson.dumpsSorted b.repr .compact w)

theorem jsonText_ok_iff {w : PyJson φ} {t : PyStr} :
    b.jsonText w = .ok t ↔ printable w = true ∧ t = PyJson.dumpsSorted b.repr .compact w := by
  unfold jsonText
  split
  · rename_i h
    rw [Except.ok.injEq, eq_comm]
    exact (and_iff_right h).symm
  · rename_i h
    exact iff_of_false (by simp) fun ht => h ht.1

/-- **A set has a canonical value where all its members have a text.** -/
theorem canonicalValue_set_ok_iff {vs : List (PyValue φ)} {w : PyJson φ} :
    b.canonicalValue (.set vs) = .ok w ↔ ∃ ws, b.canonicalItems vs = .ok ws ∧
      (∀ x ∈ ws, printable x = true) ∧ w = .arr (rank b.textOrder ws) := by
  have hsorted : ∀ ws : List (PyJson φ), (∀ x ∈ ws, printable x = true) →
      sortedBy (fun item => do return PyStr.order (← b.jsonText item)) ws =
        .ok (rank b.textOrder ws) := by
    intro ws hws
    refine sortedBy_of_ok fun x hx => ?_
    exact bind_ok_iff.mpr ⟨_, jsonText_ok_iff.mpr ⟨hws x hx, rfl⟩, rfl⟩
  constructor
  · intro h
    obtain ⟨ws, hws, h⟩ := bind_ok_iff.mp h
    obtain ⟨rs, hrs, h⟩ := bind_ok_iff.mp h
    obtain rfl := pure_ok_iff.mp h
    -- a member without a text would have raised while it was ranked
    have hprintable : ∀ x ∈ ws, printable x = true := by
      intro x hx
      obtain ⟨n, hn⟩ := key_of_sortedBy hrs x hx
      obtain ⟨t, ht, -⟩ := bind_ok_iff.mp hn
      exact (jsonText_ok_iff.mp ht).1
    obtain rfl := Except.ok.inj (hrs.symm.trans (hsorted ws hprintable))
    exact ⟨ws, hws, hprintable, rfl⟩
  · rintro ⟨ws, hws, hprintable, rfl⟩
    exact bind_ok_iff.mpr ⟨ws, hws, bind_ok_iff.mpr ⟨_, hsorted ws hprintable, rfl⟩⟩

/-! ### What every canonical value is -/

mutual

/-- A value without doubled keys has a canonical value without them, and its floats are finite. -/
theorem sound_canonicalValue : ∀ (v : PyValue φ) {w : PyJson φ}, v.Distinct →
    b.canonicalValue v = .ok w → w.Distinct ∧ w.Reals (b.isFinite · = true)
  | .mapping members, w, hv, h => by
      obtain ⟨ws, hws, h⟩ := bind_ok_iff.mp h
      obtain rfl := pure_ok_iff.mp h
      obtain ⟨hdistinct, hreals⟩ := sound_canonicalMembers members hv.2 hws
      refine ⟨⟨?_, hdistinct⟩, hreals⟩
      rw [names_canonicalMembers hws]
      exact hv.1
  | .dataclass _ members, w, hv, h => by
      obtain ⟨ws, hws, h⟩ := bind_ok_iff.mp h
      obtain rfl := pure_ok_iff.mp h
      obtain ⟨hdistinct, hreals⟩ := sound_canonicalMembers members hv.2 hws
      refine ⟨⟨?_, hdistinct⟩, hreals⟩
      rw [names_canonicalMembers hws]
      exact hv.1
  | .sequence items, w, hv, h => by
      obtain ⟨ws, hws, h⟩ := bind_ok_iff.mp h
      obtain rfl := pure_ok_iff.mp h
      exact sound_canonicalItems items hv hws
  | .set items, w, hv, h => by
      obtain ⟨ws, hws, -, rfl⟩ := canonicalValue_set_ok_iff.mp h
      obtain ⟨hdistinct, hreals⟩ := sound_canonicalItems items hv hws
      rw [distinctItems_iff] at hdistinct
      rw [realsItems_iff] at hreals
      exact ⟨distinctItems_iff.mpr fun x hx => hdistinct x (mem_rank.mp hx),
        realsItems_iff.mpr fun x hx => hreals x (mem_rank.mp hx)⟩
  | .decimal d, w, hv, h => by
      unfold canonicalValue at h
      split at h
      · obtain rfl := Except.ok.inj h
        exact ⟨trivial, trivial⟩
      · cases h
  | .datetime t, w, hv, h => by
      unfold canonicalValue at h
      split at h
      · obtain rfl := Except.ok.inj h
        exact ⟨trivial, trivial⟩
      · cases h
  | .float x, w, hv, h => by
      unfold canonicalValue at h
      split at h
      · rename_i hfinite
        obtain rfl := Except.ok.inj h
        exact ⟨trivial, hfinite⟩
      · cases h
  | .none, w, hv, h | .bool _, w, hv, h | .int _, w, hv, h | .str _, w, hv, h
  | .strEnum _, w, hv, h | .uuid _, w, hv, h => by
      obtain rfl := Except.ok.inj h
      exact ⟨trivial, trivial⟩
  | .other _, w, hv, h => by cases h

theorem sound_canonicalItems : ∀ (vs : List (PyValue φ)) {ws : List (PyJson φ)},
    DistinctElements vs → b.canonicalItems vs = .ok ws →
      DistinctItems ws ∧ RealsItems (b.isFinite · = true) ws
  | [], ws, _, h => by
      obtain rfl := Except.ok.inj h
      exact ⟨trivial, trivial⟩
  | v :: vs, ws, hv, h => by
      obtain ⟨w, hw, h⟩ := bind_ok_iff.mp h
      obtain ⟨rest, hrest, h⟩ := bind_ok_iff.mp h
      obtain rfl := pure_ok_iff.mp h
      obtain ⟨hdistinct, hreals⟩ := sound_canonicalValue v hv.1 hw
      obtain ⟨hdistincts, hrealses⟩ := sound_canonicalItems vs hv.2 hrest
      exact ⟨⟨hdistinct, hdistincts⟩, hreals, hrealses⟩

theorem sound_canonicalMembers : ∀ (ms : List (PyStr × PyValue φ))
    {ws : List (PyStr × PyJson φ)}, DistinctEntries ms → b.canonicalMembers ms = .ok ws →
      DistinctMembers ws ∧ RealsMembers (b.isFinite · = true) ws
  | [], ws, _, h => by
      obtain rfl := Except.ok.inj h
      exact ⟨trivial, trivial⟩
  | (k, v) :: ms, ws, hv, h => by
      obtain ⟨w, hw, h⟩ := bind_ok_iff.mp h
      obtain ⟨rest, hrest, h⟩ := bind_ok_iff.mp h
      obtain rfl := pure_ok_iff.mp h
      obtain ⟨hdistinct, hreals⟩ := sound_canonicalValue v hv.1 hw
      obtain ⟨hdistincts, hrealses⟩ := sound_canonicalMembers ms hv.2 hrest
      exact ⟨⟨hdistinct, hdistincts⟩, hreals, hrealses⟩

end

/-! ## The normal form -/

variable (b) in
/-- The canonical value with the keys sorted, if it can be written. -/
def normal (v : PyValue φ) : Option (PyJson φ) := (b.canonicalValue v).toOption.bind written

theorem normal_eq_some_iff {v : PyValue φ} {w : PyJson φ} : b.normal v = some w ↔
    ∃ c, b.canonicalValue v = .ok c ∧ Written c ∧ w = c.sortKeys := by
  unfold normal
  cases b.canonicalValue v with
  | error e =>
      refine iff_of_false (by simp [Except.toOption]) ?_
      rintro ⟨c, hc, -⟩
      cases hc
  | ok c =>
      refine written_eq_some_iff.trans ⟨fun h => ⟨c, rfl, h⟩, ?_⟩
      rintro ⟨c', hc, h⟩
      obtain rfl := Except.ok.inj hc
      exact h

/-- A value without doubled keys has a normal form that is read again. -/
theorem writable_normal {v : PyValue φ} (hv : v.Distinct) {w : PyJson φ} (h : b.normal v = some w) :
    w.Writable (b.isFinite · = true) := by
  obtain ⟨c, hc, hwritten, rfl⟩ := normal_eq_some_iff.mp h
  obtain ⟨hdistinct, hreals⟩ := sound_canonicalValue v hv hc
  exact ⟨(PyJson.all_sortKeys c).mpr hwritten.texts, PyJson.reals_sortKeys hreals,
    PyJson.distinct_sortKeys hdistinct⟩

/-- What was loaded from a normal form has that normal form. -/
theorem normal_ofJson {v : PyValue φ} (hv : v.Distinct) {w : PyJson φ} (h : b.normal v = some w) :
    b.normal (.ofJson w) = some w := by
  have hreals := (writable_normal hv h).reals
  obtain ⟨c, -, hwritten, rfl⟩ := normal_eq_some_iff.mp h
  exact normal_eq_some_iff.mpr ⟨c.sortKeys, canonicalValue_ofJson _ hreals,
    written_sortKeys.mpr hwritten, (PyJson.equal_sortKeys c).symm⟩

theorem mapM_normal (vs : List (PyValue φ)) :
    vs.mapM b.normal = (b.canonicalItems vs).toOption.bind (·.mapM written) := by
  induction vs with
  | nil => rfl
  | cons v vs ih =>
      rw [List.mapM_cons, ih, canonicalItems, normal]
      cases b.canonicalValue v with
      | error e => rfl
      | ok w =>
          cases b.canonicalItems vs with
          | error e =>
              show ((written w).bind fun _ => none) = none
              cases written w with
              | none => rfl
              | some _ => rfl
          | ok ws =>
              show _ = (w :: ws).mapM written
              rw [List.mapM_cons]
              rfl

/-- The normal form of a member. -/
def normalMember (b : SnapshotBuiltins φ) (m : PyStr × PyValue φ) : Option (PyStr × PyJson φ) :=
  if m.1.IsText then (b.normal m.2).map (m.1, ·) else none

theorem mapM_normalMember (ms : List (PyStr × PyValue φ)) : ms.mapM b.normalMember =
    (b.canonicalMembers ms).toOption.bind (·.mapM writtenMember) := by
  induction ms with
  | nil => rfl
  | cons m ms ih =>
      obtain ⟨k, v⟩ := m
      rw [List.mapM_cons, ih, canonicalMembers, normalMember, normal]
      cases b.canonicalValue v with
      | error e =>
          by_cases hk : k.IsText
          · rw [if_pos hk]
            rfl
          · rw [if_neg hk]
            rfl
      | ok w =>
          cases b.canonicalMembers ms with
          | error e =>
              show ((writtenMember (k, w)).bind fun _ => none) = none
              cases writtenMember (k, w) with
              | none => rfl
              | some _ => rfl
          | ok ws =>
              show _ = ((k, w) :: ws).mapM writtenMember
              rw [List.mapM_cons]
              rfl

theorem normal_sequence (vs : List (PyValue φ)) :
    b.normal (.sequence vs) = (vs.mapM b.normal).map .arr := by
  rw [mapM_normal, normal, canonicalValue]
  cases b.canonicalItems vs with
  | error e => rfl
  | ok ws => exact written_items ws

theorem normal_mapping (ms : List (PyStr × PyValue φ)) : b.normal (.mapping ms) =
    (ms.mapM b.normalMember).map fun ws => .obj (rank (fun m => PyStr.order m.1) ws) := by
  rw [mapM_normalMember, normal, canonicalValue]
  cases b.canonicalMembers ms with
  | error e => rfl
  | ok ws => exact written_members ws

theorem mapM_written_rank (ws : List (PyJson φ)) : (rank b.textOrder ws).mapM written =
    (ws.mapM written).map (rank fun w => PyStr.order (PyJson.dumps b.repr .compact w)) := by
  have hmem : (∀ w ∈ rank b.textOrder ws, Written w) ↔ ∀ w ∈ ws, Written w :=
    forall_congr' fun w => imp_congr_left mem_rank
  rw [mapM_written, mapM_written]
  by_cases h : ∀ w ∈ ws, Written w
  · rw [if_pos h, if_pos (hmem.mpr h), Option.map_some, rank_map]
    rfl
  · rw [if_neg h, if_neg fun hw => h (hmem.mp hw), Option.map_none]

/-- A set is ranked by the texts of the normal forms of its members. -/
theorem normal_set (vs : List (PyValue φ)) : b.normal (.set vs) = (vs.mapM b.normal).map
    fun ws => .arr (rank (fun w => PyStr.order (PyJson.dumps b.repr .compact w)) ws) := by
  rw [mapM_normal]
  cases hws : b.canonicalItems vs with
  | error e =>
      rw [normal, canonicalValue, hws]
      rfl
  | ok ws =>
      by_cases hprintable : ∀ x ∈ ws, printable x = true
      · rw [normal, canonicalValue_set_ok_iff.mpr ⟨ws, hws, hprintable, rfl⟩]
        show written (.arr (rank b.textOrder ws)) = Option.map _ (ws.mapM written)
        rw [written_items, mapM_written_rank, Option.map_map]
        rfl
      · -- a member whose text is refused has no normal form either
        have hwritten : ¬∀ x ∈ ws, Written x := fun h => hprintable fun x hx => (h x hx).ints
        show _ = Option.map _ (ws.mapM written)
        rw [mapM_written, if_neg hwritten, Option.map_none, Option.eq_none_iff_forall_ne_some]
        intro w hw
        obtain ⟨c, hc, -⟩ := normal_eq_some_iff.mp hw
        obtain ⟨ws', hws', hprintable', -⟩ := canonicalValue_set_ok_iff.mp hc
        obtain rfl := Except.ok.inj (hws.symm.trans hws')
        exact hprintable hprintable'

/-! ## The text and what is read of it -/

theorem exists_encode {v : PyValue φ} {w : PyJson φ} (h : b.normal v = some w) :
    ∃ raw, (PyJson.dumps b.repr .compact w).encode = some raw := by
  obtain ⟨c, -, hwritten, rfl⟩ := normal_eq_some_iff.mp h
  rw [← Option.isSome_iff_exists, PyJson.encode_isSome_iff, PyJson.isText_dumps]
  exact (PyJson.all_sortKeys c).mpr hwritten.texts

/-- **The bytes are those of the normal form.** -/
theorem canonicalJsonBytes_ok_iff {v : PyValue φ} {raw : ByteArray} :
    b.canonicalJsonBytes v = .ok raw ↔
      ∃ w, b.normal v = some w ∧ (PyJson.dumps b.repr .compact w).encode = some raw := by
  constructor
  · intro h
    obtain ⟨c, hc, h⟩ := bind_ok_iff.mp h
    obtain ⟨text, htext, h⟩ := bind_ok_iff.mp h
    obtain ⟨hprintable, rfl⟩ := jsonText_ok_iff.mp htext
    cases hraw : (PyJson.dumpsSorted b.repr .compact c).encode with
    | none =>
        rw [hraw] at h
        cases h
    | some raw' =>
        rw [hraw] at h
        obtain rfl := Except.ok.inj h
        have hsome : (PyJson.dumpsSorted b.repr .compact c).encode.isSome = true :=
          Option.isSome_of_eq_some hraw
        rw [PyJson.encode_isSome_iff, PyJson.dumpsSorted, PyJson.isText_dumps,
          PyJson.all_sortKeys] at hsome
        exact ⟨c.sortKeys, normal_eq_some_iff.mpr ⟨c, hc, ⟨hprintable, hsome⟩, rfl⟩, hraw⟩
  · rintro ⟨w, hw, hraw⟩
    obtain ⟨c, hc, hwritten, rfl⟩ := normal_eq_some_iff.mp hw
    refine bind_ok_iff.mpr ⟨c, hc, bind_ok_iff.mpr ⟨_, jsonText_ok_iff.mpr ⟨hwritten.ints, rfl⟩, ?_⟩⟩
    rw [PyJson.dumpsSorted, hraw]

theorem snapshotHash_ok_iff {v : PyValue φ} {digest : String} : b.snapshotHash v = .ok digest ↔
    ∃ w, b.normal v = some w ∧
      ∃ raw, (PyJson.dumps b.repr .compact w).encode = some raw ∧ b.sha256 raw = digest := by
  constructor
  · intro h
    obtain ⟨raw, hbytes, h⟩ := bind_ok_iff.mp h
    obtain ⟨w, hw, hraw⟩ := canonicalJsonBytes_ok_iff.mp hbytes
    exact ⟨w, hw, raw, hraw, pure_ok_iff.mp h⟩
  · rintro ⟨w, hw, raw, hraw, rfl⟩
    exact bind_ok_iff.mpr ⟨raw, canonicalJsonBytes_ok_iff.mpr ⟨w, hw, hraw⟩, rfl⟩

/-- Values with one normal form have one hash. -/
theorem snapshotHash_eq {v v' : PyValue φ} {w : PyJson φ} (h : b.normal v = some w)
    (h' : b.normal v' = some w) : b.snapshotHash v' = b.snapshotHash v := by
  obtain ⟨raw, hraw⟩ := exists_encode h
  rw [snapshotHash_ok_iff.mpr ⟨w, h, raw, hraw, rfl⟩,
    snapshotHash_ok_iff.mpr ⟨w, h', raw, hraw, rfl⟩]

/-- The hash is a function of the normal form. -/
theorem toOption_snapshotHash_eq {v v' : PyValue φ} (h : b.normal v' = b.normal v) :
    (b.snapshotHash v').toOption = (b.snapshotHash v).toOption := by
  have hiff : ∀ digest, b.snapshotHash v' = .ok digest ↔ b.snapshotHash v = .ok digest := by
    intro digest
    rw [snapshotHash_ok_iff, snapshotHash_ok_iff, h]
  cases hv : b.snapshotHash v with
  | ok digest => rw [(hiff digest).mpr hv]
  | error e =>
      cases hv' : b.snapshotHash v' with
      | error e' => rfl
      | ok digest =>
          rw [(hiff digest).mp hv'] at hv
          cases hv

variable (b) in
/--
What the standard library promises of floats: `repr` writes a finite one with a fraction or
an exponent, and reading that gives it back.
-/
abbrev Reads : Prop := PyJson.Reads b.floats b.repr (b.isFinite · = true)

/-- **The snapshot of a value is its normal form, loaded.** -/
theorem canonicalSnapshot_ok_iff (hb : b.Reads) {v s : PyValue φ} (hv : v.Distinct) :
    b.canonicalSnapshot v = .ok s ↔ ∃ w, b.normal v = some w ∧ s = .ofJson w := by
  have hread : ∀ {w raw}, b.normal v = some w →
      (PyJson.dumps b.repr .compact w).encode = some raw → ∃ cs : List Char,
        raw = (String.ofList cs).toUTF8 ∧ PyJson.loads b.floats cs = some w := by
    intro w raw hw hraw
    obtain ⟨htexts, hreals, hdistinct⟩ := writable_normal hv hw
    obtain ⟨cs, -, hcs, hloads⟩ := PyJson.loads_dumps hb htexts hreals hdistinct
    rw [PyStr.encode, hcs] at hraw
    exact ⟨cs, (Option.some.inj hraw).symm, hloads⟩
  constructor
  · intro h
    obtain ⟨raw, hbytes, h⟩ := bind_ok_iff.mp h
    obtain ⟨w, hw, hraw⟩ := canonicalJsonBytes_ok_iff.mp hbytes
    obtain ⟨cs, rfl, hloads⟩ := hread hw hraw
    simp only [Utf8.fromUTF8?_toUTF8, String.toList_ofList, hloads] at h
    exact ⟨w, hw, (Except.ok.inj h).symm⟩
  · rintro ⟨w, hw, rfl⟩
    obtain ⟨raw, hraw⟩ := exists_encode hw
    obtain ⟨cs, rfl, hloads⟩ := hread hw hraw
    refine bind_ok_iff.mpr ⟨_, canonicalJsonBytes_ok_iff.mpr ⟨w, hw, hraw⟩, ?_⟩
    simp only [Utf8.fromUTF8?_toUTF8, String.toList_ofList, hloads]

/-! ## Freezing -/

theorem canonicalItems_map {c : PyValue φ → PyJson φ} {fs : List (PyValue φ)}
    (h : ∀ f ∈ fs, b.canonicalValue f = .ok (c f)) : b.canonicalItems fs = .ok (fs.map c) := by
  induction fs with
  | nil => rfl
  | cons f fs ih =>
      rw [List.forall_mem_cons] at h
      rw [canonicalItems, h.1, ih h.2]
      rfl

/-- The members of a frozen set stand in the order of the canonical set. -/
theorem canonicalValue_frozenSet {fs rs : List (PyValue φ)}
    (h : sortedBy (fun item => do return Utf8.order (← b.canonicalJsonBytes item)) fs = .ok rs) :
    b.canonicalValue (.sequence rs) = b.canonicalValue (.set fs) := by
  have hcanonical : ∀ f ∈ fs, ∃ c, b.canonicalValue f = .ok c ∧ printable c = true ∧ ∃ raw,
      (PyJson.dumpsSorted b.repr .compact c).encode = some raw ∧
        b.canonicalJsonBytes f = .ok raw := by
    intro f hf
    obtain ⟨n, hn⟩ := key_of_sortedBy h f hf
    obtain ⟨raw, hraw, -⟩ := bind_ok_iff.mp hn
    obtain ⟨w, hw, hencode⟩ := canonicalJsonBytes_ok_iff.mp hraw
    obtain ⟨c, hc, hwritten, rfl⟩ := normal_eq_some_iff.mp hw
    exact ⟨c, hc, hwritten.ints, raw, hencode, hraw⟩
  have hinhabited : Nonempty (PyJson φ) := ⟨.null⟩
  choose! c hc hprintable raw hencode hraw using hcanonical
  have hsorted : sortedBy (fun item => do return Utf8.order (← b.canonicalJsonBytes item)) fs =
      .ok (rank (fun f => Utf8.order (raw f)) fs) :=
    sortedBy_of_ok fun f hf => bind_ok_iff.mpr ⟨_, hraw f hf, rfl⟩
  obtain rfl := Except.ok.inj (h.symm.trans hsorted)
  -- bytes in UTF-8 are in the order of the texts
  have hrank : rank (fun f => Utf8.order (raw f)) fs = rank (fun f => b.textOrder (c f)) fs :=
    rank_congr fun f hf g hg => PyStr.order_encode_le_iff (hencode f hf) (hencode g hg)
  have hprinted : ∀ x ∈ fs.map c, printable x = true := List.forall_mem_map.mpr hprintable
  rw [canonicalValue_set_ok_iff.mpr ⟨_, canonicalItems_map hc, hprinted, rfl⟩, canonicalValue, hrank,
    canonicalItems_map fun f hf => hc f (mem_rank.mp hf), rank_map]
  rfl

mutual

/-- **Freezing keeps the canonical value.** -/
theorem canonicalValue_freezeJson : ∀ (v : PyValue φ) {f : PyValue φ}, b.freezeJson v = .ok f →
    b.canonicalValue f = b.canonicalValue v
  | .mapping members, f, h => by
      obtain ⟨ms, hms, h⟩ := bind_ok_iff.mp h
      obtain rfl := pure_ok_iff.mp h
      rw [canonicalValue, canonicalValue, canonicalMembers_freezeMembers members hms]
  | .sequence items, f, h => by
      obtain ⟨vs, hvs, h⟩ := bind_ok_iff.mp h
      obtain rfl := pure_ok_iff.mp h
      rw [canonicalValue, canonicalValue, canonicalItems_freezeItems items hvs]
  | .set items, f, h => by
      obtain ⟨vs, hvs, h⟩ := bind_ok_iff.mp h
      obtain ⟨rs, hrs, h⟩ := bind_ok_iff.mp h
      obtain rfl := pure_ok_iff.mp h
      rw [canonicalValue_frozenSet hrs, canonicalValue, canonicalValue,
        canonicalItems_freezeItems items hvs]
  | .none, f, h | .bool _, f, h | .int _, f, h | .float _, f, h | .decimal _, f, h | .str _, f, h
  | .strEnum _, f, h | .uuid _, f, h | .datetime _, f, h => by
      obtain rfl := Except.ok.inj h
      rfl
  | .dataclass _ _, f, h | .other _, f, h => by cases h

theorem canonicalItems_freezeItems : ∀ (vs : List (PyValue φ)) {fs : List (PyValue φ)},
    b.freezeItems vs = .ok fs → b.canonicalItems fs = b.canonicalItems vs
  | [], fs, h => by
      obtain rfl := Except.ok.inj h
      rfl
  | v :: vs, fs, h => by
      obtain ⟨f, hf, h⟩ := bind_ok_iff.mp h
      obtain ⟨rest, hrest, h⟩ := bind_ok_iff.mp h
      obtain rfl := pure_ok_iff.mp h
      rw [canonicalItems, canonicalItems, canonicalValue_freezeJson v hf,
        canonicalItems_freezeItems vs hrest]

theorem canonicalMembers_freezeMembers : ∀ (ms : List (PyStr × PyValue φ))
    {fs : List (PyStr × PyValue φ)}, b.freezeMembers ms = .ok fs →
      b.canonicalMembers fs = b.canonicalMembers ms
  | [], fs, h => by
      obtain rfl := Except.ok.inj h
      rfl
  | (k, v) :: ms, fs, h => by
      obtain ⟨f, hf, h⟩ := bind_ok_iff.mp h
      obtain ⟨rest, hrest, h⟩ := bind_ok_iff.mp h
      obtain rfl := pure_ok_iff.mp h
      rw [canonicalMembers, canonicalMembers, canonicalValue_freezeJson v hf,
        canonicalMembers_freezeMembers ms hrest]

end

/-! ## Reordering -/

theorem distinctElements_iff {vs : List (PyValue φ)} :
    DistinctElements vs ↔ ∀ v ∈ vs, v.Distinct := by
  induction vs with
  | nil => simp [DistinctElements]
  | cons v vs ih => rw [DistinctElements, ih, List.forall_mem_cons]

theorem distinctEntries_iff {ms : List (PyStr × PyValue φ)} :
    DistinctEntries ms ↔ ∀ m ∈ ms, m.2.Distinct := by
  induction ms with
  | nil => simp [DistinctEntries]
  | cons m ms ih => rw [DistinctEntries, ih, List.forall_mem_cons]

theorem distinctElements_middle {before after : List (PyValue φ)} {v : PyValue φ} :
    DistinctElements (before ++ v :: after) ↔
      (∀ x ∈ before, x.Distinct) ∧ v.Distinct ∧ ∀ x ∈ after, x.Distinct := by
  rw [distinctElements_iff, List.forall_mem_append, List.forall_mem_cons]

theorem distinctEntries_middle {before after : List (PyStr × PyValue φ)} {m : PyStr × PyValue φ} :
    DistinctEntries (before ++ m :: after) ↔
      (∀ x ∈ before, x.2.Distinct) ∧ m.2.Distinct ∧ ∀ x ∈ after, x.2.Distinct := by
  rw [distinctEntries_iff, List.forall_mem_append, List.forall_mem_cons]

theorem names_normal {ms : List (PyStr × PyValue φ)} {ws : List (PyStr × PyJson φ)}
    (h : ms.mapM b.normalMember = some ws) : ws.map (·.1) = ms.map (·.1) := by
  induction ms generalizing ws with
  | nil =>
      obtain rfl := Option.some.inj h
      rfl
  | cons m ms ih =>
      obtain ⟨w, rest, hw, hrest, rfl⟩ := mapM_cons_eq_some.mp h
      unfold normalMember at hw
      split at hw
      · obtain ⟨x, -, rfl⟩ := Option.map_eq_some_iff.mp hw
        rw [List.map_cons, List.map_cons, ih hrest]
      · cases hw

theorem writable_mapM_normal {vs : List (PyValue φ)} {ws : List (PyJson φ)}
    (hv : ∀ v ∈ vs, v.Distinct) (h : vs.mapM b.normal = some ws) :
    ∀ w ∈ ws, w.Writable (b.isFinite · = true) := by
  intro w hw
  obtain ⟨v, hmem, hnormal⟩ := (mem_mapM h).2 w hw
  exact writable_normal (hv v hmem) hnormal

/-- **Another order of members and elements has the same normal form.** -/
theorem normal_reorders (hb : b.Reads) {v v' : PyValue φ} (h : Reorders v v')
    (hv : v.Distinct) : v'.Distinct ∧ b.normal v' = b.normal v := by
  induction h with
  | members h =>
      obtain ⟨hnames, hentries⟩ := hv
      rw [distinctEntries_iff] at hentries
      refine ⟨⟨((h.map _).nodup_iff).mp hnames, distinctEntries_iff.mpr fun m hm =>
        hentries m (h.mem_iff.mpr hm)⟩, ?_⟩
      rw [normal_mapping, normal_mapping]
      refine map_mapM_perm h fun r r' hr hperm => ?_
      -- no name comes twice, so only one order is the sorted one
      have hnodup : (r.map (·.1)).Nodup := by
        rw [names_normal hr]
        exact hnames
      refine congrArg PyJson.obj (rank_eq_of_perm hperm fun x hx y hy hxy => ?_).symm
      exact eq_of_key_eq hnodup hx hy (PyStr.order_injective hxy)
  | elements h =>
      have hall := distinctElements_iff.mp hv
      refine ⟨distinctElements_iff.mpr fun v hv' => hall v (h.mem_iff.mpr hv'), ?_⟩
      rw [normal_set, normal_set]
      refine map_mapM_perm h fun r r' hr hperm => ?_
      -- elements with one text are equal: the text is read again
      have hwritable := writable_mapM_normal hall hr
      refine congrArg PyJson.arr (rank_eq_of_perm hperm fun x hx y hy hxy => ?_).symm
      exact PyJson.dumps_inj hb (hwritable x hx) (hwritable y hy) (PyStr.order_injective hxy)
  | inMember before after k h ih =>
      obtain ⟨hnames, hentries⟩ := hv
      obtain ⟨hbefore, hv, hafter⟩ := distinctEntries_middle.mp hentries
      obtain ⟨hv', hnormal⟩ := ih hv
      refine ⟨⟨?_, ?_⟩, ?_⟩
      · -- the names are the ones before
        rw [List.map_append, List.map_cons] at hnames ⊢
        exact hnames
      · exact distinctEntries_middle.mpr ⟨hbefore, hv', hafter⟩
      · rw [normal_mapping, normal_mapping]
        refine congrArg _ (mapM_replace ?_ before after)
        rw [normalMember, normalMember, hnormal]
  | inItem before after h ih =>
      obtain ⟨hbefore, hv, hafter⟩ := distinctElements_middle.mp hv
      obtain ⟨hv', hnormal⟩ := ih hv
      constructor
      · exact distinctElements_middle.mpr ⟨hbefore, hv', hafter⟩
      · rw [normal_sequence, normal_sequence, mapM_replace hnormal]
  | inElement before after h ih =>
      obtain ⟨hbefore, hv, hafter⟩ := distinctElements_middle.mp hv
      obtain ⟨hv', hnormal⟩ := ih hv
      constructor
      · exact distinctElements_middle.mpr ⟨hbefore, hv', hafter⟩
      · rw [normal_set, normal_set, mapM_replace hnormal]

theorem normal_reordered (hb : b.Reads) {v v' : PyValue φ} (h : Reordered v v')
    (hv : v.Distinct) : v'.Distinct ∧ b.normal v' = b.normal v := by
  induction h with
  | refl => exact ⟨hv, rfl⟩
  | tail _ hstep ih =>
      obtain ⟨hmid, hnormal⟩ := ih
      obtain ⟨hlast, hnormal'⟩ := normal_reorders hb hstep hmid
      exact ⟨hlast, hnormal'.trans hnormal⟩

/-! ## The laws of snapshots -/

variable (b) in
/-- What holds of a value and of what it is frozen to. -/
structure Lawful (v f : PyValue φ) : Prop where
  stored : ∀ digest, b.snapshotHash v = .ok digest → ∃ s, b.canonicalSnapshot v = .ok s
  idempotent : ∀ s, b.canonicalSnapshot v = .ok s → b.canonicalSnapshot s = .ok s
  reread : ∀ s, b.canonicalSnapshot v = .ok s → b.snapshotHash s = b.snapshotHash v
  frozen : b.snapshotHash f = b.snapshotHash v
  reordered : ∀ v', Reordered v v' → (b.snapshotHash v').toOption = (b.snapshotHash v).toOption

mutual

theorem distinct_ofJson : ∀ v : PyJson φ, v.Distinct → (PyValue.ofJson v).Distinct
  | .arr items => fun h => distinct_ofJsonItems items h
  | .obj members => fun h => by
      refine ⟨?_, distinct_ofJsonMembers members h.2⟩
      rw [ofJsonMembers_eq, List.map_map]
      exact h.1
  | .null | .bool _ | .int _ | .real _ | .str _ => fun _ => trivial

theorem distinct_ofJsonItems : ∀ vs : List (PyJson φ), DistinctItems vs →
    DistinctElements (ofJsonItems vs)
  | [] => fun _ => trivial
  | v :: vs => fun h => ⟨distinct_ofJson v h.1, distinct_ofJsonItems vs h.2⟩

theorem distinct_ofJsonMembers : ∀ ms : List (PyStr × PyJson φ), DistinctMembers ms →
    DistinctEntries (ofJsonMembers ms)
  | [] => fun _ => trivial
  | (_, v) :: ms => fun h => ⟨distinct_ofJson v h.1, distinct_ofJsonMembers ms h.2⟩

end

/-- **Every value that can be frozen obeys the laws.** -/
theorem lawful (hb : b.Reads) {v f : PyValue φ} (hv : v.Distinct) (hf : b.freezeJson v = .ok f) :
    b.Lawful v f where
  stored digest h := by
    obtain ⟨w, hw, -⟩ := snapshotHash_ok_iff.mp h
    exact ⟨_, (canonicalSnapshot_ok_iff hb hv).mpr ⟨w, hw, rfl⟩⟩
  idempotent s h := by
    obtain ⟨w, hw, rfl⟩ := (canonicalSnapshot_ok_iff hb hv).mp h
    have hdistinct := distinct_ofJson w (writable_normal hv hw).distinct
    exact (canonicalSnapshot_ok_iff hb hdistinct).mpr ⟨w, normal_ofJson hv hw, rfl⟩
  reread s h := by
    obtain ⟨w, hw, rfl⟩ := (canonicalSnapshot_ok_iff hb hv).mp h
    exact snapshotHash_eq hw (normal_ofJson hv hw)
  frozen := by
    unfold snapshotHash canonicalJsonBytes
    rw [canonicalValue_freezeJson v hf]
  reordered v' h := toOption_snapshotHash_eq (normal_reordered hb h hv).2

end SnapshotBuiltins

end Sana.Shadow
