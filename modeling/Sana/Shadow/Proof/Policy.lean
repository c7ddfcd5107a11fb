import Mathlib
import Sana.Orchestration.Proof.Aggregate
import Sana.Shadow.Policy
import Sana.Shadow.Proof.Canonical
import Sana.Shared.Words

/-!
# Which gate policies come back from their snapshots

Every field but the threshold is a JSON scalar, and a finite threshold is read back as a
decimal of the same value and the same text. The constructor compares the threshold with
zero only, so it lets an infinity pass, and that has no snapshot. Nor does it bound the
counts and the latencies or read the version, so a number of too many digits and a surrogate
on its own pass too.
-/

namespace Sana.Shadow

open Sana.Lib Orchestration
open PyStr (IsText)

variable {φ : Type} {b : SnapshotBuiltins φ}

/-! ## The members of a snapshot -/

namespace SnapshotBuiltins

/-- The normal form of a dictionary has the normal forms of its members. -/
theorem members_of_normal {ms : List (PyStr × PyValue φ)} (hnodup : (ms.map (·.1)).Nodup)
    {w : PyJson φ} (h : b.normal (.mapping ms) = some w) :
    ∃ ss, PyValue.ofJson w = .mapping ss ∧ (ss.map (·.1)).Perm (ms.map (·.1)) ∧
      ∀ k v, ms.lookup k = some v → ∃ x, b.normal v = some x ∧ ss.lookup k = some (.ofJson x) := by
  rw [normal_mapping] at h
  obtain ⟨ws, hws, rfl⟩ := Option.map_eq_some_iff.mp h
  have hnames : ((rank (fun m : PyStr × PyJson φ => PyStr.order m.1) ws).map fun m =>
      (m.1, PyValue.ofJson m.2)).map (·.1) = (rank (fun m => PyStr.order m.1) ws).map (·.1) :=
    List.map_map
  have hperm : ((rank (fun m : PyStr × PyJson φ => PyStr.order m.1) ws).map (·.1)).Perm
      (ms.map (·.1)) := by
    rw [← names_normal hws]
    exact (rank_perm _ ws).map _
  refine ⟨(rank (fun m => PyStr.order m.1) ws).map fun m => (m.1, .ofJson m.2), ?_, ?_, ?_⟩
  · rw [PyValue.ofJson, ofJsonMembers_eq]
  · rw [hnames]
    exact hperm
  · intro k v hv
    obtain ⟨m, hm, hnormal⟩ := (mem_mapM hws).1 (k, v) (Dict.mem_of_lookup hv)
    unfold normalMember at hnormal
    split at hnormal
    · obtain ⟨x, hx, rfl⟩ := Option.map_eq_some_iff.mp hnormal
      refine ⟨x, hx, Dict.lookup_of_mem ?_ (List.mem_map.mpr ⟨(k, x), mem_rank.mpr hm, rfl⟩)⟩
      rw [hnames]
      exact (hperm.nodup_iff).mpr hnodup
    · cases hnormal

/-- A dictionary has a normal form where its names are texts and its values have one. -/
theorem normal_mapping_isSome_iff {ms : List (PyStr × PyValue φ)} :
    (b.normal (.mapping ms)).isSome = true ↔
      ∀ m ∈ ms, m.1.IsText ∧ (b.normal m.2).isSome = true := by
  have hmember : ∀ m : PyStr × PyValue φ,
      (b.normalMember m).isSome = true ↔ m.1.IsText ∧ (b.normal m.2).isSome = true := by
    intro m
    unfold normalMember
    split
    · rename_i hk
      rw [Option.isSome_map]
      exact (and_iff_right hk).symm
    · rename_i hk
      exact iff_of_false (by simp) fun h => hk h.1
  rw [normal_mapping, Option.isSome_map]
  induction ms with
  | nil => simp
  | cons m ms ih =>
      rw [List.forall_mem_cons]
      refine Iff.trans ?_ (and_congr (hmember m) ih)
      rw [List.mapM_cons]
      cases b.normalMember m with
      | none => simp
      | some x =>
          cases ms.mapM b.normalMember with
          | none => simp
          | some xs => simp

theorem canonicalMembers_replace {v v' : PyValue φ}
    (h : b.canonicalValue v' = b.canonicalValue v) (before after : List (PyStr × PyValue φ))
    (k : PyStr) : b.canonicalMembers (before ++ (k, v') :: after) =
      b.canonicalMembers (before ++ (k, v) :: after) := by
  induction before with
  | nil =>
      rw [List.nil_append, List.nil_append, canonicalMembers, canonicalMembers, h]
  | cons m before ih =>
      rw [List.cons_append, List.cons_append, canonicalMembers, canonicalMembers, ih]

/-! ### Scalars -/

theorem normal_of_ok {v : PyValue φ} {w : PyJson φ} (h : b.canonicalValue v = .ok w) :
    b.normal v = written w := by
  rw [normal, h]
  rfl

theorem normal_int (b : SnapshotBuiltins φ) (n : Int) :
    b.normal (.int n) = if isPrintable n = true then some (.int n) else none := by
  rw [normal_of_ok (w := .int n) rfl]
  by_cases h : isPrintable n = true
  · rw [if_pos h]
    exact written_eq_some_iff.mpr ⟨⟨h, trivial⟩, rfl⟩
  · rw [if_neg h]
    exact if_neg fun hwritten => h hwritten.ints

theorem normal_str (b : SnapshotBuiltins φ) (s : PyStr) :
    b.normal (.str s) = if s.IsText then some (.str s) else none := by
  rw [normal_of_ok (w := .str s) rfl]
  unfold written
  refine if_congr ?_ rfl rfl
  rw [written_iff, printable, PyJson.All]
  exact and_iff_right rfl

theorem normal_strEnum (b : SnapshotBuiltins φ) (s : PyStr) :
    b.normal (.strEnum s) = b.normal (.str s) := rfl

theorem normal_bool (b : SnapshotBuiltins φ) (x : Bool) : b.normal (.bool x) = some (.bool x) := by
  rw [normal_of_ok (w := .bool x) rfl]
  exact written_eq_some_iff.mpr ⟨⟨rfl, trivial⟩, rfl⟩

theorem normal_none (b : SnapshotBuiltins φ) : b.normal .none = some .null := by
  rw [normal_of_ok (w := .null) rfl]
  exact written_eq_some_iff.mpr ⟨⟨rfl, trivial⟩, rfl⟩

theorem normal_decimal (b : SnapshotBuiltins φ) (d : Decimal) : b.normal (.decimal d) =
    if d.isFinite = true then some (.str (PyStr.ascii d.format)) else none := by
  unfold normal canonicalValue
  split
  · exact written_eq_some_iff.mpr ⟨⟨rfl, PyJson.isText_ascii _⟩, rfl⟩
  · rfl

end SnapshotBuiltins

theorem isPrintable_of_lt {n : Int} (h : n.natAbs < 10 ^ 9) : isPrintable n = true := by
  rw [isPrintable, decide_eq_true_eq]
  refine Nat.lt_of_lt_of_le h ?_
  gcongr
  · decide
  · decide

namespace Policy

/-! ## A threshold and its text -/

theorem isSpace_of_mem_format {d : Decimal} (h : d.isFinite = true) :
    ∀ x ∈ d.format, Text.isSpace x = false ∧ x ≠ '_' := by
  intro x hx
  rcases Decimal.mem_format h x hx with rfl | rfl | hx
  · decide
  · decide
  · rw [Char.isDigit_iff_toNat] at hx
    have hlow : 48 ≤ x.toNat := hx.1
    have hhigh : x.toNat ≤ 57 := hx.2
    constructor
    · simp [Text.isSpace]
      omega
    · rintro rfl
      exact absurd hhigh (by decide)

/-- The text of a threshold in a snapshot is read as a threshold of the same value. -/
theorem decimalOfText_format {d : Decimal} (h : d.isFinite = true) :
    decimalOfText (PyStr.ascii d.format) = .ok d.fixed := by
  have hall := isSpace_of_mem_format h
  have hchars : PyStr.chars? (PyStr.ascii d.format) = some d.format :=
    PyJson.chars?_eq_some_iff.mpr rfl
  have hfilter : d.format.filter (· ≠ '_') = d.format :=
    List.filter_eq_self.mpr fun x hx => decide_eq_true (hall x hx).2
  rw [decimalOfText, hchars, Option.bind_some, Text.stripChars_of_forall fun x hx => (hall x hx).1,
    hfilter, Decimal.ofText_format h]

/-! ## Policies -/

namespace PolicyFields

variable {f : PolicyFields}

/--
What of a policy can be written. Ratios are bounded by the constructor; counts and latencies
are not.
-/
structure Storable (f : PolicyFields) : Prop where
  version : f.version.IsText
  counts : ∀ n ∈ f.countValues, isPrintable n = true
  fastLatency : isPrintable f.fastLatencyP95Ms = true
  researchLatency : isPrintable f.researchLatencyP95Ms = true
  threshold : ∀ d ∈ f.maxProjectedFullCostUsd, d.isFinite = true

theorem names_entries : (f.entries (φ := φ)).map (·.1) = fieldNames := rfl

/-- The members that `_canonical_value` sees. -/
def members (f : PolicyFields) : List (PyStr × PyValue φ) :=
  f.entries.map fun m => (PyStr.ofString m.1, m.2)

theorem names_members : (f.members (φ := φ)).map (·.1) = fieldNames.map PyStr.ofString := by
  rw [← names_entries (f := f) (φ := φ), members, List.map_map, List.map_map]
  rfl

theorem nodup_members : ((f.members (φ := φ)).map (·.1)).Nodup := by
  have hnames : fieldNames.Nodup := by decide
  rw [names_members]
  exact hnames.map PyStr.ofString_injective

theorem lookup_members {k : String} {v : PyValue φ} (h : f.entries.lookup k = some v) :
    f.members.lookup (PyStr.ofString k) = some v :=
  Dict.lookup_of_mem nodup_members (List.mem_map.mpr ⟨(k, v), Dict.mem_of_lookup h, rfl⟩)

theorem distinct_toPy (f : PolicyFields) : (f.toPy (φ := φ)).Distinct := by
  have hcost : (f.maxProjectedFullCostUsd.elim PyValue.none PyValue.decimal : PyValue φ).Distinct := by
    cases f.maxProjectedFullCostUsd with
    | none => trivial
    | some d => trivial
  refine ⟨nodup_members, ?_⟩
  simp only [entries, List.map_cons, List.map_nil, DistinctEntries, PyValue.Distinct, hcost, and_self]

theorem normal_toPy (b : SnapshotBuiltins φ) (f : PolicyFields) :
    b.normal f.toPy = b.normal (.mapping f.members) := rfl

/-- The constructor bounds the ratios. -/
theorem ratios_of_postInit (h : f.postInit = .ok ()) : ∀ n ∈ f.basisPoints, 0 ≤ n ∧ n ≤ 10000 := by
  unfold postInit at h
  split_ifs at h with hversion hcounts hlatencies hratios
  intro n hn
  by_contra hbounds
  exact hratios (List.any_eq_true.mpr ⟨n, hn, decide_eq_true hbounds⟩)

/-- **A policy has a normal form exactly where all of it can be written.** -/
theorem normal_isSome_iff (h : f.postInit = .ok ()) :
    (b.normal f.toPy).isSome = true ↔ f.Storable := by
  -- the ratios are bounded, so they are never what cannot be written
  have hratios : ∀ n ∈ f.basisPoints, isPrintable n = true := by
    intro n hn
    obtain ⟨hlow, hhigh⟩ := ratios_of_postInit h n hn
    exact isPrintable_of_lt (by omega)
  have hcost : (b.normal (f.maxProjectedFullCostUsd.elim .none .decimal)).isSome = true ↔
      ∀ d ∈ f.maxProjectedFullCostUsd, d.isFinite = true := by
    cases f.maxProjectedFullCostUsd with
    | none => simp [SnapshotBuiltins.normal_none]
    | some d => simp [SnapshotBuiltins.normal_decimal]
  have hkind : (PyStr.ofString f.kind.value).IsText := PyJson.isText_ofString _
  -- the names are fixed texts, so everything is up to the values
  have hnames : ∀ m ∈ f.members (φ := φ), m.1.IsText := by
    unfold members
    rw [List.forall_mem_map]
    exact fun m _ => PyJson.isText_ofString m.1
  have hmembers : (b.normal f.toPy).isSome = true ↔
      ∀ m ∈ f.entries (φ := φ), (b.normal m.2).isSome = true := by
    rw [normal_toPy, SnapshotBuiltins.normal_mapping_isSome_iff]
    constructor
    · intro hall m hm
      exact (hall (PyStr.ofString m.1, m.2) (List.mem_map.mpr ⟨m, hm, rfl⟩)).2
    · intro hall m hm
      refine ⟨hnames m hm, ?_⟩
      obtain ⟨n, hn, rfl⟩ := List.mem_map.mp hm
      exact hall n hn
  have hint : ∀ n, (b.normal (.int n)).isSome = true ↔ isPrintable n = true := by
    intro n
    rw [SnapshotBuiltins.normal_int]
    split <;> simp_all
  have hstr : ∀ s, (b.normal (.str s)).isSome = true ↔ s.IsText := by
    intro s
    rw [SnapshotBuiltins.normal_str]
    split <;> simp_all
  simp only [basisPoints, List.forall_mem_cons] at hratios
  rw [hmembers]
  simp only [entries, List.forall_mem_cons, SnapshotBuiltins.normal_strEnum,
    SnapshotBuiltins.normal_bool, hint, hstr, hcost, hkind, hratios, Option.isSome_some, true_and]
  constructor
  · intro hall
    obtain ⟨hversion, h1, h2, h3, h4, h5, h6, h7, h8, hfast, hresearch, hthreshold, -⟩ := hall
    refine ⟨hversion, ?_, hfast, hresearch, hthreshold⟩
    simp only [countValues, List.forall_mem_cons]
    exact ⟨h1, h2, h3, h4, h5, h6, h7, h8, List.forall_mem_nil _⟩
  · rintro ⟨hversion, hcounts, hfast, hresearch, hthreshold⟩
    simp only [countValues, List.forall_mem_cons] at hcounts
    obtain ⟨h1, h2, h3, h4, h5, h6, h7, h8, -⟩ := hcounts
    exact ⟨hversion, h1, h2, h3, h4, h5, h6, h7, h8, hfast, hresearch, hthreshold,
      List.forall_mem_nil _⟩

/-- The threshold as it comes back. -/
def reread (f : PolicyFields) : PolicyFields :=
  { f with maxProjectedFullCostUsd := f.maxProjectedFullCostUsd.map Decimal.fixed }

section Reread

-- what is read under the names of the fields
variable {get : String → PyValue φ} (hget : ∀ k v, f.entries.lookup k = some v →
  ∃ x, b.normal v = some x ∧ get k = .ofJson x)

include hget

theorem intOf_get (k : String) (n : Int) (h : f.entries.lookup k = some (.int (φ := φ) n)) :
    intOf (get k) = .ok n := by
  obtain ⟨x, hx, hk⟩ := hget k _ h
  rw [SnapshotBuiltins.normal_int] at hx
  split at hx
  · obtain rfl := Option.some.inj hx
    rw [hk]
    rfl
  · cases hx

theorem boolOf_get (k : String) (y : Bool) (h : f.entries.lookup k = some (.bool (φ := φ) y)) :
    boolOf (get k) = .ok y := by
  obtain ⟨x, hx, hk⟩ := hget k _ h
  rw [SnapshotBuiltins.normal_bool] at hx
  obtain rfl := Option.some.inj hx
  rw [hk]
  rfl

theorem strOf_get (k : String) (s : PyStr) (h : f.entries.lookup k = some (.str (φ := φ) s)) :
    strOf (get k) = .ok s := by
  obtain ⟨x, hx, hk⟩ := hget k _ h
  rw [SnapshotBuiltins.normal_str] at hx
  split at hx
  · obtain rfl := Option.some.inj hx
    rw [hk]
    rfl
  · cases hx

theorem kindOf_get : kindOf (get "kind") = .ok f.kind := by
  obtain ⟨x, hx, hk⟩ := hget "kind" (.strEnum (PyStr.ofString f.kind.value)) rfl
  have htext : (PyStr.ofString f.kind.value).IsText := PyJson.isText_ofString _
  rw [SnapshotBuiltins.normal_strEnum, SnapshotBuiltins.normal_str, if_pos htext] at hx
  obtain rfl := Option.some.inj hx
  rw [hk]
  cases f.kind with
  | smoke => rfl
  | full => rfl

theorem costOf_get : costOf b (get "max_projected_full_cost_usd") =
    .ok f.reread.maxProjectedFullCostUsd := by
  unfold reread
  cases hc : f.maxProjectedFullCostUsd with
  | none =>
      obtain ⟨x, hx, hk⟩ := hget "max_projected_full_cost_usd" .none (by
        unfold entries
        rw [hc]
        rfl)
      rw [SnapshotBuiltins.normal_none] at hx
      obtain rfl := Option.some.inj hx
      rw [hk]
      rfl
  | some d =>
      obtain ⟨x, hx, hk⟩ := hget "max_projected_full_cost_usd" (.decimal d) (by
        unfold entries
        rw [hc]
        rfl)
      rw [SnapshotBuiltins.normal_decimal] at hx
      split at hx
      · rename_i hfinite
        obtain rfl := Option.some.inj hx
        rw [hk]
        exact bind_ok_iff.mpr ⟨d.fixed, decimalOfText_format hfinite, rfl⟩
      · cases hx

/-- What is read of the members of a snapshot. -/
theorem fieldsOf_entries : fieldsOf b get = .ok f.reread := by
  have hint := intOf_get hget
  have hbool := boolOf_get hget
  refine bind_ok_iff.mpr ⟨_, kindOf_get hget, bind_ok_iff.mpr ⟨_, costOf_get hget, ?_⟩⟩
  refine bind_ok_iff.mpr ⟨_, strOf_get hget "version" f.version rfl, ?_⟩
  refine bind_ok_iff.mpr ⟨_, hint _ _ rfl, bind_ok_iff.mpr ⟨_, hint _ _ rfl, ?_⟩⟩
  refine bind_ok_iff.mpr ⟨_, hint _ _ rfl, bind_ok_iff.mpr ⟨_, hint _ _ rfl, ?_⟩⟩
  refine bind_ok_iff.mpr ⟨_, hint _ _ rfl, bind_ok_iff.mpr ⟨_, hint _ _ rfl, ?_⟩⟩
  refine bind_ok_iff.mpr ⟨_, hint _ _ rfl, bind_ok_iff.mpr ⟨_, hint _ _ rfl, ?_⟩⟩
  refine bind_ok_iff.mpr ⟨_, hint _ _ rfl, bind_ok_iff.mpr ⟨_, hint _ _ rfl, ?_⟩⟩
  refine bind_ok_iff.mpr ⟨_, hint _ _ rfl, bind_ok_iff.mpr ⟨_, hint _ _ rfl, ?_⟩⟩
  refine bind_ok_iff.mpr ⟨_, hint _ _ rfl, bind_ok_iff.mpr ⟨_, hint _ _ rfl, ?_⟩⟩
  refine bind_ok_iff.mpr ⟨_, hint _ _ rfl, bind_ok_iff.mpr ⟨_, hint _ _ rfl, ?_⟩⟩
  refine bind_ok_iff.mpr ⟨_, hint _ _ rfl, bind_ok_iff.mpr ⟨_, hint _ _ rfl, ?_⟩⟩
  refine bind_ok_iff.mpr ⟨_, hint _ _ rfl, bind_ok_iff.mpr ⟨_, hint _ _ rfl, ?_⟩⟩
  refine bind_ok_iff.mpr ⟨_, hint _ _ rfl, bind_ok_iff.mpr ⟨_, hint _ _ rfl, ?_⟩⟩
  exact bind_ok_iff.mpr ⟨_, hbool _ _ rfl, bind_ok_iff.mpr ⟨_, hbool _ _ rfl, rfl⟩⟩

end Reread

/-- The constructor accepts what comes back. -/
theorem postInit_reread (f : PolicyFields) : f.reread.postInit = f.postInit := by
  have hcost : f.reread.checkCost = f.checkCost := by
    unfold checkCost reread
    cases f.maxProjectedFullCostUsd with
    | none => rfl
    | some d =>
        dsimp only [Option.map_some]
        rw [Decimal.nonpos_fixed]
  unfold postInit
  rw [hcost]
  rfl

/-- It has the same canonical value. -/
theorem canonicalValue_reread (b : SnapshotBuiltins φ) (f : PolicyFields) :
    b.canonicalValue f.reread.toPy = b.canonicalValue f.toPy := by
  have hcost : b.canonicalValue (f.reread.maxProjectedFullCostUsd.elim .none .decimal) =
      b.canonicalValue (f.maxProjectedFullCostUsd.elim .none .decimal) := by
    unfold reread
    cases hc : f.maxProjectedFullCostUsd with
    | none => rfl
    | some d =>
        show b.canonicalValue (.decimal d.fixed) = b.canonicalValue (.decimal d)
        rw [SnapshotBuiltins.canonicalValue, SnapshotBuiltins.canonicalValue,
          Decimal.isFinite_fixed, Decimal.format_fixed]
  have hmembers := SnapshotBuiltins.canonicalMembers_replace hcost
    ((f.members (φ := φ)).take 24) ((f.members (φ := φ)).drop 25)
    (PyStr.ofString "max_projected_full_cost_usd")
  have hreread : f.reread.members (φ := φ) = f.members.take 24 ++
      (PyStr.ofString "max_projected_full_cost_usd",
        f.reread.maxProjectedFullCostUsd.elim .none .decimal) :: f.members.drop 25 := rfl
  have hentries : f.members (φ := φ) = f.members.take 24 ++
      (PyStr.ofString "max_projected_full_cost_usd",
        f.maxProjectedFullCostUsd.elim .none .decimal) :: f.members.drop 25 := rfl
  show (do return .obj (← b.canonicalMembers f.reread.members)) =
    (do return .obj (← b.canonicalMembers f.members) : Except Exn (PyJson φ))
  rw [hreread, hmembers, ← hentries]

theorem normal_reread (b : SnapshotBuiltins φ) (f : PolicyFields) :
    b.normal f.reread.toPy = b.normal f.toPy := by
  rw [SnapshotBuiltins.normal, SnapshotBuiltins.normal, canonicalValue_reread]

end PolicyFields

namespace GatePolicy

variable {p : GatePolicy}

/-- A policy comes back from its snapshot as an equal policy with the same hash. -/
def RoundTrips (b : SnapshotBuiltins φ) (p : GatePolicy) : Prop :=
  ∃ s q digest, p.snapshot b = .ok s ∧ gatePolicyFromSnapshot b s = .ok q ∧ p.Equals q ∧
    p.sha256 b = .ok digest ∧ q.sha256 b = .ok digest

/-- What comes back of a policy that has a normal form. -/
theorem exists_reread {w : PyJson φ} (hw : b.normal p.toPy = some w) :
    ∃ q, gatePolicyFromSnapshot b (.ofJson w) = .ok q ∧
      q.toPolicyFields = p.toPolicyFields.reread := by
  obtain ⟨ss, hmapping, hnames, hlookup⟩ :=
    SnapshotBuiltins.members_of_normal PolicyFields.nodup_members hw
  have hvalid : p.toPolicyFields.reread.postInit = .ok () := by
    rw [PolicyFields.postInit_reread]
    exact p.valid
  refine ⟨⟨_, hvalid⟩, ?_, rfl⟩
  -- the names are those of the fields, in another order
  have hmem : ∀ k, k ∈ ss.map (·.1) ↔ k ∈ fieldNames.map PyStr.ofString := by
    intro k
    rw [hnames.mem_iff, PolicyFields.names_members]
  have hschema : (ss.map (·.1)).all (fieldNames.map PyStr.ofString).contains ∧
      (fieldNames.map PyStr.ofString).all (ss.map (·.1)).contains := by
    constructor
    · exact List.all_eq_true.mpr fun k hk => List.contains_iff_mem.mpr ((hmem k).mp hk)
    · exact List.all_eq_true.mpr fun k hk => List.contains_iff_mem.mpr ((hmem k).mpr hk)
  have hfields : fieldsOf b (fun name => (ss.lookup (PyStr.ofString name)).getD .none) =
      .ok p.reread := by
    refine PolicyFields.fieldsOf_entries fun k v hv => ?_
    obtain ⟨x, hx, hfound⟩ := hlookup _ _ (PolicyFields.lookup_members hv)
    exact ⟨x, hx, by rw [hfound, Option.getD_some]⟩
  have hmake : GatePolicy.make p.reread = .ok ⟨p.reread, hvalid⟩ :=
    Aggregate.checked_of_valid hvalid
  have hbind : (Except.ok p.reread >>= GatePolicy.make) = .ok ⟨p.reread, hvalid⟩ := hmake
  rw [hmapping, gatePolicyFromSnapshot, if_pos hschema, hfields, hbind]

theorem equals_reread {q : GatePolicy} (hfinite : ∀ d ∈ p.maxProjectedFullCostUsd, d.isFinite = true)
    (hq : q.toPolicyFields = p.toPolicyFields.reread) : p.Equals q := by
  unfold Equals
  rw [hq]
  refine ⟨rfl, ?_⟩
  unfold PolicyFields.reread
  cases hc : p.maxProjectedFullCostUsd with
  | none => exact Option.Rel.none
  | some d => exact Option.Rel.some (Decimal.eq_fixed (hfinite d hc))

/-- **A policy comes back from its snapshot exactly if all of it can be written.** -/
theorem roundTrips_iff (hb : b.Reads) (p : GatePolicy) : p.RoundTrips b ↔ p.Storable := by
  rw [← PolicyFields.normal_isSome_iff (b := b) p.valid, Option.isSome_iff_exists]
  constructor
  · rintro ⟨s, q, digest, hs, -⟩
    obtain ⟨w, hw, -⟩ := (SnapshotBuiltins.canonicalSnapshot_ok_iff hb p.distinct_toPy).mp hs
    exact ⟨w, hw⟩
  · rintro ⟨w, hw⟩
    have hstorable := (PolicyFields.normal_isSome_iff p.valid).mp (Option.isSome_of_eq_some hw)
    obtain ⟨q, hq, hfields⟩ := exists_reread hw
    have hqw : b.normal q.toPy = some w := by
      rw [hfields, PolicyFields.normal_reread]
      exact hw
    have hsnapshot : ∀ r : GatePolicy, b.normal r.toPy = some w →
        r.snapshot b = .ok (.ofJson w) := fun r hr =>
      (SnapshotBuiltins.canonicalSnapshot_ok_iff hb r.distinct_toPy).mpr ⟨w, hr, rfl⟩
    obtain ⟨raw, hraw⟩ := SnapshotBuiltins.exists_encode hw
    have hdigest : b.snapshotHash (.ofJson w) = .ok (b.sha256 raw) :=
      SnapshotBuiltins.snapshotHash_ok_iff.mpr
        ⟨w, SnapshotBuiltins.normal_ofJson p.distinct_toPy hw, raw, hraw, rfl⟩
    refine ⟨_, q, b.sha256 raw, hsnapshot p hw, hq, equals_reread hstorable.threshold hfields, ?_, ?_⟩
    · exact bind_ok_iff.mpr ⟨_, hsnapshot p hw, hdigest⟩
    · exact bind_ok_iff.mpr ⟨_, hsnapshot q hqw, hdigest⟩

end GatePolicy

end Policy

/--
**The laws of canonical snapshots.** Every value that can be frozen obeys them, and a gate
policy comes back from its snapshot exactly if all of it can be written: its version in UTF-8,
its counts and latencies with at most 4300 digits, and its threshold as a finite number.
-/
theorem snapshot_laws_iff (b : SnapshotBuiltins φ) (hb : b.Reads) (p : Policy.GatePolicy) :
    ((∀ v f, v.Distinct → b.freezeJson v = .ok f → b.Lawful v f) ∧ p.RoundTrips b) ↔
      p.Storable := by
  rw [Policy.GatePolicy.roundTrips_iff hb]
  exact and_iff_right fun v f hv hf => SnapshotBuiltins.lawful hb hv hf

namespace Sample

/-- The canonical text of `SHADOW_SMOKE_GATE_V1`. -/
def smokeGateText : String :=
  "\x7b\"fast_latency_p95_ms\":15000,\"kind\":\"SMOKE\",\"max_degraded_bps\":10000," ++
  "\"max_infrastructure_failure_bps\":0,\"max_projected_full_cost_usd\":\"0.10\"," ++
  "\"min_actual_fast_results\":3,\"min_actual_research_results\":3,\"min_coverage_macro_bps\":0," ++
  "\"min_coverage_stratum_bps\":0,\"min_distinct_cases\":6,\"min_gold_pass_bps\":0," ++
  "\"min_mode_accuracy_bps\":0,\"min_review_citation_bps\":0,\"min_review_completeness_bps\":0," ++
  "\"min_review_correct_bps\":0,\"min_review_freshness_bps\":0,\"min_review_source_bps\":0," ++
  "\"min_terminal_results\":6,\"min_unanswerable_cases\":1,\"min_unanswerable_gap_bps\":0," ++
  "\"min_unanswerable_results\":1,\"require_every_run_within_deadline\":true," ++
  "\"require_exact_sample_counts\":true,\"required_gold_cases\":0,\"required_reviews\":0," ++
  "\"research_latency_p95_ms\":120000,\"version\":\"shadow-smoke-gate-v1\"\x7d"

/-- A standard library with one float, 1.5, and the digest of the one text that is hashed. -/
def builtins : SnapshotBuiltins Unit where
  isFinite _ := true
  repr _ := "1.5".toList
  floats := ⟨fun _ => (), fun _ => ()⟩
  isoformat _ := "1970-01-01T00:00:00Z"
  sha256 raw :=
    if raw = smokeGateText.toUTF8 then
      "054878e972560ef6177ab23f8cac2c1990aaf9512cce76d25d1cc8e72ed5c4dd"
    else ""

theorem builtins_reads : builtins.Reads where
  token _ _ := ⟨⟨false, ['1'], ['.', '5']⟩, rfl, by decide, rfl⟩
  real _ _ := rfl

/-- The smoke gate without a bound on its projected cost, written as an infinite one. -/
def unboundedGate : Policy.GatePolicy :=
  { Policy.shadowSmokeGateV1 with
    maxProjectedFullCostUsd := some (.infinity false)
    valid := by decide }

theorem smokeGate_storable : Policy.shadowSmokeGateV1.Storable where
  version := PyJson.isText_ofString _
  counts := by
    have hsmall : ∀ n ∈ Policy.shadowSmokeGateV1.countValues, n.natAbs < 10 ^ 9 := by decide
    exact fun n hn => isPrintable_of_lt (hsmall n hn)
  fastLatency := isPrintable_of_lt (by decide)
  researchLatency := isPrintable_of_lt (by decide)
  threshold := by decide

end Sample

/-- The smoke gate comes back. -/
theorem snapshot_laws_iff_smoke :
    Policy.shadowSmokeGateV1.RoundTrips Sample.builtins :=
  ((snapshot_laws_iff Sample.builtins Sample.builtins_reads Policy.shadowSmokeGateV1).mpr
    Sample.smokeGate_storable).2

/-- A policy that the constructor accepts has no snapshot. -/
theorem infinite_threshold_has_no_snapshot :
    ¬((∀ v f, v.Distinct → Sample.builtins.freezeJson v = .ok f → Sample.builtins.Lawful v f) ∧
      Sample.unboundedGate.RoundTrips Sample.builtins) := by
  rintro ⟨-, s, q, digest, hs, -⟩
  have herror : Sample.unboundedGate.snapshot Sample.builtins =
      .error (.valueError "Decimal values must be finite") := rfl
  rw [herror] at hs
  cases hs

end Sana.Shadow
