import Mathlib
import Sana.Storage.LocalArtifacts

/-!
# What is stored as JSON comes back

A file holds what its name is the digest of, and no step takes it away or changes it. So a reference
finds the payload it was made of, whatever happened since, as long as no two payloads share a digest;
and another tenant is turned away before a file is looked into. A value can be stored exactly where
none of its strings holds a surrogate on its own.
-/

namespace Sana.Storage

open Sana.Lib Lib.Url LocalArtifactStore

open Orchestration.Aggregate (ArtifactRef isHexDigit)

variable {δ : Type} {b : StoreBuiltins δ}

/-- How what is called behaves: digests, network locations in ASCII, and the floats of `finite`. -/
structure StoreBuiltins.Lawful (b : StoreBuiltins δ) (finite : δ → Prop) : Prop where
  digits : ∀ payload, (b.sha256 payload).length = 64 ∧
    (b.sha256 payload).toList.all isHexDigit = true ∧
      Text.lowerAscii (b.sha256 payload) = b.sha256 payload
  netloc : ∀ cs : List Char, (∀ c ∈ cs, c.toNat < 128) → b.checks.netloc cs = true
  floats : PyJson.Reads b.floats b.repr finite

/-! ## References -/

/-- A character of an identifier or a digest. -/
def isIdChar (c : Char) : Bool := (Uuid.hexValue c).isSome || c = '-'

theorem idChar_plain : ∀ n < 128, isIdChar (Char.ofNat n) = true →
    isDelimiter (Char.ofNat n) = false ∧ isUnsafe (Char.ofNat n) = false ∧
      Char.ofNat n ≠ '[' ∧ Char.ofNat n ≠ ']' := by
  decide +kernel

theorem toNat_lt_of_isIdChar {c : Char} (h : isIdChar c = true) : c.toNat < 128 := by
  rw [isIdChar, Bool.or_eq_true, decide_eq_true_eq] at h
  rcases h with h | rfl
  · unfold Uuid.hexValue at h
    by_contra hlarge
    simp only at h
    rw [if_neg (by omega), if_neg (by omega), if_neg (by omega)] at h
    exact Bool.noConfusion h
  · decide

theorem plain_of_isIdChar {c : Char} (h : isIdChar c = true) :
    isDelimiter c = false ∧ isUnsafe c = false ∧ c ≠ '[' ∧ c ≠ ']' := by
  have hplain := idChar_plain c.toNat (toNat_lt_of_isIdChar h)
  rw [Char.ofNat_toNat] at hplain
  exact hplain h

theorem isIdChar_str {u : Uuid} {c : Char} (h : c ∈ u.str.toList) : isIdChar c = true := by
  rw [isIdChar, Bool.or_eq_true, decide_eq_true_eq]
  by_cases hdash : c = '-'
  · exact .inr hdash
  · refine .inl (Uuid.isSome_of_digits (u := u) ?_)
    rw [← Uuid.filter_str]
    exact List.mem_filter.mpr ⟨h, by simpa using hdash⟩

theorem isIdChar_of_isHexDigit {c : Char} (h : isHexDigit c = true) : isIdChar c = true := by
  have hall : ("0123456789abcdefABCDEF".toList.all fun c => isIdChar c) = true := by decide
  exact List.all_eq_true.mp hall c (of_decide_eq_true h)

/-- The parts of a reference's URI. -/
def uriParts (tenant run digest : List Char) : SplitResult where
  scheme := "artifact".toList
  netloc := tenant
  path := ['/'].intercalate [[], run, digest]
  query := []
  fragment := []

/-- A text of an identifier or a digest. -/
def IsId (cs : List Char) : Prop := ∀ c ∈ cs, isIdChar c = true

section Parts

variable {tenant run digest : List Char}

theorem IsId.notMem {cs : List Char} (h : IsId cs) {c : Char} (hc : isIdChar c = false) : c ∉ cs :=
  fun hmem => by
    rw [h c hmem] at hc
    exact Bool.noConfusion hc

theorem clean_uriParts (htenant : IsId tenant) (hrun : IsId run) (hdigest : IsId digest) :
    (uriParts tenant run digest).Clean := by
  have hscheme : "artifact".toList.head?.any Char.isAlpha = true ∧
      "artifact".toList.all isSchemeChar = true ∧
        "artifact".toList.map Char.toLower = "artifact".toList := by decide
  refine ⟨hscheme, fun c hc => ?_, ⟨rfl, fun c hc => ?_⟩, List.forall_mem_nil _, rfl⟩
  · have hplain := plain_of_isIdChar (htenant c hc)
    exact ⟨hplain.1, hplain.2.1⟩
  · have hdelimiter : ∀ {c : Char}, isIdChar c = true → c ≠ '?' ∧ c ≠ '#' ∧ isUnsafe c = false := by
      intro c h
      have hplain := plain_of_isIdChar h
      refine ⟨?_, ?_, hplain.2.1⟩ <;> rintro rfl <;> exact absurd hplain.1 (by decide)
    rcases mem_intercalate hc with hc | ⟨l, hl, hc⟩
    · obtain rfl := List.mem_singleton.mp hc
      decide
    · simp only [List.mem_cons, List.not_mem_nil, or_false] at hl
      rcases hl with heq | heq | heq
      · exact absurd (heq ▸ hc) List.not_mem_nil
      · exact hdelimiter (hrun c (heq ▸ hc))
      · exact hdelimiter (hdigest c (heq ▸ hc))

theorem urlunsplit_uriParts (htenant : IsId tenant) (hrun : IsId run) (hdigest : IsId digest) :
    urlunsplit (uriParts tenant run digest) =
      "artifact://".toList ++ tenant ++ "/".toList ++ run ++ "/".toList ++ digest := by
  have hmark : "artifact://".toList = "artifact".toList ++ [':', '/', '/'] := by decide
  have hslash : "/".toList = ['/'] := by decide
  have hpath : (uriParts tenant run digest).path = '/' :: (run ++ '/' :: digest) := by
    show ['/'].intercalate [[], run, digest] = _
    rw [List.intercalate_cons_cons, List.intercalate_cons_cons, List.intercalate_singleton]
    simp only [List.append_assoc, List.cons_append, List.nil_append]
  rw [(clean_uriParts htenant hrun hdigest).urlunsplit_eq, hmark, hslash, hpath,
    if_pos (show (uriParts tenant run digest).query = [] from rfl), List.append_nil,
    show (uriParts tenant run digest).scheme = "artifact".toList from rfl,
    show (uriParts tenant run digest).netloc = tenant from rfl]
  generalize "artifact".toList = scheme
  simp only [List.append_assoc, List.cons_append, List.nil_append]

theorem path_parts (hrun : IsId run) (hdigest : IsId digest) (hrun' : run ≠ [])
    (hdigest' : digest ≠ []) :
    ((uriParts tenant run digest).path.splitOn '/').filter (· ≠ []) = [run, digest] := by
  have hslash : ∀ l ∈ [[], run, digest], '/' ∉ l := by
    rw [List.forall_mem_cons, List.forall_mem_cons, List.forall_mem_cons]
    exact ⟨List.not_mem_nil, hrun.notMem (by decide), hdigest.notMem (by decide),
      List.forall_mem_nil _⟩
  have hsplit : (uriParts tenant run digest).path.splitOn '/' = [[], run, digest] :=
    List.splitOn_intercalate _ hslash (List.cons_ne_nil _ _)
  rw [hsplit]
  simp [hrun', hdigest']

end Parts

theorem toList_uri (tenantId runId : Uuid) (digest : String) :
    (uri tenantId runId digest).toList = "artifact://".toList ++ tenantId.str.toList ++
      "/".toList ++ runId.str.toList ++ "/".toList ++ digest.toList := by
  unfold uri
  -- the literals are not to be taken apart
  generalize "artifact://" = head, "/" = slash
  simp only [String.toList_append]

section References

variable {finite : δ → Prop} (hb : b.Lawful finite) {tenantId runId : Uuid} {payload : ByteArray}
include hb

theorem isId_digest : IsId (b.sha256 payload).toList := fun c hc =>
  isIdChar_of_isHexDigit (List.all_eq_true.mp (hb.digits payload).2.1 c hc)

theorem digest_ne_nil : (b.sha256 payload).toList ≠ [] := by
  intro hnil
  have hlength := (hb.digits payload).1
  rw [← String.length_toList, hnil] at hlength
  exact absurd hlength (by decide)

/-- The reference of a payload. -/
theorem make_uri (tenantId runId : Uuid) (payload : ByteArray) : ∃ reference : ArtifactRef,
    ArtifactRef.make (uri tenantId runId (b.sha256 payload)) (b.sha256 payload) = .ok reference ∧
      reference.uri = uri tenantId runId (b.sha256 payload) ∧
      reference.sha256 = b.sha256 payload := by
  have hblank : Text.isBlank (uri tenantId runId (b.sha256 payload)) = false := by
    rw [Text.isBlank, List.all_eq_false]
    have hmem : 'a' ∈ "artifact://".toList := by decide
    have hspace : ¬Text.isSpace 'a' = true := by decide
    rw [toList_uri]
    exact ⟨'a', List.mem_append_left _ (List.mem_append_left _ (List.mem_append_left _
      (List.mem_append_left _ (List.mem_append_left _ hmem)))), hspace⟩
  obtain ⟨hlength, hdigits, hlower⟩ := hb.digits payload
  rw [ArtifactRef.make, dif_pos hblank, dif_pos ⟨hlength, hdigits⟩]
  exact ⟨_, rfl, rfl, hlower⟩

/-- **A reference says the tenant, the run and the digest it was made of.** -/
theorem parse_uri {reference : ArtifactRef}
    (huri : reference.uri = uri tenantId runId (b.sha256 payload))
    (hdigest : reference.sha256 = b.sha256 payload) :
    parse b reference = .ok (tenantId, runId, b.sha256 payload) := by
  have htenant : IsId tenantId.str.toList := fun c => isIdChar_str
  have hrun : IsId runId.str.toList := fun c => isIdChar_str
  have hid : IsId (b.sha256 payload).toList := isId_digest hb
  have hrun' : runId.str.toList ≠ [] := by
    rw [Uuid.str_toList]
    exact List.append_ne_nil_of_right_ne_nil _ (List.cons_ne_nil _ _)
  have htext : reference.uri.toList = urlunsplit
      (uriParts tenantId.str.toList runId.str.toList (b.sha256 payload).toList) := by
    rw [urlunsplit_uriParts htenant hrun hid, huri, toList_uri]
  have hvalid : validNetloc b.checks tenantId.str.toList = true := by
    have hchecked := hb.netloc tenantId.str.toList fun c hc => toNat_lt_of_isIdChar (htenant c hc)
    have hopen : '[' ∉ tenantId.str.toList := htenant.notMem (by decide)
    have hclosed : ']' ∉ tenantId.str.toList := htenant.notMem (by decide)
    rw [validNetloc, hchecked, decide_eq_true (iff_of_false hopen hclosed), decide_eq_true hopen]
    rfl
  have hsplit := (clean_uriParts htenant hrun hid).urlsplit_urlunsplit b.checks
  have hnetloc : (uriParts tenantId.str.toList runId.str.toList
      (b.sha256 payload).toList).netloc = tenantId.str.toList := rfl
  rw [hnetloc, if_pos hvalid, ← htext] at hsplit
  have hscheme : (uriParts tenantId.str.toList runId.str.toList
      (b.sha256 payload).toList).scheme = "artifact".toList := rfl
  unfold parse
  simp only [hsplit, path_parts hrun hid hrun' (digest_ne_nil hb), hscheme, hnetloc, ne_eq,
    not_true_eq_false, if_false, String.ofList_toList, Uuid.parse_str, hdigest]

end References

/-! ## Files -/

/-- Every file holds a payload that was written, and is named by its digest. -/
def Disk.Sound (b : StoreBuiltins δ) (payloads : Set ByteArray) (disk : Disk) : Prop :=
  ∀ file payload, disk.files file = some payload → payload ∈ payloads ∧
    ∃ tenantId runId, file = path tenantId runId (b.sha256 payload)

/-- What is stored on the first disk is stored on the second. -/
def Disk.Grows (disk disk' : Disk) : Prop :=
  ∀ file payload, disk.files file = some payload → disk'.files file = some payload

theorem path_inj {tenantId tenantId' runId runId' : Uuid} {digest digest' : String}
    (h : path tenantId runId digest = path tenantId' runId' digest') : digest = digest' := by
  simp only [path, List.cons.injEq, and_true] at h
  exact h.2.2.2

theorem call_readBytes (file : List String) (disk : Disk) : (readBytes file).call disk =
    (.ok (disk.files file), { disk with reads := file :: disk.reads }) := rfl

section Disks

variable {payloads : Set ByteArray} {disk : Disk} {tenantId runId : Uuid} {payload : ByteArray}

/-- **Writing a payload** to a disk that is sound: the file is there then, and no other is changed. -/
theorem writeAtomic_spec (tenantId runId : Uuid) (hinj : Set.InjOn b.sha256 payloads) (hsound : disk.Sound b payloads)
    (hpayload : payload ∈ payloads) : ∃ disk',
      (writeAtomic b (path tenantId runId (b.sha256 payload)) payload (b.sha256 payload)).call disk =
        (.ok (), disk') ∧ disk'.Sound b payloads ∧ disk.Grows disk' ∧
          disk'.files (path tenantId runId (b.sha256 payload)) = some payload := by
  unfold writeAtomic
  simp only [Method.call_bind, Method.call_get]
  cases hfile : disk.files (path tenantId runId (b.sha256 payload)) with
  | some existing =>
    -- the file has this name because of its digest, and no other payload has this digest
    obtain ⟨hexisting, tenant, run, hname⟩ := hsound _ _ hfile
    obtain rfl := hinj hpayload hexisting (path_inj hname)
    refine ⟨{ disk with reads := path tenantId runId (b.sha256 payload) :: disk.reads },
      ?_, hsound, fun _ _ => id, hfile⟩
    simp only [Option.isSome_some, if_true, Method.call_bind, call_readBytes, hfile,
      Option.map_some, Method.call_require]
  | none =>
    simp only [Option.isSome_none, Bool.false_eq_true, if_false, Method.call_modify]
    refine ⟨_, rfl, fun file other hother => ?_, fun file other hother => ?_, if_pos rfl⟩
    · simp only at hother
      split at hother
      case isTrue heq =>
        obtain rfl := Option.some.inj hother
        exact ⟨hpayload, tenantId, runId, heq⟩
      case isFalse => exact hsound _ _ hother
    · have hne : file ≠ path tenantId runId (b.sha256 payload) := by
        rintro rfl
        rw [hfile] at hother
        exact nomatch hother
      simp only [if_neg hne]
      exact hother

/-- **What is read by a reference** is what was found in its file. -/
theorem getBytes_stored {finite : δ → Prop} (hb : b.Lawful finite) {reference : ArtifactRef}
    (huri : reference.uri = uri tenantId runId (b.sha256 payload))
    (hdigest : reference.sha256 = b.sha256 payload)
    (hfile : disk.files (path tenantId runId (b.sha256 payload)) = some payload) :
    (getBytes b tenantId reference).call disk = (.ok payload,
      { disk with reads := path tenantId runId (b.sha256 payload) :: disk.reads }) := by
  unfold getBytes
  simp only [Method.call_bind, Method.call_ofExcept, parse_uri hb huri hdigest,
    Method.call_require, if_true, call_readBytes, hfile]
  rfl

/-- **Another tenant is turned away** before a file is looked into. -/
theorem getBytes_other {finite : δ → Prop} (hb : b.Lawful finite) {reference : ArtifactRef}
    (huri : reference.uri = uri tenantId runId (b.sha256 payload))
    (hdigest : reference.sha256 = b.sha256 payload) {other : Uuid} (hother : other ≠ tenantId) :
    (getBytes b other reference).call disk = (.error tenantMismatch, disk) := by
  unfold getBytes
  simp only [Method.call_bind, Method.call_ofExcept, parse_uri hb huri hdigest,
    Method.call_require, if_neg hother.symm]

/-- Reading leaves the files as they are. -/
theorem getBytes_files (reference : ArtifactRef) (disk : Disk) :
    ((getBytes b tenantId reference).call disk).2.files = disk.files := by
  unfold getBytes
  simp only [Method.call_bind, Method.call_ofExcept]
  cases parse b reference with
  | error e => rfl
  | ok parsed =>
    simp only [Method.call_require]
    split
    case h_2 e disk' h =>
      obtain ⟨-, rfl⟩ := Prod.mk.inj h
      rfl
    case h_1 u disk' h =>
      obtain ⟨-, rfl⟩ := Prod.mk.inj h
      simp only [call_readBytes]
      cases hfile : disk.files (path parsed.1 parsed.2.1 parsed.2.2) with
      | none => rfl
      | some found =>
        by_cases hhash : b.sha256 found = parsed.2.2
        · simp only [Method.call_bind, Method.call_require, if_pos hhash]
          rfl
        · simp only [Method.call_bind, Method.call_require, if_neg hhash]

/-- **One step keeps the disk sound** and every file. -/
theorem step_sound (hinj : Set.InjOn b.sha256 payloads) (hsound : disk.Sound b payloads)
    {disk' : Disk} (h : Disk.Step b payloads disk disk') :
    disk'.Sound b payloads ∧ disk.Grows disk' := by
  cases h with
  | put tenantId runId hpayload =>
    rename_i payload
    obtain ⟨disk', hcall, hsound', hgrows, -⟩ :=
      writeAtomic_spec tenantId runId hinj hsound hpayload
    unfold putBytes
    simp only [Method.call_bind, Method.call_require]
    split
    case h_1 u disk'' heq =>
      obtain ⟨-, rfl⟩ := Prod.mk.inj heq
      simp only [hcall, Method.call_ofExcept]
      exact ⟨hsound', hgrows⟩
    case h_2 e disk'' heq =>
      obtain ⟨-, rfl⟩ := Prod.mk.inj heq
      exact ⟨hsound, fun _ _ => id⟩
  | get tenantId reference =>
    have hfiles : ((getBytes b tenantId reference).call disk).2.files = disk.files :=
      getBytes_files reference disk
    refine ⟨fun file payload h => hsound file payload ?_, fun file payload h => ?_⟩
    · rwa [hfiles] at h
    · rwa [hfiles]

theorem reachable_sound (hinj : Set.InjOn b.sha256 payloads)
    (h : Lib.Reachable Disk.Empty (Disk.Step b payloads) disk) : disk.Sound b payloads := by
  have hinit : ∀ disk : Disk, disk.Empty → disk.Sound b payloads := by
    intro disk hempty file payload hfile
    rw [hempty file] at hfile
    exact nomatch hfile
  exact h.invariant hinit fun disk disk' hsound hstep => (step_sound hinj hsound hstep).1

/-- **What is stored stays stored.** -/
theorem run_grows (hinj : Set.InjOn b.sha256 payloads) (hsound : disk.Sound b payloads)
    {later : Disk} (h : Relation.ReflTransGen (Disk.Step b payloads) disk later) :
    later.Sound b payloads ∧ disk.Grows later := by
  induction h with
  | refl => exact ⟨hsound, fun _ _ => id⟩
  | tail hrun hstep ih =>
    obtain ⟨hsound', hgrows⟩ := step_sound hinj ih.1 hstep
    exact ⟨hsound', fun file payload hfile => hgrows _ _ (ih.2 _ _ hfile)⟩

end Disks

/-! ## JSON -/

section Values

variable {payloads : Set ByteArray} {finite : δ → Prop} {v w : PyJson δ}

/-- A value that `json.loads` returned of some text, with finite numbers. -/
structure Loaded (b : StoreBuiltins δ) (finite : δ → Prop) (v : PyJson δ) : Prop where
  loads : ∃ text, PyJson.loads b.floats text = some v
  finite : v.Reals finite

theorem Loaded.distinct (h : Loaded b finite v) : v.Distinct := by
  obtain ⟨text, htext⟩ := h.loads
  obtain ⟨tree, -, rfl⟩ := Option.map_eq_some_iff.mp htext
  exact PyJson.distinct_collapse tree

/-- No string of the value, and no name, holds a surrogate on its own. -/
abbrev Encodable (v : PyJson δ) : Prop := v.All PyStr.IsText PyStr.IsText

/-- **A value has a payload exactly where its strings are texts.** -/
theorem encoded_isSome_iff : (encoded b v).isSome = true ↔ Encodable v := by
  rw [encoded, PyJson.encode_isSome_iff, PyJson.dumpsSorted, PyJson.isText_dumps,
    PyJson.all_sortKeys]

/-- **A payload is read as the value with its names sorted.** -/
theorem encoded_spec (hb : b.Lawful finite) (hv : Loaded b finite v) {payload : ByteArray}
    (h : encoded b v = some payload) : payload.size ≠ 0 ∧
      ((String.fromUTF8? payload).bind fun text => PyJson.loads b.floats text.toList) =
        some v.sortKeys := by
  have htext : Encodable v := encoded_isSome_iff.mp (by rw [h]; rfl)
  obtain ⟨cs, hne, hencode, hloads⟩ :=
    PyJson.exists_encoding hb.floats ⟨htext, hv.finite, hv.distinct⟩
  rw [encoded, hencode] at h
  obtain rfl := Option.some.inj h
  refine ⟨fun hsize => hne ?_, ?_⟩
  · have hempty : String.ofList cs = "" := by
      rw [← String.utf8ByteSize_eq_zero_iff]
      exact hsize
    rw [← String.toList_ofList (l := cs), hempty]
    rfl
  · rw [Utf8.fromUTF8?_toUTF8, Option.bind_some, String.toList_ofList, hloads]

/-- What the artifact store promises of a value: whenever it is put, then at any later time its tenant
gets an equal value by the reference, and any other tenant an error without a file looked into. -/
def RoundTrips (b : StoreBuiltins δ) (payloads : Set ByteArray) (v : PyJson δ) : Prop :=
  ∀ tenantId runId disk, Lib.Reachable Disk.Empty (Disk.Step b payloads) disk →
    ∃ reference disk', (putJson b tenantId runId v).call disk = (.ok reference, disk') ∧
      ∀ later, Relation.ReflTransGen (Disk.Step b payloads) disk' later →
        (∃ w, (((getJson b tenantId reference).call later).1 = .ok w) ∧ w.Equal v) ∧
        ∀ other ≠ tenantId, ∃ e, (getJson b other reference).call later = (.error e, later)

/-- **Putting a value whose strings are texts.** -/
theorem putJson_spec (hb : b.Lawful finite) (hinj : Set.InjOn b.sha256 payloads)
    (hv : Loaded b finite v) {payload : ByteArray} (h : encoded b v = some payload)
    (hpayload : payload ∈ payloads) (tenantId runId : Uuid) {disk : Disk}
    (hsound : disk.Sound b payloads) : ∃ reference disk',
      (putJson b tenantId runId v).call disk = (.ok reference, disk') ∧
        reference.uri = uri tenantId runId (b.sha256 payload) ∧
          reference.sha256 = b.sha256 payload ∧ disk'.Sound b payloads ∧
            disk'.files (path tenantId runId (b.sha256 payload)) = some payload := by
  obtain ⟨reference, hmake, huri, hdigest⟩ :=
    make_uri hb tenantId runId payload
  obtain ⟨disk', hcall, hsound', -, hfile⟩ :=
    writeAtomic_spec tenantId runId hinj hsound hpayload
  refine ⟨reference, disk', ?_, huri, hdigest, hsound', hfile⟩
  unfold putJson putBytes
  simp only [h, Method.call_bind, Method.call_require, if_pos (encoded_spec hb hv h).1, hcall,
    Method.call_ofExcept, hmake]

/-- The reference of a value that was put is made of its payload. -/
theorem putJson_ok {tenantId runId : Uuid} {disk : Disk} {reference : ArtifactRef}
    (h : ((putJson b tenantId runId v).call disk).1 = .ok reference) : ∃ payload,
      encoded b v = some payload ∧
        ArtifactRef.make (uri tenantId runId (b.sha256 payload)) (b.sha256 payload) =
          .ok reference := by
  unfold putJson at h
  cases hencoded : encoded b v with
  | none =>
    rw [hencoded] at h
    exact nomatch h
  | some payload =>
    refine ⟨payload, rfl, ?_⟩
    rw [hencoded] at h
    obtain ⟨-, disk₁, -, h⟩ := Method.bind_ok (Prod.ext h rfl)
    obtain ⟨-, disk₂, -, h⟩ := Method.bind_ok h
    rw [Method.call_ofExcept] at h
    exact (Prod.mk.inj h).1

/-- **References into one run are equal** exactly where the values are. -/
theorem reference_eq_iff (hb : b.Lawful finite) (hinj : Set.InjOn b.sha256 payloads)
    (hv : Loaded b finite v) (hw : Loaded b finite w)
    (hpayload : ∀ payload, encoded b v = some payload → payload ∈ payloads)
    (hpayload' : ∀ payload, encoded b w = some payload → payload ∈ payloads)
    {tenantId runId : Uuid} {disk disk' : Disk} {reference reference' : ArtifactRef}
    (h : ((putJson b tenantId runId v).call disk).1 = .ok reference)
    (h' : ((putJson b tenantId runId w).call disk').1 = .ok reference') :
    reference = reference' ↔ v.Equal w := by
  obtain ⟨payload, hencoded, hmake⟩ := putJson_ok h
  obtain ⟨payload', hencoded', hmake'⟩ := putJson_ok h'
  obtain ⟨made, hmade, -, hdigest⟩ :=
    make_uri hb tenantId runId payload
  obtain ⟨made', hmade', -, hdigest'⟩ :=
    make_uri hb tenantId runId payload'
  obtain rfl := Except.ok.inj (hmade.symm.trans hmake)
  obtain rfl := Except.ok.inj (hmade'.symm.trans hmake')
  constructor
  · rintro rfl
    -- one digest, so one payload, and it is read as one value
    obtain rfl := hinj (hpayload _ hencoded) (hpayload' _ hencoded')
      (hdigest.symm.trans hdigest')
    exact Option.some.inj ((encoded_spec hb hv hencoded).2.symm.trans
      (encoded_spec hb hw hencoded').2)
  · intro hequal
    have hsame : encoded b v = encoded b w := by
      rw [encoded, encoded, PyJson.dumpsSorted, PyJson.dumpsSorted, hequal]
    obtain rfl := Option.some.inj (hencoded.symm.trans (hsame.trans hencoded'))
    exact Except.ok.inj (hmade.symm.trans hmade')

/-- **A value comes back exactly where no string of it holds a surrogate on its own**, and references
into the same run are equal exactly where the values are. -/
theorem json_round_trip_iff (hb : b.Lawful finite) (hinj : Set.InjOn b.sha256 payloads)
    (hv : Loaded b finite v) (hpayload : ∀ payload, encoded b v = some payload → payload ∈ payloads) :
    (RoundTrips b payloads v ↔ Encodable v) ∧
      ∀ w tenantId runId disk disk' reference reference', Loaded b finite w →
        (∀ payload, encoded b w = some payload → payload ∈ payloads) →
        ((putJson b tenantId runId v).call disk).1 = .ok reference →
        ((putJson b tenantId runId w).call disk').1 = .ok reference' →
          (reference = reference' ↔ v.Equal w) := by
  refine ⟨⟨fun h => ?_, fun htext tenantId runId disk hreachable => ?_⟩,
    fun w tenantId runId disk disk' reference reference' hw hpayload' =>
      reference_eq_iff hb hinj hv hw hpayload hpayload'⟩
  · -- putting the value on an empty disk succeeds, so it has a payload
    have hempty : Lib.Reachable Disk.Empty (Disk.Step b payloads) ⟨fun _ => none, []⟩ :=
      .init fun _ => rfl
    obtain ⟨reference, disk', hcall, -⟩ := h ⟨0⟩ ⟨0⟩ _ hempty
    obtain ⟨payload, hencoded, -⟩ := putJson_ok (congrArg Prod.fst hcall)
    exact encoded_isSome_iff.mp (by rw [hencoded]; rfl)
  · obtain ⟨payload, hencoded⟩ := Option.isSome_iff_exists.mp (encoded_isSome_iff.mpr htext)
    obtain ⟨reference, disk', hcall, huri, hdigest, hsound, hfile⟩ :=
      putJson_spec hb hinj hv hencoded (hpayload _ hencoded) tenantId runId
        (reachable_sound hinj hreachable)
    refine ⟨reference, disk', hcall, fun later hlater => ⟨⟨v.sortKeys, ?_, PyJson.equal_sortKeys v⟩,
      fun other hother => ⟨tenantMismatch, ?_⟩⟩⟩
    · have hfile' := (run_grows hinj hsound hlater).2 _ _ hfile
      unfold getJson
      rw [Method.call_bind, getBytes_stored hb huri hdigest hfile']
      simp only [(encoded_spec hb hv hencoded).2]
      rfl
    · unfold getJson
      rw [Method.call_bind, getBytes_other hb huri hdigest hother]

end Values

/-! ## A sample -/

/-- Digests of one payload and of the rest, and floats that are all 0.5. -/
def sampleBuiltins : StoreBuiltins Unit where
  sha256 payload :=
    if payload = "\x7b\"a\":\"x\"\x7d".toUTF8 then
      "bac82bcae3ff0e486fd02d6dce53dc6444bcbd21f6ab5dea0a69e86e8b723b7f"
    else "0000000000000000000000000000000000000000000000000000000000000000"
  checks := { bracketed := fun _ => true, netloc := fun _ => true }
  floats := { real := fun _ => (), constant := fun _ => () }
  repr := fun _ => ['0', '.', '5']

theorem sampleBuiltins_lawful : sampleBuiltins.Lawful fun _ => True where
  digits payload := by
    have hboth : ∀ digest ∈ ["bac82bcae3ff0e486fd02d6dce53dc6444bcbd21f6ab5dea0a69e86e8b723b7f",
        "0000000000000000000000000000000000000000000000000000000000000000"],
        digest.length = 64 ∧ digest.toList.all isHexDigit = true ∧
          Text.lowerAscii digest = digest := by decide +kernel
    refine hboth _ ?_
    simp only [sampleBuiltins]
    split <;> simp
  netloc _ _ := rfl
  floats := ⟨fun _ _ => ⟨⟨false, ['0'], ['.', '5']⟩, rfl, List.cons_ne_nil _ _, rfl⟩, fun _ _ => rfl⟩

/-- `{"a": "x"}`. -/
def sampleValue : PyJson Unit := .obj [([.scalar 'a'], .str [.scalar 'x'])]

theorem sample_round_trips :
    RoundTrips sampleBuiltins {"\x7b\"a\":\"x\"\x7d".toUTF8} sampleValue := by
  have htext : Encodable sampleValue := by decide
  have hdistinct : sampleValue.Distinct := ⟨List.nodup_singleton _, trivial, trivial⟩
  obtain ⟨text, -, -, hloads⟩ := PyJson.loads_dumps sampleBuiltins_lawful.floats htext
    ⟨trivial, trivial⟩ hdistinct
  have hpayload : ∀ payload, encoded sampleBuiltins sampleValue = some payload →
      payload ∈ ({"\x7b\"a\":\"x\"\x7d".toUTF8} : Set ByteArray) := by
    intro payload h
    have hencoded : encoded sampleBuiltins sampleValue = some "\x7b\"a\":\"x\"\x7d".toUTF8 := by
      decide +kernel
    exact (Option.some.inj (hencoded.symm.trans h)).symm
  exact ((json_round_trip_iff sampleBuiltins_lawful (Set.injOn_singleton _ _)
    ⟨⟨text, hloads⟩, trivial, trivial⟩ hpayload).1).mpr htext

/-- The text `"\ud800"` is JSON, and its value cannot be put. -/
theorem lone_surrogate_refused :
    PyJson.loads sampleBuiltins.floats ['"', '\\', 'u', 'd', '8', '0', '0', '"'] =
        some (.str [.lone 0]) ∧
      (((putJson sampleBuiltins ⟨0⟩ ⟨0⟩ (.str [.lone 0])).call ⟨fun _ => none, []⟩).1.toOption) =
        none ∧
      ¬RoundTrips sampleBuiltins ∅ (.str [.lone 0]) := by
  have hrefused : ((putJson sampleBuiltins ⟨0⟩ ⟨0⟩ (.str [.lone 0])).call
      ⟨fun _ => none, []⟩).1.toOption = none := by rfl
  refine ⟨rfl, hrefused, fun h => ?_⟩
  obtain ⟨reference, disk', hcall, -⟩ := h ⟨0⟩ ⟨0⟩ ⟨fun _ => none, []⟩ (.init fun _ => rfl)
  rw [hcall] at hrefused
  exact nomatch hrefused

end Sana.Storage
