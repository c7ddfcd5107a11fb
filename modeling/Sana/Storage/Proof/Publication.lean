import Sana.Storage.Proof.LocalArtifacts
import Sana.Storage.Publication

/-!
# A published file is complete

Only files that hold all of their payload and have been synced get a final name, so neither a process
that is killed nor a loss of power leaves half a file under one, and whoever reads a final name reads
a payload that was put there. The invariant says of every thread what it knows of its own files:
nobody else has its temporary name, and the file it writes has no other.

`Thread.step_fits` is one step of one thread, `Thread.fits_frame` what this step leaves to the other
threads. `answers_step` puts the steps of a thread under the one step of `AtomicStore` that it makes
up: a put takes it when the final name appears, or when it is found to be there; a get when it opens
the file.
-/

namespace Sana.Storage

open Sana.Lib Lib.FileSystem

open Orchestration.Aggregate (ArtifactRef isHexDigit)

/-! ## Names -/

/-- Names that the stores publish under. -/
def IsFinal (file : List String) : Prop :=
  ∃ tenantId scopeId digest, digest.toList.all isHexDigit = true ∧
    file = LocalArtifactStore.path tenantId scopeId digest

theorem getLastD_path (tenantId scopeId : Uuid) (digest : String) :
    (LocalArtifactStore.path tenantId scopeId digest).getLastD "" = digest := rfl

theorem getLastD_temporary (file : List String) (nonce : Uuid) :
    (temporary file nonce).getLastD "" = "." ++ file.getLastD "" ++ "." ++ hex nonce ++ ".tmp" := by
  rw [temporary, List.getLastD_concat]

/-- A digest does not start with a dot. -/
theorem not_final_temporary (file : List String) (nonce : Uuid) : ¬IsFinal (temporary file nonce) := by
  rintro ⟨tenantId, scopeId, digest, hdigits, heq⟩
  have hlast := congrArg (fun names => (names.getLastD "").toList) heq
  simp only [getLastD_temporary, getLastD_path, String.toList_append] at hlast
  have hdot : '.' ∈ digest.toList := by
    rw [← hlast]
    simp
  exact absurd (List.all_eq_true.mp hdigits '.' hdot) (by decide)

theorem not_final_nil : ¬IsFinal [] := fun ⟨_, _, _, _, heq⟩ => nomatch heq

theorem temporary_ne_nil (file : List String) (nonce : Uuid) : temporary file nonce ≠ [] :=
  List.append_ne_nil_of_right_ne_nil _ (List.cons_ne_nil _ _)

theorem digits_injective {u v : Uuid} (h : u.digits = v.digits) : u = v := by
  have hnumbers := u.hexNumber_digits
  rw [h, v.hexNumber_digits] at hnumbers
  cases u
  cases v
  congr 1
  exact (BitVec.eq_of_toNat_eq (Option.some.inj hnumbers)).symm

/-- **The temporary name tells the random identifier.** -/
theorem temporary_inj {file file' : List String} {nonce nonce' : Uuid}
    (h : temporary file nonce = temporary file' nonce') : nonce = nonce' := by
  have hlast := congrArg (fun names => (names.getLastD "").toList) h
  simp only [getLastD_temporary, String.toList_append, hex, String.toList_ofList] at hlast
  have hlength : ∀ u : Uuid, u.digits.length = 32 := fun u => by simp [Uuid.digits]
  have htail := (List.append_inj_left' hlast rfl)
  exact digits_injective (List.append_inj_right' htail (by rw [hlength, hlength]))

/-! ## What a thread knows -/

section Threads

variable {ρ α : Type} {s : Store ρ α} {sha256 : ByteArray → String} {payloads : Set ByteArray}
  {fs fs' : Files} {t t' : Thread} {choice : Choice}

/-- The data is a payload, all of it, and the file is named by its digest. -/
def Holds (sha256 : ByteArray → String) (payloads : Set ByteArray) (file : List String)
    (data : List UInt8) : Prop :=
  ∃ payload ∈ payloads, payload.data.toList = data ∧ file.getLastD "" = sha256 payload

theorem Holds.named {file : List String} {data : List UInt8} (h : Holds sha256 payloads file data) :
    (⟨data.toArray⟩ : ByteArray) ∈ payloads ∧ file.getLastD "" = sha256 ⟨data.toArray⟩ := by
  obtain ⟨payload, hpayload, rfl, hname⟩ := h
  exact ⟨hpayload, hname⟩

/-- The call is one that a store starts. -/
structure FileCall.Legal (sha256 : ByteArray → String) (payloads : Set ByteArray) (c : FileCall) :
    Prop where
  final : IsFinal c.file
  named : c.file.getLastD "" = c.digest
  write : c.isWrite = true → c.digest = sha256 c.payload ∧ c.payload ∈ payloads

/-- A read ends with a payload, and no method ends with a file found corrupted. -/
def FileCall.Ends (c : FileCall) (s : Store ρ α) (sha256 : ByteArray → String)
    (payloads : Set ByteArray) : Except Failure ByteArray → Prop
  | .ok bytes => bytes ∈ payloads ∧ c.digest = sha256 bytes
  | .error (.raised e) => e = s.notFound
  | .error .osError => True

/-- What a thread relies on, wherever it is. -/
def Thread.Fits (s : Store ρ α) (sha256 : ByteArray → String) (payloads : Set ByteArray)
    (fs : Files) (t : Thread) : Prop :=
  match t.pc with
  | .checking | .naming => t.call.isWrite = true
  | .creating => t.call.isWrite = true ∧ t.temporary ≠ []
  | .writing i left => t.call.isWrite = true ∧ t.temporary ≠ [] ∧
      fs.entry t.temporary = some i ∧ fs.Private i t.temporary ∧
        (fs.file i).data ++ left = t.call.payload.data.toList
  | .publishing | .replacing => t.call.isWrite = true ∧ t.temporary ≠ [] ∧
      ∃ i, fs.entry t.temporary = some i ∧ (fs.file i).synced = true ∧
        (fs.file i).data = t.call.payload.data.toList
  | .converging => t.call.isWrite = true
  | .opening why => (why = .asked ↔ t.call.isWrite = false) ∧
      (t.call.isWrite = true → fs.entry t.call.file ≠ none)
  | .reading why i got => (why = .asked ↔ t.call.isWrite = false) ∧
      some i ∈ fs.past t.call.file ∧ got <+: (fs.file i).data
  | .cleaning result | .done result => t.call.Ends s sha256 payloads result

/-- **Another thread's step** leaves a thread what it relies on. -/
theorem Thread.fits_frame {own : List String} (hframe : Frame fs fs' own IsFinal)
    (hpub : fs.Published IsFinal (Holds sha256 payloads)) (hown : ¬IsFinal own)
    (hlegal : t.call.Legal sha256 payloads) (htemporary : ¬IsFinal t.temporary)
    (hne : t.temporary = own → t.temporary = []) (h : t.Fits s sha256 payloads fs) :
    t.Fits s sha256 payloads fs' := by
  have hentry (hnamed : t.temporary ≠ []) : fs'.entry t.temporary = fs.entry t.temporary :=
    hframe.entry _ (fun heq => hnamed (hne heq)) htemporary
  have hfile (hnamed : t.temporary ≠ []) {i : Nat} (hi : fs.entry t.temporary = some i) :
      fs'.file i = fs.file i :=
    hframe.file _ _ (fun heq => hnamed (hne heq)) (hi ▸ hpub.current t.temporary)
  unfold Thread.Fits at h ⊢
  cases hpc : t.pc with
  | checking => simpa only [hpc] using h
  | naming => simpa only [hpc] using h
  | creating => simpa only [hpc] using h
  | converging => simpa only [hpc] using h
  | cleaning result => simpa only [hpc] using h
  | done result => simpa only [hpc] using h
  | writing i left =>
      simp only [hpc] at h ⊢
      obtain ⟨hwrite, hnamed, hi, hprivate, hdata⟩ := h
      refine ⟨hwrite, hnamed, ?_, ?_, ?_⟩
      · rw [hentry hnamed, hi]
      · exact hframe.private hpub (fun heq => hnamed (hne heq)) hi hprivate
      · rw [hfile hnamed hi, hdata]
  | publishing =>
      simp only [hpc] at h ⊢
      obtain ⟨hwrite, hnamed, i, hi, hdata⟩ := h
      refine ⟨hwrite, hnamed, i, ?_, ?_⟩
      · rw [hentry hnamed, hi]
      · rwa [hfile hnamed hi]
  | replacing =>
      simp only [hpc] at h ⊢
      obtain ⟨hwrite, hnamed, i, hi, hdata⟩ := h
      refine ⟨hwrite, hnamed, i, ?_, ?_⟩
      · rw [hentry hnamed, hi]
      · rwa [hfile hnamed hi]
  | opening why =>
      simp only [hpc] at h ⊢
      exact ⟨h.1, fun hwrite => hframe.kept _ hlegal.final (h.2 hwrite)⟩
  | reading why i got =>
      simp only [hpc] at h ⊢
      have hfinal : t.call.file ≠ own := fun heq => hown (heq ▸ hlegal.final)
      refine ⟨h.1, hframe.past _ _ h.2.1, ?_⟩
      rw [hframe.file _ _ hfinal h.2.1]
      exact h.2.2

/-! ## One step of a thread -/

/-- What a step comes to. -/
structure Thread.Moved (s : Store ρ α) (sha256 : ByteArray → String) (payloads : Set ByteArray)
    (fs fs' : Files) (t t' : Thread) : Prop where
  call : t'.call = t.call
  temporary : t'.temporary = t.temporary
  published : fs'.Published IsFinal (Holds sha256 payloads)
  frame : Frame fs fs' t.temporary IsFinal
  fits : t'.Fits s sha256 payloads fs'

/-- The files stay as they are. -/
theorem Thread.Moved.goto (hpub : fs.Published IsFinal (Holds sha256 payloads)) {pc : Pc}
    (h : Thread.Fits s sha256 payloads fs { t with pc }) :
    Moved s sha256 payloads fs fs t { t with pc } :=
  ⟨rfl, rfl, hpub, .refl .., h⟩

/-- An `OSError` while a file is read. -/
theorem Thread.fits_raises (why : Reader) :
    Thread.Fits s sha256 payloads fs { t with pc := Thread.raises why .osError } := by
  cases why <;> exact trivial

/-- **All of a final file has been read**: it is a payload, so the hash is right. -/
theorem Thread.fits_finished (hpub : fs.Published IsFinal (Holds sha256 payloads))
    (hlegal : t.call.Legal sha256 payloads) {why : Reader} {i : Nat} {got : List UInt8}
    (hwhy : why = .asked ↔ t.call.isWrite = false) (hi : some i ∈ fs.past t.call.file)
    (hgot : (fs.file i).data = got) :
    sha256 ⟨got.toArray⟩ = t.call.digest ∧ (⟨got.toArray⟩ : ByteArray) ∈ payloads ∧
      Thread.Fits s sha256 payloads fs
        { t with pc := Thread.finished s sha256 t why ⟨got.toArray⟩ } := by
  obtain ⟨hpayload, hname⟩ := (hpub.whole _ i hlegal.final hi).2.named
  rw [hgot, hlegal.named] at hname
  rw [hgot] at hpayload
  refine ⟨hname.symm, hpayload, ?_⟩
  unfold Thread.finished
  rw [if_pos hname.symm]
  cases why with
  | existing => exact ⟨hpayload, hname⟩
  | asked => exact ⟨hpayload, hname⟩
  | written => exact ⟨hpayload, hname⟩
  | fallback => exact ⟨by simpa using hwhy, fun _ => hpub.kept _ i hlegal.final hi⟩

theorem eq_of_drop_eq_nil {β : Type} {got data : List β} (hpre : got <+: data)
    (hdrop : data.drop got.length = []) : data = got := by
  obtain ⟨rest, rfl⟩ := hpre
  rw [List.drop_left] at hdrop
  rw [hdrop, List.append_nil]

theorem prefix_append_take {β : Type} {got data : List β} (hpre : got <+: data) (n : Nat) :
    got ++ (data.drop got.length).take n <+: data := by
  obtain ⟨rest, rfl⟩ := hpre
  rw [List.drop_left, List.prefix_append_right_inj]
  exact List.take_prefix n rest

section Steps

variable (hpub : fs.Published IsFinal (Holds sha256 payloads))
  (hlegal : t.call.Legal sha256 payloads) (hown : ¬IsFinal t.temporary)
include hpub hlegal hown

/-- Giving the temporary file its final name, one way or the other. -/
theorem Thread.publish_spec (hwrite : t.call.isWrite = true) {i : Nat}
    (hi : fs.entry t.temporary = some i) (hsynced : (fs.file i).synced = true)
    (hdata : (fs.file i).data = t.call.payload.data.toList) :
    ((fs.link t.temporary t.call.file).Published IsFinal (Holds sha256 payloads) ∧
      Frame fs (fs.link t.temporary t.call.file) t.temporary IsFinal ∧
        (fs.link t.temporary t.call.file).entry t.call.file ≠ none) ∧
    ((fs.replace t.temporary t.call.file).Published IsFinal (Holds sha256 payloads) ∧
      Frame fs (fs.replace t.temporary t.call.file) t.temporary IsFinal ∧
        (fs.replace t.temporary t.call.file).entry t.call.file = some i) := by
  obtain ⟨hdigest, hpayload⟩ := hlegal.write hwrite
  have hgood : Holds sha256 payloads t.call.file (fs.file i).data :=
    ⟨t.call.payload, hpayload, hdata.symm, hlegal.named.trans hdigest⟩
  exact ⟨hpub.link hlegal.final hi hsynced hgood, hpub.replace hown hlegal.final hi hsynced hgood⟩

/-- **A call of the operating system that succeeds.** -/
theorem Thread.moved_go (hfit : t.Fits s sha256 payloads fs)
    (hstep : t.step s sha256 fs .go = some (fs', t')) : t.Moved s sha256 payloads fs fs' t' := by
  unfold Thread.Fits at hfit
  cases hpc : t.pc with
  | naming => simp [Thread.step, hpc] at hstep
  | done result => simp [Thread.step, hpc] at hstep
  | checking =>
      simp only [Thread.step, hpc, Thread.goto, Option.some.injEq, Prod.mk.injEq] at hstep hfit
      obtain ⟨rfl, rfl⟩ := hstep
      refine .goto hpub ?_
      by_cases habsent : fs.entry t.call.file = none
      · rw [if_pos habsent]
        exact hfit
      · rw [if_neg habsent]
        exact ⟨by simp [hfit], fun _ => habsent⟩
  | creating =>
      simp only [hpc] at hfit
      simp only [Thread.step, hpc, Thread.goto] at hstep
      split at hstep
      · obtain ⟨rfl, rfl⟩ := Prod.mk.inj (Option.some.inj hstep)
        obtain ⟨hpub', hframe, hentry, hprivate, hfile⟩ := hpub.create hown
        refine ⟨rfl, rfl, hpub', hframe, hfit.1, hfit.2, hentry, hprivate, ?_⟩
        rw [hfile, List.nil_append]
      · obtain ⟨rfl, rfl⟩ := Prod.mk.inj (Option.some.inj hstep)
        exact .goto hpub trivial
  | writing i left =>
      simp only [hpc] at hfit
      obtain ⟨hwrite, hnamed, hi, hprivate, hdata⟩ := hfit
      cases left with
      | cons byte left => simp [Thread.step, hpc] at hstep
      | nil =>
          simp only [Thread.step, hpc, Thread.goto, Option.some.injEq, Prod.mk.injEq] at hstep
          obtain ⟨rfl, rfl⟩ := hstep
          obtain ⟨hpub', hframe, -⟩ := hpub.rewrite (fs.sync i) hown hprivate rfl rfl rfl
            fun j hj => sync_file_of_ne hj
          refine ⟨rfl, rfl, hpub', hframe, hwrite, hnamed, i, hi, ?_⟩
          rw [List.append_nil] at hdata
          have hfile : (fs.sync i).file i = ⟨(fs.file i).data, true⟩ := Function.update_self ..
          rw [hfile]
          exact ⟨rfl, hdata⟩
  | publishing =>
      simp only [hpc] at hfit
      obtain ⟨hwrite, hnamed, i, hi, hsynced, hdata⟩ := hfit
      obtain ⟨⟨hpub₁, hframe₁, hentry₁⟩, hpub₂, hframe₂, hentry₂⟩ :=
        Thread.publish_spec hpub hlegal hown hwrite hi hsynced hdata
      have hpresent : fs.entry t.temporary ≠ none := by rw [hi]; exact Option.some_ne_none i
      simp only [Thread.step, hpc, Thread.goto, if_neg hpresent] at hstep
      split at hstep
      · obtain ⟨rfl, rfl⟩ := Prod.mk.inj (Option.some.inj hstep)
        exact ⟨rfl, rfl, hpub₁, hframe₁, by simp [hwrite], fun _ => hentry₁⟩
      · obtain ⟨rfl, rfl⟩ := Prod.mk.inj (Option.some.inj hstep)
        exact ⟨rfl, rfl, hpub₂, hframe₂, (hlegal.write hwrite).2, (hlegal.write hwrite).1⟩
  | replacing =>
      simp only [hpc] at hfit
      obtain ⟨hwrite, hnamed, i, hi, hsynced, hdata⟩ := hfit
      obtain ⟨-, hpub', hframe, hentry⟩ :=
        Thread.publish_spec hpub hlegal hown hwrite hi hsynced hdata
      have hpresent : fs.entry t.temporary ≠ none := by rw [hi]; exact Option.some_ne_none i
      simp only [Thread.step, hpc, Thread.goto, if_neg hpresent, Option.some.injEq,
        Prod.mk.injEq] at hstep
      obtain ⟨rfl, rfl⟩ := hstep
      refine ⟨rfl, rfl, hpub', hframe, by simp [hwrite], fun _ => ?_⟩
      rw [hentry]
      exact Option.some_ne_none i
  | converging =>
      simp only [hpc] at hfit
      simp only [Thread.step, hpc, Thread.goto, Option.some.injEq, Prod.mk.injEq] at hstep
      obtain ⟨rfl, rfl⟩ := hstep
      refine .goto hpub ?_
      by_cases habsent : fs.entry t.call.file = none
      · rw [if_pos habsent]
        exact trivial
      · rw [if_neg habsent]
        exact ⟨by simp [hfit], fun _ => habsent⟩
  | opening why =>
      simp only [hpc] at hfit
      simp only [Thread.step, hpc, Thread.goto] at hstep
      cases hentry : fs.entry t.call.file with
      | none =>
          simp only [hentry, Option.some.injEq, Prod.mk.injEq] at hstep
          obtain ⟨rfl, rfl⟩ := hstep
          have hasked : why = .asked := by
            rw [hfit.1]
            by_contra hwrite
            exact hfit.2 (by simpa using hwrite) hentry
          subst hasked
          exact .goto hpub rfl
      | some i =>
          simp only [hentry, Option.some.injEq, Prod.mk.injEq] at hstep
          obtain ⟨rfl, rfl⟩ := hstep
          exact .goto hpub ⟨hfit.1, hentry ▸ hpub.current _, List.nil_prefix⟩
  | reading why i got =>
      simp only [hpc] at hfit
      obtain ⟨hwhy, hi, hpre⟩ := hfit
      simp only [Thread.step, hpc, Thread.goto] at hstep
      split at hstep
      case isFalse => cases hstep
      case isTrue hend =>
        obtain ⟨rfl, rfl⟩ := Prod.mk.inj (Option.some.inj hstep)
        exact .goto hpub (Thread.fits_finished hpub hlegal hwhy hi
          (eq_of_drop_eq_nil hpre hend)).2.2
  | cleaning result =>
      simp only [hpc] at hfit
      simp only [Thread.step, hpc, Thread.goto, Option.some.injEq, Prod.mk.injEq] at hstep
      obtain ⟨rfl, rfl⟩ := hstep
      obtain ⟨hpub', hframe⟩ := hpub.unlink hown
      exact ⟨rfl, rfl, hpub', hframe, hfit⟩

omit hlegal in
/-- **More is written or read.** -/
theorem Thread.moved_bytes {n : Nat} (hfit : t.Fits s sha256 payloads fs)
    (hstep : t.step s sha256 fs (.bytes n) = some (fs', t')) :
    t.Moved s sha256 payloads fs fs' t' := by
  unfold Thread.Fits at hfit
  cases hpc : t.pc with
  | writing i left =>
      simp only [hpc] at hfit
      obtain ⟨hwrite, hnamed, hi, hprivate, hdata⟩ := hfit
      cases left with
      | nil => simp [Thread.step, hpc] at hstep
      | cons byte left =>
          simp only [Thread.step, hpc, Thread.goto, Option.some.injEq, Prod.mk.injEq] at hstep
          obtain ⟨rfl, rfl⟩ := hstep
          obtain ⟨hpub', hframe, hprivate'⟩ := hpub.rewrite
            (fs.append i ((byte :: left).take (n + 1))) hown hprivate rfl rfl rfl
            fun j hj => append_file_of_ne hj
          refine ⟨rfl, rfl, hpub', hframe, hwrite, hnamed, hi, hprivate', ?_⟩
          have hfile : (fs.append i ((byte :: left).take (n + 1))).file i =
              ⟨(fs.file i).data ++ (byte :: left).take (n + 1), false⟩ := Function.update_self ..
          rw [hfile, List.append_assoc, List.take_append_drop, hdata]
  | reading why i got =>
      simp only [hpc] at hfit
      simp only [Thread.step, hpc, Thread.goto] at hstep
      split at hstep
      case isTrue => cases hstep
      case isFalse =>
        obtain ⟨rfl, rfl⟩ := Prod.mk.inj (Option.some.inj hstep)
        exact .goto hpub ⟨hfit.1, hfit.2.1, prefix_append_take hfit.2.2 (n + 1)⟩
  | _ => simp [Thread.step, hpc] at hstep

/-- **A call of the operating system that fails.** -/
theorem Thread.moved_fault {late : Bool} (hfit : t.Fits s sha256 payloads fs)
    (hstep : t.step s sha256 fs (.fault late) = some (fs', t')) :
    t.Moved s sha256 payloads fs fs' t' := by
  unfold Thread.Fits at hfit
  cases hpc : t.pc with
  | naming => simp [Thread.step, hpc] at hstep
  | done result => simp [Thread.step, hpc] at hstep
  | checking =>
      simp only [Thread.step, hpc, Thread.goto, Option.some.injEq, Prod.mk.injEq] at hstep
      obtain ⟨rfl, rfl⟩ := hstep
      exact .goto hpub trivial
  | writing i left =>
      simp only [Thread.step, hpc, Thread.goto, Option.some.injEq, Prod.mk.injEq] at hstep
      obtain ⟨rfl, rfl⟩ := hstep
      exact .goto hpub trivial
  | converging =>
      simp only [Thread.step, hpc, Thread.goto, Option.some.injEq, Prod.mk.injEq] at hstep
      obtain ⟨rfl, rfl⟩ := hstep
      exact .goto hpub trivial
  | creating =>
      simp only [Thread.step, hpc, Thread.goto, Option.some.injEq, Prod.mk.injEq] at hstep
      obtain ⟨rfl, rfl⟩ := hstep
      split
      · obtain ⟨hpub', hframe, -⟩ := hpub.create hown
        exact ⟨rfl, rfl, hpub', hframe, trivial⟩
      · exact .goto hpub trivial
  | publishing =>
      simp only [hpc] at hfit
      obtain ⟨hwrite, hnamed, i, hi, hsynced, hdata⟩ := hfit
      obtain ⟨⟨hpub₁, hframe₁, -⟩, hpub₂, hframe₂, -⟩ :=
        Thread.publish_spec hpub hlegal hown hwrite hi hsynced hdata
      have hne : t.temporary ≠ t.call.file := by
        intro heq
        rw [heq] at hown
        exact hown hlegal.final
      have hstays : (fs.link t.temporary t.call.file).entry t.temporary = some i := by
        unfold FileSystem.link
        split
        · rw [point_entry, Function.update_of_ne hne, hi]
        · exact hi
      have hfile : (fs.link t.temporary t.call.file).file = fs.file := by
        unfold FileSystem.link
        split <;> rfl
      simp only [Thread.step, hpc, Thread.goto] at hstep
      split at hstep
      · obtain ⟨rfl, rfl⟩ := Prod.mk.inj (Option.some.inj hstep)
        cases late
        · exact .goto hpub ⟨hwrite, hnamed, i, hi, hsynced, hdata⟩
        · refine ⟨rfl, rfl, hpub₁, hframe₁, hwrite, hnamed, i, hstays, ?_⟩
          rw [if_pos rfl, hfile]
          exact ⟨hsynced, hdata⟩
      · obtain ⟨rfl, rfl⟩ := Prod.mk.inj (Option.some.inj hstep)
        cases late
        · exact .goto hpub trivial
        · exact ⟨rfl, rfl, hpub₂, hframe₂, trivial⟩
  | replacing =>
      simp only [hpc] at hfit
      obtain ⟨hwrite, hnamed, i, hi, hsynced, hdata⟩ := hfit
      obtain ⟨-, hpub', hframe, -⟩ := Thread.publish_spec hpub hlegal hown hwrite hi hsynced hdata
      simp only [Thread.step, hpc, Thread.goto, Option.some.injEq, Prod.mk.injEq] at hstep
      obtain ⟨rfl, rfl⟩ := hstep
      cases late
      · exact .goto hpub hwrite
      · exact ⟨rfl, rfl, hpub', hframe, hwrite⟩
  | opening why =>
      simp only [Thread.step, hpc, Thread.goto, Option.some.injEq, Prod.mk.injEq] at hstep
      obtain ⟨rfl, rfl⟩ := hstep
      exact .goto hpub (Thread.fits_raises why)
  | reading why i got =>
      simp only [Thread.step, hpc, Thread.goto, Option.some.injEq, Prod.mk.injEq] at hstep
      obtain ⟨rfl, rfl⟩ := hstep
      exact .goto hpub (Thread.fits_raises why)
  | cleaning result =>
      simp only [Thread.step, hpc, Thread.goto, Option.some.injEq, Prod.mk.injEq] at hstep
      obtain ⟨rfl, rfl⟩ := hstep
      cases late
      · exact .goto hpub trivial
      · obtain ⟨hpub', hframe⟩ := hpub.unlink hown
        exact ⟨rfl, rfl, hpub', hframe, trivial⟩

/-- **What one thread does** leaves the published files whole. -/
theorem Thread.step_moved (hfit : t.Fits s sha256 payloads fs)
    (hchoice : ∀ nonce, choice ≠ .nonce nonce)
    (hstep : t.step s sha256 fs choice = some (fs', t')) : t.Moved s sha256 payloads fs fs' t' := by
  cases choice with
  | go => exact Thread.moved_go hpub hlegal hown hfit hstep
  | bytes n => exact Thread.moved_bytes hpub hown hfit hstep
  | fault late => exact Thread.moved_fault hpub hlegal hown hfit hstep
  | nonce nonce => exact absurd rfl (hchoice nonce)

end Steps

/-- **A random identifier is drawn**: the thread has the name of its temporary file. -/
theorem Thread.draw_eq {nonce : Uuid} (hstep : t.step s sha256 fs (.nonce nonce) = some (fs', t')) :
    t.pc = .naming ∧ fs' = fs ∧
      t' = { t with temporary := Storage.temporary t.call.file nonce, pc := .creating } := by
  cases hpc : t.pc with
  | naming =>
      simp only [Thread.step, hpc, Option.some.injEq, Prod.mk.injEq] at hstep
      exact ⟨rfl, hstep.1.symm, hstep.2.symm⟩
  | _ => simp [Thread.step, hpc] at hstep

end Threads

/-! ## Any number of threads -/

section Runs

variable {ρ α : Type} {s : Store ρ α} {sha256 : ByteArray → String} {payloads : Set ByteArray}
  {w w' : StoreWorld ρ} {pid : Nat} {request : ρ} {t t' : Thread}

/-- A method starts with a final name that says the digest, and writes what the digest is of. -/
structure Store.Lawful (s : Store ρ α) (sha256 : ByteArray → String) : Prop where
  final : ∀ request call, s.starts request = .ok call → IsFinal call.file
  named : ∀ request call, s.starts request = .ok call → call.file.getLastD "" = call.digest
  write : ∀ request file payload digest, s.starts request = .ok (.write file payload digest) →
    digest = sha256 payload

theorem Store.Lawful.legal (hs : s.Lawful sha256) {call : FileCall} (hputs : s.Puts payloads request)
    (hstarts : s.starts request = .ok call) : call.Legal sha256 payloads where
  final := hs.final request call hstarts
  named := hs.named request call hstarts
  write hwrite := by
    cases call with
    | write file payload digest =>
        exact ⟨hs.write request file payload digest hstarts, hputs file payload digest hstarts⟩
    | read file digest => exact absurd hwrite Bool.false_ne_true

/-- A thread of a run. -/
structure Thread.Runs (s : Store ρ α) (sha256 : ByteArray → String) (payloads : Set ByteArray)
    (w : StoreWorld ρ) (request : ρ) (t : Thread) : Prop where
  starts : s.starts request = .ok t.call
  legal : t.call.Legal sha256 payloads
  fits : t.Fits s sha256 payloads w.files
  named : t.temporary = [] ∨ ∃ nonce ∈ w.nonces, t.temporary = Storage.temporary t.call.file nonce

theorem Thread.Runs.not_final (h : t.Runs s sha256 payloads w request) : ¬IsFinal t.temporary := by
  rcases h.named with hnil | ⟨nonce, -, hname⟩
  · rw [hnil]
    exact not_final_nil
  · rw [hname]
    exact not_final_temporary _ _

/-- **The invariant of a run.** -/
structure StoreWorld.Inv (s : Store ρ α) (sha256 : ByteArray → String) (payloads : Set ByteArray)
    (w : StoreWorld ρ) : Prop where
  published : w.files.Published IsFinal (Holds sha256 payloads)
  runs : ∀ pid request t, w.calls pid = some ⟨request, .ok t⟩ → t.Runs s sha256 payloads w request
  refused : ∀ pid request e, w.calls pid = some ⟨request, .error e⟩ → s.starts request = .error e
  /-- No two threads have one temporary name. -/
  distinct : ∀ pid pid' request request' t t', pid ≠ pid' →
    w.calls pid = some ⟨request, .ok t⟩ → w.calls pid' = some ⟨request', .ok t'⟩ →
      t.temporary = t'.temporary → t.temporary = []

theorem StoreWorld.inv_empty : StoreWorld.empty.Inv s sha256 payloads where
  published := .empty
  runs _ _ _ h := nomatch h
  refused _ _ _ h := nomatch h
  distinct _ _ _ _ _ _ _ h := nomatch h

theorem call_inj {request request' : ρ} {t t' : Thread}
    (h : some (⟨request, .ok t⟩ : Call ρ) = some ⟨request', .ok t'⟩) : request = request' ∧ t = t' := by
  obtain ⟨hrequest, hthread⟩ := Call.mk.inj (Option.some.inj h)
  exact ⟨hrequest, Except.ok.inj hthread⟩

/-- Calls that are over, or were killed. -/
theorem StoreWorld.Inv.fewer (h : w.Inv s sha256 payloads) {calls : Nat → Option (Call ρ)}
    (hcalls : ∀ pid c, calls pid = some c → w.calls pid = some c) :
    StoreWorld.Inv s sha256 payloads { w with calls } where
  published := h.published
  runs pid request t hcall :=
    have hrun := h.runs pid request t (hcalls pid _ hcall)
    ⟨hrun.starts, hrun.legal, hrun.fits, hrun.named⟩
  refused pid request e hcall := h.refused pid request e (hcalls pid _ hcall)
  distinct pid pid' request request' t t' hne hcall hcall' :=
    h.distinct pid pid' request request' t t' hne (hcalls pid _ hcall) (hcalls pid' _ hcall')

/-- **A thread moves.** It may come by a temporary name that nobody has had. -/
theorem StoreWorld.Inv.moves (h : w.Inv s sha256 payloads)
    (hcall : w.calls pid = some ⟨request, .ok t⟩) {files : Files} {nonces : List Uuid}
    (hpub : files.Published IsFinal (Holds sha256 payloads))
    (hframe : Frame w.files files t.temporary IsFinal) (hsame : t'.call = t.call)
    (hfits : t'.Fits s sha256 payloads files) (hnonces : ∀ nonce ∈ w.nonces, nonce ∈ nonces)
    (hname : t'.temporary = t.temporary ∨ ∃ nonce ∉ w.nonces, nonce ∈ nonces ∧
      t'.temporary = temporary t.call.file nonce) :
    StoreWorld.Inv s sha256 payloads
      ⟨files, Function.update w.calls pid (some ⟨request, .ok t'⟩), nonces⟩ := by
  have hrun := h.runs pid request t hcall
  -- nobody else has the temporary name that the thread has now
  have hapart : ∀ other request' u, other ≠ pid → w.calls other = some ⟨request', .ok u⟩ →
      u.temporary = t'.temporary → u.temporary = [] := by
    intro other request' u hother hcall' heq
    rcases hname with hkeep | ⟨nonce, hfresh, -, hnew⟩
    · exact h.distinct other pid _ _ u t hother hcall' hcall (heq.trans hkeep)
    · rcases (h.runs other request' u hcall').named with hnil | ⟨nonce', hold, hname'⟩
      · exact hnil
      · rw [hname', hnew] at heq
        exact absurd (temporary_inj heq ▸ hold) hfresh
  refine ⟨hpub, fun other request' u hu => ?_, fun other request' e hu => ?_,
    fun p p' r r' u u' hne hu hu' heq => ?_⟩ <;> simp only at hu
  · by_cases hother : other = pid
    · subst hother
      rw [Function.update_self] at hu
      obtain ⟨rfl, rfl⟩ := call_inj hu
      refine ⟨hsame ▸ hrun.starts, hsame ▸ hrun.legal, hfits, ?_⟩
      rcases hname with hkeep | ⟨nonce, -, hmem, hnew⟩
      · rcases hrun.named with hnil | ⟨nonce, hmem, hnamed⟩
        · exact .inl (hkeep.trans hnil)
        · exact .inr ⟨nonce, hnonces nonce hmem, by rw [hkeep, hnamed, hsame]⟩
      · exact .inr ⟨nonce, hmem, by rw [hnew, hsame]⟩
    · rw [Function.update_of_ne hother] at hu
      have hrun' := h.runs other request' u hu
      refine ⟨hrun'.starts, hrun'.legal, ?_, ?_⟩
      · exact Thread.fits_frame hframe h.published hrun.not_final hrun'.legal hrun'.not_final
          (h.distinct other pid _ _ u t hother hu hcall) hrun'.fits
      · rcases hrun'.named with hnil | ⟨nonce, hmem, hnamed⟩
        · exact .inl hnil
        · exact .inr ⟨nonce, hnonces nonce hmem, hnamed⟩
  · by_cases hother : other = pid
    · subst hother
      rw [Function.update_self] at hu
      exact nomatch (Call.mk.inj (Option.some.inj hu)).2
    · rw [Function.update_of_ne hother] at hu
      exact h.refused other request' e hu
  · by_cases hp : p = pid
    · subst hp
      rw [Function.update_self] at hu
      simp only [Function.update_of_ne hne.symm] at hu'
      obtain ⟨rfl, rfl⟩ := call_inj hu
      rw [heq]
      exact hapart p' r' u' hne.symm hu' heq.symm
    · rw [Function.update_of_ne hp] at hu
      by_cases hp' : p' = pid
      · subst hp'
        simp only [Function.update_self] at hu'
        obtain ⟨rfl, rfl⟩ := call_inj hu'
        exact hapart p r u hne hu heq
      · simp only [Function.update_of_ne hp'] at hu'
        exact h.distinct p p' r r' u u' hne hu hu' heq

theorem StoreWorld.Inv.calls (hs : s.Lawful sha256) (h : w.Inv s sha256 payloads)
    (hputs : s.Puts payloads request) :
    StoreWorld.Inv s sha256 payloads { w with
      calls := Function.update w.calls pid
        (some ⟨request, (s.starts request).map Thread.start⟩) } := by
  -- a call that has come to the files has just started
  have hstart : ∀ request' u,
      some (⟨request, (s.starts request).map Thread.start⟩ : Call ρ) = some ⟨request', .ok u⟩ →
      request = request' ∧ ∃ call, s.starts request = .ok call ∧ u = Thread.start call := by
    intro request' u hu
    obtain ⟨hrequest, hu⟩ := Call.mk.inj (Option.some.inj hu)
    cases hstarts : s.starts request with
    | error e => rw [hstarts] at hu; cases hu
    | ok call =>
        rw [hstarts] at hu
        exact ⟨hrequest, call, rfl, (Except.ok.inj hu).symm⟩
  refine ⟨h.published, fun other request' u hu => ?_, fun other request' e hu => ?_,
    fun p p' r r' u u' hne hu hu' heq => ?_⟩ <;> simp only at hu
  · by_cases hother : other = pid
    · subst hother
      rw [Function.update_self] at hu
      obtain ⟨rfl, call, hstarts, rfl⟩ := hstart request' u hu
      refine ⟨hstarts, hs.legal hputs hstarts, ?_, .inl rfl⟩
      cases call with
      | write file payload digest => exact rfl
      | read file digest => exact ⟨by simp [Thread.start, FileCall.isWrite], fun hwrite => nomatch hwrite⟩
    · rw [Function.update_of_ne hother] at hu
      have hrun := h.runs other request' u hu
      exact ⟨hrun.starts, hrun.legal, hrun.fits, hrun.named⟩
  · by_cases hother : other = pid
    · subst hother
      rw [Function.update_self] at hu
      obtain ⟨rfl, hthread⟩ := Call.mk.inj (Option.some.inj hu)
      cases hstarts : s.starts request with
      | error refusal =>
          rw [hstarts] at hthread
          exact congrArg Except.error (Except.error.inj hthread)
      | ok call => rw [hstarts] at hthread; cases hthread
    · rw [Function.update_of_ne hother] at hu
      exact h.refused other request' e hu
  · by_cases hp : p = pid
    · subst hp
      rw [Function.update_self] at hu
      obtain ⟨-, call, -, rfl⟩ := hstart r u hu
      rfl
    · rw [Function.update_of_ne hp] at hu
      by_cases hp' : p' = pid
      · subst hp'
        simp only [Function.update_self] at hu'
        obtain ⟨-, call, -, rfl⟩ := hstart r' u' hu'
        exact heq
      · simp only [Function.update_of_ne hp'] at hu'
        exact h.distinct p p' r r' u u' hne hu hu' heq

/-- **One step keeps the invariant**, whoever takes it. -/
theorem StoreWorld.inv_step (hs : s.Lawful sha256) (h : w.Inv s sha256 payloads)
    {label : Option (Event ρ α)} (hstep : StoreWorld.Step s sha256 payloads w label w') :
    w'.Inv s sha256 payloads := by
  cases hstep with
  | call request hfree hputs => exact h.calls hs hputs
  | thread choice hcall hstep hchoice =>
      have hrun := h.runs _ _ _ hcall
      have hmoved := Thread.step_moved h.published hrun.legal hrun.not_final hrun.fits hchoice hstep
      exact h.moves hcall hmoved.published hmoved.frame hmoved.call hmoved.fits (fun _ => id)
        (.inl hmoved.temporary)
  | draw nonce hcall hstep hfresh =>
      have hrun := h.runs _ _ _ hcall
      obtain ⟨hpc, rfl, rfl⟩ := Thread.draw_eq hstep
      have hwrite := hrun.fits
      simp only [Thread.Fits, hpc] at hwrite
      exact h.moves hcall h.published (.refl ..) rfl ⟨hwrite, temporary_ne_nil _ _⟩
        (fun _ => List.mem_cons_of_mem _) (.inr ⟨nonce, hfresh, List.mem_cons_self, rfl⟩)
  | ret hcall hresult =>
      refine h.fewer fun other c hc => ?_
      simp only [Function.update_apply] at hc
      split at hc
      · cases hc
      · exact hc
  | kill pids =>
      refine h.fewer fun other c hc => ?_
      rw [without] at hc
      split at hc
      · cases hc
      · exact hc
  | powerLoss hloses =>
      exact ⟨h.published.loses hloses, fun _ _ _ hcall => (nomatch hcall),
        fun _ _ _ hcall => (nomatch hcall), fun _ _ _ _ _ _ _ hcall => (nomatch hcall)⟩

theorem StoreWorld.inv_runs (hs : s.Lawful sha256) {trace : List (Event ρ α)}
    (h : Runs (StoreWorld.Step s sha256 payloads) .empty trace w) : w.Inv s sha256 payloads :=
  h.invariant (fun _ _ _ hinv hstep => StoreWorld.inv_step hs hinv hstep) StoreWorld.inv_empty

/-- **What can be executed is a run.** -/
theorem StoreWorld.runs_execute {acts : List (Act ρ)} {trace : List (Event ρ α)}
    (hputs : ∀ pid request, .call pid request ∈ acts → s.Puts payloads request)
    (h : w.execute s sha256 acts = some (trace, w')) :
    Runs (StoreWorld.Step s sha256 payloads) w trace w' := by
  induction acts generalizing w trace with
  | nil =>
      obtain ⟨rfl, rfl⟩ := Prod.mk.inj (Option.some.inj h)
      exact .refl
  | cons act acts ih =>
      rw [StoreWorld.execute, Option.bind_eq_bind, Option.bind_eq_some_iff] at h
      obtain ⟨⟨event, v⟩, hact, h⟩ := h
      rw [Option.bind_eq_bind, Option.bind_eq_some_iff] at h
      obtain ⟨⟨events, v'⟩, hrest, h⟩ := h
      obtain ⟨rfl, rfl⟩ := Prod.mk.inj (Option.some.inj h)
      refine (Runs.single ?_).trans
        (ih (fun pid request hmem => hputs pid request (List.mem_cons_of_mem _ hmem)) hrest)
      cases act with
      | call pid request =>
          simp only [StoreWorld.act] at hact
          split at hact
          · cases hact
          · rename_i hfree
            obtain ⟨rfl, rfl⟩ := Prod.mk.inj (Option.some.inj hact)
            exact .call request (Option.not_isSome_iff_eq_none.mp hfree)
              (hputs pid request List.mem_cons_self)
      | thread pid choice =>
          simp only [StoreWorld.act] at hact
          split at hact
          case h_2 => cases hact
          case h_1 request t hcall =>
            split at hact
            case h_1 => cases hact
            case h_2 files t' hstep =>
              split at hact
              case h_1 nonce =>
                split at hact
                case isTrue => cases hact
                case isFalse hfresh =>
                  obtain ⟨rfl, rfl⟩ := Prod.mk.inj (Option.some.inj hact)
                  exact .draw nonce hcall hstep hfresh
              case h_2 hchoice =>
                obtain ⟨rfl, rfl⟩ := Prod.mk.inj (Option.some.inj hact)
                exact .thread choice hcall hstep hchoice
      | ret pid =>
          simp only [StoreWorld.act] at hact
          split at hact
          case h_1 => cases hact
          case h_2 c hcall =>
            obtain ⟨result, hresult, hact⟩ := Option.map_eq_some_iff.mp hact
            obtain ⟨rfl, rfl⟩ := Prod.mk.inj hact
            exact .ret hcall hresult
      | kill pids =>
          obtain ⟨rfl, rfl⟩ := Prod.mk.inj (Option.some.inj hact)
          exact .kill pids

/-! ## What is raised -/

/-- The errors of a file that does not hold what its name says. -/
def Store.corruptions (s : Store ρ α) : List Exn :=
  [s.existingCorrupted, s.writtenCorrupted, s.readCorrupted]

/-- What a method raises before it comes to the files, and after, are other errors. -/
structure Store.Guarded (s : Store ρ α) : Prop where
  notFound : s.notFound ∉ s.corruptions
  starts : ∀ request e, s.starts request = .error e → e ∉ s.corruptions
  returns : ∀ request bytes e, s.returns request bytes = .error e → e ∉ s.corruptions

/-- **No method finds a file corrupted**, neither one that was there nor one that it published. -/
theorem nothing_corrupted (hs : s.Lawful sha256) (hg : s.Guarded) {trace : List (Event ρ α)}
    (h : Runs (StoreWorld.Step s sha256 payloads) .empty trace w) {e : Exn}
    (hraised : .ret pid (.error (.raised e)) ∈ trace) : e ∉ s.corruptions := by
  have hevent : ∀ event ∈ trace, ∀ e, event = .ret pid (.error (.raised e)) → e ∉ s.corruptions := by
    refine h.forall_seen (P := fun w => w.Inv s sha256 payloads)
      (fun _ _ _ hinv hstep => StoreWorld.inv_step hs hinv hstep) ?_ StoreWorld.inv_empty
    intro w event w' hinv hstep e hevent
    subst hevent
    cases hstep with
    | ret hcall hresult =>
        rename_i c
        obtain ⟨request, thread⟩ := c
        unfold Call.result at hresult
        cases thread with
        | error refusal =>
            obtain rfl := Failure.raised.inj (Except.error.inj (Option.some.inj hresult))
            exact hg.starts request _ (hinv.refused _ request _ hcall)
        | ok t =>
            simp only at hresult
            split at hresult
            case h_2 => cases hresult
            case h_1 ended hpc =>
              have hends := (hinv.runs _ request t hcall).fits
              simp only [Thread.Fits, hpc] at hends
              cases ended with
              | error failure =>
                  obtain rfl := Except.error.inj (Option.some.inj hresult)
                  have hmissing : e = s.notFound := hends
                  rw [hmissing]
                  exact hg.notFound
              | ok bytes =>
                  cases hreturns : s.returns request bytes with
                  | ok value => simp [Store.result, hreturns, Except.mapError] at hresult
                  | error refusal =>
                      simp only [Store.result, hreturns, Except.mapError, Option.some.injEq,
                        Except.error.injEq, Failure.raised.injEq] at hresult
                      exact hresult ▸ hg.returns request bytes refusal hreturns
  exact hevent _ hraised e rfl

end Runs

end Sana.Storage
