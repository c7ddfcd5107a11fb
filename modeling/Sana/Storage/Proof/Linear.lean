import Sana.Storage.Proof.Publication

/-!
# Both stores are linearizable

Whatever the threads of a store do, what is seen of them could have been seen of a store whose
methods take one step each. A put takes this step when the final name appears, or when it is found to
be there; a get when it opens the file. Between a call and its one step the disk may be changed by
others; from the step on the thread only finds out what was decided then.
-/

namespace Sana.Storage

open Sana.Lib Lib.FileSystem

variable {ρ α : Type} {s : Store ρ α} {sha256 : ByteArray → String} {payloads : Set ByteArray}

/-- What a name shows. -/
def view (fs : Files) (file : List String) : Option ByteArray :=
  (fs.entry file).map fun i => ⟨(fs.file i).data.toArray⟩

/-- The disk shows what the final names do. -/
def Shows (disk : Disk) (fs : Files) : Prop := ∀ file, IsFinal file → disk.files file = view fs file

/-! ## The one step -/

section Perform

variable {request : ρ} {file : List String} {payload : ByteArray} {digest : String} {disk : Disk}

/-- A put leaves the payload under the name, whether it was there or not. -/
theorem perform_write (hstarts : s.starts request = .ok (.write file payload digest))
    (hdigest : digest = sha256 payload)
    (hsame : ∀ existing, disk.files file = some existing → existing = payload) :
    ∃ disk', (s.perform sha256 request).call disk = (s.returns request payload, disk') ∧
      ∀ other, disk'.files other = if other = file then some payload else disk.files other := by
  unfold Store.perform
  simp only [Method.call_bind, Method.call_ofExcept, hstarts, Method.call_get]
  cases hfile : disk.files file with
  | none =>
      refine ⟨{ disk with
        files := fun other => if other = file then some payload else disk.files other }, ?_, fun _ => rfl⟩
      simp only [Option.isSome_none, Bool.false_eq_true, if_false, Method.call_bind,
        Method.call_modify, Method.call_ofExcept]
  | some existing =>
      obtain rfl := hsame existing hfile
      have hcall : (LocalArtifactStore.readBytes file).call disk =
          (.ok (some existing), { disk with reads := file :: disk.reads }) := by
        rw [call_readBytes, hfile]
      refine ⟨{ disk with reads := file :: disk.reads }, ?_, fun other => ?_⟩
      · simp only [Option.isSome_some, if_true, Method.call_bind, hcall, Option.map_some, hdigest,
          Method.call_require, Method.call_ofExcept]
      · by_cases hother : other = file
        · rw [if_pos hother, hother]
          exact hfile
        · rw [if_neg hother]

theorem perform_read (hstarts : s.starts request = .ok (.read file digest)) :
    (s.perform sha256 request).call disk =
      (match disk.files file with
        | none => .error s.notFound
        | some payload =>
          if sha256 payload = digest then s.returns request payload else .error s.readCorrupted,
        { disk with reads := file :: disk.reads }) := by
  unfold Store.perform
  simp only [Method.call_bind, Method.call_ofExcept, hstarts, call_readBytes]
  cases disk.files file with
  | none => rfl
  | some payload =>
      simp only [Method.call_bind, Method.call_require]
      by_cases hhash : sha256 payload = digest
      · simp only [if_pos hhash, Method.call_ofExcept]
      · simp only [if_neg hhash]

theorem perform_refused {e : Exn} (hstarts : s.starts request = .error e) :
    (s.perform sha256 request).call disk = (.error e, disk) := by
  unfold Store.perform
  simp only [Method.call_bind, Method.call_ofExcept, hstarts]

end Perform

/-! ## One thread over one call -/

/-- How a step of a thread is answered by its call: not at all, by the one step, or by an `OSError`. -/
inductive Answers (s : Store ρ α) (sha256 : ByteArray → String) (request : ρ) (disk : Disk) :
    Option (Except Failure α) → Disk → Option (Except Failure α) → Prop
  | stays (d : Option (Except Failure α)) : Answers s sha256 request disk d disk d
  | performs : Answers s sha256 request disk none ((s.perform sha256 request).call disk).2
      (some (((s.perform sha256 request).call disk).1.mapError .raised))
  | fails (d : Option (Except Failure α)) :
      Answers s sha256 request disk d disk (some (.error .osError))
  | performsFails : Answers s sha256 request disk none ((s.perform sha256 request).call disk).2
      (some (.error .osError))

/-- What a thread has found out agrees with what was decided. -/
def Thread.Agrees (s : Store ρ α) (fs : Files) (request : ρ) (t : Thread)
    (d : Option (Except Failure α)) : Prop :=
  match t.pc with
  | .checking | .naming | .creating | .writing _ _ | .publishing | .opening .asked => d = none
  -- an `os.link` or `os.replace` that failed may have had its effect
  | .replacing | .converging => d = none ∨
      (d = some (s.result request (.ok t.call.payload)) ∧ fs.entry t.call.file ≠ none)
  | .opening _ => d = some (s.result request (.ok t.call.payload))
  | .reading .asked i _ => d = some (s.result request (.ok ⟨(fs.file i).data.toArray⟩))
  | .reading _ _ _ => d = some (s.result request (.ok t.call.payload))
  | .cleaning result | .done result => d = some (s.result request result)

section Answered

variable {fs fs' : Files} {t t' : Thread} {request : ρ} {disk : Disk} {d : Option (Except Failure α)}
  {choice : Choice}

/-- Another thread's step does not change what was found out. -/
theorem Thread.agrees_frame {own : List String} (hframe : Frame fs fs' own IsFinal)
    (hown : ¬IsFinal own) (hlegal : t.call.Legal sha256 payloads)
    (hfit : t.Fits s sha256 payloads fs) (h : t.Agrees s fs request d) :
    t.Agrees s fs' request d := by
  have hkept := hframe.kept _ hlegal.final
  unfold Thread.Fits at hfit
  unfold Thread.Agrees at h ⊢
  cases hpc : t.pc with
  | replacing =>
      simp only [hpc] at h ⊢
      exact h.imp_right fun h => ⟨h.1, hkept h.2⟩
  | converging =>
      simp only [hpc] at h ⊢
      exact h.imp_right fun h => ⟨h.1, hkept h.2⟩
  | opening why => cases why <;> simpa only [hpc] using h
  | reading why i got =>
      have hfile : fs'.file i = fs.file i := by
        simp only [hpc] at hfit
        refine hframe.file _ _ ?_ hfit.2.1
        intro heq
        exact hown (heq ▸ hlegal.final)
      cases why <;> simpa only [hpc, hfile] using h
  | _ => simpa only [hpc] using h

/-- A step that leaves the final names alone. -/
theorem view_quiet (hpub : fs.Published IsFinal (Holds sha256 payloads)) {own : List String}
    (hown : ¬IsFinal own) (hframe : Frame fs fs' own IsFinal)
    (hquiet : ∀ file, IsFinal file → fs'.entry file = fs.entry file) {file : List String}
    (hfile : IsFinal file) : view fs' file = view fs file := by
  unfold view
  rw [hquiet file hfile]
  cases hentry : fs.entry file with
  | none => rfl
  | some i =>
      have hne : file ≠ own := fun heq => hown (heq ▸ hfile)
      rw [Option.map_some, Option.map_some, hframe.file file i hne (hentry ▸ hpub.current file)]

section Write

variable (hinj : Set.InjOn sha256 payloads) (hpub : fs.Published IsFinal (Holds sha256 payloads))
  (hlegal : t.call.Legal sha256 payloads) (hwrite : t.call.isWrite = true)
include hinj hpub hlegal hwrite

/-- **Whoever was first, it is the same payload.** -/
theorem eq_payload {i : Nat} (hi : some i ∈ fs.past t.call.file) :
    (⟨(fs.file i).data.toArray⟩ : ByteArray) = t.call.payload := by
  obtain ⟨hpayload, hname⟩ := (hpub.whole _ i hlegal.final hi).2.named
  obtain ⟨hdigest, hput⟩ := hlegal.write hwrite
  exact hinj hpayload hput (by rw [← hname, hlegal.named, hdigest])

theorem view_present (hpresent : fs.entry t.call.file ≠ none) :
    view fs t.call.file = some t.call.payload := by
  obtain ⟨i, hi⟩ := Option.ne_none_iff_exists'.mp hpresent
  rw [view, hi, Option.map_some]
  exact congrArg some (eq_payload hinj hpub hlegal hwrite (hi ▸ hpub.current _))

/-- **The one step of a put.** -/
theorem performs_write (hstarts : s.starts request = .ok t.call) (hshows : Shows disk fs)
    (hview : ∀ file, IsFinal file →
      view fs' file = if file = t.call.file then some t.call.payload else view fs file) :
    Shows ((s.perform sha256 request).call disk).2 fs' ∧
      ((s.perform sha256 request).call disk).1.mapError .raised =
        s.result request (.ok t.call.payload) := by
  have hsame : ∀ existing, disk.files t.call.file = some existing → existing = t.call.payload := by
    intro existing hexisting
    rw [hshows _ hlegal.final] at hexisting
    have hpresent : fs.entry t.call.file ≠ none := by
      intro hnone
      rw [view, hnone] at hexisting
      cases hexisting
    rw [view_present hinj hpub hlegal hwrite hpresent] at hexisting
    exact (Option.some.inj hexisting).symm
  cases hcall : t.call with
  | read file digest => rw [hcall] at hwrite; cases hwrite
  | write file payload digest =>
      rw [hcall] at hstarts hsame
      have hdigest : digest = sha256 payload := by
        have hboth := (hlegal.write hwrite).1
        rwa [hcall] at hboth
      obtain ⟨disk', hperform, hfiles⟩ := perform_write hstarts hdigest hsame
      rw [hperform]
      refine ⟨fun other hother => ?_, rfl⟩
      rw [hfiles, hview other hother, hshows other hother, hcall]
      rfl

omit hinj hpub hlegal hwrite in
theorem view_eq {file : List String} {i : Nat} (hentry : fs.entry file = some i)
    (hdata : (fs.file i).data = t.call.payload.data.toList) :
    view fs file = some t.call.payload := by
  rw [view, hentry, Option.map_some, hdata]

theorem view_unchanged (hpresent : fs.entry t.call.file ≠ none) (file : List String) :
    view fs file = if file = t.call.file then some t.call.payload else view fs file := by
  by_cases hfile : file = t.call.file
  · rw [if_pos hfile, hfile]
    exact view_present hinj hpub hlegal hwrite hpresent
  · rw [if_neg hfile]

variable {i : Nat} (hi : fs.entry t.temporary = some i)
  (hdata : (fs.file i).data = t.call.payload.data.toList)
include hi hdata

theorem view_link (file : List String) : view (fs.link t.temporary t.call.file) file =
    if file = t.call.file then some t.call.payload else view fs file := by
  by_cases htaken : fs.entry t.call.file = none
  · rw [link_eq hi htaken]
    by_cases hfile : file = t.call.file
    · rw [if_pos hfile, hfile]
      have hentry : (fs.point t.call.file (some i)).entry t.call.file = some i :=
        Function.update_self ..
      exact view_eq hentry hdata
    · rw [if_neg hfile, view, view, point_entry, Function.update_of_ne hfile, point_file]
  · rw [link_of_taken htaken]
    exact view_unchanged hinj hpub hlegal hwrite htaken file

theorem view_replace (hown : ¬IsFinal t.temporary) {file : List String} (hfinal : IsFinal file) :
    view (fs.replace t.temporary t.call.file) file =
      if file = t.call.file then some t.call.payload else view fs file := by
  have hne : file ≠ t.temporary := fun heq => hown (heq ▸ hfinal)
  rcases replace_cases t.call.file hi with ⟨hsame, heq⟩ | heq
  · rw [heq]
    exact view_unchanged hinj hpub hlegal hwrite (by rw [hsame]; exact Option.some_ne_none i) file
  · rw [heq, view, point_entry, Function.update_of_ne hne, point_entry]
    by_cases hfile : file = t.call.file
    · rw [if_pos hfile, hfile, Function.update_self, Option.map_some]
      exact congrArg some (congrArg (fun data : List UInt8 => (⟨data.toArray⟩ : ByteArray)) hdata)
    · rw [if_neg hfile, Function.update_of_ne hfile]
      rfl

end Write

/-! ## Every step is answered -/

/-- What answers a step. -/
def Answered (s : Store ρ α) (sha256 : ByteArray → String) (request : ρ) (disk : Disk)
    (d : Option (Except Failure α)) (fs' : Files) (t' : Thread) : Prop :=
  ∃ disk' d', Answers s sha256 request disk d disk' d' ∧ Shows disk' fs' ∧ t'.Agrees s fs' request d'

theorem answered_stays (hshows : Shows disk fs') (hagrees : t'.Agrees s fs' request d) :
    Answered s sha256 request disk d fs' t' :=
  ⟨disk, d, .stays d, hshows, hagrees⟩

theorem answered_fails (hshows : Shows disk fs') (hagrees : t'.Agrees s fs' request
    (some (.error .osError))) : Answered s sha256 request disk d fs' t' :=
  ⟨disk, _, .fails d, hshows, hagrees⟩

section Steps

variable (hinj : Set.InjOn sha256 payloads) (hpub : fs.Published IsFinal (Holds sha256 payloads))
  (hlegal : t.call.Legal sha256 payloads) (hown : ¬IsFinal t.temporary)
  (hfit : t.Fits s sha256 payloads fs) (hstarts : s.starts request = .ok t.call)
  (hshows : Shows disk fs)
include hinj hpub hlegal hown hfit hstarts hshows

omit hown hfit in
/-- The final name shows the payload from now on, if it did not before. -/
theorem answered_write (hwrite : t.call.isWrite = true)
    (hview : ∀ file, IsFinal file →
      view fs' file = if file = t.call.file then some t.call.payload else view fs file)
    (hagrees : t'.Agrees s fs' request (some (s.result request (.ok t.call.payload))))
    (hd : d = none ∨
      (d = some (s.result request (.ok t.call.payload)) ∧ fs.entry t.call.file ≠ none)) :
    Answered s sha256 request disk d fs' t' := by
  rcases hd with rfl | ⟨rfl, hpresent⟩
  · obtain ⟨hshows', hresult⟩ :=
      performs_write hinj hpub hlegal hwrite hstarts hshows hview
    exact ⟨_, _, .performs, hshows', hresult ▸ hagrees⟩
  · refine answered_stays (fun file hfile => ?_) hagrees
    rw [hview file hfile, ← view_unchanged hinj hpub hlegal hwrite hpresent]
    exact hshows file hfile

omit hinj hown hfit in
/-- Opening a file for whoever asked for it is the one step of a get. -/
theorem answered_asked (hread : t.call.isWrite = false)
    (hstep : t.step s sha256 fs .go = some (fs', t')) (hpc : t.pc = .opening .asked) :
    Answered s sha256 request disk none fs' t' := by
  cases hcall : t.call with
  | write file payload digest => rw [hcall] at hread; cases hread
  | read file digest =>
      rw [hcall] at hstarts
      have hperform : (s.perform sha256 request).call disk = _ := perform_read hstarts
      have hfinal := hlegal.final
      rw [hcall] at hfinal
      have hfile : disk.files file = view fs file := hshows file hfinal
      simp only [Thread.step, hpc, Thread.goto, hcall, FileCall.file] at hstep
      refine ⟨_, _, .performs, ?_, ?_⟩
      · rw [hperform]
        cases hentry : fs.entry file <;>
        · simp only [hentry, Option.some.injEq, Prod.mk.injEq] at hstep
          obtain ⟨rfl, -⟩ := hstep
          exact hshows
      · rw [hperform, hfile]
        cases hentry : fs.entry file with
        | none =>
            simp only [hentry, Option.some.injEq, Prod.mk.injEq] at hstep
            obtain ⟨rfl, rfl⟩ := hstep
            rw [view, hentry]
            exact rfl
        | some i =>
            simp only [hentry, Option.some.injEq, Prod.mk.injEq] at hstep
            obtain ⟨rfl, rfl⟩ := hstep
            have hi : some i ∈ fs.past t.call.file := by
              rw [hcall]
              exact hentry ▸ hpub.current file
            have hname := (hpub.whole _ i hlegal.final hi).2.named.2
            rw [hlegal.named, hcall] at hname
            have hhash : sha256 ⟨(fs.file i).data.toArray⟩ = digest := hname.symm
            rw [view, hentry, Option.map_some]
            simp only [if_pos hhash]
            exact rfl

theorem answered_go (hagrees : t.Agrees s fs request d)
    (hstep : t.step s sha256 fs .go = some (fs', t')) :
    Answered s sha256 request disk d fs' t' := by
  have hmoved := Thread.moved_go hpub hlegal hown hfit hstep
  have hquiet : (∀ file, IsFinal file → fs'.entry file = fs.entry file) → Shows disk fs' :=
    fun hentries file hfile => by
      rw [view_quiet hpub hown hmoved.frame hentries hfile]
      exact hshows file hfile
  have hne : ∀ file, IsFinal file → file ≠ t.temporary := fun file hfile heq => hown (heq ▸ hfile)
  have hfit' := hfit
  unfold Thread.Fits at hfit'
  unfold Thread.Agrees at hagrees
  cases hpc : t.pc with
  | naming => simp [Thread.step, hpc] at hstep
  | done result => simp [Thread.step, hpc] at hstep
  | checking =>
      simp only [hpc] at hfit' hagrees
      simp only [Thread.step, hpc, Thread.goto, Option.some.injEq, Prod.mk.injEq] at hstep
      obtain ⟨rfl, rfl⟩ := hstep
      subst hagrees
      by_cases habsent : fs.entry t.call.file = none
      · rw [if_pos habsent]
        exact answered_stays hshows rfl
      · rw [if_neg habsent]
        exact answered_write hinj hpub hlegal hstarts hshows hfit'
          (fun file _ => view_unchanged hinj hpub hlegal hfit' habsent file) rfl (.inl rfl)
  | creating =>
      simp only [hpc] at hagrees
      simp only [Thread.step, hpc, Thread.goto] at hstep
      split at hstep
      · obtain ⟨rfl, rfl⟩ := Prod.mk.inj (Option.some.inj hstep)
        exact answered_stays (hquiet fun file hfile => Function.update_of_ne (hne file hfile) _ _) hagrees
      · obtain ⟨rfl, rfl⟩ := Prod.mk.inj (Option.some.inj hstep)
        exact answered_fails hshows rfl
  | writing i left =>
      simp only [hpc] at hagrees
      cases left with
      | cons byte left => simp [Thread.step, hpc] at hstep
      | nil =>
          simp only [Thread.step, hpc, Thread.goto, Option.some.injEq, Prod.mk.injEq] at hstep
          obtain ⟨rfl, rfl⟩ := hstep
          exact answered_stays (hquiet fun _ _ => rfl) hagrees
  | publishing =>
      simp only [hpc] at hfit' hagrees
      obtain ⟨hwrite, hnamed, i, hi, hsynced, hdata⟩ := hfit'
      have hpresent : fs.entry t.temporary ≠ none := by rw [hi]; exact Option.some_ne_none i
      simp only [Thread.step, hpc, Thread.goto, if_neg hpresent] at hstep
      split at hstep
      · obtain ⟨rfl, rfl⟩ := Prod.mk.inj (Option.some.inj hstep)
        exact answered_write hinj hpub hlegal hstarts hshows hwrite
          (fun file _ => view_link hinj hpub hlegal hwrite hi hdata file) rfl (.inl hagrees)
      · obtain ⟨rfl, rfl⟩ := Prod.mk.inj (Option.some.inj hstep)
        exact answered_write hinj hpub hlegal hstarts hshows hwrite
          (fun file hfile => view_replace hinj hpub hlegal hwrite hi hdata hown hfile) rfl
          (.inl hagrees)
  | replacing =>
      simp only [hpc] at hfit' hagrees
      obtain ⟨hwrite, hnamed, i, hi, hsynced, hdata⟩ := hfit'
      have hpresent : fs.entry t.temporary ≠ none := by rw [hi]; exact Option.some_ne_none i
      simp only [Thread.step, hpc, Thread.goto, if_neg hpresent, Option.some.injEq,
        Prod.mk.injEq] at hstep
      obtain ⟨rfl, rfl⟩ := hstep
      exact answered_write hinj hpub hlegal hstarts hshows hwrite
        (fun file hfile => view_replace hinj hpub hlegal hwrite hi hdata hown hfile) rfl hagrees
  | converging =>
      simp only [hpc] at hfit' hagrees
      simp only [Thread.step, hpc, Thread.goto, Option.some.injEq, Prod.mk.injEq] at hstep
      obtain ⟨rfl, rfl⟩ := hstep
      by_cases habsent : fs.entry t.call.file = none
      · rw [if_pos habsent]
        exact answered_fails hshows rfl
      · rw [if_neg habsent]
        exact answered_write hinj hpub hlegal hstarts hshows hfit'
          (fun file _ => view_unchanged hinj hpub hlegal hfit' habsent file) rfl hagrees
  | opening why =>
      simp only [hpc] at hfit' hagrees
      by_cases hasked : why = .asked
      · subst hasked
        subst hagrees
        exact answered_asked hpub hlegal hstarts hshows (hfit'.1.mp rfl) hstep hpc
      · have hwrite : t.call.isWrite = true := by
          by_contra hread
          exact hasked (hfit'.1.mpr (by simpa using hread))
        obtain ⟨i, hi⟩ := Option.ne_none_iff_exists'.mp (hfit'.2 hwrite)
        simp only [Thread.step, hpc, Thread.goto, hi, Option.some.injEq, Prod.mk.injEq] at hstep
        obtain ⟨rfl, rfl⟩ := hstep
        refine answered_stays hshows ?_
        cases why with
        | asked => exact absurd rfl hasked
        | _ => exact hagrees
  | reading why i got =>
      simp only [hpc] at hfit' hagrees
      obtain ⟨hwhy, hi, hpre⟩ := hfit'
      simp only [Thread.step, hpc, Thread.goto] at hstep
      split at hstep
      case isFalse => cases hstep
      case isTrue hend =>
        obtain ⟨rfl, rfl⟩ := Prod.mk.inj (Option.some.inj hstep)
        have hgot := eq_of_drop_eq_nil hpre hend
        obtain ⟨hhash, -⟩ := Thread.fits_finished (s := s) hpub hlegal hwhy hi hgot
        refine answered_stays hshows ?_
        unfold Thread.finished
        rw [if_pos hhash]
        cases why with
        | asked =>
            simp only [hgot] at hagrees
            exact hagrees
        | fallback => exact hagrees
        | existing =>
            have hsame := eq_payload hinj hpub hlegal (by simpa using hwhy) hi
            rw [hgot] at hsame
            rwa [← hsame] at hagrees
        | written =>
            have hsame := eq_payload hinj hpub hlegal (by simpa using hwhy) hi
            rw [hgot] at hsame
            rwa [← hsame] at hagrees
  | cleaning result =>
      simp only [hpc] at hagrees
      simp only [Thread.step, hpc, Thread.goto, Option.some.injEq, Prod.mk.injEq] at hstep
      obtain ⟨rfl, rfl⟩ := hstep
      exact answered_stays (hquiet fun file hfile => Function.update_of_ne (hne file hfile) _ _) hagrees

omit hinj hlegal hstarts in
theorem answered_bytes {n : Nat} (hagrees : t.Agrees s fs request d)
    (hstep : t.step s sha256 fs (.bytes n) = some (fs', t')) :
    Answered s sha256 request disk d fs' t' := by
  have hmoved := Thread.moved_bytes hpub hown hfit hstep
  unfold Thread.Agrees at hagrees
  cases hpc : t.pc with
  | writing i left =>
      simp only [hpc] at hagrees
      cases left with
      | nil => simp [Thread.step, hpc] at hstep
      | cons byte left =>
          simp only [Thread.step, hpc, Thread.goto, Option.some.injEq, Prod.mk.injEq] at hstep
          obtain ⟨rfl, rfl⟩ := hstep
          refine answered_stays (fun file hfile => ?_) hagrees
          rw [view_quiet hpub hown hmoved.frame (fun _ _ => rfl) hfile]
          exact hshows file hfile
  | reading why i got =>
      simp only [hpc] at hagrees
      simp only [Thread.step, hpc, Thread.goto] at hstep
      split at hstep
      case isTrue => cases hstep
      case isFalse =>
        obtain ⟨rfl, rfl⟩ := Prod.mk.inj (Option.some.inj hstep)
        refine answered_stays hshows ?_
        cases why <;> exact hagrees
  | _ => simp [Thread.step, hpc] at hstep

/-- An `OSError` before the one step, or after it. -/
theorem answered_fault {late : Bool} (hagrees : t.Agrees s fs request d)
    (hstep : t.step s sha256 fs (.fault late) = some (fs', t')) :
    Answered s sha256 request disk d fs' t' := by
  have hmoved := Thread.moved_fault hpub hlegal hown hfit hstep
  have hquiet : (∀ file, IsFinal file → fs'.entry file = fs.entry file) → Shows disk fs' :=
    fun hentries file hfile => by
      rw [view_quiet hpub hown hmoved.frame hentries hfile]
      exact hshows file hfile
  have hne : ∀ file, IsFinal file → file ≠ t.temporary := fun file hfile heq => hown (heq ▸ hfile)
  have hraises : ∀ why, Thread.Agrees s fs request { t with pc := Thread.raises why .osError }
      (some (.error .osError)) := by
    intro why
    cases why <;> exact rfl
  have hfit' := hfit
  unfold Thread.Fits at hfit'
  unfold Thread.Agrees at hagrees
  cases hpc : t.pc with
  | naming => simp [Thread.step, hpc] at hstep
  | done result => simp [Thread.step, hpc] at hstep
  | publishing =>
      simp only [hpc] at hfit' hagrees
      obtain ⟨hwrite, hnamed, i, hi, hsynced, hdata⟩ := hfit'
      obtain ⟨⟨-, -, hlinked⟩, -⟩ :=
        Thread.publish_spec hpub hlegal hown hwrite hi hsynced hdata
      simp only [Thread.step, hpc, Thread.goto] at hstep
      subst hagrees
      split at hstep
      · obtain ⟨rfl, rfl⟩ := Prod.mk.inj (Option.some.inj hstep)
        cases late with
        | false => exact answered_stays hshows (.inl rfl)
        | true =>
            rw [if_pos rfl] at hmoved ⊢
            exact answered_write hinj hpub hlegal hstarts hshows hwrite
              (fun file _ => view_link hinj hpub hlegal hwrite hi hdata file)
              (.inr ⟨rfl, hlinked⟩) (.inl rfl)
      · obtain ⟨rfl, rfl⟩ := Prod.mk.inj (Option.some.inj hstep)
        cases late with
        | false => exact answered_fails hshows rfl
        | true =>
            rw [if_pos rfl] at hmoved ⊢
            obtain ⟨hshows', -⟩ := performs_write hinj hpub hlegal hwrite hstarts hshows
              fun file hfile => view_replace hinj hpub hlegal hwrite hi hdata hown hfile
            exact ⟨_, _, .performsFails, hshows', rfl⟩
  | replacing =>
      simp only [hpc] at hfit' hagrees
      obtain ⟨hwrite, hnamed, i, hi, hsynced, hdata⟩ := hfit'
      obtain ⟨-, -, -, hentry⟩ := Thread.publish_spec hpub hlegal hown hwrite hi hsynced hdata
      simp only [Thread.step, hpc, Thread.goto, Option.some.injEq, Prod.mk.injEq] at hstep
      obtain ⟨rfl, rfl⟩ := hstep
      cases late with
      | false => exact answered_stays hshows hagrees
      | true =>
          rw [if_pos rfl] at hmoved ⊢
          refine answered_write hinj hpub hlegal hstarts hshows hwrite
            (fun file hfile => view_replace hinj hpub hlegal hwrite hi hdata hown hfile)
            (.inr ⟨rfl, ?_⟩) hagrees
          rw [hentry]
          exact Option.some_ne_none i
  | creating =>
      simp only [Thread.step, hpc, Thread.goto, Option.some.injEq, Prod.mk.injEq] at hstep
      obtain ⟨rfl, rfl⟩ := hstep
      refine answered_fails (hquiet fun file hfile => ?_) rfl
      split
      · exact Function.update_of_ne (hne file hfile) _ _
      · rfl
  | cleaning result =>
      simp only [Thread.step, hpc, Thread.goto, Option.some.injEq, Prod.mk.injEq] at hstep
      obtain ⟨rfl, rfl⟩ := hstep
      refine answered_fails (hquiet fun file hfile => ?_) rfl
      split
      · exact Function.update_of_ne (hne file hfile) _ _
      · rfl
  | opening why =>
      simp only [Thread.step, hpc, Thread.goto, Option.some.injEq, Prod.mk.injEq] at hstep
      obtain ⟨rfl, rfl⟩ := hstep
      exact answered_fails hshows (hraises why)
  | reading why i got =>
      simp only [Thread.step, hpc, Thread.goto, Option.some.injEq, Prod.mk.injEq] at hstep
      obtain ⟨rfl, rfl⟩ := hstep
      exact answered_fails hshows (hraises why)
  | _ =>
      simp only [Thread.step, hpc, Thread.goto, Option.some.injEq, Prod.mk.injEq] at hstep
      obtain ⟨rfl, rfl⟩ := hstep
      exact answered_fails hshows rfl

/-- **Every step of a thread is answered by its call.** -/
theorem answered_step (hagrees : t.Agrees s fs request d)
    (hstep : t.step s sha256 fs choice = some (fs', t')) :
    Answered s sha256 request disk d fs' t' := by
  cases choice with
  | go => exact answered_go hinj hpub hlegal hown hfit hstarts hshows hagrees hstep
  | bytes n => exact answered_bytes hpub hown hfit hshows hagrees hstep
  | fault late => exact answered_fault hinj hpub hlegal hown hfit hstarts hshows hagrees hstep
  | nonce nonce =>
      obtain ⟨hpc, rfl, rfl⟩ := Thread.draw_eq hstep
      simp only [Thread.Agrees, hpc] at hagrees
      exact answered_stays hshows hagrees

end Steps

end Answered

/-! ## The simulation -/

section Simulation

variable {w : StoreWorld ρ} {a : AtomicStore ρ α} {pid : Nat} {request : ρ}

/-- A call, and what is pending of it. -/
inductive Matches (s : Store ρ α) (fs : Files) : Option (Call ρ) → Option (Pending ρ α) → Prop
  | free : Matches s fs none none
  | refused (request : ρ) (e : Exn) :
      Matches s fs (some ⟨request, .error e⟩) (some ⟨request, some (.error (.raised e))⟩)
  | running {request : ρ} {t : Thread} {d : Option (Except Failure α)}
      (h : t.Agrees s fs request d) : Matches s fs (some ⟨request, .ok t⟩) (some ⟨request, d⟩)

structure Related (s : Store ρ α) (sha256 : ByteArray → String) (payloads : Set ByteArray)
    (w : StoreWorld ρ) (a : AtomicStore ρ α) : Prop where
  inv : w.Inv s sha256 payloads
  shows : Shows a.disk w.files
  calls : ∀ pid, Matches s w.files (w.calls pid) (a.calls pid)

theorem related_empty : Related s sha256 payloads .empty .empty where
  inv := StoreWorld.inv_empty
  shows _ _ := rfl
  calls _ := .free

/-- An answer is a silent move of the atomic store. -/
theorem answers_runs {d d' : Option (Except Failure α)} {disk' : Disk} {call : FileCall}
    (hcall : a.calls pid = some ⟨request, d⟩) (hstarts : s.starts request = .ok call)
    (h : Answers s sha256 request a.disk d disk' d') :
    Runs (AtomicStore.Step s sha256 payloads) a []
      ⟨disk', Function.update a.calls pid (some ⟨request, d'⟩)⟩ := by
  have hfail (disk : Disk) (d : Option (Except Failure α)) : AtomicStore.Step s sha256 payloads
      ⟨disk, Function.update a.calls pid (some ⟨request, d⟩)⟩ none
      ⟨disk, Function.update a.calls pid (some ⟨request, some (.error .osError)⟩)⟩ := by
    have hstep : AtomicStore.Step s sha256 payloads
        ⟨disk, Function.update a.calls pid (some ⟨request, d⟩)⟩ none
        ⟨disk, Function.update (Function.update a.calls pid (some ⟨request, d⟩)) pid
          (some ⟨request, some (.error .osError)⟩)⟩ :=
      .fail (p := ⟨request, d⟩) (Function.update_self ..) hstarts
    rwa [Function.update_idem] at hstep
  cases h with
  | stays =>
      rw [Function.update_eq_self_iff.mpr hcall.symm]
      exact .refl
  | performs => exact .silent .refl (.perform hcall)
  | fails => exact .silent .refl (.fail hcall hstarts)
  | performsFails =>
      exact .silent (.silent .refl (.perform hcall)) (hfail _ _)

/-- A call that changes alone, while the others see its step as `Frame` says. -/
theorem Related.moves (h : Related s sha256 payloads w a) {t t' : Thread} {files : Files}
    {nonces : List Uuid} {disk' : Disk} {d : Option (Except Failure α)}
    (hcall : w.calls pid = some ⟨request, .ok t⟩)
    (hinv : StoreWorld.Inv s sha256 payloads
      ⟨files, Function.update w.calls pid (some ⟨request, .ok t'⟩), nonces⟩)
    (hframe : Frame w.files files t.temporary IsFinal) (hshows : Shows disk' files)
    (hagrees : t'.Agrees s files request d) :
    Related s sha256 payloads
      ⟨files, Function.update w.calls pid (some ⟨request, .ok t'⟩), nonces⟩
      ⟨disk', Function.update a.calls pid (some ⟨request, d⟩)⟩ := by
  refine ⟨hinv, hshows, fun other => ?_⟩
  by_cases hother : other = pid
  · subst hother
    simp only [Function.update_self]
    exact .running hagrees
  · simp only [Function.update_of_ne hother]
    have hold := h.calls other
    generalize hc : w.calls other = c at hold
    generalize a.calls other = p at hold
    cases hold with
    | free => exact .free
    | refused request e => exact .refused request e
    | running hagrees' =>
        have hrun := h.inv.runs other _ _ hc
        exact .running (Thread.agrees_frame hframe (h.inv.runs pid _ _ hcall).not_final
          hrun.legal hrun.fits hagrees')

theorem Related.fewer (h : Related s sha256 payloads w a) {calls : Nat → Option (Call ρ)}
    {pending : Nat → Option (Pending ρ α)}
    (hcalls : ∀ pid, (calls pid = w.calls pid ∧ pending pid = a.calls pid) ∨
      (calls pid = none ∧ pending pid = none)) :
    Related s sha256 payloads { w with calls } { a with calls := pending } := by
  refine ⟨h.inv.fewer fun pid c hc => ?_, h.shows, fun pid => ?_⟩
  · rcases hcalls pid with ⟨hcall, -⟩ | ⟨hnone, -⟩
    · rwa [← hcall]
    · rw [hnone] at hc
      cases hc
  · rcases hcalls pid with ⟨hcall, hpending⟩ | ⟨hcall, hpending⟩
    · simp only [hcall, hpending]
      exact h.calls pid
    · simp only [hcall, hpending]
      exact .free

theorem Related.pending (h : Related s sha256 payloads w a) {t : Thread}
    (hcall : w.calls pid = some ⟨request, .ok t⟩) :
    ∃ d, a.calls pid = some ⟨request, d⟩ ∧ t.Agrees s w.files request d := by
  have hmatch := h.calls pid
  rw [hcall] at hmatch
  generalize a.calls pid = p at hmatch
  cases hmatch with
  | running hagrees => exact ⟨_, rfl, hagrees⟩

/-- A call is answered by a call, and one that is refused at once by its one step, too. -/
theorem call_answered (fs : Files) (hfree : a.calls pid = none)
    (hputs : s.Puts payloads request) : ∃ d,
    Runs (AtomicStore.Step s sha256 payloads) a [.call pid request]
      ⟨a.disk, Function.update a.calls pid (some ⟨request, d⟩)⟩ ∧
    Matches s fs (some ⟨request, (s.starts request).map Thread.start⟩) (some ⟨request, d⟩) := by
  have hcalled : Runs (AtomicStore.Step s sha256 payloads) a [.call pid request]
      ⟨a.disk, Function.update a.calls pid (some ⟨request, none⟩)⟩ :=
    .seen .refl (.call request hfree hputs)
  cases hstarts : s.starts request with
  | ok call =>
      refine ⟨none, hcalled, .running ?_⟩
      cases call <;> exact rfl
  | error e =>
      refine ⟨some (.error (.raised e)), ?_, .refused request e⟩
      have hperform : AtomicStore.Step s sha256 payloads
          ⟨a.disk, Function.update a.calls pid (some ⟨request, none⟩)⟩ none
          ⟨((s.perform sha256 request).call a.disk).2,
            Function.update (Function.update a.calls pid (some ⟨request, none⟩)) pid
              (some ⟨request, some (((s.perform sha256 request).call a.disk).1.mapError .raised)⟩)⟩ :=
        .perform (Function.update_self ..)
      rw [Function.update_idem, perform_refused hstarts] at hperform
      exact .silent hcalled hperform

/-- **A loss of power** takes names away, and no name comes to show anything else. -/
theorem view_loses (hinj : Set.InjOn sha256 payloads) {fs fs' : Files}
    (hpub : fs.Published IsFinal (Holds sha256 payloads)) (hloses : fs.Loses fs')
    {file : List String} (hfile : IsFinal file) : view fs' file = view fs file ∨ view fs' file = none := by
  have hpast := hloses.entry file
  cases hentry : fs'.entry file with
  | none => exact .inr (by rw [view, hentry]; rfl)
  | some i =>
      rw [hentry] at hpast
      obtain ⟨j, hj⟩ := Option.ne_none_iff_exists'.mp (hpub.kept file i hfile hpast)
      obtain ⟨hsynced, hheld⟩ := hpub.whole file i hfile hpast
      obtain ⟨-, hheld'⟩ := hpub.whole file j hfile (hj ▸ hpub.current file)
      refine .inl ?_
      rw [view, view, hentry, hj, Option.map_some, Option.map_some, hloses.file i hsynced]
      exact congrArg some (hinj hheld.named.1 hheld'.named.1
        (hheld.named.2.symm.trans hheld'.named.2))

/-- **Whatever the threads do, a store whose methods take one step could have done.** -/
theorem simulates (hs : s.Lawful sha256) (hinj : Set.InjOn sha256 payloads) :
    Simulates (StoreWorld.Step s sha256 payloads) (AtomicStore.Step s sha256 payloads)
      (Related s sha256 payloads) := by
  intro w a label w' hrel hstep
  have hinv := StoreWorld.inv_step hs hrel.inv hstep
  cases hstep with
  | call request hfree hputs =>
      rename_i pid
      have hnone : a.calls pid = none := by
        have hmatch := hrel.calls pid
        rw [hfree] at hmatch
        generalize a.calls pid = p at hmatch
        cases hmatch
        rfl
      obtain ⟨d, hrun, hmatch⟩ := call_answered w.files hnone hputs
      refine ⟨_, hrun, hinv, hrel.shows, fun other => ?_⟩
      by_cases hother : other = pid
      · subst hother
        simp only [Function.update_self]
        exact hmatch
      · simp only [Function.update_of_ne hother]
        exact hrel.calls other
  | thread choice hcall hstep hchoice =>
      have hrun := hrel.inv.runs _ _ _ hcall
      obtain ⟨d, hpending, hagrees⟩ := hrel.pending hcall
      obtain ⟨disk', d', hanswers, hshows, hagrees'⟩ := answered_step hinj hrel.inv.published
        hrun.legal hrun.not_final hrun.fits hrun.starts hrel.shows hagrees hstep
      have hmoved := Thread.step_moved hrel.inv.published hrun.legal hrun.not_final hrun.fits
        hchoice hstep
      exact ⟨_, answers_runs hpending hrun.starts hanswers,
        hrel.moves hcall hinv hmoved.frame hshows hagrees'⟩
  | draw nonce hcall hstep hfresh =>
      have hrun := hrel.inv.runs _ _ _ hcall
      obtain ⟨d, hpending, hagrees⟩ := hrel.pending hcall
      obtain ⟨disk', d', hanswers, hshows, hagrees'⟩ := answered_step hinj hrel.inv.published
        hrun.legal hrun.not_final hrun.fits hrun.starts hrel.shows hagrees hstep
      obtain ⟨-, rfl, -⟩ := Thread.draw_eq hstep
      exact ⟨_, answers_runs hpending hrun.starts hanswers,
        hrel.moves hcall hinv (.refl ..) hshows hagrees'⟩
  | ret hcall hresult =>
      rename_i pid c result
      have hpending : ∃ request, a.calls pid = some ⟨request, some result⟩ := by
        have hmatch := hrel.calls pid
        rw [hcall] at hmatch
        generalize a.calls pid = p at hmatch
        cases hmatch with
        | refused request e =>
            obtain rfl := Option.some.inj hresult
            exact ⟨request, rfl⟩
        | running hagrees =>
            rename_i request t d
            unfold Call.result at hresult
            simp only at hresult
            split at hresult
            case h_2 => cases hresult
            case h_1 ended hpc =>
              obtain rfl := Option.some.inj hresult
              simp only [Thread.Agrees, hpc] at hagrees
              exact ⟨request, by rw [hagrees]⟩
      obtain ⟨request, hpending⟩ := hpending
      refine ⟨_, .seen .refl (.ret hpending), hrel.fewer fun other => ?_⟩
      by_cases hother : other = pid
      · subst hother
        exact .inr ⟨Function.update_self .., Function.update_self ..⟩
      · exact .inl ⟨Function.update_of_ne hother _ _, Function.update_of_ne hother _ _⟩
  | kill pids =>
      refine ⟨_, .seen .refl (.kill pids), hrel.fewer fun pid => ?_⟩
      unfold without
      by_cases hkilled : pid ∈ pids
      · exact .inr ⟨if_pos hkilled, if_pos hkilled⟩
      · exact .inl ⟨if_neg hkilled, if_neg hkilled⟩
  | powerLoss hloses =>
      rename_i files
      classical
      refine ⟨⟨⟨fun file => if IsFinal file then view files file else a.disk.files file,
        a.disk.reads⟩, fun _ => none⟩, .seen .refl (.powerLoss fun file => ?_), hinv,
        fun file hfile => if_pos hfile, fun _ => .free⟩
      by_cases hfile : IsFinal file
      · simp only [if_pos hfile]
        rw [hrel.shows file hfile]
        exact view_loses hinj hrel.inv.published hloses hfile
      · exact .inl (if_neg hfile)

/-- **The store is linearizable.** -/
theorem linearizable (hs : s.Lawful sha256) (hinj : Set.InjOn sha256 payloads)
    {trace : List (Event ρ α)} {w : StoreWorld ρ}
    (h : Runs (StoreWorld.Step s sha256 payloads) .empty trace w) :
    ∃ a, Runs (AtomicStore.Step s sha256 payloads) .empty trace a ∧ Shows a.disk w.files := by
  obtain ⟨a, hrun, hrel⟩ := (simulates hs hinj).runs related_empty h
  exact ⟨a, hrun, hrel.shows⟩

end Simulation

end Sana.Storage
