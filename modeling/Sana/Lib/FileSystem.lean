import Mathlib.Data.List.Basic
import Mathlib.Logic.Function.Basic

/-!
# Files, names, and a loss of power

A name stands for a file, two names may stand for one, and what is written reaches the disk when the
file is synced. Names are never synced here: when the power is lost, a name stands afterwards for
whatever it has stood for at some time since the machine was started, and a file that was not synced
holds anything.

A program that publishes a file under its final name writes it under a temporary name first. `own`
below is the temporary name of whoever moves; what the move leaves to all the others is `Frame`.
-/

namespace Sana.Lib

variable {ν β : Type}

/-- What a file holds, and whether all of it has reached the disk. -/
structure File (β : Type) where
  data : List β
  synced : Bool

structure FileSystem (ν β : Type) where
  /-- Which file a name stands for. -/
  entry : ν → Option Nat
  file : Nat → File β
  /-- How many files have been created. -/
  next : Nat
  /-- What a name has stood for since the machine was started. -/
  past : ν → List (Option Nat)

namespace FileSystem

/-- Nothing has been created. -/
def empty : FileSystem ν β where
  entry _ := none
  file _ := ⟨[], true⟩
  next := 0
  past _ := [none]

variable [DecidableEq ν]

/-- A name stands for another file from now on. -/
def point (fs : FileSystem ν β) (name : ν) (target : Option Nat) : FileSystem ν β :=
  { fs with
    entry := Function.update fs.entry name target
    past := Function.update fs.past name (target :: fs.past name) }

def create (fs : FileSystem ν β) (name : ν) : FileSystem ν β :=
  { fs.point name (some fs.next) with
    file := Function.update fs.file fs.next ⟨[], false⟩
    next := fs.next + 1 }

omit [DecidableEq ν] in
/-- More is written to the end of an open file. -/
def append (fs : FileSystem ν β) (i : Nat) (more : List β) : FileSystem ν β :=
  { fs with file := Function.update fs.file i ⟨(fs.file i).data ++ more, false⟩ }

omit [DecidableEq ν] in
def sync (fs : FileSystem ν β) (i : Nat) : FileSystem ν β :=
  { fs with file := Function.update fs.file i ⟨(fs.file i).data, true⟩ }

/-- A second name for a file; nothing happens if there is no such file, or the name is taken. -/
def link (fs : FileSystem ν β) (old new : ν) : FileSystem ν β :=
  match fs.entry old, fs.entry new with
  | some i, none => fs.point new (some i)
  | _, _ => fs

/-- Another name for a file, taken from whatever had it. Nothing happens if there is no such file,
or if both names stand for it already. -/
def replace (fs : FileSystem ν β) (old new : ν) : FileSystem ν β :=
  match fs.entry old with
  | none => fs
  | some i => if fs.entry new = some i then fs else (fs.point new (some i)).point old none

def unlink (fs : FileSystem ν β) (name : ν) : FileSystem ν β := fs.point name none

omit [DecidableEq ν] in
/-- The power is lost, and the machine is started again. -/
structure Loses (fs fs' : FileSystem ν β) : Prop where
  entry : ∀ name, fs'.entry name ∈ fs.past name
  past : ∀ name, fs'.past name = [fs'.entry name]
  file : ∀ i, (fs.file i).synced = true → fs'.file i = fs.file i
  next : fs'.next = fs.next

section Lemmas

variable {fs fs' : FileSystem ν β} {own new name : ν} {i : Nat} {more : List β}
  {final : ν → Prop} {good : ν → List β → Prop}

@[simp] theorem point_entry (target : Option Nat) :
    (fs.point name target).entry = Function.update fs.entry name target := rfl

@[simp] theorem point_file (target : Option Nat) : (fs.point name target).file = fs.file := rfl

@[simp] theorem point_next (target : Option Nat) : (fs.point name target).next = fs.next := rfl

omit [DecidableEq ν] in
theorem append_file_of_ne {j : Nat} (h : j ≠ i) : (fs.append i more).file j = fs.file j :=
  Function.update_of_ne h _ _

omit [DecidableEq ν] in
theorem sync_file_of_ne {j : Nat} (h : j ≠ i) : (fs.sync i).file j = fs.file j :=
  Function.update_of_ne h _ _

theorem mem_point_past {other : ν} {target entry : Option Nat} :
    entry ∈ (fs.point name target).past other ↔
      (other = name ∧ entry = target) ∨ entry ∈ fs.past other := by
  by_cases hother : other = name
  · subst hother
    simp [point]
  · simp [point, hother]

theorem link_eq (hold : fs.entry own = some i) (hnew : fs.entry new = none) :
    fs.link own new = fs.point new (some i) := by
  rw [link, hold, hnew]

theorem link_of_taken (hnew : fs.entry new ≠ none) : fs.link own new = fs := by
  unfold link
  split
  case h_1 hnone => exact absurd hnone hnew
  case h_2 => rfl

theorem replace_cases (new : ν) (hold : fs.entry own = some i) :
    (fs.entry new = some i ∧ fs.replace own new = fs) ∨
      fs.replace own new = (fs.point new (some i)).point own none := by
  rw [replace, hold]
  by_cases hsame : fs.entry new = some i
  · exact .inl ⟨hsame, if_pos hsame⟩
  · exact .inr (if_neg hsame)

/-! ## What others keep -/

omit [DecidableEq ν] in
/-- No other name has stood for the file. -/
def Private (fs : FileSystem ν β) (i : Nat) (own : ν) : Prop :=
  ∀ name, some i ∈ fs.past name → name = own

omit [DecidableEq ν] in
/-- The final names stand for complete files only, and once they stand for one they go on to. -/
structure Published (fs : FileSystem ν β) (final : ν → Prop) (good : ν → List β → Prop) : Prop where
  current : ∀ name, fs.entry name ∈ fs.past name
  bound : ∀ name i, some i ∈ fs.past name → i < fs.next
  whole : ∀ name i, final name → some i ∈ fs.past name →
    (fs.file i).synced = true ∧ good name (fs.file i).data
  kept : ∀ name i, final name → some i ∈ fs.past name → fs.entry name ≠ none

omit [DecidableEq ν] in
/-- A move of whoever has the temporary name `own`, as the others see it. -/
structure Frame (fs fs' : FileSystem ν β) (own : ν) (final : ν → Prop) : Prop where
  entry : ∀ name, name ≠ own → ¬final name → fs'.entry name = fs.entry name
  kept : ∀ name, final name → fs.entry name ≠ none → fs'.entry name ≠ none
  past : ∀ name i, some i ∈ fs.past name → some i ∈ fs'.past name
  file : ∀ name i, name ≠ own → some i ∈ fs.past name → fs'.file i = fs.file i
  /-- A name comes to stand for new files only, or for those of the mover. -/
  fresh : ∀ name i, i < fs.next → some i ∈ fs'.past name →
    some i ∈ fs.past name ∨ some i ∈ fs.past own

omit [DecidableEq ν] in
theorem Frame.refl (fs : FileSystem ν β) (own : ν) (final : ν → Prop) : Frame fs fs own final :=
  ⟨fun _ _ _ => rfl, fun _ _ => id, fun _ _ => id, fun _ _ _ _ => rfl, fun _ _ _ => .inl⟩

omit [DecidableEq ν] in
/-- A file of another stays its own. -/
theorem Frame.private (h : Frame fs fs' own final) (hpub : fs.Published final good)
    (hname : name ≠ own) (hentry : fs.entry name = some i) (hprivate : fs.Private i name) :
    fs'.Private i name := by
  intro other hother
  have hcurrent : some i ∈ fs.past name := hentry ▸ hpub.current name
  rcases h.fresh other i (hpub.bound name i hcurrent) hother with hpast | hown
  · exact hprivate other hpast
  · exact absurd (hprivate own hown).symm hname

omit [DecidableEq ν] in
theorem Published.empty : (empty : FileSystem ν β).Published final good where
  current _ := List.mem_cons_self
  bound _ _ h := by simp [FileSystem.empty] at h
  whole _ _ _ h := by simp [FileSystem.empty] at h
  kept _ _ _ h := by simp [FileSystem.empty] at h

omit [DecidableEq ν] in
/-- Only temporary files are not synced, so a loss of power takes no part of a published one. -/
theorem Published.loses (h : fs.Published final good) (hl : fs.Loses fs') :
    fs'.Published final good where
  current name := by rw [hl.past]; exact List.mem_cons_self
  bound name i hi := by
    rw [hl.past, List.mem_singleton] at hi
    rw [hl.next]
    exact h.bound name i (hi ▸ hl.entry name)
  whole name i hname hi := by
    rw [hl.past, List.mem_singleton] at hi
    have hold := h.whole name i hname (hi ▸ hl.entry name)
    rwa [hl.file i hold.1]
  kept name i _ hi := by
    rw [hl.past, List.mem_singleton] at hi
    rw [← hi]
    exact Option.some_ne_none i

section Point

variable {target : Option Nat}

/-- A name that is not final may come to stand for anything. -/
theorem Published.point_temporary (h : fs.Published final good) (hown : ¬final own)
    (htarget : ∀ i, target = some i → i < fs.next) : (fs.point own target).Published final good where
  current name := by
    rw [mem_point_past, point_entry]
    by_cases hname : name = own
    · exact .inl ⟨hname, by rw [hname, Function.update_self]⟩
    · rw [Function.update_of_ne hname]
      exact .inr (h.current name)
  bound name i hi := by
    rcases mem_point_past.mp hi with ⟨-, hi⟩ | hi
    · exact htarget i hi.symm
    · exact h.bound name i hi
  whole name i hname hi := by
    rcases mem_point_past.mp hi with ⟨rfl, -⟩ | hi
    · exact absurd hname hown
    · exact h.whole name i hname hi
  kept name i hname hi := by
    have hne : name ≠ own := fun heq => hown (heq ▸ hname)
    rcases mem_point_past.mp hi with ⟨heq, -⟩ | hi
    · exact absurd heq hne
    · rw [point_entry, Function.update_of_ne hne]
      exact h.kept name i hname hi

/-- A final name may come to stand for a complete file. -/
theorem Published.point_final (h : fs.Published final good) (hi : i < fs.next)
    (hsynced : (fs.file i).synced = true) (hgood : good new (fs.file i).data) :
    (fs.point new (some i)).Published final good where
  current name := by
    rw [mem_point_past, point_entry]
    by_cases hname : name = new
    · exact .inl ⟨hname, by rw [hname, Function.update_self]⟩
    · rw [Function.update_of_ne hname]
      exact .inr (h.current name)
  bound name j hj := by
    rcases mem_point_past.mp hj with ⟨-, hj⟩ | hj
    · rw [Option.some.inj hj]
      exact hi
    · exact h.bound name j hj
  whole name j hname hj := by
    rcases mem_point_past.mp hj with ⟨rfl, heq⟩ | hj
    · rw [Option.some.inj heq]
      exact ⟨hsynced, hgood⟩
    · exact h.whole name j hname hj
  kept name j hname hj := by
    rw [point_entry]
    by_cases heq : name = new
    · rw [heq, Function.update_self]
      exact Option.some_ne_none i
    · rw [Function.update_of_ne heq]
      rcases mem_point_past.mp hj with ⟨hnew, -⟩ | hj
      · exact absurd hnew heq
      · exact h.kept name j hname hj

theorem Frame.point_own (hown : ¬final own)
    (htarget : ∀ i, target = some i → fs.next ≤ i ∨ some i ∈ fs.past own) :
    Frame fs (fs.point own target) own final where
  entry name hname _ := Function.update_of_ne hname _ _
  kept name hname h := by
    have hne : name ≠ own := fun heq => hown (heq ▸ hname)
    rwa [point_entry, Function.update_of_ne hne]
  past name i h := mem_point_past.mpr (.inr h)
  file _ _ _ _ := rfl
  fresh name i hi h := by
    rcases mem_point_past.mp h with ⟨-, h⟩ | h
    · rcases htarget i h.symm with hle | hown
      · omega
      · exact .inr hown
    · exact .inl h

theorem Frame.point_final (hnew : final new) (hi : some i ∈ fs.past own) :
    Frame fs (fs.point new (some i)) own final where
  entry name _ hname := by
    have hne : name ≠ new := fun heq => hname (heq ▸ hnew)
    exact Function.update_of_ne hne _ _
  kept name _ h := by
    rw [point_entry]
    by_cases heq : name = new
    · rw [heq, Function.update_self]
      exact Option.some_ne_none i
    · rwa [Function.update_of_ne heq]
  past name j h := mem_point_past.mpr (.inr h)
  file _ _ _ _ := rfl
  fresh name j _ h := by
    rcases mem_point_past.mp h with ⟨-, h⟩ | h
    · exact .inr (Option.some.inj h ▸ hi)
    · exact .inl h

end Point

/-! ## The operations of a writer -/

theorem Published.create (h : fs.Published final good) (hown : ¬final own) :
    (fs.create own).Published final good ∧ Frame fs (fs.create own) own final ∧
      (fs.create own).entry own = some fs.next ∧ (fs.create own).Private fs.next own ∧
        (fs.create own).file fs.next = ⟨[], false⟩ := by
  have hne : ∀ name i, some i ∈ fs.past name → i ≠ fs.next := by
    intro name i hi
    have := h.bound name i hi
    omega
  have hframe : Frame fs (fs.point own (some fs.next)) own final :=
    .point_own hown fun i hi => .inl (Nat.le_of_eq (Option.some.inj hi))
  refine ⟨⟨fun name => ?_, fun name i hi => ?_, fun name i hname hi => ?_, fun name i hname hi => ?_⟩,
    ⟨hframe.entry, hframe.kept, hframe.past, fun name i hname hi => ?_, hframe.fresh⟩,
    Function.update_self .., fun name hi => ?_, Function.update_self ..⟩
  · refine mem_point_past.mpr ?_
    by_cases hname : name = own
    · refine .inl ⟨hname, ?_⟩
      rw [hname]
      exact Function.update_self ..
    · refine .inr ?_
      have hentry : (fs.create own).entry name = fs.entry name := Function.update_of_ne hname _ _
      rw [hentry]
      exact h.current name
  · show i < fs.next + 1
    rcases mem_point_past.mp hi with ⟨-, hi⟩ | hi
    · have := Option.some.inj hi
      omega
    · have := h.bound name i hi
      omega
  · rcases mem_point_past.mp hi with ⟨heq, -⟩ | hi
    · exact absurd (heq ▸ hname) hown
    · have hfile : (fs.create own).file i = fs.file i :=
        Function.update_of_ne (hne name i hi) _ _
      rw [hfile]
      exact h.whole name i hname hi
  · rcases mem_point_past.mp hi with ⟨heq, -⟩ | hi
    · exact absurd (heq ▸ hname) hown
    · exact hframe.kept name hname (h.kept name i hname hi)
  · exact Function.update_of_ne (hne name i hi) _ _
  · rcases mem_point_past.mp hi with ⟨heq, -⟩ | hi
    · exact heq
    · exact absurd rfl (hne name fs.next hi)

omit [DecidableEq ν] in
/-- What is done to a file that has a temporary name only. -/
theorem Published.rewrite (h : fs.Published final good) (fs' : FileSystem ν β) (hown : ¬final own)
    (hprivate : fs.Private i own) (hentry : fs'.entry = fs.entry) (hpast : fs'.past = fs.past)
    (hnext : fs'.next = fs.next) (hfile : ∀ j, j ≠ i → fs'.file j = fs.file j) :
    fs'.Published final good ∧ Frame fs fs' own final ∧ fs'.Private i own := by
  have hother : ∀ name j, name ≠ own → some j ∈ fs.past name → j ≠ i := by
    rintro name j hname hj rfl
    exact hname (hprivate name hj)
  refine ⟨⟨fun name => ?_, fun name j hj => ?_, fun name j hname hj => ?_, fun name j hname hj => ?_⟩,
    ⟨fun name _ _ => congrFun hentry name, fun name _ hkept => ?_, fun name j hj => ?_,
      fun name j hname hj => hfile j (hother name j hname hj), fun name j _ hj => ?_⟩, fun name hi => ?_⟩
  · rw [hentry, hpast]
    exact h.current name
  · rw [hpast] at hj
    rw [hnext]
    exact h.bound name j hj
  · rw [hpast] at hj
    have hne : name ≠ own := fun heq => hown (heq ▸ hname)
    rw [hfile j (hother name j hne hj)]
    exact h.whole name j hname hj
  · rw [hpast] at hj
    rw [hentry]
    exact h.kept name j hname hj
  · rwa [hentry]
  · rwa [hpast]
  · rw [hpast] at hj
    exact .inl hj
  · rw [hpast] at hi
    exact hprivate name hi

theorem Published.link (h : fs.Published final good) (hnew : final new)
    (hold : fs.entry own = some i) (hsynced : (fs.file i).synced = true)
    (hgood : good new (fs.file i).data) :
    (fs.link own new).Published final good ∧ Frame fs (fs.link own new) own final ∧
      (fs.link own new).entry new ≠ none := by
  by_cases htaken : fs.entry new = none
  · have hi : some i ∈ fs.past own := hold ▸ h.current own
    rw [link_eq hold htaken]
    refine ⟨h.point_final (h.bound own i hi) hsynced hgood, .point_final hnew hi, ?_⟩
    rw [point_entry, Function.update_self]
    exact Option.some_ne_none i
  · rw [link_of_taken htaken]
    exact ⟨h, .refl .., htaken⟩

theorem Published.replace (h : fs.Published final good) (hown : ¬final own) (hnew : final new)
    (hold : fs.entry own = some i) (hsynced : (fs.file i).synced = true)
    (hgood : good new (fs.file i).data) :
    (fs.replace own new).Published final good ∧ Frame fs (fs.replace own new) own final ∧
      (fs.replace own new).entry new = some i := by
  have hi : some i ∈ fs.past own := hold ▸ h.current own
  have hne : new ≠ own := fun heq => hown (heq ▸ hnew)
  rcases replace_cases new hold with ⟨hsame, heq⟩ | heq
  · rw [heq]
    exact ⟨h, .refl .., hsame⟩
  · rw [heq]
    have hpub := h.point_final (h.bound own i hi) hsynced hgood
    have hfirst : Frame fs (fs.point new (some i)) own final := .point_final hnew hi
    have hnone : ∀ j, (none : Option Nat) ≠ some j := fun _ h => nomatch h
    have hsecond : Frame (fs.point new (some i)) ((fs.point new (some i)).point own none) own final :=
      .point_own hown fun j hj => absurd hj (hnone j)
    refine ⟨hpub.point_temporary hown fun j hj => absurd hj (hnone j), ⟨?_, ?_, ?_, ?_, ?_⟩, ?_⟩
    · intro name hname hfinal
      rw [hsecond.entry name hname hfinal, hfirst.entry name hname hfinal]
    · exact fun name hname hkept => hsecond.kept name hname (hfirst.kept name hname hkept)
    · exact fun name j hj => hsecond.past name j (hfirst.past name j hj)
    · exact fun _ _ _ _ => rfl
    · intro name j hj hpast
      rcases hsecond.fresh name j hj hpast with hpast | hpast
      · exact hfirst.fresh name j hj hpast
      · rcases hfirst.fresh own j hj hpast with hpast | hpast <;> exact .inr hpast
    · rw [point_entry, Function.update_of_ne hne, point_entry, Function.update_self]

theorem Published.unlink (h : fs.Published final good) (hown : ¬final own) :
    (fs.unlink own).Published final good ∧ Frame fs (fs.unlink own) own final := by
  have hnone : ∀ j, (none : Option Nat) ≠ some j := fun _ h => nomatch h
  exact ⟨h.point_temporary hown fun j hj => absurd hj (hnone j),
    .point_own hown fun j hj => absurd hj (hnone j)⟩

end Lemmas

end FileSystem

end Sana.Lib
