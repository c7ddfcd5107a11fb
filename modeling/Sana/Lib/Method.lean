import Mathlib.Tactic.Common

/-!
# Methods that change an object in place

A method reads and writes its object and may raise. What it wrote before it raised
stays written, so a method that raises need not leave its object as it was: it does
if it checks first and changes afterwards. The rules below follow that shape.
-/

namespace Sana.Lib

variable {ε σ α β : Type}

/-- A method of an object. -/
abbrev Method (ε σ α : Type) := ExceptT ε (StateM σ) α

namespace Method

/-- Call a method: what it returns or raises, and the object it leaves. -/
def call (m : Method ε σ α) (s : σ) : Except ε α × σ := m.run.run s

/-- Raise unless a condition holds. -/
def require (p : Prop) [Decidable p] (e : ε) : Method ε σ Unit := if p then pure () else throw e

/-- A computation that does not touch the object. -/
def ofExcept (r : Except ε α) : Method ε σ α :=
  match r with
  | .ok a => pure a
  | .error e => throw e

@[simp]
theorem call_pure (a : α) (s : σ) : (pure a : Method ε σ α).call s = (.ok a, s) := rfl

@[simp]
theorem call_get (s : σ) : (get : Method ε σ σ).call s = (.ok s, s) := rfl

@[simp]
theorem call_modify (f : σ → σ) (s : σ) :
    (modify f : Method ε σ PUnit).call s = (.ok ⟨⟩, f s) := rfl

@[simp]
theorem call_require (p : Prop) [Decidable p] (e : ε) (s : σ) :
    (require p e : Method ε σ Unit).call s = (if p then .ok () else .error e, s) := by
  unfold require
  split <;> rfl

@[simp]
theorem call_ofExcept (r : Except ε α) (s : σ) : (ofExcept r : Method ε σ α).call s = (r, s) := by
  cases r <;> rfl

/-- A sequence goes on with what the first part returned, and with the object it left. -/
theorem call_bind (m : Method ε σ α) (f : α → Method ε σ β) (s : σ) :
    (m >>= f).call s = match m.call s with
      | (.ok a, t) => (f a).call t
      | (.error e, t) => (.error e, t) := by
  simp only [call, ExceptT.run_bind, StateT.run_bind]
  rcases hm : m.run.run s with ⟨r, t⟩
  cases r <;> rfl

/-- A handler goes on with the object the block left when it raised. -/
theorem call_tryCatch (m : Method ε σ α) (handler : ε → Method ε σ α) (s : σ) :
    (tryCatch m handler).call s = match m.call s with
      | (.ok a, t) => (.ok a, t)
      | (.error e, t) => (handler e).call t := by
  show ((ExceptT.tryCatch m handler).run).run s = _
  simp only [ExceptT.tryCatch, ExceptT.run_mk, StateT.run_bind, call]
  rcases hm : m.run.run s with ⟨r, t⟩
  rw [show StateT.run m s = (r, t) from hm]
  cases r <;> rfl

/-- **Taking a sequence apart.** -/
theorem bind_ok {m : Method ε σ α} {f : α → Method ε σ β} {s t : σ} {b : β}
    (h : (m >>= f).call s = (.ok b, t)) :
    ∃ a u, m.call s = (.ok a, u) ∧ (f a).call u = (.ok b, t) := by
  rw [call_bind] at h
  rcases hcall : m.call s with ⟨r, u⟩
  rw [hcall] at h
  cases r with
  | ok a => exact ⟨a, u, rfl, h⟩
  | error e => cases h

theorem get_ok {s t u : σ} (h : (get : Method ε σ σ).call s = (.ok u, t)) : s = u ∧ s = t := by
  rw [call_get] at h
  obtain ⟨hu, ht⟩ := Prod.mk.inj h
  exact ⟨Except.ok.inj hu, ht⟩

theorem require_ok {p : Prop} [Decidable p] {e : ε} {s t : σ} {a : Unit}
    (h : (require p e : Method ε σ Unit).call s = (.ok a, t)) : p ∧ s = t := by
  rw [call_require] at h
  obtain ⟨hp, ht⟩ := Prod.mk.inj h
  split at hp
  · rename_i hholds
    exact ⟨hholds, ht⟩
  · cases hp

theorem modify_ok {f : σ → σ} {s t : σ} {a : PUnit}
    (h : (modify f : Method ε σ PUnit).call s = (.ok a, t)) : t = f s := by
  rw [call_modify] at h
  exact (Prod.mk.inj h).2.symm

/-- The method only looks. -/
def Reads (m : Method ε σ α) : Prop := ∀ s, (m.call s).2 = s

/-- The method does not raise. -/
def Commits (m : Method ε σ α) : Prop := ∀ s, ∃ a, (m.call s).1 = .ok a

/-- **All or nothing.** A method that raises has not changed its object. -/
def Atomic (m : Method ε σ α) : Prop := ∀ s e t, m.call s = (.error e, t) → t = s

theorem Commits.atomic {m : Method ε σ α} (h : m.Commits) : m.Atomic := by
  intro s e t hm
  obtain ⟨a, ha⟩ := h s
  rw [hm] at ha
  cases ha

theorem reads_get : (get : Method ε σ σ).Reads := fun _ => rfl

theorem reads_require (p : Prop) [Decidable p] (e : ε) : (require p e : Method ε σ Unit).Reads := by
  intro s
  rw [call_require]

theorem commits_modify (f : σ → σ) : (modify f : Method ε σ PUnit).Commits := fun _ => ⟨_, rfl⟩

/-- A look first changes nothing about whether the rest is all or nothing. -/
theorem Atomic.after_read {m : Method ε σ α} {f : α → Method ε σ β} (hm : m.Reads)
    (hf : ∀ a, (f a).Atomic) : (m >>= f).Atomic := by
  intro s e t h
  rw [call_bind] at h
  have hs := hm s
  rcases hcall : m.call s with ⟨r, u⟩
  rw [hcall] at h hs
  cases r with
  | ok a => exact (hf a u e t h).trans hs
  | error e' =>
      obtain ⟨-, rfl⟩ := Prod.mk.inj h
      exact hs

/-- What cannot raise may follow. -/
theorem Atomic.then_commit {m : Method ε σ α} {f : α → Method ε σ β} (hm : m.Atomic)
    (hf : ∀ a, (f a).Commits) : (m >>= f).Atomic := by
  intro s e t h
  rw [call_bind] at h
  rcases hcall : m.call s with ⟨r, u⟩
  rw [hcall] at h
  cases r with
  | ok a =>
      obtain ⟨b, hb⟩ := hf a u
      have hrest : (f a).call u = (.error e, t) := h
      rw [hrest] at hb
      cases hb
  | error e' =>
      obtain ⟨-, rfl⟩ := Prod.mk.inj h
      exact hm s e' u hcall

/-! ## Pre- and postconditions -/

section Yields

variable {P P' : σ → Prop} {Q Q' : α → σ → Prop} {R : β → σ → Prop} {E F : ε → σ → Prop}

/-- From an object with `P`, a method that returns leaves `Q`, and one that raises leaves `E`; both
may speak of what is returned or raised. -/
def Yields (P : σ → Prop) (m : Method ε σ α) (Q : α → σ → Prop) (E : ε → σ → Prop) : Prop :=
  ∀ s, P s → match m.call s with
    | (.ok a, t) => Q a t
    | (.error e, t) => E e t

theorem yields_pure {a : α} (h : ∀ s, P s → Q a s) : Yields P (pure a : Method ε σ α) Q E := h

theorem yields_throw {e : ε} (h : ∀ s, P s → E e s) : Yields P (throw e : Method ε σ α) Q E := h

theorem yields_modify {f : σ → σ} {S : σ → Prop} (h : ∀ s, P s → S (f s)) :
    Yields P (modify f : Method ε σ PUnit) (fun _ => S) E := h

theorem yields_require {p : Prop} [Decidable p] {e : ε} (h : ∀ s, P s → ¬p → E e s) :
    Yields P (require p e : Method ε σ Unit) (fun _ s => P s ∧ p) E := by
  intro s hs
  rw [call_require]
  by_cases hp : p
  · rw [if_pos hp]
    exact ⟨hs, hp⟩
  · rw [if_neg hp]
    exact h s hs hp

theorem yields_ofExcept {r : Except ε α} (h : ∀ s e, P s → r = .error e → E e s) :
    Yields P (ofExcept r : Method ε σ α) (fun a s => P s ∧ r = .ok a) E := by
  intro s hs
  rw [call_ofExcept]
  cases r with
  | ok a => exact ⟨hs, rfl⟩
  | error e => exact h s e hs rfl

/-- **The rule for sequences.** -/
theorem Yields.bind {m : Method ε σ α} {f : α → Method ε σ β} (hm : Yields P m Q E)
    (hf : ∀ a, Yields (Q a) (f a) R E) : Yields P (m >>= f) R E := by
  intro s hs
  have hfirst := hm s hs
  rw [call_bind]
  rcases hcall : m.call s with ⟨r, t⟩
  rw [hcall] at hfirst
  cases r with
  | ok a => exact hf a t hfirst
  | error e => exact hfirst

/-- **The rule for handlers.** A handler starts from what the block left. -/
theorem Yields.tryCatch {m : Method ε σ α} {handler : ε → Method ε σ α} (hm : Yields P m Q E)
    (hh : ∀ e, Yields (E e) (handler e) Q F) : Yields P (tryCatch m handler) Q F := by
  intro s hs
  have hfirst := hm s hs
  rw [call_tryCatch]
  rcases hm' : m.call s with ⟨r, t⟩
  rw [hm'] at hfirst
  cases r with
  | ok a => exact hfirst
  | error e => exact hh e t hfirst

theorem Yields.weaken {m : Method ε σ α} (hm : Yields P' m Q' F) (hP : ∀ s, P s → P' s)
    (hQ : ∀ a s, Q' a s → Q a s) (hE : ∀ e s, F e s → E e s) : Yields P m Q E := by
  intro s hs
  have h := hm s (hP s hs)
  rcases hcall : m.call s with ⟨r, t⟩
  rw [hcall] at h
  cases r with
  | ok a => exact hQ a t h
  | error e => exact hE e t h

/-- What the precondition says apart from the object may be used to prove the rest. -/
theorem yields_of_pre {m : Method ε σ α} {p : Prop} (hp : ∀ s, P s → p) (h : p → Yields P m Q E) :
    Yields P m Q E :=
  fun s hs => h (hp s hs) s hs

/-- **The rule for loops.** -/
theorem Yields.forM {l : List β} {f : β → Method ε σ PUnit}
    (h : ∀ x ∈ l, Yields P (f x) (fun _ => P) E) : Yields P (l.forM f) (fun _ => P) E := by
  induction l with
  | nil => exact yields_pure fun _ hs => hs
  | cons x l ih =>
      refine Yields.bind (h x List.mem_cons_self) fun _ => ?_
      exact ih fun y hy => h y (List.mem_cons_of_mem _ hy)

end Yields

section Ensures

variable {P P' : σ → Prop} {Q Q' : α → σ → Prop} {R : β → σ → Prop} {E E' : σ → Prop}

/-- From an object with `P`, a method that returns leaves `Q`, and one that raises leaves `E`. -/
def Ensures (P : σ → Prop) (m : Method ε σ α) (Q : α → σ → Prop) (E : σ → Prop) : Prop :=
  ∀ s, P s → match m.call s with
    | (.ok a, t) => Q a t
    | (.error _, t) => E t

theorem ensures_pure {a : α} (h : ∀ s, P s → Q a s) : Ensures P (pure a : Method ε σ α) Q E := h

theorem ensures_throw {e : ε} (h : ∀ s, P s → E s) : Ensures P (throw e : Method ε σ α) Q E := h

theorem ensures_get : Ensures P (get : Method ε σ σ) (fun a s => P s ∧ a = s) E :=
  fun _ hs => ⟨hs, rfl⟩

theorem ensures_modify {f : σ → σ} {S : σ → Prop} (h : ∀ s, P s → S (f s)) :
    Ensures P (modify f : Method ε σ PUnit) (fun _ => S) E := h

theorem ensures_require {p : Prop} [Decidable p] {e : ε} (h : ∀ s, P s → E s) :
    Ensures P (require p e : Method ε σ Unit) (fun _ s => P s ∧ p) E :=
  yields_require (E := fun _ => E) fun s hs _ => h s hs

theorem ensures_ofExcept {r : Except ε α} (h : ∀ s, P s → E s) :
    Ensures P (ofExcept r : Method ε σ α) (fun a s => P s ∧ r = .ok a) E :=
  yields_ofExcept (E := fun _ => E) fun s _ hs _ => h s hs

/-- **The rule for sequences.** -/
theorem Ensures.bind {m : Method ε σ α} {f : α → Method ε σ β} (hm : Ensures P m Q E)
    (hf : ∀ a, Ensures (Q a) (f a) R E) : Ensures P (m >>= f) R E :=
  Yields.bind (E := fun _ => E) hm hf

/-- **The rule for handlers.** A handler starts from what the block left. -/
theorem Ensures.tryCatch {m : Method ε σ α} {handler : ε → Method ε σ α} (hm : Ensures P m Q E)
    (hh : ∀ e, Ensures E (handler e) Q E') : Ensures P (tryCatch m handler) Q E' :=
  Yields.tryCatch (E := fun _ => E) (F := fun _ => E') hm hh

theorem Ensures.weaken {m : Method ε σ α} (hm : Ensures P' m Q' E') (hP : ∀ s, P s → P' s)
    (hQ : ∀ a s, Q' a s → Q a s) (hE : ∀ s, E' s → E s) : Ensures P m Q E :=
  Yields.weaken (E := fun _ => E) (F := fun _ => E') hm hP hQ fun _ => hE

/-- **The rule for loops.** -/
theorem Ensures.forM {l : List β} {f : β → Method ε σ PUnit}
    (h : ∀ x ∈ l, Ensures P (f x) (fun _ => P) E) : Ensures P (l.forM f) (fun _ => P) E :=
  Yields.forM (E := fun _ => E) h

end Ensures

end Method

end Sana.Lib
