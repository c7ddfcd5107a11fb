import Sana.Storage.Proof.Linear

/-!
# Reports that were put can be read

Both stores are instances of what is proved of a store in general: an artifact store puts and gets in
one step as its methods are stated to, and a campaign's reports are never found corrupted. A report
whose put has returned is there until the power is lost. This is proved for a store whose methods
take one step, where a payload that has a name keeps it, and holds of the threads by the simulation.
-/

namespace Sana.Storage

open Sana.Lib Lib.Url Lib.FileSystem

open Orchestration.Aggregate (ArtifactRef isHexDigit)

/-! ## What was put stays -/

section Atomic

variable {ρ α : Type} {s : Store ρ α} {sha256 : ByteArray → String} {payloads : Set ByteArray}
  {a a' : AtomicStore ρ α} {pid : Nat} {request : ρ} {label : Option (Event ρ α)}

/-- Files hold payloads that were put, and a put that is decided is told the truth. -/
structure AtomicStore.Inv (s : Store ρ α) (sha256 : ByteArray → String) (payloads : Set ByteArray)
    (a : AtomicStore ρ α) : Prop where
  files : ∀ file payload, a.disk.files file = some payload →
    payload ∈ payloads ∧ file.getLastD "" = sha256 payload
  puts : ∀ pid p, a.calls pid = some p → s.Puts payloads p.request
  told : ∀ pid request value, a.calls pid = some ⟨request, some (.ok value)⟩ →
    ∃ call, s.starts request = .ok call ∧ (call.isWrite = true →
      a.disk.files call.file = some call.payload ∧ s.returns request call.payload = .ok value)

theorem AtomicStore.inv_empty : AtomicStore.empty.Inv s sha256 payloads where
  files _ _ h := nomatch h
  puts _ _ h := nomatch h
  told _ _ _ h := nomatch h

/-- The one step of a method: no file changes or goes, and a put that returns has its file there. -/
theorem AtomicStore.Inv.performs (hs : s.Lawful sha256) (hinj : Set.InjOn sha256 payloads)
    (h : a.Inv s sha256 payloads) (hputs : s.Puts payloads request) {disk : Disk}
    {result : Except Exn α} (hcall : (s.perform sha256 request).call a.disk = (result, disk)) :
    (∀ file payload, a.disk.files file = some payload → disk.files file = some payload) ∧
    (∀ file payload, disk.files file = some payload →
      payload ∈ payloads ∧ file.getLastD "" = sha256 payload) ∧
    ∀ value, result = .ok value → ∃ call, s.starts request = .ok call ∧ (call.isWrite = true →
      disk.files call.file = some call.payload ∧ s.returns request call.payload = .ok value) := by
  cases hstarts : s.starts request with
  | error e =>
      rw [perform_refused hstarts] at hcall
      obtain ⟨rfl, rfl⟩ := Prod.mk.inj hcall
      exact ⟨fun _ _ => id, h.files, fun value hvalue => nomatch hvalue⟩
  | ok call =>
      cases call with
      | read file digest =>
          rw [perform_read hstarts] at hcall
          obtain ⟨-, rfl⟩ := Prod.mk.inj hcall
          exact ⟨fun _ _ => id, h.files, fun _ _ => ⟨_, rfl, fun hwrite => nomatch hwrite⟩⟩
      | write file payload digest =>
          have hdigest := hs.write request file payload digest hstarts
          have hname : file.getLastD "" = sha256 payload := (hs.named request _ hstarts).trans hdigest
          have hput := hputs file payload digest hstarts
          have hsame : ∀ existing, a.disk.files file = some existing → existing = payload := by
            intro existing hexisting
            obtain ⟨hmem, hname'⟩ := h.files file existing hexisting
            exact hinj hmem hput (hname'.symm.trans hname)
          obtain ⟨disk', hperform, hfiles⟩ := perform_write hstarts hdigest hsame
          rw [hperform] at hcall
          obtain ⟨rfl, rfl⟩ := Prod.mk.inj hcall
          refine ⟨fun other existing hother => ?_, fun other existing hother => ?_,
            fun value hvalue => ⟨_, rfl, fun _ => ⟨?_, hvalue⟩⟩⟩
          · rw [hfiles]
            by_cases heq : other = file
            · rw [if_pos heq, hsame existing (heq ▸ hother)]
            · rwa [if_neg heq]
          · rw [hfiles] at hother
            by_cases heq : other = file
            · rw [if_pos heq] at hother
              obtain rfl := Option.some.inj hother
              exact ⟨hput, heq ▸ hname⟩
            · rw [if_neg heq] at hother
              exact h.files other existing hother
          · exact (hfiles file).trans (if_pos rfl)

/-- Calls that are over or have failed tell nothing new. -/
theorem AtomicStore.Inv.calls (h : a.Inv s sha256 payloads) {calls : Nat → Option (Pending ρ α)}
    (hputs : ∀ pid p, calls pid = some p → s.Puts payloads p.request)
    (hcalls : ∀ pid request value, calls pid = some ⟨request, some (.ok value)⟩ →
      a.calls pid = some ⟨request, some (.ok value)⟩) :
    AtomicStore.Inv s sha256 payloads { a with calls } where
  files := h.files
  puts := hputs
  told pid request value hcall := h.told pid request value (hcalls pid request value hcall)

theorem AtomicStore.Inv.fewer (h : a.Inv s sha256 payloads) {calls : Nat → Option (Pending ρ α)}
    (hcalls : ∀ pid p, calls pid = some p → a.calls pid = some p) :
    AtomicStore.Inv s sha256 payloads { a with calls } :=
  h.calls (fun pid p hp => h.puts pid p (hcalls pid p hp)) fun pid _ _ => hcalls pid _

/-- **One step**: only a loss of power takes a file away. -/
theorem AtomicStore.inv_step (hs : s.Lawful sha256) (hinj : Set.InjOn sha256 payloads)
    (h : a.Inv s sha256 payloads) (hstep : AtomicStore.Step s sha256 payloads a label a') :
    a'.Inv s sha256 payloads ∧ (label ≠ some .powerLoss → ∀ file payload,
      a.disk.files file = some payload → a'.disk.files file = some payload) := by
  cases hstep with
  | call request hfree hputs =>
      rename_i pid
      refine ⟨h.calls (fun other p hp => ?_) fun other request' value hcall => ?_, fun _ _ _ => id⟩
      · by_cases hother : other = pid
        · subst hother
          rw [Function.update_self] at hp
          obtain rfl := Option.some.inj hp
          exact hputs
        · rw [Function.update_of_ne hother] at hp
          exact h.puts other p hp
      · by_cases hother : other = pid
        · subst hother
          rw [Function.update_self] at hcall
          cases (Pending.mk.inj (Option.some.inj hcall)).2
        · rwa [Function.update_of_ne hother] at hcall
  | perform hcall =>
      rename_i pid request
      generalize hperform : (s.perform sha256 request).call a.disk = performed
      obtain ⟨answer, disk⟩ := performed
      obtain ⟨hgrows, hfiles, htold⟩ := h.performs hs hinj (h.puts pid _ hcall) hperform
      refine ⟨⟨hfiles, fun other p hp => ?_, fun other request' value hp => ?_⟩, fun _ => hgrows⟩
      · by_cases hother : other = pid
        · subst hother
          simp only [Function.update_self] at hp
          obtain rfl := Option.some.inj hp
          have hputs := h.puts other _ hcall
          exact hputs
        · simp only [Function.update_of_ne hother] at hp
          exact h.puts other p hp
      · by_cases hother : other = pid
        · subst hother
          simp only [Function.update_self] at hp
          obtain ⟨rfl, hdecision⟩ := Pending.mk.inj (Option.some.inj hp)
          cases answer with
          | ok v => exact htold value (congrArg Except.ok (Except.ok.inj (Option.some.inj hdecision)))
          | error e => cases hdecision
        · simp only [Function.update_of_ne hother] at hp
          obtain ⟨call, hstarts, hwritten⟩ := h.told other request' value hp
          exact ⟨call, hstarts, fun hwrite =>
            ⟨hgrows _ _ (hwritten hwrite).1, (hwritten hwrite).2⟩⟩
  | fail hcall hstarts =>
      rename_i pid p call
      refine ⟨h.calls (fun other p' hp => ?_) fun other request' value hp => ?_, fun _ _ _ => id⟩
      · by_cases hother : other = pid
        · subst hother
          rw [Function.update_self] at hp
          obtain rfl := Option.some.inj hp
          exact h.puts other p hcall
        · rw [Function.update_of_ne hother] at hp
          exact h.puts other p' hp
      · by_cases hother : other = pid
        · subst hother
          rw [Function.update_self] at hp
          cases (Pending.mk.inj (Option.some.inj hp)).2
        · rwa [Function.update_of_ne hother] at hp
  | ret hcall =>
      refine ⟨h.fewer fun other p hp => ?_, fun _ _ _ => id⟩
      rw [Function.update_apply] at hp
      split at hp
      · cases hp
      · exact hp
  | kill pids =>
      refine ⟨h.fewer fun other p hp => ?_, fun _ _ _ => id⟩
      rw [without] at hp
      split at hp
      · cases hp
      · exact hp
  | powerLoss hfiles =>
      rename_i disk
      refine ⟨⟨fun file payload hfile => ?_, fun _ _ hp => (by cases hp),
        fun _ _ _ hp => (by cases hp)⟩, fun hne => absurd rfl hne⟩
      rcases hfiles file with hkept | hgone
      · exact h.files file payload (hkept ▸ hfile)
      · simp only [hgone] at hfile
        cases hfile

/-- The event does not end a call: it does not return, and is not killed. -/
def Event.Spares (pid : Nat) : Event ρ α → Prop
  | .call _ _ => True
  | .ret other _ => other ≠ pid
  | .kill pids => pid ∉ pids
  | .powerLoss => False

/-- A call that is not ended goes on. -/
theorem AtomicStore.pending_step (h : ∃ d, a.calls pid = some ⟨request, d⟩)
    (hspares : ∀ e, label = some e → e.Spares pid)
    (hstep : AtomicStore.Step s sha256 payloads a label a') :
    ∃ d, a'.calls pid = some ⟨request, d⟩ := by
  obtain ⟨d, hpending⟩ := h
  cases hstep with
  | call request' hfree hputs =>
      rename_i other
      have hne : pid ≠ other := by
        rintro rfl
        rw [hpending] at hfree
        cases hfree
      exact ⟨d, (Function.update_of_ne hne _ _).trans hpending⟩
  | perform hcall =>
      rename_i other request'
      by_cases heq : pid = other
      · subst heq
        rw [hpending] at hcall
        obtain ⟨rfl, -⟩ := Pending.mk.inj (Option.some.inj hcall)
        exact ⟨_, Function.update_self ..⟩
      · exact ⟨d, (Function.update_of_ne heq _ _).trans hpending⟩
  | fail hcall hstarts =>
      rename_i other p call
      by_cases heq : pid = other
      · subst heq
        rw [hpending] at hcall
        obtain rfl := Option.some.inj hcall
        exact ⟨_, Function.update_self ..⟩
      · exact ⟨d, (Function.update_of_ne heq _ _).trans hpending⟩
  | ret hcall =>
      have hne := hspares _ rfl
      exact ⟨d, (Function.update_of_ne (Ne.symm hne) _ _).trans hpending⟩
  | kill pids =>
      have hspared : pid ∉ pids := hspares _ rfl
      exact ⟨d, (if_neg hspared).trans hpending⟩
  | powerLoss hfiles => exact (hspares _ rfl).elim

/-- A get of a file that is there is decided by what is in it. -/
def AtomicStore.Reads (s : Store ρ α) (pid : Nat) (request : ρ) (payload : ByteArray)
    (a : AtomicStore ρ α) : Prop :=
  ∀ result, a.calls pid = some ⟨request, some result⟩ →
    result = .error .osError ∨ result = (s.returns request payload).mapError .raised

theorem AtomicStore.reads_step (hs : s.Lawful sha256) (h : a.Inv s sha256 payloads)
    {file : List String} {payload : ByteArray} {digest : String}
    (hstarts : s.starts request = .ok (.read file digest))
    (hfile : a.disk.files file = some payload) (hasked : ∃ d, a.calls pid = some ⟨request, d⟩)
    (hreads : a.Reads s pid request payload)
    (hstep : AtomicStore.Step s sha256 payloads a label a') : a'.Reads s pid request payload := by
  intro result hresult
  cases hstep with
  | call request' hfree hputs =>
      rename_i other
      have hne : pid ≠ other := by
        rintro rfl
        obtain ⟨d, hpending⟩ := hasked
        rw [hpending] at hfree
        cases hfree
      simp only [Function.update_of_ne hne] at hresult
      exact hreads result hresult
  | perform hcall =>
      rename_i other request'
      by_cases heq : pid = other
      · subst heq
        simp only [Function.update_self] at hresult
        obtain ⟨rfl, hdecision⟩ := Pending.mk.inj (Option.some.inj hresult)
        have hhash : sha256 payload = digest := by
          rw [← (h.files file payload hfile).2]
          exact hs.named _ _ hstarts
        rw [perform_read hstarts, hfile] at hdecision
        simp only [if_pos hhash] at hdecision
        exact .inr (Option.some.inj hdecision).symm
      · simp only [Function.update_of_ne heq] at hresult
        exact hreads result hresult
  | fail hcall hstarts' =>
      rename_i other p call
      by_cases heq : pid = other
      · subst heq
        simp only [Function.update_self] at hresult
        exact .inl (Option.some.inj (Pending.mk.inj (Option.some.inj hresult)).2).symm
      · simp only [Function.update_of_ne heq] at hresult
        exact hreads result hresult
  | ret hcall =>
      simp only [Function.update_apply] at hresult
      split at hresult
      · cases hresult
      · exact hreads result hresult
  | kill pids =>
      simp only [without] at hresult
      split at hresult
      · cases hresult
      · exact hreads result hresult
  | powerLoss hfiles => cases hresult

/-- **What was put can be read.** A put returns; some time later, with the power on since, a get of
what was put is called; if it returns, it returns that, or an `OSError`. -/
theorem AtomicStore.put_readable (hs : s.Lawful sha256) (hinj : Set.InjOn sha256 payloads)
    {put get : ρ} {p g : Nat} {value : α} {result : Except Failure α}
    {before during between reading : List (Event ρ α)}
    (hput : ∀ call, s.starts put = .ok call → call.isWrite = true ∧
      s.starts get = .ok (.read call.file call.digest))
    (hduring : ∀ e ∈ during, e.Spares p) (hbetween : .powerLoss ∉ between)
    (hreading : ∀ e ∈ reading, e.Spares g)
    (h : Runs (AtomicStore.Step s sha256 payloads) .empty
      (before ++ .call p put :: (during ++ .ret p (.ok value) :: (between ++
        .call g get :: (reading ++ [.ret g result])))) a) :
    ∃ call, s.starts put = .ok call ∧ s.returns put call.payload = .ok value ∧
      (result = .error .osError ∨ result = (s.returns get call.payload).mapError .raised) := by
  have hinv : ∀ a label a', a.Inv s sha256 payloads →
      AtomicStore.Step s sha256 payloads a label a' → a'.Inv s sha256 payloads :=
    fun _ _ _ ha hstep => (AtomicStore.inv_step hs hinj ha hstep).1
  obtain ⟨a₁, hrun₁, h⟩ := h.split
  obtain ⟨a₂, a₃, hrun₂, hcall, h⟩ := h.cons
  obtain ⟨a₄, hrun₃, h⟩ := h.split
  obtain ⟨a₅, a₆, hrun₄, hret, h⟩ := h.cons
  obtain ⟨a₇, hrun₅, h⟩ := h.split
  obtain ⟨a₈, a₉, hrun₆, hask, h⟩ := h.cons
  obtain ⟨a₁₀, hrun₇, h⟩ := h.split
  obtain ⟨a₁₁, a₁₂, hrun₈, hanswer, -⟩ := h.cons
  have hinv₃ := hinv _ _ _ (hrun₂.invariant hinv (hrun₁.invariant hinv AtomicStore.inv_empty)) hcall
  -- the put is pending until it returns, and then it has been told that the file is there
  have hpending₃ : ∃ d, a₃.calls p = some ⟨put, d⟩ := by
    cases hcall
    exact ⟨none, Function.update_self ..⟩
  have hsilent : ∀ pid request, ∀ a a' : AtomicStore ρ α, (∃ d, a.calls pid = some ⟨request, d⟩) →
      AtomicStore.Step s sha256 payloads a none a' → ∃ d, a'.calls pid = some ⟨request, d⟩ :=
    fun _ _ _ _ hd hstep => AtomicStore.pending_step hd (fun _ he => by cases he) hstep
  have hseen : ∀ pid request, ∀ (a : AtomicStore ρ α) e (a' : AtomicStore ρ α),
      (∃ d, a.calls pid = some ⟨request, d⟩) → e.Spares pid →
      AtomicStore.Step s sha256 payloads a (some e) a' → ∃ d, a'.calls pid = some ⟨request, d⟩ :=
    fun _ _ _ e _ hd hspares hstep => AtomicStore.pending_step hd
      (fun e' he => Option.some.inj he ▸ hspares) hstep
  have hpending₄ := hrun₃.invariant_of_seen (P := fun a => ∃ d, a.calls p = some ⟨put, d⟩) (hsilent p put) (hseen p put) hduring hpending₃
  have hpending₅ : ∃ d, a₅.calls p = some ⟨put, d⟩ :=
    hrun₄.invariant_of_seen (P := fun a => ∃ d, a.calls p = some ⟨put, d⟩)
      (Q := fun _ => False) (hsilent p put) (fun _ _ _ _ hf => hf.elim)
      (List.forall_mem_nil _) hpending₄
  have hinv₅ := hrun₄.invariant hinv (hrun₃.invariant hinv hinv₃)
  obtain ⟨call, hstarts, hwritten⟩ : ∃ call, s.starts put = .ok call ∧ (call.isWrite = true →
      a₅.disk.files call.file = some call.payload ∧ s.returns put call.payload = .ok value) := by
    obtain ⟨d, hd⟩ := hpending₅
    cases hret with
    | ret hresult =>
        rw [hd] at hresult
        obtain ⟨rfl, rfl⟩ := Pending.mk.inj (Option.some.inj hresult)
        exact hinv₅.told p _ value hd
  obtain ⟨hwrite, hget⟩ := hput call hstarts
  obtain ⟨hfile₅, hreturns⟩ := hwritten hwrite
  refine ⟨call, hstarts, hreturns, ?_⟩
  -- from then on the file is there
  have hheld : ∀ (a : AtomicStore ρ α) label a',
      (a.Inv s sha256 payloads ∧ a.disk.files call.file = some call.payload) →
      label ≠ some .powerLoss → AtomicStore.Step s sha256 payloads a label a' →
      a'.Inv s sha256 payloads ∧ a'.disk.files call.file = some call.payload := by
    rintro a label a' ⟨ha, hfile⟩ hlabel hstep
    obtain ⟨ha', hgrows⟩ := AtomicStore.inv_step hs hinj ha hstep
    exact ⟨ha', hgrows hlabel _ _ hfile⟩
  have hheldSilent : ∀ a a' : AtomicStore ρ α, _ → AtomicStore.Step s sha256 payloads a none a' → _ :=
    fun a a' ha hstep => hheld a none a' ha (by simp) hstep
  have hheld₆ := hheld _ _ _ ⟨hinv₅, hfile₅⟩ (by simp) hret
  have hheld₇ := hrun₅.invariant_of_seen (Q := fun e => e ≠ .powerLoss) hheldSilent
    (fun a e a' ha he hstep => hheld a _ a' ha (fun heq => he (Option.some.inj heq)) hstep)
    (fun e he heq => hbetween (heq ▸ he)) hheld₆
  have hheld₈ := hrun₆.invariant_of_seen (Q := fun _ => False) hheldSilent
    (fun _ _ _ _ hf => hf.elim) (List.forall_mem_nil _) hheld₇
  have hheld₉ := hheld _ _ _ hheld₈ (by simp) hask
  -- and the get is decided by what is in it
  have hreads : ∀ (a : AtomicStore ρ α) label a',
      ((a.Inv s sha256 payloads ∧ a.disk.files call.file = some call.payload) ∧
        (∃ d, a.calls g = some ⟨get, d⟩) ∧ a.Reads s g get call.payload) →
      (∀ e, label = some e → e.Spares g) → AtomicStore.Step s sha256 payloads a label a' →
      (a'.Inv s sha256 payloads ∧ a'.disk.files call.file = some call.payload) ∧
        (∃ d, a'.calls g = some ⟨get, d⟩) ∧ a'.Reads s g get call.payload := by
    rintro a label a' ⟨ha, hasked, hdecided⟩ hspares hstep
    refine ⟨hheld a label a' ha ?_ hstep, AtomicStore.pending_step hasked hspares hstep,
      AtomicStore.reads_step hs ha.1 hget ha.2 hasked hdecided hstep⟩
    rintro rfl
    exact hspares _ rfl
  have hreads₉ : (∃ d, a₉.calls g = some ⟨get, d⟩) ∧ a₉.Reads s g get call.payload := by
    cases hask
    refine ⟨⟨none, Function.update_self ..⟩, fun result hresult => ?_⟩
    simp only [Function.update_self] at hresult
    exact nomatch (Pending.mk.inj (Option.some.inj hresult)).2
  have hreads₁₀ := hrun₇.invariant_of_seen
    (fun a a' ha hstep => hreads a none a' ha (fun _ he => by cases he) hstep)
    (fun a e a' ha hspares hstep => hreads a (some e) a' ha
      (fun e' he => Option.some.inj he ▸ hspares) hstep) hreading ⟨hheld₉, hreads₉⟩
  obtain ⟨-, ⟨d, hd⟩, hdecided⟩ := hrun₈.invariant_of_seen (Q := fun _ => False)
    (fun a a' ha hstep => hreads a none a' ha (fun _ he => by cases he) hstep)
    (fun _ _ _ _ hf => hf.elim) (List.forall_mem_nil _) hreads₁₀
  cases hanswer with
  | ret hresult =>
      rw [hd] at hresult
      obtain ⟨rfl, rfl⟩ := Pending.mk.inj (Option.some.inj hresult)
      exact hdecided result hd

end Atomic

/-! ## A thread that nothing disturbs -/

section Alone

variable {ρ α : Type} {s : Store ρ α} {sha256 : ByteArray → String} {payloads : Set ByteArray}
  {put get request : ρ} {fs fs' : Files} {t t' : Thread} {nonces : List Uuid} {pid i : Nat}
  {file : List String} {payload : ByteArray} {digest : String}

/-- One call is going on, and no other. -/
def StoreWorld.alone (fs : Files) (pid : Nat) (request : ρ) (t : Thread) (nonces : List Uuid) :
    StoreWorld ρ :=
  ⟨fs, Function.update (fun _ => none) pid (some ⟨request, .ok t⟩), nonces⟩

@[simp] theorem StoreWorld.alone_calls :
    (StoreWorld.alone fs pid request t nonces).calls pid = some ⟨request, .ok t⟩ := by
  simp only [StoreWorld.alone, Function.update_self]

theorem StoreWorld.alone_step (choice : Choice) (hchoice : ∀ nonce, choice ≠ .nonce nonce)
    (hstep : t.step s sha256 fs choice = some (fs', t')) :
    StoreWorld.Step s sha256 payloads (.alone fs pid request t nonces) none
      (.alone fs' pid request t' nonces) := by
  have hmove : StoreWorld.Step s sha256 payloads (.alone fs pid request t nonces) none _ :=
    .thread choice alone_calls hstep hchoice
  simpa only [StoreWorld.alone, Function.update_idem] using hmove

theorem StoreWorld.alone_called {call : FileCall} (hstarts : s.starts request = .ok call)
    (hputs : s.Puts payloads request) :
    StoreWorld.Step s sha256 payloads ⟨fs, fun _ => none, nonces⟩ (some (.call pid request))
      (.alone fs pid request (.start call) nonces) := by
  have hmove : StoreWorld.Step s sha256 payloads ⟨fs, fun _ => none, nonces⟩
      (some (.call pid request)) _ := .call request rfl hputs
  simpa only [StoreWorld.alone, hstarts, Except.map] using hmove

theorem StoreWorld.alone_returned {result : Except Failure ByteArray} (hpc : t.pc = .done result) :
    StoreWorld.Step s sha256 payloads (.alone fs pid request t nonces)
      (some (.ret pid (s.result request result))) ⟨fs, fun _ => none, nonces⟩ := by
  have hresult : (Call.mk request (.ok t)).result s = some (s.result request result) := by
    simp only [Call.result, hpc]
  have hmove : StoreWorld.Step s sha256 payloads (.alone fs pid request t nonces) _ _ :=
    .ret alone_calls hresult
  have hnone : Function.update (fun _ => none) pid none = fun _ : Nat => (none : Option (Call ρ)) :=
    Function.update_eq_self pid _
  simpa only [StoreWorld.alone, Function.update_idem, hnone] using hmove

/-- A file that is there is read. -/
theorem StoreWorld.alone_reads {why : Reader} (hpc : t.pc = .opening why)
    (hentry : fs.entry t.call.file = some i) (hdata : (fs.file i).data = payload.data.toList)
    (hsize : payload.data.toList ≠ []) :
    Runs (StoreWorld.Step s sha256 payloads) (.alone fs pid request t nonces) []
      (.alone fs pid request { t with pc := t.finished s sha256 why payload } nonces) := by
  have hopened : t.step s sha256 fs .go = some (fs, { t with pc := .reading why i [] }) := by
    simp only [Thread.step, hpc, hentry, Thread.goto]
  have hread : Thread.step s sha256 { t with pc := .reading why i [] } fs
      (.bytes payload.data.toList.length) =
        some (fs, { t with pc := .reading why i payload.data.toList }) := by
    simp only [Thread.step, hdata, List.length_nil, List.drop_zero, hsize, if_false, Thread.goto,
      List.nil_append, List.take_of_length_le (Nat.le_succ _)]
  have hended : Thread.step s sha256 { t with pc := .reading why i payload.data.toList } fs .go =
      some (fs, { t with pc := t.finished s sha256 why payload }) := by
    simp only [Thread.step, hdata, List.drop_length, if_true, Thread.goto, Array.toArray_toList]
    rfl
  exact .silent (.silent (.silent .refl (alone_step .go (by simp) hopened))
    (alone_step (.bytes _) (by simp) hread)) (alone_step .go (by simp) hended)

/-- A put creates its file and writes the payload to it. -/
theorem StoreWorld.alone_writes (hname : temporary file ⟨0⟩ ≠ file)
    (hsize : payload.data.toList ≠ []) :
    ∃ fs : Files, fs.entry (temporary file ⟨0⟩) = some 0 ∧ fs.entry file = none ∧
      (fs.file 0).data = payload.data.toList ∧
      Runs (StoreWorld.Step s sha256 payloads)
        (.alone .empty pid put (.start (.write file payload digest)) []) [] (.alone fs pid put
          ⟨.write file payload digest, temporary file ⟨0⟩, .publishing⟩ [⟨0⟩]) := by
  -- all of the payload is written at once
  obtain ⟨byte, left, hbytes⟩ := List.exists_cons_of_ne_nil hsize
  have hchecked : Thread.step s sha256 (.start (.write file payload digest)) .empty .go =
      some (.empty, ⟨.write file payload digest, [], .naming⟩) := rfl
  have hdrawn : StoreWorld.Step s sha256 payloads
      (.alone .empty pid put ⟨.write file payload digest, [], .naming⟩ []) none
        (.alone .empty pid put ⟨.write file payload digest, temporary file ⟨0⟩, .creating⟩
          [⟨0⟩]) := by
    have hmove : StoreWorld.Step s sha256 payloads
        (.alone .empty pid put ⟨.write file payload digest, [], .naming⟩ []) none _ :=
      .draw ⟨0⟩ alone_calls rfl List.not_mem_nil
    simpa only [StoreWorld.alone, Function.update_idem, FileCall.file] using hmove
  have hcreated : Thread.step s sha256 ⟨.write file payload digest, temporary file ⟨0⟩, .creating⟩
      .empty .go = some (FileSystem.empty.create (temporary file ⟨0⟩),
        ⟨.write file payload digest, temporary file ⟨0⟩, .writing 0 (byte :: left)⟩) := by
    rw [← hbytes]
    rfl
  have hwritten : Thread.step s sha256
      ⟨.write file payload digest, temporary file ⟨0⟩, .writing 0 (byte :: left)⟩
      (FileSystem.empty.create (temporary file ⟨0⟩)) (.bytes left.length) =
        some ((FileSystem.empty.create (temporary file ⟨0⟩)).append 0 (byte :: left),
          ⟨.write file payload digest, temporary file ⟨0⟩, .writing 0 []⟩) := by
    simp only [Thread.step, Thread.goto, List.take_succ_cons, List.take_length, List.drop_succ_cons,
      List.drop_length]
  have hsynced : Thread.step s sha256
      ⟨.write file payload digest, temporary file ⟨0⟩, .writing 0 []⟩
      ((FileSystem.empty.create (temporary file ⟨0⟩)).append 0 (byte :: left)) .go =
        some (((FileSystem.empty.create (temporary file ⟨0⟩)).append 0 (byte :: left)).sync 0,
          ⟨.write file payload digest, temporary file ⟨0⟩, .publishing⟩) := rfl
  refine ⟨_, Function.update_self .., Function.update_of_ne hname.symm .., ?_,
    .silent (.silent (.silent (.silent (.silent .refl
      (alone_step .go (by simp) hchecked)) hdrawn)
      (alone_step .go (by simp) hcreated)) (alone_step (.bytes _) (by simp) hwritten))
      (alone_step .go (by simp) hsynced)⟩
  rw [hbytes]
  rfl

/-- A put publishes what it has written, in either way. -/
theorem StoreWorld.alone_publishes (hdigest : sha256 payload = digest)
    (hname : temporary file ⟨0⟩ ≠ file) (hsize : payload.data.toList ≠ [])
    (hown : fs.entry (temporary file ⟨0⟩) = some 0) (hfree : fs.entry file = none)
    (hdata : (fs.file 0).data = payload.data.toList) :
    ∃ fs' : Files, fs'.entry file = some 0 ∧ (fs'.file 0).data = payload.data.toList ∧
      Runs (StoreWorld.Step s sha256 payloads)
        (.alone fs pid put ⟨.write file payload digest, temporary file ⟨0⟩, .publishing⟩ nonces) []
        (.alone fs' pid put
          ⟨.write file payload digest, temporary file ⟨0⟩, .cleaning (.ok payload)⟩ nonces) := by
  cases hlinks : s.hardLinks with
  | false =>
      -- the payload is not read back
      have hreplace : fs.replace (temporary file ⟨0⟩) file =
          (fs.point file (some 0)).point (temporary file ⟨0⟩) none := by
        rw [FileSystem.replace, hown]
        exact if_neg (by rw [hfree]; rintro ⟨⟩)
      have hpublished : Thread.step s sha256
          ⟨.write file payload digest, temporary file ⟨0⟩, .publishing⟩ fs .go =
            some (fs.replace (temporary file ⟨0⟩) file,
              ⟨.write file payload digest, temporary file ⟨0⟩, .cleaning (.ok payload)⟩) := by
        simp only [Thread.step, hlinks, Bool.false_eq_true, if_false, hown, reduceCtorEq,
          Thread.goto, FileCall.file, FileCall.payload]
      refine ⟨_, ?_, ?_, .silent .refl (alone_step .go (by simp) hpublished)⟩
      · rw [hreplace, point_entry, Function.update_of_ne hname.symm, point_entry,
          Function.update_self]
      · rw [hreplace, point_file, point_file, hdata]
  | true =>
      have hlink := link_eq hown hfree
      have hpublished : Thread.step s sha256
          ⟨.write file payload digest, temporary file ⟨0⟩, .publishing⟩ fs .go =
            some (fs.link (temporary file ⟨0⟩) file,
              ⟨.write file payload digest, temporary file ⟨0⟩, .opening .written⟩) := by
        simp only [Thread.step, hlinks, if_true, hown, reduceCtorEq, if_false, Thread.goto,
          FileCall.file]
      have hentry : (fs.link (temporary file ⟨0⟩) file).entry file = some 0 := by
        rw [hlink, point_entry, Function.update_self]
      have hdata' : ((fs.link (temporary file ⟨0⟩) file).file 0).data = payload.data.toList := by
        rw [hlink, point_file, hdata]
      have hread : Runs (StoreWorld.Step s sha256 payloads) (.alone _ pid put
          ⟨.write file payload digest, temporary file ⟨0⟩, .opening .written⟩ nonces) [] _ :=
        alone_reads rfl hentry hdata' hsize
      refine ⟨_, hentry, hdata', (Runs.silent .refl
        (alone_step .go (by simp) hpublished)).trans ?_⟩
      simpa only [Thread.finished, FileCall.digest, hdigest, if_true] using hread

/-- **An undisturbed put and get**: what was put is returned, in whichever way it is published. -/
theorem StoreWorld.undisturbed (hs : s.Lawful sha256)
    (hput : s.starts put = .ok (.write file payload digest))
    (hget : s.starts get = .ok (.read file digest)) (hsize : payload.data.toList ≠ [])
    (hputs : s.Puts payloads put) (hgets : s.Puts payloads get) :
    ∃ w : StoreWorld ρ, w.files.entry file = some 0 ∧
      (w.files.file 0).data = payload.data.toList ∧
      Runs (StoreWorld.Step s sha256 payloads) .empty [.call 0 put,
        .ret 0 (s.result put (.ok payload)), .call 1 get,
        .ret 1 (s.result get (.ok payload))] w := by
  have hdigest : sha256 payload = digest := (hs.write put file payload digest hput).symm
  have hname : temporary file ⟨0⟩ ≠ file := by
    intro heq
    exact not_final_temporary file ⟨0⟩ (heq.symm ▸ hs.final put _ hput)
  obtain ⟨fs, hown, hfree, hdata, hwrites⟩ : ∃ fs : Files, fs.entry (temporary file ⟨0⟩) = some 0 ∧
      fs.entry file = none ∧ (fs.file 0).data = payload.data.toList ∧
      Runs (StoreWorld.Step s sha256 payloads)
        (.alone .empty 0 put (.start (.write file payload digest)) []) []
        (.alone fs 0 put ⟨.write file payload digest, temporary file ⟨0⟩, .publishing⟩ [⟨0⟩]) :=
    alone_writes hname hsize
  obtain ⟨fs', hentry, hdata', hpublishes⟩ : ∃ fs' : Files, fs'.entry file = some 0 ∧
      (fs'.file 0).data = payload.data.toList ∧
      Runs (StoreWorld.Step s sha256 payloads)
        (.alone fs 0 put ⟨.write file payload digest, temporary file ⟨0⟩, .publishing⟩ [⟨0⟩]) []
        (.alone fs' 0 put
          ⟨.write file payload digest, temporary file ⟨0⟩, .cleaning (.ok payload)⟩ [⟨0⟩]) :=
    alone_publishes hdigest hname hsize hown hfree hdata
  have hcleaned : Thread.step s sha256
      ⟨.write file payload digest, temporary file ⟨0⟩, .cleaning (.ok payload)⟩ fs' .go =
        some (fs'.unlink (temporary file ⟨0⟩),
          ⟨.write file payload digest, temporary file ⟨0⟩, .done (.ok payload)⟩) := rfl
  have hkept : (fs'.unlink (temporary file ⟨0⟩)).entry file = some 0 :=
    (Function.update_of_ne hname.symm ..).trans hentry
  have hread : Runs (StoreWorld.Step s sha256 payloads)
      (.alone (fs'.unlink (temporary file ⟨0⟩)) 1 get (.start (.read file digest)) [⟨0⟩]) []
      (.alone (fs'.unlink (temporary file ⟨0⟩)) 1 get ⟨.read file digest, [], .done (.ok payload)⟩
        [⟨0⟩]) := by
    have hreads : Runs (StoreWorld.Step s sha256 payloads) (.alone _ 1 get
        (.start (.read file digest)) [⟨0⟩]) [] _ := alone_reads rfl hkept hdata' hsize
    simpa only [Thread.finished, Thread.start, FileCall.digest, hdigest, if_true] using hreads
  -- the get starts when the put has returned
  have hputRun := (((Runs.single (alone_called hput hputs)).trans hwrites).trans hpublishes).silent
    (alone_step .go (by simp) hcleaned)
  have hgetRun := (Runs.single (alone_called hget hgets)).trans hread
  exact ⟨_, hkept, hdata', (hputRun.seen (alone_returned rfl)).trans
    (hgetRun.seen (alone_returned rfl))⟩

end Alone

variable {δ : Type} {b : StoreBuiltins δ} {finite : δ → Prop}

/-- A payload whose hash `sampleBuiltins` has. -/
def Sample.payload : ByteArray := "\x7b\"a\":\"x\"\x7d".toUTF8

/-! ## The artifact store -/

namespace LocalArtifactStore

theorem parse_digest {reference : ArtifactRef} {tenantId runId : Uuid} {digest : String}
    (h : parse b reference = .ok (tenantId, runId, digest)) : digest = reference.sha256 := by
  unfold parse at h
  split at h
  · cases h
  · split at h
    · split at h
      · cases h
      · split at h
        · split at h
          · cases h
          · rename_i hsame
            cases h
            exact not_not.mp hsame
        · cases h
    · cases h

theorem lawful (hb : b.Lawful finite) : (store b).Lawful b.sha256 := by
  have hstarted : ∀ request call, (store b).starts request = .ok call → IsFinal call.file ∧
      call.file.getLastD "" = call.digest ∧ ∀ file payload digest,
        call = .write file payload digest → digest = b.sha256 payload := by
    intro request call hstarts
    cases request with
    | put tenantId runId payload =>
        simp only [store] at hstarts
        split at hstarts
        · cases hstarts
        · obtain rfl := Except.ok.inj hstarts
          refine ⟨⟨tenantId, runId, _, (hb.digits payload).2.1, rfl⟩, rfl, ?_⟩
          intro file payload' digest heq
          cases heq
          rfl
    | get tenantId reference =>
        simp only [store] at hstarts
        obtain ⟨⟨referenceTenant, runId, digest⟩, hparse, hread⟩ := bind_ok_iff.mp hstarts
        simp only at hread
        split at hread
        · obtain rfl := Except.ok.inj hread
          refine ⟨⟨referenceTenant, runId, digest, ?_, rfl⟩, rfl, fun _ _ _ heq => nomatch heq⟩
          rw [parse_digest hparse]
          exact reference.digits.2
        · cases hread
  exact ⟨fun request call h => (hstarted request call h).1,
    fun request call h => (hstarted request call h).2.1,
    fun request file payload digest h => (hstarted request _ h).2.2 file payload digest rfl⟩

/-- **The one step of a put is `put_bytes`.** -/
theorem perform_put (tenantId runId : Uuid) (payload : ByteArray) (disk : Disk) :
    ((store b).perform b.sha256 (.put tenantId runId payload)).call disk =
      (((putBytes b tenantId runId payload).call disk).1.map Value.reference,
        ((putBytes b tenantId runId payload).call disk).2) := by
  unfold Store.perform putBytes writeAtomic
  by_cases hsize : payload.size = 0
  · simp only [store, hsize, if_true, Method.call_bind, Method.call_ofExcept, Method.call_require,
      ne_eq, not_true_eq_false, if_false]
    rfl
  · simp only [store, hsize, if_false, Method.call_bind, Method.call_ofExcept, Method.call_require,
      ne_eq, not_false_eq_true, if_true, Method.call_get]
    cases hfile : disk.files (path tenantId runId (b.sha256 payload)) with
    | none =>
        simp only [Option.isSome_none, Bool.false_eq_true, if_false, Method.call_bind,
          Method.call_modify, Method.call_ofExcept]
        cases ArtifactRef.make (uri tenantId runId (b.sha256 payload)) (b.sha256 payload) <;> rfl
    | some existing =>
        simp only [Option.isSome_some, if_true, Method.call_bind, call_readBytes, hfile,
          Method.call_require, Method.call_ofExcept]
        by_cases hhash : (some existing).map b.sha256 = some (b.sha256 payload)
        · simp only [if_pos hhash]
          cases ArtifactRef.make (uri tenantId runId (b.sha256 payload)) (b.sha256 payload) <;> rfl
        · simp only [if_neg hhash]
          rfl

/-- **The one step of a get is `get_bytes`.** -/
theorem perform_get (tenantId : Uuid) (reference : ArtifactRef) (disk : Disk) :
    ((store b).perform b.sha256 (.get tenantId reference)).call disk =
      (((getBytes b tenantId reference).call disk).1.map Value.payload,
        ((getBytes b tenantId reference).call disk).2) := by
  unfold Store.perform getBytes
  simp only [store, Method.call_bind, Method.call_ofExcept]
  cases parse b reference with
  | error e => rfl
  | ok parsed =>
      simp only [ok_bind, Method.call_require]
      by_cases htenant : parsed.1 = tenantId
      · simp only [if_pos htenant, Method.call_bind, call_readBytes]
        cases disk.files (path parsed.1 parsed.2.1 parsed.2.2) with
        | none => rfl
        | some payload =>
            simp only [Method.call_bind, Method.call_require]
            by_cases hhash : b.sha256 payload = parsed.2.2
            · simp only [if_pos hhash]
              rfl
            · simp only [if_neg hhash]
              rfl
      · simp only [if_neg htenant]
        rfl

/-- A put puts its payload, and a get nothing. -/
theorem puts {payloads : Set ByteArray} {request : Request}
    (h : ∀ tenantId runId payload, request = .put tenantId runId payload → payload ∈ payloads) :
    (store b).Puts payloads request := by
  intro file payload digest hstarts
  cases request with
  | put tenantId runId put =>
      simp only [store] at hstarts
      split at hstarts
      · cases hstarts
      · obtain ⟨-, rfl, -⟩ := FileCall.write.inj (Except.ok.inj hstarts)
        exact h tenantId runId put rfl
  | get tenantId reference =>
      simp only [store] at hstarts
      obtain ⟨parsed, -, hread⟩ := bind_ok_iff.mp hstarts
      split at hread <;> cases hread

/-- **The artifact store is linearizable.** Whatever its threads do, with processes killed and the
power lost, is what methods that take one step could have done. -/
theorem artifacts_linearizable (hb : b.Lawful finite) {payloads : Set ByteArray}
    (hinj : Set.InjOn b.sha256 payloads) {trace : List (Event Request Value)}
    {w : StoreWorld Request} (h : Runs (StoreWorld.Step (store b) b.sha256 payloads) .empty trace w) :
    ∃ a, Runs (AtomicStore.Step (store b) b.sha256 payloads) .empty trace a ∧
      Shows a.disk w.files :=
  linearizable (lawful hb) hinj h

/-- An artifact is put, and read by the reference that is returned. -/
theorem artifacts_linearizable_sample :
    ∃ (reference : ArtifactRef) (w : StoreWorld Request)
      (a : AtomicStore Request Value),
      Runs (AtomicStore.Step (store sampleBuiltins) sampleBuiltins.sha256 {Sample.payload}) .empty [
        .call 0 (.put ⟨0⟩ ⟨0⟩ Sample.payload), .ret 0 (.ok (.reference reference)),
        .call 1 (.get ⟨0⟩ reference), .ret 1 (.ok (.payload Sample.payload))] a ∧
      Shows a.disk w.files := by
  obtain ⟨reference, hmake, huri, hdigest⟩ := make_uri sampleBuiltins_lawful ⟨0⟩ ⟨0⟩ Sample.payload
  have hput : (store sampleBuiltins).starts (.put ⟨0⟩ ⟨0⟩ Sample.payload) =
      .ok (.write (path ⟨0⟩ ⟨0⟩ (sampleBuiltins.sha256 Sample.payload)) Sample.payload
        (sampleBuiltins.sha256 Sample.payload)) := by
    have hsize : Sample.payload.size ≠ 0 := by decide
    simp only [store, if_neg hsize]
  have hget : (store sampleBuiltins).starts (.get ⟨0⟩ reference) =
      .ok (.read (path ⟨0⟩ ⟨0⟩ (sampleBuiltins.sha256 Sample.payload))
        (sampleBuiltins.sha256 Sample.payload)) := by
    simp only [store, parse_uri sampleBuiltins_lawful huri hdigest, ok_bind, if_true]
  obtain ⟨w, -, -, hruns⟩ := StoreWorld.undisturbed (lawful sampleBuiltins_lawful) hput hget
    (by decide) (puts fun _ _ _ heq => (Request.put.inj heq).2.2.symm)
    (puts fun _ _ _ heq => by cases heq)
  have hreturned : (store sampleBuiltins).result (.put ⟨0⟩ ⟨0⟩ Sample.payload)
      (.ok Sample.payload) = .ok (.reference reference) := by
    simp only [Store.result, store, hmake, ok_bind]
    rfl
  rw [hreturned] at hruns
  obtain ⟨a, hrun, hshows⟩ :=
    artifacts_linearizable sampleBuiltins_lawful (Set.injOn_singleton _ Sample.payload) hruns
  exact ⟨reference, w, a, hrun, hshows⟩

end LocalArtifactStore

/-! ## The store of campaign reports -/

namespace LocalCampaignReportStore

theorem isHexDigit_of_isDigest {digest : String} (h : isDigest digest = true) :
    digest.toList.all isHexDigit = true := by
  rw [isDigest, Bool.and_eq_true] at h
  rw [List.all_eq_true]
  intro c hc
  have hdigit := List.all_eq_true.mp h.2 c hc
  have hall : ∀ n < 103, ((Char.ofNat n).isDigit || ('a' ≤ Char.ofNat n && Char.ofNat n ≤ 'f')) = true →
      isHexDigit (Char.ofNat n) = true := by decide
  have hsmall : c.toNat < 103 := by
    rw [Bool.or_eq_true, Bool.and_eq_true, decide_eq_true_eq, decide_eq_true_eq] at hdigit
    rcases hdigit with hdigit | ⟨-, hle⟩
    · simp only [Char.isDigit, Bool.and_eq_true, decide_eq_true_eq] at hdigit
      exact lt_of_le_of_lt (UInt32.le_iff_toNat_le.mp hdigit.2) (by decide)
    · exact lt_of_le_of_lt (UInt32.le_iff_toNat_le.mp hle) (by decide)
  have hhex := hall c.toNat hsmall
  rw [Char.ofNat_toNat] at hhex
  exact hhex hdigit

theorem path_ok {tenantId campaignId : Uuid} {digest : String} {file : List String}
    (h : path tenantId campaignId digest = .ok file) :
    isDigest digest = true ∧ file = LocalArtifactStore.path tenantId campaignId digest := by
  unfold path at h
  split at h
  · rename_i hdigest
    exact ⟨hdigest, (Except.ok.inj h).symm⟩
  · cases h

theorem lawful : (store b).Lawful b.sha256 := by
  have hstarted : ∀ request call, (store b).starts request = .ok call → IsFinal call.file ∧
      call.file.getLastD "" = call.digest ∧ ∀ file payload digest,
        call = .write file payload digest → digest = b.sha256 payload := by
    intro request call hstarts
    cases request with
    | put tenantId campaignId payload mediaType =>
        simp only [store] at hstarts
        split at hstarts
        · cases hstarts
        · split at hstarts
          · cases hstarts
          · obtain ⟨file, hpath, hcall⟩ := bind_ok_iff.mp hstarts
            obtain ⟨hdigest, rfl⟩ := path_ok hpath
            obtain rfl := Except.ok.inj hcall
            refine ⟨⟨tenantId, campaignId, _, isHexDigit_of_isDigest hdigest, rfl⟩, rfl, ?_⟩
            intro file payload' digest heq
            cases heq
            rfl
    | get tenantId campaignId uri =>
        simp only [store] at hstarts
        obtain ⟨⟨uriTenant, uriCampaign, digest⟩, hparse, hread⟩ := bind_ok_iff.mp hstarts
        simp only at hread
        split at hread
        · cases hread
        · obtain ⟨file, hpath, hcall⟩ := bind_ok_iff.mp hread
          obtain ⟨hdigest, rfl⟩ := path_ok hpath
          obtain rfl := Except.ok.inj hcall
          exact ⟨⟨uriTenant, uriCampaign, digest, isHexDigit_of_isDigest hdigest, rfl⟩, rfl,
            fun _ _ _ heq => nomatch heq⟩
  exact ⟨fun request call h => (hstarted request call h).1,
    fun request call h => (hstarted request call h).2.1,
    fun request file payload digest h => (hstarted request _ h).2.2 file payload digest rfl⟩

/-- The codes of the errors that are not about what a file holds. -/
def otherError : Exn → Bool
  | .typed error => decide (error.code ≠ "campaign_artifact_corrupted")
  | _ => true

theorem otherError_not_corruption {e : Exn} (h : otherError e = true) :
    e ∉ (store b).corruptions := by
  intro hmem
  simp only [Store.corruptions, store, List.mem_cons, List.not_mem_nil, or_false] at hmem
  rcases hmem with rfl | rfl | rfl <;> exact absurd h (by decide)

theorem parse_error {uri : String} {e : Exn} (h : parse b uri = .error e) : otherError e = true := by
  unfold parse at h
  split at h
  · cases h; rfl
  · split at h
    · split at h
      · cases h; decide
      · split at h
        · split at h
          · cases h
          · cases h; decide
        · cases h; decide
    · cases h; decide

theorem path_error {tenantId campaignId : Uuid} {digest : String} {e : Exn}
    (h : path tenantId campaignId digest = .error e) : otherError e = true := by
  unfold path at h
  split at h
  · cases h
  · cases h
    decide

theorem guarded : (store b).Guarded where
  notFound := otherError_not_corruption (e := notFound) (by decide)
  starts request e h := by
    refine otherError_not_corruption ?_
    cases request with
    | put tenantId campaignId payload mediaType =>
        simp only [store] at h
        split at h
        · cases h; rfl
        · split at h
          · cases h; rfl
          · rcases bind_error_iff.mp h with hpath | ⟨file, -, hok⟩
            · exact path_error hpath
            · cases hok
    | get tenantId campaignId uri =>
        simp only [store] at h
        rcases bind_error_iff.mp h with hparse | ⟨parsed, -, hread⟩
        · exact parse_error hparse
        · split at hread
          · cases hread; decide
          · rcases bind_error_iff.mp hread with hpath | ⟨file, -, hok⟩
            · exact path_error hpath
            · cases hok
  returns request bytes e h := by cases request <;> cases h

/-! ### The URI of a report -/

def reportParts (tenant campaign digest : List Char) : SplitResult :=
  { uriParts tenant campaign digest with scheme := "campaign-artifact".toList }

section Uri

variable {tenantId campaignId : Uuid} {digest : String}

theorem isId_of_isDigest (h : isDigest digest = true) : IsId digest.toList := fun c hc =>
  isIdChar_of_isHexDigit (List.all_eq_true.mp (isHexDigit_of_isDigest h) c hc)

theorem ne_nil_of_isDigest (h : isDigest digest = true) : digest.toList ≠ [] := by
  intro hnil
  rw [isDigest, Bool.and_eq_true, decide_eq_true_eq, ← String.length_toList, hnil] at h
  exact absurd h.1 (by decide)

theorem clean_reportParts (h : isDigest digest = true) :
    (reportParts tenantId.str.toList campaignId.str.toList digest.toList).Clean := by
  have hclean : (uriParts tenantId.str.toList campaignId.str.toList digest.toList).Clean :=
    clean_uriParts (fun _ => isIdChar_str) (fun _ => isIdChar_str) (isId_of_isDigest h)
  have hscheme : "campaign-artifact".toList.head?.any Char.isAlpha = true ∧
      "campaign-artifact".toList.all isSchemeChar = true ∧
        "campaign-artifact".toList.map Char.toLower = "campaign-artifact".toList := by decide
  exact ⟨hscheme, hclean.netloc, hclean.path, hclean.query, hclean.fragment⟩

theorem urlunsplit_reportParts (h : isDigest digest = true) :
    (uri tenantId campaignId digest).toList =
      urlunsplit (reportParts tenantId.str.toList campaignId.str.toList digest.toList) := by
  have hmark : "campaign-artifact://".toList = "campaign-artifact".toList ++ [':', '/', '/'] := by
    decide
  have hslash : "/".toList = ['/'] := by decide
  have htext : (uri tenantId campaignId digest).toList =
      "campaign-artifact://".toList ++ tenantId.str.toList ++ "/".toList ++
        campaignId.str.toList ++ "/".toList ++ digest.toList := by
    unfold uri
    generalize "campaign-artifact://" = head, "/" = slash
    simp only [String.toList_append]
  have hpath : (reportParts tenantId.str.toList campaignId.str.toList digest.toList).path =
      '/' :: (campaignId.str.toList ++ '/' :: digest.toList) := by
    show ['/'].intercalate [[], campaignId.str.toList, digest.toList] = _
    rw [List.intercalate_cons_cons, List.intercalate_cons_cons, List.intercalate_singleton]
    simp only [List.append_assoc, List.cons_append, List.nil_append]
  have hquery : (reportParts tenantId.str.toList campaignId.str.toList digest.toList).query = [] := rfl
  rw [(clean_reportParts h).urlunsplit_eq, htext, hmark, hslash, hpath, if_pos hquery, List.append_nil]
  show _ = "campaign-artifact".toList ++ (':' :: '/' :: '/' :: (tenantId.str.toList ++ _))
  generalize "campaign-artifact".toList = scheme
  simp only [List.append_assoc, List.cons_append, List.nil_append]

/-- **A report's URI says the tenant, the campaign and the digest it was made of.** -/
theorem parse_uri (hb : b.Lawful finite) (h : isDigest digest = true) :
    parse b (uri tenantId campaignId digest) = .ok (tenantId, campaignId, digest) := by
  have hvalid : validNetloc b.checks tenantId.str.toList = true := by
    have htenant : IsId tenantId.str.toList := fun _ => isIdChar_str
    have hchecked := hb.netloc tenantId.str.toList fun c hc => toNat_lt_of_isIdChar (htenant c hc)
    have hopen : '[' ∉ tenantId.str.toList := htenant.notMem (by decide)
    have hclosed : ']' ∉ tenantId.str.toList := htenant.notMem (by decide)
    rw [validNetloc, hchecked, decide_eq_true (iff_of_false hopen hclosed), decide_eq_true hopen]
    rfl
  have hclean : (reportParts tenantId.str.toList campaignId.str.toList digest.toList).Clean :=
    clean_reportParts h
  have hsplit := hclean.urlsplit_urlunsplit b.checks
  have hnetloc : (reportParts tenantId.str.toList campaignId.str.toList
      digest.toList).netloc = tenantId.str.toList := rfl
  rw [hnetloc, if_pos hvalid, ← urlunsplit_reportParts h] at hsplit
  have hparts : ((reportParts tenantId.str.toList campaignId.str.toList
      digest.toList).path.splitOn '/').filter (· ≠ []) = [campaignId.str.toList, digest.toList] := by
    show ((uriParts tenantId.str.toList campaignId.str.toList digest.toList).path.splitOn '/').filter
      (· ≠ []) = _
    refine path_parts (fun _ => isIdChar_str) (isId_of_isDigest h) ?_ (ne_nil_of_isDigest h)
    rw [Uuid.str_toList]
    exact List.append_ne_nil_of_right_ne_nil _ (List.cons_ne_nil _ _)
  have hscheme : (reportParts tenantId.str.toList campaignId.str.toList
      digest.toList).scheme = "campaign-artifact".toList := rfl
  have hquery : (reportParts tenantId.str.toList campaignId.str.toList
      digest.toList).query = [] := rfl
  have hfragment : (reportParts tenantId.str.toList campaignId.str.toList
      digest.toList).fragment = [] := rfl
  unfold parse
  simp only [hsplit, hparts, hscheme, hquery, hfragment, hnetloc, ne_eq, not_true_eq_false,
    or_self, if_false, String.ofList_toList, Uuid.parse_str, h, if_true]

end Uri

/-- A get of the URI that a put returns asks for the file that the put has written. -/
theorem starts_get (hb : b.Lawful finite) {tenantId campaignId : Uuid} {payload : ByteArray}
    {mediaType : String} {call : FileCall}
    (hstarts : (store b).starts (.put tenantId campaignId payload mediaType) = .ok call) :
    call = .write (LocalArtifactStore.path tenantId campaignId (b.sha256 payload)) payload
        (b.sha256 payload) ∧
      (store b).starts (.get tenantId campaignId (uri tenantId campaignId (b.sha256 payload))) =
        .ok (.read call.file call.digest) := by
  simp only [store] at hstarts
  split at hstarts
  · cases hstarts
  · split at hstarts
    · cases hstarts
    · obtain ⟨file, hpath, hcall⟩ := bind_ok_iff.mp hstarts
      obtain ⟨hdigest, rfl⟩ := path_ok hpath
      obtain rfl := Except.ok.inj hcall
      refine ⟨rfl, ?_⟩
      simp only [store, parse_uri hb hdigest, ok_bind, ne_eq, not_true_eq_false, or_self, if_false,
        hpath]
      rfl

/-- A put puts its payload, and a get nothing. -/
theorem puts {payloads : Set ByteArray} {request : Request}
    (h : ∀ tenantId campaignId payload mediaType,
      request = .put tenantId campaignId payload mediaType → payload ∈ payloads) :
    (store b).Puts payloads request := by
  intro file payload digest hstarts
  cases request with
  | put tenantId campaignId put mediaType =>
      simp only [store] at hstarts
      split at hstarts
      · cases hstarts
      · split at hstarts
        · cases hstarts
        · obtain ⟨path, -, hcall⟩ := bind_ok_iff.mp hstarts
          obtain ⟨-, rfl, -⟩ := FileCall.write.inj (Except.ok.inj hcall)
          exact h tenantId campaignId put mediaType rfl
  | get tenantId campaignId uri =>
      simp only [store] at hstarts
      obtain ⟨parsed, -, hread⟩ := bind_ok_iff.mp hstarts
      split at hread
      · cases hread
      · obtain ⟨path, -, hcall⟩ := bind_ok_iff.mp hread
        cases hcall

/-! ### Reading what was put -/

/-- **Reports are never found corrupted**, and what has a final name is a payload that was put. -/
theorem reports_never_corrupted {payloads : Set ByteArray} {trace : List (Event Request Value)}
    {w : StoreWorld Request}
    (h : Runs (StoreWorld.Step (store b) b.sha256 payloads) .empty trace w) :
    (∀ pid e, Event.ret pid (.error (.raised e)) ∈ trace → e ∉ (store b).corruptions) ∧
      ∀ file, IsFinal file → ∀ payload, view w.files file = some payload →
        payload ∈ payloads ∧ file.getLastD "" = b.sha256 payload := by
  refine ⟨fun pid e hraised => nothing_corrupted lawful guarded h hraised, ?_⟩
  intro file hfile payload hview
  have hpub := (StoreWorld.inv_runs lawful h).published
  obtain ⟨i, hentry, rfl⟩ := Option.map_eq_some_iff.mp hview
  exact (hpub.whole file i hfile (hentry ▸ hpub.current file)).2.named

/-- The report is put, and read by the URI that is returned. -/
theorem sample_runs : ∃ w : StoreWorld Request,
    view w.files (LocalArtifactStore.path ⟨0⟩ ⟨0⟩ (sampleBuiltins.sha256 Sample.payload)) =
        some Sample.payload ∧
      Runs (StoreWorld.Step (store sampleBuiltins) sampleBuiltins.sha256 {Sample.payload}) .empty [
        .call 0 (.put ⟨0⟩ ⟨0⟩ Sample.payload "application/json"),
        .ret 0 (.ok (.uri (uri ⟨0⟩ ⟨0⟩ (sampleBuiltins.sha256 Sample.payload)))),
        .call 1 (.get ⟨0⟩ ⟨0⟩ (uri ⟨0⟩ ⟨0⟩ (sampleBuiltins.sha256 Sample.payload))),
        .ret 1 (.ok (.payload Sample.payload))] w := by
  have hdigest : isDigest (sampleBuiltins.sha256 Sample.payload) = true := by decide +kernel
  have hpath : path ⟨0⟩ ⟨0⟩ (sampleBuiltins.sha256 Sample.payload) =
      .ok (LocalArtifactStore.path ⟨0⟩ ⟨0⟩ (sampleBuiltins.sha256 Sample.payload)) := if_pos hdigest
  have hput : (store sampleBuiltins).starts (.put ⟨0⟩ ⟨0⟩ Sample.payload "application/json") =
      .ok (.write (LocalArtifactStore.path ⟨0⟩ ⟨0⟩ (sampleBuiltins.sha256 Sample.payload))
        Sample.payload (sampleBuiltins.sha256 Sample.payload)) := by
    have hsize : Sample.payload.size ≠ 0 := by decide
    have hmedia : "application/json" ∈ mediaTypes := by decide
    simp only [store, if_neg hsize, hmedia, not_true_eq_false, if_false, hpath, ok_bind]
  obtain ⟨w, hentry, hdata, hruns⟩ := StoreWorld.undisturbed lawful hput
    (starts_get sampleBuiltins_lawful hput).2 (by decide)
    (puts fun _ _ _ _ heq => (Request.put.inj heq).2.2.1.symm) (puts fun _ _ _ _ heq => by cases heq)
  have hreturned : (store sampleBuiltins).result
      (.put ⟨0⟩ ⟨0⟩ Sample.payload "application/json") (.ok Sample.payload) =
        .ok (.uri (uri ⟨0⟩ ⟨0⟩ (sampleBuiltins.sha256 Sample.payload))) := rfl
  have hfound : (store sampleBuiltins).result
      (.get ⟨0⟩ ⟨0⟩ (uri ⟨0⟩ ⟨0⟩ (sampleBuiltins.sha256 Sample.payload))) (.ok Sample.payload) =
        .ok (.payload Sample.payload) := rfl
  rw [hreturned, hfound] at hruns
  refine ⟨w, ?_, hruns⟩
  rw [view, hentry, Option.map_some, hdata, Array.toArray_toList]

/-- The report that was put is there under its digest. -/
theorem reports_never_corrupted_sample : ∃ w : StoreWorld Request,
    view w.files (LocalArtifactStore.path ⟨0⟩ ⟨0⟩ (sampleBuiltins.sha256 Sample.payload)) =
        some Sample.payload ∧
      ∀ file, IsFinal file → ∀ payload, view w.files file = some payload →
        payload = Sample.payload ∧ file.getLastD "" = sampleBuiltins.sha256 payload := by
  obtain ⟨w, hview, hruns⟩ := sample_runs
  exact ⟨w, hview, (reports_never_corrupted hruns).2⟩

/-- **A report whose put has returned can be read.** The put returned the URI of what it was given;
a get of this URI that is called later, while the power has been on since, returns it or raises an
`OSError`, whatever other threads do and whichever processes are killed. -/
theorem report_stays_readable (hb : b.Lawful finite) {payloads : Set ByteArray}
    (hinj : Set.InjOn b.sha256 payloads) {tenantId campaignId : Uuid} {payload : ByteArray}
    {mediaType : String} {p g : Nat} {value : Value} {result : Except Failure Value}
    {before during between reading : List (Event Request Value)}
    (hduring : ∀ e ∈ during, e.Spares p) (hbetween : .powerLoss ∉ between)
    (hreading : ∀ e ∈ reading, e.Spares g) {w : StoreWorld Request}
    (h : Runs (StoreWorld.Step (store b) b.sha256 payloads) .empty
      (before ++ .call p (.put tenantId campaignId payload mediaType) :: (during ++
        .ret p (.ok value) :: (between ++
          .call g (.get tenantId campaignId (uri tenantId campaignId (b.sha256 payload))) ::
            (reading ++ [.ret g result])))) w) :
    value = .uri (uri tenantId campaignId (b.sha256 payload)) ∧
      (result = .ok (.payload payload) ∨ result = .error .osError) := by
  obtain ⟨a, hrun, -⟩ := linearizable lawful hinj h
  obtain ⟨call, hstarts, hreturns, hresult⟩ := AtomicStore.put_readable lawful hinj
    (fun call hstarts => by
      obtain ⟨rfl, hget⟩ := starts_get hb hstarts
      exact ⟨rfl, hget⟩) hduring hbetween hreading hrun
  obtain ⟨rfl, -⟩ := starts_get hb hstarts
  exact ⟨(Except.ok.inj hreturns).symm, hresult.symm⟩

/-- A report is put, and what was returned for it is read by. -/
theorem report_stays_readable_sample : ∃ value result, ∃ w : StoreWorld Request,
    Runs (StoreWorld.Step (store sampleBuiltins) sampleBuiltins.sha256 {Sample.payload}) .empty [
      .call 0 (.put ⟨0⟩ ⟨0⟩ Sample.payload "application/json"), .ret 0 (.ok value),
      .call 1 (.get ⟨0⟩ ⟨0⟩ (uri ⟨0⟩ ⟨0⟩ (sampleBuiltins.sha256 Sample.payload))),
      .ret 1 result] w ∧
    value = .uri (uri ⟨0⟩ ⟨0⟩ (sampleBuiltins.sha256 Sample.payload)) ∧
      (result = .ok (.payload Sample.payload) ∨ result = .error .osError) := by
  obtain ⟨w, -, hruns⟩ := sample_runs
  refine ⟨_, _, w, hruns, ?_⟩
  have hparts : Runs (StoreWorld.Step (store sampleBuiltins) sampleBuiltins.sha256 {Sample.payload})
      .empty (([] : List (Event Request Value)) ++ _ :: ([] ++ _ :: ([] ++ _ :: ([] ++ [_])))) w :=
    hruns
  exact report_stays_readable sampleBuiltins_lawful (Set.injOn_singleton _ _)
    (List.forall_mem_nil _) List.not_mem_nil (List.forall_mem_nil _) hparts

end LocalCampaignReportStore

end Sana.Storage
