import Sana.Shared.Limiters

/-!
# The limiters bound concurrency

What could go wrong is a semaphore that is dropped from the dictionary while a
task still has it: the next task would make a second one with a full quota. Both
limiters count their users to prevent that, and a task is a user from the moment
it leaves the registry lock on its way in until it gives its reference back on
its way out, whatever it waits for in between.

So the invariant has two halves. `Accounted`: the permits of each semaphore are
free or held by a task that knows it. `Tracks`: a user has the semaphore that is
under its key now. A cancellation on the way out loses a reference, which only
makes the entry stay longer.
-/

namespace Sana

open Sana.Lib

/-! ## Hosts -/

namespace HostConcurrencyLimiter

/-- The permits a task holds. -/
def Task.held (t : Task) : List Nat :=
  match t.phase with
  | .inside semaphore => [semaphore]
  | .registering | .waiting _ | .leaving _ | .ended | .raised _ => []

/-- The semaphore a task has a reference for. -/
def Task.lease (t : Task) : Option (String × Nat) :=
  match t.phase with
  | .waiting semaphore | .inside semaphore | .leaving semaphore => some (t.host, semaphore)
  | .registering | .ended | .raised _ => none

/-- Permits are accounted for, and users have the semaphore of their host. -/
structure Sound (s : System) : Prop where
  accounted : Accounted s.limiter.heap s.tasks Task.held
  tracks : Tracks s.limiter.hosts s.limiter.heap s.limiter.limit s.tasks Task.lease

variable {s s' : System} {i : Nat} {task : Task} {l : HostConcurrencyLimiter} {phase : Phase}

/-- What a task does on its way in, between its permits and on its way out. -/
inductive Effect (l : HostConcurrencyLimiter) (task : Task) : HostConcurrencyLimiter → Phase → Prop
  | registered (h : task.phase = .registering) :
      Effect l task
        { l with
          hosts := (l.hosts.checkOut l.heap l.limit task.host).1
          heap := (l.hosts.checkOut l.heap l.limit task.host).2.1 }
        (.waiting (l.hosts.checkOut l.heap l.limit task.host).2.2)
  | took {o : Nat} {heap : Heap} (h : task.phase = .waiting o)
      (ha : l.heap.acquire o = some heap) : Effect l task { l with heap } (.inside o)
  | gaveBack {o : Nat} (h : task.phase = .inside o) :
      Effect l task { l with heap := l.heap.releaseAll [o] } (.leaving o)
  | gaveUp {o : Nat} (h : task.phase = .waiting o) : Effect l task l (.leaving o)
  | signedOff {o : Nat} {hosts : Registry String} (h : task.phase = .leaving o)
      (hr : l.hosts.checkIn task.host = some hosts) : Effect l task { l with hosts } .ended
  | gone (h : task.phase = .registering ∨ ∃ o, task.phase = .leaving o) : Effect l task l .ended
  | failed {o : Nat} (h : task.phase = .leaving o) (hr : l.hosts.checkIn task.host = none) :
      Effect l task l (.raised (.keyError task.host))

/-- **What a task can do when it runs on.** -/
theorem effect_of_run {l' : HostConcurrencyLimiter} {e : TaskEvent}
    (h : l.run task e = some (l', phase)) : Effect l task l' phase := by
  cases e with
  | resume =>
      simp only [run] at h
      split at h
      next hphase =>
        obtain ⟨rfl, rfl⟩ := Prod.mk.inj (Option.some.inj h)
        exact .registered hphase
      next o hphase =>
        simp only [Option.bind_eq_bind, Option.bind_eq_some_iff] at h
        obtain ⟨heap, ha, h⟩ := h
        obtain ⟨rfl, rfl⟩ := Prod.mk.inj (Option.some.inj h)
        exact .took hphase ha
      next o hphase =>
        obtain ⟨rfl, rfl⟩ := Prod.mk.inj (Option.some.inj h)
        exact .gaveBack hphase
      next o hphase =>
        split at h
        next hosts hr =>
          obtain ⟨rfl, rfl⟩ := Prod.mk.inj (Option.some.inj h)
          exact .signedOff hphase hr
        next hr =>
          obtain ⟨rfl, rfl⟩ := Prod.mk.inj (Option.some.inj h)
          exact .failed hphase hr
      next => cases h
      next => cases h
  | cancel =>
      simp only [run] at h
      split at h
      next hphase =>
        obtain ⟨rfl, rfl⟩ := Prod.mk.inj (Option.some.inj h)
        exact .gone (.inl hphase)
      next o hphase =>
        obtain ⟨rfl, rfl⟩ := Prod.mk.inj (Option.some.inj h)
        exact .gaveUp hphase
      next o hphase =>
        obtain ⟨rfl, rfl⟩ := Prod.mk.inj (Option.some.inj h)
        exact .gaveBack hphase
      next o hphase =>
        obtain ⟨rfl, rfl⟩ := Prod.mk.inj (Option.some.inj h)
        exact .gone (.inr ⟨o, hphase⟩)
      next => cases h
      next => cases h

theorem sound_start {limiter : HostConcurrencyLimiter} {n : Nat} (h : make n = .ok limiter) :
    Sound { limiter } ∧ limiter.limit = n := by
  obtain ⟨-, -, h⟩ := bind_ok_iff.mp h
  obtain rfl := pure_ok_iff.mp h
  refine ⟨⟨⟨?_, ?_⟩, ⟨?_, ?_, ?_, ?_⟩⟩, rfl⟩ <;> simp

/-- Every step keeps the invariant. -/
theorem Sound.step (hs : Sound s) (h : Step s s') :
    Sound s' ∧ s'.limiter.limit = s.limiter.limit := by
  cases h with
  | start host => exact ⟨⟨hs.accounted.start rfl, hs.tracks.start rfl⟩, rfl⟩
  | @run i task e l phase htask hrun =>
      cases effect_of_run hrun with
      | registered hphase =>
          have htracks := hs.tracks.checkOut (k := task.host) (y := { task with phase := .waiting _ })
            htask (by simp [Task.lease, hphase]) rfl
          exact ⟨⟨hs.accounted.checkOut.keep htask (by simp [Task.held, hphase]), htracks⟩, rfl⟩
      | took hphase ha =>
          refine ⟨⟨?_, ?_⟩, rfl⟩
          · exact hs.accounted.acquire htask (by simp [Task.held, hphase]) ha
          · refine (hs.tracks.of_heap fun k n hk => ?_).keep htask (.inl (by simp [Task.lease, hphase]))
            rwa [Heap.limitOf_acquire ha]
      | gaveBack hphase =>
          refine ⟨⟨?_, ?_⟩, rfl⟩
          · exact hs.accounted.releaseAll htask (by simp [Task.held, hphase])
          · refine (hs.tracks.of_heap fun k n hk => ?_).keep htask (.inl (by simp [Task.lease, hphase]))
            rwa [Heap.limitOf_releaseAll]
      | gaveUp hphase =>
          exact ⟨⟨hs.accounted.keep htask (by simp [Task.held, hphase]),
            hs.tracks.keep htask (.inl (by simp [Task.lease, hphase]))⟩, rfl⟩
      | signedOff hphase hr =>
          exact ⟨⟨hs.accounted.keep htask (by simp [Task.held, hphase]),
            hs.tracks.checkIn htask (by simp [uses, Task.lease, hphase]) rfl hr⟩, rfl⟩
      | gone hphase =>
          refine ⟨⟨hs.accounted.keep htask ?_, hs.tracks.keep htask (.inr rfl)⟩, rfl⟩
          obtain hphase | ⟨o, hphase⟩ := hphase <;> simp [Task.held, hphase]
      | failed hphase _ =>
          exact ⟨⟨hs.accounted.keep htask (by simp [Task.held, hphase]),
            hs.tracks.keep htask (.inr rfl)⟩, rfl⟩

/-- The tasks in the body for one host are at most the limit. -/
theorem Sound.countP_le (hs : Sound s) (host : String) :
    s.tasks.countP (fun t => t.isInside && t.host = host) ≤ s.limiter.limit := by
  refine hs.tracks.countP_le hs.accounted (k := host) fun t _ ht => ?_
  simp only [Bool.and_eq_true, decide_eq_true_eq] at ht
  obtain ⟨hinside, rfl⟩ := ht
  unfold Task.isInside at hinside
  split at hinside
  next o hphase => exact ⟨o, by simp [Task.held, hphase], by simp [Task.lease, hphase]⟩
  next => cases hinside

/-- A task that holds or waits for a semaphore has a reference for it. -/
theorem lease_of_waitsOrHolds {t : Task} {o : Nat} (h : t.waitsOrHolds o = true) :
    t.lease = some (t.host, o) := by
  unfold Task.waitsOrHolds at h
  unfold Task.lease
  split at h <;> simp_all

/-- An entry is deleted only when no task holds or waits for its semaphore. -/
theorem Sound.deleted (hs : Sound s) (h : Step s s') {host : String} {o : Nat}
    (hbefore : s.limiter.hosts.semaphores host = some o)
    (hafter : s'.limiter.hosts.semaphores host ≠ some o) :
    ∀ t ∈ s.tasks, t.waitsOrHolds o = false := by
  have hsound' := (hs.step h).1
  cases h with
  | start => exact absurd hbefore hafter
  | @run i task e l phase htask hrun =>
      cases effect_of_run hrun with
      | registered => exact absurd (Registry.semaphores_checkOut hbefore) hafter
      | took | gaveBack | gaveUp | gone | failed => exact absurd hbefore hafter
      | signedOff hphase hr =>
          have hnone := (Registry.semaphores_checkIn hr hbefore).resolve_left hafter
          intro t ht
          by_contra hwaits
          have hlease := lease_of_waitsOrHolds (Bool.not_eq_false _ ▸ hwaits)
          -- the task that signs off is past its permits
          obtain rfl := hs.tracks.eq_of_deleted hsound'.tracks htask hbefore hnone ht hlease
          simp [Task.waitsOrHolds, hphase] at hwaits

/-- The `finally` finds a reference to give back: it raises no `KeyError`. -/
theorem Sound.exists_checkIn (hs : Sound s) (htask : task ∈ s.tasks) {o : Nat}
    (hphase : task.phase = .leaving o) : ∃ hosts, s.limiter.hosts.checkIn task.host = some hosts :=
  hs.tracks.exists_checkIn htask (by simp [uses, Task.lease, hphase])

end HostConcurrencyLimiter

/-! ## Tenants, providers and the global limit -/

namespace DiscoveryConcurrency

/-- The permits a task holds. -/
def Task.held (t : Task) : List Nat :=
  match t.phase with
  | .atProvider tenant _ => [tenant]
  | .atGlobal tenant gate => [gate, tenant]
  | .inside tenant gate => [globalGate, gate, tenant]
  | .registering | .atTenant _ _ | .leaving _ | .ended | .raised _ => []

/-- The tenant's semaphore a task has a reference for. -/
def Task.lease (t : Task) : Option (Uuid × Nat) :=
  match t.phase with
  | .atTenant tenant _ | .atProvider tenant _ | .atGlobal tenant _ | .inside tenant _
  | .leaving tenant => some (t.tenantId, tenant)
  | .registering | .ended | .raised _ => none

/-- The provider's semaphore a task knows. -/
def Task.gate (t : Task) : Option Nat :=
  match t.phase with
  | .atTenant _ gate | .atProvider _ gate | .atGlobal _ gate | .inside _ gate => some gate
  | .registering | .leaving _ | .ended | .raised _ => none

/-- The semaphores under the providers have their limit, and tasks know the ones of theirs. -/
structure Gated (c : DiscoveryConcurrency) (tasks : List Task) : Prop where
  limited : ∀ p g, c.providers p = some g → c.heap.limitOf g = some c.providerLimit
  known : ∀ t ∈ tasks, ∀ g, t.gate = some g → c.providers t.provider = some g

/-- The invariant for the three limits. -/
structure Sound (globalLimit : Nat) (s : System) : Prop where
  accounted : Accounted s.gates.heap s.tasks Task.held
  tracks : Tracks s.gates.tenants s.gates.heap s.gates.tenantLimit s.tasks Task.lease
  gated : Gated s.gates s.tasks
  shared : s.gates.heap.limitOf globalGate = some globalLimit

variable {s s' : System} {i globalLimit : Nat} {task : Task} {c : DiscoveryConcurrency}
variable {phase : Phase}

/-- What a task does on its way in, between its permits and on its way out. -/
inductive Effect (c : DiscoveryConcurrency) (task : Task) : DiscoveryConcurrency → Phase → Prop
  | registered (h : task.phase = .registering) :
      Effect c task (c.semaphores task.tenantId task.provider).1
        (.atTenant (c.semaphores task.tenantId task.provider).2.1
          (c.semaphores task.tenantId task.provider).2.2)
  | took {o : Nat} {heap : Heap} {phase : Phase} (ha : c.heap.acquire o = some heap)
      (hheld : Task.held { task with phase } = o :: task.held)
      (hlease : Task.lease { task with phase } = task.lease)
      (hgate : Task.gate { task with phase } = task.gate) : Effect c task { c with heap } phase
  | gaveBack {o : Nat} {os : List Nat} (hheld : task.held = os)
      (h : task.lease = some (task.tenantId, o)) :
      Effect c task { c with heap := c.heap.releaseAll os } (.leaving o)
  | signedOff {o : Nat} {tenants : Registry Uuid} (h : task.phase = .leaving o)
      (hr : c.tenants.checkIn task.tenantId = some tenants) : Effect c task { c with tenants } .ended
  | gone {phase : Phase} (hheld : task.held = []) (h : phase = .ended ∨ ∃ e, phase = .raised e) :
      Effect c task c phase

/-- **What a task can do when it runs on.** -/
theorem effect_of_run {c' : DiscoveryConcurrency} {e : TaskEvent}
    (h : c.run task e = some (c', phase)) : Effect c task c' phase := by
  cases e with
  | resume =>
      simp only [run] at h
      split at h
      next hphase =>
        obtain ⟨rfl, rfl⟩ := Prod.mk.inj (Option.some.inj h)
        exact .registered hphase
      next tenant gate hphase =>
        simp only [Option.bind_eq_bind, Option.bind_eq_some_iff] at h
        obtain ⟨heap, ha, h⟩ := h
        obtain ⟨rfl, rfl⟩ := Prod.mk.inj (Option.some.inj h)
        exact .took ha (by simp [Task.held, hphase]) (by simp [Task.lease, hphase])
          (by simp [Task.gate, hphase])
      next tenant gate hphase =>
        simp only [Option.bind_eq_bind, Option.bind_eq_some_iff] at h
        obtain ⟨heap, ha, h⟩ := h
        obtain ⟨rfl, rfl⟩ := Prod.mk.inj (Option.some.inj h)
        exact .took ha (by simp [Task.held, hphase]) (by simp [Task.lease, hphase])
          (by simp [Task.gate, hphase])
      next tenant gate hphase =>
        simp only [Option.bind_eq_bind, Option.bind_eq_some_iff] at h
        obtain ⟨heap, ha, h⟩ := h
        obtain ⟨rfl, rfl⟩ := Prod.mk.inj (Option.some.inj h)
        exact .took ha (by simp [Task.held, hphase]) (by simp [Task.lease, hphase])
          (by simp [Task.gate, hphase])
      next tenant gate hphase =>
        obtain ⟨rfl, rfl⟩ := Prod.mk.inj (Option.some.inj h)
        exact .gaveBack (by simp [Task.held, hphase]) (by simp [Task.lease, hphase])
      next tenant hphase =>
        unfold releaseTenantReference at h
        cases hr : c.tenants.checkIn task.tenantId with
        | some tenants =>
            simp only [hr] at h
            obtain ⟨rfl, rfl⟩ := Prod.mk.inj (Option.some.inj h)
            exact .signedOff hphase hr
        | none =>
            simp only [hr] at h
            obtain ⟨rfl, rfl⟩ := Prod.mk.inj (Option.some.inj h)
            exact .gone (by simp [Task.held, hphase]) (.inr ⟨_, rfl⟩)
      next => cases h
      next => cases h
  | cancel =>
      simp only [run] at h
      split at h
      next hphase =>
        obtain ⟨rfl, rfl⟩ := Prod.mk.inj (Option.some.inj h)
        exact .gone (by simp [Task.held, hphase]) (.inl rfl)
      next tenant gate hphase =>
        obtain ⟨rfl, rfl⟩ := Prod.mk.inj (Option.some.inj h)
        show Effect c task { c with heap := c.heap.releaseAll [] } _
        exact .gaveBack (by simp [Task.held, hphase]) (by simp [Task.lease, hphase])
      next tenant gate hphase =>
        obtain ⟨rfl, rfl⟩ := Prod.mk.inj (Option.some.inj h)
        exact .gaveBack (by simp [Task.held, hphase]) (by simp [Task.lease, hphase])
      next tenant gate hphase =>
        obtain ⟨rfl, rfl⟩ := Prod.mk.inj (Option.some.inj h)
        exact .gaveBack (by simp [Task.held, hphase]) (by simp [Task.lease, hphase])
      next tenant gate hphase =>
        obtain ⟨rfl, rfl⟩ := Prod.mk.inj (Option.some.inj h)
        exact .gaveBack (by simp [Task.held, hphase]) (by simp [Task.lease, hphase])
      next tenant hphase =>
        obtain ⟨rfl, rfl⟩ := Prod.mk.inj (Option.some.inj h)
        exact .gone (by simp [Task.held, hphase]) (.inl rfl)
      next => cases h
      next => cases h

/-- The semaphore of a provider is the one under its name, and is made with the provider limit. -/
structure GateSpec (c c' : DiscoveryConcurrency) (provider : String) (gate : Nat) : Prop where
  tenants : c'.tenants = c.tenants
  tenantLimit : c'.tenantLimit = c.tenantLimit
  providerLimit : c'.providerLimit = c.providerLimit
  heap : ∀ o n, c.heap.limitOf o = some n → c'.heap.limitOf o = some n
  gate : c'.providers provider = some gate
  kept : ∀ p g, c.providers p = some g → c'.providers p = some g
  new : ∀ p g, c'.providers p = some g →
    c.providers p = some g ∨ c'.heap.limitOf g = some c.providerLimit
  accounted : ∀ tasks : List Task, Accounted c.heap tasks Task.held →
    Accounted c'.heap tasks Task.held

theorem gateSpec (c : DiscoveryConcurrency) (provider : String) :
    GateSpec c (c.providerGate provider).1 provider (c.providerGate provider).2 := by
  unfold providerGate
  cases hp : c.providers provider with
  | some gate =>
      exact ⟨rfl, rfl, rfl, fun _ _ h => h, hp, fun _ _ h => h, fun _ _ h => .inl h, fun _ h => h⟩
  | none =>
      refine ⟨rfl, rfl, rfl, fun _ _ => Heap.limitOf_make_of_some, Function.update_self .., ?_, ?_,
        fun _ h => h.make _⟩
      · intro p g hg
        have hne : p ≠ provider := by
          rintro rfl
          rw [hp] at hg
          cases hg
        show Function.update c.providers provider _ p = some g
        rw [Function.update_of_ne hne, hg]
      · intro p g hg
        by_cases hne : p = provider
        · subst hne
          have hnew : some (c.heap.make c.providerLimit).2 = some g := by simpa using hg
          obtain rfl := Option.some.inj hnew
          exact .inr Heap.limitOf_make
        · refine .inl ?_
          have hold : Function.update c.providers provider _ p = some g := hg
          rwa [Function.update_of_ne hne] at hold

/-- Gates survive whatever keeps the providers and the limits. -/
theorem Gated.of_heap (h : Gated s.gates s.tasks) (hproviders : c.providers = s.gates.providers)
    (hlimit : c.providerLimit = s.gates.providerLimit)
    (hheap : ∀ o n, s.gates.heap.limitOf o = some n → c.heap.limitOf o = some n)
    (htask : s.tasks[i]? = some task)
    (hgate : Task.gate { task with phase } = task.gate ∨ Task.gate { task with phase } = none) :
    Gated c (s.tasks.set i { task with phase }) := by
  constructor
  · intro p g hg
    rw [hproviders] at hg
    rw [hlimit]
    exact hheap g _ (h.limited p g hg)
  · intro t ht g hg
    rw [hproviders]
    obtain rfl | ht := mem_set_cases ht
    · obtain hgate | hgate := hgate
      · exact h.known task (List.mem_of_getElem? htask) g (hgate ▸ hg)
      · rw [hgate] at hg
        cases hg
    · exact h.known t ht g hg

theorem sound_start {gates : DiscoveryConcurrency} {t p : Nat}
    (h : make globalLimit t p = .ok gates) :
    Sound globalLimit { gates } ∧ gates.tenantLimit = t ∧ gates.providerLimit = p := by
  obtain ⟨-, -, h⟩ := bind_ok_iff.mp h
  obtain rfl := pure_ok_iff.mp h
  refine ⟨⟨⟨?_, ?_⟩, ⟨?_, ?_, ?_, ?_⟩, ⟨?_, ?_⟩, rfl⟩, rfl, rfl⟩
  · intro o s hs
    cases o with
    | zero =>
        obtain rfl : (⟨globalLimit, globalLimit⟩ : Semaphore) = s := by simpa using hs
        rfl
    | succ o => simp at hs
  all_goals simp

/-- `_semaphores` counts the tenant's user, then looks up the provider. -/
theorem semaphores_eq (c : DiscoveryConcurrency) (tenantId : Uuid) (provider : String) :
    c.semaphores tenantId provider =
      ((providerGate { c with
          tenants := (c.tenants.checkOut c.heap c.tenantLimit tenantId).1
          heap := (c.tenants.checkOut c.heap c.tenantLimit tenantId).2.1 } provider).1,
        (c.tenants.checkOut c.heap c.tenantLimit tenantId).2.2,
        (providerGate { c with
          tenants := (c.tenants.checkOut c.heap c.tenantLimit tenantId).1
          heap := (c.tenants.checkOut c.heap c.tenantLimit tenantId).2.1 } provider).2) := rfl

/-- The step that registers a task keeps the invariant. -/
theorem Sound.registered (hs : Sound globalLimit s) (htask : s.tasks[i]? = some task)
    (hphase : task.phase = .registering) :
    Sound globalLimit
      { gates := (s.gates.semaphores task.tenantId task.provider).1
        tasks := s.tasks.set i { task with
          phase := .atTenant (s.gates.semaphores task.tenantId task.provider).2.1
            (s.gates.semaphores task.tenantId task.provider).2.2 } } := by
  have hfree : task.held = [] ∧ task.lease = none := by
    simp [Task.held, Task.lease, hphase]
  rw [semaphores_eq]
  have hspec := gateSpec { s.gates with
    tenants := (s.gates.tenants.checkOut s.gates.heap s.gates.tenantLimit task.tenantId).1
    heap := (s.gates.tenants.checkOut s.gates.heap s.gates.tenantLimit task.tenantId).2.1 }
    task.provider
  refine ⟨?_, ?_, ⟨?_, ?_⟩, ?_⟩
  · exact (hspec.accounted _ hs.accounted.checkOut).keep htask hfree.1.symm
  · rw [hspec.tenants, hspec.tenantLimit]
    exact (hs.tracks.checkOut htask hfree.2 rfl).of_heap hspec.heap
  · intro p g hg
    rw [hspec.providerLimit]
    obtain hold | hnew := hspec.new p g hg
    · exact hspec.heap g _ (Registry.limitOf_checkOut (hs.gated.limited p g hold))
    · exact hnew
  · intro t ht g hg
    obtain rfl | ht := mem_set_cases ht
    · obtain rfl := Option.some.inj hg
      exact hspec.gate
    · exact hspec.kept _ g (hs.gated.known t ht g hg)
  · exact hspec.heap _ _ (Registry.limitOf_checkOut hs.shared)

/-- Every step keeps the invariant. -/
theorem Sound.step (hs : Sound globalLimit s) (h : Step s s') : Sound globalLimit s' := by
  cases h with
  | start tenantId provider =>
      refine ⟨hs.accounted.start rfl, hs.tracks.start rfl, ⟨hs.gated.limited, ?_⟩, hs.shared⟩
      intro t ht g hg
      obtain ht | ht := List.mem_append.mp ht
      · exact hs.gated.known t ht g hg
      · obtain rfl := List.mem_singleton.mp ht
        cases hg
  | @run i task e c phase htask hrun =>
      cases effect_of_run hrun with
      | registered hphase => exact hs.registered htask hphase
      | @took o heap phase ha hheld hlease hgate =>
          have hheap : ∀ o n, s.gates.heap.limitOf o = some n → heap.limitOf o = some n :=
            fun o n ho => by rwa [Heap.limitOf_acquire ha]
          exact ⟨hs.accounted.acquire htask hheld ha,
            (hs.tracks.of_heap hheap).keep htask (.inl hlease),
            hs.gated.of_heap rfl rfl hheap htask (.inl hgate), hheap _ _ hs.shared⟩
      | @gaveBack o os hheld hlease =>
          have hheap : ∀ o n, s.gates.heap.limitOf o = some n →
              (s.gates.heap.releaseAll os).limitOf o = some n :=
            fun o n ho => by rwa [Heap.limitOf_releaseAll]
          exact ⟨hs.accounted.releaseAll htask (hheld.trans (List.append_nil os).symm),
            (hs.tracks.of_heap hheap).keep htask (.inl hlease.symm),
            hs.gated.of_heap rfl rfl hheap htask (.inr rfl), hheap _ _ hs.shared⟩
      | signedOff hphase hr =>
          exact ⟨hs.accounted.keep htask (by simp [Task.held, hphase]),
            hs.tracks.checkIn htask (by simp [uses, Task.lease, hphase]) rfl hr,
            hs.gated.of_heap rfl rfl (fun _ _ h => h) htask (.inr rfl), hs.shared⟩
      | gone hheld hphase =>
          have hgone : Task.held { task with phase } = [] ∧ Task.lease { task with phase } = none
              ∧ Task.gate { task with phase } = none := by
            obtain rfl | ⟨e, rfl⟩ := hphase <;> exact ⟨rfl, rfl, rfl⟩
          exact ⟨hs.accounted.keep htask (hgone.1.trans hheld.symm),
            hs.tracks.keep htask (.inr hgone.2.1),
            hs.gated.of_heap rfl rfl (fun _ _ h => h) htask (.inr hgone.2.2), hs.shared⟩

/-- The limits are those the limiter was made with. -/
theorem limits_step (h : Step s s') : s'.gates.tenantLimit = s.gates.tenantLimit
    ∧ s'.gates.providerLimit = s.gates.providerLimit := by
  cases h with
  | start => exact ⟨rfl, rfl⟩
  | @run i task e c phase htask hrun =>
      cases effect_of_run hrun with
      | registered =>
          rw [semaphores_eq]
          have hspec := gateSpec { s.gates with
            tenants := (s.gates.tenants.checkOut s.gates.heap s.gates.tenantLimit task.tenantId).1
            heap := (s.gates.tenants.checkOut s.gates.heap s.gates.tenantLimit task.tenantId).2.1 }
            task.provider
          exact ⟨hspec.tenantLimit, hspec.providerLimit⟩
      | took | gaveBack | signedOff | gone => exact ⟨rfl, rfl⟩

/-- What the phase of a task in the body says it holds. -/
theorem inside_cases {t : Task} (h : t.isInside = true) :
    ∃ tenant gate, t.held = [globalGate, gate, tenant] ∧ t.lease = some (t.tenantId, tenant)
      ∧ t.gate = some gate := by
  unfold Task.isInside at h
  split at h
  next tenant gate hphase =>
    exact ⟨tenant, gate, by simp [Task.held, hphase], by simp [Task.lease, hphase],
      by simp [Task.gate, hphase]⟩
  next => cases h

/-- The tasks in the body are at most the global limit. -/
theorem Sound.countP_le (hs : Sound globalLimit s) : s.tasks.countP Task.isInside ≤ globalLimit := by
  refine hs.accounted.countP_le hs.shared fun t _ ht => ?_
  obtain ⟨tenant, gate, hheld, -, -⟩ := inside_cases ht
  simp [hheld]

/-- The tasks of one tenant in the body are at most the tenant limit. -/
theorem Sound.countP_tenant_le (hs : Sound globalLimit s) (tenantId : Uuid) :
    s.tasks.countP (fun t => t.isInside && t.tenantId = tenantId) ≤ s.gates.tenantLimit := by
  refine hs.tracks.countP_le hs.accounted (k := tenantId) fun t _ ht => ?_
  simp only [Bool.and_eq_true, decide_eq_true_eq] at ht
  obtain ⟨hinside, rfl⟩ := ht
  obtain ⟨tenant, gate, hheld, hlease, -⟩ := inside_cases hinside
  exact ⟨tenant, by simp [hheld], hlease⟩

/-- The tasks of one provider in the body are at most the provider limit. -/
theorem Sound.countP_provider_le (hs : Sound globalLimit s) (provider : String) :
    s.tasks.countP (fun t => t.isInside && t.provider = provider) ≤ s.gates.providerLimit := by
  by_cases hgate : ∃ g, s.gates.providers provider = some g
  · obtain ⟨g, hg⟩ := hgate
    refine hs.accounted.countP_le (hs.gated.limited provider g hg) fun t ht hin => ?_
    simp only [Bool.and_eq_true, decide_eq_true_eq] at hin
    obtain ⟨hinside, rfl⟩ := hin
    obtain ⟨tenant, gate, hheld, -, hknown⟩ := inside_cases hinside
    obtain rfl : g = gate := Option.some.inj (hg.symm.trans (hs.gated.known t ht gate hknown))
    simp [hheld]
  · have hzero : s.tasks.countP (fun t => t.isInside && t.provider = provider) = 0 := by
      refine List.countP_eq_zero.mpr fun t ht hin => ?_
      simp only [Bool.and_eq_true, decide_eq_true_eq] at hin
      obtain ⟨hinside, rfl⟩ := hin
      obtain ⟨tenant, gate, -, -, hknown⟩ := inside_cases hinside
      exact hgate ⟨gate, hs.gated.known t ht gate hknown⟩
    omega

/-- A task that holds or waits for a semaphore has a reference for it. -/
theorem lease_of_waitsOrHolds {t : Task} {o : Nat} (h : t.waitsOrHolds o = true) :
    t.lease = some (t.tenantId, o) := by
  unfold Task.waitsOrHolds at h
  unfold Task.lease
  split at h <;> simp_all

/-- An entry is deleted only when no task holds or waits for its semaphore. -/
theorem Sound.deleted (hs : Sound globalLimit s) (h : Step s s') {tenantId : Uuid} {o : Nat}
    (hbefore : s.gates.tenants.semaphores tenantId = some o)
    (hafter : s'.gates.tenants.semaphores tenantId ≠ some o) :
    ∀ t ∈ s.tasks, t.waitsOrHolds o = false := by
  have hlimits := limits_step h
  have hsound' := hs.step h
  cases h with
  | start => exact absurd hbefore hafter
  | @run i task e c phase htask hrun =>
      cases effect_of_run hrun with
      | registered =>
          rw [semaphores_eq] at hafter
          simp only [(gateSpec _ task.provider).tenants] at hafter
          exact absurd (Registry.semaphores_checkOut hbefore) hafter
      | took | gaveBack | gone => exact absurd hbefore hafter
      | signedOff hphase hr =>
          have hnone := (Registry.semaphores_checkIn hr hbefore).resolve_left hafter
          intro t ht
          by_contra hwaits
          have hlease := lease_of_waitsOrHolds (Bool.not_eq_false _ ▸ hwaits)
          -- the task that signs off is past its permits
          obtain rfl := hs.tracks.eq_of_deleted hsound'.tracks htask hbefore hnone ht hlease
          simp [Task.waitsOrHolds, hphase] at hwaits

/-- The `finally` finds a reference to give back: it raises no `KeyError`. -/
theorem Sound.releaseTenantReference_ok (hs : Sound globalLimit s) (htask : task ∈ s.tasks)
    {o : Nat} (hphase : task.phase = .leaving o) :
    ∃ c, s.gates.releaseTenantReference task.tenantId = .ok c := by
  obtain ⟨tenants, hr⟩ := hs.tracks.exists_checkIn (k := task.tenantId) htask
    (by simp [uses, Task.lease, hphase])
  refine ⟨{ s.gates with tenants }, ?_⟩
  simp only [releaseTenantReference, hr]

end DiscoveryConcurrency

/-! ## The limits -/

/-- What is asked of `DiscoveryConcurrency` in a state. -/
structure DiscoveryBounded (globalLimit tenantLimit providerLimit : Nat)
    (s : DiscoveryConcurrency.System) : Prop where
  all : s.tasks.countP (·.isInside) ≤ globalLimit
  tenant : ∀ tenantId,
    s.tasks.countP (fun t => t.isInside && t.tenantId = tenantId) ≤ tenantLimit
  provider : ∀ provider,
    s.tasks.countP (fun t => t.isInside && t.provider = provider) ≤ providerLimit
  /-- An entry goes away only when nobody holds or waits for its semaphore. -/
  deleted : ∀ s', DiscoveryConcurrency.Step s s' → ∀ tenantId o,
    s.gates.tenants.semaphores tenantId = some o →
    s'.gates.tenants.semaphores tenantId ≠ some o → ∀ t ∈ s.tasks, t.waitsOrHolds o = false

/-- What is asked of `HostConcurrencyLimiter` in a state. -/
structure HostBounded (limit : Nat) (s : HostConcurrencyLimiter.System) : Prop where
  host : ∀ host, s.tasks.countP (fun t => t.isInside && t.host = host) ≤ limit
  deleted : ∀ s', HostConcurrencyLimiter.Step s s' → ∀ host o,
    s.limiter.hosts.semaphores host = some o →
    s'.limiter.hosts.semaphores host ≠ some o → ∀ t ∈ s.tasks, t.waitsOrHolds o = false

/--
**The limiters bound concurrency**, from any limits they can be made with and in
every state their tasks can reach, cancellations included.
-/
theorem limiters_bound_concurrency :
    (∀ globalLimit tenantLimit providerLimit gates,
      DiscoveryConcurrency.make globalLimit tenantLimit providerLimit = .ok gates →
      ∀ s, Reachable (· = { gates }) DiscoveryConcurrency.Step s →
        DiscoveryBounded globalLimit tenantLimit providerLimit s)
    ∧ ∀ perHostLimit limiter, HostConcurrencyLimiter.make perHostLimit = .ok limiter →
      ∀ s, Reachable (· = { limiter }) HostConcurrencyLimiter.Step s →
        HostBounded perHostLimit s := by
  constructor
  · intro globalLimit tenantLimit providerLimit gates hmake s hreach
    obtain ⟨hstart, htenant, hprovider⟩ := DiscoveryConcurrency.sound_start hmake
    have hinv : DiscoveryConcurrency.Sound globalLimit s ∧ s.gates.tenantLimit = tenantLimit
        ∧ s.gates.providerLimit = providerLimit := by
      refine hreach.invariant (P := fun s => DiscoveryConcurrency.Sound globalLimit s
        ∧ s.gates.tenantLimit = tenantLimit ∧ s.gates.providerLimit = providerLimit) ?_ ?_
      · rintro s rfl
        exact ⟨hstart, htenant, hprovider⟩
      · rintro s s' ⟨hs, ht, hp⟩ hstep
        have hlimits := DiscoveryConcurrency.limits_step hstep
        exact ⟨hs.step hstep, hlimits.1.trans ht, hlimits.2.trans hp⟩
    obtain ⟨hsound, rfl, rfl⟩ := hinv
    exact {
      all := hsound.countP_le
      tenant := hsound.countP_tenant_le
      provider := hsound.countP_provider_le
      deleted := fun s' hstep _ _ hbefore hafter => hsound.deleted hstep hbefore hafter }
  · intro perHostLimit limiter hmake s hreach
    obtain ⟨hstart, hlimit⟩ := HostConcurrencyLimiter.sound_start hmake
    have hinv : HostConcurrencyLimiter.Sound s ∧ s.limiter.limit = perHostLimit := by
      refine hreach.invariant (P := fun s => HostConcurrencyLimiter.Sound s
        ∧ s.limiter.limit = perHostLimit) ?_ ?_
      · rintro s rfl
        exact ⟨hstart, hlimit⟩
      · rintro s s' ⟨hs, hl⟩ hstep
        have hnext := hs.step hstep
        exact ⟨hnext.1, hnext.2.trans hl⟩
    obtain ⟨hsound, rfl⟩ := hinv
    exact {
      host := hsound.countP_le
      deleted := fun s' hstep _ _ hbefore hafter => hsound.deleted hstep hbefore hafter }

/--
A task of the one tenant is in the body and a second one waits for the tenant's
semaphore; a task is in the body for a host.
-/
theorem limiters_bound_concurrency_two :
    (∃ s : DiscoveryConcurrency.System, s.tasks.length = 2 ∧ s.tasks.countP (·.isInside) = 1
      ∧ DiscoveryBounded 2 1 2 s)
    ∧ ∃ s : HostConcurrencyLimiter.System, s.tasks.countP (·.isInside) = 1 ∧ HostBounded 1 s := by
  refine ⟨⟨_, ?_, ?_, limiters_bound_concurrency.1 2 1 2 _ rfl _
    (.tail (.tail (.tail (.tail (.tail (.tail (.tail (.init rfl) (.start ⟨0⟩ "web"))
      (.start ⟨0⟩ "direct"))
      -- the first task registers and takes its three permits; the second one registers
      (.run (i := 0) (e := .resume) rfl rfl)) (.run (i := 1) (e := .resume) rfl rfl))
      (.run (i := 0) (e := .resume) rfl rfl)) (.run (i := 0) (e := .resume) rfl rfl))
      (.run (i := 0) (e := .resume) rfl rfl))⟩, ⟨_, ?_, limiters_bound_concurrency.2 1 _ rfl _
    (.tail (.tail (.tail (.init rfl) (.start "example.org"))
      (.run (i := 0) (e := .resume) rfl rfl)) (.run (i := 0) (e := .resume) rfl rfl))⟩⟩
  · rfl
  · rfl
  · rfl

end Sana
