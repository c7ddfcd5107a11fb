import Sana.Lib.Tasks
import Sana.Shared.Basic

/-!
# The reference-counted concurrency limiters

`DiscoveryConcurrency.acquire` takes a permit of the tenant, then one of the
provider, then a global one. `HostConcurrencyLimiter.acquire` takes one of the
host. Both keep the semaphores of tenants and hosts only while somebody uses
them, and change the dictionaries under a lock.

A task runs without interruption between awaits, and the blocks under the lock
have no await in them: taking the lock, the block and giving the lock back are
one step. A task is the await it is suspended in, with its local variables.
`cancel` raises `CancelledError` there; the permits it holds are then given back
by the `async with` blocks it leaves, which do not await.
-/

namespace Sana

open Sana.Lib

/-- What makes a task run on: its await is over, or it is cancelled there. -/
inductive TaskEvent
  | resume | cancel
deriving DecidableEq, Repr

/-! ## `DiscoveryConcurrency` -/

/-- `DiscoveryConcurrency`. `heap` holds the semaphores it has made. -/
structure DiscoveryConcurrency where
  tenantLimit : Nat
  providerLimit : Nat
  heap : Heap
  /-- `_tenants` and `_tenant_references`. -/
  tenants : Registry Uuid := {}
  /-- `_providers`. -/
  providers : String → Option Nat := fun _ => none

namespace DiscoveryConcurrency

/-- `_global`, the first semaphore that is made. -/
def globalGate : Nat := 0

/-- The constructor of `DiscoveryConcurrency`. -/
def make (globalLimit tenantLimit providerLimit : Nat) : Except Exn DiscoveryConcurrency := do
  check (1 ≤ min globalLimit (min tenantLimit providerLimit))
    (.valueError "Discovery concurrency limits must be positive")
  return { tenantLimit, providerLimit, heap := [⟨globalLimit, globalLimit⟩] }

/-- `self._providers.setdefault(provider, asyncio.Semaphore(self._provider_limit))`. -/
def providerGate (c : DiscoveryConcurrency) (provider : String) : DiscoveryConcurrency × Nat :=
  match c.providers provider with
  | some gate => (c, gate)
  | none =>
      let (heap, gate) := c.heap.make c.providerLimit
      ({ c with heap, providers := Function.update c.providers provider (some gate) }, gate)

/-- `_semaphores`, under the registry lock. -/
def semaphores (c : DiscoveryConcurrency) (tenantId : Uuid) (provider : String) :
    DiscoveryConcurrency × Nat × Nat :=
  let (tenants, heap, tenant) := c.tenants.checkOut c.heap c.tenantLimit tenantId
  let (c, gate) := { c with tenants, heap }.providerGate provider
  (c, tenant, gate)

/-- `_release_tenant_reference`, under the registry lock. -/
def releaseTenantReference (c : DiscoveryConcurrency) (tenantId : Uuid) :
    Except Exn DiscoveryConcurrency :=
  match c.tenants.checkIn tenantId with
  | some tenants => .ok { c with tenants }
  | none => .error (.keyError tenantId.str)

/-- Where a task is in `acquire`, with the local variables `tenant` and `provider_gate`. -/
inductive Phase
  /-- At the registry lock, on the way in. -/
  | registering
  | atTenant (tenant gate : Nat)
  | atProvider (tenant gate : Nat)
  | atGlobal (tenant gate : Nat)
  /-- In the body of the `async with`. -/
  | inside (tenant gate : Nat)
  /-- At the registry lock, in the `finally`. -/
  | leaving (tenant : Nat)
  | ended
  | raised (e : Exn)
deriving DecidableEq, Repr

/-- A task in `acquire(tenant_id, provider)`. -/
structure Task where
  tenantId : Uuid
  provider : String
  phase : Phase := .registering
deriving DecidableEq, Repr

/-- The limiter and the tasks that use it. -/
structure System where
  gates : DiscoveryConcurrency
  tasks : List Task := []

/-- The limiter after an event, and where the task is then. -/
def run (c : DiscoveryConcurrency) (task : Task) :
    TaskEvent → Option (DiscoveryConcurrency × Phase)
  | .resume =>
      match task.phase with
      | .registering =>
          let (c, tenant, gate) := c.semaphores task.tenantId task.provider
          some (c, .atTenant tenant gate)
      | .atTenant tenant gate => do
          let heap ← c.heap.acquire tenant
          some ({ c with heap }, .atProvider tenant gate)
      | .atProvider tenant gate => do
          let heap ← c.heap.acquire gate
          some ({ c with heap }, .atGlobal tenant gate)
      | .atGlobal tenant gate => do
          let heap ← c.heap.acquire globalGate
          some ({ c with heap }, .inside tenant gate)
      | .inside tenant gate =>
          some ({ c with heap := c.heap.releaseAll [globalGate, gate, tenant] }, .leaving tenant)
      | .leaving _ =>
          match c.releaseTenantReference task.tenantId with
          | .ok c => some (c, .ended)
          | .error e => some (c, .raised e)
      | .ended | .raised _ => none
  | .cancel =>
      match task.phase with
      | .registering => some (c, .ended)
      | .atTenant tenant _ => some (c, .leaving tenant)
      | .atProvider tenant _ =>
          some ({ c with heap := c.heap.releaseAll [tenant] }, .leaving tenant)
      | .atGlobal tenant gate =>
          some ({ c with heap := c.heap.releaseAll [gate, tenant] }, .leaving tenant)
      | .inside tenant gate =>
          some ({ c with heap := c.heap.releaseAll [globalGate, gate, tenant] }, .leaving tenant)
      -- the reference is not given back
      | .leaving _ => some (c, .ended)
      | .ended | .raised _ => none

/-- One task starts or runs on. -/
inductive Step (s : System) : System → Prop
  | start (tenantId : Uuid) (provider : String) :
      Step s { s with tasks := s.tasks ++ [{ tenantId, provider }] }
  | run {i : Nat} {task : Task} {e : TaskEvent} {c : DiscoveryConcurrency} {phase : Phase}
      (htask : s.tasks[i]? = some task) (hrun : s.gates.run task e = some (c, phase)) :
      Step s { gates := c, tasks := s.tasks.set i { task with phase } }

/-- The body of the `async with` is running. -/
def Task.isInside (t : Task) : Bool :=
  match t.phase with
  | .inside _ _ => true
  | _ => false

/-- The task holds or waits for the semaphore of its tenant. -/
def Task.waitsOrHolds (t : Task) (o : Nat) : Bool :=
  match t.phase with
  | .atTenant tenant _ | .atProvider tenant _ | .atGlobal tenant _ | .inside tenant _ => tenant = o
  | .registering | .leaving _ | .ended | .raised _ => false

end DiscoveryConcurrency

/-! ## `HostConcurrencyLimiter` -/

/-- `HostConcurrencyLimiter`. -/
structure HostConcurrencyLimiter where
  limit : Nat
  heap : Heap := []
  /-- `_semaphores` and `_references`. -/
  hosts : Registry String := {}

namespace HostConcurrencyLimiter

/-- The constructor of `HostConcurrencyLimiter`. -/
def make (perHostLimit : Nat) : Except Exn HostConcurrencyLimiter := do
  check (1 ≤ perHostLimit) (.valueError "Host concurrency limit must be positive")
  return { limit := perHostLimit }

/-- Where a task is in `acquire`, with the local variable `semaphore`. -/
inductive Phase
  | registering
  | waiting (semaphore : Nat)
  | inside (semaphore : Nat)
  | leaving (semaphore : Nat)
  | ended
  | raised (e : Exn)
deriving DecidableEq, Repr

/-- A task in `acquire(host)`. -/
structure Task where
  host : String
  phase : Phase := .registering
deriving DecidableEq, Repr

/-- The limiter and the tasks that use it. -/
structure System where
  limiter : HostConcurrencyLimiter
  tasks : List Task := []

/-- The limiter after an event, and where the task is then. -/
def run (l : HostConcurrencyLimiter) (task : Task) :
    TaskEvent → Option (HostConcurrencyLimiter × Phase)
  | .resume =>
      match task.phase with
      | .registering =>
          let (hosts, heap, semaphore) := l.hosts.checkOut l.heap l.limit task.host
          some ({ l with hosts, heap }, .waiting semaphore)
      | .waiting semaphore => do
          let heap ← l.heap.acquire semaphore
          some ({ l with heap }, .inside semaphore)
      | .inside semaphore =>
          some ({ l with heap := l.heap.releaseAll [semaphore] }, .leaving semaphore)
      | .leaving _ =>
          match l.hosts.checkIn task.host with
          | some hosts => some ({ l with hosts }, .ended)
          | none => some (l, .raised (.keyError task.host))
      | .ended | .raised _ => none
  | .cancel =>
      match task.phase with
      | .registering => some (l, .ended)
      | .waiting semaphore => some (l, .leaving semaphore)
      | .inside semaphore =>
          some ({ l with heap := l.heap.releaseAll [semaphore] }, .leaving semaphore)
      -- the reference is not given back
      | .leaving _ => some (l, .ended)
      | .ended | .raised _ => none

/-- One task starts or runs on. -/
inductive Step (s : System) : System → Prop
  | start (host : String) : Step s { s with tasks := s.tasks ++ [{ host }] }
  | run {i : Nat} {task : Task} {e : TaskEvent} {l : HostConcurrencyLimiter} {phase : Phase}
      (htask : s.tasks[i]? = some task) (hrun : s.limiter.run task e = some (l, phase)) :
      Step s { limiter := l, tasks := s.tasks.set i { task with phase } }

/-- The body of the `async with` is running. -/
def Task.isInside (t : Task) : Bool :=
  match t.phase with
  | .inside _ => true
  | _ => false

/-- The task holds or waits for the semaphore of its host. -/
def Task.waitsOrHolds (t : Task) (o : Nat) : Bool :=
  match t.phase with
  | .waiting semaphore | .inside semaphore => semaphore = o
  | .registering | .leaving _ | .ended | .raised _ => false

end HostConcurrencyLimiter

end Sana
