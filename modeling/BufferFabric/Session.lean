import BufferFabric.Recovery

/-!
# Sessions

The public operations of an open fabric as one type of calls, what a call does to the
state, and the runs a session can make. A call carries everything the environment decides:
the tick of the clock, the outcomes of the file system, and the answers of a backend.
Between calls a hash map may change its iteration order.
-/

namespace BufferFabric

open Outcome

inductive Op where
  | attachBackend (id : BackendId) (backend : BackendEntry)
  | setCapacity (resource : ResourceId) (backend : BackendId) (expectedRawUnits : UInt64)
      (expected : Generation) (answer : BackendAnswer)
  | publishPolicy (policy : PoolPolicy)
  | registerPool (registration : PoolRegistration)
  | removePool (pool : PoolId) (expected : Generation)
  | resizePool (pool : PoolId) (newRaw newProtected : UInt64) (expected : Generation)
  | registerQueue (registration : QueueRegistration)
  | updateQueueDemand (queue : QueueId) (demandUnits : UInt64) (expected : Generation)
  | retireQueue (queue : QueueId) (expected : Generation)
  | retargetQueue (queue : QueueId) (newPool : PoolId) (expected : Generation)
  | observePressure (snapshot : PressureSnapshot)
  | allocate (request : AllocateRequest)
  | commit (request : CommitRequest)
  | release (request : ReleaseRequest)
  | revalidate (request : RevalidateRequest)
  | fenceStale (pool : PoolId)
  | expireReservations (pool : PoolId)
  | applyReclaim (request : ReclaimRequest)
  | checkpoint
  | beginShutdown

inductive Reply where
  | done
  | generation (g : Generation)
  | pool (id : PoolId)
  | queue (id : QueueId)
  | resized (outcome : ResizeOutcome)
  | decision (d : Decision)
  | reclaimed (result : ReclaimResult)

def Reply.decided : Except Status Reply → Option Decision
  | .ok (.decision d) => some d
  | _ => none

theorem Reply.decided_eq_some {r : Except Status Reply} {d : Decision}
    (h : Reply.decided r = some d) : r = .ok (.decision d) := by
  unfold Reply.decided at h
  split at h
  · rw [Option.some.inj h]
  · cases h

structure Call where
  tick : Tick := 0
  io : List Io := []
  op : Op

def reply {α : Type} (wrap : α → Reply) (r : Outcome α) : Outcome Reply :=
  (r.1.map wrap, r.2)

theorem reply_error_eq {α : Type} {wrap : α → Reply} {r : Outcome α} {e : Status} :
    (reply wrap r).1 = .error e ↔ r.1 = .error e := by
  rcases r with ⟨e' | a, t⟩ <;> simp [reply, Except.map]

namespace Impl

/-- `Lock`: the clock is sampled and the call begins. -/
def enter (s : Impl) (c : Call) : Impl :=
  { s with
    tick := c.tick
    store := { s.store with io := c.io, trail := [] } }

def whenWorking {α : Type} (s : Impl) (act : Impl → Outcome α) : Outcome α :=
  match s.requireWorking with
  | .error e => (.error e, s)
  | .ok _ => act s

def run (s : Impl) : Op → Outcome Reply
  | .attachBackend id backend => reply (fun _ ↦ .done) (s.attachBackend id backend)
  | .setCapacity resource backend raw expected answer =>
      reply .generation (s.setCapacity resource backend raw expected answer)
  | .publishPolicy policy => reply .generation (s.publishPolicy policy)
  | .registerPool registration => reply .pool (s.registerPool registration)
  | .removePool pool expected => reply (fun _ ↦ .done) (s.removePool pool expected)
  | .resizePool pool raw prot expected => reply .resized (s.resizePool pool raw prot expected)
  | .registerQueue registration => reply .queue (s.registerQueue registration)
  | .updateQueueDemand queue demand expected =>
      reply .generation (s.updateQueueDemand queue demand expected)
  | .retireQueue queue expected => reply (fun _ ↦ .done) (s.retireQueue queue expected)
  | .retargetQueue queue pool expected =>
      reply (fun _ ↦ .done) (s.retargetQueue queue pool expected)
  | .observePressure snapshot => reply (fun _ ↦ .done) (s.observePressure snapshot)
  | .allocate request => reply .decision (s.allocateLocked request)
  | .commit request => reply .decision (s.commitLocked request)
  | .release request => reply .decision (s.releaseLocked request)
  | .revalidate request => reply .decision (s.revalidateLocked request)
  | .fenceStale pool => reply .decision (s.whenWorking (·.fenceStaleLocked pool))
  | .expireReservations pool => reply .decision (s.whenWorking (·.expireReservationsLocked pool))
  | .applyReclaim request => reply .reclaimed (s.whenWorking (·.applyReclaimLocked request))
  | .checkpoint => reply (fun _ ↦ .done) s.checkpoint
  | .beginShutdown => (.ok .done, { s with shuttingDown := true })

/-- One call: the clock is sampled, then the operation runs. -/
def exec (s : Impl) (c : Call) : Outcome Reply :=
  (s.enter c).run c.op

/-- The same state with other iteration orders of its hash maps. The order of a pool's own
small tables is never observed: its members are always sorted. -/
inductive Rehash (s : Impl) : Impl → Prop
  | mk {capacities policies policyNames pools poolNames queues queueNames allocations pressure
        attempts}
      (hc : s.capacities.Same capacities) (hp : s.policies.Same policies)
      (hpn : s.policyNames.Same policyNames) (ho : s.pools.Same pools)
      (hon : s.poolNames.Same poolNames) (hq : s.queues.Same queues)
      (hqn : s.queueNames.Same queueNames) (ha : s.allocations.Same allocations)
      (hr : s.pressure.Same pressure) (ht : s.attempts.Same attempts) :
      Rehash s { s with
        capacities := capacities, policies := policies, policyNames := policyNames
        pools := pools, poolNames := poolNames, queues := queues, queueNames := queueNames
        allocations := allocations, pressure := pressure, attempts := attempts }

end Impl

/-- The states a session reaches from `start` by calls that all satisfy `P` in the state
they are made in. -/
inductive SessionRun (P : Impl → Call → Prop) (start : Impl) : Impl → Prop
  | refl : SessionRun P start start
  | call {s : Impl} (c : Call) (h : SessionRun P start s) (hp : P s c) :
      SessionRun P start (s.exec c).2
  | rehash {s s' : Impl} (h : SessionRun P start s) (hr : s.Rehash s') :
      SessionRun P start s'

def AppendsOk (s : Impl) (c : Call) : Prop :=
  (s.exec c).2.store.failures = s.store.failures

instance (s : Impl) (c : Call) : Decidable (AppendsOk s c) :=
  inferInstanceAs (Decidable (_ = _))

/-- A fabric that has just been opened and holds nothing: in memory only, or over a
directory with nothing in it. -/
inductive FreshlyOpened : Impl → Prop
  | mk {config : FabricConfig} {tick : Tick} {io : List Io} {boot : Impl.BootInputs} {s : Impl}
      (h : ({ tick := tick, store := { io := io } } : Impl).openFabric config boot =
        (.ok (), s)) :
      FreshlyOpened s

end BufferFabric
