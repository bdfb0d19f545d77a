import BufferFabric.Types
import BufferFabric.Lib.Ring

/-!
# The event ring

The sink that records events in memory (`observation.hpp`, `observation.cpp`): it appends until its
capacity is reached, and then overwrites the oldest event. A snapshot reads from the oldest on.
-/

namespace BufferFabric

inductive EventKind where
  | poolRegistered | poolRemoved | poolResized | policyPublished | queueRegistered
  | queueRetired | allocationReserved | allocationCommitted | allocationReleased
  | allocationReclaimed | allocationFenced | allocationRevalidated | allocationExpired
  | pressureUpdated | pressureRejected | decisionRefused | epochAdvanced | recovered
  | accountingViolation | shutdownStarted | shutdownComplete | attemptConflict
  | backendEffectSkipped
  deriving DecidableEq, Inhabited

structure FabricEvent where
  kind : EventKind := .decisionRefused
  tick : Tick := 0
  epoch : EpochId := default
  sequence : UInt64 := 0
  pool : PoolId := default
  queue : QueueId := default
  allocation : AllocationId := default
  units : UInt64 := 0
  outcome : ErrorCode := .ok
  detail : String := ""
  deriving DecidableEq, Inhabited

structure RingEventSink where
  events : List FabricEvent := []
  next : ℕ := 0
  capacity : ℕ
  emitted : UInt64 := 0
  dropped : UInt64 := 0
  deriving DecidableEq

namespace RingEventSink

/-- The constructor: a capacity of 0 counts as 1. -/
def ofCapacity (capacity : ℕ) : RingEventSink := { capacity := if capacity = 0 then 1 else capacity }

def onEvent (sink : RingEventSink) (event : FabricEvent) : RingEventSink :=
  let sink := { sink with emitted := sink.emitted + 1 }
  if sink.events.length < sink.capacity then { sink with events := sink.events ++ [event] }
  else
    { sink with
      events := sink.events.set sink.next event
      next := (sink.next + 1) % sink.capacity
      dropped := sink.dropped + 1 }

def snapshot (sink : RingEventSink) : List FabricEvent :=
  if sink.events.length < sink.capacity ∨ sink.next = 0 then sink.events
  else (List.range sink.events.length).map fun i ↦
    sink.events.getD ((sink.next + i) % sink.events.length) default

def clear (sink : RingEventSink) : RingEventSink := { sink with events := [], next := 0 }

end RingEventSink

/-! ### What a sink holds -/

inductive SinkCall where
  | event (e : FabricEvent)
  | clear
  deriving DecidableEq

def RingEventSink.call (sink : RingEventSink) : SinkCall → RingEventSink
  | .event e => sink.onEvent e
  | .clear => sink.clear

def RingEventSink.after (capacity : ℕ) (calls : List SinkCall) : RingEventSink :=
  calls.foldl call (ofCapacity capacity)

/-- The events since the sink was last cleared, in the order in which they were emitted. -/
def eventsSinceClear (calls : List SinkCall) : List FabricEvent :=
  calls.foldl (fun events c ↦ match c with
    | .event e => events ++ [e]
    | .clear => []) []

namespace RingEventSink

structure Holds (sink : RingEventSink) (history : List FabricEvent) : Prop where
  capacity_pos : 0 < sink.capacity
  ring : Ring.Keeps sink.capacity sink.events sink.next history

variable {sink : RingEventSink} {history : List FabricEvent}

theorem Holds.snapshot_eq (h : sink.Holds history) :
    sink.snapshot = history.rtake sink.capacity := by
  have hring := h.ring
  unfold snapshot
  split
  · rename_i hstraight
    have hnext : sink.next = 0 := hstraight.elim hring.filling id
    have hnewest := hring.newest
    rwa [hnext, List.rotate_zero] at hnewest
  · exact (Ring.map_getD_eq_rotate _ _ _).trans hring.newest

theorem Holds.onEvent (h : sink.Holds history) (e : FabricEvent) :
    (sink.onEvent e).Holds (history ++ [e]) := by
  have hring := h.ring
  unfold RingEventSink.onEvent
  dsimp only
  split
  · rename_i hroom
    exact ⟨h.capacity_pos, hring.fill hroom e⟩
  · rename_i hroom
    have hfull : sink.events.length = sink.capacity := by
      have hlength := hring.length_eq
      omega
    exact ⟨h.capacity_pos, hring.overwrite h.capacity_pos hfull e⟩

theorem Holds.clear (h : sink.Holds history) : sink.clear.Holds [] :=
  ⟨h.capacity_pos, Ring.keeps_nil _⟩

theorem holds_ofCapacity (capacity : ℕ) : (ofCapacity capacity).Holds [] := by
  refine ⟨?_, Ring.keeps_nil _⟩
  unfold ofCapacity
  dsimp only
  split <;> omega

theorem capacity_call (sink : RingEventSink) (c : SinkCall) :
    (sink.call c).capacity = sink.capacity := by
  cases c with
  | event e =>
      unfold call onEvent
      dsimp only
      split <;> rfl
  | clear => rfl

theorem capacity_after (capacity : ℕ) (calls : List SinkCall) :
    (after capacity calls).capacity = max capacity 1 := by
  induction calls using List.reverseRecOn with
  | nil =>
      change (if capacity = 0 then 1 else capacity) = max capacity 1
      split <;> omega
  | append_singleton calls c ih =>
      unfold after at ih ⊢
      rw [List.foldl_append, List.foldl_cons, List.foldl_nil, capacity_call, ih]

theorem holds_after (capacity : ℕ) (calls : List SinkCall) :
    (after capacity calls).Holds (eventsSinceClear calls) := by
  induction calls using List.reverseRecOn with
  | nil => exact holds_ofCapacity capacity
  | append_singleton calls c ih =>
      unfold after eventsSinceClear at ih ⊢
      rw [List.foldl_append, List.foldl_append]
      cases c with
      | event e => exact ih.onEvent e
      | clear => exact ih.clear

end RingEventSink

/-- A snapshot is the newest events since the sink was made or cleared, in order: as many as there
are, up to the capacity. -/
theorem snapshot_newest (capacity : ℕ) (calls : List SinkCall) :
    (RingEventSink.after capacity calls).snapshot =
        (eventsSinceClear calls).rtake (max capacity 1) ∧
      (RingEventSink.after capacity calls).snapshot.length =
        min (eventsSinceClear calls).length (max capacity 1) := by
  have hsnapshot := (RingEventSink.holds_after capacity calls).snapshot_eq
  rw [RingEventSink.capacity_after] at hsnapshot
  rw [hsnapshot]
  exact ⟨rfl, Ring.length_rtake _ _⟩

end BufferFabric
