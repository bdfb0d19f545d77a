import BufferFabric.Capacities
import BufferFabric.Evidence
import BufferFabric.Generations
import BufferFabric.Lib.Mutex

/-!
# What runs under the lock

The steps every public function makes: it samples the clock, takes the mutex of the fabric and
gives it back, and calls backends and the event sink. The rule of `fabric_impl.hpp` is that
nothing supplied by a caller runs while the mutex is held.
-/

namespace BufferFabric

open Outcome LockStep

inductive Callee where
  | clock | backend | sink
  deriving DecidableEq

/-- The functions that take the lock, read or set something, and return. -/
inductive Query where
  | isOpen | epoch | bootIncarnation | recoveryReport | shuttingDown | backendCount | policy
  | poolGenerationStatus | pressure | evaluate | planReclaim | explain | summary | ledger
  | poolViews | poolView | allocation | allocations | decisionHistory | attemptHistory
  | statistics | metrics | validateAccounting | accountingText | setClock

inductive Entry where
  | openFabric (config : FabricConfig) (boot : Impl.BootInputs)
  | closeFabric
  | call (c : Call)
  | query (q : Query)
  | setEventSink
  | destroy

/-- What else decides the steps of a function: whether a sink is installed, how many events the
function publishes after it gave the lock back (none when it returns before), and the fabric
a function finds when it takes the lock again. -/
structure Surroundings where
  sink : Bool := false
  events : ℕ := 0
  later : Impl := {}

/-! ### The steps -/

/-- `Lock`: the clock is sampled before the mutex is taken. -/
def takeLock (inside : List Callee) : List (LockStep Callee) := .outside .clock :: locked inside

/-- `Impl::publish` calls the installed sink for every event. -/
def sinkCalls (sink : Bool) (events : ℕ) : List Callee :=
  if sink then List.replicate events .sink else []

namespace Impl

/-- The epoch `open` would follow, and the state it would begin it in, where it gets that far. -/
def durableEpoch (s : Impl) (config : FabricConfig) : Except Status (EpochId × Impl) :=
  match (do
      require (s.isOpen = false) ⟨.lifecycleViolation, "fabric is already open"⟩
      FabricConfig.check config : Except Status Unit) with
  | .error e => .error e
  | .ok _ =>
    match { s with config := config }.openDurable config with
    | (.error e, _) => .error e
    | (.ok durable, t) =>
      if AddOverflow durable.raw 1 ∨ durable.raw + 1 = 0 then
        .error ⟨.epochRegression, "the fabric epoch is exhausted"⟩
      else .ok (durable, t)

/-- `open` samples the clock twice for the boot incarnation, inside the locked block. -/
def openSteps (s : Impl) (config : FabricConfig) (boot : BootInputs) (w : Surroundings) :
    List (LockStep Callee) :=
  match s.durableEpoch config with
  | .error _ => takeLock []
  | .ok (durable, t) =>
    takeLock [.clock, .clock] ++
      match (t.beginEpoch config boot durable).1 with
      | .error _ => []
      | .ok _ => calls (sinkCalls w.sink 2)

/-- `set_capacity`. -/
def setCapacitySteps (s : Impl) (resource : ResourceId) (backend : BackendId)
    (answer : BackendAnswer) (w : Surroundings) : List (LockStep Callee) :=
  let publication := takeLock [] ++ calls (sinkCalls w.sink w.events)
  if ¬resource.Valid ∨ ¬backend.Valid then []
  else
    takeLock [] ++
      match s.findBackend resource backend with
      | .error _ => []
      | .ok _ =>
        if ¬answer.ready then calls [.backend]
        else
          calls [.backend, .backend] ++
            match (do
                let authority ← answer.capacity
                require authority.Usable ⟨.evidenceUnknown, "backend did not supply an authoritative capacity for this resource"⟩ :
                Except Status Unit) with
            | .error _ => []
            | .ok _ =>
              takeLock [] ++
                if w.later.config.programBackendEffects then
                  calls [.backend] ++
                    match answer.effect with
                    | .ok _ => publication
                    | .error e => if e.code = .unsupported then takeLock [] ++ publication else []
                else publication

def pressureTarget (s : Impl) (request : PressureSnapshot) : Except Status PoolEntry := do
  s.requireOpen
  s.requireWorking
  let entry ← s.requirePool request.pool
  let _ ← raiseCounter (pickId request.id s.counters.nextSnapshotId) s.counters.nextSnapshotId
    "snapshot id space is exhausted"
  pure entry

/-- `observe_pressure` turns the snapshot down with an event: it carries another epoch or another
pool generation, or is dated in the future. -/
def RejectsLoudly (s : Impl) (request : PressureSnapshot) : Prop :=
  (s.pressureTarget request).toOption.any fun entry ↦
    request.epoch ≠ s.epoch ∨ request.poolGeneration ≠ entry.descriptor.generation ∨
      s.tick < request.observedAt

instance (s : Impl) (request : PressureSnapshot) : Decidable (s.RejectsLoudly request) :=
  inferInstanceAs (Decidable (_ = true))

/-- `observe_pressure` publishes the event of such a snapshot inside the locked block. -/
def observePressureSteps (s : Impl) (request : PressureSnapshot) (w : Surroundings) :
    List (LockStep Callee) :=
  if s.RejectsLoudly request then takeLock (sinkCalls w.sink 1)
  else takeLock [] ++ calls (sinkCalls w.sink w.events)

def opSteps (s : Impl) (w : Surroundings) : Op → List (LockStep Callee)
  | .attachBackend id _ =>
      calls [.backend, .backend, .backend, .backend] ++ if id.Valid then takeLock [] else []
  | .setCapacity resource backend _ _ answer => s.setCapacitySteps resource backend answer w
  | .observePressure request => s.observePressureSteps request w
  | .checkpoint | .beginShutdown => takeLock []
  | _ => takeLock [] ++ calls (sinkCalls w.sink w.events)

end Impl

def Entry.steps (s : Impl) (w : Surroundings) : Entry → List (LockStep Callee)
  | .openFabric config boot => s.openSteps config boot w
  | .closeFabric => takeLock [] ++ calls (sinkCalls w.sink w.events)
  | .call c => (s.enter c).opSteps w c.op
  | .query _ => takeLock []
  | .setEventSink | .destroy => []

/-- `observe_pressure` does not turn a snapshot down with an event while a sink is installed. -/
def Impl.KeepsOut (s : Impl) (w : Surroundings) : Op → Prop
  | .observePressure request => ¬(w.sink ∧ s.RejectsLoudly request)
  | _ => True

/-- `open` does not reach the new epoch, and `observe_pressure` does not publish inside. -/
def Entry.KeepsOut (s : Impl) (w : Surroundings) : Entry → Prop
  | .openFabric config _ => (s.durableEpoch config).isOk = false
  | .call c => (s.enter c).KeepsOut w c.op
  | _ => True

/-! ### When nothing runs under the lock -/

section

variable {s : Impl} {w : Surroundings} {inside : List Callee} {l : List (LockStep Callee)}

/-- The steps call nothing under the lock exactly when the condition holds. -/
def Decides (l : List (LockStep Callee)) (keeps : Prop) : Prop :=
  (keeps → Disciplined l) ∧ (CallsUnlocked l → keeps)

theorem Decides.of_disciplined (h : Disciplined l) {keeps : Prop} (hkeeps : keeps) :
    Decides l keeps :=
  ⟨fun _ ↦ h, fun _ ↦ hkeeps⟩

theorem Decides.of_inside (c : Callee) (inside : List Callee) (l : List (LockStep Callee))
    {keeps : Prop} (hkeeps : ¬keeps) : Decides (takeLock (c :: inside) ++ l) keeps :=
  ⟨fun h ↦ absurd h hkeeps, fun h ↦ absurd h (not_callsUnlocked [Callee.clock] c inside l)⟩

theorem takeLock_append (h : Disciplined l) : Disciplined (takeLock [] ++ l) :=
  (Disciplined.locked_iff h).mpr rfl

theorem takeLock_nil : Disciplined (takeLock []) := rfl

namespace Impl

/-- A snapshot that is turned down with an event is not stored. -/
theorem RejectsLoudly.observePressure {request : PressureSnapshot}
    (h : s.RejectsLoudly request) :
    ∃ e, (s.observePressure request).1 = .error e ∧
      (s.observePressure request).2.pressure = s.pressure := by
  obtain ⟨entry, hentry, hloud⟩ := (Option.any_eq_true ..).mp h
  rcases s.observePressure_cases request with hrejected | ⟨stored, hok, -⟩
  · exact hrejected
  unfold Impl.observePressure at hok
  split at hok
  · cases hok
  rename_i found hfound
  dsimp only at hok
  split at hok
  · cases hok
  rename_i next hnext
  split at hok
  · cases hok
  rename_i snapshot hplan
  have hsame : found = entry := by
    have htarget : s.pressureTarget request = .ok entry := by
      rcases htarget : s.pressureTarget request with e | x
      · rw [htarget] at hentry
        cases hentry
      · rw [htarget] at hentry
        exact congrArg Except.ok (Option.some.inj hentry)
    unfold pressureTarget at htarget
    simp only [seq_ok, pure_ok] at htarget hfound
    obtain ⟨-, -, -, -, hfound⟩ := hfound
    obtain ⟨-, -, -, -, x, hx, -, -, rfl⟩ := htarget
    exact Except.ok.inj (hfound.symm.trans hx)
  subst hsame
  unfold planPressure at hplan
  simp only [seq_ok, require_eq_ok, exists_const, pure_ok] at hplan
  obtain ⟨hepoch, hgeneration, hpast, -⟩ := hplan
  rcases of_decide_eq_true hloud with hne | hne | hlt
  · exact absurd hepoch hne
  · exact absurd hgeneration hne
  · -- a date that is not zero is kept as it is
    have hdate : request.observedAt ≠ 0 := by
      intro hzero
      rw [hzero] at hlt
      exact absurd hlt (by simp)
    rw [if_neg hdate] at hpast
    exact absurd hlt (UInt64.not_lt.mpr hpast)

theorem openSteps_decides (config : FabricConfig) (boot : BootInputs) :
    Decides (s.openSteps config boot w) ((s.durableEpoch config).isOk = false) := by
  unfold openSteps
  rcases s.durableEpoch config with e | ⟨durable, t⟩
  · exact .of_disciplined takeLock_nil rfl
  · exact .of_inside _ _ _ (by simp [Except.isOk, Except.toBool])

theorem setCapacitySteps_disciplined (resource : ResourceId) (backend : BackendId)
    (answer : BackendAnswer) : Disciplined (s.setCapacitySteps resource backend answer w) := by
  have hpublication : Disciplined (takeLock [] ++ calls (sinkCalls w.sink w.events)) :=
    takeLock_append (.calls _)
  unfold setCapacitySteps
  dsimp only
  split
  · exact .nil
  refine takeLock_append ?_
  split
  · exact .nil
  split
  · exact .calls _
  refine (Disciplined.calls _).append ?_
  split
  · exact .nil
  refine takeLock_append ?_
  split
  · refine (Disciplined.calls _).append ?_
    split
    · exact hpublication
    split
    · exact takeLock_append hpublication
    · exact .nil
  · exact hpublication

theorem observePressureSteps_decides (request : PressureSnapshot) :
    Decides (s.observePressureSteps request w) (¬(w.sink ∧ s.RejectsLoudly request)) := by
  unfold observePressureSteps
  split
  · rename_i hloud
    cases hsink : w.sink with
    | false => exact .of_disciplined takeLock_nil fun h ↦ Bool.false_ne_true h.1
    | true =>
        have hsteps := Decides.of_inside .sink [] []
          (not_not_intro (⟨rfl, hloud⟩ : true = true ∧ s.RejectsLoudly request))
        rwa [List.append_nil] at hsteps
  · rename_i hquiet
    exact .of_disciplined (takeLock_append (.calls _)) fun h ↦ hquiet h.2

theorem opSteps_decides (op : Op) : Decides (s.opSteps w op) (s.KeepsOut w op) := by
  cases op with
  | attachBackend id backend =>
      refine .of_disciplined ((Disciplined.calls _).append ?_) trivial
      split
      · exact takeLock_nil
      · exact .nil
  | setCapacity resource backend raw expected answer =>
      exact .of_disciplined (setCapacitySteps_disciplined resource backend answer) trivial
  | observePressure request => exact observePressureSteps_decides request
  | checkpoint | beginShutdown => exact .of_disciplined takeLock_nil trivial
  | _ => exact .of_disciplined (takeLock_append (.calls _)) trivial

end Impl

theorem Entry.steps_decides (e : Entry) : Decides (e.steps s w) (e.KeepsOut s w) := by
  cases e with
  | openFabric config boot => exact Impl.openSteps_decides config boot
  | call c => exact Impl.opSteps_decides c.op
  | closeFabric => exact .of_disciplined (takeLock_append (.calls _)) trivial
  | query q => exact .of_disciplined takeLock_nil trivial
  | setEventSink | destroy => exact .of_disciplined .nil trivial

/-- What a clock, a backend or a sink does when it calls back: it calls public functions, one after
the other, that call nothing under the lock. -/
def CallsBack (l : List (LockStep Callee)) : Prop :=
  ∃ entries : List (Impl × Surroundings × Entry),
    (∀ x ∈ entries, x.2.2.KeepsOut x.1 x.2.1) ∧ l = entries.flatMap fun x ↦ x.2.2.steps x.1 x.2.1

theorem CallsBack.disciplined (h : CallsBack l) : Disciplined l := by
  obtain ⟨entries, hkeeps, rfl⟩ := h
  induction entries with
  | nil => exact .nil
  | cons x entries ih =>
      have hx : Disciplined (x.2.2.steps x.1 x.2.1) :=
        x.2.2.steps_decides.1 (hkeeps x List.mem_cons_self)
      exact hx.append (ih fun y hy ↦ hkeeps y (List.mem_cons_of_mem x hy))

/-- A public function calls nothing outside under the lock exactly when it is neither an `open`
that reaches the new epoch, nor an `observe_pressure` that turns a snapshot down with an event
while a sink is installed. Then what it calls may call back, and never finds the mutex held by
its own thread. -/
theorem foreign_code_runs_unlocked (s : Impl) (w : Surroundings) (e : Entry) :
    (CallsUnlocked (e.steps s w) ↔ e.KeepsOut s w) ∧
      (e.KeepsOut s w → ∀ l, Reenters CallsBack (e.steps s w) l → Disciplined l) := by
  obtain ⟨hclean, hkeeps⟩ := e.steps_decides (s := s) (w := w)
  refine ⟨⟨hkeeps, fun h ↦ (hclean h).callsUnlocked⟩, ?_⟩
  intro h l hl
  exact (hclean h).reenters (fun _ hk ↦ hk.disciplined) hl

end

/-- `open`, and a rejection of `observe_pressure`, call out under the lock. -/
theorem foreign_code_runs_locked :
    ¬CallsUnlocked ((Entry.openFabric smallConfig {}).steps {} {}) ∧
      ¬CallsUnlocked ((Entry.call (reportPressure ⟨7⟩)).steps namedStart { sink := true }) := by
  constructor
  · intro h
    have hok : (({} : Impl).durableEpoch smallConfig).isOk = true := by decide +kernel
    have hkeeps := (Entry.openFabric smallConfig {}).steps_decides.2 h
    exact Bool.false_ne_true (hkeeps.symm.trans hok)
  · intro h
    have hloud : (namedStart.enter (reportPressure ⟨7⟩)).RejectsLoudly
        { pool := ⟨1⟩, poolGeneration := ⟨1⟩, epoch := ⟨7⟩, ttlTicks := 9 } := by
      decide +kernel
    exact (Entry.call (reportPressure ⟨7⟩)).steps_decides.2 h ⟨rfl, hloud⟩

/-- A sink that is told about a grant may call back. -/
theorem foreign_code_runs_unlocked_grant :
    ∀ l, Reenters CallsBack ((Entry.call (askUnits 1 40 true)).steps namedStart
      { sink := true, events := 1 }) l → Disciplined l :=
  (foreign_code_runs_unlocked _ _ _).2 trivial

end BufferFabric
