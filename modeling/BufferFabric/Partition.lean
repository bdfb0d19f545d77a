import BufferFabric.Journaling

/-!
# The partition of a resource

The pools of a resource never hold more raw units than the capacity published for it.
`set_capacity` asks its backend with no lock held and publishes the answer in a later lock
section, so its two sections are separate steps here, with any other steps between them.
-/

namespace BufferFabric

open Outcome

/-! ### The lock sections of `set_capacity` -/

/-- `set_capacity` up to its publication: the first section finds the backend, which is
then asked. -/
def Impl.queryCapacity (s : Impl) (resource : ResourceId) (backend : BackendId)
    (answer : BackendAnswer) : Except Status CapacityAuthority := do
  require resource.Valid ⟨.invalidArgument, "resource id must be non-zero"⟩
  require backend.Valid ⟨.invalidArgument, "backend id must be non-zero"⟩
  s.requireOpen
  let _ ← demand (s.backends.lookup backend) ⟨.unknownBackend, "backend is not attached"⟩
  require answer.ready ⟨.backendNotReady, "backend is not ready; capacity is UNKNOWN"⟩
  let authority ← answer.capacity
  require authority.Usable
    ⟨.evidenceUnknown, "backend did not supply an authoritative capacity for this resource"⟩
  if s.config.programBackendEffects then
    match answer.effect with
    | .ok _ => pure authority
    | .error e => if e.code = .unsupported then pure authority else .error e
  else pure authority

/-- A `set_capacity` call between its two sections. -/
structure PendingCapacity where
  resource : ResourceId
  backend : BackendId
  expectedRawUnits : UInt64
  expected : Generation
  authority : CapacityAuthority

/-- The lock is taken again: the clock is sampled. -/
def Impl.relock (s : Impl) (tick : Tick) (io : List Io) : Impl :=
  { s with tick := tick, store := { s.store with io := io, trail := [] } }

def Impl.publish (s : Impl) (tick : Tick) (io : List Io) (p : PendingCapacity) :
    Outcome Generation :=
  (s.relock tick io).publishCapacity p.resource p.backend p.expectedRawUnits p.expected p.authority

/-- A system and the `set_capacity` calls that are between their sections. -/
structure Workshop where
  system : System := {}
  pending : List PendingCapacity := []

inductive Turn where
  | event (ev : Event)
  | queried (p : PendingCapacity)
  | published (tick : Tick) (io : List Io) (p : PendingCapacity)

/-- One step: an event of the system, or one of the two sections of a pending call. A call
is gone with the instance it was made on. -/
inductive Workshop.Step (z : Workshop) : Turn → Workshop → Prop
  | event {ev : Event} {y : System} (h : System.Step z.system ev y) :
      Step z (.event ev)
        { system := y
          pending := match y.live with
            | none => []
            | some _ => z.pending }
  | queried {s : Impl} {p : PendingCapacity} {answer : BackendAnswer}
      (hlive : z.system.live = some s)
      (h : s.queryCapacity p.resource p.backend answer = .ok p.authority) :
      Step z (.queried p) { z with pending := z.pending ++ [p] }
  | published {s : Impl} {p : PendingCapacity} {before after : List PendingCapacity}
      (tick : Tick) (io : List Io) (hlive : z.system.live = some s)
      (hpending : z.pending = before ++ p :: after) :
      Step z (.published tick io p)
        { system := { z.system with
            disk := (s.publish tick io p).2.store.disk
            live := some (s.publish tick io p).2 }
          pending := before ++ after }

/-- Every session is a new instance over the same directory, stops only between calls, and
every append succeeds. -/
def Workshop.Allows (z : Workshop) : Turn → Prop
  | .event ev => z.system.Durable ev ∧ (∀ c, ev ≠ .crashed c) ∧
      ∀ c s, ev = .called c → z.system.live = some s → JournalsOk s c
  | .queried _ => True
  | .published tick io p => ∀ s, z.system.live = some s →
      (s.publish tick io p).2.store.failures = s.store.failures

/-! ### The partition -/

/-- The raw units of the pools of every resource are at most its published capacity: 0 where
none is published. -/
def Impl.Partitioned (s : Impl) : Prop :=
  ∀ resource, s.partitioned resource (fun _ ↦ True) ≤
    ((s.capacities.lookup resource).map fun c ↦ c.rawUnits.toNat).getD 0

namespace Impl

variable {s t : Impl}

theorem partitioned_eq (hpools : t.view.pools = s.view.pools) (resource : ResourceId)
    (select : PoolId → Prop) [DecidablePred select] :
    t.partitioned resource select = s.partitioned resource select :=
  Table.total_of_lookup_map PoolEntry.shape PoolEntry.shape
    (fun _ (d : PoolDescriptor × Generation) ↦
      if d.1.resource = resource ∧ select d.1.id then d.1.rawUnits.toNat else 0)
    (congrFun hpools)

/-- The partition is a matter of the published capacities and the registered pools. -/
theorem Partitioned.congr (h : s.Partitioned) (hcap : t.view.capacities = s.view.capacities)
    (hpools : t.view.pools = s.view.pools) : t.Partitioned := by
  intro resource
  have hc : t.capacities.lookup resource = s.capacities.lookup resource := congrFun hcap resource
  rw [partitioned_eq hpools, hc]
  exact h resource

/-- The units that leave a pool out, when pools are stored under their own ids. -/
theorem partitioned_erase (hk : s.view.Keyed) (resource : ResourceId) (key : PoolId) :
    Table.total (fun _ e ↦ if e.descriptor.resource = resource ∧ True then
        e.descriptor.rawUnits.toNat else 0) (s.pools.erase key) =
      s.partitioned resource (· ≠ key) := by
  have hid : ∀ k e, s.pools.lookup k = some e → e.descriptor.id = k := by
    intro k e he
    refine hk.pools k e.shape ?_
    simp only [view, he, Option.map_some]
  have hrest : ∀ k e, (s.pools.erase key).lookup k = some e → e.descriptor.id ≠ key := by
    intro k e he
    rw [Table.lookup_erase_eq] at he
    split at he
    · cases he
    · rw [hid k e he]
      assumption
  have htotal : Table.total (fun _ e ↦ if e.descriptor.resource = resource ∧
      e.descriptor.id ≠ key then e.descriptor.rawUnits.toNat else 0) (s.pools.erase key) =
      s.partitioned resource (· ≠ key) := by
    cases hl : s.pools.lookup key with
    | none => exact Table.total_erase_of_notMem _ hl
    | some e =>
        unfold partitioned
        rw [Table.total_erase_of_lookup _ hl, if_neg fun h ↦ h.2 (hid key e hl), Nat.zero_add]
  rw [← htotal]
  apply Table.total_congr
  intro k e he
  simp only [hrest k e he, ne_eq, not_false_eq_true]

end Impl

theorem Change.partitioned {s m : Impl} {l : Label} {record : Option JournalRecord}
    (h : Change s l record m) (hk : s.view.Keyed) (hs : s.Partitioned) : m.Partitioned := by
  have htop := h.sameTopology hk
  cases h with
  | capacity c hfits =>
      intro resource
      change s.partitioned resource (fun _ ↦ True) ≤
        (((s.capacities.insert c.resource c).lookup resource).map _).getD 0
      rw [Table.lookup_insert_eq]
      split
      · rename_i heq
        rw [heq]
        exact hfits
      · exact hs resource
  | pool d hv hnew hid hparent hpolicy hroom hfits =>
      intro resource
      obtain ⟨c, hc, hle⟩ := hfits
      have htotal := Table.total_insert_of_notMem (fun _ e ↦
        if e.descriptor.resource = resource ∧ True then e.descriptor.rawUnits.toNat else 0)
        ({ descriptor := d, capacityGeneration := ⟨1⟩ } : PoolEntry) hnew
      refine htotal.trans_le ?_
      by_cases hres : d.resource = resource
      · subst hres
        rw [if_pos ⟨rfl, trivial⟩, hc, Nat.add_comm]
        exact hle
      · rw [if_neg fun h ↦ hres h.1, Nat.zero_add]
        exact hs resource
  | removePool key entry hl hleaf hlent halloc =>
      intro resource
      refine le_trans ?_ (hs resource)
      have htotal := Table.total_erase_of_lookup (fun _ e ↦
        if e.descriptor.resource = resource ∧ True then e.descriptor.rawUnits.toNat else 0) hl
      exact Nat.le_of_add_left_le htotal.symm.le
  | resize key entry raw prot g c hl hraw hprot hfits =>
      intro resource
      obtain ⟨c, hc, hle⟩ := hfits
      have htotal := Table.total_insert (fun _ e ↦
        if e.descriptor.resource = resource ∧ True then e.descriptor.rawUnits.toNat else 0)
        s.pools key (entry.resized raw prot g ‹_›)
      rw [Impl.partitioned_erase hk] at htotal
      refine htotal.trans_le ?_
      by_cases hres : entry.descriptor.resource = resource
      · subst hres
        rw [if_pos ⟨rfl, trivial⟩, Nat.add_comm]
        change _ ≤ ((s.capacities.lookup entry.descriptor.resource).map _).getD 0
        rw [hc]
        exact hle
      · rw [if_neg fun h ↦ hres h.1, Nat.zero_add]
        refine le_trans (Table.total_mono fun k e he ↦ ?_) (hs resource)
        split
        · rename_i h
          rw [if_pos ⟨h.1, trivial⟩]
        · exact Nat.zero_le _
  | _ => exact hs.congr htop.capacities.symm htop.pools.symm

def View.Partitions (v : View) : Prop := ∀ m : Impl, v.SameTopology m.view → m.Partitioned

theorem Impl.Partitioned.partitions {s : Impl} (h : s.Partitioned) {v : View}
    (hv : v.SameTopology s.view) : v.Partitions :=
  fun _ hm ↦ h.congr (hm.capacities.symm.trans hv.capacities) (hm.pools.symm.trans hv.pools)

theorem View.Partitions.congr {v w : View} (h : v.Partitions) (hw : w.SameTopology v) :
    w.Partitions :=
  fun m hm ↦ h m ⟨hw.capacities.symm.trans hm.capacities, hw.policies.symm.trans hm.policies,
    hw.pools.symm.trans hm.pools⟩

theorem Move.partitioned {s t : Impl} {a : Label × Bool} (h : Move s a t) (hk : s.view.Keyed)
    (hs : s.Partitioned) : t.Partitioned := by
  refine h.keeps_view (I := View.Partitions) ?_ (hs.partitions ⟨rfl, rfl, rfl⟩) t ⟨rfl, rfl, rfl⟩
  intro record m hc
  exact (hc.partitioned hk hs).partitions ⟨rfl, rfl, rfl⟩

theorem Impl.Partitioned.run {s t : Impl} {allow : Impl → Label × Bool → Prop}
    (h : StepPath Move allow s t) (hw : s.Writing) (hs : s.Partitioned) : t.Writing ∧ t.Partitioned :=
  h.invariant (I := fun u ↦ u.Writing ∧ u.Partitioned)
    (fun _ _ _ hu _ hm ↦ ⟨hm.writing hu.1, hm.partitioned hu.1.1.keyed hu.2⟩) ⟨hw, hs⟩

/-! ### Runs -/

/-- What a partitioned state is, for an instance over the directory `disk`. -/
structure Impl.Holds (s : Impl) (disk : Disk) : Prop where
  disk : s.store.disk = disk
  partitioned : s.Partitioned
  writing : s.Writing
  saved : s.TopologySaved

theorem Impl.Holds.directory {s : Impl} {disk : Disk} (h : s.Holds disk) :
    (disk.view View.blank).Partitions := by
  rw [← h.disk]
  exact h.partitioned.partitions h.saved

structure System.Partitioned (y : System) : Prop where
  disk : (y.disk.view View.blank).Partitions
  live : ∀ s, y.live = some s → s.Holds y.disk

theorem System.Partitioned.of_live {y : System} {s : Impl} (hlive : y.live = some s)
    (hs : s.Holds y.disk) : y.Partitioned := by
  refine ⟨hs.directory, ?_⟩
  intro s' hs'
  rw [hlive] at hs'
  obtain rfl := Option.some.inj hs'
  exact hs

theorem System.Partitioned.of_stopped {y : System} (hlive : y.live = none)
    (hdisk : (y.disk.view View.blank).Partitions) : y.Partitioned := by
  refine ⟨hdisk, ?_⟩
  intro s hs
  rw [hlive] at hs
  cases hs

/-- A path of journaled moves keeps the partition, on disk and in memory. -/
theorem Impl.Holds.run {s t : Impl} {disk : Disk} {allow : Impl → Label × Bool → Prop}
    (h : StepPath Move allow s t) (hallow : ∀ u a, allow u a → Journaled a) (hs : s.Holds disk) :
    t.Holds t.store.disk := by
  obtain ⟨hw, hp⟩ := hs.partitioned.run h hs.writing
  exact ⟨rfl, hp, hw, hs.saved.run h hs.writing hallow⟩

theorem Impl.Holds.rehash {s t : Impl} {disk : Disk} (h : s.Holds disk) (hr : s.Rehash t) :
    t.Holds disk := by
  have hview : t.view = s.view := hr.view_eq
  have hstore : t.store = s.store := by cases hr; rfl
  refine ⟨by rw [hstore]; exact h.disk, ?_, ⟨?_, by rw [hstore]; exact h.writing.2⟩, ?_⟩
  · exact h.partitioned.congr (congrArg View.capacities hview) (congrArg View.pools hview)
  · rw [hview]
    exact h.writing.1
  · unfold Impl.TopologySaved
    rw [hstore, hview]
    exact h.saved

theorem System.Step.partitioned {y y' : System} {ev : Event} (h : System.Step y ev y')
    (hy : y.Partitioned) (hdurable : y.Durable ev) (hcrash : ∀ c, ev ≠ .crashed c)
    (hcall : ∀ c s, ev = .called c → y.live = some s → JournalsOk s c) : y'.Partitioned := by
  cases h with
  | @opened s₀ s config boot tick io hidle h =>
      obtain ⟨hmode, rfl⟩ := hdurable.fresh rfl hidle
      obtain ⟨hsaved, hw, htop⟩ := Impl.TopologySaved.opened h hmode
      exact .of_live rfl ⟨rfl, hy.disk s htop, hw, hsaved⟩
  | openFailed hidle h =>
      obtain ⟨hmode, rfl⟩ := hdurable.fresh rfl hidle
      exact .of_stopped rfl (hy.disk.congr (Impl.openFabric_keepsTopology h hmode (.inl rfl)))
  | openCrashed hidle h hd =>
      obtain ⟨hmode, rfl⟩ := hdurable.fresh rfl hidle
      exact .of_stopped rfl (hy.disk.congr (Impl.openFabric_keepsTopology h hmode (.inr hd)))
  | @called s c hlive hopen =>
      have hs : (s.enter c).Holds y.disk := by
        obtain ⟨hdisk, hp, hw, hsaved⟩ := hy.live s hlive
        exact ⟨hdisk, hp, hw, hsaved⟩
      exact .of_live rfl (hs.run (Impl.exec_journaled (hcall c s rfl hlive)) fun _ _ ha ↦ ha.2)
  | crashed c => exact absurd rfl (hcrash c)
  | @closed s hlive =>
      obtain ⟨hdisk, hp, hw, hsaved⟩ := hy.live s hlive
      refine .of_live rfl ?_
      unfold Impl.closeFabric
      split
      · exact ⟨hdisk, hp, hw, hsaved⟩
      · exact ⟨hdisk, hp, hw, hsaved⟩
  | stopped => exact .of_stopped rfl hy.disk
  | @rehashed s s' hlive hr => exact .of_live rfl ((hy.live s hlive).rehash hr)

theorem System.partitioned_empty : ({} : System).Partitioned := by
  refine .of_stopped rfl fun m hm resource ↦ ?_
  have htotal : m.partitioned resource (fun _ ↦ True) = 0 := by
    apply Table.total_eq_zero_iff.mpr
    intro k e he
    have hk := congrFun hm.pools k
    simp only [Impl.view, he, Option.map_some] at hk
    cases hk
  rw [htotal]
  exact Nat.zero_le _

theorem Workshop.Step.partitioned {z z' : Workshop} {turn : Turn} (h : Workshop.Step z turn z')
    (hz : z.system.Partitioned) (hallow : z.Allows turn) : z'.system.Partitioned := by
  cases h with
  | event h => exact h.partitioned hz hallow.1 hallow.2.1 hallow.2.2
  | queried hlive h => exact hz
  | @published s p before after tick io hlive hpending =>
      obtain ⟨hdisk, hp, hw, hsaved⟩ := hz.live s hlive
      have hs : (s.relock tick io).Holds z.system.disk := ⟨hdisk, hp, hw, hsaved⟩
      have hpath : (Op.setCapacity p.resource p.backend p.expectedRawUnits p.expected
          { capacity := .ok p.authority }).Trace s (s.relock tick io)
          ((s.relock tick io).publishCapacity p.resource p.backend p.expectedRawUnits p.expected
            p.authority).2 := Impl.publishCapacity_trace ⟨_, _, _, _, _, rfl⟩ _ _ _ _ _
      have hrun := hpath.quiet (c := fun t : Impl ↦ t.store.failures)
        (fun _ _ _ hm ↦ hm.failures_le) (fun _ _ _ hm heq ↦ hm.flag_of_failures heq)
        (hallow s hlive)
      exact .of_live rfl (hs.run hrun fun _ _ ha ↦ .inl ha.2)

/-- In every state a run of any sessions, calls and interrupted `set_capacity` calls reaches,
the raw units of the pools registered on a resource fit its published capacity. -/
theorem pools_fit_capacity {z : Workshop} (hrun : StepPath Workshop.Step Workshop.Allows {} z)
    {s : Impl} (hlive : z.system.live = some s) (resource : ResourceId) :
    Table.total (fun _ e ↦ if e.descriptor.resource = resource then e.descriptor.rawUnits.toNat
        else 0) s.pools ≤
      ((s.capacities.lookup resource).map fun c ↦ c.rawUnits.toNat).getD 0 := by
  have hz : z.system.Partitioned :=
    hrun.invariant (I := fun z ↦ z.system.Partitioned) (fun _ _ _ hz ha hs ↦ hs.partitioned hz ha)
      System.partitioned_empty
  have hs := (hz.live s hlive).partitioned resource
  simpa only [Impl.partitioned, and_true] using hs

/-! ### A run with an interrupted call -/

def journalsCheck (y : System) (k : Command) : Bool :=
  durableCheck y k && (match k, y.live with
    | .call c, some s => decide (JournalsOk s c)
    | _, _ => true)

theorem journalsCheck_spec {y : System} {k : Command} (h : journalsCheck y k = true) :
    y.Durable k.event ∧ ∀ c s, k.event = .called c → y.live = some s → JournalsOk s c := by
  obtain ⟨hdurable, hok⟩ := Bool.and_eq_true_iff.mp h
  refine ⟨durableCheck_durable y k hdurable, ?_⟩
  intro c s hev hlive
  cases k with
  | call c' =>
      obtain rfl : c' = c := by injection hev
      rw [hlive] at hok
      exact of_decide_eq_true hok
  | start config => cases hev
  | stop => cases hev

/-- What a scripted run does next: a command, or a section of a `set_capacity` call. -/
inductive Task where
  | command (k : Command)
  | query (p : PendingCapacity)
  | publish

/-- The turn a task takes and the state it leaves, when it can be carried out and every
append succeeds. -/
def Workshop.perform (z : Workshop) : Task → Option (Turn × Workshop)
  | .command k =>
      if journalsCheck z.system k then
        (z.system.perform k).map fun y ↦ (.event k.event,
          { system := y
            pending := match y.live with
              | none => []
              | some _ => z.pending })
      else none
  | .query p =>
      match z.system.live with
      | none => none
      | some s =>
          match s.queryCapacity p.resource p.backend ⟨true, .ok p.authority, .ok ()⟩ with
          | .error _ => none
          | .ok authority => if authority = p.authority then
              some (.queried p, { z with pending := z.pending ++ [p] }) else none
  | .publish =>
      match z.system.live, z.pending with
      | some s, p :: rest =>
          if (s.publish 0 [] p).2.store.failures = s.store.failures then
            some (.published 0 [] p,
              { system := { z.system with
                  disk := (s.publish 0 [] p).2.store.disk
                  live := some (s.publish 0 [] p).2 }
                pending := rest })
          else none
      | _, _ => none

theorem Workshop.perform_step {z z' : Workshop} {task : Task} {turn : Turn}
    (h : z.perform task = some (turn, z')) : z.Allows turn ∧ Workshop.Step z turn z' := by
  cases task with
  | command k =>
      simp only [Workshop.perform] at h
      split at h
      · rename_i hcheck
        obtain ⟨hdurable, hok⟩ := journalsCheck_spec hcheck
        obtain ⟨y, hy, heq⟩ := Option.map_eq_some_iff.mp h
        obtain ⟨rfl, rfl⟩ := Prod.mk.inj heq
        refine ⟨⟨hdurable, ?_, hok⟩, .event (System.perform_step hy)⟩
        intro c
        cases k <;> nofun
      · cases h
  | query p =>
      simp only [Workshop.perform] at h
      split at h
      · cases h
      · rename_i s hlive
        split at h
        · cases h
        · rename_i authority hquery
          split at h
          · rename_i heq
            subst heq
            obtain ⟨rfl, rfl⟩ := Prod.mk.inj (Option.some.inj h)
            exact ⟨trivial, .queried hlive hquery⟩
          · cases h
  | publish =>
      simp only [Workshop.perform] at h
      split at h
      · rename_i s p rest hlive hpending
        split at h
        · rename_i hok
          obtain ⟨rfl, rfl⟩ := Prod.mk.inj (Option.some.inj h)
          have hfirst : z.pending = [] ++ p :: rest := hpending
          refine ⟨?_, .published 0 [] hlive hfirst⟩
          intro s' hs'
          rw [hlive] at hs'
          obtain rfl := Option.some.inj hs'
          exact hok
        · cases h
      · cases h

def Workshop.script (z : Workshop) : List Task → Option Workshop
  | [] => some z
  | task :: tasks => (z.perform task).bind fun r ↦ r.2.script tasks

theorem Workshop.script_run {tasks : List Task} {z₀ z z' : Workshop}
    (hrun : StepPath Workshop.Step Workshop.Allows z₀ z) (h : z.script tasks = some z') :
    StepPath Workshop.Step Workshop.Allows z₀ z' := by
  induction tasks generalizing z with
  | nil =>
      obtain rfl := Option.some.inj h
      exact hrun
  | cons task tasks ih =>
      obtain ⟨⟨turn, m⟩, hm, h⟩ := Option.bind_eq_some_iff.mp h
      obtain ⟨hallow, hstep⟩ := Workshop.perform_step hm
      exact ih (hrun.tail hallow hstep) h

def hundredPool : Call :=
  { op := .registerPool
      { name := [97], resource := ⟨1⟩, backend := ⟨1⟩, rawUnits := 100, policy := ⟨1⟩ } }

/-- A `set_capacity` call asks its backend, a pool is registered, and the call publishes the
smaller capacity it was told; then the directory is opened again. -/
def interruptedTasks : List Task :=
  [.command (.start smallConfig)] ++ (smallTopology smallPolicy).map (.command ∘ .call) ++
    [.query ⟨⟨1⟩, ⟨1⟩, 0, ⟨0⟩, { smallCapacity with rawUnits := 100, generation := ⟨2⟩ }⟩,
      .command (.call hundredPool), .publish, .command .stop, .command (.start smallConfig)]

theorem pools_fit_capacity_interrupted :
    ∃ (z : Workshop) (s : Impl), z.system.live = some s ∧ s.pools.size = 1 ∧
      (s.capacities.lookup ⟨1⟩).map (·.rawUnits) = some 100 ∧
      Table.total (fun _ e ↦ if e.descriptor.resource = ⟨1⟩ then e.descriptor.rawUnits.toNat
          else 0) s.pools ≤
        ((s.capacities.lookup ⟨1⟩).map fun c ↦ c.rawUnits.toNat).getD 0 := by
  have hsome : ((({} : Workshop).script interruptedTasks).bind fun z ↦
      z.system.live.map fun s ↦ decide (s.pools.size = 1 ∧
        (s.capacities.lookup ⟨1⟩).map (·.rawUnits) = some 100)) = some true := by decide +kernel
  obtain ⟨z, hz, h⟩ := Option.bind_eq_some_iff.mp hsome
  obtain ⟨s, hs, h⟩ := Option.map_eq_some_iff.mp h
  obtain ⟨hsize, hcap⟩ := of_decide_eq_true h
  exact ⟨z, s, hs, hsize, hcap, pools_fit_capacity (Workshop.script_run .refl hz) hs ⟨1⟩⟩

end BufferFabric
