import BufferFabric.Lib.Replay
import BufferFabric.Freshness
import BufferFabric.Invariants

/-!
# The directory follows the memory

A journal record overwrites one thing a snapshot holds. While a session's appends succeed,
what recovery would read of such a thing from the directory is what the session has in
memory, except that a reservation recovery has expired is still reserved on disk. Two forms
are kept: what the journal leaves over any base (`Tracked`), which also holds for an
instance that was opened again, and what the whole directory leaves over a blank base
(`Mirrored`).
-/

namespace BufferFabric

open Outcome Replay

/-! ### Points -/

/-- One thing that journal records overwrite: how a view holds it, and what a record writes
there. -/
structure Point (α : Type) where
  read : View → α
  write : JournalRecord → Option α

namespace Point

def capacity (k : ResourceId) : Point (Option CapacityEntry) where
  read := fun v ↦ v.capacities k
  write
    | .capacitySet c => if k = c.resource then some (some c) else none
    | _ => none

def policy (k : PolicyId) : Point (Option PoolPolicy) where
  read := fun v ↦ v.policies k
  write
    | .policyUpsert p => if k = p.id then some (some p) else none
    | _ => none

def pool (k : PoolId) : Point (Option (PoolDescriptor × Generation)) where
  read := fun v ↦ v.pools k
  write
    | .poolUpsert d g => if k = d.id then some (some (d, g)) else none
    | .poolRemoved id => if k = id then some none else none
    | _ => none

def allocation (k : AllocationId) : Point (Option AllocationRecord) where
  read := fun v ↦ v.allocations k
  write
    | .allocation _ r => if k = r.id then some (some r) else none
    | _ => none

theorem getD_ite {α : Type} (c : Prop) [Decidable c] (a b : α) :
    (if c then some a else none).getD b = if c then a else b := by
  split <;> rfl

theorem capacity_overwrites (k : ResourceId) :
    Overwrites View.apply (capacity k).read (capacity k).write := by
  intro v record
  cases record <;> simp [capacity, View.apply, Function.update_apply, getD_ite]

theorem policy_overwrites (k : PolicyId) :
    Overwrites View.apply (policy k).read (policy k).write := by
  intro v record
  cases record <;> simp [policy, View.apply, Function.update_apply, getD_ite]

theorem pool_overwrites (k : PoolId) : Overwrites View.apply (pool k).read (pool k).write := by
  intro v record
  cases record <;> simp [pool, View.apply, Function.update_apply, getD_ite]

theorem allocation_overwrites (k : AllocationId) :
    Overwrites View.apply (allocation k).read (allocation k).write := by
  intro v record
  cases record <;> simp [allocation, View.apply, Function.update_apply, getD_ite]

def Follows {α : Type} (p : Point α) (s m : Impl) (record : Option JournalRecord) : Prop :=
  p.read m.view = (record.bind p.write).getD (p.read s.view)

end Point

/-! ### Entries under their own keys -/

/-- Every entry of the view is stored under its own key, capacities included. -/
structure View.Indexed (v : View) : Prop where
  keyed : v.Keyed
  capacities : ∀ k c, v.capacities k = some c → c.resource = k

namespace View

theorem Indexed.apply {v : View} (h : v.Indexed) (record : JournalRecord) :
    (v.apply record).Indexed := by
  refine ⟨h.keyed.apply record, ?_⟩
  intro k c hc
  cases record with
  | capacitySet c' =>
      rcases update_cases hc with ⟨rfl, heq⟩ | ⟨-, hc⟩
      · rw [Option.some.inj heq]
      · exact h.capacities k c hc
  | _ => exact h.capacities k c hc

theorem Indexed.foldl {v : View} (h : v.Indexed) (records : List JournalRecord) :
    (records.foldl View.apply v).Indexed := by
  induction records generalizing v with
  | nil => exact h
  | cons record records ih => exact ih (h.apply record)

theorem Indexed.load {v : View} (h : v.Indexed) (i : Image) : (v.load i).Indexed := by
  refine ⟨h.keyed.load i, ?_⟩
  intro k c hc
  have hc : Table.overlay (·.resource) i.capacities v.capacities k = some c := hc
  rcases Table.overlay_cases hc with ⟨-, hkey⟩ | hc
  · exact hkey
  · exact h.capacities k c hc

theorem Indexed.settled {v : View} (h : v.Indexed) (tick : Tick) : (v.settled tick).Indexed :=
  ⟨h.keyed.settled tick, h.capacities⟩

theorem blank_indexed : blank.Indexed := by
  refine ⟨⟨?_, ?_, ?_, ?_⟩, ?_⟩ <;> simp [blank]

structure SameTopology (v w : View) : Prop where
  capacities : v.capacities = w.capacities
  policies : v.policies = w.policies
  pools : v.pools = w.pools

theorem SameTopology.indexed_capacities {v w : View} (h : v.SameTopology w) (hv : v.Indexed) :
    ∀ k c, w.capacities k = some c → c.resource = k := by
  rw [← h.capacities]
  exact hv.capacities

end View

/-- The topology changes exactly as the replay of the journaled record would change it. -/
theorem Change.sameTopology {s m : Impl} {l : Label} {record : Option JournalRecord}
    (h : Change s l record m) (hk : s.view.Keyed) :
    (s.view.applied record).SameTopology m.view := by
  by_cases hl : l = .brokenGrant
  · subst hl
    cases h with
    | brokenGrant key entry policy r pools j hfits hj hfail hsh =>
        rw [Impl.view_eq_of_shapes hsh]
        exact ⟨rfl, rfl, rfl⟩
  · have hagrees := h.view_agrees hk hl
    exact ⟨hagrees.capacities.symm, hagrees.policies.symm, hagrees.pools.symm⟩

theorem Change.indexed {s m : Impl} {l : Label} {record : Option JournalRecord}
    (h : Change s l record m) (hi : s.view.Indexed) : m.view.Indexed := by
  refine ⟨h.keyed hi.keyed, (h.sameTopology hi.keyed).indexed_capacities ?_⟩
  cases record with
  | none => exact hi
  | some record => exact hi.apply record

theorem Move.indexed {s t : Impl} {a : Label × Bool} (h : Move s a t) (hi : s.view.Indexed) :
    t.view.Indexed :=
  h.keeps_view (fun _ _ hc ↦ hc.indexed hi) hi

namespace Point

variable {α : Type} {p : Point α} {s m : Impl} {record : Option JournalRecord}

theorem read_applied (hp : Overwrites View.apply p.read p.write) (v : View)
    (record : Option JournalRecord) :
    p.read (v.applied record) = (record.bind p.write).getD (p.read v) := by
  cases record with
  | none => rfl
  | some record => exact hp v record

def InTopology (p : Point α) : Prop := ∀ v w : View, v.SameTopology w → p.read v = p.read w

theorem InTopology.follows (h : p.InTopology) (hp : Overwrites View.apply p.read p.write)
    {l : Label} (hc : Change s l record m) (hk : s.view.Keyed) : p.Follows s m record :=
  (h _ _ (hc.sameTopology hk)).symm.trans (read_applied hp _ _)

theorem capacity_inTopology (k : ResourceId) : (capacity k).InTopology :=
  fun _ _ h ↦ congrFun h.capacities k

theorem policy_inTopology (k : PolicyId) : (policy k).InTopology :=
  fun _ _ h ↦ congrFun h.policies k

theorem pool_inTopology (k : PoolId) : (pool k).InTopology :=
  fun _ _ h ↦ congrFun h.pools k

theorem allocation_follows (k : AllocationId) {l : Label} (hc : Change s l record m)
    (hk : s.view.Keyed) (hl : l ≠ .brokenGrant) : (allocation k).Follows s m record :=
  (congrFun (hc.view_agrees hk hl).allocations k).trans
    (read_applied (allocation_overwrites k) _ _)

def Loads (p : Point α) : Prop :=
  ∀ s : Impl, s.view.Indexed → p.read (View.blank.load s.image) = p.read s.view

theorem capacity_loads (k : ResourceId) : (capacity k).Loads := by
  intro s hi
  have h := Table.overlay_values CapacityEntry.resource id hi.capacities
  exact (congrFun h k).trans (Option.map_id_fun ▸ rfl)

theorem policy_loads (k : PolicyId) : (policy k).Loads := by
  intro s hi
  have h := Table.overlay_values PoolPolicy.id id hi.keyed.policies
  exact (congrFun h k).trans (Option.map_id_fun ▸ rfl)

theorem pool_loads (k : PoolId) : (pool k).Loads := by
  intro s hi
  have h := Table.overlay_values (fun e : PoolDescriptor × Generation ↦ e.1.id)
    PoolEntry.shape (t := s.pools) (by
      intro k e he
      refine hi.keyed.pools k e.shape ?_
      simp only [Impl.view, he, Option.map_some])
  exact congrFun h k

theorem allocation_loads (k : AllocationId) : (allocation k).Loads := by
  intro s hi
  have h := Table.overlay_values AllocationRecord.id id hi.keyed.allocations
  exact (congrFun h k).trans (Option.map_id_fun ▸ rfl)

end Point

/-! ### Writes that succeed -/

/-- A record that was journaled is at the end of the journal, after a compaction if there
was one. -/
theorem Impl.journal_disk {s t : Impl} {record : JournalRecord} {u : Unit}
    (h : s.journal record = (.ok u, t)) (hmode : s.store.config.mode ≠ .none) :
    t.store.disk = { s.store.disk with journal := s.store.disk.journal ++ [record] } ∨
      t.store.disk = { snapshot := some s.image, journal := [record] } := by
  obtain ⟨st, hst, -, hcases⟩ := s.journal_spec record
  rw [h] at hst hcases
  simp only at hst
  subst hst
  rcases hcases with ⟨-, -, hdisk⟩ | ⟨⟨e, he⟩, -⟩
  · exact hdisk hmode
  · cases he

theorem Disk.Replaced.journal {image : Image} {d d' : Disk} (h : Disk.Replaced image d d') :
    d'.journal = d.journal ∨ d'.journal = [] := by
  cases h with
  | same => exact .inl rfl
  | replaced => exact .inl rfl
  | compacted => exact .inr rfl

theorem Impl.writeFullSnapshot_disk {s t : Impl} {r : Except Status Unit}
    (h : s.writeFullSnapshot = (r, t)) :
    t.view = s.view ∧ Disk.Replaced s.image s.store.disk t.store.disk := by
  obtain ⟨st, hst, hf, -⟩ := s.writeFullSnapshot_spec
  rw [h] at hst
  simp only at hst
  subst hst
  refine ⟨rfl, ?_⟩
  rcases hf.disk with hd | hd
  · have hd : st.disk = s.store.disk := hd
    change Disk.Replaced s.image s.store.disk st.disk
    rw [hd]
    exact .same
  · exact hd

def Journaled (a : Label × Bool) : Prop := a.2 = true ∨ a.1 = .snapshot

/-- When every append of a call succeeds, every move of the call is journaled. -/
theorem Impl.exec_journaled {s : Impl} {c : Call} (h : JournalsOk s c) :
    StepPath Move (fun t a ↦ c.op.Allows (s.enter c) t a ∧ Journaled a) (s.enter c) (s.exec c).2 := by
  by_cases hop : c.op = .checkpoint
  · unfold Impl.exec
    rw [hop]
    simp only [Impl.run, reply]
    unfold Impl.checkpoint
    split
    · exact .refl
    split
    · exact .refl
    · exact .single (a := (.snapshot, (s.enter c).writeFullSnapshot.1.isOk)) ⟨rfl, .inr rfl⟩
        (.snapshot rfl)
  · exact (Impl.exec_quiet (h.appendsOk hop)).mono fun _ _ ha ↦ ⟨ha.1, .inl ha.2⟩

/-! ### Moves -/

theorem Disk.view_append (d : Disk) (record : JournalRecord) (v : View) :
    ({ d with journal := d.journal ++ [record] } : Disk).view v = (d.view v).apply record := by
  simp only [Disk.view, List.foldl_append, List.foldl_cons, List.foldl_nil]

section Moves

variable {α : Type} {p : Point α} {R : α → α → Prop} {s t : Impl} {a : Label × Bool}

/-- What the journal leaves at the point over any base stands for what memory has there. -/
def Point.Tracked (p : Point α) (R : α → α → Prop) (s : Impl) : Prop :=
  Tracks View.apply p.read R s.store.disk.journal (p.read s.view)

def Point.Mirrored (p : Point α) (R : α → α → Prop) (s : Impl) : Prop :=
  R (p.read (s.store.disk.view View.blank)) (p.read s.view)

theorem Point.Mirrored.tracked (hp : Overwrites View.apply p.read p.write)
    (h : p.Mirrored R s) : p.Tracked R s :=
  hp.tracks h

/-- What a record leaves at the point, or what the state has there if the record does not
write it, stands for what memory has there after the change. -/
def Point.FollowsBy (p : Point α) (R : α → α → Prop) (s m : Impl)
    (record : Option JournalRecord) : Prop :=
  R ((record.bind p.write).getD (p.read s.view)) (p.read m.view)

theorem Point.Follows.related {m : Impl} {record : Option JournalRecord} (h : p.Follows s m record)
    (hR : ∀ x, R x x) : p.FollowsBy R s m record := by
  unfold Point.FollowsBy
  rw [← h]
  exact hR _

theorem Point.Mirrored.journal {j m u : Impl} {record : JournalRecord}
    (hp : Overwrites View.apply p.read p.write) (hload : p.Loads) (hR : ∀ x, R x x)
    (hT : ∀ x y z, R x y → R y z → R x z)
    (hstore : j.store = s.store) (hj : j.journal record = (.ok (), u))
    (hmode : s.store.config.mode ≠ .none) (hi : s.view.Indexed) (him : m.view.Indexed)
    (hview : j.view = s.view ∨ j.view = m.view)
    (hread : p.FollowsBy R s m (some record)) (hs : p.Mirrored R s) :
    p.Mirrored R { m with store := u.store } := by
  rw [← hstore] at hmode
  change R (p.read (u.store.disk.view View.blank)) (p.read m.view)
  have hread : R ((p.write record).getD (p.read s.view)) (p.read m.view) := hread
  rcases Impl.journal_disk hj hmode with hd | hd
  · rw [hd, hstore, Disk.view_append, hp]
    refine hT _ _ _ ?_ hread
    cases p.write record with
    | none => exact hs
    | some x => exact hR x
  · have hj' : p.read (View.blank.load j.image) = p.read j.view := by
      apply hload
      rcases hview with hview | hview
      · rw [hview]
        exact hi
      · rw [hview]
        exact him
    rw [hd]
    change R (p.read ((View.blank.load j.image).apply record)) _
    rw [hp, hj']
    rcases hview with hview | hview
    · rw [hview]
      exact hread
    · -- The image already holds the change: the record writes it once more.
      rw [hview]
      cases hw : p.write record with
      | none => exact hR _
      | some x =>
          rw [hw] at hread
          exact hread

/-- What the directory leaves at a point after a snapshot of memory, whether the journal was
cut or not. -/
theorem Disk.Replaced.mirrors {d d' : Disk} {x : α} (h : Disk.Replaced s.image d d')
    (hload : p.read (View.blank.load s.image) = x) (hR : ∀ x, R x x)
    (htrack : Tracks View.apply p.read R d.journal x) (hd : R (p.read (d.view View.blank)) x) :
    R (p.read (d'.view View.blank)) x := by
  cases h with
  | same => exact hd
  | replaced =>
      refine htrack.over (s := View.blank.load s.image) ?_
      rw [hload]
      exact hR x
  | compacted =>
      change R (p.read (View.blank.load s.image)) x
      rw [hload]
      exact hR x

theorem Move.mirrored (h : Move s a t) (hp : Overwrites View.apply p.read p.write)
    (hload : p.Loads) (hR : ∀ x, R x x) (hT : ∀ x y z, R x y → R y z → R x z)
    (ha : Journaled a) (hmode : s.store.config.mode ≠ .none) (hi : s.view.Indexed)
    (hfollow : ∀ record m, Change s a.1 record m → p.FollowsBy R s m record)
    (hs : p.Mirrored R s) : p.Mirrored R t := by
  cases h with
  | volatile h =>
      have hread : R (p.read s.view) (p.read t.view) := hfollow none t h
      unfold Point.Mirrored
      rw [h.frame.1]
      exact hT _ _ _ hs hread
  | written h hstore hview hj =>
      exact hs.journal hp hload hR hT hstore hj hmode hi (h.indexed hi) hview (hfollow _ _ h)
  | unlogged h => exact ha.elim nofun fun hl ↦ by cases hl; cases h
  | refused hj => exact ha.elim nofun nofun
  | lostRelease hsh hj => exact ha.elim nofun nofun
  | snapshot h =>
      obtain ⟨hview, hd⟩ := Impl.writeFullSnapshot_disk h
      unfold Point.Mirrored
      rw [hview]
      exact hd.mirrors (hload s hi) hR (Point.Mirrored.tracked hp hs) hs

/-! ### Runs of moves -/

/-- An instance that writes a directory: its entries are stored under their own keys. -/
def Impl.Writing (s : Impl) : Prop := s.view.Indexed ∧ s.store.config.mode ≠ .none

theorem Move.writing (h : Move s a t) (hs : s.Writing) : t.Writing :=
  ⟨h.indexed hs.1, by rw [h.disks.1]; exact hs.2⟩

theorem Impl.Writing.enter (h : s.Writing) (c : Call) : (s.enter c).Writing := h

variable {allow : Impl → Label × Bool → Prop}

theorem Point.Mirrored.run (h : StepPath Move allow s t) (hw : s.Writing)
    (hp : Overwrites View.apply p.read p.write) (hload : p.Loads) (hR : ∀ x, R x x)
    (hT : ∀ x y z, R x y → R y z → R x z) (hallow : ∀ u a, allow u a → Journaled a)
    (hfollow : ∀ u a record m, allow u a → u.view.Keyed → Change u a.1 record m →
      p.FollowsBy R u m record) (hs : p.Mirrored R s) : p.Mirrored R t := by
  refine (h.invariant (I := fun u ↦ u.Writing ∧ p.Mirrored R u) ?_ ⟨hw, hs⟩).2
  intro u a v hu ha hmove
  exact ⟨hmove.writing hu.1, hmove.mirrored hp hload hR hT (hallow u a ha) hu.1.2 hu.1.1
    (fun record m hc ↦ hfollow u a record m ha hu.1.1.keyed hc) hu.2⟩

/-- The record of a new epoch changes nothing a snapshot holds. -/
theorem Point.Mirrored.beginEpoch (hw : s.Writing) (hp : Overwrites View.apply p.read p.write)
    (hload : p.Loads) (hR : ∀ x, R x x) (hT : ∀ x y z, R x y → R y z → R x z)
    {epoch : EpochId} {boot : BootIncarnation}
    (hj : s.journal (.epochAdvance epoch boot) = (.ok (), t)) (hs : p.Mirrored R s) :
    p.Mirrored R t := by
  have hsame : p.Follows s s (some (.epochAdvance epoch boot)) :=
    hp s.view (.epochAdvance epoch boot)
  rw [Impl.eq_of_journal hj]
  exact hs.journal hp hload hR hT rfl hj hw.2 hw.1 hw.1 (.inl rfl) (hsame.related hR)

/-- Whatever the write of a new epoch leaves in the directory, it stands for what memory
has. -/
theorem Disk.Next.mirrors {d d' : Disk} {x : α} {epoch : EpochId} {boot : BootIncarnation}
    (h : Disk.Next s.image (.epochAdvance epoch boot) d d')
    (hload : p.read (View.blank.load s.image) = x) (hR : ∀ x, R x x)
    (htrack : Tracks View.apply p.read R d.journal x) (hd : R (p.read (d.view View.blank)) x) :
    R (p.read (d'.view View.blank)) x := by
  cases h with
  | same => exact hd
  | appended =>
      rw [Disk.view_append]
      exact hd
  | replaced => exact Disk.Replaced.replaced.mirrors hload hR htrack hd
  | compacted => exact Disk.Replaced.compacted.mirrors hload hR htrack hd
  | restarted =>
      change R (p.read ((View.blank.load s.image).apply (.epochAdvance epoch boot))) x
      rw [← hload]
      exact hR _

end Moves

/-! ### Opening -/

theorem View.Indexed.openedView {v : View} (h : v.Indexed) {d : Disk} (tick : Tick) :
    ((d.view v).settled tick).Indexed := by
  apply View.Indexed.settled
  unfold Disk.view
  apply View.Indexed.foldl
  cases d.snapshot with
  | none => exact h
  | some i => exact h.load i

/-- A successful open in a durable mode: the state that was loaded, and the epoch it
journals. -/
theorem Impl.openFabric_loaded {s t : Impl} {config : FabricConfig} {boot : BootInputs}
    (h : s.openFabric config boot = (.ok (), t)) (hmode : config.persistence.mode ≠ .none)
    (hi : s.view.Indexed) :
    ∃ m : Impl, m.view = (s.store.disk.view s.view).settled s.tick ∧
      m.store.disk = s.store.disk ∧ m.Writing ∧
      m.journal (.epochAdvance m.epoch m.boot) = (.ok (), t) := by
  rcases Impl.openFabric_cases h hmode with ⟨⟨e, he⟩, -⟩ |
    ⟨m, t', res, hview, hdisk, -, hconfig, -, hj, -, -, hok⟩
  · cases he
  · obtain ⟨rfl, rfl⟩ := hok rfl
    refine ⟨m, hview, hdisk, ⟨?_, by rw [hconfig]; exact hmode⟩, hj⟩
    rw [hview]
    exact hi.openedView s.tick

/-- What an attempt to open a directory can leave in it: what was there, or what the write
of the new epoch leaves. -/
theorem Impl.openFabric_disks {s t : Impl} {config : FabricConfig} {boot : BootInputs}
    {r : Except Status Unit} (h : s.openFabric config boot = (r, t))
    (hmode : config.persistence.mode ≠ .none) (hi : s.view.Indexed) (htrail : s.store.trail = [])
    {d : Disk} (hd : d = t.store.disk ∨ d ∈ t.store.trail) :
    d = s.store.disk ∨ ∃ m : Impl, m.view = (s.store.disk.view s.view).settled s.tick ∧
      m.view.Indexed ∧ Disk.Next m.image (.epochAdvance m.epoch m.boot) s.store.disk d := by
  rcases Impl.openFabric_cases h hmode with ⟨-, hsame, hnone⟩ |
    ⟨m, t', res, hview, hdisk, htrail', -, -, hj, hd', ht', -⟩
  · rw [hnone, htrail] at hd
    rcases hd with hd | hd
    · exact .inl (hd.trans hsame)
    · cases hd
  · refine or_iff_not_imp_left.mpr fun hne ↦ ⟨m, hview, hview ▸ hi.openedView s.tick, ?_⟩
    obtain ⟨st, hst, hf, -⟩ := m.journal_spec (.epochAdvance m.epoch m.boot)
    rw [hj] at hst
    simp only at hst
    subst hst
    rw [hdisk] at hf
    rw [hd', ht'] at hd
    rcases hd with rfl | hd
    · rcases hf.disk with hd | hd
      · exact absurd (hd.trans hdisk) hne
      · exact hd
    · rcases hf.trail d hd with hd | hd
      · rw [htrail', htrail] at hd
        cases hd
      · exact hd

theorem Impl.Writing.journal {s t : Impl} {record : JournalRecord} {r : Except Status Unit}
    (h : s.Writing) (hj : s.journal record = (r, t)) : t.Writing := by
  obtain ⟨st, hst, hf, -⟩ := s.journal_spec record
  rw [hj] at hst
  simp only at hst
  subst hst
  have hconfig : st.config = s.store.config := hf.config
  refine ⟨h.1, ?_⟩
  change st.config.mode ≠ .none
  rw [hconfig]
  exact h.2

/-! ### The topology on disk -/

structure Point.Topological {α : Type} (p : Point α) : Prop where
  overwrites : Overwrites View.apply p.read p.write
  loads : p.Loads
  inTopology : p.InTopology

namespace Point

theorem capacity_topological (k : ResourceId) : (capacity k).Topological :=
  ⟨capacity_overwrites k, capacity_loads k, capacity_inTopology k⟩

theorem policy_topological (k : PolicyId) : (policy k).Topological :=
  ⟨policy_overwrites k, policy_loads k, policy_inTopology k⟩

theorem pool_topological (k : PoolId) : (pool k).Topological :=
  ⟨pool_overwrites k, pool_loads k, pool_inTopology k⟩

theorem Topological.run {α : Type} {p : Point α} (hp : p.Topological) {s t : Impl}
    {allow : Impl → Label × Bool → Prop} (h : StepPath Move allow s t) (hw : s.Writing)
    (hallow : ∀ u a, allow u a → Journaled a) (hs : p.Mirrored (· = ·) s) :
    p.Mirrored (· = ·) t :=
  Point.Mirrored.run h hw hp.overwrites hp.loads (fun _ ↦ rfl) (fun _ _ _ ↦ Eq.trans) hallow
    (fun _ _ _ _ _ hk hc ↦ (hp.inTopology.follows hp.overwrites hc hk).related fun _ ↦ rfl) hs

theorem Topological.beginEpoch {α : Type} {p : Point α} (hp : p.Topological) {s t : Impl}
    (hw : s.Writing) {epoch : EpochId} {boot : BootIncarnation}
    (hj : s.journal (.epochAdvance epoch boot) = (.ok (), t)) (hs : p.Mirrored (· = ·) s) :
    p.Mirrored (· = ·) t :=
  Point.Mirrored.beginEpoch hw hp.overwrites hp.loads (fun _ ↦ rfl) (fun _ _ _ ↦ Eq.trans) hj hs

end Point

def Impl.TopologySaved (s : Impl) : Prop := (s.store.disk.view View.blank).SameTopology s.view

theorem Impl.topologySaved_iff {s : Impl} :
    s.TopologySaved ↔ (∀ k, (Point.capacity k).Mirrored (· = ·) s) ∧
      (∀ k, (Point.policy k).Mirrored (· = ·) s) ∧ ∀ k, (Point.pool k).Mirrored (· = ·) s := by
  constructor
  · intro h
    exact ⟨congrFun h.capacities, congrFun h.policies, congrFun h.pools⟩
  · rintro ⟨hc, hp, ho⟩
    exact ⟨funext hc, funext hp, funext ho⟩

theorem Impl.TopologySaved.run {s t : Impl} {allow : Impl → Label × Bool → Prop}
    (h : StepPath Move allow s t) (hw : s.Writing) (hallow : ∀ u a, allow u a → Journaled a)
    (hs : s.TopologySaved) : t.TopologySaved := by
  obtain ⟨hcap, hpol, hpool⟩ := Impl.topologySaved_iff.mp hs
  exact Impl.topologySaved_iff.mpr
    ⟨fun k ↦ (Point.capacity_topological k).run h hw hallow (hcap k),
      fun k ↦ (Point.policy_topological k).run h hw hallow (hpol k),
      fun k ↦ (Point.pool_topological k).run h hw hallow (hpool k)⟩

theorem Impl.TopologySaved.exec {s : Impl} (h : s.TopologySaved) (hw : s.Writing) {c : Call}
    (hc : JournalsOk s c) : (s.exec c).2.TopologySaved :=
  Impl.TopologySaved.run (s := s.enter c) (Impl.exec_journaled hc) hw (fun _ _ ha ↦ ha.2) h

/-- A new instance that opens a directory has the topology it finds there. -/
theorem Impl.TopologySaved.opened {t : Impl} {disk : Disk} {tick : Tick} {io : List Io}
    {config : FabricConfig} {boot : BootInputs}
    (h : (({} : Impl).attach disk tick io).openFabric config boot = (.ok (), t))
    (hmode : config.persistence.mode ≠ .none) :
    t.TopologySaved ∧ t.Writing ∧ (disk.view View.blank).SameTopology t.view := by
  obtain ⟨m, hview, hdisk, hw, hj⟩ := Impl.openFabric_loaded h hmode View.blank_indexed
  have hm : (disk.view View.blank).SameTopology m.view := by
    rw [hview]
    exact ⟨rfl, rfl, rfl⟩
  have hsaved : m.TopologySaved := by
    unfold Impl.TopologySaved
    rw [hdisk]
    exact hm
  obtain ⟨hcap, hpol, hpool⟩ := Impl.topologySaved_iff.mp hsaved
  refine ⟨Impl.topologySaved_iff.mpr ⟨fun k ↦ ?_, fun k ↦ ?_, fun k ↦ ?_⟩, hw.journal hj, ?_⟩
  · exact (Point.capacity_topological k).beginEpoch hw hj (hcap k)
  · exact (Point.policy_topological k).beginEpoch hw hj (hpol k)
  · exact (Point.pool_topological k).beginEpoch hw hj (hpool k)
  · rw [Impl.eq_of_journal hj]
    exact hm

/-- An attempt of a new instance to open a directory keeps the topology that is there. -/
theorem Impl.openFabric_keepsTopology {t : Impl} {disk d : Disk} {tick : Tick} {io : List Io}
    {config : FabricConfig} {boot : BootInputs} {r : Except Status Unit}
    (h : (({} : Impl).attach disk tick io).openFabric config boot = (r, t))
    (hmode : config.persistence.mode ≠ .none) (hd : d = t.store.disk ∨ d ∈ t.store.trail) :
    (d.view View.blank).SameTopology (disk.view View.blank) := by
  rcases Impl.openFabric_disks h hmode View.blank_indexed rfl hd with rfl |
    ⟨m, hview, hi, hnext⟩
  · exact ⟨rfl, rfl, rfl⟩
  · have hm : m.view.SameTopology (disk.view View.blank) := by
      rw [hview]
      exact ⟨rfl, rfl, rfl⟩
    have key : ∀ {α : Type} {p : Point α}, p.Topological →
        p.read (d.view View.blank) = p.read (disk.view View.blank) := by
      intro α p hp
      have hload := (hp.loads m hi).trans (hp.inTopology _ _ hm)
      exact hnext.mirrors (R := (· = ·)) hload (fun _ ↦ rfl) (hp.overwrites.tracks rfl) rfl
    exact ⟨funext fun k ↦ key (Point.capacity_topological k),
      funext fun k ↦ key (Point.policy_topological k), funext fun k ↦ key (Point.pool_topological k)⟩

/-! ### Runs over one directory -/

theorem Impl.Writing.exec {s : Impl} (h : s.Writing) (c : Call) : (s.exec c).2.Writing :=
  (s.exec_trace c).invariant (fun _ _ _ hi _ hm ↦ hm.writing hi) (h.enter c)

theorem Impl.Writing.rehash {s t : Impl} (h : s.Writing) (hr : s.Rehash t) : t.Writing := by
  have hview := hr.view_eq
  have hstore : t.store = s.store := by
    cases hr
    rfl
  unfold Impl.Writing
  rw [hview, hstore]
  exact h

theorem Impl.Writing.closeFabric {s : Impl} (h : s.Writing) : s.closeFabric.Writing := by
  unfold Impl.closeFabric
  split
  · exact h
  · exact h

/-- A new instance that opens a directory writes it. -/
theorem Impl.Writing.opened {t : Impl} {disk : Disk} {tick : Tick} {io : List Io}
    {config : FabricConfig} {boot : BootInputs}
    (h : (({} : Impl).attach disk tick io).openFabric config boot = (.ok (), t))
    (hmode : config.persistence.mode ≠ .none) : t.Writing := by
  obtain ⟨m, -, -, hw, hj⟩ := Impl.openFabric_loaded h hmode View.blank_indexed
  exact hw.journal hj

def System.Writing (y : System) : Prop := ∀ s, y.live = some s → s.Writing

theorem System.Writing.of_stopped {y : System} (h : y.live = none) : y.Writing := by
  intro s hs
  rw [h] at hs
  cases hs

theorem System.Step.writing {y y' : System} {ev : Event} (h : System.Step y ev y')
    (hy : y.Writing) (hev : y.Durable ev) : y'.Writing := by
  have hsome : ∀ {d : Disk} {t : Impl} {g : List AllocationId}, t.Writing →
      System.Writing { disk := d, live := some t, granted := g } := by
    intro d t g ht s hs
    obtain rfl := Option.some.inj hs
    exact ht
  cases h with
  | opened hidle heq =>
      obtain ⟨hmode, hnone⟩ := hev _ rfl
      cases hidle with
      | fresh => exact hsome (Impl.Writing.opened heq (by rw [hmode]; decide))
      | again hlive =>
          rw [hnone] at hlive
          cases hlive
  | openFailed | openCrashed | crashed | stopped => exact .of_stopped rfl
  | called c hlive => exact hsome ((hy _ hlive).exec c)
  | closed hlive => exact hsome (hy _ hlive).closeFabric
  | rehashed hlive hr => exact hsome ((hy _ hlive).rehash hr)

end BufferFabric
