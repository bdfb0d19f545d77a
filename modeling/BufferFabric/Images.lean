import BufferFabric.Decoding
import BufferFabric.Journaling
import BufferFabric.Sessions
import BufferFabric.Validity

/-!
# Full images

A snapshot payload byte by byte: what `write_full_snapshot` puts into it and what
`apply_snapshot_payload` takes out of it. The loader bounds the number of records of every
section; the writer bounds none of them.
-/

namespace BufferFabric

open ByteReader Outcome

/-! ### The loader on bytes -/

def decodeCounters : Reader UInt8 Counters := do
  let nextPoolId ← getU64
  let nextQueueId ← getU64
  let nextAllocationId ← getU64
  let nextPolicyId ← getU64
  let nextSnapshotId ← getU64
  let nextDecisionSequence ← getU64
  let nextAttemptSequence ← getU64
  pure { nextPoolId, nextQueueId, nextAllocationId, nextPolicyId, nextSnapshotId,
         nextDecisionSequence, nextAttemptSequence }

def readPool (bytes : Bytes) : Except Status ((PoolDescriptor × Generation) × Bytes) := do
  let (descriptor, bytes) ← readOr decodePool "snapshot pool record is not decodable" bytes
  let (generation, bytes) ← readOr getId "snapshot pool capacity generation" bytes
  pure ((descriptor, generation), bytes)

namespace Impl

def readItems {α : Type} (read : Bytes → Except Status (α × Bytes))
    (check : α → Except Status Unit) (restore : Impl → α → Impl) :
    ℕ → Bytes → Impl → Except Status Bytes × Impl
  | 0, bytes, s => (.ok bytes, s)
  | n + 1, bytes, s =>
      match read bytes with
      | .error e => (.error e, s)
      | .ok (x, bytes) =>
        match check x with
        | .error e => (.error e, s)
        | .ok _ => readItems read check restore n bytes (restore s x)

def readSection {α : Type} (bound : ℕ) (message : String)
    (read : Bytes → Except Status (α × Bytes)) (check : α → Except Status Unit)
    (restore : Impl → α → Impl) (bytes : Bytes) (s : Impl) : Except Status Bytes × Impl :=
  match ByteReader.getU32 bytes with
  | none => (.error ⟨.corruptRecord, message⟩, s)
  | some (count, bytes) =>
      if bound < count.toNat then (.error ⟨.corruptRecord, message⟩, s)
      else readItems read check restore count.toNat bytes s

def andRead {β : Type} (r : Except Status Bytes × Impl)
    (next : Bytes → Impl → Except Status β × Impl) : Except Status β × Impl :=
  match r with
  | (.error e, s) => (.error e, s)
  | (.ok bytes, s) => next bytes s

def readSections (bytes : Bytes) (s : Impl) : Except Status Bytes × Impl :=
  andRead (readSection kMaxPolicyCount "snapshot policy count is out of range"
    (readOr decodePolicy "snapshot policy record is not decodable")
    (fun p ↦ require p.IsValid ⟨.corruptRecord, "snapshot contains an invalid policy"⟩)
    restorePolicy bytes s) fun bytes s ↦
  andRead (readSection kMaxPoolCount "snapshot pool count is out of range" readPool
    (fun e ↦ require e.1.IsValid ⟨.corruptRecord, "snapshot contains an invalid pool"⟩)
    (fun s e ↦ s.restorePool e.1 { descriptor := e.1, capacityGeneration := e.2 })
    bytes s) fun bytes s ↦
  andRead (readSection kMaxQueueCount "snapshot queue count is out of range"
    (readOr decodeQueue "snapshot queue record is not decodable")
    (fun _ ↦ .ok ()) restoreQueue bytes s) fun bytes s ↦
  andRead (readSection kMaxAllocationCount "snapshot allocation count is out of range"
    (readOr decodeAllocation "snapshot allocation record is not decodable")
    (fun r ↦ require (r.units ≤ kMaxUnitsPerPool)
      ⟨.corruptRecord, "snapshot allocation units are out of range"⟩)
    restoreAllocation bytes s) fun bytes s ↦
  andRead (readSection kMaxSnapshotCount "snapshot pressure count is out of range"
    (readOr decodePressureSnapshot "snapshot pressure record is not decodable")
    (fun _ ↦ .ok ()) restorePressure bytes s) fun bytes s ↦
  andRead (readSection kMaxAttemptMemory "snapshot attempt count is out of range"
    (readOr decodeAttempt "snapshot attempt record is not decodable")
    (fun _ ↦ .ok ())
    (fun s a ↦ { s with
      attemptOrder := s.attemptOrder ++ [a.id]
      attempts := s.attempts.insert a.id a })
    bytes s) fun bytes s ↦
  readSection kMaxPoolCount "snapshot capacity count is out of range"
    (readOr decodeCapacity "snapshot capacity record is not decodable")
    (fun _ ↦ .ok ()) restoreCapacity bytes s

/-- `apply_snapshot_payload` on the bytes of the payload: every field is stored as soon as it
was read, and what was stored stays when a later one is refused. -/
def applySnapshotPayload (s : Impl) (payload : Bytes) : Except Status Unit × Impl :=
  match getU8 payload with
  | none => (.error ⟨.corruptRecord, "snapshot payload is not a full image"⟩, s)
  | some (kind, bytes) =>
    if kind ≠ 0xFF then (.error ⟨.corruptRecord, "snapshot payload is not a full image"⟩, s)
    else
      match getId bytes with
      | none => (.error ⟨.corruptRecord, "snapshot image header"⟩, s)
      | some (epoch, bytes) =>
        let s := { s with epoch := epoch }
        match getU64 bytes with
        | none => (.error ⟨.corruptRecord, "snapshot boot"⟩, s)
        | some (hi, bytes) =>
          let s := { s with boot := { s.boot with hi := hi } }
          match getU64 bytes with
          | none => (.error ⟨.corruptRecord, "snapshot boot"⟩, s)
          | some (lo, bytes) =>
            let s := { s with boot := { s.boot with lo := lo } }
            match decodeCounters bytes with
            | none => (.error ⟨.corruptRecord, "snapshot counters"⟩, s)
            | some (counters, bytes) =>
              andRead (readSections bytes { s with counters := counters.restored }) fun bytes s ↦
                if bytes = [] then (.ok (), s)
                else (.error ⟨.corruptRecord, "snapshot payload has trailing bytes"⟩, s)

/-! ### The loader on what was written -/

/-- The sections of `apply_snapshot_payload` on a decoded image. -/
def loadSections (i : Image) (s : Impl) : Except Status Unit × Impl :=
  andThen (loadSection kMaxPolicyCount "snapshot policy count is out of range"
    (fun p ↦ require p.IsValid ⟨.corruptRecord, "snapshot contains an invalid policy"⟩)
    restorePolicy i.policies s) fun s ↦
  andThen (loadSection kMaxPoolCount "snapshot pool count is out of range"
    (fun e ↦ require e.1.IsValid ⟨.corruptRecord, "snapshot contains an invalid pool"⟩)
    (fun s e ↦ s.restorePool e.1 { descriptor := e.1, capacityGeneration := e.2 })
    i.pools s) fun s ↦
  andThen (loadSection kMaxQueueCount "snapshot queue count is out of range"
    (fun _ ↦ .ok ()) restoreQueue i.queues s) fun s ↦
  andThen (loadSection kMaxAllocationCount "snapshot allocation count is out of range"
    (fun r ↦ require (r.units ≤ kMaxUnitsPerPool)
      ⟨.corruptRecord, "snapshot allocation units are out of range"⟩)
    restoreAllocation i.allocations s) fun s ↦
  andThen (loadSection kMaxSnapshotCount "snapshot pressure count is out of range"
    (fun _ ↦ .ok ()) restorePressure i.pressure s) fun s ↦
  andThen (loadSection kMaxAttemptMemory "snapshot attempt count is out of range"
    (fun _ ↦ .ok ())
    (fun s a ↦ { s with
      attemptOrder := s.attemptOrder ++ [a.id]
      attempts := s.attempts.insert a.id a })
    i.attempts s) fun s ↦
  loadSection kMaxPoolCount "snapshot capacity count is out of range"
    (fun _ ↦ .ok ()) restoreCapacity i.capacities s

theorem applySnapshot_eq (s : Impl) (i : Image) :
    s.applySnapshot i =
      loadSections i { s with epoch := i.epoch, boot := i.boot, counters := i.counters.restored } :=
  rfl

theorem readItems_flatMap {α : Type} {put : α → Bytes} {read : Bytes → Except Status (α × Bytes)}
    {check : α → Except Status Unit} {restore : Impl → α → Impl} {items : List α}
    (hread : ∀ x ∈ items, ∀ rest, read (put x ++ rest) = .ok (x, rest)) (rest : Bytes) (s : Impl) :
    readItems read check restore items.length (items.flatMap put ++ rest) s =
      match loadAll check restore items s with
      | (.error e, t) => (.error e, t)
      | (.ok _, t) => (.ok rest, t) := by
  induction items generalizing s with
  | nil => rfl
  | cons x items ih =>
      rw [List.flatMap_cons, List.append_assoc, List.length_cons, readItems,
        hread x List.mem_cons_self, loadAll]
      cases hx : check x with
      | error e => simp only [hx]
      | ok u =>
          simp only [hx]
          exact ih (fun y hy ↦ hread y (List.mem_cons_of_mem _ hy)) _

/-- A section that was written is read like the list of its records. -/
theorem andRead_readSection {α : Type} {bound : ℕ} {message : String} {put : α → Bytes}
    {read : Bytes → Except Status (α × Bytes)} {check : α → Except Status Unit}
    {restore : Impl → α → Impl} {items : List α}
    (hread : ∀ x ∈ items, ∀ rest, read (put x ++ rest) = .ok (x, rest))
    (hcount : items.length < 4294967296) (rest : Bytes) (s : Impl)
    (next : Bytes → Impl → Except Status Unit × Impl) :
    andRead (readSection bound message read check restore (encodeAll put items ++ rest) s) next =
      andThen (loadSection bound message check restore items s) fun t ↦ next rest t := by
  have hlen : (UInt32.ofNat items.length).toNat = items.length := by
    rw [UInt32.toNat_ofNat']
    exact Nat.mod_eq_of_lt hcount
  unfold readSection loadSection encodeAll
  rw [List.append_assoc, ByteReader.getU32_putU32]
  simp only [hlen]
  split
  · rfl
  · rw [readItems_flatMap hread]
    cases loadAll check restore items s with
    | mk result t => cases result <;> rfl

theorem readPool_put {e : PoolDescriptor × Generation} (h : nameFits e.1.name = true)
    (rest : Bytes) : readPool (encodePool e.1 ++ putId e.2 ++ rest) = .ok (e, rest) := by
  unfold readPool
  rw [List.append_assoc, readOr_put decodePool_encode _ h]
  simp only [readOr, getId_putId, bind, Except.bind]
  rfl

theorem andRead_assoc {β : Type} (r : Except Status Bytes × Impl)
    (f : Bytes → Impl → Except Status Bytes × Impl) (g : Bytes → Impl → Except Status β × Impl) :
    andRead (andRead r f) g = andRead r fun bytes s ↦ andRead (f bytes s) g := by
  obtain ⟨result, s⟩ := r
  cases result <;> rfl

end Impl

/-- The number of records of every section can be written in 32 bits. -/
structure Image.Counted (i : Image) : Prop where
  policies : i.policies.length < 4294967296
  pools : i.pools.length < 4294967296
  queues : i.queues.length < 4294967296
  allocations : i.allocations.length < 4294967296
  pressure : i.pressure.length < 4294967296
  attempts : i.attempts.length < 4294967296
  capacities : i.capacities.length < 4294967296

theorem decodeCounters_encode : Reader.Inverts decodeCounters encodeCounters fun _ ↦ True := by
  intro c _ rest
  unfold encodeCounters decodeCounters
  repeat rw [List.append_assoc]
  rw [getU64_bind, getU64_bind, getU64_bind, getU64_bind, getU64_bind, getU64_bind, getU64_bind]
  rfl

namespace Impl

theorem andThen_assoc (r : Except Status Unit × Impl) (f g : Impl → Except Status Unit × Impl) :
    andThen (andThen r f) g = andThen r fun s ↦ andThen (f s) g := by
  obtain ⟨result, s⟩ := r
  cases result <;> rfl

/-- The sections of an image that was written, one after the other. -/
theorem readSections_encode {i : Image} (hnames : i.encodable = true) (hcount : i.Counted)
    (s : Impl) (next : Bytes → Impl → Except Status Unit × Impl) :
    andRead (readSections (encodeAll encodePolicy i.policies ++
      (encodeAll (fun e ↦ encodePool e.1 ++ putId e.2) i.pools ++
      (encodeAll encodeQueue i.queues ++ (encodeAll encodeAllocation i.allocations ++
      (encodeAll encodePressureSnapshot i.pressure ++ (encodeAll encodeAttempt i.attempts ++
      (encodeAll encodeCapacity i.capacities ++ []))))))) s) next =
    andThen (loadSections i s) fun t ↦ next [] t := by
  simp only [Image.encodable, Bool.and_eq_true, List.all_eq_true] at hnames
  obtain ⟨⟨hpolicies, hpools⟩, hqueues⟩ := hnames
  unfold readSections loadSections
  simp only [andRead_assoc, andThen_assoc]
  rw [andRead_readSection (fun p hp ↦ readOr_put decodePolicy_encode _ (hpolicies p hp))
    hcount.policies]
  refine congrArg (andThen _) (funext fun s ↦ ?_)
  rw [andRead_readSection (fun e he ↦ readPool_put (hpools e he)) hcount.pools]
  refine congrArg (andThen _) (funext fun s ↦ ?_)
  rw [andRead_readSection (fun q hq ↦ readOr_put decodeQueue_encode _ (hqueues q hq))
    hcount.queues]
  refine congrArg (andThen _) (funext fun s ↦ ?_)
  rw [andRead_readSection (fun _ _ ↦ readOr_put decodeAllocation_encode _ trivial)
    hcount.allocations]
  refine congrArg (andThen _) (funext fun s ↦ ?_)
  rw [andRead_readSection (fun _ _ ↦ readOr_put decodePressureSnapshot_encode _ trivial)
    hcount.pressure]
  refine congrArg (andThen _) (funext fun s ↦ ?_)
  rw [andRead_readSection (fun _ _ ↦ readOr_put decodeAttempt_encode _ trivial) hcount.attempts]
  refine congrArg (andThen _) (funext fun s ↦ ?_)
  exact andRead_readSection (fun _ _ ↦ readOr_put decodeCapacity_encode _ trivial)
    hcount.capacities _ _ _

/-- On the payload of an image the loader does what it does with the image. -/
theorem applySnapshotPayload_encode {i : Image} (hnames : i.encodable = true) (hcount : i.Counted)
    (s : Impl) : s.applySnapshotPayload i.encode = s.applySnapshot i := by
  have hencode : i.encode = putU8 0xFF ++ (putId i.epoch ++ (putU64 i.boot.hi ++
      (putU64 i.boot.lo ++ (encodeCounters i.counters ++ (encodeAll encodePolicy i.policies ++
      (encodeAll (fun e ↦ encodePool e.1 ++ putId e.2) i.pools ++
      (encodeAll encodeQueue i.queues ++ (encodeAll encodeAllocation i.allocations ++
      (encodeAll encodePressureSnapshot i.pressure ++ (encodeAll encodeAttempt i.attempts ++
      (encodeAll encodeCapacity i.capacities ++ []))))))))))) := by
    unfold Image.encode
    simp only [List.append_assoc, List.append_nil]
  have hcounters := decodeCounters_encode i.counters trivial
  unfold applySnapshotPayload
  rw [hencode, getU8_putU8]
  simp only [ne_eq, not_true_eq_false, if_false, getId_putId, getU64_putU64, hcounters]
  rw [readSections_encode hnames hcount]
  simp only [if_true]
  rw [applySnapshot_eq]
  generalize loadSections i _ = r
  obtain ⟨result, t⟩ := r
  cases result <;> rfl

end Impl

/-! ### What the image restores -/

theorem View.Indexed.disk {v : View} (h : v.Indexed) (d : Disk) : (d.view v).Indexed := by
  unfold Disk.view
  refine View.Indexed.foldl ?_ _
  cases d.snapshot with
  | none => exact h
  | some i => exact h.load i

/-- In every run every entry is stored under its own id. -/
theorem System.Run.indexed {allow : System → Event → Prop} {y : System} (h : System.Run allow y)
    {s : Impl} (hlive : y.live = some s) : s.view.Indexed := by
  refine System.Run.views (I := View.Indexed) View.blank_indexed ?_ ?_ h hlive
  · intro s c hs
    exact (s.exec_trace c).invariant (I := fun t ↦ t.view.Indexed) (fun _ _ _ ht _ hm ↦
      hm.indexed ht) hs
  · intro s t config boot heq hs
    rcases Impl.openFabric_view heq with hview | ⟨-, -, hview⟩
    · rw [hview]
      exact hs
    · rw [hview]
      exact (hs.disk _).settled _

theorem View.load_queues {s : Impl} (hi : s.view.Indexed) :
    (View.blank.load s.image).queues = s.view.queues := by
  have h := Table.overlay_values QueueDescriptor.id id hi.keyed.queues
  funext k
  exact (congrFun h k).trans (Option.map_id_fun ▸ rfl)

/-- What a loop leaves alone, if each of its rounds does. -/
theorem foldl_frame {σ α β : Type} (π : σ → β) {f : σ → α → σ} (h : ∀ s x, π (f s x) = π s)
    (l : List α) (s : σ) : π (l.foldl f s) = π s := by
  induction l generalizing s with
  | nil => rfl
  | cons x l ih => rw [List.foldl_cons, ih, h]

namespace Impl

def latestOf (s : Impl) (p : PoolId) : Option PressureSnapshot :=
  (s.pressure.lookup p).map (·.latest)

theorem latestOf_foldl_restorePressure (l : List PressureSnapshot) (s : Impl) :
    (l.foldl restorePressure s).latestOf = Table.overlay (·.pool) l s.latestOf := by
  induction l generalizing s with
  | nil => rfl
  | cons p l ih =>
      have hstep : (s.restorePressure p).latestOf = Function.update s.latestOf p.pool (some p) := by
        funext q
        unfold latestOf restorePressure
        rw [Table.lookup_insert_eq, Function.update_apply]
        split <;> rfl
      rw [List.foldl_cons, ih, hstep]
      rfl

theorem latestOf_loadImage (s : Impl) (i : Image) :
    (s.loadImage i).latestOf = Table.overlay (·.pool) i.pressure s.latestOf := by
  unfold loadImage
  refine (foldl_frame latestOf ?_ _ _).trans ?_
  · exact fun _ _ ↦ rfl
  refine (foldl_frame latestOf ?_ _ _).trans ?_
  · exact fun _ _ ↦ rfl
  rw [latestOf_foldl_restorePressure]
  refine congrArg (Table.overlay _ _) ?_
  refine (foldl_frame latestOf ?_ _ _).trans ?_
  · exact fun _ _ ↦ rfl
  refine (foldl_frame latestOf ?_ _ _).trans ?_
  · exact fun _ _ ↦ rfl
  refine (foldl_frame latestOf ?_ _ _).trans ?_
  · exact fun _ _ ↦ rfl
  refine foldl_frame latestOf ?_ _ _
  exact fun _ _ ↦ rfl

def origin (s : Impl) : EpochId × BootIncarnation := (s.epoch, s.boot)

theorem origin_loadImage (s : Impl) (i : Image) : (s.loadImage i).origin = (i.epoch, i.boot) := by
  unfold loadImage
  refine (foldl_frame origin ?_ _ _).trans ?_
  · exact fun _ _ ↦ rfl
  refine (foldl_frame origin ?_ _ _).trans ?_
  · exact fun _ _ ↦ rfl
  refine (foldl_frame origin ?_ _ _).trans ?_
  · exact fun _ _ ↦ rfl
  refine (foldl_frame origin ?_ _ _).trans ?_
  · exact fun _ _ ↦ rfl
  refine (foldl_frame origin ?_ _ _).trans ?_
  · exact fun _ _ ↦ rfl
  refine (foldl_frame origin ?_ _ _).trans ?_
  · exact fun _ _ ↦ rfl
  refine foldl_frame origin ?_ _ _
  exact fun _ _ ↦ rfl

structure Reproduces (s t : Impl) : Prop where
  epoch : t.epoch = s.epoch
  boot : t.boot = s.boot
  counters : t.counters = s.counters
  policies : ∀ k, t.policies.lookup k = s.policies.lookup k
  pools : ∀ k, (t.pools.lookup k).map PoolEntry.shape = (s.pools.lookup k).map PoolEntry.shape
  queues : ∀ k, t.queues.lookup k = s.queues.lookup k
  allocations : ∀ k, t.allocations.lookup k = s.allocations.lookup k
  pressure : ∀ k, t.latestOf k = s.latestOf k
  attempts : ∀ k, t.attempts.lookup k = s.attempts.lookup k
  capacities : ∀ k, t.capacities.lookup k = s.capacities.lookup k

theorem image_pressure {s : Impl} (hp : s.PressureKeyed) :
    s.image.pressure = s.pressure.toList.map fun e ↦ e.2.latest := by
  have hall : s.pressure.toList.filter (fun e ↦ e.2.hasLatest) = s.pressure.toList := by
    rw [List.filter_eq_self]
    rintro ⟨p, e⟩ he
    exact (hp p e (Table.mem_toList.mp he)).1
  unfold image
  simp only [hall]

theorem loadImage_reproduces {s : Impl} (hi : s.view.Indexed) (hp : s.PressureKeyed)
    (ha : s.AttemptsKeyed) (hc : s.counters.restored = s.counters) :
    s.Reproduces (({} : Impl).loadImage s.image) := by
  obtain ⟨hview, -⟩ := ({} : Impl).loadImage_spec s.image
  obtain ⟨-, hattempts, -⟩ := ({} : Impl).loadImage_attempts s.image
  have horigin := Prod.mk.inj (({} : Impl).origin_loadImage s.image)
  have hblank : ({} : Impl).view = View.blank := rfl
  rw [hblank] at hview
  refine ⟨horigin.1, horigin.2, ?_, ?_, ?_, ?_, ?_, ?_, ?_, ?_⟩
  · exact (congrArg View.counters hview).trans hc
  · exact fun k ↦ (congrArg (·.policies k) hview).trans (Point.policy_loads k s hi)
  · exact fun k ↦ (congrArg (·.pools k) hview).trans (Point.pool_loads k s hi)
  · exact fun k ↦ (congrArg (·.queues k) hview).trans (congrFun (View.load_queues hi) k)
  · exact fun k ↦ (congrArg (·.allocations k) hview).trans (Point.allocation_loads k s hi)
  · intro k
    rw [latestOf_loadImage, image_pressure hp]
    have h := Table.overlay_values PressureSnapshot.pool PressureEntry.latest
      fun p e he ↦ (hp p e he).2
    exact congrFun h k
  · intro k
    have hload := Table.lookup_foldl_insert AttemptRecord.id s.image.attempts ∅
    have h := Table.overlay_values AttemptRecord.id id ha
    rw [hattempts]
    exact (congrFun hload k).trans ((congrFun h k).trans (Option.map_id_fun ▸ rfl))
  · exact fun k ↦ (congrArg (·.capacities k) hview).trans (Point.capacity_loads k s hi)

end Impl

/-! ### Bounds -/

structure Counters.Started (c : Counters) : Prop where
  pool : c.nextPoolId ≠ 0
  queue : c.nextQueueId ≠ 0
  allocation : c.nextAllocationId ≠ 0
  policy : c.nextPolicyId ≠ 0
  snapshot : c.nextSnapshotId ≠ 0
  decision : c.nextDecisionSequence ≠ 0
  attempt : c.nextAttemptSequence ≠ 0

theorem restoredCounter_eq_self {c : UInt64} : restoredCounter c = c ↔ c ≠ 0 := by
  unfold restoredCounter
  split <;> simp_all

theorem Counters.restored_eq_self {c : Counters} : c.restored = c ↔ c.Started := by
  unfold restored
  constructor
  · intro h
    obtain ⟨⟩ := c
    simp only [Counters.mk.injEq, restoredCounter_eq_self] at h
    obtain ⟨hpool, hqueue, hallocation, hpolicy, hsnapshot, hdecision, hattempt⟩ := h
    exact ⟨hpool, hqueue, hallocation, hpolicy, hsnapshot, hdecision, hattempt⟩
  · intro h
    simp only [restoredCounter_eq_self.mpr h.pool, restoredCounter_eq_self.mpr h.queue,
      restoredCounter_eq_self.mpr h.allocation, restoredCounter_eq_self.mpr h.policy,
      restoredCounter_eq_self.mpr h.snapshot, restoredCounter_eq_self.mpr h.decision,
      restoredCounter_eq_self.mpr h.attempt]

namespace Impl

/-- What the loader can take: tables within its bounds, and counters that are not 0. -/
structure FitsLoader (s : Impl) : Prop where
  policies : s.policies.size ≤ kMaxPolicyCount
  pools : s.pools.size ≤ kMaxPoolCount
  queues : s.queues.size ≤ kMaxQueueCount
  allocations : s.allocations.size ≤ kMaxAllocationCount
  pressure : s.pressure.size ≤ kMaxSnapshotCount
  attempts : s.attempts.size ≤ kMaxAttemptMemory
  capacities : s.capacities.size ≤ kMaxPoolCount
  counters : s.counters.Started

end Impl

theorem Table.length_toList {κ α : Type} (t : Table κ α) : t.toList.length = t.size := by
  simp [Table.toList, Table.size]

/-- A section is at least as long as the number of its records. -/
theorem le_length_encodeAll {α : Type} {put : α → Bytes} (h : ∀ a, 0 < (put a).length)
    (items : List α) : items.length ≤ (encodeAll put items).length := by
  have hle := Framing.length_le_flatMap h items
  unfold encodeAll
  rw [List.length_append]
  omega

theorem Image.counted_of_length {i : Image} (h : i.encode.length < 4294967296) : i.Counted := by
  have hid : ∀ {tag : IdTag} (v : StrongId tag), (putId v).length = 8 := fun _ ↦ rfl
  have hpolicies : i.policies.length ≤ (encodeAll encodePolicy i.policies).length := by
    refine le_length_encodeAll (fun p ↦ ?_) _
    unfold encodePolicy
    simp only [List.length_append, hid]
    omega
  have hpools : i.pools.length ≤
      (encodeAll (fun e ↦ encodePool e.1 ++ putId e.2) i.pools).length := by
    refine le_length_encodeAll (fun e ↦ ?_) _
    simp only [List.length_append, hid]
    omega
  have hqueues : i.queues.length ≤ (encodeAll encodeQueue i.queues).length := by
    refine le_length_encodeAll (fun q ↦ ?_) _
    unfold encodeQueue
    simp only [List.length_append, hid]
    omega
  have hallocations : i.allocations.length ≤
      (encodeAll encodeAllocation i.allocations).length := by
    refine le_length_encodeAll (fun r ↦ ?_) _
    unfold encodeAllocation
    simp only [List.length_append, hid]
    omega
  have hpressure : i.pressure.length ≤
      (encodeAll encodePressureSnapshot i.pressure).length := by
    refine le_length_encodeAll (fun p ↦ ?_) _
    unfold encodePressureSnapshot
    simp only [List.length_append, hid]
    omega
  have hattempts : i.attempts.length ≤ (encodeAll encodeAttempt i.attempts).length := by
    refine le_length_encodeAll (fun a ↦ ?_) _
    unfold encodeAttempt
    simp only [List.length_append, hid]
    omega
  have hcapacities : i.capacities.length ≤ (encodeAll encodeCapacity i.capacities).length := by
    refine le_length_encodeAll (fun c ↦ ?_) _
    unfold encodeCapacity
    simp only [List.length_append, hid]
    omega
  simp only [Image.encode, List.length_append] at h
  refine ⟨?_, ?_, ?_, ?_, ?_, ?_, ?_⟩ <;> omega

namespace Impl

/-- An image that was written is one the loader can be asked to read. -/
theorem writeFullSnapshot_written {s t : Impl} (hs : s.Synced)
    (hw : s.writeFullSnapshot = (.ok (), t)) :
    t.store.disk.snapshot = some s.image ∧ s.image.encodable = true ∧ s.image.Counted := by
  have hmode : s.store.config.mode ≠ .none := by
    rw [hs.mode]
    simp
  obtain ⟨-, -, -, hmax⟩ := PersistenceConfig.validate_ok hs.valid
  have hmax' : kMaxSnapshotBytes < 4294967296 := by decide
  obtain ⟨st, hst, -, hres⟩ := s.writeFullSnapshot_spec
  have hres := hres.resolve_right fun h ↦ by
    rw [hw] at h
    obtain ⟨⟨e, he⟩, -⟩ := h
    cases he
  rw [hw] at hst
  have ht : t = { s with store := st } := hst
  refine ⟨?_, ?_⟩
  · rw [ht]
    exact congrArg Disk.snapshot (hres.2.2 hmode)
  · cases hwrite : s.store.writeFullSnapshot s.image with
    | mk result st' =>
        unfold writeFullSnapshot at hw
        rw [hwrite] at hw
        cases result with
        | error e => cases hw
        | ok u =>
            unfold DurableStore.writeFullSnapshot at hwrite
            rw [if_neg hmode] at hwrite
            split at hwrite
            · cases hwrite
            · rename_i hnames
              unfold DurableStore.writeSnapshot at hwrite
              split at hwrite
              · cases hwrite
              · split at hwrite
                · cases hwrite
                · rename_i hsize
                  refine ⟨by simpa using hnames, Image.counted_of_length ?_⟩
                  omega

end Impl

namespace Impl

/-- The sections of an image are as long as the tables they come from. -/
theorem image_loadable_iff {s : Impl} (hv : s.view.Valid) (hp : s.PressureKeyed)
    (hc : s.counters.Started) : s.image.Loadable ↔ s.FitsLoader := by
  have hpressure : s.image.pressure.length = s.pressure.size := by
    rw [image_pressure hp, List.length_map, Table.length_toList]
  have hlength : ∀ {κ α β : Type} (t : Table κ α) (f : κ × α → β),
      (t.toList.map f).length = t.size := by
    intro κ α β t f
    rw [List.length_map, Table.length_toList]
  constructor
  · intro h
    exact
      { policies := (hlength s.policies _).symm.trans_le h.policies.1
        pools := (hlength s.pools _).symm.trans_le h.pools.1
        queues := (hlength s.queues _).symm.trans_le h.queues
        allocations := (hlength s.allocations _).symm.trans_le h.allocations.1
        pressure := hpressure.symm.trans_le h.pressure
        attempts := (hlength s.attempts _).symm.trans_le h.attempts
        capacities := (hlength s.capacities _).symm.trans_le h.capacities
        counters := hc }
  · intro h
    refine ⟨⟨(hlength s.policies _).trans_le h.policies, ?_⟩,
      ⟨(hlength s.pools _).trans_le h.pools, ?_⟩, (hlength s.queues _).trans_le h.queues,
      ⟨(hlength s.allocations _).trans_le h.allocations, ?_⟩, hpressure.trans_le h.pressure,
      (hlength s.attempts _).trans_le h.attempts, (hlength s.capacities _).trans_le h.capacities⟩
    · intro p hmem
      obtain ⟨⟨k, p⟩, he, rfl⟩ := List.mem_map.mp hmem
      exact hv.policies k p (Table.mem_toList.mp he)
    · intro e hmem
      obtain ⟨⟨k, e⟩, he, rfl⟩ := List.mem_map.mp hmem
      have hlookup : s.view.pools k = some e.shape :=
        congrArg (Option.map PoolEntry.shape) (Table.mem_toList.mp he)
      exact hv.pools k e.shape hlookup
    · intro r hmem
      obtain ⟨⟨k, r⟩, he, rfl⟩ := List.mem_map.mp hmem
      exact hv.allocations k r (Table.mem_toList.mp he)

end Impl

/-- In every durable run, a full snapshot that was written loads back if and only if its
tables are within the bounds of the loader and no counter has wrapped around to 0. -/
theorem image_loads_back_iff {y : System} {s t : Impl} (hrun : System.Run System.Durable y)
    (hlive : y.live = some s) (hw : s.writeFullSnapshot = (.ok (), t)) :
    ∃ i, t.store.disk.snapshot = some i ∧
      ((∃ u, ({} : Impl).applySnapshotPayload i.encode = (.ok (), u) ∧ s.Reproduces u) ↔
        s.FitsLoader) := by
  have hi := hrun.indexed hlive
  have hv := hrun.valid hlive
  have hp := hrun.pressureKeyed hlive
  have ha := (System.Run.remembering (hrun.mono fun _ _ ↦ System.Durable.newInstances) hlive).keyed
  obtain ⟨hdisk, hnames, hcount⟩ := Impl.writeFullSnapshot_written (hrun.synced hlive) hw
  refine ⟨s.image, hdisk, ?_⟩
  rw [Impl.applySnapshotPayload_encode hnames hcount]
  constructor
  · rintro ⟨u, hload, hsame⟩
    obtain ⟨hloadable, rfl⟩ := Impl.applySnapshot_ok.mp hload
    obtain ⟨hview, -⟩ := ({} : Impl).loadImage_spec s.image
    have hc : s.counters.restored = s.counters :=
      (congrArg View.counters hview).symm.trans hsame.counters
    exact (Impl.image_loadable_iff hv hp (Counters.restored_eq_self.mp hc)).mp hloadable
  · intro hfits
    refine ⟨_, Impl.applySnapshot_ok.mpr ⟨?_, rfl⟩, ?_⟩
    · exact (Impl.image_loadable_iff hv hp hfits.counters).mpr hfits
    · exact Impl.loadImage_reproduces hi hp ha (Counters.restored_eq_self.mpr hfits.counters)

def Impl.fitsCheck (s : Impl) : Bool :=
  decide (s.policies.size ≤ kMaxPolicyCount) && decide (s.pools.size ≤ kMaxPoolCount) &&
    decide (s.queues.size ≤ kMaxQueueCount) && decide (s.allocations.size ≤ kMaxAllocationCount) &&
    decide (s.pressure.size ≤ kMaxSnapshotCount) && decide (s.attempts.size ≤ kMaxAttemptMemory) &&
    decide (s.capacities.size ≤ kMaxPoolCount) && decide (s.counters.restored = s.counters)

theorem Impl.fitsCheck_spec {s : Impl} (h : s.fitsCheck = true) : s.FitsLoader := by
  simp only [Impl.fitsCheck, Bool.and_eq_true, decide_eq_true_eq] at h
  obtain ⟨⟨⟨⟨⟨⟨⟨hpolicies, hpools⟩, hqueues⟩, hallocations⟩, hpressure⟩, hattempts⟩, hcapacities⟩,
    hcounters⟩ := h
  exact ⟨hpolicies, hpools, hqueues, hallocations, hpressure, hattempts, hcapacities,
    Counters.restored_eq_self.mp hcounters⟩

/-- The image of a fabric that holds 40 units loads back. -/
theorem held_image_loads_back :
    ∃ (y : System) (s t : Impl) (i : Image), System.Run System.Durable y ∧ y.live = some s ∧
      s.books [] ⟨1⟩ .own = 40 ∧ s.writeFullSnapshot = (.ok (), t) ∧
      t.store.disk.snapshot = some i ∧
      ∃ u, ({} : Impl).applySnapshotPayload i.encode = (.ok (), u) ∧ s.Reproduces u := by
  have h : (System.script durableCheck {} heldScript).any (fun y ↦ y.live.any fun s ↦
      s.fitsCheck && decide (s.books [] ⟨1⟩ .own = 40) && s.writeFullSnapshot.1.toBool) = true := by
    decide +kernel
  obtain ⟨y, hy, h⟩ := (Option.any_eq_true _ _).mp h
  obtain ⟨s, hs, h⟩ := (Option.any_eq_true _ _).mp h
  simp only [Bool.and_eq_true, decide_eq_true_eq] at h
  obtain ⟨⟨hfits, hbooks⟩, hok⟩ := h
  have hrun : System.Run System.Durable y := System.Run.script durableCheck_durable .refl hy
  obtain ⟨t, hw⟩ : ∃ t, s.writeFullSnapshot = (.ok (), t) := by
    cases hw : s.writeFullSnapshot with
    | mk r t =>
        rw [hw] at hok
        cases r with
        | error e => cases hok
        | ok u => exact ⟨t, rfl⟩
  obtain ⟨i, hi, hiff⟩ := image_loads_back_iff hrun hs hw
  exact ⟨y, s, t, i, hrun, hs, hbooks, hw, hi, hiff.mpr (Impl.fitsCheck_spec hfits)⟩

/-! ### One capacity too many -/

def announceCapacity (n : ℕ) : Call :=
  { op := .setCapacity ⟨UInt64.ofNat n⟩ ⟨1⟩ 0 ⟨0⟩
      ⟨true, .ok { smallCapacity with resource := ⟨UInt64.ofNat n⟩ }, .ok ()⟩ }

theorem Table.size_insert {κ α : Type} [DecidableEq κ] {t : Table κ α} {k : κ} (a : α)
    (h : t.lookup k = none) : Table.size (t.insert k a) = t.size + 1 := by
  unfold Table.size
  rw [AList.entries_insert, List.length_cons, List.kerase_of_notMem_keys]
  exact fun hk ↦ Table.notMem_iff.mpr h hk

namespace Impl

/-- An open fabric with one backend and nothing but the capacities of `n` resources. -/
structure Announced (s : Impl) (n : ℕ) : Prop where
  isOpen : s.isOpen = true
  working : ¬s.RefusesWork
  config : s.config = smallConfig
  backend : (s.backends.lookup ⟨1⟩).isSome = true
  persistence : s.store.config = smallConfig.persistence
  configured : s.store.configured = true
  writable : s.store.writable = true
  io : s.store.io = []
  journal : s.store.journalBytes = s.store.bytesWritten
  written : s.store.bytesWritten ≤ 1000 + 57 * n
  size : s.capacities.size = n
  free : ∀ k, n < k → k < 2 ^ 64 → s.capacities.lookup ⟨UInt64.ofNat k⟩ = none
  policies : s.policies = ∅
  pools : s.pools = ∅
  queues : s.queues = ∅
  allocations : s.allocations = ∅
  pressure : s.pressure = ∅
  attempts : s.attempts = ∅

variable {s : Impl} {n : ℕ}

def announcedEntry (s : Impl) (resource : ResourceId) : CapacityEntry :=
  { resource := resource, backend := ⟨1⟩, generation := ⟨1⟩, rawUnits := 1000
    observedAt := s.tick }

def announced (s : Impl) (resource : ResourceId) : Impl :=
  { s with
    capacities := s.capacities.insert resource (s.announcedEntry resource)
    store := { s.store.writeFrame (.capacitySet (s.announcedEntry resource)) with
      journalBytes := s.store.bytesWritten + 57 } }

theorem Announced.takes (h : s.Announced n) (hn : n < 10000) (resource : ResourceId) :
    s.store.TakesRecord (.capacitySet (s.announcedEntry resource)) := by
  have hwritten := h.written
  have hframe : (JournalRecord.capacitySet (s.announcedEntry resource)).frameBytes = 57 := rfl
  refine ⟨?_, h.configured, h.writable, h.io, rfl, ?_, ?_, ?_⟩
  · rw [h.persistence]
    decide
  · change 41 ≤ kMaxJournalRecordBytes
    decide
  · rw [h.journal, h.persistence]
    change _ < 67108864
    omega
  · rw [h.persistence, hframe]
    change _ ≤ 536870912
    omega

theorem Announced.setCapacity (h : s.Announced n) (hn : n < 10000) {resource : ResourceId}
    (hvalid : resource.Valid) :
    s.setCapacity resource ⟨1⟩ 0 ⟨0⟩
        ⟨true, .ok { smallCapacity with resource := resource }, .ok ()⟩ =
      (.ok ⟨1⟩, s.announced resource) := by
  obtain ⟨b, hb⟩ := Option.isSome_iff_exists.mp h.backend
  have hwork : s.requireWorking = .ok () := requireWorking_eq_ok.mpr h.working
  have hopen : s.requireOpen = .ok () := requireOpen_eq_ok.mpr h.isOpen
  have htotal : s.partitionTotal (fun e ↦ decide (e.descriptor.resource = resource))
      "resource capacity total overflowed" = .ok 0 := by
    unfold partitionTotal
    rw [h.pools]
    rfl
  have hone : (⟨1⟩ : BackendId).Valid := by decide
  have husable : ({ smallCapacity with resource := resource } : CapacityAuthority).Usable :=
    ⟨rfl, hvalid, hone⟩
  have hpublish : s.publishCapacity resource ⟨1⟩ 0 ⟨0⟩ { smallCapacity with resource := resource } =
      (.ok ⟨1⟩, s.announced resource) := by
    have hj := journal_of_takes (h.takes hn resource)
    unfold announcedEntry at hj
    unfold publishCapacity
    simp only [hwork, htotal, bind, Except.bind]
    simp [require, smallCapacity, pure, Except.pure, StrongId.Valid, hj, announced, announcedEntry]
    rfl
  unfold Impl.setCapacity
  simp only [hopen, hb, demand, require, hvalid, bind, Except.bind, if_true, if_pos hone,
    if_pos husable, ite_self]
  exact hpublish

theorem Announced.next (h : s.Announced n) (hn : n < 10000) :
    (s.exec (announceCapacity (n + 1))).2.Announced (n + 1) := by
  have hraw : (UInt64.ofNat (n + 1)).toNat = n + 1 := by
    rw [UInt64.toNat_ofNat']
    omega
  have hvalid : (⟨UInt64.ofNat (n + 1)⟩ : ResourceId).Valid := by
    intro hzero
    have := congrArg UInt64.toNat hzero
    rw [hraw] at this
    cases this
  generalize he : s.enter (announceCapacity (n + 1)) = e
  have hentered : e.Announced n := by
    rw [← he]
    exact { h with io := rfl }
  have hexec : (s.exec (announceCapacity (n + 1))).2 =
      e.announced ⟨UInt64.ofNat (n + 1)⟩ := by
    unfold exec
    rw [he]
    unfold announceCapacity run reply
    dsimp only
    rw [hentered.setCapacity hn hvalid]
  have hnew : e.capacities.lookup ⟨UInt64.ofNat (n + 1)⟩ = none :=
    hentered.free _ (Nat.lt_succ_self n) (by omega)
  rw [hexec]
  refine { hentered with journal := rfl, written := ?_, size := ?_, free := ?_ }
  · have hwritten := hentered.written
    change e.store.bytesWritten + 57 ≤ _
    omega
  · exact (Table.size_insert _ hnew).trans (congrArg (· + 1) hentered.size)
  · intro k hk hlt
    change (e.capacities.insert _ _).lookup _ = none
    rw [Table.lookup_insert_eq, if_neg]
    · exact hentered.free k (by omega) hlt
    · intro heq
      have := congrArg (fun r : ResourceId ↦ r.raw.toNat) heq
      simp only [hraw, UInt64.toNat_ofNat'] at this
      omega

end Impl

def announceScript : List Command :=
  [.start smallConfig, .call { op := .attachBackend ⟨1⟩ { generation := ⟨1⟩, ready := true } }]

theorem Table.eq_empty {κ α : Type} {t : Table κ α} (h : t.size = 0) : t = ∅ :=
  AList.ext (List.length_eq_zero_iff.mp h)

theorem announceScript_announced :
    ∃ y s, System.Run System.Durable y ∧ y.live = some s ∧ s.Announced 0 := by
  have h : (System.script durableCheck {} announceScript).any (fun y ↦ y.live.any fun s ↦
      s.isOpen && decide ¬s.RefusesWork && decide (s.config = smallConfig) &&
        (s.backends.lookup ⟨1⟩).isSome && decide (s.store.config = smallConfig.persistence) &&
        s.store.configured && s.store.writable &&
        decide (s.store.io = []) && decide (s.store.journalBytes = s.store.bytesWritten) &&
        decide (s.store.bytesWritten ≤ 1000) && decide (s.capacities.size = 0) &&
        decide (s.policies.size = 0) && decide (s.pools.size = 0) && decide (s.queues.size = 0) &&
        decide (s.allocations.size = 0) && decide (s.pressure.size = 0) &&
        decide (s.attempts.size = 0)) = true := by
    decide +kernel
  obtain ⟨y, hy, h⟩ := (Option.any_eq_true _ _).mp h
  obtain ⟨s, hs, h⟩ := (Option.any_eq_true _ _).mp h
  simp only [Bool.and_eq_true, decide_eq_true_eq] at h
  obtain ⟨⟨⟨⟨⟨⟨⟨⟨⟨⟨⟨⟨⟨⟨⟨⟨hopen, hwork⟩, hconfig⟩, hbackend⟩, hpersistence⟩, hconfigured⟩,
    hwritable⟩, hio⟩, hjournal⟩, hwritten⟩, hcapacities⟩, hpolicies⟩, hpools⟩, hqueues⟩, hallocations⟩, hpressure⟩,
    hattempts⟩ := h
  refine ⟨y, s, System.Run.script durableCheck_durable .refl hy, hs, ?_⟩
  refine
    { isOpen := hopen
      working := hwork
      config := hconfig
      backend := hbackend
      persistence := hpersistence
      configured := hconfigured
      writable := hwritable
      io := hio
      journal := hjournal
      written := hwritten
      size := hcapacities
      free := ?_
      policies := Table.eq_empty hpolicies
      pools := Table.eq_empty hpools
      queues := Table.eq_empty hqueues
      allocations := Table.eq_empty hallocations
      pressure := Table.eq_empty hpressure
      attempts := Table.eq_empty hattempts }
  intro k _ _
  rw [Table.eq_empty hcapacities]
  rfl

/-- Any number of capacities that fits the journal can be announced. -/
theorem Impl.Announced.reaches {n : ℕ} (hn : n < 10000) :
    ∃ y s, System.Run System.Durable y ∧ y.live = some s ∧ s.Announced n := by
  induction n with
  | zero => exact announceScript_announced
  | succ n ih =>
      obtain ⟨y, s, hrun, hs, h⟩ := ih (by omega)
      have hstep := System.Step.called (y := y) (announceCapacity (n + 1)) hs h.isOpen
      refine ⟨_, _, hrun.tail ?_ hstep, rfl, h.next (by omega)⟩
      intro config hopens
      cases hopens

theorem Impl.Announced.image_eq {s : Impl} {n : ℕ} (h : s.Announced n) :
    s.image = { epoch := s.epoch, boot := s.boot, counters := s.counters
                capacities := s.capacities.toList.map Prod.snd } := by
  unfold Impl.image
  rw [h.policies, h.pools, h.queues, h.allocations, h.pressure, h.attempts]
  rfl

theorem Impl.Announced.writes {s : Impl} {n : ℕ} (h : s.Announced n) (hn : n < 10000) :
    ∃ t, s.writeFullSnapshot = (.ok (), t) := by
  have hcapacity : ∀ c : CapacityEntry, (encodeCapacity c).length = 40 := fun _ ↦ rfl
  have hlength : s.image.encode.length ≤ s.store.config.maxSnapshotBytes.toNat := by
    have hsum : ((s.capacities.toList.map Prod.snd).flatMap encodeCapacity).length = 40 * n := by
      have hmap : (s.capacities.toList.map Prod.snd).map (fun c ↦ (encodeCapacity c).length) =
          List.replicate n 40 := by
        rw [List.eq_replicate_iff, List.length_map, List.length_map, Table.length_toList]
        refine ⟨h.size, ?_⟩
        intro b hb
        obtain ⟨c, -, rfl⟩ := List.mem_map.mp hb
        exact hcapacity c
      rw [List.length_flatMap, hmap, List.sum_replicate_nat, Nat.mul_comm]
    rw [h.persistence, h.image_eq]
    change _ ≤ 268435456
    simp only [Image.encode, encodeAll, List.length_append, hsum]
    change 1 + 8 + 8 + 8 + 56 + 4 + 4 + 4 + 4 + 4 + 4 + (4 + 40 * n) ≤ _
    omega
  have hnames : s.image.encodable = true := by
    rw [h.image_eq]
    rfl
  have hmode : s.store.config.mode ≠ .none := by
    rw [h.persistence]
    decide
  have hnext : s.store.nextIo = (.ok, s.store) := by
    unfold DurableStore.nextIo
    rw [h.io]
  unfold Impl.writeFullSnapshot DurableStore.writeFullSnapshot DurableStore.writeSnapshot
  rw [if_neg hmode, hnames, h.configured]
  simp only [Bool.not_true, Bool.false_eq_true, if_false]
  rw [if_neg (Nat.not_lt.mpr hlength), hnext]
  exact ⟨_, rfl⟩

/-- 4097 resources have a capacity: the image is written, and the loader refuses it. -/
theorem capacities_beyond_loader :
    ∃ (y : System) (s t : Impl) (i : Image), System.Run System.Durable y ∧ y.live = some s ∧
      s.writeFullSnapshot = (.ok (), t) ∧ t.store.disk.snapshot = some i ∧
      (({} : Impl).applySnapshotPayload i.encode).1 =
        .error ⟨.corruptRecord, "snapshot capacity count is out of range"⟩ := by
  obtain ⟨y, s, hrun, hs, h⟩ := Impl.Announced.reaches (n := 4097) (by decide)
  obtain ⟨t, hw⟩ := h.writes (by decide)
  obtain ⟨hdisk, hnames, hcount⟩ := Impl.writeFullSnapshot_written (hrun.synced hs) hw
  refine ⟨y, s, t, s.image, hrun, hs, hw, hdisk, ?_⟩
  have hlength : ¬(s.capacities.toList.map Prod.snd).length ≤ kMaxPoolCount := by
    rw [List.length_map, Table.length_toList, h.size]
    decide
  rw [Impl.applySnapshotPayload_encode hnames hcount, h.image_eq]
  unfold Impl.applySnapshot
  have hempty : ∀ {α : Type} (bound : ℕ) (message : String) (check : α → Except Status Unit)
      (restore : Impl → α → Impl) (s : Impl),
      Impl.loadSection bound message check restore [] s = (.ok (), s) := fun _ _ _ _ _ ↦ rfl
  simp only [hempty, Impl.andThen]
  unfold Impl.loadSection
  rw [if_pos (Nat.not_le.mp hlength)]

end BufferFabric
