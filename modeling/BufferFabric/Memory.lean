import BufferFabric.Attempts

/-!
# The attempt memory over restarts

Attempts are stored in snapshots and never journaled. A new instance remembers the attempts
of the snapshot it loads, in the order in which the snapshot lists them.
-/

namespace BufferFabric

/-! ### Loading attempts -/

namespace Impl

variable {s t : Impl}

def KeepsAttempts (s t : Impl) : Prop :=
  t.attemptOrder = s.attemptOrder ∧ t.attempts = s.attempts ∧ t.config = s.config

theorem KeepsAttempts.refl (s : Impl) : KeepsAttempts s s := ⟨rfl, rfl, rfl⟩

theorem KeepsAttempts.trans {u : Impl} (h : KeepsAttempts s t) (h' : KeepsAttempts t u) :
    KeepsAttempts s u :=
  ⟨h'.1.trans h.1, h'.2.1.trans h.2.1, h'.2.2.trans h.2.2⟩

/-- A loader that leaves the memory alone leaves it alone over a whole section. -/
theorem KeepsAttempts.foldl {α : Type} (restore : Impl → α → Impl)
    (h : ∀ s x, KeepsAttempts s (restore s x)) (l : List α) (s : Impl) :
    KeepsAttempts s (l.foldl restore s) :=
  List.foldlRecOn l restore (.refl s) fun t ht x _ ↦ ht.trans (h t x)

theorem foldl_restoreAttempts (l : List AttemptRecord) (s : Impl) :
    (l.foldl (fun s a ↦ { s with
        attemptOrder := s.attemptOrder ++ [a.id]
        attempts := s.attempts.insert a.id a }) s) = { s with
      attemptOrder := s.attemptOrder ++ l.map (·.id)
      attempts := l.foldl (fun t a ↦ t.insert a.id a) s.attempts } := by
  induction l generalizing s with
  | nil =>
      rw [List.map_nil, List.append_nil]
      rfl
  | cons a l ih =>
      rw [List.foldl_cons, ih, List.map_cons, List.foldl_cons]
      simp only [List.append_assoc, List.cons_append, List.nil_append]

theorem loadImage_attempts (s : Impl) (i : Image) :
    (s.loadImage i).attemptOrder = s.attemptOrder ++ i.attempts.map (·.id) ∧
      (s.loadImage i).attempts = i.attempts.foldl (fun t a ↦ t.insert a.id a) s.attempts ∧
      (s.loadImage i).config = s.config := by
  have hload : ∃ m, KeepsAttempts s m ∧ s.loadImage i = i.capacities.foldl restoreCapacity
      (i.attempts.foldl (fun s a ↦ { s with
        attemptOrder := s.attemptOrder ++ [a.id]
        attempts := s.attempts.insert a.id a }) m) := by
    refine ⟨_, ?_, rfl⟩
    refine .trans ?_ (.foldl restorePressure (fun _ _ ↦ ⟨rfl, rfl, rfl⟩) i.pressure _)
    refine .trans ?_ (.foldl restoreAllocation (fun _ _ ↦ ⟨rfl, rfl, rfl⟩) i.allocations _)
    refine .trans ?_ (.foldl restoreQueue (fun _ _ ↦ ⟨rfl, rfl, rfl⟩) i.queues _)
    refine .trans ?_ (.foldl
      (fun s e ↦ s.restorePool e.1 { descriptor := e.1, capacityGeneration := e.2 })
      (fun _ _ ↦ ⟨rfl, rfl, rfl⟩) i.pools _)
    exact .trans ⟨rfl, rfl, rfl⟩ (.foldl restorePolicy (fun _ _ ↦ ⟨rfl, rfl, rfl⟩) i.policies _)
  obtain ⟨m, ⟨horder, hattempts, hconfig⟩, hload⟩ := hload
  rw [foldl_restoreAttempts, horder, hattempts] at hload
  rw [hload]
  obtain ⟨h₁, h₂, h₃⟩ := KeepsAttempts.foldl restoreCapacity (fun _ _ ↦ ⟨rfl, rfl, rfl⟩)
    i.capacities { m with
      attemptOrder := s.attemptOrder ++ i.attempts.map (·.id)
      attempts := i.attempts.foldl (fun t a ↦ t.insert a.id a) s.attempts }
  exact ⟨h₁, h₂, h₃.trans hconfig⟩

theorem applyRecord_attempts {record : JournalRecord} (hr : ∀ a, record ≠ .attemptRecorded a)
    {u : Unit} (h : s.applyRecord record = (.ok u, t)) : KeepsAttempts s t := by
  cases record with
  | attemptRecorded a => exact absurd rfl (hr a)
  | epochAdvance e b =>
      obtain ⟨-, rfl⟩ := Prod.mk.inj h
      split <;> split <;> exact ⟨rfl, rfl, rfl⟩
  | poolUpsert | policyUpsert | allocation =>
      simp only [applyRecord] at h
      split at h
      · obtain ⟨-, rfl⟩ := Prod.mk.inj h
        exact ⟨rfl, rfl, rfl⟩
      · cases h
  | poolRemoved | queueRetired =>
      simp only [applyRecord] at h
      split at h <;> obtain ⟨-, rfl⟩ := Prod.mk.inj h <;> exact ⟨rfl, rfl, rfl⟩
  | _ =>
      obtain ⟨-, rfl⟩ := Prod.mk.inj h
      exact ⟨rfl, rfl, rfl⟩

theorem replay_attempts {records : List JournalRecord}
    (hr : ∀ a, JournalRecord.attemptRecorded a ∉ records) {u : Unit}
    (h : replay records s = (.ok u, t)) : KeepsAttempts s t := by
  induction records generalizing s with
  | nil =>
      obtain ⟨-, rfl⟩ := Prod.mk.inj h
      exact .refl s
  | cons record records ih =>
      unfold replay at h
      split at h
      · cases h
      · rename_i u m hm
        have hfirst := applyRecord_attempts (fun a ha ↦ hr a (ha ▸ List.mem_cons_self)) hm
        exact hfirst.trans (ih (fun a ha ↦ hr a (List.mem_cons_of_mem _ ha)) h)

end Impl

def Disk.attempts (d : Disk) : List AttemptRecord := (d.snapshot.map (·.attempts)).getD []

def Disk.NoAttempts (d : Disk) : Prop := ∀ a, JournalRecord.attemptRecorded a ∉ d.journal

structure Impl.Restored (l : List AttemptRecord) (t : Impl) : Prop where
  order : t.attemptOrder = l.map (·.id)
  attempts : t.attempts = l.foldl (fun t a ↦ t.insert a.id a) ∅

/-- A new instance remembers the attempts its directory restores. -/
theorem Impl.loadFromStore_attempts {s t : Impl} (hs : s.attemptOrder = [] ∧ s.attempts = ∅)
    (hd : s.store.disk.NoAttempts) {u : Unit} (h : s.loadFromStore = (.ok u, t)) :
    t.Restored s.store.disk.attempts ∧ t.config = s.config := by
  obtain ⟨-, m, r, hsnap, hreplay, rfl⟩ := loadFromStore_ok h
  have hm : m.attemptOrder = s.store.disk.attempts.map (·.id) ∧
      m.attempts = s.store.disk.attempts.foldl (fun t a ↦ t.insert a.id a) ∅ ∧
      m.config = s.config ∧ m.store = s.store := by
    unfold loadSnapshot at hsnap
    unfold Disk.attempts
    cases hi : s.store.disk.snapshot with
    | none =>
        rw [hi] at hsnap
        obtain ⟨-, rfl⟩ := Prod.mk.inj hsnap
        exact ⟨hs.1, hs.2, rfl, rfl⟩
    | some i =>
        rw [hi] at hsnap
        obtain ⟨-, rfl⟩ := applySnapshot_ok.mp hsnap
        obtain ⟨h₁, h₂, h₃⟩ := s.loadImage_attempts i
        rw [hs.1] at h₁
        rw [hs.2] at h₂
        exact ⟨h₁, h₂, h₃, (s.loadImage_spec i).2.1⟩
  obtain ⟨horder, hattempts, hconfig, hstore⟩ := hm
  rw [hstore] at hreplay
  obtain ⟨h₁, h₂, h₃⟩ := replay_attempts hd hreplay
  exact ⟨⟨h₁.trans horder, h₂.trans hattempts⟩, h₃.trans hconfig⟩

/-- The memory of a new instance after a successful open: in a durable mode what the
directory restores, else nothing. -/
theorem Impl.openFabric_attempts {t : Impl} {disk : Disk} {tick : Tick} {io : List Io}
    {config : FabricConfig} {boot : BootInputs}
    (h : (({} : Impl).attach disk tick io).openFabric config boot = (.ok (), t))
    (hd : disk.NoAttempts) :
    t.config = config ∧ config.attemptMemoryCapacity ≠ 0 ∧
      t.Restored (if config.persistence.mode = .none then [] else disk.attempts) := by
  obtain ⟨-, hcheck, durable, m, hload, hbegin⟩ := openFabric_ok h
  have hcapacity : config.attemptMemoryCapacity ≠ 0 := by
    unfold FabricConfig.check at hcheck
    simp only [Outcome.seq_ok, Outcome.require_eq_ok, exists_const] at hcheck
    exact hcheck.2.1.1
  have hm : m.config = config ∧
      m.Restored (if config.persistence.mode = .none then [] else disk.attempts) := by
    rcases openDurable_ok hload with ⟨hmode, rfl⟩ | ⟨hmode, -, hload, -⟩
    · rw [if_pos hmode]
      exact ⟨rfl, rfl, rfl⟩
    · rw [if_neg hmode]
      obtain ⟨hrestored, hconfig⟩ := loadFromStore_attempts ⟨rfl, rfl⟩ hd hload
      exact ⟨hconfig, hrestored⟩
  have ht : KeepsAttempts m t := by
    rcases beginEpoch_ok hbegin with ⟨-, rfl⟩ | ⟨-, hj⟩
    · exact ⟨rfl, rfl, rfl⟩
    · rw [eq_of_journal hj]
      exact ⟨rfl, rfl, rfl⟩
  exact ⟨ht.2.2.trans hm.1, hcapacity, ht.1.trans hm.2.order, ht.2.1.trans hm.2.attempts⟩

/-! ### Attempts on disk -/

/-- No attempt was journaled, and the snapshot holds each attempt once. -/
structure Disk.Remembers (d : Disk) : Prop where
  journal : d.NoAttempts
  snapshot : ∀ i, d.snapshot = some i → (i.attempts.map (·.id)).Nodup

theorem Disk.Remembers.nodup {d : Disk} (h : d.Remembers) : (d.attempts.map (·.id)).Nodup := by
  unfold Disk.attempts
  cases hi : d.snapshot with
  | none => exact List.nodup_nil
  | some i => exact h.snapshot i hi

def Impl.AttemptsKeyed (s : Impl) : Prop := ∀ id a, s.attempts.lookup id = some a → a.id = id

theorem Impl.evictLoop_sub (capacity : ℕ) (order : List AttemptId)
    (attempts : Table AttemptId AttemptRecord) {id : AttemptId} {a : AttemptRecord}
    (h : (evictLoop capacity order attempts).2.lookup id = some a) :
    attempts.lookup id = some a := by
  induction order generalizing attempts with
  | nil => exact h
  | cons oldest order ih =>
      unfold evictLoop at h
      split at h
      · have h := ih _ h
        rw [Table.lookup_erase_eq] at h
        split at h
        · cases h
        · exact h
      · exact h

theorem Impl.AttemptsKeyed.record {s : Impl} (h : s.AttemptsKeyed) (a : AttemptRecord) :
    (s.recordAttempt a).AttemptsKeyed := by
  unfold recordAttempt
  split
  · exact h
  · intro id b hb
    have hb := evictLoop_sub _ _ _ hb
    rw [Table.lookup_insert_eq] at hb
    split at hb
    · rename_i hid
      rw [← Option.some.inj hb, hid]
    · exact h id b hb

theorem Change.attemptsKeyed {s m : Impl} {l : Label} {record : Option JournalRecord}
    (h : Change s l record m) (hs : s.AttemptsKeyed) : m.AttemptsKeyed := by
  cases h with
  | attempt a => exact hs.record a
  | _ => exact hs

theorem Move.attemptsKeyed {s t : Impl} {a : Label × Bool} (h : Move s a t)
    (hs : s.AttemptsKeyed) : t.AttemptsKeyed := by
  by_cases hl : a.1 = .lostRelease
  · cases h with
    | lostRelease _ hj =>
        rw [Impl.eq_of_journal hj]
        exact hs
    | volatile h | written h | unlogged h => cases hl; cases h
    | refused | snapshot => cases hl
  · exact h.keeps (I := Impl.AttemptsKeyed) hl (fun _ _ h ↦ h) (fun _ _ hc ↦ hc.attemptsKeyed hs) hs

theorem Impl.AttemptsKeyed.image {s j : Impl} (hs : s.AttemptsKeyed)
    (hj : j.attempts = s.attempts) : (j.image.attempts.map (·.id)).Nodup := by
  have hids : j.image.attempts.map (·.id) = j.attempts.toList.map Prod.fst := by
    unfold Impl.image
    rw [List.map_map]
    apply List.map_congr_left
    rintro ⟨id, a⟩ hmem
    rw [Table.mem_toList, hj] at hmem
    exact hs id a hmem
  rw [hids]
  have hkeys : j.attempts.toList.map Prod.fst = j.attempts.keys := by
    simp only [Table.toList, List.map_map, AList.keys, List.keys]
    rfl
  rw [hkeys]
  exact j.attempts.keys_nodup

theorem Disk.Next.remembers {image : Image} {record : JournalRecord} {d d' : Disk}
    (h : Disk.Next image record d d') (hd : d.Remembers)
    (himage : (image.attempts.map (·.id)).Nodup) (hr : ∀ a, record ≠ .attemptRecorded a) :
    d'.Remembers := by
  have hsnap : ∀ i, some image = some i → (i.attempts.map (·.id)).Nodup := by
    intro i hi
    obtain rfl := Option.some.inj hi
    exact himage
  cases h with
  | same => exact hd
  | appended =>
      refine ⟨?_, hd.snapshot⟩
      intro a ha
      rcases List.mem_append.mp ha with ha | ha
      · exact hd.journal a ha
      · exact hr a (List.mem_singleton.mp ha).symm
  | replaced => exact ⟨hd.journal, hsnap⟩
  | compacted => exact ⟨fun a ↦ List.not_mem_nil, hsnap⟩
  | restarted =>
      exact ⟨fun a ha ↦ hr a (List.mem_singleton.mp ha).symm, hsnap⟩

theorem JournalRecord.StemsFrom.ne_attempt {s : Impl} {part : Prop} {record : JournalRecord}
    (h : record.StemsFrom s part) (a : AttemptRecord) : record ≠ .attemptRecorded a := by
  rintro rfl
  exact h

theorem Move.remembers {s t : Impl} {a : Label × Bool} (h : Move s a t) (hs : s.AttemptsKeyed)
    (hd : s.store.disk.Remembers) :
    ∀ d ∈ t.store.disk :: t.store.trail, d ∈ s.store.trail ∨ d.Remembers := by
  obtain ⟨-, j, record, -, hdisk, htrail, hnotes, hstems⟩ := h.disks
  have himage : (j.image.attempts.map (·.id)).Nodup := by
    rcases hnotes with hn | hn
    · exact hs.image hn.2.2.1
    · exact (h.attemptsKeyed hs).image hn.2.2.1
  intro d hmem
  rcases List.mem_cons.mp hmem with rfl | hmem
  · exact .inr (hdisk.remembers hd himage hstems.ne_attempt)
  · exact (htrail d hmem).imp_right (·.remembers hd himage hstems.ne_attempt)

/-! ### Runs of new instances -/

/-- What an instance remembers: each attempt once, under its own id, and room for at least
one. There may be more of them than the capacity. -/
structure Impl.Remembering (s : Impl) : Prop where
  listed : Listed s.attemptOrder s.attempts
  keyed : s.AttemptsKeyed
  capacity : s.config.attemptMemoryCapacity ≠ 0

theorem Impl.Remembering.congr {s t : Impl} (hs : s.Remembering) (h : SameMemory s t) :
    t.Remembering := by
  refine ⟨h.listed hs.listed, ?_, ?_⟩
  · intro id a ha
    rw [h.lookup] at ha
    exact hs.keyed id a ha
  · rw [h.config]
    exact hs.capacity

theorem Impl.Remembering.record {s : Impl} (hs : s.Remembering) {a : AttemptRecord}
    (hnew : s.attempts.lookup a.id = none) : (s.recordAttempt a).Remembering := by
  obtain ⟨horder, hlookup⟩ := recordAttempt_listed hs.listed hs.capacity hnew
  refine ⟨?_, hs.keyed.record a, ?_⟩
  · rw [horder]
    apply listed_rtake (hs.listed.concat hnew a)
    intro id
    rw [hlookup, ← Table.lookup_insert_eq]
  · obtain ⟨order, attempts, h⟩ := s.recordAttempt_frame a
    rw [h]
    exact hs.capacity

/-- The attempt that was recorded last is remembered. -/
theorem Impl.Remembering.recorded {s : Impl} (hs : s.Remembering) {a : AttemptRecord}
    (hnew : s.attempts.lookup a.id = none) : (s.recordAttempt a).attempts.lookup a.id = some a := by
  obtain ⟨-, hlookup⟩ := recordAttempt_listed hs.listed hs.capacity hnew
  have hpos : 0 < s.memoryCapacity := Word.ne_zero_iff.mp hs.capacity
  have hlast : a.id ∈ (s.attemptOrder ++ [a.id]).rtake s.memoryCapacity := by
    have h : a.id ∈ (s.attemptOrder ++ [a.id] ++ []).rtake s.memoryCapacity :=
      List.mem_rtake_of_lt hpos
    rwa [List.append_nil] at h
  rw [hlookup, if_pos hlast, if_pos rfl]

theorem Impl.Remembering.exec {s : Impl} (hs : s.Remembering) (c : Call) :
    (s.exec c).2.Remembering := by
  rcases s.exec_memory c with ⟨hsame, -⟩ | ⟨q, a, d, -, -, -, hrec, hnew, hsame, -⟩
  · exact hs.congr hsame
  · rw [← hrec.id] at hnew
    exact (hs.record hnew).congr hsame

theorem Impl.Restored.lookup_eq {t : Impl} {l : List AttemptRecord} (h : t.Restored l)
    (id : AttemptId) : t.attempts.lookup id = Table.overlay (·.id) l (fun _ ↦ none) id := by
  rw [h.attempts]
  exact congrFun (Table.lookup_foldl_insert (·.id) l ∅) id

theorem Impl.Restored.mem {t : Impl} {l : List AttemptRecord} (h : t.Restored l)
    {id : AttemptId} {a : AttemptRecord} (ha : t.attempts.lookup id = some a) :
    a ∈ l ∧ a.id = id := by
  rw [h.lookup_eq] at ha
  rcases Table.overlay_cases ha with hmem | hnone
  · exact hmem
  · cases hnone

theorem Impl.Restored.keyed {t : Impl} {l : List AttemptRecord} (h : t.Restored l) :
    t.AttemptsKeyed := fun _ _ ha ↦ (h.mem ha).2

theorem Impl.Restored.lookup {t : Impl} {l : List AttemptRecord} (h : t.Restored l)
    (hl : (l.map (·.id)).Nodup) {a : AttemptRecord} (ha : a ∈ l) :
    t.attempts.lookup a.id = some a := by
  rw [h.lookup_eq]
  exact Table.overlay_of_mem ha fun b hb hid ↦ List.inj_on_of_nodup_map hl hb ha hid

theorem Impl.Restored.remembering {t : Impl} {l : List AttemptRecord} (h : t.Restored l)
    (hl : (l.map (·.id)).Nodup) (hcapacity : t.config.attemptMemoryCapacity ≠ 0) :
    t.Remembering := by
  refine ⟨⟨?_, ?_⟩, h.keyed, hcapacity⟩
  · rw [h.order]
    exact hl
  · intro id
    rw [h.order, List.mem_map]
    constructor
    · rintro ⟨a, ha, rfl⟩
      exact ⟨a, h.lookup hl ha⟩
    · rintro ⟨a, ha⟩
      exact ⟨a, h.mem ha⟩

/-- Opening in memory only leaves the directory alone. -/
theorem Impl.openFabric_volatile {s t : Impl} {config : FabricConfig} {boot : BootInputs}
    {r : Except Status Unit} (h : s.openFabric config boot = (r, t))
    (hmode : config.persistence.mode = .none) :
    t.store.disk = s.store.disk ∧ t.store.trail = s.store.trail := by
  unfold openFabric at h
  split at h
  · obtain ⟨-, rfl⟩ := Prod.mk.inj h
    exact ⟨rfl, rfl⟩
  unfold openDurable at h
  rw [if_pos hmode] at h
  dsimp only at h
  unfold beginEpoch at h
  split at h
  · obtain ⟨-, rfl⟩ := Prod.mk.inj h
    exact ⟨rfl, rfl⟩
  obtain ⟨-, rfl⟩ := Prod.mk.inj h
  exact ⟨rfl, rfl⟩

theorem Disk.Remembers.openFabric {t : Impl} {disk : Disk} {tick : Tick} {io : List Io}
    {config : FabricConfig} {boot : Impl.BootInputs} {r : Except Status Unit}
    (h : (({} : Impl).attach disk tick io).openFabric config boot = (r, t))
    (hd : disk.Remembers) : ∀ d ∈ t.store.disk :: t.store.trail, d.Remembers := by
  intro d hmem
  by_cases hmode : config.persistence.mode = .none
  · obtain ⟨hdisk, htrail⟩ := Impl.openFabric_volatile h hmode
    rw [hdisk, htrail] at hmem
    rw [List.mem_singleton.mp hmem]
    exact hd
  rcases Impl.openFabric_begun h hmode with
    ⟨-, hdisk, htrail⟩ | ⟨m, t', res, hl, -, hj, hd', ht', -⟩
  · rw [hdisk, htrail] at hmem
    rw [List.mem_singleton.mp hmem]
    exact hd
  obtain ⟨hrestored, -⟩ := Impl.loadFromStore_attempts ⟨rfl, rfl⟩ hd.journal hl
  obtain ⟨-, -, -, hmdisk, -, hmtrail, -, -⟩ := Impl.loadFromStore_view hl
  have hkeyed : m.AttemptsKeyed := hrestored.keyed
  obtain ⟨st, hst, hf, -⟩ := (m.begun boot m.epoch).journal_spec
    (.epochAdvance ⟨m.epoch.raw + 1⟩ (Impl.mintBoot boot))
  rw [hj] at hst
  simp only at hst
  have hnext : ∀ d', Disk.Next (m.begun boot m.epoch).image
      (.epochAdvance ⟨m.epoch.raw + 1⟩ (Impl.mintBoot boot)) m.store.disk d' → d'.Remembers := by
    intro d' hd'
    have himage := hkeyed.image (j := m.begun boot m.epoch) rfl
    have hbefore : m.store.disk.Remembers := hmdisk ▸ hd
    exact hd'.remembers hbefore himage fun a heq ↦ JournalRecord.noConfusion heq
  rw [hd', ht', hst] at hmem
  rcases List.mem_cons.mp hmem with rfl | hmem
  · rcases hf.disk with heq | hnew
    · have heq : st.disk = m.store.disk := heq
      change st.disk.Remembers
      rw [heq, hmdisk]
      exact hd
    · exact hnext _ hnew
  · rcases hf.trail d hmem with hold | hnew
    · have hold : d ∈ m.store.trail := hold
      rw [hmtrail] at hold
      cases hold
    · exact hnext _ hnew

/-- In runs of new instances, every instance remembers each attempt once. -/
theorem remembering_rule :
    System.Rule (fun _ ↦ True) Impl.Remembering Disk.Remembers where
  call s c hs hd := by
    refine ⟨hs.exec c, ?_⟩
    have h := (s.exec_trace c).invariant (I := fun t ↦ t.AttemptsKeyed ∧
      ∀ d ∈ t.store.disk :: t.store.trail, d.Remembers) ?_ ⟨hs.keyed, ?_⟩
    · exact h.2
    · rintro t a u ⟨hkeyed, hdisks⟩ - hm
      refine ⟨hm.attemptsKeyed hkeyed, ?_⟩
      intro d hmem
      rcases hm.remembers hkeyed (hdisks _ List.mem_cons_self) d hmem with hold | hnew
      · exact hdisks d (List.mem_cons_of_mem _ hold)
      · exact hnew
    · intro d hmem
      rw [List.mem_singleton.mp hmem]
      exact hd
  rehash s t hs hr := hs.congr hr.sameMemory
  close s hs := by
    refine hs.congr ?_
    unfold Impl.closeFabric
    split
    · exact ⟨rfl, rfl, fun _ ↦ rfl⟩
    · exact .refl s
  start := by
    intro disk tick io config boot r t _ hd h
    refine ⟨hd.openFabric h, ?_⟩
    rintro rfl
    obtain ⟨hconfig, hcapacity, hrestored⟩ := Impl.openFabric_attempts h hd.journal
    refine hrestored.remembering ?_ (by rw [hconfig]; exact hcapacity)
    split
    · exact List.nodup_nil
    · exact hd.nodup

def System.NewInstances (y : System) (ev : Event) : Prop :=
  ∀ config, ev.opens = some config → y.live = none

theorem System.Durable.newInstances {y : System} {ev : Event} (h : y.Durable ev) :
    y.NewInstances ev := fun config hc ↦ (h config hc).2

theorem System.Run.remembering_holds {y : System} (h : System.Run System.NewInstances y) :
    y.Holds Impl.Remembering Disk.Remembers :=
  h.invariant (I := System.Holds Impl.Remembering Disk.Remembers)
    (fun _ _ _ hy hev hs ↦ remembering_rule.step hs (fun config hc ↦ ⟨trivial, hev config hc⟩) hy)
    (.of_stopped ⟨fun _ ↦ List.not_mem_nil, by simp⟩ rfl)

theorem System.Run.remembering {y : System} (h : System.Run System.NewInstances y) {s : Impl}
    (hlive : y.live = some s) : s.Remembering :=
  (System.Run.remembering_holds h |>.live s hlive).2

end BufferFabric
