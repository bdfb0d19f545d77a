import BufferFabric.Freshness
import BufferFabric.TornTail

/-!
# Epochs

The epoch of a directory is that of its snapshot and of the epochs its journal advanced to,
whichever is latest. Nothing on disk and nothing in memory carries a later epoch than the
session that wrote it, and every open starts a later one, whatever an interrupted process
left behind.
-/

namespace BufferFabric

/-! ### The epoch of a directory -/

def JournalRecord.epochOver (e : EpochId) : JournalRecord → EpochId
  | .epochAdvance e' _ => if e.raw < e'.raw then e' else e
  | _ => e

def Disk.epoch (d : Disk) : EpochId :=
  d.journal.foldl JournalRecord.epochOver ((d.snapshot.map (·.epoch)).getD default)

/-- No epoch the record carries is later than `n`. -/
def JournalRecord.Dated (n : ℕ) : JournalRecord → Prop
  | .epochAdvance e _ => e.raw.toNat ≤ n
  | .allocation _ r => r.bound.epoch.raw.toNat ≤ n
  | .pressureObserved p => p.epoch.raw.toNat ≤ n
  | _ => True

structure Image.Dated (n : ℕ) (i : Image) : Prop where
  epoch : i.epoch.raw.toNat ≤ n
  allocations : ∀ r ∈ i.allocations, r.bound.epoch.raw.toNat ≤ n
  pressure : ∀ p ∈ i.pressure, p.epoch.raw.toNat ≤ n

/-- No epoch in the directory is later than `n`, and every frame of its journal has been
small enough to be written. -/
structure Disk.Dated (n : ℕ) (d : Disk) : Prop where
  snapshot : ∀ i, d.snapshot = some i → i.Dated n
  journal : ∀ r ∈ d.journal, r.Dated n
  sizes : ∀ r ∈ d.journal, r.payload.length ≤ kMaxJournalRecordBytes

/-- No allocation and no evidence in memory carries an epoch later than `n`. -/
structure Impl.Dated (n : ℕ) (s : Impl) : Prop where
  allocations : ∀ k r, s.allocations.lookup k = some r → r.bound.epoch.raw.toNat ≤ n
  latest : ∀ k e, s.pressure.lookup k = some e → e.latest.epoch.raw.toNat ≤ n
  history : ∀ k e, s.pressure.lookup k = some e → ∀ p ∈ e.history, p.epoch.raw.toNat ≤ n

theorem JournalRecord.Dated.mono {n m : ℕ} (hle : n ≤ m) {r : JournalRecord} (h : r.Dated n) :
    r.Dated m := by
  cases r with
  | epochAdvance e b => exact Nat.le_trans h hle
  | allocation op r => exact Nat.le_trans h hle
  | pressureObserved p => exact Nat.le_trans h hle
  | _ => trivial

theorem Disk.Dated.mono {n m : ℕ} (hle : n ≤ m) {d : Disk} (h : d.Dated n) : d.Dated m where
  snapshot i hi := ⟨(h.snapshot i hi).epoch.trans hle,
    fun r hr ↦ ((h.snapshot i hi).allocations r hr).trans hle,
    fun p hp ↦ ((h.snapshot i hi).pressure p hp).trans hle⟩
  journal r hr := (h.journal r hr).mono hle
  sizes := h.sizes

theorem Impl.Dated.mono {n m : ℕ} (hle : n ≤ m) {s : Impl} (h : s.Dated n) : s.Dated m :=
  ⟨fun k r hr ↦ (h.allocations k r hr).trans hle, fun k e he ↦ (h.latest k e he).trans hle,
    fun k e he p hp ↦ (h.history k e he p hp).trans hle⟩

namespace JournalRecord

variable {e : EpochId} {r : JournalRecord} {n : ℕ}

theorem le_epochOver (e : EpochId) (r : JournalRecord) :
    e.raw.toNat ≤ (r.epochOver e).raw.toNat := by
  cases r with
  | epochAdvance e' b =>
      simp only [epochOver]
      split
      · rename_i hlt
        exact Nat.le_of_lt (Word.lt_iff.mp hlt)
      · exact Nat.le_refl _
  | _ => exact Nat.le_refl _

theorem epochOver_le (he : e.raw.toNat ≤ n) (hr : r.Dated n) :
    (r.epochOver e).raw.toNat ≤ n := by
  cases r with
  | epochAdvance e' b =>
      simp only [epochOver]
      split
      · exact hr
      · exact he
  | _ => exact he

theorem le_foldl_epochOver (l : List JournalRecord) (e : EpochId) :
    e.raw.toNat ≤ (l.foldl epochOver e).raw.toNat := by
  induction l generalizing e with
  | nil => exact Nat.le_refl _
  | cons r l ih => exact (le_epochOver e r).trans (ih _)

theorem foldl_epochOver_le {l : List JournalRecord} (he : e.raw.toNat ≤ n)
    (hl : ∀ r ∈ l, r.Dated n) : (l.foldl epochOver e).raw.toNat ≤ n := by
  induction l generalizing e with
  | nil => exact he
  | cons r l ih =>
      exact ih (epochOver_le he (hl r List.mem_cons_self)) fun r' hr' ↦
        hl r' (List.mem_cons_of_mem _ hr')

end JournalRecord

theorem Disk.Dated.epoch_le {n : ℕ} {d : Disk} (h : d.Dated n) : d.epoch.raw.toNat ≤ n := by
  apply JournalRecord.foldl_epochOver_le _ h.journal
  cases hd : d.snapshot with
  | none => exact Nat.zero_le n
  | some i => exact (h.snapshot i hd).epoch

/-- The directory is in epoch `n`: recovery finds it, and nothing carries a later one. -/
structure Disk.InEpoch (n : ℕ) (d : Disk) : Prop where
  dated : d.Dated n
  reached : n ≤ d.epoch.raw.toNat

theorem Disk.InEpoch.epoch_eq {n : ℕ} {d : Disk} (h : d.InEpoch n) : d.epoch.raw.toNat = n :=
  Nat.le_antisymm h.dated.epoch_le h.reached

/-- A write from an image in epoch `n` puts the directory into it, if the record brings
recovery there. -/
theorem Disk.Next.inEpoch {n : ℕ} {image : Image} {record : JournalRecord} {d d' : Disk}
    (h : Disk.Next image record d d') (hd : d.Dated n) (himage : image.Dated n)
    (hreached : n ≤ image.epoch.raw.toNat) (hrecord : record.Dated n)
    (hbrings : n ≤ (record.epochOver d.epoch).raw.toNat) : d' = d ∨ d'.InEpoch n := by
  have hsnap : ∀ i, some image = some i → i.Dated n := by
    intro i hi
    obtain rfl := Option.some.inj hi
    exact himage
  cases h with
  | same => exact .inl rfl
  | appended hsize =>
      refine .inr ⟨⟨hd.snapshot, ?_, ?_⟩, ?_⟩
      · simpa [or_imp, forall_and] using ⟨hd.journal, hrecord⟩
      · simpa [or_imp, forall_and] using ⟨hd.sizes, hsize⟩
      · rw [Disk.epoch, List.foldl_append]
        exact hbrings
  | replaced =>
      exact .inr ⟨⟨hsnap, hd.journal, hd.sizes⟩,
        hreached.trans (JournalRecord.le_foldl_epochOver d.journal image.epoch)⟩
  | compacted => exact .inr ⟨⟨hsnap, by simp, by simp⟩, hreached⟩
  | restarted hsize =>
      exact .inr ⟨⟨hsnap, by simpa using hrecord, by simpa using hsize⟩,
        hreached.trans (JournalRecord.le_epochOver image.epoch record)⟩

/-! ### One session -/

/-- Memory and disk agree about the epoch of the session. -/
structure Impl.Current (s : Impl) : Prop where
  memory : s.Dated s.epoch.raw.toNat
  disk : s.store.disk.InEpoch s.epoch.raw.toNat

theorem Impl.Dated.congr {n : ℕ} {s t : Impl} (h : s.Dated n) (ha : t.allocations = s.allocations)
    (hp : t.pressure = s.pressure) : t.Dated n := by
  refine ⟨?_, ?_, ?_⟩
  · rw [ha]
    exact h.allocations
  · rw [hp]
    exact h.latest
  · rw [hp]
    exact h.history

/-- A record that is written over one of the state is dated like that state. -/
theorem Impl.Dated.insert {n : ℕ} {s t : Impl} (h : s.Dated n) {k : AllocationId}
    {r : AllocationRecord} (hr : r.bound.epoch.raw.toNat ≤ n)
    (ha : t.allocations = s.allocations.insert k r) (hp : t.pressure = s.pressure) :
    t.Dated n := by
  refine ⟨?_, ?_, ?_⟩
  · intro k' r' hr'
    rw [ha, Table.lookup_insert_eq] at hr'
    split at hr'
    · rw [← Option.some.inj hr']
      exact hr
    · exact h.allocations k' r' hr'
  · rw [hp]
    exact h.latest
  · rw [hp]
    exact h.history

theorem Impl.Dated.storePressure {n : ℕ} {s : Impl} (h : s.Dated n) {key : PoolId}
    {p : PressureSnapshot} (hp : p.epoch.raw.toNat ≤ n) : (s.storePressure key p).Dated n := by
  have hstored : ∀ q ∈ ((s.pressure.lookup key).getD {}).history, q.epoch.raw.toNat ≤ n := by
    cases hl : s.pressure.lookup key with
    | none => simp
    | some e => exact h.history key e hl
  refine ⟨h.allocations, ?_, ?_⟩
  · intro k e he
    have he : (s.pressure.insert key _).lookup k = some e := he
    rw [Table.lookup_insert_eq] at he
    split at he
    · rw [← Option.some.inj he]
      exact hp
    · exact h.latest k e he
  · intro k e he q hq
    have he : (s.pressure.insert key _).lookup k = some e := he
    rw [Table.lookup_insert_eq] at he
    split at he
    · rw [← Option.some.inj he] at hq
      rcases List.mem_append.mp (List.mem_of_mem_drop hq) with hq | hq
      · exact hstored q hq
      · rw [List.mem_singleton.mp hq]
        exact hp
    · exact h.history k e he q hq

theorem JournalRecord.StemsFrom.dated {s : Impl} {part : Prop} {record : JournalRecord}
    (h : record.StemsFrom s part) (hs : s.Dated s.epoch.raw.toNat) :
    record.Dated s.epoch.raw.toNat := by
  cases record with
  | epochAdvance e b => exact h.elim
  | attemptRecorded a => exact h.elim
  | allocation op r =>
      rcases h.1 with h | ⟨k, r₀, hr, h⟩
      · simp only [Dated, h, Nat.le_refl]
      · simp only [Dated, h]
        exact hs.allocations k r₀ hr
  | pressureObserved p => simp only [Dated, show p.epoch = s.epoch from h, Nat.le_refl]
  | _ => trivial

/-- The epoch a record of the session carries is not later than that of the session. -/
theorem JournalRecord.StemsFrom.epochOver_eq {s : Impl} {part : Prop} {record : JournalRecord}
    (h : record.StemsFrom s part) (e : EpochId) : record.epochOver e = e := by
  cases record with
  | epochAdvance e' b => exact h.elim
  | attemptRecorded a => exact h.elim
  | _ => rfl

theorem Change.dated {s m : Impl} {l : Label} {record : Option JournalRecord}
    (h : Change s l record m) (hs : s.Dated s.epoch.raw.toNat) : m.Dated s.epoch.raw.toNat := by
  have hrecord : ∀ r, record = some r → r.Dated s.epoch.raw.toNat := by
    rintro r rfl
    exact h.stems.dated hs
  cases h with
  | attempt a =>
      obtain ⟨order, attempts, h⟩ := s.recordAttempt_frame a
      rw [h]
      exact hs.congr rfl rfl
  | removePool key entry =>
      have herase : ∀ k e, (s.pressure.erase key).lookup k = some e →
          s.pressure.lookup k = some e := by
        intro k e he
        rw [Table.lookup_erase_eq] at he
        split at he
        · cases he
        · exact he
      exact ⟨hs.allocations, fun k e he ↦ hs.latest k e (herase k e he),
        fun k e he ↦ hs.history k e (herase k e he)⟩
  | pressure p => exact hs.storePressure (hrecord _ rfl)
  | fence => exact hs.insert (hrecord _ rfl) rfl rfl
  | grant => exact hs.insert (hrecord _ rfl) rfl rfl
  | commit => exact hs.insert (hrecord _ rfl) rfl rfl
  | release => exact hs.insert (hrecord _ rfl) rfl rfl
  | rebind => exact hs.insert (hrecord _ rfl) rfl rfl
  | _ => exact hs.congr rfl rfl

theorem Move.epoch_eq {s t : Impl} {a : Label × Bool} (h : Move s a t) : t.epoch = s.epoch := by
  by_cases hl : a.1 = .lostRelease
  · cases h with
    | lostRelease _ hj => rw [Impl.eq_of_journal hj]
    | volatile h | written h | unlogged h => cases hl; cases h
    | refused | snapshot => cases hl
  · exact h.keeps (I := fun t ↦ t.epoch = s.epoch) hl (fun _ _ h ↦ h)
      (fun _ _ hc ↦ hc.frame.2.2.2.1) rfl

theorem Move.dated {s t : Impl} {a : Label × Bool} (h : Move s a t)
    (hs : s.Dated s.epoch.raw.toNat) : t.Dated s.epoch.raw.toNat := by
  by_cases hl : a.1 = .lostRelease
  · cases h with
    | lostRelease _ hj =>
        rw [Impl.eq_of_journal hj]
        exact hs.congr rfl rfl
    | volatile h | written h | unlogged h => cases hl; cases h
    | refused | snapshot => cases hl
  · exact h.keeps (I := fun t ↦ t.Dated s.epoch.raw.toNat) hl (fun _ _ h ↦ h.congr rfl rfl)
      (fun _ _ hc ↦ hc.dated hs) hs

/-- An image is dated like the state it is taken from. -/
theorem Impl.image_dated {n : ℕ} {s j : Impl} (hs : s.Dated n) (hepoch : j.epoch.raw.toNat ≤ n)
    (ha : j.view.allocations = s.view.allocations) {p : Impl} (hpd : p.Dated n)
    (hp : j.pressure = p.pressure) : j.image.Dated n := by
  refine ⟨hepoch, ?_, ?_⟩
  · intro r hr
    obtain ⟨⟨k, r'⟩, hmem, rfl⟩ := List.mem_map.mp hr
    rw [Table.mem_toList] at hmem
    exact hs.allocations k r' ((congrFun ha k).symm.trans hmem)
  · intro q hq
    obtain ⟨⟨k, e⟩, hmem, rfl⟩ := List.mem_map.mp hq
    have hmem := Table.mem_toList.mp (List.mem_filter.mp hmem).1
    rw [hp] at hmem
    exact hpd.latest k e hmem

theorem Move.current {s t : Impl} {a : Label × Bool} (h : Move s a t) (hs : s.Current) :
    t.Current ∧ ∀ d ∈ t.store.trail, d ∈ s.store.trail ∨ d.InEpoch t.epoch.raw.toNat := by
  have hepoch := h.epoch_eq
  have ht := h.dated hs.memory
  obtain ⟨-, j, record, hview, hdisk, htrail, hnotes, hstems⟩ := h.disks
  have hj : j.epoch = s.epoch := by
    rcases hnotes with hn | hn
    · exact hn.1
    · exact hn.1.trans hepoch
  have himage : j.image.Dated s.epoch.raw.toNat := by
    have hpressure : ∃ p : Impl, p.Dated s.epoch.raw.toNat ∧ j.pressure = p.pressure := by
      rcases hnotes with hn | hn
      · exact ⟨s, hs.memory, hn.2.1⟩
      · exact ⟨t, ht, hn.2.1⟩
    obtain ⟨p, hpd, hp⟩ := hpressure
    have hle : j.epoch.raw.toNat ≤ s.epoch.raw.toNat := by rw [hj]
    rcases hview with hv | hv
    · exact Impl.image_dated hs.memory hle (congrArg View.allocations hv) hpd hp
    · exact Impl.image_dated ht hle (congrArg View.allocations hv) hpd hp
  have hnext : ∀ d, Disk.Next j.image record s.store.disk d → d.InEpoch s.epoch.raw.toNat := by
    intro d hd
    have hreached : s.epoch.raw.toNat ≤ j.image.epoch.raw.toNat :=
      Nat.le_of_eq (congrArg (fun e : EpochId ↦ e.raw.toNat) hj).symm
    rcases hd.inEpoch hs.disk.dated himage hreached (hstems.dated hs.memory)
        (by rw [hstems.epochOver_eq]; exact hs.disk.reached) with rfl | hd
    · exact hs.disk
    · exact hd
  rw [← hepoch] at ht hnext
  exact ⟨⟨ht, hnext _ hdisk⟩, fun d hd ↦ (htrail d hd).imp_right (hnext d)⟩

/-- A call stays in the epoch of the session, and so does every content the directory goes
through. -/
theorem Impl.Current.exec {s : Impl} (hs : s.Current) (c : Call) :
    (s.exec c).2.Current ∧ (s.exec c).2.epoch = s.epoch ∧
      ∀ d ∈ (s.exec c).2.store.trail, d.InEpoch s.epoch.raw.toNat := by
  refine (s.exec_trace c).invariant (I := fun t ↦ t.Current ∧ t.epoch = s.epoch ∧
    ∀ d ∈ t.store.trail, d.InEpoch s.epoch.raw.toNat) ?_ ?_
  · rintro t a u ⟨ht, hepoch, htrail⟩ - hm
    obtain ⟨hu, htrail'⟩ := hm.current ht
    have hepoch' : u.epoch = s.epoch := hm.epoch_eq.trans hepoch
    rw [hepoch'] at htrail'
    exact ⟨hu, hepoch', fun d hd ↦ (htrail' d hd).elim (htrail d) id⟩
  · exact ⟨⟨hs.memory.congr rfl rfl, hs.disk⟩, rfl, nofun⟩

theorem Impl.Current.rehash {s t : Impl} (hs : s.Current) (hr : s.Rehash t) :
    t.Current ∧ t.epoch = s.epoch ∧ t.store.disk = s.store.disk := by
  cases hr with
  | mk hc hp hpn ho hon hq hqn ha hpr ht =>
      refine ⟨⟨⟨?_, ?_, ?_⟩, hs.disk⟩, rfl, rfl⟩
      · intro k r hr
        exact hs.memory.allocations k r ((ha.lookup_eq k).trans hr)
      · intro k e he
        exact hs.memory.latest k e ((hpr.lookup_eq k).trans he)
      · intro k e he
        exact hs.memory.history k e ((hpr.lookup_eq k).trans he)

/-! ### Opening -/

namespace Impl

variable {s t : Impl} {n : ℕ}

theorem Dated.restorePressure (h : s.Dated n) {p : PressureSnapshot}
    (hp : p.epoch.raw.toNat ≤ n) : (s.restorePressure p).Dated n := by
  have hstored : ∀ q ∈ ((s.pressure.lookup p.pool).getD {}).history, q.epoch.raw.toNat ≤ n := by
    cases hl : s.pressure.lookup p.pool with
    | none => simp
    | some e => exact h.history p.pool e hl
  refine ⟨h.allocations, ?_, ?_⟩
  · intro k e he
    have he : (s.pressure.insert p.pool _).lookup k = some e := he
    rw [Table.lookup_insert_eq] at he
    split at he
    · rw [← Option.some.inj he]
      exact hp
    · exact h.latest k e he
  · intro k e he q hq
    have he : (s.pressure.insert p.pool _).lookup k = some e := he
    rw [Table.lookup_insert_eq] at he
    split at he
    · rw [← Option.some.inj he] at hq
      rcases List.mem_append.mp hq with hq | hq
      · exact hstored q hq
      · rw [List.mem_singleton.mp hq]
        exact hp
    · exact h.history k e he q hq

theorem Dated.loadImage (h : s.Dated n) {i : Image} (hi : i.Dated n) :
    (s.loadImage i).Dated n ∧ (s.loadImage i).epoch = i.epoch := by
  let I : Impl → Prop := fun t ↦ t.Dated n ∧ t.epoch = i.epoch
  have hstart : I { s with epoch := i.epoch, boot := i.boot, counters := i.counters.restored } :=
    ⟨h.congr rfl rfl, rfl⟩
  have hother : ∀ {t u : Impl}, I t → u.allocations = t.allocations → u.pressure = t.pressure →
      u.epoch = t.epoch → I u :=
    fun ht ha hp he ↦ ⟨ht.1.congr ha hp, he.trans ht.2⟩
  have h₁ := List.foldlRecOn i.policies restorePolicy hstart
    fun t ht _ _ ↦ hother ht rfl rfl rfl
  have h₂ := List.foldlRecOn i.pools
    (fun s e ↦ s.restorePool e.1 { descriptor := e.1, capacityGeneration := e.2 }) h₁
    fun t ht _ _ ↦ hother ht rfl rfl rfl
  have h₃ := List.foldlRecOn i.queues restoreQueue h₂ fun t ht _ _ ↦ hother ht rfl rfl rfl
  have h₄ := List.foldlRecOn i.allocations restoreAllocation h₃
    fun t ht r hr ↦ ⟨ht.1.insert (hi.allocations r hr) rfl rfl, ht.2⟩
  have h₅ := List.foldlRecOn i.pressure Impl.restorePressure h₄
    fun t ht p hp ↦ ⟨ht.1.restorePressure (hi.pressure p hp), ht.2⟩
  have h₆ := List.foldlRecOn i.attempts (fun s a ↦ { s with
      attemptOrder := s.attemptOrder ++ [a.id]
      attempts := s.attempts.insert a.id a }) h₅
    fun t ht _ _ ↦ hother ht rfl rfl rfl
  exact List.foldlRecOn i.capacities restoreCapacity h₆ fun t ht _ _ ↦ hother ht rfl rfl rfl

theorem Dated.applyRecord (h : s.Dated n) {record : JournalRecord} (hr : record.Dated n)
    {u : Unit} (heq : s.applyRecord record = (.ok u, t)) :
    t.Dated n ∧ t.epoch = record.epochOver s.epoch := by
  cases record with
  | epochAdvance e b =>
      obtain ⟨-, rfl⟩ := Prod.mk.inj heq
      simp only [JournalRecord.epochOver]
      split <;> split <;> exact ⟨h.congr rfl rfl, rfl⟩
  | poolUpsert d g =>
      simp only [Impl.applyRecord] at heq
      split at heq
      · obtain ⟨-, rfl⟩ := Prod.mk.inj heq
        exact ⟨h.congr rfl rfl, rfl⟩
      · cases heq
  | policyUpsert p =>
      simp only [Impl.applyRecord] at heq
      split at heq
      · obtain ⟨-, rfl⟩ := Prod.mk.inj heq
        exact ⟨h.congr rfl rfl, rfl⟩
      · cases heq
  | allocation op r =>
      simp only [Impl.applyRecord] at heq
      split at heq
      · obtain ⟨-, rfl⟩ := Prod.mk.inj heq
        exact ⟨h.insert hr rfl rfl, rfl⟩
      · cases heq
  | pressureObserved p =>
      obtain ⟨-, rfl⟩ := Prod.mk.inj heq
      exact ⟨h.storePressure hr, rfl⟩
  | poolRemoved id | queueRetired id =>
      simp only [Impl.applyRecord] at heq
      split at heq <;> obtain ⟨-, rfl⟩ := Prod.mk.inj heq <;> exact ⟨h.congr rfl rfl, rfl⟩
  | _ =>
      obtain ⟨-, rfl⟩ := Prod.mk.inj heq
      exact ⟨h.congr rfl rfl, rfl⟩

theorem Dated.replay (h : s.Dated n) {records : List JournalRecord}
    (hr : ∀ r ∈ records, r.Dated n) {u : Unit} (heq : replay records s = (.ok u, t)) :
    t.Dated n ∧ t.epoch = records.foldl JournalRecord.epochOver s.epoch := by
  induction records generalizing s with
  | nil =>
      obtain ⟨-, rfl⟩ := Prod.mk.inj heq
      exact ⟨h, rfl⟩
  | cons record records ih =>
      unfold Impl.replay at heq
      split at heq
      · cases heq
      · rename_i u m hm
        obtain ⟨hd, he⟩ := h.applyRecord (hr record List.mem_cons_self) hm
        obtain ⟨hd', he'⟩ := ih hd (fun r hr' ↦ hr r (List.mem_cons_of_mem _ hr')) heq
        exact ⟨hd', by rw [he', he, List.foldl_cons]⟩

theorem expireReserved_bound (tick : Tick) (r : AllocationRecord) :
    (expireReserved tick r).bound = r.bound := by
  unfold expireReserved
  split <;> rfl

theorem Dated.settleRecovered (h : s.Dated n) : s.settleRecovered.Dated n := by
  refine ⟨?_, h.latest, h.history⟩
  intro k r hr
  have hr : (s.allocations.mapValues (expireReserved s.tick)).lookup k = some r := hr
  rw [Table.lookup_mapValues] at hr
  obtain ⟨r', hr', rfl⟩ := Option.map_eq_some_iff.mp hr
  rw [expireReserved_bound]
  exact h.allocations k r' hr'

/-- What a new instance loads is dated like the directory, and so is its epoch. -/
theorem Dated.loadFromStore (h : s.Dated n) (hepoch : s.epoch = default)
    (hd : s.store.disk.Dated n) {u : Unit} (heq : s.loadFromStore = (.ok u, t)) :
    t.Dated n ∧ t.epoch = s.store.disk.epoch := by
  obtain ⟨-, m, r, hsnap, hreplay, rfl⟩ := loadFromStore_ok heq
  have hm : m.Dated n ∧ m.epoch = (s.store.disk.snapshot.map (·.epoch)).getD default ∧
      m.store = s.store := by
    unfold loadSnapshot at hsnap
    cases hi : s.store.disk.snapshot with
    | none =>
        rw [hi] at hsnap
        obtain ⟨-, rfl⟩ := Prod.mk.inj hsnap
        exact ⟨h, hepoch, rfl⟩
    | some i =>
        rw [hi] at hsnap
        obtain ⟨-, rfl⟩ := applySnapshot_ok.mp hsnap
        obtain ⟨hdated, he⟩ := h.loadImage (hd.snapshot i hi)
        exact ⟨hdated, he, (s.loadImage_spec i).2.1⟩
  obtain ⟨hdated, he, hstore⟩ := hm
  rw [hstore] at hreplay
  obtain ⟨hr, her⟩ := hdated.replay hd.journal hreplay
  rw [he] at her
  have hrec : r.recoveredFrom.Dated n := hr.congr rfl rfl
  exact ⟨hrec.settleRecovered, her⟩

theorem empty_dated (n : ℕ) : ({} : Impl).Dated n := by
  refine ⟨?_, ?_, ?_⟩ <;> intro k e he <;> cases he

end Impl

/-- A new instance that opens a directory begins the next epoch; every content the directory
goes through is in the epoch it had or in the next one. -/
theorem Impl.Current.openFabric {s t : Impl} {config : FabricConfig} {boot : Impl.BootInputs}
    {r : Except Status Unit} (h : s.openFabric config boot = (r, t))
    (hmode : config.persistence.mode ≠ .none) (hmemory : ∀ n, s.Dated n)
    (hepoch : s.epoch = default) {n : ℕ} (hdisk : s.store.disk.InEpoch n)
    (htrail : s.store.trail = []) :
    (∀ d ∈ t.store.disk :: t.store.trail, d.InEpoch n ∨ d.InEpoch (n + 1)) ∧
      (r = .ok () → t.Current ∧ t.epoch.raw.toNat = n + 1 ∧ t.Dated n) := by
  rcases openFabric_begun h hmode with ⟨⟨e, rfl⟩, hd, ht⟩ | ⟨m, t', res, hl, hroom, hj, hd, ht, hok⟩
  · rw [hd, ht, htrail]
    refine ⟨?_, nofun⟩
    intro d hd
    rw [List.mem_singleton.mp hd]
    exact .inl hdisk
  obtain ⟨hm, he⟩ := ((hmemory n).congr (t := { s with
      config := config
      store := { s.store with config := config.persistence, configured := true } })
    rfl rfl).loadFromStore hepoch hdisk.dated hl
  obtain ⟨-, -, -, hmdisk, hmconfig, hmtrail, -, -⟩ := loadFromStore_view hl
  have hmdisk : m.store.disk = s.store.disk := hmdisk
  have hmtrail : m.store.trail = s.store.trail := hmtrail
  have hmconfig : m.store.config = config.persistence := hmconfig
  have hraw : m.epoch.raw.toNat = n := by
    rw [he]
    exact hdisk.epoch_eq
  have hnew : (m.epoch.raw + 1).toNat = n + 1 := by
    rw [toNat_add_of_not_overflow hroom, hraw]
    rfl
  have hbegun : (m.begun boot m.epoch).Dated (n + 1) := (hm.mono (Nat.le_succ n)).congr rfl rfl
  have himage : (m.begun boot m.epoch).image.Dated (n + 1) :=
    image_dated hbegun (Nat.le_of_eq hnew) rfl hbegun rfl
  have hnext : ∀ d, Disk.Next (m.begun boot m.epoch).image
      (.epochAdvance ⟨m.epoch.raw + 1⟩ (mintBoot boot)) s.store.disk d →
      d = s.store.disk ∨ d.InEpoch (n + 1) := by
    intro d hd
    refine hd.inEpoch (hdisk.dated.mono (Nat.le_succ n)) himage (Nat.le_of_eq hnew.symm)
      (Nat.le_of_eq hnew) ?_
    have hlt : s.store.disk.epoch.raw < m.epoch.raw + 1 := by
      rw [Word.lt_iff, hdisk.epoch_eq, hnew]
      exact Nat.lt_succ_self n
    rw [JournalRecord.epochOver, if_pos hlt]
    exact Nat.le_of_eq hnew.symm
  obtain ⟨st, hst, hf, hcases⟩ := (m.begun boot m.epoch).journal_spec
    (.epochAdvance ⟨m.epoch.raw + 1⟩ (mintBoot boot))
  rw [hj] at hst hcases
  simp only at hst hcases
  have hstart : (m.begun boot m.epoch).store = m.store := rfl
  rw [hstart, hmdisk] at hf hcases
  have hdisks : ∀ d ∈ st.disk :: st.trail, d = s.store.disk ∨ d.InEpoch (n + 1) := by
    intro d hd
    rcases List.mem_cons.mp hd with rfl | hd
    · rcases hf.disk with heq | hd
      · exact .inl (heq.trans hmdisk)
      · exact hnext _ hd
    · rcases hf.trail d hd with hd | hd
      · rw [hmtrail, htrail] at hd
        cases hd
      · exact hnext d hd
  rw [hd, ht, hst]
  constructor
  · intro d hd
    rcases hdisks d hd with rfl | hd
    · exact .inl hdisk
    · exact .inr hd
  intro hr
  obtain ⟨rfl, rfl⟩ := hok hr
  have hmoved : st.disk ≠ s.store.disk := by
    intro heq
    rcases hcases with ⟨-, -, hwritten⟩ | ⟨⟨e, he⟩, -⟩
    · rcases hwritten (by rw [hmconfig]; exact hmode) with hw | hw
      · rw [heq] at hw
        have hlen := congrArg (fun d : Disk ↦ d.journal.length) hw
        simp at hlen
      · have hsnap := (hdisk.dated.snapshot (m.begun boot m.epoch).image (by rw [← heq, hw])).epoch
        have hlt : n + 1 ≤ n := hnew ▸ hsnap
        omega
    · cases he
  have hin := (hdisks st.disk List.mem_cons_self).resolve_left hmoved
  rw [hst]
  refine ⟨⟨?_, ?_⟩, hnew, hm.congr rfl rfl⟩
  · change Impl.Dated (m.epoch.raw + 1).toNat _
    rw [hnew]
    exact hbegun.congr rfl rfl
  · change Disk.InEpoch (m.epoch.raw + 1).toNat _
    rw [hnew]
    exact hin

/-! ### Runs over one directory -/

structure System.Current (y : System) : Prop where
  disk : ∃ n, y.disk.InEpoch n
  live : ∀ s, y.live = some s → s.store.disk = y.disk ∧ s.Current

theorem System.Current.of_stopped {y : System} (h : ∃ n, y.disk.InEpoch n)
    (hlive : y.live = none) : y.Current := by
  refine ⟨h, ?_⟩
  intro s hs
  rw [hlive] at hs
  cases hs

/-- A step keeps the directory in an epoch that is not earlier; a successful open begins a
later one, and everything it recovered is from before. -/
theorem System.Step.current {y y' : System} {ev : Event} (h : System.Step y ev y')
    (hy : y.Current) (hev : y.Durable ev) :
    y'.Current ∧ y.disk.epoch.raw.toNat ≤ y'.disk.epoch.raw.toNat ∧
      ∀ config, ev = .opened config → ∃ s, y'.live = some s ∧
        y.disk.epoch.raw.toNat < s.epoch.raw.toNat ∧ y'.disk.epoch = s.epoch ∧
        s.Dated y.disk.epoch.raw.toNat := by
  obtain ⟨n, hn⟩ := hy.disk
  have hopen : ∀ {config : FabricConfig} {s s' : Impl} {boot : Impl.BootInputs} {tick : Tick}
      {io : List Io} {r : Except Status Unit}, ev.opens = some config → y.Idle s →
      (s.attach y.disk tick io).openFabric config boot = (r, s') →
      (∀ d ∈ s'.store.disk :: s'.store.trail, d.InEpoch n ∨ d.InEpoch (n + 1)) ∧
        (r = .ok () → s'.Current ∧ s'.epoch.raw.toNat = n + 1 ∧ s'.Dated n) := by
    intro config s s' boot tick io r hopens hidle heq
    obtain ⟨hmode, hnone⟩ := hev config hopens
    cases hidle with
    | fresh =>
        exact Impl.Current.openFabric heq (by rw [hmode]; decide)
          (fun n ↦ (Impl.empty_dated n).congr rfl rfl) rfl hn rfl
    | again hlive =>
        rw [hnone] at hlive
        cases hlive
  have hlater : ∀ {d : Disk}, d.InEpoch n ∨ d.InEpoch (n + 1) →
      (∃ n, d.InEpoch n) ∧ y.disk.epoch.raw.toNat ≤ d.epoch.raw.toNat := by
    intro d hd
    rw [hn.epoch_eq]
    rcases hd with hd | hd
    · exact ⟨⟨n, hd⟩, hd.reached⟩
    · exact ⟨⟨n + 1, hd⟩, (Nat.le_succ n).trans hd.reached⟩
  have hcalled : ∀ {s : Impl} (c : Call), y.live = some s → (s.exec c).2.Current ∧
      ∀ d ∈ (s.exec c).2.store.disk :: (s.exec c).2.store.trail, d.InEpoch n := by
    intro s c hlive
    obtain ⟨hdisk, hs⟩ := hy.live s hlive
    obtain ⟨ht, hepoch, htrail⟩ := hs.exec c
    have heq : s.epoch.raw.toNat = n := by
      rw [← hs.disk.epoch_eq, hdisk, hn.epoch_eq]
    rw [heq] at htrail
    refine ⟨ht, ?_⟩
    intro d hd
    rcases List.mem_cons.mp hd with rfl | hd
    · have hin := ht.disk
      rw [hepoch, heq] at hin
      exact hin
    · exact htrail d hd
  cases h with
  | opened hidle heq =>
      obtain ⟨hdisks, hok⟩ := hopen rfl hidle heq
      obtain ⟨hs, hepoch, hdated⟩ := hok rfl
      obtain ⟨hin, hle⟩ := hlater (hdisks _ List.mem_cons_self)
      refine ⟨⟨hin, ?_⟩, hle, ?_⟩
      · intro s' hs'
        obtain rfl := Option.some.inj hs'
        exact ⟨rfl, hs⟩
      · intro config hconfig
        refine ⟨_, rfl, ?_, ?_, ?_⟩
        · rw [hn.epoch_eq, hepoch]
          exact Nat.lt_succ_self n
        · exact congrArg StrongId.mk (Word.eq_of_toNat hs.disk.epoch_eq)
        · rw [hn.epoch_eq]
          exact hdated
  | openFailed hidle heq =>
      obtain ⟨hdisks, -⟩ := hopen rfl hidle heq
      obtain ⟨hin, hle⟩ := hlater (hdisks _ List.mem_cons_self)
      exact ⟨.of_stopped hin rfl, hle, nofun⟩
  | openCrashed hidle heq hd =>
      obtain ⟨hdisks, -⟩ := hopen rfl hidle heq
      obtain ⟨hin, hle⟩ := hlater (hdisks _ (List.mem_cons_of_mem _ hd))
      exact ⟨.of_stopped hin rfl, hle, nofun⟩
  | called c hlive hop =>
      obtain ⟨hs, hdisks⟩ := hcalled c hlive
      obtain ⟨hin, hle⟩ := hlater (.inl (hdisks _ List.mem_cons_self))
      refine ⟨⟨hin, ?_⟩, hle, nofun⟩
      intro s' hs'
      obtain rfl := Option.some.inj hs'
      exact ⟨rfl, hs⟩
  | crashed c hlive hop hd =>
      obtain ⟨-, hdisks⟩ := hcalled c hlive
      obtain ⟨hin, hle⟩ := hlater (.inl (hdisks _ (List.mem_cons_of_mem _ hd)))
      exact ⟨.of_stopped hin rfl, hle, nofun⟩
  | closed hlive =>
      refine ⟨⟨hy.disk, ?_⟩, Nat.le_refl _, nofun⟩
      intro s' hs'
      obtain rfl := Option.some.inj hs'
      obtain ⟨hdisk, hs⟩ := hy.live _ hlive
      unfold Impl.closeFabric
      split
      · exact ⟨hdisk, hs.memory.congr rfl rfl, hs.disk⟩
      · exact ⟨hdisk, hs⟩
  | stopped => exact ⟨.of_stopped hy.disk rfl, Nat.le_refl _, nofun⟩
  | rehashed hlive hr =>
      refine ⟨⟨hy.disk, ?_⟩, Nat.le_refl _, nofun⟩
      intro s' hs'
      obtain rfl := Option.some.inj hs'
      obtain ⟨hdisk, hs⟩ := hy.live _ hlive
      obtain ⟨ht, -, hsame⟩ := hs.rehash hr
      exact ⟨hsame.trans hdisk, ht⟩

theorem System.current_empty : ({} : System).Current :=
  .of_stopped ⟨0, ⟨⟨by simp, by simp, by simp⟩, Nat.zero_le _⟩⟩ rfl

end BufferFabric
