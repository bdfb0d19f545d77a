import BufferFabric.Evidence
import BufferFabric.Memory

/-!
# Durable sessions

Two facts about every instance of a durable run: the store keeps the configuration it was
opened with, which `validate` has accepted, and the pressure table files every snapshot
under its own pool.
-/

namespace BufferFabric

/-- A rule about instances only, whatever the directory holds. -/
theorem System.Rule.of_instances {C : FabricConfig → Prop} {P : Impl → Prop}
    (hmove : ∀ {s t : Impl} {a : Label × Bool}, P s → Move s a t → P t)
    (henter : ∀ (s : Impl) (c : Call), P s → P (s.enter c))
    (hrehash : ∀ s t : Impl, P s → s.Rehash t → P t)
    (hclose : ∀ s : Impl, P s → P s.closeFabric)
    (hstart : ∀ {disk : Disk} {tick : Tick} {io : List Io} {config : FabricConfig}
      {boot : Impl.BootInputs} {t : Impl}, C config →
      (({} : Impl).attach disk tick io).openFabric config boot = (.ok (), t) → P t) :
    System.Rule C P fun _ ↦ True where
  call s c hs _ :=
    ⟨(s.exec_trace c).invariant (I := P) (fun _ _ _ ht _ hm ↦ hmove ht hm) (henter s c hs),
      fun _ _ ↦ trivial⟩
  rehash := hrehash
  close := hclose
  start hconfig _ h := ⟨fun _ _ ↦ trivial, fun hok ↦ hstart hconfig (hok ▸ h)⟩

/-- Every instance of a durable run. -/
theorem System.Run.durable_instances {P : Impl → Prop}
    (hrule : System.Rule (fun config ↦ config.persistence.mode = .journalSync) P fun _ ↦ True)
    {y : System} (h : System.Run System.Durable y) {s : Impl} (hlive : y.live = some s) : P s := by
  have hholds : y.Holds P fun _ ↦ True :=
    h.invariant (I := System.Holds P fun _ ↦ True)
      (fun _ _ _ hy hev hs ↦ hrule.step hs (fun config hc ↦ hev config hc) hy)
      (.of_stopped trivial rfl)
  exact (hholds.live s hlive).2

/-! ### The configuration -/

structure Impl.Synced (s : Impl) : Prop where
  mode : s.store.config.mode = .journalSync
  valid : s.store.config.validate = .ok ()

theorem synced_rule :
    System.Rule (fun config ↦ config.persistence.mode = .journalSync) Impl.Synced
      fun _ ↦ True := by
  apply System.Rule.of_instances
  · intro s t a hs hm
    have hconfig := hm.disks.1
    exact ⟨hconfig ▸ hs.mode, hconfig ▸ hs.valid⟩
  · exact fun s c hs ↦ ⟨hs.mode, hs.valid⟩
  · intro s t hs hr
    cases hr
    exact ⟨hs.mode, hs.valid⟩
  · intro s hs
    unfold Impl.closeFabric
    split <;> exact ⟨hs.mode, hs.valid⟩
  · intro disk tick io config boot t hmode h
    obtain ⟨-, -, durable, m, hload, hbegin⟩ := Impl.openFabric_ok h
    have hsync : config.persistence.mode ≠ .none := by
      rw [hmode]
      simp
    rcases Impl.openDurable_ok hload with ⟨hnone, -⟩ | ⟨-, hvalid, hload, -⟩
    · exact absurd hnone hsync
    rcases Impl.beginEpoch_ok hbegin with ⟨hnone, -⟩ | ⟨-, hj⟩
    · exact absurd hnone hsync
    obtain ⟨-, -, -, -, hmconfig, -⟩ := Impl.loadFromStore_view hload
    obtain ⟨st, hst, hf, -⟩ := (m.begun boot durable).journal_spec
      (.epochAdvance ⟨durable.raw + 1⟩ (Impl.mintBoot boot))
    rw [hj] at hst
    have hconfig : t.store.config = config.persistence := by
      have ht : t = { m.begun boot durable with store := st } := hst
      rw [ht]
      exact hf.config.trans hmconfig
    exact ⟨hconfig ▸ hmode, hconfig ▸ hvalid⟩

theorem System.Run.synced {y : System} (h : System.Run System.Durable y) {s : Impl}
    (hlive : y.live = some s) : s.Synced :=
  h.durable_instances synced_rule hlive

/-! ### Room -/

/-- A record is appended: the directory is configured, the journal open and below its
threshold, there is room for the frame, and the file system works. -/
structure DurableStore.TakesRecord (st : DurableStore) (record : JournalRecord) : Prop where
  mode : st.config.mode ≠ .none
  configured : st.configured = true
  writable : st.writable = true
  io : st.io = []
  encodable : record.encodable = .ok ()
  bounded : record.payload.length ≤ kMaxJournalRecordBytes
  below : st.journalBytes < st.config.compactJournalBytes.toNat
  room : st.bytesWritten + record.frameBytes ≤ st.config.maxJournalBytes.toNat

theorem DurableStore.TakesRecord.journal {st : DurableStore} {record : JournalRecord}
    (h : st.TakesRecord record) (image : Image) :
    st.journal image record =
      (.ok (), { st.writeFrame record with
        journalBytes := st.bytesWritten + record.frameBytes }) := by
  have hcompact : st.needsCompaction = false := by
    unfold needsCompaction
    rw [decide_eq_false_iff_not]
    exact Nat.not_le.mpr h.below
  have happend : st.openAppend = st := by
    unfold openAppend
    rw [if_pos h.writable]
  have hnext : st.nextIo = (.ok, st) := by
    unfold nextIo
    rw [h.io]
  have hconfigured : (!st.configured) = false := by rw [h.configured]; rfl
  unfold DurableStore.journal appendRecord
  rw [h.encodable]
  simp only [if_neg h.mode, hcompact, hconfigured, happend, Bool.false_eq_true, if_false]
  rw [if_neg (Nat.not_lt.mpr h.bounded), if_neg fun hfull ↦ Nat.not_le.mpr hfull.2 h.room, hnext]
  rfl

theorem Impl.journal_of_takes {s : Impl} {record : JournalRecord}
    (h : s.store.TakesRecord record) :
    s.journal record = (.ok (), { s with
      store := { s.store.writeFrame record with
        journalBytes := s.store.bytesWritten + record.frameBytes } }) := by
  unfold Impl.journal
  rw [h.journal]
  rfl

/-! ### The pressure table -/

/-- Every entry of the pressure table shows a snapshot of its own pool. -/
def Impl.PressureKeyed (s : Impl) : Prop :=
  ∀ p e, s.pressure.lookup p = some e → e.hasLatest = true ∧ e.latest.pool = p

namespace Impl.PressureKeyed

variable {s t : Impl}

theorem congr (h : s.PressureKeyed) (hp : t.pressure = s.pressure) : t.PressureKeyed := by
  intro p e he
  rw [hp] at he
  exact h p e he

theorem insert (h : s.PressureKeyed) {e : PressureEntry} (hlatest : e.hasLatest = true)
    (ht : t.pressure = s.pressure.insert e.latest.pool e) : t.PressureKeyed := by
  intro p e' he'
  rw [ht, Table.lookup_insert_eq] at he'
  split at he'
  · rename_i hp
    obtain rfl := Option.some.inj he'
    exact ⟨hlatest, hp.symm⟩
  · exact h p e' he'

theorem foldl {α : Type} {f : Impl → α → Impl}
    (hf : ∀ s x, s.PressureKeyed → (f s x).PressureKeyed) (l : List α) (h : s.PressureKeyed) :
    (l.foldl f s).PressureKeyed := by
  induction l generalizing s with
  | nil => exact h
  | cons x l ih => exact ih (hf s x h)

theorem loadImage (h : s.PressureKeyed) (i : Image) : (s.loadImage i).PressureKeyed := by
  have hfirst : ({ s with
      epoch := i.epoch, boot := i.boot, counters := i.counters.restored } : Impl).PressureKeyed := h
  have hpolicies := hfirst.foldl (f := restorePolicy) (fun _ _ hs ↦ hs.congr rfl) i.policies
  have hpools := hpolicies.foldl (f := fun s e ↦
    s.restorePool e.1 { descriptor := e.1, capacityGeneration := e.2 })
    (fun _ _ hs ↦ hs.congr rfl) i.pools
  have hqueues := hpools.foldl (f := restoreQueue) (fun _ _ hs ↦ hs.congr rfl) i.queues
  have hallocations := hqueues.foldl (f := restoreAllocation) (fun _ _ hs ↦ hs.congr rfl)
    i.allocations
  have hpressure := hallocations.foldl (f := restorePressure)
    (fun s p hs ↦ hs.insert (e := { latest := p, hasLatest := true, latestRevalidated := false
                                    history := ((s.pressure.lookup p.pool).getD {}).history ++ [p] })
      rfl rfl) i.pressure
  have hattempts := hpressure.foldl (f := fun s a ↦ { s with
    attemptOrder := s.attemptOrder ++ [a.id]
    attempts := s.attempts.insert a.id a }) (fun _ _ hs ↦ hs.congr rfl) i.attempts
  exact hattempts.foldl (f := restoreCapacity) (fun _ _ hs ↦ hs.congr rfl) i.capacities

theorem store (h : s.PressureKeyed) (p : PressureSnapshot) :
    (s.storePressure p.pool p).PressureKeyed := by
  intro q e he
  unfold storePressure at he
  rw [Table.lookup_insert_eq] at he
  split at he
  · rename_i hq
    obtain rfl := Option.some.inj he
    exact ⟨rfl, hq.symm⟩
  · exact h q e he

theorem applyRecord (h : s.PressureKeyed) (record : JournalRecord) :
    (s.applyRecord record).2.PressureKeyed := by
  unfold Impl.applyRecord
  cases record with
  | epochAdvance epoch boot =>
      dsimp only
      split <;> split <;> exact h
  | pressureObserved p => exact h.store p
  | policyUpsert | poolUpsert | poolRemoved | queueRetired | allocation =>
      dsimp only
      split <;> exact h
  | _ => exact h

theorem replay (h : s.PressureKeyed) (records : List JournalRecord) :
    (Impl.replay records s).2.PressureKeyed := by
  induction records generalizing s with
  | nil => exact h
  | cons record records ih =>
      have hs := h.applyRecord record
      unfold Impl.replay
      split
      · rename_i heq
        rw [heq] at hs
        exact hs
      · rename_i heq
        rw [heq] at hs
        exact ih hs

theorem loadFromStore (h : s.PressureKeyed) {u : Unit} (hload : s.loadFromStore = (.ok u, t)) :
    t.PressureKeyed := by
  obtain ⟨-, m, n, hsnap, hreplay, rfl⟩ := Impl.loadFromStore_ok hload
  have hm : m.PressureKeyed := by
    unfold loadSnapshot at hsnap
    split at hsnap
    · obtain ⟨-, rfl⟩ := Prod.mk.inj hsnap
      exact h
    · obtain ⟨-, rfl⟩ := applySnapshot_ok.mp hsnap
      exact h.loadImage _
  have hn := hm.replay m.store.disk.journal
  rw [hreplay] at hn
  exact hn

theorem openFabric {config : FabricConfig} {boot : BootInputs} (h : s.PressureKeyed)
    (hopen : s.openFabric config boot = (.ok (), t)) : t.PressureKeyed := by
  obtain ⟨-, -, durable, m, hload, hbegin⟩ := openFabric_ok hopen
  have hm : m.PressureKeyed := by
    rcases openDurable_ok hload with ⟨-, rfl⟩ | ⟨-, -, hload, -⟩
    · exact h
    · refine PressureKeyed.loadFromStore ?_ hload
      exact h
  rcases beginEpoch_ok hbegin with ⟨-, rfl⟩ | ⟨-, hj⟩
  · exact hm
  · rw [eq_of_journal hj]
    exact hm

theorem move {a : Label × Bool} (h : s.PressureKeyed) (hm : Move s a t) : t.PressureKeyed := by
  by_cases hl : a.1 = .pressure
  · refine hm.keeps (I := PressureKeyed) (by rw [hl]; simp) (fun _ _ h ↦ h) ?_ h
    intro record m hc
    rw [hl] at hc
    cases hc with
    | pressure p => exact h.store p
  · exact fun p e he ↦ h p e (hm.pressure_sub hl he)

end Impl.PressureKeyed

theorem pressureKeyed_rule :
    System.Rule (fun config ↦ config.persistence.mode = .journalSync) Impl.PressureKeyed
      fun _ ↦ True := by
  apply System.Rule.of_instances
  · exact fun hs hm ↦ hs.move hm
  · exact fun s c hs ↦ hs
  · intro s t hs hr
    cases hr with
    | mk hc hp hpn ho hon hq hqn ha hr ht =>
        intro p e he
        rw [← hr.lookup_eq] at he
        exact hs p e he
  · intro s hs
    unfold Impl.closeFabric
    split <;> exact hs
  · intro disk tick io config boot t _ h
    refine Impl.PressureKeyed.openFabric ?_ h
    intro p e he
    cases he

theorem System.Run.pressureKeyed {y : System} (h : System.Run System.Durable y) {s : Impl}
    (hlive : y.live = some s) : s.PressureKeyed :=
  h.durable_instances pressureKeyed_rule hlive

end BufferFabric
