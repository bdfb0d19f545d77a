import BufferFabric.Parents

/-!
# Requests that the wire carries

Exactly when a request that is encoded, sent under the current epoch and dispatched has the effect
of the call it stands for and reports the same.
-/

namespace BufferFabric

open Outcome Protocol

/-! ### Reports of pressure -/

namespace Impl

/-- The two outcomes report the same and leave the same state. -/
def AlikeUnit (x y : Outcome Unit) : Prop :=
  Report.ofReply (x.1.map fun _ ↦ .done) = Report.ofReply (y.1.map fun _ ↦ .done) ∧ x.2 = y.2

variable {s : Impl} {p : PressureSnapshot} {entry : PoolEntry} {pool : PoolId}

def storeChecked (s : Impl) (pool : PoolId) (checked : Except Status PressureSnapshot) :
    Outcome Unit :=
  match checked with
  | .error e => (.error e, s)
  | .ok x =>
      match s.journal (.pressureObserved x) with
      | (.error e, s) => (.error e, s)
      | (.ok _, s) => (.ok (), s.storePressure pool x)

theorem storeChecked_counters (checked : Except Status PressureSnapshot) :
    (s.storeChecked pool checked).2.counters = s.counters := by
  unfold storeChecked
  split
  · rfl
  split
  · rename_i hj
    rw [eq_of_journal hj]
  · rename_i hj
    rw [eq_of_journal hj]
    rfl

theorem storeChecked_store (x : PressureSnapshot) :
    (s.storeChecked pool (.ok x)).2.store = (s.journal (.pressureObserved x)).2.store := by
  unfold storeChecked
  dsimp only
  rcases s.journal (.pressureObserved x) with ⟨e | u, t⟩ <;> rfl

/-- A snapshot that passed its checks is stored or its append fails. -/
theorem storeChecked_code (x : PressureSnapshot) (code : ErrorCode) (hcode : code ≠ .ok)
    (hjournal : code ∉ journalCodes) :
    (Report.ofReply ((s.storeChecked pool (.ok x)).1.map fun _ ↦ .done)).status ≠ code := by
  unfold storeChecked
  dsimp only
  rcases hj : s.journal (.pressureObserved x) with ⟨e | u, t⟩
  · rintro rfl
    exact hjournal (journal_error hj)
  · exact hcode.symm

def kPressureBytes : ℕ := 114

theorem length_payload_pressure (x : PressureSnapshot) :
    (JournalRecord.pressureObserved x).payload.length = kPressureBytes := by
  simp only [JournalRecord.payload, encodePressureSnapshot, List.length_append, length_putU8,
    length_putBool, length_putU64, length_putId, length_putDigest]
  rfl

/-- Two checked snapshots have one effect if they are equal or nothing of them is written. -/
theorem storeChecked_alike_iff (x y : PressureSnapshot) :
    AlikeUnit (s.storeChecked pool (.ok x)) (s.storeChecked pool (.ok y)) ↔
      x = y ∨ s.Drops kPressureBytes := by
  by_cases heq : x = y
  · subst heq
    exact iff_of_true ⟨rfl, rfl⟩ (.inl rfl)
  rw [or_iff_right heq]
  by_cases hdrops : s.Drops kPressureBytes
  · refine iff_of_true ?_ hdrops
    obtain ⟨e, t, hall⟩ := journal_drops hdrops
    unfold AlikeUnit storeChecked
    dsimp only
    rw [hall _ rfl (length_payload_pressure x), hall _ rfl (length_payload_pressure y)]
    exact ⟨rfl, rfl⟩
  · refine iff_of_false (fun hsame ↦ heq ?_) hdrops
    by_cases hmode : s.store.config.mode = .none
    · have hx : (s.storeChecked pool (.ok x)).2 = s.storePressure pool x := by
        unfold storeChecked
        dsimp only
        rw [journal_of_none hmode rfl]
      have hy : (s.storeChecked pool (.ok y)).2 = s.storePressure pool y := by
        unfold storeChecked
        dsimp only
        rw [journal_of_none hmode rfl]
      have hstate := hx.symm.trans (hsame.2.trans hy)
      have hlookup := congrArg (fun t : Impl ↦ (t.pressure.lookup pool).map (·.latest)) hstate
      unfold storePressure at hlookup
      dsimp only at hlookup
      rw [Table.lookup_insert_eq, Table.lookup_insert_eq, if_pos rfl, if_pos rfl] at hlookup
      exact Option.some.inj hlookup
    · have hdisk := congrArg (·.store.disk) hsame.2
      rw [storeChecked_store, storeChecked_store] at hdisk
      have hrecord := journal_apart hmode hdrops rfl rfl (length_payload_pressure x)
        (length_payload_pressure y) hdisk
      exact JournalRecord.pressureObserved.inj hrecord

/-! ### Checks of a report -/

def InBounds (p : PressureSnapshot) : Prop :=
  p.demandUnits ≤ kMaxUnitsPerPool ∧ p.committedUnits ≤ kMaxUnitsPerPool * 2 ∧
    p.reclaimableUnits ≤ kMaxUnitsPerPool

instance : Decidable (InBounds p) := inferInstanceAs (Decidable (_ ∧ _))

def settledPressure (s : Impl) (entry : PoolEntry) (p : PressureSnapshot) : PressureSnapshot :=
  { p with
    observedAt := if p.observedAt = 0 then s.tick else p.observedAt
    ttlTicks := if p.ttlTicks = 0 then
        (match s.policies.lookup entry.descriptor.policy with
          | none => 0
          | some policy => policy.pressure.evidenceTtlTicks)
      else p.ttlTicks
    boot := s.boot }

theorem planPressure_eq (hepoch : p.epoch = s.epoch)
    (hgeneration : p.poolGeneration = entry.descriptor.generation) :
    s.planPressure entry p =
      if (s.settledPressure entry p).observedAt ≤ s.tick then
        if InBounds p then .ok (s.settledPressure entry p)
        else .error ⟨.overflow, "pressure snapshot values exceed the supported bound"⟩
      else .error ⟨.invalidArgument, "pressure snapshot observation time is in the future"⟩ := by
  have hdated : (if p.observedAt = 0 then { p with observedAt := s.tick } else p) =
      { p with observedAt := (s.settledPressure entry p).observedAt } := by
    unfold settledPressure
    split <;> rfl
  unfold planPressure
  rw [require_eq_ok (u := ()).mpr hepoch, require_eq_ok (u := ()).mpr hgeneration]
  dsimp only
  rw [hdated]
  change (do
    require ((s.settledPressure entry p).observedAt ≤ s.tick)
      ⟨.invalidArgument, "pressure snapshot observation time is in the future"⟩
    require (InBounds p) ⟨.overflow, "pressure snapshot values exceed the supported bound"⟩
    pure (s.settledPressure entry p) : Except Status PressureSnapshot) = _
  unfold require
  by_cases hdate : (s.settledPressure entry p).observedAt ≤ s.tick
  · rw [if_pos hdate, if_pos hdate]
    by_cases hbounds : InBounds p
    · rw [if_pos hbounds, if_pos hbounds]
      rfl
    · rw [if_neg hbounds, if_neg hbounds]
      rfl
  · rw [if_neg hdate, if_neg hdate]
    rfl

def withSnapshotId (s : Impl) (next : UInt64) : Impl :=
  { s with counters := { s.counters with nextSnapshotId := next } }

/-- What the coordinator hands on of a report under the current epoch and generation. -/
def relayed (p : PressureSnapshot) : PressureSnapshot :=
  { p with
    id := default
    evidenceDigest := {}
    observedAt := if p.observedAt = 0 then 1 else p.observedAt }

theorem observePressure_barred (s : Impl) (pool : PoolId)
    (h : ∀ entry, ¬(s.isOpen = true ∧ ¬s.RefusesWork ∧ pool.Valid ∧
      s.pools.lookup pool = some entry)) :
    ∃ e, ∀ p : PressureSnapshot, p.pool = pool → s.observePressure p = (.error e, s) := by
  cases hcheck : (do s.requireOpen; s.requireWorking; s.requirePool pool :
      Except Status PoolEntry) with
  | error e =>
      refine ⟨e, fun p hp ↦ ?_⟩
      subst hp
      unfold observePressure
      rw [hcheck]
  | ok entry =>
      simp only [seq_ok, requireOpen_eq_ok, requireWorking_eq_ok, requirePool_eq_ok,
        exists_const] at hcheck
      exact absurd hcheck (h entry)

/-- A report that is let in takes its id, and is then checked. -/
theorem observePressure_ok (hopen : s.isOpen = true) (hwork : ¬s.RefusesWork)
    (hvalid : p.pool.Valid) (he : s.pools.lookup p.pool = some entry) {id : SnapshotId}
    (hid : pickId p.id s.counters.nextSnapshotId = id) {next : UInt64}
    (hnext : raiseCounter id s.counters.nextSnapshotId "snapshot id space is exhausted" =
      .ok next) :
    s.observePressure p = (s.withSnapshotId next).storeChecked p.pool
      ((s.withSnapshotId next).planPressure entry { p with id := id }) := by
  have hcheck : (do s.requireOpen; s.requireWorking; s.requirePool p.pool :
      Except Status PoolEntry) = .ok entry := by
    simp only [seq_ok, requireOpen_eq_ok, requireWorking_eq_ok, requirePool_eq_ok, exists_const]
    exact ⟨hopen, hwork, hvalid, he⟩
  unfold observePressure
  rw [hcheck]
  dsimp only
  rw [hid, hnext]
  rfl

theorem observePressure_exhausted (hopen : s.isOpen = true) (hwork : ¬s.RefusesWork)
    (hvalid : p.pool.Valid) (he : s.pools.lookup p.pool = some entry) {id : SnapshotId}
    (hid : pickId p.id s.counters.nextSnapshotId = id) {e : Status}
    (hnext : raiseCounter id s.counters.nextSnapshotId "snapshot id space is exhausted" =
      .error e) : s.observePressure p = (.error e, s) := by
  have hcheck : (do s.requireOpen; s.requireWorking; s.requirePool p.pool :
      Except Status PoolEntry) = .ok entry := by
    simp only [seq_ok, requireOpen_eq_ok, requireWorking_eq_ok, requirePool_eq_ok, exists_const]
    exact ⟨hopen, hwork, hvalid, he⟩
  unfold observePressure
  rw [hcheck]
  dsimp only
  rw [hid, hnext]

/-- The report and what the coordinator makes of it are turned down alike or are the same: the
report takes the id that the fabric would pick, and is of no use, or has no digest and a date, or
cannot be journaled; or there are no ids left and its figures are out of bounds. -/
def ReportKept (s : Impl) (p : PressureSnapshot) : Prop :=
  let next := s.counters.nextSnapshotId
  s.RefusesWork ∨ ¬p.pool.Valid ∨
    if pickId p.id next = ⟨next⟩ then
      AddOverflow next 1 ∨ s.tick < p.observedAt ∨ (p.observedAt = 0 → s.tick ≠ 0) ∧
        (InBounds p → p.evidenceDigest = {} ∧ (p.observedAt = 0 → s.tick = 1) ∨
          (s.withSnapshotId (next + 1)).Drops kPressureBytes)
    else AddOverflow next 1 ∧ p.observedAt ≤ s.tick ∧ ¬InBounds p

instance : Decidable (s.ReportKept p) := inferInstanceAs (Decidable (_ ∨ _))

theorem relayed_eq_iff (u : Impl) (entry : PoolEntry) (x : PressureSnapshot) :
    u.settledPressure entry { relayed x with id := x.id } = u.settledPressure entry x ↔
      x.evidenceDigest = {} ∧ (x.observedAt = 0 → u.tick = 1) := by
  unfold settledPressure relayed
  dsimp only
  constructor
  · intro h
    have hdigest := congrArg PressureSnapshot.evidenceDigest h
    have hdate := congrArg PressureSnapshot.observedAt h
    dsimp only at hdigest hdate
    refine ⟨hdigest.symm, fun hzero ↦ ?_⟩
    simp only [hzero, if_true] at hdate
    exact hdate.symm
  · rintro ⟨hdigest, hdate⟩
    by_cases hzero : x.observedAt = 0
    · simp only [hzero, hdate hzero, hdigest, if_true]
      rfl
    · simp only [hzero, hdigest, if_false]

/-- The checks of a report and of what the coordinator makes of it. -/
theorem checked_alike_iff (u : Impl) {x : PressureSnapshot} (hepoch : x.epoch = u.epoch)
    (hgeneration : x.poolGeneration = entry.descriptor.generation) :
    AlikeUnit
        (u.storeChecked pool (u.planPressure entry { relayed x with id := x.id }))
        (u.storeChecked pool (u.planPressure entry x)) ↔
      u.tick < x.observedAt ∨ (x.observedAt = 0 → u.tick ≠ 0) ∧
        (InBounds x → x.evidenceDigest = {} ∧ (x.observedAt = 0 → u.tick = 1) ∨
          u.Drops kPressureBytes) := by
  rw [planPressure_eq hepoch hgeneration,
    planPressure_eq (p := { relayed x with id := x.id }) hepoch hgeneration]
  have hx : (u.settledPressure entry x).observedAt =
      if x.observedAt = 0 then u.tick else x.observedAt := rfl
  have hy : (u.settledPressure entry { relayed x with id := x.id }).observedAt =
      if x.observedAt = 0 then 1 else x.observedAt := by
    unfold settledPressure relayed
    by_cases hzero : x.observedAt = 0 <;> simp [hzero]
  have hbounds : InBounds { relayed x with id := x.id } ↔ InBounds x := Iff.rfl
  rw [hx, hy]
  by_cases hlate : u.tick < x.observedAt
  · have hzero : x.observedAt ≠ 0 := by
      rintro hzero
      rw [hzero] at hlate
      exact absurd hlate (UInt64.not_lt.mpr (UInt64.zero_le))
    rw [if_neg hzero, if_neg hzero, if_neg (UInt64.not_le.mpr hlate),
      if_neg (UInt64.not_le.mpr hlate)]
    exact iff_of_true ⟨rfl, rfl⟩ (.inl hlate)
  rw [or_iff_right hlate]
  have hdate : (if x.observedAt = 0 then u.tick else x.observedAt) ≤ u.tick := by
    split
    · exact UInt64.le_refl _
    · exact UInt64.not_lt.mp hlate
  rw [if_pos hdate]
  by_cases hnow : x.observedAt = 0 ∧ u.tick = 0
  · obtain ⟨hzero, htick⟩ := hnow
    rw [if_pos hzero, htick, if_neg (by decide)]
    refine iff_of_false (fun hsame ↦ ?_) fun hand ↦ hand.1 hzero rfl
    by_cases hin : InBounds x
    · rw [if_pos hin] at hsame
      exact storeChecked_code _ .invalidArgument (by decide) (by decide)
        (congrArg Report.status hsame.1).symm
    · rw [if_neg hin] at hsame
      have hcode : ErrorCode.invalidArgument = .overflow := congrArg Report.status hsame.1
      cases hcode
  have hdate' : (if x.observedAt = 0 then 1 else x.observedAt) ≤ u.tick := by
    split
    · rename_i hzero
      have hne : u.tick ≠ 0 := fun htick ↦ hnow ⟨hzero, htick⟩
      have hpos := Word.ne_zero_iff.mp hne
      exact UInt64.le_iff_toNat_le.mpr hpos
    · exact UInt64.not_lt.mp hlate
  rw [if_pos hdate', and_iff_right fun hzero htick ↦ hnow ⟨hzero, htick⟩]
  by_cases hin : InBounds x
  · rw [if_pos (hbounds.mpr hin), if_pos hin, forall_prop_of_true hin, storeChecked_alike_iff,
      relayed_eq_iff]
  · rw [if_neg (fun h ↦ hin (hbounds.mp h)), if_neg hin]
    exact iff_of_true ⟨rfl, rfl⟩ fun h ↦ absurd h hin

theorem raiseCounter_full {id : SnapshotId} {next : UInt64} {message : String}
    (h : next ≤ id.raw) (hfull : AddOverflow id.raw 1) :
    raiseCounter id next message = .error ⟨.overflow, message⟩ := by
  unfold raiseCounter require
  rw [if_pos h, if_neg (not_not.mpr hfull)]
  rfl

theorem raiseCounter_below {id : SnapshotId} {next : UInt64} {message : String}
    (h : ¬next ≤ id.raw) : raiseCounter id next message = .ok next := if_neg h

theorem raiseCounter_raised {id : SnapshotId} {next : UInt64} {message : String}
    (h : next ≤ id.raw) (hroom : ¬AddOverflow id.raw 1) :
    raiseCounter id next message = .ok (id.raw + 1) := by
  unfold raiseCounter require
  rw [if_pos h, if_pos hroom]
  rfl

/-- A report that takes the id that the fabric would pick. -/
theorem observe_alike_of_picked (hopen : s.isOpen = true) (hwork : ¬s.RefusesWork)
    (hvalid : p.pool.Valid) (he : s.pools.lookup p.pool = some entry)
    (hepoch : p.epoch = s.epoch) (hgeneration : p.poolGeneration = entry.descriptor.generation)
    (hpick : pickId p.id s.counters.nextSnapshotId = ⟨s.counters.nextSnapshotId⟩) :
    AlikeUnit (s.observePressure (relayed p)) (s.observePressure p) ↔
      AddOverflow s.counters.nextSnapshotId 1 ∨ s.tick < p.observedAt ∨
        (p.observedAt = 0 → s.tick ≠ 0) ∧
        (InBounds p → p.evidenceDigest = {} ∧ (p.observedAt = 0 → s.tick = 1) ∨
          (s.withSnapshotId (s.counters.nextSnapshotId + 1)).Drops kPressureBytes) := by
  have hpick' : pickId (relayed p).id s.counters.nextSnapshotId =
      ⟨s.counters.nextSnapshotId⟩ := if_neg fun hvalid ↦ hvalid rfl
  by_cases hfull : AddOverflow s.counters.nextSnapshotId 1
  · refine iff_of_true ?_ (.inl hfull)
    have hnext : raiseCounter (⟨s.counters.nextSnapshotId⟩ : SnapshotId) s.counters.nextSnapshotId
        "snapshot id space is exhausted" =
          .error ⟨.overflow, "snapshot id space is exhausted"⟩ :=
      raiseCounter_full (UInt64.le_refl s.counters.nextSnapshotId) hfull
    rw [observePressure_exhausted hopen hwork hvalid he hpick hnext,
      observePressure_exhausted (p := relayed p) hopen hwork hvalid he hpick' hnext]
    exact ⟨rfl, rfl⟩
  rw [or_iff_right hfull]
  have hnext : raiseCounter (⟨s.counters.nextSnapshotId⟩ : SnapshotId) s.counters.nextSnapshotId
      "snapshot id space is exhausted" = .ok (s.counters.nextSnapshotId + 1) :=
    raiseCounter_raised (UInt64.le_refl s.counters.nextSnapshotId) hfull
  rw [observePressure_ok hopen hwork hvalid he hpick hnext,
    observePressure_ok (p := relayed p) hopen hwork hvalid he hpick' hnext]
  exact checked_alike_iff (s.withSnapshotId (s.counters.nextSnapshotId + 1))
    (x := { p with id := ⟨s.counters.nextSnapshotId⟩ }) hepoch hgeneration

/-- A report under an id of its own. -/
theorem observe_alike_of_named (hopen : s.isOpen = true) (hwork : ¬s.RefusesWork)
    (hvalid : p.pool.Valid) (he : s.pools.lookup p.pool = some entry)
    (hepoch : p.epoch = s.epoch) (hgeneration : p.poolGeneration = entry.descriptor.generation)
    (hpick : pickId p.id s.counters.nextSnapshotId ≠ ⟨s.counters.nextSnapshotId⟩) :
    AlikeUnit (s.observePressure (relayed p)) (s.observePressure p) ↔
      AddOverflow s.counters.nextSnapshotId 1 ∧ p.observedAt ≤ s.tick ∧ ¬InBounds p := by
  have hid : p.id.Valid := by
    by_contra hid
    exact hpick (if_neg hid)
  have hown : pickId p.id s.counters.nextSnapshotId = p.id := if_pos hid
  have hne : p.id.raw ≠ s.counters.nextSnapshotId := fun heq ↦ hpick (by rw [hown, ← heq])
  have hpick' : pickId (relayed p).id s.counters.nextSnapshotId =
      ⟨s.counters.nextSnapshotId⟩ := if_neg fun hvalid ↦ hvalid rfl
  by_cases hfull : AddOverflow s.counters.nextSnapshotId 1
  · rw [and_iff_right hfull]
    have hremote : s.observePressure (relayed p) =
        (.error ⟨.overflow, "snapshot id space is exhausted"⟩, s) :=
      observePressure_exhausted (p := relayed p) hopen hwork hvalid he hpick'
        (raiseCounter_full (UInt64.le_refl s.counters.nextSnapshotId) hfull)
    have hbelow : ¬s.counters.nextSnapshotId ≤ p.id.raw := by
      intro hle
      rw [addOverflow_iff] at hfull
      have hlt := Word.toNat_lt p.id.raw
      have hle := UInt64.le_iff_toNat_le.mp hle
      refine hne (UInt64.toNat_inj.mp ?_)
      change _ ≤ _ + 1 at hfull
      omega
    have hdirect : s.observePressure p = s.storeChecked p.pool (s.planPressure entry p) :=
      observePressure_ok hopen hwork hvalid he hown (raiseCounter_below hbelow)
    have hdate : (s.settledPressure entry p).observedAt ≤ s.tick ↔ p.observedAt ≤ s.tick := by
      unfold settledPressure
      dsimp only
      split
      · rename_i hzero
        rw [hzero]
        exact iff_of_true (UInt64.le_refl _) UInt64.zero_le
      · rfl
    rw [hremote, hdirect, planPressure_eq hepoch hgeneration, ← hdate]
    by_cases hd : (s.settledPressure entry p).observedAt ≤ s.tick
    · rw [if_pos hd, and_iff_right hd]
      by_cases hin : InBounds p
      · rw [if_pos hin]
        refine iff_of_false (fun hsame ↦ ?_) fun hout ↦ hout hin
        exact storeChecked_code _ .overflow (by decide) (by decide)
          (congrArg Report.status hsame.1).symm
      · rw [if_neg hin]
        exact iff_of_true ⟨rfl, rfl⟩ hin
    · rw [if_neg hd]
      refine iff_of_false (fun hsame ↦ ?_) fun hand ↦ hd hand.1
      have hcode : ErrorCode.overflow = .invalidArgument := congrArg Report.status hsame.1
      cases hcode
  · refine iff_of_false (fun hsame ↦ ?_) fun hand ↦ hfull hand.1
    have hnext := congrArg (·.counters.nextSnapshotId) hsame.2
    rw [observePressure_ok (p := relayed p) hopen hwork hvalid he hpick'
      (raiseCounter_raised (UInt64.le_refl s.counters.nextSnapshotId) hfull),
      storeChecked_counters] at hnext
    change s.counters.nextSnapshotId + 1 = (s.observePressure p).2.counters.nextSnapshotId at hnext
    have hstep : s.counters.nextSnapshotId + 1 ≠ s.counters.nextSnapshotId := by
      intro heq
      have heq := congrArg UInt64.toNat heq
      rw [toNat_add_of_not_overflow hfull] at heq
      exact Nat.succ_ne_self _ heq
    by_cases hle : s.counters.nextSnapshotId ≤ p.id.raw
    · by_cases hover : AddOverflow p.id.raw 1
      · rw [observePressure_exhausted hopen hwork hvalid he hown
          (raiseCounter_full hle hover)] at hnext
        exact hstep hnext
      · rw [observePressure_ok hopen hwork hvalid he hown (raiseCounter_raised hle hover),
          storeChecked_counters] at hnext
        exact hne ((UInt64.add_left_inj 1).mp hnext).symm
    · rw [observePressure_ok hopen hwork hvalid he hown (raiseCounter_below hle),
        storeChecked_counters] at hnext
      exact hstep hnext

theorem observe_alike_iff (hopen : s.isOpen = true) (he : s.pools.lookup p.pool = some entry)
    (hepoch : p.epoch = s.epoch) (hgeneration : p.poolGeneration = entry.descriptor.generation) :
    AlikeUnit (s.observePressure (relayed p)) (s.observePressure p) ↔ s.ReportKept p := by
  unfold ReportKept
  by_cases hwork : s.RefusesWork
  · obtain ⟨e, hall⟩ := observePressure_barred s p.pool fun _ h ↦ h.2.1 hwork
    rw [hall p rfl, hall (relayed p) rfl]
    exact iff_of_true ⟨rfl, rfl⟩ (.inl hwork)
  by_cases hvalid : p.pool.Valid
  swap
  · obtain ⟨e, hall⟩ := observePressure_barred s p.pool fun _ h ↦ hvalid h.2.2.1
    rw [hall p rfl, hall (relayed p) rfl]
    exact iff_of_true ⟨rfl, rfl⟩ (.inr (.inl hvalid))
  rw [or_iff_right hwork, or_iff_right (not_not.mpr hvalid)]
  by_cases hpick : pickId p.id s.counters.nextSnapshotId = ⟨s.counters.nextSnapshotId⟩
  · rw [if_pos hpick]
    exact observe_alike_of_picked hopen hwork hvalid he hepoch hgeneration hpick
  · rw [if_neg hpick]
    exact observe_alike_of_named hopen hwork hvalid he hepoch hgeneration hpick

end Impl

/-! ### One request -/

section

variable {reports : Reports} {m : Moment} {c : Coordinator} {request : RequestId}

namespace Remote

/-- The wire and the coordinator change nothing that matters about the request: an allocation makes
no use of a parent, and a report of pressure is kept as it is. A report about a pool that is not
registered is turned down for its unknown pool either way. -/
def Carried (m : Moment) (s : Impl) : Remote → Prop
  | .allocate q => ¬q.parentAllocation.Valid ∨ (s.arrive m).ParentUnread q
  | .release _ | .evaluate _ => True
  | .observePressure p =>
      if (s.pools.lookup p.pool).isSome then (s.arrive m).ReportKept p
      else p.pool.Valid ∧ ¬s.RefusesWork

instance (m : Moment) (s : Impl) : ∀ r : Remote, Decidable (r.Carried m s)
  | .allocate _ => inferInstanceAs (Decidable (_ ∨ _))
  | .release _ | .evaluate _ => .isTrue trivial
  | .observePressure p => inferInstanceAs (Decidable (
      if (s.pools.lookup p.pool).isSome then (s.arrive m).ReportKept p
      else p.pool.Valid ∧ ¬s.RefusesWork))

theorem ofReply_decision (r : Except Status Decision) :
    Report.ofReply (r.map .decision) = Report.ofDecision r := by
  cases r <;> rfl

/-- The answer to a call that decides something reports the decision. -/
theorem read_issued (c : Coordinator) (op : Op) (call : Impl → Outcome Decision) (reply : Message)
    (text : String) :
    Report.read (Coordinator.answer (c.issue op call) Decision.summary reply text).reply.body =
        some (Report.ofDecision (call c.fabric).1) ∧
      (Coordinator.answer (c.issue op call) Decision.summary reply text).coordinator.fabric =
        (call c.fabric).2 := by
  obtain ⟨hread, hfabric⟩ := Coordinator.read_answer (c.issue op call) Decision.summary reply text
  refine ⟨hread.trans (congrArg some ?_), hfabric⟩
  unfold Coordinator.issue
  cases (call c.fabric).1 <;> rfl

/-- An allocation over the wire is the allocation without its parent. -/
theorem asDirect_allocate_iff (hbefore : m.before = id) (hepoch : c.fabric.epoch.Valid)
    (q : AllocateRequest) :
    (Remote.allocate q).AsDirect reports m c request ↔
      Impl.Alike ((c.fabric.arrive m).allocateLocked q.orphan)
        ((c.fabric.arrive m).allocateLocked q) := by
  have hbody : complete decodeAllocate (encodeAllocate q) = some q.orphan :=
    complete_eq (decodeAllocate_encode q)
  obtain ⟨hread, hfabric⟩ := read_issued { c with fabric := c.fabric.arrive m }
    (.allocate q.orphan) (·.allocateLocked q.orphan)
    { op := .allocate, request := request, epoch := c.fabric.epoch } "allocate accepted"
  have hdirect : (Remote.allocate q).direct c.config m c.fabric =
      (Report.ofDecision ((c.fabric.arrive m).allocateLocked q).1,
        ((c.fabric.arrive m).allocateLocked q).2) :=
    Prod.ext (ofReply_decision _) rfl
  unfold AsDirect
  rw [Coordinator.dispatch_fenced hbefore hepoch rfl MessageOp.noConfusion MessageOp.noConfusion,
    hdirect]
  dsimp only [message, body, op, Coordinator.handleFenced, Coordinator.handleAllocate]
  rw [hbody]
  change Report.read (Coordinator.answer _ _ _ _).reply.body = _ ∧
    (Coordinator.answer _ _ _ _).coordinator.fabric = _ ↔ _
  rw [hread, hfabric, Option.some.injEq]
  rfl

theorem asDirect_release (hbefore : m.before = id) (hepoch : c.fabric.epoch.Valid)
    (q : ReleaseRequest) : (Remote.release q).AsDirect reports m c request := by
  have hbody := complete_eq (decodeRelease_encode q trivial)
  obtain ⟨hread, hfabric⟩ := read_issued { c with fabric := c.fabric.arrive m }
    (.release q) (·.releaseLocked q)
    { op := .release, request := request, epoch := c.fabric.epoch } "release accepted"
  have hdirect : (Remote.release q).direct c.config m c.fabric =
      (Report.ofDecision ((c.fabric.arrive m).releaseLocked q).1,
        ((c.fabric.arrive m).releaseLocked q).2) :=
    Prod.ext (ofReply_decision _) rfl
  unfold AsDirect
  rw [Coordinator.dispatch_fenced hbefore hepoch rfl MessageOp.noConfusion MessageOp.noConfusion,
    hdirect]
  dsimp only [message, body, op, Coordinator.handleFenced, Coordinator.handleRelease]
  rw [hbody]
  exact ⟨hread, hfabric⟩

theorem asDirect_evaluate (hbefore : m.before = id) (hepoch : c.fabric.epoch.Valid)
    (q : EvaluateRequest) : (Remote.evaluate q).AsDirect reports m c request := by
  have hbody := complete_eq (decodeEvaluate_encode q trivial)
  obtain ⟨hread, hfabric⟩ := Coordinator.read_answer
    ((c.fabric.arrive m).evaluate q, ({ c with fabric := c.fabric.arrive m } : Coordinator))
    EvaluationResult.summary
    { op := .evaluate, request := request, epoch := c.fabric.epoch } "evaluation complete"
  unfold AsDirect
  rw [Coordinator.dispatch_fenced hbefore hepoch rfl MessageOp.noConfusion MessageOp.noConfusion]
  dsimp only [message, body, op, direct, Coordinator.handleFenced, Coordinator.handleEvaluate]
  rw [hbody]
  refine ⟨hread.trans (congrArg some ?_), hfabric⟩
  cases hresult : (c.fabric.arrive m).evaluate q with
  | error e => rfl
  | ok result =>
      -- the summary names no allocation, and neither does the decision
      have hnone := Impl.evaluate_allocation hresult
      simp only [Except.map, Report.ofDecision, EvaluationResult.summary,
        DecisionSummary.reported, Decision.summary, hnone]

theorem observe_direct (c : Coordinator) (reply : Message) (q : PressureSnapshot) :
    Report.read (c.observe reply q).reply.body =
        some (Report.ofReply ((c.fabric.observePressure q).1.map fun _ ↦ .done)) ∧
      (c.observe reply q).coordinator.fabric = (c.fabric.observePressure q).2 := by
  unfold Coordinator.observe Coordinator.issue
  dsimp only
  cases (c.fabric.observePressure q).1 with
  | error e => exact ⟨Report.read_status .., rfl⟩
  | ok u => exact ⟨Report.read_status .., rfl⟩

/-- A report over the wire about a registered pool is what the coordinator makes of it. -/
theorem asDirect_observePressure_iff (hbefore : m.before = id) (hmeanwhile : m.meanwhile = id)
    (hepoch : c.fabric.epoch.Valid) {p : PressureSnapshot} {entry : PoolEntry}
    (he : c.fabric.pools.lookup p.pool = some entry) :
    (Remote.observePressure p).AsDirect reports m c request ↔
      Impl.AlikeUnit
        ((c.fabric.arrive m).observePressure
          (Impl.relayed (currentPressure c.config c.fabric p)))
        ((c.fabric.arrive m).observePressure (currentPressure c.config c.fabric p)) := by
  have hbody := complete_eq (decodePressure_encode p)
  have hstatus : (c.fabric.arrive m).poolGenerationStatus (Coordinator.fillPressure
      { c with fabric := c.fabric.arrive m } (carriedPressure p)).pool =
        .ok entry.descriptor.generation := by
    change (c.fabric.arrive m).poolGenerationStatus p.pool = _
    unfold Impl.poolGenerationStatus
    rw [show (c.fabric.arrive m).pools.lookup p.pool = some entry from he]
  have hfilled : { ({ c with fabric := c.fabric.arrive m } : Coordinator).fillPressure
      (carriedPressure p) with poolGeneration := entry.descriptor.generation } =
      Impl.relayed (currentPressure c.config c.fabric p) := by
    unfold Coordinator.fillPressure carriedPressure Impl.relayed currentPressure Impl.arrive
    simp only [he, Option.map_some, Option.getD_some]
  obtain ⟨hread, hfabric⟩ := observe_direct { c with fabric := c.fabric.arrive m }
    { op := .observePressure, request := request, epoch := c.fabric.epoch }
    (Impl.relayed (currentPressure c.config c.fabric p))
  have hdirect : (Remote.observePressure p).direct c.config m c.fabric =
      (Report.ofReply (((c.fabric.arrive m).observePressure
        (currentPressure c.config c.fabric p)).1.map fun _ ↦ .done),
        ((c.fabric.arrive m).observePressure (currentPressure c.config c.fabric p)).2) := rfl
  unfold AsDirect
  rw [Coordinator.dispatch_fenced hbefore hepoch rfl MessageOp.noConfusion MessageOp.noConfusion,
    hdirect]
  dsimp only [message, body, op, Coordinator.handleFenced, Coordinator.handlePressure]
  rw [hbody]
  dsimp only
  rw [hstatus, hmeanwhile]
  dsimp only [id] at hfilled ⊢
  rw [show (c.fabric.arrive m).arrive m = c.fabric.arrive m from rfl, hfilled, hread, hfabric,
    Option.some.injEq]
  rfl

/-- A report of pressure about a pool that is not registered. -/
theorem observePressure_unknown {s : Impl} (hs : s.isOpen = true) {q : PressureSnapshot}
    (hnone : s.pools.lookup q.pool = none) :
    ∃ e, s.observePressure q = (.error e, s) ∧
      (e.code = .unknownPool ↔ q.pool.Valid ∧ ¬s.RefusesWork) := by
  unfold Impl.observePressure Impl.requireOpen Impl.requireWorking Impl.requirePool require
  rw [if_pos hs, hnone]
  by_cases hwork : s.RefusesWork
  · rw [if_neg (not_not.mpr hwork)]
    exact ⟨_, rfl, iff_of_false (by decide) fun h ↦ h.2 hwork⟩
  · rw [if_pos hwork]
    by_cases hvalid : q.pool.Valid
    · rw [if_pos hvalid]
      exact ⟨_, rfl, iff_of_true rfl ⟨hvalid, hwork⟩⟩
    · rw [if_neg hvalid]
      exact ⟨_, rfl, iff_of_false (by decide) fun h ↦ hvalid h.1⟩

/-- A report over the wire about a pool that is not registered. -/
theorem asDirect_unknown_iff (hbefore : m.before = id) (hc : c.fabric.Live)
    {p : PressureSnapshot} (he : c.fabric.pools.lookup p.pool = none) :
    (Remote.observePressure p).AsDirect reports m c request ↔
      p.pool.Valid ∧ ¬c.fabric.RefusesWork := by
  have hbody := complete_eq (decodePressure_encode p)
  have hstatus : (c.fabric.arrive m).poolGenerationStatus (Coordinator.fillPressure
      { c with fabric := c.fabric.arrive m } (carriedPressure p)).pool =
        .error ⟨.unknownPool, "no such pool"⟩ := by
    change (c.fabric.arrive m).poolGenerationStatus p.pool = _
    unfold Impl.poolGenerationStatus
    rw [show (c.fabric.arrive m).pools.lookup p.pool = none from he]
  have hdirect : (Remote.observePressure p).direct c.config m c.fabric =
      (Report.ofReply (((c.fabric.arrive m).observePressure
        (currentPressure c.config c.fabric p)).1.map fun _ ↦ .done),
        ((c.fabric.arrive m).observePressure (currentPressure c.config c.fabric p)).2) := rfl
  unfold AsDirect
  rw [Coordinator.dispatch_fenced hbefore hc.epoch rfl MessageOp.noConfusion
    MessageOp.noConfusion, hdirect]
  dsimp only [message, body, op, Coordinator.handleFenced, Coordinator.handlePressure]
  rw [hbody]
  dsimp only
  rw [hstatus]
  change Report.read (respond _ _ _ _).body = _ ∧ c.fabric.arrive m = _ ↔ _
  rw [Report.read_status, Option.some.injEq]
  generalize hq : currentPressure c.config c.fabric p = q
  have hpool : q.pool = p.pool := by rw [← hq]; rfl
  obtain ⟨e, hobserve, hcode⟩ := observePressure_unknown (s := c.fabric.arrive m) hc.isOpen
    (q := q) (hpool ▸ he)
  rw [hobserve]
  rw [hpool] at hcode
  refine Iff.trans ?_ hcode
  constructor
  · exact fun h ↦ (congrArg Report.status h.1).symm
  · intro h
    refine ⟨?_, rfl⟩
    rw [← h]
    rfl

/-- Dispatching a request has the effect of the direct call exactly if it is carried. -/
theorem asDirect_iff (hbefore : m.before = id) (hmeanwhile : m.meanwhile = id)
    (hc : c.fabric.Live) (h : c.fabric.Regular) (r : Remote) :
    r.AsDirect reports m c request ↔ r.Carried m c.fabric := by
  have harrived : (c.fabric.arrive m).Regular := ⟨h.keyed, h.valid, h.sized⟩
  cases r with
  | release q => exact iff_of_true (asDirect_release hbefore hc.epoch q) trivial
  | evaluate q => exact iff_of_true (asDirect_evaluate hbefore hc.epoch q) trivial
  | allocate q =>
      rw [asDirect_allocate_iff hbefore hc.epoch]
      dsimp only [Carried]
      by_cases hq : q.parentAllocation.Valid
      · rw [or_iff_right (not_not.mpr hq)]
        exact Impl.allocate_alike_iff harrived hq
      · have horphan : q.orphan = q := by
          have hnone : q.parentAllocation = default := congrArg StrongId.mk (not_not.mp hq)
          unfold AllocateRequest.orphan
          rw [← hnone]
        rw [horphan]
        exact iff_of_true ⟨rfl, rfl⟩ (.inl hq)
  | observePressure p =>
      dsimp only [Carried]
      cases he : c.fabric.pools.lookup p.pool with
      | none =>
          rw [if_neg (by simp)]
          exact asDirect_unknown_iff hbefore hc he
      | some entry =>
          rw [if_pos (by simp), asDirect_observePressure_iff hbefore hmeanwhile hc.epoch he]
          exact Impl.observe_alike_iff (p := currentPressure c.config c.fabric p) hc.isOpen he rfl
            (by simp only [currentPressure, he, Option.map_some, Option.getD_some])

end Remote

end

/-! ### Runs of requests -/

structure RemoteCall where
  tick : Tick := 0
  io : List Io := []
  request : RequestId := ⟨0⟩
  remote : Remote

def RemoteCall.moment (x : RemoteCall) : Moment := { tick := x.tick, io := x.io }

/-- Dispatch the requests one after the other: what the replies report, and the coordinator. -/
def Coordinator.dispatchAll (reports : Reports) :
    Coordinator → List RemoteCall → List (Option Report) × Coordinator
  | c, [] => ([], c)
  | c, x :: xs =>
      let handled := c.dispatch reports x.moment (x.remote.message x.request c.fabric.epoch)
      let rest := dispatchAll reports handled.coordinator xs
      (Report.read handled.reply.body :: rest.1, rest.2)

def Impl.directAll (config : CoordinatorConfig) : Impl → List RemoteCall → List Report × Impl
  | s, [] => ([], s)
  | s, x :: xs =>
      let called := x.remote.direct config x.moment s
      let rest := directAll config called.2 xs
      (called.1 :: rest.1, rest.2)

def CarriedAll (config : CoordinatorConfig) : Impl → List RemoteCall → Prop
  | _, [] => True
  | s, x :: xs =>
      x.remote.Carried x.moment s ∧
        CarriedAll config (x.remote.direct config x.moment s).2 xs

instance (config : CoordinatorConfig) : ∀ s calls, Decidable (CarriedAll config s calls)
  | _, [] => .isTrue trivial
  | s, x :: xs =>
      have := instDecidableCarriedAll config (x.remote.direct config x.moment s).2 xs
      inferInstanceAs (Decidable (_ ∧ _))

def InUse (s : Impl) : Prop :=
  ∃ y, System.Run (fun _ _ ↦ True) y ∧ y.live = some s ∧ s.isOpen = true

theorem Move.live {s t : Impl} {a : Label × Bool} (h : Move s a t) (hs : s.Live) : t.Live :=
  ⟨h.isOpen_eq.trans hs.isOpen, h.epoch_eq ▸ hs.epoch⟩

theorem Impl.Live.exec {s : Impl} (hs : s.Live) (c : Call) : (s.exec c).2.Live :=
  (s.exec_trace c).invariant (I := Impl.Live) (fun _ _ _ ht _ hm ↦ hm.live ht) ⟨hs.isOpen, hs.epoch⟩

theorem Impl.openFabric_live {s t : Impl} {config : FabricConfig} {boot : BootInputs}
    (h : s.openFabric config boot = (.ok (), t)) : t.Live := by
  obtain ⟨-, -, durable, m, -, hbegin⟩ := openFabric_ok h
  have hroom : durable.raw + 1 ≠ 0 := by
    intro hzero
    unfold beginEpoch at hbegin
    rw [if_pos (.inr hzero)] at hbegin
    cases hbegin
  rcases beginEpoch_ok hbegin with ⟨-, rfl⟩ | ⟨-, hj⟩
  · exact ⟨rfl, hroom⟩
  · rw [Impl.eq_of_journal hj]
    exact ⟨rfl, hroom⟩

namespace InUse

variable {s : Impl}

theorem live (h : InUse s) : s.Live := by
  obtain ⟨y, hrun, hlive, hopen⟩ := h
  refine hrun.invariant (I := fun y ↦ ∀ s, y.live = some s → s.isOpen = true → s.Live) ?_
    (by simp) s hlive hopen
  rintro y ev y' hy - hstep
  cases hstep with
  | opened _ heq =>
      rintro _ ⟨⟩ -
      exact Impl.openFabric_live heq
  | openFailed | openCrashed | crashed | stopped => simp
  | called c hlive hopen =>
      rintro _ ⟨⟩ -
      exact (hy _ hlive hopen).exec c
  | @closed s hlive =>
      rintro _ ⟨⟩ hopen
      unfold Impl.closeFabric at hopen
      split at hopen
      · cases hopen
      · rename_i hclosed
        exact absurd hopen hclosed
  | rehashed hlive hr =>
      rintro t ⟨⟩ hopen
      cases hr
      have hs := hy _ hlive hopen
      exact ⟨hs.isOpen, hs.epoch⟩

theorem regular (h : InUse s) : s.Regular := by
  obtain ⟨y, hrun, hlive, -⟩ := h
  exact hrun.regular hlive

theorem exec (h : InUse s) (c : Call) : InUse (s.exec c).2 := by
  obtain ⟨y, hrun, hlive, hopen⟩ := h
  exact ⟨_, hrun.tail trivial (.called c hlive hopen), rfl, (s.exec_isOpen c).trans hopen⟩

/-- The state after an evaluation is the one that a refused call leaves. -/
theorem arrive (h : InUse s) (m : Moment) : InUse (s.arrive m) := by
  have hrefused : (s.exec (m.call (.allocate {}))).2 = s.arrive m := by
    cases hreceive : (s.arrive m).receive {} with
    | ok u => exact absurd rfl (Impl.receive_attempt hreceive)
    | error e => exact congrArg Prod.snd (Impl.allocateLocked_unreceived hreceive)
  exact hrefused ▸ h.exec _

theorem direct (h : InUse s) (config : CoordinatorConfig) (m : Moment) (r : Remote) :
    InUse (r.direct config m s).2 := by
  cases r with
  | evaluate => exact h.arrive m
  | allocate | release | observePressure => exact h.exec _

theorem directAll (h : InUse s) {reports : Reports} {c : Coordinator} (hc : c.fabric = s)
    {calls : List RemoteCall} (hcarried : CarriedAll c.config s calls) :
    (c.dispatchAll reports calls).1 = (s.directAll c.config calls).1.map some ∧
      (c.dispatchAll reports calls).2.fabric = (s.directAll c.config calls).2 := by
  induction calls generalizing s c with
  | nil => exact ⟨rfl, hc⟩
  | cons x xs ih =>
      obtain ⟨hx, hxs⟩ := hcarried
      subst hc
      have hdirect : x.remote.AsDirect reports x.moment c x.request :=
        (Remote.asDirect_iff rfl rfl h.live h.regular x.remote).mpr hx
      obtain ⟨hreport, hfabric⟩ := hdirect
      have hconfig := (c.dispatch_effect reports x.moment
        (x.remote.message x.request c.fabric.epoch)).config
      obtain ⟨hreports, hlast⟩ := ih (h.direct c.config x.moment x.remote) hfabric
        (by rw [hconfig]; exact hxs)
      rw [hconfig] at hreports hlast
      refine ⟨?_, hlast⟩
      simp only [Coordinator.dispatchAll, Impl.directAll, List.map_cons, hreports, hreport]

end InUse

/-- In every state of every run a request that is dispatched has the effect of the direct call and
reports the same exactly if it is carried; and so have requests that are all carried, dispatched
one after the other. -/
theorem remote_calls_direct {s : Impl} (hs : InUse s) (reports : Reports) {c : Coordinator}
    (hc : c.fabric = s) :
    (∀ x : RemoteCall, x.remote.AsDirect reports x.moment c x.request ↔
        x.remote.Carried x.moment s) ∧
      ∀ calls, CarriedAll c.config s calls →
        (c.dispatchAll reports calls).1 = (s.directAll c.config calls).1.map some ∧
          (c.dispatchAll reports calls).2.fabric = (s.directAll c.config calls).2 := by
  refine ⟨fun x ↦ ?_, fun _ ↦ hs.directAll hc⟩
  subst hc
  exact Remote.asDirect_iff rfl rfl hs.live hs.regular x.remote

/-! ### What the wire loses -/

theorem namedStart_inUse : InUse namedStart := by
  obtain ⟨y, hopened, hlive⟩ : ∃ y, System.Run (fun _ _ ↦ True) y ∧ y.live = some smallOpened :=
    smallOpened_fresh.system fun _ ↦ trivial
  have hsetup : SessionRun (fun _ _ ↦ True) smallOpened namedStart :=
    SessionRun.refl.play (smallOpened.admits_true smallSetup)
  obtain ⟨y', hrun, hlive', hopen⟩ := hsetup.system (fun _ _ _ _ _ ↦ trivial) (fun _ ↦ trivial)
    hopened hlive smallOpened_fresh.isOpen
  exact ⟨y', hrun, hlive', hopen⟩

def orphanAsk : AllocateRequest :=
  { attempt := ⟨1⟩, pool := ⟨1⟩, queue := ⟨1⟩, requestedUnits := 40, parentAllocation := ⟨7⟩ }

def undatedReport : PressureSnapshot := { pool := ⟨1⟩, ttlTicks := 9 }

section

variable {reports : Reports} {m : Moment} {c : Coordinator} {request : RequestId} {r : Remote}

theorem Remote.AsDirect.status_eq (h : r.AsDirect reports m c request) :
    (Report.read (c.dispatch reports m (r.message request c.fabric.epoch)).reply.body).map
      (·.status) = some (r.direct c.config m c.fabric).1.status := by
  rw [h.1]
  rfl

theorem Remote.AsDirect.observedAt_eq (h : r.AsDirect reports m c request) (pool : PoolId) :
    ((c.dispatch reports m (r.message request c.fabric.epoch)).coordinator.fabric.pressure.lookup
        pool).map (·.latest.observedAt) =
      ((r.direct c.config m c.fabric).2.pressure.lookup pool).map (·.latest.observedAt) := by
  rw [h.2]

end

/-- The wire drops the parent of an allocation, which is then granted, and the coordinator dates a
report that the fabric would have dated itself. -/
theorem remote_calls_differ :
    InUse namedStart ∧
      ¬(Remote.allocate orphanAsk).AsDirect default {} { fabric := namedStart } ⟨1⟩ ∧
      ¬(Remote.observePressure undatedReport).AsDirect default { tick := 5 }
        { fabric := namedStart } ⟨1⟩ := by
  refine ⟨namedStart_inUse, fun h ↦ ?_, fun h ↦ ?_⟩
  · exact absurd h.status_eq (by decide +kernel)
  · exact absurd (h.observedAt_eq ⟨1⟩) (by decide +kernel)

/-- A child that is turned down, a grant, an evaluation, an undated report of too large a demand, a
dated report and a release, made over the wire. -/
def carriedCalls : List RemoteCall :=
  [{ remote := .allocate { orphanAsk with attempt := ⟨0⟩ } },
    { remote := .allocate { orphanAsk with parentAllocation := default } },
    { remote := .evaluate { pool := ⟨1⟩, queue := ⟨1⟩, requestedUnits := 9 } },
    { tick := 5, remote := .observePressure { undatedReport with demandUnits := maxU64 } },
    { tick := 5, remote := .observePressure { undatedReport with observedAt := 4 } },
    { tick := 6, remote := .release { attempt := ⟨2⟩, allocation := ⟨1⟩ } }]

theorem remote_calls_direct_used :
    (Remote.allocate { orphanAsk with attempt := ⟨0⟩ }).AsDirect default {} namedCoordinator ⟨0⟩ ∧
      (namedCoordinator.dispatchAll default carriedCalls).1 =
        (namedCoordinator.fabric.directAll namedCoordinator.config carriedCalls).1.map some := by
  have huse : InUse namedCoordinator.fabric := by
    simpa only [namedCoordinator] using namedStart_inUse
  have hcarried : CarriedAll namedCoordinator.config namedCoordinator.fabric carriedCalls := by
    decide +kernel
  obtain ⟨hone, hall⟩ := remote_calls_direct huse default (c := namedCoordinator) rfl
  exact ⟨(hone { remote := .allocate { orphanAsk with attempt := ⟨0⟩ } }).mpr hcarried.1,
    (hall carriedCalls hcarried).1⟩

end BufferFabric
