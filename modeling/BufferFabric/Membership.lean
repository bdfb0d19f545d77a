import BufferFabric.Opening

/-!
# The ledger represents the records

In a session that starts from nothing, in which every write succeeds and every release
gives back the whole allocation, the aggregates of every pool are exactly the sums over
the allocation records, and its members are exactly the ids of its unit-holding records.
A partial release ends this: it drops the survivor from the members of its pool.
-/

namespace BufferFabric

open Outcome

/-! ### Buckets without empty entries -/

namespace PoolEntry

def Filled (b : Table QueueId UInt64) : Prop :=
  ∀ q v, b.lookup q = some v → 0 < v.toNat

theorem Filled.credit {b : Table QueueId UInt64} (h : Filled b) {q : QueueId} {u : UInt64}
    (hu : 0 < u.toNat) (hfit : (bucketUnits b q).toNat + u.toNat < 18446744073709551616) :
    Filled (adjustBucket b q (u.toNat : ℤ)) := by
  have hpos : (0 : ℤ) ≤ (u.toNat : ℤ) := Int.natCast_nonneg _
  unfold adjustBucket
  rw [if_pos hpos, ofNat_toNat_units]
  cases hl : b.lookup q with
  | none =>
      intro q' v hv
      rcases lookup_insert_cases hv with ⟨-, rfl⟩ | ⟨-, hv⟩
      · exact hu
      · exact h q' v hv
  | some held =>
      have hheld : bucketUnits b q = held := by simp [bucketUnits, hl]
      rw [hheld] at hfit
      intro q' v hv
      rcases lookup_insert_cases hv with ⟨-, rfl⟩ | ⟨-, hv⟩
      · rw [Word.toNat_add hfit]
        omega
      · exact h q' v hv

theorem Filled.debit {b : Table QueueId UInt64} (h : Filled b) {q : QueueId} {u : UInt64}
    (hu : 0 < u.toNat) : Filled (adjustBucket b q (-(u.toNat : ℤ))) := by
  have hneg : ¬(0 : ℤ) ≤ -(u.toNat : ℤ) := by omega
  unfold adjustBucket
  rw [if_neg hneg, neg_neg, ofNat_toNat_units]
  cases hl : b.lookup q with
  | none => exact h
  | some held =>
      dsimp only
      split
      · intro q' v hv
        rw [Table.lookup_erase_eq] at hv
        split at hv
        · cases hv
        · exact h q' v hv
      · rename_i hle
        rw [Word.le_iff] at hle
        intro q' v hv
        rcases lookup_insert_cases hv with ⟨-, rfl⟩ | ⟨-, hv⟩
        · rw [Word.toNat_sub (by omega)]
          omega
        · exact h q' v hv

/-- A bucket of the entry and the row it is read by agree. -/
theorem read_bucket (e : PoolEntry) (b : Bool) (q : QueueId) :
    (bucketUnits (e.bucket b) q).toNat =
      e.read (if b then .queueReserved q else .queueCommitted q) := by
  cases b <;> rfl

theorem bucket_dropRecord (e : PoolEntry) (r : AllocationRecord) (b : Bool) :
    (e.dropRecord r).bucket b =
      if b = decide (r.state = .reserved) then
        adjustBucket (e.bucket b) r.queue (-(r.units.toNat : ℤ))
      else e.bucket b := by
  unfold dropRecord adjustQueue bucket
  by_cases hs : r.state = .reserved <;> cases b <;> simp [hs]

theorem bucket_settleSplit (e : PoolEntry) (r : AllocationRecord) (b : Bool) :
    ((e.settleSplit r).debitUsage r).bucket b = e.bucket b := by
  unfold settleSplit debitUsage bucket
  cases b <;> cases r.state <;> cases r.reclaimClass <;> rfl

theorem filled_returned {e : PoolEntry} {p : PoolId} {r : AllocationRecord} {b : Bool}
    (h : Filled (e.bucket b)) (hr : 0 < r.units.toNat) : Filled ((e.returned p r).bucket b) := by
  have hlend : ∀ e : PoolEntry, (e.debitLending r.borrowed).bucket b = e.bucket b := by
    intro e
    cases b <;> rfl
  have hdrop : ∀ e : PoolEntry, Filled (e.bucket b) → Filled ((e.dropRecord r).bucket b) := by
    intro e he
    rw [bucket_dropRecord]
    split
    · exact he.debit hr
    · exact he
  unfold returned
  by_cases hp : p = r.pool
  · simp only [if_pos hp]
    apply hdrop
    split
    · rw [hlend, bucket_settleSplit]
      exact h
    · rw [bucket_settleSplit]
      exact h
  · simp only [if_neg hp]
    split
    · rw [hlend]
      exact h
    · exact h

theorem bucket_grantedEntry (e : PoolEntry) (r : AllocationRecord) (b : Bool) :
    (Impl.grantedEntry e r).bucket b =
      if b = decide (r.state = .reserved) then
        adjustBucket (e.bucket b) r.queue (r.units.toNat : ℤ)
      else e.bucket b := by
  unfold Impl.grantedEntry adjustQueue creditSplit bucket
  cases r.reclaimClass <;> cases b <;> cases r.state <;> rfl

theorem filled_granted {e : PoolEntry} {key p : PoolId} {r : AllocationRecord} {b : Bool}
    (h : Filled (e.bucket b)) (hr : 0 < r.units.toNat)
    (hfit : ∀ f, e.read f + r.units.toNat < 18446744073709551616) :
    Filled ((e.granted key p r).bucket b) := by
  have hlend : ∀ e : PoolEntry, (e.addLending r.borrowUnits).bucket b = e.bucket b := by
    intro e
    cases b <;> rfl
  have husage : (e.creditUsage r).bucket b = e.bucket b := by cases b <;> rfl
  have hcredit : Filled (adjustBucket (e.bucket b) r.queue (r.units.toNat : ℤ)) := by
    apply h.credit hr
    rw [read_bucket]
    exact hfit _
  unfold granted
  by_cases hp : p = key
  · simp only [if_pos hp, bucket_grantedEntry]
    split <;> split <;> simp only [hlend, husage] <;> first | exact hcredit | exact h
  · simp only [if_neg hp]
    split
    · rw [hlend]
      exact h
    · exact h

theorem filled_committedEntry {e : PoolEntry} {r : AllocationRecord} {b : Bool}
    (h : Filled (e.bucket b)) (hr : 0 < r.units.toNat)
    (hfit : ∀ f, e.read f + r.units.toNat < 18446744073709551616) :
    Filled ((Impl.committedEntry e r).bucket b) := by
  cases b with
  | true => exact Filled.debit h hr
  | false =>
      refine Filled.credit h hr ?_
      exact hfit (.queueCommitted r.queue)

end PoolEntry

/-! ### The members -/

/-- The members of every pool are exactly the ids of its unit-holding records, and its
buckets list no queue without units. -/
structure Tidy (s : Impl) : Prop where
  members : ∀ p e, s.pools.lookup p = some e → ∀ k, k ∈ e.members ↔
    ∃ r, s.allocations.lookup k = some r ∧ r.state.holdsUnits = true ∧ r.pool = p
  filled : ∀ p e, s.pools.lookup p = some e → ∀ b, PoolEntry.Filled (e.bucket b)

namespace Tidy

variable {s t : Impl}

theorem of_eq (h : Tidy s) (ha : t.allocations = s.allocations) (hp : t.pools = s.pools) :
    Tidy t :=
  ⟨by rw [ha, hp]; exact h.members, by rw [hp]; exact h.filled⟩

/-- Every pool keeps its members and its buckets, and every record its place. -/
theorem keep (h : Tidy s)
    (ha : ∀ k p, (∃ r, t.allocations.lookup k = some r ∧ r.state.holdsUnits = true ∧ r.pool = p) ↔
      ∃ r, s.allocations.lookup k = some r ∧ r.state.holdsUnits = true ∧ r.pool = p)
    (hp : ∀ p e', t.pools.lookup p = some e' → ∃ e, s.pools.lookup p = some e ∧
      e'.members = e.members ∧ ∀ b, PoolEntry.Filled (e.bucket b) →
        PoolEntry.Filled (e'.bucket b)) : Tidy t := by
  refine ⟨?_, ?_⟩
  · intro p e' he' k
    obtain ⟨e, he, hm, -⟩ := hp p e' he'
    rw [hm, h.members p e he k, ha]
  · intro p e' he' b
    obtain ⟨e, he, -, hb⟩ := hp p e' he'
    exact hb b (h.filled p e he b)

theorem place_iff {key : AllocationId} {r r' : AllocationRecord}
    (hr : s.allocations.lookup key = some r) (hh : r.state.holdsUnits = true)
    (hh' : r'.state.holdsUnits = true) (hpool : r'.pool = r.pool) (k : AllocationId) (p : PoolId) :
    (∃ r₁, (s.allocations.insert key r').lookup k = some r₁ ∧ r₁.state.holdsUnits = true ∧
        r₁.pool = p) ↔
      ∃ r₁, s.allocations.lookup k = some r₁ ∧ r₁.state.holdsUnits = true ∧ r₁.pool = p := by
  rw [Table.lookup_insert_eq]
  split
  · subst k
    constructor
    · rintro ⟨r₁, hr₁, -, hp⟩
      obtain rfl := Option.some.inj hr₁
      exact ⟨r, hr, hh, hpool.symm.trans hp⟩
    · rintro ⟨r₁, hr₁, -, hp⟩
      rw [hr] at hr₁
      obtain rfl := Option.some.inj hr₁
      exact ⟨r', rfl, hh', hpool.trans hp⟩
  · rfl

/-- A record that gives back all its units leaves the members of its pool. -/
theorem drop (h : Tidy s) {key : AllocationId} {r part left : AllocationRecord}
    (hr : s.allocations.lookup key = some r) (hid : part.id = key) (hpool : part.pool = r.pool)
    (hpos : 0 < part.units.toNat) (hleft : left.state.holdsUnits = false)
    (hpools : ∀ p, t.pools.lookup p = (s.pools.lookup p).map (PoolEntry.returned p part))
    (ha : t.allocations = s.allocations.insert key left) : Tidy t := by
  refine ⟨?_, ?_⟩
  · intro p e' he' k
    rw [hpools] at he'
    obtain ⟨e, he, rfl⟩ := Option.map_eq_some_iff.mp he'
    have hold := h.members p e he k
    rw [PoolEntry.members_returned, ha, Table.lookup_insert_eq]
    by_cases hk : k = key
    · subst hk
      rw [if_pos rfl]
      constructor
      · intro hmem
        -- the id is erased in its own pool and was in no other
        split at hmem
        · rw [hid, AList.mem_erase] at hmem
          exact absurd rfl hmem.1
        · rename_i hne
          obtain ⟨r₁, hr₁, -, hp⟩ := hold.mp hmem
          rw [hr] at hr₁
          obtain rfl := Option.some.inj hr₁
          exact absurd (hp.symm.trans hpool.symm) hne
      · rintro ⟨r₁, hr₁, hh, -⟩
        obtain rfl := Option.some.inj hr₁
        rw [hleft] at hh
        cases hh
    · rw [if_neg hk, ← hold]
      split
      · rw [hid, AList.mem_erase]
        exact and_iff_right hk
      · rfl
  · intro p e' he' b
    rw [hpools] at he'
    obtain ⟨e, he, rfl⟩ := Option.map_eq_some_iff.mp he'
    exact PoolEntry.filled_returned (h.filled p e he b) hpos

/-- A granted record joins the members of its pool. -/
theorem grant (h : Tidy s) {key : PoolId} {r : AllocationRecord} (hpool : r.pool = key)
    (hh : r.state.holdsUnits = true) (hpos : 0 < r.units.toNat)
    (hfresh : s.allocations.lookup r.id = none)
    (hfit : ∀ p e, s.pools.lookup p = some e → ∀ f,
      e.read f + r.units.toNat < 18446744073709551616)
    (hpools : ∀ p, t.pools.lookup p = (s.pools.lookup p).map (PoolEntry.granted key p r))
    (ha : t.allocations = s.allocations.insert r.id r) : Tidy t := by
  refine ⟨?_, ?_⟩
  · intro p e' he' k
    rw [hpools] at he'
    obtain ⟨e, he, rfl⟩ := Option.map_eq_some_iff.mp he'
    have hold := h.members p e he k
    rw [PoolEntry.members_granted, ha, Table.lookup_insert_eq]
    by_cases hk : k = r.id
    · rw [if_pos hk]
      constructor
      · intro hmem
        split at hmem
        · rename_i hp
          exact ⟨r, rfl, hh, hpool.trans hp.symm⟩
        · obtain ⟨r₁, hr₁, -⟩ := hold.mp hmem
          rw [hk, hfresh] at hr₁
          cases hr₁
      · rintro ⟨r₁, hr₁, -, hp⟩
        obtain rfl := Option.some.inj hr₁
        rw [if_pos (hp.symm.trans hpool), AList.mem_insert]
        exact .inl hk
    · rw [if_neg hk, ← hold]
      split
      · rw [AList.mem_insert]
        exact or_iff_right hk
      · rfl
  · intro p e' he' b
    rw [hpools] at he'
    obtain ⟨e, he, rfl⟩ := Option.map_eq_some_iff.mp he'
    exact PoolEntry.filled_granted (h.filled p e he b) hpos (hfit p e he)

end Tidy

/-! ### Moves that release whole allocations -/

def AllocationRecord.Whole (r : AllocationRecord) (units : UInt64) : Prop := units = r.units

theorem AllocationRecord.Whole.exactSplit {r : AllocationRecord} {units : UInt64}
    (h : r.Whole units) : r.ExactSplit units :=
  .inl h

theorem Change.tidy {s m : Impl} {l : Label} {record : Option JournalRecord}
    (h : Change s l record m) (hs : Exact s) (ht : Tidy s)
    (hw : l.Splits AllocationRecord.Whole) : Tidy m := by
  have hsound := hs.sound
  have hsafe : l.Safe := hw.mono fun _ _ ↦ AllocationRecord.Whole.exactSplit
  obtain ⟨hgrant, hreturn⟩ := h.not_broken hsound hsafe
  have hroom : ∀ {u : UInt64}, u.toNat ≤ 1152921504606846976 → ∀ p e,
      s.pools.lookup p = some e → ∀ f, e.read f + u.toNat < 18446744073709551616 := by
    intro u hu p e he f
    have := hsound.read_bound he f
    omega
  cases h with
  | flags b backends => exact ht.of_eq rfl rfl
  | counters c h => exact ht.of_eq rfl rfl
  | attempt a =>
      obtain ⟨order, attempts, h⟩ := s.recordAttempt_frame a
      rw [h]
      exact ht.of_eq rfl rfl
  | runtime pools runtime h =>
      refine ht.keep (fun _ _ ↦ Iff.rfl) ?_
      intro p e' he'
      rw [h] at he'
      obtain ⟨e, he, rfl⟩ := Option.map_eq_some_iff.mp he'
      refine ⟨e, he, rfl, ?_⟩
      intro b hb
      cases b <;> exact hb
  | capacity c hfits => exact ht.of_eq rfl rfl
  | policy p hv hid hroom => exact ht.of_eq rfl rfl
  | pool d hv hnew hid hparent hpolicy hroom hfits =>
      refine ⟨?_, ?_⟩
      · intro p e he k
        rcases lookup_insert_cases he with ⟨rfl, rfl⟩ | ⟨-, he⟩
        · constructor
          · intro hmem
            exact absurd hmem (AList.notMem_empty k)
          · rintro ⟨r, hr, hh, hp⟩
            obtain ⟨e, he⟩ := (hsound.placed k r hr hh).pool
            rw [hp, hnew] at he
            cases he
        · exact ht.members p e he k
      · intro p e he b
        rcases lookup_insert_cases he with ⟨rfl, rfl⟩ | ⟨-, he⟩
        · intro q v hv
          cases b <;> cases hv
        · exact ht.filled p e he b
  | removePool key entry hl hleaf hlent halloc =>
      refine ht.keep (fun _ _ ↦ Iff.rfl) ?_
      intro p e' he'
      simp only at he'
      rw [Table.lookup_erase_eq] at he'
      split at he'
      · cases he'
      · exact ⟨e', he', rfl, fun _ hb ↦ hb⟩
  | dropQueues key hgone => exact ht.of_eq rfl rfl
  | queue key q names hkey => exact ht.of_eq rfl rfl
  | retire key d g hd => exact ht.of_eq rfl rfl
  | pressure p hepoch => exact ht.of_eq rfl rfl
  | resize key entry raw prot g c hl hraw hprot hfits =>
      refine ht.keep (fun _ _ ↦ Iff.rfl) ?_
      intro p e' he'
      rcases lookup_insert_cases he' with ⟨rfl, rfl⟩ | ⟨-, he'⟩
      · refine ⟨entry, hl, rfl, ?_⟩
        intro b hb
        cases b <;> exact hb
      · exact ⟨e', he', rfl, fun _ hb ↦ hb⟩
  | fence key r entry state pools hr hholds hstate hl hpools hexpired =>
      exact ht.drop hr (hsound.allocation_id key r hr) rfl (hsound.placed key r hr hholds).pos
        hstate hpools rfl
  | grant key entry policy r pools hfits hpools =>
      have hpool : r.pool = key := hfits.pool_eq.trans (hsound.pool_id key entry hfits.pool_lookup).1
      exact ht.grant hpool hfits.holds hfits.pos (hs.ahead.fresh hfits) (hroom hfits.le_max)
        hpools rfl
  | brokenGrant => exact absurd rfl hgrant
  | commit key r entry hr hstate hl =>
      have hholds : r.state.holdsUnits = true := by rw [hstate]; rfl
      have hplaced := hsound.placed key r hr hholds
      refine ht.keep (Tidy.place_iff hr hholds rfl rfl) ?_
      intro p e' he'
      rcases lookup_insert_cases he' with ⟨rfl, rfl⟩ | ⟨-, he'⟩
      · exact ⟨entry, hl, rfl, fun b hb ↦ PoolEntry.filled_committedEntry hb hplaced.pos
          (hroom hplaced.le_max _ _ hl)⟩
      · exact ⟨e', he', rfl, fun _ hb ↦ hb⟩
  | release key r entry units pools hr hholds hunits hle hl hpools =>
      have hall : units = r.units := hw
      subst hall
      have hid : (s.releasedPart r r.units).id = key := hsound.allocation_id key r hr
      have hpos : 0 < (s.releasedPart r r.units).units.toNat :=
        (hsound.placed key r hr hholds).pos
      refine ht.drop hr hid rfl hpos ?_ hpools rfl
      rw [AllocationRecord.remainder_all_state]
      rfl
  | rebind key r bound hr hholds hepoch hqueue =>
      refine ht.keep (Tidy.place_iff hr hholds hholds rfl) ?_
      exact fun p e' he' ↦ ⟨e', he', rfl, fun _ hb ↦ hb⟩
  | brokenReturn key r part entry units => exact absurd rfl (hreturn r units)

theorem Move.tidy {s t : Impl} {a : Label × Bool} (h : Move s a t) (hs : Exact s) (ht : Tidy s)
    (hw : a.1.Splits AllocationRecord.Whole) : Tidy t := by
  cases h with
  | volatile h => exact h.tidy hs ht hw
  | written h _ _ _ => exact (h.tidy hs ht hw).of_eq rfl rfl
  | unlogged h _ _ _ => exact (h.tidy hs ht hw).of_eq rfl rfl
  | refused hj =>
      rw [Impl.eq_of_journal hj]
      exact ht.of_eq rfl rfl
  | lostRelease => exact absurd hw id
  | snapshot h =>
      obtain ⟨st, hst, -⟩ := s.writeFullSnapshot_spec
      rw [h] at hst
      simp only at hst
      rw [hst]
      exact ht.of_eq rfl rfl

theorem Tidy.exec {s : Impl} (ht : Tidy s) (hs : Exact s) {c : Call}
    (hc : ReleasesAs AllocationRecord.Whole s c) : Tidy (s.exec c).2 := by
  have hall : ∀ r : AllocationRecord, r.Whole r.units := fun _ ↦ rfl
  have hpath := (Impl.exec_splits hall hc).invariant (I := fun t ↦ Exact t ∧ Tidy t) ?_
    ⟨hs.enter c, ht.of_eq rfl rfl⟩
  · exact hpath.2
  · rintro t a u ⟨hexact, htidy⟩ ⟨-, hw⟩ hm
    exact ⟨hexact.move (hw.mono fun _ _ ↦ AllocationRecord.Whole.exactSplit) hm,
      hm.tidy hexact htidy hw⟩

theorem Tidy.rehash {s t : Impl} (h : Tidy s) (hr : s.Rehash t) : Tidy t := by
  cases hr with
  | mk hc hp hpn ho hon hq hqn ha hpr ht =>
      refine h.keep ?_ ?_
      · intro k p
        dsimp only
        rw [ha.lookup_eq]
      · exact fun p e he ↦ ⟨e, (ho.lookup_eq p).trans he, rfl, fun _ hb ↦ hb⟩

theorem Blank.tidy {s : Impl} (h : Blank s) : Tidy s := by
  refine ⟨?_, ?_⟩ <;>
    intro p e he <;>
    rw [h.pools] at he <;>
    cases he

/-! ### Sums over records -/

/-- The sum of `g` over the records that satisfy `pick`. -/
def Impl.sumOver (s : Impl) (pick : AllocationRecord → Prop) [DecidablePred pick]
    (g : AllocationRecord → UInt64) : ℕ :=
  Table.total (fun _ r ↦ if pick r then (g r).toNat else 0) s.allocations

/-- The aggregates of the pool under `p` are those of the allocation records. -/
structure PoolEntry.Represents (e : PoolEntry) (s : Impl) (p : PoolId) : Prop where
  reserved : e.reservedUnits.toNat =
    s.sumOver (fun r ↦ r.pool = p ∧ r.state = .reserved) (·.units)
  committed : e.committedUnits.toNat =
    s.sumOver (fun r ↦ r.pool = p ∧ r.state = .committed) (·.units)
  pinned : e.pinnedUnits.toNat =
    s.sumOver (fun r ↦ r.pool = p ∧ r.state.holdsUnits = true ∧ r.reclaimClass = .pinned) (·.units)
  reclaimable : e.reclaimableUnits.toNat =
    s.sumOver (fun r ↦ r.pool = p ∧ r.state.holdsUnits = true ∧ r.reclaimClass = .reclaimable)
      (·.units)
  borrowedIn : e.borrowedIn.toNat =
    s.sumOver (fun r ↦ r.pool = p ∧ r.state.holdsUnits = true) (·.borrowUnits)
  lentOut : e.lentOut.toNat =
    s.sumOver (fun r ↦ r.lender = p ∧ r.state.holdsUnits = true) (·.borrowUnits)
  allocated : e.allocated.toNat = e.reservedUnits.toNat + e.committedUnits.toNat
  ownUsage : e.ownUsage.toNat = e.allocated.toNat - e.borrowedIn.toNat + e.lentOut.toNat
  members : ∀ k, k ∈ e.members ↔
    ∃ r, s.allocations.lookup k = some r ∧ r.pool = p ∧ r.state.holdsUnits = true
  queueReserved : ∀ q v, e.queueReserved.lookup q = some v ↔ v ≠ 0 ∧ v.toNat =
    s.sumOver (fun r ↦ r.pool = p ∧ r.state = .reserved ∧ r.queue = q) (·.units)
  queueCommitted : ∀ q v, e.queueCommitted.lookup q = some v ↔ v ≠ 0 ∧ v.toNat =
    s.sumOver (fun r ↦ r.pool = p ∧ r.state = .committed ∧ r.queue = q) (·.units)

structure PoolEntry.SameAggregates (e e' : PoolEntry) : Prop where
  shape : e'.shape = e.shape
  rows : e'.reservedUnits = e.reservedUnits ∧ e'.committedUnits = e.committedUnits ∧
    e'.pinnedUnits = e.pinnedUnits ∧ e'.reclaimableUnits = e.reclaimableUnits ∧
    e'.ownUsage = e.ownUsage ∧ e'.borrowedIn = e.borrowedIn ∧ e'.lentOut = e.lentOut
  queueReserved : ∀ q, e'.queueReserved.lookup q = e.queueReserved.lookup q
  queueCommitted : ∀ q, e'.queueCommitted.lookup q = e.queueCommitted.lookup q
  members : ∀ k, k ∈ e'.members ↔ k ∈ e.members

theorem PoolEntry.lookup_eq_of_bucketUnits {b b' : Table QueueId UInt64} {q : QueueId}
    (h : bucketUnits b' q = bucketUnits b q) (hb : ∀ v, b.lookup q = some v → 0 < v.toNat)
    (hb' : ∀ v, b'.lookup q = some v → 0 < v.toNat) : b'.lookup q = b.lookup q := by
  unfold bucketUnits at h
  cases hl : b.lookup q with
  | none =>
      cases hl' : b'.lookup q with
      | none => rfl
      | some v =>
          rw [hl, hl'] at h
          simp only [Option.getD_some, Option.getD_none] at h
          have := hb' v hl'
          rw [h] at this
          cases this
  | some v =>
      cases hl' : b'.lookup q with
      | none =>
          rw [hl, hl'] at h
          simp only [Option.getD_some, Option.getD_none] at h
          have := hb v hl
          rw [← h] at this
          cases this
      | some v' =>
          rw [hl, hl'] at h
          exact congrArg some h

/-- What a bucket without empty entries lists for a queue. -/
theorem PoolEntry.lookup_iff_of_filled {b : Table QueueId UInt64} {q : QueueId} {n : ℕ}
    (hb : Filled b) (hn : (bucketUnits b q).toNat = n) (v : UInt64) :
    b.lookup q = some v ↔ v ≠ 0 ∧ v.toNat = n := by
  constructor
  · intro hv
    have hunits : bucketUnits b q = v := by simp [bucketUnits, hv]
    rw [hunits] at hn
    exact ⟨Word.ne_zero_iff.mpr (hb q v hv), hn⟩
  · rintro ⟨hv, hvn⟩
    have hunits : bucketUnits b q = v := Word.eq_of_toNat (hn.trans hvn.symm)
    unfold bucketUnits at hunits
    cases hl : b.lookup q with
    | none =>
        rw [hl] at hunits
        exact absurd hunits.symm hv
    | some w =>
        rw [hl] at hunits
        exact congrArg some hunits

namespace Sound

variable {s : Impl} {lost : List AllocationRecord}

/-- A row is the sum over the records it counts. -/
theorem read_eq_sumOver (h : Sound s []) {p : PoolId} {e : PoolEntry}
    (he : s.pools.lookup p = some e) (f : Row) {pick : AllocationRecord → Prop}
    [DecidablePred pick] {g : AllocationRecord → UInt64}
    (hshare : ∀ r : AllocationRecord, (r.state.holdsUnits = true → r.borrowed = r.borrowUnits) →
      r.contrib p f = if pick r then (g r).toNat else 0) : e.read f = s.sumOver pick g := by
  rw [h.rows p e he f]
  unfold Impl.books Impl.sumOver
  rw [List.map_nil, List.sum_nil, Nat.add_zero]
  apply Table.total_congr
  intro k r hr
  exact hshare r fun hh ↦ (h.placed k r hr hh).borrowed_eq

end Sound

/-! ### The balance of a pool -/

namespace AllocationRecord

/-- The rows of a record balance. -/
theorem contrib_balance (r : AllocationRecord) (p : PoolId) :
    r.contrib p .own + r.contrib p .borrowed =
      r.contrib p .reserved + r.contrib p .committed + r.contrib p .lent := by
  have hb := r.borrowed_le
  simp only [contrib, share, lentShare]
  by_cases hs : r.state = .reserved <;> simp only [hs, if_true, if_false] <;>
    split <;> first | rfl | (split <;> split <;> omega)

end AllocationRecord

namespace Sound

variable {s : Impl} {lost : List AllocationRecord} {p : PoolId} {e : PoolEntry}

/-- An identity between rows that holds of every record holds of every pool. -/
theorem rows_linear (h : Sound s lost) (he : s.pools.lookup p = some e) (fs gs : List Row)
    (hlin : ∀ r : AllocationRecord,
      (fs.map (r.contrib p)).sum = (gs.map (r.contrib p)).sum) :
    (fs.map e.read).sum = (gs.map e.read).sum := by
  have hsum : ∀ hs : List Row, (hs.map e.read).sum =
      Table.total (fun _ r ↦ (hs.map (r.contrib p)).sum) s.allocations +
        (lost.map fun r ↦ (hs.map (r.contrib p)).sum).sum := by
    intro hs
    induction hs with
    | nil => simp [Table.total_zero]
    | cons f hs ih =>
        simp only [List.map_cons, List.sum_cons]
        rw [ih, h.rows p e he f, Table.total_add, List.sum_map_add]
        exact Nat.add_add_add_comm _ _ _ _
  rw [hsum fs, hsum gs]
  simp only [hlin]

theorem own_balance (h : Sound s lost) (he : s.pools.lookup p = some e) :
    e.ownUsage.toNat + e.borrowedIn.toNat =
      e.reservedUnits.toNat + e.committedUnits.toNat + e.lentOut.toNat := by
  have hlin := h.rows_linear he [.own, .borrowed] [.reserved, .committed, .lent]
    fun r ↦ by
      have := r.contrib_balance p
      simp only [List.map_cons, List.map_nil, List.sum_cons, List.sum_nil]
      omega
  simp only [List.map_cons, List.map_nil, List.sum_cons, List.sum_nil, PoolEntry.read] at hlin
  omega

theorem allocated_toNat (h : Sound s lost) (he : s.pools.lookup p = some e) :
    e.allocated.toNat = e.reservedUnits.toNat + e.committedUnits.toNat := by
  have hr : e.reservedUnits.toNat ≤ 3458764513820540928 := h.read_bound he .reserved
  have hc : e.committedUnits.toNat ≤ 3458764513820540928 := h.read_bound he .committed
  exact Word.toNat_add (by omega)

/-- What is borrowed is part of what is allocated. -/
theorem borrowed_le_allocated (h : Sound s lost) (he : s.pools.lookup p = some e) :
    e.borrowedIn.toNat ≤ e.reservedUnits.toNat + e.committedUnits.toNat := by
  have hown := h.own_balance he
  have hlent : e.lentOut.toNat ≤ e.ownUsage.toNat := by
    have h₁ : e.lentOut.toNat = s.books lost p .lent := h.rows p e he .lent
    have h₂ : e.ownUsage.toNat = s.books lost p .own := h.rows p e he .own
    have hle : ∀ r : AllocationRecord, r.contrib p .lent ≤ r.contrib p .own := by
      intro r
      simp only [AllocationRecord.contrib, AllocationRecord.share, AllocationRecord.lentShare]
      split
      · split <;> omega
      · rfl
    rw [h₁, h₂]
    unfold Impl.books
    have htable := Table.total_mono (t := s.allocations) fun _ r _ ↦ hle r
    have hlist : (lost.map (·.contrib p .lent)).sum ≤ (lost.map (·.contrib p .own)).sum :=
      List.sum_le_sum fun r _ ↦ hle r
    exact Nat.add_le_add htable hlist
  omega

end Sound

/-! ### The representation of a session -/

def ReleasesWhole (s : Impl) (c : Call) : Prop :=
  ∀ q, c.op = .release q → q.releaseAll = true ∨
    ∀ r, s.allocations.lookup q.allocation = some r → q.units = r.units

instance (s : Impl) (c : Call) : Decidable (ReleasesWhole s c) :=
  decidable_of_iff ((match c.op with
    | .release q => q.releaseAll || (s.allocations.lookup q.allocation).all fun r ↦
        decide (q.units = r.units)
    | _ => true) = true) (by
      unfold ReleasesWhole
      cases c.op with
      | release q => simp [Option.all_eq_true]
      | _ => simp)

theorem ReleasesWhole.releasesAs {s : Impl} {c : Call} (h : ReleasesWhole s c)
    (hok : ∀ q, c.op = .release q → AppendsOk s c) : ReleasesAs AllocationRecord.Whole s c := by
  intro q hq
  refine ⟨hok q hq, ?_⟩
  intro r units hr hamount
  unfold Impl.releaseAmount at hamount
  split at hamount
  · exact (Except.ok.inj hamount).symm
  · rename_i hall
    simp only [seq_ok, require_eq_ok, exists_const, pure_ok] at hamount
    obtain ⟨-, -, rfl⟩ := hamount
    rcases h q hq with hq | hq
    · exact absurd hq hall
    · exact hq r hr

theorem SessionRun.exact_tidy {P : Impl → Call → Prop} {start s : Impl}
    (hP : ∀ s c, P s c → ReleasesAs AllocationRecord.Whole s c) (h : SessionRun P start s)
    (hstart : Exact start ∧ Tidy start) : Exact s ∧ Tidy s := by
  induction h with
  | refl => exact hstart
  | call c _ hp ih =>
      have hw := hP _ _ hp
      refine ⟨ih.1.exec ?_, ih.2.exec ih.1 hw⟩
      exact fun q hq ↦ ⟨(hw q hq).1, fun r units hr ha ↦ ((hw q hq).2 r units hr ha).exactSplit⟩
  | rehash _ hr ih => exact ⟨ih.1.rehash hr, ih.2.rehash hr⟩

theorem Exact.represents {s : Impl} (hs : Exact s) (ht : Tidy s) {p : PoolId} {e : PoolEntry}
    (he : s.pools.lookup p = some e) : e.Represents s p := by
  have hsound := hs.sound
  have hbalance := hsound.own_balance he
  have hborrowed := hsound.borrowed_le_allocated he
  have halloc := hsound.allocated_toNat he
  have hqueue : ∀ b q, (PoolEntry.bucketUnits (e.bucket b) q).toNat =
      s.sumOver (fun r ↦ r.pool = p ∧ r.state = (if b then .reserved else .committed) ∧
        r.queue = q) (·.units) := by
    intro b q
    rw [PoolEntry.read_bucket]
    apply hsound.read_eq_sumOver he
    intro r _
    cases b <;> cases hst : r.state <;>
      simp [AllocationRecord.contrib, AllocationRecord.share, AllocationRecord.lentShare, hst,
        AllocationState.holdsUnits, ite_and]
  refine ⟨?_, ?_, ?_, ?_, ?_, ?_, halloc, by omega, ?_, ?_, ?_⟩
  · apply hsound.read_eq_sumOver he .reserved
    intro r _
    cases hst : r.state <;>
      simp [AllocationRecord.contrib, AllocationRecord.share, AllocationRecord.lentShare, hst,
        AllocationState.holdsUnits]
  · apply hsound.read_eq_sumOver he .committed
    intro r _
    cases hst : r.state <;>
      simp [AllocationRecord.contrib, AllocationRecord.share, AllocationRecord.lentShare, hst,
        AllocationState.holdsUnits]
  · apply hsound.read_eq_sumOver he .pinned
    intro r _
    cases hh : r.state.holdsUnits <;> cases hc : r.reclaimClass <;>
      simp [AllocationRecord.contrib, AllocationRecord.share, AllocationRecord.lentShare, hh, hc]
  · apply hsound.read_eq_sumOver he .reclaimable
    intro r _
    cases hh : r.state.holdsUnits <;> cases hc : r.reclaimClass <;>
      simp [AllocationRecord.contrib, AllocationRecord.share, AllocationRecord.lentShare, hh, hc]
  · apply hsound.read_eq_sumOver he .borrowed
    intro r hb
    cases hh : r.state.holdsUnits
    · simp [AllocationRecord.contrib, hh]
    · simp [AllocationRecord.contrib, AllocationRecord.share, AllocationRecord.lentShare, hh,
        hb hh]
  · apply hsound.read_eq_sumOver he .lent
    intro r hb
    cases hh : r.state.holdsUnits
    · simp [AllocationRecord.contrib, hh]
    · simp [AllocationRecord.contrib, AllocationRecord.share, AllocationRecord.lentShare, hh,
        hb hh]
  · intro k
    rw [ht.members p e he k]
    simp only [and_comm]
  · intro q v
    exact PoolEntry.lookup_iff_of_filled (ht.filled p e he true) (hqueue true q) v
  · intro q v
    exact PoolEntry.lookup_iff_of_filled (ht.filled p e he false) (hqueue false q) v

/-- Rebuilding the aggregates of a represented ledger changes none of them. -/
theorem Exact.rebuild_same {s : Impl} (hs : Exact s) (ht : Tidy s) {p : PoolId} {e : PoolEntry}
    (he : s.pools.lookup p = some e) :
    ∃ e', s.rebuildAggregates.pools.lookup p = some e' ∧ e.SameAggregates e' := by
  have hsound := hs.sound
  have hex : ∃ e', s.rebuildAggregates.pools.lookup p = some e' := by
    rw [Impl.rebuildAggregates_lookup hsound.placed, he]
    exact ⟨_, rfl⟩
  obtain ⟨e', he'⟩ := hex
  obtain ⟨e₀, he₀, hshape, hrows, hmembers, hbuckets⟩ :=
    Impl.rebuildAggregates_spec hsound.placed he'
  rw [he] at he₀
  obtain rfl := Option.some.inj he₀
  have hread : ∀ f, e'.read f = e.read f := by
    intro f
    have hlt := e.read_lt f
    rw [hrows, ← hsound.rows p e he f, Nat.mod_eq_of_lt hlt]
  have hlookup : ∀ b q, (e'.bucket b).lookup q = (e.bucket b).lookup q := by
    intro b q
    have hunits : PoolEntry.bucketUnits (e'.bucket b) q = PoolEntry.bucketUnits (e.bucket b) q := by
      apply Word.eq_of_toNat
      rw [PoolEntry.read_bucket, PoolEntry.read_bucket, hread]
    refine PoolEntry.lookup_eq_of_bucketUnits hunits (ht.filled p e he b q) ?_
    intro v hv
    -- a queue is listed because a record with units stands in it
    obtain ⟨r, ⟨k, hk⟩, hh, hp, hst, hq⟩ := (hbuckets b q).mp (Table.mem_of_lookup hv)
    have hpos := (hsound.placed k r hk hh).pos
    have hle := hsound.contrib_le hk he (if b then .queueReserved q else .queueCommitted q)
    have hv' : PoolEntry.bucketUnits (e'.bucket b) q = v := by simp [PoolEntry.bucketUnits, hv]
    rw [← hv', hunits, PoolEntry.read_bucket]
    refine Nat.lt_of_lt_of_le ?_ hle
    cases b <;>
      simp_all [AllocationRecord.contrib, AllocationRecord.share, AllocationRecord.lentShare]
  refine ⟨e', he', ⟨hshape, ?_, hlookup true, hlookup false, ?_⟩⟩
  · exact ⟨Word.eq_of_toNat (hread .reserved), Word.eq_of_toNat (hread .committed),
      Word.eq_of_toNat (hread .pinned), Word.eq_of_toNat (hread .reclaimable),
      Word.eq_of_toNat (hread .own), Word.eq_of_toNat (hread .borrowed),
      Word.eq_of_toNat (hread .lent)⟩
  · intro k
    rw [hmembers, ht.members p e he k]
    constructor
    · rintro ⟨r, ⟨k', hk'⟩, hh, hp, rfl⟩
      have hid := hsound.allocation_id k' r hk'
      exact ⟨r, by rw [hid]; exact hk', hh, hp⟩
    · rintro ⟨r, hr, hh, hp⟩
      exact ⟨r, ⟨k, hr⟩, hh, hp, hsound.allocation_id k r hr⟩

/-- In a session that starts from nothing, in which every write succeeds and every release
is whole, the aggregates of every pool represent the records, and rebuilding them changes
nothing. -/
theorem session_ledger_represents {start s : Impl} (hstart : FreshlyOpened start)
    (hrun : SessionRun (fun s c ↦ AppendsOk s c ∧ ReleasesWhole s c) start s) {p : PoolId}
    {e : PoolEntry} (he : s.pools.lookup p = some e) :
    e.Represents s p ∧
      ∃ e', s.rebuildAggregates.pools.lookup p = some e' ∧ e.SameAggregates e' := by
  have hblank := hstart.blank
  obtain ⟨hs, ht⟩ := hrun.exact_tidy (fun s c h ↦ h.2.releasesAs fun _ _ ↦ h.1)
    ⟨hblank.exact, hblank.tidy⟩
  exact ⟨hs.represents ht he, hs.rebuild_same ht he⟩

def wholeSession : List Call :=
  smallSetup ++ [askUnits 1 40 true, askUnits 2 30 false,
    { op := .commit { attempt := ⟨3⟩, allocation := ⟨2⟩ } },
    { op := .release { attempt := ⟨4⟩, allocation := ⟨1⟩ } },
    askUnits 5 20 true,
    { op := .resizePool ⟨1⟩ 45 0 ⟨0⟩ }]

theorem session_ledger_represents_small :
    ∃ e, (smallOpened.play wholeSession).pools.lookup ⟨1⟩ = some e ∧
      e.Represents (smallOpened.play wholeSession) ⟨1⟩ := by
  have hadmits : smallOpened.Admits (fun s c ↦ AppendsOk s c ∧ ReleasesWhole s c)
      wholeSession := by
    decide +kernel
  have hsome : ((smallOpened.play wholeSession).pools.lookup ⟨1⟩).isSome = true := by
    decide +kernel
  obtain ⟨e, he⟩ := Option.isSome_iff_exists.mp hsome
  exact ⟨e, he, (session_ledger_represents smallOpened_fresh (SessionRun.refl.play hadmits) he).1⟩

end BufferFabric
