import BufferFabric.Invariants

/-!
# Rebuilding the aggregates

What `rebuild_aggregates` computes: every row of every pool becomes the sum of the shares
of the allocation records, in 64-bit arithmetic, and the members of a pool become the ids
of its unit-holding records.
-/

namespace BufferFabric

namespace PoolEntry

/-- What the loop of `rebuild_aggregates` makes of the pool under `p` when it meets `r`. -/
def gathered (p : PoolId) (e : PoolEntry) (r : AllocationRecord) : PoolEntry :=
  if r.state.holdsUnits then
    let e := if p = r.pool then e.addRecord r else e
    if p = r.lender ∧ r.borrowed ≠ 0 then e.addLending r.borrowed else e
  else e

theorem shape_addRecord (e : PoolEntry) (r : AllocationRecord) :
    (e.addRecord r).shape = e.shape := by
  unfold addRecord
  cases r.reclaimClass <;> cases r.state <;> rfl

theorem members_addRecord (e : PoolEntry) (r : AllocationRecord) :
    (e.addRecord r).members = e.members.insert r.id () := by
  unfold addRecord
  cases r.reclaimClass <;> cases r.state <;> rfl

theorem bucketUnits_bumpBucket (b : Table QueueId UInt64) (q q' : QueueId) (u : UInt64) :
    bucketUnits (bumpBucket b q u) q' = if q' = q then bucketUnits b q + u else bucketUnits b q' :=
  bucketUnits_insert b q q' _

theorem read_addRecord (e : PoolEntry) (r : AllocationRecord) (f : Row) :
    (e.addRecord r).read f = (e.read f + r.share f) % 18446744073709551616 := by
  have hlt := e.read_lt f
  have hkeep : e.read f = (e.read f + 0) % 18446744073709551616 := by
    rw [Nat.add_zero, Nat.mod_eq_of_lt hlt]
  have hbump : ∀ (b : Table QueueId UInt64) (q : QueueId),
      (bucketUnits (bumpBucket b r.queue r.units) q).toNat =
        ((bucketUnits b q).toNat + if r.queue = q then r.units.toNat else 0) %
          18446744073709551616 := by
    intro b q
    rw [bucketUnits_bumpBucket]
    by_cases hq : q = r.queue
    · subst hq
      rw [if_pos rfl, if_pos rfl]
      exact UInt64.toNat_add _ _
    · rw [if_neg hq, if_neg (Ne.symm hq), Nat.add_zero, Nat.mod_eq_of_lt (Word.toNat_lt _)]
  cases f with
  | own =>
      simp only [AllocationRecord.share]
      rw [← r.own_toNat]
      unfold addRecord
      cases r.reclaimClass <;> cases r.state <;> exact UInt64.toNat_add _ _
  | borrowed =>
      unfold addRecord
      cases r.reclaimClass <;> cases r.state <;> exact UInt64.toNat_add _ _
  | lent =>
      unfold addRecord
      cases r.reclaimClass <;> cases r.state <;> exact hkeep
  | pinned =>
      unfold addRecord
      cases hc : r.reclaimClass <;> cases r.state <;>
        simp only [AllocationRecord.share, hc, reduceCtorEq, if_true, if_false] <;>
        first | exact hkeep | exact UInt64.toNat_add _ _
  | reclaimable =>
      unfold addRecord
      cases hc : r.reclaimClass <;> cases r.state <;>
        simp only [AllocationRecord.share, hc, reduceCtorEq, if_true, if_false] <;>
        first | exact hkeep | exact UInt64.toNat_add _ _
  | reserved =>
      unfold addRecord
      cases r.reclaimClass <;> cases hs : r.state <;>
        simp only [AllocationRecord.share, hs, reduceCtorEq, if_true, if_false] <;>
        first | exact hkeep | exact UInt64.toNat_add _ _
  | committed =>
      unfold addRecord
      cases r.reclaimClass <;> cases hs : r.state <;>
        simp only [AllocationRecord.share, hs, reduceCtorEq, if_true, if_false] <;>
        first | exact hkeep | exact UInt64.toNat_add _ _
  | queueReserved q =>
      unfold addRecord
      cases r.reclaimClass <;> cases hs : r.state <;>
        simp only [AllocationRecord.share, hs, reduceCtorEq, true_and, false_and, if_false] <;>
        first | exact hkeep | exact hbump _ q
  | queueCommitted q =>
      unfold addRecord
      cases r.reclaimClass <;> cases hs : r.state <;>
        simp only [AllocationRecord.share, hs, ne_eq, not_true_eq_false, not_false_eq_true,
          reduceCtorEq, true_and, false_and, if_false] <;>
        first | exact hkeep | exact hbump _ q

theorem read_lending (e : PoolEntry) (r : AllocationRecord) (f : Row) :
    (e.addLending r.borrowed).read f =
      (e.read f + r.lentShare f) % 18446744073709551616 := by
  have hlt := e.read_lt f
  cases f with
  | own => exact UInt64.toNat_add _ _
  | lent => exact UInt64.toNat_add _ _
  | _ =>
      simp only [AllocationRecord.lentShare, Nat.add_zero]
      exact (Nat.mod_eq_of_lt hlt).symm

theorem read_gathered (p : PoolId) (e : PoolEntry) (r : AllocationRecord) (f : Row) :
    (e.gathered p r).read f = (e.read f + r.contrib p f) % 18446744073709551616 := by
  have hlt := e.read_lt f
  have hlent : r.borrowed = 0 → r.lentShare f = 0 := by
    intro hb
    cases f <;> simp [AllocationRecord.lentShare, hb]
  unfold gathered AllocationRecord.contrib
  by_cases hh : r.state.holdsUnits
  · rw [if_pos hh, if_pos hh]
    dsimp only
    by_cases hp : p = r.pool <;> by_cases hl : p = r.lender ∧ r.borrowed ≠ 0
    · rw [if_pos hp, if_pos hl, if_pos hp.symm, if_pos hl.1.symm, read_lending, read_addRecord]
      omega
    · rw [if_pos hp, if_neg hl, if_pos hp.symm, read_addRecord]
      split
      · rename_i heq
        rw [hlent (by by_contra hb; exact hl ⟨heq.symm, hb⟩), Nat.add_zero]
      · rw [Nat.add_zero]
    · rw [if_neg hp, if_pos hl, if_neg (Ne.symm hp), if_pos hl.1.symm, read_lending, Nat.zero_add]
    · rw [if_neg hp, if_neg hl, if_neg (Ne.symm hp)]
      split
      · rename_i heq
        rw [hlent (by by_contra hb; exact hl ⟨heq.symm, hb⟩), Nat.add_zero,
          Nat.mod_eq_of_lt hlt]
      · rw [Nat.add_zero, Nat.mod_eq_of_lt hlt]
  · rw [if_neg hh, if_neg hh, Nat.add_zero, Nat.mod_eq_of_lt hlt]

theorem shape_gathered (p : PoolId) (e : PoolEntry) (r : AllocationRecord) :
    (e.gathered p r).shape = e.shape := by
  unfold gathered
  split
  · dsimp only
    split <;> split <;> first | exact shape_addRecord e r | rfl
  · rfl

theorem mem_members_gathered (p : PoolId) (e : PoolEntry) (r : AllocationRecord)
    (k : AllocationId) :
    k ∈ (e.gathered p r).members ↔
      k ∈ e.members ∨ (r.state.holdsUnits = true ∧ r.pool = p ∧ r.id = k) := by
  have hadd : k ∈ (e.addRecord r).members ↔ k ∈ e.members ∨ r.id = k := by
    rw [members_addRecord, AList.mem_insert]
    constructor
    · exact fun h ↦ h.elim (fun h ↦ .inr h.symm) .inl
    · exact fun h ↦ h.elim .inr (fun h ↦ .inl h.symm)
  have hlend : ∀ e : PoolEntry, (e.addLending r.borrowed).members = e.members := fun _ ↦ rfl
  unfold gathered
  by_cases hh : r.state.holdsUnits
  · rw [if_pos hh]
    dsimp only
    by_cases hp : p = r.pool
    · simp only [hp, hh, true_and]
      split
      · rw [hlend]
        exact hadd
      · exact hadd
    · have hp' : r.pool ≠ p := Ne.symm hp
      simp only [if_neg hp, hp', false_and, and_false, or_false]
      split
      · rw [hlend]
      · rfl
  · rw [if_neg hh]
    simp [hh]

def bucket (e : PoolEntry) : Bool → Table QueueId UInt64
  | true => e.queueReserved
  | false => e.queueCommitted

theorem mem_bucket_gathered (p : PoolId) (e : PoolEntry) (r : AllocationRecord) (b : Bool)
    (q : QueueId) :
    q ∈ (e.gathered p r).bucket b ↔
      q ∈ e.bucket b ∨ (r.state.holdsUnits = true ∧ r.pool = p ∧
        (r.state = .reserved ↔ b = true) ∧ r.queue = q) := by
  have hbump : ∀ t : Table QueueId UInt64, q ∈ bumpBucket t r.queue r.units ↔
      q ∈ t ∨ r.queue = q := by
    intro t
    rw [bumpBucket, AList.mem_insert]
    constructor
    · exact fun h ↦ h.elim (fun h ↦ .inr h.symm) .inl
    · exact fun h ↦ h.elim .inr (fun h ↦ .inl h.symm)
  have hadd : q ∈ (e.addRecord r).bucket b ↔
      q ∈ e.bucket b ∨ ((r.state = .reserved ↔ b = true) ∧ r.queue = q) := by
    unfold addRecord bucket
    cases b <;> cases r.reclaimClass <;> cases r.state <;> simp [hbump]
  have hlend : ∀ e : PoolEntry, (e.addLending r.borrowed).bucket b = e.bucket b := by
    intro e
    cases b <;> rfl
  unfold gathered
  by_cases hh : r.state.holdsUnits
  · rw [if_pos hh]
    dsimp only
    by_cases hp : p = r.pool
    · simp only [hp, hh, true_and]
      split
      · rw [hlend]
        exact hadd
      · exact hadd
    · have hp' : r.pool ≠ p := Ne.symm hp
      simp only [if_neg hp, hp', false_and, and_false, or_false]
      split
      · rw [hlend]
      · rfl
  · rw [if_neg hh]
    simp [hh]

/-- The rows after all records were met. -/
theorem read_foldl_gathered (p : PoolId) (f : Row) (l : List AllocationRecord) (e : PoolEntry) :
    (l.foldl (gathered p) e).read f =
      (e.read f + (l.map (·.contrib p f)).sum) % 18446744073709551616 := by
  induction l generalizing e with
  | nil =>
      rw [List.map_nil, List.sum_nil, Nat.add_zero, Nat.mod_eq_of_lt (e.read_lt f)]
      rfl
  | cons r l ih =>
      rw [List.foldl_cons, ih, read_gathered, List.map_cons, List.sum_cons]
      omega

theorem shape_foldl_gathered (p : PoolId) (l : List AllocationRecord) (e : PoolEntry) :
    (l.foldl (gathered p) e).shape = e.shape := by
  induction l generalizing e with
  | nil => rfl
  | cons r l ih => rw [List.foldl_cons, ih, shape_gathered]

theorem mem_members_foldl_gathered (p : PoolId) (k : AllocationId) (l : List AllocationRecord)
    (e : PoolEntry) :
    k ∈ (l.foldl (gathered p) e).members ↔
      k ∈ e.members ∨ ∃ r ∈ l, r.state.holdsUnits = true ∧ r.pool = p ∧ r.id = k := by
  induction l generalizing e with
  | nil => simp
  | cons r l ih =>
      rw [List.foldl_cons, ih, mem_members_gathered]
      simp only [List.mem_cons, exists_eq_or_imp]
      exact or_assoc

theorem mem_bucket_foldl_gathered (p : PoolId) (b : Bool) (q : QueueId)
    (l : List AllocationRecord) (e : PoolEntry) :
    q ∈ (l.foldl (gathered p) e).bucket b ↔
      q ∈ e.bucket b ∨ ∃ r ∈ l, r.state.holdsUnits = true ∧ r.pool = p ∧
        (r.state = .reserved ↔ b = true) ∧ r.queue = q := by
  induction l generalizing e with
  | nil => simp
  | cons r l ih =>
      rw [List.foldl_cons, ih, mem_bucket_gathered]
      simp only [List.mem_cons, exists_eq_or_imp]
      exact or_assoc

end PoolEntry

/-! ### The pools after the loop -/

theorem rebuildRecord_lookup {pools : Table PoolId PoolEntry} {r : AllocationRecord}
    (h : r.state.holdsUnits = true → r.Placed pools) (p : PoolId) :
    (rebuildRecord pools r).lookup p = (pools.lookup p).map fun e ↦ e.gathered p r := by
  unfold rebuildRecord
  by_cases hh : r.state.holdsUnits = true
  · have hplaced := h hh
    obtain ⟨entry, hentry⟩ := hplaced.pool
    simp only [hh, Bool.not_true, Bool.false_eq_true, if_false, hentry]
    unfold PoolEntry.gathered
    simp only [hh, if_true]
    by_cases hb : r.borrowed = 0
    · simp only [hb, ne_eq, not_true_eq_false, false_and, and_false, if_false]
      rw [Table.lookup_insert_eq]
      split
      · subst p
        rw [hentry, Option.map_some]
      · simp
    · have hbu : r.borrowUnits ≠ 0 := by
        rw [← hplaced.borrowed_eq]
        exact hb
      obtain ⟨hv, hne, lender, hlender⟩ := hplaced.lender hbu
      have hlender' : (pools.insert r.pool (entry.addRecord r)).lookup r.lender = some lender := by
        rw [Table.lookup_insert_eq, if_neg hne]
        exact hlender
      simp only [ne_eq, hb, not_false_eq_true, hv, and_self, if_true, hlender', and_true]
      rw [Table.lookup_insert_eq, Table.lookup_insert_eq]
      by_cases hp : p = r.lender
      · subst hp
        rw [if_pos rfl, hlender, Option.map_some, if_neg hne, if_pos rfl]
      · by_cases hq : p = r.pool
        · subst hq
          rw [if_neg hp, if_pos rfl, hentry, Option.map_some, if_pos rfl, if_neg hp]
        · simp only [if_neg hp, if_neg hq, Option.map_id']
  · simp only [Bool.not_eq_true] at hh
    simp [hh, PoolEntry.gathered]

theorem foldl_rebuildRecord_lookup (l : List AllocationRecord) {pools : Table PoolId PoolEntry}
    (h : ∀ r ∈ l, r.state.holdsUnits = true → r.Placed pools) (p : PoolId) :
    (l.foldl rebuildRecord pools).lookup p =
      (pools.lookup p).map (l.foldl (PoolEntry.gathered p)) := by
  induction l generalizing pools with
  | nil => simp
  | cons r l ih =>
      have hr := rebuildRecord_lookup (h r (List.mem_cons_self ..))
      rw [List.foldl_cons, ih, hr, Option.map_map]
      · rfl
      · intro r' hr' hh
        refine (h r' (List.mem_cons_of_mem _ hr') hh).mono ?_
        intro q e he
        exact ⟨_, by rw [hr, he, Option.map_some]⟩

/-- The records of the table. -/
theorem Impl.mem_records {s : Impl} {r : AllocationRecord} :
    r ∈ s.allocations.toList.map Prod.snd ↔ ∃ k, s.allocations.lookup k = some r := by
  constructor
  · intro h
    obtain ⟨⟨k, r'⟩, hmem, rfl⟩ := List.mem_map.mp h
    exact ⟨k, Table.mem_toList.mp hmem⟩
  · rintro ⟨k, hk⟩
    exact List.mem_map.mpr ⟨(k, r), Table.mem_toList.mpr hk, rfl⟩

theorem Impl.sum_records (s : Impl) (p : PoolId) (f : Row) :
    ((s.allocations.toList.map Prod.snd).map (·.contrib p f)).sum = s.books [] p f := by
  unfold Impl.books Table.total Table.toList
  rw [List.map_map, List.map_map, List.map_nil, List.sum_nil, Nat.add_zero]
  rfl

/-- The pool under `p` as `rebuild_aggregates` leaves it. -/
theorem Impl.rebuildAggregates_lookup {s : Impl}
    (h : ∀ k r, s.allocations.lookup k = some r → r.state.holdsUnits = true → r.Placed s.pools)
    (p : PoolId) :
    s.rebuildAggregates.pools.lookup p = (s.pools.lookup p).map fun e ↦
      ((s.allocations.toList.map Prod.snd).foldl (PoolEntry.gathered p) e.cleared).syncRuntime := by
  unfold rebuildAggregates
  dsimp only
  rw [Table.lookup_mapValues, foldl_rebuildRecord_lookup, Table.lookup_mapValues, Option.map_map,
    Option.map_map]
  · rfl
  · intro r hr hh
    obtain ⟨k, hk⟩ := Impl.mem_records.mp hr
    refine (h k r hk hh).mono ?_
    intro q e he
    exact ⟨e.cleared, by rw [Table.lookup_mapValues, he, Option.map_some]⟩

/-- `rebuild_aggregates` keeps the descriptors, makes every row the sum of the shares, and
makes the ids of the unit-holding records the members and their queues the bucket keys. -/
theorem Impl.rebuildAggregates_spec {s : Impl}
    (h : ∀ k r, s.allocations.lookup k = some r → r.state.holdsUnits = true → r.Placed s.pools)
    {p : PoolId} {e' : PoolEntry} (he' : s.rebuildAggregates.pools.lookup p = some e') :
    ∃ e, s.pools.lookup p = some e ∧ e'.shape = e.shape ∧
      (∀ f, e'.read f = s.books [] p f % 18446744073709551616) ∧
      (∀ k, k ∈ e'.members ↔
        ∃ r, (∃ k', s.allocations.lookup k' = some r) ∧ r.state.holdsUnits = true ∧ r.pool = p ∧
          r.id = k) ∧
      ∀ b q, q ∈ e'.bucket b ↔
        ∃ r, (∃ k, s.allocations.lookup k = some r) ∧ r.state.holdsUnits = true ∧ r.pool = p ∧
          (r.state = .reserved ↔ b = true) ∧ r.queue = q := by
  rw [Impl.rebuildAggregates_lookup h] at he'
  obtain ⟨e, he, rfl⟩ := Option.map_eq_some_iff.mp he'
  refine ⟨e, he, ?_, ?_, ?_, ?_⟩
  · exact PoolEntry.shape_foldl_gathered p _ e.cleared
  · intro f
    have hread : ∀ e : PoolEntry, e.syncRuntime.read f = e.read f := by
      intro e
      cases f <;> rfl
    have hzero : e.cleared.read f = 0 := by cases f <;> rfl
    rw [hread, PoolEntry.read_foldl_gathered, Impl.sum_records, hzero, Nat.zero_add]
  · intro k
    have hmem := PoolEntry.mem_members_foldl_gathered p k (s.allocations.toList.map Prod.snd)
      e.cleared
    refine hmem.trans ?_
    have hnone : k ∉ e.cleared.members := AList.notMem_empty k
    simp only [hnone, false_or, Impl.mem_records]
  · intro b q
    have hmem := PoolEntry.mem_bucket_foldl_gathered p b q (s.allocations.toList.map Prod.snd)
      e.cleared
    have hsync : ∀ e : PoolEntry, e.syncRuntime.bucket b = e.bucket b := by
      intro e
      cases b <;> rfl
    have hnone : q ∉ e.cleared.bucket b := by
      cases b <;> exact AList.notMem_empty q
    rw [hsync]
    refine hmem.trans ?_
    simp only [hnone, false_or, Impl.mem_records]

end BufferFabric
