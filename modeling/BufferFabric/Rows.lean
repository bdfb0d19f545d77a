import BufferFabric.Writes

/-!
# Ledger rows

The aggregates of a pool read as rows of natural numbers, what one allocation record adds
to the rows of its pool and of its lender, and what the ledger helpers do to the rows.
-/

namespace BufferFabric

inductive Row where
  | reserved | committed | pinned | reclaimable | own | borrowed | lent
  | queueReserved (queue : QueueId)
  | queueCommitted (queue : QueueId)
  deriving DecidableEq

/-- The rows that `apply_release_units` checks before it takes from them. -/
def Row.Checked : Row → Prop
  | .queueReserved _ | .queueCommitted _ => False
  | _ => True

instance (f : Row) : Decidable f.Checked := by
  cases f <;> unfold Row.Checked <;> infer_instance

namespace PoolEntry

def read (e : PoolEntry) : Row → ℕ
  | .reserved => e.reservedUnits.toNat
  | .committed => e.committedUnits.toNat
  | .pinned => e.pinnedUnits.toNat
  | .reclaimable => e.reclaimableUnits.toNat
  | .own => e.ownUsage.toNat
  | .borrowed => e.borrowedIn.toNat
  | .lent => e.lentOut.toNat
  | .queueReserved q => (bucketUnits e.queueReserved q).toNat
  | .queueCommitted q => (bucketUnits e.queueCommitted q).toNat

def shape (e : PoolEntry) : PoolDescriptor × Generation := (e.descriptor, e.capacityGeneration)

theorem read_lt (e : PoolEntry) (f : Row) : e.read f < 18446744073709551616 := by
  cases f <;> exact Word.toNat_lt _

theorem descriptor_eq_of_shape {e e' : PoolEntry} (h : e'.shape = e.shape) :
    e'.descriptor = e.descriptor :=
  congrArg Prod.fst h

theorem capacityGeneration_eq_of_shape {e e' : PoolEntry} (h : e'.shape = e.shape) :
    e'.capacityGeneration = e.capacityGeneration :=
  congrArg Prod.snd h

theorem usable_eq_of_shape {e e' : PoolEntry} (h : e'.shape = e.shape) :
    e'.usable = e.usable := by
  unfold usable
  rw [descriptor_eq_of_shape h]

end PoolEntry

/-! ### The share of one record -/

namespace AllocationRecord

theorem borrowed_toNat (r : AllocationRecord) :
    r.borrowed.toNat = min r.borrowUnits.toNat r.units.toNat := by
  unfold borrowed
  split
  · rename_i h
    rw [Word.le_iff] at h
    omega
  · rename_i h
    rw [Word.le_iff] at h
    omega

theorem borrowed_le (r : AllocationRecord) : r.borrowed.toNat ≤ r.units.toNat := by
  rw [borrowed_toNat]
  exact Nat.min_le_right _ _

theorem borrowed_eq {r : AllocationRecord} (h : r.borrowUnits.toNat ≤ r.units.toNat) :
    r.borrowed = r.borrowUnits := by
  apply Word.eq_of_toNat
  rw [borrowed_toNat]
  omega

/-- The units of the record that its own pool provides. -/
theorem own_toNat (r : AllocationRecord) :
    (r.units - r.borrowed).toNat = r.units.toNat - r.borrowed.toNat :=
  Word.toNat_sub r.borrowed_le

/-- What a unit-holding record adds to a row of its own pool. -/
def share (r : AllocationRecord) : Row → ℕ
  | .reserved => if r.state = .reserved then r.units.toNat else 0
  | .committed => if r.state = .reserved then 0 else r.units.toNat
  | .pinned => if r.reclaimClass = .pinned then r.units.toNat else 0
  | .reclaimable => if r.reclaimClass = .pinned then 0 else r.units.toNat
  | .own => r.units.toNat - r.borrowed.toNat
  | .borrowed => r.borrowed.toNat
  | .lent => 0
  | .queueReserved q => if r.state = .reserved ∧ r.queue = q then r.units.toNat else 0
  | .queueCommitted q => if r.state ≠ .reserved ∧ r.queue = q then r.units.toNat else 0

def lentShare (r : AllocationRecord) : Row → ℕ
  | .own | .lent => r.borrowed.toNat
  | _ => 0

def contrib (p : PoolId) (f : Row) (r : AllocationRecord) : ℕ :=
  if r.state.holdsUnits then
    (if r.pool = p then r.share f else 0) + (if r.lender = p then r.lentShare f else 0)
  else 0

theorem contrib_of_not_holds {r : AllocationRecord} (h : r.state.holdsUnits = false)
    (p : PoolId) (f : Row) : r.contrib p f = 0 := by
  simp [contrib, h]

/-- What a record adds to the lender it has in its own pool or in another. -/
theorem contrib_lender {r : AllocationRecord} (hr : r.state.holdsUnits = true) :
    r.contrib r.lender .lent = r.borrowed.toNat ∧
      r.contrib r.lender .own =
        (if r.pool = r.lender then r.share .own else 0) + r.borrowed.toNat := by
  simp [contrib, share, lentShare, hr]

theorem share_le (r : AllocationRecord) (f : Row) : r.share f ≤ r.units.toNat := by
  have hb := r.borrowed_le
  cases f <;> simp only [share] <;> try split
  all_goals omega

end AllocationRecord

/-! ### Buckets -/

namespace PoolEntry

theorem ofNat_toNat_units (u : UInt64) : (UInt64.ofNat (u.toNat : ℤ).toNat) = u := by
  simp

theorem bucketUnits_insert (b : Table QueueId UInt64) (q q' : QueueId) (v : UInt64) :
    bucketUnits (b.insert q v) q' = if q' = q then v else bucketUnits b q' := by
  unfold bucketUnits
  rw [Table.lookup_insert_eq]
  split <;> rfl

theorem bucketUnits_erase (b : Table QueueId UInt64) (q q' : QueueId) :
    bucketUnits (b.erase q) q' = if q' = q then 0 else bucketUnits b q' := by
  unfold bucketUnits
  rw [Table.lookup_erase_eq]
  split <;> rfl

theorem bucketUnits_credit (b : Table QueueId UInt64) (q q' : QueueId) (u : UInt64) :
    bucketUnits (adjustBucket b q (u.toNat : ℤ)) q' =
      if q' = q then bucketUnits b q + u else bucketUnits b q' := by
  have hpos : (0 : ℤ) ≤ (u.toNat : ℤ) := Int.natCast_nonneg _
  unfold adjustBucket
  rw [if_pos hpos, ofNat_toNat_units]
  cases h : b.lookup q with
  | none =>
      have hq : bucketUnits b q = 0 := by simp [bucketUnits, h]
      rw [hq, UInt64.zero_add]
      exact bucketUnits_insert b q q' u
  | some held =>
      have hq : bucketUnits b q = held := by simp [bucketUnits, h]
      rw [hq]
      exact bucketUnits_insert b q q' (held + u)

theorem bucketUnits_debit (b : Table QueueId UInt64) (q q' : QueueId) (u : UInt64) :
    (bucketUnits (adjustBucket b q (-(u.toNat : ℤ))) q').toNat =
      if q' = q then (bucketUnits b q).toNat - u.toNat else (bucketUnits b q').toNat := by
  by_cases hu : u.toNat = 0
  · have hu' : u = 0 := Word.eq_zero_iff.mpr hu
    subst hu'
    have h : bucketUnits (adjustBucket b q (-((0 : UInt64).toNat : ℤ))) q' =
        if q' = q then bucketUnits b q + 0 else bucketUnits b q' := bucketUnits_credit b q q' 0
    rw [h]
    split
    · rw [UInt64.add_zero, UInt64.toNat_zero, Nat.sub_zero]
    · rfl
  · have hneg : ¬(0 : ℤ) ≤ -(u.toNat : ℤ) := by omega
    unfold adjustBucket
    rw [if_neg hneg, neg_neg, ofNat_toNat_units]
    cases h : b.lookup q with
    | none =>
        dsimp only
        split
        · subst q'
          simp [bucketUnits, h]
        · rfl
    | some held =>
        have hq : bucketUnits b q = held := by simp [bucketUnits, h]
        dsimp only
        split
        · rename_i hle
          rw [Word.le_iff] at hle
          rw [bucketUnits_erase, hq]
          split
          · rw [UInt64.toNat_zero]
            omega
          · rfl
        · rename_i hle
          rw [Word.le_iff] at hle
          rw [bucketUnits_insert, hq]
          split
          · exact Word.toNat_sub (by omega)
          · rfl

/-! ### Returning units -/

def settleSplit (e : PoolEntry) (r : AllocationRecord) : PoolEntry :=
  let e := match r.state with
    | .reserved => { e with reservedUnits := e.reservedUnits - r.units }
    | _ => { e with committedUnits := e.committedUnits - r.units }
  match r.reclaimClass with
  | .pinned => { e with pinnedUnits := e.pinnedUnits - r.units }
  | .reclaimable => { e with reclaimableUnits := e.reclaimableUnits - r.units }

def returned (p : PoolId) (r : AllocationRecord) (e : PoolEntry) : PoolEntry :=
  let e := if p = r.pool then (e.settleSplit r).debitUsage r else e
  let e := if p = r.lender ∧ r.borrowed ≠ 0 then e.debitLending r.borrowed else e
  if p = r.pool then e.dropRecord r else e

theorem read_settleSplit {e : PoolEntry} {r : AllocationRecord} {f : Row}
    (h : r.share f ≤ e.read f) :
    ((e.settleSplit r).debitUsage r).read f =
      if f.Checked then e.read f - r.share f else e.read f := by
  have hown := r.own_toNat
  cases f with
  | queueReserved q | queueCommitted q =>
      cases hs : r.state <;> cases hc : r.reclaimClass <;>
        simp [settleSplit, debitUsage, read, Row.Checked, hs, hc]
  | own =>
      simp only [AllocationRecord.share, read] at h
      have hsub : (e.ownUsage - (r.units - r.borrowed)).toNat =
          e.ownUsage.toNat - (r.units.toNat - r.borrowed.toNat) := by
        rw [Word.toNat_sub (by omega), hown]
      cases hs : r.state <;> cases hc : r.reclaimClass <;>
        simpa [settleSplit, debitUsage, read, Row.Checked, AllocationRecord.share, hs, hc]
          using hsub
  | reserved | committed | pinned | reclaimable | borrowed | lent =>
      cases hs : r.state <;> cases hc : r.reclaimClass <;>
        simp only [AllocationRecord.share, read, hs, hc, if_true, if_false, reduceCtorEq,
          Nat.zero_le] at h <;>
        simp [settleSplit, debitUsage, read, Row.Checked, AllocationRecord.share, hs, hc,
          Word.toNat_sub, h]

theorem read_debitLending {e : PoolEntry} {r : AllocationRecord} {f : Row}
    (h : r.lentShare f ≤ e.read f) :
    (e.debitLending r.borrowed).read f = e.read f - r.lentShare f := by
  cases f <;> simp only [AllocationRecord.lentShare, read, debitLending, Nat.sub_zero] at h ⊢
  all_goals exact Word.toNat_sub h

theorem read_dropRecord (e : PoolEntry) (r : AllocationRecord) (f : Row) :
    (e.dropRecord r).read f = if f.Checked then e.read f else e.read f - r.share f := by
  by_cases hs : r.state = .reserved
  · cases f with
    | queueReserved q =>
        have h := bucketUnits_debit e.queueReserved r.queue q r.units
        simp only [dropRecord, adjustQueue, hs, read, Row.Checked, AllocationRecord.share,
          decide_true, if_true, if_false, true_and]
        rw [h]
        by_cases hq : q = r.queue
        · simp [hq]
        · simp [hq, Ne.symm hq]
    | queueCommitted q =>
        simp [dropRecord, adjustQueue, hs, read, Row.Checked, AllocationRecord.share]
    | _ => simp [dropRecord, adjustQueue, hs, read, Row.Checked]
  · cases f with
    | queueCommitted q =>
        have h := bucketUnits_debit e.queueCommitted r.queue q r.units
        simp only [dropRecord, adjustQueue, hs, read, Row.Checked, AllocationRecord.share,
          decide_false, Bool.false_eq_true, if_false, true_and, ne_eq, not_false_eq_true]
        rw [h]
        by_cases hq : q = r.queue
        · simp [hq]
        · simp [hq, Ne.symm hq]
    | queueReserved q =>
        simp [dropRecord, adjustQueue, hs, read, Row.Checked, AllocationRecord.share]
    | _ => simp [dropRecord, adjustQueue, hs, read, Row.Checked]

/-- Returning the units of a record takes exactly its share from every row. -/
theorem read_returned {e : PoolEntry} {p : PoolId} {r : AllocationRecord} {f : Row}
    (hr : r.state.holdsUnits) (h : r.contrib p f ≤ e.read f) :
    (e.returned p r).read f + r.contrib p f = e.read f := by
  have hlend : r.borrowed = 0 → r.lentShare f = 0 := by
    intro hb
    cases f <;> simp [AllocationRecord.lentShare, hb]
  have hchecked : ¬f.Checked → r.lentShare f = 0 := by
    cases f <;> simp [Row.Checked, AllocationRecord.lentShare]
  simp only [AllocationRecord.contrib, hr, if_true] at h ⊢
  unfold returned
  by_cases hp : p = r.pool
  · have hshare : r.share f ≤ e.read f := by
      rw [if_pos hp.symm] at h
      omega
    have hfirst := read_settleSplit hshare
    rw [if_pos hp, if_pos hp, if_pos hp.symm, read_dropRecord] at *
    by_cases hl : p = r.lender ∧ r.borrowed ≠ 0
    · rw [if_pos hl.1.symm] at h ⊢
      rw [if_pos hl]
      have hmid : r.lentShare f ≤ ((e.settleSplit r).debitUsage r).read f := by
        rw [hfirst]
        split
        · omega
        · rename_i hf
          rw [hchecked hf]
          omega
      rw [read_debitLending hmid, hfirst]
      split <;> omega
    · rw [if_neg hl, hfirst]
      have hzero : (if r.lender = p then r.lentShare f else 0) = 0 := by
        split
        · rename_i hl'
          apply hlend
          by_contra hb
          exact hl ⟨hl'.symm, hb⟩
        · rfl
      rw [hzero]
      split <;> omega
  · rw [if_neg (Ne.symm hp)] at h ⊢
    simp only [hp, if_false, Nat.zero_add] at h ⊢
    by_cases hl : p = r.lender ∧ r.borrowed ≠ 0
    · rw [if_pos hl.1.symm] at h ⊢
      rw [if_pos hl, read_debitLending h]
      omega
    · rw [if_neg hl]
      split
      · rename_i hl'
        have hb : r.borrowed = 0 := by
          by_contra hb
          exact hl ⟨hl'.symm, hb⟩
        rw [hlend hb]
        omega
      · omega

theorem shape_settleSplit (e : PoolEntry) (r : AllocationRecord) :
    (e.settleSplit r).shape = e.shape := by
  unfold settleSplit
  cases r.state <;> cases r.reclaimClass <;> rfl

theorem members_settleSplit (e : PoolEntry) (r : AllocationRecord) :
    (e.settleSplit r).members = e.members := by
  unfold settleSplit
  cases r.state <;> cases r.reclaimClass <;> rfl

theorem shape_dropRecord (e : PoolEntry) (r : AllocationRecord) :
    (e.dropRecord r).shape = e.shape := by
  unfold dropRecord adjustQueue
  split <;> rfl

theorem members_dropRecord (e : PoolEntry) (r : AllocationRecord) :
    (e.dropRecord r).members = e.members.erase r.id := by
  unfold dropRecord adjustQueue
  split <;> rfl

theorem shape_returned (p : PoolId) (r : AllocationRecord) (e : PoolEntry) :
    (e.returned p r).shape = e.shape := by
  have h : ((e.settleSplit r).debitUsage r).shape = e.shape := shape_settleSplit e r
  unfold returned
  split <;> split <;> simp only [shape_dropRecord] <;> first | exact h | rfl

theorem members_returned (p : PoolId) (r : AllocationRecord) (e : PoolEntry) :
    (e.returned p r).members = if p = r.pool then e.members.erase r.id else e.members := by
  have h : ((e.settleSplit r).debitUsage r).members = e.members := members_settleSplit e r
  unfold returned
  by_cases hp : p = r.pool
  · simp only [if_pos hp, members_dropRecord]
    split
    · exact congrArg (AList.erase r.id) h
    · rw [h]
  · simp only [if_neg hp]
    split <;> rfl

theorem debitState_eq_ok {e e' : PoolEntry} {r : AllocationRecord} (h : e.debitState r = .ok e') :
    (if r.state = .reserved then r.units ≤ e.reservedUnits else r.units ≤ e.committedUnits) ∧
      e' = match r.state with
        | .reserved => { e with reservedUnits := e.reservedUnits - r.units }
        | _ => { e with committedUnits := e.committedUnits - r.units } := by
  unfold debitState at h
  cases hs : r.state <;>
    simp only [hs, Outcome.seq_ok, Outcome.require_eq_ok, exists_const, Outcome.pure_ok] at h <;>
    exact ⟨by simpa using h.1, h.2.symm⟩

theorem debitClass_eq_ok {e e' : PoolEntry} {r : AllocationRecord} (h : e.debitClass r = .ok e') :
    (if r.reclaimClass = .pinned then r.units ≤ e.pinnedUnits else r.units ≤ e.reclaimableUnits) ∧
      e' = match r.reclaimClass with
        | .pinned => { e with pinnedUnits := e.pinnedUnits - r.units }
        | .reclaimable => { e with reclaimableUnits := e.reclaimableUnits - r.units } := by
  unfold debitClass at h
  cases hc : r.reclaimClass <;>
    simp only [hc, Outcome.seq_ok, Outcome.require_eq_ok, exists_const, Outcome.pure_ok] at h <;>
    exact ⟨by simpa using h.1, h.2.symm⟩

theorem settleSplit_eq {e e₁ e₂ : PoolEntry} {r : AllocationRecord} (h₁ : e.debitState r = .ok e₁)
    (h₂ : e₁.debitClass r = .ok e₂) : e₂ = e.settleSplit r := by
  rw [(debitClass_eq_ok h₂).2, (debitState_eq_ok h₁).2]
  rfl

theorem shape_debitState {e e' : PoolEntry} {r : AllocationRecord} (h : e.debitState r = .ok e') :
    e'.shape = e.shape := by
  rw [(debitState_eq_ok h).2]
  cases r.state <;> rfl

theorem debitState_iff {e : PoolEntry} {r : AllocationRecord} :
    (∃ e', e.debitState r = .ok e') ↔
      r.share .reserved ≤ e.read .reserved ∧ r.share .committed ≤ e.read .committed := by
  unfold debitState
  cases hs : r.state <;>
    simp only [Outcome.seq_ok, Outcome.require_eq_ok, exists_const, Outcome.pure_ok, Word.le_iff] <;>
    simp [AllocationRecord.share, read, hs]

theorem debitState_error {e : PoolEntry} {r : AllocationRecord} {error : Status}
    (h : e.debitState r = .error error) : error.code = .invariantViolation := by
  unfold debitState at h
  cases hs : r.state <;> simp only [hs, Outcome.require] at h <;> split at h <;> cases h <;> rfl

theorem debitClass_iff {e : PoolEntry} {r : AllocationRecord} :
    (∃ e', e.debitClass r = .ok e') ↔
      r.share .pinned ≤ e.read .pinned ∧ r.share .reclaimable ≤ e.read .reclaimable := by
  unfold debitClass
  cases hc : r.reclaimClass <;>
    simp only [Outcome.seq_ok, Outcome.require_eq_ok, exists_const, Outcome.pure_ok, Word.le_iff] <;>
    simp [AllocationRecord.share, read, hc]

theorem read_debitState {e e' : PoolEntry} {r : AllocationRecord} (h : e.debitState r = .ok e')
    (f : Row) :
    e'.read f + (if f = .reserved ∨ f = .committed then r.share f else 0) = e.read f := by
  obtain ⟨hle, heq⟩ := debitState_eq_ok h
  rw [heq]
  cases hs : r.state <;>
    simp only [hs, if_true, if_false, reduceCtorEq, Word.le_iff] at hle <;>
    cases f <;> simp [read, AllocationRecord.share, hs, Word.toNat_sub hle, hle]

theorem read_debitClass {e e' : PoolEntry} {r : AllocationRecord} (h : e.debitClass r = .ok e')
    (f : Row) :
    e'.read f + (if f = .pinned ∨ f = .reclaimable then r.share f else 0) = e.read f := by
  obtain ⟨hle, heq⟩ := debitClass_eq_ok h
  rw [heq]
  cases hc : r.reclaimClass <;>
    simp only [hc, if_true, if_false, reduceCtorEq, Word.le_iff] at hle <;>
    cases f <;> simp [read, AllocationRecord.share, hc, Word.toNat_sub hle, hle]

/-- The pool has the own and the borrowed units of the record, and its units in their state: what
`apply_release_units` checks before it changes anything. -/
def Bears (e : PoolEntry) (r : AllocationRecord) : Prop :=
  r.share .own ≤ e.read .own ∧ r.share .borrowed ≤ e.read .borrowed ∧
    r.share .reserved ≤ e.read .reserved ∧ r.share .committed ≤ e.read .committed

end PoolEntry

/-! ### Tables of pools -/

def SameShapes (pools pools' : Table PoolId PoolEntry) : Prop :=
  ∀ p, (pools'.lookup p).map PoolEntry.shape = (pools.lookup p).map PoolEntry.shape

namespace SameShapes

variable {pools pools' pools'' : Table PoolId PoolEntry}

theorem refl (pools : Table PoolId PoolEntry) : SameShapes pools pools := fun _ ↦ rfl

theorem trans (h : SameShapes pools pools') (h' : SameShapes pools' pools'') :
    SameShapes pools pools'' :=
  fun p ↦ (h' p).trans (h p)

theorem insert {key : PoolId} {e e' : PoolEntry} (hl : pools.lookup key = some e)
    (h : e'.shape = e.shape) : SameShapes pools (pools.insert key e') := by
  intro p
  rw [Table.lookup_insert_eq]
  split
  · subst p
    rw [hl, Option.map_some, Option.map_some, h]
  · rfl

theorem of_map {g : PoolId → PoolEntry → PoolEntry} (hg : ∀ p e, (g p e).shape = e.shape)
    (h : ∀ p, pools'.lookup p = (pools.lookup p).map (g p)) : SameShapes pools pools' := by
  intro p
  rw [h, Option.map_map]
  cases pools.lookup p with
  | none => rfl
  | some e => exact congrArg some (hg p e)

theorem lookup_none (h : SameShapes pools pools') {p : PoolId} (hp : pools.lookup p = none) :
    pools'.lookup p = none := by
  have := h p
  rw [hp] at this
  simpa using this

theorem lookup_some (h : SameShapes pools pools') {p : PoolId} {e' : PoolEntry}
    (hp : pools'.lookup p = some e') : ∃ e, pools.lookup p = some e ∧ e'.shape = e.shape := by
  have hmap := h p
  rw [hp] at hmap
  obtain ⟨e, he, hs⟩ := Option.map_eq_some_iff.mp hmap.symm
  exact ⟨e, he, hs.symm⟩

theorem symm (h : SameShapes pools pools') : SameShapes pools' pools := fun p ↦ (h p).symm

end SameShapes

namespace Impl

/-- The lender's side of a return touches the lender alone. -/
theorem debitLender_ok {s s' : Impl} {r : AllocationRecord} (h : s.debitLender r = .ok s') :
    ∃ pools, s' = { s with pools := pools } ∧
      ∀ p, pools.lookup p = (s.pools.lookup p).map fun e ↦
        if p = r.lender ∧ r.borrowed ≠ 0 then e.debitLending r.borrowed else e := by
  unfold debitLender at h
  split at h
  · rename_i hb
    refine ⟨s.pools, (Except.ok.inj h).symm, ?_⟩
    intro p
    simp [hb]
  · rename_i hb
    split at h
    · cases h
    · rename_i lender hlook
      have hlook' : s.pools.lookup r.lender = some lender := by
        by_cases hv : r.lender.Valid
        · rwa [if_pos hv] at hlook
        · rw [if_neg hv] at hlook
          cases hlook
      split at h
      · cases h
      · refine ⟨s.pools.insert r.lender (lender.debitLending r.borrowed),
          (Except.ok.inj h).symm, ?_⟩
        intro p
        rw [Table.lookup_insert_eq]
        by_cases hp : p = r.lender
        · subst hp
          simp [hlook', hb]
        · simp [hp]

/-- `apply_release_units` only touches the pools. When it succeeds every pool has had the
record's share taken; when it fails some aggregates may have moved, but no descriptor. -/
theorem applyReleaseUnits_spec {s : Impl} {entry : PoolEntry} {r : AllocationRecord}
    (hl : s.pools.lookup r.pool = some entry) :
    ∃ pools, (s.applyReleaseUnits r.pool entry r).2 = { s with pools := pools } ∧
      SameShapes s.pools pools ∧
      ((s.applyReleaseUnits r.pool entry r).1 = .ok () →
        r.state.holdsUnits ∧
          ∀ p, pools.lookup p = (s.pools.lookup p).map (PoolEntry.returned p r)) := by
  have same : SameShapes s.pools s.pools := SameShapes.refl _
  unfold applyReleaseUnits
  split
  · exact ⟨s.pools, rfl, same, by simp⟩
  rename_i hholds
  split
  · exact ⟨s.pools, rfl, same, by simp⟩
  split
  · exact ⟨s.pools, rfl, same, by simp⟩
  split
  · exact ⟨s.pools, rfl, same, by simp⟩
  rename_i e₁ h₁
  split
  · exact ⟨s.pools.insert r.pool e₁, rfl, SameShapes.insert hl (PoolEntry.shape_debitState h₁),
      by simp⟩
  rename_i e₂ h₂
  have he₂ := PoolEntry.settleSplit_eq h₁ h₂
  subst he₂
  have hshape : ((entry.settleSplit r).debitUsage r).shape = entry.shape :=
    PoolEntry.shape_settleSplit entry r
  have hmid := SameShapes.insert hl hshape
  dsimp only
  split
  · exact ⟨s.pools.insert r.pool ((entry.settleSplit r).debitUsage r), rfl, hmid, by simp⟩
  rename_i s₂ h₂
  obtain ⟨pools₂, rfl, hlender⟩ := debitLender_ok h₂
  have hpools₂ : ∀ p, pools₂.lookup p = (s.pools.lookup p).map fun e ↦
      let e := if p = r.pool then (e.settleSplit r).debitUsage r else e
      if p = r.lender ∧ r.borrowed ≠ 0 then e.debitLending r.borrowed else e := by
    intro p
    rw [hlender]
    simp only [putPool]
    rw [Table.lookup_insert_eq]
    by_cases hp : p = r.pool
    · subst hp
      simp [hl]
    · simp [hp]
  have hself : pools₂.lookup r.pool = some
      (let e := (entry.settleSplit r).debitUsage r
       if r.pool = r.lender ∧ r.borrowed ≠ 0 then e.debitLending r.borrowed else e) := by
    rw [hpools₂, hl]
    simp
  have hfinal : ∀ p, (pools₂.insert r.pool
      ((let e := (entry.settleSplit r).debitUsage r
        if r.pool = r.lender ∧ r.borrowed ≠ 0 then e.debitLending r.borrowed else e).dropRecord
          r)).lookup p = (s.pools.lookup p).map (PoolEntry.returned p r) := by
    intro p
    rw [Table.lookup_insert_eq]
    by_cases hp : p = r.pool
    · subst hp
      rw [if_pos rfl, hl]
      simp [PoolEntry.returned]
    · rw [if_neg hp, hpools₂]
      congr 1
      funext e
      simp [PoolEntry.returned, hp]
  refine ⟨_, ?_, SameShapes.of_map (fun p e ↦ PoolEntry.shape_returned p r e) hfinal,
    fun _ ↦ ⟨by simpa using hholds, hfinal⟩⟩
  simp only [modifyPool, hself, putPool]

/-- The pool has the units of the record in their class, and the lender those it lent: what
`apply_release_units` checks on its way. -/
def BearsRest (s : Impl) (e : PoolEntry) (r : AllocationRecord) : Prop :=
  (r.share .pinned ≤ e.read .pinned ∧ r.share .reclaimable ≤ e.read .reclaimable) ∧
    (r.borrowed ≠ 0 → r.lender.Valid ∧ ∃ l, s.pools.lookup r.lender = some l ∧
      r.contrib r.lender .lent ≤ l.read .lent ∧ r.contrib r.lender .own ≤ l.read .own)

theorem debitLender_iff {s : Impl} {r : AllocationRecord} :
    (∃ s', s.debitLender r = .ok s') ↔
      (r.borrowed ≠ 0 → r.lender.Valid ∧ ∃ l, s.pools.lookup r.lender = some l ∧
        r.borrowed.toNat ≤ l.lentOut.toNat ∧ r.borrowed.toNat ≤ l.ownUsage.toNat) := by
  unfold debitLender
  by_cases hb : r.borrowed = 0
  · simp [hb]
  rw [if_neg hb]
  by_cases hv : r.lender.Valid
  · rw [if_pos hv]
    cases hl : s.pools.lookup r.lender with
    | none => simp [hb]
    | some l =>
        by_cases hlt : l.lentOut < r.borrowed ∨ l.ownUsage < r.borrowed
        · simp only [if_pos hlt, reduceCtorEq, exists_false, false_iff]
          rintro hle
          obtain ⟨-, l', heq, hlent, hown⟩ := hle hb
          obtain rfl := Option.some.inj heq
          rw [Word.lt_iff, Word.lt_iff] at hlt
          omega
        · simp only [if_neg hlt]
          refine iff_of_true ⟨_, rfl⟩ fun _ ↦ ⟨hv, l, rfl, ?_⟩
          rw [Word.lt_iff, Word.lt_iff] at hlt
          omega
  · rw [if_neg hv]
    simp [hb, hv]

/-- Returning the units of a record that the pool does not bear changes nothing. -/
theorem applyReleaseUnits_unborne (s : Impl) (key : PoolId) {e : PoolEntry}
    {r : AllocationRecord} (h : ¬e.Bears r) : ∃ error : Status, error.code = .invariantViolation ∧
      s.applyReleaseUnits key e r = (.error error, s) := by
  unfold applyReleaseUnits
  split
  · exact ⟨_, rfl, rfl⟩
  split
  · exact ⟨_, rfl, rfl⟩
  rename_i hown
  split
  · exact ⟨_, rfl, rfl⟩
  rename_i hborrowed
  split
  · rename_i error herror
    exact ⟨_, PoolEntry.debitState_error herror, rfl⟩
  rename_i e₁ h₁
  rw [Word.lt_iff] at hown hborrowed
  have hshare := r.own_toNat
  refine absurd ⟨?_, ?_, PoolEntry.debitState_iff.mp ⟨e₁, h₁⟩⟩ h
  · change r.units.toNat - r.borrowed.toNat ≤ e.ownUsage.toNat
    omega
  · change r.borrowed.toNat ≤ e.borrowedIn.toNat
    omega

/-- Returning the units of a record that the pool bears takes them from their state, and succeeds
exactly if class and lender bear them too. -/
theorem applyReleaseUnits_borne {s : Impl} {e : PoolEntry} {r : AllocationRecord}
    (hr : r.state.holdsUnits = true) (hl : s.pools.lookup r.pool = some e) (h : e.Bears r) :
    ((s.applyReleaseUnits r.pool e r).1 = .ok () ↔ s.BearsRest e r) ∧
      ∃ e', (s.applyReleaseUnits r.pool e r).2.pools.lookup r.pool = some e' ∧
        e'.read .reserved + r.share .reserved = e.read .reserved ∧
        e'.read .committed + r.share .committed = e.read .committed := by
  obtain ⟨hown, hborrowed, hstate⟩ := h
  have hown' : ¬e.ownUsage < r.units - r.borrowed := by
    rw [Word.lt_iff, r.own_toNat]
    exact Nat.not_lt.mpr hown
  have hborrowed' : ¬e.borrowedIn < r.borrowed := by
    rw [Word.lt_iff]
    exact Nat.not_lt.mpr hborrowed
  obtain ⟨e₁, h₁⟩ := PoolEntry.debitState_iff.mpr hstate
  have hread₁ := PoolEntry.read_debitState h₁
  have hres := hread₁ .reserved
  have hcom := hread₁ .committed
  have hpin := hread₁ .pinned
  have hrec := hread₁ .reclaimable
  simp only [reduceCtorEq, or_false, or_true, if_true, if_false, or_self, Nat.add_zero]
    at hres hcom hpin hrec
  have hlookup : ∀ {e' : PoolEntry} {t : Impl}, t.pools = s.pools.insert r.pool e' →
      e'.read .reserved + r.share .reserved = e.read .reserved →
      e'.read .committed + r.share .committed = e.read .committed →
      ∃ e', t.pools.lookup r.pool = some e' ∧
        e'.read .reserved + r.share .reserved = e.read .reserved ∧
        e'.read .committed + r.share .committed = e.read .committed := by
    intro e' t ht hres hcom
    refine ⟨e', ?_, hres, hcom⟩
    rw [ht, Table.lookup_insert_eq, if_pos rfl]
  have hspec := applyReleaseUnits_spec (r := r) hl
  revert hspec
  simp only [applyReleaseUnits, hr, Bool.not_true, Bool.false_eq_true, if_false, hown', hborrowed',
    h₁]
  rcases h₂ : e₁.debitClass r with err | e₂
  · intro _
    refine ⟨iff_of_false (by simp) fun hrest ↦ ?_, hlookup rfl hres hcom⟩
    obtain ⟨hclass, -⟩ := hrest
    rw [← hpin, ← hrec] at hclass
    obtain ⟨e₂, h₂'⟩ := PoolEntry.debitClass_iff.mpr hclass
    cases h₂.symm.trans h₂'
  have hclass := PoolEntry.debitClass_iff.mp ⟨e₂, h₂⟩
  rw [hpin, hrec] at hclass
  have hread₂ := PoolEntry.read_debitClass h₂
  have hres₂ : e₂.read .reserved = e₁.read .reserved := hread₂ .reserved
  have hcom₂ : e₂.read .committed = e₁.read .committed := hread₂ .committed
  have hown₂ : e₂.read .own = e.read .own := (hread₂ .own).trans (hread₁ .own)
  have hlent₂ : e₂.read .lent = e.read .lent := (hread₂ .lent).trans (hread₁ .lent)
  have hside : (∃ s', (s.putPool r.pool (e₂.debitUsage r)).debitLender r = .ok s') ↔
      s.BearsRest e r := by
    rw [debitLender_iff, BearsRest, and_iff_right hclass]
    obtain ⟨hlentPart, hownPart⟩ := AllocationRecord.contrib_lender hr
    refine forall_congr' fun hb ↦ and_congr_right fun hv ↦ ?_
    simp only [putPool]
    rw [Table.lookup_insert_eq]
    by_cases hself : r.lender = r.pool
    · -- the pool lends to itself: its own units have been taken before
      rw [if_pos hself, hlentPart, hownPart, if_pos hself.symm, hself, hl]
      have hown₃ : (e₂.debitUsage r).ownUsage.toNat + r.share .own = e.read .own := by
        have hle : r.share .own ≤ e₂.ownUsage.toNat := by
          rw [← hown₂] at hown
          exact hown
        change (e₂.ownUsage - (r.units - r.borrowed)).toNat + r.share .own = _
        rw [Word.toNat_sub (by rw [r.own_toNat]; exact hle), r.own_toNat, ← hown₂]
        exact Nat.sub_add_cancel hle
      have hlent₃ : (e₂.debitUsage r).lentOut.toNat = e.read .lent := hlent₂
      simp only [Option.some.injEq, exists_eq_left', hlent₃]
      omega
    · rw [if_neg hself, hlentPart, hownPart, if_neg (Ne.symm hself), Nat.zero_add]
      rfl
  dsimp only
  rcases h₃ : (s.putPool r.pool (e₂.debitUsage r)).debitLender r with err | s'
  · intro _
    refine ⟨iff_of_false (by simp) fun hrest ↦ ?_, hlookup rfl ?_ ?_⟩
    · obtain ⟨s', h₃'⟩ := hside.mpr hrest
      cases h₃.symm.trans h₃'
    · exact (congrArg (· + r.share .reserved) hres₂).trans hres
    · exact (congrArg (· + r.share .committed) hcom₂).trans hcom
  · rintro ⟨pools, hpools, -, happlied⟩
    obtain ⟨-, hreturned⟩ := happlied rfl
    refine ⟨iff_of_true rfl (hside.mp ⟨s', h₃⟩), e.returned r.pool r, ?_, ?_, ?_⟩
    · rw [hpools]
      exact (hreturned r.pool).trans (by rw [hl, Option.map_some])
    · have hcontrib : r.contrib r.pool .reserved = r.share .reserved := by
        simp [AllocationRecord.contrib, AllocationRecord.lentShare, hr]
      rw [← hcontrib]
      exact PoolEntry.read_returned hr (hcontrib ▸ hstate.1)
    · have hcontrib : r.contrib r.pool .committed = r.share .committed := by
        simp [AllocationRecord.contrib, AllocationRecord.lentShare, hr]
      rw [← hcontrib]
      exact PoolEntry.read_returned hr (hcontrib ▸ hstate.2)

/-- Returning no units takes the record from its queue and from the members of its pool. -/
theorem applyReleaseUnits_none {s : Impl} {e : PoolEntry} {r : AllocationRecord}
    (hr : r.state.holdsUnits = true) (hzero : r.units = 0) :
    s.applyReleaseUnits r.pool e r = (.ok (), s.putPool r.pool (e.dropRecord r)) := by
  have hb : r.borrowed = 0 := by
    apply Word.eq_of_toNat
    have hle := r.borrowed_le
    rw [hzero] at hle
    exact Nat.le_zero.mp hle
  have hstate : e.debitState r = .ok e := by
    unfold PoolEntry.debitState
    cases r.state <;> simp [hzero, Outcome.require]
  have hclass : e.debitClass r = .ok e := by
    unfold PoolEntry.debitClass
    cases r.reclaimClass <;> simp [hzero, Outcome.require]
  have husage : e.debitUsage r = e := by
    simp [PoolEntry.debitUsage, hzero, hb]
  have hlender : (s.putPool r.pool e).debitLender r = .ok (s.putPool r.pool e) := by
    rw [debitLender, if_pos hb]
  have hlookup : (s.putPool r.pool e).pools.lookup r.pool = some e :=
    (Table.lookup_insert_eq ..).trans (if_pos rfl)
  simp only [applyReleaseUnits, hr, Bool.not_true, Bool.false_eq_true, if_false, hzero, hb,
    hstate, hclass, husage, hlender, modifyPool, hlookup]
  rw [if_neg (by simp), if_neg (by simp)]
  simp only [putPool, AList.insert_insert]

end Impl

/-! ### Granting and committing units -/

namespace PoolEntry

def creditUsage (e : PoolEntry) (r : AllocationRecord) : PoolEntry :=
  { e with
    ownUsage := e.ownUsage + (r.units - r.borrowUnits)
    borrowedIn := e.borrowedIn + r.borrowUnits }

/-- What becomes of the pool under `p` when `r` is granted to the pool under `key`. -/
def granted (key p : PoolId) (r : AllocationRecord) (e : PoolEntry) : PoolEntry :=
  let e := if p = key then e.creditUsage r else e
  let e := if p = r.lender ∧ r.borrowUnits ≠ 0 then e.addLending r.borrowUnits else e
  if p = key then Impl.grantedEntry e r else e

theorem shape_grantedEntry (e : PoolEntry) (r : AllocationRecord) :
    (Impl.grantedEntry e r).shape = e.shape := by
  unfold Impl.grantedEntry adjustQueue creditSplit
  cases r.state <;> cases r.reclaimClass <;> rfl

theorem members_grantedEntry (e : PoolEntry) (r : AllocationRecord) :
    (Impl.grantedEntry e r).members = e.members.insert r.id () := by
  unfold Impl.grantedEntry adjustQueue creditSplit
  cases r.state <;> cases r.reclaimClass <;> rfl

theorem shape_granted (key p : PoolId) (r : AllocationRecord) (e : PoolEntry) :
    (e.granted key p r).shape = e.shape := by
  unfold granted
  split <;> split <;> simp only [shape_grantedEntry] <;> rfl

theorem members_granted (key p : PoolId) (r : AllocationRecord) (e : PoolEntry) :
    (e.granted key p r).members = if p = key then e.members.insert r.id () else e.members := by
  unfold granted
  by_cases hp : p = key
  · simp only [if_pos hp, members_grantedEntry]
    split <;> rfl
  · simp only [if_neg hp]
    split <;> rfl

theorem read_creditQueue {e : PoolEntry} {r : AllocationRecord} {f : Row}
    (h : ¬f.Checked → e.read f + r.share f < 18446744073709551616) :
    (e.adjustQueue r.queue (r.units.toNat : ℤ) (decide (r.state = .reserved))).read f =
      if f.Checked then e.read f else e.read f + r.share f := by
  by_cases hs : r.state = .reserved
  · cases f with
    | queueReserved q =>
        have hb := bucketUnits_credit e.queueReserved r.queue q r.units
        simp only [Row.Checked, not_false_eq_true, forall_true_left, AllocationRecord.share, read,
          hs, true_and] at h
        simp only [adjustQueue, hs, read, Row.Checked, AllocationRecord.share, decide_true, if_true,
          if_false, true_and, hb]
        by_cases hq : q = r.queue
        · subst hq
          rw [if_pos rfl] at h ⊢
          rw [if_pos rfl]
          exact Word.toNat_add h
        · simp [hq, Ne.symm hq]
    | queueCommitted q => simp [adjustQueue, hs, read, Row.Checked, AllocationRecord.share]
    | _ => simp [adjustQueue, hs, read, Row.Checked]
  · cases f with
    | queueCommitted q =>
        have hb := bucketUnits_credit e.queueCommitted r.queue q r.units
        simp only [Row.Checked, not_false_eq_true, forall_true_left, AllocationRecord.share, read,
          hs, true_and, ne_eq] at h
        simp only [adjustQueue, hs, read, Row.Checked, AllocationRecord.share, decide_false,
          Bool.false_eq_true, if_false, true_and, ne_eq, not_false_eq_true, hb]
        by_cases hq : q = r.queue
        · subst hq
          rw [if_pos rfl] at h ⊢
          rw [if_pos rfl]
          exact Word.toNat_add h
        · simp [hq, Ne.symm hq]
    | queueReserved q => simp [adjustQueue, hs, read, Row.Checked, AllocationRecord.share]
    | _ => simp [adjustQueue, hs, read, Row.Checked]

theorem read_creditSplit {e : PoolEntry} {r : AllocationRecord} {f : Row}
    (h : e.read f + r.share f < 18446744073709551616) :
    (e.creditSplit r).read f =
      if ¬f.Checked ∨ f = .own ∨ f = .borrowed then e.read f else e.read f + r.share f := by
  cases f with
  | queueReserved q | queueCommitted q | own | borrowed | lent =>
      cases hs : r.state <;> cases hc : r.reclaimClass <;>
        simp [creditSplit, read, AllocationRecord.share, Row.Checked, hs, hc]
  | reserved | committed | pinned | reclaimable =>
      cases hs : r.state <;> cases hc : r.reclaimClass <;>
        simp only [AllocationRecord.share, read, hs, hc, reduceCtorEq, if_true, if_false,
          Nat.add_zero] at h <;>
        simp [creditSplit, read, AllocationRecord.share, Row.Checked, hs, hc,
          Nat.mod_eq_of_lt h]

theorem read_grantedEntry {e : PoolEntry} {r : AllocationRecord} {f : Row}
    (h : e.read f + r.share f < 18446744073709551616) :
    (Impl.grantedEntry e r).read f =
      if f = .own ∨ f = .borrowed then e.read f else e.read f + r.share f := by
  have hsplit := read_creditSplit h
  have hqueue : ((e.creditSplit r).adjustQueue r.queue (r.units.toNat : ℤ)
      (decide (r.state = .reserved))).read f =
      if f.Checked then (e.creditSplit r).read f else (e.creditSplit r).read f + r.share f := by
    apply read_creditQueue
    intro hf
    rw [hsplit, if_pos (Or.inl hf)]
    exact h
  have hsame : (Impl.grantedEntry e r).read f = ((e.creditSplit r).adjustQueue r.queue
      (r.units.toNat : ℤ) (decide (r.state = .reserved))).read f := by
    cases f <;> rfl
  rw [hsame, hqueue, hsplit]
  cases f <;> simp [Row.Checked]

theorem read_creditUsage {e : PoolEntry} {r : AllocationRecord} {f : Row}
    (hb : r.borrowUnits.toNat ≤ r.units.toNat)
    (h : e.read f + r.share f < 18446744073709551616) :
    (e.creditUsage r).read f =
      if f = .own ∨ f = .borrowed then e.read f + r.share f else e.read f := by
  have hborrowed := AllocationRecord.borrowed_eq hb
  cases f with
  | own =>
      simp only [AllocationRecord.share, read, hborrowed] at h
      simp only [creditUsage, read, AllocationRecord.share, hborrowed, true_or, if_true]
      rw [Word.toNat_add (by rw [Word.toNat_sub hb]; exact h), Word.toNat_sub hb]
  | borrowed =>
      simp only [AllocationRecord.share, read, hborrowed] at h
      simp only [creditUsage, read, AllocationRecord.share, hborrowed, or_true, if_true]
      exact Word.toNat_add h
  | _ => simp [creditUsage, read]

theorem read_addLending {e : PoolEntry} {r : AllocationRecord} {f : Row}
    (hb : r.borrowUnits.toNat ≤ r.units.toNat)
    (h : e.read f + r.lentShare f < 18446744073709551616) :
    (e.addLending r.borrowUnits).read f = e.read f + r.lentShare f := by
  have hborrowed := AllocationRecord.borrowed_eq hb
  cases f <;> simp only [addLending, read, AllocationRecord.lentShare, hborrowed,
    Nat.add_zero] at h ⊢
  all_goals exact Word.toNat_add h

/-- A grant adds exactly the share of its record to every row. -/
theorem read_granted {e : PoolEntry} {p : PoolId} {r : AllocationRecord} {f : Row}
    (hr : r.state.holdsUnits) (hb : r.borrowUnits.toNat ≤ r.units.toNat)
    (h : e.read f + r.contrib p f < 18446744073709551616) :
    (e.granted r.pool p r).read f = e.read f + r.contrib p f := by
  have hlend : r.borrowUnits = 0 → r.lentShare f = 0 := by
    intro hz
    have hborrowed := AllocationRecord.borrowed_eq hb
    cases f <;> simp [AllocationRecord.lentShare, hborrowed, hz]
  have hlent : ∀ e' : PoolEntry,
      e'.read f + (if r.lender = p then r.lentShare f else 0) < 18446744073709551616 →
      (if p = r.lender ∧ r.borrowUnits ≠ 0 then e'.addLending r.borrowUnits else e').read f =
        e'.read f + if r.lender = p then r.lentShare f else 0 := by
    intro e' he'
    by_cases hl : p = r.lender ∧ r.borrowUnits ≠ 0
    · rw [if_pos hl.1.symm] at he' ⊢
      rw [if_pos hl]
      exact read_addLending hb he'
    · rw [if_neg hl]
      split
      · rename_i hl'
        have hz : r.borrowUnits = 0 := by
          by_contra hz
          exact hl ⟨hl'.symm, hz⟩
        rw [hlend hz, Nat.add_zero]
      · rfl
  simp only [AllocationRecord.contrib, hr, if_true] at h ⊢
  unfold granted
  by_cases hp : p = r.pool
  · rw [if_pos hp.symm] at h ⊢
    simp only [if_pos hp]
    have husage := read_creditUsage hb (by omega : e.read f + r.share f < 18446744073709551616)
    have hsum : (e.creditUsage r).read f + (if r.lender = p then r.lentShare f else 0) <
        18446744073709551616 := by
      rw [husage]
      split <;> omega
    have hmid := hlent _ hsum
    by_cases hf : f = .own ∨ f = .borrowed
    · rw [if_pos hf] at husage
      have hread : ∀ e' : PoolEntry, (Impl.grantedEntry e' r).read f = e'.read f := by
        intro e'
        rcases hf with rfl | rfl <;>
          cases hs : r.state <;> cases hc : r.reclaimClass <;>
          simp [Impl.grantedEntry, adjustQueue, creditSplit, read, hs, hc]
      rw [hread, hmid, husage]
      omega
    · rw [if_neg hf] at husage
      rw [read_grantedEntry (by rw [hmid, husage]; omega), if_neg hf, hmid, husage]
      omega
  · rw [if_neg (Ne.symm hp)] at h ⊢
    simp only [if_neg hp, Nat.zero_add] at h ⊢
    exact hlent e h

/-- Committing a reservation moves its share from the reserved to the committed rows. -/
theorem read_committedEntry {e : PoolEntry} {r : AllocationRecord} {f : Row}
    (hs : r.state = .reserved) (h : r.share f ≤ e.read f)
    (hfit : e.read f + r.units.toNat < 18446744073709551616) :
    (Impl.committedEntry e r).read f + r.share f =
      e.read f + { r with state := .committed }.share f := by
  have hb : ({ r with state := .committed } : AllocationRecord).borrowed = r.borrowed := rfl
  cases f with
  | queueReserved q =>
      have hq := bucketUnits_debit e.queueReserved r.queue q r.units
      simp only [AllocationRecord.share, hs, read, true_and] at h
      simp only [Impl.committedEntry, adjustQueue, read, AllocationRecord.share, hs, if_true,
        Bool.false_eq_true, if_false, true_and, reduceCtorEq, false_and, hq, Nat.add_zero]
      by_cases hqq : q = r.queue
      · subst hqq
        rw [if_pos rfl] at h ⊢
        rw [if_pos rfl]
        omega
      · simp [hqq, Ne.symm hqq]
  | queueCommitted q =>
      have hq := bucketUnits_credit e.queueCommitted r.queue q r.units
      simp only [read] at hfit
      simp only [Impl.committedEntry, adjustQueue, read, AllocationRecord.share, hs, if_true,
        Bool.false_eq_true, if_false, true_and, reduceCtorEq, false_and, hq, Nat.add_zero,
        ne_eq, not_true_eq_false, not_false_eq_true]
      by_cases hqq : q = r.queue
      · subst hqq
        rw [if_pos rfl, if_pos rfl]
        exact Word.toNat_add hfit
      · simp [hqq, Ne.symm hqq]
  | reserved =>
      simp only [AllocationRecord.share, hs, read, if_true] at h
      simp only [Impl.committedEntry, adjustQueue, read, AllocationRecord.share, hs, if_true,
        Bool.false_eq_true, if_false, reduceCtorEq, Nat.add_zero]
      rw [Word.toNat_sub h]
      omega
  | committed =>
      simp only [read] at hfit
      simp only [Impl.committedEntry, adjustQueue, read, AllocationRecord.share, hs, if_true,
        Bool.false_eq_true, if_false, reduceCtorEq, Nat.add_zero]
      exact Word.toNat_add hfit
  | _ => simp [Impl.committedEntry, adjustQueue, read, AllocationRecord.share, hb]

theorem shape_committedEntry (e : PoolEntry) (r : AllocationRecord) :
    (Impl.committedEntry e r).shape = e.shape := rfl

end PoolEntry

namespace Impl

theorem creditLender_ok {s s' : Impl} {units : UInt64} {lender : PoolId}
    (h : s.creditLender units lender = .ok s') :
    ∃ pools, s' = { s with pools := pools } ∧
      ∀ p, pools.lookup p = (s.pools.lookup p).map fun e ↦
        if p = lender ∧ units ≠ 0 then e.addLending units else e := by
  unfold creditLender at h
  split at h
  · rename_i hz
    refine ⟨s.pools, (Except.ok.inj h).symm, ?_⟩
    intro p
    simp [hz]
  · rename_i hz
    simp only [Outcome.seq_ok, Outcome.require_eq_ok, Outcome.demand_eq_ok, exists_const,
      Outcome.pure_ok] at h
    obtain ⟨_, l, hl, _, _, _, rfl⟩ := h
    refine ⟨s.pools.insert lender (l.addLending units), rfl, ?_⟩
    intro p
    rw [Table.lookup_insert_eq]
    by_cases hp : p = lender
    · subst hp
      simp [hl, hz]
    · simp [hp]

/-- `apply_commit_units` only touches the pools. When it succeeds, the rest of the grant
can be applied to the pool; when it fails some aggregates may have moved, but no
descriptor. -/
theorem applyCommitUnits_spec {s : Impl} {key : PoolId} {entry : PoolEntry}
    {r : AllocationRecord} (hl : s.pools.lookup key = some entry) :
    ∃ pools, (s.applyCommitUnits key entry r.units r.borrowUnits r.lender).2 =
        { s with pools := pools } ∧
      SameShapes s.pools pools ∧
      ((s.applyCommitUnits key entry r.units r.borrowUnits r.lender).1 = .ok () →
        ∃ pools', { s with pools := pools }.modifyPool key (grantedEntry · r) =
            { s with pools := pools' } ∧
          ∀ p, pools'.lookup p = (s.pools.lookup p).map (PoolEntry.granted key p r)) := by
  have same : SameShapes s.pools s.pools := SameShapes.refl _
  unfold applyCommitUnits
  split
  · exact ⟨s.pools, rfl, same, by simp⟩
  split
  · exact ⟨s.pools, rfl, same, by simp⟩
  split
  · exact ⟨s.pools, rfl, same, by simp⟩
  dsimp only
  split
  · exact ⟨s.pools.insert key (entry.creditUsage r), rfl, SameShapes.insert hl rfl, by simp⟩
  rename_i s₂ h₂
  obtain ⟨pools₂, rfl, hlender⟩ := creditLender_ok h₂
  have hpools₂ : ∀ p, pools₂.lookup p = (s.pools.lookup p).map fun e ↦
      let e := if p = key then e.creditUsage r else e
      if p = r.lender ∧ r.borrowUnits ≠ 0 then e.addLending r.borrowUnits else e := by
    intro p
    rw [hlender]
    simp only [putPool]
    rw [Table.lookup_insert_eq]
    by_cases hp : p = key
    · subst hp
      simp [hl, PoolEntry.creditUsage]
    · simp [hp]
  have hshapes : SameShapes s.pools pools₂ := by
    apply SameShapes.of_map _ hpools₂
    intro p e
    dsimp only
    split <;> split <;> rfl
  refine ⟨pools₂, rfl, hshapes, fun _ ↦ ?_⟩
  have hself : pools₂.lookup key = some
      (let e := entry.creditUsage r
       if key = r.lender ∧ r.borrowUnits ≠ 0 then e.addLending r.borrowUnits else e) := by
    rw [hpools₂, hl]
    simp
  refine ⟨_, by simp only [modifyPool, hself, putPool]; rfl, ?_⟩
  intro p
  rw [Table.lookup_insert_eq]
  by_cases hp : p = key
  · subst hp
    rw [if_pos rfl, hl]
    simp [PoolEntry.granted]
  · rw [if_neg hp, hpools₂]
    congr 1
    funext e
    simp [PoolEntry.granted, hp]

/-- What `apply_commit_units` asks of the lender. -/
theorem creditLender_iff {s : Impl} {units : UInt64} {lender : PoolId} :
    (∃ s', s.creditLender units lender = .ok s') ↔
      (units ≠ 0 → lender.Valid ∧ ∃ l, s.pools.lookup lender = some l ∧
        l.lentOut.toNat + units.toNat < 18446744073709551616 ∧
        l.ownUsage.toNat + units.toNat < 18446744073709551616 ∧
        l.ownUsage.toNat + units.toNat ≤ l.usable.toNat + 1152921504606846976) := by
  have hsat : ∀ l : PoolEntry, l.ownUsage.toNat + units.toNat < 18446744073709551616 →
      (l.ownUsage + units ≤ satAdd l.usable kMaxOvercommitUnits ↔
        l.ownUsage.toNat + units.toNat ≤ l.usable.toNat + 1152921504606846976) := by
    intro l hl
    rw [Word.le_iff, toNat_satAdd, Word.toNat_add hl]
    change _ ≤ min (l.usable.toNat + 1152921504606846976) 18446744073709551615 ↔ _
    omega
  unfold creditLender
  by_cases hz : units = 0
  · simp [hz]
  rw [if_neg hz]
  simp only [Outcome.seq_ok, Outcome.require_eq_ok, Outcome.demand_eq_ok, exists_const,
    Outcome.pure_ok, addOverflow_iff, Nat.not_le]
  constructor
  · rintro ⟨s', hv, l, hl, hlent, hown, hroom, -⟩ -
    exact ⟨hv, l, hl, hlent, hown, (hsat l hown).mp hroom⟩
  · intro h
    obtain ⟨hv, l, hl, hlent, hown, hroom⟩ := h hz
    exact ⟨_, hv, l, hl, hlent, hown, (hsat l hown).mpr hroom, rfl⟩

/-- Where the pool itself has room, adding the units of a grant is up to the lender; when the lender
refuses, the pool has been credited. -/
theorem applyCommitUnits_fitted (s : Impl) (key : PoolId) {entry : PoolEntry}
    {r : AllocationRecord} (hb : r.borrowUnits.toNat ≤ r.units.toNat)
    (hown : entry.ownUsage.toNat + (r.units.toNat - r.borrowUnits.toNat) < 18446744073709551616)
    (hin : entry.borrowedIn.toNat + r.borrowUnits.toNat < 18446744073709551616) :
    ((s.applyCommitUnits key entry r.units r.borrowUnits r.lender).1 = .ok () ↔
      ∃ s', (s.putPool key (entry.creditUsage r)).creditLender r.borrowUnits r.lender = .ok s') ∧
    ∀ e t, s.applyCommitUnits key entry r.units r.borrowUnits r.lender = (.error e, t) →
      t = s.putPool key (entry.creditUsage r) := by
  have h₁ : ¬r.units < r.borrowUnits := by
    rw [Word.lt_iff]
    omega
  have h₂ : ¬AddOverflow entry.ownUsage (r.units - r.borrowUnits) := by
    rw [addOverflow_iff, Word.toNat_sub hb]
    omega
  have h₃ : ¬AddOverflow entry.borrowedIn r.borrowUnits := by
    rw [addOverflow_iff]
    omega
  have hput : s.putPool key { entry with
      ownUsage := entry.ownUsage + (r.units - r.borrowUnits)
      borrowedIn := entry.borrowedIn + r.borrowUnits } = s.putPool key (entry.creditUsage r) := rfl
  simp only [applyCommitUnits, h₁, h₂, h₃, if_false, hput]
  rcases (s.putPool key (entry.creditUsage r)).creditLender r.borrowUnits r.lender with e | s'
  · simp
  · simp

/-- Where there is room, adding the units of a grant succeeds. -/
theorem applyCommitUnits_fits {s : Impl} {key : PoolId} {entry : PoolEntry}
    {r : AllocationRecord} (hb : r.borrowUnits.toNat ≤ r.units.toNat)
    (hown : entry.ownUsage.toNat + r.units.toNat < 18446744073709551616)
    (hin : entry.borrowedIn.toNat + r.borrowUnits.toNat < 18446744073709551616)
    (hlend : r.borrowUnits ≠ 0 → r.lender.Valid ∧ r.lender ≠ key ∧
      ∃ l, s.pools.lookup r.lender = some l ∧
        l.lentOut.toNat + r.borrowUnits.toNat < 18446744073709551616 ∧
        l.ownUsage.toNat + r.borrowUnits.toNat ≤ l.usable.toNat) :
    (s.applyCommitUnits key entry r.units r.borrowUnits r.lender).1 = .ok () := by
  refine (applyCommitUnits_fitted _ _ hb (by omega) hin).1.mpr (creditLender_iff.mpr fun hne ↦ ?_)
  obtain ⟨hv, hother, l, hl, hlent, hroom⟩ := hlend hne
  have husable := Word.toNat_lt l.usable
  refine ⟨hv, l, ?_, hlent, by omega, by omega⟩
  simp only [putPool]
  rwa [Table.lookup_insert_eq, if_neg hother]

end Impl

end BufferFabric
