import BufferFabric.Requests

/-!
# The sound ledger

The invariant of the ledger: every row of every pool is the sum of the shares of the
allocation records, and nothing has wrapped. A grant may take an id that is already in use
(see the modules on freshness); the record it overwrites keeps its units, so the invariant
carries the list of records that were lost that way.
-/

namespace BufferFabric

open Outcome

/-! ### Definition -/

structure AllocationRecord.Placed (pools : Table PoolId PoolEntry) (r : AllocationRecord) :
    Prop where
  pos : 0 < r.units.toNat
  le_max : r.units.toNat ≤ 1152921504606846976
  borrow_le : r.borrowUnits.toNat ≤ r.units.toNat
  pool : ∃ e, pools.lookup r.pool = some e
  lender : r.borrowUnits ≠ 0 →
    r.lender.Valid ∧ r.lender ≠ r.pool ∧ ∃ e, pools.lookup r.lender = some e

/-- The value a row should have: the shares of all records and of the lost ones. -/
def Impl.books (s : Impl) (lost : List AllocationRecord) (p : PoolId) (f : Row) : ℕ :=
  Table.total (fun _ r ↦ r.contrib p f) s.allocations + (lost.map (·.contrib p f)).sum

def Ranked (pools : Table PoolId PoolEntry) (rank : PoolId → ℕ) : Prop :=
  ∀ p e, pools.lookup p = some e → e.descriptor.parent.Valid →
    (∃ e', pools.lookup e.descriptor.parent = some e') ∧ rank e.descriptor.parent < rank p

structure Sound (s : Impl) (lost : List AllocationRecord) : Prop where
  allocation_id : ∀ k r, s.allocations.lookup k = some r → r.id = k
  allocation_units : ∀ k r, s.allocations.lookup k = some r →
    r.units.toNat ≤ 1152921504606846976
  placed : ∀ k r, s.allocations.lookup k = some r → r.state.holdsUnits = true → r.Placed s.pools
  lost_placed : ∀ r ∈ lost, r.state.holdsUnits = true ∧ r.Placed s.pools
  pool_id : ∀ p e, s.pools.lookup p = some e → e.descriptor.id = p ∧ e.descriptor.IsValid
  policy_id : ∀ k p, s.policies.lookup k = some p → p.id = k ∧ p.IsValid
  rows : ∀ p e, s.pools.lookup p = some e → ∀ f, e.read f = s.books lost p f
  own_le : ∀ p e, s.pools.lookup p = some e → e.ownUsage.toNat ≤ 2305843009213693952
  borrowed_le : ∀ p e, s.pools.lookup p = some e → e.borrowedIn.toNat ≤ 1152921504606846976
  ranked : ∃ rank, Ranked s.pools rank

/-! ### Shares -/

namespace AllocationRecord

theorem contrib_le_own_borrowed (r : AllocationRecord) (p : PoolId) (f : Row) :
    r.contrib p f ≤ r.contrib p .own + r.contrib p .borrowed := by
  have hb := r.borrowed_le
  have hs := r.share_le f
  have hl : r.lentShare f ≤ r.lentShare .own := by
    cases f <;> simp [lentShare]
  have hsum : r.share .own + r.share .borrowed = r.units.toNat := by
    simp only [share]
    omega
  unfold contrib
  split
  · split <;> split <;> omega
  · omega

/-- The share of a record depends on its place and its units only. -/
theorem contrib_congr {r r' : AllocationRecord} (hstate : r'.state = r.state)
    (hpool : r'.pool = r.pool) (hqueue : r'.queue = r.queue)
    (hclass : r'.reclaimClass = r.reclaimClass) (hunits : r'.units = r.units)
    (hborrow : r'.borrowUnits = r.borrowUnits) (hlender : r'.lender = r.lender)
    (p : PoolId) (f : Row) : r'.contrib p f = r.contrib p f := by
  have hb : r'.borrowed = r.borrowed := by
    unfold borrowed
    rw [hunits, hborrow]
  have hs : r'.share f = r.share f := by
    cases f <;> simp only [share, hstate, hqueue, hclass, hunits, hb]
  have hl : r'.lentShare f = r.lentShare f := by
    cases f <;> simp only [lentShare, hb]
  unfold contrib
  rw [hstate, hpool, hlender, hs, hl]

namespace Placed

variable {pools pools' : Table PoolId PoolEntry} {r : AllocationRecord}

theorem mono (hle : ∀ p e, pools.lookup p = some e → ∃ e', pools'.lookup p = some e')
    (h : r.Placed pools) : r.Placed pools' := by
  refine ⟨h.pos, h.le_max, h.borrow_le, ?_, ?_⟩
  · obtain ⟨e, he⟩ := h.pool
    exact hle _ _ he
  · intro hb
    obtain ⟨hv, hne, e, he⟩ := h.lender hb
    exact ⟨hv, hne, hle _ _ he⟩

theorem borrowed_eq (h : r.Placed pools) : r.borrowed = r.borrowUnits :=
  AllocationRecord.borrowed_eq h.borrow_le

/-- A record adds nothing to a pool that is not registered. -/
theorem contrib_eq_zero (h : r.Placed pools) {p : PoolId} (hp : pools.lookup p = none) (f : Row) :
    r.contrib p f = 0 := by
  have hpool : r.pool ≠ p := by
    rintro rfl
    obtain ⟨e, he⟩ := h.pool
    rw [hp] at he
    cases he
  have hlent : (if r.lender = p then r.lentShare f else 0) = 0 := by
    split
    · rename_i hl
      by_cases hb : r.borrowUnits = 0
      · cases f <;> simp [lentShare, h.borrowed_eq, hb]
      · obtain ⟨-, -, e, he⟩ := h.lender hb
        rw [hl, hp] at he
        cases he
    · rfl
  simp [contrib, hpool, hlent]

end Placed

/-- The whole allocation is released, or the product that splits its borrowed part fits in
64 bits. -/
def ExactSplit (r : AllocationRecord) (units : UInt64) : Prop :=
  units = r.units ∨ r.borrowed.toNat * units.toNat < 18446744073709551616

instance (r : AllocationRecord) (units : UInt64) : Decidable (r.ExactSplit units) :=
  inferInstanceAs (Decidable (_ ∨ _))

/-- The borrowed part that goes back with a partial release, and what it leaves. -/
theorem releasedBorrow_bounds {r : AllocationRecord} {units : UInt64}
    (hb : r.borrowUnits.toNat ≤ r.units.toNat) (hlt : units.toNat < r.units.toNat)
    (hexact : r.borrowed.toNat * units.toNat < 18446744073709551616) :
    (Impl.releasedBorrow r units).toNat ≤ units.toNat ∧
      (Impl.releasedBorrow r units).toNat ≤ r.borrowUnits.toNat ∧
      r.borrowUnits.toNat - (Impl.releasedBorrow r units).toNat ≤
        r.units.toNat - units.toNat := by
  have hne : units ≠ r.units := by
    rintro rfl
    omega
  have hval : (Impl.releasedBorrow r units).toNat =
      r.borrowUnits.toNat * units.toNat / r.units.toNat := by
    unfold Impl.releasedBorrow
    rw [if_neg hne, UInt64.toNat_div, UInt64.toNat_mul, borrowed_eq hb]
    rw [borrowed_eq hb] at hexact
    congr 1
    exact Nat.mod_eq_of_lt hexact
  rw [hval]
  generalize r.borrowUnits.toNat = b at *
  generalize r.units.toNat = n at *
  generalize units.toNat = u at *
  refine ⟨?_, ?_, ?_⟩
  · apply Nat.div_le_of_le_mul
    exact Nat.mul_le_mul_right u hb
  · apply Nat.div_le_of_le_mul
    rw [Nat.mul_comm]
    exact Nat.mul_le_mul_right b hlt.le
  · have hdiv := Word.add_sub_le_mul_div hb hlt.le
    omega

/-- The parts of a split record, in numbers. -/
theorem split_values {s : Impl} {r : AllocationRecord} {units : UInt64}
    (hb : r.borrowUnits.toNat ≤ r.units.toNat) (hlt : units.toNat < r.units.toNat)
    (hexact : r.borrowed.toNat * units.toNat < 18446744073709551616) :
    ∃ left : AllocationRecord, s.remainder r units = left ∧ left.state = r.state ∧
      left.pool = r.pool ∧ left.queue = r.queue ∧ left.reclaimClass = r.reclaimClass ∧
      left.lender = r.lender ∧ left.id = r.id ∧
      left.units.toNat = r.units.toNat - units.toNat ∧
      left.borrowUnits.toNat = r.borrowUnits.toNat - (Impl.releasedBorrow r units).toNat := by
  obtain ⟨-, hrb, -⟩ := releasedBorrow_bounds hb hlt hexact
  have hunits : (r.units - units).toNat = r.units.toNat - units.toNat := Word.toNat_sub hlt.le
  have hne : ¬r.units - units = 0 := by
    rw [Word.eq_zero_iff, hunits]
    omega
  refine ⟨_, rfl, ?_⟩
  unfold Impl.remainder
  dsimp only
  rw [if_neg hne]
  refine ⟨rfl, rfl, rfl, rfl, rfl, rfl, hunits, ?_⟩
  dsimp only
  rw [borrowed_eq hb]
  exact Word.toNat_sub hrb

theorem releasedPart_all_contrib (s : Impl) (r : AllocationRecord)
    (hb : r.borrowUnits.toNat ≤ r.units.toNat) (p : PoolId) (f : Row) :
    (s.releasedPart r r.units).contrib p f = r.contrib p f := by
  have hborrow : (s.releasedPart r r.units).borrowUnits = r.borrowUnits := by
    change Impl.releasedBorrow r r.units = r.borrowUnits
    unfold Impl.releasedBorrow
    rw [if_pos rfl, borrowed_eq hb]
  refine contrib_congr ?_ ?_ ?_ ?_ ?_ hborrow ?_ p f <;> rfl

theorem remainder_all_state (s : Impl) (r : AllocationRecord) :
    (s.remainder r r.units).state = .released := by
  unfold Impl.remainder
  simp

/-- A release splits the shares of the record exactly. -/
theorem contrib_split {s : Impl} {r : AllocationRecord} {units : UInt64}
    (hb : r.borrowUnits.toNat ≤ r.units.toNat) (hle : units.toNat ≤ r.units.toNat)
    (hexact : r.ExactSplit units) (p : PoolId) (f : Row) :
    (s.releasedPart r units).contrib p f + (s.remainder r units).contrib p f = r.contrib p f := by
  by_cases hall : units = r.units
  · subst hall
    have hzero : (s.remainder r r.units).contrib p f = 0 := by
      apply contrib_of_not_holds
      rw [remainder_all_state]
      rfl
    rw [releasedPart_all_contrib s r hb, hzero]
    rfl
  · have hlt : units.toNat < r.units.toNat := by
      have hne : units.toNat ≠ r.units.toNat := fun h ↦ hall (Word.eq_of_toNat h)
      omega
    have hprod := hexact.resolve_left hall
    obtain ⟨hbu, hbr, hbl⟩ := releasedBorrow_bounds hb hlt hprod
    obtain ⟨left, hleft, hstate, hpool, hqueue, hclass, hlender, -, hunits, hborrow⟩ :=
      split_values (s := s) hb hlt hprod
    have hpartb : (s.releasedPart r units).borrowed = Impl.releasedBorrow r units :=
      borrowed_eq hbu
    have hleftb : left.borrowed = left.borrowUnits := borrowed_eq (by omega)
    have hrb := borrowed_eq hb
    have hshare : (s.releasedPart r units).share f + left.share f = r.share f := by
      have hpu : (s.releasedPart r units).units = units := rfl
      have hps : (s.releasedPart r units).state = r.state := rfl
      have hpq : (s.releasedPart r units).queue = r.queue := rfl
      have hpc : (s.releasedPart r units).reclaimClass = r.reclaimClass := rfl
      cases f <;>
        simp only [share, hpartb, hleftb, hrb, hpu, hps, hpq, hpc, hstate, hqueue, hclass,
          hunits, hborrow] <;>
        (try split) <;> omega
    have hlent : (s.releasedPart r units).lentShare f + left.lentShare f = r.lentShare f := by
      cases f <;> simp only [lentShare, hpartb, hleftb, hrb, hborrow] <;> omega
    rw [hleft]
    unfold contrib
    rw [hstate, hpool, hlender]
    have hps : (s.releasedPart r units).state = r.state := rfl
    have hpp : (s.releasedPart r units).pool = r.pool := rfl
    have hpl : (s.releasedPart r units).lender = r.lender := rfl
    rw [hps, hpp, hpl]
    split
    · split <;> split <;> omega
    · rfl

end AllocationRecord

/-! ### One step of the ledger -/

theorem Impl.books_congr {s t : Impl} {lost : List AllocationRecord}
    (h : t.allocations = s.allocations) (p : PoolId) (f : Row) :
    t.books lost p f = s.books lost p f := by
  unfold Impl.books
  rw [h]

/-- Replacing one record exchanges its share. -/
theorem Impl.books_insert {s t : Impl} (lost : List AllocationRecord) {key : AllocationId}
    {r r' : AllocationRecord} (hr : s.allocations.lookup key = some r)
    (h : t.allocations = s.allocations.insert key r') (p : PoolId) (f : Row) :
    t.books lost p f + r.contrib p f = s.books lost p f + r'.contrib p f := by
  have htotal := Table.total_replace (fun _ r ↦ r.contrib p f) r' hr
  unfold Impl.books
  rw [h]
  omega

/-- The nearest ancestor with free capacity. -/
theorem Impl.findLender_spec {s : Impl}
    (hid : ∀ p e, s.pools.lookup p = some e → e.descriptor.id = p) {rank : PoolId → ℕ}
    (hrank : ∀ p e, s.pools.lookup p = some e → e.descriptor.parent.Valid →
      rank e.descriptor.parent ≤ rank p)
    {fuel : ℕ} {cursor lender : PoolId} {free : UInt64}
    (hres : s.findLender fuel cursor = (lender, free)) (hfree : free ≠ 0) :
    lender.Valid ∧ rank lender ≤ rank cursor ∧
      ∃ e, s.pools.lookup lender = some e ∧ e.freeUnits = free := by
  have hnone : ∀ {l : PoolId} {u : UInt64}, ((default : PoolId), (0 : UInt64)) = (l, u) → u = 0 :=
    fun h ↦ (congrArg Prod.snd h).symm
  induction fuel generalizing cursor with
  | zero => exact absurd (hnone hres) hfree
  | succ fuel ih =>
      unfold Impl.findLender at hres
      split at hres
      · rename_i hv
        split at hres
        · exact absurd (hnone hres) hfree
        · rename_i ancestor hl
          split at hres
          · rw [hid cursor ancestor hl] at hres
            obtain ⟨rfl, rfl⟩ := Prod.mk.inj hres
            exact ⟨hv, Nat.le_refl _, ancestor, hl, rfl⟩
          · have hparent : ancestor.descriptor.parent.Valid := by
              by_contra hnv
              cases fuel with
              | zero => exact hfree (hnone hres)
              | succ fuel =>
                  unfold Impl.findLender at hres
                  rw [if_neg hnv] at hres
                  exact hfree (hnone hres)
            have hle₀ := hrank cursor ancestor hl hparent
            obtain ⟨hv', hle, hentry⟩ := ih hres
            exact ⟨hv', by omega, hentry⟩
      · exact absurd (hnone hres) hfree

namespace Sound

variable {s t : Impl} {lost lost' : List AllocationRecord}

/-- The invariant reads the pools, the allocations and the policies only. -/
theorem congr (h : Sound s lost) (ha : t.allocations = s.allocations) (hp : t.pools = s.pools)
    (ho : t.policies = s.policies) : Sound t lost := by
  refine ⟨?_, ?_, ?_, ?_, ?_, ?_, ?_, ?_, ?_, ?_⟩
  · rw [ha]; exact h.allocation_id
  · rw [ha]; exact h.allocation_units
  · rw [ha, hp]; exact h.placed
  · rw [hp]; exact h.lost_placed
  · rw [hp]; exact h.pool_id
  · rw [ho]; exact h.policy_id
  · intro p e he f
    rw [Impl.books_congr ha]
    rw [hp] at he
    exact h.rows p e he f
  · rw [hp]; exact h.own_le
  · rw [hp]; exact h.borrowed_le
  · rw [hp]; exact h.ranked

/-- The share of a stored record is part of every row. -/
theorem contrib_le (h : Sound s lost) {k : AllocationId} {r : AllocationRecord}
    (hr : s.allocations.lookup k = some r) {p : PoolId} {e : PoolEntry}
    (he : s.pools.lookup p = some e) (f : Row) : r.contrib p f ≤ e.read f := by
  have hle := Table.le_total (fun _ r ↦ r.contrib p f) hr
  rw [h.rows p e he f]
  unfold Impl.books
  omega

/-- No row exceeds the own usage and the borrowed units together. -/
theorem read_le (h : Sound s lost) {p : PoolId} {e : PoolEntry}
    (he : s.pools.lookup p = some e) (f : Row) :
    e.read f ≤ e.ownUsage.toNat + e.borrowedIn.toNat := by
  have hown : e.ownUsage.toNat = s.books lost p .own := h.rows p e he .own
  have hborrowed : e.borrowedIn.toNat = s.books lost p .borrowed := h.rows p e he .borrowed
  rw [h.rows p e he f, hown, hborrowed]
  have htable : Table.total (fun _ r ↦ r.contrib p f) s.allocations ≤
      Table.total (fun _ r ↦ r.contrib p .own) s.allocations +
        Table.total (fun _ r ↦ r.contrib p .borrowed) s.allocations := by
    rw [← Table.total_add]
    exact Table.total_mono fun _ r _ ↦ r.contrib_le_own_borrowed p f
  have hlist : ∀ l : List AllocationRecord, (l.map (·.contrib p f)).sum ≤
      (l.map (·.contrib p .own)).sum + (l.map (·.contrib p .borrowed)).sum := by
    intro l
    induction l with
    | nil => exact Nat.le_refl _
    | cons r l ih =>
        have hr := r.contrib_le_own_borrowed p f
        simp only [List.map_cons, List.sum_cons]
        omega
  have := hlist lost
  unfold Impl.books
  omega

theorem read_bound (h : Sound s lost) {p : PoolId} {e : PoolEntry}
    (he : s.pools.lookup p = some e) (f : Row) : e.read f ≤ 3458764513820540928 := by
  have h₁ := h.read_le he f
  have h₂ := h.own_le p e he
  have h₃ := h.borrowed_le p e he
  omega

/-- A step that changes the pools entry by entry and keeps their descriptors. -/
theorem step (h : Sound s lost) (ho : t.policies = s.policies)
    {g : PoolId → PoolEntry → PoolEntry} (hshape : ∀ p e, (g p e).shape = e.shape)
    (hpools : ∀ p, t.pools.lookup p = (s.pools.lookup p).map (g p))
    (halloc : ∀ k r, t.allocations.lookup k = some r → r.id = k ∧
      r.units.toNat ≤ 1152921504606846976 ∧ (r.state.holdsUnits = true → r.Placed s.pools))
    (hlost : ∀ r ∈ lost', r.state.holdsUnits = true ∧ r.Placed s.pools)
    (hrows : ∀ p e, s.pools.lookup p = some e → ∀ f, (g p e).read f = t.books lost' p f)
    (hown : ∀ p e, s.pools.lookup p = some e → (g p e).ownUsage.toNat ≤ 2305843009213693952)
    (hborrowed : ∀ p e, s.pools.lookup p = some e →
      (g p e).borrowedIn.toNat ≤ 1152921504606846976) : Sound t lost' := by
  have hsome : ∀ p e', t.pools.lookup p = some e' →
      ∃ e, s.pools.lookup p = some e ∧ e' = g p e := by
    intro p e' he'
    rw [hpools] at he'
    obtain ⟨e, he, rfl⟩ := Option.map_eq_some_iff.mp he'
    exact ⟨e, he, rfl⟩
  have hkeep : ∀ p e, s.pools.lookup p = some e → ∃ e', t.pools.lookup p = some e' := by
    intro p e he
    exact ⟨g p e, by rw [hpools, he, Option.map_some]⟩
  refine ⟨fun k r hr ↦ (halloc k r hr).1, fun k r hr ↦ (halloc k r hr).2.1,
    fun k r hr hholds ↦ ((halloc k r hr).2.2 hholds).mono hkeep,
    fun r hr ↦ ⟨(hlost r hr).1, (hlost r hr).2.mono hkeep⟩, ?_, ?_, ?_, ?_, ?_, ?_⟩
  · intro p e' he'
    obtain ⟨e, he, rfl⟩ := hsome p e' he'
    rw [PoolEntry.descriptor_eq_of_shape (hshape p e)]
    exact h.pool_id p e he
  · rw [ho]
    exact h.policy_id
  · intro p e' he' f
    obtain ⟨e, he, rfl⟩ := hsome p e' he'
    exact hrows p e he f
  · intro p e' he'
    obtain ⟨e, he, rfl⟩ := hsome p e' he'
    exact hown p e he
  · intro p e' he'
    obtain ⟨e, he, rfl⟩ := hsome p e' he'
    exact hborrowed p e he
  · obtain ⟨rank, hrank⟩ := h.ranked
    refine ⟨rank, ?_⟩
    intro p e' he' hv
    obtain ⟨e, he, rfl⟩ := hsome p e' he'
    rw [PoolEntry.descriptor_eq_of_shape (hshape p e)] at hv ⊢
    obtain ⟨⟨pe, hpe⟩, hlt⟩ := hrank p e he hv
    exact ⟨hkeep _ _ hpe, hlt⟩

/-- Returning a part of a record and keeping the rest. -/
theorem returnUnits (h : Sound s lost) {key : AllocationId} {r part left : AllocationRecord}
    (hr : s.allocations.lookup key = some r) (hholds : part.state.holdsUnits = true)
    (hsplit : ∀ p f, part.contrib p f + left.contrib p f = r.contrib p f)
    (hleft : left.id = r.id ∧ left.units.toNat ≤ 1152921504606846976 ∧
      (left.state.holdsUnits = true → left.Placed s.pools))
    (hpools : ∀ p, t.pools.lookup p = (s.pools.lookup p).map (PoolEntry.returned p part))
    (ha : t.allocations = s.allocations.insert key left) (ho : t.policies = s.policies) :
    Sound t lost := by
  have hread : ∀ p e, s.pools.lookup p = some e → ∀ f,
      (PoolEntry.returned p part e).read f + part.contrib p f = e.read f := by
    intro p e he f
    have hle := h.contrib_le hr he f
    have := hsplit p f
    exact PoolEntry.read_returned hholds (by omega)
  refine h.step ho (fun p e ↦ PoolEntry.shape_returned p part e) hpools ?_ h.lost_placed ?_ ?_ ?_
  · intro k r' hr'
    rw [ha, Table.lookup_insert_eq] at hr'
    split at hr'
    · rename_i hk
      have hr' := Option.some.inj hr'
      subst hr'
      rw [hleft.1, hk]
      exact ⟨h.allocation_id key r hr, hleft.2⟩
    · exact ⟨h.allocation_id k r' hr', h.allocation_units k r' hr', h.placed k r' hr'⟩
  · intro p e he f
    have h₁ := hread p e he f
    have h₂ := h.rows p e he f
    have h₃ := Impl.books_insert lost hr ha p f
    have h₄ := hsplit p f
    omega
  · intro p e he
    have h₁ := hread p e he .own
    have h₂ := h.own_le p e he
    simp only [PoolEntry.read] at h₁
    omega
  · intro p e he
    have h₁ := hread p e he .borrowed
    have h₂ := h.borrowed_le p e he
    simp only [PoolEntry.read] at h₁
    omega

/-- In a sound ledger the units of a record, or of an exact part of it, can be returned. -/
theorem applyReleaseUnits_ok (h : Sound s lost) {key : AllocationId} {r part : AllocationRecord}
    {entry : PoolEntry} (hr : s.allocations.lookup key = some r)
    (hholds : r.state.holdsUnits = true) (hl : s.pools.lookup r.pool = some entry)
    (hstate : part.state = r.state) (hpool : part.pool = r.pool) (hlender : part.lender = r.lender)
    (hle : ∀ p f, part.contrib p f ≤ r.contrib p f) :
    (s.applyReleaseUnits r.pool entry part).1 = .ok () := by
  have hplaced := h.placed key r hr hholds
  have hcontrib : ∀ p f, part.contrib p f =
      (if part.pool = p then part.share f else 0) +
        (if part.lender = p then part.lentShare f else 0) := by
    intro p f
    unfold AllocationRecord.contrib
    rw [hstate, if_pos hholds]
  have hborrow : part.borrowed ≠ 0 → r.borrowUnits ≠ 0 := by
    intro hb hz
    have h₁ := hle r.pool .borrowed
    have h₂ := hcontrib r.pool .borrowed
    rw [if_pos hpool] at h₂
    have h₃ : part.share .borrowed = part.borrowed.toNat := rfl
    have h₄ : r.contrib r.pool .borrowed = 0 := by
      have hb' : r.borrowed = 0 := by rw [hplaced.borrowed_eq, hz]
      simp [AllocationRecord.contrib, AllocationRecord.share, AllocationRecord.lentShare, hb']
    rw [Word.ne_zero_iff] at hb
    omega
  have hread : ∀ {p e}, s.pools.lookup p = some e → ∀ f, part.contrib p f ≤ e.read f :=
    fun he f ↦ (hle _ f).trans (h.contrib_le hr he f)
  have hshare : ∀ f, part.share f ≤ entry.read f := by
    intro f
    have h₁ := hread hl f
    have h₂ := hcontrib r.pool f
    rw [if_pos hpool] at h₂
    omega
  rw [← hpool] at hl ⊢
  refine (Impl.applyReleaseUnits_borne (hstate ▸ hholds) hl ⟨hshare .own, hshare .borrowed,
    hshare .reserved, hshare .committed⟩).1.mpr ⟨⟨hshare .pinned, hshare .reclaimable⟩, ?_⟩
  intro hb
  obtain ⟨hv, -, l, hlook⟩ := hplaced.lender (hborrow hb)
  rw [← hlender] at hv hlook
  exact ⟨hv, l, hlook, hread hlook .lent, hread hlook .own⟩

/-! ### Lenders -/

/-- What a sound ledger adds to the plan of a grant: the record is placed, and both pools
have room for it. -/
theorem grant_placed (h : Sound s lost) {key : PoolId} {entry : PoolEntry} {policy : PoolPolicy}
    {r : AllocationRecord} (hfits : GrantFits s key entry policy r) :
    r.pool = key ∧ r.Placed s.pools ∧
      entry.ownUsage.toNat + (r.units.toNat - r.borrowUnits.toNat) ≤ 2305843009213693952 ∧
      entry.borrowedIn.toNat + r.borrowUnits.toNat ≤ 1152921504606846976 ∧
      (r.borrowUnits ≠ 0 → ∃ l, s.pools.lookup r.lender = some l ∧
        l.ownUsage.toNat + r.borrowUnits.toNat ≤ l.usable.toNat) := by
  obtain ⟨hid, hvalid⟩ := h.pool_id key entry hfits.pool_lookup
  obtain ⟨-, hpolicy⟩ := h.policy_id _ policy hfits.policy_lookup
  obtain ⟨-, hallow, hlimit⟩ := hpolicy.limits
  have hpool : r.pool = key := hfits.pool_eq.trans hid
  obtain ⟨rank, hrank⟩ := h.ranked
  have hlender : r.borrowUnits ≠ 0 → r.lender.Valid ∧ r.lender ≠ r.pool ∧
      ∃ l, s.pools.lookup r.lender = some l ∧
        l.ownUsage.toNat + r.borrowUnits.toNat ≤ l.usable.toNat := by
    intro hb
    obtain ⟨heq, hle⟩ := hfits.lender hb
    rcases hres : s.findLender kMaxPoolDepth entry.descriptor.parent with ⟨lender, free⟩
    rw [hres] at heq hle
    simp only at heq hle
    subst heq
    have hfree : free ≠ 0 := by
      rw [Word.ne_zero_iff] at hb ⊢
      omega
    obtain ⟨hv, hrk, l, hl, hlf⟩ := Impl.findLender_spec (fun p e he ↦ (h.pool_id p e he).1)
      (fun p e he hv ↦ (hrank p e he hv).2.le) hres hfree
    have hparent : entry.descriptor.parent.Valid := by
      by_contra hnv
      have hnone : s.findLender kMaxPoolDepth entry.descriptor.parent = (default, 0) := by
        rw [kMaxPoolDepth, Impl.findLender, if_neg hnv]
      rw [hnone] at hres
      exact hfree (congrArg Prod.snd hres).symm
    obtain ⟨-, hlt⟩ := hrank key entry hfits.pool_lookup hparent
    have hroom := l.freeUnits_toNat
    rw [hlf] at hroom
    refine ⟨hv, ?_, l, hl, ?_⟩
    · intro hsame
      rw [hsame, hpool] at hrk
      omega
    · rw [Word.ne_zero_iff] at hfree
      omega
  have husable : entry.usable.toNat ≤ 1152921504606846976 := by
    obtain ⟨-, -, -, hraw, hprot, -⟩ := PoolDescriptor.isValid_iff.mp hvalid
    unfold PoolEntry.usable PoolDescriptor.usableUnits
    rw [if_pos hprot, Word.toNat_sub (Word.le_iff.mp hprot)]
    have hraw : entry.descriptor.rawUnits.toNat ≤ 1152921504606846976 := Word.le_iff.mp hraw
    omega
  refine ⟨hpool, ⟨hfits.pos, hfits.le_max, hfits.borrow_le, ?_, ?_⟩, ?_, ?_, ?_⟩
  · rw [hpool]
    exact ⟨entry, hfits.pool_lookup⟩
  · intro hb
    obtain ⟨hv, hne, l, hl, -⟩ := hlender hb
    exact ⟨hv, hne, l, hl⟩
  · have h₁ := hfits.own
    have h₂ := h.own_le key entry hfits.pool_lookup
    omega
  · by_cases hb : r.borrowUnits = 0
    · have := h.borrowed_le key entry hfits.pool_lookup
      rw [hb, UInt64.toNat_zero]
      omega
    · have := hfits.borrowed hb
      omega
  · intro hb
    obtain ⟨-, -, l, hl, hroom⟩ := hlender hb
    exact ⟨l, hl, hroom⟩

end Sound

end BufferFabric
