import BufferFabric.Verification

/-!
# False alarms

When the aggregates are exact and every pool closes, the global check can still fail: a
borrowed part may have lost one of its two pools, and the totals of all pools may leave 64
bits. Nothing else makes it fail.
-/

namespace BufferFabric

/-! ### The check of one pool -/

theorem poolViolations_nil (a : PoolAccounting) (mode : OvercommitMode) (limit : UInt64) :
    poolViolations a mode limit = [] ↔
      ¬a.raw < a.protectedUnits ∧
      a.usable = (if a.protectedUnits ≤ a.raw then a.raw - a.protectedUnits else 0) ∧
      (¬AddOverflow a.reserved a.committed ∧ a.reserved + a.committed = a.allocated) ∧
      (¬AddOverflow a.pinned a.reclaimable ∧ a.pinned + a.reclaimable = a.allocated) ∧
      (¬((AddOverflow a.raw a.borrowedIn ∨ AddOverflow (a.raw + a.borrowedIn) a.overcommitUsed) ∨
        (AddOverflow a.protectedUnits a.allocated ∨
          AddOverflow (a.protectedUnits + a.allocated) a.free ∨
          AddOverflow (a.protectedUnits + a.allocated + a.free) a.lentOut)) ∧
        a.raw + a.borrowedIn + a.overcommitUsed =
          a.protectedUnits + a.allocated + a.free + a.lentOut) ∧
      ¬(a.free ≠ 0 ∧ a.overcommitUsed ≠ 0) ∧ ¬(a.overcommitUsed ≠ 0 ∧ mode ≠ .bounded) ∧
      ¬limit < a.overcommitUsed ∧ ¬satAdd a.usable a.overcommitUsed < a.free ∧
      ¬satAdd a.usable limit < a.ownUsage := by
  have hif : ∀ (c : Prop) [Decidable c] (x : AccountingViolation),
      (if c then [x] else []) = [] ↔ ¬c := by
    intro c _ x
    by_cases hc : c <;> simp [hc]
  have hif2 : ∀ (c d : Prop) [Decidable c] [Decidable d] (x y : AccountingViolation),
      (if c then [x] else if d then [y] else []) = [] ↔ ¬c ∧ ¬d := by
    intro c d _ _ x y
    by_cases hc : c <;> by_cases hd : d <;> simp [hc, hd]
  unfold poolViolations
  simp only [List.append_eq_nil_iff, hif, hif2, and_assoc, ne_eq, not_not]

theorem AccountingReport.status_eq_ok {r : AccountingReport} {u : Unit} :
    r.status = .ok u ↔ r.closed = true := by
  unfold status
  split <;> simp_all

def PoolAccounting.ownUnits (a : PoolAccounting) : ℤ :=
  a.allocated.toNat - a.borrowedIn.toNat + a.lentOut.toNat

/-- The accounting identity solved for its lines: what is free and what is overcommitted follows
from the usable units and the own usage. -/
structure PoolAccounting.Balanced (a : PoolAccounting) (mode : OvercommitMode)
    (limit : UInt64) : Prop where
  protected_le : a.protectedUnits.toNat ≤ a.raw.toNat
  usable_eq : (a.usable.toNat : ℤ) = a.raw.toNat - a.protectedUnits.toNat
  split_eq : a.reserved.toNat + a.committed.toNat = a.allocated.toNat
  class_eq : a.pinned.toNat + a.reclaimable.toNat = a.allocated.toNat
  own_nonneg : 0 ≤ a.ownUnits
  free_eq : (a.free.toNat : ℤ) = max 0 (a.usable.toNat - a.ownUnits)
  overcommit_eq : (a.overcommitUsed.toNat : ℤ) = max 0 (a.ownUnits - a.usable.toNat)
  overcommit_le : a.overcommitUsed.toNat ≤ limit.toNat
  bounded : mode ≠ .bounded → a.overcommitUsed = 0

theorem PoolAccounting.balanced_of_closed {a : PoolAccounting} {mode : OvercommitMode}
    {limit : UInt64} (h : poolViolations a mode limit = []) : a.Balanced mode limit := by
  rw [poolViolations_nil] at h
  obtain ⟨hprot, husable, ⟨hsplit, hsplit'⟩, ⟨hclass, hclass'⟩, ⟨hfits, hsides⟩, hfree, hmode,
    hlimit, hallow, -⟩ := h
  simp only [not_or] at hfits
  obtain ⟨⟨hl₁, hl₂⟩, hr₁, hr₂, hr₃⟩ := hfits
  rw [Word.lt_iff] at hprot hlimit hallow
  have hprot' : a.protectedUnits.toNat ≤ a.raw.toNat := Nat.le_of_not_lt hprot
  have husable' : a.usable.toNat = a.raw.toNat - a.protectedUnits.toNat := by
    rw [husable, if_pos (Word.le_iff.mpr hprot'), Word.toNat_sub hprot']
  have hsum := congrArg UInt64.toNat hsides
  rw [toNat_add_of_not_overflow hl₂, toNat_add_of_not_overflow hl₁,
    toNat_add_of_not_overflow hr₃, toNat_add_of_not_overflow hr₂,
    toNat_add_of_not_overflow hr₁] at hsum
  rw [toNat_satAdd] at hallow
  -- the identity says `usable + overcommitted = own + free`; one of the two added parts is zero
  have hone : a.free.toNat = 0 ∨ a.overcommitUsed.toNat = 0 := by
    by_contra hboth
    exact hfree ⟨Word.ne_zero_iff.mpr (by omega), Word.ne_zero_iff.mpr (by omega)⟩
  have hown : a.ownUnits = a.usable.toNat + a.overcommitUsed.toNat - a.free.toNat := by
    unfold ownUnits
    omega
  have hlt := Word.toNat_lt a.free
  refine ⟨hprot', by omega, ?_, ?_, by omega, by omega, by omega, Nat.le_of_not_lt hlimit, ?_⟩
  · rw [← toNat_add_of_not_overflow hsplit, hsplit']
  · rw [← toNat_add_of_not_overflow hclass, hclass']
  · intro hne
    by_contra hover
    exact hmode ⟨hover, hne⟩

theorem PoolAccounting.Balanced.closed {a : PoolAccounting} {mode : OvercommitMode}
    {limit : UInt64} (h : a.Balanced mode limit)
    (hlent : a.lentOut.toNat ≤ a.usable.toNat + limit.toNat)
    (hlhs : a.raw.toNat + a.borrowedIn.toNat + a.overcommitUsed.toNat < 18446744073709551616) :
    poolViolations a mode limit = [] := by
  obtain ⟨hprot, husable, hsplit, hclass, hown, hfree, hover, hlimit, hbounded⟩ := h
  have halloc := Word.toNat_lt a.allocated
  have hownUnits : a.ownUnits = a.allocated.toNat - a.borrowedIn.toNat + a.lentOut.toNat := rfl
  have hsum : a.raw.toNat + a.borrowedIn.toNat + a.overcommitUsed.toNat =
      a.protectedUnits.toNat + a.allocated.toNat + a.free.toNat + a.lentOut.toNat := by
    omega
  have hl₁ : ¬AddOverflow a.raw a.borrowedIn := by
    rw [addOverflow_iff]
    omega
  have hl₂ : ¬AddOverflow (a.raw + a.borrowedIn) a.overcommitUsed := by
    rw [addOverflow_iff, toNat_add_of_not_overflow hl₁]
    omega
  have hr₁ : ¬AddOverflow a.protectedUnits a.allocated := by
    rw [addOverflow_iff]
    omega
  have hr₂ : ¬AddOverflow (a.protectedUnits + a.allocated) a.free := by
    rw [addOverflow_iff, toNat_add_of_not_overflow hr₁]
    omega
  have hr₃ : ¬AddOverflow (a.protectedUnits + a.allocated + a.free) a.lentOut := by
    rw [addOverflow_iff, toNat_add_of_not_overflow hr₂, toNat_add_of_not_overflow hr₁]
    omega
  have hpair : ∀ {x y : UInt64}, x.toNat + y.toNat = a.allocated.toNat →
      ¬AddOverflow x y ∧ x + y = a.allocated := by
    intro x y hxy
    have hfits : ¬AddOverflow x y := by
      rw [addOverflow_iff]
      omega
    exact ⟨hfits, Word.eq_of_toNat ((toNat_add_of_not_overflow hfits).trans hxy)⟩
  have husage : a.ownUsage.toNat ≤ a.usable.toNat + limit.toNat := by
    unfold ownUsage
    rw [toNat_satAdd]
    split
    · rename_i hborrowed
      rw [Word.toNat_sub (Word.le_iff.mp hborrowed)]
      have hborrowed := Word.le_iff.mp hborrowed
      omega
    · rw [UInt64.toNat_zero]
      omega
  refine (poolViolations_nil a mode limit).mpr ⟨?_, ?_, hpair hsplit, hpair hclass,
    ⟨not_or.mpr ⟨not_or.mpr ⟨hl₁, hl₂⟩, not_or.mpr ⟨hr₁, not_or.mpr ⟨hr₂, hr₃⟩⟩⟩, ?_⟩, ?_, ?_, ?_,
    ?_, ?_⟩
  · rw [Word.lt_iff]
    omega
  · rw [if_pos (Word.le_iff.mpr hprot)]
    refine Word.eq_of_toNat ?_
    rw [Word.toNat_sub hprot]
    omega
  · refine Word.eq_of_toNat ?_
    rw [toNat_add_of_not_overflow hl₂, toNat_add_of_not_overflow hl₁,
      toNat_add_of_not_overflow hr₃, toNat_add_of_not_overflow hr₂,
      toNat_add_of_not_overflow hr₁]
    exact hsum
  · rintro ⟨hf, ho⟩
    have hf := Word.ne_zero_iff.mp hf
    have ho := Word.ne_zero_iff.mp ho
    omega
  · exact fun hboth ↦ hboth.1 (hbounded hboth.2)
  · rw [Word.lt_iff]
    omega
  · rw [Word.lt_iff, toNat_satAdd]
    have hlt := Word.toNat_lt a.free
    omega
  · rw [Word.lt_iff, toNat_satAdd]
    have hlt := Word.toNat_lt a.ownUsage
    omega

/-- The check of a pool decides the identity: what it passes is balanced, and it passes what is
balanced, when no more is borrowed than allocated and the left side fits in 64 bits. -/
theorem checkPoolAccounting_exact (a : PoolAccounting) (mode : OvercommitMode) (limit : UInt64) :
    ((checkPoolAccounting a mode limit).closed = true → a.Balanced mode limit) ∧
      (a.Balanced mode limit → a.borrowedIn.toNat ≤ a.allocated.toNat →
        a.raw.toNat + a.borrowedIn.toNat + a.overcommitUsed.toNat < 18446744073709551616 →
        (checkPoolAccounting a mode limit).closed = true) := by
  have hclosed : (checkPoolAccounting a mode limit).closed = true ↔
      poolViolations a mode limit = [] := List.isEmpty_iff
  rw [hclosed]
  refine ⟨PoolAccounting.balanced_of_closed, fun h hborrowed hlhs ↦ h.closed ?_ hlhs⟩
  have hown : a.ownUnits = a.allocated.toNat - a.borrowedIn.toNat + a.lentOut.toNat := rfl
  have hover := h.overcommit_eq
  have hlimit := h.overcommit_le
  omega

/-- The units beyond the usable ones are overcommitted. -/
theorem PoolEntry.ownUsage_le (e : PoolEntry) :
    e.ownUsage.toNat ≤ e.usable.toNat + e.overcommitUsed.toNat := by
  unfold overcommitUsed
  split
  · rename_i h
    have h := Word.lt_iff.mp h
    rw [Word.toNat_sub h.le]
    omega
  · rename_i h
    rw [Word.lt_iff] at h
    omega

namespace Impl

/-- The overcommit that the check of a pool lets pass is within the allowance. -/
theorem overcommit_le (s : Impl) {e : PoolEntry} {x : UInt64}
    (hmode : ¬(x ≠ 0 ∧ (match s.policies.lookup e.descriptor.policy with
      | none => ({} : OvercommitPolicy)
      | some policy => policy.overcommit).mode ≠ .bounded))
    (hlimit : ¬(match s.policies.lookup e.descriptor.policy with
      | none => ({} : OvercommitPolicy)
      | some policy => policy.overcommit).limitUnits < x) :
    x.toNat ≤ (s.allowanceUnits e).toNat := by
  unfold allowanceUnits
  cases hp : s.policies.lookup e.descriptor.policy with
  | none =>
      rw [hp, Word.lt_iff] at hlimit
      exact Nat.le_of_not_lt hlimit
  | some policy =>
      rw [hp] at hmode hlimit
      dsimp only at hmode hlimit ⊢
      unfold PoolPolicy.allowanceUnits
      cases hm : policy.overcommit.mode with
      | bounded =>
          rw [Word.lt_iff] at hlimit
          exact Nat.le_of_not_lt hlimit
      | forbid =>
          have hzero : x = 0 := by
            by_contra hx
            exact hmode ⟨hx, by rw [hm]; simp⟩
          rw [hzero]

/-- What a pool that passes `check_closure` satisfies, in natural numbers. -/
structure ClosureRow (s : Impl) (e : PoolEntry) : Prop where
  split : e.reservedUnits.toNat + e.committedUnits.toNat < 18446744073709551616
  identity : e.descriptor.rawUnits.toNat + e.borrowedIn.toNat + e.overcommitUsed.toNat =
    e.descriptor.protectedUnits.toNat + (e.reservedUnits.toNat + e.committedUnits.toNat) +
      e.freeUnits.toNat + e.lentOut.toNat
  closes : e.ownUsage.toNat + e.borrowedIn.toNat =
      e.reservedUnits.toNat + e.committedUnits.toNat + e.lentOut.toNat →
    e.borrowedIn.toNat ≤ e.reservedUnits.toNat + e.committedUnits.toNat →
    (s.accountingOf e).Closes

theorem checkClosure_row {s : Impl} {e : PoolEntry} (h : s.checkClosure e = .ok ()) :
    s.ClosureRow e := by
  unfold checkClosure at h
  rw [AccountingReport.status_eq_ok] at h
  simp only [checkPoolAccounting, List.isEmpty_iff] at h
  rw [poolViolations_nil] at h
  obtain ⟨hprot, husable, hsplit', hclass, ⟨hfits', hside⟩, hfree, hmode, hlimit, hallow, -⟩ := h
  have hover : e.overcommitUsed.toNat ≤ (s.allowanceUnits e).toNat := s.overcommit_le hmode hlimit
  have hsplit : ¬AddOverflow e.reservedUnits e.committedUnits := hsplit'.1
  have hfits := hfits'
  simp only [not_or] at hfits
  obtain ⟨⟨hl₁, hl₂⟩, hr₁, hr₂, hr₃⟩ := hfits
  have halloc : e.allocated.toNat = e.reservedUnits.toNat + e.committedUnits.toNat :=
    toNat_add_of_not_overflow hsplit
  refine ⟨?_, ?_, ?_⟩
  · rw [addOverflow_iff] at hsplit
    omega
  · have hsum := congrArg UInt64.toNat hside
    rw [toNat_add_of_not_overflow hl₂, toNat_add_of_not_overflow hl₁,
      toNat_add_of_not_overflow hr₃, toNat_add_of_not_overflow hr₂,
      toNat_add_of_not_overflow hr₁] at hsum
    rw [← halloc]
    exact hsum
  · intro hsum hle
    have hown : (s.accountingOf e).ownUsage.toNat = e.ownUsage.toNat := by
      have hlt := Word.toNat_lt e.ownUsage
      have hb : e.borrowedIn ≤ e.allocated := by
        rw [Word.le_iff, halloc]
        exact hle
      change (satAdd (if e.borrowedIn ≤ e.allocated then e.allocated - e.borrowedIn else 0)
        e.lentOut).toNat = _
      rw [if_pos hb, toNat_satAdd, Word.toNat_sub (Word.le_iff.mp hb), halloc]
      omega
    have husage := e.ownUsage_le
    refine (poolViolations_nil _ _ _).mpr ⟨hprot, husable, hsplit', hclass, ⟨hfits', hside⟩, hfree,
      fun hnot ↦ hnot.2 rfl, ?_, hallow, ?_⟩
    · rw [Word.lt_iff]
      change ¬(s.allowanceUnits e).toNat < e.overcommitUsed.toNat
      omega
    · rw [Word.lt_iff, hown, toNat_satAdd]
      change ¬min (e.usable.toNat + (s.allowanceUnits e).toNat) 18446744073709551615 < _
      have hlt := Word.toNat_lt e.ownUsage
      omega

end Impl

/-! ### The ledger of keyed pools -/

namespace Impl

/-- When every pool is stored under its own id, the ledger has the pools. -/
theorem ledgerPools_lookup {s : Impl} (hk : s.view.Keyed) (p : PoolId) :
    s.ledgerPools.lookup p = s.pools.lookup p := by
  have hkey : ∀ a ∈ s.pools.toList, a.2.descriptor.id = a.1 :=
    fun a ha ↦ hk.pool_id (Table.mem_toList.mp ha)
  rw [ledgerPools_find]
  apply Option.ext
  intro e
  rw [Option.map_eq_some_iff]
  constructor
  · rintro ⟨a, ha, rfl⟩
    have hmem := List.mem_of_find?_eq_some ha
    have hp : a.2.descriptor.id = p := by simpa using List.find?_some ha
    rw [← hp, hkey a hmem]
    exact Table.mem_toList.mp hmem
  · intro he
    have hmem : (p, e) ∈ s.pools.toList := Table.mem_toList.mpr he
    cases hfind : s.pools.toList.find? fun a ↦ decide (a.2.descriptor.id = p) with
    | none =>
        have := List.find?_eq_none.mp hfind _ hmem
        simp [hk.pool_id he] at this
    | some a =>
        have ha : a.2.descriptor.id = p := by simpa using List.find?_some hfind
        have hmem' := List.mem_of_find?_eq_some hfind
        have hl := Table.mem_toList.mp hmem'
        rw [← hkey a hmem', ha, he] at hl
        exact ⟨a, rfl, (Option.some.inj hl).symm⟩

/-! ### Borrowed and lent units -/

end Impl

namespace AllocationRecord

def heldBorrow (r : AllocationRecord) : ℕ :=
  if r.state.holdsUnits then r.borrowed.toNat else 0

theorem contrib_borrowed (r : AllocationRecord) (p : PoolId) :
    r.contrib p .borrowed = if r.pool = p then r.heldBorrow else 0 := by
  unfold contrib heldBorrow share lentShare
  split <;> split <;> simp

theorem contrib_lent (r : AllocationRecord) (p : PoolId) :
    r.contrib p .lent = if r.lender = p then r.heldBorrow else 0 := by
  unfold contrib heldBorrow share lentShare
  split <;> split <;> simp

/-- What a record takes from the own units of the pools is what it has allocated and not
borrowed. -/
theorem contrib_own (r : AllocationRecord) (p : PoolId) :
    r.contrib p .own + r.contrib p .borrowed =
      r.contrib p .reserved + r.contrib p .committed + r.contrib p .lent := by
  have hle := r.borrowed_le
  unfold contrib share lentShare
  by_cases hs : r.state = .reserved <;> simp only [hs, if_true, if_false] <;>
    split <;> (try rfl) <;> split <;> split <;> omega

theorem contrib_borrowed_le (r : AllocationRecord) (p : PoolId) :
    r.contrib p .borrowed ≤ r.contrib p .reserved + r.contrib p .committed := by
  have hle := r.borrowed_le
  unfold contrib share lentShare
  by_cases hs : r.state = .reserved <;> simp only [hs, if_true, if_false] <;>
    split <;> (try exact Nat.le_refl _) <;> split <;> split <;> omega

end AllocationRecord

namespace Impl

theorem books_eq_total (s : Impl) (p : PoolId) (f : Row) :
    s.books [] p f = Table.total (fun _ r ↦ r.contrib p f) s.allocations := by
  simp [books]

theorem books_own (s : Impl) (p : PoolId) :
    s.books [] p .own + s.books [] p .borrowed =
      s.books [] p .reserved + s.books [] p .committed + s.books [] p .lent := by
  simp only [books_eq_total, ← Table.total_add]
  exact Table.total_congr fun _ r _ ↦ r.contrib_own p

theorem books_borrowed_le (s : Impl) (p : PoolId) :
    s.books [] p .borrowed ≤ s.books [] p .reserved + s.books [] p .committed := by
  simp only [books_eq_total, ← Table.total_add]
  exact Table.total_mono fun _ r _ ↦ r.contrib_borrowed_le p

/-- The units borrowed by all pools, over the records. -/
theorem total_borrowed (s : Impl) :
    Table.total (fun p _ ↦ s.books [] p .borrowed) s.pools =
      Table.total (fun _ r ↦ if r.pool ∈ s.pools then r.heldBorrow else 0) s.allocations := by
  simp only [books_eq_total, AllocationRecord.contrib_borrowed]
  rw [Table.total_comm]
  exact Table.total_congr fun _ r _ ↦ Table.total_mem _ _ _

/-- The units lent by all pools, over the records. -/
theorem total_lent (s : Impl) :
    Table.total (fun p _ ↦ s.books [] p .lent) s.pools =
      Table.total (fun _ r ↦ if r.lender ∈ s.pools then r.heldBorrow else 0) s.allocations := by
  simp only [books_eq_total, AllocationRecord.contrib_lent]
  rw [Table.total_comm]
  exact Table.total_congr fun _ r _ ↦ Table.total_mem _ _ _

/-- A record that holds borrowed units has both its pools or none. -/
def BorrowsPaired (s : Impl) : Prop :=
  ∀ k r, s.allocations.lookup k = some r → r.state.holdsUnits = true → r.borrowed ≠ 0 →
    (r.pool ∈ s.pools ↔ r.lender ∈ s.pools)

theorem counted_books {s : Impl} (hk : s.view.Keyed) (p : PoolId) (f : Row) :
    s.counted.books [] p f = Table.total (fun _ r ↦ if r.pool ∈ s.pools then r.contrib p f else 0)
      s.allocations := by
  have hmem : ∀ q, q ∈ s.ledgerPools ↔ q ∈ s.pools := by
    intro q
    rw [← AList.lookup_isSome, ← AList.lookup_isSome, ledgerPools_lookup hk]
  rw [books_eq_total]
  unfold counted
  simp only [Table.total_filterValues, hmem, decide_eq_true_eq]

/-- The records of missing pools add nothing to the rows of a pool but to those of a
lender. -/
theorem counted_books_own {s : Impl} (hk : s.view.Keyed) {p : PoolId} (hp : p ∈ s.pools)
    {f : Row} (hf : ∀ r : AllocationRecord, r.lentShare f = 0) :
    s.counted.books [] p f = s.books [] p f := by
  rw [counted_books hk, books_eq_total]
  apply Table.total_congr
  intro k r _
  split
  · rfl
  · rename_i hmissing
    have hne : r.pool ≠ p := by
      rintro rfl
      exact hmissing hp
    unfold AllocationRecord.contrib
    simp [hne, hf]

theorem counted_books_lent_le {s : Impl} (hk : s.view.Keyed) (p : PoolId) :
    s.counted.books [] p .lent ≤ s.books [] p .lent := by
  rw [counted_books hk, books_eq_total]
  apply Table.total_mono
  intro k r _
  split <;> omega

theorem counted_books_lent {s : Impl} (hk : s.view.Keyed) (hpair : s.BorrowsPaired) {p : PoolId}
    (hp : p ∈ s.pools) : s.counted.books [] p .lent = s.books [] p .lent := by
  rw [counted_books hk, books_eq_total]
  apply Table.total_congr
  intro k r hr
  split
  · rfl
  · rename_i hmissing
    rw [AllocationRecord.contrib_lent]
    unfold AllocationRecord.heldBorrow
    split
    · rename_i hlender
      split
      · rename_i hh
        by_contra hne
        have hb : r.borrowed ≠ 0 := Word.ne_zero_iff.mpr (by omega)
        refine hmissing ((hpair k r hr hh hb).mpr ?_)
        rw [hlender]
        exact hp
      · rfl
    · rfl

/-- What is assumed of a pool: it passes `check_closure` and its aggregates are exact. -/
structure Clean (s : Impl) : Prop where
  closure : ∀ p e, s.pools.lookup p = some e → s.checkClosure e = .ok ()
  exact : s.AggregatesExact

/-- The columns of a row by the records, as far as its own records go. -/
theorem recordedRow_eq {s : Impl} (hk : s.view.Keyed) (hclean : s.Clean) {p : PoolId}
    {e : PoolEntry} (he : s.pools.lookup p = some e) (hid : e.descriptor.id = p) (hvalid : p.Valid)
    (hlent : s.counted.books [] p .lent = s.books [] p .lent) :
    s.recordedRow e = s.accountingOf e := by
  have hp := Table.mem_of_lookup he
  have hread : ∀ f : Row, f.Checked → e.read f = s.books [] p f := by
    intro f hf
    rw [← hid]
    exact hclean.exact p e he f hf
  have hcols : ∀ f : Row, f.Checked → (∀ r : AllocationRecord, r.lentShare f = 0) →
      s.counted.books [] p f = e.read f := by
    intro f hf hz
    rw [counted_books_own hk hp hz, hread f hf]
  have hrow := checkClosure_row (hclean.closure p e he)
  have hplus : (s.emptyRow e).plus p (s.counted.books [] p) =
      { s.emptyRow e with
        allocated := e.allocated, reserved := e.reservedUnits, committed := e.committedUnits
        pinned := e.pinnedUnits, reclaimable := e.reclaimableUnits
        borrowedIn := e.borrowedIn, lentOut := e.lentOut } := by
    unfold PoolAccounting.plus
    rw [hcols .reserved trivial fun _ ↦ rfl, hcols .committed trivial fun _ ↦ rfl,
      hcols .pinned trivial fun _ ↦ rfl, hcols .reclaimable trivial fun _ ↦ rfl,
      hcols .borrowed trivial fun _ ↦ rfl, hlent, ← hread .lent trivial, if_pos hvalid]
    simp only [PoolEntry.read, UInt64.ofNat_add, emptyRow, UInt64.ofNat_toNat,
      UInt64.zero_add]
    rfl
  -- the own usage that the row derives is the one the pool has kept
  have hown : satAdd (if e.borrowedIn ≤ e.allocated then e.allocated - e.borrowedIn else 0)
      e.lentOut = e.ownUsage := by
    have halloc : e.allocated.toNat = e.reservedUnits.toNat + e.committedUnits.toNat :=
      Word.toNat_add hrow.split
    have hsum := s.books_own p
    have hle := s.books_borrowed_le p
    rw [← hread .own trivial, ← hread .borrowed trivial, ← hread .reserved trivial,
      ← hread .committed trivial, ← hread .lent trivial] at hsum
    rw [← hread .borrowed trivial, ← hread .reserved trivial, ← hread .committed trivial] at hle
    simp only [PoolEntry.read] at hsum hle
    have hb : e.borrowedIn.toNat ≤ e.allocated.toNat := by omega
    have hlt := Word.toNat_lt e.ownUsage
    apply Word.eq_of_toNat
    rw [if_pos (Word.le_iff.mpr hb), toNat_satAdd, Word.toNat_sub hb]
    omega
  unfold recordedRow
  rw [hid, hplus]
  unfold PoolAccounting.derived
  simp only [hown, emptyRow, accountingOf]
  rfl

def rowsTotal (s : Impl) (row : PoolEntry → PoolAccounting) (t : Total) : ℕ :=
  Table.total (fun _ e ↦ ((row e).total t).toNat) s.pools

theorem totalOf_rows (s : Impl) (row : PoolEntry → PoolAccounting) (t : Total) :
    totalOf t (s.pools.toList.map fun e ↦ row e.2) = s.rowsTotal row t := by
  simp only [totalOf, rowsTotal, Table.toList, Table.total, List.map_map, Function.comp_def]

/-- Over exact aggregates the borrowed units of all pools are those of the records. -/
theorem Clean.borrowed_eq {s : Impl} (h : s.Clean) (hk : s.view.Keyed) :
    s.rowsTotal s.accountingOf .borrowed =
      Table.total (fun _ r ↦ if r.pool ∈ s.pools then r.heldBorrow else 0) s.allocations := by
  rw [← total_borrowed]
  apply Table.total_congr
  intro p e he
  rw [← hk.pool_id he]
  exact h.exact p e he .borrowed trivial

theorem Clean.lent_eq {s : Impl} (h : s.Clean) (hk : s.view.Keyed) :
    s.rowsTotal s.accountingOf .lent =
      Table.total (fun _ r ↦ if r.lender ∈ s.pools then r.heldBorrow else 0) s.allocations := by
  rw [← total_lent]
  apply Table.total_congr
  intro p e he
  rw [← hk.pool_id he]
  exact h.exact p e he .lent trivial

theorem Clean.allocated_toNat {s : Impl} (h : s.Clean) {p : PoolId} {e : PoolEntry}
    (he : s.pools.lookup p = some e) :
    e.allocated.toNat = e.reservedUnits.toNat + e.committedUnits.toNat :=
  Word.toNat_add (checkClosure_row (h.closure p e he)).split

/-- The identities of all pools, added up. -/
theorem Clean.identity {s : Impl} (h : s.Clean) :
    s.rowsTotal s.accountingOf .raw + s.rowsTotal s.accountingOf .borrowed +
        s.rowsTotal s.accountingOf .overcommit =
      s.rowsTotal s.accountingOf .protectedUnits + s.rowsTotal s.accountingOf .allocated +
        s.rowsTotal s.accountingOf .free + s.rowsTotal s.accountingOf .lent := by
  simp only [rowsTotal, ← Table.total_add]
  apply Table.total_congr
  intro p e he
  have hrow := (checkClosure_row (h.closure p e he)).identity
  rw [← h.allocated_toNat he] at hrow
  exact hrow

theorem Clean.borrowed_le {s : Impl} (h : s.Clean) :
    s.rowsTotal s.accountingOf .borrowed ≤ s.rowsTotal s.accountingOf .allocated := by
  apply Table.total_mono
  intro p e he
  have hle := s.books_borrowed_le e.descriptor.id
  have hb := h.exact p e he .borrowed trivial
  have hr := h.exact p e he .reserved trivial
  have hc := h.exact p e he .committed trivial
  have ha := h.allocated_toNat he
  simp only [PoolEntry.read] at hb hr hc
  change e.borrowedIn.toNat ≤ e.allocated.toNat
  omega

theorem Clean.closes {s : Impl} (h : s.Clean) {p : PoolId} {e : PoolEntry}
    (he : s.pools.lookup p = some e) : (s.accountingOf e).Closes := by
  have hsum := s.books_own e.descriptor.id
  have hle := s.books_borrowed_le e.descriptor.id
  have ho := h.exact p e he .own trivial
  have hb := h.exact p e he .borrowed trivial
  have hr := h.exact p e he .reserved trivial
  have hc := h.exact p e he .committed trivial
  have hl := h.exact p e he .lent trivial
  simp only [PoolEntry.read] at ho hb hr hc hl
  refine (checkClosure_row (h.closure p e he)).closes ?_ ?_ <;> omega

/-- The live rows close when the borrowed units are lent ones and the totals fit. -/
theorem Clean.booksClose {s : Impl} (h : s.Clean)
    (hlent : s.rowsTotal s.accountingOf .borrowed = s.rowsTotal s.accountingOf .lent)
    (hfits : s.rowsTotal s.accountingOf .raw + s.rowsTotal s.accountingOf .overcommit <
      18446744073709551616) :
    BooksClose (s.pools.toList.map fun e ↦ s.accountingOf e.2) := by
  have hid := h.identity
  have hle := h.borrowed_le
  refine ⟨?_, ?_, ?_, ?_, ?_⟩
  · intro a ha
    obtain ⟨⟨p, e⟩, he, rfl⟩ := List.mem_map.mp ha
    exact h.closes (Table.mem_toList.mp he)
  · intro t
    rw [totalOf_rows]
    cases t <;> omega
  · rw [totalOf_rows, totalOf_rows]
    exact hlent
  · rw [totalOf_rows, totalOf_rows]
    exact hfits
  · simp only [totalOf_rows]
    omega

/-- The rows by the records and the live ones, both over the pools of the fabric. -/
theorem validateAccounting_closed {s : Impl} (hk : s.view.Keyed) :
    s.validateAccounting.closed = true ↔
      BooksClose (s.pools.toList.map fun e ↦ s.recordedRow e.2) := by
  have hrows : ∀ p, (s.ledgerPools.lookup p).map s.recordedRow =
      (s.pools.lookup p).map s.recordedRow := by
    intro p
    rw [ledgerPools_lookup hk]
  refine s.deepVerify_closed.trans ⟨BooksClose.congr hrows, BooksClose.congr fun p ↦ ?_⟩
  exact (hrows p).symm

theorem recordedRow_borrowed (s : Impl) (e : PoolEntry) :
    (s.recordedRow e).total .borrowed =
      UInt64.ofNat (s.counted.books [] e.descriptor.id .borrowed) :=
  UInt64.zero_add _

theorem recordedRow_lent (s : Impl) (e : PoolEntry) :
    (s.recordedRow e).total .lent =
      UInt64.ofNat (if e.descriptor.id.Valid then s.counted.books [] e.descriptor.id .lent
        else 0) :=
  UInt64.zero_add _

/-- When the books by the records close, no counted record misses its lender. -/
theorem Clean.lender_mem {s : Impl} (h : s.Clean) (hk : s.view.Keyed)
    (hv : ∀ p e, s.pools.lookup p = some e → p.Valid)
    (hbooks : BooksClose (s.pools.toList.map fun e ↦ s.recordedRow e.2)) {k : AllocationId}
    {r : AllocationRecord} (hr : s.allocations.lookup k = some r) (hpool : r.pool ∈ s.pools)
    (hheld : r.heldBorrow ≠ 0) : r.lender ∈ s.pools := by
  have hlent := hbooks.lent
  rw [totalOf_rows, totalOf_rows] at hlent
  have hfits : ∀ p e, s.pools.lookup p = some e → ∀ f : Row, f.Checked →
      s.books [] p f < 18446744073709551616 := by
    intro p e he f hf
    have hread := h.exact p e he f hf
    rw [hk.pool_id he] at hread
    rw [← hread]
    exact e.read_lt f
  have hborrowed : s.rowsTotal s.recordedRow .borrowed =
      Table.total (fun p _ ↦ s.counted.books [] p .borrowed) s.pools := by
    apply Table.total_congr
    intro p e he
    have hlt := hfits p e he .borrowed trivial
    rw [← counted_books_own hk (Table.mem_of_lookup he) fun _ ↦ rfl] at hlt
    rw [recordedRow_borrowed, hk.pool_id he]
    exact UInt64.toNat_ofNat_of_lt hlt
  have hlent' : s.rowsTotal s.recordedRow .lent =
      Table.total (fun p _ ↦ s.counted.books [] p .lent) s.pools := by
    apply Table.total_congr
    intro p e he
    have hlt := (s.counted_books_lent_le hk p).trans_lt (hfits p e he .lent trivial)
    rw [recordedRow_lent, hk.pool_id he, if_pos (hv p e he)]
    exact UInt64.toNat_ofNat_of_lt hlt
  have hsum : Table.total (fun _ r ↦ if r.pool ∈ s.pools then r.heldBorrow else 0)
        s.counted.allocations =
      Table.total (fun _ r ↦ if r.lender ∈ s.pools then r.heldBorrow else 0)
        s.counted.allocations := by
    refine s.counted.total_borrowed.symm.trans (Eq.trans ?_ s.counted.total_lent)
    exact hborrowed.symm.trans (hlent.trans hlent')
  have hcounted : ∀ k r, s.counted.allocations.lookup k = some r ↔
      s.allocations.lookup k = some r ∧ r.pool ∈ s.pools := by
    intro k r
    unfold counted
    simp only
    rw [Table.lookup_filterValues, Option.filter_eq_some_iff, decide_eq_true_eq,
      ← AList.lookup_isSome, ledgerPools_lookup hk, AList.lookup_isSome]
  have heq := Table.total_eq_of_le (fun k r hr ↦ ?_) hsum.le ((hcounted k r).mpr ⟨hr, hpool⟩)
  · by_contra hnot
    rw [if_neg hnot, if_pos hpool] at heq
    exact hheld heq.symm
  · rw [if_pos ((hcounted k r).mp hr).2]
    split <;> omega

end Impl

/-! ### The summary -/

structure FabricSummary where
  epoch : EpochId := default
  boot : BootIncarnation := {}
  poolCount : ℕ := 0
  queueCount : ℕ := 0
  allocationCount : ℕ := 0
  rawTotal : UInt64 := 0
  protectedTotal : UInt64 := 0
  allocatedTotal : UInt64 := 0
  freeTotal : UInt64 := 0
  overcommitTotal : UInt64 := 0
  borrowedTotal : UInt64 := 0
  lentTotal : UInt64 := 0
  liveAllocations : UInt64 := 0
  accounting : AccountingReport := {}

/-- The loop body of `summary`: the totals wrap. -/
def FabricSummary.add (f : FabricSummary) (a : PoolAccounting) : FabricSummary :=
  { f with
    rawTotal := f.rawTotal + a.raw
    protectedTotal := f.protectedTotal + a.protectedUnits
    allocatedTotal := f.allocatedTotal + a.allocated
    freeTotal := f.freeTotal + a.free
    overcommitTotal := f.overcommitTotal + a.overcommitUsed
    borrowedTotal := f.borrowedTotal + a.borrowedIn
    lentTotal := f.lentTotal + a.lentOut
    liveAllocations := f.liveAllocations + (a.reserved + a.committed) }

namespace Impl

def summary (s : Impl) : FabricSummary :=
  let ledger := s.pools.toList.map fun e ↦ s.accountingOf e.2
  let summed := ledger.foldl FabricSummary.add
    { epoch := s.epoch, boot := s.boot, poolCount := s.pools.size, queueCount := s.queues.size
      allocationCount := s.allocations.size }
  { summed with accounting := checkGlobalAccounting ledger }

/-- The raw units of all pools and what they overcommit fit into 64 bits. -/
def TotalsFit (s : Impl) : Prop :=
  Table.total (fun _ e ↦ e.descriptor.rawUnits.toNat) s.pools +
    Table.total (fun _ e ↦ e.overcommitUsed.toNat) s.pools < 18446744073709551616

instance (s : Impl) : Decidable s.TotalsFit := inferInstanceAs (Decidable (_ < _))

theorem Clean.closed_iff {s : Impl} (h : s.Clean) (hk : s.view.Keyed)
    (hv : ∀ p e, s.pools.lookup p = some e → p.Valid) :
    (s.validateAccounting.closed = true ∧ s.summary.accounting.closed = true) ↔
      s.BorrowsPaired ∧ s.TotalsFit := by
  have hsummary : s.summary.accounting.closed = true ↔
      BooksClose (s.pools.toList.map fun e ↦ s.accountingOf e.2) :=
    checkGlobalAccounting_closed _
  rw [validateAccounting_closed hk, hsummary]
  constructor
  · rintro ⟨hrecorded, hlive⟩
    have hfits := hlive.bounded
    have hlent := hlive.lent
    simp only [totalOf_rows] at hfits hlent
    rw [h.borrowed_eq hk, h.lent_eq hk] at hlent
    refine ⟨?_, hfits⟩
    intro k r hr hh hb
    have hheld : r.heldBorrow ≠ 0 := by
      unfold AllocationRecord.heldBorrow
      rw [if_pos hh]
      exact (Word.ne_zero_iff.mp hb).ne'
    refine ⟨fun hpool ↦ h.lender_mem hk hv hrecorded hr hpool hheld, fun hlender ↦ ?_⟩
    have heq := Table.total_eq_of_le (fun k r hr ↦ ?_) hlent.ge hr
    · by_contra hnot
      rw [if_neg hnot, if_pos hlender] at heq
      exact hheld heq.symm
    · by_cases hzero : r.heldBorrow = 0
      · rw [hzero]
        split <;> split <;> rfl
      · split
        · rename_i hpool
          rw [if_pos (h.lender_mem hk hv hrecorded hr hpool hzero)]
        · exact Nat.zero_le _
  · rintro ⟨hpair, hfits⟩
    have hrows : (s.pools.toList.map fun e ↦ s.recordedRow e.2) =
        s.pools.toList.map fun e ↦ s.accountingOf e.2 := by
      apply List.map_congr_left
      rintro ⟨p, e⟩ he
      have he := Table.mem_toList.mp he
      exact recordedRow_eq hk h he (hk.pool_id he) (hv p e he)
        (counted_books_lent hk hpair (Table.mem_of_lookup he))
    have hlent : s.rowsTotal s.accountingOf .borrowed = s.rowsTotal s.accountingOf .lent := by
      rw [h.borrowed_eq hk, h.lent_eq hk]
      apply Table.total_congr
      intro k r hr
      unfold AllocationRecord.heldBorrow
      by_cases hh : r.state.holdsUnits = true
      · by_cases hb : r.borrowed = 0
        · simp [hb]
        · simp only [hpair k r hr hh hb]
      · simp [hh]
    rw [hrows]
    have hbooks := h.booksClose hlent hfits
    exact ⟨hbooks, hbooks⟩

end Impl

theorem DurableStore.writeFullSnapshot_code {image : Image} {st st' : DurableStore} {e : Status}
    (h : st.writeFullSnapshot image = (.error e, st')) : e.code ≠ .accountingViolation := by
  unfold writeFullSnapshot writeSnapshot at h
  repeat' split at h
  all_goals cases h
  all_goals simp [ioError]

/-- A checkpoint of books that close is not refused for an accounting reason. -/
theorem Impl.checkpoint_code {s t : Impl} (hclosed : s.validateAccounting.closed = true)
    {e : Status} (h : s.checkpoint = (.error e, t)) : e.code ≠ .accountingViolation := by
  have hstatus : s.deepVerify.status = .ok () := AccountingReport.status_eq_ok.mpr hclosed
  unfold checkpoint at h
  split at h
  · rw [← Except.error.inj (Prod.mk.inj h).1]
    simp
  · rw [hstatus] at h
    dsimp only [writeFullSnapshot] at h
    cases hw : s.store.writeFullSnapshot s.image with
    | mk result st =>
        rw [hw] at h
        cases result with
        | ok u => cases h
        | error e' =>
            obtain rfl : e' = e := Except.error.inj (Prod.mk.inj h).1
            exact DurableStore.writeFullSnapshot_code hw

/-- In every run, at a state with exact aggregates whose pools all close: the reports are
closed, and no checkpoint is refused for an accounting reason, if and only if every borrowed
part has both its pools or none and the totals fit into 64 bits. -/
theorem no_false_alarm_iff {allow : System → Event → Prop} {y : System} {s : Impl}
    (hrun : System.Run allow y) (hlive : y.live = some s) (hclean : s.Clean) :
    (s.validateAccounting.closed = true ∧ s.summary.accounting.closed = true ∧
      ∀ c e, c.op = .checkpoint → (s.exec c).1 = .error e → e.code ≠ .accountingViolation) ↔
      s.BorrowsPaired ∧ s.TotalsFit := by
  have hk := hrun.keyed hlive
  have hv : ∀ p e, s.pools.lookup p = some e → p.Valid := by
    intro p e he
    have hvalid : e.descriptor.IsValid := by
      refine (hrun.valid hlive).pools p e.shape ?_
      simp only [Impl.view, he, Option.map_some]
    rw [← hk.pool_id he]
    exact (PoolDescriptor.isValid_iff.mp hvalid).1
  rw [← hclean.closed_iff hk hv]
  constructor
  · exact fun h ↦ ⟨h.1, h.2.1⟩
  · intro h
    refine ⟨h.1, h.2, ?_⟩
    intro c e hop he
    have hexec : (s.exec c).1 = (s.enter c).checkpoint.1.map fun _ ↦ .done := by
      unfold Impl.exec
      rw [hop]
      rfl
    cases hcp : (s.enter c).checkpoint with
    | mk result t =>
        rw [hexec, hcp] at he
        cases result with
        | ok u => cases he
        | error e' =>
            obtain rfl : e' = e := Except.error.inj he
            exact Impl.checkpoint_code (s := s.enter c) h.1 hcp

def checkedRows : List Row :=
  [.reserved, .committed, .pinned, .reclaimable, .own, .borrowed, .lent]

/-- Whether every pool passes `check_closure` with exact aggregates. -/
def Impl.cleanCheck (s : Impl) : Bool :=
  s.pools.toList.all fun e ↦ (s.checkClosure e.2).isOk &&
    checkedRows.all fun f ↦ decide (e.2.read f = s.books [] e.2.descriptor.id f)

theorem Impl.cleanCheck_spec {s : Impl} (h : s.cleanCheck = true) : s.Clean := by
  have hpool : ∀ p e, s.pools.lookup p = some e → s.checkClosure e = .ok () ∧
      ∀ f ∈ checkedRows, e.read f = s.books [] e.descriptor.id f := by
    intro p e he
    have hmem := List.all_eq_true.mp h (p, e) (Table.mem_toList.mpr he)
    obtain ⟨hok, hrows⟩ := Bool.and_eq_true_iff.mp hmem
    refine ⟨?_, fun f hf ↦ of_decide_eq_true (List.all_eq_true.mp hrows f hf)⟩
    cases hc : s.checkClosure e with
    | ok u => rfl
    | error e' =>
        rw [hc] at hok
        cases hok
  refine ⟨fun p e he ↦ (hpool p e he).1, fun p e he f hf ↦ (hpool p e he).2 f ?_⟩
  cases f with
  | queueReserved q => exact hf.elim
  | queueCommitted q => exact hf.elim
  | _ => decide

/-- With one allocation of 40 units of its own pool the reports are closed. -/
theorem no_false_alarm_forty :
    ∃ (y : System) (s : Impl), System.Run System.Durable y ∧ y.live = some s ∧
      s.books [] ⟨1⟩ .own = 40 ∧ s.validateAccounting.closed = true ∧
      s.summary.accounting.closed = true := by
  have h : (System.script durableCheck {} heldScript).any (fun y ↦ y.live.any fun s ↦
      s.cleanCheck && decide (s.books [] ⟨1⟩ .own = 40) && decide s.TotalsFit &&
        s.allocations.toList.all fun e ↦ decide (e.2.borrowed = 0)) = true := by
    decide +kernel
  obtain ⟨y, hy, h⟩ := (Option.any_eq_true _ _).mp h
  obtain ⟨s, hs, h⟩ := (Option.any_eq_true _ _).mp h
  simp only [Bool.and_eq_true, decide_eq_true_eq] at h
  obtain ⟨⟨⟨hclean, hbooks⟩, hfits⟩, hown⟩ := h
  have hrun : System.Run System.Durable y := System.Run.script durableCheck_durable .refl hy
  have hpair : s.BorrowsPaired := by
    intro k r hr _ hb
    have hmem := List.all_eq_true.mp hown (k, r) (Table.mem_toList.mpr hr)
    exact absurd (of_decide_eq_true hmem) hb
  obtain ⟨hclosed, hsummary, -⟩ :=
    (no_false_alarm_iff hrun hs (Impl.cleanCheck_spec hclean)).mpr ⟨hpair, hfits⟩
  exact ⟨y, s, hrun, hs, hbooks, hclosed, hsummary⟩

def largestPool (resource : ResourceId) (name : UInt8) : Call :=
  { op := .registerPool
      { name := [name], resource := resource, backend := ⟨1⟩, rawUnits := kMaxUnitsPerPool
        policy := ⟨1⟩ } }

def hugeCapacity (resource : ResourceId) : Call :=
  { op := .setCapacity resource ⟨1⟩ 0 ⟨0⟩
      ⟨true, .ok { resource := resource, backend := ⟨1⟩, generation := ⟨1⟩
                   rawUnits := 9223372036854775808, authoritative := true }, .ok ()⟩ }

/-- Sixteen pools of the largest size over two resources. -/
def largestScript : List Command :=
  [.start smallConfig] ++
    (smallTopology smallPolicy ++ [hugeCapacity ⟨2⟩, hugeCapacity ⟨3⟩] ++
      [97, 98, 99, 100, 101, 102, 103, 104].map (largestPool ⟨2⟩) ++
      [105, 106, 107, 108, 109, 110, 111, 112].map (largestPool ⟨3⟩)).map .call

/-- Sixteen empty pools of the largest size raise an alarm, and the checkpoint is refused. -/
theorem largest_pools_alarm :
    ∃ (y : System) (s : Impl), System.Run System.Durable y ∧ y.live = some s ∧ s.Clean ∧
      s.pools.size ≤ kMaxPoolCount ∧
      (∀ p e, s.pools.lookup p = some e → e.descriptor.rawUnits ≤ kMaxUnitsPerPool) ∧
      s.validateAccounting.closed = false ∧ s.summary.accounting.closed = false ∧
      ∃ message, (s.exec { op := .checkpoint }).1 = .error ⟨.accountingViolation, message⟩ := by
  have h : (System.script durableCheck {} largestScript).any (fun y ↦ y.live.any fun s ↦
      s.cleanCheck && decide (s.pools.size ≤ kMaxPoolCount) &&
        s.pools.toList.all (fun e ↦ decide (e.2.descriptor.rawUnits ≤ kMaxUnitsPerPool)) &&
        !s.validateAccounting.closed && !s.summary.accounting.closed &&
        (match (s.exec { op := .checkpoint }).1 with
          | .error ⟨.accountingViolation, _⟩ => true
          | _ => false)) = true := by
    decide +kernel
  obtain ⟨y, hy, h⟩ := (Option.any_eq_true _ _).mp h
  obtain ⟨s, hs, h⟩ := (Option.any_eq_true _ _).mp h
  simp only [Bool.and_eq_true, decide_eq_true_eq, Bool.not_eq_true'] at h
  obtain ⟨⟨⟨⟨⟨hclean, hsize⟩, hraw⟩, hclosed⟩, hsummary⟩, hrefused⟩ := h
  refine ⟨y, s, System.Run.script durableCheck_durable .refl hy, hs, Impl.cleanCheck_spec hclean,
    hsize, ?_, hclosed, hsummary, ?_⟩
  · intro p e he
    exact of_decide_eq_true (List.all_eq_true.mp hraw (p, e) (Table.mem_toList.mpr he))
  · split at hrefused
    · rename_i message heq
      exact ⟨message, heq⟩
    · cases hrefused

end BufferFabric
