import BufferFabric.Alarms

/-!
# Pools that close

`check_closure` on the rows of a pool: they add up, and what the pool uses and lends stays within
its usable units and the allowance of its policy.
-/

namespace BufferFabric

structure PoolDescriptor.Balances (d : PoolDescriptor) (allowance : ℕ) (x : Row → ℕ) : Prop where
  fits : x .reserved + x .committed < 18446744073709551616
  classes : x .pinned + x .reclaimable = x .reserved + x .committed
  shares : x .own + x .borrowed = x .reserved + x .committed + x .lent
  total : d.rawUnits.toNat + x .borrowed + (x .own - d.usableUnits.toNat) < 18446744073709551616
  own_le : x .own ≤ d.usableUnits.toNat + allowance
  lent_le : x .lent ≤ d.usableUnits.toNat + allowance

/-- What a record takes from the pinned and the reclaimable units it takes from those of its
state. -/
theorem AllocationRecord.contrib_classes (r : AllocationRecord) (p : PoolId) :
    r.contrib p .pinned + r.contrib p .reclaimable =
      r.contrib p .reserved + r.contrib p .committed := by
  unfold contrib share lentShare
  by_cases hstate : r.state = .reserved <;> by_cases hclass : r.reclaimClass = .pinned <;>
    simp [hstate, hclass]

namespace PoolDescriptor.Balances

variable {d : PoolDescriptor} {allowance : ℕ} {x y : Row → ℕ}

/-- The buckets of the queues do not matter. -/
theorem congr (h : d.Balances allowance x) (hsame : ∀ f, f.Checked → y f = x f) :
    d.Balances allowance y := by
  obtain ⟨hfits, hclasses, hshares, htotal, hown, hlent⟩ := h
  simp only [← hsame .reserved trivial, ← hsame .committed trivial, ← hsame .pinned trivial,
    ← hsame .reclaimable trivial, ← hsame .own trivial, ← hsame .borrowed trivial,
    ← hsame .lent trivial] at *
  exact ⟨hfits, hclasses, hshares, htotal, hown, hlent⟩

/-- What is left when one record's share is taken from a balanced pool balances. -/
theorem sub_contrib (h : d.Balances allowance x) {r : AllocationRecord} {p : PoolId}
    (hle : ∀ f, f.Checked → r.contrib p f ≤ x f) :
    d.Balances allowance fun f ↦ x f - r.contrib p f := by
  obtain ⟨hfits, hclasses, hshares, htotal, hown, hlent⟩ := h
  have hcontrib := r.contrib_own p
  have hclass := r.contrib_classes p
  have hres := hle .reserved trivial
  have hcom := hle .committed trivial
  have hpin := hle .pinned trivial
  have hrec := hle .reclaimable trivial
  have ho := hle .own trivial
  have hb := hle .borrowed trivial
  have hl := hle .lent trivial
  exact ⟨by omega, by omega, by omega, by omega, by omega, by omega⟩

end PoolDescriptor.Balances

theorem PoolDescriptor.usableUnits_toNat {d : PoolDescriptor} (hd : d.IsValid) :
    d.usableUnits.toNat + d.protectedUnits.toNat = d.rawUnits.toNat := by
  obtain ⟨-, -, -, -, hprot, -⟩ := PoolDescriptor.isValid_iff.mp hd
  rw [usableUnits, if_pos hprot, Word.toNat_sub (Word.le_iff.mp hprot)]
  exact Nat.sub_add_cancel (Word.le_iff.mp hprot)

/-- The check of a pool passes exactly what is balanced, lends no more than it may use, and has a
left side of 64 bits. -/
theorem PoolAccounting.closed_iff {a : PoolAccounting} {mode : OvercommitMode} {limit : UInt64} :
    poolViolations a mode limit = [] ↔
      a.Balanced mode limit ∧ a.lentOut.toNat ≤ a.usable.toNat + limit.toNat ∧
        a.raw.toNat + a.borrowedIn.toNat + a.overcommitUsed.toNat < 18446744073709551616 := by
  refine ⟨fun h ↦ ⟨balanced_of_closed h, ?_⟩, fun h ↦ h.1.closed h.2.1 h.2.2⟩
  rw [poolViolations_nil] at h
  obtain ⟨-, -, -, -, ⟨hfits, -⟩, -, -, -, -, husage⟩ := h
  simp only [not_or] at hfits
  obtain ⟨⟨hl₁, hl₂⟩, -⟩ := hfits
  constructor
  · have hlent : a.lentOut.toNat ≤ a.ownUsage.toNat := by
      have hlt := Word.toNat_lt a.lentOut
      unfold ownUsage
      rw [toNat_satAdd]
      omega
    rw [Word.lt_iff, toNat_satAdd] at husage
    omega
  · have htotal := Word.toNat_lt (a.raw + a.borrowedIn + a.overcommitUsed)
    rwa [toNat_add_of_not_overflow hl₂, toNat_add_of_not_overflow hl₁] at htotal

namespace Impl

variable {s : Impl} {e : PoolEntry} {policy : PoolPolicy}

theorem checkClosure_iff_violations (hp : s.policies.lookup e.descriptor.policy = some policy) :
    s.checkClosure e = .ok () ↔
      poolViolations (s.accountingOf e) policy.overcommit.mode policy.overcommit.limitUnits =
        [] := by
  unfold checkClosure
  rw [AccountingReport.status_eq_ok, hp]
  exact List.isEmpty_iff

/-- The pool closes exactly if its rows balance. -/
theorem checkClosure_iff_balances (hd : e.descriptor.IsValid)
    (hp : s.policies.lookup e.descriptor.policy = some policy) (hvalid : policy.IsValid) :
    s.checkClosure e = .ok () ↔ e.descriptor.Balances policy.allowanceUnits.toNat e.read := by
  have husable : e.usable.toNat + e.descriptor.protectedUnits.toNat =
      e.descriptor.rawUnits.toNat := PoolDescriptor.usableUnits_toNat hd
  obtain ⟨hlimit, -, -⟩ := hvalid.limits
  have hover := e.overcommitUsed_toNat
  have hfree := e.freeUnits_toNat
  have halloc : e.allocated.toNat =
      (e.reservedUnits.toNat + e.committedUnits.toNat) % 18446744073709551616 :=
    UInt64.toNat_add _ _
  rw [checkClosure_iff_violations hp, PoolAccounting.closed_iff, hlimit]
  have hunits : (s.accountingOf e).ownUnits =
      e.allocated.toNat - e.borrowedIn.toNat + e.lentOut.toNat := rfl
  constructor
  · rintro ⟨⟨-, -, hsplit, hclass, hown, hfree', hover', hover_le, -⟩, hlent, htotal⟩
    rw [hunits] at hown hfree' hover'
    simp only [accountingOf] at hsplit hclass hfree' hover' hover_le hlent htotal
    have hlt := Word.toNat_lt e.allocated
    refine ⟨?_, ?_, ?_, ?_, ?_, ?_⟩
    all_goals simp only [PoolEntry.read]
    · omega
    · omega
    · omega
    · change e.descriptor.rawUnits.toNat + e.borrowedIn.toNat +
        (e.ownUsage.toNat - e.usable.toNat) < _
      omega
    · change e.ownUsage.toNat ≤ e.usable.toNat + _
      omega
    · exact hlent
  · rintro ⟨hfits, hclasses, hshares, htotal, hown_le, hlent_le⟩
    simp only [PoolEntry.read] at hfits hclasses hshares htotal hown_le hlent_le
    change e.descriptor.rawUnits.toNat + e.borrowedIn.toNat +
      (e.ownUsage.toNat - e.usable.toNat) < _ at htotal
    change e.ownUsage.toNat ≤ e.usable.toNat + _ at hown_le
    have hmod := Nat.mod_eq_of_lt hfits
    refine ⟨⟨?_, ?_, ?_, ?_, ?_, ?_, ?_, ?_, ?_⟩, hlent_le, ?_⟩
    all_goals try rw [hunits]
    all_goals try simp only [accountingOf]
    all_goals try omega
    intro hmode
    apply Word.eq_of_toNat
    have hzero : policy.allowanceUnits = 0 := by
      unfold PoolPolicy.allowanceUnits
      cases hm : policy.overcommit.mode with
      | forbid => rfl
      | bounded => exact absurd hm hmode
    rw [hzero, UInt64.toNat_zero] at hown_le
    rw [UInt64.toNat_zero]
    omega

end Impl

end BufferFabric
