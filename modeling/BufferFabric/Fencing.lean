import BufferFabric.Invariants

/-!
# Fencing loops

A fencing loop over an exact ledger can only be stopped by a failed write: the units of a
record that holds some can always be returned.
-/

namespace BufferFabric

theorem Op.Fences.safe {s₀ t : Impl} {op : Op} {a : Label × Bool} (hop : op.Fences)
    (h : op.Allows s₀ t a) : a.1.Safe := by
  obtain ⟨l, w⟩ := a
  cases l with
  | lostRelease =>
      obtain ⟨q, hq⟩ := h
      exact absurd hq (hop.2.2.1 q)
  | release r units =>
      obtain ⟨q, hq, -⟩ := h
      exact absurd hq (hop.2.2.1 q)
  | brokenReturn r units =>
      rcases h with rfl | ⟨q, hq, -⟩
      · exact .inl rfl
      · exact absurd hq (hop.2.2.1 q)
  | _ => trivial

theorem Exact.trace {s₀ s t : Impl} {op : Op} (h : Exact s) (hop : op.Fences)
    (ht : op.Trace s₀ s t) : Exact t :=
  ht.invariant (fun _ _ _ hi ha hm ↦ hi.move (hop.safe ha) hm) h

theorem Op.Trace.failures_le {s₀ s t : Impl} {op : Op} (h : op.Trace s₀ s t) :
    s.store.failures ≤ t.store.failures :=
  h.invariant (I := fun u ↦ s.store.failures ≤ u.store.failures)
    (fun _ _ _ hi _ hm ↦ hi.trans hm.failures_le) (Nat.le_refl _)

namespace Impl

variable {s t : Impl} {state : AllocationState}

theorem journal_failures {record : JournalRecord} {e : Status}
    (h : s.journal record = (.error e, t)) : s.store.failures < t.store.failures := by
  have hfail := journal_failures_eq h
  rw [if_neg nofun] at hfail
  omega

/-- An exact ledger fences a record that holds units, unless the write fails. -/
theorem fenceAllocationLocked_ok (h : Exact s) {key : AllocationId} {r : AllocationRecord}
    (hr : s.allocations.lookup key = some r) (hholds : r.state.holdsUnits = true) :
    (s.fenceAllocationLocked key r state).1 = .ok () ∨
      s.store.failures < (s.fenceAllocationLocked key r state).2.store.failures := by
  obtain ⟨entry, hl⟩ := (h.sound.placed key r hr hholds).pool
  have hok : (s.applyReleaseUnits r.pool entry r).1 = .ok () :=
    h.sound.applyReleaseUnits_ok hr hholds hl rfl rfl rfl fun _ _ ↦ Nat.le_refl _
  obtain ⟨pools, hpools, -, -⟩ := applyReleaseUnits_spec (r := r) hl
  unfold fenceAllocationLocked
  rw [hl]
  dsimp only
  rw [hholds, if_neg (by simp)]
  rcases happly : s.applyReleaseUnits r.pool entry r with ⟨x, s₁⟩
  rw [happly] at hok hpools
  simp only at hok hpools
  subst hok
  dsimp only
  split
  · rename_i e s₂ hj
    have hlt := journal_failures hj
    rw [hpools] at hlt
    exact .inr hlt
  · exact .inl rfl

/-- A fencing loop over an exact ledger runs to its end, unless a write fails. -/
theorem fenceEach_ok {stop : Impl → Bool} {select : Impl → AllocationRecord → Bool}
    (hstate : state.holdsUnits = false)
    (hexpired : state = .expired → ∀ t r, select t r = true → r.state = .reserved)
    (ids : List AllocationId) (tally : FenceTally) (h : Exact s) :
    (∃ tally', (fenceEach stop select state ids tally s).1 = .ok tally') ∨
      s.store.failures < (fenceEach stop select state ids tally s).2.store.failures := by
  have hop : Op.checkpoint.Fences := by simp [Op.Fences]
  induction ids generalizing tally s with
  | nil => exact .inl ⟨tally, rfl⟩
  | cons id ids ih =>
      unfold fenceEach
      split
      · exact .inl ⟨tally, rfl⟩
      split
      · exact ih tally h
      rename_i r hr
      split
      · exact ih tally h
      rename_i hsel
      rw [Bool.not_eq_true, Bool.or_eq_false_iff, Bool.not_eq_false', Bool.not_eq_false'] at hsel
      obtain ⟨hholds, hsel⟩ := hsel
      have hone : (s.fenceAllocationLocked id r state).1 = .ok () ∨
          s.store.failures < (s.fenceAllocationLocked id r state).2.store.failures :=
        fenceAllocationLocked_ok h hr hholds
      have htrace : Op.checkpoint.Trace s s (s.fenceAllocationLocked id r state).2 :=
        fenceAllocationLocked_trace hop hr hstate fun hx ↦ hexpired hx s r hsel
      split
      · rename_i e s₁ heq
        rw [heq] at hone
        exact .inr (hone.resolve_left (by simp))
      · rename_i u s₁ heq
        rw [heq] at htrace
        have hle := htrace.failures_le
        rcases ih _ (h.trace hop htrace) with hok | hlt
        · exact .inl hok
        · exact .inr (Nat.lt_of_le_of_lt hle hlt)

/-- A fencing loop that fails lost a write. -/
theorem fenceEach_ends {stop : Impl → Bool} {select : Impl → AllocationRecord → Bool}
    {ids : List AllocationId} {tally : FenceTally} {e : Status}
    (heq : fenceEach stop select state ids tally s = (.error e, t))
    (hstate : state.holdsUnits = false)
    (hexpired : state = .expired → ∀ t r, select t r = true → r.state = .reserved)
    (h : Exact s) : s.store.failures < t.store.failures := by
  have hends : (∃ tally', (fenceEach stop select state ids tally s).1 = .ok tally') ∨
      s.store.failures < (fenceEach stop select state ids tally s).2.store.failures :=
    fenceEach_ok hstate hexpired ids tally h
  rw [heq] at hends
  rcases hends with ⟨tally', hok⟩ | hlt
  · cases hok
  · exact hlt

end Impl

end BufferFabric
