import BufferFabric.Draining
import BufferFabric.Staleness

/-!
# Revoking allocations

What a fencing loop has done when it is through or when it is told to stop: it has revoked the
allocations of a prefix of its list, and nothing else. Every pool has lost what these
allocations held of it.
-/

namespace BufferFabric

namespace Impl

variable {s t u : Impl} {state : AllocationState} {A B : List AllocationId}

def ownShare (s : Impl) (p : PoolId) (k : AllocationId) : ℕ :=
  ((s.allocations.lookup k).map (·.contrib p .own)).getD 0

/-- What a successful return takes from the own usage of a pool was there. -/
theorem applyReleaseUnits_own {r : AllocationRecord} {entry : PoolEntry}
    (hl : s.pools.lookup r.pool = some entry)
    (h : (s.applyReleaseUnits r.pool entry r).1 = .ok ()) (p : PoolId) :
    r.contrib p .own ≤ s.row p .own := by
  obtain ⟨hown, -, hlender⟩ := applyReleaseUnits_bounds h
  unfold AllocationRecord.contrib
  split
  swap
  · exact Nat.zero_le _
  simp only [AllocationRecord.share, AllocationRecord.lentShare]
  have hrow : s.row r.pool .own = entry.ownUsage.toNat := by
    unfold row
    rw [hl]
    rfl
  by_cases hb : r.borrowed = 0
  · rw [hb, UInt64.toNat_zero, ite_self, Nat.add_zero]
    split
    · rename_i hp
      rw [← hp, hrow]
      rw [hb, UInt64.toNat_zero] at hown
      exact hown
    · exact Nat.zero_le _
  obtain ⟨l, hlook, -, hcovered⟩ := hlender hb
  rw [Table.lookup_insert_eq] at hlook
  split at hlook
  · rename_i heq
    obtain rfl := Option.some.inj hlook
    have hleft : ((entry.settleSplit r).debitUsage r).ownUsage.toNat =
        entry.ownUsage.toNat - (r.units.toNat - r.borrowed.toNat) := by
      have hsame : (entry.settleSplit r).ownUsage = entry.ownUsage := by
        unfold PoolEntry.settleSplit
        cases r.state <;> cases r.reclaimClass <;> rfl
      change ((entry.settleSplit r).ownUsage - (r.units - r.borrowed)).toNat = _
      have hparts := Word.toNat_sub r.borrowed_le
      rw [hsame, Word.toNat_sub (by omega), hparts]
    rw [heq]
    split
    · rename_i hp
      rw [← hp, hrow]
      omega
    · exact Nat.zero_le _
  · rename_i hne
    have hlend : s.row r.lender .own = l.ownUsage.toNat := by
      unfold row
      rw [hlook]
      rfl
    by_cases hp : r.pool = p
    · rw [if_pos hp, if_neg (fun hp' ↦ hne (hp'.trans hp.symm)), ← hp, hrow]
      exact hown
    · rw [if_neg hp, Nat.zero_add]
      split
      · rename_i hp'
        rw [← hp', hlend]
        exact hcovered
      · exact Nat.zero_le _

structure Revoked (s : Impl) (state : AllocationState) (A : List AllocationId) (t : Impl) :
    Prop where
  frame : s.FencedFrom t
  records : ∀ k, t.allocations.lookup k =
    (s.allocations.lookup k).map fun r ↦ if k ∈ A then s.fencedRecord state r else r
  own : ∀ p, t.row p .own + (A.map (s.ownShare p)).sum = s.row p .own
  others : ∀ p, (∀ k ∈ A, ∀ r, s.allocations.lookup k = some r →
    r.pool ≠ p ∧ (r.borrowed ≠ 0 → r.lender ≠ p)) → t.pools.lookup p = s.pools.lookup p

theorem Revoked.refl (s : Impl) (state : AllocationState) : s.Revoked state [] s := by
  refine ⟨.refl s, fun k ↦ ?_, fun p ↦ rfl, fun p _ ↦ rfl⟩
  simp

theorem FencedFrom.tick_eq (h : s.FencedFrom t) : t.tick = s.tick := by
  obtain ⟨pools, allocations, store, heq⟩ := h.frame
  rw [heq]

/-- Outside the list every record is as before. -/
theorem Revoked.lookup_of_notMem (h : s.Revoked state A t) {k : AllocationId} (hk : k ∉ A) :
    t.allocations.lookup k = s.allocations.lookup k := by
  rw [h.records k]
  simp [hk]

theorem Revoked.trans (h : s.Revoked state A t) (h' : t.Revoked state B u)
    (hdisjoint : ∀ k ∈ B, k ∉ A) : s.Revoked state (A ++ B) u := by
  have hlookup : ∀ k ∈ B, t.allocations.lookup k = s.allocations.lookup k := fun k hk ↦
    h.lookup_of_notMem (hdisjoint k hk)
  refine ⟨h.frame.trans h'.frame, fun k ↦ ?_, fun p ↦ ?_, fun p hp ↦ ?_⟩
  · rw [h'.records k, h.records k, Option.map_map]
    congr 1
    funext r
    have htick : t.fencedRecord state = s.fencedRecord state := by
      funext r
      unfold fencedRecord
      rw [h.frame.tick_eq]
    by_cases hA : k ∈ A
    · have hB : k ∉ B := fun hB ↦ hdisjoint k hB hA
      simp [hA, hB]
    · simp [hA, htick]
  · have hshare : B.map (t.ownShare p) = B.map (s.ownShare p) :=
      List.map_congr_left fun k hk ↦ by
        unfold ownShare
        rw [hlookup k hk]
    have hB := h'.own p
    have hA := h.own p
    rw [hshare] at hB
    rw [List.map_append, List.sum_append]
    omega
  · rw [h'.others p fun k hk r hr ↦ hp k (List.mem_append_right A hk) r
      ((hlookup k hk).symm.trans hr)]
    exact h.others p fun k hk ↦ hp k (List.mem_append_left B hk)

theorem Revoked.lookup_pool {p : PoolId} {entry : PoolEntry} (h : s.Revoked state A t)
    (hl : s.pools.lookup p = some entry) :
    ∃ e, t.pools.lookup p = some e ∧ e.shape = entry.shape ∧
      e.ownUsage.toNat = entry.ownUsage.toNat - (A.map (s.ownShare p)).sum := by
  have hshape := h.frame.shapes p
  rw [hl, Option.map_some, Option.map_eq_some_iff] at hshape
  obtain ⟨e, he, hshape⟩ := hshape
  have hown := h.own p
  unfold row at hown
  rw [hl, he] at hown
  have hown : e.ownUsage.toNat + _ = entry.ownUsage.toNat := hown
  exact ⟨e, he, hshape, by omega⟩

/-- Fencing one allocation. -/
theorem fenceAllocationLocked_revoked {key : AllocationId} {r : AllocationRecord} {v : Unit}
    (hr : s.allocations.lookup key = some r)
    (h : s.fenceAllocationLocked key r state = (.ok v, t)) : s.Revoked state [key] t := by
  obtain ⟨hframe, hallocations⟩ := fenceAllocationLocked_done h
  unfold fenceAllocationLocked at h
  split at h
  · cases h
  rename_i entry hl
  split at h
  · cases h
  obtain ⟨pools, hpools, hshapes, hok⟩ := applyReleaseUnits_spec (s := s) (r := r) hl
  split at h
  · cases h
  rename_i w s₁ happly
  rw [happly] at hpools hok
  dsimp only at hpools
  subst hpools
  obtain ⟨hholds, hreturned⟩ := hok rfl
  have hcovered := applyReleaseUnits_own hl (congrArg Prod.fst happly)
  dsimp only at h
  split at h
  · cases h
  rename_i w' s₂ hj
  obtain ⟨-, rfl⟩ := Prod.mk.inj h
  have hs₂ := eq_of_journal hj
  have hpools₂ : s₂.pools = pools := by
    rw [hs₂]
    rfl
  have hcount : ∀ p, ((s₂.countFence r.pool state).pools.lookup p).map (·.ownUsage) =
      (pools.lookup p).map (·.ownUsage) ∧
      (p ≠ r.pool → (s₂.countFence r.pool state).pools.lookup p = pools.lookup p) := by
    intro p
    rw [← hpools₂]
    unfold countFence modifyPool
    split
    · exact ⟨rfl, fun _ ↦ rfl⟩
    · rename_i e he
      simp only [putPool]
      rw [Table.lookup_insert_eq]
      refine ⟨?_, fun hne ↦ if_neg hne⟩
      split
      · rename_i hp
        rw [hp, he]
        cases state <;> rfl
      · rfl
  refine ⟨hframe, fun k ↦ ?_, fun p ↦ ?_, fun p hp ↦ ?_⟩
  · rw [hallocations, Table.lookup_insert_eq]
    split
    · rename_i hk
      rw [hk, hr]
      simp
    · rename_i hk
      simp [hk]
  · have hshare : ([key].map (s.ownShare p)).sum = r.contrib p .own := by
      simp only [List.map_cons, List.map_nil, List.sum_cons, List.sum_nil, Nat.add_zero]
      unfold ownShare
      rw [hr]
      rfl
    have hrow : (s₂.countFence r.pool state).row p .own =
        ((pools.lookup p).map (·.read .own)).getD 0 := by
      have hown := congrArg (Option.map UInt64.toNat) (hcount p).1
      rw [Option.map_map, Option.map_map] at hown
      exact congrArg (·.getD 0) hown
    have hle := hcovered p
    rw [hshare, hrow, hreturned p]
    unfold row at hle ⊢
    cases he : s.pools.lookup p with
    | none =>
        rw [he] at hle
        simpa using hle
    | some e =>
        rw [he] at hle
        exact PoolEntry.read_returned hholds hle
  · obtain ⟨hpool, hlender⟩ := hp key (List.mem_singleton_self key) r hr
    rw [(hcount p).2 (Ne.symm hpool), hreturned p]
    cases s.pools.lookup p with
    | none => rfl
    | some e =>
        have hno : ¬(p = r.lender ∧ r.borrowed ≠ 0) := fun hc ↦ hlender hc.2 hc.1.symm
        simp [PoolEntry.returned, Ne.symm hpool, hno]

def unitsUnder (s : Impl) (f : AllocationRecord → UInt64) (A : List AllocationId) : ℕ :=
  (A.map fun k ↦ ((s.allocations.lookup k).map fun r ↦ (f r).toNat).getD 0).sum

structure Tallied (s : Impl) (tally : FenceTally) (A : List AllocationId) (tally' : FenceTally) :
    Prop where
  allocations : tally'.allocations = tally.allocations + UInt64.ofNat A.length
  units : tally'.units = tally.units + UInt64.ofNat (s.unitsUnder (·.units) A)
  borrow : tally'.borrow = tally.borrow + UInt64.ofNat (s.unitsUnder (·.borrowUnits) A)

theorem unitsUnder_cons {f : AllocationRecord → UInt64} {k : AllocationId} {r : AllocationRecord}
    (hr : s.allocations.lookup k = some r) :
    s.unitsUnder f (k :: A) = (f r).toNat + s.unitsUnder f A := by
  unfold unitsUnder
  rw [List.map_cons, List.sum_cons, hr]
  rfl

theorem Revoked.unitsUnder_eq (h : s.Revoked state A t) {f : AllocationRecord → UInt64}
    (hdisjoint : ∀ k ∈ B, k ∉ A) : t.unitsUnder f B = s.unitsUnder f B := by
  unfold unitsUnder
  refine congrArg List.sum (List.map_congr_left fun k hk ↦ ?_)
  rw [h.lookup_of_notMem (hdisjoint k hk)]

/-- A fencing loop over allocations that hold units revokes a prefix of them: up to the first
state that tells it to stop. -/
theorem fenceEach_revoked {stop : Impl → Bool} {ids : List AllocationId} (hids : ids.Nodup)
    (hholds : ∀ k ∈ ids, ∃ r, s.allocations.lookup k = some r ∧ r.state.holdsUnits = true)
    {tally tally' : FenceTally}
    (h : fenceEach stop (fun _ _ ↦ true) state ids tally s = (.ok tally', t)) :
    ∃ A, A <+: ids ∧ s.Revoked state A t ∧ s.Tallied tally A tally' ∧
      (A = ids ∨ stop t = true) ∧
      ∀ B k C, A = B ++ k :: C → ∃ u, s.Revoked state B u ∧ stop u = false := by
  induction ids generalizing s tally with
  | nil =>
      obtain ⟨hok, rfl⟩ := Prod.mk.inj h
      obtain rfl := Except.ok.inj hok
      refine ⟨[], List.prefix_refl _, .refl s state, ⟨?_, ?_, ?_⟩, .inl rfl, fun B k C hB ↦ ?_⟩
      · exact (UInt64.add_zero _).symm
      · exact (UInt64.add_zero _).symm
      · exact (UInt64.add_zero _).symm
      · cases B <;> cases hB
  | cons id ids ih =>
      obtain ⟨hid, hids⟩ := List.nodup_cons.mp hids
      unfold fenceEach at h
      split at h
      · rename_i hstop
        obtain ⟨hok, rfl⟩ := Prod.mk.inj h
        obtain rfl := Except.ok.inj hok
        refine ⟨[], List.nil_prefix, .refl s state, ⟨?_, ?_, ?_⟩, .inr hstop, fun B k C hB ↦ ?_⟩
        · exact (UInt64.add_zero _).symm
        · exact (UInt64.add_zero _).symm
        · exact (UInt64.add_zero _).symm
        · cases B <;> cases hB
      rename_i hgo
      obtain ⟨r, hr, hrh⟩ := hholds id List.mem_cons_self
      rw [hr] at h
      dsimp only at h
      rw [hrh, if_neg (by simp)] at h
      split at h
      · cases h
      rename_i v s₁ hone
      have hfirst := fenceAllocationLocked_revoked hr hone
      have hother : ∀ k ∈ ids, k ∉ [id] := fun k hk hk' ↦ by
        rw [List.mem_singleton.mp hk'] at hk
        exact hid hk
      obtain ⟨A, hinit, hrevoked, htally, hend, hsteps⟩ := ih hids (fun k hk ↦ by
        rw [hfirst.lookup_of_notMem (hother k hk)]
        exact hholds k (List.mem_cons_of_mem id hk)) h
      have hdisjoint : ∀ k ∈ A, k ∉ [id] := fun k hk ↦ hother k (hinit.subset hk)
      refine ⟨id :: A, List.cons_prefix_cons.mpr ⟨rfl, hinit⟩, hfirst.trans hrevoked hdisjoint,
        ⟨?_, ?_, ?_⟩, hend.imp_left (congrArg (id :: ·)), fun B k C hB ↦ ?_⟩
      · rw [htally.allocations, List.length_cons, UInt64.add_assoc, UInt64.ofNat_add,
          UInt64.add_comm (UInt64.ofNat _)]
        rfl
      · rw [htally.units, hfirst.unitsUnder_eq hdisjoint, unitsUnder_cons hr, UInt64.add_assoc,
          UInt64.ofNat_add, UInt64.ofNat_toNat]
      · rw [htally.borrow, hfirst.unitsUnder_eq hdisjoint, unitsUnder_cons hr, UInt64.add_assoc,
          UInt64.ofNat_add, UInt64.ofNat_toNat]
      · cases B with
        | nil => exact ⟨s, .refl s state, Bool.not_eq_true _ ▸ hgo⟩
        | cons b B =>
            obtain ⟨rfl, hA⟩ := List.cons.inj hB
            obtain ⟨u, hu, hstop⟩ := hsteps B k C hA
            refine ⟨u, hfirst.trans hu fun k' hk' ↦ hdisjoint k' ?_, hstop⟩
            rw [hA]
            exact List.mem_append_left _ hk'

end Impl

end BufferFabric
