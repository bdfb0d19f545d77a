import BufferFabric.Closing
import BufferFabric.Lending
import BufferFabric.Partition

/-!
# The units of a resource

An allocation takes its own units from the resource of its pool, and what it borrowed from the
resource of its lender. What all allocations take of a resource fits the capacity that is
published for it, as far as no policy admits overcommit.
-/

namespace BufferFabric

def Impl.poolsOn (s : Impl) (resource : ResourceId) (g : PoolEntry → ℕ) : ℕ :=
  Table.total (fun _ e ↦ if e.descriptor.resource = resource then g e else 0) s.pools

def Impl.StandsOn (s : Impl) (p : PoolId) (resource : ResourceId) : Prop :=
  (s.pools.lookup p).any (fun e ↦ decide (e.descriptor.resource = resource)) = true

instance (s : Impl) (p : PoolId) (resource : ResourceId) : Decidable (s.StandsOn p resource) :=
  inferInstanceAs (Decidable (_ = _))

def Impl.chargedTo (s : Impl) (resource : ResourceId) (r : AllocationRecord) : ℕ :=
  if r.state.holdsUnits then
    (if s.StandsOn r.pool resource then r.units.toNat - r.borrowUnits.toNat else 0) +
      (if s.StandsOn r.lender resource then r.borrowUnits.toNat else 0)
  else 0

def Impl.charged (s : Impl) (resource : ResourceId) : ℕ :=
  Table.total (fun _ r ↦ s.chargedTo resource r) s.allocations

namespace Impl

variable {s : Impl} {resource : ResourceId} {p : PoolId}

theorem standsOn_of_lookup {e : PoolEntry} (h : s.pools.lookup p = some e) :
    s.StandsOn p resource ↔ e.descriptor.resource = resource := by
  unfold StandsOn
  rw [h, Option.any_some, decide_eq_true_eq]

/-- The pools of a resource that are this one. -/
theorem poolsOn_single {e : PoolEntry} (h : s.pools.lookup p = some e) (n : ℕ) :
    Table.total (fun q e ↦ if e.descriptor.resource = resource then (if p = q then n else 0) else 0)
      s.pools = if s.StandsOn p resource then n else 0 := by
  have hat : ∀ q e', s.pools.lookup q = some e' →
      (if e'.descriptor.resource = resource then (if p = q then n else 0) else 0) =
        if p = q then (if s.StandsOn p resource then n else 0) else 0 := by
    intro q e' he'
    by_cases heq : p = q
    · subst heq
      simp only [standsOn_of_lookup he', if_true]
    · simp only [if_neg heq, ite_self]
  rw [Table.total_congr hat]
  exact Table.total_single h _

theorem poolsOn_add (g g' : PoolEntry → ℕ) :
    s.poolsOn resource (fun e ↦ g e + g' e) = s.poolsOn resource g + s.poolsOn resource g' := by
  unfold poolsOn
  rw [← Table.total_add]
  refine Table.total_congr fun q e _ ↦ ?_
  split <;> rfl

theorem poolsOn_mono {g g' : PoolEntry → ℕ}
    (h : ∀ q e, s.pools.lookup q = some e → g e ≤ g' e) :
    s.poolsOn resource g ≤ s.poolsOn resource g' := by
  refine Table.total_mono fun q e he ↦ ?_
  split
  · exact h q e he
  · exact Nat.le_refl 0

end Impl

/-- An allocation enters the own usage of the pools on a resource with what it takes of it. -/
theorem AllocationRecord.Placed.chargedTo {s : Impl} {r : AllocationRecord}
    (h : r.Placed s.pools) (hholds : r.state.holdsUnits = true) (resource : ResourceId) :
    Table.total (fun p e ↦ if e.descriptor.resource = resource then r.contrib p .own else 0)
      s.pools = s.chargedTo resource r := by
  have hborrowed : r.borrowed = r.borrowUnits := h.borrowed_eq
  obtain ⟨e, he⟩ := h.pool
  have hsplit : ∀ q e', s.pools.lookup q = some e' →
      (if e'.descriptor.resource = resource then r.contrib q .own else 0) =
        (if e'.descriptor.resource = resource then
          (if r.pool = q then r.units.toNat - r.borrowUnits.toNat else 0) else 0) +
        (if e'.descriptor.resource = resource then
          (if r.lender = q then r.borrowUnits.toNat else 0) else 0) := by
    intro q e' _
    unfold AllocationRecord.contrib AllocationRecord.share AllocationRecord.lentShare
    rw [if_pos hholds, hborrowed]
    split <;> rfl
  rw [Table.total_congr hsplit, Table.total_add, Impl.poolsOn_single he]
  unfold Impl.chargedTo
  rw [if_pos hholds]
  by_cases hb : r.borrowUnits = 0
  · have hzero : r.borrowUnits.toNat = 0 := by rw [hb]; rfl
    simp only [hzero, ite_self, Table.total_zero]
  · obtain ⟨-, -, l, hl⟩ := h.lender hb
    rw [Impl.poolsOn_single hl]

/-- The own usage of the pools on a resource is what the allocations take of it. -/
theorem Exact.ownUsage_on {s : Impl} (hs : Exact s) (resource : ResourceId) :
    s.poolsOn resource (·.ownUsage.toNat) = s.charged resource := by
  have hrows : ∀ p e, s.pools.lookup p = some e →
      (if e.descriptor.resource = resource then e.ownUsage.toNat else 0) =
        Table.total (fun _ r ↦ if e.descriptor.resource = resource then r.contrib p .own else 0)
          s.allocations := by
    intro p e he
    have hread : e.ownUsage.toNat = s.books [] p .own := hs.sound.rows p e he .own
    split
    · rw [hread]
      unfold Impl.books
      rw [List.map_nil, List.sum_nil, Nat.add_zero]
    · rw [Table.total_zero]
  unfold Impl.poolsOn Impl.charged
  rw [Table.total_congr hrows, Table.total_comm]
  refine Table.total_congr fun k r hr ↦ ?_
  cases hholds : r.state.holdsUnits with
  | true => exact (hs.sound.placed k r hr hholds).chargedTo hholds resource
  | false =>
      unfold Impl.chargedTo
      rw [hholds]
      simp only [AllocationRecord.contrib_of_not_holds hholds, ite_self, Table.total_zero,
        Bool.false_eq_true, if_false]

/-- In a session that starts from nothing, the pools fit the capacities. -/
theorem SessionRun.partitioned {P : Impl → Call → Prop} {start s : Impl}
    (hstart : FreshlyOpened start) (h : SessionRun P start s) : s.Partitioned := by
  have hblank := hstart.blank
  have hboth : s.view.Keyed ∧ s.Partitioned := by
    refine h.invariant (I := fun t ↦ t.view.Keyed ∧ t.Partitioned) ?_ ?_
      ⟨hblank.exact.keyed, fun resource ↦ ?_⟩
    · rintro t c ⟨hk, hp⟩ -
      refine (t.exec_trace c).invariant (I := fun u ↦ u.view.Keyed ∧ u.Partitioned) ?_
        ⟨hk, hp.congr rfl rfl⟩
      exact fun _ _ _ hu _ hm ↦ ⟨hm.keyed hu.1, hm.partitioned hu.1 hu.2⟩
    · rintro t u ⟨hk, hp⟩ hr
      have hview := hr.view_eq
      exact ⟨hview ▸ hk, hp.congr (congrArg View.capacities hview) (congrArg View.pools hview)⟩
    · unfold Impl.partitioned
      rw [hblank.pools]
      exact Nat.zero_le _
  exact hboth.2

/-- In a session whose calls keep the room of their pools, no resource is oversold: what
allocations take of it, and the headroom its pools protect, are at most its published capacity
and the overcommit that the policies of its pools admit. -/
theorem resource_never_oversold {start s : Impl} (hstart : FreshlyOpened start)
    (hrun : SessionRun Impl.KeepsRoom start s) (resource : ResourceId) :
    s.charged resource + s.poolsOn resource (·.descriptor.protectedUnits.toNat) ≤
      ((s.capacities.lookup resource).map fun c ↦ c.rawUnits.toNat).getD 0 +
        s.poolsOn resource fun e ↦ (s.allowanceUnits e).toNat := by
  have hclosed : Closed s := hrun.invariant (fun _ _ h hc ↦ h.exec hc) (fun _ _ h hr ↦ h.rehash hr)
    hstart.blank.closed
  have hfits := hrun.partitioned hstart resource
  have hraw : s.partitioned resource (fun _ ↦ True) =
      s.poolsOn resource (·.descriptor.rawUnits.toNat) := by
    unfold Impl.partitioned Impl.poolsOn
    simp only [and_true]
  have hpool : ∀ p e, s.pools.lookup p = some e →
      e.ownUsage.toNat + e.descriptor.protectedUnits.toNat ≤
        e.descriptor.rawUnits.toNat + (s.allowanceUnits e).toNat := by
    intro p e he
    have hroom := hclosed.room p e he
    obtain ⟨-, hvalid⟩ := hclosed.exact.sound.pool_id p e he
    obtain ⟨-, -, -, -, hprot, -⟩ := PoolDescriptor.isValid_iff.mp hvalid
    unfold PoolEntry.usable PoolDescriptor.usableUnits at hroom
    rw [if_pos hprot, Word.toNat_sub (Word.le_iff.mp hprot)] at hroom
    have hle := Word.le_iff.mp hprot
    omega
  rw [← hclosed.exact.ownUsage_on resource, ← Impl.poolsOn_add]
  rw [hraw] at hfits
  calc s.poolsOn resource (fun e ↦ e.ownUsage.toNat + e.descriptor.protectedUnits.toNat)
      ≤ s.poolsOn resource fun e ↦ e.descriptor.rawUnits.toNat + (s.allowanceUnits e).toNat :=
        Impl.poolsOn_mono hpool
    _ = s.poolsOn resource (·.descriptor.rawUnits.toNat) +
          s.poolsOn resource fun e ↦ (s.allowanceUnits e).toNat := Impl.poolsOn_add _ _
    _ ≤ _ := Nat.add_le_add_right hfits _

/-- Half of the forty units of a child are borrowed; all of them are taken of one resource. -/
theorem resource_never_oversold_child :
    (smallOpened.play lendingSession.dropLast).charged ⟨1⟩ = 40 ∧
      (smallOpened.play lendingSession.dropLast).charged ⟨1⟩ +
          (smallOpened.play lendingSession.dropLast).poolsOn ⟨1⟩
            (·.descriptor.protectedUnits.toNat) ≤
        (((smallOpened.play lendingSession.dropLast).capacities.lookup ⟨1⟩).map fun c ↦
            c.rawUnits.toNat).getD 0 +
          (smallOpened.play lendingSession.dropLast).poolsOn ⟨1⟩ fun e ↦
            ((smallOpened.play lendingSession.dropLast).allowanceUnits e).toNat := by
  have hadmits : smallOpened.Admits
      (fun s c ↦ (JournalsOk s c ∧ ReleasesWhole s c) ∧ s.LeavesRoom c)
      lendingSession.dropLast := by
    decide +kernel
  have hrun : SessionRun Impl.KeepsRoom smallOpened (smallOpened.play lendingSession.dropLast) :=
    (SessionRun.refl.play hadmits).mono fun _ _ h ↦ ⟨h.1.1, h.1.2.releasesExactly h.1.1, h.2⟩
  have hcharged : (smallOpened.play lendingSession.dropLast).charged ⟨1⟩ = 40 := by
    decide +kernel
  exact ⟨hcharged, resource_never_oversold smallOpened_fresh hrun ⟨1⟩⟩

end BufferFabric
