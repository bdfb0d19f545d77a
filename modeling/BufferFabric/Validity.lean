import BufferFabric.PartialRelease

/-!
# Valid entries

What the loaders check of an entry holds of every entry in memory, in every run: policies
and pools are valid, and no allocation has more units than a pool may.
-/

namespace BufferFabric

structure View.Valid (v : View) : Prop where
  policies : ∀ k p, v.policies k = some p → p.IsValid
  pools : ∀ k d, v.pools k = some d → d.1.IsValid
  allocations : ∀ k r, v.allocations k = some r → r.units ≤ kMaxUnitsPerPool

theorem View.Valid.pool {s : Impl} (h : s.view.Valid) {p : PoolId} {e : PoolEntry}
    (he : s.pools.lookup p = some e) : e.descriptor.IsValid := by
  refine h.pools p e.shape ?_
  simp only [Impl.view, he, Option.map_some]

namespace View

theorem blank_valid : blank.Valid := by
  refine ⟨?_, ?_, ?_⟩ <;> simp [blank]

theorem Valid.apply {v : View} (h : v.Valid) {record : JournalRecord} (hr : record.Acceptable) :
    (v.apply record).Valid := by
  cases record with
  | policyUpsert p =>
      refine ⟨?_, h.pools, h.allocations⟩
      intro k p' hp'
      rcases update_cases hp' with ⟨-, heq⟩ | ⟨-, hp'⟩
      · rw [← Option.some.inj heq]
        exact hr
      · exact h.policies k p' hp'
  | poolUpsert d g =>
      refine ⟨h.policies, ?_, h.allocations⟩
      intro k d' hd'
      rcases update_cases hd' with ⟨-, heq⟩ | ⟨-, hd'⟩
      · rw [← Option.some.inj heq]
        exact hr
      · exact h.pools k d' hd'
  | poolRemoved id =>
      refine ⟨h.policies, ?_, h.allocations⟩
      intro k d' hd'
      rcases update_cases hd' with ⟨-, hd'⟩ | ⟨-, hd'⟩
      · cases hd'
      · exact h.pools k d' hd'
  | allocation op r =>
      refine ⟨h.policies, h.pools, ?_⟩
      intro k r' hr'
      rcases update_cases hr' with ⟨-, heq⟩ | ⟨-, hr'⟩
      · rw [← Option.some.inj heq]
        exact hr
      · exact h.allocations k r' hr'
  | _ => exact ⟨h.policies, h.pools, h.allocations⟩

theorem Valid.foldl {v : View} (h : v.Valid) {records : List JournalRecord}
    (hr : ∀ r ∈ records, r.Acceptable) : (records.foldl View.apply v).Valid := by
  induction records generalizing v with
  | nil => exact h
  | cons record records ih =>
      exact ih (h.apply (hr _ List.mem_cons_self)) fun r hmem ↦ hr r (List.mem_cons_of_mem _ hmem)

theorem Valid.load {v : View} (h : v.Valid) {i : Image} (hi : i.Loadable) : (v.load i).Valid := by
  refine ⟨?_, ?_, ?_⟩
  · intro k p hp
    rcases Table.overlay_cases hp with ⟨hmem, -⟩ | hp
    · exact hi.policies.2 p hmem
    · exact h.policies k p hp
  · intro k d hd
    rcases Table.overlay_cases hd with ⟨hmem, -⟩ | hd
    · exact hi.pools.2 d hmem
    · exact h.pools k d hd
  · intro k r hr
    rcases Table.overlay_cases hr with ⟨hmem, -⟩ | hr
    · exact hi.allocations.2 r hmem
    · exact h.allocations k r hr

theorem Valid.settled {v : View} (h : v.Valid) (tick : Tick) : (v.settled tick).Valid := by
  refine ⟨h.policies, h.pools, ?_⟩
  intro k r hr
  obtain ⟨r₀, hr₀, rfl⟩ := Option.map_eq_some_iff.mp hr
  have hle := h.allocations k r₀ hr₀
  unfold Impl.expireReserved
  split <;> exact hle

end View

/-- What a change journals is acceptable to the loader. -/
theorem Change.acceptable {s m : Impl} {l : Label} {record : JournalRecord}
    (h : Change s l (some record) m) (hs : s.view.Valid) : record.Acceptable := by
  have hunits : ∀ {k : AllocationId} {r : AllocationRecord}, s.allocations.lookup k = some r →
      r.units ≤ kMaxUnitsPerPool := fun hr ↦ hs.allocations _ _ hr
  cases h with
  | policy p hv => exact hv
  | pool d hv => exact hv
  | resize key entry raw prot g c hl hraw hprot =>
      have hv : entry.descriptor.IsValid := by
        refine hs.pools key entry.shape ?_
        simp only [Impl.view, hl, Option.map_some]
      obtain ⟨hid, hname, -, -, -, -, hrest⟩ := PoolDescriptor.isValid_iff.mp hv
      have hlt := Word.lt_iff.mp hprot
      refine PoolDescriptor.isValid_iff.mpr ⟨hid, hname, hraw.1, hraw.2, ?_, ?_, hrest⟩
      · exact Word.le_iff.mpr hlt.le
      · intro heq
        exact hlt.ne (congrArg UInt64.toNat heq)
  | grant key entry policy r pools hfits => exact Word.le_iff.mpr hfits.le_max
  | brokenGrant key entry policy r pools j hfits => exact Word.le_iff.mpr hfits.le_max
  | fence key r entry state pools hr =>
      have hle := hunits hr
      exact hle
  | commit key r entry hr =>
      have hle := hunits hr
      exact hle
  | rebind key r bound hr =>
      have hle := hunits hr
      exact hle
  | release key r entry units pools hr hholds hpos hle =>
      have hleft : (s.remainder r units).units = r.units - units := by
        unfold Impl.remainder
        dsimp only
        split <;> rfl
      have hmax := Word.le_iff.mp (hunits hr)
      change (s.remainder r units).units ≤ kMaxUnitsPerPool
      rw [hleft, Word.le_iff, Word.toNat_sub hle]
      omega
  | _ => trivial

theorem Change.valid {s m : Impl} {l : Label} {record : Option JournalRecord}
    (h : Change s l record m) (hk : s.view.Keyed) (hs : s.view.Valid) : m.view.Valid := by
  by_cases hl : l = .brokenGrant
  · subst hl
    cases h with
    | brokenGrant key entry policy r pools j hfits hj hfail hsh =>
        rw [Impl.view_eq_of_shapes hsh]
        exact hs
  · have happlied : (s.view.applied record).Valid := by
      cases record with
      | none => exact hs
      | some record => exact hs.apply (h.acceptable hs)
    have hagrees := h.view_agrees hk hl
    refine ⟨?_, ?_, ?_⟩
    · rw [hagrees.policies]
      exact happlied.policies
    · rw [hagrees.pools]
      exact happlied.pools
    · rw [hagrees.allocations]
      exact happlied.allocations

/-! ### Every run -/

/-- A successful open leaves the view alone, or loads a directory whose entries were
checked. -/
theorem Impl.openFabric_view {s t : Impl} {config : FabricConfig} {boot : BootInputs}
    (h : s.openFabric config boot = (.ok (), t)) :
    t.view = s.view ∨ ((∀ i, s.store.disk.snapshot = some i → i.Loadable) ∧
      (∀ r ∈ s.store.disk.journal, r.Acceptable) ∧
      t.view = (s.store.disk.view s.view).settled s.tick) := by
  obtain ⟨-, -, durable, m, hload, hbegin⟩ := openFabric_ok h
  have ht : t.view = m.view := by
    rcases beginEpoch_ok hbegin with ⟨-, rfl⟩ | ⟨-, hj⟩
    · rfl
    · rw [eq_of_journal hj]
      rfl
  rw [ht]
  rcases openDurable_ok hload with ⟨-, rfl⟩ | ⟨-, -, hload, -⟩
  · exact .inl rfl
  · obtain ⟨hsnap, hjournal, hview, -⟩ := loadFromStore_view hload
    exact .inr ⟨hsnap, hjournal, hview⟩

theorem View.Valid.disk {v : View} (h : v.Valid) {d : Disk}
    (hsnap : ∀ i, d.snapshot = some i → i.Loadable) (hjournal : ∀ r ∈ d.journal, r.Acceptable) :
    (d.view v).Valid := by
  unfold Disk.view
  refine View.Valid.foldl ?_ hjournal
  cases hi : d.snapshot with
  | none => exact h
  | some i => exact h.load (hsnap i hi)

theorem Impl.exec_valid {s : Impl} (hk : s.view.Keyed) (hs : s.view.Valid) (c : Call) :
    (s.exec c).2.view.Valid := by
  have h := (s.exec_trace c).invariant (I := fun t ↦ t.view.Keyed ∧ t.view.Valid) ?_ ⟨hk, hs⟩
  · exact h.2
  · rintro t a u ⟨hk, hs⟩ - hm
    exact ⟨hm.keyed hk, hm.keeps_view (fun _ _ hc ↦ hc.valid hk hs) hs⟩

/-- In every run, whatever happens to the directory, every entry is valid. -/
theorem System.Run.valid {allow : System → Event → Prop} {y : System} (h : System.Run allow y)
    {s : Impl} (hlive : y.live = some s) : s.view.Valid := by
  refine (System.Run.views (I := fun v ↦ v.Keyed ∧ v.Valid)
    ⟨Impl.keyed_empty, View.blank_valid⟩ ?_ ?_ h hlive).2
  · rintro s c ⟨hk, hs⟩
    exact ⟨Impl.exec_keyed hk c, Impl.exec_valid hk hs c⟩
  · rintro s t config boot heq ⟨hk, hs⟩
    refine ⟨Impl.openFabric_keyed heq hk, ?_⟩
    rcases Impl.openFabric_view heq with hview | ⟨hsnap, hjournal, hview⟩
    · rw [hview]
      exact hs
    · rw [hview]
      exact (hs.disk hsnap hjournal).settled _

end BufferFabric
