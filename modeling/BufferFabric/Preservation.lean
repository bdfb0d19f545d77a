import BufferFabric.Soundness

/-!
# Every move keeps the ledger sound

One lemma for each kind of change, and from these the moves, the calls and the runs of a
session. The moves that break a ledger need an unsound one to start from, apart from a
release that could not be journaled and a release whose split overflows.
-/

namespace BufferFabric

open Outcome

namespace Sound

variable {s t : Impl} {lost lost' : List AllocationRecord}

theorem usable_le (h : Sound s lost) {p : PoolId} {e : PoolEntry}
    (he : s.pools.lookup p = some e) : e.usable.toNat ≤ 1152921504606846976 := by
  obtain ⟨-, hvalid⟩ := h.pool_id p e he
  obtain ⟨-, -, -, hraw, hprot, -⟩ := PoolDescriptor.isValid_iff.mp hvalid
  unfold PoolEntry.usable PoolDescriptor.usableUnits
  rw [if_pos hprot, Word.toNat_sub (Word.le_iff.mp hprot)]
  have hraw : e.descriptor.rawUnits.toNat ≤ 1152921504606846976 := Word.le_iff.mp hraw
  omega

/-! ### Grants -/

/-- The share of a granted record and what it does to the own usage and the borrowed units
of any pool. -/
theorem grant_rows (h : Sound s lost) {key : PoolId} {entry : PoolEntry} {policy : PoolPolicy}
    {r : AllocationRecord} (hfits : GrantFits s key entry policy r) {p : PoolId} {e : PoolEntry}
    (he : s.pools.lookup p = some e) :
    e.ownUsage.toNat + r.contrib p .own ≤ 2305843009213693952 ∧
      e.borrowedIn.toNat + r.contrib p .borrowed ≤ 1152921504606846976 ∧
      ∀ f, e.read f + r.contrib p f < 18446744073709551616 := by
  obtain ⟨hpool, hplaced, hown, hborrowed, hlender⟩ := h.grant_placed hfits
  have hb := hplaced.borrowed_eq
  have hle := hplaced.borrow_le
  have hmax := hplaced.le_max
  have hshare : r.contrib p .own = (if r.pool = p then r.units.toNat - r.borrowUnits.toNat else 0) +
      (if r.lender = p then r.borrowUnits.toNat else 0) := by
    simp only [AllocationRecord.contrib, AllocationRecord.share, AllocationRecord.lentShare,
      hfits.holds, if_true, hb]
  have hshare' : r.contrib p .borrowed = if r.pool = p then r.borrowUnits.toNat else 0 := by
    simp only [AllocationRecord.contrib, AllocationRecord.share, AllocationRecord.lentShare,
      hfits.holds, if_true, hb, ite_self, Nat.add_zero]
  have hself : r.pool = p → e = entry := by
    intro hp
    have hl := hfits.pool_lookup
    rw [← hpool, hp, he] at hl
    exact Option.some.inj hl
  have hlent : r.lender = p → r.borrowUnits.toNat ≠ 0 →
      e.ownUsage.toNat + r.borrowUnits.toNat ≤ 1152921504606846976 ∧ r.pool ≠ p := by
    intro hl hz
    have hz' : r.borrowUnits ≠ 0 := Word.ne_zero_iff.mpr (by omega)
    obtain ⟨l, hlook, hroom⟩ := hlender hz'
    rw [hl, he] at hlook
    have hle' := Option.some.inj hlook
    subst hle'
    have husable := h.usable_le he
    obtain ⟨-, hne, -⟩ := hplaced.lender hz'
    refine ⟨by omega, ?_⟩
    intro hp
    exact hne (hl.trans hp.symm)
  have hownle := h.own_le p e he
  have hborrowedle := h.borrowed_le p e he
  have hread := h.read_bound he
  have hcontrib : ∀ f, r.contrib p f ≤ r.contrib p .own + r.contrib p .borrowed :=
    fun f ↦ r.contrib_le_own_borrowed p f
  have hown' : e.ownUsage.toNat + r.contrib p .own ≤ 2305843009213693952 := by
    rw [hshare]
    by_cases hp : r.pool = p
    · have := hself hp
      subst this
      by_cases hl : r.lender = p
      · by_cases hz : r.borrowUnits.toNat = 0
        · rw [if_pos hp, if_pos hl]
          omega
        · exact absurd hp (hlent hl hz).2
      · rw [if_pos hp, if_neg hl]
        omega
    · rw [if_neg hp]
      split
      · rename_i hl
        by_cases hz : r.borrowUnits.toNat = 0
        · omega
        · have := (hlent hl hz).1
          omega
      · omega
  have hborrowed' : e.borrowedIn.toNat + r.contrib p .borrowed ≤ 1152921504606846976 := by
    rw [hshare']
    split
    · rename_i hp
      have := hself hp
      subst this
      exact hborrowed
    · omega
  refine ⟨hown', hborrowed', ?_⟩
  intro f
  have h₁ := hread f
  have h₂ := hcontrib f
  omega

/-- In a sound ledger a planned grant can be applied. -/
theorem applyCommitUnits_ok (h : Sound s lost) {key : PoolId} {entry : PoolEntry}
    {policy : PoolPolicy} {r : AllocationRecord} (hfits : GrantFits s key entry policy r)
    {j : Impl} (hj : j.pools = s.pools) :
    (j.applyCommitUnits key entry r.units r.borrowUnits r.lender).1 = .ok () := by
  obtain ⟨hpool, hplaced, hown, hborrowed, hlender⟩ := h.grant_placed hfits
  have hmax := hplaced.le_max
  have hle := hplaced.borrow_le
  have hownle := h.own_le key entry hfits.pool_lookup
  apply Impl.applyCommitUnits_fits hle
  · omega
  · omega
  · intro hb
    obtain ⟨hv, hne, -⟩ := hplaced.lender hb
    obtain ⟨l, hl, hroom⟩ := hlender hb
    rw [hj]
    refine ⟨hv, by rw [← hpool]; exact hne, l, hl, ?_, hroom⟩
    have : l.lentOut.toNat ≤ 3458764513820540928 := h.read_bound hl .lent
    omega

theorem grant (h : Sound s lost) {key : PoolId} {entry : PoolEntry} {policy : PoolPolicy}
    {r : AllocationRecord} (hfits : GrantFits s key entry policy r)
    (hpools : ∀ p, t.pools.lookup p = (s.pools.lookup p).map (PoolEntry.granted key p r))
    (ha : t.allocations = s.allocations.insert r.id r) (ho : t.policies = s.policies) :
    ∃ lost', Sound t lost' ∧ (s.allocations.lookup r.id = none → lost' = lost) := by
  obtain ⟨hpool, hplaced, -⟩ := h.grant_placed hfits
  subst hpool
  -- A record that is overwritten keeps its units in the rows.
  obtain ⟨lost', hlost', hbooks, hfresh⟩ : ∃ lost', (∀ r' ∈ lost', r'.state.holdsUnits = true ∧
      r'.Placed s.pools) ∧ (∀ p f, t.books lost' p f = s.books lost p f + r.contrib p f) ∧
      (s.allocations.lookup r.id = none → lost' = lost) := by
    cases hold : s.allocations.lookup r.id with
    | none =>
        refine ⟨lost, h.lost_placed, ?_, fun _ ↦ rfl⟩
        intro p f
        have htotal := Table.total_insert_of_notMem (fun _ r ↦ r.contrib p f) r hold
        unfold Impl.books
        rw [ha, htotal]
        omega
    | some old =>
        by_cases hholds : old.state.holdsUnits = true
        · refine ⟨old :: lost, ?_, ?_, by simp⟩
          · intro r' hr'
            rcases List.mem_cons.mp hr' with rfl | hr'
            · exact ⟨hholds, h.placed _ _ hold hholds⟩
            · exact h.lost_placed r' hr'
          · intro p f
            have hreplace := Impl.books_insert lost hold ha p f
            simp only [Impl.books, List.map_cons, List.sum_cons] at hreplace ⊢
            omega
        · refine ⟨lost, h.lost_placed, ?_, by simp⟩
          intro p f
          have hreplace := Impl.books_insert lost hold ha p f
          have hzero := AllocationRecord.contrib_of_not_holds (by simpa using hholds) p f
          rw [hzero] at hreplace
          omega
  refine ⟨lost', ?_, hfresh⟩
  have hread : ∀ p e, s.pools.lookup p = some e → ∀ f,
      (PoolEntry.granted r.pool p r e).read f = e.read f + r.contrib p f := by
    intro p e he f
    exact PoolEntry.read_granted hfits.holds hfits.borrow_le ((h.grant_rows hfits he).2.2 f)
  refine h.step ho (fun p e ↦ PoolEntry.shape_granted r.pool p r e) hpools ?_ hlost' ?_ ?_ ?_
  · intro k r' hr'
    rw [ha, Table.lookup_insert_eq] at hr'
    split at hr'
    · rename_i hk
      have hr' := Option.some.inj hr'
      subst hr'
      exact ⟨hk.symm, hfits.le_max, fun _ ↦ hplaced⟩
    · exact ⟨h.allocation_id k r' hr', h.allocation_units k r' hr', h.placed k r' hr'⟩
  · intro p e he f
    rw [hread p e he f, hbooks p f, h.rows p e he f]
  · intro p e he
    have h₁ := hread p e he .own
    have h₂ := (h.grant_rows hfits he).1
    simp only [PoolEntry.read] at h₁
    omega
  · intro p e he
    have h₁ := hread p e he .borrowed
    have h₂ := (h.grant_rows hfits he).2.1
    simp only [PoolEntry.read] at h₁
    omega

/-! ### Commits and new bindings -/

theorem commit (h : Sound s lost) {key : AllocationId} {r : AllocationRecord} {entry : PoolEntry}
    (hr : s.allocations.lookup key = some r) (hs : r.state = .reserved)
    (hl : s.pools.lookup r.pool = some entry) :
    Sound ((s.putPool r.pool (Impl.committedEntry entry r)).putAllocation key
      (s.committedRecord r)) lost := by
  have hholds : r.state.holdsUnits = true := by
    rw [hs]
    rfl
  have hplaced := h.placed key r hr hholds
  have hplaced' : (s.committedRecord r).Placed s.pools :=
    ⟨hplaced.pos, hplaced.le_max, hplaced.borrow_le, hplaced.pool, hplaced.lender⟩
  have hsame : (s.committedRecord r).share = { r with state := .committed }.share := by
    funext f
    cases f <;> rfl
  have hlent : (s.committedRecord r).lentShare = r.lentShare := by
    funext f
    cases f <;> rfl
  -- Only the own pool sees the difference between the two shares.
  have hread : ∀ p e, s.pools.lookup p = some e → ∀ f,
      (if p = r.pool then Impl.committedEntry e r else e).read f + r.contrib p f =
        e.read f + (s.committedRecord r).contrib p f := by
    intro p e he f
    have hcontrib : (s.committedRecord r).contrib p f =
        (if r.pool = p then { r with state := .committed }.share f else 0) +
          (if r.lender = p then r.lentShare f else 0) := by
      rw [← hsame, ← hlent]
      rfl
    have hcontrib' : r.contrib p f = (if r.pool = p then r.share f else 0) +
        (if r.lender = p then r.lentShare f else 0) := by
      unfold AllocationRecord.contrib
      rw [if_pos hholds]
    rw [hcontrib, hcontrib']
    by_cases hp : p = r.pool
    · rw [if_pos hp, if_pos hp.symm, if_pos hp.symm]
      have hle : r.share f ≤ e.read f := by
        have := h.contrib_le hr he f
        rw [hcontrib', if_pos hp.symm] at this
        omega
      have hfit : e.read f + r.units.toNat < 18446744073709551616 := by
        have h₁ := h.read_bound he f
        have h₂ := hplaced.le_max
        omega
      have := PoolEntry.read_committedEntry hs hle hfit
      omega
    · rw [if_neg hp, if_neg (Ne.symm hp), if_neg (Ne.symm hp)]
  refine h.step (t := (s.putPool r.pool (Impl.committedEntry entry r)).putAllocation key
    (s.committedRecord r)) rfl (g := fun p e ↦ if p = r.pool then Impl.committedEntry e r else e)
    ?_ ?_ ?_ h.lost_placed ?_ ?_ ?_
  · intro p e
    split <;> rfl
  · intro p
    simp only [Impl.putAllocation, Impl.putPool]
    rw [Table.lookup_insert_eq]
    by_cases hp : p = r.pool
    · subst hp
      simp [hl]
    · cases s.pools.lookup p <;> simp [hp]
  · intro k r' hr'
    simp only [Impl.putAllocation, Impl.putPool] at hr'
    rw [Table.lookup_insert_eq] at hr'
    split at hr'
    · rename_i hk
      have hr' := Option.some.inj hr'
      subst hr'
      exact ⟨(h.allocation_id key r hr).trans hk.symm, hplaced.le_max, fun _ ↦ hplaced'⟩
    · exact ⟨h.allocation_id k r' hr', h.allocation_units k r' hr', h.placed k r' hr'⟩
  · intro p e he f
    have h₁ := hread p e he f
    have h₂ := h.rows p e he f
    have h₃ := Impl.books_insert (t := (s.putPool r.pool (Impl.committedEntry entry
      r)).putAllocation key (s.committedRecord r)) lost hr rfl p f
    omega
  · intro p e he
    split <;> exact h.own_le p e he
  · intro p e he
    split <;> exact h.borrowed_le p e he

/-- Exchanging a record for one with the same place and units. -/
theorem replace (h : Sound s lost) {key : AllocationId} {r r' : AllocationRecord}
    (hr : s.allocations.lookup key = some r) (hid : r'.id = r.id)
    (hunits : r'.units.toNat ≤ 1152921504606846976)
    (hplaced : r'.state.holdsUnits = true → r'.Placed s.pools)
    (hcontrib : ∀ p f, r'.contrib p f = r.contrib p f) : Sound (s.putAllocation key r') lost := by
  refine h.step (t := s.putAllocation key r') rfl (g := fun _ e ↦ e) (fun _ _ ↦ rfl) ?_ ?_
    h.lost_placed ?_ h.own_le h.borrowed_le
  · intro p
    exact Option.map_id'.symm
  · intro k r₁ hr₁
    simp only [Impl.putAllocation] at hr₁
    rw [Table.lookup_insert_eq] at hr₁
    split at hr₁
    · rename_i hk
      have hr₁ := Option.some.inj hr₁
      subst hr₁
      exact ⟨(hid.trans (h.allocation_id key r hr)).trans hk.symm, hunits, hplaced⟩
    · exact ⟨h.allocation_id k r₁ hr₁, h.allocation_units k r₁ hr₁, h.placed k r₁ hr₁⟩
  · intro p e he f
    have h₁ := h.rows p e he f
    have h₂ := Impl.books_insert (t := s.putAllocation key r') lost hr rfl p f
    have h₃ := hcontrib p f
    omega

/-! ### Pools and policies -/

theorem policy (h : Sound s lost) {p : PoolPolicy} (hv : p.IsValid)
    (ha : t.allocations = s.allocations) (hp : t.pools = s.pools)
    (ho : t.policies = s.policies.insert p.id p) : Sound t lost := by
  have hsame : Sound { t with policies := s.policies } lost := h.congr ha hp rfl
  refine ⟨hsame.1, hsame.2, hsame.3, hsame.4, hsame.5, ?_, hsame.7, hsame.8, hsame.9, hsame.10⟩
  intro k p' hp'
  rw [ho, Table.lookup_insert_eq] at hp'
  split at hp'
  · rename_i hk
    have hp' := Option.some.inj hp'
    subst hp'
    exact ⟨hk.symm, hv⟩
  · exact h.policy_id k p' hp'

/-- A pool that is not registered has empty books. -/
theorem books_eq_zero (h : Sound s lost) {p : PoolId} (hp : s.pools.lookup p = none) (f : Row) :
    s.books lost p f = 0 := by
  have htable : Table.total (fun _ r ↦ r.contrib p f) s.allocations = 0 := by
    rw [Table.total_eq_zero_iff]
    intro k r hr
    by_cases hholds : r.state.holdsUnits = true
    · exact (h.placed k r hr hholds).contrib_eq_zero hp f
    · exact AllocationRecord.contrib_of_not_holds (by simpa using hholds) p f
  have hlist : (lost.map (·.contrib p f)).sum = 0 := by
    apply List.sum_eq_zero
    intro x hx
    obtain ⟨r, hr, rfl⟩ := List.mem_map.mp hx
    exact (h.lost_placed r hr).2.contrib_eq_zero hp f
  unfold Impl.books
  rw [htable, hlist]

theorem pool (h : Sound s lost) {d : PoolDescriptor} {e : PoolEntry} (hv : d.IsValid)
    (hnew : s.pools.lookup d.id = none)
    (hparent : d.parent.Valid → ∃ e, s.pools.lookup d.parent = some e)
    (hd : e.descriptor = d) (hread : ∀ f, e.read f = 0)
    (ha : t.allocations = s.allocations) (hp : t.pools = s.pools.insert d.id e)
    (ho : t.policies = s.policies) : Sound t lost := by
  have hkeep : ∀ p e', s.pools.lookup p = some e' → ∃ e'', t.pools.lookup p = some e'' := by
    intro p e' he'
    rw [hp, Table.lookup_insert_eq]
    split
    · exact ⟨_, rfl⟩
    · exact ⟨_, he'⟩
  refine ⟨by rw [ha]; exact h.allocation_id, by rw [ha]; exact h.allocation_units, ?_,
    fun r hr ↦ ⟨(h.lost_placed r hr).1, (h.lost_placed r hr).2.mono hkeep⟩, ?_,
    by rw [ho]; exact h.policy_id, ?_, ?_, ?_, ?_⟩
  · intro k r hr hholds
    rw [ha] at hr
    exact (h.placed k r hr hholds).mono hkeep
  · intro p e' he'
    rw [hp, Table.lookup_insert_eq] at he'
    split at he'
    · rename_i hpd
      rw [← Option.some.inj he', hd]
      exact ⟨hpd.symm, hv⟩
    · exact h.pool_id p e' he'
  · intro p e' he' f
    rw [Impl.books_congr ha]
    rw [hp, Table.lookup_insert_eq] at he'
    split at he'
    · rename_i hpd
      rw [← Option.some.inj he', hread, hpd, h.books_eq_zero hnew]
    · exact h.rows p e' he' f
  · intro p e' he'
    rw [hp, Table.lookup_insert_eq] at he'
    split at he'
    · rw [← Option.some.inj he']
      have : e.ownUsage.toNat = 0 := hread .own
      omega
    · exact h.own_le p e' he'
  · intro p e' he'
    rw [hp, Table.lookup_insert_eq] at he'
    split at he'
    · rw [← Option.some.inj he']
      have : e.borrowedIn.toNat = 0 := hread .borrowed
      omega
    · exact h.borrowed_le p e' he'
  · obtain ⟨rank, hrank⟩ := h.ranked
    refine ⟨fun p ↦ if p = d.id then rank d.parent + 1 else rank p, ?_⟩
    have hne : ∀ {p : PoolId} {e' : PoolEntry}, s.pools.lookup p = some e' → p ≠ d.id := by
      rintro p e' he' rfl
      rw [hnew] at he'
      cases he'
    intro p e' he' hval
    rw [hp, Table.lookup_insert_eq] at he'
    dsimp only
    split at he'
    · rename_i hpd
      rw [← Option.some.inj he', hd] at hval ⊢
      obtain ⟨pe, hpe⟩ := hparent hval
      refine ⟨hkeep _ _ hpe, ?_⟩
      rw [if_neg (hne hpe), if_pos hpd]
      omega
    · rename_i hpd
      obtain ⟨⟨pe, hpe⟩, hlt⟩ := hrank p e' he' hval
      refine ⟨hkeep _ _ hpe, ?_⟩
      rw [if_neg (hne hpe), if_neg hpd]
      exact hlt

theorem removePool (h : Sound s lost) {key : PoolId} {entry : PoolEntry}
    (hl : s.pools.lookup key = some entry)
    (hleaf : ∀ p e, s.pools.lookup p = some e → e.descriptor.parent ≠ key)
    (hlent : entry.lentOut = 0) (halloc : entry.allocated = 0)
    (ha : t.allocations = s.allocations) (hp : t.pools = s.pools.erase key)
    (ho : t.policies = s.policies) : Sound t lost := by
  -- The emptied pool provides for no record, as owner or as lender.
  have hzero : s.books lost key .reserved = 0 ∧ s.books lost key .committed = 0 ∧
      s.books lost key .lent = 0 := by
    have hsum : entry.reservedUnits.toNat + entry.committedUnits.toNat = 0 := by
      have h₁ : entry.reservedUnits.toNat ≤ _ := h.read_bound hl .reserved
      have h₂ : entry.committedUnits.toNat ≤ _ := h.read_bound hl .committed
      have h₃ : (entry.reservedUnits + entry.committedUnits).toNat =
          entry.reservedUnits.toNat + entry.committedUnits.toNat := Word.toNat_add (by omega)
      have h₄ : entry.reservedUnits + entry.committedUnits = 0 := halloc
      rw [h₄, UInt64.toNat_zero] at h₃
      omega
    have hr : entry.reservedUnits.toNat = _ := h.rows key entry hl .reserved
    have hc : entry.committedUnits.toNat = _ := h.rows key entry hl .committed
    have hn : entry.lentOut.toNat = _ := h.rows key entry hl .lent
    rw [hlent, UInt64.toNat_zero] at hn
    exact ⟨by omega, by omega, hn.symm⟩
  have hfree : ∀ r : AllocationRecord, r.state.holdsUnits = true → r.Placed s.pools →
      r.contrib key .reserved = 0 → r.contrib key .committed = 0 → r.contrib key .lent = 0 →
      r.Placed t.pools := by
    intro r hholds hplaced hr hc hn
    have hpool : r.pool ≠ key := by
      intro heq
      simp only [AllocationRecord.contrib, hholds, if_true, heq, AllocationRecord.share] at hr hc
      have := hplaced.pos
      by_cases hst : r.state = .reserved
      · rw [if_pos hst] at hr
        omega
      · rw [if_neg hst] at hc
        omega
    have hlender : r.borrowUnits ≠ 0 → r.lender ≠ key := by
      intro hb heq
      simp only [AllocationRecord.contrib, hholds, if_true, heq, AllocationRecord.lentShare,
        hplaced.borrowed_eq] at hn
      rw [Word.ne_zero_iff] at hb
      omega
    have hkeep : ∀ p, p ≠ key → t.pools.lookup p = s.pools.lookup p := by
      intro p hne
      rw [hp, Table.lookup_erase_eq, if_neg hne]
    refine ⟨hplaced.pos, hplaced.le_max, hplaced.borrow_le, ?_, ?_⟩
    · rw [hkeep _ hpool]
      exact hplaced.pool
    · intro hb
      rw [hkeep _ (hlender hb)]
      exact hplaced.lender hb
  have hrecord : ∀ {k : AllocationId} {r : AllocationRecord} (f : Row),
      s.allocations.lookup k = some r → s.books lost key f = 0 → r.contrib key f = 0 := by
    intro k r f hr hbooks
    have := Table.le_total (fun _ r ↦ r.contrib key f) hr
    unfold Impl.books at hbooks
    omega
  have hlostrec : ∀ {r : AllocationRecord} (f : Row), r ∈ lost → s.books lost key f = 0 →
      r.contrib key f = 0 := by
    intro r f hr hbooks
    have := List.single_le_sum (fun x _ ↦ Nat.zero_le x) _
      (List.mem_map_of_mem (f := fun r : AllocationRecord ↦ r.contrib key f) hr)
    unfold Impl.books at hbooks
    omega
  have hsome : ∀ p e, t.pools.lookup p = some e → s.pools.lookup p = some e := by
    intro p e he
    rw [hp, Table.lookup_erase_eq] at he
    split at he
    · cases he
    · exact he
  refine ⟨by rw [ha]; exact h.allocation_id, by rw [ha]; exact h.allocation_units, ?_, ?_,
    fun p e he ↦ h.pool_id p e (hsome p e he), by rw [ho]; exact h.policy_id, ?_,
    fun p e he ↦ h.own_le p e (hsome p e he), fun p e he ↦ h.borrowed_le p e (hsome p e he), ?_⟩
  · intro k r hr hholds
    rw [ha] at hr
    exact hfree r hholds (h.placed k r hr hholds) (hrecord _ hr hzero.1) (hrecord _ hr hzero.2.1)
      (hrecord _ hr hzero.2.2)
  · intro r hr
    obtain ⟨hholds, hplaced⟩ := h.lost_placed r hr
    exact ⟨hholds, hfree r hholds hplaced (hlostrec _ hr hzero.1) (hlostrec _ hr hzero.2.1)
      (hlostrec _ hr hzero.2.2)⟩
  · intro p e he f
    rw [Impl.books_congr ha]
    exact h.rows p e (hsome p e he) f
  · obtain ⟨rank, hrank⟩ := h.ranked
    refine ⟨rank, ?_⟩
    intro p e he hval
    obtain ⟨⟨pe, hpe⟩, hlt⟩ := hrank p e (hsome p e he) hval
    refine ⟨⟨pe, ?_⟩, hlt⟩
    rw [hp, Table.lookup_erase_eq, if_neg (hleaf p e (hsome p e he))]
    exact hpe

/-- A pool may take another size. -/
theorem resize (h : Sound s lost) {key : PoolId} {e : PoolEntry} {raw prot : UInt64}
    {g c : Generation} (hl : s.pools.lookup key = some e)
    (hraw : raw ≠ 0 ∧ raw ≤ kMaxUnitsPerPool) (hprot : prot < raw) :
    Sound (s.putPool key (e.resized raw prot g c)) lost := by
  have hsome : ∀ p e', (s.putPool key (e.resized raw prot g c)).pools.lookup p = some e' →
      ∃ e₀, s.pools.lookup p = some e₀ ∧ (e' = e₀ ∨ (e₀ = e ∧ e' = e.resized raw prot g c)) := by
    intro p e' he'
    simp only [Impl.putPool] at he'
    rw [Table.lookup_insert_eq] at he'
    split at he'
    · rename_i hp
      subst hp
      exact ⟨e, hl, .inr ⟨rfl, (Option.some.inj he').symm⟩⟩
    · exact ⟨e', he', .inl rfl⟩
  have hkeep : ∀ p e₀, s.pools.lookup p = some e₀ →
      ∃ e', (s.putPool key (e.resized raw prot g c)).pools.lookup p = some e' := by
    intro p e₀ he₀
    simp only [Impl.putPool]
    rw [Table.lookup_insert_eq]
    split
    · exact ⟨_, rfl⟩
    · exact ⟨_, he₀⟩
  have hvalid : (e.resized raw prot g c).descriptor.IsValid := by
    obtain ⟨-, hv⟩ := h.pool_id key e hl
    rw [PoolDescriptor.isValid_iff] at hv ⊢
    obtain ⟨h₁, h₂, -, -, -, -, h₇, h₈, h₉⟩ := hv
    have hlt : prot.toNat < raw.toNat := Word.lt_iff.mp hprot
    refine ⟨h₁, h₂, hraw.1, hraw.2, Word.le_iff.mpr hlt.le, ?_, h₇, h₈, h₉⟩
    rintro heq
    have : prot = raw := heq
    rw [this] at hlt
    omega
  refine ⟨h.allocation_id, h.allocation_units, fun k r hr hh ↦ (h.placed k r hr hh).mono hkeep,
    fun r hr ↦ ⟨(h.lost_placed r hr).1, (h.lost_placed r hr).2.mono hkeep⟩, ?_, h.policy_id, ?_,
    ?_, ?_, ?_⟩
  · intro p e' he'
    obtain ⟨e₀, he₀, rfl | ⟨rfl, rfl⟩⟩ := hsome p e' he'
    · exact h.pool_id p e' he₀
    · exact ⟨(h.pool_id p e₀ he₀).1, hvalid⟩
  · intro p e' he' f
    obtain ⟨e₀, he₀, rfl | ⟨rfl, rfl⟩⟩ := hsome p e' he'
    · exact h.rows p e' he₀ f
    · have hread : (e₀.resized raw prot g c).read f = e₀.read f := by cases f <;> rfl
      rw [hread]
      exact h.rows p e₀ he₀ f
  · intro p e' he'
    obtain ⟨e₀, he₀, rfl | ⟨rfl, rfl⟩⟩ := hsome p e' he'
    · exact h.own_le p e' he₀
    · exact h.own_le p e₀ he₀
  · intro p e' he'
    obtain ⟨e₀, he₀, rfl | ⟨rfl, rfl⟩⟩ := hsome p e' he'
    · exact h.borrowed_le p e' he₀
    · exact h.borrowed_le p e₀ he₀
  · obtain ⟨rank, hrank⟩ := h.ranked
    refine ⟨rank, ?_⟩
    intro p e' he' hval
    have hparent : ∃ e₀, s.pools.lookup p = some e₀ ∧
        e'.descriptor.parent = e₀.descriptor.parent := by
      obtain ⟨e₀, he₀, rfl | ⟨rfl, rfl⟩⟩ := hsome p e' he'
      · exact ⟨e', he₀, rfl⟩
      · exact ⟨e₀, he₀, rfl⟩
    obtain ⟨e₀, he₀, heq⟩ := hparent
    rw [heq] at hval ⊢
    obtain ⟨⟨pe, hpe⟩, hlt⟩ := hrank p e₀ he₀ hval
    exact ⟨hkeep _ _ hpe, hlt⟩

/-! ### Releases -/

/-- What is left of a record after an exact release. -/
theorem remainder_placed (h : Sound s lost) {key : AllocationId} {r : AllocationRecord}
    {units : UInt64} (hr : s.allocations.lookup key = some r)
    (hholds : r.state.holdsUnits = true) (hle : units.toNat ≤ r.units.toNat)
    (hexact : r.ExactSplit units) :
    (s.remainder r units).id = r.id ∧
      (s.remainder r units).units.toNat ≤ 1152921504606846976 ∧
      ((s.remainder r units).state.holdsUnits = true → (s.remainder r units).Placed s.pools) := by
  have hplaced := h.placed key r hr hholds
  have hunits := h.allocation_units key r hr
  by_cases hall : units = r.units
  · subst hall
    have hstate := AllocationRecord.remainder_all_state s r
    have hzero : (s.remainder r r.units).units.toNat = 0 := by
      unfold Impl.remainder
      simp
    refine ⟨?_, by omega, ?_⟩
    · unfold Impl.remainder
      simp
    · intro hh
      rw [hstate] at hh
      cases hh
  · have hlt : units.toNat < r.units.toNat := by
      have hne : units.toNat ≠ r.units.toNat := fun h ↦ hall (Word.eq_of_toNat h)
      omega
    have hprod := hexact.resolve_left hall
    obtain ⟨hbu, hbr, hbl⟩ := AllocationRecord.releasedBorrow_bounds hplaced.borrow_le hlt hprod
    obtain ⟨left, hleft, -, hpool, -, -, hlender, hid, hlu, hlb⟩ :=
      AllocationRecord.split_values (s := s) hplaced.borrow_le hlt hprod
    rw [hleft]
    refine ⟨hid, by omega, fun _ ↦ ⟨by omega, by omega, by omega, ?_, ?_⟩⟩
    · rw [hpool]
      exact hplaced.pool
    · intro hb
      rw [hlender, hpool]
      apply hplaced.lender
      rw [Word.ne_zero_iff] at hb ⊢
      omega

end Sound

/-! ### Changes and moves -/

/-- A move that returns units journals them, and only splits records as `R` says. -/
def Label.Splits (R : AllocationRecord → UInt64 → Prop) : Label → Prop
  | .lostRelease => False
  | .release r units | .brokenReturn r units => R r units
  | _ => True

theorem Label.Splits.mono {R R' : AllocationRecord → UInt64 → Prop} {l : Label}
    (hle : ∀ r units, R r units → R' r units) (h : l.Splits R) : l.Splits R' := by
  cases l with
  | release r units => exact hle r units h
  | brokenReturn r units => exact hle r units h
  | lostRelease => exact h
  | _ => trivial

def Label.Safe (l : Label) : Prop := l.Splits AllocationRecord.ExactSplit

def Label.Fresh (s : Impl) : Label → Prop
  | .grant r => s.allocations.lookup r.id = none
  | _ => True

/-- A sound ledger never breaks by itself. -/
theorem Change.not_broken {s m : Impl} {l : Label} {record : Option JournalRecord}
    {lost : List AllocationRecord} (h : Change s l record m) (hs : Sound s lost)
    (hsafe : l.Safe) : l ≠ .brokenGrant ∧ ∀ r units, l ≠ .brokenReturn r units := by
  cases h with
  | brokenGrant key entry policy r pools j hfits hj hfail _ =>
      exact absurd (hs.applyCommitUnits_ok hfits hj) hfail
  | brokenReturn key r part entry units pools hr hholds hl hpart hfail _ =>
      refine absurd ?_ hfail
      have hplaced := hs.placed key r hr hholds
      rcases hpart with ⟨rfl, -⟩ | ⟨hle, rfl⟩
      · exact hs.applyReleaseUnits_ok hr hholds hl rfl rfl rfl fun _ _ ↦ Nat.le_refl _
      · refine hs.applyReleaseUnits_ok hr hholds hl rfl rfl rfl ?_
        intro p f
        have := AllocationRecord.contrib_split (s := s) hplaced.borrow_le hle hsafe p f
        omega
  | _ => exact ⟨by simp, by simp⟩

/-- A safe change keeps the ledger sound, and loses no record unless it grants an id that
is in use. -/
theorem Change.sound {s m : Impl} {l : Label} {record : Option JournalRecord}
    {lost : List AllocationRecord} (h : Change s l record m) (hs : Sound s lost)
    (hsafe : l.Safe) : ∃ lost', Sound m lost' ∧ (l.Fresh s → lost' = lost) := by
  obtain ⟨hgrant, hreturn⟩ := h.not_broken hs hsafe
  cases h with
  | flags b backends => exact ⟨lost, hs.congr rfl rfl rfl, fun _ ↦ rfl⟩
  | counters c h => exact ⟨lost, hs.congr rfl rfl rfl, fun _ ↦ rfl⟩
  | attempt a =>
      obtain ⟨order, attempts, h⟩ := s.recordAttempt_frame a
      rw [h]
      exact ⟨lost, hs.congr rfl rfl rfl, fun _ ↦ rfl⟩
  | runtime pools runtime h =>
      refine ⟨lost, ?_, fun _ ↦ rfl⟩
      refine hs.step (t := { s with pools := pools }) rfl
        (g := fun p e ↦ { e with runtime := runtime p e }) (fun _ _ ↦ rfl) h ?_ hs.lost_placed ?_
        (fun p e he ↦ hs.own_le p e he) (fun p e he ↦ hs.borrowed_le p e he)
      · exact fun k r hr ↦ ⟨hs.allocation_id k r hr, hs.allocation_units k r hr, hs.placed k r hr⟩
      · intro p e he f
        have := hs.rows p e he f
        cases f <;> exact this
  | capacity c hfits => exact ⟨lost, hs.congr rfl rfl rfl, fun _ ↦ rfl⟩
  | policy p hv hid hroom => exact ⟨lost, hs.policy hv rfl rfl rfl, fun _ ↦ rfl⟩
  | pool d hv hnew hid hparent hpolicy hroom hfits =>
      refine ⟨lost, hs.pool hv hnew hparent rfl ?_ rfl rfl rfl, fun _ ↦ rfl⟩
      intro f
      cases f <;> rfl
  | removePool key entry hl hleaf hlent halloc =>
      exact ⟨lost, hs.removePool hl hleaf hlent halloc rfl rfl rfl, fun _ ↦ rfl⟩
  | dropQueues key hgone => exact ⟨lost, hs.congr rfl rfl rfl, fun _ ↦ rfl⟩
  | queue key q names hkey => exact ⟨lost, hs.congr rfl rfl rfl, fun _ ↦ rfl⟩
  | retire key d g hd => exact ⟨lost, hs.congr rfl rfl rfl, fun _ ↦ rfl⟩
  | pressure p hepoch => exact ⟨lost, hs.congr rfl rfl rfl, fun _ ↦ rfl⟩
  | resize key entry raw prot g c hl hraw hprot hfits =>
      exact ⟨lost, hs.resize hl hraw hprot, fun _ ↦ rfl⟩
  | fence key r entry state pools hr hholds hstate hl hpools hexpired =>
      refine ⟨lost, hs.returnUnits hr hholds ?_ ?_ hpools rfl rfl, fun _ ↦ rfl⟩
      · intro p f
        have hzero := AllocationRecord.contrib_of_not_holds (r := s.fencedRecord state r) hstate p f
        omega
      · refine ⟨rfl, hs.allocation_units key r hr, ?_⟩
        intro hh
        have hh : state.holdsUnits = true := hh
        rw [hstate] at hh
        cases hh
  | grant key entry policy r pools hfits hpools => exact hs.grant hfits hpools rfl rfl
  | brokenGrant => exact absurd rfl hgrant
  | commit key r entry hr hstate hl => exact ⟨lost, hs.commit hr hstate hl, fun _ ↦ rfl⟩
  | release key r entry units pools hr hholds hunits hle hl hpools =>
      have hplaced := hs.placed key r hr hholds
      have hexact : r.ExactSplit units := hsafe
      have hsplit : ∀ p f, (s.releasedPart r units).contrib p f +
          (s.remainder r units).contrib p f = r.contrib p f :=
        AllocationRecord.contrib_split hplaced.borrow_le hle hexact
      have hpart : (s.releasedPart r units).state.holdsUnits = true := hholds
      exact ⟨lost, hs.returnUnits hr hpart hsplit (hs.remainder_placed hr hholds hle hexact)
        hpools rfl rfl, fun _ ↦ rfl⟩
  | rebind key r bound hr hholds hepoch hqueue =>
      have hplaced := hs.placed key r hr hholds
      refine ⟨lost, hs.replace hr rfl (hs.allocation_units key r hr) (fun _ ↦ ?_) ?_, fun _ ↦ rfl⟩
      · exact ⟨hplaced.pos, hplaced.le_max, hplaced.borrow_le, hplaced.pool, hplaced.lender⟩
      · intro p f
        exact AllocationRecord.contrib_congr rfl rfl rfl rfl rfl rfl rfl p f
  | brokenReturn key r part entry units => exact absurd rfl (hreturn r units)

end BufferFabric
