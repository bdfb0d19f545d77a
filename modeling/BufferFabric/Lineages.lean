import BufferFabric.Reservations

/-!
# The lineage of an allocation

A derived allocation copies the origin of its parent and goes one step deeper. Records keep their
lineage and are never removed, so that the chain of parents stays what it was when the last of
its records was made.
-/

namespace BufferFabric

open Outcome

namespace Impl

variable {s t : Impl} {r r' p : AllocationRecord}

/-- `r` is `n` derivations away from the record its lineage names as the origin. On the way the
ids fall, the origin is the same, and the depth counts down to the record without parent. -/
inductive DerivedIn (s : Impl) : AllocationRecord → ℕ → Prop
  | origin {r : AllocationRecord} (hparent : ¬r.lineage.parent.Valid)
      (horigin : r.lineage.origin = r.id) (hdepth : r.lineage.depth.toNat = 0) : DerivedIn s r 0
  | derived {r p : AllocationRecord} {n : ℕ} (hparent : r.lineage.parent.Valid)
      (hlookup : s.allocations.lookup r.lineage.parent = some p) (hid : p.id = r.lineage.parent)
      (hless : p.id.raw < r.id.raw) (horigin : r.lineage.origin = p.lineage.origin)
      (hdepth : r.lineage.depth.toNat = n + 1) (h : DerivedIn s p n) : DerivedIn s r (n + 1)

def lineageUp (s : Impl) : ℕ → AllocationRecord → Option AllocationRecord
  | 0, r => some r
  | n + 1, r => (s.allocations.lookup r.lineage.parent).bind (s.lineageUp n)

/-- The chain ends in the origin that its first record names. -/
theorem DerivedIn.ends {n : ℕ} (h : s.DerivedIn r n) :
    ∃ o, s.lineageUp n r = some o ∧ ¬o.lineage.parent.Valid ∧ o.id = r.lineage.origin := by
  induction h with
  | origin hparent horigin hdepth => exact ⟨_, rfl, hparent, horigin.symm⟩
  | derived hparent hlookup hid hless horigin hdepth h ih =>
      obtain ⟨o, hup, hlast, hoid⟩ := ih
      refine ⟨o, ?_, hlast, by rw [hoid, horigin]⟩
      unfold lineageUp
      rw [hlookup]
      exact hup

/-- One link of the chain: a record without parent is its own origin, another one goes one step
deeper than its parent. -/
inductive Linked (s : Impl) (r : AllocationRecord) : Prop
  | origin (hparent : ¬r.lineage.parent.Valid) (horigin : r.lineage.origin = r.id)
      (hdepth : r.lineage.depth.toNat = 0)
  | derived {p : AllocationRecord} (hparent : r.lineage.parent.Valid)
      (hlookup : s.allocations.lookup r.lineage.parent = some p)
      (hless : r.lineage.parent.raw < r.id.raw) (horigin : r.lineage.origin = p.lineage.origin)
      (hdepth : r.lineage.depth.toNat = p.lineage.depth.toNat + 1)
      (hbound : r.lineage.depth ≤ kMaxLineageDepth)

/-- Records that keep their lineage stay linked. -/
theorem Linked.of_same (h : s.Linked r) (hsame : r.SameIdentity r')
    (hkeep : ∀ k p, s.allocations.lookup k = some p →
      ∃ p', t.allocations.lookup k = some p' ∧ p.SameIdentity p') : t.Linked r' := by
  cases h with
  | origin hparent horigin hdepth =>
      refine .origin ?_ ?_ ?_
      · rw [hsame.lineage]
        exact hparent
      · rw [hsame.lineage, hsame.id]
        exact horigin
      · rw [hsame.lineage]
        exact hdepth
  | derived hparent hlookup hless horigin hdepth hbound =>
      obtain ⟨p', hp', hsame'⟩ := hkeep _ _ hlookup
      rw [← hsame.lineage] at hparent hp' hless horigin hdepth hbound
      rw [← hsame'.lineage] at horigin hdepth
      rw [← hsame.id] at hless
      exact .derived hparent hp' hless horigin hdepth hbound

theorem Linked.depth_le (h : s.Linked r) : r.lineage.depth.toNat ≤ 32 := by
  cases h with
  | origin hparent horigin hdepth =>
      rw [hdepth]
      exact Nat.zero_le _
  | derived hparent hlookup hless horigin hdepth hbound =>
      exact UInt32.le_iff_toNat_le.mp hbound

structure Lineal (s : Impl) : Prop where
  numbered : Numbered s
  counting : 0 < s.counters.nextAllocationId.toNat
  linked : ∀ k r, s.allocations.lookup k = some r → s.Linked r
  origin : ∀ k r, s.allocations.lookup k = some r → r.lineage.origin.Valid

/-- The new record of a grant is linked to the records before it. -/
theorem Lineal.new (hs : s.Lineal) {q : AllocateRequest} {queue : QueueDescriptor}
    {entry : PoolEntry} (hr : r.id = ⟨s.counters.nextAllocationId⟩)
    (h : s.lineageOf q r.id queue entry r.units = .ok r.lineage) :
    s.Linked r ∧ r.lineage.origin.Valid := by
  unfold lineageOf at h
  split at h
  · rename_i hvalid
    simp only [seq_ok, demand_eq_ok, require_eq_ok, exists_const, pure_ok] at h
    obtain ⟨p, hp, hdepth, hlineage⟩ := h
    have hid : p.id = q.parentAllocation := hs.numbered.keyed.allocations _ _ hp
    have horigin := hs.origin _ _ hp
    rw [if_pos horigin, hid] at hlineage
    have hless : q.parentAllocation.raw < r.id.raw := by
      rw [hr, Word.lt_iff]
      exact hs.numbered.ahead q.parentAllocation.raw ⟨p, hp⟩
    have hle := (hs.linked _ _ hp).depth_le
    have hcount : (p.lineage.depth + 1).toNat = p.lineage.depth.toNat + 1 := by
      rw [UInt32.toNat_add]
      change (p.lineage.depth.toNat + 1) % 4294967296 = p.lineage.depth.toNat + 1
      omega
    refine ⟨.derived (p := p) ?_ ?_ ?_ ?_ ?_ ?_, ?_⟩ <;> rw [← hlineage]
    · exact hvalid
    · exact hp
    · exact hless
    · exact hcount
    · exact hdepth
    · exact horigin
  · have hlineage := Except.ok.inj h
    have horigin : r.lineage.origin = r.id := by rw [← hlineage]
    refine ⟨.origin ?_ horigin ?_, ?_⟩
    · rw [← hlineage]
      exact StrongId.valid_default
    · rw [← hlineage]
      rfl
    · rw [horigin, hr]
      exact Word.ne_zero_iff.mpr hs.counting

/-- A record that a call brought has the lineage of an allocate request. -/
theorem exec_derives {c : Call} {k : AllocationId} (hnone : s.allocations.lookup k = none)
    (hr : (s.exec c).2.allocations.lookup k = some r) :
    ∃ q queue entry, r.id = ⟨s.counters.nextAllocationId⟩ ∧
      s.lineageOf q r.id queue entry r.units = .ok r.lineage := by
  obtain ⟨-, q, _, _, _, hmakes⟩ := exec_makes hnone hr
  have hexec : s.exec c = reply .decision ((s.enter c).allocateLocked q) := by
    unfold exec
    rw [hmakes.op]
    rfl
  have hstate : (s.exec c).2.allocations = ((s.enter c).allocateLocked q).2.allocations := by
    rw [hexec]
    rfl
  rw [hstate] at hr
  rcases (s.enter c).allocateLocked_records q with
    hsame | ⟨entry, queue, _, r', -, -, -, hfits, -, hlineage, hinsert⟩
  · rw [hsame] at hr
    cases hnone.symm.trans hr
  · rw [hinsert] at hr
    rcases lookup_insert_cases hr with ⟨rfl, rfl⟩ | ⟨-, hold⟩
    · exact ⟨q, queue, entry, hfits.id_eq, hlineage⟩
    · cases hnone.symm.trans hold

theorem Lineal.exec (hs : s.Lineal) (c : Call) : (s.exec c).2.Lineal := by
  have hkeep : ∀ k p, s.allocations.lookup k = some p →
      ∃ p', (s.exec c).2.allocations.lookup k = some p' ∧ p.SameIdentity p' := by
    intro k p hp
    obtain ⟨p', hp', hlife⟩ := s.exec_lives c hs.numbered.ahead hp
    exact ⟨p', hp', (AllocationRecord.Becomes.of_advances hlife).same⟩
  have hcounting : 0 < (s.exec c).2.counters.nextAllocationId.toNat := by
    refine (s.exec_trace c).invariant (I := fun u ↦ 0 < (u.view.counters.next .allocation).toNat)
      ?_ hs.counting
    intro t a u ht _ hm
    exact hm.keeps_view (I := fun v ↦ 0 < (v.counters.next .allocation).toNat)
      (fun _ _ hc ↦ Nat.lt_of_lt_of_le ht (hc.next_le .allocation)) ht
  have hall : ∀ k r', (s.exec c).2.allocations.lookup k = some r' →
      (s.exec c).2.Linked r' ∧ r'.lineage.origin.Valid := by
    intro k r' hr'
    cases hr : s.allocations.lookup k with
    | some r =>
        obtain ⟨r'', hr'', hsame⟩ := hkeep k r hr
        obtain rfl := Option.some.inj (hr''.symm.trans hr')
        refine ⟨(hs.linked k r hr).of_same hsame hkeep, ?_⟩
        rw [hsame.lineage]
        exact hs.origin k r hr
    | none =>
        obtain ⟨q, queue, entry, hid, hlineage⟩ := exec_derives hr hr'
        obtain ⟨hlinked, horigin⟩ := hs.new hid hlineage
        exact ⟨hlinked.of_same (.refl _) hkeep, horigin⟩
  exact ⟨hs.numbered.exec c, hcounting, fun k r hr ↦ (hall k r hr).1,
    fun k r hr ↦ (hall k r hr).2⟩

theorem Lineal.rehash (hs : s.Lineal) (hr : s.Rehash t) : t.Lineal := by
  have hview := hr.view_eq
  have hlookup : ∀ k, t.allocations.lookup k = s.allocations.lookup k :=
    congrFun (congrArg View.allocations hview)
  have hcounters : t.counters = s.counters := congrArg View.counters hview
  refine ⟨hs.numbered.rehash hr, by rw [hcounters]; exact hs.counting, ?_, ?_⟩
  · intro k r hk
    rw [hlookup] at hk
    refine (hs.linked k r hk).of_same (.refl r) fun k' p hp ↦ ⟨p, ?_, .refl p⟩
    rw [hlookup]
    exact hp
  · intro k r hk
    rw [hlookup] at hk
    exact hs.origin k r hk

/-- The chain of a linked record, by the number of its derivations. -/
theorem Lineal.derivedIn (hs : s.Lineal) {n : ℕ} (hr : s.Linked r)
    (hn : r.lineage.depth.toNat = n) : s.DerivedIn r n := by
  induction n generalizing r with
  | zero =>
      cases hr with
      | origin hparent horigin hdepth => exact .origin hparent horigin hdepth
      | derived hparent hlookup hless horigin hdepth hbound => omega
  | succ n ih =>
      cases hr with
      | origin hparent horigin hdepth => omega
      | @derived p hparent hlookup hless horigin hdepth hbound =>
          have hid : p.id = r.lineage.parent := hs.numbered.keyed.allocations _ _ hlookup
          rw [← hid] at hless
          exact .derived hparent hlookup hid hless horigin hn (ih (hs.linked _ _ hlookup) (by omega))

end Impl

/-- In every session from an empty fabric, the lineage of an allocation is a chain of records of
bounded depth that ends in its origin, whatever became of the allocations on it. -/
theorem lineage_chain {start s : Impl} (hstart : FreshlyOpened start)
    (hrun : SessionRun (fun _ _ ↦ True) start s) {k : AllocationId} {r : AllocationRecord}
    (hr : s.allocations.lookup k = some r) :
    r.lineage.depth ≤ kMaxLineageDepth ∧ s.DerivedIn r r.lineage.depth.toNat ∧
      ∃ o, s.lineageUp r.lineage.depth.toNat r = some o ∧ ¬o.lineage.parent.Valid ∧
        o.id = r.lineage.origin := by
  have hblank := hstart.blank
  have hempty : ∀ k r, start.allocations.lookup k ≠ some r := by
    intro k r hr
    rw [hblank.allocations] at hr
    cases hr
  have hs : s.Lineal := by
    refine hrun.invariant (fun _ c hi _ ↦ hi.exec c) (fun _ _ hi hr ↦ hi.rehash hr) ?_
    exact ⟨⟨hblank.exact.keyed, hblank.exact.ahead⟩, by rw [hblank.counters]; decide,
      fun k r hr ↦ absurd hr (hempty k r), fun k r hr ↦ absurd hr (hempty k r)⟩
  have hlinked := hs.linked k r hr
  have hchain := hs.derivedIn hlinked rfl
  exact ⟨UInt32.le_iff_toNat_le.mpr hlinked.depth_le, hchain, hchain.ends⟩

def deriveUnits (attempt : UInt64) (parent : AllocationId) : Call :=
  { op := .allocate
      { attempt := ⟨attempt⟩, pool := ⟨1⟩, queue := ⟨1⟩, requestedUnits := 10
        parentAllocation := parent, commitImmediately := true } }

/-- An allocation, one derived from it and one from that, after the first was released. -/
theorem lineage_chain_released :
    ∃ r s, (smallOpened.play (smallSetup ++ [askUnits 1 40 true, deriveUnits 2 ⟨1⟩,
        deriveUnits 3 ⟨2⟩, { op := .release { attempt := ⟨4⟩, allocation := ⟨1⟩ } }])) = s ∧
      s.allocations.lookup ⟨3⟩ = some r ∧ r.lineage.depth = 2 ∧ s.DerivedIn r 2 := by
  generalize hs : smallOpened.play (smallSetup ++ [askUnits 1 40 true, deriveUnits 2 ⟨1⟩,
    deriveUnits 3 ⟨2⟩, { op := .release { attempt := ⟨4⟩, allocation := ⟨1⟩ } }]) = s
  have h : (s.allocations.lookup ⟨3⟩).any (fun r ↦ decide (r.lineage.depth = 2)) = true := by
    rw [← hs]
    decide +kernel
  obtain ⟨r, hr, hdepth⟩ := (Option.any_eq_true _ _).mp h
  have hdepth : r.lineage.depth = 2 := of_decide_eq_true hdepth
  have hrun : SessionRun (fun _ _ ↦ True) smallOpened s := by
    rw [← hs]
    exact SessionRun.refl.play (smallOpened.admits_true _)
  have hchain := (lineage_chain smallOpened_fresh hrun hr).2.1
  rw [hdepth] at hchain
  exact ⟨r, s, rfl, hr, hdepth, hchain⟩

end BufferFabric
