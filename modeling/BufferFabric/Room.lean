import BufferFabric.Agreement
import BufferFabric.Grants
import BufferFabric.Resizing

/-!
# Room in the pools

A pool has room when what it uses stays within its capacity and the overcommit of its policy. No
change but a new policy and a new size can take the room away: grants are drawn in order, and all
other changes return units.
-/

namespace BufferFabric

open Outcome

section

variable {s t m : Impl} {l : Label} {record : Option JournalRecord} {p : PoolId}

/-! ### Members hold units -/

def MembersHold (s : Impl) : Prop :=
  ∀ p e, s.pools.lookup p = some e → ∀ k ∈ e.members, s.HoldsIn p k

/-- Every pool has at most the members it had, and every record holds what it held. -/
theorem MembersHold.keep (h : MembersHold s)
    (hrecords : ∀ p k, s.HoldsIn p k → m.HoldsIn p k)
    (hpools : ∀ p e', m.pools.lookup p = some e' → e'.members = ∅ ∨
      ∃ e, s.pools.lookup p = some e ∧ ∀ k ∈ e'.members, k ∈ e.members) : MembersHold m := by
  intro p e' he' k hk
  rcases hpools p e' he' with hempty | ⟨e, he, hmembers⟩
  · rw [hempty] at hk
    exact absurd hk (AList.notMem_empty k)
  · exact hrecords p k (h p e he k (hmembers k hk))

/-- A record that returns units leaves the members of its pool. -/
theorem MembersHold.returned (h : MembersHold s) {key : AllocationId} {r left : AllocationRecord}
    (part : AllocationRecord) (hr : s.allocations.lookup key = some r)
    (hid : part.id = key) (hpool : part.pool = r.pool)
    (hpools : ∀ p, m.pools.lookup p = (s.pools.lookup p).map (PoolEntry.returned p part))
    (ha : m.allocations = s.allocations.insert key left) : MembersHold m := by
  intro p e' he' k hk
  rw [hpools] at he'
  obtain ⟨e, he, rfl⟩ := Option.map_eq_some_iff.mp he'
  rw [PoolEntry.members_returned, hid, hpool] at hk
  obtain ⟨hmember, hne⟩ : k ∈ e.members ∧ (k = key → p ≠ r.pool) := by
    split at hk
    · obtain ⟨hne, hk⟩ := AList.mem_erase.mp hk
      exact ⟨hk, fun heq ↦ absurd heq hne⟩
    · rename_i hp
      exact ⟨hk, fun _ ↦ hp⟩
  obtain ⟨r', hr', hholds, hin⟩ := h p e he k hmember
  have hkey : k ≠ key := by
    rintro rfl
    obtain rfl := Option.some.inj (hr.symm.trans hr')
    exact hne rfl hin.symm
  exact ⟨r', by rw [ha, Table.lookup_insert_eq, if_neg hkey, hr'], hholds, hin⟩

/-- A record that goes on holding in its pool. -/
theorem Impl.HoldsIn.of_insert {key k : AllocationId} {r r' : AllocationRecord}
    (h : s.HoldsIn p k) (hr : s.allocations.lookup key = some r)
    (ha : m.allocations = s.allocations.insert key r') (hholds : r'.state.holdsUnits = true)
    (hpool : r'.pool = r.pool) : m.HoldsIn p k := by
  obtain ⟨r₀, hr₀, hholds₀, hp⟩ := h
  unfold Impl.HoldsIn
  rw [ha, Table.lookup_insert_eq]
  split
  · rename_i hk
    rw [hk] at hr₀
    obtain rfl := Option.some.inj (hr.symm.trans hr₀)
    exact ⟨r', rfl, hholds, hpool.trans hp⟩
  · exact ⟨r₀, hr₀, hholds₀, hp⟩

theorem Change.membersHold (h : Change s l record m) (hs : Exact s) (hsafe : l.Safe)
    (hm : MembersHold s) : MembersHold m := by
  have hinherit : (∀ r, l ≠ .grant r) → ∀ p e', m.pools.lookup p = some e' → e'.members = ∅ ∨
      ∃ e, s.pools.lookup p = some e ∧ ∀ k ∈ e'.members, k ∈ e.members := by
    intro hgrant p e' he'
    rcases h.pool_cases hs hsafe he' with ⟨e, he, hinherits⟩ | ⟨-, -, hempty, -⟩
    · refine .inr ⟨e, he, fun k hk ↦ (hinherits.members k hk).resolve_right ?_⟩
      rintro ⟨r, hr, -⟩
      exact hgrant r hr
    · exact .inl hempty
  obtain ⟨hbroken, hreturn⟩ := h.not_broken hs.sound hsafe
  have hkept : m.allocations = s.allocations → ∀ p k, s.HoldsIn p k → m.HoldsIn p k := by
    rintro ha p k ⟨r, hr, hrest⟩
    exact ⟨r, by rw [ha, hr], hrest⟩
  cases h with
  | attempt a => exact hm.keep (hkept (s.allocations_recordAttempt a)) (hinherit (by rintro _ ⟨⟩))
  | fence key r entry state pools hr hholds hstate hl hpools =>
      exact hm.returned r hr (hs.sound.allocation_id key r hr) rfl hpools rfl
  | release key r entry units pools hr hholds hunits hle hl hpools =>
      exact hm.returned (s.releasedPart r units) hr (hs.sound.allocation_id key r hr) rfl hpools rfl
  | commit key r entry hr hstate hl =>
      exact hm.keep (fun _ _ hk ↦ hk.of_insert hr rfl rfl rfl) (hinherit (by rintro _ ⟨⟩))
  | rebind key r bound hr hholds =>
      exact hm.keep (fun _ _ hk ↦ hk.of_insert hr rfl hholds rfl) (hinherit (by rintro _ ⟨⟩))
  | grant key entry policy r pools hfits hpools =>
      have hpool : r.pool = key :=
        hfits.pool_eq.trans (hs.sound.pool_id key entry hfits.pool_lookup).1
      intro p e' he' k hk
      simp only at he'
      rw [hpools] at he'
      obtain ⟨e, he, rfl⟩ := Option.map_eq_some_iff.mp he'
      rw [PoolEntry.members_granted] at hk
      unfold Impl.HoldsIn
      simp only
      rw [Table.lookup_insert_eq]
      by_cases hkr : k = r.id
      · rw [if_pos hkr]
        refine ⟨r, rfl, hfits.holds, ?_⟩
        split at hk
        · rename_i hp
          exact hpool.trans hp.symm
        · obtain ⟨r₁, hr₁, -⟩ := hm p e he k hk
          rw [hkr, hs.ahead.fresh hfits] at hr₁
          cases hr₁
      · rw [if_neg hkr]
        refine hm p e he k ?_
        split at hk
        · exact ((AList.mem_insert _).mp hk).resolve_left hkr
        · exact hk
  | brokenGrant => exact absurd rfl hbroken
  | brokenReturn key r part entry units => exact absurd rfl (hreturn r units)
  | _ =>
      refine hm.keep (hkept ?_) (hinherit (by rintro _ ⟨⟩))
      rfl

/-! ### Policies stay -/

def Governed (s : Impl) : Prop :=
  ∀ p e, s.pools.lookup p = some e → ∃ policy, s.policies.lookup e.descriptor.policy = some policy

theorem Change.governed (h : Change s l record m) (hs : Exact s) (hsafe : l.Safe)
    (hg : Governed s) : Governed m := by
  have hmap : ∀ g : PoolId → PoolEntry → PoolEntry, (∀ p e, (g p e).shape = e.shape) →
      m.policies = s.policies → (∀ p, m.pools.lookup p = (s.pools.lookup p).map (g p)) →
      Governed m := by
    intro g hshape ho hpools p e' he'
    rw [hpools] at he'
    obtain ⟨e, he, rfl⟩ := Option.map_eq_some_iff.mp he'
    rw [ho, PoolEntry.descriptor_eq_of_shape (hshape p e)]
    exact hg p e he
  have hinsert : ∀ {key : PoolId} {e : PoolEntry}, m.policies = s.policies →
      m.pools = s.pools.insert key e → (∃ policy, s.policies.lookup e.descriptor.policy =
        some policy) → Governed m := by
    intro key e ho hp hpolicy p e' he'
    rw [hp] at he'
    rw [ho]
    rcases lookup_insert_cases he' with ⟨-, rfl⟩ | ⟨-, he'⟩
    · exact hpolicy
    · exact hg p e' he'
  obtain ⟨hbroken, hreturn⟩ := h.not_broken hs.sound hsafe
  cases h with
  | policy p =>
      intro k e he
      obtain ⟨policy, hpolicy⟩ := hg k e he
      simp only
      rw [Table.lookup_insert_eq]
      split
      · exact ⟨p, rfl⟩
      · exact ⟨policy, hpolicy⟩
  | attempt a =>
      obtain ⟨order, attempts, h⟩ := s.recordAttempt_frame a
      rw [h]
      exact hg
  | runtime pools runtime h =>
      exact hmap (fun p e ↦ { e with runtime := runtime p e }) (fun _ _ ↦ rfl) rfl h
  | pool d hv hnew hid hparent hpolicy => exact hinsert rfl rfl hpolicy
  | removePool key entry =>
      intro p e he
      simp only at he
      rw [Table.lookup_erase_eq] at he
      split at he
      · cases he
      · exact hg p e he
  | resize key entry raw prot g c hl => exact hinsert rfl rfl (hg key entry hl)
  | fence key r entry state pools hr hholds hstate hl hpools =>
      exact hmap _ (fun p e ↦ PoolEntry.shape_returned p r e) rfl hpools
  | grant key entry policy r pools hfits hpools =>
      exact hmap _ (fun p e ↦ PoolEntry.shape_granted key p r e) rfl hpools
  | brokenGrant => exact absurd rfl hbroken
  | commit key r entry hr hstate hl => exact hinsert rfl rfl (hg r.pool entry hl)
  | release key r entry units pools hr hholds hunits hle hl hpools =>
      exact hmap _ (fun p e ↦ PoolEntry.shape_returned p (s.releasedPart r units) e) rfl hpools
  | brokenReturn key r part entry units => exact absurd rfl (hreturn r units)
  | _ => exact hg

/-! ### Room -/

/-- Every pool uses no more than its capacity and the overcommit of its policy. -/
def Roomy (s : Impl) : Prop :=
  ∀ p e, s.pools.lookup p = some e →
    e.ownUsage.toNat ≤ e.usable.toNat + (s.allowanceUnits e).toNat

/-- Every pool is new, or as large as it was and not fuller. -/
theorem Roomy.mono (h : Roomy s) (hpolicies : m.policies = s.policies)
    (hpools : ∀ p e', m.pools.lookup p = some e' → e'.ownUsage = 0 ∨
      ∃ e, s.pools.lookup p = some e ∧ e'.descriptor = e.descriptor ∧
        e'.ownUsage.toNat ≤ e.ownUsage.toNat) : Roomy m := by
  intro p e' he'
  rcases hpools p e' he' with hzero | ⟨e, he, hdescriptor, hle⟩
  · rw [hzero]
    exact Nat.zero_le _
  · have hroom := h p e he
    unfold PoolEntry.usable Impl.allowanceUnits at hroom ⊢
    rw [hpolicies, hdescriptor]
    exact hle.trans hroom

/-- Returning units makes room. -/
theorem Roomy.returned (h : Roomy s) (part : AllocationRecord)
    (hholds : part.state.holdsUnits = true)
    (hle : ∀ p e, s.pools.lookup p = some e → part.contrib p .own ≤ e.read .own)
    (hpolicies : m.policies = s.policies)
    (hpools : ∀ p, m.pools.lookup p = (s.pools.lookup p).map (PoolEntry.returned p part)) :
    Roomy m := by
  refine h.mono hpolicies fun p e' he' ↦ .inr ?_
  rw [hpools] at he'
  obtain ⟨e, he, rfl⟩ := Option.map_eq_some_iff.mp he'
  have hread : (e.returned p part).ownUsage.toNat + part.contrib p .own = e.ownUsage.toNat :=
    PoolEntry.read_returned hholds (hle p e he)
  exact ⟨e, he, PoolEntry.descriptor_eq_of_shape (PoolEntry.shape_returned p part e), by omega⟩

/-- A grant is drawn within the room of its pool and of its lender. -/
theorem Roomy.granted (h : Roomy s) (hs : Exact s) {key : PoolId} {entry : PoolEntry}
    {policy : PoolPolicy} {r : AllocationRecord} (hfits : GrantFits s key entry policy r)
    (hpolicies : m.policies = s.policies)
    (hpools : ∀ p, m.pools.lookup p = (s.pools.lookup p).map (PoolEntry.granted key p r)) :
    Roomy m := by
  obtain ⟨hpool, hplaced, -, -, hlender⟩ := hs.sound.grant_placed hfits
  intro p e' he'
  rw [hpools] at he'
  obtain ⟨e, he, rfl⟩ := Option.map_eq_some_iff.mp he'
  have hroom := h p e he
  have hown : (e.granted key p r).ownUsage.toNat = e.ownUsage.toNat + r.contrib p .own := by
    obtain ⟨-, -, hfit⟩ := hs.sound.grant_rows hfits he
    rw [← hpool]
    exact PoolEntry.read_granted hfits.holds hplaced.borrow_le (hfit .own)
  have hshare : r.contrib p .own = (if r.pool = p then r.units.toNat - r.borrowUnits.toNat else 0) +
      (if r.lender = p then r.borrowUnits.toNat else 0) := by
    simp only [AllocationRecord.contrib, AllocationRecord.share, AllocationRecord.lentShare,
      hfits.holds, if_true, hplaced.borrowed_eq]
  have hshape := PoolEntry.shape_granted key p r e
  have hallow : m.allowanceUnits (e.granted key p r) = s.allowanceUnits e := by
    unfold Impl.allowanceUnits
    rw [hpolicies, PoolEntry.descriptor_eq_of_shape hshape]
  rw [hown, PoolEntry.usable_eq_of_shape hshape, hallow, hshare]
  have hlent : r.lender = p → r.borrowUnits.toNat ≠ 0 → r.pool ≠ p ∧
      e.ownUsage.toNat + r.borrowUnits.toNat ≤ e.usable.toNat := by
    intro hp hne
    have hb : r.borrowUnits ≠ 0 := Word.ne_zero_iff.mpr (by omega)
    obtain ⟨l, hl, hle⟩ := hlender hb
    rw [hp, he] at hl
    obtain rfl := Option.some.inj hl
    exact ⟨fun hself ↦ (hplaced.lender hb).2.1 (hp.trans hself.symm), hle⟩
  by_cases hp : r.pool = p
  · have hentry : e = entry := by
      rw [← hp, hpool, hfits.pool_lookup] at he
      exact (Option.some.inj he).symm
    have hpolicy : s.allowanceUnits e = policy.allowanceUnits := by
      unfold Impl.allowanceUnits
      rw [hentry, hfits.policy_lookup]
    have hgrant := hfits.own
    rw [← hentry, ← hpolicy] at hgrant
    rw [if_pos hp]
    split
    · rename_i hl
      by_cases hne : r.borrowUnits.toNat = 0
      · omega
      · exact absurd hp (hlent hl hne).1
    · omega
  · rw [if_neg hp]
    split
    · rename_i hl
      by_cases hne : r.borrowUnits.toNat = 0
      · omega
      · have hle := (hlent hl hne).2
        omega
    · omega

/-- Only a new policy and a new size can take the room away. -/
theorem Change.roomy (h : Change s l record m) (hs : Exact s) (hsafe : l.Safe)
    (hpolicy : ∀ p, l ≠ .policy p) (hresize : ∀ key e, l ≠ .resize key e) (hr : Roomy s) :
    Roomy m := by
  obtain ⟨hbroken, hreturn⟩ := h.not_broken hs.sound hsafe
  have hsame : m.policies = s.policies → m.pools = s.pools → Roomy m := by
    intro ho hp
    refine hr.mono ho fun p e' he' ↦ .inr ⟨e', ?_, rfl, Nat.le_refl _⟩
    rw [← hp]
    exact he'
  cases h with
  | policy p => exact absurd rfl (hpolicy p)
  | resize key entry raw prot g c => exact absurd rfl (hresize key _)
  | attempt a =>
      obtain ⟨order, attempts, h⟩ := s.recordAttempt_frame a
      rw [h]
      exact hr
  | runtime pools runtime h =>
      refine hr.mono rfl fun p e' he' ↦ .inr ?_
      rw [h] at he'
      obtain ⟨e, he, rfl⟩ := Option.map_eq_some_iff.mp he'
      exact ⟨e, he, rfl, Nat.le_refl _⟩
  | pool d hv hnew =>
      refine hr.mono rfl fun p e' he' ↦ ?_
      rcases lookup_insert_cases he' with ⟨-, rfl⟩ | ⟨-, he'⟩
      · exact .inl rfl
      · exact .inr ⟨e', he', rfl, Nat.le_refl _⟩
  | removePool key entry =>
      refine hr.mono rfl fun p e' he' ↦ .inr ?_
      simp only at he'
      rw [Table.lookup_erase_eq] at he'
      split at he'
      · cases he'
      · exact ⟨e', he', rfl, Nat.le_refl _⟩
  | fence key r entry state pools hstored hholds hstate hl hpools =>
      exact hr.returned r hholds (fun p e he ↦ hs.sound.contrib_le hstored he .own) rfl hpools
  | grant key entry policy r pools hfits hpools => exact hr.granted hs hfits rfl hpools
  | brokenGrant => exact absurd rfl hbroken
  | commit key r entry hstored hstate hl =>
      refine hr.mono rfl fun p e' he' ↦ .inr ?_
      rcases lookup_insert_cases he' with ⟨rfl, rfl⟩ | ⟨-, he'⟩
      · exact ⟨entry, hl, rfl, Nat.le_refl _⟩
      · exact ⟨e', he', rfl, Nat.le_refl _⟩
  | release key r entry units pools hstored hholds hunits hle hl hpools =>
      refine hr.returned (s.releasedPart r units) hholds (fun p e he ↦ ?_) rfl hpools
      have hsplit := AllocationRecord.contrib_split (s := s)
        (hs.sound.placed key r hstored hholds).borrow_le hle hsafe p .own
      have hread := hs.sound.contrib_le hstored he .own
      omega
  | brokenReturn key r part entry units => exact absurd rfl (hreturn r units)
  | _ =>
      refine hsame ?_ ?_
      · rfl
      · rfl

/-! ### Fencing -/

/-- Fencing leads from the first state to the second: what holds units held them before, and
stayed a member where it was one. -/
structure Impl.Thinned (s t : Impl) : Prop where
  exact : Exact t
  policies : t.policies = s.policies
  shapes : SameShapes s.pools t.pools
  records : ∀ k r, t.allocations.lookup k = some r → r.state.holdsUnits = true →
    s.allocations.lookup k = some r
  members : ∀ p e e', s.pools.lookup p = some e → t.pools.lookup p = some e' → ∀ k ∈ e.members,
    (∃ r, t.allocations.lookup k = some r ∧ r.state.holdsUnits = true) → k ∈ e'.members

theorem Impl.Thinned.refl (hs : Exact s) : s.Thinned s := by
  refine ⟨hs, rfl, .refl _, fun _ _ hr _ ↦ hr, fun p e e' he he' k hk _ ↦ ?_⟩
  obtain rfl := Option.some.inj (he.symm.trans he')
  exact hk

theorem Impl.Thinned.trans {u : Impl} (h : s.Thinned t) (h' : t.Thinned u) : s.Thinned u := by
  refine ⟨h'.exact, h'.policies.trans h.policies, h.shapes.trans h'.shapes,
    fun k r hr hh ↦ h.records k r (h'.records k r hr hh) hh, fun p e e' he he' k hk hholds ↦ ?_⟩
  obtain ⟨r, hr, hh⟩ := hholds
  obtain ⟨e₁, he₁, -⟩ := h'.shapes.lookup_some he'
  exact h'.members p e₁ e' he₁ he' k (h.members p e e₁ he he₁ k hk ⟨r, h'.records k r hr hh, hh⟩)
    ⟨r, hr, hh⟩

/-- Records and members are as before. -/
theorem Impl.Thinned.of_same (hm : Exact m) (hpolicies : m.policies = s.policies)
    (ha : m.allocations = s.allocations)
    (hpools : ∀ p, ∃ g : PoolEntry → PoolEntry, m.pools.lookup p = (s.pools.lookup p).map g ∧
      ∀ e, (g e).shape = e.shape ∧ (g e).members = e.members) : s.Thinned m := by
  refine ⟨hm, hpolicies, fun p ↦ ?_, fun k r hr _ ↦ ha ▸ hr, fun p e e' he he' k hk _ ↦ ?_⟩
  · obtain ⟨g, hg, hsame⟩ := hpools p
    rw [hg]
    cases s.pools.lookup p with
    | none => rfl
    | some e => exact congrArg some (hsame e).1
  · obtain ⟨g, hg, hsame⟩ := hpools p
    rw [he', he, Option.map_some] at hg
    rw [Option.some.inj hg, (hsame e).2]
    exact hk

/-- The changes of a fencing loop. -/
theorem Change.thinned {s₀ : Impl} {w : Bool} (h : Change s l record m) (hs : Exact s)
    (hop : Op.checkpoint.Allows s₀ s (l, w)) : s.Thinned m := by
  have hfences : Op.checkpoint.Fences := by simp [Op.Fences]
  have hm := hs.change (hfences.safe hop) h
  have hsame : m.policies = s.policies → m.allocations = s.allocations → m.pools = s.pools →
      s.Thinned m := by
    intro ho ha hp
    refine .of_same hm ho ha fun p ↦ ⟨id, ?_, fun _ ↦ ⟨rfl, rfl⟩⟩
    rw [hp, Option.map_id, id]
  obtain ⟨hbroken, hreturn⟩ := h.not_broken hs.sound (hfences.safe hop)
  cases h with
  | flags => exact hsame rfl rfl rfl
  | counters => exact hsame rfl rfl rfl
  | dropQueues => exact hsame rfl rfl rfl
  | queue => exact hsame rfl rfl rfl
  | runtime pools runtime h =>
      exact .of_same hm rfl rfl fun p ↦ ⟨fun e ↦ { e with runtime := runtime p e }, h p,
        fun _ ↦ ⟨rfl, rfl⟩⟩
  | fence key r entry state pools hr hholds hstate hl hpools =>
      have hold : ∀ k r', (s.allocations.insert key (s.fencedRecord state r)).lookup k = some r' →
          r'.state.holdsUnits = true → k ≠ key ∧ s.allocations.lookup k = some r' := by
        intro k r' hr' hh
        rcases lookup_insert_cases hr' with ⟨-, rfl⟩ | ⟨hk, hr'⟩
        · exact absurd (hstate.symm.trans hh) (by simp)
        · exact ⟨hk, hr'⟩
      refine ⟨hm, rfl, .of_map (fun p e ↦ PoolEntry.shape_returned p r e) hpools,
        fun k r' hr' hh ↦ (hold k r' hr' hh).2, fun p e e' he he' k hk hholds' ↦ ?_⟩
      obtain ⟨r', hr', hh⟩ := hholds'
      simp only at he'
      rw [hpools, he, Option.map_some] at he'
      obtain rfl := Option.some.inj he'
      rw [PoolEntry.members_returned, hs.sound.allocation_id key r hr]
      split
      · exact AList.mem_erase.mpr ⟨(hold k r' hr' hh).1, hk⟩
      · exact hk
  | brokenGrant => exact absurd rfl hbroken
  | brokenReturn key r part entry units => exact absurd rfl (hreturn r units)
  | _ => simp [Op.Allows] at hop

/-- A path of fencing moves. -/
theorem Op.Trace.thinned {s₀ : Impl} (h : Op.checkpoint.Trace s₀ s t) (hs : Exact s) :
    s.Thinned t := by
  have hfences : Op.checkpoint.Fences := by simp [Op.Fences]
  refine h.invariant (I := fun u ↦ s.Thinned u) ?_ (.refl hs)
  rintro u ⟨l, w⟩ v hu hallow hm
  have hsafe : l.Safe := hfences.safe hallow
  refine hm.keeps hsafe.ne_lostRelease ?_ (fun record m hc ↦ hu.trans (hc.thinned hu.exact hallow))
    hu
  intro u st hu
  exact ⟨⟨hu.exact.sound.congr rfl rfl rfl, hu.exact.keyed, hu.exact.ahead⟩, hu.policies, hu.shapes,
    hu.records, hu.members⟩

namespace Impl

/-- What the allocations that are not gone hold of the capacity of a pool itself. -/
def keptOwn (s : Impl) (p : PoolId) (gone : AllocationId → AllocationRecord → Bool) : ℕ :=
  Table.total (fun k r ↦ if gone k r then 0 else r.contrib p .own) s.allocations

theorem Thinned.own_le (h : s.Thinned t) {e : PoolEntry} (he : t.pools.lookup p = some e)
    (gone : AllocationId → AllocationRecord → Bool)
    (hgone : ∀ k r, t.allocations.lookup k = some r → r.state.holdsUnits = true →
      gone k r = false) : e.ownUsage.toNat ≤ s.keptOwn p gone := by
  have hrow : e.ownUsage.toNat = t.books [] p .own := h.exact.sound.rows p e he .own
  rw [hrow, books_eq_total]
  refine Table.total_le_of_sub fun k r hr hne ↦ ?_
  have hholds : r.state.holdsUnits = true := by
    by_contra hno
    exact hne (AllocationRecord.contrib_of_not_holds (Bool.eq_false_iff.mpr hno) p .own)
  refine ⟨r, h.records k r hr hholds, ?_⟩
  rw [hgone k r hr hholds, if_neg Bool.false_ne_true]

variable {state : AllocationState} {ids : List AllocationId} {tally tally' : FenceTally}

theorem fenceEach_thinned (hs : Exact s) {stop : Impl → Bool}
    {select : Impl → AllocationRecord → Bool} {x : Except Status FenceTally}
    (h : fenceEach stop select .fenced ids tally s = (x, t)) : s.Thinned t := by
  have hop : Op.checkpoint.Fences := by simp [Op.Fences]
  have htrace : Op.checkpoint.Trace s s t :=
    fenceEach_trace_of_eq hop h rfl AllocationState.noConfusion
  exact htrace.thinned hs

/-- A loop that is not stopped leaves no listed allocation with units. -/
theorem Revoked.gone {A : List AllocationId} (h : s.Revoked .fenced A t) {k : AllocationId}
    {r : AllocationRecord} (hr : t.allocations.lookup k = some r)
    (hholds : r.state.holdsUnits = true) : k ∉ A := by
  intro hk
  rw [h.records k, Option.map_eq_some_iff] at hr
  obtain ⟨r₀, -, rfl⟩ := hr
  rw [if_pos hk] at hholds
  cases hholds

/-- An allocation that a shrink can take from a pool: a member, or one that borrows from it. -/
def reachable (p : PoolId) (entry : PoolEntry) (k : AllocationId) (r : AllocationRecord) : Bool :=
  decide (k ∈ entry.members) || decide (r.lender = p ∧ r.borrowUnits ≠ 0)

/-- A shrink brings a pool within its allowance, or takes all that it can reach. -/
theorem enforceCapacity_within (hs : Exact s) (hm : MembersHold s) {entry : PoolEntry}
    (hl : s.pools.lookup p = some entry) {all : Bool} {x : ShrinkResult}
    (h : s.enforceCapacity p entry all = (.ok x, t)) :
    s.Thinned t ∧ ∀ e, t.pools.lookup p = some e →
      e.ownUsage ≤ satAdd entry.usable (s.allowanceUnits entry) ∨
        e.ownUsage.toNat ≤ s.keptOwn p (reachable p entry) := by
  have hid : entry.descriptor.id = p := (hs.sound.pool_id p entry hl).1
  have hmem : ∀ k, k ∈ entry.sortedMembers.insertionSort (fun a b ↦ s.victimBefore b a = false) ↔
      k ∈ entry.members := fun k ↦
    (List.perm_insertionSort _ _).mem_iff.trans (PoolEntry.mem_sortedMembers entry k)
  have hnodup : (entry.sortedMembers.insertionSort fun a b ↦ s.victimBefore b a = false).Nodup :=
    (List.perm_insertionSort _ _).nodup_iff.mpr (PoolEntry.sortedMembers_nodup entry)
  have hwithin : ∀ {allowance : UInt64} {u : Impl}, withinAllowance p allowance u = true →
      ∀ e, u.pools.lookup p = some e → e.ownUsage ≤ allowance := by
    intro allowance u hw e he
    unfold withinAllowance at hw
    rw [he] at hw
    exact of_decide_eq_true hw
  unfold enforceCapacity at h
  dsimp only at h
  rw [hid] at h
  generalize (entry.sortedMembers.insertionSort fun a b ↦ s.victimBefore b a = false) = R at *
  generalize satAdd entry.usable (s.allowanceUnits entry) = allowance at *
  split at h
  · cases h
  rename_i own s₁ hown
  have hfirst := fenceEach_thinned hs hown
  obtain ⟨A, -, hA, -, hend, -⟩ := fenceEach_revoked hnodup (fun k hk ↦ by
    obtain ⟨r, hr, hholds, -⟩ := hm p entry hl k ((hmem k).mp hk)
    exact ⟨r, hr, hholds⟩) hown
  split at h
  · cases h
  rename_i lent s₂ hlent
  obtain ⟨-, rfl⟩ := Prod.mk.inj h
  have hboth := hfirst.trans (fenceEach_thinned hfirst.exact hlent)
  refine ⟨hboth, fun e he ↦ ?_⟩
  split at hlent
  · rename_i hw
    obtain ⟨-, rfl⟩ := Prod.mk.inj hlent
    exact .inl (hwithin hw e he)
  rename_i hover
  have hAR : A = R := by
    refine hend.resolve_right fun hstop ↦ hover ?_
    exact (Bool.and_eq_true _ _ ▸ hstop).2
  obtain ⟨hsorted, hborrows⟩ := s₁.borrowersOf_enumerates p
  obtain ⟨B, -, hB, -, hend', -⟩ := fenceEach_revoked (hsorted.nodup) (fun k hk ↦ by
    obtain ⟨r, hr, hholds, -⟩ := (hborrows k).mp hk
    exact ⟨r, hr, hholds⟩) hlent
  rcases hend' with hall | hw
  swap
  · exact .inl (hwithin hw e he)
  refine .inr (hboth.own_le he _ fun k r hr hholds ↦ ?_)
  have hr₁ := (fenceEach_thinned hfirst.exact hlent).records k r hr hholds
  have hmember : k ∉ entry.members := fun hk ↦
    hA.gone hr₁ hholds (hAR ▸ (hmem k).mpr hk)
  have hborrower : ¬(r.lender = p ∧ r.borrowUnits ≠ 0) := fun hb ↦
    hB.gone hr hholds (hall ▸ (hborrows k).mpr ⟨r, hr₁, hholds, hb.1, hb.2⟩)
  unfold reachable
  rw [decide_eq_false hmember, decide_eq_false hborrower]
  rfl

/-- Publishing a revision takes every member of the pools that follow it that was granted under
another one. -/
theorem fencePolicyPools_cleared {policy : PolicyId} {generation : Generation} {keys : List PoolId}
    {v : Unit} (hs : Exact s) (h : fencePolicyPools policy generation keys s = (.ok v, t)) :
    s.Thinned t ∧ ∀ key ∈ keys, ∀ e, s.pools.lookup key = some e → e.descriptor.policy = policy →
      ∀ k ∈ e.members, ∀ r, t.allocations.lookup k = some r → r.state.holdsUnits = true →
        r.bound.policyGeneration = generation := by
  induction keys generalizing s with
  | nil =>
      obtain ⟨-, rfl⟩ := Prod.mk.inj h
      exact ⟨.refl hs, fun key hkey ↦ absurd hkey List.not_mem_nil⟩
  | cons key keys ih =>
      -- the first pool is cleared, and the members of the others stay until their turn
      have hcons : ∀ {u : Impl}, s.Thinned u →
          (∀ e, s.pools.lookup key = some e → e.descriptor.policy = policy → ∀ k ∈ e.members,
            ∀ r, u.allocations.lookup k = some r → r.state.holdsUnits = true →
              r.bound.policyGeneration = generation) →
          fencePolicyPools policy generation keys u = (.ok v, t) →
          s.Thinned t ∧ ∀ key' ∈ key :: keys, ∀ e, s.pools.lookup key' = some e →
            e.descriptor.policy = policy → ∀ k ∈ e.members, ∀ r, t.allocations.lookup k = some r →
              r.state.holdsUnits = true → r.bound.policyGeneration = generation := by
        intro u hu hfirst hrest
        obtain ⟨ht, hclear⟩ := ih hu.exact hrest
        refine ⟨hu.trans ht, fun key' hkey' e he hpolicy k hk r hr hholds ↦ ?_⟩
        have hr₁ := ht.records k r hr hholds
        rcases List.mem_cons.mp hkey' with rfl | hkey'
        · exact hfirst e he hpolicy k hk r hr₁ hholds
        · have hshape := hu.shapes key'
          rw [he, Option.map_some] at hshape
          obtain ⟨e₁, he₁, hsame⟩ := Option.map_eq_some_iff.mp hshape
          refine hclear key' hkey' e₁ he₁ ?_ k (hu.members key' e e₁ he he₁ k hk ⟨r, hr₁, hholds⟩)
            r hr hholds
          rw [PoolEntry.descriptor_eq_of_shape hsame, hpolicy]
      unfold fencePolicyPools at h
      split at h
      · rename_i hnone
        refine hcons (.refl hs) (fun e he ↦ ?_) h
        rw [hnone] at he
        cases he
      rename_i entry hl
      split at h
      · rename_i hother
        refine hcons (.refl hs) (fun e he hpolicy ↦ ?_) h
        obtain rfl := Option.some.inj (hl.symm.trans he)
        exact absurd hpolicy hother
      split at h
      · cases h
      rename_i tally u hloop
      obtain ⟨-, hvisited⟩ := fenceEach_done (fun _ _ ↦ rfl) (PoolEntry.sortedMembers_nodup entry)
        hloop
      refine hcons (fenceEach_thinned hs hloop) (fun e he _ k hk r hr hholds ↦ ?_) h
      obtain rfl := Option.some.inj (hl.symm.trans he)
      rw [hvisited, Option.map_eq_some_iff] at hr
      obtain ⟨r₀, hr₀, rfl⟩ := hr
      have hlisted := (PoolEntry.mem_sortedMembers entry k).mpr hk
      unfold visited at hholds ⊢
      split at hholds
      · cases hholds
      · rename_i hkept
        rw [if_neg hkept]
        by_contra hne
        exact hkept ⟨hlisted, hholds, decide_eq_true hne⟩

theorem fencePolicyPools_ends {policy : PolicyId} {generation : Generation} {keys : List PoolId}
    {e : Status} (hs : Exact s) (h : fencePolicyPools policy generation keys s = (.error e, t)) :
    s.store.failures < t.store.failures := by
  induction keys generalizing s with
  | nil => cases h
  | cons key keys ih =>
      unfold fencePolicyPools at h
      split at h
      · exact ih hs h
      split at h
      · exact ih hs h
      split at h
      · rename_i hloop
        obtain ⟨-, rfl⟩ := Prod.mk.inj h
        exact fenceEach_ends hloop rfl AllocationState.noConfusion hs
      · rename_i hloop
        obtain ⟨hu, hle⟩ := fenceEach_exact hs hloop rfl AllocationState.noConfusion
        exact hle.trans_lt (ih hu h)

end Impl

end

end BufferFabric
