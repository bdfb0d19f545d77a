import BufferFabric.Faults
import BufferFabric.Balance
import BufferFabric.Lib.Greedy
import BufferFabric.Revoking
import Mathlib.Data.Prod.Lex

/-!
# Resizing a pool

A pool that no longer fits its capacity is shrunk by two loops: one over its own allocations and,
when these are gone, one over the allocations that borrow from it. Each fences the shortest
prefix of its order that is enough.
-/

namespace BufferFabric

open Outcome

namespace Impl

variable {s t u : Impl} {p : PoolId}

/-! ### The orders of the two loops -/

def HoldsIn (s : Impl) (p : PoolId) (k : AllocationId) : Prop :=
  ∃ r, s.allocations.lookup k = some r ∧ r.state.holdsUnits = true ∧ r.pool = p

def BorrowsFrom (s : Impl) (p : PoolId) (k : AllocationId) : Prop :=
  ∃ r, s.allocations.lookup k = some r ∧ r.state.holdsUnits = true ∧ r.lender = p ∧
    r.borrowUnits ≠ 0

/-- The key of the order of a shrink: reclaimable before pinned, then priority, then id. -/
def shrinkKey (s : Impl) (k : AllocationId) : ℕ ×ₗ ℕ ×ₗ ℕ :=
  match s.allocations.lookup k with
  | none => toLex (0, toLex (0, k.raw.toNat))
  | some r =>
      toLex (if r.reclaimClass = .reclaimable then 0 else 1,
        toLex (r.reclaimPriority.toNat, k.raw.toNat))

theorem shrinkKey_id (s : Impl) (k : AllocationId) :
    (ofLex (ofLex (s.shrinkKey k)).2).2 = k.raw.toNat := by
  unfold shrinkKey
  split <;> rfl

theorem rawId_injective : Function.Injective fun k : AllocationId ↦ k.raw.toNat := by
  intro a b hab
  cases a
  cases b
  exact congrArg _ (Word.eq_of_toNat hab)

theorem victimBefore_iff (hk : s.view.Keyed) {a b : AllocationId} {ra rb : AllocationRecord}
    (ha : s.allocations.lookup a = some ra) (hb : s.allocations.lookup b = some rb) :
    s.victimBefore a b = true ↔ s.shrinkKey a < s.shrinkKey b := by
  have hne : ∀ {x y : UInt64}, x ≠ y → x.toNat ≠ y.toNat := fun hxy h ↦ hxy (Word.eq_of_toNat h)
  have hida : ra.id = a := hk.allocations a ra ha
  have hidb : rb.id = b := hk.allocations b rb hb
  unfold victimBefore shrinkKey
  rw [ha, hb]
  dsimp only
  rw [hida, hidb, Prod.Lex.toLex_lt_toLex, Prod.Lex.toLex_lt_toLex]
  by_cases hclass : ra.reclaimClass = rb.reclaimClass
  · rw [if_neg (not_not.mpr hclass), hclass]
    by_cases hprio : ra.reclaimPriority = rb.reclaimPriority
    · rw [if_neg (not_not.mpr hprio), hprio]
      simp [Word.lt_iff]
    · rw [if_pos hprio]
      simp [Word.lt_iff, hne hprio]
  · rw [if_pos hclass, decide_eq_true_eq]
    cases hca : ra.reclaimClass <;> cases hcb : rb.reclaimClass <;> simp_all

/-- The own loop goes through the allocations of the pool in the order of the shrink. -/
theorem Tidy.shrinkOrder (ht : Tidy s) (hk : s.view.Keyed) {entry : PoolEntry}
    (hl : s.pools.lookup p = some entry) :
    Enumerates s.shrinkKey (s.HoldsIn p)
      (entry.sortedMembers.insertionSort fun a b ↦ s.victimBefore b a = false) := by
  have hmem : ∀ k, k ∈ entry.sortedMembers ↔ s.HoldsIn p k := fun k ↦
    (PoolEntry.mem_sortedMembers entry k).trans (ht.members p entry hl k)
  refine Enumerates.insertionSort (fun a ha b hb ↦ ?_) ?_ hmem
  · obtain ⟨ra, hra, -⟩ := (hmem a).mp ha
    obtain ⟨rb, hrb, -⟩ := (hmem b).mp hb
    rw [← not_iff_not, Bool.not_eq_false, victimBefore_iff hk hrb hra, not_le]
  · refine List.Nodup.of_map (fun x : ℕ ×ₗ ℕ ×ₗ ℕ ↦ (ofLex (ofLex x).2).2) ?_
    have hids := (PoolEntry.sortedMembers_nodup entry).map rawId_injective
    rw [List.map_map]
    exact (List.map_congr_left fun k _ ↦ s.shrinkKey_id k).symm ▸ hids

/-- The lent loop goes through the borrowers of the pool by id. -/
theorem borrowersOf_enumerates (s : Impl) (p : PoolId) :
    Enumerates (fun k : AllocationId ↦ k.raw.toNat) (s.BorrowsFrom p) (s.borrowersOf p) := by
  have hmem : ∀ k, k ∈ s.borrowersOf p ↔ s.BorrowsFrom p k := by
    intro k
    refine mem_idsWhere.trans ?_
    simp [BorrowsFrom, and_assoc]
  unfold borrowersOf idsWhere sortIds at hmem ⊢
  refine Enumerates.insertionSort (fun a _ b _ ↦ Word.le_iff) ?_ fun k ↦
    (List.mem_insertionSort _).symm.trans (hmem k)
  refine List.Nodup.map rawId_injective ?_
  have hkeys : (s.allocations.toList.map Prod.fst).Nodup := by
    unfold Table.toList
    rw [List.map_map]
    exact s.allocations.keys_nodup
  exact hkeys.sublist (List.filter_sublist.map _)

/-! ### Closure -/

theorem books_classes (s : Impl) (p : PoolId) :
    s.books [] p .pinned + s.books [] p .reclaimable =
      s.books [] p .reserved + s.books [] p .committed := by
  simp only [books_eq_total, ← Table.total_add]
  exact Table.total_congr fun _ r _ ↦ r.contrib_classes p

/-- In an exact ledger the balance of a pool is only a matter of room. -/
theorem balances_iff (hs : Exact s) {e : PoolEntry} (hl : s.pools.lookup p = some e)
    {allowance : ℕ} (hallow : allowance ≤ 1152921504606846976) :
    e.descriptor.Balances allowance e.read ↔ e.ownUsage.toNat ≤ e.usable.toNat + allowance := by
  refine ⟨fun h ↦ h.own_le, fun hfits ↦ ?_⟩
  obtain ⟨-, hvalid⟩ := hs.sound.pool_id p e hl
  have hraw : e.descriptor.rawUnits.toNat ≤ 1152921504606846976 :=
    Word.le_iff.mp (PoolDescriptor.isValid_iff.mp hvalid).2.2.2.1
  have husable : e.usable.toNat + e.descriptor.protectedUnits.toNat =
      e.descriptor.rawUnits.toNat := PoolDescriptor.usableUnits_toNat hvalid
  have hborrow := hs.sound.borrowed_le p e hl
  have hsum := s.books_own p
  have hle := s.books_borrowed_le p
  have hclass := s.books_classes p
  simp only [← hs.sound.rows p e hl] at hsum hle hclass
  have hown : e.read .own ≤ e.usable.toNat + allowance := hfits
  have hin : e.read .borrowed ≤ 1152921504606846976 := hborrow
  refine ⟨by omega, hclass, hsum, ?_, hown, ?_⟩
  · change _ + e.read .borrowed + (e.read .own - e.usable.toNat) < _
    omega
  · change e.read .lent ≤ e.usable.toNat + allowance
    omega

/-- A pool of an exact ledger closes exactly if it fits its allowance. -/
theorem checkClosure_exact (hs : Exact s) {e : PoolEntry} (hl : s.pools.lookup p = some e)
    {policy : PoolPolicy} (hp : s.policies.lookup e.descriptor.policy = some policy) :
    s.checkClosure e = .ok () ↔
      e.ownUsage.toNat ≤ e.usable.toNat + policy.allowanceUnits.toNat := by
  obtain ⟨-, hvalid⟩ := hs.sound.policy_id _ policy hp
  rw [checkClosure_iff_balances (hs.sound.pool_id p e hl).2 hp hvalid]
  exact balances_iff hs hl hvalid.limits.2.1

/-! ### What is fenced -/

section

variable {entry : PoolEntry} {policy : PoolPolicy} {allowance : UInt64}
  {A B V ids : List AllocationId} {tally tally' : FenceTally}

/-- Without the listed allocations the pool uses no more than its capacity and the overcommit of
its policy. -/
def FitsWithout (s : Impl) (p : PoolId) (entry : PoolEntry) (policy : PoolPolicy)
    (V : List AllocationId) : Prop :=
  entry.ownUsage.toNat - (V.map (s.ownShare p)).sum ≤
    entry.usable.toNat + policy.allowanceUnits.toNat

/-- What a shrink fences: own allocations `A`, all of them when the policy says so, and after all
of them borrowers `B`. -/
structure Shrinks (s : Impl) (p : PoolId) (entry : PoolEntry) (policy : PoolPolicy)
    (A B : List AllocationId) : Prop where
  own : ∃ R, Enumerates s.shrinkKey (s.HoldsIn p) R ∧ (B ≠ [] → A = R) ∧
    (policy.fenceOnGenerationChange = true → A = R) ∧
    (policy.fenceOnGenerationChange = false →
      ShortestPrefix (s.FitsWithout p entry policy) R A)
  lent : ∃ L, Enumerates (fun k : AllocationId ↦ k.raw.toNat) (s.BorrowsFrom p) L ∧
    ShortestPrefix (fun V ↦ s.FitsWithout p entry policy (A ++ V)) L B

theorem Shrinks.unique {A' B' : List AllocationId} (h : s.Shrinks p entry policy A B)
    (h' : s.Shrinks p entry policy A' B') : A = A' ∧ B = B' := by
  obtain ⟨R, hR, -, hall, hshort⟩ := h.own
  obtain ⟨R', hR', -, hall', hshort'⟩ := h'.own
  obtain rfl := hR.unique hR'
  have hA : A = A' := by
    cases hf : policy.fenceOnGenerationChange with
    | true => exact (hall hf).trans (hall' hf).symm
    | false => exact Greedy.unique (hshort hf) (hshort' hf)
  subst hA
  obtain ⟨L, hL, hB⟩ := h.lent
  obtain ⟨L', hL', hB'⟩ := h'.lent
  obtain rfl := hL.unique hL'
  exact ⟨rfl, Greedy.unique hB hB'⟩

theorem Revoked.within_iff {state : AllocationState} (h : s.Revoked state V u)
    (hl : s.pools.lookup p = some entry)
    (hallow : allowance.toNat = entry.usable.toNat + policy.allowanceUnits.toNat) :
    withinAllowance p allowance u = true ↔ s.FitsWithout p entry policy V := by
  obtain ⟨e, he, -, hown⟩ := h.lookup_pool hl
  unfold withinAllowance FitsWithout
  rw [he, decide_eq_true_eq, Word.le_iff, hown, hallow]

/-- A loop that stops when the pool is within its allowance fences the shortest prefix that brings
it there. -/
theorem fenceEach_shortest {pre : List AllocationId} (hpre : u.Revoked .fenced pre s)
    (hl : u.pools.lookup p = some entry)
    (hallow : allowance.toNat = entry.usable.toNat + policy.allowanceUnits.toNat)
    (hids : ids.Nodup) (hnew : ∀ k ∈ ids, k ∉ pre)
    (hholds : ∀ k ∈ ids, ∃ r, s.allocations.lookup k = some r ∧ r.state.holdsUnits = true)
    (h : fenceEach (withinAllowance p allowance) (fun _ _ ↦ true) .fenced ids tally s =
      (.ok tally', t)) :
    ∃ A, ShortestPrefix (fun V ↦ u.FitsWithout p entry policy (pre ++ V)) ids A ∧
      u.Revoked .fenced (pre ++ A) t ∧ s.Tallied tally A tally' := by
  obtain ⟨A, hinit, hrevoked, htally, hend, hsteps⟩ := fenceEach_revoked hids hholds h
  have hall : u.Revoked .fenced (pre ++ A) t :=
    hpre.trans hrevoked fun k hk ↦ hnew k (hinit.subset hk)
  refine ⟨A, ⟨hinit, fun V a C hV hfits ↦ ?_, fun a C hC ↦ not_not.mpr ?_⟩, hall, htally⟩
  · obtain ⟨v, hv, hstop⟩ := hsteps V a C hV
    have hsofar : u.Revoked .fenced (pre ++ V) v := hpre.trans hv fun k hk ↦
      hnew k (hinit.subset (hV ▸ List.mem_append_left _ hk))
    have hgo := (hsofar.within_iff hl hallow).mpr hfits
    rw [hstop] at hgo
    cases hgo
  · refine (hall.within_iff hl hallow).mp (hend.resolve_left fun heq ↦ ?_)
    rw [heq] at hC
    simp at hC

/-- The first loop fences all of its list or the shortest prefix that is enough. -/
theorem fenceEach_own {all : Bool} (hl : s.pools.lookup p = some entry)
    (hallow : allowance.toNat = entry.usable.toNat + policy.allowanceUnits.toNat)
    (hids : ids.Nodup)
    (hholds : ∀ k ∈ ids, ∃ r, s.allocations.lookup k = some r ∧ r.state.holdsUnits = true)
    (h : fenceEach (fun s ↦ !all && withinAllowance p allowance s) (fun _ _ ↦ true) .fenced ids
      tally s = (.ok tally', t)) :
    ∃ A, A <+: ids ∧ (all = true → A = ids) ∧
      (all = false → ShortestPrefix (s.FitsWithout p entry policy) ids A) ∧
      s.Revoked .fenced A t ∧ s.Tallied tally A tally' := by
  cases all with
  | true =>
      obtain ⟨A, hinit, hrevoked, htally, hend, -⟩ := fenceEach_revoked hids hholds h
      exact ⟨A, hinit, fun _ ↦ hend.resolve_right Bool.false_ne_true,
        fun hno ↦ absurd hno.symm Bool.false_ne_true, hrevoked, htally⟩
  | false =>
      have h : fenceEach (withinAllowance p allowance) (fun _ _ ↦ true) .fenced ids tally s =
        (.ok tally', t) := h
      obtain ⟨A, hshort, hrevoked, htally⟩ := fenceEach_shortest (.refl s .fenced) hl hallow hids
        (fun _ _ hnil ↦ List.not_mem_nil hnil) hholds h
      exact ⟨A, hshort.isPrefix, fun hno ↦ absurd hno Bool.false_ne_true, fun _ ↦ hshort, hrevoked,
        htally⟩

/-- The second loop has something to go through only where the pool is still over. -/
theorem fenceEach_lent {pre : List AllocationId} (hpre : u.Revoked .fenced pre s)
    (hl : u.pools.lookup p = some entry)
    (hallow : allowance.toNat = entry.usable.toNat + policy.allowanceUnits.toNat)
    (hids : ids.Nodup) (hnew : ∀ k ∈ ids, k ∉ pre)
    (hholds : ∀ k ∈ ids, ∃ r, s.allocations.lookup k = some r ∧ r.state.holdsUnits = true)
    (h : fenceEach (withinAllowance p allowance) (fun _ _ ↦ true) .fenced
      (if withinAllowance p allowance s then [] else ids) tally s = (.ok tally', t)) :
    ∃ A, ShortestPrefix (fun V ↦ u.FitsWithout p entry policy (pre ++ V)) ids A ∧
      u.Revoked .fenced (pre ++ A) t ∧ s.Tallied tally A tally' := by
  split at h
  · rename_i hwithin
    have hfits : u.FitsWithout p entry policy (pre ++ []) := by
      rw [List.append_nil]
      exact (hpre.within_iff hl hallow).mp hwithin
    obtain ⟨A, hA, hrest⟩ := fenceEach_shortest hpre hl hallow List.nodup_nil
      (fun _ hno ↦ absurd hno List.not_mem_nil) (fun _ hno ↦ absurd hno List.not_mem_nil) h
    obtain rfl := hA.eq_nil hfits
    refine ⟨[], ⟨List.nil_prefix, hA.taken, fun a C _ ↦ not_not.mpr hfits⟩, hrest⟩
  · exact fenceEach_shortest hpre hl hallow hids hnew hholds h

/-- What a borrower holds is in another pool than the lender. -/
theorem BorrowsFrom.notHoldsIn (hs : Exact s) {k : AllocationId} (h : s.BorrowsFrom p k) :
    ¬s.HoldsIn p k := by
  rintro ⟨r', hr', -, hpool⟩
  obtain ⟨r, hr, hholds, hlender, hb⟩ := h
  obtain rfl := Option.some.inj (hr.symm.trans hr')
  exact ((hs.sound.placed k r hr hholds).lender hb).2.1 (hlender.trans hpool.symm)

/-- The first loop leaves the borrowers as they are. -/
theorem Revoked.borrowsFrom_iff (h : s.Revoked .fenced A t) (hs : Exact s)
    (hA : ∀ k ∈ A, s.HoldsIn p k) (k : AllocationId) : t.BorrowsFrom p k ↔ s.BorrowsFrom p k := by
  have hsame : k ∉ A → (t.BorrowsFrom p k ↔ s.BorrowsFrom p k) := by
    intro hk
    unfold BorrowsFrom
    rw [h.lookup_of_notMem hk]
  constructor
  · intro hborrows
    refine (hsame fun hk ↦ ?_).mp hborrows
    obtain ⟨r, hr, hholds, -⟩ := hborrows
    rw [h.records k, Option.map_eq_some_iff] at hr
    obtain ⟨r₀, -, rfl⟩ := hr
    rw [if_pos hk] at hholds
    cases hholds
  · intro hborrows
    exact (hsame fun hk ↦ hborrows.notHoldsIn hs (hA k hk)).mpr hborrows

/-- What a shrink fences are different allocations of the pool and different borrowers. -/
theorem Shrinks.lists (h : s.Shrinks p entry policy A B) :
    ((∀ k ∈ A, s.HoldsIn p k) ∧ A.Nodup) ∧ (∀ k ∈ B, s.BorrowsFrom p k) ∧ B.Nodup := by
  obtain ⟨R, hR, -, hall, hshort⟩ := h.own
  obtain ⟨L, hL, hB⟩ := h.lent
  have hA : A <+: R := by
    cases hf : policy.fenceOnGenerationChange with
    | true => exact hall hf ▸ List.prefix_refl _
    | false => exact (hshort hf).isPrefix
  exact ⟨⟨fun k hk ↦ (hR.mem k).mp (hA.subset hk), hR.nodup.sublist hA.sublist⟩,
    fun k hk ↦ (hL.mem k).mp (hB.isPrefix.subset hk), hL.nodup.sublist hB.isPrefix.sublist⟩

theorem Shrinks.stored (h : s.Shrinks p entry policy A B) {k : AllocationId} (hk : k ∈ A ++ B) :
    (s.allocations.lookup k).isSome := by
  obtain ⟨⟨hA, -⟩, hB, -⟩ := h.lists
  rcases List.mem_append.mp hk with hkA | hkB
  · obtain ⟨r, hr, -⟩ := hA k hkA
    exact Option.isSome_iff_exists.mpr ⟨r, hr⟩
  · obtain ⟨r, hr, -⟩ := hB k hkB
    exact Option.isSome_iff_exists.mpr ⟨r, hr⟩

theorem Shrinks.nodup (h : s.Shrinks p entry policy A B) (hs : Exact s) : (A ++ B).Nodup := by
  obtain ⟨⟨hA, hAn⟩, hB, hBn⟩ := h.lists
  refine List.nodup_append.mpr ⟨hAn, hBn, ?_⟩
  rintro a ha b hb rfl
  exact (hB a hb).notHoldsIn hs (hA a ha)

theorem enforceCapacity_shrinks (hs : Exact s) (ht : Tidy s)
    (hl : s.pools.lookup p = some entry)
    (hp : s.policies.lookup entry.descriptor.policy = some policy) {x : ShrinkResult}
    (h : s.enforceCapacity p entry policy.fenceOnGenerationChange = (.ok x, t)) :
    ∃ A B, s.Shrinks p entry policy A B ∧ s.Revoked .fenced (A ++ B) t ∧
      x.fencedAllocations = UInt64.ofNat (A ++ B).length ∧
      x.fencedUnits = UInt64.ofNat (s.unitsUnder (·.units) (A ++ B)) := by
  have horder := Tidy.shrinkOrder ht hs.keyed hl
  have hallow : (satAdd entry.usable (s.allowanceUnits entry)).toNat =
      entry.usable.toNat + policy.allowanceUnits.toNat := by
    have husable := hs.sound.usable_le hl
    obtain ⟨-, hbound, -⟩ := PoolPolicy.IsValid.limits (hs.sound.policy_id _ policy hp).2
    unfold allowanceUnits
    rw [hp, toNat_satAdd]
    dsimp only
    omega
  have hid : entry.descriptor.id = p := (hs.sound.pool_id p entry hl).1
  unfold enforceCapacity at h
  dsimp only at h
  rw [hid] at h
  generalize (entry.sortedMembers.insertionSort fun a b ↦ s.victimBefore b a = false) = R at *
  generalize satAdd entry.usable (s.allowanceUnits entry) = allowance at *
  split at h
  · cases h
  rename_i own s₁ hown
  obtain ⟨A, hA, hall, hshort, hrevoked, htally⟩ := fenceEach_own hl hallow horder.nodup
    (fun k hk ↦ by
      obtain ⟨r, hr, hholds, -⟩ := (horder.mem k).mp hk
      exact ⟨r, hr, hholds⟩) hown
  have hAp : ∀ k ∈ A, s.HoldsIn p k := fun k hk ↦ (horder.mem k).mp (hA.subset hk)
  have hiff := hrevoked.borrowsFrom_iff hs hAp
  have hborrowers : Enumerates (fun k : AllocationId ↦ k.raw.toNat) (s.BorrowsFrom p)
      (s₁.borrowersOf p) := by
    obtain ⟨hsorted, hmem⟩ := s₁.borrowersOf_enumerates p
    exact ⟨hsorted, fun k ↦ (hmem k).trans (hiff k)⟩
  have hnew : ∀ k ∈ s₁.borrowersOf p, k ∉ A := fun k hk hkA ↦
    ((hborrowers.mem k).mp hk).notHoldsIn hs (hAp k hkA)
  split at h
  · cases h
  rename_i lent s₂ hlent
  obtain ⟨hx, rfl⟩ := Prod.mk.inj h
  obtain rfl := Except.ok.inj hx
  obtain ⟨B, hB, hboth, htally'⟩ := fenceEach_lent hrevoked hl hallow hborrowers.nodup hnew
    (fun k hk ↦ by
      obtain ⟨r, hr, hholds, -⟩ := (hiff k).mpr ((hborrowers.mem k).mp hk)
      exact ⟨r, hr, hholds⟩) hlent
  have hdisjoint : ∀ k ∈ B, k ∉ A := fun k hk ↦ hnew k (hB.isPrefix.subset hk)
  refine ⟨A, B, ⟨⟨R, horder, fun hne ↦ ?_, hall, hshort⟩, _, hborrowers, hB⟩, hboth, ?_, ?_⟩
  · by_contra hA'
    have hpart : policy.fenceOnGenerationChange = false :=
      Bool.eq_false_iff.mpr fun hf ↦ hA' (hall hf)
    have hfits := (hshort hpart).eq_or.resolve_left hA'
    exact hne (hB.eq_nil (by rw [List.append_nil]; exact hfits))
  · rw [List.length_append, UInt64.ofNat_add]
    dsimp only
    rw [htally.allocations, htally'.allocations, UInt64.zero_add, UInt64.zero_add]
  · have hsum : s.unitsUnder (·.units) (A ++ B) =
        s.unitsUnder (·.units) A + s.unitsUnder (·.units) B := by
      unfold unitsUnder
      rw [List.map_append, List.sum_append]
    rw [hsum, UInt64.ofNat_add]
    dsimp only
    rw [htally.units, htally'.units, hrevoked.unitsUnder_eq hdisjoint, UInt64.zero_add,
      UInt64.zero_add]

theorem enforceCapacity_ends (hs : Exact s) {all : Bool} {e : Status}
    (h : s.enforceCapacity p entry all = (.error e, t)) : s.store.failures < t.store.failures := by
  unfold enforceCapacity at h
  dsimp only at h
  split at h
  · rename_i hloop
    obtain ⟨-, rfl⟩ := Prod.mk.inj h
    exact fenceEach_ends hloop rfl AllocationState.noConfusion hs
  rename_i own s₁ hloop
  obtain ⟨hs₁, hle⟩ := fenceEach_exact hs hloop rfl AllocationState.noConfusion
  split at h
  · rename_i hloop'
    obtain ⟨-, rfl⟩ := Prod.mk.inj h
    exact hle.trans_lt (fenceEach_ends hloop' rfl AllocationState.noConfusion hs₁)
  · cases h

/-- Once all own allocations and all borrowers are fenced nothing of the pool is used. -/
theorem Revoked.unused (h : s.Revoked .fenced A t) (ht : Exact t)
    (hown : ∀ k, s.HoldsIn p k → k ∈ A) (hlent : ∀ k, s.BorrowsFrom p k → k ∈ A) {e : PoolEntry}
    (he : t.pools.lookup p = some e) : e.ownUsage.toNat = 0 := by
  have hrow : e.ownUsage.toNat = t.books [] p .own := ht.sound.rows p e he .own
  rw [hrow, books_eq_total, Table.total_eq_zero_iff]
  intro k r hr
  cases hholds : r.state.holdsUnits with
  | false => exact AllocationRecord.contrib_of_not_holds hholds p .own
  | true =>
      have hk : k ∉ A := by
        intro hk
        rw [h.records k, Option.map_eq_some_iff] at hr
        obtain ⟨r₀, -, rfl⟩ := hr
        rw [if_pos hk] at hholds
        cases hholds
      have hr₀ : s.allocations.lookup k = some r := (h.lookup_of_notMem hk).symm.trans hr
      have hpool : r.pool ≠ p := fun hp ↦ hk (hown k ⟨r, hr₀, hholds, hp⟩)
      unfold AllocationRecord.contrib AllocationRecord.lentShare
      rw [if_pos hholds, if_neg hpool, Nat.zero_add]
      split
      · rename_i hlender
        have hnone : r.borrowUnits = 0 := by
          by_contra hb
          exact hk (hlent k ⟨r, hr₀, hholds, hlender, hb⟩)
        rw [(ht.sound.placed k r hr hholds).borrowed_eq, hnone]
        rfl
      · rfl

/-- A shrink brings the pool within its capacity and the overcommit of its policy. -/
theorem Shrinks.fits (h : s.Shrinks p entry policy A B) (hrevoked : s.Revoked .fenced (A ++ B) t)
    (ht : Exact t) (hl : s.pools.lookup p = some entry) :
    ∃ e, t.pools.lookup p = some e ∧ e.shape = entry.shape ∧
      e.ownUsage.toNat ≤ e.usable.toNat + policy.allowanceUnits.toNat := by
  obtain ⟨e, he, hshape, hown⟩ := hrevoked.lookup_pool hl
  refine ⟨e, he, hshape, ?_⟩
  rw [PoolEntry.usable_eq_of_shape hshape]
  obtain ⟨R, hR, hlast, hall, hshort⟩ := h.own
  obtain ⟨L, hL, hB⟩ := h.lent
  rcases hB.eq_or with rfl | hfits
  swap
  · exact hown.trans_le hfits
  by_cases hA : A = R
  · have hzero := hrevoked.unused ht
      (fun k hk ↦ List.mem_append_left _ (hA ▸ (hR.mem k).mpr hk))
      (fun k hk ↦ List.mem_append_right _ ((hL.mem k).mpr hk)) he
    omega
  · have hpart : policy.fenceOnGenerationChange = false :=
      Bool.eq_false_iff.mpr fun hf ↦ hA (hall hf)
    have hfits := (hshort hpart).eq_or.resolve_left hA
    have hnil : B = [] := by
      by_contra hne
      exact hA (hlast hne)
    rw [hnil, List.append_nil] at hown
    exact hown.trans_le hfits

theorem Shrinks.of_allocations (h : u.Shrinks p entry policy A B)
    (ha : u.allocations = s.allocations) : s.Shrinks p entry policy A B := by
  have hkey : u.shrinkKey = s.shrinkKey := by
    funext k
    unfold shrinkKey
    rw [ha]
  have hholds : u.HoldsIn p = s.HoldsIn p := by
    unfold HoldsIn
    rw [ha]
  have hborrows : u.BorrowsFrom p = s.BorrowsFrom p := by
    unfold BorrowsFrom
    rw [ha]
  have hfits : u.FitsWithout p entry policy = s.FitsWithout p entry policy := by
    unfold FitsWithout ownShare
    rw [ha]
  obtain ⟨hown, hlent⟩ := h
  rw [hkey, hholds, hfits] at hown
  rw [hborrows, hfits] at hlent
  exact ⟨hown, hlent⟩

/-! ### The result of a resize -/

/-- The laws of a resize that fenced `A` and `B`. The pools it did not fence from, and everything
but the pools, the records and the store, are as before. -/
structure Resized (s : Impl) (p : PoolId) (new : PoolEntry) (policy : PoolPolicy)
    (outcome : ResizeOutcome) (t : Impl) (A B : List AllocationId) : Prop where
  shrinks : s.Shrinks p new policy A B
  fits : ∃ e, t.pools.lookup p = some e ∧ e.shape = new.shape ∧
    e.ownUsage.toNat ≤ e.usable.toNat + policy.allowanceUnits.toNat
  records : ∀ k, t.allocations.lookup k = (s.allocations.lookup k).map fun r ↦
    if k ∈ A ++ B then s.fencedRecord .fenced r else r
  shapes : ∀ k, k ≠ p →
    (t.pools.lookup k).map PoolEntry.shape = (s.pools.lookup k).map PoolEntry.shape
  others : ∀ k, k ≠ p → (∀ i ∈ A ++ B, ∀ r, s.allocations.lookup i = some r →
    r.pool ≠ k ∧ (r.borrowed ≠ 0 → r.lender ≠ k)) → t.pools.lookup k = s.pools.lookup k
  frame : ∃ pools allocations store,
    t = { s with pools := pools, allocations := allocations, store := store }
  exact : Exact t
  count : outcome.fencedAllocations.toNat = (A ++ B).length

/-- Different allocations of a ledger are fewer than 2^64. -/
theorem length_lt (hs : Exact s) (hV : V.Nodup) (hstored : ∀ k ∈ V, (s.allocations.lookup k).isSome) :
    V.length < 18446744073709551616 := by
  have hsub : (V.map fun k ↦ k.raw.toNat).toFinset ⊆
      Finset.range (s.view.counters.next .allocation).toNat := by
    intro n hn
    obtain ⟨k, hk, rfl⟩ := List.mem_map.mp (List.mem_toFinset.mp hn)
    obtain ⟨r, hr⟩ := Option.isSome_iff_exists.mp (hstored k hk)
    exact Finset.mem_range.mpr (hs.ahead k.raw ⟨r, hr⟩)
  have hcard := Finset.card_le_card hsub
  rw [List.toFinset_card_of_nodup (hV.map rawId_injective), List.length_map,
    Finset.card_range] at hcard
  exact hcard.trans_lt (Word.toNat_lt _)

/-- A planned resize that was journaled leaves the pool with its new descriptor, and the ledger
exact. -/
theorem resized_exact (hs : Exact s) (ht : Tidy s) {raw prot : UInt64} {expected : Generation}
    {old new : PoolEntry} (hplan : s.planResize p raw prot expected = .ok (old, new, policy))
    {v : Unit} (hj : (s.putPool p new).journalPool new = (.ok v, t)) :
    Exact t ∧ Tidy t ∧ s.store.failures ≤ t.store.failures ∧
      t = { s.putPool p new with store := t.store } ∧
      s.policies.lookup new.descriptor.policy = some policy := by
  obtain ⟨hl, hp, hraw, hprot, hfits, g, c, hnext, rfl⟩ := planResize_ok hplan
  have hchange := Change.resize p old raw prot g c hl hraw hprot hfits hnext
  have hmove := Move.of_last hchange hj
  exact ⟨hs.move (show Label.Safe (.resize p (old.resized raw prot g c)) from trivial) hmove,
    hmove.tidy hs ht trivial, hmove.failures_le, eq_of_journal hj, hp⟩

/-- A resize that passes its checks succeeds when its appends do. -/
theorem resizePool_resized (hs : Exact s) (ht : Tidy s) {raw prot : UInt64} {expected : Generation}
    {old new : PoolEntry}
    (hplan : s.planResize p raw prot expected = .ok (old, new, policy))
    (hstore : (s.resizePool p raw prot expected).2.store.failures = s.store.failures) :
    ∃ outcome t A B, s.resizePool p raw prot expected = (.ok outcome, t) ∧
      s.Resized p new policy outcome t A B ∧
      outcome.fencedUnits = UInt64.ofNat (s.unitsUnder (·.units) (A ++ B)) := by
  have hresize : s.resizePool p raw prot expected = s.applyResize p old new policy := by
    unfold resizePool
    rw [hplan]
  rw [hresize] at hstore ⊢
  unfold applyResize at hstore ⊢
  dsimp only at hstore ⊢
  rcases hj : (s.putPool p new).journalPool new with ⟨e | v, s₁⟩
  · rw [hj] at hstore
    have hlt : (s.putPool p new).store.failures < s₁.store.failures := journal_failures hj
    exact absurd hstore hlt.ne'
  rw [hj] at hstore
  obtain ⟨hs₁, ht₁, hle, hs₁eq, hp⟩ := resized_exact hs ht hplan hj
  have hl₁ : s₁.pools.lookup p = some new := by
    rw [hs₁eq]
    exact (Table.lookup_insert_eq ..).trans (if_pos rfl)
  have hp₁ : s₁.policies.lookup new.descriptor.policy = some policy := by
    rw [hs₁eq]
    exact hp
  have hallocations : s₁.allocations = s.allocations := by
    rw [hs₁eq]
    rfl
  rcases henforce : s₁.enforceCapacity p new policy.fenceOnGenerationChange with ⟨e | x, t⟩
  · dsimp only at hstore
    rw [henforce] at hstore
    have hlt := enforceCapacity_ends hs₁ henforce
    exact absurd hstore (hle.trans_lt hlt).ne'
  obtain ⟨A, B, hshrinks, hrevoked, hcount, hunits⟩ :=
    enforceCapacity_shrinks hs₁ ht₁ hl₁ hp₁ henforce
  have hexact : Exact t := by
    have hop : Op.checkpoint.Fences := by simp [Op.Fences]
    have htrace : Op.checkpoint.Trace s₁ s₁
        (s₁.enforceCapacity p new policy.fenceOnGenerationChange).2 :=
      enforceCapacity_trace hop p new _
    rw [henforce] at htrace
    exact hs₁.trace hop htrace
  obtain ⟨e, he, hshape, hfits⟩ := hshrinks.fits hrevoked hexact hl₁
  obtain ⟨pools, allocations, store, hframe⟩ := hrevoked.frame.frame
  have hclosure : t.checkClosure e = .ok () := by
    refine (checkClosure_exact hexact he ?_).mpr hfits
    rw [PoolEntry.descriptor_eq_of_shape hshape, hframe]
    exact hp₁
  have hlookup : ∀ {k}, k ≠ p → s₁.pools.lookup k = s.pools.lookup k := by
    intro k hk
    rw [hs₁eq]
    exact (Table.lookup_insert_eq ..).trans (if_neg hk)
  dsimp only
  rw [henforce]
  dsimp only
  rw [he]
  dsimp only
  rw [hclosure]
  refine ⟨_, t, A, B, rfl, ⟨hshrinks.of_allocations hallocations, ⟨e, he, hshape, hfits⟩,
    fun k ↦ ?_, fun k hk ↦ ?_, fun k hk hother ↦ ?_, ⟨pools, allocations, store, ?_⟩, hexact, ?_⟩, ?_⟩
  · have hfenced : s₁.fencedRecord .fenced = s.fencedRecord .fenced := by
      funext r
      unfold fencedRecord
      rw [hs₁eq]
      rfl
    rw [hrevoked.records k, hallocations, hfenced]
  · rw [hrevoked.frame.shapes k, hlookup hk]
  · rw [hrevoked.others k fun i hi r hr ↦ hother i hi r (hallocations ▸ hr), hlookup hk]
  · rw [hframe, hs₁eq]
    rfl
  · have hlt := length_lt hs₁ (hshrinks.nodup hs₁) fun k hk ↦ hshrinks.stored hk
    change x.fencedAllocations.toNat = _
    rw [hcount, UInt64.toNat_ofNat_of_lt' hlt]
  · change x.fencedUnits = _
    rw [hunits]
    unfold unitsUnder
    rw [hallocations]

/-- Different allocations hold no more than all allocations. -/
theorem unitsUnder_le (s : Impl) (f : AllocationRecord → UInt64) (hV : V.Nodup) :
    s.unitsUnder f V ≤ Table.total (fun _ r ↦ (f r).toNat) s.allocations := by
  have hlookups : s.unitsUnder f V =
      ((V.filterMap s.allocations.lookup).map fun r ↦ (f r).toNat).sum := by
    clear hV
    unfold unitsUnder
    induction V with
    | nil => rfl
    | cons k V ih =>
        rw [List.map_cons, List.sum_cons, ih]
        cases hr : s.allocations.lookup k with
        | none => simp [hr]
        | some r => simp [hr]
  rw [hlookups, Table.sum_lookups _ _ hV]
  refine Table.total_mono fun k r _ ↦ ?_
  split
  · exact Nat.le_refl _
  · exact Nat.zero_le _

end

end Impl

/-- Over an exact ledger with exact members, a resize that passes its checks and whose appends
succeed obeys its laws and says how many units were fenced exactly when these units, added up,
stay within 64 bits. -/
theorem resize_restores_iff {s : Impl} (hs : Exact s) (ht : Tidy s) {p : PoolId}
    {raw prot : UInt64} {expected : Generation} {old new : PoolEntry} {policy : PoolPolicy}
    (hplan : s.planResize p raw prot expected = .ok (old, new, policy))
    (hstore : (s.resizePool p raw prot expected).2.store.failures = s.store.failures) :
    (∃ outcome t A B, s.resizePool p raw prot expected = (.ok outcome, t) ∧
      s.Resized p new policy outcome t A B ∧
      outcome.fencedUnits.toNat = s.unitsUnder (·.units) (A ++ B)) ↔
      ∀ A B, s.Shrinks p new policy A B →
        s.unitsUnder (·.units) (A ++ B) < 18446744073709551616 := by
  constructor
  · rintro ⟨outcome, t, A, B, -, hresized, hunits⟩ A' B' hshrinks
    obtain ⟨rfl, rfl⟩ := hresized.shrinks.unique hshrinks
    rw [← hunits]
    exact Word.toNat_lt _
  · intro hfits
    obtain ⟨outcome, t, A, B, heq, hresized, hunits⟩ :=
      Impl.resizePool_resized hs ht hplan hstore
    refine ⟨outcome, t, A, B, heq, hresized, ?_⟩
    rw [hunits, UInt64.toNat_ofNat_of_lt' (hfits A B hresized.shrinks)]

/-- A parent of 100 units that has lent 20 shrinks to 10: the borrower is fenced. -/
theorem resize_restores_iff_child : ∃ new policy outcome t A B,
    (smallOpened.play lentSetup).resizePool ⟨1⟩ 10 0 ⟨0⟩ = (.ok outcome, t) ∧
      (smallOpened.play lentSetup).Resized ⟨1⟩ new policy outcome t A B ∧
      outcome.fencedUnits = 40 := by
  have hadmits : smallOpened.Admits (fun s c ↦ AppendsOk s c ∧ ReleasesWhole s c) lentSetup := by
    decide +kernel
  have hplanned : ((smallOpened.play lentSetup).planResize ⟨1⟩ 10 0 ⟨0⟩).toOption.isSome = true := by
    decide +kernel
  have hstore : ((smallOpened.play lentSetup).resizePool ⟨1⟩ 10 0 ⟨0⟩).2.store.failures =
      (smallOpened.play lentSetup).store.failures := by
    decide +kernel
  have hunits : Table.total (fun _ r ↦ r.units.toNat) (smallOpened.play lentSetup).allocations <
      18446744073709551616 := by
    decide +kernel
  have hfenced : ((smallOpened.play lentSetup).resizePool ⟨1⟩ 10 0 ⟨0⟩).1.toOption.any
      (fun outcome ↦ decide (outcome.fencedUnits = 40)) = true := by
    decide +kernel
  obtain ⟨hs, ht⟩ := (SessionRun.refl.play hadmits).exact_tidy
    (fun s c h ↦ h.2.releasesAs fun _ _ ↦ h.1) ⟨smallOpened_fresh.blank.exact,
      smallOpened_fresh.blank.tidy⟩
  obtain ⟨⟨old, new, policy⟩, hplan⟩ := Option.isSome_iff_exists.mp hplanned
  have hplan := ok_of_toOption hplan
  obtain ⟨outcome, t, A, B, heq, hresized, -⟩ := (resize_restores_iff hs ht hplan hstore).mpr
    fun A B hshrinks ↦ (Impl.unitsUnder_le _ _ (hshrinks.nodup hs)).trans_lt hunits
  rw [heq] at hfenced
  exact ⟨new, policy, outcome, t, A, B, heq, hresized, of_decide_eq_true hfenced⟩

def wideChild (n : ℕ) : List Call :=
  [{ op := .registerPool
      { name := [98 + n.toUInt8], parent := ⟨1⟩, resource := ⟨(2 + n / 8).toUInt64⟩, backend := ⟨1⟩
        rawUnits := 1152921504606846975, policy := ⟨1⟩ } },
    { op := .registerQueue { name := [98 + n.toUInt8], pool := ⟨(2 + n).toUInt64⟩ } },
    { op := .allocate
        { attempt := ⟨(1 + n).toUInt64⟩, pool := ⟨(2 + n).toUInt64⟩, queue := ⟨(1 + n).toUInt64⟩
          requestedUnits := 1152921504606846976 } }]

def wideSetup : List Call :=
  smallTopology { smallPolicy with borrow := { mode := .fromAncestorFree, limitUnits := 50 } } ++
    [hugeCapacity ⟨2⟩, hugeCapacity ⟨3⟩, hugeCapacity ⟨4⟩,
      { op := .registerPool
          { name := [97], resource := ⟨1⟩, backend := ⟨1⟩, rawUnits := 17, policy := ⟨1⟩ } }] ++
    (List.range 17).flatMap wideChild

def fencedUnits (s : Impl) : ℕ :=
  Table.total (fun _ r ↦ if r.state = .fenced then r.units.toNat else 0) s.allocations

/-- Shrinking the pool to one unit fences 16 borrowers of 2^60 units, and reports 0 units. -/
theorem resize_units_wrap : ∃ outcome t,
    Exact (smallOpened.play wideSetup) ∧ Tidy (smallOpened.play wideSetup) ∧
      (smallOpened.play wideSetup).resizePool ⟨1⟩ 1 0 ⟨0⟩ = (.ok outcome, t) ∧
      t.store.failures = (smallOpened.play wideSetup).store.failures ∧
      fencedUnits (smallOpened.play wideSetup) = 0 ∧ fencedUnits t = 18446744073709551616 ∧
      outcome.fencedAllocations = 16 ∧ outcome.fencedUnits = 0 := by
  have hreleases : ∀ c ∈ wideSetup, ∀ q, c.op ≠ .release q := by
    simp only [wideSetup, List.forall_mem_append, List.mem_flatMap]
    refine ⟨⟨?_, ?_⟩, ?_⟩
    · simp [smallTopology]
    · simp [hugeCapacity]
    · rintro c ⟨n, -, hc⟩ q
      revert hc
      simp only [wideChild, List.mem_cons, List.not_mem_nil, or_false]
      rintro (rfl | rfl | rfl) <;> exact Op.noConfusion
  have hadmits : smallOpened.Admits (ReleasesAs AllocationRecord.Whole) wideSetup :=
    Impl.admits_of_forall (fun c hc _ q hq ↦ absurd hq (hreleases c hc q)) _
  have hresize : ∀ x, (smallOpened.play wideSetup).resizePool ⟨1⟩ 1 0 ⟨0⟩ = x →
      fencedUnits (smallOpened.play wideSetup) = 0 ∧
        x.2.store.failures = (smallOpened.play wideSetup).store.failures ∧
        fencedUnits x.2 = 18446744073709551616 ∧
        x.1.toOption.any (fun outcome ↦ decide (outcome.fencedAllocations = 16 ∧
          outcome.fencedUnits = 0)) = true := by
    rintro x rfl
    decide +kernel
  obtain ⟨hs, ht⟩ := (SessionRun.refl.play hadmits).exact_tidy (fun _ _ h ↦ h)
    ⟨smallOpened_fresh.blank.exact, smallOpened_fresh.blank.tidy⟩
  rcases hx : (smallOpened.play wideSetup).resizePool ⟨1⟩ 1 0 ⟨0⟩ with ⟨res, t⟩
  obtain ⟨hbefore, hstore, hafter, hfacts⟩ := hresize _ hx
  obtain ⟨outcome, hres, hfacts⟩ := (Option.any_eq_true _ _).mp hfacts
  obtain ⟨hcount, hunits⟩ := of_decide_eq_true hfacts
  obtain rfl := ok_of_toOption hres
  exact ⟨outcome, t, hs, ht, rfl, hstore, hbefore, hafter, hcount, hunits⟩

end BufferFabric
