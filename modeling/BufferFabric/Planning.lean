import BufferFabric.Lib.Greedy
import BufferFabric.Revoking
import Mathlib.Data.Prod.Lex

/-!
# Reclamation plans

The planner makes two greedy passes, one over the reclaimable and one over the pinned
allocations that have rested long enough. Both share the planned units, the need for more of
them and the bounds of an operation.
-/

namespace BufferFabric

open Outcome

def victimUnits (V : List ReclaimVictim) : ℕ := (V.map (·.units.toNat)).sum

theorem victimUnits_append (V W : List ReclaimVictim) :
    victimUnits (V ++ W) = victimUnits V + victimUnits W := by
  unfold victimUnits
  rw [List.map_append, List.sum_append]

/-- Planning so many units leaves the target or the reserve unmet. -/
def Unmet (policy : PoolPolicy) (target free : UInt64) (units : ℕ) : Prop :=
  units < target.toNat ∨ free.toNat + units < policy.reclaim.reserveUnits.toNat

instance (policy : PoolPolicy) (target free : UInt64) (units : ℕ) :
    Decidable (Unmet policy target free units) :=
  inferInstanceAs (Decidable (_ ∨ _))

/-- More planned units leave less unmet. -/
theorem Unmet.mono {policy : PoolPolicy} {target free : UInt64} {m n : ℕ}
    (h : Unmet policy target free n) (hle : m ≤ n) : Unmet policy target free m :=
  h.imp (fun h ↦ hle.trans_lt h) fun h ↦ (Nat.add_le_add_left hle _).trans_lt h

/-- The test of both passes: more is needed, and the next candidate stays within the bounds. -/
structure Takes (policy : PoolPolicy) (target free : UInt64) (V : List ReclaimVictim)
    (c : ReclaimVictim) : Prop where
  unmet : Unmet policy target free (victimUnits V)
  room : V.length < kMaxReclaimVictims
  fits : victimUnits V + c.units.toNat ≤ policy.reclaim.maxUnitsPerOperation.toNat

structure PlanBounds (policy : PoolPolicy) (free : UInt64) : Prop where
  operation : policy.reclaim.maxUnitsPerOperation.toNat ≤ 1152921504606846976
  free : free.toNat ≤ 1152921504606846976

structure Selection.Faithful (policy : PoolPolicy) (sel : Selection) : Prop where
  planned : sel.planned.toNat = victimUnits sel.victims
  bounded : sel.planned.toNat ≤ policy.reclaim.maxUnitsPerOperation.toNat

section

variable {policy : PoolPolicy} {free : UInt64} {cs A : List ReclaimVictim}

theorem needsMore_iff (target : UInt64) (hb : PlanBounds policy free) {sel : Selection}
    (hs : sel.Faithful policy) :
    needsMore policy target free sel.planned = true ↔
      Unmet policy target free (victimUnits sel.victims) := by
  have hadd : (free + sel.planned).toNat = free.toNat + sel.planned.toNat := by
    have := hb.operation
    have := hb.free
    have := hs.bounded
    exact Word.toNat_add (by omega)
  unfold needsMore Unmet
  rw [Bool.or_eq_true, decide_eq_true_eq, decide_eq_true_eq, Word.lt_iff, Word.lt_iff, hadd,
    hs.planned]

/-- One pass is a greedy pass. It truncates the plan when it leaves a candidate although more is
needed. -/
theorem selectVictims_greedy (target : UInt64) (hb : PlanBounds policy free)
    (hcs : ∀ c ∈ cs, c.units.toNat ≤ 1152921504606846976) {sel : Selection}
    (hs : sel.Faithful policy) :
    ∃ A, Greedy (fun B c ↦ Takes policy target free (sel.victims ++ B) c) cs A ∧
      (selectVictims policy target free cs sel).victims = sel.victims ++ A ∧
      (selectVictims policy target free cs sel).Faithful policy ∧
      ((selectVictims policy target free cs sel).truncated = true ↔
        sel.truncated = true ∨
          A ≠ cs ∧ Unmet policy target free (victimUnits (sel.victims ++ A))) := by
  induction cs generalizing sel with
  | nil =>
      refine ⟨[], .nil _, (List.append_nil _).symm, hs, ?_⟩
      simp [selectVictims]
  | cons c cs ih =>
      have hneeds := needsMore_iff target hb hs
      unfold selectVictims
      split
      · rename_i hmet
        have hmet : ¬Unmet policy target free (victimUnits sel.victims) := by
          rw [← hneeds]
          simpa using hmet
        refine ⟨[], .stop fun h ↦ ?_, (List.append_nil _).symm, hs, ?_⟩
        · rw [List.append_nil] at h
          exact hmet h.unmet
        · rw [List.append_nil]
          simp [hmet]
      rename_i hunmet
      have hunmet : Unmet policy target free (victimUnits sel.victims) := by
        rw [← hneeds]
        simpa using hunmet
      have hsum : (sel.planned + c.units).toNat = sel.planned.toNat + c.units.toNat := by
        have := hb.operation
        have := hs.bounded
        have := hcs c List.mem_cons_self
        exact Word.toNat_add (by omega)
      split
      · rename_i hfull
        refine ⟨[], .stop fun h ↦ ?_, (List.append_nil _).symm, ⟨hs.planned, hs.bounded⟩, ?_⟩
        · rw [List.append_nil] at h
          rw [Word.lt_iff, hsum, hs.planned] at hfull
          have := h.room
          have := h.fits
          omega
        · rw [List.append_nil]
          simp [hunmet]
      · rename_i hfits
        rw [not_or, Word.lt_iff, hsum, Nat.not_le, Nat.not_lt] at hfits
        have hunits : victimUnits (sel.victims ++ [c]) = victimUnits sel.victims + c.units.toNat := by
          rw [victimUnits_append]
          simp [victimUnits]
        have hnext : Selection.Faithful policy { sel with
            victims := sel.victims ++ [c], planned := sel.planned + c.units } := by
          refine ⟨?_, ?_⟩
          · rw [hunits, hsum, hs.planned]
          · rw [hsum]
            exact hfits.2
        obtain ⟨A, hgreedy, hvictims, hfaithful, htruncated⟩ :=
          ih (fun c' hc' ↦ hcs c' (List.mem_cons_of_mem c hc')) hnext
        refine ⟨c :: A, .cons ?_ (hgreedy.congr fun B a ↦ ?_), ?_, hfaithful, ?_⟩
        · rw [List.append_nil]
          exact ⟨hunmet, hfits.1, hs.planned ▸ hfits.2⟩
        · rw [List.append_assoc, List.singleton_append]
        · rw [hvictims, List.append_assoc, List.singleton_append]
        · rw [htruncated, List.append_assoc, List.singleton_append, ne_eq, ne_eq, List.cons.injEq,
            and_iff_right rfl]

end

/-! ### Candidates -/

/-- The key of the order in which victims are taken: priority, then age, then id. -/
def victimKey (v : ReclaimVictim) : ℕ ×ₗ ℕ ×ₗ ℕ :=
  toLex (v.reclaimPriority.toNat, toLex (v.lastTouched.toNat, v.allocation.raw.toNat))

theorem victimOrder_iff {a b : ReclaimVictim} : victimOrder a b = true ↔ victimKey a < victimKey b := by
  unfold victimOrder victimKey
  have hne : ∀ {x y : UInt64}, x ≠ y → x.toNat ≠ y.toNat := fun hxy h ↦ hxy (Word.eq_of_toNat h)
  rw [Prod.Lex.toLex_lt_toLex, Prod.Lex.toLex_lt_toLex]
  split
  · rename_i hp
    simp [Word.lt_iff, hne hp]
  · rename_i hp
    rw [not_not] at hp
    split
    · rename_i ht
      simp [hp, Word.lt_iff, hne ht]
    · rename_i ht
      rw [not_not] at ht
      simp [hp, ht, Word.lt_iff]

namespace Impl

variable {s t : Impl}

def Rested (s : Impl) (policy : PoolPolicy) (r : AllocationRecord) : Prop :=
  policy.reclaim.minHoldTicks ≠ 0 →
    policy.reclaim.minHoldTicks ≤ (if r.lastTouched ≤ s.tick then s.tick - r.lastTouched else 0)

/-- An allocation of the pool that may be reclaimed as far as its state and its age go. -/
structure Eligible (s : Impl) (p : PoolId) (policy : PoolPolicy) (r : AllocationRecord) :
    Prop where
  stored : s.allocations.lookup r.id = some r
  holds : r.state.holdsUnits = true
  pool : r.pool = p
  rested : s.Rested policy r

def candidate (s : Impl) (policy : PoolPolicy) (k : AllocationId) : Option ReclaimVictim :=
  match s.allocations.lookup k with
  | none => none
  | some r =>
      let age := if r.lastTouched ≤ s.tick then s.tick - r.lastTouched else 0
      if !r.state.holdsUnits then none
      else if policy.reclaim.minHoldTicks ≠ 0 ∧ age < policy.reclaim.minHoldTicks then none
      else some (victimOf r)

theorem candidate_eq_some {policy : PoolPolicy} {k : AllocationId} {v : ReclaimVictim} :
    s.candidate policy k = some v ↔
      ∃ r, s.allocations.lookup k = some r ∧ r.state.holdsUnits = true ∧ s.Rested policy r ∧
        v = victimOf r := by
  unfold candidate
  cases hr : s.allocations.lookup k with
  | none => simp
  | some r =>
      have hrested : s.Rested policy r ↔ ¬(policy.reclaim.minHoldTicks ≠ 0 ∧
          (if r.lastTouched ≤ s.tick then s.tick - r.lastTouched else 0) <
            policy.reclaim.minHoldTicks) := by
        rw [not_and, UInt64.not_lt]
        rfl
      simp only [Option.some.injEq, exists_eq_left', hrested]
      generalize (if r.lastTouched ≤ s.tick then s.tick - r.lastTouched else 0) = age
      cases r.state.holdsUnits with
      | false => simp
      | true =>
          rw [Bool.not_true, if_neg Bool.false_ne_true]
          split
          · rename_i hage
            simp [hage]
          · rename_i hage
            simp only [Option.some.injEq, not_false_eq_true, true_and, hage]
            exact eq_comm

theorem mem_candidates {entry : PoolEntry} {policy : PoolPolicy} {v : ReclaimVictim} :
    v ∈ s.candidates entry policy ↔ ∃ k r, k ∈ entry.members ∧
      s.allocations.lookup k = some r ∧ r.state.holdsUnits = true ∧ s.Rested policy r ∧
        v = victimOf r := by
  change v ∈ entry.members.keys.filterMap (s.candidate policy) ↔ _
  rw [List.mem_filterMap]
  constructor
  · rintro ⟨k, hk, hv⟩
    obtain ⟨r, hr⟩ := candidate_eq_some.mp hv
    exact ⟨k, r, AList.mem_keys.mpr hk, hr⟩
  · rintro ⟨k, r, hk, hr⟩
    exact ⟨k, AList.mem_keys.mp hk, candidate_eq_some.mpr ⟨r, hr⟩⟩

/-- The candidates are different allocations. -/
theorem candidates_nodup (hk : s.view.Keyed) (entry : PoolEntry) (policy : PoolPolicy) :
    ((s.candidates entry policy).map (·.allocation)).Nodup := by
  have hone : ∀ {k : AllocationId} {v : ReclaimVictim}, (∃ r, s.allocations.lookup k = some r ∧
      r.state.holdsUnits = true ∧ s.Rested policy r ∧ v = victimOf r) → v.allocation = k := by
    rintro k v ⟨r, hr, -, -, rfl⟩
    exact hk.allocations k r hr
  change ((entry.members.keys.filterMap (s.candidate policy)).map (·.allocation)).Nodup
  rw [List.map_filterMap]
  refine List.Nodup.filterMap (fun k k' id h h' ↦ ?_) entry.members.nodupKeys
  obtain ⟨v, hv, rfl⟩ := Option.map_eq_some_iff.mp h
  obtain ⟨v', hv', heq⟩ := Option.map_eq_some_iff.mp h'
  rw [← hone (candidate_eq_some.mp hv), ← hone (candidate_eq_some.mp hv'), heq]

/-- The members of the pool of one class that may be reclaimed, in the order of the planner. -/
def candidateOrder (s : Impl) (entry : PoolEntry) (policy : PoolPolicy) (klass : ReclaimClass) :
    List ReclaimVictim :=
  ((s.candidates entry policy).filter (·.reclaimClass = klass)).insertionSort
    fun a b ↦ victimOrder b a = false

theorem candidateOrder_enumerates (hk : s.view.Keyed) (entry : PoolEntry) (policy : PoolPolicy)
    (klass : ReclaimClass) :
    Enumerates victimKey (fun v ↦ v ∈ s.candidates entry policy ∧ v.reclaimClass = klass)
      (s.candidateOrder entry policy klass) := by
  unfold candidateOrder
  refine Enumerates.insertionSort (fun a _ b _ ↦ ?_) ?_ fun v ↦ by simp
  · rw [← not_iff_not, Bool.not_eq_false, victimOrder_iff, not_le]
  · have hids : (((s.candidates entry policy).filter (·.reclaimClass = klass)).map
        (·.allocation)).Nodup :=
      (candidates_nodup hk entry policy).sublist (List.filter_sublist.map _)
    refine List.Nodup.of_map (fun x : ℕ ×ₗ ℕ ×ₗ ℕ ↦ (ofLex (ofLex x).2).2) ?_
    rw [List.map_map]
    have := hids.map (f := fun k : AllocationId ↦ k.raw.toNat) (fun a b hab ↦ by
      cases a
      cases b
      exact congrArg _ (Word.eq_of_toNat hab))
    rw [List.map_map] at this
    exact this

/-- The shape of a plan: what the pass over the reclaimable candidates takes, and after it what
the pass over the pinned ones takes when it is made. -/
structure PlanShape (s : Impl) (q : ReclaimRequest) (entry : PoolEntry) (policy : PoolPolicy)
    (plan : ReclamationPlan) (A B : List ReclaimVictim) : Prop where
  victims : plan.victims = A ++ B
  planned : plan.plannedUnits.toNat = victimUnits plan.victims
  bounded : plan.plannedUnits.toNat ≤ policy.reclaim.maxUnitsPerOperation.toNat
  first : Greedy (Takes policy q.targetUnits entry.freeUnits)
    (s.candidateOrder entry policy .reclaimable) A
  second : Unmet policy q.targetUnits entry.freeUnits (victimUnits A) →
    policy.reclaim.allowProtectedReclaim = true →
      Greedy (fun C c ↦ Takes policy q.targetUnits entry.freeUnits (A ++ C) c)
        (s.candidateOrder entry policy .pinned) B
  skipped : ¬(Unmet policy q.targetUnits entry.freeUnits (victimUnits A) ∧
    policy.reclaim.allowProtectedReclaim = true) → B = []
  truncated : plan.truncated = true ↔
    (A ≠ s.candidateOrder entry policy .reclaimable ∧
      Unmet policy q.targetUnits entry.freeUnits (victimUnits A)) ∨
    (policy.reclaim.allowProtectedReclaim = true ∧ B ≠ s.candidateOrder entry policy .pinned ∧
      Unmet policy q.targetUnits entry.freeUnits (victimUnits (A ++ B)))

/-- The plan reports what the passes selected. -/
theorem buildPlan_final (s : Impl) (q : ReclaimRequest) (entry : PoolEntry) (policy : PoolPolicy) :
    let first := selectVictims policy q.targetUnits entry.freeUnits
      (s.candidateOrder entry policy .reclaimable) {}
    let final := if needsMore policy q.targetUnits entry.freeUnits first.planned &&
        policy.reclaim.allowProtectedReclaim then
      selectVictims policy q.targetUnits entry.freeUnits
        (s.candidateOrder entry policy .pinned) first else first
    (s.buildPlan q entry policy).victims = final.victims ∧
      (s.buildPlan q entry policy).plannedUnits = final.planned ∧
      (s.buildPlan q entry policy).truncated = final.truncated := ⟨rfl, rfl, rfl⟩

theorem buildPlan_shape {q : ReclaimRequest} {entry : PoolEntry} {policy : PoolPolicy}
    (hb : PlanBounds policy entry.freeUnits)
    (hunits : ∀ k r, s.allocations.lookup k = some r → r.units.toNat ≤ 1152921504606846976) :
    ∃ A B, s.PlanShape q entry policy (s.buildPlan q entry policy) A B := by
  have hcs : ∀ klass, ∀ c ∈ s.candidateOrder entry policy klass,
      c.units.toNat ≤ 1152921504606846976 := by
    intro klass c hc
    have hc : c ∈ s.candidates entry policy :=
      (List.mem_filter.mp ((List.mem_insertionSort _).mp hc)).1
    obtain ⟨k, r, -, hr, -, -, rfl⟩ := mem_candidates.mp hc
    exact hunits k r hr
  have hempty : Selection.Faithful policy {} := ⟨rfl, Nat.zero_le _⟩
  obtain ⟨A, hA, hAv, hAf, hAt⟩ := selectVictims_greedy q.targetUnits hb
    (hcs .reclaimable) hempty
  obtain ⟨hfinalV, hfinalP, hfinalT⟩ := buildPlan_final s q entry policy
  generalize selectVictims policy q.targetUnits entry.freeUnits
    (s.candidateOrder entry policy .reclaimable) {} = first at *
  have hAv : first.victims = A := hAv
  have hA : Greedy (Takes policy q.targetUnits entry.freeUnits)
      (s.candidateOrder entry policy .reclaimable) A := hA
  have hneeds := needsMore_iff q.targetUnits hb hAf
  have hAt : first.truncated = true ↔ A ≠ s.candidateOrder entry policy .reclaimable ∧
      Unmet policy q.targetUnits entry.freeUnits (victimUnits A) :=
    hAt.trans (or_iff_right Bool.false_ne_true)
  rw [hAv] at hneeds
  by_cases huse : Unmet policy q.targetUnits entry.freeUnits (victimUnits A) ∧
      policy.reclaim.allowProtectedReclaim = true
  · obtain ⟨B, hB, hBv, hBf, hBt⟩ := selectVictims_greedy q.targetUnits hb
      (hcs .pinned) hAf
    rw [hAv] at hB hBv hBt
    rw [if_pos (by rw [hneeds.mpr huse.1, huse.2]; rfl)] at hfinalV hfinalP hfinalT
    refine ⟨A, B, hfinalV.trans hBv, ?_, ?_, hA, fun _ _ ↦ hB, fun hno ↦ absurd huse hno, ?_⟩
    · rw [hfinalV, hfinalP]
      exact hBf.planned
    · rw [hfinalP]
      exact hBf.bounded
    · rw [hfinalT, hBt, hAt]
      exact or_congr_right (and_iff_right huse.2).symm
  · have hskip : ¬(needsMore policy q.targetUnits entry.freeUnits first.planned &&
        policy.reclaim.allowProtectedReclaim) = true := by
      rw [Bool.and_eq_true, hneeds]
      exact huse
    rw [if_neg hskip] at hfinalV hfinalP hfinalT
    refine ⟨A, [], ?_, ?_, ?_, hA, fun hunmet hallow ↦ absurd ⟨hunmet, hallow⟩ huse,
      fun _ ↦ rfl, ?_⟩
    · rw [hfinalV, hAv, List.append_nil]
    · rw [hfinalV, hfinalP]
      exact hAf.planned
    · rw [hfinalP]
      exact hAf.bounded
    · rw [hfinalT, hAt, List.append_nil]
      exact (or_iff_left fun h ↦ huse ⟨h.2.2, h.1⟩).symm

/-! ### The laws of a plan -/

theorem planBounds_of_valid (hv : s.view.Valid) {p : PoolId} {k : PolicyId} {entry : PoolEntry}
    {policy : PoolPolicy} (hl : s.pools.lookup p = some entry)
    (hp : s.policies.lookup k = some policy) : PlanBounds policy entry.freeUnits := by
  refine ⟨?_, ?_⟩
  · have hpolicy : policy.IsValid := hv.policies k policy hp
    unfold PoolPolicy.IsValid PoolPolicy.validate at hpolicy
    simp only [seq_ok, require_eq_ok, exists_const] at hpolicy
    obtain ⟨-, -, -, -, -, -, -, -, -, -, -, -, -, hmax, -⟩ := hpolicy
    exact Word.le_iff.mp hmax
  · have hvalid : entry.descriptor.IsValid := hv.pools p entry.shape (view_pools_lookup hl)
    obtain ⟨-, -, -, hraw, hprot, -⟩ := PoolDescriptor.isValid_iff.mp hvalid
    have hraw : entry.descriptor.rawUnits.toNat ≤ 1152921504606846976 := Word.le_iff.mp hraw
    have husable : entry.usable.toNat =
        entry.descriptor.rawUnits.toNat - entry.descriptor.protectedUnits.toNat := by
      unfold PoolEntry.usable PoolDescriptor.usableUnits
      rw [if_pos hprot, Word.toNat_sub (Word.le_iff.mp hprot)]
    rw [entry.freeUnits_toNat]
    omega

theorem planReclaimLocked_ok {q : ReclaimRequest} {plan : ReclamationPlan}
    (h : s.planReclaimLocked q = .ok plan) : ∃ entry policy,
      s.pools.lookup q.pool = some entry ∧
      s.policies.lookup entry.descriptor.policy = some policy ∧
      plan = s.buildPlan q entry policy := by
  unfold planReclaimLocked admitReclaim at h
  simp only [seq_ok, require_eq_ok, exists_const, requirePool_eq_ok, requirePolicy_eq_ok,
    pure_ok] at h
  obtain ⟨mid, ⟨-, -, -, -, entry, ⟨-, hl⟩, -, -, policy, hp, -, rfl⟩, hplan⟩ := h
  exact ⟨entry, policy, hl, hp, hplan.symm⟩

section

variable {q : ReclaimRequest} {entry : PoolEntry} {policy : PoolPolicy} {plan : ReclamationPlan}
  {A B : List ReclaimVictim}

theorem mem_candidateOrder {klass : ReclaimClass} {v : ReclaimVictim} :
    v ∈ s.candidateOrder entry policy klass ↔
      v ∈ s.candidates entry policy ∧ v.reclaimClass = klass := by
  unfold candidateOrder
  simp

theorem PlanShape.prefix_pinned (h : s.PlanShape q entry policy plan A B) :
    B <+: s.candidateOrder entry policy .pinned := by
  by_cases huse : Unmet policy q.targetUnits entry.freeUnits (victimUnits A) ∧
      policy.reclaim.allowProtectedReclaim = true
  · exact (h.second huse.1 huse.2).isPrefix
  · rw [h.skipped huse]
    exact List.nil_prefix

theorem PlanShape.mem_candidates (h : s.PlanShape q entry policy plan A B) {v : ReclaimVictim}
    (hv : v ∈ plan.victims) : v ∈ s.candidates entry policy := by
  rw [h.victims] at hv
  rcases List.mem_append.mp hv with hv | hv
  · exact (mem_candidateOrder.mp (h.first.isPrefix.subset hv)).1
  · exact (mem_candidateOrder.mp (h.prefix_pinned.subset hv)).1

/-- Two candidates with one id are one. -/
theorem candidates_inj (hk : s.view.Keyed) {v w : ReclaimVictim}
    (hv : v ∈ s.candidates entry policy) (hw : w ∈ s.candidates entry policy)
    (heq : v.allocation = w.allocation) : v = w :=
  List.inj_on_of_nodup_map (candidates_nodup hk entry policy) hv hw heq

theorem PlanShape.nodup (h : s.PlanShape q entry policy plan A B) (hk : s.view.Keyed) :
    (plan.victims.map (·.allocation)).Nodup := by
  have hvictims : plan.victims.Nodup := by
    rw [h.victims, List.nodup_append]
    refine ⟨?_, ?_, ?_⟩
    · exact (candidateOrder_enumerates hk entry policy .reclaimable).nodup.sublist
        h.first.isPrefix.sublist
    · exact (candidateOrder_enumerates hk entry policy .pinned).nodup.sublist
        h.prefix_pinned.sublist
    · rintro a ha b hb rfl
      have hr := (mem_candidateOrder.mp (h.first.isPrefix.subset ha)).2
      have hp := (mem_candidateOrder.mp (h.prefix_pinned.subset hb)).2
      rw [hr] at hp
      cases hp
  refine List.Nodup.map_on (fun v hv w hw heq ↦ ?_) hvictims
  exact candidates_inj hk (h.mem_candidates hv) (h.mem_candidates hw) heq

theorem PlanShape.holds (h : s.PlanShape q entry policy plan A B) (hk : s.view.Keyed)
    {v : ReclaimVictim} (hv : v ∈ plan.victims) :
    ∃ r, s.allocations.lookup v.allocation = some r ∧ r.state.holdsUnits = true ∧
      s.Rested policy r ∧ v = victimOf r := by
  obtain ⟨k, r, -, hr, hholds, hrested, rfl⟩ := Impl.mem_candidates.mp (h.mem_candidates hv)
  have hid : (victimOf r).allocation = k := hk.allocations k r hr
  rw [hid]
  exact ⟨r, hr, hholds, hrested, rfl⟩

/-- The units of the victims are the units of their records. -/
theorem PlanShape.unitsUnder_eq (h : s.PlanShape q entry policy plan A B) (hk : s.view.Keyed) :
    s.unitsUnder (·.units) (plan.victims.map (·.allocation)) = victimUnits plan.victims := by
  unfold unitsUnder victimUnits
  rw [List.map_map]
  refine congrArg List.sum (List.map_congr_left fun v hv ↦ ?_)
  obtain ⟨r, hr, -, -, rfl⟩ := h.holds hk hv
  change ((s.allocations.lookup (victimOf r).allocation).map _).getD 0 = _
  rw [hr]
  rfl

end

/-- A reclamation that succeeds has revoked the victims of its plan. -/
theorem applyReclaimLocked_revoked {q : ReclaimRequest} {result : ReclaimResult}
    (hk : s.view.Keyed) (hv : s.view.Valid) (h : s.applyReclaimLocked q = (.ok result, t)) :
    s.planReclaimLocked q = .ok result.plan ∧
      s.Revoked .reclaimed (result.plan.victims.map (·.allocation)) t ∧
      s.Tallied {} (result.plan.victims.map (·.allocation))
        { allocations := result.revokedAllocations
          units := result.reclaimedUnits
          borrow := result.borrowerUnitsReturned } := by
  unfold applyReclaimLocked at h
  split at h
  · cases h
  rename_i plan hplan
  simp only [seq_ok, pure_ok] at hplan
  obtain ⟨plan', hplan, _, -, rfl⟩ := hplan
  obtain ⟨entry, policy, hl, hp, rfl⟩ := planReclaimLocked_ok hplan
  obtain ⟨A, B, hshape⟩ := buildPlan_shape (q := q) (planBounds_of_valid hv hl hp)
    fun k r hr ↦ Word.le_iff.mp (hv.allocations k r hr)
  split at h
  · cases h
  rename_i tally u hfence
  have hids := hshape.nodup hk
  have hholds : ∀ k ∈ (s.buildPlan q entry policy).victims.map (·.allocation),
      ∃ r, s.allocations.lookup k = some r ∧ r.state.holdsUnits = true := by
    intro k hmem
    obtain ⟨v, hvictim, rfl⟩ := List.mem_map.mp hmem
    obtain ⟨r, hr, hholds, -⟩ := hshape.holds hk hvictim
    exact ⟨r, hr, hholds⟩
  obtain ⟨C, -, hrevoked, htally, hall, -⟩ := fenceEach_revoked hids hholds hfence
  obtain rfl := hall.resolve_right Bool.false_ne_true
  split at h
  · cases h
  split at h
  · cases h
  obtain ⟨hresult, rfl⟩ := Prod.mk.inj h
  obtain rfl := Except.ok.inj hresult
  exact ⟨hplan, hrevoked, htally⟩

end Impl

end BufferFabric
