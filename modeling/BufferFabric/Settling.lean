import BufferFabric.Room

/-!
# How operations on allocations end

Allocate and commit journal before they change anything; a release returns the units first and
journals what is left. All three check the closure of the pool last, when everything is changed.
-/

namespace BufferFabric

open Outcome

theorem Exact.store {s : Impl} (h : Exact s) (store : DurableStore) :
    Exact { s with store := store } :=
  ⟨h.sound.congr rfl rfl rfl, h.keyed, h.ahead⟩

/-- What holds of the state in every run, whatever was lost: the entries are stored under their ids
and valid, and an allocation that holds units has some. -/
structure Impl.Regular (s : Impl) : Prop where
  keyed : s.view.Keyed
  valid : s.view.Valid
  sized : ∀ k r, s.allocations.lookup k = some r → r.state.holdsUnits = true → 0 < r.units.toNat

theorem System.Run.regular {allow : System → Event → Prop} {y : System} (h : System.Run allow y)
    {s : Impl} (hlive : y.live = some s) : s.Regular :=
  ⟨h.keyed hlive, h.valid hlive, fun _ _ hr hholds ↦ h.sized hlive hr hholds⟩

theorem Exact.regular {s : Impl} (h : Exact s) : s.Regular := by
  refine ⟨h.keyed, ⟨fun k p hp ↦ (h.sound.policy_id k p hp).2, ?_, fun k r hr ↦
    Word.le_iff.mpr (h.sound.allocation_units k r hr)⟩, fun k r hr hholds ↦
      (h.sound.placed k r hr hholds).pos⟩
  intro k d hd
  obtain ⟨e, he, rfl⟩ := Option.map_eq_some_iff.mp hd
  exact (h.sound.pool_id k e he).2

namespace Impl

variable {s t : Impl}

namespace Regular

theorem enter (h : s.Regular) (c : Call) : (s.enter c).Regular := ⟨h.keyed, h.valid, h.sized⟩

theorem policy (h : s.Regular) {k : PolicyId} {policy : PoolPolicy}
    (hp : s.policies.lookup k = some policy) : policy.IsValid :=
  h.valid.policies k policy hp

theorem usable_le (h : s.Regular) {p : PoolId} {e : PoolEntry} (hl : s.pools.lookup p = some e) :
    e.usable.toNat ≤ e.descriptor.rawUnits.toNat ∧
      e.descriptor.rawUnits.toNat ≤ 1152921504606846976 := by
  have hd := h.valid.pool hl
  have husable : e.usable.toNat + e.descriptor.protectedUnits.toNat =
      e.descriptor.rawUnits.toNat := PoolDescriptor.usableUnits_toNat hd
  exact ⟨by omega, Word.le_iff.mp (PoolDescriptor.isValid_iff.mp hd).2.2.2.1⟩

/-- The lender of a grant is a registered pool with the units that the grant borrows. -/
theorem lender (h : s.Regular) {key : PoolId} {entry : PoolEntry} {policy : PoolPolicy}
    {r : AllocationRecord} (hfits : GrantFits s key entry policy r) (hb : r.borrowUnits ≠ 0) :
    r.lender.Valid ∧ ∃ l, s.pools.lookup r.lender = some l ∧
      l.ownUsage.toNat + r.borrowUnits.toNat ≤ l.usable.toNat := by
  obtain ⟨hlender, hle⟩ := hfits.lender hb
  rcases hres : s.findLender kMaxPoolDepth entry.descriptor.parent with ⟨lender, free⟩
  rw [hres] at hlender hle
  dsimp only at hlender hle
  subst hlender
  have hne := Word.ne_zero_iff.mp hb
  obtain ⟨hv, -, l, hl, rfl⟩ := @findLender_spec s (fun p e he ↦ h.keyed.pool_id he)
    (fun _ ↦ 0) (fun _ _ _ _ ↦ Nat.le_refl 0) _ _ _ _ hres (Word.ne_zero_iff.mpr (by omega))
  rw [l.freeUnits_toNat] at hle
  exact ⟨hv, l, hl, by omega⟩

end Regular

structure Untouched (s t : Impl) : Prop where
  pools : t.pools = s.pools
  allocations : t.allocations = s.allocations
  attempts : t.attempts = s.attempts
  attemptOrder : t.attemptOrder = s.attemptOrder
  next : t.counters.nextAllocationId = s.counters.nextAllocationId

theorem Untouched.refl (s : Impl) : s.Untouched s := ⟨rfl, rfl, rfl, rfl, rfl⟩

/-- How a call ends that gets past its admission if it is not refused there: its append fails, or
the pool has no room for the result, or it is done. A call that does not journal first has changed
the state when its append fails. -/
inductive Ends (s : Impl) (first : Bool) (room : Prop) : Outcome Decision → Prop
  | refused {e : Status} (hcode : e.code ≠ .accountingViolation) (hroom : room) :
      Ends s first room (.error e, s)
  | lost {e : Status} {t : Impl} (hstore : s.store.failures < t.store.failures)
      (hkept : s.Untouched t ↔ first = true) : Ends s first room (.error e, t)
  | unclosed {e : Status} {t : Impl} (hstore : t.store.failures = s.store.failures)
      (hroom : ¬room) (hchanged : ¬s.Untouched t) : Ends s first room (.error e, t)
  | done {d : Decision} {t : Impl} (hstore : t.store.failures = s.store.failures) (hroom : room)
      (hworking : t.shuttingDown = s.shuttingDown) : Ends s first room (.ok d, t)

/-- A call that journals first keeps the state when it fails, if the pool has room whenever the
append succeeds. -/
theorem Ends.untouched_iff {room : Prop} {r : Outcome Decision} (h : s.Ends true room r) :
    (∀ e, r.1 = .error e → s.Untouched r.2) ↔
      (r.2.store.failures = s.store.failures → room) := by
  cases h with
  | refused hcode hroom => exact ⟨fun _ _ ↦ hroom, fun _ _ _ ↦ .refl s⟩
  | lost hstore hkept =>
      exact ⟨fun _ hsame ↦ absurd hsame hstore.ne', fun _ _ _ ↦ hkept.mpr rfl⟩
  | unclosed hstore hroom hchanged =>
      exact ⟨fun h ↦ absurd (h _ rfl) hchanged, fun h ↦ absurd (h hstore) hroom⟩
  | done hstore hroom hworking =>
      refine ⟨fun _ _ ↦ hroom, fun _ e he ↦ ?_⟩
      cases he

/-- A call that journals last keeps the state when it fails, if nothing past its admission can
fail. -/
theorem Ends.untouched_iff_of_late {room : Prop} {r : Outcome Decision}
    (h : s.Ends false room r) :
    (∀ e, r.1 = .error e → s.Untouched r.2) ↔
      r.2.store.failures = s.store.failures ∧ room := by
  cases h with
  | refused hcode hroom => exact ⟨fun _ ↦ ⟨rfl, hroom⟩, fun _ _ _ ↦ .refl s⟩
  | lost hstore hkept =>
      exact ⟨fun h ↦ Bool.noConfusion (hkept.mp (h _ rfl)), fun h ↦ absurd h.1 hstore.ne'⟩
  | unclosed hstore hroom hchanged =>
      exact ⟨fun h ↦ absurd (h _ rfl) hchanged, fun h ↦ absurd h.2 hroom⟩
  | done hstore hroom hworking =>
      refine ⟨fun _ ↦ ⟨hstore, hroom⟩, fun _ e he ↦ ?_⟩
      cases he

theorem journal_untouched {record : JournalRecord} {e : Status}
    (h : s.journal record = (.error e, t)) : s.Untouched t := by
  rw [eq_of_journal h]
  exact ⟨rfl, rfl, rfl, rfl, rfl⟩

/-! ### Allocate -/

/-- The policy and the grant of a request that is granted unless its append fails. -/
def grantOf (s : Impl) (q : AllocateRequest) : Option (PoolPolicy × Grant) :=
  match s.admitAllocate q with
  | .ok (none, entry, queue, policy) =>
      match s.assertAllocate q entry queue policy,
        s.decideGrant q entry queue policy (s.resolveEvidence entry) with
      | .ok _, .inr g =>
          if (s.planRecord q entry queue policy g).isOk then some (policy, g) else none
      | _, _ => none
  | _ => none

/-- The figures of the lender have room for the units that a grant borrows. Where the ancestry of a
pool leads back to it the pool lends to itself, and has to close with them. -/
def LenderFits (s : Impl) (q : AllocateRequest) (policy : PoolPolicy) (g : Grant) : Prop :=
  g.borrow ≠ 0 → ∀ l ∈ s.pools.lookup g.lender,
    if g.lender = q.pool then
      l.ownUsage.toNat + g.units.toNat ≤ l.usable.toNat + policy.allowanceUnits.toNat ∧
        l.lentOut.toNat + g.borrow.toNat ≤ l.usable.toNat + policy.allowanceUnits.toNat
    else l.lentOut.toNat + g.borrow.toNat < 18446744073709551616

theorem finishAllocate_quiet {q : AllocateRequest} {queue : QueueDescriptor}
    {policy : PoolPolicy} {evidence : PressureEvidence} {kind : DecisionKind} {code : ErrorCode}
    {reason : String} {granted : UInt64} {allocation : AllocationId} {binding : BindingConstraint}
    {intent : CorrectiveIntent} {lender : PoolId} {entry : PoolEntry} {d : Decision}
    (h : s.finishAllocate q queue policy evidence kind code reason granted allocation binding
      intent lender entry = (d, t)) : t.store = s.store ∧ t.shuttingDown = s.shuttingDown := by
  obtain ⟨runtime, a, -, rfl, -⟩ := finishAllocate_spec h
  obtain ⟨order, attempts, hframe⟩ := (s.putPool q.pool
    { entry with runtime := runtime }).advanceDecision.recordAttempt_frame a
  rw [hframe]
  exact ⟨rfl, rfl⟩

theorem finishTarget_quiet {attempt : AttemptId} {kind : AttemptKind} {digest : Digest}
    {reason : String} {requested granted : UInt64} {target : Target} {entry : PoolEntry}
    {evidence : PressureEvidence} {d : Decision}
    (h : s.finishTarget attempt kind digest reason requested granted target entry evidence =
      (d, t)) : t.store = s.store ∧ t.shuttingDown = s.shuttingDown := by
  obtain ⟨a, rfl, -⟩ := finishTarget_spec h
  obtain ⟨order, attempts, hframe⟩ := s.advanceDecision.recordAttempt_frame a
  rw [hframe]
  exact ⟨rfl, rfl⟩

section

variable {q : AllocateRequest} {key : PoolId} {entry : PoolEntry} {queue : QueueDescriptor}
  {policy : PoolPolicy} {g : Grant} {r : AllocationRecord}

/-- The planned pool balances. -/
theorem planRecord_balances (h : s.Regular) (hl : s.pools.lookup key = some entry)
    (hp : s.policies.lookup entry.descriptor.policy = some policy)
    (hplan : s.planRecord q entry queue policy g = .ok r) :
    entry.descriptor.Balances policy.allowanceUnits.toNat (plannedEntry entry r).read := by
  have hdescriptor : (plannedEntry entry r).descriptor = entry.descriptor := by
    unfold plannedEntry PoolEntry.creditSplit
    cases r.state <;> cases r.reclaimClass <;> rfl
  unfold planRecord at hplan
  simp only [seq_ok, require_eq_ok, exists_const, pure_ok] at hplan
  obtain ⟨-, -, lineage, -, hclosed, rfl⟩ := hplan
  rw [← hdescriptor]
  refine (checkClosure_iff_balances (s := s) ?_ ?_ (h.policy hp)).mp ?_
  · rw [hdescriptor]
    exact h.valid.pool hl
  · rw [hdescriptor]
    exact hp
  · rw [checkClosure_iff_violations (by rw [hdescriptor]; exact hp)]
    exact List.isEmpty_iff.mp hclosed

theorem read_grantedEntry_checked (e : PoolEntry) (r : AllocationRecord) {f : Row}
    (hf : f.Checked) : (grantedEntry e r).read f = (e.creditSplit r).read f := by
  cases f with
  | queueReserved | queueCommitted => exact hf.elim
  | reserved | committed | pinned | reclaimable | own | borrowed | lent =>
      unfold grantedEntry PoolEntry.adjustQueue
      split <;> rfl

/-- The pool after a grant is the planned one, and has lent the borrowed units if it lends to
itself. -/
theorem read_granted_key (e : PoolEntry) (key : PoolId) (r : AllocationRecord) {f : Row}
    (hf : f.Checked) :
    (e.granted key key r).read f =
      (if key = r.lender ∧ r.borrowUnits ≠ 0 then
        (plannedEntry e r).addLending r.borrowUnits else plannedEntry e r).read f := by
  unfold PoolEntry.granted
  rw [if_pos rfl, if_pos rfl, read_grantedEntry_checked _ _ hf]
  by_cases hself : key = r.lender ∧ r.borrowUnits ≠ 0
  all_goals
    simp only [hself, ne_eq, not_false_eq_true, and_self, if_true, if_false]
    unfold plannedEntry PoolEntry.creditSplit
    cases f with
    | queueReserved | queueCommitted => exact hf.elim
    | reserved | committed | pinned | reclaimable | own | borrowed | lent =>
        cases r.state <;> cases r.reclaimClass <;> rfl

/-- The pool after a grant balances, if it does not lend to itself beyond its allowance. -/
theorem granted_balances_iff (h : s.Regular) (hfits : GrantFits s key entry policy r)
    (hplanned : entry.descriptor.Balances policy.allowanceUnits.toNat (plannedEntry entry r).read) :
    entry.descriptor.Balances policy.allowanceUnits.toNat (entry.granted key key r).read ↔
      (r.borrowUnits ≠ 0 → r.lender = key →
        entry.ownUsage.toNat + r.units.toNat ≤
            entry.usable.toNat + policy.allowanceUnits.toNat ∧
          entry.lentOut.toNat + r.borrowUnits.toNat ≤
            entry.usable.toNat + policy.allowanceUnits.toNat) := by
  have hread := fun {f : Row} (hf : f.Checked) ↦ read_granted_key entry key r hf
  by_cases hself : key = r.lender ∧ r.borrowUnits ≠ 0
  · obtain ⟨hkey, hb⟩ := hself
    simp only [hkey.symm, hb, ne_eq, not_false_eq_true, and_self, if_true] at hread
    obtain ⟨-, hallow, -⟩ := (h.policy hfits.policy_lookup).limits
    obtain ⟨husable, hraw⟩ := h.usable_le hfits.pool_lookup
    have hborrowed := hfits.borrowed hb
    have hlimit := (h.policy hfits.policy_lookup).limits.2.2
    obtain ⟨-, l, hl, hroom⟩ := h.lender hfits hb
    rw [← hkey, hfits.pool_lookup, Option.some.injEq] at hl
    subst hl
    have hle := hfits.borrow_le
    have hown := hfits.own
    have hne := Word.ne_zero_iff.mp hb
    have hplannedOwn : (plannedEntry entry r).read .own =
        entry.ownUsage.toNat + (r.units.toNat - r.borrowUnits.toNat) := by
      change (entry.ownUsage + (r.units - r.borrowUnits)).toNat = _
      rw [Word.toNat_add (by rw [Word.toNat_sub hle]; omega), Word.toNat_sub hle]
    have hplannedIn : (plannedEntry entry r).read .borrowed =
        entry.borrowedIn.toNat + r.borrowUnits.toNat := Word.toNat_add (by omega)
    have hplannedLent : (plannedEntry entry r).read .lent = entry.lentOut.toNat := by
      unfold plannedEntry PoolEntry.creditSplit
      cases r.state <;> cases r.reclaimClass <;> rfl
    have hgrantedOwn : (entry.granted key key r).read .own =
        (plannedEntry entry r).read .own + r.borrowUnits.toNat := by
      refine (hread (f := .own) trivial).trans (Word.toNat_add ?_)
      change (plannedEntry entry r).read .own + _ < _
      omega
    have hgrantedLent : (entry.granted key key r).read .lent =
        ((plannedEntry entry r).read .lent + r.borrowUnits.toNat) % 18446744073709551616 :=
      (hread (f := .lent) trivial).trans (UInt64.toNat_add _ _)
    have hres : (entry.granted key key r).read .reserved = (plannedEntry entry r).read .reserved :=
      hread trivial
    have hcom : (entry.granted key key r).read .committed =
        (plannedEntry entry r).read .committed := hread trivial
    have hpin : (entry.granted key key r).read .pinned = (plannedEntry entry r).read .pinned :=
      hread trivial
    have hrec : (entry.granted key key r).read .reclaimable =
        (plannedEntry entry r).read .reclaimable := hread trivial
    have hin : (entry.granted key key r).read .borrowed = (plannedEntry entry r).read .borrowed :=
      hread trivial
    obtain ⟨hfit, hclasses, hshares, -, -, -⟩ := hplanned
    change entry.usable.toNat ≤ _ at husable
    constructor
    · rintro ⟨-, -, hshares', -, hown', hlent'⟩ - -
      change _ ≤ entry.usable.toNat + _ at hown'
      change _ ≤ entry.usable.toNat + _ at hlent'
      omega
    · intro hfitting
      obtain ⟨hown', hlent'⟩ := hfitting hb hkey.symm
      refine ⟨by omega, by omega, by omega, ?_, ?_, ?_⟩
      · change _ + _ + ((entry.granted key key r).read .own - entry.usable.toNat) < _
        omega
      · change _ ≤ entry.usable.toNat + _
        omega
      · change _ ≤ entry.usable.toNat + _
        omega
  · simp only [hself, if_false] at hread
    refine iff_of_true (hplanned.congr fun f hf ↦ hread hf) fun hb hkey ↦ ?_
    exact absurd ⟨hkey.symm, hb⟩ hself

/-- A grant that is journaled can be applied exactly if the figures of its lender have room. -/
theorem grant_applies_iff (h : s.Regular) (hfits : GrantFits s key entry policy r)
    (store : DurableStore) :
    ((({ s with store := store } : Impl).applyCommitUnits key entry r.units r.borrowUnits
      r.lender).1 = .ok () ↔
      (r.borrowUnits ≠ 0 → ∃ l, s.pools.lookup r.lender = some l ∧
        l.lentOut.toNat + r.borrowUnits.toNat < 18446744073709551616 ∧
        (r.lender = key → entry.ownUsage.toNat + r.units.toNat ≤
          entry.usable.toNat + 1152921504606846976))) ∧
    ∀ e t, ({ s with store := store } : Impl).applyCommitUnits key entry r.units r.borrowUnits
        r.lender = (.error e, t) →
      t.pools.lookup key = some (entry.creditUsage r) := by
  obtain ⟨-, hallow, hlimit⟩ := (h.policy hfits.policy_lookup).limits
  obtain ⟨husable, hraw⟩ := h.usable_le hfits.pool_lookup
  have hle := hfits.borrow_le
  have hown := hfits.own
  have hlt := Word.toNat_lt entry.ownUsage
  have hin : entry.borrowedIn.toNat + r.borrowUnits.toNat < 18446744073709551616 := by
    by_cases hb : r.borrowUnits = 0
    · rw [hb, UInt64.toNat_zero]
      exact Word.toNat_lt _
    · have hborrowed := hfits.borrowed hb
      omega
  obtain ⟨hiff, herror⟩ := applyCommitUnits_fitted { s with store := store } key
    hle (by omega) hin
  refine ⟨hiff.trans (creditLender_iff.trans (forall_congr' fun hb ↦ ?_)), fun e t ht ↦ ?_⟩
  · obtain ⟨hv, l, hl, hroom⟩ := h.lender hfits hb
    have husable' := Word.toNat_lt l.usable
    rw [and_iff_right hv]
    simp only [putPool]
    rw [Table.lookup_insert_eq]
    by_cases hself : r.lender = key
    · rw [hself, hfits.pool_lookup, Option.some.injEq] at hl
      subst hl
      have hcredited : (entry.creditUsage r).ownUsage.toNat =
          entry.ownUsage.toNat + (r.units.toNat - r.borrowUnits.toNat) := by
        change (entry.ownUsage + (r.units - r.borrowUnits)).toNat = _
        rw [Word.toNat_add (by rw [Word.toNat_sub hle]; omega), Word.toNat_sub hle]
      rw [if_pos hself, hself, hfits.pool_lookup]
      simp only [Option.some.injEq, exists_eq_left', forall_const, hcredited]
      change entry.lentOut.toNat + _ < _ ∧ _ ∧ _ ≤ entry.usable.toNat + _ ↔ _
      omega
    · rw [if_neg hself, hl]
      simp only [Option.some.injEq, exists_eq_left', hself, false_imp_iff, and_true]
      omega
  · rw [herror e t ht]
    exact (Table.lookup_insert_eq ..).trans (if_pos rfl)

theorem applyGrant_error (queue : QueueDescriptor) (evidence : PressureEvidence) {u : Unit}
    {t : Impl}
    (hunits : r.units = g.units) (hborrow : r.borrowUnits = g.borrow)
    (hj : s.journal (.allocation (journalOpFor r.state) r) = (.ok u, t))
    (hfail : (({ s with store := t.store } : Impl).applyCommitUnits q.pool entry r.units
      r.borrowUnits r.lender).1 ≠ .ok ()) :
    ∃ e, (s.applyGrant q entry queue policy evidence g r).1 = .error e := by
  have hj' : s.journalAllocation (journalOpFor r.state) r = (.ok u, t) := hj
  unfold applyGrant
  rw [hj', eq_of_journal hj, ← hunits, ← hborrow]
  dsimp only
  split
  · exact ⟨_, rfl⟩
  · rename_i heq
    rw [heq] at hfail
    exact absurd rfl hfail

/-- The figures of the lender have room exactly if the grant can be applied and its pool balances
after it. -/
theorem lenderFits_iff (h : s.Regular) (hfits : GrantFits s q.pool entry policy r)
    (hunits : r.units = g.units) (hborrow : r.borrowUnits = g.borrow)
    (hlender : r.lender = g.lender) :
    s.LenderFits q policy g ↔
      (r.borrowUnits ≠ 0 → ∃ l, s.pools.lookup r.lender = some l ∧
        l.lentOut.toNat + r.borrowUnits.toNat < 18446744073709551616 ∧
        (r.lender = q.pool → entry.ownUsage.toNat + r.units.toNat ≤
          entry.usable.toNat + 1152921504606846976)) ∧
      (r.borrowUnits ≠ 0 → r.lender = q.pool →
        entry.ownUsage.toNat + r.units.toNat ≤
            entry.usable.toNat + policy.allowanceUnits.toNat ∧
          entry.lentOut.toNat + r.borrowUnits.toNat ≤
            entry.usable.toNat + policy.allowanceUnits.toNat) := by
  obtain ⟨-, hallow, -⟩ := (h.policy hfits.policy_lookup).limits
  obtain ⟨husable, hraw⟩ := h.usable_le hfits.pool_lookup
  unfold LenderFits
  rw [← hunits, ← hborrow, ← hlender, ← forall_and]
  refine forall_congr' fun hb ↦ ?_
  obtain ⟨-, l, hl, -⟩ := h.lender hfits hb
  by_cases hself : r.lender = q.pool
  · rw [hself, hfits.pool_lookup, Option.some.injEq] at hl
    subst hl
    rw [hself, hfits.pool_lookup]
    simp only [Option.mem_def, Option.some.injEq, forall_eq', exists_eq_left', if_true,
      forall_const]
    omega
  · simp [hself, hl]

theorem applyGrant_ends (h : s.Regular) {evidence : PressureEvidence}
    (hfits : GrantFits s q.pool entry policy r) (hunits : r.units = g.units)
    (hborrow : r.borrowUnits = g.borrow) (hlender : r.lender = g.lender)
    (hplan : s.planRecord q entry queue policy g = .ok r) :
    s.Ends true (s.LenderFits q policy g) (s.applyGrant q entry queue policy evidence g r) := by
  have hbalances := granted_balances_iff h hfits
    (planRecord_balances h hfits.pool_lookup hfits.policy_lookup hplan)
  have hiff : ∀ {pools : Table PoolId PoolEntry} {store : DurableStore},
      (s.grantedState r pools store).checkClosure (entry.granted q.pool q.pool r) = .ok () ↔
        entry.descriptor.Balances policy.allowanceUnits.toNat
          (entry.granted q.pool q.pool r).read := by
    intro pools store
    have hshape := PoolEntry.descriptor_eq_of_shape (PoolEntry.shape_granted q.pool q.pool r entry)
    rw [← hshape]
    refine checkClosure_iff_balances ?_ ?_ (h.policy hfits.policy_lookup)
    · rw [hshape]
      exact h.valid.pool hfits.pool_lookup
    · rw [hshape]
      exact hfits.policy_lookup
  rw [lenderFits_iff h hfits hunits hborrow hlender]
  have hend := applyGrant_cases queue evidence hfits hunits hborrow
  generalize hresult : s.applyGrant q entry queue policy evidence g r = result at hend ⊢
  cases hend with
  | lost hj => exact .lost (journal_failures hj) ⟨fun _ ↦ rfl, fun _ ↦ journal_untouched hj⟩
  | @broken u e t pools hj hfail hshapes =>
      obtain ⟨happlies, hcredited⟩ := grant_applies_iff h hfits t.store
      refine .unclosed (journal_failures_eq hj) (fun hroom ↦ ?_) fun hsame ↦ ?_
      · have hok := happlies.mpr hroom.1
        rw [hfail] at hok
        cases hok
      · -- the pool was credited before the lender refused
        have hl := hcredited _ _ hfail
        have hpools : pools = s.pools := hsame.pools
        dsimp only at hl
        rw [hpools, hfits.pool_lookup, Option.some.injEq] at hl
        have hown := congrArg (fun e ↦ e.ownUsage) hl
        have hin := congrArg (fun e ↦ e.borrowedIn) hl
        simp only [PoolEntry.creditUsage] at hown hin
        have hpos := hfits.pos
        have hown := UInt64.add_eq_left.mp hown.symm
        rw [UInt64.add_eq_left.mp hin.symm, UInt64.sub_zero] at hown
        rw [hown] at hpos
        exact Nat.lt_irrefl 0 hpos
  | @unclosed u e t pools hj hpools hclosure =>
      refine .unclosed (journal_failures_eq hj) (fun hroom ↦ ?_) fun hsame ↦ ?_
      · cases hclosure.symm.trans (hiff.mpr (hbalances.mpr hroom.2))
      · have hnext : s.counters.nextAllocationId + 1 = s.counters.nextAllocationId := hsame.next
        have hnext := congrArg UInt64.toNat hnext
        rw [toNat_add_of_not_overflow hfits.next] at hnext
        exact Nat.succ_ne_self _ hnext
  | @done u v t m pools d target hj hpools hclosure hfinish =>
      obtain ⟨hsame, hworking⟩ := finishAllocate_quiet hfinish
      have hstore : t.store.failures = s.store.failures := journal_failures_eq hj
      refine .done ((congrArg DurableStore.failures hsame).trans hstore)
        ⟨(grant_applies_iff h hfits t.store).1.mp ?_, hbalances.mp (hiff.mp hclosure)⟩ hworking
      by_contra hfail
      obtain ⟨e, he⟩ := applyGrant_error queue evidence hunits hborrow hj
        hfail
      rw [hresult] at he
      cases he

end

theorem allocateLocked_ends (h : s.Regular) (q : AllocateRequest) :
    s.Ends true (∀ x ∈ s.grantOf q, s.LenderFits q x.1 x.2) (s.allocateLocked q) := by
  have hbranch := s.allocateLocked_cases q
  generalize s.allocateLocked q = result at hbranch ⊢
  cases hbranch with
  | rejected hadm => exact .refused (admitAllocate_calm q _ hadm).2 (by simp [grantOf, hadm])
  | replayed hadm => exact .done rfl (by simp [grantOf, hadm]) rfl
  | barred hadm hassert =>
      exact .refused (assertAllocate_calm q _ _ _ _ hassert).2 (by simp [grantOf, hadm, hassert])
  | declined hadm hassert hrefuse hfinish =>
      obtain ⟨hsame, hworking⟩ := finishAllocate_quiet hfinish
      exact .done (congrArg DurableStore.failures hsame)
        (by simp [grantOf, hadm, hassert, hrefuse]) hworking
  | unplanned hadm hassert hgrant hplan =>
      exact .refused (planRecord_calm q _ _ _ _ _ hplan).2
        (by simp [grantOf, hadm, hassert, hgrant, hplan, Except.isOk, Except.toBool])
  | @planned entry queue policy u g r result hadm hassert hgrant hplan hresult =>
      obtain ⟨hfits, hunits, hborrow⟩ := grantFits hadm hassert hgrant hplan
      have hlender : r.lender = g.lender := by
        obtain ⟨-, expiresAt, lineage, rfl⟩ := planRecord_ok hplan
        rfl
      have hgranted : s.grantOf q = some (policy, g) := by
        simp [grantOf, hadm, hassert, hgrant, hplan, Except.isOk, Except.toBool]
      rw [← hresult]
      simpa [hgranted] using applyGrant_ends h hfits hunits hborrow hlender hplan

/-! ### Commit -/

def committedTarget (s : Impl) (q : CommitRequest) : Option Target :=
  match s.admitTarget q.attempt q.requestDigest q.allocation with
  | .ok (none, t) => if (s.assertCommit q t).isOk then some t else none
  | _ => none

def readCommitted (e : PoolEntry) (units : UInt64) : Row → ℕ
  | .reserved => (e.reservedUnits - units).toNat
  | .committed => (e.committedUnits + units).toNat
  | f => e.read f

theorem assertCommit_calm (q : CommitRequest) (t : Target) :
    ErrorsIn Status.Calm (s.assertCommit q t) := by
  unfold assertCommit
  exact .bind (.require fun _ ↦ by decide) fun _ ↦ .bind (.require fun _ ↦ by decide) fun _ ↦
    .bind (.require fun _ ↦ by decide) fun _ ↦ .require fun _ ↦ by decide

theorem applyCommit_ends (h : s.Regular) (q : CommitRequest) {t : Target}
    (hr : s.allocations.lookup q.allocation = some t.record) (hstate : t.record.state = .reserved)
    (hl : s.pools.lookup t.record.pool = some t.entry)
    (hp : s.policies.lookup t.entry.descriptor.policy = some t.policy) :
    s.Ends true (t.entry.descriptor.Balances t.policy.allowanceUnits.toNat
      (readCommitted t.entry t.record.units)) (s.applyCommit q t) := by
  unfold applyCommit
  dsimp only
  split
  · rename_i e u hj
    exact .lost (journal_failures hj) ⟨fun _ ↦ rfl, fun _ ↦ journal_untouched hj⟩
  rename_i u₀ u hj
  have hstore : u.store.failures = s.store.failures := journal_failures_eq hj
  rw [eq_of_journal hj]
  have hiff : ∀ {m : Impl}, m.policies = s.policies →
      (m.checkClosure (committedEntry t.entry t.record) = .ok () ↔
        t.entry.descriptor.Balances t.policy.allowanceUnits.toNat
          (readCommitted t.entry t.record.units)) := by
    intro m hm
    have hd : t.entry.descriptor.IsValid := h.valid.pool hl
    have hcloses := checkClosure_iff_balances (s := m) (e := committedEntry t.entry t.record) hd
      (by rw [hm]; exact hp) (h.policy hp)
    refine hcloses.trans ⟨fun hb ↦ hb.congr ?_, fun hb ↦ hb.congr ?_⟩
    all_goals
      intro f hf
      cases f <;> first | rfl | cases hf
  split
  · rename_i e hopen
    refine .unclosed hstore (fun hroom ↦ ?_) fun hsame ↦ ?_
    · cases hopen.symm.trans ((hiff rfl).mpr hroom)
    · have hlookup := congrArg (fun a ↦ AList.lookup q.allocation a) hsame.allocations
      simp only [putAllocation, putPool] at hlookup
      rw [Table.lookup_insert_eq, if_pos rfl, hr] at hlookup
      have hcommitted := congrArg AllocationRecord.state (Option.some.inj hlookup)
      rw [hstate] at hcommitted
      cases hcommitted
  · rename_i v hcloses
    generalize hf : finishTarget _ q.attempt _ _ _ _ _ t _ _ = f
    rcases f with ⟨d, m⟩
    obtain ⟨hsame, hworking⟩ := finishTarget_quiet hf
    exact .done ((congrArg DurableStore.failures hsame).trans hstore) ((hiff rfl).mp hcloses)
      hworking

theorem commitLocked_ends (h : s.Regular) (q : CommitRequest) :
    s.Ends true (∀ t ∈ s.committedTarget q, t.entry.descriptor.Balances
      t.policy.allowanceUnits.toNat (readCommitted t.entry t.record.units)) (s.commitLocked q) := by
  unfold commitLocked
  split
  · rename_i e heq
    exact .refused (admitTarget_calm _ _ _ e heq).2 (by simp [committedTarget, heq])
  · rename_i heq
    exact .done rfl (by simp [committedTarget, heq]) rfl
  rename_i t hadm
  obtain ⟨-, hr, hl, hp, -⟩ := admitTarget_ok hadm
  split
  · rename_i e heq
    exact .refused (assertCommit_calm q t e heq).2
      (by simp [committedTarget, hadm, heq, Except.isOk, Except.toBool])
  rename_i hassert
  have hstate : t.record.state = .reserved := by
    unfold assertCommit at hassert
    simp only [seq_ok, require_eq_ok, exists_const] at hassert
    exact hassert.2.2.1
  have htarget : s.committedTarget q = some t := by
    simp [committedTarget, hadm, hassert, Except.isOk, Except.toBool]
  simpa [htarget] using applyCommit_ends h q hr hstate hl hp

/-! ### Release -/

def releasedTarget (s : Impl) (q : ReleaseRequest) : Option (Target × UInt64) :=
  match s.admitTarget q.attempt q.requestDigest q.allocation with
  | .ok (none, t) =>
      if Matches q.expectedEpoch s.epoch ∧
          ¬(t.record.state.isTerminal ∨ t.record.state = .fenced) then
        (releaseAmount q t.record).toOption.map (t, ·)
      else none
  | _ => none

/-- The pool balances without what the release gives back, and its class and the lender have it. -/
def ReturnFits (s : Impl) (t : Target) (units : UInt64) : Prop :=
  let part := s.releasedPart t.record units
  t.entry.Bears part → s.BearsRest t.entry part ∧
    t.entry.descriptor.Balances t.policy.allowanceUnits.toNat fun f ↦
      t.entry.read f - part.contrib part.pool f

/-- What a record adds to a row of its pool is there, where pool, class and lender bear it. -/
theorem contrib_le_of_bears {e : PoolEntry} {r : AllocationRecord}
    (hr : r.state.holdsUnits = true) (hl : s.pools.lookup r.pool = some e) (h : e.Bears r)
    (hrest : s.BearsRest e r) {f : Row} (hf : f.Checked) : r.contrib r.pool f ≤ e.read f := by
  obtain ⟨hown, hborrowed, hres, hcom⟩ := h
  obtain ⟨⟨hpin, hrec⟩, hlender⟩ := hrest
  have hshare : r.share f ≤ e.read f := by
    cases f with
    | queueReserved | queueCommitted => exact hf.elim
    | lent => exact Nat.zero_le _
    | own => exact hown
    | borrowed => exact hborrowed
    | reserved => exact hres
    | committed => exact hcom
    | pinned => exact hpin
    | reclaimable => exact hrec
  by_cases hself : r.lender = r.pool ∧ r.borrowed ≠ 0
  · obtain ⟨-, l, hl', hlent, hownl⟩ := hlender hself.2
    rw [hself.1, hl, Option.some.injEq] at hl'
    subst hl'
    rw [hself.1] at hlent hownl
    cases f with
    | lent => exact hlent
    | own => exact hownl
    | _ => simpa [AllocationRecord.contrib, AllocationRecord.lentShare, hr] using hshare
  · have hzero : (if r.lender = r.pool then r.lentShare f else 0) = 0 := by
      split
      · rename_i heq
        have hb : r.borrowed = 0 := by
          by_contra hb
          exact hself ⟨heq, hb⟩
        cases f <;> simp [AllocationRecord.lentShare, hb]
      · rfl
    rw [AllocationRecord.contrib, if_pos hr, if_pos rfl, hzero]
    exact hshare

theorem applyRelease_ends (h : s.Regular) {q : ReleaseRequest} {t : Target} {units : UInt64}
    (hr : s.allocations.lookup q.allocation = some t.record)
    (hl : s.pools.lookup t.record.pool = some t.entry)
    (hp : s.policies.lookup t.entry.descriptor.policy = some t.policy)
    (hholds : t.record.state.holdsUnits = true)
    (hamount : releaseAmount q t.record = .ok units) :
    s.Ends false (s.ReturnFits t units) (s.applyRelease q t units) := by
  have hpos : 0 < units.toNat := by
    have hsized := h.sized _ _ hr hholds
    rcases (releaseAmount_ok hamount).1 with hpos | rfl
    · exact hpos
    · exact hsized
  unfold applyRelease ReturnFits
  generalize hpart : s.releasedPart t.record units = part
  have hunits : part.units = units := by rw [← hpart]; rfl
  have hpool : t.record.pool = part.pool := by rw [← hpart]; rfl
  have hpartHolds : part.state.holdsUnits = true := by rw [← hpart]; exact hholds
  rw [hpool] at hl ⊢
  by_cases hbears : t.entry.Bears part
  swap
  · obtain ⟨e, hcode, he⟩ := applyReleaseUnits_unborne s part.pool hbears
    rw [he]
    exact .refused (by rw [hcode]; decide) fun hb ↦ absurd hb hbears
  obtain ⟨hok, e', he', hres, hcom⟩ := applyReleaseUnits_borne hpartHolds hl hbears
  obtain ⟨pools, hstate, -, happlied⟩ := applyReleaseUnits_spec hl
  have hchanged : pools ≠ s.pools := by
    rintro rfl
    rw [hstate, hl, Option.some.injEq] at he'
    subst he'
    have hunits' : part.units.toNat = units.toNat := congrArg _ hunits
    simp only [AllocationRecord.share] at hres hcom
    by_cases hs : part.state = .reserved
    · rw [if_pos hs] at hres
      omega
    · rw [if_neg hs] at hcom
      omega
  dsimp only
  rcases happly : s.applyReleaseUnits part.pool t.entry part with ⟨e | u, s₁⟩
  · rw [happly] at hok hstate
    dsimp only at hstate
    subst hstate
    refine .unclosed rfl (fun hroom ↦ ?_) fun hsame ↦ hchanged hsame.pools
    cases hok.mpr (hroom hbears).1
  rw [happly] at hok hstate happlied
  dsimp only at hok hstate happlied
  subst hstate
  obtain ⟨-, hpools⟩ := happlied rfl
  have hrest := hok.mp rfl
  have hl' : pools.lookup part.pool = some (t.entry.returned part.pool part) := by
    rw [hpools, hl, Option.map_some]
  dsimp only
  rcases hj : ({ s with pools := pools } : Impl).journalAllocation .released
    (({ s with pools := pools } : Impl).remainder t.record units) with ⟨e | u', s₂⟩
  · have hsame : s₂.pools = pools := by rw [eq_of_journal hj]
    have hlost := journal_failures hj
    exact .lost hlost
      ⟨fun hkept ↦ absurd (hsame.symm.trans hkept.pools) hchanged, Bool.noConfusion⟩
  have hstore : s₂.store.failures = s.store.failures := journal_failures_eq hj
  rw [eq_of_journal hj]
  have hshape := PoolEntry.descriptor_eq_of_shape
    (PoolEntry.shape_returned part.pool part t.entry)
  have hiff : ∀ {m : Impl}, m.policies = s.policies →
      (m.checkClosure (t.entry.returned part.pool part) = .ok () ↔
        t.entry.descriptor.Balances t.policy.allowanceUnits.toNat fun f ↦
          t.entry.read f - part.contrib part.pool f) := by
    intro m hm
    have hread : ∀ f, f.Checked → (t.entry.returned part.pool part).read f =
        t.entry.read f - part.contrib part.pool f := by
      intro f hf
      have hle := contrib_le_of_bears hpartHolds hl hbears hrest hf
      have hreturned := PoolEntry.read_returned hpartHolds hle
      omega
    have hcloses := checkClosure_iff_balances (s := m) (e := t.entry.returned part.pool part)
      (by rw [hshape]; exact h.valid.pool hl) (by rw [hshape, hm]; exact hp) (h.policy hp)
    rw [hcloses, hshape]
    exact ⟨fun hb ↦ hb.congr fun f hf ↦ (hread f hf).symm, fun hb ↦ hb.congr hread⟩
  dsimp only [putAllocation]
  rw [hl']
  dsimp only
  split
  · rename_i e hopen
    refine .unclosed hstore (fun hroom ↦ ?_) fun hsame ↦ hchanged hsame.pools
    cases hopen.symm.trans ((hiff rfl).mpr (hroom hbears).2)
  · rename_i v hcloses
    generalize hf : finishTarget _ q.attempt _ _ _ _ _ t _ _ = f
    rcases f with ⟨d, m⟩
    obtain ⟨hsame, hworking⟩ := finishTarget_quiet hf
    exact .done ((congrArg DurableStore.failures hsame).trans hstore)
      (fun _ ↦ ⟨hrest, (hiff rfl).mp hcloses⟩) hworking

theorem releaseLocked_ends (h : s.Regular) (q : ReleaseRequest) :
    s.Ends false (∀ x ∈ s.releasedTarget q, s.ReturnFits x.1 x.2) (s.releaseLocked q) := by
  unfold releaseLocked
  split
  · rename_i e heq
    exact .refused (admitTarget_calm _ _ _ e heq).2 (by simp [releasedTarget, heq])
  · rename_i heq
    exact .done rfl (by simp [releasedTarget, heq]) rfl
  rename_i t hadm
  obtain ⟨-, hr, hl, hp, -⟩ := admitTarget_ok hadm
  split
  · rename_i hepoch
    exact .refused (by decide) (by simp [releasedTarget, hadm, hepoch])
  rename_i hepoch
  split
  · rename_i hidle
    generalize hf : s.finishTarget q.attempt _ _ _ _ _ t _ _ = f
    rcases f with ⟨d, m⟩
    obtain ⟨hsame, hworking⟩ := finishTarget_quiet hf
    refine .done (congrArg DurableStore.failures hsame) ?_ hworking
    unfold releasedTarget
    rw [hadm]
    dsimp only
    rw [if_neg fun hall ↦ hall.2 hidle]
    simp
  rename_i hstate
  have htarget : s.releasedTarget q = (releaseAmount q t.record).toOption.map (t, ·) := by
    unfold releasedTarget
    rw [hadm]
    exact if_pos ⟨not_not.mp hepoch, hstate⟩
  split
  · rename_i e heq
    exact .refused (releaseAmount_calm q _ e heq).2 (by simp [htarget, heq, Except.toOption])
  rename_i units hamount
  simpa [htarget, hamount, Except.toOption] using
    applyRelease_ends h hr hl hp (holdsUnits_of_not hstate) hamount

theorem revalidateLocked_untouched {s : Impl} {q : RevalidateRequest} {e : Status}
    (he : (s.revalidateLocked q).1 = .error e) : s.Untouched (s.revalidateLocked q).2 := by
  have hend := s.revalidateLocked_end q
  revert he hend
  generalize s.revalidateLocked q = r
  rcases r with ⟨a, t⟩
  intro he hend
  cases hend with
  | rejected e => exact .refl _
  | unlogged hj => exact journal_untouched hj
  | replayed => cases he
  | stale => cases he
  | rebound => cases he

/-! ### Failed calls -/

@[simp] theorem enter_untouched {c : Call} : (s.enter c).Untouched t ↔ s.Untouched t :=
  ⟨fun h ↦ ⟨h.pools, h.allocations, h.attempts, h.attemptOrder, h.next⟩,
    fun h ↦ ⟨h.pools, h.allocations, h.attempts, h.attemptOrder, h.next⟩⟩

/-- A reply is an error with the outcome it wraps. -/
theorem reply_error_iff {α : Type} {wrap : α → Reply} {r : Outcome α} {P : Prop} :
    (∀ e, (reply wrap r).1 = .error e → P) ↔ ∀ e, r.1 = .error e → P :=
  forall_congr' fun _ ↦ by rw [reply_error_eq]

end Impl

def Op.OnAllocation : Op → Bool
  | .allocate _ | .commit _ | .release _ | .revalidate _ => true
  | _ => false

/-- Nothing past the admission of the call can fail, apart from the append of a call that journals
first. -/
def Impl.Settles (s : Impl) (c : Call) : Prop :=
  match c.op with
  | .allocate q => AppendsOk s c → ∀ x ∈ (s.enter c).grantOf q, s.LenderFits q x.1 x.2
  | .commit q => AppendsOk s c → ∀ t ∈ (s.enter c).committedTarget q,
      t.entry.descriptor.Balances t.policy.allowanceUnits.toNat
        (Impl.readCommitted t.entry t.record.units)
  | .release q =>
      AppendsOk s c ∧ ∀ x ∈ (s.enter c).releasedTarget q, (s.enter c).ReturnFits x.1 x.2
  | _ => True

/-- In every state of every run a request on allocations that fails leaves everything as it was
exactly if nothing past its admission can fail. -/
theorem failed_request_changes_nothing_iff {allow : System → Event → Prop} {y : System}
    (hrun : System.Run allow y) {s : Impl} (hlive : y.live = some s) {c : Call}
    (hop : c.op.OnAllocation = true) :
    (∀ e, (s.exec c).1 = .error e → s.Untouched (s.exec c).2) ↔ s.Settles c := by
  have hs : (s.enter c).Regular := (hrun.regular hlive).enter c
  have henter : (∀ e, (s.exec c).1 = .error e → s.Untouched (s.exec c).2) ↔
      ∀ e, (s.exec c).1 = .error e → (s.enter c).Untouched (s.exec c).2 := by
    simp only [Impl.enter_untouched]
  rw [henter]
  unfold Impl.Settles AppendsOk Impl.exec
  revert hop
  cases c.op with
  | allocate q =>
      intro _
      exact Impl.reply_error_iff.trans (Impl.allocateLocked_ends hs q).untouched_iff
  | commit q =>
      intro _
      exact Impl.reply_error_iff.trans (Impl.commitLocked_ends hs q).untouched_iff
  | release q =>
      intro _
      exact Impl.reply_error_iff.trans (Impl.releaseLocked_ends hs q).untouched_iff_of_late
  | revalidate q =>
      intro _
      exact ⟨fun _ ↦ trivial, fun _ ↦ Impl.reply_error_iff.mpr fun e he ↦
        Impl.revalidateLocked_untouched he⟩
  | _ => exact fun hop ↦ absurd hop (by simp [Op.OnAllocation])

def lostAsk : Call := { askUnits 1 40 true with io := [.lost ""] }

theorem failed_request_changes_nothing_small :
    ∃ e, ((smallOpened.play smallSetup).exec lostAsk).1 = .error e ∧
      (smallOpened.play smallSetup).Untouched ((smallOpened.play smallSetup).exec lostAsk).2 := by
  obtain ⟨y, hopened, hlive⟩ : ∃ y, System.Run (fun _ _ ↦ True) y ∧ y.live = some smallOpened :=
    smallOpened_fresh.system fun _ ↦ trivial
  have hsetup : SessionRun (fun _ _ ↦ True) smallOpened (smallOpened.play smallSetup) :=
    SessionRun.refl.play (by decide +kernel)
  obtain ⟨y', hrun, hlive', -⟩ := hsetup.system (fun _ _ _ _ _ ↦ trivial) (fun _ ↦ trivial) hopened
    hlive smallOpened_fresh.isOpen
  have hlost : ¬AppendsOk (smallOpened.play smallSetup) lostAsk ∧
      ((smallOpened.play smallSetup).exec lostAsk).1.isOk = false := by
    decide +kernel
  have hfails := (failed_request_changes_nothing_iff hrun hlive' (c := lostAsk) rfl).mpr
    fun happends ↦ absurd happends hlost.1
  rcases hresult : ((smallOpened.play smallSetup).exec lostAsk).1 with e | d
  · exact ⟨e, rfl, hfails e hresult⟩
  · rw [hresult] at hlost
    exact absurd hlost.2 Bool.noConfusion

/-- A release whose append fails takes the units from the pool, although it reports an error and
the record keeps them. -/
theorem failed_release_changes_pool :
    ∃ start s e, FreshlyOpened start ∧ SessionRun (fun _ _ ↦ True) start s ∧
      (s.exec lostRelease).1 = .error e ∧ ¬s.Untouched (s.exec lostRelease).2 ∧
      (s.pools.lookup ⟨1⟩).map (·.ownUsage) = some 40 ∧
      ((s.exec lostRelease).2.pools.lookup ⟨1⟩).map (·.ownUsage) = some 0 ∧
      (s.exec lostRelease).2.allocations = s.allocations := by
  have hfacts : (viewedStart.exec lostRelease).1.isOk = false ∧
      (viewedStart.pools.lookup ⟨1⟩).map (·.ownUsage) = some 40 ∧
      ((viewedStart.exec lostRelease).2.pools.lookup ⟨1⟩).map (·.ownUsage) = some 0 ∧
      (viewedStart.exec lostRelease).2.allocations.entries = viewedStart.allocations.entries := by
    decide +kernel
  obtain ⟨hfails, hbefore, hafter, hsame⟩ := hfacts
  have hrun : SessionRun (fun _ _ ↦ True) smallOpened viewedStart :=
    viewedStart_run.mono fun _ _ _ ↦ trivial
  rcases hresult : (viewedStart.exec lostRelease).1 with e | d
  · refine ⟨smallOpened, viewedStart, e, smallOpened_fresh, hrun, hresult, fun hkept ↦ ?_, hbefore,
      hafter, AList.ext hsame⟩
    rw [hkept.pools, hbefore] at hafter
    cases hafter
  · rw [hresult] at hfails
    cases hfails

end BufferFabric
