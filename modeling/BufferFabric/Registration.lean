import BufferFabric.Freshness

/-!
# Registrations under ids the fabric picks

A policy, a pool or a queue without an id gets the next one of its counter. When every id
in use is below that counter, the publication replaces and fences nothing, and the
registration does not clash.
-/

namespace BufferFabric

open Outcome

/-! ### Error codes of the journal -/

def journalCodes : List ErrorCode :=
  [.oversizedMessage, .lifecycleViolation, .boundedResourceExhausted, .persistenceError,
    .snapshotOversized]

namespace DurableStore

variable {st st' : DurableStore} {e : Status}

theorem appendRecord_error {record : JournalRecord}
    (h : st.appendRecord record = (.error e, st')) : e.code ∈ journalCodes := by
  unfold appendRecord at h
  split at h
  · obtain ⟨h, -⟩ := Prod.mk.inj h
    rw [← Except.error.inj h]
    decide
  dsimp only at h
  split at h
  · obtain ⟨h, -⟩ := Prod.mk.inj h
    rw [← Except.error.inj h]
    decide
  split at h
  · obtain ⟨h, -⟩ := Prod.mk.inj h
    rw [← Except.error.inj h]
    decide
  split at h
  · cases h
  all_goals
    obtain ⟨h, -⟩ := Prod.mk.inj h
    rw [← Except.error.inj h]
    simp [ioError, journalCodes]

theorem writeFullSnapshot_error {image : Image}
    (h : st.writeFullSnapshot image = (.error e, st')) : e.code ∈ journalCodes := by
  unfold writeFullSnapshot at h
  split at h
  · cases h
  split at h
  · obtain ⟨h, -⟩ := Prod.mk.inj h
    rw [← Except.error.inj h]
    decide
  unfold writeSnapshot at h
  split at h
  · obtain ⟨h, -⟩ := Prod.mk.inj h
    rw [← Except.error.inj h]
    decide
  split at h
  · obtain ⟨h, -⟩ := Prod.mk.inj h
    rw [← Except.error.inj h]
    decide
  split at h
  · cases h
  all_goals
    obtain ⟨h, -⟩ := Prod.mk.inj h
    rw [← Except.error.inj h]
    simp [ioError, journalCodes]

end DurableStore

theorem JournalRecord.encodable_error {record : JournalRecord} {e : Status}
    (h : record.encodable = .error e) : e.code ∈ journalCodes := by
  unfold JournalRecord.encodable at h
  split at h
  · obtain ⟨-, rfl⟩ := require_eq_error.mp h
    simp [journalCodes]
  · obtain ⟨-, rfl⟩ := require_eq_error.mp h
    simp [journalCodes]
  · obtain ⟨-, rfl⟩ := require_eq_error.mp h
    simp [journalCodes]
  · cases h

theorem Impl.journal_error {s t : Impl} {record : JournalRecord} {e : Status}
    (h : s.journal record = (.error e, t)) : e.code ∈ journalCodes := by
  unfold Impl.journal at h
  have hstore : ∃ st, s.store.journal s.image record = (.error e, st) := by
    rcases hres : s.store.journal s.image record with ⟨res, st⟩
    rw [hres] at h
    cases res with
    | ok u => cases h
    | error e' =>
        obtain ⟨h, -⟩ := Prod.mk.inj h
        rw [Except.error.inj h]
        exact ⟨st, rfl⟩
  obtain ⟨st, hst⟩ := hstore
  unfold DurableStore.journal at hst
  split at hst
  · rename_i e' he'
    obtain ⟨h, -⟩ := Prod.mk.inj hst
    rw [← Except.error.inj h]
    exact JournalRecord.encodable_error he'
  split at hst
  · cases hst
  split at hst
  · split at hst
    · rename_i heq
      obtain ⟨h, -⟩ := Prod.mk.inj hst
      rw [← Except.error.inj h]
      exact DurableStore.writeFullSnapshot_error heq
    · exact DurableStore.appendRecord_error hst
  · exact DurableStore.appendRecord_error hst

/-! ### Errors of the registration checks -/

def Status.Avoids (code : ErrorCode) (e : Status) : Prop := e.code ≠ code

theorem Impl.journal_avoids {s t : Impl} {record : JournalRecord} {code : ErrorCode} {e : Status}
    (h : s.journal record = (.error e, t)) (hcode : code ∉ journalCodes) : e.Avoids code := by
  rintro rfl
  exact hcode (Impl.journal_error h)

theorem raiseCounter_errors {tag : IdTag} {id : StrongId tag} {next : UInt64}
    {message : String} {P : Status → Prop} (h : P ⟨.overflow, message⟩) :
    ErrorsIn P (raiseCounter id next message) := by
  unfold raiseCounter
  split
  · exact .bind (.require fun _ ↦ h) fun _ ↦ .ok _
  · exact .ok _

namespace Impl

variable {s : Impl} {code : ErrorCode}

theorem walkAncestry_errors (h₁ : code ≠ .poolDepthExceeded) (h₂ : code ≠ .unknownPool)
    (fuel : ℕ) (cursor : PoolEntry) :
    ErrorsIn (Status.Avoids code) (s.walkAncestry fuel cursor) := by
  induction fuel generalizing cursor with
  | zero =>
      unfold walkAncestry
      split
      · exact .ok _
      · exact .error h₁.symm
  | succ fuel ih =>
      unfold walkAncestry
      split
      · exact .ok _
      dsimp only
      split
      · exact .error h₂.symm
      · exact ih _

theorem partitionTotal_errors (select : PoolEntry → Bool) (message : String)
    {P : Status → Prop} (h : P ⟨.overflow, message⟩) :
    ErrorsIn P (s.partitionTotal select message) := by
  unfold partitionTotal
  generalize (s.pools.toList.map Prod.snd).filter select = entries
  generalize (0 : UInt64) = total
  induction entries generalizing total with
  | nil => exact .ok _
  | cons entry entries ih =>
      rw [List.foldlM_cons]
      refine .bind ?_ ih
      split
      · exact .error h
      · exact .ok _

theorem checkParent_errors (h₁ : code ≠ .poolDepthExceeded) (h₂ : code ≠ .unknownPool)
    (d : PoolDescriptor) : ErrorsIn (Status.Avoids code) (s.checkParent d) := by
  unfold checkParent
  split
  · exact .bind (.demand h₂.symm) fun parent ↦ walkAncestry_errors h₁ h₂ _ parent
  · exact .ok _

/-- The checks of a pool with a new id do not find a duplicate. -/
theorem planPool_errors {d : PoolDescriptor} (hnew : s.pools.lookup d.id = none) :
    ErrorsIn (Status.Avoids .duplicatePool) (s.planPool d) := by
  unfold planPool PoolDescriptor.validate
  refine .bind ?_ fun _ ↦ .bind (.require fun h ↦ ?_) fun _ ↦
    .bind (.require fun _ ↦ by simp [Status.Avoids]) fun _ ↦
    .bind (.require fun _ ↦ by simp [Status.Avoids]) fun _ ↦
    .bind (.require fun _ ↦ by simp [Status.Avoids]) fun _ ↦
    .bind (checkParent_errors (by simp) (by simp) d) fun _ ↦
    .bind (.demand (by simp [Status.Avoids])) fun _ ↦
    .bind (partitionTotal_errors _ _ (by simp [Status.Avoids])) fun _ ↦
    .bind (.require fun _ ↦ by simp [Status.Avoids]) fun _ ↦
    .require fun _ ↦ by simp [Status.Avoids]
  · refine .bind (.require ?_) fun _ ↦ .bind (.require ?_) fun _ ↦ .bind (.require ?_) fun _ ↦
      .bind (.require ?_) fun _ ↦ .bind (.require ?_) fun _ ↦ .bind (.require ?_) fun _ ↦
      .bind (.require ?_) fun _ ↦ .bind (.require ?_) fun _ ↦ .require ?_ <;>
      simp [Status.Avoids]
  · rw [hnew] at h
    exact absurd rfl h

/-- The checks of a queue with a new id do not find a duplicate. -/
theorem planQueue_errors {d : QueueDescriptor} (hnew : s.queues.lookup d.id = none) :
    ErrorsIn (Status.Avoids .duplicateQueue) (s.planQueue d) := by
  unfold planQueue
  refine .bind (.require fun _ ↦ by simp [Status.Avoids]) fun _ ↦
    .bind (.require fun _ ↦ by simp [Status.Avoids]) fun _ ↦
    .bind (.require fun _ ↦ by simp [Status.Avoids]) fun _ ↦
    .bind (.require fun h ↦ ?_) fun _ ↦
    .bind (.require fun _ ↦ by simp [Status.Avoids]) fun _ ↦
    .require fun _ ↦ by simp [Status.Avoids]
  rw [hnew] at h
  exact absurd rfl h

/-- The prologue of the registrations. -/
theorem admitRegistration_errors {n bound : ℕ} {message : String} (h₁ : code ≠ .lifecycleViolation)
    (h₂ : code ≠ .shuttingDown) (h₃ : code ≠ .boundedResourceExhausted) :
    ErrorsIn (Status.Avoids code) (do
      s.requireOpen
      s.requireWorking
      require (n < bound) ⟨.boundedResourceExhausted, message⟩) := by
  unfold requireOpen requireWorking
  exact .bind (.require fun _ ↦ h₁.symm) fun _ ↦ .bind (.require fun _ ↦ h₂.symm) fun _ ↦
    .require fun _ ↦ h₃.symm

theorem registerPool_errors (q : PoolRegistration)
    (hnew : s.pools.lookup (pickId q.id s.counters.nextPoolId) = none) :
    ErrorsIn (Status.Avoids .duplicatePool) (s.registerPool q).1 := by
  unfold registerPool
  split
  · rename_i e h
    exact .error (admitRegistration_errors (by simp) (by simp) (by simp) e h)
  dsimp only
  split
  · rename_i e h
    exact .error (raiseCounter_errors (by simp [Status.Avoids]) e h)
  split
  · rename_i e h
    exact .error (planPool_errors hnew e h)
  unfold applyPool
  dsimp only
  split
  · rename_i e t hj
    exact .error (journal_avoids hj (by decide))
  · exact .ok _

theorem registerQueue_errors (q : QueueRegistration)
    (hnew : s.queues.lookup (pickId q.id s.counters.nextQueueId) = none) :
    ErrorsIn (Status.Avoids .duplicateQueue) (s.registerQueue q).1 := by
  unfold registerQueue
  split
  · rename_i e h
    exact .error (admitRegistration_errors (by simp) (by simp) (by simp) e h)
  dsimp only
  split
  · rename_i e h
    exact .error (raiseCounter_errors (by simp [Status.Avoids]) e h)
  split
  · rename_i e h
    exact .error (planQueue_errors hnew e h)
  unfold applyQueue
  split
  · rename_i e t hj
    exact .error (journal_avoids hj (by decide))
  · exact .ok _

/-! ### Publishing under a new id -/

/-- A policy no pool refers to fences nothing. -/
theorem fencePolicyPools_unused {policy : PolicyId} {generation : Generation} {keys : List PoolId}
    (h : ∀ k e, s.pools.lookup k = some e → e.descriptor.policy ≠ policy) :
    fencePolicyPools policy generation keys s = (.ok (), s) := by
  induction keys with
  | nil => rfl
  | cons key keys ih =>
      unfold fencePolicyPools
      split
      · exact ih
      · rename_i entry hl
        rw [if_pos (h key entry hl)]
        exact ih

/-- Publishing under an id nothing uses keeps every policy and every allocation. -/
theorem applyPolicy_unused {p : PoolPolicy} (hnew : s.policies.lookup p.id = none)
    (hpools : ∀ k e, s.pools.lookup k = some e → e.descriptor.policy ≠ p.id) :
    (s.applyPolicy p).2.allocations = s.allocations ∧
      ∀ k q, s.policies.lookup k = some q → (s.applyPolicy p).2.policies.lookup k = some q := by
  unfold applyPolicy
  split
  · rename_i e t hj
    rw [eq_of_journal hj]
    exact ⟨rfl, fun _ _ h ↦ h⟩
  rename_i u t hj
  rw [eq_of_journal hj]
  have hkeep : ∀ k q, s.policies.lookup k = some q →
      (s.policies.insert p.id p).lookup k = some q := by
    intro k q hq
    rw [Table.lookup_insert_eq, if_neg]
    · exact hq
    · rintro rfl
      rw [hnew] at hq
      cases hq
  dsimp only
  rw [fencePolicyPools_unused (by exact hpools)]
  split
  · exact ⟨rfl, hkeep⟩
  · exact ⟨rfl, hkeep⟩

theorem publishPolicy_unused (request : PoolPolicy)
    (hnew : s.policies.lookup (pickId request.id s.counters.nextPolicyId) = none)
    (hpools : ∀ k e, s.pools.lookup k = some e →
      e.descriptor.policy ≠ pickId request.id s.counters.nextPolicyId) :
    (s.publishPolicy request).2.allocations = s.allocations ∧
      ∀ k q, s.policies.lookup k = some q →
        (s.publishPolicy request).2.policies.lookup k = some q := by
  unfold publishPolicy
  split
  · exact ⟨rfl, fun _ _ h ↦ h⟩
  dsimp only
  split
  · exact ⟨rfl, fun _ _ h ↦ h⟩
  split
  · exact ⟨rfl, fun _ _ h ↦ h⟩
  · split
    · exact ⟨rfl, fun _ _ h ↦ h⟩
    · exact ⟨rfl, fun _ _ h ↦ h⟩
  · rename_i p hplan
    obtain ⟨⟨g, hp⟩, -⟩ := planPolicy_some hplan
    subst hp
    exact applyPolicy_unused hnew hpools

end Impl

/-! ### Runs -/

/-- Every session is durable and on a new instance, and no open finds a policy, pool or
queue id in the journal that is at or above the counter it restores: that of the snapshot,
or 1 without one. -/
def System.CoversRegistrations (y : System) (ev : Event) : Prop :=
  ∀ config, ev.opens = some config → config.persistence.mode = .journalSync ∧ y.live = none ∧
    y.disk.Covered {} .policy ∧ y.disk.Covered {} .pool ∧ y.disk.Covered {} .queue

theorem Impl.not_uses_empty {kind : IdKind} {n : UInt64} : ¬({} : Impl).view.Uses kind n := by
  cases kind with
  | policy =>
      rintro (⟨p, hp⟩ | ⟨k, d, hd, -⟩)
      · cases hp
      · cases hd
  | _ =>
      rintro ⟨x, hx⟩
      cases hx

theorem System.Run.ordered {kind : IdKind} {y : System}
    (hkind : kind = .policy ∨ kind = .pool ∨ kind = .queue)
    (h : System.Run System.CoversRegistrations y) : y.Ordered kind := by
  refine h.invariant (fun y ev y' hi ha hs ↦ ?_) (System.ordered_empty kind)
  refine hs.ordered hi ?_
  intro config hconfig
  obtain ⟨hmode, hlive, hpolicy, hpool, hqueue⟩ := ha config hconfig
  refine ⟨by rw [hmode]; simp, ?_⟩
  intro s hidle
  cases hidle with
  | fresh _ =>
      refine ⟨?_, fun n hn ↦ absurd hn Impl.not_uses_empty⟩
      rcases hkind with rfl | rfl | rfl
      · exact hpolicy
      · exact hpool
      · exact hqueue
  | again hsome _ =>
      rw [hlive] at hsome
      cases hsome

theorem pickId_unset {tag : IdTag} {requested : StrongId tag} (h : ¬requested.Valid)
    (next : UInt64) : pickId requested next = ⟨next⟩ := if_neg h

/-- In every run over one durable directory in which no open finds a registered id at or
above the counter it restores, the ids the fabric picks are not in use; publishing under
such an id keeps every policy and every allocation, and registering does not find a
duplicate. -/
theorem assigned_ids_fresh {y : System} (hrun : System.Run System.CoversRegistrations y)
    {s : Impl} (hlive : y.live = some s) (hopen : s.isOpen = true) (c : Call) :
    (∀ request, c.op = .publishPolicy request → ¬request.id.Valid →
      s.policies.lookup (pickId request.id s.counters.nextPolicyId) = none ∧
        (∀ k p, s.policies.lookup k = some p → (s.exec c).2.policies.lookup k = some p) ∧
        (s.exec c).2.allocations = s.allocations) ∧
    (∀ q, c.op = .registerPool q → ¬q.id.Valid →
      s.pools.lookup (pickId q.id s.counters.nextPoolId) = none ∧
        ∀ e, (s.exec c).1 = .error e → e.code ≠ .duplicatePool) ∧
    (∀ q, c.op = .registerQueue q → ¬q.id.Valid →
      s.queues.lookup (pickId q.id s.counters.nextQueueId) = none ∧
        ∀ e, (s.exec c).1 = .error e → e.code ≠ .duplicateQueue) := by
  have hunused : ∀ kind : IdKind, kind = .policy ∨ kind = .pool ∨ kind = .queue →
      ¬s.view.Uses kind (s.counters.next kind) := by
    intro kind hkind hn
    exact Nat.lt_irrefl _ (((System.Run.ordered hkind hrun).live s hlive).2.2 hopen _ hn)
  have hreply : ∀ {α : Type} {wrap : α → Reply} {r : Outcome α} {e : Status},
      (reply wrap r).1 = .error e → r.1 = .error e := by
    intro α wrap r e h
    unfold reply at h
    cases hr : r.1 with
    | ok a =>
        rw [hr] at h
        cases h
    | error e' =>
        rw [hr] at h
        exact congrArg Except.error (Except.error.inj h)
  refine ⟨?_, ?_, ?_⟩
  · intro request hop hid
    have hno := hunused .policy (.inl rfl)
    rw [pickId_unset hid]
    have hnew : s.policies.lookup ⟨s.counters.nextPolicyId⟩ = none := by
      cases hl : s.policies.lookup ⟨s.counters.nextPolicyId⟩ with
      | none => rfl
      | some p => exact absurd (.inl ⟨p, hl⟩) hno
    have hpools : ∀ k e, s.pools.lookup k = some e →
        e.descriptor.policy ≠ ⟨s.counters.nextPolicyId⟩ := by
      intro k e he heq
      refine hno (.inr ⟨k, e.shape, ?_, heq⟩)
      change (s.pools.lookup k).map PoolEntry.shape = _
      rw [he, Option.map_some]
    obtain ⟨ha, hp⟩ := Impl.publishPolicy_unused (s := s.enter c) request
      (by rw [pickId_unset hid]; exact hnew) (by rw [pickId_unset hid]; exact hpools)
    refine ⟨hnew, ?_, ?_⟩
    · unfold Impl.exec
      rw [hop]
      exact hp
    · unfold Impl.exec
      rw [hop]
      exact ha
  · intro q hop hid
    have hno := hunused .pool (.inr (.inl rfl))
    have hnew : s.pools.lookup (pickId q.id s.counters.nextPoolId) = none := by
      rw [pickId_unset hid]
      cases hl : s.pools.lookup ⟨s.counters.nextPoolId⟩ with
      | none => rfl
      | some e =>
          refine absurd ⟨e.shape, ?_⟩ hno
          change (s.pools.lookup ⟨s.counters.nextPoolId⟩).map PoolEntry.shape = _
          rw [hl, Option.map_some]
    refine ⟨hnew, ?_⟩
    intro e he
    unfold Impl.exec at he
    rw [hop] at he
    exact Impl.registerPool_errors (s := s.enter c) q hnew e (hreply he)
  · intro q hop hid
    have hno := hunused .queue (.inr (.inr rfl))
    have hnew : s.queues.lookup (pickId q.id s.counters.nextQueueId) = none := by
      rw [pickId_unset hid]
      cases hl : s.queues.lookup ⟨s.counters.nextQueueId⟩ with
      | none => rfl
      | some d => exact absurd ⟨d, hl⟩ hno
    refine ⟨hnew, ?_⟩
    intro e he
    unfold Impl.exec at he
    rw [hop] at he
    exact Impl.registerQueue_errors (s := s.enter c) q hnew e (hreply he)

theorem coversCheck_registrations (y : System) (k : Command) (h : coversCheck y k = true) :
    y.CoversRegistrations k.event := by
  intro config hconfig
  cases k with
  | start config' =>
      obtain rfl := Option.some.inj hconfig
      simp only [coversCheck, Bool.and_eq_true, decide_eq_true_eq, Option.isNone_iff_eq_none,
        List.isEmpty_iff] at h
      obtain ⟨⟨hmode, hlive⟩, hjournal⟩ := h
      have hcover : ∀ kind, y.disk.Covered {} kind := by
        intro kind r hr
        rw [hjournal] at hr
        cases hr
      exact ⟨hmode, hlive, hcover _, hcover _, hcover _⟩
  | call c => cases hconfig
  | stop => cases hconfig

def otherPolicy : PoolPolicy := { smallPolicy with softLimitBp := 1 }

/-- After a restart from a checkpoint a second policy gets an id of its own. -/
theorem assigned_ids_fresh_checkpointed :
    ∃ (y : System) (s : Impl), y.live = some s ∧ s.policies.keys = [⟨1⟩] ∧
      s.policies.lookup (pickId otherPolicy.id s.counters.nextPolicyId) = none ∧
      (s.exec { op := .publishPolicy otherPolicy }).2.allocations = s.allocations := by
  have h : (System.script coversCheck {} checkpointedScript).any (fun y ↦ y.live.any fun s ↦
      s.isOpen && decide (s.policies.keys = [⟨1⟩])) = true := by
    decide +kernel
  obtain ⟨y, hy, h⟩ := (Option.any_eq_true _ _).mp h
  obtain ⟨s, hs, h⟩ := (Option.any_eq_true _ _).mp h
  simp only [Bool.and_eq_true, decide_eq_true_eq] at h
  have hrun : System.Run System.CoversRegistrations y :=
    System.Run.script coversCheck_registrations .refl hy
  obtain ⟨hnew, -, hsame⟩ := (assigned_ids_fresh hrun hs h.1
    { op := .publishPolicy otherPolicy }).1 otherPolicy rfl (by decide)
  exact ⟨y, s, hs, h.2, hnew, hsame⟩

/-- After a restart without a snapshot, publishing a policy without an id replaces the
policy that is there and fences what it granted, and a pool without an id is refused as a
duplicate. -/
theorem assigned_id_in_use :
    ∃ (y : System) (s : Impl), System.Run System.Durable y ∧ y.live = some s ∧ s.isOpen = true ∧
      ¬otherPolicy.id.Valid ∧
      (s.policies.lookup (pickId otherPolicy.id s.counters.nextPolicyId)).isSome = true ∧
      (s.exec { op := .publishPolicy otherPolicy }).2.policies.lookup ⟨1⟩ ≠
        s.policies.lookup ⟨1⟩ ∧
      (s.allocations.lookup ⟨1⟩).map (·.state) = some .committed ∧
      ((s.exec { op := .publishPolicy otherPolicy }).2.allocations.lookup ⟨1⟩).map (·.state) =
        some .fenced ∧
      (s.pools.lookup (pickId default s.counters.nextPoolId)).isSome = true := by
  have h : (System.script durableCheck {} restartedScript).any (fun y ↦ y.live.any fun s ↦
      s.isOpen &&
      (s.policies.lookup (pickId otherPolicy.id s.counters.nextPolicyId)).isSome &&
      decide ((s.exec { op := .publishPolicy otherPolicy }).2.policies.lookup ⟨1⟩ ≠
        s.policies.lookup ⟨1⟩) &&
      decide ((s.allocations.lookup ⟨1⟩).map (·.state) = some .committed) &&
      decide (((s.exec { op := .publishPolicy otherPolicy }).2.allocations.lookup ⟨1⟩).map
        (·.state) = some .fenced) &&
      (s.pools.lookup (pickId default s.counters.nextPoolId)).isSome) = true := by
    decide +kernel
  obtain ⟨y, hy, h⟩ := (Option.any_eq_true _ _).mp h
  obtain ⟨s, hs, h⟩ := (Option.any_eq_true _ _).mp h
  simp only [Bool.and_eq_true, decide_eq_true_eq] at h
  obtain ⟨⟨⟨⟨⟨hopen, hused⟩, hreplaced⟩, hheld⟩, hfenced⟩, hpool⟩ := h
  exact ⟨y, s, System.Run.script durableCheck_durable .refl hy, hs, hopen, by decide, hused,
    hreplaced, hheld, hfenced, hpool⟩

end BufferFabric
