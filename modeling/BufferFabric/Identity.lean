import BufferFabric.Preservation

/-!
# Identities

Every table is keyed by the ids of its values, every change acts on the durable part of a
state as the replay of its journal record does, and no id in use reaches the counter it
would be taken from.
-/

namespace BufferFabric

/-! ### Replaying a record over a view -/

namespace View

def apply (v : View) : JournalRecord → View
  | .policyUpsert p => { v with policies := Function.update v.policies p.id (some p) }
  | .poolUpsert d g => { v with pools := Function.update v.pools d.id (some (d, g)) }
  | .poolRemoved id => { v with pools := Function.update v.pools id none }
  | .queueUpsert q => { v with queues := Function.update v.queues q.id (some q) }
  | .queueRetired id => { v with
      queues := Function.update v.queues id ((v.queues id).map ({ · with retired := true })) }
  | .capacitySet c => { v with capacities := Function.update v.capacities c.resource (some c) }
  | .allocation _ r => { v with allocations := Function.update v.allocations r.id (some r) }
  | .epochAdvance .. | .pressureObserved _ | .attemptRecorded _ | .checkpoint
  | .backendRegistered => v

def applied (v : View) : Option JournalRecord → View
  | none => v
  | some record => v.apply record

structure Keyed (v : View) : Prop where
  policies : ∀ k p, v.policies k = some p → p.id = k
  pools : ∀ k d, v.pools k = some d → d.1.id = k
  queues : ∀ k q, v.queues k = some q → q.id = k
  allocations : ∀ k r, v.allocations k = some r → r.id = k

/-- The live view `w` has what the replayed view `v` has; only queues may be missing, since
the queues of a removed pool are dropped without a record. -/
structure Agrees (v w : View) : Prop where
  capacities : w.capacities = v.capacities
  policies : w.policies = v.policies
  pools : w.pools = v.pools
  queues : ∀ k q, w.queues k = some q → v.queues k = some q
  allocations : w.allocations = v.allocations

theorem Agrees.refl (v : View) : v.Agrees v := ⟨rfl, rfl, rfl, fun _ _ h ↦ h, rfl⟩

theorem Agrees.of_eq {v w : View} (hc : w.capacities = v.capacities)
    (hp : w.policies = v.policies) (ho : w.pools = v.pools) (hq : w.queues = v.queues)
    (ha : w.allocations = v.allocations) : v.Agrees w :=
  ⟨hc, hp, ho, fun k q h ↦ by rw [← hq]; exact h, ha⟩

theorem update_cases {κ α : Type} [DecidableEq κ] {f : κ → Option α} {k key : κ} {x : Option α}
    {a : α} (h : Function.update f key x k = some a) :
    (k = key ∧ x = some a) ∨ (k ≠ key ∧ f k = some a) := by
  rw [Function.update_apply] at h
  split at h
  · exact .inl ⟨‹_›, h⟩
  · exact .inr ⟨‹_›, h⟩

theorem Keyed.apply {v : View} (h : v.Keyed) (record : JournalRecord) : (v.apply record).Keyed := by
  cases record with
  | policyUpsert p =>
      refine ⟨?_, h.pools, h.queues, h.allocations⟩
      intro k p' hp'
      rcases update_cases hp' with ⟨rfl, heq⟩ | ⟨-, hp'⟩
      · rw [Option.some.inj heq]
      · exact h.policies k p' hp'
  | poolUpsert d g =>
      refine ⟨h.policies, ?_, h.queues, h.allocations⟩
      intro k d' hd'
      rcases update_cases hd' with ⟨rfl, heq⟩ | ⟨-, hd'⟩
      · rw [← Option.some.inj heq]
      · exact h.pools k d' hd'
  | poolRemoved id =>
      refine ⟨h.policies, ?_, h.queues, h.allocations⟩
      intro k d' hd'
      rcases update_cases hd' with ⟨-, hd'⟩ | ⟨-, hd'⟩
      · cases hd'
      · exact h.pools k d' hd'
  | queueUpsert q =>
      refine ⟨h.policies, h.pools, ?_, h.allocations⟩
      intro k q' hq'
      rcases update_cases hq' with ⟨rfl, heq⟩ | ⟨-, hq'⟩
      · rw [Option.some.inj heq]
      · exact h.queues k q' hq'
  | queueRetired id =>
      refine ⟨h.policies, h.pools, ?_, h.allocations⟩
      intro k q' hq'
      rcases update_cases hq' with ⟨rfl, heq⟩ | ⟨-, hq'⟩
      · obtain ⟨q, hq, rfl⟩ := Option.map_eq_some_iff.mp heq
        exact h.queues k q hq
      · exact h.queues k q' hq'
  | allocation op r =>
      refine ⟨h.policies, h.pools, h.queues, ?_⟩
      intro k r' hr'
      rcases update_cases hr' with ⟨rfl, heq⟩ | ⟨-, hr'⟩
      · rw [Option.some.inj heq]
      · exact h.allocations k r' hr'
  | _ => exact ⟨h.policies, h.pools, h.queues, h.allocations⟩

theorem Keyed.applied {v : View} (h : v.Keyed) (record : Option JournalRecord) :
    (v.applied record).Keyed := by
  cases record with
  | none => exact h
  | some record => exact h.apply record

theorem Keyed.agrees {v w : View} (h : v.Keyed) (ha : v.Agrees w) : w.Keyed := by
  refine ⟨?_, ?_, fun k q hq ↦ h.queues k q (ha.queues k q hq), ?_⟩
  · rw [ha.policies]
    exact h.policies
  · rw [ha.pools]
    exact h.pools
  · rw [ha.allocations]
    exact h.allocations

end View

/-! ### Changes act as their records do -/

theorem Impl.view_pools_of_shapes {pools pools' : Table PoolId PoolEntry}
    (h : SameShapes pools pools') :
    (fun p ↦ (pools'.lookup p).map PoolEntry.shape) =
      fun p ↦ (pools.lookup p).map PoolEntry.shape :=
  funext h

theorem Impl.view_pools_insert (pools : Table PoolId PoolEntry) (key : PoolId) (e : PoolEntry) :
    (fun p ↦ ((pools.insert key e).lookup p).map PoolEntry.shape) =
      Function.update (fun p ↦ (pools.lookup p).map PoolEntry.shape) key (some e.shape) := by
  funext p
  rw [Table.lookup_insert_eq, Function.update_apply]
  split <;> rfl

/-- Memory changes exactly as the replay of the journaled record would change it. -/
theorem Change.view_agrees {s m : Impl} {l : Label} {record : Option JournalRecord}
    (h : Change s l record m) (hk : s.view.Keyed) (hl : l ≠ .brokenGrant) :
    (s.view.applied record).Agrees m.view := by
  have hput : ∀ {key : AllocationId} {r r' : AllocationRecord},
      s.allocations.lookup key = some r → r'.id = r.id →
      (s.allocations.insert key r').lookup =
        Function.update s.allocations.lookup r'.id (some r') := by
    intro key r r' hr hid
    have hkey : r'.id = key := hid.trans (hk.allocations key r hr)
    rw [Table.lookup_insert_update, hkey]
  cases h with
  | flags b backends => exact .refl _
  | counters c h => exact .of_eq rfl rfl rfl rfl rfl
  | attempt a =>
      obtain ⟨order, attempts, h⟩ := s.recordAttempt_frame a
      rw [h]
      exact .refl _
  | runtime pools runtime h =>
      have hsh : SameShapes s.pools pools :=
        SameShapes.of_map (g := fun p e ↦ { e with runtime := runtime p e }) (fun _ _ ↦ rfl) h
      exact .of_eq rfl rfl (Impl.view_pools_of_shapes hsh) rfl rfl
  | capacity c hfits => exact .of_eq (Table.lookup_insert_update _ _ _) rfl rfl rfl rfl
  | policy p hv hid hroom => exact .of_eq rfl (Table.lookup_insert_update _ _ _) rfl rfl rfl
  | pool d hv hnew hid hparent hpolicy hroom hfits =>
      exact .of_eq rfl rfl (Impl.view_pools_insert _ _ _) rfl rfl
  | removePool key entry hent hleaf hlent halloc =>
      refine .of_eq rfl rfl ?_ rfl rfl
      funext p
      simp only [Impl.view, View.applied, View.apply]
      rw [Table.lookup_erase_eq, Function.update_apply]
      split <;> rfl
  | dropQueues key hgone =>
      refine ⟨rfl, rfl, rfl, ?_, rfl⟩
      intro k q hq
      simp only [Impl.view, Impl.dropRetiredQueues] at hq
      rw [Table.lookup_filterValues] at hq
      exact (Option.filter_eq_some_iff.mp hq).1
  | queue key q names hkey =>
      have hid : key = q.id := by
        rcases hkey.key with ⟨rfl, -⟩ | ⟨d, hd, hid⟩
        · rfl
        · exact (hk.queues key d hd).symm.trans hid.symm
      subst hid
      exact .of_eq rfl rfl rfl (Table.lookup_insert_update _ _ _) rfl
  | retire key d g hd =>
      obtain rfl : d.id = key := hk.queues key d hd
      exact .of_eq rfl rfl rfl (Table.lookup_insert_update _ _ _) rfl
  | pressure p hepoch => exact .refl _
  | resize key entry raw prot g c hent hraw hprot hfits =>
      have hid : entry.descriptor.id = key := by
        refine hk.pools key entry.shape ?_
        simp only [Impl.view, hent, Option.map_some]
      refine .of_eq rfl rfl ?_ rfl rfl
      refine (Impl.view_pools_insert _ _ _).trans ?_
      simp only [Impl.view, View.applied, View.apply, PoolEntry.resized, hid, PoolEntry.shape]
  | fence key r entry state pools hr hholds hstate hent hpools hexpired =>
      have hsh : SameShapes s.pools pools :=
        SameShapes.of_map (fun p e ↦ PoolEntry.shape_returned p r e) hpools
      exact .of_eq rfl rfl (Impl.view_pools_of_shapes hsh) rfl (hput hr rfl)
  | grant key entry policy r pools hfits hpools =>
      have hsh : SameShapes s.pools pools :=
        SameShapes.of_map (fun p e ↦ PoolEntry.shape_granted key p r e) hpools
      exact .of_eq rfl rfl (Impl.view_pools_of_shapes hsh) rfl (Table.lookup_insert_update _ _ _)
  | brokenGrant => exact absurd rfl hl
  | commit key r entry hr hs hent =>
      have hsh : SameShapes s.pools (s.pools.insert r.pool (Impl.committedEntry entry r)) :=
        SameShapes.insert hent (PoolEntry.shape_committedEntry entry r)
      exact .of_eq rfl rfl (Impl.view_pools_of_shapes hsh) rfl (hput hr rfl)
  | release key r entry units pools hr hholds hunits hle hent hpools =>
      have hsh : SameShapes s.pools pools :=
        SameShapes.of_map (fun p e ↦ PoolEntry.shape_returned p _ e) hpools
      have hid : (s.remainder r units).id = r.id := by
        unfold Impl.remainder
        dsimp only
        split <;> rfl
      exact .of_eq rfl rfl (Impl.view_pools_of_shapes hsh) rfl (hput hr hid)
  | rebind key r bound hr hholds hepoch hqueue => exact .of_eq rfl rfl rfl rfl (hput hr rfl)
  | brokenReturn key r part entry units pools hr hholds hent hpart hfail hsh =>
      exact .of_eq rfl rfl (Impl.view_pools_of_shapes hsh) rfl rfl

theorem Change.keyed {s m : Impl} {l : Label} {record : Option JournalRecord}
    (h : Change s l record m) (hk : s.view.Keyed) : m.view.Keyed := by
  by_cases hl : l = .brokenGrant
  · subst hl
    cases h with
    | brokenGrant key entry policy r pools j hfits hj hfail hsh =>
        rw [Impl.view_eq_of_shapes hsh]
        exact hk
  · exact (hk.applied record).agrees (h.view_agrees hk hl)

/-- What holds of a view and is kept by changes is kept by moves. -/
theorem Move.keeps_view {I : View → Prop} {s t : Impl} {a : Label × Bool} (h : Move s a t)
    (hchange : ∀ record m, Change s a.1 record m → I m.view) (hs : I s.view) : I t.view := by
  by_cases hl : a.1 = .lostRelease
  · cases h with
    | lostRelease hsh hj =>
        rw [Impl.eq_of_journal hj]
        have hview := Impl.view_eq_of_shapes hsh
        rw [← hview] at hs
        exact hs
    | volatile h | written h | unlogged h =>
        dsimp only at hl
        subst hl
        cases h
    | refused | snapshot => cases hl
  · exact h.keeps (I := fun m ↦ I m.view) hl (fun _ _ h ↦ h) hchange hs

theorem Move.keyed {s t : Impl} {a : Label × Bool} (h : Move s a t) (hk : s.view.Keyed) :
    t.view.Keyed :=
  h.keeps_view (fun _ _ hc ↦ hc.keyed hk) hk

/-! ### Ids in use -/

inductive IdKind where
  | allocation | policy | pool | queue
  deriving DecidableEq

def Counters.next (c : Counters) : IdKind → UInt64
  | .allocation => c.nextAllocationId
  | .policy => c.nextPolicyId
  | .pool => c.nextPoolId
  | .queue => c.nextQueueId

def JournalRecord.Names : JournalRecord → IdKind → UInt64 → Prop
  | .allocation _ r, .allocation, n => r.id = ⟨n⟩
  | .policyUpsert p, .policy, n => p.id = ⟨n⟩
  | .poolUpsert d _, .pool, n => d.id = ⟨n⟩
  | .poolUpsert d _, .policy, n => d.policy = ⟨n⟩
  | .queueUpsert q, .queue, n => q.id = ⟨n⟩
  | _, _, _ => False

namespace View

/-- The ids of a view: those of its tables and those its pools refer to. -/
def Uses (v : View) : IdKind → UInt64 → Prop
  | .allocation, n => ∃ r, v.allocations ⟨n⟩ = some r
  | .policy, n => (∃ p, v.policies ⟨n⟩ = some p) ∨ ∃ k d, v.pools k = some d ∧ d.1.policy = ⟨n⟩
  | .pool, n => ∃ d, v.pools ⟨n⟩ = some d
  | .queue, n => ∃ q, v.queues ⟨n⟩ = some q

def Ahead (v : View) (kind : IdKind) : Prop :=
  ∀ n, v.Uses kind n → n.toNat < (v.counters.next kind).toNat

theorem Agrees.uses {v w : View} (h : v.Agrees w) {kind : IdKind} {n : UInt64}
    (hn : w.Uses kind n) : v.Uses kind n := by
  cases kind with
  | allocation =>
      obtain ⟨r, hr⟩ := hn
      rw [h.allocations] at hr
      exact ⟨r, hr⟩
  | policy =>
      rcases hn with ⟨p, hp⟩ | ⟨k, d, hd, hpol⟩
      · rw [h.policies] at hp
        exact .inl ⟨p, hp⟩
      · rw [h.pools] at hd
        exact .inr ⟨k, d, hd, hpol⟩
  | pool =>
      obtain ⟨d, hd⟩ := hn
      rw [h.pools] at hd
      exact ⟨d, hd⟩
  | queue =>
      obtain ⟨q, hq⟩ := hn
      exact ⟨q, h.queues _ q hq⟩

/-- Replaying a record brings no ids but those it names. -/
theorem uses_apply {v : View} {record : JournalRecord} {kind : IdKind} {n : UInt64}
    (h : (v.apply record).Uses kind n) : v.Uses kind n ∨ record.Names kind n := by
  cases record with
  | policyUpsert p =>
      cases kind with
      | policy =>
          rcases h with ⟨p', hp'⟩ | h
          · rcases update_cases hp' with ⟨heq, -⟩ | ⟨-, hp'⟩
            · exact .inr heq.symm
            · exact .inl (.inl ⟨p', hp'⟩)
          · exact .inl (.inr h)
      | _ => exact .inl h
  | poolUpsert d g =>
      cases kind with
      | pool =>
          obtain ⟨d', hd'⟩ := h
          rcases update_cases hd' with ⟨heq, -⟩ | ⟨-, hd'⟩
          · exact .inr heq.symm
          · exact .inl ⟨d', hd'⟩
      | policy =>
          rcases h with h | ⟨k, d', hd', hpol⟩
          · exact .inl (.inl h)
          · rcases update_cases hd' with ⟨-, heq⟩ | ⟨-, hd'⟩
            · rw [← Option.some.inj heq] at hpol
              exact .inr hpol
            · exact .inl (.inr ⟨k, d', hd', hpol⟩)
      | _ => exact .inl h
  | poolRemoved id =>
      cases kind with
      | pool =>
          obtain ⟨d', hd'⟩ := h
          rcases update_cases hd' with ⟨-, heq⟩ | ⟨-, hd'⟩
          · cases heq
          · exact .inl ⟨d', hd'⟩
      | policy =>
          rcases h with h | ⟨k, d', hd', hpol⟩
          · exact .inl (.inl h)
          · rcases update_cases hd' with ⟨-, heq⟩ | ⟨-, hd'⟩
            · cases heq
            · exact .inl (.inr ⟨k, d', hd', hpol⟩)
      | _ => exact .inl h
  | queueUpsert q =>
      cases kind with
      | queue =>
          obtain ⟨q', hq'⟩ := h
          rcases update_cases hq' with ⟨heq, -⟩ | ⟨-, hq'⟩
          · exact .inr heq.symm
          · exact .inl ⟨q', hq'⟩
      | _ => exact .inl h
  | queueRetired id =>
      cases kind with
      | queue =>
          obtain ⟨q', hq'⟩ := h
          rcases update_cases hq' with ⟨rfl, heq⟩ | ⟨-, hq'⟩
          · obtain ⟨q, hq, -⟩ := Option.map_eq_some_iff.mp heq
            exact .inl ⟨q, hq⟩
          · exact .inl ⟨q', hq'⟩
      | _ => exact .inl h
  | allocation op r =>
      cases kind with
      | allocation =>
          obtain ⟨r', hr'⟩ := h
          rcases update_cases hr' with ⟨heq, -⟩ | ⟨-, hr'⟩
          · exact .inr heq.symm
          · exact .inl ⟨r', hr'⟩
      | _ => exact .inl h
  | _ => exact .inl h

end View

theorem StrongId.raw_eq {tag : IdTag} {id : StrongId tag} {n : UInt64} (h : id = ⟨n⟩) :
    n = id.raw := by
  rw [h]

/-- The counters never go back. -/
theorem Change.next_le {s m : Impl} {l : Label} {record : Option JournalRecord}
    (h : Change s l record m) (kind : IdKind) :
    (s.counters.next kind).toNat ≤ (m.counters.next kind).toNat := by
  cases h with
  | counters c h =>
      cases kind with
      | allocation => exact Nat.le_of_eq (congrArg UInt64.toNat h.allocation.symm)
      | policy => exact h.policy
      | pool => exact h.pool
      | queue => exact h.queue
  | attempt a =>
      obtain ⟨order, attempts, h⟩ := s.recordAttempt_frame a
      rw [h]
  | grant key entry policy r pools hfits hpools =>
      have hnext : (s.counters.nextAllocationId + 1).toNat =
          s.counters.nextAllocationId.toNat + 1 := toNat_add_of_not_overflow hfits.next
      cases kind with
      | allocation =>
          change s.counters.nextAllocationId.toNat ≤ (s.counters.nextAllocationId + 1).toNat
          omega
      | _ => exact Nat.le_refl _
  | _ => exact Nat.le_refl _

/-- An id that a change journals is in use or has been taken from its counter; only a grant
takes an allocation id. -/
theorem Change.names {s m : Impl} {l : Label} {record : JournalRecord}
    (h : Change s l (some record) m) (hk : s.view.Keyed) (hl : l ≠ .brokenGrant) {kind : IdKind}
    {n : UInt64} (hn : record.Names kind n) :
    s.view.Uses kind n ∨ (n.toNat < (m.counters.next kind).toNat ∧
      (kind = .allocation → ∃ r, l = .grant r)) := by
  have huses : ∀ {key : AllocationId} {r : AllocationRecord}, s.allocations.lookup key = some r →
      r.id = ⟨n⟩ → s.view.Uses .allocation n := by
    intro key r hr hid
    refine ⟨r, ?_⟩
    rw [← hid, hk.allocations key r hr]
    exact hr
  cases h with
  | capacity c hfits => cases kind <;> cases hn
  | pressure p hepoch => cases kind <;> cases hn
  | removePool key entry hent hleaf hlent halloc => cases kind <;> cases hn
  | policy p hv hid hroom =>
      cases kind with
      | policy =>
          rw [StrongId.raw_eq hn]
          exact .inr ⟨hid, by simp⟩
      | _ => cases hn
  | pool d hv hnew hid hparent hpolicy hroom hfits =>
      cases kind with
      | pool =>
          rw [StrongId.raw_eq hn]
          exact .inr ⟨hid, by simp⟩
      | policy =>
          have hn : d.policy = ⟨n⟩ := hn
          obtain ⟨p, hp⟩ := hpolicy
          rw [hn] at hp
          exact .inl (.inl ⟨p, hp⟩)
      | _ => cases hn
  | queue key q names hkey =>
      cases kind with
      | queue =>
          have hn : q.id = ⟨n⟩ := hn
          rcases hkey.key with ⟨-, hlt⟩ | ⟨d, hd, hid⟩
          · rw [StrongId.raw_eq hn]
            exact .inr ⟨hlt, by simp⟩
          · have hkey : d.id = key := hk.queues key d hd
            rw [← hkey, ← hid, hn] at hd
            exact .inl ⟨d, hd⟩
      | _ => cases hn
  | retire key d g hd =>
      cases kind with
      | queue =>
          have hn : d.id = ⟨n⟩ := hn
          rw [← hk.queues key d hd, hn] at hd
          exact .inl ⟨d, hd⟩
      | _ => cases hn
  | resize key entry raw prot g c hent hraw hprot hfits =>
      have hlook : s.view.pools key = some entry.shape := by
        simp only [Impl.view, hent, Option.map_some]
      cases kind with
      | pool =>
          have hn : entry.descriptor.id = ⟨n⟩ := hn
          have hid : entry.descriptor.id = key := hk.pools key _ hlook
          rw [← hid, hn] at hlook
          exact .inl ⟨_, hlook⟩
      | policy => exact .inl (.inr ⟨key, _, hlook, hn⟩)
      | _ => cases hn
  | fence key r entry state pools hr hholds hstate hent hpools hexpired =>
      cases kind with
      | allocation => exact .inl (huses hr hn)
      | _ => cases hn
  | grant key entry policy r pools hfits hpools =>
      cases kind with
      | allocation =>
          have hn : r.id = ⟨n⟩ := hn
          have hid := hfits.id_eq
          have hnext : (s.counters.nextAllocationId + 1).toNat =
              s.counters.nextAllocationId.toNat + 1 := toNat_add_of_not_overflow hfits.next
          rw [hn] at hid
          have hraw : n = s.counters.nextAllocationId := congrArg StrongId.raw hid
          refine .inr ⟨?_, fun _ ↦ ⟨r, rfl⟩⟩
          change n.toNat < (s.counters.nextAllocationId + 1).toNat
          rw [hraw, hnext]
          exact Nat.lt_succ_self _
      | _ => cases hn
  | brokenGrant => exact absurd rfl hl
  | commit key r entry hr hs hent =>
      cases kind with
      | allocation => exact .inl (huses hr hn)
      | _ => cases hn
  | release key r entry units pools hr hholds hunits hle hent hpools =>
      cases kind with
      | allocation =>
          exact .inl (huses hr ((s.remainder_id r units).symm.trans hn))
      | _ => cases hn
  | rebind key r bound hr hholds hepoch hqueue =>
      cases kind with
      | allocation => exact .inl (huses hr hn)
      | _ => cases hn

/-- No change lets an id catch up with its counter. -/
theorem Change.ahead {s m : Impl} {l : Label} {record : Option JournalRecord}
    (h : Change s l record m) (hk : s.view.Keyed) {kind : IdKind} (hs : s.view.Ahead kind) :
    m.view.Ahead kind := by
  intro n hn
  have hle := h.next_le kind
  by_cases hl : l = .brokenGrant
  · subst hl
    cases h with
    | brokenGrant key entry policy r pools j hfits hj hfail hsh =>
        rw [Impl.view_eq_of_shapes hsh] at hn
        exact hs n hn
  · have hn := (h.view_agrees hk hl).uses hn
    cases record with
    | none => exact Nat.lt_of_lt_of_le (hs n hn) hle
    | some record =>
        rcases View.uses_apply hn with hn | hn
        · exact Nat.lt_of_lt_of_le (hs n hn) hle
        · rcases h.names hk hl hn with hn | ⟨hn, -⟩
          · exact Nat.lt_of_lt_of_le (hs n hn) hle
          · exact hn

theorem Move.ahead {s t : Impl} {a : Label × Bool} (h : Move s a t) (hk : s.view.Keyed)
    {kind : IdKind} (hs : s.view.Ahead kind) : t.view.Ahead kind :=
  h.keeps_view (I := fun v ↦ v.Ahead kind) (fun _ _ hc ↦ hc.ahead hk hs) hs

/-- The id a grant takes is not in use. -/
theorem View.Ahead.fresh {s : Impl} (h : s.view.Ahead .allocation) {key : PoolId}
    {entry : PoolEntry} {policy : PoolPolicy} {r : AllocationRecord}
    (hfits : GrantFits s key entry policy r) : s.allocations.lookup r.id = none := by
  cases hl : s.allocations.lookup r.id with
  | none => rfl
  | some r' =>
      rw [hfits.id_eq] at hl
      exact absurd (h _ ⟨r', hl⟩) (Nat.lt_irrefl _)

end BufferFabric
