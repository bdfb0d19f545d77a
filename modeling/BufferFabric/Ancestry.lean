import BufferFabric.Lending
import BufferFabric.Lib.Forest

/-!
# The tree of pools

A pool is registered under a parent that is registered, and never moves. The walk that admits
it bounds its depth, so that the walk for a lender, which is as long, sees all its ancestors.
-/

namespace BufferFabric

open Outcome

/-! ### The forest of a view -/

namespace View

variable {v : View} {p c : PoolId}

def up (v : View) (p : PoolId) : Option (Option PoolId) :=
  (v.pools p).map fun d ↦ if d.1.parent.Valid then some d.1.parent else none

theorem parent_iff : v.Parent p c ↔ ParentOf v.up p c := by
  unfold Parent ParentOf up
  constructor
  · rintro ⟨hv, d, hd, rfl⟩
    rw [hd, Option.map_some, if_pos hv]
  · intro h
    obtain ⟨d, hd, hup⟩ := Option.map_eq_some_iff.mp h
    split at hup
    · rename_i hv
      obtain rfl := Option.some.inj hup
      exact ⟨hv, d, hd, rfl⟩
    · cases hup

theorem above_iff : v.Above p c ↔ AncestorOf v.up p c := by
  have heq : v.Parent = ParentOf v.up := funext₂ fun _ _ ↦ propext parent_iff
  unfold Above AncestorOf
  rw [heq]

def Forest (v : View) : Prop :=
  ∀ p, v.up p ≠ none → ∃ n, n ≤ kMaxPoolDepth ∧ Depth v.up p n

theorem up_eq_none : v.up p = none ↔ v.pools p = none :=
  Option.map_eq_none_iff

theorem Forest.congr {w : View} (h : v.Forest) (hup : w.up = v.up) : w.Forest := by
  unfold Forest
  rw [hup]
  exact h

/-- A new pool under a parent that is not at the bound. -/
theorem Forest.insert {w : View} (h : v.Forest) {o : Option PoolId} (hnew : v.up p = none)
    (hup : w.up = Function.update v.up p (some o))
    (hparent : ∀ q, o = some q → ∃ n, n < kMaxPoolDepth ∧ Depth v.up q n) : w.Forest := by
  have hold : ∀ {q n}, Depth v.up q n → Depth w.up q n := by
    intro q n hq
    have hkeep : ∀ a, v.up a ≠ none → w.up a = v.up a := by
      intro a ha
      rw [hup]
      refine Function.update_of_ne ?_ _ _
      rintro rfl
      exact ha hnew
    refine hq.congr (hkeep q hq.ne_none) fun a ha ↦ ?_
    obtain ⟨_, -, hm⟩ := hq.ancestor ha
    exact hkeep a hm.ne_none
  have hself : w.up p = some o := by
    rw [hup]
    exact Function.update_self ..
  intro q hq
  by_cases hqp : q = p
  · subst hqp
    cases o with
    | none => exact ⟨0, Nat.zero_le _, .root hself⟩
    | some b =>
        obtain ⟨n, hn, hb⟩ := hparent b rfl
        exact ⟨n + 1, hn, .child hself (hold hb)⟩
  · have hq' : v.up q ≠ none := by
      rw [hup, Function.update_of_ne hqp] at hq
      exact hq
    obtain ⟨n, hn, hd⟩ := h q hq'
    exact ⟨n, hn, hold hd⟩

/-- A pool that is no parent is removed. -/
theorem Forest.erase {w : View} (h : v.Forest) (hleaf : ∀ q, v.up q ≠ some (some p))
    (hup : w.up = Function.update v.up p none) : w.Forest := by
  intro q hq
  have hqp : q ≠ p := by
    rintro rfl
    rw [hup, Function.update_self] at hq
    exact hq rfl
  rw [hup, Function.update_of_ne hqp] at hq
  obtain ⟨n, hn, hd⟩ := h q hq
  refine ⟨n, hn, hd.congr ?_ fun a ha ↦ ?_⟩
  · rw [hup, Function.update_of_ne hqp]
  · rw [hup, Function.update_of_ne]
    rintro rfl
    obtain ⟨b, hb⟩ := ha.exists_child
    exact hleaf b hb

end View

/-! ### What the operations do to the forest -/

/-- Only a registration and a removal change the forest. -/
theorem Change.up_eq {s m : Impl} {l : Label} {record : Option JournalRecord}
    (h : Change s l record m) (hk : s.view.Keyed) (hpool : ∀ d, l ≠ .pool d)
    (hremove : ∀ key, l ≠ .removePool key) : m.view.up = s.view.up := by
  by_cases hl : l = .brokenGrant
  · subst hl
    cases h with
    | brokenGrant key entry policy r pools j hfits hj hfail hsh =>
        rw [Impl.view_eq_of_shapes hsh]
  · have hpools := (h.view_agrees hk hl).pools
    funext p
    unfold View.up
    rw [hpools]
    cases h with
    | pool d => exact absurd rfl (hpool d)
    | removePool key => exact absurd rfl (hremove key)
    | resize key entry raw prot generation capacity hlook =>
        have hid : entry.descriptor.id = key := hk.pools key _ (Impl.view_pools_lookup hlook)
        by_cases hp : p = entry.descriptor.id
        · have hself : (Function.update s.view.pools entry.descriptor.id
              (some (entry.resized raw prot generation capacity).shape)) p =
              some (entry.resized raw prot generation capacity).shape := by
            rw [hp]
            exact Function.update_self ..
          have hold : s.view.pools p = some entry.shape := by
            rw [hp, hid]
            exact Impl.view_pools_lookup hlook
          rw [hold]
          exact (congrArg (Option.map _) hself).trans rfl
        · exact congrArg _ (Function.update_of_ne hp _ _)
    | brokenGrant => exact absurd rfl hl
    | _ => rfl

theorem Change.forest {s m : Impl} {l : Label} {record : Option JournalRecord}
    (h : Change s l record m) (hk : s.view.Keyed) (hpool : ∀ d, l ≠ .pool d)
    (hs : s.view.Forest) : m.view.Forest := by
  by_cases hremove : ∃ key, l = .removePool key
  · obtain ⟨key, rfl⟩ := hremove
    cases h with
    | removePool key entry hlook hleaf hlent halloc =>
        refine hs.erase ?_ ?_ (p := key)
        · intro q hq
          obtain ⟨d, hd, hup⟩ := Option.map_eq_some_iff.mp hq
          obtain ⟨e, he, rfl⟩ := Option.map_eq_some_iff.mp hd
          split at hup
          · exact hleaf q e he (Option.some.inj hup)
          · cases hup
        · funext p
          simp only [View.up, Impl.view]
          rw [Table.lookup_erase_eq, Function.update_apply]
          split <;> rfl
  · exact hs.congr (h.up_eq hk hpool fun key hkey ↦ hremove ⟨key, hkey⟩)

namespace Impl

variable {s : Impl}

theorem up_of_lookup {p : PoolId} {e : PoolEntry} (he : s.pools.lookup p = some e) :
    s.view.up p = some (if e.descriptor.parent.Valid then some e.descriptor.parent else none) := by
  unfold View.up
  rw [view_pools_lookup he]
  rfl

/-- The walk over the ancestors of a new pool succeeds within the bound on their number. -/
theorem walkAncestry_depth {fuel : ℕ} {p : PoolId} {e : PoolEntry} {u : Unit}
    (he : s.pools.lookup p = some e) (h : s.walkAncestry fuel e = .ok u) :
    ∃ n, n ≤ fuel ∧ Depth s.view.up p n := by
  have hup : s.view.up p = some (if e.descriptor.parent.Valid then some e.descriptor.parent
      else none) := up_of_lookup he
  induction fuel generalizing p e with
  | zero =>
      unfold walkAncestry at h
      split at h
      · rename_i hroot
        rw [if_neg hroot] at hup
        exact ⟨0, Nat.le_refl _, .root hup⟩
      · cases h
  | succ fuel ih =>
      unfold walkAncestry at h
      split at h
      · rename_i hroot
        rw [if_neg hroot] at hup
        exact ⟨0, Nat.zero_le _, .root hup⟩
      · rename_i hparent
        rw [if_pos (not_not.mp hparent)] at hup
        dsimp only at h
        split at h
        · cases h
        · rename_i ancestor hancestor
          obtain ⟨n, hn, hd⟩ := ih hancestor h (up_of_lookup hancestor)
          exact ⟨n + 1, Nat.succ_le_succ hn, .child hup hd⟩

theorem registerPool_forest {q : PoolRegistration} (hs : s.view.Forest) :
    (s.registerPool q).2.view.Forest := by
  unfold registerPool
  split
  · exact hs
  dsimp only
  split
  · exact hs
  split
  · exact hs
  rename_i u hplan
  unfold planPool checkParent at hplan
  simp only [seq_ok, require_eq_ok, exists_const] at hplan
  obtain ⟨_, -, hnew, -, -, -, _, hparent, -⟩ := hplan
  have hnew' : s.view.up (s.newDescriptor q).id = none := by
    rw [View.up_eq_none]
    simpa [view] using hnew
  unfold applyPool
  dsimp only
  split
  · rename_i e t hj
    have hj : journal _ _ = (.error e, t) := hj
    rw [eq_of_journal hj]
    exact hs
  · rename_i u' t hj
    have hj : journal _ _ = (.ok u', t) := hj
    rw [eq_of_journal hj]
    refine hs.insert hnew' (o := if (s.newDescriptor q).parent.Valid then
      some (s.newDescriptor q).parent else none) ?_ ?_
    · exact funext fun p ↦ by
        simp only [View.up, view]
        rw [Table.lookup_insert_eq, Function.update_apply]
        split <;> rfl
    · intro b hb
      split at hb
      · rename_i hvalid
        obtain rfl := Option.some.inj hb
        rw [if_pos hvalid] at hparent
        simp only [seq_ok] at hparent
        obtain ⟨parent, hlookup, hwalk⟩ := hparent
        have hdepth : ∃ n, n ≤ kMaxPoolDepth - 1 ∧
            Depth s.view.up (s.newDescriptor q).parent n := by
          refine walkAncestry_depth ?_ hwalk
          exact demand_eq_ok.mp hlookup
        obtain ⟨n, hn, hd⟩ := hdepth
        exact ⟨n, Nat.lt_succ_of_le hn, hd⟩
      · cases hb

theorem exec_forest (c : Call) (hk : s.view.Keyed) (hs : s.view.Forest) :
    (s.exec c).2.view.Forest := by
  by_cases hop : ∃ q, c.op = .registerPool q
  · obtain ⟨q, hop⟩ := hop
    have hexec : s.exec c = reply .pool ((s.enter c).registerPool q) := by
      unfold exec
      rw [hop]
      rfl
    rw [hexec]
    exact registerPool_forest (s := s.enter c) hs
  · have hboth := (s.exec_trace c).invariant (I := fun t ↦ t.view.Keyed ∧ t.view.Forest) ?_
      ⟨hk, hs⟩
    · exact hboth.2
    · rintro t ⟨l, w⟩ u ⟨htk, htf⟩ hallow hm
      refine ⟨hm.keyed htk, hm.keeps_view (fun _ _ hc ↦ hc.forest htk ?_ htf) htf⟩
      rintro d rfl
      obtain ⟨q, hq, -⟩ := hallow
      exact hop ⟨q, hq⟩

end Impl

/-- In a session that starts from nothing the pools form a forest of bounded depth. -/
theorem SessionRun.forest {P : Impl → Call → Prop} {start s : Impl}
    (h : SessionRun P start s) (hstart : FreshlyOpened start) :
    s.view.Keyed ∧ s.view.Forest := by
  have hblank := hstart.blank
  refine h.invariant (I := fun t ↦ t.view.Keyed ∧ t.view.Forest) ?_ ?_ ?_
  · rintro t c ⟨hk, hf⟩ -
    exact ⟨(t.exec_trace c).invariant (I := fun u ↦ u.view.Keyed)
      (fun _ _ _ hi _ hm ↦ hm.keyed hi) hk, t.exec_forest c hk hf⟩
  · rintro t u ⟨hk, hf⟩ hr
    rw [hr.view_eq]
    exact ⟨hk, hf⟩
  · refine ⟨hblank.exact.keyed, fun p hp ↦ absurd ?_ hp⟩
    rw [View.up_eq_none]
    simp [Impl.view, hblank.pools]

/-! ### Lenders -/

namespace Impl

variable {s : Impl}

/-- A pool that lends: it is in service and has free capacity. -/
def Lends (s : Impl) (p : PoolId) : Prop :=
  ∃ e, s.pools.lookup p = some e ∧ e.descriptor.retired = false ∧ e.freeUnits ≠ 0

theorem lends_iff {p : PoolId} {e : PoolEntry} (he : s.pools.lookup p = some e) :
    s.Lends p ↔ !e.descriptor.retired ∧ e.freeUnits ≠ 0 := by
  unfold Lends
  rw [he]
  simp

/-- The walk for a lender, as a walk up the forest. -/
theorem findLender_eq [DecidablePred s.Lends] (hk : s.view.Keyed) {fuel : ℕ} {c : PoolId}
    {e : PoolEntry} (he : s.pools.lookup c = some e) :
    s.findLender fuel e.descriptor.parent =
      match nearestAncestor s.view.up s.Lends fuel c with
      | none => (default, 0)
      | some l => (l, ((s.pools.lookup l).map PoolEntry.freeUnits).getD 0) := by
  induction fuel generalizing c e with
  | zero => rfl
  | succ fuel ih =>
      have hup : s.view.up c = some (if e.descriptor.parent.Valid then
          some e.descriptor.parent else none) := up_of_lookup he
      unfold findLender nearestAncestor
      rw [hup]
      split
      · dsimp only
        split
        · rename_i hnone
          have hidle : ¬s.Lends e.descriptor.parent := by
            rintro ⟨a, ha, -⟩
            cases hnone.symm.trans ha
          have hend : nearestAncestor s.view.up s.Lends fuel e.descriptor.parent = none :=
            nearestAncestor_of_none (View.up_eq_none.mpr (by simp [view, hnone]))
          rw [if_neg hidle, hend]
        · rename_i ancestor hancestor
          have hid : ancestor.descriptor.id = e.descriptor.parent :=
            hk.pools _ _ (view_pools_lookup hancestor)
          rw [if_congr (lends_iff hancestor).symm rfl rfl]
          split
          · rw [hid]
            dsimp only
            rw [hancestor]
            rfl
          · exact ih hancestor
      · rfl

/-- What a pool can borrow: the free capacity of its nearest ancestor that lends, as far as its
own borrow limit allows. -/
inductive Borrowable (s : Impl) (p : PoolId) (entry : PoolEntry) (policy : PoolPolicy) : ℕ → Prop
  | forbidden (h : policy.borrow.mode ≠ .fromAncestorFree) : Borrowable s p entry policy 0
  | alone (h : ∀ l, ¬NearestAncestor s.view.up s.Lends p l) : Borrowable s p entry policy 0
  | lent {l : PoolId} {e : PoolEntry} (hmode : policy.borrow.mode = .fromAncestorFree)
      (h : NearestAncestor s.view.up s.Lends p l) (he : s.pools.lookup l = some e) :
      Borrowable s p entry policy
        (min e.freeUnits.toNat (policy.borrow.limitUnits.toNat - entry.borrowedIn.toNat))

variable {p : PoolId} {entry : PoolEntry} {policy : PoolPolicy}

theorem Borrowable.of_enter {c : Call} {n : ℕ} (h : (s.enter c).Borrowable p entry policy n) :
    s.Borrowable p entry policy n := by
  cases h with
  | forbidden h => exact .forbidden h
  | alone h => exact .alone h
  | lent hmode h he => exact .lent hmode h he

/-- The walk for a lender finds the nearest ancestor that lends, if there is one. -/
theorem findLender_nearest (hk : s.view.Keyed) (hf : s.view.Forest)
    (he : s.pools.lookup p = some entry) {lender : PoolId} {free : UInt64}
    (hres : s.findLender kMaxPoolDepth entry.descriptor.parent = (lender, free)) :
    (free = 0 ∧ ∀ l, ¬NearestAncestor s.view.up s.Lends p l) ∨
      NearestAncestor s.view.up s.Lends p lender ∧
        ∃ e, s.pools.lookup lender = some e ∧ e.freeUnits = free := by
  classical
  obtain ⟨n, hn, hd⟩ := hf p (by rw [up_of_lookup he]; exact Option.some_ne_none _)
  rw [findLender_eq hk he] at hres
  cases hwalk : nearestAncestor s.view.up s.Lends kMaxPoolDepth p with
  | none =>
      rw [hwalk] at hres
      refine .inl ⟨(congrArg Prod.snd hres).symm, fun l hl ↦ ?_⟩
      rw [← nearestAncestor_eq_some hd hn, hwalk] at hl
      cases hl
  | some l =>
      have hl := (nearestAncestor_eq_some hd hn).mp hwalk
      rw [hwalk] at hres
      obtain ⟨rfl, rfl⟩ := Prod.mk.inj hres
      obtain ⟨e, he, -⟩ := hl.2.1
      refine .inr ⟨hl, e, he, ?_⟩
      rw [he]
      rfl

theorem computeGrant_borrowable (hk : s.view.Keyed) (hf : s.view.Forest)
    (he : s.pools.lookup p = some entry) :
    s.Borrowable p entry policy (s.computeGrant entry policy).borrowable.toNat := by
  unfold computeGrant
  by_cases hmode : policy.borrow.mode = .fromAncestorFree
  · rcases hres : s.findLender kMaxPoolDepth entry.descriptor.parent with ⟨lender, free⟩
    simp only [hmode, true_and, if_true]
    have hremaining : (if entry.borrowedIn < policy.borrow.limitUnits then
        policy.borrow.limitUnits - entry.borrowedIn else 0).toNat =
        policy.borrow.limitUnits.toNat - entry.borrowedIn.toNat := by
      split
      · rename_i hlt
        rw [Word.lt_iff] at hlt
        rw [Word.toNat_sub (by omega)]
      · rename_i hlt
        rw [Word.lt_iff] at hlt
        rw [UInt64.toNat_zero]
        omega
    have hmin : ∀ a b : UInt64, (if a ≤ b then a else b).toNat = min a.toNat b.toNat := by
      intro a b
      split
      · rename_i hle
        rw [Word.le_iff] at hle
        omega
      · rename_i hle
        rw [Word.le_iff] at hle
        omega
    rw [hmin, hremaining]
    rcases findLender_nearest hk hf he hres with ⟨rfl, hnone⟩ | ⟨hl, e, hel, rfl⟩
    · rw [UInt64.toNat_zero, Nat.zero_min]
      exact .alone hnone
    · exact .lent hmode hl hel
  · simp only [hmode, false_and, if_false]
    exact .forbidden hmode

end Impl

end BufferFabric
