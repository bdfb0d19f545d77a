import BufferFabric.Commitments
import BufferFabric.Outcomes

/-!
# Crashes in the middle of a call

A process that is interrupted while it writes leaves one of the contents its directory went
through. While the writes before the crash succeeded, each of them carries the commitments of
a state the call went through, and of a request on one allocation: those from before the
request, or those from after it.
-/

namespace BufferFabric

open Outcome Replay

/-! ### The points of a commitment -/

inductive Point.Kept : {α : Type} → Point α → (α → α → Prop) → Prop
  | capacity (k : ResourceId) : Kept (Point.capacity k) (· = ·)
  | policy (k : PolicyId) : Kept (Point.policy k) (· = ·)
  | pool (k : PoolId) : Kept (Point.pool k) (· = ·)
  | allocation (k : AllocationId) : Kept (Point.allocation k) StandsFor

namespace Point.Kept

variable {α : Type} {p : Point α} {R : α → α → Prop}

theorem overwrites (h : p.Kept R) : Overwrites View.apply p.read p.write := by
  cases h with
  | capacity k => exact capacity_overwrites k
  | policy k => exact policy_overwrites k
  | pool k => exact pool_overwrites k
  | allocation k => exact allocation_overwrites k

theorem loads (h : p.Kept R) : p.Loads := by
  cases h with
  | capacity k => exact capacity_loads k
  | policy k => exact policy_loads k
  | pool k => exact pool_loads k
  | allocation k => exact allocation_loads k

theorem refl (h : p.Kept R) (x : α) : R x x := by
  cases h with
  | capacity | policy | pool => rfl
  | allocation => exact .refl x

/-- A credited change leaves at the point what its record writes there. -/
theorem follows (h : p.Kept R) {s m : Impl} {l : Label} {record : Option JournalRecord}
    (hc : Change s l record m) (hk : s.view.Keyed) (hl : l ≠ .brokenGrant) :
    p.Follows s m record := by
  cases h with
  | capacity k => exact (capacity_inTopology k).follows (capacity_overwrites k) hc hk
  | policy k => exact (policy_inTopology k).follows (policy_overwrites k) hc hk
  | pool k => exact (pool_inTopology k).follows (pool_overwrites k) hc hk
  | allocation k => exact allocation_follows k hc hk hl

/-- A record writes one point at most. -/
theorem alone {β : Type} {p' : Point β} {R' : β → β → Prop} (h : p.Kept R) (h' : p'.Kept R')
    {record : JournalRecord} (hw : p.write record ≠ none) (hw' : p'.write record ≠ none)
    {P : ∀ {γ : Type}, Point γ → (γ → γ → Prop) → Prop} (hP : P p R) : P p' R' := by
  cases h <;> cases h' <;> cases record <;>
    simp_all [Point.capacity, Point.policy, Point.pool, Point.allocation]

end Point.Kept

/-- A directory carries an instance if it does so at every point. -/
theorem Disk.carries_iff {d : Disk} {s : Impl} :
    d.Carries s ↔ ∀ {α : Type} {p : Point α} {R : α → α → Prop}, p.Kept R →
      R (p.read (d.view View.blank)) (p.read s.view) := by
  constructor
  · intro h α p R hp
    cases hp with
    | capacity k => exact congrFun h.topology.capacities k
    | policy k => exact congrFun h.topology.policies k
    | pool k => exact congrFun h.topology.pools k
    | allocation k => exact h.records k
  · intro h
    exact ⟨⟨funext fun k ↦ h (.capacity k), funext fun k ↦ h (.policy k),
      funext fun k ↦ h (.pool k)⟩, fun k ↦ h (.allocation k)⟩

/-! ### One write -/

namespace Disk

variable {d : Disk} {s j m : Impl} {l : Label} {record : JournalRecord}

theorem Carries.append (h : d.Carries s) (hc : Change s l (some record) m)
    (hk : s.view.Keyed) (hl : l ≠ .brokenGrant) :
    ({ d with journal := d.journal ++ [record] } : Disk).Carries m := by
  rw [carries_iff] at h ⊢
  intro α p R hp
  have hfollow : p.read m.view = (p.write record).getD (p.read s.view) := hp.follows hc hk hl
  rw [Disk.view_append, hp.overwrites, hfollow]
  cases p.write record with
  | none => exact h hp
  | some x => exact hp.refl x

/-- An image carries the instance it was taken from, also when an older journal that led to
it is replayed over it once more. -/
theorem Carries.replaced (h : d.Carries s) (hi : s.view.Indexed) {d' : Disk}
    (hd : Disk.Replaced s.image d d') : d'.Carries s := by
  rw [carries_iff] at h ⊢
  intro α p R hp
  exact hd.mirrors (hp.loads s hi) hp.refl (hp.overwrites.tracks (h hp)) (h hp)

/-- Two instances with the same lookups are carried by the same directories. -/
theorem Carries.congr (h : d.Carries s) (hview : j.view = s.view) : d.Carries j := by
  obtain ⟨ht, hr⟩ := h
  have hallocations : j.allocations.lookup = s.allocations.lookup :=
    congrArg View.allocations hview
  refine ⟨by rw [hview]; exact ht, fun k ↦ ?_⟩
  have hk : j.allocations.lookup k = s.allocations.lookup k := congrFun hallocations k
  rw [hk]
  exact hr k

/-- Replaying the record of a change over its outcome changes nothing. -/
theorem Carries.again (h : d.Carries m) (hc : Change s l (some record) m)
    (hk : s.view.Keyed) (hl : l ≠ .brokenGrant) :
    ({ d with journal := d.journal ++ [record] } : Disk).Carries m := by
  rw [carries_iff] at h ⊢
  intro α p R hp
  have hfollow : p.read m.view = (p.write record).getD (p.read s.view) := hp.follows hc hk hl
  rw [Disk.view_append, hp.overwrites]
  cases hw : p.write record with
  | none => exact h hp
  | some x =>
      rw [hw] at hfollow
      rw [hfollow]
      exact hp.refl x

/-- What stands at every point for one state or for another, and for both where the record
does not write, carries one of the two: the record writes one point at most. -/
theorem carries_or (record : JournalRecord) (h : ∀ {α : Type} {p : Point α} {R : α → α → Prop},
    p.Kept R → (p.write record = none → R (p.read (d.view View.blank)) (p.read s.view) ∧
        R (p.read (d.view View.blank)) (p.read m.view)) ∧
      (R (p.read (d.view View.blank)) (p.read s.view) ∨
        R (p.read (d.view View.blank)) (p.read m.view))) : d.Carries s ∨ d.Carries m := by
  rw [or_iff_not_imp_left, carries_iff]
  intro hs
  push Not at hs
  obtain ⟨α, p, R, hp, hne⟩ := hs
  have hwrite : p.write record ≠ none := fun hw ↦ hne ((h hp).1 hw).1
  rw [carries_iff]
  intro β q R' hq
  by_cases hw : q.write record = none
  · exact ((h hq).1 hw).2
  · exact hp.alone hq hwrite hw
      (P := fun p R ↦ R (p.read (d.view View.blank)) (p.read m.view))
      ((h hp).2.resolve_left hne)

/-- Whatever the journaling of a change leaves in the directory, it carries the state before
the change or the state after it. -/
theorem Next.carries {d' : Disk} (hd : Disk.Next j.image record d d') (h : d.Carries s)
    (hc : Change s l (some record) m) (hl : l ≠ .brokenGrant) (hi : s.view.Indexed)
    (hview : j.view = s.view ∨ j.view = m.view) : d'.Carries s ∨ d'.Carries m := by
  have him : m.view.Indexed := hc.indexed hi
  have hij : j.view.Indexed := by
    rcases hview with hview | hview <;> rw [hview]
    · exact hi
    · exact him
  have hback : ∀ {u : Disk}, u.Carries j → u.Carries s ∨ u.Carries m := fun hu ↦
    hview.imp (fun heq ↦ hu.congr heq.symm) fun heq ↦ hu.congr heq.symm
  have himage : ({ snapshot := some j.image, journal := [] } : Disk).Carries j := by
    rw [carries_iff]
    intro α p R hp
    change R (p.read (View.blank.load j.image)) _
    rw [hp.loads j hij]
    exact hp.refl _
  cases hd with
  | same => exact .inl h
  | appended => exact .inr (h.append hc hi.keyed hl)
  | replaced =>
      rcases hview with hview | hview
      · exact hback ((h.congr hview).replaced hij .replaced)
      · -- The image already holds the change, and the older journal may take it back.
        refine carries_or record fun {α p R} hp ↦ ?_
        have hfollow : p.read m.view = (p.write record).getD (p.read s.view) :=
          hp.follows hc hi.keyed hl
        have hload : p.read (View.blank.load j.image) = p.read m.view := by
          rw [hp.loads j hij, hview]
        have hor : R (p.read (({ d with snapshot := some j.image } : Disk).view View.blank))
              (p.read s.view) ∨
            R (p.read (({ d with snapshot := some j.image } : Disk).view View.blank))
              (p.read m.view) := by
          rcases hp.overwrites.tracks (carries_iff.mp h hp) (View.blank.load j.image) with heq | hR
          · refine .inr ?_
            change R (p.read (d.journal.foldl View.apply (View.blank.load j.image))) _
            rw [heq, hload]
            exact hp.refl _
          · exact .inl hR
        refine ⟨fun hw ↦ ?_, hor⟩
        rw [hw, Option.getD_none] at hfollow
        rw [hfollow, or_self] at hor
        rw [hfollow]
        exact ⟨hor, hor⟩
  | compacted => exact hback himage
  | restarted =>
      rcases hview with hview | hview
      · exact .inr ((himage.congr hview.symm).append hc hi.keyed hl)
      · exact .inr ((himage.congr hview.symm).again hc hi.keyed hl)

end Disk

/-- What a move leaves in the directory on its way carries the state before it or the state
after it. -/
theorem Move.contents {s t : Impl} {a : Label × Bool} (h : Move s a t)
    (ha : Journaled a ∧ Impl.Credited a) (hs : s.Saved) {d : Disk} (hd : d ∈ t.store.trail) :
    d ∈ s.store.trail ∨ d.Carries s ∨ d.Carries t := by
  have hi := hs.writing.1
  cases h with
  | volatile h =>
      rw [h.frame.1] at hd
      exact .inl hd
  | @written l record m j u h hstore hview hj =>
      obtain ⟨st, hst, hf, -⟩ := j.journal_spec record
      rw [hj] at hst
      simp only at hst
      subst hst
      rw [hstore] at hf
      refine (hf.trail d hd).imp_right fun hnext ↦ ?_
      refine (Disk.Next.carries hnext hs.carries h ha.2 hi hview).imp_right fun hm ↦ ?_
      exact hm.congr rfl
  | unlogged h => exact ha.1.elim nofun fun hl ↦ by cases hl; cases h
  | refused hj => exact ha.1.elim nofun nofun
  | lostRelease hsh hj => exact ha.1.elim nofun nofun
  | @snapshot r u h =>
      obtain ⟨st, hst, hf, -⟩ := s.writeFullSnapshot_spec
      rw [h] at hst
      simp only at hst
      subst hst
      exact (hf.trail d hd).imp_right fun hd ↦ .inl (hs.carries.replaced hi hd)

/-! ### Calls -/

abbrev Committed : Impl → Impl → Prop := StepPath Move fun _ a ↦ Journaled a ∧ Impl.Credited a

theorem Committed.saved {s t : Impl} (h : Committed s t) (hs : s.Saved) : t.Saved := by
  refine h.invariant (I := Impl.Saved) ?_ hs
  exact fun _ _ _ hu ha hm ↦ hu.move hm ha

/-- What a path leaves in the directory on its way carries a state the path goes through. -/
theorem Committed.contents {s t : Impl} (h : Committed s t) (hs : s.Saved)
    (htrail : s.store.trail = []) {d : Disk} (hd : d ∈ t.store.trail) :
    ∃ u, Committed s u ∧ Committed u t ∧ d.Carries u := by
  induction h with
  | refl =>
      rw [htrail] at hd
      cases hd
  | tail hpath ha hm ih =>
      rcases hm.contents ha (Committed.saved hpath hs) hd with hold | hbefore | hafter
      · obtain ⟨u, hu, hut, hcarry⟩ := ih hold
        exact ⟨u, hu, hut.tail ha hm, hcarry⟩
      · exact ⟨_, hpath, .single ha hm, hbefore⟩
      · exact ⟨_, hpath.tail ha hm, .refl, hafter⟩

abbrev Silent : Impl → Impl → Prop :=
  StepPath Move fun _ a ↦ a = (.idle, true) ∨ a = (.attempt, true)

namespace Silent

variable {s t m : Impl}

theorem idle (h : Change s .idle none m) : Silent s m :=
  .single (a := (.idle, true)) (.inl rfl) (.volatile h)

theorem flags (s : Impl) (b : Bool) : Silent s { s with shuttingDown := b } :=
  idle (.flags b s.backends)

theorem counters {c : Counters} (h : s.counters.Advance c) : Silent s { s with counters := c } :=
  idle (.counters c h)

theorem advanceDecision (s : Impl) : Silent s s.advanceDecision :=
  counters ⟨Nat.le_refl _, Nat.le_refl _, Nat.le_refl _, rfl⟩

theorem recorded (s : Impl) (a : AttemptRecord) : Silent s (s.advanceDecision.recordAttempt a) :=
  (advanceDecision s).trans (.single (a := (.attempt, true)) (.inr rfl) (.volatile (.attempt a)))

theorem finished {key : PoolId} {entry : PoolEntry} {runtime : PoolRuntime} (a : AttemptRecord)
    (hfigures : runtime.figures = entry.runtime.figures)
    (hl : s.pools.lookup key = some entry) :
    Silent s ((s.putPool key { entry with runtime := runtime }).advanceDecision.recordAttempt a) :=
  (idle (Impl.putPool_runtime runtime hfigures hl)).trans (recorded _ a)

theorem committed (h : Silent s t) : Committed s t := by
  refine h.mono fun _ a ha ↦ ?_
  rcases ha with rfl | rfl
  · exact ⟨.inl rfl, by rintro ⟨⟩⟩
  · exact ⟨.inl rfl, by rintro ⟨⟩⟩

theorem changes {a : Label × Bool} (h : Move s a m) (ha : a = (.idle, true) ∨ a = (.attempt, true)) :
    Change s a.1 none m ∧ a.1 ≠ .brokenGrant := by
  rcases ha with rfl | rfl
  all_goals
    refine ⟨?_, by rintro ⟨⟩⟩
    cases h with
    | volatile h => exact h
    | written h => cases h

theorem store (h : Silent s t) : t.store = s.store := by
  induction h with
  | refl => rfl
  | tail _ ha hm ih => exact (changes hm ha).1.frame.1.trans ih

/-- Such changes leave everything a commitment is made of. -/
theorem keeps (h : Silent s t) (hk : s.view.Keyed) : t.view.Keyed ∧
    s.view.SameTopology t.view ∧ t.view.allocations = s.view.allocations := by
  induction h with
  | refl => exact ⟨hk, ⟨rfl, rfl, rfl⟩, rfl⟩
  | @tail u v a hpath ha hm ih =>
      obtain ⟨hu, ht, hr⟩ := ih
      obtain ⟨hchange, hne⟩ := changes hm ha
      have ht' : u.view.SameTopology v.view := hchange.sameTopology hu
      have hr' : v.view.allocations = u.view.allocations :=
        (hchange.view_agrees hu hne).allocations
      exact ⟨hchange.keyed hu, ⟨ht.capacities.trans ht'.capacities,
        ht.policies.trans ht'.policies, ht.pools.trans ht'.pools⟩, hr'.trans hr⟩

end Silent

theorem Disk.Carries.same {d : Disk} {s t : Impl} (h : d.Carries s)
    (ht : s.view.SameTopology t.view) (hr : t.view.allocations = s.view.allocations) :
    d.Carries t := by
  refine ⟨⟨h.topology.capacities.trans ht.capacities, h.topology.policies.trans ht.policies,
    h.topology.pools.trans ht.pools⟩, fun k ↦ ?_⟩
  have hk : t.allocations.lookup k = s.allocations.lookup k := congrFun hr k
  rw [hk]
  exact h.records k

/-- A run that writes nothing, a run that counts a failed write, or one move with no other
write before it or after it. -/
inductive Impl.Sole (s t : Impl) : Prop
  | unwritten (h : t.store = s.store)
  | failed (h : t.store.failures ≠ s.store.failures)
  | moved {u m : Impl} {a : Label × Bool} (hbefore : Silent s u) (h : Move u a m)
      (ha : Impl.Credited a) (hafter : Silent m t)

namespace Impl

variable {s t m : Impl}

theorem Sole.contents (h : s.Sole t) (hs : s.Saved) (htrail : s.store.trail = [])
    (hok : t.store.failures = s.store.failures) {d : Disk} (hd : d ∈ t.store.trail) :
    d.Carries s ∨ d.Carries t := by
  have hk := hs.writing.1.keyed
  cases h with
  | unwritten h =>
      rw [h, htrail] at hd
      cases hd
  | failed h => exact absurd hok h
  | @moved u m a hbefore h ha hafter =>
      have hu := hbefore.committed.saved hs
      obtain ⟨-, ht, hr⟩ := hbefore.keeps hk
      obtain ⟨-, ht', hr'⟩ := hafter.keeps (h.indexed hu.writing.1).keyed
      rw [hafter.store] at hok hd
      have hjournaled : Journaled a := .inl (h.flag_of_failures (by rw [hok, hbefore.store]))
      rcases h.contents ⟨hjournaled, ha⟩ hu hd with hold | hfirst | hlast
      · rw [hbefore.store, htrail] at hold
        cases hold
      · exact .inl (hfirst.same ⟨ht.capacities.symm, ht.policies.symm, ht.pools.symm⟩ hr.symm)
      · exact .inr (hlast.same ht' hr')

theorem Sole.silent (h : Silent s t) : s.Sole t := .unwritten h.store

/-- A move with no change before it. -/
theorem Sole.first {a : Label × Bool} (h : Move s a m) (ha : Credited a) (hafter : Silent m t) :
    s.Sole t :=
  .moved .refl h ha hafter

/-- A write that fails is counted. -/
theorem Sole.of_error {record : JournalRecord} {e : Status}
    (hj : m.journal record = (.error e, t)) (hstore : m.store = s.store) : s.Sole t := by
  refine .failed ?_
  rw [← hstore]
  have hfail := journal_failures_eq hj
  rw [if_neg (by rintro ⟨⟩)] at hfail
  omega

/-! ### Requests on one allocation -/

theorem applyGrant_sole {q : AllocateRequest} {entry : PoolEntry} {policy : PoolPolicy} {g : Grant}
    {r : AllocationRecord} (queue : QueueDescriptor) (evidence : PressureEvidence)
    (hfits : GrantFits s q.pool entry policy r) (hunits : r.units = g.units)
    (hborrow : r.borrowUnits = g.borrow)
    (hcredit : (s.applyCommitUnits q.pool entry r.units r.borrowUnits r.lender).1 = .ok ()) :
    s.Sole (s.applyGrant q entry queue policy evidence g r).2 := by
  have hend := applyGrant_cases queue evidence hfits hunits hborrow
  generalize s.applyGrant q entry queue policy evidence g r = result at hend ⊢
  have hgranted : Credited (.grant r, true) := by rintro ⟨⟩
  cases hend with
  | lost hj => exact .of_error hj rfl
  | @broken u e t pools hj hfail hshapes =>
      have hok := applyCommitUnits_store t.store hcredit
      rw [hfail] at hok
      cases hok
  | @unclosed u e t pools hj hpools hclosure =>
      have hmove := Move.of_first (.grant q.pool entry policy r pools hfits hpools) hj
      exact .first hmove hgranted (.flags _ true)
  | @done u v t m pools d target hj hpools hclosure hfinish =>
      have hmove := Move.of_first (.grant q.pool entry policy r pools hfits hpools) hj
      obtain ⟨runtime, a, hfigures, rfl, -⟩ := finishAllocate_spec hfinish
      exact .first hmove hgranted (.finished a hfigures (granted_lookup hfits hpools))

theorem allocateLocked_sole {q : AllocateRequest} (h : s.Credits q) :
    s.Sole (s.allocateLocked q).2 := by
  have hbranch := s.allocateLocked_cases q
  generalize s.allocateLocked q = result at hbranch ⊢
  cases hbranch with
  | rejected | replayed | barred | unplanned => exact .unwritten rfl
  | declined hadm hassert hrefuse hfinish =>
      obtain ⟨-, -, -, hl, -⟩ := admitAllocate_ok hadm
      obtain ⟨runtime, a, hfigures, rfl, -⟩ := finishAllocate_spec hfinish
      exact .silent (.finished a hfigures hl)
  | planned hadm hassert hgrant hplan hresult =>
      obtain ⟨hfits, hunits, hborrow⟩ := grantFits hadm hassert hgrant hplan
      rw [← hresult]
      exact applyGrant_sole _ _ hfits hunits hborrow
        (h _ _ hfits.pool_lookup (plannedGrant_eq hadm hassert hgrant hplan))

theorem commitLocked_sole (q : CommitRequest) : s.Sole (s.commitLocked q).2 := by
  have hend := s.commitLocked_end q
  have hcommit : ∀ r, Credited (.commit r, true) := by rintro r ⟨⟩
  generalize (s.commitLocked q).1 = res, (s.commitLocked q).2 = t at hend ⊢
  cases hend with
  | rejected | replayed => exact .unwritten rfl
  | unlogged hj => exact .of_error hj rfl
  | unclosed hr hs hl hj hclosure =>
      exact .first (.of_first (.commit q.allocation _ _ hr hs hl) hj) (hcommit _) (.flags _ true)
  | committed hprev hr hs hl hj =>
      exact .first (.of_first (.commit q.allocation _ _ hr hs hl) hj) (hcommit _) (.recorded _ _)

theorem releaseLocked_sole (q : ReleaseRequest) : s.Sole (s.releaseLocked q).2 := by
  have hend := s.releaseLocked_end q
  generalize (s.releaseLocked q).1 = res, (s.releaseLocked q).2 = t at hend ⊢
  -- The units are back in the pools before the record is written.
  have hmove : ∀ {r : AllocationRecord} {entry : PoolEntry} {units : UInt64}
      {pools : Table PoolId PoolEntry} {u : Impl},
      s.allocations.lookup q.allocation = some r → r.state.holdsUnits = true →
      s.pools.lookup r.pool = some entry → releaseAmount q r = .ok units →
      (∀ p, pools.lookup p =
        (s.pools.lookup p).map (PoolEntry.returned p (s.releasedPart r units))) →
      { s with pools := pools }.journal (.allocation .released (s.remainder r units)) =
        (.ok (), u) →
      Move s (.release r units, true) (s.releasedState q.allocation r units pools u.store) := by
    intro r entry units pools u hr hholds hl hamount hpools hj
    obtain ⟨hpos, hle⟩ := releaseAmount_ok hamount
    have hshapes : SameShapes s.pools pools :=
      .of_map (fun p e ↦ PoolEntry.shape_returned p (s.releasedPart r units) e) hpools
    exact .written (j := { s with pools := pools })
      (.release q.allocation r entry units pools hr hholds hpos hle hl hpools) rfl
      (.inl (view_eq_of_shapes hshapes)) hj (.inl ⟨rfl, rfl, rfl, rfl⟩)
  have hrelease : ∀ r units, Credited (.release r units, true) := by rintro r units ⟨⟩
  cases hend with
  | rejected | replayed | broken => exact .unwritten rfl
  | idle => exact .silent (.recorded _ _)
  | unlogged hr hholds hl hamount hpools hj => exact .of_error hj rfl
  | unclosed hr hholds hl hamount hpools hj hl' hclosure =>
      exact .first (hmove hr hholds hl hamount hpools hj) (hrelease _ _) (.flags _ true)
  | released hprev hr hholds hl hamount hpools hj =>
      exact .first (hmove hr hholds hl hamount hpools hj) (hrelease _ _) (.recorded _ _)

theorem revalidateLocked_sole (q : RevalidateRequest) : s.Sole (s.revalidateLocked q).2 := by
  unfold revalidateLocked
  split
  · exact .unwritten rfl
  · exact .unwritten rfl
  rename_i t hadm
  obtain ⟨-, hr, -, -, hqueue⟩ := admitTarget_ok hadm
  split
  · exact .unwritten rfl
  rename_i hassert
  unfold assertRevalidate at hassert
  simp only [seq_ok, require_eq_ok, exists_const] at hassert
  obtain ⟨-, hholds, -⟩ := hassert
  dsimp only
  split
  · exact .silent (.advanceDecision s)
  split
  · rename_i e u hj
    exact .of_error hj rfl
  rename_i u₀ u hj
  have hmove := Move.of_first (.rebind q.allocation t.record (s.reboundRecord t).bound hr hholds rfl
    ⟨t.queue, hqueue, rfl⟩) hj
  rw [eq_of_journal hj]
  exact .first hmove (by rintro ⟨⟩) (.recorded _ _)

/-! ### Topology, queues and evidence -/

theorem attachBackend_sole (id : BackendId) (backend : BackendEntry) :
    s.Sole (s.attachBackend id backend).2 := by
  unfold attachBackend
  split
  · exact .unwritten rfl
  split
  · exact .unwritten rfl
  · exact .unwritten rfl

theorem setCapacity_sole (resource : ResourceId) (backend : BackendId) (raw : UInt64)
    (expected : Generation) (answer : BackendAnswer) :
    s.Sole (s.setCapacity resource backend raw expected answer).2 := by
  unfold setCapacity
  split
  · exact .unwritten rfl
  rename_i authority hadm
  unfold publishCapacity
  split
  · exact .unwritten rfl
  rename_i entry hplan
  simp only [seq_ok, requireWorking_eq_ok, require_eq_ok, exists_const, pure_ok] at hplan
  obtain ⟨-, -, -, total, htotal, hle, hentry⟩ := hplan
  have hres : entry.resource = resource := by rw [← hentry]
  have hraw : total ≤ entry.rawUnits := by rwa [← hentry]
  subst hres
  have hfits : s.partitioned entry.resource (fun _ ↦ True) ≤ entry.rawUnits.toNat := by
    rw [Word.le_iff, partitionTotal_ok htotal] at hraw
    simpa only [partitioned, decide_eq_true_eq, and_true] using hraw
  split
  · rename_i e t hj
    exact .of_error hj rfl
  · rename_i u t hj
    rw [eq_of_journal hj]
    exact .first (.of_first (.capacity entry hfits) hj) (by rintro ⟨⟩) .refl

theorem registerPool_sole (q : PoolRegistration) : s.Sole (s.registerPool q).2 := by
  unfold registerPool
  split
  · exact .unwritten rfl
  rename_i hadm
  simp only [seq_ok, requireOpen_eq_ok, requireWorking_eq_ok, require_eq_ok,
    exists_const] at hadm
  obtain ⟨-, -, hroom⟩ := hadm
  dsimp only
  split
  · exact .unwritten rfl
  rename_i next hnext
  obtain ⟨hle, hid⟩ := raiseCounter_ok hnext
  have hfirst : Silent s { s with counters := { s.counters with nextPoolId := next } } :=
    .counters ⟨hle, Nat.le_refl _, Nat.le_refl _, rfl⟩
  split
  · exact .unwritten rfl
  rename_i hplan
  obtain ⟨hv, hnew, hparent, hpolicy, hfits⟩ := planPool_ok hplan
  unfold applyPool
  dsimp only
  split
  · rename_i e t hj
    exact .of_error hj rfl
  · rename_i u t hj
    have hmove := Move.of_first
      (.pool (s.newDescriptor q) hv hnew hid hparent hpolicy hroom hfits) hj
    rw [eq_of_journal hj]
    exact .moved hfirst hmove (by rintro ⟨⟩) .refl

theorem removePool_sole (key : PoolId) (expected : Generation) :
    s.Sole (s.removePool key expected).2 := by
  unfold removePool
  split
  · exact .unwritten rfl
  rename_i entry hplan
  unfold planRemove at hplan
  simp only [seq_ok, requireOpen_eq_ok, requirePool_eq_ok, require_eq_ok, exists_const,
    pure_ok] at hplan
  obtain ⟨-, entry', ⟨-, hl⟩, -, hleaf, -, hlent, halloc, rfl⟩ := hplan
  split
  · rename_i e t hj
    exact .of_error hj rfl
  · rename_i u t hj
    have hleaf' : ∀ p e, s.pools.lookup p = some e → e.descriptor.parent ≠ key :=
      fun p e he ↦ hleaf (p, e) (Table.mem_toList.mpr he)
    have hmove := Move.of_first (.removePool key entry' hl hleaf' hlent halloc) hj
    rw [eq_of_journal hj]
    exact .first hmove (by rintro ⟨⟩) (.idle (.dropQueues key (by simp)))

theorem registerQueue_sole (q : QueueRegistration) : s.Sole (s.registerQueue q).2 := by
  unfold registerQueue
  split
  · exact .unwritten rfl
  dsimp only
  split
  · exact .unwritten rfl
  rename_i next hnext
  obtain ⟨hle, hid⟩ := raiseCounter_ok hnext
  have hfirst : Silent s { s with counters := { s.counters with nextQueueId := next } } :=
    .counters ⟨Nat.le_refl _, hle, Nat.le_refl _, rfl⟩
  split
  · exact .unwritten rfl
  rename_i u hplan
  have hnew : s.queues.lookup (s.newQueue q).id = none ∧
      s.queueNames.lookup (s.newQueue q).name = none ∧
      (s.pools.lookup (s.newQueue q).pool).isSome = true := by
    unfold planQueue at hplan
    simp only [seq_ok, require_eq_ok, exists_const, Option.isNone_iff_eq_none] at hplan
    exact hplan.2.2.2
  unfold applyQueue
  split
  · rename_i e t hj
    exact .of_error hj rfl
  · rename_i u t hj
    have hup : QueueUpdate { s with counters := { s.counters with nextQueueId := next } }
        (s.newQueue q).id (s.newQueue q)
        (s.queueNames.insert (s.newQueue q).name (s.newQueue q).id) :=
      .registered rfl hid hnew.1 hnew.2.1 hnew.2.2 rfl
    have hmove := Move.of_first (.queue (s.newQueue q).id (s.newQueue q)
      (s.queueNames.insert (s.newQueue q).name (s.newQueue q).id) hup) hj
    rw [eq_of_journal hj]
    exact .moved hfirst hmove (by rintro ⟨⟩) .refl

theorem updateQueueDemand_sole (queue : QueueId) (demandUnits : UInt64) (expected : Generation) :
    s.Sole (s.updateQueueDemand queue demandUnits expected).2 := by
  unfold updateQueueDemand
  split
  · exact .unwritten rfl
  rename_i d hplan
  simp only [seq_ok, require_eq_ok, exists_const, pure_ok] at hplan
  obtain ⟨d', hadm, -, -, rfl⟩ := hplan
  have hchange := Change.queue queue
    { d' with demandUnits := demandUnits, demandUpdatedAt := s.tick } s.queueNames
    (.updated (admitQueue_ok hadm) rfl rfl)
  split
  · rename_i heq
    exact .of_error heq rfl
  · rename_i heq
    exact .first (.of_last hchange heq) (by rintro ⟨⟩) .refl

theorem observePressure_sole (request : PressureSnapshot) :
    s.Sole (s.observePressure request).2 := by
  unfold observePressure
  split
  · exact .unwritten rfl
  dsimp only
  split
  · exact .unwritten rfl
  rename_i next hnext
  have hfirst : Silent s { s with counters := { s.counters with nextSnapshotId := next } } :=
    .counters ⟨Nat.le_refl _, Nat.le_refl _, Nat.le_refl _, rfl⟩
  split
  · exact .unwritten rfl
  rename_i snapshot hplan
  have hpool : snapshot.pool = request.pool ∧ snapshot.epoch = s.epoch ∧
      snapshot.observedAt ≤ s.tick := by
    unfold planPressure at hplan
    simp only [seq_ok, require_eq_ok, exists_const, pure_ok] at hplan
    obtain ⟨hepoch, -, hpast, -, rfl⟩ := hplan
    refine ⟨?_, ?_, hpast⟩
    · dsimp only
      split <;> rfl
    · dsimp only
      split <;> exact hepoch
  split
  · rename_i e t hj
    exact .of_error hj rfl
  · rename_i u t hj
    have hepoch : snapshot.epoch =
        ({ s with counters := { s.counters with nextSnapshotId := next } } : Impl).epoch := hpool.2.1
    have hmove := Move.of_first (.pressure snapshot hepoch hpool.2.2) hj
    rw [eq_of_journal hj, ← hpool.1]
    exact .moved hfirst hmove
      (by rintro ⟨⟩) .refl

/-- A checkpoint leaves what the directory carries alone, also if it fails. -/
theorem checkpoint_contents (hs : s.Saved) (htrail : s.store.trail = []) {d : Disk}
    (hd : d ∈ s.checkpoint.2.store.trail) : d.Carries s ∨ d.Carries s.checkpoint.2 := by
  unfold checkpoint at hd ⊢
  split at hd
  · rw [htrail] at hd
    cases hd
  rename_i hopen
  rw [if_neg hopen]
  split at hd
  · rw [htrail] at hd
    cases hd
  have hmove : Move s (.snapshot, s.writeFullSnapshot.1.isOk) s.writeFullSnapshot.2 := .snapshot rfl
  rcases hmove.contents ⟨.inr rfl, by rintro ⟨⟩⟩ hs hd with hold | hcarry
  · rw [htrail] at hold
    cases hold
  · exact hcarry

end Impl

/-- The operations that sweep over allocations and may write many records. -/
def Op.Sweeps : Op → Bool
  | .publishPolicy _ | .resizePool .. | .retireQueue .. | .retargetQueue .. | .fenceStale _
  | .expireReservations _ | .applyReclaim _ => true
  | _ => false

/-- What such an operation leaves in the directory on its way. -/
theorem Impl.exec_contents {s : Impl} {c : Call} (hs : s.Saved) (hop : c.op.Sweeps = false)
    (hc : JournalsOk s c) (hcredit : ∀ q, c.op = .allocate q → (s.enter c).Credits q)
    {d : Disk} (hd : d ∈ (s.exec c).2.store.trail) :
    d.Carries (s.enter c) ∨ d.Carries (s.exec c).2 := by
  have henter := hs.enter c
  have htrail : (s.enter c).store.trail = [] := rfl
  by_cases hcheckpoint : c.op = .checkpoint
  · unfold exec at hd ⊢
    rw [hcheckpoint] at hd ⊢
    exact checkpoint_contents henter htrail hd
  · have hok : (s.exec c).2.store.failures = (s.enter c).store.failures := hc.appendsOk hcheckpoint
    refine Sole.contents ?_ henter htrail hok hd
    unfold exec
    cases heq : c.op with
    | attachBackend => exact attachBackend_sole _ _
    | setCapacity => exact setCapacity_sole _ _ _ _ _
    | registerPool => exact registerPool_sole _
    | removePool => exact removePool_sole _ _
    | registerQueue => exact registerQueue_sole _
    | updateQueueDemand => exact updateQueueDemand_sole _ _ _
    | observePressure => exact observePressure_sole _
    | allocate q => exact allocateLocked_sole (hcredit q heq)
    | commit => exact commitLocked_sole _
    | release => exact releaseLocked_sole _
    | revalidate => exact revalidateLocked_sole _
    | checkpoint => exact absurd heq hcheckpoint
    | beginShutdown => exact .unwritten rfl
    | publishPolicy | resizePool | retireQueue | retargetQueue | fenceStale | expireReservations
    | applyReclaim =>
        rw [heq] at hop
        cases hop

/-- A call begins with what the last one left. -/
theorem Impl.Recovers.of_enter {s t : Impl} {c : Call} (h : (s.enter c).Recovers t) :
    s.Recovers t :=
  ⟨h.capacities, h.policies, h.pools, h.committed, h.reserved, h.others⟩

section Crashes

variable {y y' : System} {s t : Impl} {c : Call} {tick : Tick} {io : List Io}
  {config : FabricConfig} {boot : Impl.BootInputs}

/-- When a call is interrupted anywhere in its writes, a new instance recovers the
commitments of a state between two moves of the call. -/
theorem crash_recovers_prefix (hrun : System.Run System.Commits y) (hlive : y.live = some s)
    (hc : y.Commits (.called c)) (hcrash : System.Step y (.crashed c) y')
    (hmode : config.persistence.mode ≠ .none)
    (hopen : (({} : Impl).attach y'.disk tick io).openFabric config boot = (.ok (), t)) :
    ∃ u, Committed (s.enter c) u ∧ Committed u (s.exec c).2 ∧ u.Recovers t := by
  have hs := (hrun.saved s hlive).enter c
  have hpath := Impl.exec_credited (hc.journals c s rfl hlive) fun q ↦ hc.credits c s q rfl hlive
  cases hcrash with
  | @crashed s' _ d hlive' _ hd =>
      obtain rfl := Option.some.inj (hlive.symm.trans hlive')
      obtain ⟨u, hu, hut, hcarry⟩ := Committed.contents hpath hs rfl hd
      exact ⟨u, hu, hut, hcarry.recovers hopen hmode⟩

/-- What a crash at a chosen write of a call leaves, when the session is running and the call
is one that commits. -/
def System.interrupted (y : System) (c : Call) (n : ℕ) : Option Disk :=
  y.live.bind fun s ↦
    if s.isOpen = true ∧ commitsCheck y (.call c) = true then (s.exec c).2.store.trail[n]?
    else none

theorem System.interrupted_step {n : ℕ} {d : Disk} (h : y.interrupted c n = some d) :
    ∃ s, y.live = some s ∧ y.Commits (.called c) ∧
      System.Step y (.crashed c) { y with disk := d, live := none } := by
  obtain ⟨s, hlive, h⟩ := Option.bind_eq_some_iff.mp h
  split at h
  · rename_i hcheck
    exact ⟨s, hlive, commitsCheck_commits y (.call c) hcheck.2,
      .crashed c hlive hcheck.1 (List.mem_of_getElem? h)⟩
  · cases h

def shrinkSmall : Call := { op := .resizePool ⟨1⟩ 20 5 ⟨0⟩ }

/-- A crash in the middle of a shrink that fences every allocation: one is fenced already,
another is not. -/
theorem crash_recovers_prefix_small :
    ∃ (y y' : System) (s t u : Impl), System.Run System.Commits y ∧ y.live = some s ∧
      System.Step y (.crashed shrinkSmall) y' ∧ y'.disk.restarted = (.ok (), t) ∧
      Committed (s.enter shrinkSmall) u ∧ Committed u (s.exec shrinkSmall).2 ∧ u.Recovers t ∧
      (t.allocations.lookup ⟨1⟩).map AllocationRecord.state = some .fenced ∧
      (t.allocations.lookup ⟨3⟩).map AllocationRecord.state = some .committed := by
  have h : (System.script commitsCheck {} commitScript).any (fun y ↦
      (y.interrupted shrinkSmall 1).any fun d ↦ decide (d.restarted.1 = .ok ()) &&
        [(⟨1⟩, .fenced), (⟨3⟩, .committed)].all fun e ↦
          decide ((d.restarted.2.allocations.lookup e.1).map AllocationRecord.state =
            some e.2)) = true := by
    decide +kernel
  obtain ⟨y, hy, h⟩ := (Option.any_eq_true _ _).mp h
  obtain ⟨d, hd, h⟩ := (Option.any_eq_true _ _).mp h
  simp only [Bool.and_eq_true, decide_eq_true_eq, List.all_cons, List.all_nil, Bool.and_true] at h
  obtain ⟨hok, hone, hthree⟩ := h
  obtain ⟨s, hlive, hc, hstep⟩ := System.interrupted_step hd
  have hrun : System.Run System.Commits y := .script commitsCheck_commits .refl hy
  have hopen : d.restarted = (.ok (), d.restarted.2) := Prod.ext hok rfl
  obtain ⟨u, hu, hut, hrecovers⟩ :=
    crash_recovers_prefix hrun hlive hc hstep (by decide) hopen
  exact ⟨y, _, s, _, u, hrun, hlive, hstep, hopen, hu, hut, hrecovers, hone, hthree⟩

/-- An operation that does not sweep over allocations and is interrupted anywhere in its
writes has happened or has not happened. -/
theorem crash_is_atomic (hrun : System.Run System.Commits y) (hlive : y.live = some s)
    (hop : c.op.Sweeps = false) (hc : y.Commits (.called c))
    (hcrash : System.Step y (.crashed c) y') (hmode : config.persistence.mode ≠ .none)
    (hopen : (({} : Impl).attach y'.disk tick io).openFabric config boot = (.ok (), t)) :
    s.Recovers t ∨ (s.exec c).2.Recovers t := by
  have hs := hrun.saved s hlive
  cases hcrash with
  | @crashed s' _ d hlive' _ hd =>
      obtain rfl := Option.some.inj (hlive.symm.trans hlive')
      have hcontents := Impl.exec_contents hs hop (hc.journals c s rfl hlive)
        (fun q ↦ hc.credits c s q rfl hlive) hd
      rcases hcontents with hcarry | hcarry
      · exact .inl (hcarry.recovers hopen hmode).of_enter
      · exact .inr (hcarry.recovers hopen hmode)

/-- A grant whose record was written has happened, although its answer was never given. -/
theorem crash_is_atomic_small :
    ∃ (y y' : System) (s t : Impl), System.Run System.Commits y ∧ y.live = some s ∧
      System.Step y (.crashed (askUnits 4 5 true)) y' ∧ y'.disk.restarted = (.ok (), t) ∧
      (s.Recovers t ∨ (s.exec (askUnits 4 5 true)).2.Recovers t) ∧
      (t.allocations.lookup ⟨4⟩).map AllocationRecord.state = some .committed := by
  have h : (System.script commitsCheck {} commitScript).any (fun y ↦
      (y.interrupted (askUnits 4 5 true) 0).any fun d ↦ decide (d.restarted.1 = .ok ()) &&
        decide ((d.restarted.2.allocations.lookup ⟨4⟩).map AllocationRecord.state =
          some .committed)) = true := by
    decide +kernel
  obtain ⟨y, hy, h⟩ := (Option.any_eq_true _ _).mp h
  obtain ⟨d, hd, h⟩ := (Option.any_eq_true _ _).mp h
  simp only [Bool.and_eq_true, decide_eq_true_eq] at h
  obtain ⟨hok, hfour⟩ := h
  obtain ⟨s, hlive, hc, hstep⟩ := System.interrupted_step hd
  have hrun : System.Run System.Commits y := .script commitsCheck_commits .refl hy
  have hopen : d.restarted = (.ok (), d.restarted.2) := Prod.ext hok rfl
  exact ⟨y, _, s, _, hrun, hlive, hstep, hopen,
    crash_is_atomic hrun hlive rfl hc hstep (by decide) hopen, hfour⟩

end Crashes

end BufferFabric
