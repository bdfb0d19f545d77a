import BufferFabric.Ancestry
import BufferFabric.Partition

/-!
# The hierarchy of pools across sessions

Over one directory the pools form a forest of bounded depth in every session. The directory holds
the topology that memory has, so that the next session starts with the forest of the last one.
The bounds of the walk that admits a pool and of the walk for a lender agree.
-/

namespace BufferFabric

open Outcome

/-! ### The two walks -/

theorem View.Forest.of_topology {v w : View} (h : v.Forest) (hw : v.SameTopology w) : w.Forest := by
  refine h.congr ?_
  unfold View.up
  rw [hw.pools]

namespace Impl

variable {s : Impl} {p : PoolId} {e : PoolEntry}

/-- The walk over the ancestors of a new pool comes to a root or to the bound. -/
theorem walkAncestry_eq {n fuel : ℕ} (hd : Depth s.view.up p n) (he : s.pools.lookup p = some e) :
    s.walkAncestry fuel e = if n ≤ fuel then .ok ()
      else .error ⟨.poolDepthExceeded, "pool tree is deeper than the bound"⟩ := by
  induction hd generalizing fuel e with
  | @root p h =>
      rw [up_of_lookup he] at h
      split at h
      · cases h
      · rename_i hroot
        unfold walkAncestry
        rw [if_pos hroot, if_pos (Nat.zero_le _)]
  | @child p b n h hb ih =>
      rw [up_of_lookup he] at h
      split at h
      · rename_i hparent
        obtain rfl := Option.some.inj (Option.some.inj h)
        obtain ⟨e', he'⟩ : ∃ e', s.pools.lookup e.descriptor.parent = some e' := by
          apply Option.ne_none_iff_exists'.mp
          intro hnone
          exact hb.ne_none (View.up_eq_none.mpr (by simp [view, hnone]))
        unfold walkAncestry
        rw [if_neg (not_not.mpr hparent)]
        cases fuel with
        | zero => rfl
        | succ fuel =>
            dsimp only
            rw [he']
            dsimp only
            rw [ih he']
            simp only [Nat.succ_le_succ_iff]
      · cases h

/-- Where the pools form a forest, no registration finds a broken ancestry. -/
theorem checkParent_unbroken (hf : s.view.Forest) (d : PoolDescriptor) :
    s.checkParent d ≠ .error ⟨.unknownPool, "pool ancestry is broken"⟩ := by
  unfold checkParent
  split
  · rename_i hvalid
    cases hparent : s.pools.lookup d.parent with
    | none =>
        intro h
        exact absurd (congrArg Status.message (Except.error.inj h)) (by decide)
    | some e =>
        obtain ⟨n, -, hd⟩ := hf d.parent (by rw [up_of_lookup hparent]; exact Option.some_ne_none _)
        intro h
        have hwalk : s.walkAncestry (kMaxPoolDepth - 1) e =
            .error ⟨.unknownPool, "pool ancestry is broken"⟩ := h
        rw [walkAncestry_eq hd hparent] at hwalk
        split at hwalk
        · cases hwalk
        · cases hwalk
  · intro h
    cases h

/-- The lender of a grant is the nearest ancestor in service that has free capacity. -/
theorem computeGrant_lender (hk : s.view.Keyed) (hf : s.view.Forest) {policy : PoolPolicy}
    (he : s.pools.lookup p = some e) (hmode : policy.borrow.mode = .fromAncestorFree) (l : PoolId) :
    NearestAncestor s.view.up s.Lends p l ↔
      (s.computeGrant e policy).lender = l ∧ (s.computeGrant e policy).lenderFree ≠ 0 := by
  obtain ⟨n, -, hd⟩ := hf p (by rw [up_of_lookup he]; exact Option.some_ne_none _)
  rcases hres : s.findLender kMaxPoolDepth e.descriptor.parent with ⟨lender, free⟩
  have hlender : (s.computeGrant e policy).lender = lender := by
    unfold computeGrant
    simp only [hmode, if_true, hres]
  have hfree : (s.computeGrant e policy).lenderFree = free := by
    unfold computeGrant
    simp only [hmode, if_true, hres]
  rw [hlender, hfree]
  rcases findLender_nearest hk hf he hres with ⟨rfl, hnone⟩ | ⟨hnear, e', he', rfl⟩
  · exact ⟨fun hl ↦ absurd hl (hnone l), fun hl ↦ absurd rfl hl.2⟩
  · constructor
    · intro hl
      obtain ⟨e'', he'', -, hne⟩ := hnear.2.1
      obtain rfl := Option.some.inj (he'.symm.trans he'')
      exact ⟨hnear.unique hd hl, hne⟩
    · rintro ⟨rfl, -⟩
      exact hnear

end Impl

/-! ### Runs over one directory -/

/-- Durable sessions in which every append succeeds and which end between two operations. -/
structure System.Reopens (y : System) (ev : Event) : Prop where
  durable : y.Durable ev
  journals : ∀ c s, ev = .called c → y.live = some s → JournalsOk s c
  calls : ∀ c, ev ≠ .crashed c

/-- An instance over the directory `disk` whose pools form a forest. -/
structure Impl.Planted (s : Impl) (disk : Disk) : Prop where
  disk : s.store.disk = disk
  forest : s.view.Forest
  writing : s.Writing
  saved : s.TopologySaved

theorem Impl.Planted.directory {s : Impl} {disk : Disk} (h : s.Planted disk) :
    (disk.view View.blank).Forest := by
  rw [← h.disk]
  exact h.forest.of_topology ⟨h.saved.capacities.symm, h.saved.policies.symm, h.saved.pools.symm⟩

structure System.Planted (y : System) : Prop where
  disk : (y.disk.view View.blank).Forest
  live : ∀ s, y.live = some s → s.Planted y.disk

theorem System.Planted.of_live {y : System} {s : Impl} (hlive : y.live = some s)
    (hs : s.Planted y.disk) : y.Planted := by
  refine ⟨hs.directory, ?_⟩
  intro s' hs'
  obtain rfl := Option.some.inj (hlive.symm.trans hs')
  exact hs

theorem System.Planted.of_stopped {y : System} (hlive : y.live = none)
    (hdisk : (y.disk.view View.blank).Forest) : y.Planted := by
  refine ⟨hdisk, ?_⟩
  intro s hs
  rw [hlive] at hs
  cases hs

theorem System.Step.planted {y y' : System} {ev : Event} (h : System.Step y ev y')
    (hy : y.Planted) (hev : y.Reopens ev) : y'.Planted := by
  cases h with
  | @opened s₀ s config boot tick io hidle h =>
      obtain ⟨hmode, rfl⟩ := hev.durable.fresh rfl hidle
      obtain ⟨hsaved, hw, htop⟩ := Impl.TopologySaved.opened h hmode
      exact .of_live rfl ⟨rfl, hy.disk.of_topology htop, hw, hsaved⟩
  | openFailed hidle h =>
      obtain ⟨hmode, rfl⟩ := hev.durable.fresh rfl hidle
      have htop := Impl.openFabric_keepsTopology h hmode (.inl rfl)
      exact .of_stopped rfl
        (hy.disk.of_topology ⟨htop.capacities.symm, htop.policies.symm, htop.pools.symm⟩)
  | openCrashed hidle h hd =>
      obtain ⟨hmode, rfl⟩ := hev.durable.fresh rfl hidle
      have htop := Impl.openFabric_keepsTopology h hmode (.inr hd)
      exact .of_stopped rfl
        (hy.disk.of_topology ⟨htop.capacities.symm, htop.policies.symm, htop.pools.symm⟩)
  | @called s c hlive hopen =>
      obtain ⟨-, hf, hw, hsaved⟩ := hy.live s hlive
      exact .of_live rfl ⟨rfl, s.exec_forest c hw.1.keyed hf, hw.exec c,
        hsaved.exec hw (hev.journals c s rfl hlive)⟩
  | crashed c => exact absurd rfl (hev.calls c)
  | @closed s hlive =>
      obtain ⟨hdisk, hf, hw, hsaved⟩ := hy.live s hlive
      refine .of_live rfl ?_
      unfold Impl.closeFabric
      split
      · exact ⟨hdisk, hf, hw, hsaved⟩
      · exact ⟨hdisk, hf, hw, hsaved⟩
  | stopped => exact .of_stopped rfl hy.disk
  | @rehashed s s' hlive hr =>
      obtain ⟨hdisk, hf, hw, hsaved⟩ := hy.live s hlive
      have hview : s'.view = s.view := hr.view_eq
      have hstore : s'.store = s.store := by
        cases hr
        rfl
      refine .of_live rfl ⟨by rw [hstore, hdisk], by rw [hview]; exact hf, hw.rehash hr, ?_⟩
      unfold Impl.TopologySaved
      rw [hstore, hview]
      exact hsaved

theorem System.Run.planted {y : System} (h : System.Run System.Reopens y) : y.Planted := by
  refine h.invariant (I := System.Planted) (fun _ _ _ hy hev hs ↦ hs.planted hy hev) ?_
  refine .of_stopped rfl fun p hp ↦ absurd ?_ hp
  rw [View.up_eq_none]
  rfl

/-- The pools form a forest of bounded depth: the parent of a pool is registered, no pool is above
itself, and the pools above a pool are at most as many as the bound says. So the walk over the
ancestors of a new pool reports no broken ancestry, and the walk for a lender sees them all. -/
theorem pools_form_forest {y : System} {s : Impl} (hrun : System.Run System.Reopens y)
    (hlive : y.live = some s) :
    (∀ p e, s.pools.lookup p = some e → e.descriptor.parent.Valid →
      ∃ e', s.pools.lookup e.descriptor.parent = some e') ∧
    (∀ p, ¬s.view.Above p p) ∧
    (∀ p, ∃ above : List PoolId, above.Nodup ∧ above.length ≤ kMaxPoolDepth ∧
      ∀ a, s.view.Above a p ↔ a ∈ above) ∧
    (∀ p e, s.pools.lookup p = some e → s.walkAncestry (kMaxPoolDepth - 1) e = .ok () ∨
      s.walkAncestry (kMaxPoolDepth - 1) e =
        .error ⟨.poolDepthExceeded, "pool tree is deeper than the bound"⟩) ∧
    (∀ d, s.checkParent d ≠ .error ⟨.unknownPool, "pool ancestry is broken"⟩) ∧
    ∀ p e policy l, s.pools.lookup p = some e → policy.borrow.mode = .fromAncestorFree →
      (NearestAncestor s.view.up s.Lends p l ↔
        (s.computeGrant e policy).lender = l ∧ (s.computeGrant e policy).lenderFree ≠ 0) := by
  obtain ⟨-, hf, hw, -⟩ := hrun.planted.live s hlive
  have hdepth : ∀ p e, s.pools.lookup p = some e →
      ∃ n, n ≤ kMaxPoolDepth ∧ Depth s.view.up p n := by
    intro p e he
    exact hf p (by rw [Impl.up_of_lookup he]; exact Option.some_ne_none _)
  have hbelow : ∀ a p, s.view.Above a p → ∃ e, s.pools.lookup p = some e := by
    intro a p ha
    obtain ⟨q, -, hq⟩ := (Relation.TransGen.tail'_iff.mp (View.above_iff.mp ha))
    apply Option.ne_none_iff_exists'.mp
    intro hnone
    have hup : s.view.up p = none := View.up_eq_none.mpr (by simp [Impl.view, hnone])
    rw [ParentOf, hup] at hq
    cases hq
  refine ⟨?_, ?_, ?_, ?_, Impl.checkParent_unbroken hf, ?_⟩
  · intro p e he hvalid
    obtain ⟨n, -, hd⟩ := hdepth p e he
    cases hd with
    | root h =>
        rw [Impl.up_of_lookup he, if_pos hvalid] at h
        cases h
    | child h hb =>
        rw [Impl.up_of_lookup he, if_pos hvalid] at h
        obtain rfl := Option.some.inj (Option.some.inj h)
        apply Option.ne_none_iff_exists'.mp
        intro hnone
        exact hb.ne_none (View.up_eq_none.mpr (by simp [Impl.view, hnone]))
  · intro p habove
    obtain ⟨e, he⟩ := hbelow p p habove
    obtain ⟨n, -, hd⟩ := hdepth p e he
    exact hd.not_ancestor_self (View.above_iff.mp habove)
  · intro p
    cases hp : s.pools.lookup p with
    | none =>
        refine ⟨[], List.nodup_nil, Nat.zero_le _, fun a ↦ ⟨fun ha ↦ ?_, fun ha ↦ ?_⟩⟩
        · obtain ⟨e, he⟩ := hbelow a p ha
          cases hp.symm.trans he
        · cases ha
    | some e =>
        obtain ⟨n, hn, hd⟩ := hdepth p e hp
        obtain ⟨above, hnodup, hlength, habove⟩ := hd.ancestors
        refine ⟨above, hnodup, hlength ▸ hn, fun a ↦ ?_⟩
        rw [View.above_iff, habove]
  · intro p e he
    obtain ⟨n, -, hd⟩ := hdepth p e he
    rw [Impl.walkAncestry_eq hd he]
    split
    · exact .inl rfl
    · exact .inr rfl
  · intro p e policy l he hmode
    exact Impl.computeGrant_lender hw.1.keyed hf he hmode l

def familySetup : List Call :=
  smallSetup ++
    [{ op := .registerPool
        { name := [98], resource := ⟨1⟩, backend := ⟨1⟩, rawUnits := 100, policy := ⟨1⟩
          parent := ⟨1⟩ } }]

def familyScript : List Command :=
  [.start smallConfig] ++ familySetup.map .call ++ [.stop, .start smallConfig]

theorem journalsCheck_reopens (y : System) (k : Command) (h : journalsCheck y k = true) :
    y.Reopens k.event := by
  obtain ⟨hdurable, hok⟩ := journalsCheck_spec h
  refine ⟨hdurable, hok, ?_⟩
  intro c hc
  cases k <;> cases hc

theorem pools_form_forest_reopened :
    ∃ (y : System) (s : Impl), System.Run System.Reopens y ∧ y.live = some s ∧
      (s.pools.lookup ⟨2⟩).isSome = true ∧ ¬s.view.Above ⟨2⟩ ⟨2⟩ := by
  have h : (System.script journalsCheck {} familyScript).any (fun y ↦ y.live.any fun s ↦
      (s.pools.lookup ⟨2⟩).isSome) = true := by
    decide +kernel
  obtain ⟨y, hy, h⟩ := (Option.any_eq_true _ _).mp h
  obtain ⟨s, hs, hsome⟩ := (Option.any_eq_true _ _).mp h
  have hrun : System.Run System.Reopens y := System.Run.script journalsCheck_reopens .refl hy
  exact ⟨y, s, hrun, hs, hsome, (pools_form_forest hrun hs).2.1 ⟨2⟩⟩

end BufferFabric
