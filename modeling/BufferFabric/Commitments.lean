import BufferFabric.Epochs
import BufferFabric.Exhaustion
import BufferFabric.Retries

/-!
# Commitments across restarts

While every append succeeds and every grant that was journaled is also credited, a directory
holds the topology of the instance that writes it, and the records of its allocations, except
that a reservation an earlier recovery has expired is still reserved there. What a new
instance recovers is then what was in memory at the stop, with the reservations expired.
-/

namespace BufferFabric

open Outcome Replay

/-! ### Grants that are credited -/

namespace Impl

variable {s : Impl} {q : AllocateRequest}

/-- The units of the grant that is planned can be credited to its pool and to its lender. -/
def Credits (s : Impl) (q : AllocateRequest) : Prop :=
  ∀ entry r, s.pools.lookup q.pool = some entry → s.plannedGrant q = some r →
    (s.applyCommitUnits q.pool entry r.units r.borrowUnits r.lender).1 = .ok ()

/-- Whether a lender can be credited is read off its pool. -/
theorem creditLender_isOk {s t : Impl} (h : t.pools = s.pools) (units : UInt64)
    (lender : PoolId) : (∃ u, s.creditLender units lender = .ok u) →
      ∃ u, t.creditLender units lender = .ok u := by
  rintro ⟨u, hu⟩
  unfold creditLender at hu ⊢
  split
  · exact ⟨t, rfl⟩
  rename_i hz
  rw [if_neg hz] at hu
  simp only [seq_ok, require_eq_ok, demand_eq_ok, exists_const, pure_ok] at hu ⊢
  obtain ⟨hv, entry, hl, hlent, hown, hroom, -⟩ := hu
  rw [h]
  exact ⟨_, hv, entry, hl, hlent, hown, hroom, rfl⟩

/-- Crediting units does not look at the store. -/
theorem applyCommitUnits_store (store : DurableStore) {key : PoolId} {entry : PoolEntry}
    {units borrowUnits : UInt64} {lender : PoolId}
    (h : (s.applyCommitUnits key entry units borrowUnits lender).1 = .ok ()) :
    (({ s with store := store } : Impl).applyCommitUnits key entry units borrowUnits lender).1 =
      .ok () := by
  unfold applyCommitUnits at h ⊢
  split
  · rename_i hlt
    rw [if_pos hlt] at h
    cases h
  rename_i hlt
  rw [if_neg hlt] at h
  split
  · rename_i hover
    rw [if_pos hover] at h
    cases h
  rename_i hover
  rw [if_neg hover] at h
  split
  · rename_i hover
    rw [if_pos hover] at h
    cases h
  rename_i hover
  rw [if_neg hover] at h
  dsimp only at h ⊢
  have hcredit : ∃ u, (s.putPool key { entry with
      ownUsage := entry.ownUsage + (units - borrowUnits)
      borrowedIn := entry.borrowedIn + borrowUnits }).creditLender borrowUnits lender = .ok u := by
    split at h
    · cases h
    · exact ⟨_, ‹_›⟩
  have hsame : (({ s with store := store } : Impl).putPool key { entry with
      ownUsage := entry.ownUsage + (units - borrowUnits)
      borrowedIn := entry.borrowedIn + borrowUnits }).pools = (s.putPool key { entry with
        ownUsage := entry.ownUsage + (units - borrowUnits)
        borrowedIn := entry.borrowedIn + borrowUnits }).pools := rfl
  obtain ⟨u, hu⟩ := creditLender_isOk hsame borrowUnits lender hcredit
  rw [hu]

theorem plannedGrant_eq {entry : PoolEntry} {queue : QueueDescriptor} {policy : PoolPolicy}
    {u : Unit} {g : Grant} {r : AllocationRecord}
    (hadm : s.admitAllocate q = .ok (none, entry, queue, policy))
    (hassert : s.assertAllocate q entry queue policy = .ok u)
    (hgrant : s.decideGrant q entry queue policy (s.resolveEvidence entry) = .inr g)
    (hplan : s.planRecord q entry queue policy g = .ok r) : s.plannedGrant q = some r := by
  unfold plannedGrant
  rw [hadm]
  dsimp only
  rw [hassert]
  dsimp only
  rw [hgrant]
  dsimp only
  rw [hplan]

def Credited (a : Label × Bool) : Prop := a.1 ≠ .brokenGrant

/-- What other requests than allocations do is credited. -/
theorem credited_of_trace (s₀ : Impl) {t : Impl} {op : Op} (hop : ∀ q, op ≠ .allocate q)
    (h : op.Trace s₀ s t) : StepPath Move (fun _ a ↦ Credited a) s t := by
  refine h.mono fun u a ha heq ↦ ?_
  unfold Op.Allows at ha
  rw [heq] at ha
  obtain ⟨q, hq⟩ := ha
  exact hop q hq

theorem applyGrant_credited {entry : PoolEntry} {policy : PoolPolicy} {g : Grant}
    {r : AllocationRecord} (queue : QueueDescriptor) (evidence : PressureEvidence)
    (hfits : GrantFits s q.pool entry policy r) (hunits : r.units = g.units)
    (hborrow : r.borrowUnits = g.borrow)
    (hcredit : (s.applyCommitUnits q.pool entry r.units r.borrowUnits r.lender).1 = .ok ()) :
    StepPath Move (fun _ a ↦ Credited a) s
      (s.applyGrant q entry queue policy evidence g r).2 := by
  have hend := applyGrant_cases queue evidence hfits hunits hborrow
  have hcommit : ∀ q', Op.commit default ≠ .allocate q' := by
    rintro q' ⟨⟩
  generalize s.applyGrant q entry queue policy evidence g r = result at hend ⊢
  cases hend with
  | lost hj =>
      refine .single (a := (.refused true, false)) ?_
        (.refused hj ⟨.inl hfits.epoch, .granted hfits⟩ Bool.noConfusion)
      rintro ⟨⟩
  | @broken u e t pools hj hfail hshapes =>
      have hok := applyCommitUnits_store t.store hcredit
      rw [hfail] at hok
      cases hok
  | @unclosed u e t pools hj hpools hclosure =>
      have hmove := Move.of_first (.grant q.pool entry policy r pools hfits hpools) hj
      have hflags : ∀ m : Impl, (Op.commit default).Trace m m { m with shuttingDown := true } :=
        fun _ ↦ flags_trace true
      refine (StepPath.single (a := (.grant r, true)) ?_ hmove).trans
        (credited_of_trace _ hcommit (hflags _))
      rintro ⟨⟩
  | @done u v t m pools d target hj hpools hclosure hfinish =>
      have hmove := Move.of_first (.grant q.pool entry policy r pools hfits hpools) hj
      have hl' := granted_lookup hfits hpools
      have hm := congrArg Prod.snd hfinish
      dsimp only at hm ⊢
      rw [← hm]
      refine (StepPath.single (a := (.grant r, true)) ?_ hmove).trans
        (credited_of_trace s hcommit
          (finish_trace _ _ rfl hl' fun _ ↦ .inr (.inl ⟨default, rfl⟩)))
      rintro ⟨⟩

theorem allocateLocked_credited (h : s.Credits q) :
    StepPath Move (fun _ a ↦ Credited a) s (s.allocateLocked q).2 := by
  have hbranch := s.allocateLocked_cases q
  generalize s.allocateLocked q = result at hbranch ⊢
  cases hbranch with
  | rejected | replayed | barred | unplanned => exact .refl
  | declined hadm hassert hrefuse hfinish =>
      obtain ⟨-, -, -, hl, -⟩ := admitAllocate_ok hadm
      have ht := congrArg Prod.snd hfinish
      dsimp only at ht ⊢
      rw [← ht]
      have hcommit : ∀ q', Op.commit default ≠ .allocate q' := by
        rintro q' ⟨⟩
      exact credited_of_trace s hcommit
        (finish_trace _ _ rfl hl fun _ ↦ .inr (.inl ⟨default, rfl⟩))
  | planned hadm hassert hgrant hplan hresult =>
      obtain ⟨hfits, hunits, hborrow⟩ := grantFits hadm hassert hgrant hplan
      rw [← hresult]
      exact applyGrant_credited _ _ hfits hunits hborrow
        (h _ _ hfits.pool_lookup (plannedGrant_eq hadm hassert hgrant hplan))

/-- When every append of a call succeeds and its grant is credited, every move of the call is
journaled, and nothing is journaled that memory does not hold. -/
theorem exec_credited {c : Call} (hc : JournalsOk s c)
    (hcredit : ∀ q, c.op = .allocate q → (s.enter c).Credits q) :
    StepPath Move (fun _ a ↦ Journaled a ∧ Credited a) (s.enter c) (s.exec c).2 := by
  by_cases hop : ∃ q, c.op = .allocate q
  · obtain ⟨q, hop⟩ := hop
    have hexec : (s.exec c).2 = ((s.enter c).allocateLocked q).2 := by
      unfold exec run
      rw [hop]
      rfl
    have hok : AppendsOk s c := hc.appendsOk (by rw [hop]; rintro ⟨⟩)
    have hpath := allocateLocked_credited (hcredit q hop)
    rw [← hexec] at hpath
    refine (hpath.quiet (c := fun t : Impl ↦ t.store.failures) (fun _ _ _ hm ↦ hm.failures_le)
      (fun _ _ _ hm heq ↦ hm.flag_of_failures heq) hok).mono fun _ _ ha ↦ ⟨.inl ha.2, ha.1⟩
  · refine (exec_journaled hc).mono fun t a ha ↦ ⟨ha.2, fun heq ↦ hop ?_⟩
    have hallow := ha.1
    unfold Op.Allows at hallow
    rw [heq] at hallow
    exact hallow

end Impl

/-! ### Allocations on disk -/

/-- What the directory has under an id stands for what memory has: it is the same, or a
reservation that is over in memory. -/
def StandsFor (x y : Option AllocationRecord) : Prop :=
  x = y ∨ ∃ r r', x = some r ∧ y = some r' ∧ r.state = .reserved ∧ r'.state.holdsUnits = false

theorem StandsFor.refl (x : Option AllocationRecord) : StandsFor x x := .inl rfl

theorem StandsFor.trans {x y z : Option AllocationRecord} (h : StandsFor x y)
    (h' : StandsFor y z) : StandsFor x z := by
  rcases h with rfl | ⟨r, r', rfl, rfl, hr, hr'⟩
  · exact h'
  · rcases h' with rfl | ⟨r₁, r₂, heq, -, hr₁, -⟩
    · exact .inr ⟨r, r', rfl, rfl, hr, hr'⟩
    · obtain rfl := Option.some.inj heq
      rw [hr₁] at hr'
      cases hr'

/-- Recovery lets a reservation expire, and nothing else. -/
theorem StandsFor.expired (tick : Tick) (x : Option AllocationRecord) :
    StandsFor x (x.map (Impl.expireReserved tick)) := by
  cases x with
  | none => exact .refl none
  | some r =>
      rw [Option.map_some, Impl.expireReserved]
      split
      · rename_i hr
        exact .inr ⟨r, _, rfl, rfl, hr, rfl⟩
      · exact .refl _

/-- The directory carries the commitments of an instance: its topology and its records. -/
structure Disk.Carries (d : Disk) (s : Impl) : Prop where
  topology : (d.view View.blank).SameTopology s.view
  records : ∀ k, StandsFor ((d.view View.blank).allocations k) (s.allocations.lookup k)

namespace Impl

variable {s t : Impl}

def RecordsSaved (s : Impl) : Prop := ∀ k, (Point.allocation k).Mirrored StandsFor s

/-- A recovery keeps the records it finds. -/
theorem RecordsSaved.opened {disk : Disk} {tick : Tick} {io : List Io} {config : FabricConfig}
    {boot : BootInputs}
    (h : (({} : Impl).attach disk tick io).openFabric config boot = (.ok (), t))
    (hmode : config.persistence.mode ≠ .none) : t.RecordsSaved := by
  obtain ⟨m, hview, hdisk, hw, hj⟩ := openFabric_loaded h hmode View.blank_indexed
  intro k
  refine Point.Mirrored.beginEpoch hw (Point.allocation_overwrites k) (Point.allocation_loads k)
    StandsFor.refl (fun _ _ _ ↦ StandsFor.trans) hj ?_
  unfold Point.Mirrored
  rw [hview, hdisk]
  exact StandsFor.expired tick _

/-! ### The journal is acceptable -/

def Replayable (s : Impl) : Prop := ∀ r ∈ s.store.disk.journal, r.Acceptable

end Impl

theorem Move.replayable {s t : Impl} {a : Label × Bool} (h : Move s a t) (ha : Journaled a)
    (hmode : s.store.config.mode ≠ .none) (hv : s.view.Valid) (hs : s.Replayable) :
    t.Replayable := by
  cases h with
  | volatile h =>
      unfold Impl.Replayable
      rw [h.frame.1]
      exact hs
  | @written l record m j u h hstore hview hj =>
      rw [← hstore] at hmode
      have hrecord := h.acceptable hv
      intro r hr
      have hr : r ∈ u.store.disk.journal := hr
      rcases Impl.journal_disk hj hmode with hd | hd
      · rw [hd, hstore] at hr
        rcases List.mem_append.mp hr with hr | hr
        · exact hs r hr
        · rw [List.mem_singleton.mp hr]
          exact hrecord
      · rw [hd] at hr
        rw [List.mem_singleton.mp hr]
        exact hrecord
  | unlogged h => exact ha.elim nofun fun hl ↦ by cases hl; cases h
  | refused hj => exact ha.elim nofun nofun
  | lostRelease hsh hj => exact ha.elim nofun nofun
  | snapshot h =>
      obtain ⟨-, hd⟩ := Impl.writeFullSnapshot_disk h
      intro r hr
      rcases hd.journal with heq | heq
      · rw [heq] at hr
        exact hs r hr
      · rw [heq] at hr
        cases hr

/-! ### Sessions -/

structure Impl.Saved (s : Impl) : Prop where
  writing : s.Writing
  valid : s.view.Valid
  topology : s.TopologySaved
  records : s.RecordsSaved
  replayable : s.Replayable

namespace Impl.Saved

variable {s t : Impl}

theorem congr (h : s.Saved) (hview : t.view = s.view) (hdisk : t.store.disk = s.store.disk)
    (hmode : t.store.config.mode = s.store.config.mode) : t.Saved := by
  obtain ⟨⟨hi, hm⟩, hv, ht, hr, hj⟩ := h
  refine ⟨⟨?_, ?_⟩, ?_, ?_, ?_, ?_⟩
  · rw [hview]
    exact hi
  · rw [hmode]
    exact hm
  · rw [hview]
    exact hv
  · unfold Impl.TopologySaved
    rw [hdisk, hview]
    exact ht
  · intro k
    unfold Point.Mirrored
    rw [hdisk, hview]
    exact hr k
  · unfold Impl.Replayable
    rw [hdisk]
    exact hj

/-- What one move of a call keeps. -/
theorem move {a : Label × Bool} (h : s.Saved) (hm : Move s a t) (ha : Journaled a ∧ Credited a) :
    t.Saved := by
  have hk := h.writing.1.keyed
  have hpath : StepPath Move (fun _ a ↦ Journaled a ∧ Credited a) s t := .single ha hm
  refine ⟨hm.writing h.writing, hm.keeps_view (fun _ _ hch ↦ hch.valid hk h.valid) h.valid,
    h.topology.run hpath h.writing fun _ _ ha ↦ ha.1, fun k ↦ ?_,
    hm.replayable ha.1 h.writing.2 h.valid h.replayable⟩
  exact hm.mirrored (Point.allocation_overwrites k) (Point.allocation_loads k) StandsFor.refl
    (fun _ _ _ ↦ StandsFor.trans) ha.1 h.writing.2 h.writing.1
    (fun _ _ hch ↦ (Point.allocation_follows k hch hk ha.2).related StandsFor.refl) (h.records k)

theorem enter (h : s.Saved) (c : Call) : (s.enter c).Saved :=
  h.congr rfl rfl rfl

theorem exec (h : s.Saved) {c : Call} (hc : JournalsOk s c)
    (hcredit : ∀ q, c.op = .allocate q → (s.enter c).Credits q) : (s.exec c).2.Saved := by
  refine (exec_credited hc hcredit).invariant (I := Impl.Saved) ?_ (h.enter c)
  exact fun _ _ _ hu ha hm ↦ hu.move hm ha

theorem opened {disk : Disk} {tick : Tick} {io : List Io} {config : FabricConfig}
    {boot : BootInputs}
    (h : (({} : Impl).attach disk tick io).openFabric config boot = (.ok (), t))
    (hmode : config.persistence.mode ≠ .none) : t.Saved := by
  obtain ⟨htopology, hw, -⟩ := TopologySaved.opened h hmode
  have hloaded : t.view.Valid ∧ t.Replayable := by
    rcases openFabric_begun h hmode with ⟨⟨e, he⟩, -⟩ | ⟨m, t', res, hl, -, hj, -, -, hok⟩
    · cases he
    obtain ⟨rfl, rfl⟩ := hok rfl
    obtain ⟨hsnap, hjournal, hview, hdisk, hconfig, -⟩ := loadFromStore_view hl
    have hvalid : m.view.Valid := by
      rw [hview]
      exact (View.blank_valid.disk hsnap hjournal).settled _
    have hm : (m.begun boot m.epoch).store.config.mode ≠ .none := by
      change m.store.config.mode ≠ .none
      rw [hconfig]
      exact hmode
    refine ⟨?_, ?_⟩
    · rw [eq_of_journal hj]
      exact hvalid
    · intro r hr
      rcases journal_disk hj hm with hd | hd
      · rw [hd] at hr
        rcases List.mem_append.mp hr with hr | hr
        · change r ∈ m.store.disk.journal at hr
          rw [hdisk] at hr
          exact hjournal r hr
        · rw [List.mem_singleton.mp hr]
          trivial
      · rw [hd] at hr
        rw [List.mem_singleton.mp hr]
        trivial
  exact ⟨hw, hloaded.1, htopology, .opened h hmode, hloaded.2⟩

end Impl.Saved

/-- Every session is durable and on a new instance, every append of a call succeeds, and the
grant of a call is credited. Crashes may happen at any point. -/
structure System.Commits (y : System) (ev : Event) : Prop where
  durable : y.Durable ev
  journals : ∀ c s, ev = .called c → y.live = some s → JournalsOk s c
  credits : ∀ c s q, ev = .called c → y.live = some s → c.op = .allocate q → (s.enter c).Credits q

def System.Saved (y : System) : Prop := ∀ s, y.live = some s → s.Saved

theorem System.Step.saved {y y' : System} {ev : Event} (h : System.Step y ev y')
    (hev : y.Commits ev) (hy : y.Saved) : y'.Saved := by
  intro s hs
  cases h with
  | opened hidle heq =>
      obtain ⟨hmode, rfl⟩ := hev.durable.fresh rfl hidle
      obtain rfl := Option.some.inj hs
      exact .opened heq hmode
  | openFailed | openCrashed | crashed | stopped => cases hs
  | @called s₀ c hlive hopen =>
      obtain rfl := Option.some.inj hs
      exact (hy s₀ hlive).exec (hev.journals c s₀ rfl hlive) fun q ↦ hev.credits c s₀ q rfl hlive
  | @closed s₀ hlive =>
      obtain rfl := Option.some.inj hs
      have h₀ := hy s₀ hlive
      unfold Impl.closeFabric
      split
      · exact h₀.congr rfl rfl rfl
      · exact h₀
  | @rehashed s₀ s₁ hlive hr =>
      obtain rfl := Option.some.inj hs
      have hview := hr.view_eq
      refine (hy s₀ hlive).congr hview ?_ ?_
      · cases hr
        rfl
      · cases hr
        rfl

theorem System.Run.saved {y : System} (h : System.Run System.Commits y) : y.Saved := by
  have hstep : ∀ (y : System) (ev : Event) (y' : System), y.Saved → y.Commits ev →
      System.Step y ev y' → y'.Saved := fun _ _ _ hy hev hstep ↦ hstep.saved hev hy
  exact h.invariant hstep (by rintro s ⟨⟩)

/-- In every durable run the directory is in the epoch of the instance that has it open. -/
theorem System.Run.current {y : System} (h : System.Run System.Durable y) : y.Current :=
  h.invariant (fun _ _ _ hy hev hstep ↦ (hstep.current hy hev).1) System.current_empty

/-! ### Directories that load -/

/-- The files are within the bounds of the configuration, and the sections of the snapshot
within those of the loader. -/
structure Disk.Admitted (d : Disk) (config : PersistenceConfig) : Prop where
  snapshot : ∀ i, d.snapshot = some i →
    i.fileBytes ≤ config.maxSnapshotBytes.toNat ∧ i.Loadable
  journal : d.journalSize ≤ config.maxJournalBytes.toNat

theorem checkFiles_ok {st : DurableStore} {u : Unit} : Impl.checkFiles st = .ok u ↔
    st.configured = true ∧
      (∀ i, st.disk.snapshot = some i → i.fileBytes ≤ st.config.maxSnapshotBytes.toNat) ∧
      st.disk.journalSize ≤ st.config.maxJournalBytes.toNat := by
  unfold Impl.checkFiles
  simp only [seq_ok, require_eq_ok, exists_const, Option.all_eq_true, decide_eq_true_eq]

/-- Loading counts no failed write. -/
theorem Impl.loadFromStore_failures {s t : Impl} {u : Unit} (h : s.loadFromStore = (.ok u, t)) :
    t.store.failures = s.store.failures := by
  obtain ⟨-, m, n, hsnap, hreplay, rfl⟩ := loadFromStore_ok h
  obtain ⟨-, -, hstore, -⟩ := loadSnapshot_ok hsnap
  obtain ⟨-, -, hstore', -⟩ := replay_ok hreplay
  have hn : n.recoveredFrom.settleRecovered.store.failures = n.store.failures := rfl
  exact hn.trans (congrArg DurableStore.failures (hstore'.trans hstore))

section Reopening

variable {t : Impl} {disk : Disk} {tick : Tick} {io : List Io} {config : FabricConfig}
  {boot : Impl.BootInputs} {r : Except Status Unit} {n : ℕ}

/-- An open that succeeds was admitted, and there was an epoch left to begin. -/
theorem Impl.openFabric_admitted
    (h : (({} : Impl).attach disk tick io).openFabric config boot = (.ok (), t))
    (hmode : config.persistence.mode ≠ .none) (hn : disk.InEpoch n) :
    disk.Admitted config.persistence ∧ n + 1 < 18446744073709551616 := by
  rcases openFabric_begun h hmode with ⟨⟨e, he⟩, -⟩ | ⟨m, t', res, hl, hroom, -⟩
  · cases he
  obtain ⟨hcheck, -⟩ := loadFromStore_ok hl
  obtain ⟨-, hsize, hjournal⟩ := checkFiles_ok.mp hcheck
  obtain ⟨hsnap, -⟩ := loadFromStore_view hl
  have hepoch : m.epoch = disk.epoch := by
    have hdated := Dated.loadFromStore (s := { (({} : Impl).attach disk tick io) with
      config := config
      store := { (({} : Impl).attach disk tick io).store with
        config := config.persistence, configured := true } })
      ((empty_dated n).congr rfl rfl) rfl hn.dated hl
    exact hdated.2
  refine ⟨⟨fun i hi ↦ ⟨hsize i hi, hsnap i hi⟩, hjournal⟩, ?_⟩
  rw [addOverflow_iff, hepoch, hn.epoch_eq] at hroom
  exact Nat.not_le.mp hroom

/-- The part of `open` that follows a load, if no write of it fails. -/
theorem Impl.openFabric_of_loaded {s m : Impl} (h : s.openFabric config boot = (r, t))
    (hclosed : s.isOpen = false) (hcheck : config.check = .ok ())
    (hmode : config.persistence.mode ≠ .none) (hvalid : config.persistence.validate = .ok ())
    (hl : ({ s with
      config := config
      store := { s.store with
        config := config.persistence, configured := true } } : Impl).loadFromStore = (.ok (), m))
    (hroom : m.epoch.raw.toNat + 1 < 18446744073709551616)
    (hwrites : t.store.failures = m.store.failures) : r = .ok () := by
  have hdurable : { s with config := config }.openDurable config = (.ok m.epoch, m) := by
    unfold openDurable DurableStore.configure
    rw [if_neg hmode, hvalid]
    dsimp only
    rw [hl]
  have hraw : (m.epoch.raw + 1).toNat = m.epoch.raw.toNat + 1 := by
    refine toNat_add_of_not_overflow fun hover ↦ ?_
    rw [addOverflow_iff] at hover
    exact Nat.not_le.mpr hroom hover
  have hnext : ¬(AddOverflow m.epoch.raw 1 ∨ m.epoch.raw + 1 = 0) := by
    rintro (hover | hzero)
    · rw [addOverflow_iff] at hover
      exact Nat.not_le.mpr hroom hover
    · rw [hzero] at hraw
      cases hraw
  have hstart : (do
      require (s.isOpen = false) ⟨.lifecycleViolation, "fabric is already open"⟩
      FabricConfig.check config : Except Status Unit) = .ok () := by
    simp only [seq_ok, require_eq_ok, exists_const]
    exact ⟨hclosed, hcheck⟩
  unfold openFabric at h
  rw [hstart] at h
  dsimp only at h
  rw [hdurable] at h
  dsimp only at h
  unfold beginEpoch at h
  rw [if_neg hnext] at h
  dsimp only at h
  rw [if_neg hmode] at h
  split at h
  · rename_i e t' hj
    obtain ⟨-, rfl⟩ := Prod.mk.inj h
    have hfail := journal_failures_eq hj
    rw [if_neg (by rintro ⟨⟩)] at hfail
    have hfail : t'.store.failures = m.store.failures + 1 := hfail
    have hwrites : t'.store.failures = m.store.failures := hwrites
    omega
  · exact (Prod.mk.inj h).1.symm

/-- An open of an admitted directory succeeds, if its own writes do. -/
theorem Impl.openFabric_succeeds
    (h : (({} : Impl).attach disk tick io).openFabric config boot = (r, t))
    (hmode : config.persistence.mode ≠ .none) (hcheck : config.check = .ok ())
    (hvalid : config.persistence.validate = .ok ()) (hn : disk.InEpoch n)
    (hroom : n + 1 < 18446744073709551616) (hd : disk.Admitted config.persistence)
    (hjournal : ∀ record ∈ disk.journal, record.Acceptable) (hwrites : t.store.failures = 0) :
    r = .ok () := by
  let s : Impl := { (({} : Impl).attach disk tick io) with
    config := config
    store := { (({} : Impl).attach disk tick io).store with
      config := config.persistence, configured := true } }
  have hfiles : checkFiles s.store = .ok () :=
    checkFiles_ok.mpr ⟨rfl, fun i hi ↦ (hd.snapshot i hi).1, hd.journal⟩
  obtain ⟨m, hl⟩ := loadFromStore_of_ok (s := s) hfiles (fun i hi ↦ (hd.snapshot i hi).2) hjournal
  have hepoch : m.epoch = disk.epoch :=
    (Dated.loadFromStore (n := n) (s := s) ((empty_dated n).congr rfl rfl) rfl hn.dated hl).2
  refine openFabric_of_loaded h rfl hcheck hmode hvalid hl ?_ ?_
  · rw [hepoch, hn.epoch_eq]
    exact hroom
  · rw [loadFromStore_failures hl]
    exact hwrites

end Reopening

/-! ### What is recovered -/

/-- What a recovered instance has of what was in memory: the topology, every committed
allocation as it was, every reservation as an expired one that is reported once, and no other
allocation with units. -/
structure Impl.Recovers (s t : Impl) : Prop where
  capacities : ∀ k, t.capacities.lookup k = s.capacities.lookup k
  policies : ∀ k, t.policies.lookup k = s.policies.lookup k
  pools : ∀ k, (t.pools.lookup k).map PoolEntry.shape = (s.pools.lookup k).map PoolEntry.shape
  committed : ∀ k r, s.allocations.lookup k = some r → r.state = .committed →
    t.allocations.lookup k = some r
  reserved : ∀ k r, s.allocations.lookup k = some r → r.state = .reserved →
    (∃ r', t.allocations.lookup k = some r' ∧ r'.state = .expired ∧ r'.units = r.units) ∧
      t.recovery.unfinishedAttempts.filter (fun a ↦ decide (a.allocation = k)) =
        [Impl.unfinishedOf r]
  others : ∀ k r', t.allocations.lookup k = some r' → r'.state.holdsUnits = true →
    ∃ r, s.allocations.lookup k = some r ∧ r.state = .committed

theorem StandsFor.of_holds {x y : Option AllocationRecord} (h : StandsFor x y)
    {r : AllocationRecord} (hy : y = some r) (hholds : r.state.holdsUnits = true) : x = some r := by
  rcases h with rfl | ⟨r₁, r₂, -, heq, -, hr₂⟩
  · exact hy
  · rw [hy] at heq
    rw [Option.some.inj heq, hr₂] at hholds
    cases hholds

/-- A recovered record that holds units was committed, on disk and in memory. -/
theorem StandsFor.holds_expired {x y : Option AllocationRecord} (h : StandsFor x y) {tick : Tick}
    {r' : AllocationRecord} (hx : x.map (Impl.expireReserved tick) = some r')
    (hholds : r'.state.holdsUnits = true) : y = some r' ∧ r'.state = .committed := by
  obtain ⟨r, rfl, rfl⟩ := Option.map_eq_some_iff.mp hx
  have hstate : r.state ≠ .reserved := by
    intro hr
    rw [Impl.expireReserved, if_pos hr] at hholds
    cases hholds
  rw [Impl.expireReserved, if_neg hstate] at hholds ⊢
  constructor
  · rcases h with rfl | ⟨r₁, r₂, heq, -, hr₁, -⟩
    · rfl
    · rw [Option.some.inj heq] at hstate
      exact absurd hr₁ hstate
  · revert hholds hstate
    cases r.state <;> simp [AllocationState.holdsUnits]

/-- A reservation is reported exactly once. -/
theorem Impl.unfinished_filter {n : Impl} (hk : n.view.Keyed) {k : AllocationId}
    {r : AllocationRecord} (hr : n.allocations.lookup k = some r) (hs : r.state = .reserved) :
    (((n.allocations.toList.map Prod.snd).filter fun r ↦ decide (r.state = .reserved)).map
      unfinishedOf).filter (fun a ↦ decide (a.allocation = k)) = [unfinishedOf r] := by
  rw [List.filter_map, List.filter_filter, Table.filter_values_eq hr]
  · rfl
  · intro k' r' hr'
    have hid : r'.id = k' := hk.allocations k' r' hr'
    rw [Function.comp_apply, Bool.and_eq_true, decide_eq_true_eq, decide_eq_true_eq]
    change r'.id = k ∧ _ ↔ _
    rw [hid]
    constructor
    · exact And.left
    · rintro rfl
      obtain rfl := Option.some.inj (hr.symm.trans hr')
      exact ⟨rfl, hs⟩

def Impl.configured (s : Impl) (config : FabricConfig) : Impl :=
  { s with
    config := config
    store := { s.store with config := config.persistence, configured := true } }

/-- What is loaded from a directory is what the directory carries. -/
theorem Disk.Carries.loaded {d : Disk} {s m : Impl} (h : d.Carries s) {tick : Tick}
    {io : List Io} {config : FabricConfig} {u : Unit}
    (hl : ((({} : Impl).attach d tick io).configured config).loadFromStore = (.ok u, m)) :
    s.Recovers m := by
  obtain ⟨n, hn, hunfinished⟩ := Impl.loadFromStore_unfinished hl
  have hn : n.view = d.view View.blank := hn
  obtain ⟨-, -, hview, -⟩ := Impl.loadFromStore_view hl
  have hview : m.view = (d.view View.blank).settled tick := hview
  have hrecords : ∀ k, m.allocations.lookup k =
      ((d.view View.blank).allocations k).map (Impl.expireReserved tick) :=
    congrFun (congrArg View.allocations hview)
  have hkeyed : n.view.Keyed := by
    rw [hn]
    exact (View.blank_indexed.disk _).keyed
  refine ⟨fun k ↦ ?_, fun k ↦ ?_, fun k ↦ ?_, fun k r hr hc ↦ ?_, fun k r hr hres ↦ ⟨?_, ?_⟩,
    fun k r' hr' hholds ↦ ?_⟩
  · exact (congrFun (congrArg View.capacities hview) k).trans (congrFun h.topology.capacities k)
  · exact (congrFun (congrArg View.policies hview) k).trans (congrFun h.topology.policies k)
  · exact (congrFun (congrArg View.pools hview) k).trans (congrFun h.topology.pools k)
  · have hdisk := (h.records k).of_holds hr (by rw [hc]; rfl)
    rw [hrecords, hdisk, Option.map_some, Impl.expireReserved, if_neg]
    rw [hc]
    rintro ⟨⟩
  · have hdisk := (h.records k).of_holds hr (by rw [hres]; rfl)
    refine ⟨{ r with state := .expired, lastTouched := tick, revision := r.revision + 1 }, ?_, rfl,
      rfl⟩
    rw [hrecords, hdisk, Option.map_some, Impl.expireReserved, if_pos hres]
  · have hdisk := (h.records k).of_holds hr (by rw [hres]; rfl)
    have hfound : n.allocations.lookup k = some r := by
      change n.view.allocations k = some r
      rw [hn]
      exact hdisk
    rw [hunfinished]
    exact Impl.unfinished_filter hkeyed hfound hres
  · rw [hrecords] at hr'
    obtain ⟨hlive, hcommitted⟩ := (h.records k).holds_expired hr' hholds
    exact ⟨r', hlive, hcommitted⟩

/-- A new instance that opens a directory recovers what the directory carries. -/
theorem Disk.Carries.recovers {d : Disk} {s t : Impl} (h : d.Carries s) {tick : Tick}
    {io : List Io} {config : FabricConfig} {boot : Impl.BootInputs}
    (hopen : (({} : Impl).attach d tick io).openFabric config boot = (.ok (), t))
    (hmode : config.persistence.mode ≠ .none) : s.Recovers t := by
  rcases Impl.openFabric_begun hopen hmode with ⟨⟨e, he⟩, -⟩ | ⟨m, t', res, hl, -, hj, -, -, hok⟩
  · cases he
  obtain ⟨rfl, rfl⟩ := hok rfl
  have hm : s.Recovers m := h.loaded hl
  rw [Impl.eq_of_journal hj]
  exact ⟨hm.capacities, hm.policies, hm.pools, hm.committed, hm.reserved, hm.others⟩

theorem Impl.Saved.carries {s : Impl} (h : s.Saved) : s.store.disk.Carries s :=
  ⟨h.topology, h.records⟩

/-- In every run in which every append succeeds and every grant is credited, whatever
interrupted its sessions: a new instance recovers the directory exactly if the directory is
admitted by its configuration and there is an epoch left. -/
theorem commitments_survive_iff {y : System} {s t : Impl} {tick : Tick} {io : List Io}
    {config : FabricConfig} {boot : Impl.BootInputs} {r : Except Status Unit}
    (hrun : System.Run System.Commits y) (hlive : y.live = some s)
    (hmode : config.persistence.mode ≠ .none) (hcheck : config.check = .ok ())
    (hvalid : config.persistence.validate = .ok ())
    (hopen : (({} : Impl).attach y.disk tick io).openFabric config boot = (r, t))
    (hwrites : t.store.failures = 0) :
    (r = .ok () ∧ s.Recovers t) ↔
      y.disk.Admitted config.persistence ∧ s.epoch.raw.toNat + 1 < 18446744073709551616 := by
  have hs := hrun.saved s hlive
  have hdurable : System.Run System.Durable y := hrun.mono fun _ _ h ↦ h.durable
  obtain ⟨hdisk, hcurrent⟩ := hdurable.current.live s hlive
  have hepoch := hcurrent.disk
  rw [hdisk] at hepoch
  constructor
  · rintro ⟨rfl, -⟩
    exact Impl.openFabric_admitted hopen hmode hepoch
  · rintro ⟨hadmitted, hroom⟩
    have hjournal : ∀ record ∈ y.disk.journal, record.Acceptable := by
      rw [← hdisk]
      exact hs.replayable
    obtain rfl := Impl.openFabric_succeeds hopen hmode hcheck hvalid hepoch hroom hadmitted
      hjournal hwrites
    rw [← hdisk] at hopen
    exact ⟨rfl, hs.carries.recovers hopen hmode⟩

def Impl.creditsCheck (s : Impl) (c : Call) : Bool :=
  match c.op with
  | .allocate q =>
      (s.pools.lookup q.pool).all fun entry ↦ ((s.enter c).plannedGrant q).all fun r ↦
        decide (((s.enter c).applyCommitUnits q.pool entry r.units r.borrowUnits r.lender).1 = .ok ())
  | _ => true

/-- Commands of durable sessions in which every append succeeds and every grant is credited. -/
def commitsCheck (y : System) : Command → Bool
  | .start config => decide (config.persistence.mode = .journalSync) && y.live.isNone
  | .call c => y.live.all fun s ↦ decide (JournalsOk s c) && s.creditsCheck c
  | .stop => true

theorem commitsCheck_commits (y : System) (k : Command) (h : commitsCheck y k = true) :
    y.Commits k.event := by
  cases k with
  | start config =>
      refine ⟨durableCheck_durable y (.start config) h, ?_, ?_⟩
      all_goals simp [Command.event]
  | call c =>
      have hcall : ∀ s, y.live = some s → JournalsOk s c ∧ s.creditsCheck c = true := by
        intro s hlive
        simpa [commitsCheck, hlive] using h
      refine ⟨durableCheck_durable y (.call c) rfl, ?_, ?_⟩
      · intro c' s hc hlive
        obtain rfl := Event.called.inj hc
        exact (hcall s hlive).1
      · intro c' s q hc hlive hop entry r hl hr
        obtain rfl := Event.called.inj hc
        have hcheck := (hcall s hlive).2
        have hl : s.pools.lookup q.pool = some entry := hl
        unfold Impl.creditsCheck at hcheck
        rw [hop] at hcheck
        dsimp only at hcheck
        rw [hl, hr] at hcheck
        exact of_decide_eq_true hcheck
  | stop =>
      refine ⟨durableCheck_durable y .stop rfl, ?_, ?_⟩
      all_goals simp [Command.event]

/-- A session with a committed grant and a reservation, a checkpoint, and one more grant. -/
def commitScript : List Command :=
  heldScript ++ [.call (askUnits 2 30 false), .call { op := .checkpoint },
    .call (askUnits 3 10 true)]

def Disk.restarted (d : Disk) : Except Status Unit × Impl :=
  (({} : Impl).attach d 0 []).openFabric smallConfig {}

/-- The directory of that session is recovered. -/
theorem commitments_survive_small :
    ∃ (y : System) (s t : Impl), System.Run System.Commits y ∧ y.live = some s ∧
      y.disk.restarted = (.ok (), t) ∧ s.Recovers t ∧
      (t.allocations.lookup ⟨1⟩).map AllocationRecord.state = some .committed ∧
      (t.allocations.lookup ⟨2⟩).map AllocationRecord.state = some .expired ∧
      (t.allocations.lookup ⟨3⟩).map AllocationRecord.state = some .committed := by
  have h : (System.script commitsCheck {} commitScript).any (fun y ↦ y.live.isSome &&
      decide (y.disk.restarted.1 = .ok ()) && decide (y.disk.restarted.2.store.failures = 0) &&
      [(⟨1⟩, .committed), (⟨2⟩, .expired), (⟨3⟩, .committed)].all fun e ↦
        decide ((y.disk.restarted.2.allocations.lookup e.1).map AllocationRecord.state =
          some e.2)) = true := by
    decide +kernel
  obtain ⟨y, hy, h⟩ := (Option.any_eq_true _ _).mp h
  simp only [Bool.and_eq_true, decide_eq_true_eq, List.all_cons, List.all_nil, Bool.and_true] at h
  obtain ⟨⟨⟨hsome, hok⟩, hwrites⟩, hone, htwo, hthree⟩ := h
  obtain ⟨s, hs⟩ := Option.isSome_iff_exists.mp hsome
  have hrun : System.Run System.Commits y := .script commitsCheck_commits .refl hy
  have hopen : y.disk.restarted = (.ok (), y.disk.restarted.2) := Prod.ext hok rfl
  have hdurable : System.Run System.Durable y := hrun.mono fun _ _ h ↦ h.durable
  obtain ⟨hdisk, hcurrent⟩ := hdurable.current.live s hs
  have hepoch := hcurrent.disk
  rw [hdisk] at hepoch
  have hadmitted := Impl.openFabric_admitted hopen (by decide) hepoch
  have hiff := commitments_survive_iff hrun hs (by decide) (by decide) (by decide) hopen hwrites
  exact ⟨y, s, _, hrun, hs, hopen, (hiff.mpr hadmitted).2, hone, htwo, hthree⟩

end BufferFabric
