import BufferFabric.Capacities
import BufferFabric.Generations

/-!
# The tick the critical sections see

Every critical section samples the clock before it takes the lock, and installs the sample as
the tick of the fabric when it has taken it. Threads may take the lock in another order than
they sampled the clock.
-/

namespace BufferFabric

/-! ### Dates in the fabric -/

/-- No record was touched before it was created, and neither a record nor the evidence of a
pool is dated later than the tick. -/
structure Impl.Timely (s : Impl) : Prop where
  created : ∀ k r, s.allocations.lookup k = some r → r.createdAt ≤ r.lastTouched
  touched : ∀ k r, s.allocations.lookup k = some r → r.lastTouched ≤ s.tick
  observed : ∀ p e, s.pressure.lookup p = some e → e.hasLatest = true → e.latest.observedAt ≤ s.tick

/-- The records there were are still there, and were not touched at an earlier tick. -/
def Impl.TouchedSince (s t : Impl) : Prop :=
  ∀ k r, s.allocations.lookup k = some r →
    ∃ r', t.allocations.lookup k = some r' ∧ r.lastTouched ≤ r'.lastTouched

namespace Impl

variable {s t u : Impl}

theorem TouchedSince.refl (s : Impl) : s.TouchedSince s :=
  fun _ r hr ↦ ⟨r, hr, UInt64.le_refl _⟩

theorem TouchedSince.trans (h : s.TouchedSince t) (h' : t.TouchedSince u) : s.TouchedSince u := by
  intro k r hr
  obtain ⟨r', hr', hle⟩ := h k r hr
  obtain ⟨r'', hr'', hle'⟩ := h' k r' hr'
  exact ⟨r'', hr'', UInt64.le_trans hle hle'⟩

theorem TouchedSince.of_eq (h : t.allocations.lookup = s.allocations.lookup) : s.TouchedSince t := by
  intro k r hr
  exact ⟨r, (congrFun h k).trans hr, UInt64.le_refl _⟩

/-- A tick that is not earlier. -/
theorem Timely.later (h : s.Timely) (ha : t.allocations.lookup = s.allocations.lookup)
    (hp : t.pressure.lookup = s.pressure.lookup) (htick : s.tick ≤ t.tick) : t.Timely := by
  refine ⟨fun k r hr ↦ ?_, fun k r hr ↦ ?_, fun p e he ↦ ?_⟩
  · exact h.created k r ((congrFun ha k).symm.trans hr)
  · exact UInt64.le_trans (h.touched k r ((congrFun ha k).symm.trans hr)) htick
  · exact fun hlatest ↦
      UInt64.le_trans (h.observed p e ((congrFun hp p).symm.trans he) hlatest) htick

/-- What one change leaves: the tick, dates that are not later than it, and records that were
not touched earlier. -/
structure Advances (s t : Impl) : Prop where
  tick : t.tick = s.tick
  timely : t.Timely
  touched : s.TouchedSince t

theorem Advances.of_eq (h : s.Timely) (htick : t.tick = s.tick)
    (ha : t.allocations.lookup = s.allocations.lookup)
    (hp : t.pressure.lookup = s.pressure.lookup) : s.Advances t :=
  ⟨htick, h.later ha hp (htick ▸ UInt64.le_refl _), .of_eq ha⟩

theorem Advances.trans (h : s.Advances t) (h' : t.Advances u) : s.Advances u :=
  ⟨h'.tick.trans h.tick, h'.timely, h.touched.trans h'.touched⟩

/-- A record that was touched now takes the place of another one, or a new one. -/
theorem Advances.insert (h : s.Timely) {key : AllocationId} {r : AllocationRecord}
    (htick : t.tick = s.tick) (ha : t.allocations = s.allocations.insert key r)
    (hp : t.pressure = s.pressure) (hcreated : r.createdAt ≤ s.tick)
    (htouched : r.lastTouched = s.tick) : s.Advances t := by
  have hlookup : ∀ k r', t.allocations.lookup k = some r' →
      (k = key ∧ r' = r) ∨ (k ≠ key ∧ s.allocations.lookup k = some r') := by
    intro k r' hr'
    rw [ha] at hr'
    exact lookup_insert_cases hr'
  refine ⟨htick, ⟨?_, ?_, ?_⟩, ?_⟩
  · intro k r' hr'
    rcases hlookup k r' hr' with ⟨-, rfl⟩ | ⟨-, hold⟩
    · rw [htouched]
      exact hcreated
    · exact h.created k r' hold
  · intro k r' hr'
    rw [htick]
    rcases hlookup k r' hr' with ⟨-, rfl⟩ | ⟨-, hold⟩
    · exact htouched ▸ UInt64.le_refl _
    · exact h.touched k r' hold
  · rw [hp, htick]
    exact h.observed
  · intro k r' hr'
    rw [ha]
    by_cases hk : k = key
    · refine ⟨r, (Table.lookup_insert_eq _ _ _ _).trans (if_pos hk), ?_⟩
      rw [htouched]
      exact h.touched k r' hr'
    · exact ⟨r', ((Table.lookup_insert_eq _ _ _ _).trans (if_neg hk)).trans hr', UInt64.le_refl _⟩

theorem remainder_dates (s : Impl) (r : AllocationRecord) (units : UInt64) :
    (s.remainder r units).createdAt = r.createdAt ∧
      (s.remainder r units).lastTouched = s.tick := by
  unfold remainder
  dsimp only
  split
  · exact ⟨rfl, rfl⟩
  · exact ⟨rfl, rfl⟩

end Impl

/-- A fabric without allocations and without evidence. -/
theorem Impl.Timely.of_empty {s : Impl} (ha : s.allocations = ∅) (hp : s.pressure = ∅) :
    s.Timely := by
  have hallocs : ∀ k, s.allocations.lookup k = none := by
    intro k
    rw [ha]
    rfl
  have hpressure : ∀ p, s.pressure.lookup p = none := by
    intro p
    rw [hp]
    rfl
  refine ⟨fun k r hr ↦ ?_, fun k r hr ↦ ?_, fun p e he ↦ ?_⟩
  · rw [hallocs k] at hr
    cases hr
  · rw [hallocs k] at hr
    cases hr
  · rw [hpressure p] at he
    cases he

/-! ### What a section does to the dates -/

section

variable {s t m : Impl}

theorem Impl.Timely.change (h : s.Timely) {l : Label} {record : Option JournalRecord}
    (hc : Change s l record m) : s.Advances m := by
  have hpast : ∀ {k r}, s.allocations.lookup k = some r → r.createdAt ≤ s.tick :=
    fun hr ↦ UInt64.le_trans (h.created _ _ hr) (h.touched _ _ hr)
  cases hc with
  | attempt a =>
      obtain ⟨order, attempts, heq⟩ := s.recordAttempt_frame a
      rw [heq]
      exact .of_eq h rfl rfl rfl
  | pressure p hepoch hnow =>
      refine ⟨rfl, ⟨h.created, h.touched, ?_⟩, .refl s⟩
      intro q e he hlatest
      rcases lookup_insert_cases he with ⟨-, rfl⟩ | ⟨-, hold⟩
      · exact hnow
      · exact h.observed q e hold hlatest
  | removePool key entry =>
      refine ⟨rfl, ⟨h.created, h.touched, ?_⟩, .refl s⟩
      intro q e he hlatest
      rw [Table.lookup_erase_eq] at he
      split at he
      · cases he
      · exact h.observed q e he hlatest
  | fence key r entry state pools hr =>
      have hcreated := hpast hr
      exact .insert h rfl rfl rfl hcreated rfl
  | grant key entry policy r pools hfits =>
      exact .insert h rfl rfl rfl (hfits.created ▸ UInt64.le_refl _) hfits.touched
  | commit key r entry hr =>
      have hcreated := hpast hr
      exact .insert h rfl rfl rfl hcreated rfl
  | release key r entry units pools hr =>
      obtain ⟨hcreated, htouched⟩ := s.remainder_dates r units
      exact .insert h rfl rfl rfl (hcreated ▸ hpast hr) htouched
  | rebind key r bound hr =>
      have hcreated := hpast hr
      exact .insert h rfl rfl rfl hcreated rfl
  | _ => exact .of_eq h rfl rfl rfl

theorem Move.advances {a : Label × Bool} (hm : Move s a t) (h : s.Timely) : s.Advances t := by
  by_cases hl : a.1 = .lostRelease
  · cases hm with
    | lostRelease hsh hj =>
        rw [Impl.eq_of_journal hj]
        exact .of_eq h rfl rfl rfl
    | volatile hc | written hc | unlogged hc =>
        dsimp only at hl
        subst hl
        cases hc
    | refused | snapshot => cases hl
  · exact hm.keeps hl (fun m st hi ↦ hi.trans (.of_eq hi.timely rfl rfl rfl))
      (fun record m hc ↦ h.change hc) (.of_eq h rfl rfl rfl)

theorem Impl.Timely.exec (h : s.Timely) {c : Call} (htick : s.tick ≤ c.tick) :
    (s.enter c).Advances (s.exec c).2 := by
  have henter : (s.enter c).Timely := h.later rfl rfl htick
  refine (s.exec_trace c).invariant (I := fun t ↦ (s.enter c).Advances t) ?_
    (.of_eq henter rfl rfl rfl)
  intro t a u ht _ hm
  exact ht.trans (hm.advances ht.timely)

end

/-! ### Threads -/

/-- What a thread does between taking the lock and giving it back: a whole operation, the
publication that ends an interrupted `set_capacity`, or something that only reads. -/
inductive Section where
  | call (io : List Io) (op : Op)
  | publish (io : List Io) (p : PendingCapacity)
  | read

def Section.run (s : Impl) (tick : Tick) : Section → Impl
  | .call io op => (s.exec { tick := tick, io := io, op := op }).2
  | .publish io p => (s.publish tick io p).2
  | .read => { s with tick := tick }

structure Visit where
  tick : Tick
  body : Section

def Visit.time (v : Visit) : ℕ := v.tick.toNat

/-- A fabric, the clock, and the sections that were sampled and entered so far. -/
structure Schedule where
  fabric : Impl
  now : Tick := 0
  visits : Samples Visit := {}

inductive Schedule.Turn where
  | sampled (v : Visit)
  | entered (a : Sample Visit)
  | rehashed

/-- One step of some thread: it samples the clock, which never goes back, or it takes the lock
and runs its section. -/
inductive Schedule.Step (z : Schedule) : Schedule.Turn → Schedule → Prop
  | sampled (v : Visit) (hclock : z.now ≤ v.tick) :
      Step z (.sampled v) { z with now := v.tick, visits := z.visits.take v }
  | entered {a : Sample Visit} {before after : List (Sample Visit)}
      (hwaiting : z.visits.waiting = before ++ a :: after) :
      Step z (.entered a)
        { z with
          fabric := a.item.body.run z.fabric a.item.tick
          visits := z.visits.install before a after }
  | rehashed {t : Impl} (h : z.fabric.Rehash t) : Step z .rehashed { z with fabric := t }

/-- No section is overtaken: none is entered after one that sampled the clock later, and got
another tick. -/
def Schedule.InTurn (z : Schedule) : Schedule.Turn → Prop
  | .entered a => ¬z.visits.Overtaken Visit.time a
  | _ => True

/-! ### Runs -/

section

variable {s : Impl} {z z' : Schedule} {turn : Schedule.Turn} {start : ℕ}

/-- A section that sees no earlier tick keeps the dates in order. -/
theorem Section.advances (b : Section) {tick : Tick} (h : s.Timely) (htick : s.tick ≤ tick) :
    (b.run s tick).tick = tick ∧ (b.run s tick).Timely ∧ s.TouchedSince (b.run s tick) := by
  cases b with
  | call io op =>
      have hadv := h.exec (c := { tick := tick, io := io, op := op }) htick
      exact ⟨hadv.tick, hadv.timely, hadv.touched⟩
  | publish io p =>
      have hrelock : (s.relock tick io).Timely := h.later rfl rfl htick
      have htrace : (Op.setCapacity p.resource p.backend p.expectedRawUnits p.expected
          ⟨true, .ok p.authority, .ok ()⟩).Trace (s.relock tick io) (s.relock tick io)
          ((s.relock tick io).publishCapacity p.resource p.backend p.expectedRawUnits p.expected
            p.authority).2 :=
        Impl.publishCapacity_trace ⟨_, _, _, _, _, rfl⟩ _ _ _ _ _
      have hadv : (s.relock tick io).Advances (s.publish tick io p).2 :=
        htrace.invariant (I := fun t ↦ (s.relock tick io).Advances t)
          (fun t a u ht _ hm ↦ ht.trans (hm.advances ht.timely)) (.of_eq hrelock rfl rfl rfl)
      exact ⟨hadv.tick, hadv.timely, hadv.touched⟩
  | read => exact ⟨rfl, h.later rfl rfl htick, .of_eq rfl⟩

/-- The samples are in order, the tick is the one there was at the start or that of the section
entered last, and the dates are in order. -/
structure Schedule.Kept (start : ℕ) (z : Schedule) : Prop where
  ordered : z.visits.Ordered Visit.time start z.now.toNat
  shows : z.visits.Shows Visit.time start z.fabric.tick.toNat
  timely : z.fabric.Timely

structure Schedule.Follows (z z' : Schedule) : Prop where
  tick : z.fabric.tick ≤ z'.fabric.tick
  touched : z.fabric.TouchedSince z'.fabric

theorem Schedule.Follows.trans {z'' : Schedule} (h : z.Follows z') (h' : z'.Follows z'') :
    z.Follows z'' :=
  ⟨UInt64.le_trans h.tick h'.tick, h.touched.trans h'.touched⟩

theorem Schedule.Step.kept (h : Schedule.Step z turn z') (hz : z.Kept start)
    (hturn : z.InTurn turn) : z'.Kept start ∧ z.Follows z' := by
  obtain ⟨hordered, hshows, htimely⟩ := hz
  cases h with
  | sampled v hclock => exact ⟨⟨hordered.take hclock, hshows, htimely⟩, UInt64.le_refl _, .refl _⟩
  | @entered a before after hwaiting =>
      have ha : z.visits.Has a := by
        refine .inl ?_
        rw [hwaiting]
        exact List.mem_append.mpr (.inr List.mem_cons_self)
      have htick : z.fabric.tick ≤ a.item.tick := hordered.shown_le ha hshows hturn
      obtain ⟨hnow, hdates, htouched⟩ := a.item.body.advances htimely htick
      refine ⟨⟨hordered.install hwaiting, ?_, hdates⟩, ?_, htouched⟩
      · rw [hnow]
        exact .install _ _ _ _
      · rw [hnow]
        exact htick
  | @rehashed t hr =>
      obtain ⟨hc, hp, hpn, ho, hon, hq, hqn, ha, hpressure, ht⟩ := hr
      have halloc := (funext fun k ↦ (ha.lookup_eq k).symm)
      have hevidence := (funext fun p ↦ (hpressure.lookup_eq p).symm)
      exact ⟨⟨hordered, hshows, htimely.later halloc hevidence (UInt64.le_refl _)⟩,
        UInt64.le_refl _, .of_eq halloc⟩

/-- In every run of interleaved sections in which none is overtaken, the ticks the sections see
never go down. So no record was touched before it was created, none is touched earlier than it
was before, and evidence that was accepted is never dated in the future. -/
theorem time_never_runs_backwards {z₀ : Schedule} (hidle : z₀.visits = {})
    (hclock : z₀.fabric.tick ≤ z₀.now) (hdates : z₀.fabric.Timely)
    (hrun : StepPath Schedule.Step Schedule.InTurn z₀ z)
    (hlater : StepPath Schedule.Step Schedule.InTurn z z') :
    z.fabric.tick ≤ z'.fabric.tick ∧
      (∀ k r, z.fabric.allocations.lookup k = some r → r.createdAt ≤ r.lastTouched ∧
        ∃ r', z'.fabric.allocations.lookup k = some r' ∧ r.lastTouched ≤ r'.lastTouched) ∧
      ∀ p e, z.fabric.pressure.lookup p = some e → e.hasLatest = true →
        e.latest.observedAt ≤ z'.fabric.tick := by
  have hkept : ∀ {y}, StepPath Schedule.Step Schedule.InTurn z₀ y →
      y.Kept z₀.fabric.tick.toNat := by
    intro y hy
    refine hy.invariant (fun _ _ _ hi hallow hs ↦ (hs.kept hi hallow).1) ⟨?_, .inl rfl, hdates⟩
    rw [hidle]
    exact .empty hclock
  have hfollows : z.Follows z' := by
    induction hlater with
    | refl => exact ⟨UInt64.le_refl _, .refl _⟩
    | tail hpath hallow hstep ih =>
        exact ih.trans (hstep.kept (hkept (hrun.trans hpath)) hallow).2
  have hz := (hkept hrun).timely
  refine ⟨hfollows.tick, fun k r hr ↦ ⟨hz.created k r hr, hfollows.touched k r hr⟩, ?_⟩
  intro p e he hlatest
  exact UInt64.le_trans (hz.observed p e he hlatest) hfollows.tick

end

/-! ### Threads that overtake each other -/

/-- Enter the section that waits between `before` and `after`. -/
def Schedule.enter (z : Schedule) (before : List (Sample Visit)) (a : Sample Visit)
    (after : List (Sample Visit)) : Schedule :=
  { z with
    fabric := a.item.body.run z.fabric a.item.tick
    visits := z.visits.install before a after }

def Schedule.sampled (z : Schedule) (v v' v'' : Visit) : Schedule :=
  { z with now := v''.tick, visits := ((z.visits.take v).take v').take v'' }

theorem Schedule.sampled_path {z : Schedule} {v v' v'' : Visit} (h : z.now ≤ v.tick)
    (h' : v.tick ≤ v'.tick) (h'' : v'.tick ≤ v''.tick) :
    StepPath Schedule.Step Schedule.InTurn z (z.sampled v v' v'') :=
  ((StepPath.single (by trivial) (.sampled v h)).tail (by trivial) (.sampled v' h')).tail
    (by trivial) (.sampled v'' h'')

def commitVisit : Sample Visit :=
  ⟨0, 1, .call [] (.commit { allocation := ⟨1⟩, attempt := ⟨2⟩ })⟩

def grantVisit : Sample Visit := ⟨1, 5, .call [] (askUnits 1 40 false).op⟩

def reportVisit : Sample Visit :=
  ⟨2, 6, .call [] (.observePressure
    { pool := ⟨1⟩, poolGeneration := ⟨1⟩, epoch := ⟨1⟩, observedAt := 6, ttlTicks := 9 })⟩

def namedSchedule : Schedule := { fabric := namedStart }

def sampledSchedule : Schedule :=
  namedSchedule.sampled commitVisit.item grantVisit.item reportVisit.item

theorem sampledSchedule_path :
    StepPath Schedule.Step Schedule.InTurn namedSchedule sampledSchedule :=
  Schedule.sampled_path (by decide) (by decide) (by decide)

theorem namedSchedule_timely : namedSchedule.fabric.Timely := by
  refine .of_empty (AList.ext ?_) (AList.ext ?_)
  · exact List.isEmpty_iff.mp (by decide +kernel)
  · exact List.isEmpty_iff.mp (by decide +kernel)

def grantedSchedule : Schedule := sampledSchedule.enter [commitVisit] grantVisit [reportVisit]

def reportedSchedule : Schedule := grantedSchedule.enter [commitVisit] reportVisit []

/-- The thread that sampled first enters last: the tick goes from 6 back to 1, the record it
commits is touched before it was created, and the evidence is dated in the future. -/
theorem time_runs_backwards :
    ∃ z₀ z z' : Schedule, FreshlyOpened smallOpened ∧
      SessionRun (fun _ _ ↦ True) smallOpened z₀.fabric ∧ z₀.visits = {} ∧
      z₀.fabric.tick ≤ z₀.now ∧ z₀.fabric.Timely ∧
      StepPath Schedule.Step (fun _ _ ↦ True) z₀ z ∧
      StepPath Schedule.Step (fun _ _ ↦ True) z z' ∧ z'.fabric.tick < z.fabric.tick ∧
      (∃ r r', z.fabric.allocations.lookup ⟨1⟩ = some r ∧
        z'.fabric.allocations.lookup ⟨1⟩ = some r' ∧ r'.lastTouched < r'.createdAt ∧
        r'.lastTouched < r.lastTouched) ∧
      ∃ e, z.fabric.pressure.lookup ⟨1⟩ = some e ∧ e.hasLatest = true ∧
        z'.fabric.tick < e.latest.observedAt := by
  have hrun := SessionRun.refl.play (smallOpened.admits_true smallSetup)
  have hgrant : Schedule.Step sampledSchedule (.entered grantVisit) grantedSchedule := .entered rfl
  have hreport : Schedule.Step grantedSchedule (.entered reportVisit) reportedSchedule :=
    .entered rfl
  have hcommit : Schedule.Step reportedSchedule (.entered commitVisit)
      (reportedSchedule.enter [] commitVisit []) := .entered rfl
  have hrecord : (reportedSchedule.fabric.allocations.lookup ⟨1⟩).any (fun r ↦
      ((reportedSchedule.enter [] commitVisit []).fabric.allocations.lookup ⟨1⟩).any fun r' ↦
        decide (r'.lastTouched < r'.createdAt ∧ r'.lastTouched < r.lastTouched)) = true := by
    decide +kernel
  have hevidence : (reportedSchedule.fabric.pressure.lookup ⟨1⟩).any (fun e ↦
      decide (e.hasLatest = true ∧ (reportedSchedule.enter [] commitVisit []).fabric.tick <
        e.latest.observedAt)) = true := by
    decide +kernel
  simp only [Option.any_eq_true, decide_eq_true_eq] at hrecord hevidence
  obtain ⟨r, hr, r', hr', htouched⟩ := hrecord
  obtain ⟨e, he, hfuture⟩ := hevidence
  exact ⟨namedSchedule, reportedSchedule, _, smallOpened_fresh,
    by simpa only [namedSchedule, namedStart] using hrun, rfl, by decide +kernel,
    namedSchedule_timely,
    ((sampledSchedule_path.mono (by intros; trivial)).tail trivial hgrant).tail trivial hreport,
    .single trivial hcommit, by decide +kernel, ⟨r, r', hr, hr', htouched⟩, e, he, hfuture⟩

/-- The threads enter in the order in which they sampled the clock. -/
theorem time_never_runs_backwards_in_turn :
    (sampledSchedule.enter [] commitVisit [grantVisit, reportVisit]).fabric.tick ≤
      ((sampledSchedule.enter [] commitVisit [grantVisit, reportVisit]).enter [] grantVisit
        [reportVisit]).fabric.tick := by
  have hidle : namedSchedule.visits = {} := rfl
  refine (time_never_runs_backwards hidle (by decide +kernel)
    namedSchedule_timely (sampledSchedule_path.tail (a := .entered commitVisit) ?_ (.entered rfl))
    (.single (a := .entered grantVisit) ?_ (.entered rfl))).1
  · rintro ⟨b, hb, -⟩
    cases hb
  · rintro ⟨b, hb, hlt, -⟩
    cases hb with
    | head => exact absurd hlt (by decide)
    | tail _ hb => cases hb

end BufferFabric
