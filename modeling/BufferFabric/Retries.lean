import BufferFabric.Journaling
import BufferFabric.Memory

/-!
# Exactly once across restarts

Attempts are kept by snapshots only, in the order of a hash table. When every session finds
the last attempts in the snapshot, and what its memory gives up for new attempts is older than
these, a retry is answered from the memory in whatever session it is made.
-/

namespace BufferFabric

open Outcome Replay

/-! ### Allocations on disk -/

namespace Point

def held (k : AllocationId) : Point Bool where
  read := fun v ↦ (v.allocations k).isSome
  write
    | .allocation _ r => if k = r.id then some true else none
    | _ => none

theorem held_write (k : AllocationId) (record : JournalRecord) :
    (held k).write record = ((allocation k).write record).map Option.isSome := by
  cases record with
  | allocation op r =>
      simp only [held, allocation]
      split <;> rfl
  | _ => rfl

theorem held_overwrites (k : AllocationId) :
    Overwrites View.apply (held k).read (held k).write := by
  intro v record
  have h := allocation_overwrites k v record
  change ((v.apply record).allocations k).isSome = _
  rw [show (v.apply record).allocations k = _ from h, held_write]
  cases (allocation k).write record <;> rfl

theorem held_loads (k : AllocationId) : (held k).Loads := by
  intro s hi
  exact congrArg Option.isSome (allocation_loads k s hi)

/-- A change adds no allocation besides the one it journals. -/
theorem held_follows (k : AllocationId) {s m : Impl} {l : Label} {record : Option JournalRecord}
    (hc : Change s l record m) (hk : s.view.Keyed) : (held k).FollowsBy (· ≥ ·) s m record := by
  by_cases hl : l = .brokenGrant
  · subst hl
    cases hc with
    | brokenGrant key entry policy r pools j hfits hj hfail hshapes =>
        change ((if k = r.id then some true else none).getD _) ≥ _
        split
        · exact Bool.le_true _
        · exact le_refl _
  · have h := allocation_follows k hc hk hl
    unfold FollowsBy
    change _ ≥ (m.view.allocations k).isSome
    rw [show m.view.allocations k = _ from h]
    cases record with
    | none => exact le_refl _
    | some record =>
        change ((held k).write record).getD _ ≥ _
        rw [held_write]
        change _ ≥ (((allocation k).write record).getD (s.view.allocations k)).isSome
        cases (allocation k).write record <;> exact le_refl _

end Point

def Impl.AllocationsSaved (s : Impl) : Prop := ∀ k, (Point.held k).Mirrored (· ≥ ·) s

theorem Impl.AllocationsSaved.exec {s : Impl} (h : s.AllocationsSaved) (hw : s.Writing) {c : Call}
    (hc : JournalsOk s c) : (s.exec c).2.AllocationsSaved :=
  fun k ↦ Point.Mirrored.run (Impl.exec_journaled hc) (hw.enter c) (Point.held_overwrites k)
    (Point.held_loads k) le_refl (fun _ _ _ ↦ ge_trans) (fun _ _ ha ↦ ha.2)
    (fun _ _ _ _ _ hk hc ↦ Point.held_follows k hc hk) (h k)

theorem View.settled_held (v : View) (tick : Tick) (k : AllocationId) :
    ((v.settled tick).allocations k).isSome = (v.allocations k).isSome := by
  simp only [View.settled, Option.isSome_map]

theorem Impl.AllocationsSaved.opened {t : Impl} {disk : Disk} {tick : Tick} {io : List Io}
    {config : FabricConfig} {boot : BootInputs}
    (h : (({} : Impl).attach disk tick io).openFabric config boot = (.ok (), t))
    (hmode : config.persistence.mode ≠ .none) : t.AllocationsSaved := by
  obtain ⟨m, hview, hdisk, hw, hj⟩ := Impl.openFabric_loaded h hmode View.blank_indexed
  intro k
  refine Point.Mirrored.beginEpoch hw (Point.held_overwrites k) (Point.held_loads k) le_refl
    (fun _ _ _ ↦ ge_trans) hj ?_
  unfold Point.Mirrored
  rw [hview, hdisk]
  exact ge_of_eq (View.settled_held _ _ k).symm

def View.Lists (K : AllocationId → Prop) (v : View) : Prop :=
  ∀ k, K k → (v.allocations k).isSome = true

section Lists

variable {K : AllocationId → Prop}

theorem View.Lists.apply {v : View} (h : v.Lists K) (record : JournalRecord) :
    (v.apply record).Lists K := by
  intro k hk
  have heq : ((v.apply record).allocations k).isSome = _ := Point.held_overwrites k v record
  rw [heq]
  cases record with
  | allocation op r =>
      simp only [Point.held]
      split
      · rfl
      · exact h k hk
  | _ => exact h k hk

theorem Impl.image_lists {s : Impl} (hi : s.view.Indexed) (h : s.view.Lists K) :
    (View.blank.load s.image).Lists K := by
  intro k hk
  have heq : ((View.blank.load s.image).allocations k).isSome = _ := Point.held_loads k s hi
  rw [heq]
  exact h k hk

theorem View.Lists.foldl {v : View} (h : v.Lists K) (records : List JournalRecord) :
    (records.foldl View.apply v).Lists K := by
  induction records generalizing v with
  | nil => exact h
  | cons record records ih => exact ih (h.apply record)

/-- Whatever a write leaves in the directory lists what the directory and the image listed. -/
theorem Disk.Next.lists {s : Impl} {record : JournalRecord} {d d' : Disk}
    (h : Disk.Next s.image record d d') (hi : s.view.Indexed) (hs : s.view.Lists K)
    (hd : (d.view View.blank).Lists K) : (d'.view View.blank).Lists K := by
  have himage := Impl.image_lists hi hs
  cases h with
  | same => exact hd
  | appended =>
      rw [Disk.view_append]
      exact hd.apply record
  | replaced => exact himage.foldl d.journal
  | compacted => exact himage
  | restarted => exact himage.apply record

theorem Change.lists {s m : Impl} {l : Label} {record : Option JournalRecord}
    (h : Change s l record m) (hs : s.view.Lists K) : m.view.Lists K :=
  fun k hk ↦ h.keeps (hs k hk)

/-- No allocation of `K` is lost, in memory or on disk. -/
theorem lists_rule (K : AllocationId → Prop) :
    System.Rule (fun config ↦ config.persistence.mode ≠ .none)
      (fun s ↦ s.Writing ∧ s.view.Lists K) (fun d ↦ (d.view View.blank).Lists K) where
  call s c hs hd := by
    have h := (s.exec_trace c).invariant (I := fun t ↦ (t.Writing ∧ t.view.Lists K) ∧
      ∀ d ∈ t.store.disk :: t.store.trail, (d.view View.blank).Lists K) ?_ ⟨hs, ?_⟩
    · exact h
    · rintro t a u ⟨⟨hw, ht⟩, hdisks⟩ - hm
      have hu : u.view.Lists K := hm.keeps_view (fun _ _ hc ↦ hc.lists ht) ht
      refine ⟨⟨hm.writing hw, hu⟩, ?_⟩
      obtain ⟨-, j, record, hview, hdisk, htrail, -, -⟩ := hm.disks
      have hj : j.view.Indexed ∧ j.view.Lists K := by
        rcases hview with hview | hview
        · rw [hview]
          exact ⟨hw.1, ht⟩
        · rw [hview]
          exact ⟨(hm.writing hw).1, hu⟩
      have hnext : ∀ d, Disk.Next j.image record t.store.disk d → (d.view View.blank).Lists K :=
        fun d hd ↦ hd.lists hj.1 hj.2 (hdisks _ List.mem_cons_self)
      intro d hmem
      rcases List.mem_cons.mp hmem with rfl | hmem
      · exact hnext _ hdisk
      · rcases htrail d hmem with hold | hnew
        · exact hdisks d (List.mem_cons_of_mem _ hold)
        · exact hnext d hnew
    · intro d hmem
      rw [List.mem_singleton.mp hmem]
      exact hd
  rehash s t hs hr := by
    refine ⟨hs.1.rehash hr, ?_⟩
    rw [hr.view_eq]
    exact hs.2
  close s hs := by
    refine ⟨hs.1.closeFabric, ?_⟩
    unfold Impl.closeFabric
    split
    · exact hs.2
    · exact hs.2
  start := by
    intro disk tick io config boot r t hmode hd h
    have hsettled : ((disk.view View.blank).settled tick).Lists K := by
      intro k hk
      rw [View.settled_held]
      exact hd k hk
    refine ⟨?_, ?_⟩
    · intro d hmem
      rcases Impl.openFabric_disks h hmode View.blank_indexed rfl (List.mem_cons.mp hmem) with
        rfl | ⟨m, hview, hi, hnext⟩
      · exact hd
      · refine hnext.lists hi ?_ hd
        rw [hview]
        exact hsettled
    · rintro rfl
      obtain ⟨m, hview, -, hw, hj⟩ := Impl.openFabric_loaded h hmode View.blank_indexed
      refine ⟨hw.journal hj, ?_⟩
      rw [Impl.eq_of_journal hj]
      change m.view.Lists K
      rw [hview]
      exact hsettled

end Lists

/-! ### The recorded attempts -/

def Impl.recordedBy (s : Impl) (c : Call) : List AttemptRecord :=
  (s.recording c).filterMap (s.exec c).2.attempts.lookup

namespace Impl

variable {s t : Impl}

/-- A call leaves the memory alone, or adds the attempt it records. -/
theorem recordedBy_cases (hs : s.Remembering) (c : Call) :
    (SameMemory s (s.exec c).2 ∧ s.recordedBy c = []) ∨
      ∃ a, SameMemory (s.recordAttempt a) (s.exec c).2 ∧ s.attempts.lookup a.id = none ∧
        s.recordedBy c = [a] := by
  unfold recordedBy
  rcases s.exec_memory c with ⟨hsame, hrec⟩ | ⟨q, a, d, -, -, -, ha, hnew, hsame, hrec⟩
  · refine .inl ⟨hsame, ?_⟩
    rw [hrec]
    rfl
  · rw [← ha.id] at hnew hrec
    refine .inr ⟨a, hsame, hnew, ?_⟩
    rw [hrec, List.filterMap_cons, hsame.lookup, hs.recorded hnew]
    rfl

def Recent (s : Impl) (recorded : List AttemptRecord) : Prop :=
  ∀ a ∈ recorded.rtake s.memoryCapacity, s.attempts.lookup a.id = some a

/-- If the call records its attempt, what the memory gives up for it is not among the last
attempts that were recorded. -/
def EvictsOld (s : Impl) (c : Call) (recorded : List AttemptRecord) : Prop :=
  s.recording c ≠ [] → ∀ a ∈ recorded.rtake (s.memoryCapacity - 1),
    a.id ∉ s.attemptOrder.take (s.attemptOrder.length + 1 - s.memoryCapacity)

instance (s : Impl) (c : Call) (recorded : List AttemptRecord) :
    Decidable (s.EvictsOld c recorded) :=
  inferInstanceAs (Decidable (_ → _))

theorem Recent.congr {recorded : List AttemptRecord} (h : s.Recent recorded)
    (ht : SameMemory s t) : t.Recent recorded := by
  intro a ha
  rw [ht.capacity] at ha
  rw [ht.lookup]
  exact h a ha

theorem Recent.record {recorded : List AttemptRecord} (h : s.Recent recorded) (hs : s.Remembering)
    {a : AttemptRecord} (hnew : s.attempts.lookup a.id = none)
    (hold : ∀ b ∈ recorded.rtake (s.memoryCapacity - 1),
      b.id ∉ s.attemptOrder.take (s.attemptOrder.length + 1 - s.memoryCapacity)) :
    (s.recordAttempt a).Recent (recorded ++ [a]) := by
  obtain ⟨n, hn⟩ : ∃ n, s.memoryCapacity = n + 1 :=
    Nat.exists_eq_succ_of_ne_zero (Word.ne_zero_iff.mp hs.capacity).ne'
  intro b hb
  rw [memoryCapacity_recordAttempt, hn, List.rtake_concat_succ] at hb
  rcases List.mem_append.mp hb with hb | hb
  swap
  · obtain rfl := List.mem_singleton.mp hb
    exact hs.recorded hnew
  rw [hn, Nat.add_sub_cancel] at hold
  have hgiven := hold b hb
  have hb : s.attempts.lookup b.id = some b := by
    refine h b (List.Sublist.subset ?_ hb)
    rw [hn, List.rtake, List.rtake]
    exact List.drop_sublist_drop_left recorded (by omega)
  have hne : b.id ≠ a.id := by
    intro heq
    rw [heq, hnew] at hb
    cases hb
  have hlisted : b.id ∈ s.attemptOrder := (hs.listed.same _).mpr ⟨b, hb⟩
  rw [← List.take_append_drop (s.attemptOrder.length + 1 - (n + 1)) s.attemptOrder] at hlisted
  have hkept : b.id ∈ (s.attemptOrder ++ [a.id]).rtake s.memoryCapacity := by
    rw [hn, List.rtake_concat_succ]
    apply List.mem_append_left
    have hdrop := (List.mem_append.mp hlisted).resolve_left hgiven
    rwa [Nat.add_sub_add_right] at hdrop
  rw [(recordAttempt_listed hs.listed hs.capacity hnew).2, if_pos hkept, if_neg hne, hb]

theorem Recent.exec {recorded : List AttemptRecord} (h : s.Recent recorded) (hs : s.Remembering)
    {c : Call} (hold : s.EvictsOld c recorded) :
    (s.exec c).2.Recent (recorded ++ s.recordedBy c) := by
  rcases recordedBy_cases hs c with ⟨hsame, hrec⟩ | ⟨a, hsame, hnew, hrec⟩
  · rw [hrec, List.append_nil]
    exact h.congr hsame
  · rw [hrec]
    refine (h.record hs hnew (hold fun hnone ↦ ?_)).congr hsame
    unfold recordedBy at hrec
    rw [hnone] at hrec
    cases hrec

end Impl

/-! ### Chronicles -/

structure Chronicle where
  system : System := {}
  recorded : List AttemptRecord := []

def System.recordedBy (y : System) : Event → List AttemptRecord
  | .called c => (y.live.map (·.recordedBy c)).getD []
  | _ => []

inductive Chronicle.Step (z : Chronicle) : Event → Chronicle → Prop
  | mk {ev : Event} {y : System} (h : System.Step z.system ev y) :
      Step z ev { system := y, recorded := z.recorded ++ z.system.recordedBy ev }

/-- Every session is durable and on a new instance, its appends succeed, the snapshot it opens
lists the last attempts that were recorded, and its memory gives up older ones only. -/
structure Chronicle.Allows (z : Chronicle) (ev : Event) : Prop where
  durable : z.system.Durable ev
  journals : ∀ c s, ev = .called c → z.system.live = some s → JournalsOk s c
  lists : ∀ config, ev = .opened config →
    ∀ a ∈ z.recorded.rtake config.attemptMemoryCapacity.toNat, a ∈ z.system.disk.attempts
  evicts : ∀ c s, ev = .called c → z.system.live = some s → s.EvictsOld c z.recorded

/-- What a chronicle keeps: the instance has the last attempts in memory, and its
allocations on disk. -/
structure Chronicle.Kept (z : Chronicle) : Prop where
  run : System.Run System.Durable z.system
  live : ∀ s, z.system.live = some s → s.Recent z.recorded ∧ s.AllocationsSaved

theorem System.Run.writing {y : System} (h : System.Run System.Durable y) : y.Writing :=
  h.invariant (I := System.Writing) (fun _ _ _ hy hev hs ↦ hs.writing hy hev) (.of_stopped rfl)

theorem System.Run.remembers {y : System} (h : System.Run System.Durable y) :
    y.Holds Impl.Remembering Disk.Remembers :=
  System.Run.remembering_holds (h.mono fun _ _ ↦ System.Durable.newInstances)

/-- A session finds the last attempts in the snapshot it opens. -/
theorem Impl.Recent.opened {t : Impl} {disk : Disk} {tick : Tick} {io : List Io}
    {config : FabricConfig} {boot : BootInputs} {recorded : List AttemptRecord}
    (h : (({} : Impl).attach disk tick io).openFabric config boot = (.ok (), t))
    (hmode : config.persistence.mode ≠ .none) (hd : disk.Remembers)
    (hlists : ∀ a ∈ recorded.rtake config.attemptMemoryCapacity.toNat, a ∈ disk.attempts) :
    t.Recent recorded := by
  obtain ⟨hconfig, -, hrestored⟩ := Impl.openFabric_attempts h hd.journal
  rw [if_neg hmode] at hrestored
  intro a ha
  unfold Impl.memoryCapacity at ha
  rw [hconfig] at ha
  exact hrestored.lookup hd.nodup (hlists a ha)

theorem Impl.closeFabric_sameMemory (s : Impl) : SameMemory s s.closeFabric := by
  unfold closeFabric
  split
  · exact ⟨rfl, rfl, fun _ ↦ rfl⟩
  · exact .refl s

theorem Impl.AllocationsSaved.congr {s t : Impl} (h : s.AllocationsSaved)
    (hview : t.view = s.view) (hdisk : t.store.disk = s.store.disk) : t.AllocationsSaved := by
  intro k
  unfold Point.Mirrored
  rw [hview, hdisk]
  exact h k

theorem Chronicle.Step.kept {z z' : Chronicle} {ev : Event} (h : Chronicle.Step z ev z')
    (hz : z.Kept) (hev : z.Allows ev) : z'.Kept := by
  obtain ⟨hstep⟩ := h
  refine ⟨hz.run.tail hev.durable hstep, ?_⟩
  intro s hs
  have hmemory := hz.run.remembers
  cases hstep with
  | opened hidle h =>
      obtain rfl := Option.some.inj hs
      obtain ⟨hmode, rfl⟩ := System.Durable.fresh hev.durable rfl hidle
      refine ⟨?_, .opened h hmode⟩
      simp only [System.recordedBy, List.append_nil]
      exact .opened h hmode hmemory.disk (hev.lists _ rfl)
  | openFailed | openCrashed | crashed | stopped => cases hs
  | called c hlive =>
      obtain rfl := Option.some.inj hs
      obtain ⟨hrecent, hsaved⟩ := hz.live _ hlive
      refine ⟨?_, hsaved.exec (hz.run.writing _ hlive) (hev.journals c _ rfl hlive)⟩
      simp only [System.recordedBy, hlive, Option.map_some, Option.getD_some]
      exact hrecent.exec (hmemory.live _ hlive).2 (hev.evicts c _ rfl hlive)
  | @closed s₀ hlive =>
      obtain rfl := Option.some.inj hs
      obtain ⟨hrecent, hsaved⟩ := hz.live _ hlive
      simp only [System.recordedBy, List.append_nil]
      refine ⟨hrecent.congr s₀.closeFabric_sameMemory, hsaved.congr ?_ s₀.closeFabric_disk⟩
      unfold Impl.closeFabric
      split
      · rfl
      · rfl
  | rehashed hlive hr =>
      obtain rfl := Option.some.inj hs
      obtain ⟨hrecent, hsaved⟩ := hz.live _ hlive
      simp only [System.recordedBy, List.append_nil]
      refine ⟨hrecent.congr hr.sameMemory, hsaved.congr hr.view_eq ?_⟩
      cases hr
      rfl

theorem Chronicle.kept_empty : ({} : Chronicle).Kept := by
  refine ⟨.refl, ?_⟩
  intro s hs
  cases hs

theorem Chronicle.Run.kept {z : Chronicle} (h : StepPath Chronicle.Step Chronicle.Allows {} z) :
    z.Kept :=
  h.invariant (I := Chronicle.Kept) (fun _ _ _ hz hev hs ↦ hs.kept hz hev) Chronicle.kept_empty

/-- A chronicle only grows. -/
theorem Chronicle.recorded_grows {allow : Chronicle → Event → Prop} {z w : Chronicle}
    (h : StepPath Chronicle.Step allow z w) : z.recorded <+: w.recorded := by
  refine h.invariant (I := fun w ↦ z.recorded <+: w.recorded) ?_ List.prefix_rfl
  rintro t ev u ht - ⟨hstep⟩
  exact ht.trans (List.prefix_append _ _)

def System.Lists (K : AllocationId → Prop) (y : System) : Prop :=
  y.Holds (fun s ↦ s.Writing ∧ s.view.Lists K) (fun d ↦ (d.view View.blank).Lists K)

theorem Chronicle.lists {K : AllocationId → Prop} {z w : Chronicle}
    (h : StepPath Chronicle.Step Chronicle.Allows z w) (hz : z.system.Lists K) : w.system.Lists K := by
  refine h.invariant (I := fun w ↦ w.system.Lists K) ?_ hz
  rintro t ev u ht hev ⟨hstep⟩
  refine (lists_rule K).step hstep ?_ ht
  intro config hc
  obtain ⟨hmode, hnone⟩ := hev.durable config hc
  refine ⟨?_, hnone⟩
  rw [hmode]
  exact nofun

theorem Impl.Recent.lookup {t : Impl} {recorded later : List AttemptRecord} {a : AttemptRecord}
    (h : t.Recent (recorded ++ [a] ++ later)) (hlt : later.length < t.memoryCapacity) :
    t.attempts.lookup a.id = some a :=
  h a (List.mem_rtake_of_lt hlt)

/-- In every run in which each session finds the last attempts in the snapshot it opens and
gives up older ones only: as long as fewer attempts than the capacity have been recorded, in this session or
others, since a request was decided, the same request is answered with the recorded outcome
and changes nothing. -/
theorem exactly_once_across_restarts {z : Chronicle}
    (hrun : StepPath Chronicle.Step Chronicle.Allows {} z) {s : Impl} (hlive : z.system.live = some s)
    {c : Call} {q : Request} {d : Decision} (hop : c.op = q.op) (hq : ∀ q', q ≠ .revalidate q')
    (hd : (s.exec c).1 = .ok (.decision d)) (hdecides : q.Decides d)
    {z' : Chronicle} (hcall : Chronicle.Step z (.called c) z') (hallow : z.Allows (.called c))
    {w : Chronicle} (hlater : StepPath Chronicle.Step Chronicle.Allows z' w) {t : Impl}
    (ht : w.system.live = some t) (hopen : t.isOpen = true)
    (hfew : w.recorded.length < z'.recorded.length + t.memoryCapacity) (hwork : t.AcceptsWork)
    (hserves : t.Serves q) {c' : Call} (hagain : c'.op = c.op) :
    ∃ d', (t.exec c').1 = .ok (.decision d') ∧ d'.kind = .idempotentReplay ∧
      d'.status = d.status ∧ d'.allocation = d.allocation ∧ d'.grantedUnits = d.grantedUnits ∧
      (t.exec c').2 = t.enter c' := by
  have hz := Chronicle.Run.kept hrun
  have hkeyed : s.view.Keyed := System.Run.keyed hz.run hlive
  have hremembering := (hz.run.remembers.live s hlive).2
  -- the decision was recorded under the attempt
  have hrecorded : ∃ a, Records a q.attempt q.digest d ∧ s.recordedBy c = [a] := by
    have hof : Request.of c.op = some q := by
      rw [hop]
      exact q.of_op
    rcases s.exec_memory c with ⟨-, hnone⟩ | ⟨q', a, d', hof', hd', -, ha, hnew, hsame, hrec⟩
    · simp only [Impl.recording, hof, hd, if_pos hdecides] at hnone
      cases hnone
    · rw [hof] at hof'
      obtain rfl := Option.some.inj hof'
      rw [hd] at hd'
      obtain rfl := Reply.decision.inj (Except.ok.inj hd')
      refine ⟨a, ha, ?_⟩
      rw [← ha.id] at hnew hrec
      unfold Impl.recordedBy
      rw [hrec, List.filterMap_cons, hsame.lookup, hremembering.recorded hnew]
      rfl
  obtain ⟨a, ha, hrec⟩ := hrecorded
  have hz' := hcall.kept hz hallow
  have hw : w.Kept := hlater.invariant (fun _ _ _ hz hev hs ↦ hs.kept hz hev) hz'
  obtain ⟨later, hlater'⟩ := Chronicle.recorded_grows hlater
  -- it is still remembered
  have hlookup : t.attempts.lookup q.attempt = some a := by
    rw [← ha.id]
    have hrecent := (hw.live t ht).1
    have hz'' : z'.recorded = z.recorded ++ [a] := by
      obtain ⟨-⟩ := hcall
      simp only [System.recordedBy, hlive, Option.map_some, Option.getD_some, hrec]
    rw [← hlater', hz''] at hrecent
    refine hrecent.lookup ?_
    rw [← hlater', List.length_append] at hfew
    omega
  have hans : ((s.enter c).answer q).1 = .ok d := by
    rw [Impl.exec_request hop] at hd
    cases hres : ((s.enter c).answer q).1 with
    | error e =>
        rw [reply, hres] at hd
        cases hd
    | ok d' =>
        rw [reply, hres] at hd
        exact congrArg Except.ok (Reply.decision.inj (Except.ok.inj hd))
  obtain ⟨hvalid, hgood, htargets⟩ := Impl.answer_ok hans
  -- so is the allocation it is about
  have hheld : ∀ k, Impl.targets q k → (t.allocations.lookup k).isSome = true := by
    have hdisk : s.store.disk = z.system.disk := (hz.run.remembers.live s hlive).1
    have hbase : z.system.Lists (Impl.targets q) := by
      refine .of_live ?_ hlive hdisk ⟨hz.run.writing s hlive, htargets⟩
      intro k hk
      have hsaved : ((s.store.disk.view View.blank).allocations k).isSome ≥
          (s.allocations.lookup k).isSome := (hz.live s hlive).2 k
      have hsome : (s.allocations.lookup k).isSome = true := htargets k hk
      rw [hsome, hdisk] at hsaved
      exact Bool.eq_true_of_true_le hsaved
    have hpath := (StepPath.single hallow hcall).trans hlater
    exact ((Chronicle.lists hpath hbase).live t ht).2.2
  have hkeyed' : t.view.Keyed := System.Run.keyed hw.run ht
  have hserves' : (t.enter c').Serves q := by
    cases q <;> exact hserves
  obtain ⟨d', hd', hreplay, halloc⟩ := Impl.answer_replay (s := t.enter c') (q := q) (a := a)
    hopen hkeyed' hvalid hgood hlookup ha.digest
    (fun k hk ↦ ⟨hheld k hk, ha.allocation.trans
      (Impl.answer_allocation (s := s.enter c) hkeyed hans hq hk)⟩) hwork hserves'
  rw [Impl.exec_request (hagain.trans hop), hd']
  exact ⟨d', rfl, hreplay.kind, hreplay.status.trans ha.outcome, halloc.trans ha.allocation,
    hreplay.granted.trans ha.granted, rfl⟩

/-! ### Scripted chronicles -/

def Chronicle.writes (z : Chronicle) (k : Command) : Bool :=
  durableCheck z.system k && (match k, z.system.live with
    | .call c, some s => decide (AppendsOk s c)
    | _, _ => true)

/-- A command that finds the last attempts in the snapshot it opens, and gives up older ones
only. -/
def Chronicle.keepsCheck (z : Chronicle) : Command → Bool
  | .start config =>
      decide (∀ a ∈ z.recorded.rtake config.attemptMemoryCapacity.toNat, a ∈ z.system.disk.attempts)
  | .call c => z.system.live.all fun s ↦ decide (s.EvictsOld c z.recorded)
  | .stop => true

/-- Every session is durable and on a new instance, and its writes succeed. -/
structure Chronicle.Writes (z : Chronicle) (ev : Event) : Prop where
  durable : z.system.Durable ev
  appends : ∀ c s, ev = .called c → z.system.live = some s → AppendsOk s c

theorem Chronicle.writes_spec {z : Chronicle} {k : Command} (h : z.writes k = true) :
    z.Writes k.event := by
  obtain ⟨hdurable, hok⟩ := Bool.and_eq_true_iff.mp h
  refine ⟨durableCheck_durable z.system k hdurable, ?_⟩
  intro c s hev hlive
  cases k with
  | call c' =>
      obtain rfl : c' = c := by injection hev
      rw [hlive] at hok
      exact of_decide_eq_true hok
  | start config => cases hev
  | stop => cases hev

theorem AppendsOk.journalsOk {s : Impl} {c : Call} (h : AppendsOk s c) : JournalsOk s c := by
  unfold JournalsOk
  split
  · trivial
  · exact h

theorem Chronicle.allows_of_checks {z : Chronicle} {k : Command} (h : z.writes k = true)
    (hkeeps : z.keepsCheck k = true) : z.Allows k.event := by
  obtain ⟨hdurable, happends⟩ := Chronicle.writes_spec h
  refine ⟨hdurable, fun c s hc hs ↦ (happends c s hc hs).journalsOk, ?_, ?_⟩
  · intro config hev
    cases k with
    | start config' =>
        obtain rfl : config' = config := by injection hev
        exact of_decide_eq_true hkeeps
    | call c => cases hev
    | stop => cases hev
  · intro c s hev hlive
    cases k with
    | call c' =>
        obtain rfl : c' = c := by injection hev
        unfold Chronicle.keepsCheck at hkeeps
        rw [hlive] at hkeeps
        exact of_decide_eq_true hkeeps
    | start config => cases hev
    | stop => cases hev

def Chronicle.script (check : Chronicle → Command → Bool) (z : Chronicle) :
    List Command → Option Chronicle
  | [] => some z
  | k :: ks => if check z k then (z.system.perform k).bind fun y ↦
      Chronicle.script check
        { system := y, recorded := z.recorded ++ z.system.recordedBy k.event } ks
    else none

theorem Chronicle.script_path {check : Chronicle → Command → Bool}
    {allow : Chronicle → Event → Prop} (hcheck : ∀ z k, check z k = true → allow z k.event)
    {ks : List Command} {z z' : Chronicle} (h : z.script check ks = some z') :
    StepPath Chronicle.Step allow z z' := by
  induction ks generalizing z with
  | nil =>
      obtain rfl := Option.some.inj h
      exact .refl
  | cons k ks ih =>
      unfold Chronicle.script at h
      split at h
      · rename_i hk
        obtain ⟨y, hy, h⟩ := Option.bind_eq_some_iff.mp h
        exact (StepPath.single (hcheck z k hk) (.mk (System.perform_step hy))).trans (ih h)
      · cases h

def askForty : AllocateRequest :=
  { attempt := ⟨1⟩, pool := ⟨1⟩, queue := ⟨1⟩, requestedUnits := 40 }

theorem askUnits_forty : (askUnits 1 40 true).op = (Request.allocate askForty).op := rfl

/-- What the directory of a session with a pool and a queue goes through when a grant of 40
units is acknowledged and more commands follow. -/
def retryScript (check : Chronicle → Command → Bool) (ks : List Command) :
    Option (Chronicle × Impl × Chronicle × Impl) := do
  let z ← ({} : Chronicle).script check readyScript
  let s ← z.system.live
  let z' ← z.script check [.call (askUnits 1 40 true)]
  let w ← z'.script check ks
  let t ← w.system.live
  if t.isOpen && decide (w.recorded.length < z'.recorded.length + t.memoryCapacity) &&
      decide (¬t.RefusesWork) && decide (t.allocations.size < kMaxAllocationCount) &&
      decide (t.Registers ⟨1⟩ ⟨1⟩) then
    some (z, s, w, t)
  else none

/-- The grant is acknowledged, and a retry is made in a state that serves it, with fewer attempts
than the capacity recorded in between. -/
structure Retried (allow : Chronicle → Event → Prop) (z : Chronicle) (s : Impl) (z' w : Chronicle)
    (t : Impl) : Prop where
  run : StepPath Chronicle.Step allow {} z
  live : z.system.live = some s
  call : Chronicle.Step z (.called (askUnits 1 40 true)) z'
  allowed : allow z (.called (askUnits 1 40 true))
  later : StepPath Chronicle.Step allow z' w
  again : w.system.live = some t
  isOpen : t.isOpen = true
  few : w.recorded.length < z'.recorded.length + t.memoryCapacity
  work : t.AcceptsWork
  serves : t.Serves (.allocate askForty)

theorem retryScript_spec {check : Chronicle → Command → Bool}
    {allow : Chronicle → Event → Prop} (hcheck : ∀ z k, check z k = true → allow z k.event)
    {ks : List Command} {z w : Chronicle} {s t : Impl}
    (h : retryScript check ks = some (z, s, w, t)) : ∃ z', Retried allow z s z' w t := by
  simp only [retryScript, Option.bind_eq_bind, Option.bind_eq_some_iff] at h
  obtain ⟨z₁, hz, s₁, hs, z', hz', w₁, hw, t₁, ht, h⟩ := h
  split at h
  · rename_i hfound
    simp only [Option.some.injEq, Prod.mk.injEq] at h
    obtain ⟨rfl, rfl, rfl, rfl⟩ := h
    simp only [Bool.and_eq_true, decide_eq_true_eq] at hfound
    obtain ⟨⟨⟨⟨hopen, hfew⟩, hwork⟩, hroom⟩, hreg⟩ := hfound
    have hstep : allow z₁ (.called (askUnits 1 40 true)) ∧
        Chronicle.Step z₁ (.called (askUnits 1 40 true)) z' := by
      unfold Chronicle.script at hz'
      split at hz'
      · rename_i hk
        obtain ⟨y, hy, hz'⟩ := Option.bind_eq_some_iff.mp hz'
        obtain rfl := Option.some.inj hz'
        exact ⟨hcheck _ _ hk, .mk (System.perform_step hy)⟩
      · cases hz'
    exact ⟨z', Chronicle.script_path hcheck hz, hs, hstep.2, hstep.1,
      Chronicle.script_path hcheck hw, ht, hopen, hfew, ⟨hwork, hroom⟩, hreg⟩
  · cases h

/-- After a restart without a checkpoint the retry of an acknowledged grant is granted once
more, over the record of the first grant. -/
theorem retry_granted_twice :
    ∃ (z z' w : Chronicle) (s t : Impl) (d d' : Decision), Retried Chronicle.Writes z s z' w t ∧
      (s.exec (askUnits 1 40 true)).1 = .ok (.decision d) ∧ d.kind = .grant ∧
      (t.exec (askUnits 1 40 true)).1 = .ok (.decision d') ∧ d'.kind = .grant ∧
      (t.pools.lookup ⟨1⟩).map (·.ownUsage) = some 40 ∧
      ((t.exec (askUnits 1 40 true)).2.pools.lookup ⟨1⟩).map (·.ownUsage) = some 80 := by
  have h : (retryScript Chronicle.writes [.stop, .start smallConfig]).any (fun x ↦
      ((Reply.decided (x.2.1.exec (askUnits 1 40 true)).1).any (fun d ↦ decide (d.kind = .grant)) &&
        (Reply.decided (x.2.2.2.exec (askUnits 1 40 true)).1).any
          (fun d ↦ decide (d.kind = .grant))) &&
      decide ((x.2.2.2.pools.lookup ⟨1⟩).map (·.ownUsage) = some 40) &&
      decide (((x.2.2.2.exec (askUnits 1 40 true)).2.pools.lookup ⟨1⟩).map (·.ownUsage) =
        some 80)) = true := by
    decide +kernel
  obtain ⟨⟨z, s, w, t⟩, hscript, h⟩ := (Option.any_eq_true _ _).mp h
  simp only [Bool.and_eq_true, decide_eq_true_eq] at h
  obtain ⟨⟨⟨hfirst, hsecond⟩, hold⟩, hnew⟩ := h
  obtain ⟨d, hd, hkind⟩ := (Option.any_eq_true _ _).mp hfirst
  obtain ⟨d', hd', hkind'⟩ := (Option.any_eq_true _ _).mp hsecond
  have hcheck : ∀ (z : Chronicle) k, z.writes k = true → z.Writes k.event :=
    fun _ _ ↦ Chronicle.writes_spec
  obtain ⟨z', hretried⟩ := retryScript_spec hcheck hscript
  exact ⟨z, z', w, s, t, d, d', hretried, Reply.decided_eq_some hd, of_decide_eq_true hkind,
    Reply.decided_eq_some hd', of_decide_eq_true hkind', hold, hnew⟩

/-- Two grants are acknowledged, and a restart after a checkpoint lists the newer one first. The
retry of the newer one records nothing, and that of the older one is a replay. -/
theorem exactly_once_after_checkpoint :
    ∃ (z z' w : Chronicle) (s t : Impl) (d d' : Decision), Retried Chronicle.Allows z s z' w t ∧
      w.recorded.map (·.id) = [⟨1⟩, ⟨2⟩] ∧ t.attemptOrder = [⟨2⟩, ⟨1⟩] ∧
      (s.exec (askUnits 1 40 true)).1 = .ok (.decision d) ∧ d.kind = .grant ∧
      (t.exec (askUnits 1 40 true)).1 = .ok (.decision d') ∧ d'.kind = .idempotentReplay ∧
      (t.exec (askUnits 1 40 true)).2 = t.enter (askUnits 1 40 true) := by
  have h : (retryScript (fun z k ↦ z.writes k && z.keepsCheck k)
      [.call (askUnits 2 30 true), .call { op := .checkpoint }, .stop, .start smallConfig,
        .call (askUnits 2 30 true)]).any (fun x ↦
      decide (x.2.2.1.recorded.map (·.id) = [⟨1⟩, ⟨2⟩]) &&
      decide (x.2.2.2.attemptOrder = [⟨2⟩, ⟨1⟩]) &&
      (Reply.decided (x.2.1.exec (askUnits 1 40 true)).1).any
        fun d ↦ decide (d.kind = .grant)) = true := by
    decide +kernel
  obtain ⟨⟨z, s, w, t⟩, hscript, h⟩ := (Option.any_eq_true _ _).mp h
  simp only [Bool.and_eq_true, decide_eq_true_eq] at h
  obtain ⟨⟨hids, horder⟩, hgrant⟩ := h
  obtain ⟨d, hd, hkind⟩ := (Option.any_eq_true _ _).mp hgrant
  have hd := Reply.decided_eq_some hd
  have hkind : d.kind = .grant := of_decide_eq_true hkind
  have hcheck : ∀ (z : Chronicle) k, (z.writes k && z.keepsCheck k) = true → z.Allows k.event := by
    intro z k hk
    obtain ⟨hwrites, hkeeps⟩ := Bool.and_eq_true_iff.mp hk
    exact Chronicle.allows_of_checks hwrites hkeeps
  obtain ⟨z', hretried⟩ := retryScript_spec hcheck hscript
  have hdecides : (Request.allocate askForty).Decides d := by
    change d.kind ≠ _
    rw [hkind]
    exact nofun
  have hagain : (askUnits 1 40 true).op = (askUnits 1 40 true).op := rfl
  obtain ⟨d', hd', hreplay, -, -, -, hsame⟩ := exactly_once_across_restarts hretried.run
    hretried.live askUnits_forty (by simp) hd hdecides hretried.call hretried.allowed
    hretried.later hretried.again hretried.isOpen hretried.few hretried.work hretried.serves hagain
  exact ⟨z, z', w, s, t, d, d', hretried, hids, horder, hd, hkind, hd', hreplay, hsame⟩

end BufferFabric
