import BufferFabric.Memory
import BufferFabric.Validity

/-!
# What the records of allocations have in common

A property of records that every record has from its grant on, and that no call takes from it,
holds of all records of a run: those in memory, and those the directory holds in its snapshot and
its journal, whatever a crash or a failed append leaves of them.
-/

namespace BufferFabric

variable {R : AllocationRecord → Prop}

def View.Among (R : AllocationRecord → Prop) (v : View) : Prop :=
  ∀ k r, v.allocations k = some r → R r

def JournalRecord.Among (R : AllocationRecord → Prop) (record : JournalRecord) : Prop :=
  ∀ op r, record = .allocation op r → R r

structure Disk.Among (R : AllocationRecord → Prop) (d : Disk) : Prop where
  snapshot : ∀ i, d.snapshot = some i → ∀ r ∈ i.allocations, R r
  journal : ∀ record ∈ d.journal, record.Among R

/-! ### Loading and saving -/

namespace View

variable {v : View}

theorem Among.apply (h : v.Among R) {record : JournalRecord} (hr : record.Among R) :
    (v.apply record).Among R := by
  cases record with
  | allocation op r =>
      intro k r' hr'
      rcases update_cases hr' with ⟨-, heq⟩ | ⟨-, hr'⟩
      · exact Option.some.inj heq ▸ hr op r rfl
      · exact h k r' hr'
  | _ => exact h

theorem Among.foldl (h : v.Among R) {records : List JournalRecord}
    (hr : ∀ record ∈ records, record.Among R) : (records.foldl View.apply v).Among R := by
  induction records generalizing v with
  | nil => exact h
  | cons record records ih =>
      exact ih (h.apply (hr _ List.mem_cons_self)) fun r hmem ↦ hr r (List.mem_cons_of_mem _ hmem)

theorem Among.disk (h : v.Among R) {d : Disk} (hd : d.Among R) : (d.view v).Among R := by
  unfold Disk.view
  refine View.Among.foldl ?_ hd.journal
  cases hi : d.snapshot with
  | none => exact h
  | some i =>
      intro k r hr
      rcases Table.overlay_cases hr with ⟨hmem, -⟩ | hr
      · exact hd.snapshot i hi r hmem
      · exact h k r hr

theorem Among.settled (h : v.Among R) (hend : ∀ r, r.state.holdsUnits = false → R r)
    (tick : Tick) : (v.settled tick).Among R := by
  intro k r hr
  obtain ⟨r₀, hr₀, rfl⟩ := Option.map_eq_some_iff.mp hr
  unfold Impl.expireReserved
  split
  · exact hend _ rfl
  · exact h k r₀ hr₀

theorem Among.image {s : Impl} (h : s.view.Among R) : ∀ r ∈ s.image.allocations, R r := by
  intro r hr
  obtain ⟨⟨k, r'⟩, hmem, rfl⟩ := List.mem_map.mp hr
  exact h k r' (Table.mem_toList.mp hmem)

end View

theorem Disk.Next.among {image : Image} {record : JournalRecord} {d d' : Disk}
    (h : Disk.Next image record d d') (hd : d.Among R) (himage : ∀ r ∈ image.allocations, R r)
    (hr : record.Among R) : d'.Among R := by
  have hnew : ∀ i, some image = some i → ∀ r ∈ i.allocations, R r := by
    rintro i ⟨⟩
    exact himage
  have hone : ∀ record' ∈ [record], record'.Among R := by
    intro record' hmem
    rw [List.mem_singleton.mp hmem]
    exact hr
  cases h with
  | same => exact hd
  | appended =>
      refine ⟨hd.snapshot, fun record' hmem ↦ ?_⟩
      rcases List.mem_append.mp hmem with hmem | hmem
      · exact hd.journal record' hmem
      · exact hone record' hmem
  | replaced => exact ⟨hnew, hd.journal⟩
  | compacted => exact ⟨hnew, by simp⟩
  | restarted => exact ⟨hnew, hone⟩

/-! ### Moves -/

/-- What a record has that stems from the records of a state, when `part` may be left of them. -/
def Inherited (R : AllocationRecord → Prop) (part : Prop) : Prop :=
  ∀ (s : Impl) (r : AllocationRecord), s.view.Keyed → s.view.Among R → r.StemsFrom s part → R r

theorem JournalRecord.StemsFrom.among {part : Prop} (hR : Inherited R part) {s : Impl}
    {record : JournalRecord} (h : record.StemsFrom s part) (hk : s.view.Keyed)
    (hs : s.view.Among R) : record.Among R := by
  rintro op r rfl
  exact hR s r hk hs h.2

theorem Change.among {s m : Impl} {l : Label} {record : Option JournalRecord}
    (hR : Inherited R l.Parts) (h : Change s l record m) (hk : s.view.Keyed)
    (hs : s.view.Among R) : m.view.Among R := by
  by_cases hl : l = .brokenGrant
  · subst hl
    cases h with
    | brokenGrant key entry policy r pools j hfits hj hfail hsh =>
        rw [Impl.view_eq_of_shapes hsh]
        exact hs
  · have happlied : (s.view.applied record).Among R := by
      cases record with
      | none => exact hs
      | some record => exact hs.apply (h.stems.among hR hk hs)
    unfold View.Among
    rw [(h.view_agrees hk hl).allocations]
    exact happlied

/-- The records in memory and in all contents of the directory have the property. -/
structure Impl.Among (R : AllocationRecord → Prop) (s : Impl) : Prop where
  keyed : s.view.Keyed
  view : s.view.Among R
  disks : ∀ d ∈ s.store.disk :: s.store.trail, d.Among R

/-- What a record leaves in the directory, and what a snapshot in its place does. -/
theorem Impl.journal_among {s t : Impl} {record : JournalRecord} {r : Except Status Unit}
    (h : s.journal record = (r, t)) (hs : s.view.Among R)
    (hd : ∀ d ∈ s.store.disk :: s.store.trail, d.Among R) (hr : record.Among R) :
    ∀ d ∈ t.store.disk :: t.store.trail, d.Among R := by
  have hold := hd _ List.mem_cons_self
  obtain ⟨st, hst, hf, -⟩ := s.journal_spec record
  rw [h] at hst
  simp only at hst
  subst hst
  intro d hmem
  rcases List.mem_cons.mp hmem with rfl | hmem
  · rcases hf.disk with heq | hnext
    · have heq : st.disk = s.store.disk := heq
      change Disk.Among R st.disk
      rw [heq]
      exact hold
    · exact hnext.among hold hs.image hr
  · rcases hf.trail d hmem with hmem | hnext
    · exact hd d (List.mem_cons_of_mem _ hmem)
    · exact hnext.among hold hs.image hr

theorem Move.among {s t : Impl} {a : Label × Bool} (hR : Inherited R a.1.Parts) (h : Move s a t)
    (hs : s.Among R) : t.Among R := by
  have hview : t.view.Among R :=
    h.keeps_view (I := View.Among R) (fun _ _ hc ↦ hc.among hR hs.keyed hs.view) hs.view
  obtain ⟨-, j, record, hj, hdisk, htrail, -, hstems⟩ := h.disks
  have hrecord := hstems.among hR hs.keyed hs.view
  have himage : ∀ r ∈ j.image.allocations, R r := by
    refine View.Among.image ?_
    rcases hj with hj | hj
    · rw [hj]
      exact hs.view
    · rw [hj]
      exact hview
  have hold := hs.disks _ List.mem_cons_self
  refine ⟨h.keyed hs.keyed, hview, fun d hd ↦ ?_⟩
  rcases List.mem_cons.mp hd with rfl | hd
  · exact hdisk.among hold himage hrecord
  · rcases htrail d hd with hd | hnext
    · exact hs.disks d (List.mem_cons_of_mem _ hd)
    · exact hnext.among hold himage hrecord

theorem Impl.Among.enter {s : Impl} (hk : s.view.Keyed) (hs : s.view.Among R)
    (hd : s.store.disk.Among R) (c : Call) : (s.enter c).Among R := by
  refine ⟨hk, hs, fun d hmem ↦ ?_⟩
  rw [List.mem_singleton.mp hmem]
  exact hd

/-- A call all of whose moves hand the property on keeps it. -/
theorem Impl.Among.exec {s : Impl} {c : Call}
    (hR : ∀ t a, c.op.Allows (s.enter c) t a → Inherited R a.1.Parts) (hs : (s.enter c).Among R) :
    (s.exec c).2.Among R :=
  (s.exec_trace c).invariant (I := Impl.Among R) (fun _ _ _ ht ha hm ↦ hm.among (hR _ _ ha) ht) hs

/-! ### Runs -/

/-- The records of the directory and of the instance that has it open have the property. -/
structure System.Among (R : AllocationRecord → Prop) (y : System) : Prop where
  disk : y.disk.Among R
  live : ∀ s, y.live = some s → s.store.disk = y.disk ∧ s.view.Keyed ∧ s.view.Among R

theorem System.Among.of_stopped {y : System} (h : y.disk.Among R) (hlive : y.live = none) :
    y.Among R := by
  refine ⟨h, fun s hs ↦ ?_⟩
  rw [hlive] at hs
  cases hs

theorem System.Among.of_live {y : System} {t : Impl} (h : t.Among R) (hlive : y.live = some t)
    (hdisk : t.store.disk = y.disk) : y.Among R := by
  refine ⟨hdisk ▸ h.disks _ List.mem_cons_self, fun s hs ↦ ?_⟩
  obtain rfl := Option.some.inj (hlive.symm.trans hs)
  exact ⟨hdisk, h.keyed, h.view⟩

/-- Opening a directory writes nothing but the new epoch and a snapshot of what it loads. -/
theorem Impl.openFabric_among {s t : Impl} {config : FabricConfig} {boot : BootInputs}
    {r : Except Status Unit} (h : s.openFabric config boot = (r, t))
    (hend : ∀ r, r.state.holdsUnits = false → R r) (hk : s.view.Keyed) (hs : s.view.Among R)
    (hd : s.store.disk.Among R) (htrail : s.store.trail = []) :
    (∀ d ∈ t.store.disk :: t.store.trail, d.Among R) ∧ (r = .ok () → t.Among R) := by
  have hsame : t.store.disk = s.store.disk → t.store.trail = s.store.trail →
      ∀ d ∈ t.store.disk :: t.store.trail, d.Among R := by
    intro hdisk hnone d hmem
    rw [hdisk, hnone, htrail] at hmem
    rw [List.mem_singleton.mp hmem]
    exact hd
  have hopened : r = .ok () → t.view.Among R := by
    rintro rfl
    rcases openFabric_view h with hview | ⟨-, -, hview⟩
    · rw [hview]
      exact hs
    · rw [hview]
      exact (hs.disk hd).settled hend _
  have hdisks : ∀ d ∈ t.store.disk :: t.store.trail, d.Among R := by
    by_cases hmode : config.persistence.mode = .none
    · obtain ⟨hdisk, hnone⟩ := openFabric_volatile h hmode
      exact hsame hdisk hnone
    rcases openFabric_cases h hmode with ⟨-, hdisk, hnone⟩ |
      ⟨m, t', res, hview, hdisk, hmtrail, -, -, hj, hd', ht', -⟩
    · exact hsame hdisk hnone
    have hmoved : Among R m := by
      refine ⟨?_, ?_, fun d hmem ↦ ?_⟩
      · rw [hview]
        exact (Disk.view_keyed hk).settled _
      · rw [hview]
        exact (hs.disk hd).settled hend _
      · rw [hdisk, hmtrail, htrail] at hmem
        rw [List.mem_singleton.mp hmem]
        exact hd
    have hrecord : (JournalRecord.epochAdvance m.epoch m.boot).Among R := by
      rintro op r ⟨⟩
    rw [hd', ht']
    exact journal_among hj hmoved.view hmoved.disks hrecord
  exact ⟨hdisks, fun hok ↦ ⟨openFabric_keyed (hok ▸ h) hk, hopened hok, hdisks⟩⟩

/-- A step keeps the property if its call does. -/
theorem System.Step.among {y y' : System} {ev : Event} (h : System.Step y ev y')
    (hend : ∀ r, r.state.holdsUnits = false → R r)
    (hcall : ∀ s c, y.live = some s → (ev = .called c ∨ ev = .crashed c) →
      (s.enter c).Among R → (s.exec c).2.Among R) (hy : y.Among R) : y'.Among R := by
  have hstart : ∀ {s t : Impl} {config : FabricConfig} {boot : Impl.BootInputs} {tick : Tick}
      {io : List Io} {r : Except Status Unit}, y.Idle s →
      (s.attach y.disk tick io).openFabric config boot = (r, t) →
      (∀ d ∈ t.store.disk :: t.store.trail, d.Among R) ∧ (r = .ok () → t.Among R) := by
    intro s t config boot tick io r hidle heq
    cases hidle with
    | fresh =>
        refine Impl.openFabric_among heq hend Impl.keyed_empty (fun k r hr ↦ ?_) hy.disk rfl
        cases hr
    | again hlive =>
        obtain ⟨-, hk, hview⟩ := hy.live _ hlive
        exact Impl.openFabric_among heq hend hk hview hy.disk rfl
  have hexec : ∀ {s : Impl} (c : Call), y.live = some s → (ev = .called c ∨ ev = .crashed c) →
      (s.exec c).2.Among R := by
    intro s c hlive hev
    obtain ⟨hdisk, hk, hview⟩ := hy.live s hlive
    exact hcall s c hlive hev (.enter hk hview (hdisk ▸ hy.disk) c)
  cases h with
  | opened hidle heq => exact .of_live ((hstart hidle heq).2 rfl) rfl rfl
  | openFailed hidle heq => exact .of_stopped ((hstart hidle heq).1 _ List.mem_cons_self) rfl
  | openCrashed hidle heq hd =>
      exact .of_stopped ((hstart hidle heq).1 _ (List.mem_cons_of_mem _ hd)) rfl
  | called c hlive => exact .of_live (hexec c hlive (.inl rfl)) rfl rfl
  | crashed c hlive _ hd =>
      exact .of_stopped ((hexec c hlive (.inr rfl)).disks _ (List.mem_cons_of_mem _ hd)) rfl
  | @closed s hlive =>
      obtain ⟨hdisk, hk, hview⟩ := hy.live s hlive
      refine ⟨hy.disk, fun s' hs' ↦ ?_⟩
      obtain rfl := Option.some.inj hs'
      refine ⟨(Impl.closeFabric_disk s).trans hdisk, ?_⟩
      unfold Impl.closeFabric
      split
      · exact ⟨hk, hview⟩
      · exact ⟨hk, hview⟩
  | stopped => exact .of_stopped hy.disk rfl
  | @rehashed s s' hlive hr =>
      obtain ⟨hdisk, hk, hview⟩ := hy.live s hlive
      refine ⟨hy.disk, fun u hu ↦ ?_⟩
      obtain rfl := Option.some.inj hu
      rw [hr.view_eq]
      refine ⟨?_, hk, hview⟩
      cases hr
      exact hdisk

theorem System.among_empty : ({} : System).Among R :=
  .of_stopped ⟨by simp, by simp⟩ rfl

/-! ### Units -/

def AllocationRecord.Sized (r : AllocationRecord) : Prop :=
  r.state.holdsUnits = true → 0 < r.units.toNat

theorem AllocationRecord.sized_inherited (part : Prop) : Inherited Sized part := by
  rintro s r - hs hstems hholds
  cases hstems with
  | ended hends => cases hholds.symm.trans hends
  | granted hfits => exact hfits.pos
  | kept hr hholds₀ hshare =>
      rw [hshare.units]
      exact hs _ _ hr hholds₀
  | @left k r₀ units _ hr hholds₀ hleft =>
      subst hleft
      rw [Nat.pos_iff_ne_zero]
      intro hzero
      unfold Impl.remainder at hholds hzero
      dsimp only at hholds hzero
      split at hholds
      · cases hholds
      · rename_i hne
        rw [if_neg hne] at hzero
        exact hne (Word.eq_zero_iff.mpr hzero)

/-- In every run, every record that holds units holds at least one. -/
theorem System.Run.sized {allow : System → Event → Prop} {y : System} (h : System.Run allow y)
    {s : Impl} (hlive : y.live = some s) {k : AllocationId} {r : AllocationRecord}
    (hr : s.allocations.lookup k = some r) (hholds : r.state.holdsUnits = true) :
    0 < r.units.toNat := by
  have hall := h.invariant (I := System.Among AllocationRecord.Sized) ?_ System.among_empty
  · exact (hall.live s hlive).2.2 k r hr hholds
  · intro _ _ _ hy _ hstep
    refine hstep.among ?_ (fun _ _ _ _ hs ↦ hs.exec fun _ _ _ ↦ AllocationRecord.sized_inherited _)
      hy
    intro r hends hholds
    cases hholds.symm.trans hends

end BufferFabric
