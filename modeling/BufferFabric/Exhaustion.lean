import BufferFabric.Images

/-!
# The allocation table

The fabric keeps the record of an allocation for good, also when it holds no units any more,
and a grant is refused when the table is full. The table outlasts every run in which fewer
grants were journaled than it has room for; it does not outlast a run that allocates and
releases one unit often enough.
-/

namespace BufferFabric

open Outcome

/-! ### Allocations on disk -/

def Disk.Mentions (d : Disk) (n : UInt64) : Prop :=
  (∃ i, d.snapshot = some i ∧ i.Names .allocation n) ∨ ∃ r ∈ d.journal, r.Names .allocation n

theorem Disk.Next.mentions {image : Image} {record : JournalRecord} {d d' : Disk} {n : UInt64}
    (h : Disk.Next image record d d') (hn : d'.Mentions n) :
    d.Mentions n ∨ image.Names .allocation n ∨ record.Names .allocation n := by
  have hsnap : ∀ {i : Image}, some image = some i → i.Names .allocation n →
      image.Names .allocation n := by
    intro i hi hin
    rwa [Option.some.inj hi]
  cases h with
  | same => exact .inl hn
  | appended =>
      rcases hn with hn | ⟨r, hr, hrn⟩
      · exact .inl (.inl hn)
      · rcases List.mem_append.mp hr with hr | hr
        · exact .inl (.inr ⟨r, hr, hrn⟩)
        · rw [List.mem_singleton.mp hr] at hrn
          exact .inr (.inr hrn)
  | replaced =>
      rcases hn with ⟨i, hi, hin⟩ | hn
      · exact .inr (.inl (hsnap hi hin))
      · exact .inl (.inr hn)
  | compacted =>
      rcases hn with ⟨i, hi, hin⟩ | ⟨r, hr, -⟩
      · exact .inr (.inl (hsnap hi hin))
      · cases hr
  | restarted =>
      rcases hn with ⟨i, hi, hin⟩ | ⟨r, hr, hrn⟩
      · exact .inr (.inl (hsnap hi hin))
      · rw [List.mem_singleton.mp hr] at hrn
        exact .inr (.inr hrn)

structure Recorded (G : UInt64 → Prop) (t : Impl) : Prop where
  keyed : t.view.Keyed
  uses : ∀ n, t.view.Uses .allocation n → G n
  disk : ∀ n, t.store.disk.Mentions n → G n
  trail : ∀ d ∈ t.store.trail, ∀ n, d.Mentions n → G n

namespace Recorded

variable {G : UInt64 → Prop} {s t j m : Impl}

theorem enter (h : Recorded G s) (c : Call) : Recorded G (s.enter c) :=
  ⟨h.keyed, h.uses, h.disk, fun _ hd ↦ absurd hd List.not_mem_nil⟩

/-- A journal write leaves the records of the directory, of the image and the one written. -/
theorem journal (h : Recorded G s) (hstore : j.store = s.store) (hk : m.view.Keyed)
    (hm : ∀ n, m.view.Uses .allocation n → G n)
    (hj : ∀ n, j.image.Names .allocation n → G n) {record : JournalRecord}
    {r : Except Status Unit} (hw : j.journal record = (r, t))
    (hr : ∀ n, record.Names .allocation n → G n) :
    Recorded G { m with store := t.store } := by
  obtain ⟨st, hst, hf, -⟩ := j.journal_spec record
  rw [hw] at hst
  simp only at hst
  subst hst
  rw [hstore] at hf
  have hnext : ∀ {d : Disk}, Disk.Next j.image record s.store.disk d → ∀ n, d.Mentions n → G n := by
    intro d hd n hn
    rcases hd.mentions hn with hn | hn | hn
    · exact h.disk n hn
    · exact hj n hn
    · exact hr n hn
  refine ⟨hk, hm, ?_, ?_⟩
  · rcases hf.disk with hd | hd
    · have hd : st.disk = s.store.disk := hd
      intro n hn
      have hn : st.disk.Mentions n := hn
      rw [hd] at hn
      exact h.disk n hn
    · exact hnext hd
  · intro d hd
    rcases hf.trail d hd with hd | hd
    · exact h.trail d hd
    · exact hnext hd

/-- A snapshot leaves the records of the directory and of the image. -/
theorem snapshot (h : Recorded G s) {r : Except Status Unit}
    (hw : s.writeFullSnapshot = (r, t)) : Recorded G t := by
  obtain ⟨st, hst, hf, -⟩ := s.writeFullSnapshot_spec
  rw [hw] at hst
  simp only at hst
  subst hst
  have hnext : ∀ {d : Disk}, Disk.Replaced s.image s.store.disk d → ∀ n, d.Mentions n → G n := by
    intro d hd n hn
    have hnext : Disk.Next s.image .checkpoint s.store.disk d := by
      cases hd with
      | same => exact .same
      | replaced => exact .replaced
      | compacted => exact .compacted
    rcases hnext.mentions hn with hn | hn | hn
    · exact h.disk n hn
    · exact h.uses n (Impl.image_names h.keyed hn)
    · exact absurd hn id
  refine ⟨h.keyed, h.uses, ?_, ?_⟩
  · rcases hf.disk with hd | hd
    · have hd : st.disk = s.store.disk := hd
      intro n hn
      have hn : st.disk.Mentions n := hn
      rw [hd] at hn
      exact h.disk n hn
    · exact hnext hd
  · intro d hd
    rcases hf.trail d hd with hd | hd
    · exact h.trail d hd
    · exact hnext hd

end Recorded

/-- Only a grant makes an allocation. -/
theorem Change.known {s m : Impl} {l : Label} {record : Option JournalRecord}
    (h : Change s l record m) (hk : s.view.Keyed) (hg : ∀ r, l ≠ .grant r)
    (hb : l ≠ .brokenGrant) :
    (∀ n, m.view.Uses .allocation n → s.view.Uses .allocation n) ∧
      ∀ x, record = some x → ∀ n, x.Names .allocation n → s.view.Uses .allocation n := by
  have hnames : ∀ x, record = some x → ∀ n, x.Names .allocation n →
      s.view.Uses .allocation n := by
    rintro x rfl n hn
    rcases h.names hk hb hn with hn | ⟨-, hgrant⟩
    · exact hn
    · obtain ⟨r, hr⟩ := hgrant rfl
      exact absurd hr (hg r)
  refine ⟨fun n hn ↦ ?_, hnames⟩
  have hn := (h.view_agrees hk hb).uses hn
  cases record with
  | none => exact hn
  | some x => exact (View.uses_apply hn).elim id (hnames x rfl n)

theorem JournalRecord.Known.uses {s : Impl} {record : JournalRecord} (h : record.Known s)
    (hk : s.view.Keyed) {n : UInt64} (hn : record.Names .allocation n) :
    s.view.Uses .allocation n := by
  cases record with
  | allocation op r =>
      obtain ⟨k, r₀, hr₀, hid⟩ := h
      have hn : r.id = ⟨n⟩ := hn
      refine ⟨r₀, ?_⟩
      rw [← hn, hid, hk.allocations k r₀ hr₀]
      exact hr₀
  | _ => exact absurd hn id

/-- A move that is no grant leaves no record of another allocation. -/
theorem Move.recorded {G : UInt64 → Prop} {s t : Impl} {a : Label × Bool} (h : Move s a t)
    (hs : Recorded G s) (hg : ∀ r, a.1 ≠ .grant r) (hb : a.1 ≠ .brokenGrant)
    (hr : a.1 ≠ .refused true) : Recorded G t := by
  have hkeyed := h.keyed hs.keyed
  have hwritten : ∀ {l : Label} {record : JournalRecord} {m j u : Impl} {r : Except Status Unit},
      Change s l (some record) m → (∀ r, l ≠ .grant r) → l ≠ .brokenGrant →
      j.store = s.store → (j.view = s.view ∨ j.view = m.view) → j.journal record = (r, u) →
      Recorded G { m with store := u.store } := by
    intro l record m j u r h hg hb hstore hview hj
    obtain ⟨huses, hnames⟩ := h.known hs.keyed hg hb
    have hmk := h.keyed hs.keyed
    have hmu : ∀ n, m.view.Uses .allocation n → G n := fun n hn ↦ hs.uses n (huses n hn)
    refine hs.journal hstore hmk hmu (fun n hn ↦ ?_) hj fun n hn ↦
      hs.uses n (hnames record rfl n hn)
    rcases hview with hview | hview
    · have hn := Impl.image_names (by rw [hview]; exact hs.keyed) hn
      rw [hview] at hn
      exact hs.uses n hn
    · have hn := Impl.image_names (by rw [hview]; exact hmk) hn
      rw [hview] at hn
      exact hmu n hn
  cases h with
  | volatile h =>
      refine ⟨hkeyed, fun n hn ↦ hs.uses n ((h.known hs.keyed hg hb).1 n hn), ?_, ?_⟩
      · rw [h.frame.1]
        exact hs.disk
      · rw [h.frame.1]
        exact hs.trail
  | written h hstore hview hj hnotes => exact hwritten h hg hb hstore hview hj
  | unlogged h hstore hview hj hnotes => exact hwritten h hg hb hstore (.inr hview) hj
  | @refused grant record u e hj hfrom hknown =>
      have hgrant : grant = false := by
        cases grant with
        | false => rfl
        | true => exact absurd rfl hr
      rw [Impl.eq_of_journal hj]
      exact hs.journal rfl hs.keyed hs.uses
        (fun n hn ↦ hs.uses n (Impl.image_names hs.keyed hn)) hj
        fun n hn ↦ hs.uses n ((hknown hgrant).uses hs.keyed hn)
  | @lostRelease record pools u e hsh hj hfrom hknown =>
      have hview := Impl.view_eq_of_shapes hsh
      have hpk : ({ s with pools := pools } : Impl).view.Keyed := by
        rw [hview]
        exact hs.keyed
      have hpu : ∀ n, ({ s with pools := pools } : Impl).view.Uses .allocation n → G n := by
        rw [hview]
        exact hs.uses
      rw [Impl.eq_of_journal hj]
      exact hs.journal (j := { s with pools := pools }) rfl hpk hpu
        (fun n hn ↦ hpu n (Impl.image_names hpk hn)) hj
        fun n hn ↦ hs.uses n (hknown.uses hs.keyed hn)
  | snapshot h => exact hs.snapshot h

/-! ### Calls -/

namespace Impl

/-- The record an allocate call writes to the journal, if it gets that far. -/
def plannedGrant (s : Impl) (q : AllocateRequest) : Option AllocationRecord :=
  match s.admitAllocate q with
  | .ok (none, entry, queue, policy) =>
    match s.assertAllocate q entry queue policy with
    | .error _ => none
    | .ok _ =>
      match s.decideGrant q entry queue policy (s.resolveEvidence entry) with
      | .inl _ => none
      | .inr g =>
        match s.planRecord q entry queue policy g with
        | .error _ => none
        | .ok r => some r
  | _ => none

variable {s : Impl}

/-- A grant writes its record, and makes no other allocation. -/
theorem applyGrant_frame {q : AllocateRequest} {entry : PoolEntry} {policy : PoolPolicy}
    {g : Grant} {r : AllocationRecord} (queue : QueueDescriptor) (evidence : PressureEvidence)
    (hfits : GrantFits s q.pool entry policy r) (hunits : r.units = g.units)
    (hborrow : r.borrowUnits = g.borrow) :
    (s.applyGrant q entry queue policy evidence g r).2.store =
        (s.journal (.allocation (journalOpFor r.state) r)).2.store ∧
      ∀ k, k ≠ r.id → (s.applyGrant q entry queue policy evidence g r).2.allocations.lookup k =
        s.allocations.lookup k := by
  have hput : ∀ k, k ≠ r.id → (s.allocations.insert r.id r).lookup k = s.allocations.lookup k := by
    intro k hk
    rw [Table.lookup_insert_eq, if_neg hk]
  have hend := applyGrant_cases queue evidence hfits hunits hborrow
  generalize s.applyGrant q entry queue policy evidence g r = result at hend ⊢
  cases hend with
  | lost hj =>
      rw [hj, eq_of_journal hj]
      exact ⟨rfl, fun _ _ ↦ rfl⟩
  | broken hj =>
      rw [hj]
      exact ⟨rfl, fun _ _ ↦ rfl⟩
  | unclosed hj =>
      rw [hj]
      exact ⟨rfl, hput⟩
  | done hj hpools hclosure hfinish =>
      obtain ⟨runtime, a, -, rfl, -⟩ := finishAllocate_spec hfinish
      obtain ⟨order, attempts, hframe⟩ := recordAttempt_frame (advanceDecision _) a
      dsimp only
      rw [hj, hframe]
      exact ⟨rfl, hput⟩

end Impl

namespace Recorded

variable {G : UInt64 → Prop} {s t : Impl}

/-- An allocate call makes at most the allocation with the next id. -/
theorem allocate (h : Recorded G s) (q : AllocateRequest)
    (hnew : ∀ r, s.plannedGrant q = some r → G s.counters.nextAllocationId) :
    Recorded G (s.allocateLocked q).2 := by
  unfold Impl.plannedGrant at hnew
  have hkeyed : (s.allocateLocked q).2.view.Keyed :=
    (@Impl.allocateLocked_trace s s q).invariant (I := fun u ↦ u.view.Keyed)
      (fun _ _ _ hi _ hm ↦ hm.keyed hi) h.keyed
  unfold Impl.allocateLocked at hkeyed ⊢
  split
  · exact h
  · exact h
  rename_i entry queue policy hadm
  rw [hadm] at hnew hkeyed
  dsimp only at hnew hkeyed
  obtain ⟨-, -, -, hl, -⟩ := Impl.admitAllocate_ok hadm
  split
  · exact h
  rename_i u hassert
  rw [hassert] at hnew hkeyed
  dsimp only at hnew hkeyed ⊢
  split
  · -- a refusal moves nothing but the runtime counters and the attempts
    generalize hf : s.finishAllocate q queue policy _ _ _ _ _ _ _ _ _ _ = f
    rcases f with ⟨d, m⟩
    obtain ⟨runtime, a, hfigures, rfl, -⟩ := Impl.finishAllocate_spec hf
    have hpath : (Op.commit default).Trace s s _ :=
      Impl.finish_trace runtime a hfigures hl fun _ ↦ .inr (.inl ⟨default, rfl⟩)
    refine hpath.invariant (I := Recorded G) (fun u x v hu hx hm ↦ hm.recorded hu ?_ ?_ ?_) h
    all_goals
      intros
      intro hlabel
      unfold Op.Allows at hx
      rw [hlabel] at hx
      simp at hx
  rename_i g hgrant
  rw [hgrant] at hnew hkeyed
  dsimp only at hnew hkeyed
  split
  · exact h
  rename_i r hplan
  rw [hplan] at hnew hkeyed
  have hG := hnew r rfl
  obtain ⟨hfits, hunits, hborrow⟩ := Impl.grantFits hadm hassert hgrant hplan
  obtain ⟨hstore, hallocations⟩ :=
    Impl.applyGrant_frame queue (s.resolveEvidence entry) hfits hunits hborrow
  have hid : ∀ n : UInt64, r.id = ⟨n⟩ → G n := by
    intro n hn
    rw [hfits.id_eq] at hn
    rwa [← StrongId.mk.inj hn]
  have huses : ∀ n, (s.applyGrant q entry queue policy (s.resolveEvidence entry) g
      r).2.view.Uses .allocation n → G n := by
    rintro n ⟨r', hr'⟩
    by_cases hn : (⟨n⟩ : AllocationId) = r.id
    · exact hid n hn.symm
    · exact h.uses n ⟨r', (hallocations _ hn).symm.trans hr'⟩
  generalize hj : s.journal (.allocation (journalOpFor r.state) r) = w at hstore
  rcases w with ⟨res, t⟩
  have hdone := h.journal rfl hkeyed huses
    (fun n hn ↦ h.uses n (Impl.image_names h.keyed hn)) hj hid
  dsimp only at hstore
  rw [← hstore] at hdone
  exact hdone

end Recorded

namespace Recorded

variable {G : UInt64 → Prop} {s t : Impl}

/-- A call makes no allocation, unless it journals a grant. -/
theorem exec (h : Recorded G s) (c : Call)
    (hnew : ∀ q r, c.op = .allocate q → (s.enter c).plannedGrant q = some r →
      G s.counters.nextAllocationId) : Recorded G (s.exec c).2 := by
  have henter := h.enter c
  by_cases hop : ∃ q, c.op = .allocate q
  · obtain ⟨q, hop⟩ := hop
    have hdone := henter.allocate q fun r hr ↦ hnew q r hop hr
    unfold Impl.exec Impl.run
    rw [hop]
    exact hdone
  · refine (s.exec_trace c).invariant (I := Recorded G)
      (fun u a v hu ha hm ↦ hm.recorded hu ?_ ?_ ?_) henter
    · intro r hl
      unfold Op.Allows at ha
      rw [hl] at ha
      exact hop ha.2
    · intro hl
      unfold Op.Allows at ha
      rw [hl] at ha
      exact hop ha
    · intro hl
      unfold Op.Allows at ha
      rw [hl] at ha
      exact hop (ha rfl)

/-- Opening a directory makes no allocation, on a new instance or on one that was used before. -/
theorem openFabric (h : Recorded G s) {config : FabricConfig} {boot : Impl.BootInputs}
    {r : Except Status Unit} (hopen : s.openFabric config boot = (r, t)) :
    (∀ n, t.store.disk.Mentions n → G n) ∧ (∀ d ∈ t.store.trail, ∀ n, d.Mentions n → G n) ∧
      (r = .ok () → Recorded G t) := by
  by_cases hmode : config.persistence.mode = .none
  · unfold Impl.openFabric at hopen
    split at hopen
    · obtain ⟨rfl, rfl⟩ := Prod.mk.inj hopen
      exact ⟨h.disk, h.trail, fun _ ↦ h⟩
    rw [Impl.openDurable, if_pos hmode] at hopen
    dsimp only at hopen
    unfold Impl.beginEpoch at hopen
    split at hopen
    · obtain ⟨rfl, rfl⟩ := Prod.mk.inj hopen
      exact ⟨h.disk, h.trail, fun _ ↦ ⟨h.keyed, h.uses, h.disk, h.trail⟩⟩
    · dsimp only at hopen
      obtain ⟨rfl, rfl⟩ := Prod.mk.inj hopen
      exact ⟨h.disk, h.trail, fun _ ↦ ⟨h.keyed, h.uses, h.disk, h.trail⟩⟩
  · rcases Impl.openFabric_cases hopen hmode with ⟨⟨e, rfl⟩, hd, ht⟩ | ⟨m, t', res, hview, hdisk,
      htrail, -, -, hj, hd, ht, hok⟩
    · rw [hd, ht]
      exact ⟨h.disk, h.trail, by simp⟩
    · have hloaded : Recorded G m := by
        refine ⟨?_, ?_, ?_, ?_⟩
        · rw [hview]
          exact (Disk.view_keyed h.keyed).settled _
        · rw [hview]
          intro n hn
          rw [View.uses_settled] at hn
          rcases Disk.uses_view hn with hn | hn
          · exact h.uses n hn
          · exact h.disk n hn
        · rw [hdisk]
          exact h.disk
        · rw [htrail]
          exact h.trail
      have hdone := hloaded.journal rfl hloaded.keyed hloaded.uses
        (fun n hn ↦ hloaded.uses n (Impl.image_names hloaded.keyed hn)) hj fun n hn ↦ absurd hn id
      rw [hd, ht]
      refine ⟨hdone.disk, hdone.trail, fun hr ↦ ?_⟩
      obtain ⟨rfl, -⟩ := hok hr
      rw [Impl.eq_of_journal hj]
      exact hdone

end Recorded

/-! ### Runs -/

def System.Grants (y : System) (ev : Event) : Prop :=
  ∃ s c q r, y.live = some s ∧ (ev = .called c ∨ ev = .crashed c) ∧ c.op = .allocate q ∧
    (s.enter c).plannedGrant q = some r

/-- The systems that runs from an empty directory reach, with the number of grants that were
journaled on the way. -/
inductive System.GrantRun : ℕ → System → Prop
  | start : GrantRun 0 {}
  | other {n : ℕ} {y y' : System} {ev : Event} (h : GrantRun n y) (hev : ¬y.Grants ev)
      (hs : System.Step y ev y') : GrantRun n y'
  | grant {n : ℕ} {y y' : System} {ev : Event} (h : GrantRun n y) (hev : y.Grants ev)
      (hs : System.Step y ev y') : GrantRun (n + 1) y'

/-- Every allocation in memory and on disk is one of `ids`. -/
structure System.Confined (ids : List UInt64) (y : System) : Prop where
  disk : ∀ n, y.disk.Mentions n → n ∈ ids
  live : ∀ s, y.live = some s → s.view.Keyed ∧ ∀ n, s.view.Uses .allocation n → n ∈ ids
  same : ∀ s, y.live = some s → s.store.disk = y.disk

namespace System.Confined

variable {ids : List UInt64} {y y' : System}

theorem mono {ids' : List UInt64} (h : y.Confined ids) (hle : ∀ n ∈ ids, n ∈ ids') :
    y.Confined ids' :=
  ⟨fun n hn ↦ hle n (h.disk n hn),
    fun s hs ↦ ⟨(h.live s hs).1, fun n hn ↦ hle n ((h.live s hs).2 n hn)⟩, h.same⟩

theorem of_stopped (hdisk : ∀ n, y.disk.Mentions n → n ∈ ids) (hlive : y.live = none) :
    y.Confined ids := by
  refine ⟨hdisk, fun s hs ↦ ?_, fun s hs ↦ ?_⟩
  all_goals
    rw [hlive] at hs
    cases hs

theorem of_live {s : Impl} (hs : Recorded (· ∈ ids) s) (hlive : y.live = some s)
    (hdisk : s.store.disk = y.disk) : y.Confined ids := by
  refine ⟨?_, fun s' hs' ↦ ?_, fun s' hs' ↦ ?_⟩
  · rw [← hdisk]
    exact hs.disk
  · obtain rfl := Option.some.inj (hlive.symm.trans hs')
    exact ⟨hs.keyed, hs.uses⟩
  · obtain rfl := Option.some.inj (hlive.symm.trans hs')
    exact hdisk

/-- A step makes no allocation but the one a grant takes the id for. -/
theorem step (h : y.Confined ids) {ev : Event} (hs : System.Step y ev y')
    (hnew : y.Grants ev → ∀ s, y.live = some s → s.counters.nextAllocationId ∈ ids) :
    y'.Confined ids := by
  have hattach : ∀ {s : Impl} {tick : Tick} {io : List Io}, y.Idle s →
      Recorded (· ∈ ids) (s.attach y.disk tick io) := by
    intro s tick io hidle
    have hempty : ∀ d ∈ ([] : List Disk), ∀ n, d.Mentions n → n ∈ ids :=
      fun _ hd ↦ absurd hd List.not_mem_nil
    cases hidle with
    | fresh =>
        refine ⟨Impl.keyed_empty, ?_, h.disk, hempty⟩
        rintro n ⟨r, hr⟩
        cases hr
    | again hlive =>
        obtain ⟨hk, hu⟩ := h.live _ hlive
        exact ⟨hk, hu, h.disk, hempty⟩
  have hcall : ∀ {s : Impl} (c : Call), y.live = some s → (ev = .called c ∨ ev = .crashed c) →
      Recorded (· ∈ ids) (s.exec c).2 := by
    intro s c hlive hc
    obtain ⟨hk, hu⟩ := h.live s hlive
    have hstart : Recorded (· ∈ ids) (s.enter c) := by
      refine ⟨hk, hu, ?_, fun _ hd ↦ absurd hd List.not_mem_nil⟩
      change ∀ n, s.store.disk.Mentions n → n ∈ ids
      rw [h.same s hlive]
      exact h.disk
    have hexec : s.exec c = (s.enter c).exec c := rfl
    rw [hexec]
    exact hstart.exec c fun q r hop hr ↦ hnew ⟨s, c, q, r, hlive, hc, hop, hr⟩ s hlive
  cases hs with
  | opened hidle heq => exact .of_live (((hattach hidle).openFabric heq).2.2 rfl) rfl rfl
  | openFailed hidle heq => exact .of_stopped ((hattach hidle).openFabric heq).1 rfl
  | openCrashed hidle heq hd =>
      exact .of_stopped (((hattach hidle).openFabric heq).2.1 _ hd) rfl
  | called c hlive => exact .of_live (hcall c hlive (.inl rfl)) rfl rfl
  | crashed c hlive _ hd => exact .of_stopped ((hcall c hlive (.inr rfl)).trail _ hd) rfl
  | @closed s hlive =>
      obtain ⟨hk, hu⟩ := h.live s hlive
      refine ⟨h.disk, fun s' hs' ↦ ?_, fun s' hs' ↦ ?_⟩
      all_goals obtain rfl := Option.some.inj hs'
      · unfold Impl.closeFabric
        split
        · exact ⟨hk, hu⟩
        · exact ⟨hk, hu⟩
      · exact (Impl.closeFabric_disk s).trans (h.same s hlive)
  | stopped => exact .of_stopped h.disk rfl
  | @rehashed s s' hlive hr =>
      obtain ⟨hk, hu⟩ := h.live s hlive
      have hview := hr.view_eq
      refine ⟨h.disk, fun t ht ↦ ?_, fun t ht ↦ ?_⟩
      all_goals obtain rfl := Option.some.inj ht
      · rw [hview]
        exact ⟨hk, hu⟩
      · cases hr
        exact h.same s hlive

end System.Confined

/-- A run with `n` grants has at most `n` allocations, in memory and on disk. -/
theorem System.GrantRun.confined {n : ℕ} {y : System} (h : System.GrantRun n y) :
    ∃ ids : List UInt64, ids.length = n ∧ y.Confined ids := by
  induction h with
  | start =>
      refine ⟨[], rfl, .of_stopped ?_ rfl⟩
      rintro n (⟨i, hi, -⟩ | ⟨r, hr, -⟩)
      · cases hi
      · cases hr
  | other h hev hs ih =>
      obtain ⟨ids, hlen, hids⟩ := ih
      exact ⟨ids, hlen, hids.step hs fun hg ↦ absurd hg hev⟩
  | @grant n y y' ev h hev hs ih =>
      obtain ⟨ids, hlen, hids⟩ := ih
      obtain ⟨s, c, q, r, hlive, -⟩ := id hev
      refine ⟨s.counters.nextAllocationId :: ids, congrArg (· + 1) hlen,
        (hids.mono fun n hn ↦ List.mem_cons_of_mem _ hn).step hs fun _ s' hs' ↦ ?_⟩
      obtain rfl := Option.some.inj (hlive.symm.trans hs')
      exact List.mem_cons_self

/-- In every run in which fewer grants were journaled than the table has room for, no call
fails because the table has reached its bound. -/
theorem allocation_table_lasts {n : ℕ} {y : System} {s : Impl} (hrun : System.GrantRun n y)
    (hn : n < kMaxAllocationCount) (hlive : y.live = some s) (c : Call) :
    ¬∃ e, (s.enter c).ensureAllocCapacity = .error e ∧ (s.exec c).1 = .error e := by
  obtain ⟨ids, hlen, hids⟩ := hrun.confined
  have hsize : s.allocations.size ≤ ids.length := by
    have hnodup : (s.allocations.keys.map StrongId.raw).Nodup := by
      refine s.allocations.keys_nodup.map ?_
      rintro ⟨a⟩ ⟨b⟩ rfl
      rfl
    have hsub : s.allocations.keys.map StrongId.raw ⊆ ids := by
      intro n hmem
      obtain ⟨k, hk, rfl⟩ := List.mem_map.mp hmem
      exact (hids.live s hlive).2 k.raw (Table.mem_keys_iff.mp hk)
    have hlength := (List.subperm_of_subset hnodup hsub).length_le
    rwa [List.length_map, AList.keys, List.keys, List.length_map] at hlength
  have hroom : (s.enter c).ensureAllocCapacity = .ok () := by
    unfold Impl.ensureAllocCapacity
    rw [require_eq_ok]
    change s.allocations.size < kMaxAllocationCount
    omega
  rintro ⟨e, he, -⟩
  rw [hroom] at he
  cases he

/-! ### A run with one grant -/

def System.grantsCheck (y : System) : Command → Bool
  | .call c =>
      match c.op, y.live with
      | .allocate q, some s => ((s.enter c).plannedGrant q).isSome
      | _, _ => false
  | _ => false

theorem System.grantsCheck_iff (y : System) (k : Command) :
    y.grantsCheck k = true ↔ y.Grants k.event := by
  constructor
  · intro h
    unfold System.grantsCheck at h
    split at h
    · split at h
      · rename_i q s hop hlive
        obtain ⟨r, hr⟩ := Option.isSome_iff_exists.mp h
        exact ⟨s, _, q, r, hlive, .inl rfl, hop, hr⟩
      · cases h
    · cases h
  · rintro ⟨s, c, q, r, hlive, hev, hop, hr⟩
    cases k with
    | call c' =>
        have hc : c' = c := by
          rcases hev with hev | hev
          · exact Event.called.inj hev
          · cases hev
        subst hc
        unfold System.grantsCheck
        dsimp only
        rw [hop, hlive]
        dsimp only
        rw [hr]
        rfl
    | start config => rcases hev with hev | hev <;> cases hev
    | stop => rcases hev with hev | hev <;> cases hev

def System.counted (y : System) (n : ℕ) : List Command → Option (ℕ × System)
  | [] => some (n, y)
  | k :: ks => (y.perform k).bind fun y' ↦ y'.counted (if y.grantsCheck k then n + 1 else n) ks

theorem System.GrantRun.counted {n m : ℕ} {y y' : System} {ks : List Command}
    (h : System.GrantRun n y) (hs : y.counted n ks = some (m, y')) : System.GrantRun m y' := by
  induction ks generalizing n y with
  | nil =>
      obtain ⟨rfl, rfl⟩ := Prod.mk.inj (Option.some.inj hs)
      exact h
  | cons k ks ih =>
      obtain ⟨u, hu, hs⟩ := Option.bind_eq_some_iff.mp hs
      refine ih ?_ hs
      split
      · rename_i hg
        exact .grant h ((y.grantsCheck_iff k).mp hg) (System.perform_step hu)
      · rename_i hg
        exact .other h (fun hgrants ↦ hg ((y.grantsCheck_iff k).mpr hgrants))
          (System.perform_step hu)

/-- After one grant the table still has room. -/
theorem allocation_table_lasts_one :
    ∃ (y : System) (s : Impl), System.GrantRun 1 y ∧ y.live = some s ∧ s.allocations.size = 1 ∧
      ¬∃ e, (s.enter (askUnits 2 10 true)).ensureAllocCapacity = .error e ∧
        (s.exec (askUnits 2 10 true)).1 = .error e := by
  have h : (System.counted {} 0
      (([.start smallConfig] ++ (smallSetup ++ [askUnits 1 40 true]).map .call) :
        List Command)).any (fun x ↦ decide (x.1 = 1) && x.2.live.any fun s ↦
          decide (s.allocations.size = 1)) = true := by
    decide +kernel
  obtain ⟨⟨n, y⟩, hy, h⟩ := (Option.any_eq_true _ _).mp h
  obtain ⟨hn, h⟩ := Bool.and_eq_true_iff.mp h
  obtain rfl : n = 1 := of_decide_eq_true hn
  obtain ⟨s, hs, hsize⟩ := (Option.any_eq_true _ _).mp h
  have hrun : System.GrantRun 1 y := System.GrantRun.start.counted hy
  exact ⟨y, s, hrun, hs, of_decide_eq_true hsize,
    allocation_table_lasts hrun (by decide) hs (askUnits 2 10 true)⟩

end BufferFabric
