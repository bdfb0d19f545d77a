import BufferFabric.Loading

/-!
# Runs over one durable directory

A system is a directory, the instance that has it open, and the ids that were handed out.
Sessions begin with an open, which may fail or crash, and end with a close or a crash; a
crash leaves any of the contents the directory went through during the call.
-/

namespace BufferFabric

open Outcome

/-! ### Opening a directory -/

namespace Impl

variable {s t : Impl} {config : FabricConfig} {boot : BootInputs}

/-- `open` in a durable mode fails and leaves the directory alone, or loads it and journals
the new epoch from the state that was loaded. -/
theorem openFabric_begun {r : Except Status Unit} (h : s.openFabric config boot = (r, t))
    (hmode : config.persistence.mode ≠ .none) :
    ((∃ e, r = .error e) ∧ t.store.disk = s.store.disk ∧ t.store.trail = s.store.trail) ∨
      ∃ m t' : Impl, ∃ res,
        ({ s with
          config := config
          store := { s.store with
            config := config.persistence, configured := true } } : Impl).loadFromStore =
          (.ok (), m) ∧ ¬AddOverflow m.epoch.raw 1 ∧
        (m.begun boot m.epoch).journal (.epochAdvance ⟨m.epoch.raw + 1⟩ (mintBoot boot)) =
          (res, t') ∧
        t.store.disk = t'.store.disk ∧ t.store.trail = t'.store.trail ∧
        (r = .ok () → t = t' ∧ res = .ok ()) := by
  unfold openFabric at h
  split at h
  · obtain ⟨rfl, rfl⟩ := Prod.mk.inj h
    exact .inl ⟨⟨_, rfl⟩, rfl, rfl⟩
  rename_i u hcheck
  cases hload : { s with config := config }.openDurable config with
  | mk res m =>
      rw [hload] at h
      unfold openDurable at hload
      rw [if_neg hmode] at hload
      unfold DurableStore.configure at hload
      cases hvalid : config.persistence.validate with
      | error e =>
          rw [hvalid] at hload
          obtain ⟨rfl, rfl⟩ := Prod.mk.inj hload
          obtain ⟨rfl, rfl⟩ := Prod.mk.inj h
          exact .inl ⟨⟨_, rfl⟩, rfl, rfl⟩
      | ok v =>
          rw [hvalid] at hload
          dsimp only at hload
          split at hload
          · rename_i e m' hl
            obtain ⟨rfl, rfl⟩ := Prod.mk.inj hload
            obtain ⟨rfl, rfl⟩ := Prod.mk.inj h
            obtain ⟨hd, ht⟩ := loadFromStore_frame hl
            exact .inl ⟨⟨_, rfl⟩, hd, ht⟩
          · rename_i w m' hl
            obtain ⟨rfl, rfl⟩ := Prod.mk.inj hload
            obtain ⟨-, -, -, hdisk, -, htrail, -, -⟩ := loadFromStore_view hl
            dsimp only at h
            unfold beginEpoch at h
            split at h
            · obtain ⟨rfl, rfl⟩ := Prod.mk.inj h
              exact .inl ⟨⟨_, rfl⟩, hdisk, htrail⟩
            rename_i hroom
            dsimp only at h
            right
            split at h
            · rename_i e t' hj
              obtain ⟨rfl, rfl⟩ := Prod.mk.inj h
              exact ⟨m', t', .error e, hl, fun ho ↦ hroom (.inl ho), hj, rfl, rfl, by simp⟩
            · rename_i x t' hj
              obtain ⟨rfl, rfl⟩ := Prod.mk.inj h
              exact ⟨m', t', .ok (), hl, fun ho ↦ hroom (.inl ho), hj, rfl, rfl,
                fun _ ↦ ⟨rfl, rfl⟩⟩

/-- What `open` in a durable mode does to the directory: nothing, or the journaling of the
new epoch from the state that was loaded. -/
theorem openFabric_cases {r : Except Status Unit} (h : s.openFabric config boot = (r, t))
    (hmode : config.persistence.mode ≠ .none) :
    ((∃ e, r = .error e) ∧ t.store.disk = s.store.disk ∧ t.store.trail = s.store.trail) ∨
      ∃ m t' : Impl, ∃ res, m.view = (s.store.disk.view s.view).settled s.tick ∧
        m.store.disk = s.store.disk ∧ m.store.trail = s.store.trail ∧
        m.store.config = config.persistence ∧ m.isOpen = true ∧
        m.journal (.epochAdvance m.epoch m.boot) = (res, t') ∧
        t.store.disk = t'.store.disk ∧ t.store.trail = t'.store.trail ∧
        (r = .ok () → t = t' ∧ res = .ok ()) := by
  rcases openFabric_begun h hmode with hfailed | ⟨m, t', res, hl, -, hj, hd, ht, hok⟩
  · exact .inl hfailed
  · obtain ⟨-, -, hview, hdisk, hconfig, htrail, -, -⟩ := loadFromStore_view hl
    exact .inr ⟨m.begun boot m.epoch, t', res, hview, hdisk, htrail, hconfig, rfl, hj, hd, ht, hok⟩

end Impl

/-! ### Systems -/

structure System where
  disk : Disk := {}
  live : Option Impl := none
  granted : List AllocationId := []

/-- The id a call hands out: that of a grant which is not the replay of an earlier one. -/
def Impl.granting (s : Impl) (c : Call) : Option AllocationId :=
  match c.op, (s.exec c).1 with
  | .allocate _, .ok (.decision d) =>
      if d.kind = .grant ∨ d.kind = .grantPartial then some d.allocation else none
  | _, _ => none

def Impl.attach (s : Impl) (disk : Disk) (tick : Tick) (io : List Io) : Impl :=
  { s with tick := tick, store := { s.store with disk := disk, io := io, trail := [] } }

inductive Event where
  | opened (config : FabricConfig)
  | openFailed (config : FabricConfig)
  | openCrashed (config : FabricConfig)
  | called (c : Call)
  | crashed (c : Call)
  | closed
  | stopped
  | rehashed

def Event.opens : Event → Option FabricConfig
  | .opened config | .openFailed config | .openCrashed config => some config
  | _ => none

/-- The instance an open is made on: a new one, or one that was closed. -/
inductive System.Idle (y : System) : Impl → Prop
  | fresh (h : y.live = none) : Idle y {}
  | again {s : Impl} (h : y.live = some s) (hclosed : s.isOpen = false) : Idle y s

/-- The steps of a system. A crash during a call leaves a content the directory had during
that call, and the instance is gone. -/
inductive System.Step (y : System) : Event → System → Prop
  | opened {s₀ s : Impl} {config : FabricConfig} {boot : Impl.BootInputs} {tick : Tick}
      {io : List Io} (hidle : y.Idle s₀)
      (h : (s₀.attach y.disk tick io).openFabric config boot = (.ok (), s)) :
      Step y (.opened config) { y with disk := s.store.disk, live := some s }
  | openFailed {s₀ s : Impl} {config : FabricConfig} {boot : Impl.BootInputs} {tick : Tick}
      {io : List Io} {e : Status} (hidle : y.Idle s₀)
      (h : (s₀.attach y.disk tick io).openFabric config boot = (.error e, s)) :
      Step y (.openFailed config) { y with disk := s.store.disk, live := none }
  | openCrashed {s₀ s : Impl} {config : FabricConfig} {boot : Impl.BootInputs} {tick : Tick}
      {io : List Io} {r : Except Status Unit} {d : Disk} (hidle : y.Idle s₀)
      (h : (s₀.attach y.disk tick io).openFabric config boot = (r, s))
      (hd : d ∈ s.store.trail) :
      Step y (.openCrashed config) { y with disk := d, live := none }
  | called {s : Impl} (c : Call) (hlive : y.live = some s) (hopen : s.isOpen = true) :
      Step y (.called c)
        { disk := (s.exec c).2.store.disk
          live := some (s.exec c).2
          granted := y.granted ++ (s.granting c).toList }
  | crashed {s : Impl} (c : Call) {d : Disk} (hlive : y.live = some s) (hopen : s.isOpen = true)
      (hd : d ∈ (s.exec c).2.store.trail) :
      Step y (.crashed c) { y with disk := d, live := none }
  | closed {s : Impl} (hlive : y.live = some s) :
      Step y .closed { y with live := some s.closeFabric }
  | stopped : Step y .stopped { y with live := none }
  | rehashed {s s' : Impl} (hlive : y.live = some s) (hr : s.Rehash s') :
      Step y .rehashed { y with live := some s' }

/-- The systems that runs from an empty directory reach by allowed steps. -/
abbrev System.Run (allow : System → Event → Prop) : System → Prop :=
  StepPath System.Step allow {}

/-! ### Sessions within runs -/

/-- No call opens or closes the instance. -/
theorem Move.isOpen_eq {s t : Impl} {a : Label × Bool} (h : Move s a t) :
    t.isOpen = s.isOpen := by
  by_cases hl : a.1 = .lostRelease
  · cases h with
    | lostRelease _ hj =>
        rw [Impl.eq_of_journal hj]
    | volatile h | written h | unlogged h => cases hl; cases h
    | refused | snapshot => cases hl
  · exact h.keeps (I := fun u ↦ u.isOpen = s.isOpen) hl (fun _ _ h ↦ h)
      (fun _ _ hc ↦ hc.frame.2.2.1) rfl

theorem Impl.exec_isOpen (s : Impl) (c : Call) : (s.exec c).2.isOpen = s.isOpen :=
  (s.exec_trace c).invariant (I := fun t ↦ t.isOpen = s.isOpen)
    (fun _ _ _ ht _ hm ↦ hm.isOpen_eq.trans ht) rfl

theorem FreshlyOpened.isOpen {start : Impl} (h : FreshlyOpened start) : start.isOpen = true := by
  obtain ⟨h⟩ := h
  obtain ⟨-, -, _, m, -, hbegin⟩ := Impl.openFabric_ok h
  rcases Impl.beginEpoch_ok hbegin with ⟨-, rfl⟩ | ⟨-, hj⟩
  · rfl
  · rw [Impl.eq_of_journal hj]
    rfl

/-- The instance of a session is the instance of a run that allows its calls. -/
theorem SessionRun.system {P : Impl → Call → Prop} {allow : System → Event → Prop}
    (hcall : ∀ y s c, y.live = some s → P s c → allow y (.called c))
    (hrehash : ∀ y, allow y .rehashed) {start s : Impl} (h : SessionRun P start s) {y : System}
    (hrun : System.Run allow y) (hlive : y.live = some start) (hopen : start.isOpen = true) :
    ∃ y', System.Run allow y' ∧ y'.live = some s ∧ s.isOpen = true := by
  induction h with
  | refl => exact ⟨y, hrun, hlive, hopen⟩
  | @call s c _ hp ih =>
      obtain ⟨y', hrun', hlive', hopen'⟩ := ih
      exact ⟨_, hrun'.tail (hcall y' s c hlive' hp) (.called c hlive' hopen'), rfl,
        (s.exec_isOpen c).trans hopen'⟩
  | rehash _ hr ih =>
      obtain ⟨y', hrun', hlive', hopen'⟩ := ih
      refine ⟨_, hrun'.tail (hrehash y') (.rehashed hlive' hr), rfl, ?_⟩
      cases hr
      exact hopen'

theorem FreshlyOpened.system {allow : System → Event → Prop}
    (hopened : ∀ config, allow {} (.opened config)) {start : Impl} (h : FreshlyOpened start) :
    ∃ y, System.Run allow y ∧ y.live = some start := by
  obtain ⟨h⟩ := h
  exact ⟨_, StepPath.refl.tail (hopened _) (.opened (.fresh rfl) h), rfl⟩

/-! ### Invariants of runs -/

structure System.Holds (P : Impl → Prop) (D : Disk → Prop) (y : System) : Prop where
  disk : D y.disk
  live : ∀ s, y.live = some s → s.store.disk = y.disk ∧ P s

theorem System.Holds.of_stopped {P : Impl → Prop} {D : Disk → Prop} {y : System} (h : D y.disk)
    (hlive : y.live = none) : y.Holds P D := by
  refine ⟨h, ?_⟩
  intro s hs
  rw [hlive] at hs
  cases hs

theorem System.Holds.of_live {P : Impl → Prop} {D : Disk → Prop} {y : System} {t : Impl}
    (h : D y.disk) (hlive : y.live = some t) (hdisk : t.store.disk = y.disk) (ht : P t) :
    y.Holds P D := by
  refine ⟨h, ?_⟩
  intro s hs
  obtain rfl := Option.some.inj (hlive.symm.trans hs)
  exact ⟨hdisk, ht⟩

/-- What is to be shown for an invariant of runs in which every open is made by a new
instance with a configuration that `C` admits. -/
structure System.Rule (C : FabricConfig → Prop) (P : Impl → Prop) (D : Disk → Prop) : Prop where
  call : ∀ (s : Impl) (c : Call), P s → D s.store.disk →
    P (s.exec c).2 ∧ ∀ d ∈ (s.exec c).2.store.disk :: (s.exec c).2.store.trail, D d
  rehash : ∀ s t : Impl, P s → s.Rehash t → P t
  close : ∀ s : Impl, P s → P s.closeFabric
  start : ∀ {disk : Disk} {tick : Tick} {io : List Io} {config : FabricConfig}
    {boot : Impl.BootInputs} {r : Except Status Unit} {t : Impl}, C config → D disk →
    (({} : Impl).attach disk tick io).openFabric config boot = (r, t) →
    (∀ d ∈ t.store.disk :: t.store.trail, D d) ∧ (r = .ok () → P t)

theorem Impl.closeFabric_disk (s : Impl) : s.closeFabric.store.disk = s.store.disk := by
  unfold closeFabric
  split <;> rfl

theorem System.Rule.step {C : FabricConfig → Prop} {P : Impl → Prop} {D : Disk → Prop}
    (hrule : System.Rule C P D) {y y' : System} {ev : Event} (h : System.Step y ev y')
    (hev : ∀ config, ev.opens = some config → C config ∧ y.live = none) (hy : y.Holds P D) :
    y'.Holds P D := by
  have hstart : ∀ {config : FabricConfig} {s t : Impl} {boot : Impl.BootInputs} {tick : Tick}
      {io : List Io} {r : Except Status Unit}, ev.opens = some config → y.Idle s →
      (s.attach y.disk tick io).openFabric config boot = (r, t) →
      (∀ d ∈ t.store.disk :: t.store.trail, D d) ∧ (r = .ok () → P t) := by
    intro config s t boot tick io r hopens hidle heq
    obtain ⟨hconfig, hnone⟩ := hev config hopens
    cases hidle with
    | fresh => exact hrule.start hconfig hy.disk heq
    | again hlive =>
        rw [hnone] at hlive
        cases hlive
  have hcall : ∀ {s : Impl} (c : Call), y.live = some s → P (s.exec c).2 ∧
      ∀ d ∈ (s.exec c).2.store.disk :: (s.exec c).2.store.trail, D d := by
    intro s c hlive
    obtain ⟨hdisk, hs⟩ := hy.live s hlive
    exact hrule.call s c hs (hdisk ▸ hy.disk)
  cases h with
  | opened hidle heq =>
      obtain ⟨hdisks, hok⟩ := hstart rfl hidle heq
      exact .of_live (hdisks _ List.mem_cons_self) rfl rfl (hok rfl)
  | openFailed hidle heq =>
      exact .of_stopped ((hstart rfl hidle heq).1 _ List.mem_cons_self) rfl
  | openCrashed hidle heq hd =>
      exact .of_stopped ((hstart rfl hidle heq).1 _ (List.mem_cons_of_mem _ hd)) rfl
  | called c hlive =>
      obtain ⟨hs, hdisks⟩ := hcall c hlive
      exact .of_live (hdisks _ List.mem_cons_self) rfl rfl hs
  | crashed c hlive _ hd => exact .of_stopped ((hcall c hlive).2 _ (List.mem_cons_of_mem _ hd)) rfl
  | closed hlive =>
      obtain ⟨hdisk, hs⟩ := hy.live _ hlive
      exact .of_live hy.disk rfl ((Impl.closeFabric_disk _).trans hdisk) (hrule.close _ hs)
  | stopped => exact .of_stopped hy.disk rfl
  | rehashed hlive hr =>
      obtain ⟨hdisk, hs⟩ := hy.live _ hlive
      refine .of_live hy.disk rfl ?_ (hrule.rehash _ _ hs hr)
      cases hr
      exact hdisk

/-- What the view of every instance has, when calls and successful opens preserve it. -/
theorem System.Run.views {I : View → Prop} (hempty : I ({} : Impl).view)
    (hexec : ∀ (s : Impl) (c : Call), I s.view → I (s.exec c).2.view)
    (hopen : ∀ {s t : Impl} {config : FabricConfig} {boot : Impl.BootInputs},
      s.openFabric config boot = (.ok (), t) → I s.view → I t.view)
    {allow : System → Event → Prop} {y : System} (h : System.Run allow y) {s : Impl}
    (hlive : y.live = some s) : I s.view := by
  refine h.invariant (I := fun y ↦ ∀ s, y.live = some s → I s.view) ?_ (by simp) s hlive
  rintro y ev y' hy - hstep
  cases hstep with
  | opened hs heq =>
      rintro s' ⟨⟩
      cases hs with
      | fresh => exact hopen heq hempty
      | again hlive =>
          have hi := hy _ hlive
          exact hopen heq hi
  | openFailed | openCrashed | crashed | stopped => simp
  | called c hlive =>
      rintro s' ⟨⟩
      exact hexec _ c (hy _ hlive)
  | closed hlive =>
      rintro s' ⟨⟩
      have hi := hy _ hlive
      unfold Impl.closeFabric
      split <;> exact hi
  | rehashed hlive hr =>
      rintro s' ⟨⟩
      rw [hr.view_eq]
      exact hy _ hlive

/-! ### The contents a move goes through -/

/-- A move journals one record, or writes one snapshot, from a state with the view of one
of its ends. -/
theorem Move.disks {s t : Impl} {a : Label × Bool} (h : Move s a t) :
    t.store.config = s.store.config ∧ ∃ (j : Impl) (record : JournalRecord),
      (j.view = s.view ∨ j.view = t.view) ∧
      Disk.Next j.image record s.store.disk t.store.disk ∧
      (∀ d ∈ t.store.trail, d ∈ s.store.trail ∨ Disk.Next j.image record s.store.disk d) ∧
      (s.SameNotes j ∨ t.SameNotes j) ∧ record.StemsFrom s a.1.Parts := by
  have key : ∀ {j u : Impl} {record : JournalRecord} {r : Except Status Unit},
      j.store = s.store → j.journal record = (r, u) → u.store.config = s.store.config ∧
        Disk.Next j.image record s.store.disk u.store.disk ∧
        ∀ d ∈ u.store.trail, d ∈ s.store.trail ∨ Disk.Next j.image record s.store.disk d := by
    intro j u record r hstore hj
    obtain ⟨st, hst, hf, -⟩ := j.journal_spec record
    rw [hj] at hst
    simp only at hst
    subst hst
    rw [hstore] at hf
    refine ⟨hf.config, ?_, hf.trail⟩
    rcases hf.disk with hd | hd
    · have hd : st.disk = s.store.disk := hd
      change Disk.Next j.image record s.store.disk st.disk
      rw [hd]
      exact .same
    · exact hd
  cases h with
  | volatile h =>
      have hst := h.frame.1
      rw [hst]
      exact ⟨rfl, s, .checkpoint, .inl rfl, .same, fun _ hd ↦ .inl hd, .inl (.refl s), trivial⟩
  | @written _ record m j u h hstore hview hj hnotes =>
      obtain ⟨h₁, h₂, h₃⟩ := key hstore hj
      exact ⟨h₁, j, record, hview, h₂, h₃, hnotes, h.stems⟩
  | @unlogged _ record m j u e h hstore hview hj hnotes =>
      obtain ⟨h₁, h₂, h₃⟩ := key hstore hj
      exact ⟨h₁, j, record, .inr hview, h₂, h₃, .inr hnotes, h.stems⟩
  | @refused grant record u e hj hfrom =>
      obtain ⟨h₁, h₂, h₃⟩ := key rfl hj
      exact ⟨h₁, s, record, .inl rfl, h₂, h₃, .inl (.refl s), hfrom⟩
  | @lostRelease record pools u e hsh hj hfrom =>
      obtain ⟨h₁, h₂, h₃⟩ := key (j := { s with pools := pools }) rfl hj
      exact ⟨h₁, { s with pools := pools }, record, .inl (Impl.view_eq_of_shapes hsh), h₂, h₃,
        .inl ⟨rfl, rfl, rfl, rfl⟩, hfrom⟩
  | @snapshot r u h =>
      obtain ⟨st, hst, hf, -⟩ := s.writeFullSnapshot_spec
      rw [h] at hst
      simp only at hst
      subst hst
      have hnext : ∀ d, Disk.Replaced s.image s.store.disk d →
          Disk.Next s.image .checkpoint s.store.disk d := by
        intro d hd
        cases hd with
        | same => exact .same
        | replaced => exact .replaced
        | compacted => exact .compacted
      refine ⟨hf.config, s, .checkpoint, .inl rfl, ?_, ?_, .inl (.refl s), trivial⟩
      · rcases hf.disk with hd | hd
        · have hd : st.disk = s.store.disk := hd
          change Disk.Next s.image .checkpoint s.store.disk st.disk
          rw [hd]
          exact .same
        · exact hnext _ hd
      · exact fun d hd ↦ (hf.trail d hd).imp_right (hnext d)

/-! ### Scripted runs -/

/-- A command of a scripted run: open a new instance, call it, or drop it. -/
inductive Command where
  | start (config : FabricConfig)
  | call (c : Call)
  | stop

def Command.event : Command → Event
  | .start config => .opened config
  | .call c => .called c
  | .stop => .stopped

def System.perform (y : System) : Command → Option System
  | .start config =>
      match y.live, (({} : Impl).attach y.disk 0 []).openFabric config {} with
      | none, (.ok _, s) => some { y with disk := s.store.disk, live := some s }
      | _, _ => none
  | .call c =>
      match y.live with
      | some s =>
          if s.isOpen then
            some { disk := (s.exec c).2.store.disk
                   live := some (s.exec c).2
                   granted := y.granted ++ (s.granting c).toList }
          else none
      | none => none
  | .stop => some { y with live := none }

theorem System.perform_step {y y' : System} {k : Command} (h : y.perform k = some y') :
    System.Step y k.event y' := by
  cases k with
  | start config =>
      unfold System.perform at h
      dsimp only at h
      split at h
      · rename_i u s hlive hopen
        obtain rfl := Option.some.inj h
        exact .opened (.fresh hlive) hopen
      · cases h
  | call c =>
      unfold System.perform at h
      dsimp only at h
      split at h
      · rename_i s hlive
        split at h
        · rename_i hopen
          obtain rfl := Option.some.inj h
          exact .called c hlive hopen
        · cases h
      · cases h
  | stop =>
      obtain rfl := Option.some.inj h
      exact .stopped

/-- The system after a list of commands, each of which passes a check. -/
def System.script (check : System → Command → Bool) (y : System) : List Command → Option System
  | [] => some y
  | k :: ks => if check y k then (y.perform k).bind (·.script check ks) else none

theorem System.Run.script {allow : System → Event → Prop} {check : System → Command → Bool}
    (hcheck : ∀ y k, check y k = true → allow y k.event) {ks : List Command} {y y' : System}
    (hrun : System.Run allow y) (h : y.script check ks = some y') : System.Run allow y' := by
  induction ks generalizing y with
  | nil =>
      obtain rfl := Option.some.inj h
      exact hrun
  | cons k ks ih =>
      unfold System.script at h
      split at h
      · rename_i hk
        obtain ⟨m, hm, h⟩ := Option.bind_eq_some_iff.mp h
        exact ih (hrun.tail (hcheck y k hk) (System.perform_step hm)) h
      · cases h

end BufferFabric
