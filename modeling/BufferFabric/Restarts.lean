import BufferFabric.Epochs

/-!
# Restarts after interrupted writes

One directory down to the bytes of its journal file: behind the complete records there may
stand the beginning of a frame whose writing was interrupted. Every open reads the file byte
by byte, and either refuses it or goes on from the complete records.
-/

namespace BufferFabric

/-- A directory, the instance that has it open, the bytes of the append that was in progress
when a process stopped, and the epochs of the successful opens so far. -/
structure Directory where
  system : System := {}
  torn : Bytes := []
  epochs : List EpochId := []

namespace Directory

def file (x : Directory) : Bytes :=
  (x.system.disk.journal.map JournalRecord.payload).flatMap journalFrame ++ x.torn

/-- The contents that recovery goes on from: the snapshot, and the records it could read. -/
def readable (config : PersistenceConfig) (x : Directory) : Except Status Disk :=
  match recoverJournal config acceptAll x.system.disk.snapshot.isSome x.file [] with
  | .error e => .error e
  | .ok r => .ok { x.system.disk with journal := x.system.disk.journal.take r.state.length }

def repaired (x : Directory) (d : Disk) : System := { x.system with disk := d }

/-- The steps of a directory. Where a process stops, the beginning of any frame may stand
behind the complete records: of the frame that was being appended when it stopped. A refused
file stays as it is; an open that fails later may have cut the torn bytes off. -/
inductive Step (x : Directory) : Event → Directory → Prop
  | opened {config : FabricConfig} {d : Disk} {y : System} {s : Impl}
      (hread : x.readable config.persistence = .ok d)
      (h : System.Step (x.repaired d) (.opened config) y) (hlive : y.live = some s) :
      Step x (.opened config) { system := y, torn := [], epochs := x.epochs ++ [s.epoch] }
  | refused {config : FabricConfig} {e : Status}
      (hread : x.readable config.persistence = .error e) : Step x (.openFailed config) x
  | openFailed {config : FabricConfig} {d : Disk} {y : System} {torn : Bytes}
      (hread : x.readable config.persistence = .ok d)
      (h : System.Step (x.repaired d) (.openFailed config) y)
      (htorn : torn = x.torn ∨ torn = []) :
      Step x (.openFailed config) { x with system := y, torn := torn }
  | openCrashed {config : FabricConfig} {d : Disk} {y : System} {torn : Bytes}
      (hread : x.readable config.persistence = .ok d)
      (h : System.Step (x.repaired d) (.openCrashed config) y ∨
        System.Step (x.repaired d) .stopped y) (htorn : Torn torn) :
      Step x (.openCrashed config) { x with system := y, torn := torn }
  | called {c : Call} {y : System} (h : System.Step x.system (.called c) y) :
      Step x (.called c) { x with system := y }
  | crashed {c : Call} {y : System} {torn : Bytes}
      (h : System.Step x.system (.crashed c) y ∨
        (x.system.live.isSome = true ∧ System.Step x.system .stopped y)) (htorn : Torn torn) :
      Step x (.crashed c) { x with system := y, torn := torn }
  | closed {y : System} (h : System.Step x.system .closed y) :
      Step x .closed { x with system := y }
  | stopped {y : System} (h : System.Step x.system .stopped y) :
      Step x .stopped { x with system := y }
  | rehashed {y : System} (h : System.Step x.system .rehashed y) :
      Step x .rehashed { x with system := y }

/-- Every open is made by a new instance, in the durable mode and with the default recovery
options. -/
def Allows (x : Directory) (ev : Event) : Prop :=
  ∀ config, ev.opens = some config →
    config.persistence.mode = .journalSync ∧ x.system.live = none ∧
      config.persistence.truncateDamagedTail = true ∧
      config.persistence.refuseOnMidfileDamage = true

abbrev Run : Directory → Prop := StepPath Step Allows {}

/-- What holds along every run: the directory is in an epoch that no successful open was
ahead of, and the epochs of the opens have increased. -/
structure Current (x : Directory) : Prop where
  system : x.system.Current
  torn : Torn x.torn
  reached : ∀ e ∈ x.epochs, e.raw.toNat ≤ x.system.disk.epoch.raw.toNat
  increasing : x.epochs.Pairwise fun e e' ↦ e.raw.toNat < e'.raw.toNat

theorem torn_nil : Torn [] := ⟨[], by decide, 0, by decide, rfl⟩

/-- A file that is not refused is read to the end of its last complete record. -/
theorem Current.readable {x : Directory} (hx : x.Current) {config : PersistenceConfig} {d : Disk}
    (htruncate : config.truncateDamagedTail = true) (hrefuse : config.refuseOnMidfileDamage = true)
    (h : x.readable config = .ok d) : d = x.system.disk := by
  obtain ⟨n, hn⟩ := hx.system.disk
  have hsizes : ∀ p ∈ x.system.disk.journal.map JournalRecord.payload,
      p.length ≤ kMaxJournalRecordBytes := by
    intro p hp
    obtain ⟨r, hr, rfl⟩ := List.mem_map.mp hp
    exact hn.dated.sizes r hr
  unfold Directory.readable at h
  split at h
  · cases h
  rename_i r hr
  obtain rfl := Except.ok.inj h
  have hbound : x.file.length ≤ config.maxJournalBytes.toNat := by
    by_contra hlt
    unfold recoverJournal at hr
    rw [if_pos (by omega)] at hr
    cases hr
  obtain ⟨hok, herror⟩ := recoverJournal_torn x.system.disk.snapshot.isSome hsizes hx.torn
    hrefuse htruncate hbound
  by_cases hplain : Unmistakable x.torn
  · obtain ⟨r', hr', hstate, -⟩ := hok hplain
    obtain rfl : r' = r := Except.ok.inj (hr'.symm.trans hr)
    rw [hstate, List.length_map, List.take_length]
  · obtain ⟨e, he⟩ := herror hplain
    rw [show recoverJournal config acceptAll x.system.disk.snapshot.isSome x.file [] = .error e
      from he] at hr
    cases hr

theorem Allows.durable {x : Directory} {ev : Event} (h : x.Allows ev) : x.system.Durable ev :=
  fun config hc ↦ ⟨(h config hc).1, (h config hc).2.1⟩

theorem Current.moved {x : Directory} (hx : x.Current) {y : System} {torn : Bytes}
    (hy : y.Current) (hle : x.system.disk.epoch.raw.toNat ≤ y.disk.epoch.raw.toNat)
    (htorn : Torn torn) : Current { x with system := y, torn := torn } :=
  ⟨hy, htorn, fun e he ↦ (hx.reached e he).trans hle, hx.increasing⟩

theorem Step.current {x x' : Directory} {ev : Event} (h : Step x ev x') (hx : x.Current)
    (hev : x.Allows ev) : x'.Current := by
  have hrepair : ∀ {config : FabricConfig} {d : Disk}, ev.opens = some config →
      x.readable config.persistence = .ok d → x.repaired d = x.system := by
    intro config d hc hread
    obtain ⟨-, -, htruncate, hrefuse⟩ := hev config hc
    rw [hx.readable htruncate hrefuse hread]
    rfl
  cases h with
  | opened hread h hlive =>
      rw [hrepair rfl hread] at h
      obtain ⟨hy, hle, hnew⟩ := h.current hx.system hev.durable
      obtain ⟨s, hs, hlt, hdisk, -⟩ := hnew _ rfl
      obtain rfl := Option.some.inj (hs.symm.trans hlive)
      refine ⟨hy, torn_nil, ?_, ?_⟩
      · intro e he
        rcases List.mem_append.mp he with he | he
        · exact (hx.reached e he).trans hle
        · rw [List.mem_singleton.mp he, ← hdisk]
      · rw [List.pairwise_append]
        refine ⟨hx.increasing, List.pairwise_singleton _ _, ?_⟩
        intro e he e' he'
        rw [List.mem_singleton.mp he']
        exact (hx.reached e he).trans_lt hlt
  | refused => exact hx
  | openFailed hread h htorn =>
      rw [hrepair rfl hread] at h
      obtain ⟨hy, hle, -⟩ := h.current hx.system hev.durable
      refine hx.moved hy hle ?_
      rcases htorn with rfl | rfl
      · exact hx.torn
      · exact torn_nil
  | openCrashed hread h htorn =>
      rw [hrepair rfl hread] at h
      rcases h with h | h
      · obtain ⟨hy, hle, -⟩ := h.current hx.system hev.durable
        exact hx.moved hy hle htorn
      · obtain ⟨hy, hle, -⟩ := h.current hx.system nofun
        exact hx.moved hy hle htorn
  | crashed h htorn =>
      rcases h with h | ⟨-, h⟩
      · obtain ⟨hy, hle, -⟩ := h.current hx.system hev.durable
        exact hx.moved hy hle htorn
      · obtain ⟨hy, hle, -⟩ := h.current hx.system nofun
        exact hx.moved hy hle htorn
  | called h | closed h | stopped h | rehashed h =>
      obtain ⟨hy, hle, -⟩ := h.current hx.system hev.durable
      exact hx.moved hy hle hx.torn

theorem Run.current {x : Directory} (h : Run x) : x.Current :=
  h.invariant (fun _ _ _ hx ha hs ↦ hs.current hx ha)
    ⟨System.current_empty, torn_nil, by simp, List.Pairwise.nil⟩

end Directory

/-- The epochs of the successful opens increase strictly, and every allocation and every
pressure snapshot that an open recovers carries an earlier epoch than the one it begins. -/
theorem epochs_increase {x : Directory} (hrun : Directory.Run x) :
    x.epochs.Pairwise (fun e e' ↦ e.raw.toNat < e'.raw.toNat) ∧
      ∀ config x' s, x.Allows (.opened config) → Directory.Step x (.opened config) x' →
        x'.system.live = some s →
        (∀ e ∈ x.epochs, e.raw.toNat < s.epoch.raw.toNat) ∧
        (∀ k r, s.allocations.lookup k = some r → r.bound.epoch.raw.toNat < s.epoch.raw.toNat) ∧
        ∀ k e, s.pressure.lookup k = some e → ∀ p ∈ e.latest :: e.history,
          p.epoch.raw.toNat < s.epoch.raw.toNat := by
  have hx := hrun.current
  refine ⟨hx.increasing, ?_⟩
  intro config x' s hallow hstep hlive
  cases hstep with
  | opened hread h hs =>
      obtain rfl := Option.some.inj (hs.symm.trans hlive)
      obtain ⟨-, -, htruncate, hrefuse⟩ := hallow config rfl
      rw [hx.readable htruncate hrefuse hread] at h
      obtain ⟨-, -, hnew⟩ := System.Step.current h hx.system hallow.durable
      obtain ⟨s', hs', hlt, -, hdated⟩ := hnew config rfl
      obtain rfl := Option.some.inj (hs'.symm.trans hlive)
      refine ⟨fun e he ↦ (hx.reached e he).trans_lt hlt,
        fun k r hr ↦ (hdated.allocations k r hr).trans_lt hlt, ?_⟩
      intro k e he p hp
      rcases List.mem_cons.mp hp with rfl | hp
      · exact (hdated.latest k e he).trans_lt hlt
      · exact (hdated.history k e he p hp).trans_lt hlt

def Directory.start (x : Directory) (config : FabricConfig) : Option Directory :=
  match x.readable config.persistence with
  | .error _ => none
  | .ok d =>
      ((x.repaired d).perform (.start config)).bind fun y ↦ y.live.map fun s ↦
        { system := y, torn := [], epochs := x.epochs ++ [s.epoch] }

theorem Directory.start_step {x x' : Directory} {config : FabricConfig}
    (h : x.start config = some x') : Directory.Step x (.opened config) x' := by
  unfold Directory.start at h
  split at h
  · cases h
  · rename_i d hread
    obtain ⟨y, hy, h⟩ := Option.bind_eq_some_iff.mp h
    obtain ⟨s, hs, rfl⟩ := Option.map_eq_some_iff.mp h
    exact .opened hread (System.perform_step hy) hs

def Directory.cut (x : Directory) : Directory :=
  { x with system := { x.system with live := none }, torn := (journalFrame [17]).take 5 }

/-- A directory is opened, the process stops during an append, and the directory is opened
again: the torn bytes are gone and the epoch is the next one. -/
theorem epochs_increase_restarted :
    ∃ x x' : Directory, ∃ s, Directory.Run x ∧ x.torn ≠ [] ∧
      Directory.Step x (.opened smallConfig) x' ∧ x'.system.live = some s ∧
      x'.torn = [] ∧ x.epochs = [⟨1⟩] ∧ s.epoch = ⟨2⟩ ∧
      ∀ e ∈ x.epochs, e.raw.toNat < s.epoch.raw.toNat := by
  have hallows : ∀ x : Directory, x.system.live = none → x.Allows (.opened smallConfig) := by
    intro x hlive config hc
    obtain rfl := Option.some.inj hc
    exact ⟨rfl, hlive, rfl, rfl⟩
  have hsome : ((({} : Directory).start smallConfig).any fun x₁ ↦
      x₁.system.live.isSome && (x₁.cut.start smallConfig).any fun x₂ ↦
        decide (x₁.epochs = [⟨1⟩]) && x₂.system.live.any fun s ↦ decide (s.epoch = ⟨2⟩)) = true := by
    decide +kernel
  obtain ⟨x₁, hx₁, h⟩ := (Option.any_eq_true _ _).mp hsome
  obtain ⟨hlive₁, h⟩ := Bool.and_eq_true_iff.mp h
  obtain ⟨x₂, hx₂, h⟩ := (Option.any_eq_true _ _).mp h
  obtain ⟨hepochs, h⟩ := Bool.and_eq_true_iff.mp h
  obtain ⟨s, hs, hepoch⟩ := (Option.any_eq_true _ _).mp h
  have hfirst : Directory.Run x₁ :=
    StepPath.single (hallows _ rfl) (Directory.start_step hx₁)
  have hcut : Directory.Step x₁ (.crashed { op := .checkpoint }) x₁.cut :=
    .crashed (.inr ⟨hlive₁, .stopped⟩) ⟨[17], by decide, 5, by decide, rfl⟩
  have hrun : Directory.Run x₁.cut := by
    refine hfirst.tail ?_ hcut
    intro config hc
    cases hc
  have htorn : (journalFrame [17]).take 5 ≠ [] := by
    decide
  have hstep := Directory.start_step hx₂
  have hempty : x₂.torn = [] := by
    cases hstep
    rfl
  obtain ⟨hlater, -, -⟩ := (epochs_increase hrun).2 smallConfig x₂ s (hallows _ rfl) hstep hs
  exact ⟨x₁.cut, x₂, s, hrun, htorn, hstep, hs, hempty, of_decide_eq_true hepochs,
    of_decide_eq_true hepoch, hlater⟩

end BufferFabric
