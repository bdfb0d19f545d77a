import BufferFabric.Reading
import BufferFabric.Restarts
import BufferFabric.Crashes

/-!
# Directories down to their bytes

Everything a session writes into its directory can be read back, so opening the bytes of a
directory is opening its records. A process may therefore stop at any byte of any write: the next
open refuses the journal, or goes on from a state between two moves.
-/

namespace BufferFabric

open Outcome

/-! ### Legible contents -/

namespace Disk.Legible

variable {d : Disk}

theorem empty : Disk.Legible {} := ⟨by simp, by simp, by simp⟩

theorem append (h : d.Legible) {record : JournalRecord} (hrecord : record.encodable = .ok ())
    (hsize : record.payload.length ≤ kMaxJournalRecordBytes) :
    ({ d with journal := d.journal ++ [record] } : Disk).Legible := by
  refine ⟨h.image, ?_, ?_⟩
  · simpa [or_imp, forall_and] using ⟨h.records, hrecord⟩
  · simpa [or_imp, forall_and] using ⟨h.sizes, hsize⟩

theorem replaced (h : d.Legible) {image : Image} (hnames : image.encodable = true)
    (hlength : image.encode.length < 4294967296) {d' : Disk} (hd : Disk.Replaced image d d') :
    d'.Legible := by
  have himage : ∀ i, some image = some i → i.encodable = true ∧ i.encode.length < 4294967296 := by
    rintro i ⟨⟩
    exact ⟨hnames, hlength⟩
  cases hd with
  | same => exact h
  | replaced => exact ⟨himage, h.records, h.sizes⟩
  | compacted => exact ⟨himage, by simp, by simp⟩

end Disk.Legible

/-- The bound on snapshots is one that the configuration check admits, and every content the
directory went through can be read back. -/
structure DurableStore.Legible (st : DurableStore) : Prop where
  bounded : st.config.maxSnapshotBytes.toNat ≤ kMaxSnapshotBytes
  disk : st.disk.Legible
  trail : ∀ d ∈ st.trail, d.Legible

namespace DurableStore.Legible

variable {st st' : DurableStore}

theorem follows (h : st.Legible) (hf : Follows Disk.Legible st st') : st'.Legible := by
  refine ⟨?_, hf.disk.elim (fun hsame ↦ hsame ▸ h.disk) id, fun d hd ↦ ?_⟩
  · rw [hf.config]
    exact h.bounded
  · exact (hf.trail d hd).elim (h.trail d) id

theorem appendRecord (h : st.Legible) {record : JournalRecord}
    (hrecord : record.encodable = .ok ()) : (st.appendRecord record).2.Legible := by
  refine h.follows ((st.appendRecord_spec record).1.mono ?_)
  rintro d ⟨hsize, rfl⟩
  exact h.disk.append hrecord hsize

theorem writeFullSnapshot (h : st.Legible) (image : Image) :
    (st.writeFullSnapshot image).2.Legible := by
  unfold DurableStore.writeFullSnapshot
  split
  · exact h
  split
  · exact h
  rename_i hnames
  rw [Bool.not_eq_true, Bool.not_eq_false'] at hnames
  by_cases hsize : st.config.maxSnapshotBytes.toNat < image.encode.length
  · have hsame : (st.writeSnapshot image).2 = st := by
      unfold writeSnapshot
      rw [if_pos hsize]
      split <;> rfl
    rw [hsame]
    exact h
  · have hlimit : kMaxSnapshotBytes < 4294967296 := by decide
    have hlength : image.encode.length < 4294967296 :=
      (Nat.not_lt.mp hsize).trans_lt (Nat.lt_of_le_of_lt h.bounded hlimit)
    exact h.follows ((st.writeSnapshot_spec image).1.mono fun d hd ↦
      h.disk.replaced hnames hlength hd)

/-- What is journaled can be read back. -/
theorem journal (h : st.Legible) (image : Image) (record : JournalRecord) :
    (st.journal image record).2.Legible := by
  unfold DurableStore.journal
  split
  · exact h
  rename_i u hrecord
  split
  · exact h
  split
  · have hfirst := h.writeFullSnapshot image
    split
    · rename_i e st₁ heq
      rw [heq] at hfirst
      exact hfirst
    · rename_i v st₁ heq
      rw [heq] at hfirst
      exact hfirst.appendRecord hrecord
  · exact h.appendRecord hrecord

theorem countFailure {result : Except Status Unit × DurableStore} (h : result.2.Legible) :
    (DurableStore.countFailure result).2.Legible := by
  obtain ⟨e | u, st⟩ := result
  · exact ⟨h.bounded, h.disk, h.trail⟩
  · exact h

end DurableStore.Legible

theorem Impl.journal_legible {s t : Impl} {record : JournalRecord} {r : Except Status Unit}
    (h : s.store.Legible) (hj : s.journal record = (r, t)) : t.store.Legible := by
  have hcounted := (h.journal s.image record).countFailure
  unfold Impl.journal at hj
  dsimp only at hj
  rw [← (Prod.mk.inj hj).2]
  exact hcounted

theorem Move.legible {s t : Impl} {a : Label × Bool} (h : Move s a t) (hs : s.store.Legible) :
    t.store.Legible := by
  cases h with
  | volatile h =>
      rw [h.frame.1]
      exact hs
  | @written l record m j u h hstore hview hj | @unlogged l record m j u e h hstore hview hj =>
      have hj' : u.store.Legible := Impl.journal_legible (hstore ▸ hs) hj
      exact hj'
  | refused hj => exact Impl.journal_legible hs hj
  | @lostRelease record pools u e hshapes hj =>
      exact Impl.journal_legible (s := { s with pools := pools }) hs hj
  | snapshot h =>
      have hcounted := (hs.writeFullSnapshot s.image).countFailure
      unfold Impl.writeFullSnapshot at h
      dsimp only at h
      rw [← (Prod.mk.inj h).2]
      exact hcounted

theorem Impl.exec_legible {s : Impl} (hs : s.store.Legible) (c : Call) :
    (s.exec c).2.store.Legible := by
  refine (s.exec_trace c).invariant (I := fun t ↦ t.store.Legible) ?_
    ⟨hs.bounded, hs.disk, nofun⟩
  exact fun _ _ _ ht _ hm ↦ hm.legible ht

/-! ### Opening -/

/-- A configuration that is turned down leaves the directory alone. -/
theorem Impl.openFabric_invalid {s t : Impl} {config : FabricConfig} {boot : BootInputs}
    {r : Except Status Unit} {e : Status} (h : s.openFabric config boot = (r, t))
    (hmode : config.persistence.mode ≠ .none) (hvalid : config.persistence.validate = .error e) :
    (∃ e', r = .error e') ∧ t.store = s.store := by
  unfold openFabric at h
  split at h
  · obtain ⟨rfl, rfl⟩ := Prod.mk.inj h
    exact ⟨⟨_, rfl⟩, rfl⟩
  unfold openDurable DurableStore.configure at h
  rw [if_neg hmode, hvalid] at h
  obtain ⟨rfl, rfl⟩ := Prod.mk.inj h
  exact ⟨⟨e, rfl⟩, rfl⟩

/-- Whatever an open journals, the directory can be read back. -/
theorem Impl.openFabric_legible {s t : Impl} {config : FabricConfig} {boot : BootInputs}
    {r : Except Status Unit} (h : s.openFabric config boot = (r, t))
    (hmode : config.persistence.mode ≠ .none) (hd : s.store.disk.Legible)
    (htrail : s.store.trail = []) :
    (∀ d ∈ t.store.disk :: t.store.trail, d.Legible) ∧ (r = .ok () → t.store.Legible) := by
  have hsame : ∀ {u : Impl}, u.store.disk = s.store.disk → u.store.trail = s.store.trail →
      ∀ d ∈ u.store.disk :: u.store.trail, d.Legible := by
    intro u hdisk htrail'
    rw [hdisk, htrail', htrail]
    simpa using hd
  cases hvalid : config.persistence.validate with
  | error e =>
      obtain ⟨⟨e', rfl⟩, hstore⟩ := openFabric_invalid h hmode hvalid
      refine ⟨hsame ?_ ?_, by rintro ⟨⟩⟩
      · rw [hstore]
      · rw [hstore]
  | ok u =>
      obtain ⟨-, -, -, hbounded⟩ := PersistenceConfig.validate_ok hvalid
      rcases openFabric_begun h hmode with ⟨⟨e, rfl⟩, hdisk, htrail'⟩ |
        ⟨m, t', res, hl, -, hj, hdisk, htrail', hok⟩
      · exact ⟨hsame hdisk htrail', by rintro ⟨⟩⟩
      · obtain ⟨-, -, -, hmdisk, hmconfig, hmtrail, -⟩ := loadFromStore_view hl
        have hmdisk : m.store.disk = s.store.disk := hmdisk
        have hmtrail : m.store.trail = s.store.trail := hmtrail
        have hmconfig : m.store.config = config.persistence := hmconfig
        have hm : m.store.Legible := by
          refine ⟨?_, ?_, ?_⟩
          · rw [hmconfig]
            exact hbounded
          · rw [hmdisk]
            exact hd
          · rw [hmtrail, htrail]
            simp
        have ht' : t'.store.Legible := journal_legible (s := m.begun boot m.epoch) hm hj
        rw [hdisk, htrail']
        refine ⟨?_, ?_⟩
        · intro d hmem
          rcases List.mem_cons.mp hmem with rfl | hmem
          · exact ht'.disk
          · exact ht'.trail d hmem
        · intro hr
          rw [(hok hr).1]
          exact ht'

/-! ### Runs -/

/-- Along durable runs the directory can always be read back. -/
theorem legible_rule : System.Rule (fun config ↦ config.persistence.mode = .journalSync)
    (fun s ↦ s.store.config.maxSnapshotBytes.toNat ≤ kMaxSnapshotBytes) Disk.Legible where
  call s c hs hd := by
    have ht := Impl.exec_legible (s := { s with store := { s.store with trail := [] } })
      ⟨hs, hd, nofun⟩ c
    have hsame : ({ s with store := { s.store with trail := [] } } : Impl).exec c = s.exec c := rfl
    rw [hsame] at ht
    refine ⟨ht.bounded, fun d hmem ↦ ?_⟩
    rcases List.mem_cons.mp hmem with rfl | hmem
    · exact ht.disk
    · exact ht.trail d hmem
  rehash s t hs hr := by
    cases hr
    exact hs
  close s hs := by
    unfold Impl.closeFabric
    split <;> exact hs
  start hmode hd h := by
    obtain ⟨hdisks, hok⟩ := Impl.openFabric_legible h (by rw [hmode]; decide) hd rfl
    exact ⟨hdisks, fun hr ↦ (hok hr).bounded⟩

abbrev System.Legible (y : System) : Prop :=
  y.Holds (fun s ↦ s.store.config.maxSnapshotBytes.toNat ≤ kMaxSnapshotBytes) Disk.Legible

theorem System.Step.legible {y y' : System} {ev : Event} (h : System.Step y ev y')
    (hev : y.Durable ev) (hy : y.Legible) : y'.Legible :=
  legible_rule.step h (fun config hc ↦ hev config hc) hy

theorem System.legible_empty : ({} : System).Legible := .of_stopped .empty rfl

theorem System.Run.legible {y : System} (h : System.Run System.Durable y) : y.Legible :=
  h.invariant (fun _ _ _ hy hev hstep ↦ hstep.legible hev hy) System.legible_empty

namespace Directory

variable {x x' : Directory} {ev : Event}

/-- What a step does to the system below the bytes. -/
theorem Step.system (h : Step x ev x') (hx : x.Current) (hev : x.Allows ev) :
    x'.system = x.system ∨
      ∃ ev', System.Step x.system ev' x'.system ∧ (ev' = ev ∨ ev' = .stopped) := by
  have hrepair : ∀ {config : FabricConfig} {d : Disk}, ev.opens = some config →
      x.readable config.persistence = .ok d → x.repaired d = x.system := by
    intro config d hc hread
    obtain ⟨-, -, htruncate, hrefuse⟩ := hev config hc
    rw [hx.readable htruncate hrefuse hread]
    rfl
  cases h with
  | opened hread h hlive =>
      rw [hrepair rfl hread] at h
      exact .inr ⟨_, h, .inl rfl⟩
  | refused => exact .inl rfl
  | openFailed hread h htorn =>
      rw [hrepair rfl hread] at h
      exact .inr ⟨_, h, .inl rfl⟩
  | openCrashed hread h htorn =>
      rw [hrepair rfl hread] at h
      exact .inr (h.elim (fun h ↦ ⟨_, h, .inl rfl⟩) fun h ↦ ⟨_, h, .inr rfl⟩)
  | crashed h htorn => exact .inr (h.elim (fun h ↦ ⟨_, h, .inl rfl⟩) fun h ↦ ⟨_, h.2, .inr rfl⟩)
  | called h | closed h | stopped h | rehashed h => exact .inr ⟨_, h, .inl rfl⟩

theorem Run.legible (h : Run x) : x.system.Legible := by
  have hboth : x.Current ∧ x.system.Legible := by
    refine h.invariant (I := fun x ↦ x.Current ∧ x.system.Legible) ?_
      ⟨Run.current .refl, System.legible_empty⟩
    rintro x ev x' ⟨hx, hy⟩ hev hstep
    refine ⟨hstep.current hx hev, ?_⟩
    rcases hstep.system hx hev with hsame | ⟨ev', hsystem, hev'⟩
    · rw [hsame]
      exact hy
    · refine hsystem.legible ?_ hy
      rcases hev' with rfl | rfl
      · exact hev.durable
      · exact nofun
  exact hboth.2

/-- The journal is read exactly if its torn bytes do not look like a frame and the file is not
too large. -/
theorem Current.readable_iff (hx : x.Current) {config : PersistenceConfig}
    (htruncate : config.truncateDamagedTail = true) (hrefuse : config.refuseOnMidfileDamage = true) :
    (∃ d, x.readable config = .ok d) ↔ Unmistakable x.torn ∧
      (x.system.disk.frames ++ x.torn).length ≤ config.maxJournalBytes.toNat := by
  obtain ⟨n, hn⟩ := hx.system.disk
  have hsizes : ∀ p ∈ x.system.disk.journal.map JournalRecord.payload,
      p.length ≤ kMaxJournalRecordBytes := by
    intro p hp
    obtain ⟨r, hr, rfl⟩ := List.mem_map.mp hp
    exact hn.dated.sizes r hr
  have hfile : x.file = x.system.disk.frames ++ x.torn := rfl
  unfold Directory.readable
  rw [hfile]
  by_cases hfits : (x.system.disk.frames ++ x.torn).length ≤ config.maxJournalBytes.toNat
  · obtain ⟨hok, herror⟩ := recoverJournal_torn x.system.disk.snapshot.isSome hsizes hx.torn hrefuse
      htruncate hfits
    by_cases hplain : Unmistakable x.torn
    · obtain ⟨r, hr, -⟩ := hok hplain
      have hread : recoverJournal config acceptAll x.system.disk.snapshot.isSome
        (x.system.disk.frames ++ x.torn) [] = .ok r := hr
      rw [hread]
      exact iff_of_true ⟨_, rfl⟩ ⟨hplain, hfits⟩
    · obtain ⟨e, he⟩ := herror hplain
      have hread : recoverJournal config acceptAll x.system.disk.snapshot.isSome
        (x.system.disk.frames ++ x.torn) [] = .error e := he
      rw [hread]
      exact iff_of_false (by rintro ⟨d, ⟨⟩⟩) fun h ↦ hplain h.1
  · rw [recoverJournal_eq, if_pos (Nat.not_le.mp hfits)]
    exact iff_of_false (by rintro ⟨d, ⟨⟩⟩) fun h ↦ hfits h.2

end Directory

def Disk.files (d : Disk) (torn : Bytes) : Files where
  snapshot := d.snapshot.map fun i ↦ encodeSnapshot i.header i.encode
  journal := some (d.frames ++ torn)

theorem Disk.files_hold (d : Disk) (torn : Bytes) : (d.files torn).Hold d torn where
  absent h := by
    unfold Disk.files
    rw [h]
    rfl
  image i hi := by
    unfold Disk.files
    rw [hi]
    exact ⟨i.header, rfl, rfl, rfl, rfl⟩
  journal := rfl

/-- In every run over one directory, with the beginning of any frame left behind its records by a
crash: `open` on the bytes is `open` on the records, up to what it reports of the torn bytes, and
leaves files that hold the records of its state, the new epoch among them. It is refused where
reading the journal is refused. -/
theorem open_reads_bytes {x : Directory} (hrun : Directory.Run x) {files : Files}
    (hold : files.Hold x.system.disk x.torn) {config : FabricConfig}
    (hmode : config.persistence.mode ≠ .none)
    (htruncate : config.persistence.truncateDamagedTail = true)
    (hrefuse : config.persistence.refuseOnMidfileDamage = true) (tick : Tick) (io : List Io)
    (boot : Impl.BootInputs) :
    (∀ d, x.readable config.persistence = .ok d →
      (∀ e, Impl.kept ((({} : Impl).attach d tick io).openFabric config boot) = .error e →
        (({} : Impl).attach d tick io).openFiles files config boot = .error e) ∧
      ∀ t, Impl.kept ((({} : Impl).attach d tick io).openFabric config boot) = .ok t →
        ∃ files' : Files, (({} : Impl).attach d tick io).openFiles files config boot =
          .ok (t.cutOff x.torn, files') ∧ files'.Hold t.store.disk []) ∧
      ∀ e, x.readable config.persistence = .error e →
        ∃ e', (({} : Impl).attach x.system.disk tick io).openFiles files config boot =
          .error e' := by
  have hx := hrun.current
  have hlegible : x.system.disk.Legible := hrun.legible.disk
  have hiff := hx.readable_iff htruncate hrefuse
  refine ⟨fun d hd ↦ ?_, fun e he ↦ ?_⟩
  · obtain ⟨hplain, hfits⟩ := hiff.mp ⟨d, hd⟩
    obtain rfl := hx.readable htruncate hrefuse hd
    exact Impl.openFiles_eq (s := ({} : Impl).attach x.system.disk tick io) hold hlegible hx.torn
      hplain hmode hrefuse htruncate hfits
  · refine Impl.openFiles_refused (s := ({} : Impl).attach x.system.disk tick io) hold hlegible
      hx.torn boot hrefuse htruncate fun hgood ↦ ?_
    obtain ⟨d, hd⟩ := hiff.mpr hgood
    rw [he] at hd
    cases hd

/-- A directory that was opened once is reopened after a crash inside a header: the bytes give
the state the records give, the torn ones are reported, and the files hold what it journaled. -/
theorem open_reads_bytes_cut : ∃ (x : Directory) (t : Impl) (files' : Files), Directory.Run x ∧
    x.torn ≠ [] ∧ files'.Hold t.store.disk [] ∧
    (({} : Impl).attach x.system.disk 0 []).openFiles (x.system.disk.files x.torn) smallConfig {} =
      .ok (t, files') ∧ t.recovery.outcome = .tailTruncated := by
  have hsome : ((({} : Directory).start smallConfig).any fun x ↦
      x.system.live.isSome && (x.cut.start smallConfig).isSome) = true := by
    decide +kernel
  obtain ⟨x, hx, h⟩ := (Option.any_eq_true _ _).mp hsome
  obtain ⟨hlive, h⟩ := Bool.and_eq_true_iff.mp h
  obtain ⟨x', hx'⟩ := Option.isSome_iff_exists.mp h
  have hfirst : Directory.Run x := by
    refine StepPath.single ?_ (Directory.start_step hx)
    rintro config ⟨⟩
    exact ⟨rfl, rfl, rfl, rfl⟩
  have hcut : Directory.Step x (.crashed { op := .checkpoint }) x.cut :=
    .crashed (.inr ⟨hlive, .stopped⟩) ⟨[17], by decide, 5, by decide, rfl⟩
  have hrun : Directory.Run x.cut := hfirst.tail (by rintro config ⟨⟩) hcut
  have htorn : x.cut.torn ≠ [] := by
    change (journalFrame [17]).take 5 ≠ []
    decide
  unfold Directory.start at hx'
  split at hx'
  · cases hx'
  rename_i d hread
  obtain ⟨y, hy, -⟩ := Option.bind_eq_some_iff.mp hx'
  unfold System.perform at hy
  dsimp only at hy
  split at hy
  · rename_i u t hnone hopen
    obtain rfl := hrun.current.readable rfl rfl hread
    have hopen : Impl.kept ((({} : Impl).attach x.cut.system.disk 0 []).openFabric smallConfig {}) =
        .ok t := congrArg Impl.kept hopen
    obtain ⟨files', hbytes, hfiles⟩ := ((open_reads_bytes hrun (Disk.files_hold _ _) (by decide) rfl
      rfl 0 [] {}).1 _ hread).2 t hopen
    refine ⟨x.cut, _, files', hrun, htorn, ?_, hbytes, ?_⟩
    · rw [Impl.cutOff_of_ne htorn]
      exact hfiles
    · rw [Impl.cutOff_of_ne htorn]
  · cases hy

/-! ### Crashes at any byte -/

theorem Disk.Next.acceptable {image : Image} {record : JournalRecord} {d d' : Disk}
    (h : Disk.Next image record d d') (hd : ∀ r ∈ d.journal, r.Acceptable)
    (hrecord : record.Acceptable) : ∀ r ∈ d'.journal, r.Acceptable := by
  cases h with
  | same | replaced => exact hd
  | appended =>
      intro r hr
      rcases List.mem_append.mp hr with hr | hr
      · exact hd r hr
      · rw [List.mem_singleton.mp hr]
        exact hrecord
  | compacted => simp
  | restarted =>
      intro r hr
      rw [List.mem_singleton.mp hr]
      exact hrecord

/-- Replay accepts whatever a move leaves in the directory on its way. -/
theorem Move.contents_acceptable {s t : Impl} {a : Label × Bool} (h : Move s a t)
    (ha : Journaled a) (hs : s.Saved) {d : Disk} (hd : d ∈ t.store.trail) :
    d ∈ s.store.trail ∨ ∀ r ∈ d.journal, r.Acceptable := by
  cases h with
  | volatile h =>
      rw [h.frame.1] at hd
      exact .inl hd
  | @written l record m j u h hstore hview hj =>
      obtain ⟨st, hst, hf, -⟩ := j.journal_spec record
      rw [hj] at hst
      simp only at hst
      subst hst
      rw [hstore] at hf
      refine (hf.trail d hd).imp_right fun hnext ↦ ?_
      exact hnext.acceptable hs.replayable (h.acceptable hs.valid)
  | unlogged h => exact ha.elim nofun fun hl ↦ by cases hl; cases h
  | refused hj => exact ha.elim nofun nofun
  | lostRelease hsh hj => exact ha.elim nofun nofun
  | @snapshot r u h =>
      obtain ⟨st, hst, hf, -⟩ := s.writeFullSnapshot_spec
      rw [h] at hst
      simp only at hst
      subst hst
      refine (hf.trail d hd).imp_right fun hd ↦ ?_
      cases hd with
      | same | replaced => exact hs.replayable
      | compacted => simp

theorem Committed.acceptable {s t : Impl} (h : Committed s t) (hs : s.Saved)
    (htrail : s.store.trail = []) {d : Disk} (hd : d ∈ t.store.trail) :
    ∀ r ∈ d.journal, r.Acceptable := by
  induction h with
  | refl =>
      rw [htrail] at hd
      cases hd
  | tail hpath ha hm ih =>
      exact (hm.contents_acceptable ha.1 (Committed.saved hpath hs) hd).elim ih id

/-- What was loaded was within the bounds. -/
theorem Disk.Admitted.of_loaded {s t : Impl} {u : Unit} (h : s.loadFromStore = (.ok u, t)) :
    s.store.disk.Admitted s.store.config := by
  obtain ⟨hcheck, -⟩ := Impl.loadFromStore_ok h
  obtain ⟨-, hsize, hjournal⟩ := checkFiles_ok.mp hcheck
  obtain ⟨hloadable, -⟩ := Impl.loadFromStore_view h
  exact ⟨fun i hi ↦ ⟨hsize i hi, hloadable i hi⟩, hjournal⟩

theorem Impl.Recovers.cutOff {s t : Impl} (h : s.Recovers t) (torn : Bytes) :
    s.Recovers (t.cutOff torn) := by
  unfold Impl.cutOff
  split
  · exact h
  · exact ⟨h.capacities, h.policies, h.pools, h.committed, h.reserved, h.others⟩

section Bytes

variable {y : System} {s : Impl} {c : Call} {d : Disk} {torn : Bytes} {files : Files}
  {tick : Tick} {io : List Io} {config : FabricConfig}

/-- A process may stop at any byte of any write of a call: the bytes it leaves are loaded exactly
if what is left of a frame does not look like one and the files are within the bounds. What is
loaded then are the commitments of a state between two moves of the call, and the torn bytes are
gone. -/
theorem crash_at_any_byte (hrun : System.Run System.Commits y) (hlive : y.live = some s)
    (hc : y.Commits (.called c)) (hd : d ∈ s.store.disk :: (s.exec c).2.store.trail)
    (htorn : Torn torn) (hold : files.Hold d torn)
    (htruncate : config.persistence.truncateDamagedTail = true)
    (hrefuse : config.persistence.refuseOnMidfileDamage = true) :
    ((∃ x, ((({} : Impl).attach d tick io).configured config).loadFiles files = .ok x) ↔
      Unmistakable torn ∧
        (d.frames ++ torn).length ≤ config.persistence.maxJournalBytes.toNat ∧
        d.Admitted config.persistence) ∧
      ∀ t files', ((({} : Impl).attach d tick io).configured config).loadFiles files =
          .ok (t, files') →
        files'.Hold d [] ∧ ∃ u, Committed (s.enter c) u ∧ Committed u (s.exec c).2 ∧
          u.Recovers t := by
  have hs := (hrun.saved s hlive).enter c
  have hpath := Impl.exec_credited (hc.journals c s rfl hlive) fun q ↦ hc.credits c s q rfl hlive
  have hdurable : System.Run System.Durable y := hrun.mono fun _ _ h ↦ h.durable
  have hlegible : d.Legible := by
    obtain ⟨hdisk, hbound⟩ := hdurable.legible.live s hlive
    have hsystem : s.store.disk.Legible := hdisk ▸ hdurable.legible.disk
    rcases List.mem_cons.mp hd with rfl | hd
    · exact hsystem
    · exact (legible_rule.call s c hbound hsystem).2 d (List.mem_cons_of_mem _ hd)
  have hcarry : ∃ u, Committed (s.enter c) u ∧ Committed u (s.exec c).2 ∧ d.Carries u := by
    rcases List.mem_cons.mp hd with rfl | hd
    · exact ⟨s.enter c, .refl, hpath, hs.carries⟩
    · exact Committed.contents hpath hs rfl hd
  have haccept : ∀ r ∈ d.journal, r.Acceptable := by
    rcases List.mem_cons.mp hd with rfl | hd
    · exact hs.replayable
    · exact Committed.acceptable hpath hs rfl hd
  let s₀ := (({} : Impl).attach d tick io).configured config
  have hrefused : ¬(Unmistakable torn ∧
      (d.frames ++ torn).length ≤ config.persistence.maxJournalBytes.toNat) →
      ∀ x, s₀.loadFiles files ≠ .ok x := by
    intro hbad x hx
    obtain ⟨e, he⟩ := Impl.recoverFiles_refused (s := s₀) hold hlegible htorn hrefuse htruncate hbad
    unfold Impl.loadFiles at hx
    rw [he] at hx
    cases hx
  have hloaded : ∀ x, s₀.loadFiles files = .ok x → Unmistakable torn ∧
      (d.frames ++ torn).length ≤ config.persistence.maxJournalBytes.toNat ∧
      ∃ m, s₀.loadFromStore = (.ok (), m) ∧ x = (m.cutOff torn, Impl.repairedFiles files d) := by
    intro x hx
    obtain ⟨hplain, hfits⟩ := not_imp_not.mp (fun hbad ↦ hrefused hbad x) hx
    have hbytes := Impl.loadFiles_eq (s := s₀) hold hlegible htorn hplain hrefuse htruncate hfits
    rw [hx] at hbytes
    generalize s₀.loadFromStore = result at hbytes ⊢
    obtain ⟨e | ⟨⟩, m⟩ := result
    · cases hbytes
    · exact ⟨hplain, hfits, m, rfl, Except.ok.inj hbytes⟩
  refine ⟨⟨?_, ?_⟩, ?_⟩
  · rintro ⟨x, hx⟩
    obtain ⟨hplain, hfits, m, hrecords, -⟩ := hloaded x hx
    exact ⟨hplain, hfits, .of_loaded hrecords⟩
  · rintro ⟨hplain, hfits, hadmitted⟩
    have hcheck : Impl.checkFiles s₀.store = .ok () :=
      checkFiles_ok.mpr ⟨rfl, fun i hi ↦ (hadmitted.snapshot i hi).1, hadmitted.journal⟩
    obtain ⟨m, hm⟩ := Impl.loadFromStore_of_ok (s := s₀) hcheck
      (fun i hi ↦ (hadmitted.snapshot i hi).2) haccept
    have hbytes := Impl.loadFiles_eq (s := s₀) hold hlegible htorn hplain hrefuse htruncate hfits
    rw [hm] at hbytes
    exact ⟨_, hbytes⟩
  · intro t files' ht
    obtain ⟨-, -, m, hrecords, heq⟩ := hloaded _ ht
    obtain ⟨rfl, rfl⟩ := Prod.mk.inj heq
    obtain ⟨u, hu, hut, hcarries⟩ := hcarry
    exact ⟨hold.repaired, u, hu, hut, (hcarries.loaded hrecords).cutOff torn⟩

/-- A shrink is interrupted between its second and its third record, inside a header. -/
theorem crash_at_any_byte_small :
    ∃ (y : System) (s t u : Impl) (d : Disk) (torn : Bytes) (files' : Files),
      System.Run System.Commits y ∧ y.live = some s ∧
      (s.exec shrinkSmall).2.store.trail[1]? = some d ∧ torn ≠ [] ∧
      ((({} : Impl).attach d 0 []).configured smallConfig).loadFiles (d.files torn) =
        .ok (t, files') ∧
      files'.Hold d [] ∧ Committed (s.enter shrinkSmall) u ∧
      Committed u (s.exec shrinkSmall).2 ∧ u.Recovers t := by
  have h : (System.script commitsCheck {} commitScript).any (fun y ↦
      (y.interrupted shrinkSmall 1).any fun d ↦ decide (d.restarted.1 = .ok ()) &&
        decide (d.journalSize + 5 ≤ smallConfig.persistence.maxJournalBytes.toNat)) = true := by
    decide +kernel
  obtain ⟨y, hy, h⟩ := (Option.any_eq_true _ _).mp h
  obtain ⟨d, hd, h⟩ := (Option.any_eq_true _ _).mp h
  simp only [Bool.and_eq_true, decide_eq_true_eq] at h
  obtain ⟨hok, hsize⟩ := h
  have hrun : System.Run System.Commits y := .script commitsCheck_commits .refl hy
  obtain ⟨s, hlive, hd⟩ := Option.bind_eq_some_iff.mp hd
  split at hd
  · rename_i hcheck
    have hc := commitsCheck_commits y (.call shrinkSmall) hcheck.2
    have hmem := List.mem_cons_of_mem s.store.disk (List.mem_of_getElem? hd)
    have hopen : (({} : Impl).attach d 0 []).openFabric smallConfig {} =
      (.ok (), d.restarted.2) := Prod.ext hok rfl
    rcases Impl.openFabric_begun hopen (by decide) with ⟨⟨e, he⟩, -⟩ | ⟨m, t', res, hl, -⟩
    · cases he
    have hplain : Unmistakable ((journalFrame [17]).take 5) :=
      (intactAfter_eq_false_iff [] _).mp (by decide)
    have htorn : Torn ((journalFrame [17]).take 5) := ⟨[17], by decide, 5, by decide, rfl⟩
    have hne : (journalFrame [17]).take 5 ≠ [] := by decide
    have hfits : (d.frames ++ (journalFrame [17]).take 5).length ≤
        smallConfig.persistence.maxJournalBytes.toNat := by
      rw [List.length_append, d.length_frames]
      exact hsize
    obtain ⟨hiff, hloaded⟩ := @crash_at_any_byte y s shrinkSmall d _ _ 0 [] smallConfig hrun hlive hc
      hmem htorn (d.files_hold _) rfl rfl
    obtain ⟨⟨t, files'⟩, ht⟩ := hiff.mpr ⟨hplain, hfits, .of_loaded hl⟩
    obtain ⟨hhold, u, hu, hut, hrecovers⟩ := hloaded t files' ht
    exact ⟨y, s, t, u, d, _, files', hrun, hlive, hd, hne, ht, hhold, hu, hut, hrecovers⟩
  · cases hd

end Bytes

end BufferFabric
