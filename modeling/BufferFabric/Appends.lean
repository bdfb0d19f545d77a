import BufferFabric.Files

/-!
# Appends that fail

A sequence of `append_record` calls in which the file system may take a part of a frame, or
all of it without syncing it. A later `recover` visits the payloads whose frames are complete,
acknowledged or not, and a frame that was left incomplete is only cut off while nothing stands
behind it.
-/

namespace BufferFabric

open Outcome

/-- One call: the payload and what the file system does with its frame. -/
abbrev FrameCall := Bytes × FrameIo

def FrameCall.torn (c : FrameCall) : Bytes :=
  match c.2 with
  | .short n => (journalFrame c.1).dropLast.take n
  | _ => []

namespace FileStore

/-- The calls one after the other: the payloads that were acknowledged, and the store. -/
def appends : List FrameCall → FileStore → List Bytes × FileStore
  | [], st => ([], st)
  | c :: calls, st =>
      let next := appends calls (st.appendRecord c.1 c.2).2
      match (st.appendRecord c.1 c.2).1 with
      | .ok _ => (c.1 :: next.1, next.2)
      | .error _ => next

def Takes (st : FileStore) (payload : Bytes) : Prop :=
  payload.length ≤ kMaxJournalRecordBytes ∧
    st.openAppend.bytesWritten + kFrameHeaderBytes + payload.length ≤
      st.config.maxJournalBytes.toNat

instance (st : FileStore) (payload : Bytes) : Decidable (st.Takes payload) :=
  inferInstanceAs (Decidable (_ ∧ _))

/-- Every call satisfies `P` in the state it is made in. -/
def Along (P : FileStore → FrameCall → Prop) : List FrameCall → FileStore → Prop
  | [], _ => True
  | c :: calls, st => P st c ∧ Along P calls (st.appendRecord c.1 c.2).2

def LeavesWhole (st : FileStore) (c : FrameCall) : Prop := st.Takes c.1 → c.torn = []

def LeavesSynced (st : FileStore) (c : FrameCall) : Prop :=
  st.Takes c.1 → c.2 = .unsynced → st.config.mode ≠ .journalSync

/-- The part of a frame that the call leaves does not look like a frame. -/
def LeavesPlain (st : FileStore) (c : FrameCall) : Prop := st.Takes c.1 → Unmistakable c.torn

def WritesNothing (st : FileStore) (c : FrameCall) : Prop := st.Takes c.1 → c.2 = .short 0

/-- Only the last call that writes anything leaves a part of a frame. -/
def TornLast : List FrameCall → FileStore → Prop
  | [], _ => True
  | c :: calls, st =>
      (st.LeavesWhole c ∧ TornLast calls (st.appendRecord c.1 c.2).2) ∨
        Along WritesNothing calls (st.appendRecord c.1 c.2).2

/-- A store whose journal holds the frames of the given payloads. -/
structure Holding (config : PersistenceConfig) (st : FileStore) (payloads : List Bytes) : Prop where
  config_eq : st.config = config
  configured : st.configured = true
  snapshot : st.files.snapshot = none
  journal : st.files.journal.getD [] = payloads.flatMap journalFrame
  position : st.openAppend.bytesWritten = (payloads.flatMap journalFrame).length
  sizes : ∀ p ∈ payloads, p.length ≤ kMaxJournalRecordBytes
  bound : (payloads.flatMap journalFrame).length ≤ config.maxJournalBytes.toNat

variable {config : PersistenceConfig} {st : FileStore} {payloads : List Bytes} {c : FrameCall}

@[simp] theorem openAppend_config (st : FileStore) : st.openAppend.config = st.config := by
  unfold openAppend
  split <;> rfl

@[simp] theorem openAppend_journal (st : FileStore) :
    st.openAppend.files.journal.getD [] = st.files.journal.getD [] := by
  unfold openAppend
  split <;> rfl

theorem openAppend_writable (st : FileStore) : st.openAppend.writable = true := by
  unfold openAppend
  split <;> simp_all

theorem openAppend_of_writable (h : st.writable = true) : st.openAppend = st := by
  unfold openAppend
  rw [if_pos h]

@[simp] theorem openAppend_configured (st : FileStore) :
    st.openAppend.configured = st.configured := by
  unfold openAppend
  split <;> rfl

@[simp] theorem openAppend_snapshot (st : FileStore) :
    st.openAppend.files.snapshot = st.files.snapshot := by
  unfold openAppend
  split <;> rfl

theorem Holding.openAppend (h : st.Holding config payloads) :
    st.openAppend.Holding config payloads where
  config_eq := by rw [openAppend_config, h.config_eq]
  configured := by rw [openAppend_configured, h.configured]
  snapshot := by rw [openAppend_snapshot, h.snapshot]
  journal := by rw [openAppend_journal, h.journal]
  position := by rw [openAppend_of_writable st.openAppend_writable, h.position]
  sizes := h.sizes
  bound := h.bound

/-- The store after the whole frame of a payload was written. -/
def advanced (st : FileStore) (payload : Bytes) : FileStore :=
  { st.openAppend.extend (journalFrame payload) with
    bytesWritten := st.openAppend.bytesWritten + (journalFrame payload).length }

theorem Holding.advanced (h : st.Holding config payloads) {payload : Bytes}
    (htakes : st.Takes payload) (n : ℕ) :
    ({ st.advanced payload with journalBytes := n } : FileStore).Holding config
      (payloads ++ [payload]) := by
  have hopen := h.openAppend
  have hflat : (payloads ++ [payload]).flatMap journalFrame =
      payloads.flatMap journalFrame ++ journalFrame payload := by
    rw [List.flatMap_append, List.flatMap_singleton]
  refine ⟨hopen.config_eq, hopen.configured, hopen.snapshot, ?_, ?_, ?_, ?_⟩
  · rw [hflat, ← hopen.journal]
    rfl
  · rw [openAppend_of_writable (by exact st.openAppend_writable), hflat, List.length_append,
      ← h.position]
    rfl
  · intro p hp
    rcases List.mem_append.mp hp with hp | hp
    · exact h.sizes p hp
    · rw [List.mem_singleton.mp hp]
      exact htakes.1
  · have hroom := htakes.2
    rw [h.position, h.config_eq] at hroom
    rw [hflat, List.length_append, length_journalFrame]
    omega

/-- What an append does: it is refused, it leaves a part of a frame, or it leaves a frame,
and then it fails exactly when the frame was not synced. -/
theorem Holding.appendRecord (hvalid : config.validate = .ok ()) (h : st.Holding config payloads)
    (c : FrameCall) :
    (¬st.Takes c.1 ∧ ∃ e, st.appendRecord c.1 c.2 = (.error e, st.openAppend)) ∨
      (∃ n, st.Takes c.1 ∧ c.2 = .short n ∧
        ∃ e, st.appendRecord c.1 c.2 = (.error e, st.openAppend.extend c.torn)) ∨
      (st.Takes c.1 ∧ c.torn = [] ∧ (st.appendRecord c.1 c.2).2.Holding config (payloads ++ [c.1]) ∧
        ((∃ e, (st.appendRecord c.1 c.2).1 = .error e) ↔ ¬st.LeavesSynced c)) := by
  obtain ⟨payload, io⟩ := c
  have hconfigured : (!st.configured) = false := by rw [h.configured]; rfl
  obtain ⟨hmax, -⟩ := PersistenceConfig.validate_ok hvalid
  unfold FileStore.appendRecord
  simp only [hconfigured, Bool.false_eq_true, if_false, openAppend_config]
  by_cases hsize : payload.length ≤ kMaxJournalRecordBytes
  swap
  · rw [if_pos (Nat.not_le.mp hsize)]
    exact .inl ⟨fun ht ↦ hsize ht.1, _, rfl⟩
  rw [if_neg (Nat.not_lt.mpr hsize)]
  by_cases hroom : st.openAppend.bytesWritten + kFrameHeaderBytes + payload.length ≤
      st.config.maxJournalBytes.toNat
  swap
  · rw [if_pos ⟨by rw [h.config_eq]; exact hmax, Nat.not_le.mp hroom⟩]
    exact .inl ⟨fun ht ↦ hroom ht.2, _, rfl⟩
  rw [if_neg fun hfull ↦ Nat.not_le.mpr hfull.2 hroom]
  have htakes : st.Takes payload := ⟨hsize, hroom⟩
  cases io with
  | short n => exact .inr (.inl ⟨n, htakes, rfl, _, rfl⟩)
  | ok =>
      refine .inr (.inr ⟨htakes, rfl, h.advanced htakes _, ?_⟩)
      simp [LeavesSynced]
  | unsynced =>
      refine .inr (.inr ⟨htakes, rfl, ?_, ?_⟩)
      · dsimp only
        split
        · exact h.advanced htakes st.openAppend.journalBytes
        · exact h.advanced htakes _
      · by_cases hmode : st.config.mode = .journalSync
        · simp [LeavesSynced, hmode, htakes]
        · simp [LeavesSynced, hmode]

/-! ### Runs -/

theorem Holding.extend_nil (h : st.Holding config payloads) :
    (st.openAppend.extend []).Holding config payloads := by
  have hopen := h.openAppend
  refine ⟨hopen.config_eq, hopen.configured, hopen.snapshot, ?_, ?_, h.sizes, h.bound⟩
  · rw [← hopen.journal]
    exact List.append_nil _
  · rw [openAppend_of_writable (by exact st.openAppend_writable)]
    exact h.position

theorem appends_append (calls calls' : List FrameCall) (st : FileStore) :
    appends (calls ++ calls') st =
      ((appends calls st).1 ++ (appends calls' (appends calls st).2).1,
        (appends calls' (appends calls st).2).2) := by
  induction calls generalizing st with
  | nil => rfl
  | cons c calls ih =>
      rw [List.cons_append, appends, appends, ih]
      cases (st.appendRecord c.1 c.2).1 <;> rfl

theorem appends_cons_snd (c : FrameCall) (calls : List FrameCall) (st : FileStore) :
    (appends (c :: calls) st).2 = (appends calls (st.appendRecord c.1 c.2).2).2 := by
  rw [appends]
  cases (st.appendRecord c.1 c.2).1 <;> rfl

theorem along_append {P : FileStore → FrameCall → Prop} (calls calls' : List FrameCall)
    (st : FileStore) :
    Along P (calls ++ calls') st ↔ Along P calls st ∧ Along P calls' (appends calls st).2 := by
  induction calls generalizing st with
  | nil => exact ⟨fun h ↦ ⟨trivial, h⟩, fun h ↦ h.2⟩
  | cons c calls ih =>
      rw [List.cons_append, Along, Along, ih, appends_cons_snd, and_assoc]

/-- The frames a run leaves are those of the acknowledged payloads, if every frame was
synced; otherwise there are more. -/
theorem Holding.appends (hvalid : config.validate = .ok ()) {calls : List FrameCall}
    (h : st.Holding config payloads) (hwhole : Along LeavesWhole calls st) :
    ∃ written, (FileStore.appends calls st).2.Holding config (payloads ++ written) ∧
      (FileStore.appends calls st).1.Sublist written ∧
      ((FileStore.appends calls st).1 = written ↔ Along LeavesSynced calls st) := by
  induction calls generalizing st payloads with
  | nil => exact ⟨[], by rwa [List.append_nil], List.Sublist.refl _, by simp [FileStore.appends, Along]⟩
  | cons c calls ih =>
      obtain ⟨hc, hrest⟩ := hwhole
      -- a call that leaves no frame changes neither the payloads nor the acknowledgements
      have hnone : ∀ {e : Status} {u : FileStore}, st.appendRecord c.1 c.2 = (.error e, u) →
          u.Holding config payloads → st.LeavesSynced c →
          ∃ written, (FileStore.appends (c :: calls) st).2.Holding config (payloads ++ written) ∧
            (FileStore.appends (c :: calls) st).1.Sublist written ∧
            ((FileStore.appends (c :: calls) st).1 = written ↔ Along LeavesSynced (c :: calls) st) := by
        intro e u heq hu hsynced
        rw [heq] at hrest
        obtain ⟨written, hheld, hsub, hiff⟩ := ih hu hrest
        refine ⟨written, ?_⟩
        simp only [FileStore.appends, Along, heq]
        exact ⟨hheld, hsub, hiff.trans (and_iff_right hsynced).symm⟩
      rcases h.appendRecord hvalid c with ⟨hno, e, heq⟩ | ⟨n, htakes, hshort, e, heq⟩ |
        ⟨htakes, -, hheld, hfails⟩
      · exact hnone heq h.openAppend fun ht ↦ absurd ht hno
      · rw [hc htakes] at heq
        refine hnone heq h.extend_nil fun _ hun ↦ ?_
        rw [hshort] at hun
        cases hun
      · obtain ⟨written, hheld, hsub, hiff⟩ := ih hheld hrest
        refine ⟨c.1 :: written, ?_⟩
        rw [List.append_assoc, List.singleton_append] at hheld
        cases hr : (st.appendRecord c.1 c.2).1 with
        | ok u =>
            have hsynced : st.LeavesSynced c := by
              by_contra hn
              obtain ⟨e, he⟩ := hfails.mpr hn
              rw [hr] at he
              cases he
            simp only [FileStore.appends, Along, hr]
            refine ⟨hheld, hsub.cons_cons _, ?_⟩
            rw [List.cons.injEq, and_iff_right rfl, hiff, and_iff_right hsynced]
        | error e =>
            have hsynced : ¬st.LeavesSynced c := hfails.mp ⟨e, hr⟩
            simp only [FileStore.appends, Along, hr]
            refine ⟨hheld, hsub.cons _, ?_⟩
            rw [iff_false_right fun hand ↦ hsynced hand.1]
            intro heq
            have hle := hsub.length_le
            rw [heq, List.length_cons] at hle
            omega

end FileStore

/-- A directory with frames and the beginning of another one is recovered with exactly the
acknowledged payloads, if and only if these are the payloads of the frames and the beginning
does not look like a frame. -/
theorem Files.recover_torn_iff {config : PersistenceConfig} (files : Files)
    (acked : List Bytes) {payloads : List Bytes} {torn : Bytes} (hsnap : files.snapshot = none)
    (hjournal : files.journal.getD [] = payloads.flatMap journalFrame ++ torn)
    (hsizes : ∀ p ∈ payloads, p.length ≤ kMaxJournalRecordBytes) (htorn : Torn torn)
    (hbound : (payloads.flatMap journalFrame ++ torn).length ≤ config.maxJournalBytes.toNat)
    (hrefuse : config.refuseOnMidfileDamage = true)
    (htruncate : config.truncateDamagedTail = true) :
    (∃ r, files.recover config (fun seen _ _ ↦ .ok seen) acceptAll [] = .ok r ∧ r.state = acked) ↔
      acked = payloads ∧ Unmistakable torn := by
  have hrecover : files.recover config (fun seen _ _ ↦ .ok seen) acceptAll [] =
      recoverJournal config acceptAll false (payloads.flatMap journalFrame ++ torn) [] := by
    unfold Files.recover readFileBounded
    simp only [hsnap, hjournal, Option.getD_none, List.length_nil, Nat.zero_le, require, if_true,
      if_pos hbound, bind, Except.bind, pure, Except.pure]
  obtain ⟨hgood, hbad⟩ := recoverJournal_torn false hsizes htorn hrefuse htruncate hbound
  rw [hrecover]
  constructor
  · rintro ⟨r, hr, rfl⟩
    by_cases hun : Unmistakable torn
    · obtain ⟨r', hr', hstate, -⟩ := hgood hun
      rw [hr] at hr'
      cases hr'
      exact ⟨hstate, hun⟩
    · obtain ⟨e, he⟩ := hbad hun
      rw [hr] at he
      cases he
  · rintro ⟨rfl, hun⟩
    obtain ⟨r, hr, hstate, -⟩ := hgood hun
    exact ⟨r, hr, hstate⟩

def FileStore.fresh (config : PersistenceConfig) : FileStore :=
  { config := config, configured := true }

theorem FileStore.fresh_holding (config : PersistenceConfig) :
    (FileStore.fresh config).Holding config [] where
  config_eq := rfl
  configured := rfl
  snapshot := rfl
  journal := rfl
  position := rfl
  sizes := by simp
  bound := Nat.zero_le _

theorem torn_nil : Torn [] := ⟨[], Nat.zero_le _, 0, Nat.succ_pos _, rfl⟩

theorem unmistakable_nil : Unmistakable [] := by
  intro probe _
  rw [List.drop_nil]
  exact showsFrame_nil

/-- What a short write leaves is the beginning of a frame, and shorter than the frame. -/
theorem FrameCall.torn_short {c : FrameCall} {n : ℕ} (hc : c.2 = .short n)
    (hsize : c.1.length ≤ kMaxJournalRecordBytes) :
    Torn c.torn ∧ c.torn.length ≤ kFrameHeaderBytes + c.1.length := by
  have heq : c.torn = (journalFrame c.1).take (min n ((journalFrame c.1).length - 1)) := by
    unfold FrameCall.torn
    rw [hc]
    dsimp only
    rw [List.dropLast_eq_take, List.take_take]
  have hlength := length_journalFrame c.1
  have hheader : 0 < kFrameHeaderBytes := by decide
  rw [heq]
  refine ⟨⟨c.1, hsize, _, ?_, rfl⟩, ?_⟩
  · omega
  · rw [List.length_take]
    omega

theorem append_eq_iff_of_sublist {α : Type} {a b c d : List α} (hab : a.Sublist b)
    (hcd : c.Sublist d) : a ++ c = b ++ d ↔ a = b ∧ c = d := by
  refine ⟨fun h ↦ ?_, fun ⟨hl, hr⟩ ↦ by rw [hl, hr]⟩
  have hlength := congrArg List.length h
  have hle := hab.length_le
  have hle' := hcd.length_le
  rw [List.length_append, List.length_append] at hlength
  exact List.append_inj h (by omega)

namespace FileStore

variable {config : PersistenceConfig} {st : FileStore} {payloads : List Bytes}

/-- What one more call leaves behind the frames: the frame, a part of it or nothing. -/
theorem Holding.left (hvalid : config.validate = .ok ()) (h : st.Holding config payloads)
    (c : FrameCall) :
    ∃ more torn, (FileStore.appends [c] st).2.files.snapshot = none ∧
      (FileStore.appends [c] st).2.files.journal.getD [] =
        (payloads ++ more).flatMap journalFrame ++ torn ∧
      (∀ p ∈ payloads ++ more, p.length ≤ kMaxJournalRecordBytes) ∧ Torn torn ∧
      ((payloads ++ more).flatMap journalFrame ++ torn).length ≤ config.maxJournalBytes.toNat ∧
      (FileStore.appends [c] st).1.Sublist more ∧ ((FileStore.appends [c] st).1 = more ↔ st.LeavesSynced c) ∧
      (Unmistakable torn ↔ st.LeavesPlain c) := by
  have hopen := h.openAppend
  rcases h.appendRecord hvalid c with ⟨hno, e, heq⟩ | ⟨n, htakes, hshort, e, heq⟩ |
    ⟨htakes, htorn, hnext, hfails⟩
  · refine ⟨[], [], ?_⟩
    simp only [FileStore.appends, heq, List.append_nil]
    refine ⟨hopen.snapshot, hopen.journal, h.sizes, torn_nil, h.bound, List.Sublist.refl _, ?_, ?_⟩
    · exact iff_of_true trivial fun ht ↦ absurd ht hno
    · exact iff_of_true unmistakable_nil fun ht ↦ absurd ht hno
  · obtain ⟨hbegin, hshorter⟩ := c.torn_short hshort htakes.1
    have hroom := htakes.2
    rw [h.position, h.config_eq] at hroom
    refine ⟨[], c.torn, ?_⟩
    simp only [FileStore.appends, heq, List.append_nil]
    refine ⟨hopen.snapshot, congrArg (· ++ c.torn) hopen.journal, h.sizes, hbegin, ?_,
      List.Sublist.refl _, iff_of_true trivial fun _ hun ↦ ?_, fun hp _ ↦ hp, fun hp ↦ hp htakes⟩
    · rw [List.length_append]
      omega
    · rw [hshort] at hun
      cases hun
  · have hplain : Unmistakable [] ↔ st.LeavesPlain c :=
      iff_of_true unmistakable_nil fun _ ↦ htorn ▸ unmistakable_nil
    refine ⟨[c.1], [], ?_⟩
    rw [List.append_nil]
    cases hr : (st.appendRecord c.1 c.2).1 with
    | ok u =>
        have hsynced : st.LeavesSynced c := by
          by_contra hn
          obtain ⟨e, he⟩ := hfails.mpr hn
          rw [hr] at he
          cases he
        simp only [FileStore.appends, hr]
        exact ⟨hnext.snapshot, hnext.journal, hnext.sizes, torn_nil, hnext.bound,
          List.Sublist.refl _, iff_of_true trivial hsynced, hplain⟩
    | error e =>
        have hsynced : ¬st.LeavesSynced c := hfails.mp ⟨e, hr⟩
        simp only [FileStore.appends, hr]
        refine ⟨hnext.snapshot, hnext.journal, hnext.sizes, torn_nil, hnext.bound,
          List.nil_sublist _, iff_of_false (fun hnil ↦ ?_) hsynced, hplain⟩
        cases hnil

theorem extend_nil_journal (st : FileStore) :
    (st.openAppend.extend []).files.journal.getD [] = st.files.journal.getD [] :=
  (List.append_nil _).trans st.openAppend_journal

/-- A call that writes nothing leaves the files, but for an empty journal. -/
theorem WritesNothing.appendRecord {c : FrameCall} (hbound : st.config.maxJournalBytes ≠ 0)
    (h : st.WritesNothing c) :
    ∃ e u, st.appendRecord c.1 c.2 = (.error e, u) ∧ u.config = st.config ∧
      u.files.snapshot = st.files.snapshot ∧
      u.files.journal.getD [] = st.files.journal.getD [] ∧ st.LeavesSynced c ∧ st.LeavesPlain c := by
  obtain ⟨payload, io⟩ := c
  have hsynced : st.LeavesSynced (payload, io) := by
    intro ht hun
    cases hun.symm.trans (h ht)
  have hplain : st.LeavesPlain (payload, io) := by
    intro ht
    have hio : io = .short 0 := h ht
    unfold FrameCall.torn
    rw [hio]
    exact unmistakable_nil
  unfold FileStore.appendRecord
  dsimp only
  split
  · exact ⟨_, _, rfl, rfl, rfl, rfl, hsynced, hplain⟩
  split
  · exact ⟨_, _, rfl, st.openAppend_config, st.openAppend_snapshot, st.openAppend_journal, hsynced,
      hplain⟩
  rename_i hsize
  split
  · exact ⟨_, _, rfl, st.openAppend_config, st.openAppend_snapshot, st.openAppend_journal, hsynced,
      hplain⟩
  rename_i hroom
  rw [openAppend_config] at hroom
  have htakes : st.Takes payload :=
    ⟨Nat.not_lt.mp hsize, Nat.not_lt.mp fun hfull ↦ hroom ⟨hbound, hfull⟩⟩
  obtain rfl : io = .short 0 := h htakes
  exact ⟨_, _, rfl, st.openAppend_config, st.openAppend_snapshot, st.extend_nil_journal, hsynced,
    hplain⟩

theorem appends_nothing {calls : List FrameCall} (hbound : st.config.maxJournalBytes ≠ 0)
    (h : Along WritesNothing calls st) :
    (appends calls st).1 = [] ∧ (appends calls st).2.files.snapshot = st.files.snapshot ∧
      (appends calls st).2.files.journal.getD [] = st.files.journal.getD [] ∧
      Along LeavesSynced calls st ∧ Along LeavesPlain calls st := by
  induction calls generalizing st with
  | nil => exact ⟨rfl, rfl, rfl, trivial, trivial⟩
  | cons c calls ih =>
      obtain ⟨hc, hrest⟩ := h
      obtain ⟨e, u, heq, hconfig, hsnap, hjournal, hsynced, hplain⟩ := hc.appendRecord hbound
      rw [heq] at hrest
      obtain ⟨hnone, hsnap', hjournal', hsynced', hplain'⟩ := ih (hconfig ▸ hbound) hrest
      simp only [appends, Along, heq]
      exact ⟨hnone, hsnap'.trans hsnap, hjournal'.trans hjournal, ⟨hsynced, hsynced'⟩, hplain,
        hplain'⟩

theorem Along.mono {P Q : FileStore → FrameCall → Prop} (hPQ : ∀ st c, P st c → Q st c)
    {calls : List FrameCall} (h : Along P calls st) : Along Q calls st := by
  induction calls generalizing st with
  | nil => trivial
  | cons c calls ih => exact ⟨hPQ _ _ h.1, ih h.2⟩

@[simp] theorem appendRecord_config (st : FileStore) (payload : Bytes) (io : FrameIo) :
    (st.appendRecord payload io).2.config = st.config := by
  unfold FileStore.appendRecord
  split
  · rfl
  dsimp only
  split
  · exact st.openAppend_config
  split
  · exact st.openAppend_config
  cases io with
  | short n => exact st.openAppend_config
  | ok => exact st.openAppend_config
  | unsynced =>
      dsimp only
      split <;> exact st.openAppend_config

theorem appends_config (calls : List FrameCall) (st : FileStore) :
    (appends calls st).2.config = st.config := by
  induction calls generalizing st with
  | nil => rfl
  | cons c calls ih => rw [appends_cons_snd, ih, appendRecord_config]

/-- Up to the call that leaves a part of a frame every call leaves whole frames, and the calls
behind it write nothing. -/
theorem TornLast.split {calls : List FrameCall} (h : TornLast calls st) :
    Along LeavesWhole calls st ∨ ∃ before c rest, calls = before ++ c :: rest ∧
      Along LeavesWhole before st ∧ Along WritesNothing rest (appends (before ++ [c]) st).2 := by
  induction calls generalizing st with
  | nil => exact .inl trivial
  | cons c calls ih =>
      rcases h with ⟨hc, hrest⟩ | hrest
      · rcases ih hrest with hwhole | ⟨before, c', rest, rfl, hwhole, hnothing⟩
        · exact .inl ⟨hc, hwhole⟩
        · refine .inr ⟨c :: before, c', rest, rfl, ⟨hc, hwhole⟩, ?_⟩
          rw [List.cons_append, appends_cons_snd]
          exact hnothing
      · refine .inr ⟨[], c, calls, rfl, trivial, ?_⟩
        rw [List.nil_append, appends_cons_snd]
        exact hrest

end FileStore

/-- After a run in which only the last call that writes anything leaves a part of a frame,
recovery visits exactly the acknowledged payloads, if and only if every frame was synced and
that part does not look like a frame. -/
theorem journal_exact_iff {config : PersistenceConfig} (hvalid : config.validate = .ok ())
    (hrefuse : config.refuseOnMidfileDamage = true) (htruncate : config.truncateDamagedTail = true)
    {calls : List FrameCall} (hlast : FileStore.TornLast calls (.fresh config)) :
    (∃ r, (FileStore.appends calls (.fresh config)).2.files.recover config
        (fun seen _ _ ↦ .ok seen) acceptAll [] = .ok r ∧
        r.state = (FileStore.appends calls (.fresh config)).1) ↔
      FileStore.Along FileStore.LeavesSynced calls (.fresh config) ∧
        FileStore.Along FileStore.LeavesPlain calls (.fresh config) := by
  have hfresh := FileStore.fresh_holding config
  rcases hlast.split with hwhole | ⟨before, c, rest, rfl, hwhole, hnothing⟩
  · obtain ⟨written, hheld, -, hiff⟩ := hfresh.appends hvalid hwhole
    rw [List.nil_append] at hheld
    have hplain : FileStore.Along FileStore.LeavesPlain calls (.fresh config) :=
      hwhole.mono fun st c h ht ↦ (h ht) ▸ unmistakable_nil
    rw [Files.recover_torn_iff _ _ hheld.snapshot (hheld.journal.trans (List.append_nil _).symm)
      hheld.sizes torn_nil (by rw [List.append_nil]; exact hheld.bound) hrefuse htruncate, hiff]
    exact and_congr_right fun _ ↦ iff_of_true unmistakable_nil hplain
  · obtain ⟨written, hheld, hsub, hiff⟩ := hfresh.appends hvalid hwhole
    rw [List.nil_append] at hheld
    obtain ⟨more, torn, hsnap, hjournal, hsizes, htorn, hlength, hsub', hiff', hplain'⟩ :=
      hheld.left hvalid c
    have hconfig : (FileStore.appends (before ++ [c]) (.fresh config)).2.config.maxJournalBytes ≠ 0 := by
      rw [FileStore.appends_append, FileStore.appends_config, hheld.config_eq]
      exact (PersistenceConfig.validate_ok hvalid).1
    obtain ⟨hnone, hsnap'', hjournal'', hsynced, hplain⟩ :=
      FileStore.appends_nothing hconfig hnothing
    have hwholePlain : FileStore.Along FileStore.LeavesPlain before (.fresh config) :=
      hwhole.mono fun st c h ht ↦ (h ht) ▸ unmistakable_nil
    rw [FileStore.appends_append] at hsnap'' hjournal'' hnone hsynced hplain
    rw [List.append_cons, FileStore.appends_append, FileStore.along_append, FileStore.along_append,
      FileStore.along_append, FileStore.along_append, FileStore.appends_append]
    rw [Files.recover_torn_iff _ _ (hsnap''.trans hsnap) (hjournal''.trans hjournal) hsizes htorn
      hlength hrefuse htruncate, hnone, List.append_nil, hplain', ← hiff]
    simp only [hwholePlain, hsynced, hplain, FileStore.Along, and_true, true_and]
    rw [← hiff', append_eq_iff_of_sublist hsub hsub']

def appendConfig : PersistenceConfig := { directory := [100], mode := .journalSync }

/-- A record is appended, the next one is cut short within its header, and nothing of a third one
is written. -/
theorem short_tail_recovered :
    (FileStore.appends [([17], .ok), ([18], .short 13), ([19], .short 0)]
      (.fresh appendConfig)).1 = [[17]] ∧
      ∃ r, (FileStore.appends [([17], .ok), ([18], .short 13), ([19], .short 0)]
        (.fresh appendConfig)).2.files.recover appendConfig (fun seen _ _ ↦ .ok seen) acceptAll [] =
          .ok r ∧ r.state = [[17]] := by
  have hacked : (FileStore.appends [([17], .ok), ([18], .short 13), ([19], .short 0)]
      (.fresh appendConfig)).1 = [[17]] := by
    decide +kernel
  have hplain : Unmistakable (FrameCall.torn ([18], .short 13)) := by
    intro probe hpos
    rw [showsFrame, readHeader, if_pos]
    have hlength : (FrameCall.torn ([18], .short 13)).length = 13 := by decide +kernel
    rw [List.length_drop, hlength, kFrameHeaderBytes]
    omega
  have hvalid : appendConfig.validate = .ok () := by decide
  have hlast : FileStore.TornLast [([17], .ok), ([18], .short 13), ([19], .short 0)]
      (.fresh appendConfig) :=
    .inl ⟨fun _ ↦ rfl, .inr ⟨fun _ ↦ rfl, trivial⟩⟩
  have hexact := (journal_exact_iff hvalid rfl rfl hlast).mpr
    ⟨⟨fun _ h ↦ (by cases h), fun _ h ↦ (by cases h), fun _ h ↦ (by cases h), trivial⟩,
      fun _ ↦ unmistakable_nil, fun _ ↦ hplain, fun _ ↦ unmistakable_nil, trivial⟩
  rw [hacked] at hexact
  exact ⟨hacked, hexact⟩

/-- A write that was cut short and the append behind it make the directory unreadable; a
frame that was written and not synced is visited. -/
theorem journal_not_exact :
    ((FileStore.appends [([17], .short 5), ([18], .ok)] (.fresh appendConfig)).1 = [[18]] ∧
      ¬∃ r, (FileStore.appends [([17], .short 5), ([18], .ok)]
        (.fresh appendConfig)).2.files.recover appendConfig (fun seen _ _ ↦ .ok seen) acceptAll [] =
          .ok r) ∧
      (FileStore.appends [([17], .unsynced)] (.fresh appendConfig)).1 = [] ∧
      ∃ r, (FileStore.appends [([17], .unsynced)] (.fresh appendConfig)).2.files.recover appendConfig
        (fun seen _ _ ↦ .ok seen) acceptAll [] = .ok r ∧ r.state = [[17]] := by
  refine ⟨⟨by decide +kernel, ?_⟩, by decide +kernel, ?_⟩
  · have h : ((FileStore.appends [([17], .short 5), ([18], .ok)]
        (.fresh appendConfig)).2.files.recover appendConfig (fun seen _ _ ↦ .ok seen)
          acceptAll []).isOk = false := by
      decide +kernel
    rintro ⟨r, hr⟩
    rw [hr] at h
    cases h
  · have h : (match (FileStore.appends [([17], .unsynced)]
        (.fresh appendConfig)).2.files.recover appendConfig (fun seen _ _ ↦ .ok seen)
          acceptAll [] with
        | .ok r => decide (r.state = [[17]])
        | .error _ => false) = true := by
      decide +kernel
    split at h
    next r hr => exact ⟨r, hr, of_decide_eq_true h⟩
    next => cases h

end BufferFabric
