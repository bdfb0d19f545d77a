import BufferFabric.Frames
import BufferFabric.Opening

/-!
# Interrupted journal writes

What recovery makes of a journal whose last write was interrupted: the complete frames are
visited and the rest is cut off, unless the bytes of the unfinished frame themselves look
like a frame, which recovery takes for intact records behind a damaged one.
-/

namespace BufferFabric

open Outcome

/-! ### Interrupted writes -/

def Torn (bytes : Bytes) : Prop :=
  ∃ payload : Bytes, payload.length ≤ kMaxJournalRecordBytes ∧
    ∃ n < (journalFrame payload).length, bytes = (journalFrame payload).take n

def acceptAll (seen : List Bytes) (payload : Bytes) (_ordinal : ℕ) :
    Except Status (List Bytes) :=
  .ok (seen ++ [payload])

/-- The frames written before an interrupted one are all read, and the loop stops at its
beginning. -/
theorem readLoop_frames {before torn : Bytes} {payloads : List Bytes} {fuel : ℕ}
    {scan : Scan (List Bytes)} (hsizes : ∀ p ∈ payloads, p.length ≤ kMaxJournalRecordBytes)
    (htorn : Torn torn) (hfuel : payloads.length < fuel) (hoffset : scan.offset = before.length)
    (hdamage : scan.damage = none) :
    ∃ damage, readLoop acceptAll (before ++ (payloads.flatMap journalFrame ++ torn)) fuel scan =
        .ok { state := scan.state ++ payloads
              records := scan.records + payloads.length
              offset := before.length + (payloads.flatMap journalFrame).length
              damage := damage } ∧
      (damage = none ↔ torn = []) := by
  induction payloads generalizing before scan fuel with
  | nil =>
      obtain ⟨fuel, rfl⟩ := Nat.exists_eq_add_of_lt hfuel
      simp only [List.flatMap_nil, List.nil_append, List.append_nil, List.length_nil,
        Nat.add_zero, Nat.zero_add, readLoop, hoffset]
      obtain ⟨payload, hsize, n, hn, rfl⟩ := htorn
      by_cases hzero : n = 0
      · subst hzero
        rw [List.take_zero, List.append_nil, Journal.readNext_end]
        refine ⟨none, ?_, by simp⟩
        rw [← hoffset, ← hdamage]
      · obtain ⟨e, he, hcode⟩ :=
          @Journal.readNext_torn before _ _ (Nat.pos_of_ne_zero hzero) hn hsize
        rw [he]
        dsimp only
        rw [if_pos (by rw [hcode]; decide)]
        refine ⟨some e, rfl, ?_⟩
        have hne : (journalFrame payload).take n ≠ [] := by
          rw [ne_eq, List.take_eq_nil_iff]
          rintro (h | h)
          · exact hzero h
          · rw [h] at hn
            cases hn
        simp [hne]
  | cons payload payloads ih =>
      obtain ⟨fuel, rfl⟩ := Nat.exists_eq_add_of_lt hfuel
      have hsize := hsizes payload List.mem_cons_self
      have hfile : before ++ ((payload :: payloads).flatMap journalFrame ++ torn) =
          before ++ (journalFrame payload ++ (payloads.flatMap journalFrame ++ torn)) := by
        rw [List.flatMap_cons, List.append_assoc]
      have hassoc : before ++ (journalFrame payload ++ (payloads.flatMap journalFrame ++ torn)) =
          (before ++ journalFrame payload) ++ (payloads.flatMap journalFrame ++ torn) :=
        (List.append_assoc _ _ _).symm
      obtain ⟨r, hr, hpayload, hnext⟩ := @Journal.readNext_frame before payload
        (payloads.flatMap journalFrame ++ torn) hsize
      obtain ⟨damage, hloop, hiff⟩ := @ih (before ++ journalFrame payload)
        ((payload :: payloads).length + fuel)
        { scan with
          state := scan.state ++ [payload], records := scan.records + 1
          offset := before.length + (journalFrame payload).length }
        (fun p hp ↦ hsizes p (List.mem_cons_of_mem _ hp)) (by rw [List.length_cons]; omega)
        (by rw [List.length_append]) hdamage
      refine ⟨damage, ?_, hiff⟩
      rw [hfile, readLoop, hoffset, hr]
      dsimp only
      rw [hpayload, hnext, hassoc]
      refine hloop.trans ?_
      simp only [List.flatMap_cons, List.length_append, List.length_cons, List.append_assoc,
        List.cons_append, List.nil_append, Nat.add_assoc, Nat.add_comm 1]

/-- The torn bytes do not show an intact frame behind their first byte. -/
def Unmistakable (torn : Bytes) : Prop :=
  ∀ probe, 0 < probe → showsFrame (torn.drop probe) = false

theorem showsFrame_nil : showsFrame [] = false := rfl

/-- The probe behind the last complete frame looks at the torn bytes only. -/
theorem intactAfter_eq_false_iff (frames torn : Bytes) :
    intactAfter (frames ++ torn) frames.length = false ↔ Unmistakable torn := by
  have hdrop : ∀ probe, (frames ++ torn).drop (frames.length + probe) = torn.drop probe := by
    intro probe
    rw [← List.drop_drop, List.drop_left]
  simp only [intactAfter, List.any_eq_false, List.mem_range, Bool.not_eq_true,
    Bool.and_eq_false_iff, decide_eq_false_iff_not, Nat.not_lt]
  constructor
  · intro h probe hpos
    by_cases hin : probe < torn.length
    · rw [← hdrop]
      refine (h (frames.length + probe) (by rw [List.length_append]; omega)).resolve_left ?_
      omega
    · rw [List.drop_of_length_le (by omega)]
      exact showsFrame_nil
  · intro h probe _
    by_cases hle : probe ≤ frames.length
    · exact .inl hle
    · obtain ⟨k, rfl⟩ := Nat.exists_eq_add_of_lt (Nat.lt_of_not_le hle)
      refine .inr ?_
      rw [Nat.add_assoc, hdrop]
      exact h _ (Nat.succ_pos k)

/-- What recovery makes of a journal that ends in an interrupted write. -/
theorem recoverJournal_torn {config : PersistenceConfig} {payloads : List Bytes} {torn : Bytes}
    (loaded : Bool) (hsizes : ∀ p ∈ payloads, p.length ≤ kMaxJournalRecordBytes)
    (htorn : Torn torn) (hrefuse : config.refuseOnMidfileDamage = true)
    (htruncate : config.truncateDamagedTail = true)
    (hbound : (payloads.flatMap journalFrame ++ torn).length ≤ config.maxJournalBytes.toNat) :
    (Unmistakable torn → ∃ r, recoverJournal config acceptAll loaded
        (payloads.flatMap journalFrame ++ torn) [] = .ok r ∧ r.state = payloads ∧
        r.file = payloads.flatMap journalFrame) ∧
      (¬Unmistakable torn → ∃ e, recoverJournal config acceptAll loaded
        (payloads.flatMap journalFrame ++ torn) [] = .error e) := by
  have hempty : Unmistakable [] := fun probe _ ↦ by rw [List.drop_nil]; exact showsFrame_nil
  by_cases hnil : payloads.flatMap journalFrame ++ torn = []
  · obtain ⟨hframes, rfl⟩ := List.append_eq_nil_iff.mp hnil
    have hnone : payloads = [] := by
      cases payloads with
      | nil => rfl
      | cons p payloads => cases hframes
    subst hnone
    refine ⟨fun _ ↦ ?_, fun h ↦ absurd hempty h⟩
    unfold recoverJournal
    rw [if_neg (Nat.not_lt.mpr hbound), if_pos hnil]
    exact ⟨_, rfl, rfl, rfl⟩
  · have hfuel : payloads.length <
        (payloads.flatMap journalFrame ++ torn).length + 1 := by
      have hlen := @Framing.length_le_flatMap _ _ journalFrame
        (fun p ↦ by rw [length_journalFrame, kFrameHeaderBytes]; omega) payloads
      rw [List.length_append]
      omega
    obtain ⟨damage, hloop, hiff⟩ :=
      @readLoop_frames [] _ _ _ ⟨[], 0, 0, none⟩ hsizes htorn hfuel rfl rfl
    rw [List.nil_append] at hloop
    simp only [List.nil_append, List.length_nil, Nat.zero_add] at hloop
    unfold recoverJournal
    rw [if_neg (Nat.not_lt.mpr hbound), if_neg hnil, hloop]
    simp only [bind, Except.bind]
    cases damage with
    | none =>
        obtain rfl := hiff.mp rfl
        refine ⟨fun _ ↦ ⟨_, rfl, rfl, List.append_nil _⟩, fun h ↦ absurd hempty h⟩
    | some reason =>
        dsimp only
        unfold repairTail
        dsimp only
        constructor
        · intro h
          rw [(intactAfter_eq_false_iff _ _).mpr h, Bool.false_and, if_neg Bool.false_ne_true, htruncate,
            Bool.not_true, if_neg Bool.false_ne_true]
          exact ⟨_, rfl, rfl, List.take_left⟩
        · intro h
          have hintact := mt (intactAfter_eq_false_iff (payloads.flatMap journalFrame) torn).mp h
          rw [Bool.not_eq_false] at hintact
          rw [hintact, hrefuse, Bool.true_and, if_pos rfl]
          exact ⟨_, rfl⟩

/-! ### Every prefix of a journal -/

/-- What the appends of a journal leave in its file. -/
theorem Journal.written_ok {maxBytes : ℕ} (hmax : maxBytes ≠ 0) {payloads : List Bytes}
    {start file : Bytes} (h : payloads.foldlM (Journal.append maxBytes) start = .ok file) :
    file = start ++ payloads.flatMap journalFrame ∧
      (∀ p ∈ payloads, p.length ≤ kMaxJournalRecordBytes) ∧
      (start.length ≤ maxBytes → file.length ≤ maxBytes) := by
  induction payloads generalizing start with
  | nil =>
      obtain rfl : start = file := by simpa [pure_ok] using h
      exact ⟨(List.append_nil _).symm, by simp, id⟩
  | cons payload payloads ih =>
      rw [List.foldlM_cons, seq_ok] at h
      obtain ⟨next, hnext, h⟩ := h
      unfold Journal.append at hnext
      split at hnext
      · cases hnext
      rename_i hsize
      split at hnext
      · cases hnext
      rename_i hroom
      obtain rfl := Except.ok.inj hnext
      obtain ⟨rfl, hsizes, hlen⟩ := ih h
      refine ⟨by rw [List.flatMap_cons, List.append_assoc], ?_, fun _ ↦ hlen ?_⟩
      · intro p hp
        rcases List.mem_cons.mp hp with rfl | hp
        · exact Nat.le_of_not_lt hsize
        · exact hsizes p hp
      · rw [List.length_append, length_journalFrame]
        by_contra hlt
        exact hroom ⟨hmax, by omega⟩

/-- For every sequence of payloads that were appended and every prefix of the file: recovery
visits exactly the complete frames and cuts the rest off if and only if the rest does not
show an intact frame behind its first byte. -/
theorem torn_tail_recovered_iff {payloads : List Bytes} {file : Bytes}
    (hwritten : Journal.written 536870912 payloads = .ok file) (n : ℕ) :
    (∃ r, recoverJournal {} acceptAll false (file.take n) [] = .ok r ∧
        r.state = (Framing.complete journalFrame payloads n).1 ∧
        r.file = (Framing.complete journalFrame payloads n).1.flatMap journalFrame) ↔
      ∀ probe, 0 < probe →
        showsFrame ((Framing.complete journalFrame payloads n).2.drop probe) = false := by
  obtain ⟨rfl, hsizes, hlen⟩ := Journal.written_ok (by decide) hwritten
  rw [List.nil_append] at hlen ⊢
  have hbound : ((payloads.flatMap journalFrame).take n).length ≤ 536870912 :=
    (List.length_take_le' n _).trans (hlen (Nat.zero_le _))
  have hnil : Torn [] := ⟨[], by decide, 0, by decide, rfl⟩
  have htorn : Torn (Framing.complete journalFrame payloads n).2 := by
    rcases @Framing.complete_torn _ _ journalFrame payloads n with h | ⟨p, hp, k, hk, h⟩
    · rw [h]
      exact hnil
    · exact ⟨p, hsizes p hp, k, hk, h⟩
  rw [Framing.take_flatMap] at hbound ⊢
  obtain ⟨hok, herror⟩ := @recoverJournal_torn {} _ _ false
    (fun p hp ↦ hsizes p (Framing.complete_subset p hp)) htorn rfl rfl hbound
  refine ⟨?_, hok⟩
  rintro ⟨r, hr, -, -⟩
  by_contra hmistakable
  obtain ⟨e, he⟩ := herror hmistakable
  rw [hr] at he
  cases he

/-- A session whose last grant runs under an attempt id that reads as the magic and the
version of a frame. The provenance that follows it in the record is zero, which is an empty
payload with its checksum. -/
def lookalikeSession : List Call := smallSetup ++ [askUnits 0x142464A31 40 true]

def lookalikePayloads : List Bytes :=
  (smallOpened.play lookalikeSession).store.disk.journal.map JournalRecord.payload

theorem lookalikePayloads_written : (Journal.written 536870912 lookalikePayloads).isOk = true := by
  decide +kernel

/-- Without its last byte, the last frame of that journal shows a frame in its attempt. -/
theorem lookalikePayloads_last : (lookalikePayloads.getLast?.any fun payload ↦
    showsFrame ((journalFrame payload).dropLast.drop 175)) = true := by
  decide +kernel

/-- A journal that loses its last byte is refused if what is left of its last frame shows another
one. -/
theorem last_byte_refused {payloads : List Bytes} {payload file : Bytes} {probe : ℕ}
    (hwritten : Journal.written 536870912 (payloads ++ [payload]) = .ok file) (hprobe : 0 < probe)
    (hshows : showsFrame ((journalFrame payload).dropLast.drop probe) = true) :
    ¬∃ r, recoverJournal {} acceptAll false (file.take (file.length - 1)) [] = .ok r := by
  obtain ⟨rfl, hsizes, hlen⟩ := Journal.written_ok (by decide) hwritten
  have hpos : 0 < (journalFrame payload).length := by
    rw [length_journalFrame, kFrameHeaderBytes]
    omega
  have hcut : ([] ++ (payloads ++ [payload]).flatMap journalFrame).take
      (([] ++ (payloads ++ [payload]).flatMap journalFrame).length - 1) =
        payloads.flatMap journalFrame ++ (journalFrame payload).dropLast := by
    rw [← List.dropLast_eq_take, List.nil_append, List.flatMap_append, List.flatMap_singleton,
      List.dropLast_append_of_ne_nil (List.ne_nil_of_length_pos hpos)]
  have hbound : (payloads.flatMap journalFrame ++ (journalFrame payload).dropLast).length ≤
      536870912 := by
    rw [← hcut]
    exact (List.length_take_le' _ _).trans (hlen (Nat.zero_le _))
  have htorn : Torn (journalFrame payload).dropLast :=
    ⟨payload, hsizes payload (List.mem_append_right _ (List.mem_singleton_self _)),
      (journalFrame payload).length - 1, Nat.sub_lt hpos Nat.one_pos, List.dropLast_eq_take⟩
  obtain ⟨-, hrefused⟩ := @recoverJournal_torn {} _ _ false
    (fun p hp ↦ hsizes p (List.mem_append_left _ hp)) htorn rfl rfl hbound
  obtain ⟨e, he⟩ := hrefused fun hplain ↦ by
    rw [hplain probe hprobe] at hshows
    cases hshows
  rw [hcut, he]
  rintro ⟨r, ⟨⟩⟩

/-- The journal of that session loses its last byte, and recovery refuses it. -/
theorem torn_tail_refused :
    ∃ file, Journal.written 536870912 lookalikePayloads = .ok file ∧
      ¬∃ r, recoverJournal {} acceptAll false (file.take (file.length - 1)) [] = .ok r := by
  have hwritten := lookalikePayloads_written
  obtain ⟨payload, hlast, hshows⟩ := (Option.any_eq_true _ _).mp lookalikePayloads_last
  obtain ⟨payloads, hsplit⟩ := List.getLast?_eq_some_iff.mp hlast
  rw [hsplit] at hwritten ⊢
  rcases hfile : Journal.written 536870912 (payloads ++ [payload]) with e | file
  · rw [hfile] at hwritten
    cases hwritten
  · exact ⟨file, rfl, last_byte_refused hfile (Nat.succ_pos 174) hshows⟩

/-- A checkpoint record comes back from a file that was cut inside the header behind it. -/
theorem torn_tail_recovered :
    ∃ file r, Journal.written 536870912 [[17], [18]] = .ok file ∧
      recoverJournal {} acceptAll false (file.take 30) [] = .ok r ∧ r.state = [[17]] ∧
      r.file = journalFrame [17] := by
  have hwritten : Journal.written 536870912 [[17], [18]] =
      .ok ([[17], [18]].flatMap journalFrame) := by
    decide +kernel
  have hcomplete : Framing.complete journalFrame [[17], [18]] 30 =
      ([[17]], (journalFrame [18]).take 13) := by
    decide +kernel
  have hplain : ∀ probe, 0 < probe →
      showsFrame ((Framing.complete journalFrame [[17], [18]] 30).2.drop probe) = false := by
    intro probe _
    rw [hcomplete, showsFrame, readHeader, if_pos]
    rw [List.length_drop, List.length_take, kFrameHeaderBytes]
    omega
  obtain ⟨r, hr, hstate, hfile⟩ := (torn_tail_recovered_iff hwritten 30).mpr hplain
  rw [hcomplete] at hstate hfile
  exact ⟨_, r, hwritten, hr, hstate, hfile.trans (List.append_nil _)⟩

end BufferFabric
