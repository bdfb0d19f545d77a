import BufferFabric.Codecs
import BufferFabric.Files
import BufferFabric.Lib.Crc

/-!
# Damage to the snapshot container

What `decode_snapshot` accepts begins with the encoding of the header and the payload that it
returns. So a container that was cut off is refused, and so is one with a few bytes changed, as
the checksum sees every change of at most four bytes in a row.
-/

namespace BufferFabric

open Outcome Reader

/-! ### The checksum -/

def kCrc32cPolynomial : UInt32 := 0x82F63B78

theorem crc32cUpdate_eq (crc : UInt32) (data : Bytes) :
    crc32cUpdate crc data = data.foldl (Crc.update kCrc32cPolynomial) crc := by
  have hstep : ∀ (c : UInt32) (b : UInt8),
      crc32cEntry ((c ^^^ b.toUInt32) &&& 0xFF) ^^^ (c >>> 8) =
        Crc.update kCrc32cPolynomial c b := by
    intro c b
    have hb : b.toUInt32 >>> 8 = 0 := by
      rw [← UInt32.toNat_inj, Crc.toNat_shiftRight (by decide), UInt8.toNat_toUInt32]
      exact Nat.div_eq_of_lt b.toNat_lt
    have hhigh : (c ^^^ b.toUInt32) >>> 8 = c >>> 8 := by
      rw [UInt32.shiftRight_xor, hb, UInt32.xor_zero]
    rw [Crc.update, Crc.steps_eight, hhigh]
    rfl
  unfold crc32cUpdate
  simp only [hstep]

/-- The checksum sees every change in a window of at most four bytes. -/
theorem crc32c_burst {i n : ℕ} {data data' : Bytes} (h : Crc.Burst i n data data') (hn : n ≤ 4) :
    crc32c data ≠ crc32c data' := by
  intro heq
  unfold crc32c at heq
  rw [UInt32.not_inj, crc32cUpdate_eq, crc32cUpdate_eq] at heq
  exact h.foldl_update_ne (by decide) hn _ heq

/-! ### What is accepted -/

theorem readOr_canonical {α : Type} {read : Reader UInt8 α} {put : α → Bytes} {ok : α → Prop}
    (h : Canonical read put ok) {message : String} {bytes rest : Bytes} {v : α}
    (hr : readOr read message bytes = .ok (v, rest)) : bytes = put v ++ rest := by
  unfold readOr at hr
  split at hr
  · cases hr
  · rename_i r hread
    obtain rfl := Except.ok.inj hr
    exact (h _ _ _ hread).2

theorem readSnapshotHeader_canonical {data : Bytes} {header : SnapshotHeader}
    (h : readSnapshotHeader data = .ok header) :
    ∃ rest, data = header.encode header.payloadBytes.toNat ++ rest := by
  have hword : ∀ {message : String} {bytes rest : Bytes} {v : UInt32},
      readOr ByteReader.getU32 message bytes = .ok (v, rest) → bytes = putU32 v ++ rest :=
    readOr_canonical ByteReader.getU32_canonical
  have hlong : ∀ {message : String} {bytes rest : Bytes} {v : UInt64},
      readOr ByteReader.getU64 message bytes = .ok (v, rest) → bytes = putU64 v ++ rest :=
    readOr_canonical ByteReader.getU64_canonical
  unfold readSnapshotHeader at h
  simp only [seq_ok, require_eq_ok] at h
  obtain ⟨⟨magic, l₁⟩, h₁, -, rfl, ⟨version, l₂⟩, h₂, ⟨flags, l₃⟩, h₃, ⟨length, l₄⟩, h₄,
    ⟨epoch, l₅⟩, h₅, ⟨hi, l₆⟩, h₆, ⟨lo, l₇⟩, h₇, ⟨count, l₈⟩, h₈, h⟩ := h
  obtain rfl := Except.ok.inj h
  obtain rfl := hlong h₈
  obtain rfl := hlong h₇
  obtain rfl := hlong h₆
  obtain rfl := hlong h₅
  obtain rfl := hword h₄
  obtain rfl := hword h₃
  obtain rfl := hword h₂
  refine ⟨l₈, ?_⟩
  rw [hword h₁]
  simp only [SnapshotHeader.encode, UInt32.ofNat_toNat, List.append_assoc]

theorem readTrailer_canonical {bytes : Bytes} {a b c : UInt32}
    (h : readTrailer bytes = .ok (a, b, c)) (hlength : bytes.length = 12) :
    bytes = putU32 a ++ (putU32 b ++ putU32 c) := by
  have hword : ∀ {message : String} {bytes rest : Bytes} {v : UInt32},
      readOr ByteReader.getU32 message bytes = .ok (v, rest) → bytes = putU32 v ++ rest :=
    readOr_canonical ByteReader.getU32_canonical
  unfold readTrailer at h
  simp only [seq_ok] at h
  obtain ⟨⟨a', l₁⟩, h₁, ⟨b', l₂⟩, h₂, ⟨c', l₃⟩, h₃, hvalues⟩ := h
  obtain ⟨rfl, hlast⟩ := Prod.mk.inj (Except.ok.inj hvalues)
  obtain ⟨rfl, rfl⟩ := Prod.mk.inj hlast
  obtain rfl := hword h₃
  obtain rfl := hword h₂
  obtain rfl := hword h₁
  have hnil : l₃ = [] := by
    simp only [List.length_append, length_putU32] at hlength
    exact List.length_eq_zero_iff.mp (by omega)
  rw [hnil, List.append_nil]

/-- What is accepted begins with the encoding of what is returned. -/
theorem decodeSnapshot_canonical {data payload : Bytes} {maxPayload : ℕ} {header : SnapshotHeader}
    (h : decodeSnapshot data maxPayload = .ok (header, payload)) :
    header.payloadBytes.toNat = payload.length ∧
      ∃ rest, data = encodeSnapshot header payload ++ rest := by
  unfold decodeSnapshot at h
  simp only [seq_ok, require_eq_ok, exists_const] at h
  obtain ⟨-, header', hread, -, -, hlength, ⟨payloadCrc, headerCrc, endMagic⟩, htrailer, hend,
    hheader, hpayload, hresult⟩ := h
  obtain ⟨rfl, rfl⟩ := Prod.mk.inj (Except.ok.inj hresult)
  dsimp only at hend hheader hpayload
  have hsize : ((data.drop kSnapshotHeaderBytes).take header'.payloadBytes.toNat).length =
      header'.payloadBytes.toNat := by
    rw [List.length_take, List.length_drop]
    omega
  obtain ⟨rest, hdata⟩ := readSnapshotHeader_canonical hread
  have hfront : data.take kSnapshotHeaderBytes = header'.encode header'.payloadBytes.toNat := by
    rw [hdata, ← header'.length_encode header'.payloadBytes.toNat, List.take_left]
  have htail := readTrailer_canonical htrailer (by
    rw [List.length_take, List.length_drop]
    omega)
  refine ⟨hsize.symm, data.drop (kSnapshotHeaderBytes + header'.payloadBytes.toNat + 12), ?_⟩
  unfold encodeSnapshot
  rw [hsize, ← hfront, ← hheader, hpayload, ← hend, ← htail]
  have hsecond : data.drop (kSnapshotHeaderBytes + header'.payloadBytes.toNat) =
      (data.drop kSnapshotHeaderBytes).drop header'.payloadBytes.toNat := List.drop_drop.symm
  have hthird : data.drop (kSnapshotHeaderBytes + header'.payloadBytes.toNat + 12) =
      (data.drop (kSnapshotHeaderBytes + header'.payloadBytes.toNat)).drop 12 :=
    List.drop_drop.symm
  simp only [List.append_assoc]
  rw [hthird, List.take_append_drop, hsecond, List.take_append_drop, List.take_append_drop]

/-! ### The parts of a container -/

section Parts

variable (h : SnapshotHeader) (payload rest : Bytes)

theorem slice_header : Crc.slice 0 kSnapshotHeaderBytes (encodeSnapshot h payload ++ rest) =
    h.encode payload.length := by
  unfold Crc.slice encodeSnapshot
  rw [List.drop_zero, List.append_assoc, ← h.length_encode payload.length, List.take_left]

theorem slice_length : Crc.slice 12 4 (encodeSnapshot h payload ++ rest) =
    putU32 (UInt32.ofNat payload.length) := rfl

theorem slice_payload :
    Crc.slice kSnapshotHeaderBytes payload.length (encodeSnapshot h payload ++ rest) = payload := by
  unfold Crc.slice encodeSnapshot
  rw [List.append_assoc, ← h.length_encode payload.length, List.drop_left, List.append_assoc,
    List.take_left]

theorem slice_trailer :
    Crc.slice (kSnapshotHeaderBytes + payload.length) 12 (encodeSnapshot h payload ++ rest) =
      putU32 (crc32c payload) ++ (putU32 (crc32c (h.encode payload.length)) ++
        putU32 kSnapshotEndMagic) := by
  unfold Crc.slice encodeSnapshot
  rw [← List.drop_drop, List.append_assoc, ← h.length_encode payload.length, List.drop_left,
    List.append_assoc, List.drop_left]
  rfl

end Parts

/-- What is accepted with the payload length in place has a payload of that length. -/
theorem decodeSnapshot_length {data payload : Bytes} {maxPayload n : ℕ} {header : SnapshotHeader}
    (h : decodeSnapshot data maxPayload = .ok (header, payload)) (hn : n < 4294967296)
    (hlength : Crc.slice 12 4 data = putU32 (UInt32.ofNat n)) :
    payload.length = n ∧ ∃ rest, data = encodeSnapshot header payload ++ rest := by
  obtain ⟨hsize, rest, hdata⟩ := decodeSnapshot_canonical h
  refine ⟨?_, rest, hdata⟩
  have hlt := header.payloadBytes.toNat_lt
  have hput : putU32 (UInt32.ofNat payload.length) = putU32 (UInt32.ofNat n) := by
    rw [← hlength, hdata, slice_length]
  have hword : UInt32.ofNat payload.length = UInt32.ofNat n := by
    rw [← getU32_putU32 (UInt32.ofNat payload.length) [], hput, getU32_putU32]
  have hnat := congrArg UInt32.toNat hword
  rw [UInt32.toNat_ofNat', UInt32.toNat_ofNat'] at hnat
  omega

/-- The window of `n` bytes at `i` is in the header beside the payload length, in the payload or
in the trailer. -/
def WithinRegion (payloadLength i n : ℕ) : Prop :=
  i + n ≤ 12 ∨ 16 ≤ i ∧ i + n ≤ kSnapshotHeaderBytes ∨
    kSnapshotHeaderBytes ≤ i ∧ i + n ≤ kSnapshotHeaderBytes + payloadLength ∨
    kSnapshotHeaderBytes + payloadLength ≤ i

/-- A container that was damaged in one of these regions is not accepted. -/
theorem decodeSnapshot_damaged {h header : SnapshotHeader} {payload payload' damaged : Bytes}
    {maxPayload i n : ℕ} (hlt : payload.length < 4294967296) (hn : n ≤ 4)
    (hburst : Crc.Burst i n (encodeSnapshot h payload) damaged)
    (hregion : WithinRegion payload.length i n) :
    decodeSnapshot damaged maxPayload ≠ .ok (header, payload') := by
  intro hok
  have hbytes : kSnapshotHeaderBytes = 48 := rfl
  have hend := hburst.le_length
  rw [length_encodeSnapshot] at hend
  unfold WithinRegion at hregion
  have hheader := slice_header h payload []
  have hpayload := slice_payload h payload []
  have htrailer := slice_trailer h payload []
  rw [List.append_nil] at hheader hpayload htrailer
  have hlength : Crc.slice 12 4 damaged = putU32 (UInt32.ofNat payload.length) := by
    rw [hburst.slice_eq (by omega)]
    exact slice_length h payload []
  obtain ⟨hsame, rest, rfl⟩ := decodeSnapshot_length hok hlt hlength
  have hheader' := slice_header header payload' rest
  have hpayload' := slice_payload header payload' rest
  have htrailer' := slice_trailer header payload' rest
  rw [hsame] at hheader' hpayload' htrailer'
  -- with the trailer in place, the checksums are those of what was written
  have hchecks : i + n ≤ kSnapshotHeaderBytes + payload.length →
      crc32c payload = crc32c payload' ∧
        crc32c (h.encode payload.length) = crc32c (header.encode payload.length) := by
    intro hle
    have heq := hburst.slice_eq (m := kSnapshotHeaderBytes + payload.length) (k := 12) (.inr hle)
    rw [htrailer, htrailer'] at heq
    have hread := congrArg readTrailer heq
    rw [readTrailer_put, readTrailer_put] at hread
    obtain ⟨hfirst, hsecond⟩ := Prod.mk.inj (Except.ok.inj hread)
    exact ⟨hfirst.symm, (Prod.mk.inj hsecond).1.symm⟩
  by_cases hfront : i + n ≤ kSnapshotHeaderBytes
  · have hslice := hburst.slice (m := 0) (k := kSnapshotHeaderBytes) (Nat.zero_le _) (by omega)
    rw [hheader, hheader'] at hslice
    exact crc32c_burst hslice hn (hchecks (by omega)).2
  by_cases hmiddle : i + n ≤ kSnapshotHeaderBytes + payload.length
  · have hslice := hburst.slice (m := kSnapshotHeaderBytes) (k := payload.length) (by omega)
      hmiddle
    rw [hpayload, hpayload'] at hslice
    exact crc32c_burst hslice hn (hchecks hmiddle).1
  · have hslice := hburst.slice (m := kSnapshotHeaderBytes + payload.length) (k := 12) (by omega)
      (by omega)
    have hkeep := hburst.slice_eq (m := 0) (k := kSnapshotHeaderBytes) (.inl (by omega))
    have hkeep' := hburst.slice_eq (m := kSnapshotHeaderBytes) (k := payload.length)
      (.inl (by omega))
    rw [hheader, hheader'] at hkeep
    rw [hpayload, hpayload'] at hkeep'
    rw [htrailer, htrailer', hkeep, hkeep'] at hslice
    exact hslice.ne rfl

/-- A container that was cut off is not accepted. -/
theorem decodeSnapshot_cut {h header : SnapshotHeader} {payload payload' : Bytes}
    {maxPayload k : ℕ} (hlt : payload.length < 4294967296)
    (hk : k < (encodeSnapshot h payload).length) :
    decodeSnapshot ((encodeSnapshot h payload).take k) maxPayload ≠ .ok (header, payload') := by
  intro hok
  have hlong : kSnapshotHeaderBytes + 12 ≤ k := by
    obtain ⟨-, rest, heq⟩ := decodeSnapshot_canonical hok
    have hlength := congrArg List.length heq
    rw [List.length_append, length_encodeSnapshot, List.length_take] at hlength
    omega
  have hlength : Crc.slice 12 4 ((encodeSnapshot h payload).take k) =
      putU32 (UInt32.ofNat payload.length) := by
    have hbytes : kSnapshotHeaderBytes = 48 := rfl
    unfold Crc.slice
    rw [List.drop_take, List.take_take, Nat.min_eq_left (by omega)]
    exact slice_length h payload []
  obtain ⟨hsame, rest, heq⟩ := decodeSnapshot_length hok hlt hlength
  have hsize := congrArg List.length heq
  rw [List.length_append, length_encodeSnapshot, hsame, List.length_take] at hsize
  rw [length_encodeSnapshot] at hk hsize
  omega

theorem exists_error {α : Type} {x : Except Status α} (h : ∀ a, x ≠ .ok a) :
    ∃ e, x = .error e := by
  cases x with
  | error e => exact ⟨e, rfl⟩
  | ok a => exact absurd rfl (h a)

/-- A container is read back with the payload length in the header. It is refused when it was cut
off, and when up to four bytes in a row were changed in the header beside the payload length, in
the payload or in the trailer. -/
theorem snapshot_container_guarded {h : SnapshotHeader} {payload : Bytes} {maxPayload : ℕ}
    (hversion : h.formatVersion = persistenceFormatVersion)
    (hmax : payload.length ≤ maxPayload) (hlt : payload.length < 4294967296) :
    decodeSnapshot (encodeSnapshot h payload) maxPayload =
        .ok ({ h with payloadBytes := UInt32.ofNat payload.length }, payload) ∧
      (∀ k, k < (encodeSnapshot h payload).length →
        ∃ e, decodeSnapshot ((encodeSnapshot h payload).take k) maxPayload = .error e) ∧
      ∀ i n damaged, n ≤ 4 → Crc.Burst i n (encodeSnapshot h payload) damaged →
        WithinRegion payload.length i n →
        ∃ e, decodeSnapshot damaged maxPayload = .error e := by
  refine ⟨?_, fun k hk ↦ ?_, fun i n damaged hn hburst hregion ↦ ?_⟩
  · rw [decodeSnapshot_encode hversion hmax hlt, SnapshotHeader.stored, ← hversion]
  · exact exists_error fun a ↦ decodeSnapshot_cut hlt hk
  · exact exists_error fun a ↦ decodeSnapshot_damaged hlt hn hburst hregion

/-- The second byte of a payload of three is changed. -/
theorem snapshot_container_guarded_small :
    ∃ e, decodeSnapshot
      ((encodeSnapshot { formatVersion := 1, recordCount := 7 } [1, 2, 3]).set 49 5) 3 =
        .error e := by
  refine (@snapshot_container_guarded { formatVersion := 1, recordCount := 7 } [1, 2, 3] 3 rfl
    (by decide) (by decide)).2.2 49 1 _ (by decide)
    ⟨(encodeSnapshot { formatVersion := 1, recordCount := 7 } [1, 2, 3]).take 49, [2], [5],
      (encodeSnapshot { formatVersion := 1, recordCount := 7 } [1, 2, 3]).drop 50, ?_⟩ ?_
  · decide +kernel
  · exact .inr (.inr (.inl ⟨by decide, by decide⟩))

/-- The payload length of the header is not taken from the header. -/
theorem snapshot_container_relengthed :
    ∃ h, decodeSnapshot (encodeSnapshot { formatVersion := 1, payloadBytes := 1 } []) 0 =
        .ok (h, []) ∧ h ≠ { formatVersion := 1, payloadBytes := 1 } ∧ h.payloadBytes = 0 := by
  refine ⟨_, decodeSnapshot_encode rfl (Nat.le_refl _) (by decide), ?_, rfl⟩
  decide

end BufferFabric
