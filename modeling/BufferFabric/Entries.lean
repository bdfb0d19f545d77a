import BufferFabric.Images

/-!
# Journal entries

The payload of a journal record byte by byte, as `apply_journal_payload` takes it: an opcode,
and behind it the encoding of what has changed. Whatever follows the encoding is not looked at.
-/

namespace BufferFabric

open ByteReader Outcome

namespace Impl

def readEntry {α : Type} (read : Reader UInt8 α) (message : String) (bytes : Bytes) (s : Impl)
    (apply : α → Except Status Unit × Impl) : Except Status Unit × Impl :=
  match read bytes with
  | none => (.error ⟨.corruptRecord, message⟩, s)
  | some (a, _) => apply a

/-- The record of an epoch. The epoch is taken before the boot incarnation was read. -/
def applyEpochEntry (s : Impl) (bytes : Bytes) : Except Status Unit × Impl :=
  match getId bytes with
  | none => (.error ⟨.corruptRecord, "epoch record"⟩, s)
  | some ((recorded : EpochId), bytes) =>
    let s := if s.epoch.raw < recorded.raw then { s with epoch := recorded } else s
    readEntry (do let hi ← getU64; let lo ← getU64; pure (⟨hi, lo⟩ : BootIncarnation))
      "epoch record boot" bytes s fun boot ↦
        (.ok (), if boot.hi ≠ 0 ∨ boot.lo ≠ 0 then { s with boot := boot } else s)

def applyAllocationEntry (s : Impl) (op : AllocationOp) (bytes : Bytes) :
    Except Status Unit × Impl :=
  readEntry decodeAllocation "allocation record is not decodable" bytes s fun r ↦
    s.applyRecord (.allocation op r)

/-- `apply_journal_payload`. What is done with a record once it was read is `applyRecord`. -/
def applyJournalPayload (s : Impl) (payload : Bytes) : Except Status Unit × Impl :=
  match getU8 payload with
  | none => (.error ⟨.corruptRecord, "journal record has no opcode"⟩, s)
  | some (op, bytes) =>
    match op.toNat with
    | 1 => s.applyEpochEntry bytes
    | 2 =>
        readEntry (do let d ← decodePool; let g ← getId; pure (d, g))
          "pool record is not decodable" bytes s fun e ↦ s.applyRecord (.poolUpsert e.1 e.2)
    | 3 => readEntry getId "pool removal" bytes s fun k ↦ s.applyRecord (.poolRemoved k)
    | 4 =>
        readEntry decodePolicy "policy record is not decodable" bytes s fun p ↦
          s.applyRecord (.policyUpsert p)
    | 5 =>
        readEntry decodeQueue "queue record is not decodable" bytes s fun q ↦
          s.applyRecord (.queueUpsert q)
    | 6 => readEntry getId "queue retirement" bytes s fun k ↦ s.applyRecord (.queueRetired k)
    | 7 =>
        readEntry decodeCapacity "capacity record is not decodable" bytes s fun c ↦
          s.applyRecord (.capacitySet c)
    | 8 => s.applyAllocationEntry .reserved bytes
    | 9 => s.applyAllocationEntry .committed bytes
    | 10 => s.applyAllocationEntry .released bytes
    | 11 => s.applyAllocationEntry .reclaimed bytes
    | 12 => s.applyAllocationEntry .fenced bytes
    | 13 => s.applyAllocationEntry .revalidated bytes
    | 14 => s.applyAllocationEntry .expired bytes
    | 15 =>
        readEntry decodePressureSnapshot "pressure record is not decodable" bytes s fun p ↦
          s.applyRecord (.pressureObserved p)
    | 16 =>
        readEntry decodeAttempt "attempt record is not decodable" bytes s fun a ↦
          s.applyRecord (.attemptRecorded a)
    | 17 => s.applyRecord .checkpoint
    | 18 => s.applyRecord .backendRegistered
    | _ => (.error ⟨.corruptRecord, "journal record carries an unknown opcode"⟩, s)

/-! ### The entries that were written -/

/-- What was written is taken back, and the reader goes on with it. -/
theorem readEntry_put {α : Type} {read : Reader UInt8 α} {put : α → Bytes} {ok : α → Prop}
    (h : Reader.Inverts read put ok) {a : α} (ha : ok a) (message : String) (s : Impl)
    (apply : α → Except Status Unit × Impl) :
    readEntry read message (put a) s apply = apply a := by
  have hread : read (put a) = some (a, []) := by
    simpa using h a ha []
  unfold readEntry
  rw [hread]

theorem getBoot_put : Reader.Inverts (do let hi ← getU64; let lo ← getU64; pure ⟨hi, lo⟩)
    (fun b : BootIncarnation ↦ putU64 b.hi ++ putU64 b.lo) fun _ ↦ True := by
  intro b _ rest
  rw [List.append_assoc, getU64_bind, getU64_bind]
  rfl

theorem getPool_put : Reader.Inverts (do let d ← decodePool; let g ← getId; pure (d, g))
    (fun e : PoolDescriptor × Generation ↦ encodePool e.1 ++ putId e.2)
    fun e ↦ nameFits e.1.name = true := by
  intro e he rest
  rw [List.append_assoc, Reader.step (decodePool_encode e.1 he _), getId_bind]
  rfl

theorem getId_inverts {tag : IdTag} :
    Reader.Inverts (getId : Reader UInt8 (StrongId tag)) putId fun _ ↦ True :=
  fun k _ rest ↦ getId_putId k rest

variable {s : Impl}

theorem applyEpochEntry_put (epoch : EpochId) (boot : BootIncarnation) :
    s.applyEpochEntry (putId epoch ++ (putU64 boot.hi ++ putU64 boot.lo)) =
      s.applyRecord (.epochAdvance epoch boot) := by
  unfold applyEpochEntry
  rw [getId_putId]
  dsimp only
  rw [readEntry_put getBoot_put trivial]
  rfl

/-- An allocation is read under the opcode it was written under. -/
theorem applyJournalPayload_allocation (op : AllocationOp) (r : AllocationRecord) :
    s.applyJournalPayload (putU8 op.toU8 ++ encodeAllocation r) =
      s.applyRecord (.allocation op r) := by
  have hread : s.applyAllocationEntry op (encodeAllocation r) = s.applyRecord (.allocation op r) :=
    readEntry_put decodeAllocation_encode trivial _ _ _
  unfold applyJournalPayload
  rw [getU8_putU8, ← hread]
  cases op <;> rfl

/-- On the payload of a record that could be written, `apply_journal_payload` does what it does
with the record. -/
theorem applyJournalPayload_payload {record : JournalRecord} (h : record.encodable = .ok ())
    (s : Impl) : s.applyJournalPayload record.payload = s.applyRecord record := by
  cases record with
  | epochAdvance epoch boot =>
      have hpayload : (JournalRecord.epochAdvance epoch boot).payload =
          putU8 1 ++ (putId epoch ++ (putU64 boot.hi ++ putU64 boot.lo)) := by
        unfold JournalRecord.payload
        simp only [List.append_assoc]
      unfold applyJournalPayload
      rw [hpayload, getU8_putU8]
      exact applyEpochEntry_put epoch boot
  | poolUpsert d g =>
      have hpayload : (JournalRecord.poolUpsert d g).payload = putU8 2 ++ (encodePool d ++ putId g) :=
        List.append_assoc _ _ _
      have hname : nameFits (d, g).1.name = true := (require_eq_ok).mp h
      unfold applyJournalPayload
      rw [hpayload, getU8_putU8]
      exact readEntry_put getPool_put hname _ _ _
  | poolRemoved k =>
      unfold applyJournalPayload JournalRecord.payload
      rw [getU8_putU8]
      exact readEntry_put getId_inverts trivial _ _ _
  | policyUpsert p =>
      have hname : nameFits p.name = true := (require_eq_ok).mp h
      unfold applyJournalPayload JournalRecord.payload
      rw [getU8_putU8]
      exact readEntry_put decodePolicy_encode hname _ _ _
  | queueUpsert q =>
      have hname : nameFits q.name = true := (require_eq_ok).mp h
      unfold applyJournalPayload JournalRecord.payload
      rw [getU8_putU8]
      exact readEntry_put decodeQueue_encode hname _ _ _
  | queueRetired k =>
      unfold applyJournalPayload JournalRecord.payload
      rw [getU8_putU8]
      exact readEntry_put getId_inverts trivial _ _ _
  | capacitySet c =>
      unfold applyJournalPayload JournalRecord.payload
      rw [getU8_putU8]
      exact readEntry_put decodeCapacity_encode trivial _ _ _
  | allocation op r => exact applyJournalPayload_allocation op r
  | pressureObserved p =>
      unfold applyJournalPayload JournalRecord.payload
      rw [getU8_putU8]
      exact readEntry_put decodePressureSnapshot_encode trivial _ _ _
  | attemptRecorded a =>
      unfold applyJournalPayload JournalRecord.payload
      rw [getU8_putU8]
      exact readEntry_put decodeAttempt_encode trivial _ _ _
  | checkpoint => rfl
  | backendRegistered => rfl

end Impl

end BufferFabric
