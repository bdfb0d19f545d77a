import BufferFabric.Codec

/-!
# The encodings are injective

The primitive encodings have a fixed width and lose nothing, so a sequence of them can be
read back field by field. Requests of different kinds begin with different bytes.
-/

namespace BufferFabric

/-- One byte of a word as a number. -/
theorem byte_toNat (v k : UInt64) : ((v >>> k).toUInt8).toNat =
    v.toNat / 2 ^ (k.toNat % 64) % 256 := by
  rw [UInt64.toNat_toUInt8, UInt64.toNat_shiftRight, Nat.shiftRight_eq_div_pow]

@[simp] theorem length_putU8 (v : UInt8) : (putU8 v).length = 1 := rfl

@[simp] theorem length_putBool (v : Bool) : (putBool v).length = 1 := rfl

@[simp] theorem length_putU16 (v : UInt16) : (putU16 v).length = 2 := rfl

@[simp] theorem length_putId {tag : IdTag} (v : StrongId tag) : (putId v).length = 8 := rfl

@[simp] theorem length_putDigest (d : Digest) : (putDigest d).length = 16 := rfl

@[simp] theorem length_putU64 (v : UInt64) : (putU64 v).length = 8 := rfl

theorem putU64_injective : Function.Injective putU64 := by
  intro v w h
  simp only [putU64, List.cons.injEq, and_true] at h
  obtain ⟨h₀, h₁, h₂, h₃, h₄, h₅, h₆, h₇⟩ := h
  have hv := v.toNat_lt
  have hw := w.toNat_lt
  have key : ∀ k : UInt64, (v >>> k).toUInt8 = (w >>> k).toUInt8 →
      v.toNat / 2 ^ (k.toNat % 64) % 256 = w.toNat / 2 ^ (k.toNat % 64) % 256 := by
    intro k hk
    rw [← byte_toNat, ← byte_toNat, hk]
  have k₀ : v.toNat % 256 = w.toNat % 256 := by
    rw [← UInt64.toNat_toUInt8, ← UInt64.toNat_toUInt8, h₀]
  have k₁ : v.toNat / 256 % 256 = w.toNat / 256 % 256 := key 8 h₁
  have k₂ : v.toNat / 65536 % 256 = w.toNat / 65536 % 256 := key 16 h₂
  have k₃ : v.toNat / 16777216 % 256 = w.toNat / 16777216 % 256 := key 24 h₃
  have k₄ : v.toNat / 4294967296 % 256 = w.toNat / 4294967296 % 256 := key 32 h₄
  have k₅ : v.toNat / 1099511627776 % 256 = w.toNat / 1099511627776 % 256 := key 40 h₅
  have k₆ : v.toNat / 281474976710656 % 256 = w.toNat / 281474976710656 % 256 := key 48 h₆
  have k₇ : v.toNat / 72057594037927936 % 256 = w.toNat / 72057594037927936 % 256 := key 56 h₇
  apply UInt64.toNat_inj.mp
  omega

/-- A word at the front of an encoding can be read back. -/
@[simp] theorem putU64_append_inj {v w : UInt64} {l l' : Bytes} :
    putU64 v ++ l = putU64 w ++ l' ↔ v = w ∧ l = l' := by
  constructor
  · intro h
    obtain ⟨h₁, h₂⟩ := List.append_inj h rfl
    exact ⟨putU64_injective h₁, h₂⟩
  · rintro ⟨rfl, rfl⟩
    rfl

@[simp] theorem putU64_inj {v w : UInt64} : putU64 v = putU64 w ↔ v = w :=
  putU64_injective.eq_iff

@[simp] theorem putId_append_inj {tag : IdTag} {v w : StrongId tag} {l l' : Bytes} :
    putId v ++ l = putId w ++ l' ↔ v = w ∧ l = l' := by
  cases v
  cases w
  simp [putId]

@[simp] theorem putId_inj {tag : IdTag} {v w : StrongId tag} : putId v = putId w ↔ v = w := by
  cases v
  cases w
  simp [putId]

@[simp] theorem putU8_append_inj {v w : UInt8} {l l' : Bytes} :
    putU8 v ++ l = putU8 w ++ l' ↔ v = w ∧ l = l' := by
  simp [putU8]

@[simp] theorem putBool_append_inj {v w : Bool} {l l' : Bytes} :
    putBool v ++ l = putBool w ++ l' ↔ v = w ∧ l = l' := by
  cases v <;> cases w <;> simp [putBool]

@[simp] theorem ReclaimClass.toU8_inj {a b : ReclaimClass} : a.toU8 = b.toU8 ↔ a = b := by
  cases a <;> cases b <;> simp [ReclaimClass.toU8]

theorem AllocateRequest.encode_inj {q q' : AllocateRequest} (h : q.encode = q'.encode) :
    q = q' := by
  simp only [encode, List.append_assoc, putU8_append_inj, putId_append_inj, putU64_append_inj,
    putBool_append_inj, ReclaimClass.toU8_inj, putId_inj, true_and] at h
  cases q
  cases q'
  simp_all

theorem CommitRequest.encode_inj {q q' : CommitRequest} (h : q.encode = q'.encode) : q = q' := by
  simp only [encode, List.append_assoc, putU8_append_inj, putId_append_inj, putU64_append_inj,
    putId_inj, true_and] at h
  cases q
  cases q'
  simp_all

theorem ReleaseRequest.encode_inj {q q' : ReleaseRequest} (h : q.encode = q'.encode) : q = q' := by
  simp only [encode, List.append_assoc, putU8_append_inj, putId_append_inj, putU64_append_inj,
    putBool_append_inj, putId_inj, true_and] at h
  cases q
  cases q'
  simp_all

theorem RevalidateRequest.encode_inj {q q' : RevalidateRequest} (h : q.encode = q'.encode) :
    q = q' := by
  simp only [encode, List.append_assoc, putU8_append_inj, putId_append_inj, putId_inj,
    true_and] at h
  cases q
  cases q'
  simp_all

end BufferFabric
