import BufferFabric.Decoding
import BufferFabric.FrameCodec

/-!
# The record codecs are bijective

What a decoder of the durable records accepts is the encoding of the value it returns, byte by
byte: booleans and enumerations have one encoding each, and no field is read in another order or
width than it is written.
-/

namespace BufferFabric

open Reader

/-! ### Primitive encodings -/

namespace ByteReader

theorem getU8_canonical : Canonical getU8 putU8 fun _ ↦ True := by
  intro l v rest h
  cases l with
  | nil => cases h
  | cons b l =>
      obtain ⟨rfl, rfl⟩ := Prod.mk.inj (Option.some.inj h)
      exact ⟨trivial, rfl⟩

theorem getU16_canonical : Canonical getU16 putU16 fun _ ↦ True := by
  intro l v rest h
  rcases l with _ | ⟨b₀, _ | ⟨b₁, l⟩⟩
  · cases h
  · cases h
  obtain ⟨hv, rfl⟩ := Prod.mk.inj (Option.some.inj h)
  have h₀ := b₀.toNat_lt
  have h₁ := b₁.toNat_lt
  have hvalue : v.toNat = b₀.toNat + 256 * b₁.toNat := by
    rw [← hv, UInt16.toNat_ofNat']
    omega
  have hhigh : ((v >>> 8).toUInt8).toNat = v.toNat / 256 % 256 := by
    rw [UInt16.toNat_toUInt8, UInt16.toNat_shiftRight, Nat.shiftRight_eq_div_pow]
    rfl
  have hbyte₀ : v.toUInt8 = b₀ := by
    apply UInt8.toNat_inj.mp
    rw [UInt16.toNat_toUInt8]
    omega
  have hbyte₁ : (v >>> 8).toUInt8 = b₁ := by
    apply UInt8.toNat_inj.mp
    rw [hhigh]
    omega
  refine ⟨trivial, ?_⟩
  rw [putU16, hbyte₀, hbyte₁]
  rfl

theorem getU32_canonical : Canonical ByteReader.getU32 putU32 fun _ ↦ True := by
  intro l v rest h
  rcases l with _ | ⟨b₀, _ | ⟨b₁, _ | ⟨b₂, _ | ⟨b₃, l⟩⟩⟩⟩
  any_goals cases h
  have hword := @putU32_getU32 (b₀ :: b₁ :: b₂ :: b₃ :: rest) (Nat.le_add_left 4 rest.length)
  rw [BufferFabric.getU32] at hword
  rw [hword]
  exact ⟨trivial, rfl⟩

/-- Eight bytes are the encoding of the word they make up. -/
theorem putU64_ofBytes (b₀ b₁ b₂ b₃ b₄ b₅ b₆ b₇ : UInt8) :
    putU64 (UInt64.ofNat (b₀.toNat + 256 * b₁.toNat + 65536 * b₂.toNat + 16777216 * b₃.toNat +
      4294967296 * b₄.toNat + 1099511627776 * b₅.toNat + 281474976710656 * b₆.toNat +
      72057594037927936 * b₇.toNat)) = [b₀, b₁, b₂, b₃, b₄, b₅, b₆, b₇] := by
  have h₀ := b₀.toNat_lt
  have h₁ := b₁.toNat_lt
  have h₂ := b₂.toNat_lt
  have h₃ := b₃.toNat_lt
  have h₄ := b₄.toNat_lt
  have h₅ := b₅.toNat_lt
  have h₆ := b₆.toNat_lt
  have h₇ := b₇.toNat_lt
  generalize hn : b₀.toNat + 256 * b₁.toNat + 65536 * b₂.toNat + 16777216 * b₃.toNat +
    4294967296 * b₄.toNat + 1099511627776 * b₅.toNat + 281474976710656 * b₆.toNat +
    72057594037927936 * b₇.toNat = n
  have hvalue : (UInt64.ofNat n).toNat = n := by
    rw [UInt64.toNat_ofNat']
    omega
  have hbyte : ∀ {k : UInt64} {b : UInt8}, n / 2 ^ (k.toNat % 64) % 256 = b.toNat →
      (UInt64.ofNat n >>> k).toUInt8 = b := by
    intro k b h
    apply UInt8.toNat_inj.mp
    rw [byte_toNat, hvalue, h]
  have hlow : (UInt64.ofNat n).toUInt8 = b₀ := by
    apply UInt8.toNat_inj.mp
    rw [UInt64.toNat_toUInt8, hvalue]
    omega
  have hbyte₁ : n / 256 % 256 = b₁.toNat := by omega
  have hbyte₂ : n / 65536 % 256 = b₂.toNat := by omega
  have hbyte₃ : n / 16777216 % 256 = b₃.toNat := by omega
  have hbyte₄ : n / 4294967296 % 256 = b₄.toNat := by omega
  have hbyte₅ : n / 1099511627776 % 256 = b₅.toNat := by omega
  have hbyte₆ : n / 281474976710656 % 256 = b₆.toNat := by omega
  have hbyte₇ : n / 72057594037927936 % 256 = b₇.toNat := by omega
  rw [putU64, hlow, hbyte (k := 8) hbyte₁, hbyte (k := 16) hbyte₂, hbyte (k := 24) hbyte₃,
    hbyte (k := 32) hbyte₄, hbyte (k := 40) hbyte₅, hbyte (k := 48) hbyte₆,
    hbyte (k := 56) hbyte₇]

theorem getU64_canonical : Canonical getU64 putU64 fun _ ↦ True := by
  intro l v rest h
  rcases l with _ | ⟨b₀, _ | ⟨b₁, _ | ⟨b₂, _ | ⟨b₃, _ | ⟨b₄, _ | ⟨b₅, _ | ⟨b₆, _ | ⟨b₇, l⟩⟩⟩⟩⟩⟩⟩⟩
  any_goals cases h
  refine ⟨trivial, ?_⟩
  rw [putU64_ofBytes]
  rfl

theorem getId_canonical {tag : IdTag} :
    Canonical (getId : Reader UInt8 (StrongId tag)) putId fun _ ↦ True := by
  intro l v rest h
  obtain ⟨raw, l', -, rfl, hraw⟩ := getU64_canonical.step h
  obtain ⟨rfl, rfl⟩ := Prod.mk.inj (Option.some.inj hraw)
  exact ⟨trivial, rfl⟩

theorem getDigest_canonical : Canonical getDigest putDigest fun _ ↦ True := by
  intro l v rest h
  obtain ⟨hi, l₁, -, rfl, hhi⟩ := getU64_canonical.step h
  obtain ⟨lo, l₂, -, rfl, hlo⟩ := getU64_canonical.step hhi
  obtain ⟨rfl, rfl⟩ := Prod.mk.inj (Option.some.inj hlo)
  exact ⟨trivial, (List.append_assoc ..).symm⟩

/-- A byte that passes a test is the byte of the value. -/
theorem getCode_canonical {α : Type} {ofCode : UInt8 → Option α} {code : α → UInt8}
    (hcode : ∀ v a, ofCode v = some a → code a = v) :
    Canonical (getCode ofCode) (fun a ↦ putU8 (code a)) fun _ ↦ True := by
  intro l a rest h
  obtain ⟨v, l', -, rfl, hread⟩ := getU8_canonical.step h
  cases hv : ofCode v with
  | none =>
      rw [hv] at hread
      cases hread
  | some b =>
      rw [hv] at hread
      obtain ⟨rfl, rfl⟩ := Prod.mk.inj (Option.some.inj hread)
      refine ⟨trivial, ?_⟩
      dsimp only
      rw [hcode v b hv]

theorem getCode16_canonical {α : Type} {ofCode : UInt16 → Option α} {code : α → UInt16}
    (hcode : ∀ v a, ofCode v = some a → code a = v) :
    Canonical (getCode16 ofCode) (fun a ↦ putU16 (code a)) fun _ ↦ True := by
  intro l a rest h
  obtain ⟨v, l', -, rfl, hread⟩ := getU16_canonical.step h
  cases hv : ofCode v with
  | none =>
      rw [hv] at hread
      cases hread
  | some b =>
      rw [hv] at hread
      obtain ⟨rfl, rfl⟩ := Prod.mk.inj (Option.some.inj hread)
      refine ⟨trivial, ?_⟩
      dsimp only
      rw [hcode v b hv]

theorem getBool_canonical : Canonical getBool putBool fun _ ↦ True := by
  refine @getCode_canonical Bool _ (fun b ↦ if b then 1 else 0) ?_
  intro v b h
  split at h
  · cases h
  · rename_i hle
    obtain rfl := Option.some.inj h
    by_cases hv : v = 0
    · rw [hv]
      rfl
    · have hone : v = 1 := by
        apply UInt8.toNat_inj.mp
        have hpos : v.toNat ≠ 0 := fun h ↦ hv (UInt8.toNat_inj.mp h)
        have hle : v.toNat ≤ 1 := Nat.not_lt.mp hle
        have hword : (1 : UInt8).toNat = 1 := rfl
        omega
      rw [hone]
      rfl

theorem getBytes_eq_some {n : ℕ} {l a rest : Bytes} (h : getBytes n l = some (a, rest)) :
    a.length = n ∧ l = a ++ rest := by
  unfold getBytes at h
  split at h
  · cases h
  · rename_i hle
    obtain ⟨rfl, rfl⟩ := Prod.mk.inj (Option.some.inj h)
    exact ⟨List.length_take_of_le (Nat.not_lt.mp hle), (List.take_append_drop n l).symm⟩

theorem getStr_canonical (maxBytes : ℕ) :
    Canonical (getStr maxBytes) (fun text ↦ putStr text maxBytes) fun text ↦
      text.length ≤ maxBytes := by
  intro l text rest h
  obtain ⟨size, l', -, rfl, hread⟩ := getU32_canonical.step h
  split at hread
  · cases hread
  · rename_i hle
    obtain ⟨hlength, rfl⟩ := getBytes_eq_some hread
    have hfits : text.length ≤ maxBytes := by
      rw [hlength]
      exact Nat.not_lt.mp hle
    refine ⟨hfits, ?_⟩
    dsimp only
    rw [putStr, if_pos hfits, hlength, UInt32.ofNat_toNat, List.append_assoc]

end ByteReader

/-! ### Enumerations -/

theorem PressureState.toU8_of_ofU8 : ∀ v a, PressureState.ofU8 v = some a → a.toU8 = v :=
  fun _ _ ↦ ofCode_eq_some

theorem OvercommitMode.toU8_of_ofU8 : ∀ v a, OvercommitMode.ofU8 v = some a → a.toU8 = v :=
  fun _ _ ↦ ofCode_eq_some

theorem BorrowMode.toU8_of_ofU8 : ∀ v a, BorrowMode.ofU8 v = some a → a.toU8 = v :=
  fun _ _ ↦ ofCode_eq_some

theorem AllocationState.toU8_of_ofU8 : ∀ v a, AllocationState.ofU8 v = some a → a.toU8 = v :=
  fun _ _ ↦ ofCode_eq_some

theorem ReclaimClass.toU8_of_ofU8 : ∀ v a, ReclaimClass.ofU8 v = some a → a.toU8 = v :=
  fun _ _ ↦ ofCode_eq_some

theorem AttemptKind.toU8_of_ofU8 : ∀ v a, AttemptKind.ofU8 v = some a → a.toU8 = v :=
  fun _ _ ↦ ofCode_eq_some

/-- Every number up to the largest code is the number of one code. -/
theorem ErrorCode.toU16_of_ofU16 : ∀ v a, ErrorCode.ofU16 v = some a → a.toU16 = v := by
  intro v a h
  unfold ErrorCode.ofU16 at h
  split at h
  · obtain rfl := Option.some.inj h
    rfl
  · exact ofCode_eq_some h

/-! ### Fields -/

section Fields

open ByteReader

theorem id_codec (tag : IdTag) :
    Codec (getId : Reader UInt8 (StrongId tag)) putId fun _ ↦ True :=
  .of (fun v _ ↦ getId_putId v) getId_canonical

theorem u32_codec : Codec ByteReader.getU32 putU32 fun _ ↦ True :=
  .of (fun v _ ↦ ByteReader.getU32_putU32 v) getU32_canonical

theorem u64_codec : Codec getU64 putU64 fun _ ↦ True :=
  .of (fun v _ ↦ getU64_putU64 v) getU64_canonical

theorem bool_codec : Codec getBool putBool fun _ ↦ True :=
  .of (fun v _ ↦ getBool_putBool v) getBool_canonical

theorem digest_codec : Codec getDigest putDigest fun _ ↦ True :=
  .of (fun v _ ↦ getDigest_putDigest v) getDigest_canonical

theorem name_codec : Codec (getStr kMaxNameBytes) (fun name ↦ putStr name kMaxNameBytes)
    fun name ↦ nameFits name = true := by
  apply Codec.of
  · intro name h
    exact getStr_putStr (of_decide_eq_true h) (by decide)
  · intro l name rest h
    obtain ⟨hfits, hl⟩ := getStr_canonical kMaxNameBytes l name rest h
    exact ⟨decide_eq_true hfits, hl⟩

/-- An enumeration that is stored as one byte. -/
theorem code_codec {α : Type} {ofCode : UInt8 → Option α} {code : α → UInt8}
    (hof : ∀ a, ofCode (code a) = some a) (hcode : ∀ v a, ofCode v = some a → code a = v) :
    Codec (getCode ofCode) (fun a ↦ putU8 (code a)) fun _ ↦ True :=
  .of (fun a _ ↦ getCode_put (hof a)) (getCode_canonical hcode)

theorem outcome_codec :
    Codec (getCode16 ErrorCode.ofU16) (fun e ↦ putU16 e.toU16) fun _ ↦ True :=
  .of (fun e _ ↦ getCode16_put (ErrorCode.ofU16_toU16 e))
    (getCode16_canonical ErrorCode.toU16_of_ofU16)

end Fields

/-! ### Records -/

theorem overcommit_codec : Codec decodeOvercommit encodeOvercommit fun _ ↦ True := by
  refine .of decodeOvercommit_encode ?_
  unfold decodeOvercommit
  refine (code_codec OvercommitMode.ofU8_toU8 OvercommitMode.toU8_of_ofU8).first fun mode _ ↦ ?_
  refine u64_codec.next fun limitUnits _ ↦ ?_
  exact .done trivial rfl

theorem borrow_codec : Codec decodeBorrow encodeBorrow fun _ ↦ True := by
  refine .of decodeBorrow_encode ?_
  unfold decodeBorrow
  refine (code_codec BorrowMode.ofU8_toU8 BorrowMode.toU8_of_ofU8).first fun mode _ ↦ ?_
  refine u64_codec.next fun limitUnits _ ↦ ?_
  exact .done trivial rfl

theorem thresholds_codec : Codec decodeThresholds encodeThresholds fun _ ↦ True := by
  refine .of decodeThresholds_encode ?_
  unfold decodeThresholds
  refine u32_codec.first fun elevatedBp _ ↦ ?_
  refine u32_codec.next fun highBp _ ↦ ?_
  refine u32_codec.next fun criticalBp _ ↦ ?_
  exact .done trivial rfl

theorem policy_codec : Codec decodePolicy encodePolicy fun p ↦ nameFits p.name = true := by
  refine .of decodePolicy_encode ?_
  unfold decodePolicy
  refine (id_codec _).first fun id _ ↦ ?_
  refine (id_codec _).next fun generation _ ↦ ?_
  refine name_codec.next fun name hname ↦ ?_
  refine (id_codec _).next fun provenance _ ↦ ?_
  refine overcommit_codec.next fun overcommit _ ↦ ?_
  refine borrow_codec.next fun borrow _ ↦ ?_
  refine u64_codec.next fun maxSingleAllocationUnits _ ↦ ?_
  refine u64_codec.next fun maxSingleRequestUnits _ ↦ ?_
  refine u32_codec.next fun softLimitBp _ ↦ ?_
  refine bool_codec.next fun allowPartialGrant _ ↦ ?_
  refine thresholds_codec.next fun thresholds _ ↦ ?_
  refine u64_codec.next fun evidenceTtlTicks _ ↦ ?_
  refine bool_codec.next fun refuseIncreaseOnUnknown _ ↦ ?_
  refine bool_codec.next fun reduceOnHigh _ ↦ ?_
  refine bool_codec.next fun reduceOnCritical _ ↦ ?_
  refine bool_codec.next fun refuseNewGrantsAboveHigh _ ↦ ?_
  have hstate := code_codec PressureState.ofU8_toU8 PressureState.toU8_of_ofU8
  refine hstate.next fun refuseGrantsAt _ ↦ ?_
  refine hstate.next fun reduceAt _ ↦ ?_
  refine bool_codec.next fun enabled _ ↦ ?_
  refine u64_codec.next fun minHoldTicks _ ↦ ?_
  refine u64_codec.next fun maxUnitsPerOperation _ ↦ ?_
  refine u64_codec.next fun reserveUnits _ ↦ ?_
  refine bool_codec.next fun allowProtectedReclaim _ ↦ ?_
  refine u64_codec.next fun usableFloorUnits _ ↦ ?_
  refine bool_codec.next fun fenceOnGenerationChange _ ↦ ?_
  refine u64_codec.next fun reservationTtlTicks _ ↦ ?_
  refine u64_codec.next fun maxPendingReservations _ ↦ ?_
  exact .done hname rfl

theorem pool_codec : Codec decodePool encodePool fun d ↦ nameFits d.name = true := by
  refine .of decodePool_encode ?_
  unfold decodePool
  refine (id_codec _).first fun id _ ↦ ?_
  refine (id_codec _).next fun generation _ ↦ ?_
  refine name_codec.next fun name hname ↦ ?_
  refine (id_codec _).next fun resource _ ↦ ?_
  refine (id_codec _).next fun backend _ ↦ ?_
  refine u64_codec.next fun rawUnits _ ↦ ?_
  refine u64_codec.next fun protectedUnits _ ↦ ?_
  refine (id_codec _).next fun parent _ ↦ ?_
  refine (id_codec _).next fun policy _ ↦ ?_
  refine (id_codec _).next fun tenant _ ↦ ?_
  refine (id_codec _).next fun provenance _ ↦ ?_
  refine u64_codec.next fun createdAt _ ↦ ?_
  refine bool_codec.next fun retired _ ↦ ?_
  exact .done hname rfl

theorem queue_codec : Codec decodeQueue encodeQueue fun q ↦ nameFits q.name = true := by
  refine .of decodeQueue_encode ?_
  unfold decodeQueue
  refine (id_codec _).first fun id _ ↦ ?_
  refine (id_codec _).next fun generation _ ↦ ?_
  refine name_codec.next fun name hname ↦ ?_
  refine (id_codec _).next fun pool _ ↦ ?_
  refine (id_codec _).next fun tenant _ ↦ ?_
  refine (id_codec _).next fun trafficClass _ ↦ ?_
  refine u64_codec.next fun demandUnits _ ↦ ?_
  refine u64_codec.next fun weight _ ↦ ?_
  refine u64_codec.next fun maxCommittedUnits _ ↦ ?_
  refine u64_codec.next fun registeredAt _ ↦ ?_
  refine u64_codec.next fun demandUpdatedAt _ ↦ ?_
  refine bool_codec.next fun retired _ ↦ ?_
  exact .done hname rfl

theorem lineage_codec : Codec decodeLineage encodeLineage fun _ ↦ True := by
  refine .of decodeLineage_encode ?_
  unfold decodeLineage
  refine (id_codec _).first fun origin _ ↦ ?_
  refine (id_codec _).next fun parent _ ↦ ?_
  refine u32_codec.next fun depth _ ↦ ?_
  refine digest_codec.next fun chainDigest _ ↦ ?_
  exact .done trivial rfl

theorem bound_codec : Codec decodeBound encodeBound fun _ ↦ True := by
  refine .of decodeBound_encode ?_
  unfold decodeBound
  refine (id_codec _).first fun poolGeneration _ ↦ ?_
  refine (id_codec _).next fun queueGeneration _ ↦ ?_
  refine (id_codec _).next fun policyGeneration _ ↦ ?_
  refine (id_codec _).next fun capacityGeneration _ ↦ ?_
  refine (id_codec _).next fun backendGeneration _ ↦ ?_
  refine (id_codec _).next fun epoch _ ↦ ?_
  refine u64_codec.next fun hi _ ↦ ?_
  refine u64_codec.next fun lo _ ↦ ?_
  exact .done trivial rfl

theorem allocation_codec : Codec decodeAllocation encodeAllocation fun _ ↦ True := by
  refine .of decodeAllocation_encode ?_
  unfold decodeAllocation
  refine (id_codec _).first fun id _ ↦ ?_
  refine (id_codec _).next fun pool _ ↦ ?_
  refine (id_codec _).next fun queue _ ↦ ?_
  refine (id_codec _).next fun tenant _ ↦ ?_
  refine (id_codec _).next fun trafficClass _ ↦ ?_
  refine u64_codec.next fun units _ ↦ ?_
  refine (code_codec AllocationState.ofU8_toU8 AllocationState.toU8_of_ofU8).next fun state _ ↦ ?_
  refine (code_codec ReclaimClass.ofU8_toU8 ReclaimClass.toU8_of_ofU8).next fun reclaimClass _ ↦ ?_
  refine u64_codec.next fun reclaimPriority _ ↦ ?_
  refine lineage_codec.next fun lineage _ ↦ ?_
  refine bound_codec.next fun bound _ ↦ ?_
  refine (id_codec _).next fun attempt _ ↦ ?_
  refine (id_codec _).next fun provenance _ ↦ ?_
  refine u64_codec.next fun borrowUnits _ ↦ ?_
  refine (id_codec _).next fun lender _ ↦ ?_
  refine u64_codec.next fun createdAt _ ↦ ?_
  refine u64_codec.next fun lastTouched _ ↦ ?_
  refine u64_codec.next fun expiresAt _ ↦ ?_
  refine u64_codec.next fun revision _ ↦ ?_
  exact .done trivial rfl

theorem pressureSnapshot_codec :
    Codec decodePressureSnapshot encodePressureSnapshot fun _ ↦ True := by
  refine .of decodePressureSnapshot_encode ?_
  unfold decodePressureSnapshot
  refine (id_codec _).first fun id _ ↦ ?_
  refine (id_codec _).next fun pool _ ↦ ?_
  refine (id_codec _).next fun poolGeneration _ ↦ ?_
  refine (id_codec _).next fun epoch _ ↦ ?_
  refine u64_codec.next fun hi _ ↦ ?_
  refine u64_codec.next fun lo _ ↦ ?_
  refine u64_codec.next fun observedAt _ ↦ ?_
  refine u64_codec.next fun ttlTicks _ ↦ ?_
  refine u64_codec.next fun demandUnits _ ↦ ?_
  refine u64_codec.next fun committedUnits _ ↦ ?_
  refine u64_codec.next fun reclaimableUnits _ ↦ ?_
  refine (id_codec _).next fun provenance _ ↦ ?_
  refine bool_codec.next fun assertCommitted _ ↦ ?_
  refine digest_codec.next fun evidenceDigest _ ↦ ?_
  exact .done trivial rfl

theorem attempt_codec : Codec decodeAttempt encodeAttempt fun _ ↦ True := by
  refine .of decodeAttempt_encode ?_
  unfold decodeAttempt
  refine (id_codec _).first fun id _ ↦ ?_
  refine (code_codec AttemptKind.ofU8_toU8 AttemptKind.toU8_of_ofU8).next fun kind _ ↦ ?_
  refine digest_codec.next fun requestDigest _ ↦ ?_
  refine outcome_codec.next fun outcome _ ↦ ?_
  refine (id_codec _).next fun allocation _ ↦ ?_
  refine u64_codec.next fun grantedUnits _ ↦ ?_
  refine u64_codec.next fun sequence _ ↦ ?_
  refine u64_codec.next fun recordedAt _ ↦ ?_
  refine bool_codec.next fun unfinished _ ↦ ?_
  exact .done trivial rfl

/-- The codecs of the durable records are bijective. -/
theorem durable_codecs :
    Codec decodePolicy encodePolicy (fun p ↦ nameFits p.name = true) ∧
      Codec decodePool encodePool (fun d ↦ nameFits d.name = true) ∧
      Codec decodeQueue encodeQueue (fun q ↦ nameFits q.name = true) ∧
      Codec decodeAllocation encodeAllocation (fun _ ↦ True) ∧
      Codec decodePressureSnapshot encodePressureSnapshot (fun _ ↦ True) ∧
      Codec decodeAttempt encodeAttempt fun _ ↦ True :=
  ⟨policy_codec, pool_codec, queue_codec, allocation_codec, pressureSnapshot_codec, attempt_codec⟩

end BufferFabric
