import BufferFabric.Containers
import BufferFabric.Lib.Fnv
import BufferFabric.Pressure
import Mathlib.Data.Fintype.EquivFin

/-!
# The two hashes

The checksum is computed a byte at a time from a table, and is that of the bits. The digest keeps
128 bits in two words and multiplies them in parts, and is FNV-1a over the natural numbers below
`2^128`. Both can be computed piece by piece, and see a change in a byte.
-/

namespace BufferFabric

/-! ### The checksum -/

def kCrc32cTable : List UInt32 := (List.range 256).map fun i ↦ crc32cEntry (UInt32.ofNat i)

/-- `crc32c_update`, with the table. -/
def crc32cTableUpdate (crc : UInt32) (data : Bytes) : UInt32 :=
  data.foldl (fun c b ↦ kCrc32cTable.getD ((c ^^^ b.toUInt32) &&& 0xFF).toNat 0 ^^^ (c >>> 8)) crc

/-- `crc32c` with a seed: the checksum of what came before. -/
def crc32cFrom (data : Bytes) (seed : UInt32) : UInt32 := ~~~(crc32cTableUpdate (~~~seed) data)

theorem kCrc32cTable_getD {i : UInt32} (h : i.toNat < 256) :
    kCrc32cTable.getD i.toNat 0 = crc32cEntry i := by
  unfold kCrc32cTable
  rw [List.getD_eq_getElem?_getD, List.getElem?_map, List.getElem?_range h]
  change crc32cEntry (UInt32.ofNat i.toNat) = _
  rw [UInt32.ofNat_toNat]

theorem crc32cTableUpdate_eq (crc : UInt32) (data : Bytes) :
    crc32cTableUpdate crc data = crc32cUpdate crc data := by
  have hindex : ∀ c : UInt32, (c &&& 0xFF).toNat < 256 := by
    intro c
    rw [UInt32.toNat_and]
    exact Nat.lt_succ_of_le Nat.and_le_right
  unfold crc32cTableUpdate crc32cUpdate
  simp only [kCrc32cTable_getD (hindex _)]

theorem crc32cFrom_zero (data : Bytes) : crc32cFrom data 0 = crc32c data := by
  unfold crc32cFrom
  rw [crc32cTableUpdate_eq]
  rfl

theorem crc32cTableUpdate_append (crc : UInt32) (a b : Bytes) :
    crc32cTableUpdate crc (a ++ b) = crc32cTableUpdate (crc32cTableUpdate crc a) b :=
  List.foldl_append

/-- The checksum is the reflected one of the polynomial, can be continued, and sees every change
within four bytes. -/
theorem crc32c_exact :
    (∀ data, crc32cFrom data 0 = ~~~(Crc.serial 0x82F63B78 0xFFFFFFFF data)) ∧
      (∀ crc a b,
        crc32cTableUpdate crc (a ++ b) = crc32cTableUpdate (crc32cTableUpdate crc a) b) ∧
      (∀ seed a b, crc32cFrom (a ++ b) seed = crc32cFrom b (crc32cFrom a seed)) ∧
      ∀ data data' : Bytes, data.length = data'.length → data ≠ data' →
        (∃ i : ℕ, ∀ j : ℕ, j < i ∨ i + 4 ≤ j → data[j]? = data'[j]?) →
          crc32cFrom data 0 ≠ crc32cFrom data' 0 := by
  refine ⟨fun data ↦ ?_, crc32cTableUpdate_append, fun seed a b ↦ ?_, ?_⟩
  · rw [crc32cFrom_zero, crc32c, crc32cUpdate_eq, Crc.foldl_update_eq_serial]
    rfl
  · unfold crc32cFrom
    rw [UInt32.not_not, crc32cTableUpdate_append]
  · rintro data data' hlength hne ⟨i, hagree⟩
    obtain ⟨i, m, hm, hburst⟩ := Crc.exists_burst hlength hne hagree
    rw [crc32cFrom_zero, crc32cFrom_zero]
    exact crc32c_burst hburst hm

/-! ### The digest -/

def Digest.toNat (d : Digest) : ℕ := d.hi.toNat * 18446744073709551616 + d.lo.toNat

namespace Digest

variable {d d' : Digest}

theorem toNat_lt (d : Digest) : d.toNat < 2 ^ 128 := by
  have hhi := Word.toNat_lt d.hi
  have hlo := Word.toNat_lt d.lo
  unfold toNat
  omega

theorem toNat_inj (h : d.toNat = d'.toNat) : d = d' := by
  obtain ⟨hi, lo⟩ := d
  obtain ⟨hi', lo'⟩ := d'
  have hlo := Word.toNat_lt lo
  have hlo' := Word.toNat_lt lo'
  unfold toNat at h
  dsimp only at h
  obtain rfl : hi = hi' := Word.eq_of_toNat (by omega)
  obtain rfl : lo = lo' := Word.eq_of_toNat (by omega)
  rfl

end Digest

instance : Finite Digest :=
  Finite.of_injective (fun d : Digest ↦ (⟨d.toNat, d.toNat_lt⟩ : Fin (2 ^ 128))) fun _ _ h ↦
    Digest.toNat_inj (Fin.mk.inj h)

/-- `Fnv128::update`. -/
def fnv128Update (d : Digest) (data : Bytes) : Digest := data.foldl fnv128Step d

def fnv128Start : Digest := ⟨kFnv128OffsetHi, kFnv128OffsetLo⟩

def kFnv128Prime : ℕ := 2 ^ 88 + 0x13B

/-- The product of the two words keeps the low 128 bits. -/
theorem toNat_mul128 (alo ahi blo bhi : UInt64) :
    (mul128 alo ahi blo bhi).1.toNat * 18446744073709551616 + (mul128 alo ahi blo bhi).2.toNat =
      (ahi.toNat * 18446744073709551616 + alo.toNat) *
        (bhi.toNat * 18446744073709551616 + blo.toNat) % 2 ^ 128 := by
  have hsplit := splitMul_eq alo blo
  unfold mul128
  generalize splitMul alo blo = p at *
  obtain ⟨hi, lo⟩ := p
  dsimp only at hsplit ⊢
  have hlo := Word.toNat_lt lo
  -- the carried sum modulo `2^64` is the high word of the product
  have hcarry : (hi + alo * bhi + ahi * blo).toNat =
      (hi.toNat + alo.toNat * bhi.toNat + ahi.toNat * blo.toNat) % 18446744073709551616 := by
    simp only [UInt64.toNat_add, UInt64.toNat_mul]
    change ((hi.toNat + alo.toNat * bhi.toNat % 18446744073709551616) % 18446744073709551616 +
      ahi.toNat * blo.toNat % 18446744073709551616) % 18446744073709551616 = _
    simp only [Nat.add_mod_mod, Nat.mod_add_mod]
  have hproduct : (ahi.toNat * 18446744073709551616 + alo.toNat) *
      (bhi.toNat * 18446744073709551616 + blo.toNat) =
      ahi.toNat * bhi.toNat * 2 ^ 128 +
        ((hi.toNat + alo.toNat * bhi.toNat + ahi.toNat * blo.toNat) * 18446744073709551616 +
          lo.toNat) := by
    calc _ = ahi.toNat * bhi.toNat * 2 ^ 128 +
          ((alo.toNat * bhi.toNat + ahi.toNat * blo.toNat) * 18446744073709551616 +
            alo.toNat * blo.toNat) := by ring
      _ = _ := by
          rw [← hsplit]
          ring
  have hword : ∀ sum : ℕ, (sum * 18446744073709551616 + lo.toNat) % 2 ^ 128 =
      sum % 18446744073709551616 * 18446744073709551616 + lo.toNat := by
    intro sum
    have hpow : 2 ^ 128 = 18446744073709551616 * 18446744073709551616 := by decide
    rw [hpow, Nat.mod_mul]
    omega
  rw [hcarry, hproduct, Nat.mul_add_mod_self_right, hword]

/-- A step of the digest is one over the natural numbers. -/
theorem toNat_fnv128Step (d : Digest) (b : UInt8) :
    (fnv128Step d b).toNat = Fnv.step 128 kFnv128Prime d.toNat b.toNat := by
  have hb : b.toUInt64.toNat = b.toNat := UInt8.toNat_toUInt64 b
  have hsmall : b.toNat < 2 ^ 64 := Nat.lt_of_lt_of_le b.toNat_lt (by decide)
  have hlow : (d.toNat ^^^ b.toNat) % 2 ^ 64 = (d.lo ^^^ b.toUInt64).toNat := by
    have hlo := Word.toNat_lt d.lo
    rw [UInt64.toNat_xor, hb, Nat.xor_mod_two_pow, Nat.mod_eq_of_lt hsmall]
    congr 1
    unfold Digest.toNat
    omega
  have hhigh : (d.toNat ^^^ b.toNat) / 2 ^ 64 = d.hi.toNat := by
    have hlo := Word.toNat_lt d.lo
    rw [Nat.xor_div_two_pow, Nat.div_eq_of_lt hsmall, Nat.xor_zero]
    unfold Digest.toNat
    omega
  have hxor : d.toNat ^^^ b.toNat =
      d.hi.toNat * 18446744073709551616 + (d.lo ^^^ b.toUInt64).toNat := by
    rw [← hlow, ← hhigh]
    exact (Nat.div_add_mod' _ _).symm
  have hprime : kFnv128PrimeHi.toNat * 18446744073709551616 + kFnv128PrimeLo.toNat =
      kFnv128Prime := by
    decide
  have hmul := toNat_mul128 (d.lo ^^^ b.toUInt64) d.hi kFnv128PrimeLo kFnv128PrimeHi
  rw [hprime, ← hxor] at hmul
  exact hmul

theorem toNat_fnv128Update (d : Digest) (data : Bytes) :
    (fnv128Update d data).toNat = Fnv.hash 128 kFnv128Prime d.toNat (data.map UInt8.toNat) := by
  induction data generalizing d with
  | nil => rfl
  | cons b data ih =>
      have hrest := ih (fnv128Step d b)
      rw [toNat_fnv128Step] at hrest
      exact hrest

theorem byte_lt (b : UInt8) : b.toNat < 2 ^ 128 := Nat.lt_of_lt_of_le b.toNat_lt (by decide)

theorem fnv128Step_bijective (b : UInt8) : Function.Bijective fun d ↦ fnv128Step d b := by
  refine Finite.injective_iff_bijective.mp fun d d' h ↦ Digest.toNat_inj ?_
  have hstep := congrArg Digest.toNat h
  simp only [toNat_fnv128Step] at hstep
  exact Fnv.step_register_inj (by decide) d.toNat_lt d'.toNat_lt (byte_lt b) hstep

/-- The digest is FNV-1a of 128 bits, can be continued, loses nothing in a step, and sees a change
in a single byte. -/
theorem fnv128_exact :
    (∀ data : Bytes, (fnv128Update fnv128Start data).toNat =
        data.foldl (fun h b ↦ (h ^^^ b.toNat) * (2 ^ 88 + 0x13B) % 2 ^ 128)
          0x6c62272e07bb014262b821756295c58d) ∧
      (∀ d a b, fnv128Update d (a ++ b) = fnv128Update (fnv128Update d a) b) ∧
      (∀ b, Function.Bijective fun d ↦ fnv128Step d b) ∧
      ∀ data data' : Bytes, data.length = data'.length →
        (∃ i : ℕ, data[i]? ≠ data'[i]? ∧ ∀ j : ℕ, j ≠ i → data[j]? = data'[j]?) →
          digestBytes data ≠ digestBytes data' := by
  refine ⟨fun data ↦ ?_, fun d a b ↦ List.foldl_append, fnv128Step_bijective, ?_⟩
  · rw [toNat_fnv128Update, Fnv.hash, List.foldl_map]
    rfl
  · rintro data data' hlength ⟨i, hi, hagree⟩ heq
    have hne : data ≠ data' := fun hsame ↦ hi (by rw [hsame])
    obtain ⟨i, m, hm, before, w, w', after, rfl, rfl, -, hw, hw', hdiffer⟩ :=
      Crc.exists_burst (i := i) (n := 1) hlength hne fun j hj ↦ hagree j (by omega)
    have hone : m = 1 := by
      refine Nat.le_antisymm hm (Nat.pos_of_ne_zero fun hzero ↦ hdiffer ?_)
      subst hzero
      rw [List.length_eq_zero_iff.mp hw, List.length_eq_zero_iff.mp hw']
    subst hone
    obtain ⟨x, rfl⟩ := List.length_eq_one_iff.mp hw
    obtain ⟨y, rfl⟩ := List.length_eq_one_iff.mp hw'
    have hvalue := congrArg Digest.toNat heq
    change (fnv128Update fnv128Start _).toNat = (fnv128Update fnv128Start _).toNat at hvalue
    rw [toNat_fnv128Update, toNat_fnv128Update] at hvalue
    simp only [List.map_append, List.map_cons, List.singleton_append] at hvalue
    refine Fnv.hash_ne (by decide) fnv128Start.toNat_lt (byte_lt x) (byte_lt y) ?_ ?_ hvalue
    · intro z hz
      obtain ⟨b, -, rfl⟩ := List.mem_map.mp hz
      exact byte_lt b
    · intro hsame
      rw [UInt8.toNat_inj.mp hsame] at hdiffer
      exact hdiffer rfl

end BufferFabric
