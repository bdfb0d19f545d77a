import Mathlib.Data.List.Basic
import Mathlib.Tactic.Ring

/-!
# Unsigned 64-bit words as natural numbers

The machine operations wrap. These lemmas carry a computation on words to the same
computation on natural numbers, under the bound that rules the wrap out.
-/

namespace Word

variable {a b c : UInt64}

theorem toNat_lt (a : UInt64) : a.toNat < 18446744073709551616 :=
  UInt64.toNat_lt a

theorem toNat_add (h : a.toNat + b.toNat < 18446744073709551616) :
    (a + b).toNat = a.toNat + b.toNat := by
  rw [UInt64.toNat_add]
  exact Nat.mod_eq_of_lt h

theorem toNat_sub (h : b.toNat ≤ a.toNat) : (a - b).toNat = a.toNat - b.toNat :=
  UInt64.toNat_sub_of_le a b (UInt64.le_iff_toNat_le.mpr h)

theorem eq_of_toNat (h : a.toNat = b.toNat) : a = b :=
  UInt64.toNat_inj.mp h

theorem eq_zero_iff : a = 0 ↔ a.toNat = 0 := by
  rw [← UInt64.toNat_inj]
  rfl

theorem ne_zero_iff : a ≠ 0 ↔ 0 < a.toNat := by
  rw [Ne, eq_zero_iff]
  omega

theorem lt_iff : a < b ↔ a.toNat < b.toNat :=
  UInt64.lt_iff_toNat_lt

theorem le_iff : a ≤ b ↔ a.toNat ≤ b.toNat :=
  UInt64.le_iff_toNat_le

/-- The wrapped sum is below its first summand exactly when the sum overflows. -/
theorem add_lt_self_iff : a + b < a ↔ 18446744073709551616 ≤ a.toNat + b.toNat := by
  have ha := toNat_lt a
  have hb := toNat_lt b
  rw [lt_iff, UInt64.toNat_add]
  change (a.toNat + b.toNat) % 18446744073709551616 < a.toNat ↔ _
  omega

theorem toNat_mul (h : a.toNat * b.toNat < 18446744073709551616) :
    (a * b).toNat = a.toNat * b.toNat := by
  rw [UInt64.toNat_mul]
  exact Nat.mod_eq_of_lt h

/-! ### The two halves of a word -/

theorem toNat_low (a : UInt64) : (a &&& 4294967295).toNat = a.toNat % 4294967296 := by
  rw [UInt64.toNat_and]
  exact Nat.and_two_pow_sub_one_eq_mod a.toNat 32

theorem toNat_high (a : UInt64) : (a >>> 32).toNat = a.toNat / 4294967296 := by
  rw [UInt64.toNat_shiftRight]
  exact Nat.shiftRight_eq_div_pow a.toNat 32

/-- A word that is put together from its low half and what is shifted above it. -/
theorem toNat_low_or_shift (a b : UInt64) :
    (a &&& (4294967295 : UInt64) ||| b <<< 32).toNat =
      a.toNat % 4294967296 + b.toNat % 4294967296 * 4294967296 := by
  have hshift : (b <<< 32).toNat = (b.toNat % 4294967296) <<< 32 := by
    rw [UInt64.toNat_shiftLeft, Nat.shiftLeft_eq, Nat.shiftLeft_eq]
    change b.toNat * 4294967296 % 18446744073709551616 = b.toNat % 4294967296 * 4294967296
    omega
  have hlow : a.toNat % 4294967296 < 2 ^ 32 := Nat.mod_lt _ (by decide)
  rw [UInt64.toNat_or, toNat_low, hshift, Nat.or_comm, ← Nat.shiftLeft_add_eq_or_of_lt hlow,
    Nat.shiftLeft_eq, Nat.add_comm]

/-- The sum of four partial products, the inner two shifted by half a word, as two words. -/
theorem toNat_wide {p₀₀ p₀₁ p₁₀ p₁₁ mid : UInt64}
    (hmid : mid = (p₀₀ >>> 32) + (p₀₁ &&& 4294967295) + (p₁₀ &&& 4294967295))
    (hbound : p₁₁.toNat * 18446744073709551616 + (p₀₁.toNat + p₁₀.toNat) * 4294967296 +
      p₀₀.toNat < 18446744073709551616 * 18446744073709551616) :
    (p₁₁ + (p₀₁ >>> 32) + (p₁₀ >>> 32) + (mid >>> 32)).toNat * 18446744073709551616 +
        (p₀₀ &&& (4294967295 : UInt64) ||| mid <<< 32).toNat =
      p₁₁.toNat * 18446744073709551616 + (p₀₁.toNat + p₁₀.toNat) * 4294967296 + p₀₀.toNat := by
  have h₀₀ := toNat_lt p₀₀
  have h₀₁ := toNat_lt p₀₁
  have h₁₀ := toNat_lt p₁₀
  have hsum : mid.toNat = p₀₀.toNat / 4294967296 + p₀₁.toNat % 4294967296 +
      p₁₀.toNat % 4294967296 := by
    rw [hmid, toNat_add, toNat_add, toNat_high, toNat_low, toNat_low]
    · rw [toNat_high, toNat_low]
      omega
    · rw [toNat_add, toNat_high, toNat_low, toNat_low]
      · omega
      · rw [toNat_high, toNat_low]
        omega
  have hhigh : (p₁₁ + (p₀₁ >>> 32) + (p₁₀ >>> 32) + (mid >>> 32)).toNat =
      (p₁₁.toNat + p₀₁.toNat / 4294967296 + p₁₀.toNat / 4294967296 +
        mid.toNat / 4294967296) % 18446744073709551616 := by
    simp only [UInt64.toNat_add, toNat_high, Nat.mod_add_mod, Nat.reducePow]
  rw [hhigh, toNat_low_or_shift]
  omega

/-! ### Shares -/

/-- The rounded share `b * u / n` of `b` leaves no more of `b` than `n - u`. -/
theorem add_sub_le_mul_div {b u n : ℕ} (hb : b ≤ n) (hu : u ≤ n) : b + u - n ≤ b * u / n := by
  by_cases hle : b + u ≤ n
  · rw [Nat.sub_eq_zero_of_le hle]
    exact Nat.zero_le _
  · obtain ⟨x, rfl⟩ := Nat.exists_eq_add_of_le hb
    obtain ⟨z, rfl⟩ := Nat.exists_eq_add_of_le (by omega : x ≤ u)
    obtain ⟨y, rfl⟩ := Nat.exists_eq_add_of_le (by omega : z ≤ b)
    rw [Nat.le_div_iff_mul_le (by omega)]
    have hsub : z + y + (x + z) - (z + y + x) = z := by omega
    rw [hsub]
    calc z * (z + y + x) ≤ z * (z + y + x) + y * x := Nat.le_add_right _ _
      _ = (z + y) * (x + z) := by ring

/-- The rounded share of `b`, computed from a product that wraps around at `w`, leaves no more of
`b` than `n - u` exactly when what was lost in the product is no more than what was to spare. -/
theorem sub_mod_div_le_iff {b u n : ℕ} (w : ℕ) (hb : b ≤ n) (hu : u < n) :
    b - b * u % w / n ≤ n - u ↔ b * u / w * w ≤ (n - b) * (n - u) := by
  have hsplit := Nat.div_add_mod' (b * u) w
  by_cases hle : b + u ≤ n
  · obtain ⟨x, rfl⟩ := Nat.exists_eq_add_of_le hb
    have hx : b + x - b = x := Nat.add_sub_cancel_left b x
    rw [hx]
    constructor
    · intro _
      calc b * u / w * w ≤ b * u := Nat.div_mul_le_self _ _
        _ ≤ (b + x - u) * x := Nat.mul_le_mul (by omega) (by omega)
        _ = x * (b + x - u) := Nat.mul_comm _ _
    · intro _
      exact (Nat.sub_le _ _).trans (Nat.le_sub_of_add_le hle)
  · obtain ⟨x, rfl⟩ := Nat.exists_eq_add_of_le hb
    obtain ⟨z, rfl⟩ := Nat.exists_eq_add_of_le (by omega : x ≤ u)
    obtain ⟨y, rfl⟩ := Nat.exists_eq_add_of_le (by omega : z ≤ b)
    have hx : z + y + x - (z + y) = x := by omega
    have hy : z + y + x - (x + z) = y := by omega
    have hproduct : (z + y) * (x + z) = x * y + z * (z + y + x) := by ring
    have hdiv : z ≤ (z + y) * (x + z) % w / (z + y + x) ↔
        z * (z + y + x) ≤ (z + y) * (x + z) % w := Nat.le_div_iff_mul_le (by omega)
    rw [hx, hy]
    omega

end Word
