import Mathlib.Algebra.Group.Nat.Defs
import Mathlib.Data.List.Basic
import Mathlib.Logic.Function.Iterate

/-!
# Cyclic redundancy checks

A reflected check of 32 bits: a register is shifted down bit by bit, and a polynomial is added
when a one falls out. The shift is linear and, when the polynomial has its top bit, injective. So
two inputs that differ in a window of at most four bytes leave different registers.
-/

namespace Crc

variable {poly a b c : UInt32} {m n : ℕ}

/-! ### The register -/

def step (poly c : UInt32) : UInt32 :=
  if c &&& 1 ≠ 0 then poly ^^^ (c >>> 1) else c >>> 1

def steps (poly : UInt32) (n : ℕ) (c : UInt32) : UInt32 := (step poly)^[n] c

def update (poly c : UInt32) (b : UInt8) : UInt32 := steps poly 8 (c ^^^ b.toUInt32)

theorem low_bit (c : UInt32) : c &&& 1 ≠ 0 ↔ c.toNat % 2 = 1 := by
  rw [Ne, ← UInt32.toNat_inj, UInt32.toNat_and]
  change ¬c.toNat &&& 1 = 0 ↔ _
  rw [Nat.and_one_is_mod]
  omega

theorem toNat_shiftRight {k : UInt32} (hk : k.toNat < 32) (c : UInt32) :
    (c >>> k).toNat = c.toNat / 2 ^ k.toNat := by
  rw [UInt32.toNat_shiftRight, Nat.shiftRight_eq_div_pow, Nat.mod_eq_of_lt hk]

theorem xor_xor_cancel (p a b : UInt32) : (p ^^^ a) ^^^ (p ^^^ b) = a ^^^ b := by
  calc (p ^^^ a) ^^^ (p ^^^ b) = (p ^^^ p) ^^^ (a ^^^ b) := by ac_rfl
    _ = a ^^^ b := by rw [UInt32.xor_self, UInt32.zero_xor]

/-- The shift is linear. -/
theorem step_xor (poly a b : UInt32) : step poly (a ^^^ b) = step poly a ^^^ step poly b := by
  have hbit : (a ^^^ b) &&& 1 ≠ 0 ↔ ¬(a &&& 1 ≠ 0 ↔ b &&& 1 ≠ 0) := by
    rw [low_bit, low_bit, low_bit, UInt32.toNat_xor]
    exact Nat.xor_mod_two_eq_one
  unfold step
  rw [UInt32.shiftRight_xor]
  by_cases ha : a &&& 1 ≠ 0
  · by_cases hb : b &&& 1 ≠ 0
    · rw [if_neg (by tauto), if_pos ha, if_pos hb, xor_xor_cancel]
    · rw [if_pos (by tauto), if_pos ha, if_neg hb]
      ac_rfl
  · by_cases hb : b &&& 1 ≠ 0
    · rw [if_pos (by tauto), if_neg ha, if_pos hb]
      ac_rfl
    · rw [if_neg (by tauto), if_neg ha, if_neg hb]

/-- With the top bit in the polynomial, nothing but the empty register is shifted to the empty
register. -/
theorem step_eq_zero (hpoly : 2147483648 ≤ poly.toNat) (h : step poly c = 0) : c = 0 := by
  have hc := c.toNat_lt
  have hshift : (c >>> 1).toNat = c.toNat / 2 := toNat_shiftRight (by decide) c
  unfold step at h
  split at h
  · have heq : poly = c >>> 1 := UInt32.xor_eq_zero_iff.mp h
    rw [heq, hshift] at hpoly
    omega
  · rename_i hbit
    rw [low_bit] at hbit
    rw [← UInt32.toNat_inj, hshift, UInt32.toNat_zero] at h
    rw [← UInt32.toNat_inj, UInt32.toNat_zero]
    omega

theorem step_injective (hpoly : 2147483648 ≤ poly.toNat) : Function.Injective (step poly) := by
  intro a b h
  apply UInt32.xor_eq_zero_iff.mp
  refine step_eq_zero hpoly ?_
  rw [step_xor, h, UInt32.xor_self]

theorem steps_injective (hpoly : 2147483648 ≤ poly.toNat) (n : ℕ) :
    Function.Injective (steps poly n) :=
  (step_injective hpoly).iterate n

theorem steps_xor (poly : UInt32) (n : ℕ) (a b : UInt32) :
    steps poly n (a ^^^ b) = steps poly n a ^^^ steps poly n b := by
  induction n generalizing a b with
  | zero => rfl
  | succ n ih =>
      change steps poly n (step poly (a ^^^ b)) =
        steps poly n (step poly a) ^^^ steps poly n (step poly b)
      rw [step_xor, ih]

theorem steps_add (poly : UInt32) (m n : ℕ) (c : UInt32) :
    steps poly (m + n) c = steps poly m (steps poly n c) :=
  Function.iterate_add_apply _ m n c

/-- Zeros that fall out change nothing else. -/
theorem toNat_steps (h : c.toNat % 2 ^ n = 0) : (steps poly n c).toNat = c.toNat / 2 ^ n := by
  induction n generalizing c with
  | zero => exact (Nat.div_one _).symm
  | succ n ih =>
      have hdvd : 2 ^ (n + 1) ∣ c.toNat := Nat.dvd_of_mod_eq_zero h
      have heven : c.toNat % 2 = 0 :=
        Nat.mod_eq_zero_of_dvd (Nat.dvd_trans ⟨2 ^ n, Nat.pow_succ'⟩ hdvd)
      have hstep : (step poly c).toNat = c.toNat / 2 := by
        unfold step
        rw [if_neg (by rw [low_bit]; omega)]
        exact toNat_shiftRight (by decide) c
      have hrest : (step poly c).toNat % 2 ^ n = 0 := by
        rw [hstep]
        refine Nat.mod_eq_zero_of_dvd (Nat.dvd_div_of_mul_dvd ?_)
        rwa [← Nat.pow_succ']
      change (steps poly n (step poly c)).toNat = _
      rw [ih hrest, hstep, Nat.div_div_eq_div_mul, ← Nat.pow_succ']

/-- Eight shifts by the table: those of the low byte, and the rest moved down. -/
theorem steps_eight (poly c : UInt32) :
    steps poly 8 c = steps poly 8 (c &&& 255) ^^^ (c >>> 8) := by
  have hlow : (c &&& 255).toNat = c.toNat % 256 := by
    rw [UInt32.toNat_and]
    exact Nat.and_two_pow_sub_one_eq_mod c.toNat 8
  have hhigh : (c ^^^ (c &&& 255)).toNat % 2 ^ 8 = 0 := by
    rw [UInt32.toNat_xor, Nat.xor_mod_two_pow, hlow, Nat.mod_mod, Nat.xor_self]
  have hshift : steps poly 8 (c ^^^ (c &&& 255)) = c >>> 8 := by
    have hzero : (c &&& 255) >>> 8 = 0 := by
      rw [← UInt32.toNat_inj, toNat_shiftRight (by decide), hlow]
      exact Nat.div_eq_of_lt (Nat.mod_lt _ (by decide))
    rw [← UInt32.toNat_inj, toNat_steps hhigh, ← UInt32.xor_zero (a := c >>> 8), ← hzero,
      ← UInt32.shiftRight_xor, toNat_shiftRight (by decide)]
    rfl
  calc steps poly 8 c = steps poly 8 ((c &&& 255) ^^^ (c ^^^ (c &&& 255))) := by
        rw [UInt32.xor_comm, UInt32.xor_assoc, UInt32.xor_self, UInt32.xor_zero]
    _ = steps poly 8 (c &&& 255) ^^^ (c >>> 8) := by rw [steps_xor, hshift]

/-! ### Bit by bit -/

/-- One bit of the input: the register is shifted down, and the polynomial is added when the bit
that falls out is not that of the input. -/
def feed (poly c : UInt32) (bit : Bool) : UInt32 :=
  if decide (c &&& 1 ≠ 0) ≠ bit then poly ^^^ (c >>> 1) else c >>> 1

def lowBits : ℕ → ℕ → List Bool
  | 0, _ => []
  | n + 1, v => decide (v % 2 = 1) :: lowBits n (v / 2)

def serial (poly c : UInt32) (data : List UInt8) : UInt32 :=
  (data.flatMap fun b ↦ lowBits 8 b.toNat).foldl (feed poly) c

theorem low_cases (v : UInt32) :
    (v.toNat % 2 = 1 ∧ v &&& 1 = 1) ∨ (v.toNat % 2 = 0 ∧ v &&& 1 = 0) := by
  have hlow : (v &&& 1).toNat = v.toNat % 2 := by
    rw [UInt32.toNat_and]
    exact Nat.and_one_is_mod v.toNat
  rcases Nat.mod_two_eq_zero_or_one v.toNat with h | h
  · rw [h] at hlow
    exact .inr ⟨h, UInt32.toNat_inj.mp hlow⟩
  · rw [h] at hlow
    exact .inl ⟨h, UInt32.toNat_inj.mp hlow⟩

/-- A bit is fed as it is added to the register and shifted out. -/
theorem feed_low (poly c v : UInt32) :
    feed poly c (decide (v.toNat % 2 = 1)) = step poly (c ^^^ (v &&& 1)) := by
  have hone : (1 : UInt32) >>> 1 = 0 := by decide
  unfold feed step
  rcases low_cases v with ⟨h, hlow⟩ | ⟨h, hlow⟩
  · have hbit : (c ^^^ 1) &&& 1 ≠ 0 ↔ ¬(c &&& 1 ≠ 0) := by
      rw [low_bit, low_bit, UInt32.toNat_xor]
      exact Nat.xor_mod_two_eq_one.trans (by
        change ¬(c.toNat % 2 = 1 ↔ 1 % 2 = 1) ↔ _
        omega)
    rw [hlow, UInt32.shiftRight_xor, hone, UInt32.xor_zero]
    by_cases hc : c &&& 1 ≠ 0
    · rw [if_neg (by simp [h, hc]), if_neg (fun hne ↦ hbit.mp hne hc)]
    · rw [if_pos (by simp [h, hc]), if_pos (hbit.mpr hc)]
  · rw [hlow, UInt32.xor_zero]
    by_cases hc : c &&& 1 ≠ 0
    · rw [if_pos (by simp [h, hc]), if_pos hc]
    · rw [if_neg (by simp [h, hc]), if_neg hc]

theorem foldl_feed (poly : UInt32) {n : ℕ} {v : UInt32} (hv : v.toNat < 2 ^ n) (c : UInt32) :
    (lowBits n v.toNat).foldl (feed poly) c = steps poly n (c ^^^ v) := by
  induction n generalizing c v with
  | zero =>
      have hzero : v = 0 := UInt32.toNat_inj.mp (Nat.lt_one_iff.mp hv)
      rw [hzero, UInt32.xor_zero]
      rfl
  | succ n ih =>
      have hhalf : (v >>> 1).toNat = v.toNat / 2 := toNat_shiftRight (by decide) v
      have hrest : (v >>> 1).toNat < 2 ^ n := by
        rw [hhalf]
        rw [Nat.pow_succ'] at hv
        exact Nat.div_lt_of_lt_mul hv
      -- what is left of `v` once its lowest bit has been fed falls through the shift
      have heven : step poly (v ^^^ (v &&& 1)) = v >>> 1 := by
        have hlow : (v &&& 1).toNat = v.toNat % 2 := by
          rw [UInt32.toNat_and]
          exact Nat.and_one_is_mod v.toNat
        have hbit : ¬((v ^^^ (v &&& 1)) &&& 1 ≠ 0) := by
          rw [low_bit, UInt32.toNat_xor, Nat.xor_mod_two_eq_one, hlow]
          omega
        have hout : (v &&& 1) >>> 1 = 0 := by
          rw [← UInt32.toNat_inj, toNat_shiftRight (by decide), hlow]
          exact Nat.div_eq_of_lt (Nat.mod_lt _ (by decide))
        unfold step
        rw [if_neg hbit, UInt32.shiftRight_xor, hout, UInt32.xor_zero]
      change (lowBits n (v.toNat / 2)).foldl (feed poly) (feed poly c _) =
        steps poly n (step poly (c ^^^ v))
      rw [feed_low, ← hhalf, ih hrest, ← heven, ← step_xor]
      congr 2
      calc c ^^^ (v &&& 1) ^^^ (v ^^^ (v &&& 1)) =
            c ^^^ v ^^^ ((v &&& 1) ^^^ (v &&& 1)) := by ac_rfl
        _ = c ^^^ v := by rw [UInt32.xor_self, UInt32.xor_zero]

/-- Byte by byte is bit by bit. -/
theorem foldl_update_eq_serial (poly c : UInt32) (data : List UInt8) :
    data.foldl (update poly) c = serial poly c data := by
  have hbyte : ∀ (b : UInt8) (c : UInt32),
      (lowBits 8 b.toNat).foldl (feed poly) c = update poly c b := by
    intro b c
    have hb : b.toUInt32.toNat = b.toNat := UInt8.toNat_toUInt32 b
    rw [← hb, foldl_feed poly (by rw [hb]; exact b.toNat_lt)]
    rfl
  unfold serial
  induction data generalizing c with
  | nil => rfl
  | cons b data ih =>
      rw [List.foldl_cons, List.flatMap_cons, List.foldl_append, hbyte, ih]

/-! ### Windows -/

/-- At most four bytes as they stand in the register, the first one lowest. -/
def window : List UInt8 → UInt32
  | [] => 0
  | b :: w => b.toUInt32 ^^^ (window w <<< 8)

theorem toNat_shiftLeft (h : c.toNat < 2 ^ 24) : (c <<< 8).toNat = c.toNat * 2 ^ 8 := by
  rw [UInt32.toNat_shiftLeft, Nat.shiftLeft_eq]
  change c.toNat * 256 % 4294967296 = c.toNat * 256
  omega

theorem toNat_window_lt {w : List UInt8} (h : w.length ≤ 3) : (window w).toNat < 2 ^ 24 := by
  have hpow : ∀ {k : ℕ}, k ≤ 3 → 2 ^ (8 * k) ≤ 2 ^ 24 := by
    intro k hk
    exact Nat.pow_le_pow_right (by decide) (by omega)
  have hlt : (window w).toNat < 2 ^ (8 * w.length) := by
    induction w with
    | nil => decide
    | cons b w ih =>
        rw [List.length_cons] at h
        have hw := ih (by omega)
        have hlarge : (window w).toNat * 2 ^ 8 < 2 ^ (8 * (w.length + 1)) := by
          rw [Nat.mul_add, Nat.pow_add]
          exact Nat.mul_lt_mul_of_pos_right hw (by decide)
        have hsmall : b.toUInt32.toNat < 2 ^ (8 * (w.length + 1)) := by
          rw [UInt8.toNat_toUInt32]
          exact Nat.lt_of_lt_of_le b.toNat_lt (Nat.pow_le_pow_right (by decide) (by omega))
        change (b.toUInt32 ^^^ (window w <<< 8)).toNat < _
        rw [UInt32.toNat_xor,
          toNat_shiftLeft (Nat.lt_of_lt_of_le hw (hpow (by omega : w.length ≤ 3)))]
        exact Nat.xor_lt_two_pow hsmall hlarge
  exact Nat.lt_of_lt_of_le hlt (hpow h)

theorem window_inj {w w' : List UInt8} (hlength : w.length = w'.length) (hw : w.length ≤ 4)
    (h : window w = window w') : w = w' := by
  induction w generalizing w' with
  | nil => exact (List.length_eq_zero_iff.mp hlength.symm).symm
  | cons b w ih =>
      cases w' with
      | nil => cases hlength
      | cons b' w' =>
          simp only [List.length_cons] at hlength hw
          have hlength : w.length = w'.length := by omega
          have hvalue : ∀ (b : UInt8) {w : List UInt8}, w.length ≤ 3 →
              (window (b :: w)).toNat % 2 ^ 8 = b.toNat ∧
                (window (b :: w)).toNat / 2 ^ 8 = (window w).toNat := by
            intro b w hw
            have hb := b.toNat_lt
            change (b.toUInt32 ^^^ (window w <<< 8)).toNat % 2 ^ 8 = _ ∧
              (b.toUInt32 ^^^ (window w <<< 8)).toNat / 2 ^ 8 = _
            rw [UInt32.toNat_xor, toNat_shiftLeft (toNat_window_lt hw), UInt8.toNat_toUInt32]
            constructor
            · rw [Nat.xor_mod_two_pow, Nat.mul_mod_left, Nat.xor_zero, Nat.mod_eq_of_lt hb]
            · rw [Nat.xor_div_two_pow, Nat.div_eq_of_lt hb, Nat.zero_xor,
                Nat.mul_div_cancel _ (by decide)]
          obtain ⟨hlow, hrest⟩ := hvalue b (by omega : w.length ≤ 3)
          obtain ⟨hlow', hrest'⟩ := hvalue b' (by omega : w'.length ≤ 3)
          rw [h, hlow'] at hlow
          rw [h, hrest'] at hrest
          rw [UInt8.toNat_inj.mp hlow.symm,
            ih hlength (by omega) (UInt32.toNat_inj.mp hrest.symm)]

/-- The register after a window, in one go. -/
theorem foldl_update {w : List UInt8} (h : w.length ≤ 4) (c : UInt32) :
    w.foldl (update poly) c = steps poly (8 * w.length) (c ^^^ window w) := by
  induction w generalizing c with
  | nil => exact (UInt32.xor_zero (a := c)).symm
  | cons b w ih =>
      rw [List.length_cons] at h
      have hshift := toNat_shiftLeft (toNat_window_lt (by omega : w.length ≤ 3))
      have hback : window w = steps poly 8 (window w <<< 8) := by
        rw [← UInt32.toNat_inj, toNat_steps (by rw [hshift]; exact Nat.mul_mod_left _ _), hshift,
          Nat.mul_div_cancel _ (by decide)]
      rw [List.foldl_cons, ih (by omega), List.length_cons, Nat.mul_add, Nat.mul_one, steps_add]
      congr 1
      change steps poly 8 (c ^^^ b.toUInt32) ^^^ window w =
        steps poly 8 (c ^^^ (b.toUInt32 ^^^ (window w <<< 8)))
      rw [← UInt32.xor_assoc, steps_xor poly 8 (c ^^^ b.toUInt32), ← hback]

theorem foldl_update_left_injective (hpoly : 2147483648 ≤ poly.toNat) (data : List UInt8) :
    Function.Injective fun c ↦ data.foldl (update poly) c := by
  induction data with
  | nil => exact Function.injective_id
  | cons b data ih =>
      intro a c h
      exact (UInt32.xor_left_inj _).mp (steps_injective hpoly 8 (ih h))

/-! ### Bursts -/

section Bursts

variable {α : Type*} {l l' : List α} {i k : ℕ}

/-- The lists differ, but only in the window of `n` elements at `i`. -/
def Burst (i n : ℕ) (l l' : List α) : Prop :=
  ∃ before w w' after, l = before ++ (w ++ after) ∧ l' = before ++ (w' ++ after) ∧
    before.length = i ∧ w.length = n ∧ w'.length = n ∧ w ≠ w'

def slice (i k : ℕ) (l : List α) : List α := (l.drop i).take k

theorem Burst.ne (h : Burst i n l l') : l ≠ l' := by
  obtain ⟨before, w, w', after, rfl, rfl, -, hw, hw', hne⟩ := h
  intro heq
  exact hne (List.append_inj_left (List.append_cancel_left heq) (hw.trans hw'.symm))

theorem Burst.le_length (h : Burst i n l l') : i + n ≤ l.length := by
  obtain ⟨before, w, w', after, rfl, -, hi, hw, -⟩ := h
  simp only [List.length_append]
  omega

/-- A slice beside the window is the same. -/
theorem Burst.slice_eq (h : Burst i n l l') (hbeside : m + k ≤ i ∨ i + n ≤ m) :
    slice m k l' = slice m k l := by
  obtain ⟨before, w, w', after, rfl, rfl, hi, hw, hw', -⟩ := h
  unfold slice
  rcases hbeside with hle | hle
  · rw [List.drop_append_of_le_length (by omega), List.drop_append_of_le_length (by omega),
      List.take_append_of_le_length (by rw [List.length_drop]; omega),
      List.take_append_of_le_length (by rw [List.length_drop]; omega)]
  · have hdrop : ∀ v : List α, v.length = n → (before ++ (v ++ after)).drop m =
        after.drop (m - (i + n)) := by
      intro v hv
      rw [← List.append_assoc, List.drop_append, List.drop_of_length_le (by
        rw [List.length_append]
        omega), List.nil_append, List.length_append, hi, hv]
    rw [hdrop w hw, hdrop w' hw']

/-- A slice around the window differs there. -/
theorem Burst.slice (h : Burst i n l l') (hleft : m ≤ i) (hright : i + n ≤ m + k) :
    Burst (i - m) n (Crc.slice m k l) (Crc.slice m k l') := by
  obtain ⟨before, w, w', after, rfl, rfl, hi, hw, hw', hne⟩ := h
  have hslice : ∀ v : List α, v.length = n → Crc.slice m k (before ++ (v ++ after)) =
      before.drop m ++ (v ++ after.take (k - (i - m) - n)) := by
    intro v hv
    unfold Crc.slice
    rw [List.drop_append_of_le_length (by omega), List.take_append, List.length_drop, hi,
      List.take_of_length_le (by rw [List.length_drop]; omega), List.take_append, hv,
      List.take_of_length_le (by omega)]
  refine ⟨before.drop m, w, w', after.take (k - (i - m) - n), hslice w hw, hslice w' hw', ?_,
    hw, hw', hne⟩
  rw [List.length_drop, hi]

/-- Lists that agree outside a window differ in a window that lies within them. -/
theorem exists_burst (hlength : l.length = l'.length) (hne : l ≠ l')
    (hagree : ∀ j, j < i ∨ i + n ≤ j → l[j]? = l'[j]?) : ∃ i m, m ≤ n ∧ Burst i m l l' := by
  have hsplit : ∀ v : List α, v = v.take i ++ ((v.drop i).take n ++ v.drop (i + n)) := by
    intro v
    rw [← List.drop_drop, List.take_append_drop, List.take_append_drop]
  have hbefore : l'.take i = l.take i := by
    refine List.ext_getElem? fun j ↦ ?_
    rw [List.getElem?_take, List.getElem?_take]
    split
    · rename_i hj
      exact (hagree j (.inl hj)).symm
    · rfl
  have hafter : l'.drop (i + n) = l.drop (i + n) := by
    refine List.ext_getElem? fun j ↦ ?_
    rw [List.getElem?_drop, List.getElem?_drop]
    exact (hagree _ (.inr (Nat.le_add_right _ _))).symm
  refine ⟨(l.take i).length, ((l.drop i).take n).length, List.length_take_le n _, l.take i,
    (l.drop i).take n, (l'.drop i).take n, l.drop (i + n), hsplit l, ?_, rfl, rfl, ?_,
    fun hsame ↦ hne ?_⟩
  · rw [← hbefore, ← hafter]
    exact hsplit l'
  · rw [List.length_take, List.length_take, List.length_drop, List.length_drop, hlength]
  · rw [hsplit l, hsplit l', hsame, hbefore, hafter]

end Bursts

/-- Two inputs that differ in a window of at most four bytes leave different registers. -/
theorem Burst.foldl_update_ne (hpoly : 2147483648 ≤ poly.toNat) {data data' : List UInt8}
    {i n : ℕ} (h : Burst i n data data') (hn : n ≤ 4) (c : UInt32) :
    data.foldl (update poly) c ≠ data'.foldl (update poly) c := by
  obtain ⟨before, w, w', after, rfl, rfl, -, hw, hw', hne⟩ := h
  intro heq
  simp only [List.foldl_append] at heq
  have heq := foldl_update_left_injective hpoly after heq
  generalize before.foldl (update poly) c = d at heq
  rw [foldl_update (hw ▸ hn), foldl_update (hw' ▸ hn), hw, hw'] at heq
  refine hne (window_inj (hw.trans hw'.symm) (hw ▸ hn) ?_)
  exact (UInt32.xor_right_inj _).mp (steps_injective hpoly _ heq)

end Crc
