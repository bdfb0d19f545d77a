import Mathlib.Data.Nat.Bitwise
import Mathlib.Data.Nat.ModEq
import Mathlib.Data.Nat.Prime.Basic

/-!
# Hashes that multiply

A register of `k` bits takes an element by exclusive or and is multiplied by an odd number, modulo
`2 ^ k`. Both can be undone. So a difference between two registers is never lost, whatever follows,
and neither is a difference between two elements.
-/

namespace Fnv

variable {k p h h' x y : ℕ} {l l' : List ℕ}

def step (k p h x : ℕ) : ℕ := (h ^^^ x) * p % 2 ^ k

def hash (k p h : ℕ) (l : List ℕ) : ℕ := l.foldl (step k p) h

theorem step_lt : step k p h x < 2 ^ k := Nat.mod_lt _ (Nat.two_pow_pos k)

theorem hash_lt (hh : h < 2 ^ k) : hash k p h l < 2 ^ k := by
  induction l generalizing h with
  | nil => exact hh
  | cons x l ih => exact ih step_lt

theorem hash_append : hash k p h (l ++ l') = hash k p (hash k p h l) l' := List.foldl_append

/-- An odd factor can be cancelled. -/
theorem mul_cancel (hp : p % 2 = 1) (hx : x < 2 ^ k) (hy : y < 2 ^ k)
    (heq : x * p % 2 ^ k = y * p % 2 ^ k) : x = y := by
  have hcoprime : Nat.gcd (2 ^ k) p = 1 :=
    Nat.Coprime.pow_left k (Nat.coprime_two_left.mpr (Nat.odd_iff.mpr hp))
  exact (Nat.ModEq.cancel_right_of_coprime hcoprime heq).eq_of_lt_of_lt hx hy

theorem step_register_inj (hp : p % 2 = 1) (hh : h < 2 ^ k) (hh' : h' < 2 ^ k) (hx : x < 2 ^ k)
    (heq : step k p h x = step k p h' x) : h = h' :=
  Nat.xor_left_injective
    (mul_cancel hp (Nat.xor_lt_two_pow hh hx) (Nat.xor_lt_two_pow hh' hx) heq)

theorem step_element_inj (hp : p % 2 = 1) (hh : h < 2 ^ k) (hx : x < 2 ^ k) (hy : y < 2 ^ k)
    (heq : step k p h x = step k p h y) : x = y :=
  Nat.xor_right_injective
    (mul_cancel hp (Nat.xor_lt_two_pow hh hx) (Nat.xor_lt_two_pow hh hy) heq)

/-- Registers that differ stay different. -/
theorem hash_register_inj (hp : p % 2 = 1) (hl : ∀ x ∈ l, x < 2 ^ k) (hh : h < 2 ^ k)
    (hh' : h' < 2 ^ k) (heq : hash k p h l = hash k p h' l) : h = h' := by
  induction l generalizing h h' with
  | nil => exact heq
  | cons x l ih =>
      have hstep := ih (fun y hy ↦ hl y (List.mem_cons_of_mem x hy)) step_lt step_lt heq
      exact step_register_inj hp hh hh' (hl x List.mem_cons_self) hstep

/-- Lists that differ in one element only have different hashes. -/
theorem hash_ne (hp : p % 2 = 1) (hh : h < 2 ^ k) (hx : x < 2 ^ k) (hy : y < 2 ^ k)
    (hl' : ∀ z ∈ l', z < 2 ^ k) (hne : x ≠ y) :
    hash k p h (l ++ x :: l') ≠ hash k p h (l ++ y :: l') := by
  intro heq
  rw [hash_append, hash_append] at heq
  exact hne (step_element_inj hp (hash_lt hh) hx hy
    (hash_register_inj hp hl' step_lt step_lt heq))

end Fnv
