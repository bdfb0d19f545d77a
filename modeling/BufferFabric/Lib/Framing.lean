import Mathlib.Data.List.Basic

/-!
# Sequences of frames

Values written one after the other, each as a frame, and what a prefix of the result holds:
the values whose frames are complete in it, and the beginning of one more frame.
-/

namespace Framing

variable {α β : Type*}

/-- The values whose frames lie completely in the first `n` places, and what follows them
there. -/
def complete (encode : α → List β) : List α → ℕ → List α × List β
  | [], _ => ([], [])
  | a :: as, n =>
      if (encode a).length ≤ n then
        (a :: (complete encode as (n - (encode a).length)).1,
          (complete encode as (n - (encode a).length)).2)
      else ([], (encode a).take n)

variable {encode : α → List β}

theorem take_flatMap (as : List α) (n : ℕ) :
    (as.flatMap encode).take n =
      (complete encode as n).1.flatMap encode ++ (complete encode as n).2 := by
  induction as generalizing n with
  | nil => simp [complete]
  | cons a as ih =>
      rw [List.flatMap_cons, complete, List.take_append]
      split
      · rename_i hle
        rw [List.take_of_length_le hle, ih, List.flatMap_cons, List.append_assoc]
      · rename_i hlt
        have hzero : n - (encode a).length = 0 := by omega
        rw [hzero, List.take_zero, List.append_nil, List.flatMap_nil, List.nil_append]

theorem complete_subset {as : List α} {n : ℕ} : ∀ a ∈ (complete encode as n).1, a ∈ as := by
  induction as generalizing n with
  | nil => simp [complete]
  | cons b as ih =>
      intro a ha
      rw [complete] at ha
      split at ha
      · rcases List.mem_cons.mp ha with rfl | ha
        · exact List.mem_cons_self
        · exact List.mem_cons_of_mem _ (ih a ha)
      · cases ha

/-- What follows the complete frames is nothing or a proper part of one frame. -/
theorem complete_torn (as : List α) (n : ℕ) : (complete encode as n).2 = [] ∨
    ∃ a ∈ as, ∃ k < (encode a).length, (complete encode as n).2 = (encode a).take k := by
  induction as generalizing n with
  | nil => exact .inl rfl
  | cons a as ih =>
      rw [complete]
      split
      · rcases ih (n - (encode a).length) with h | ⟨b, hb, k, hk, h⟩
        · exact .inl h
        · exact .inr ⟨b, List.mem_cons_of_mem _ hb, k, hk, h⟩
      · rename_i hlt
        exact .inr ⟨a, List.mem_cons_self, n, Nat.lt_of_not_le hlt, rfl⟩

theorem length_le_flatMap (hpos : ∀ a, 0 < (encode a).length) (as : List α) :
    as.length ≤ (as.flatMap encode).length := by
  induction as with
  | nil => exact Nat.le_refl _
  | cons a as ih =>
      rw [List.flatMap_cons, List.length_append, List.length_cons]
      have := hpos a
      omega

end Framing
