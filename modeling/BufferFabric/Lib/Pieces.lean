import Mathlib.Data.List.Basic

/-!
# Sequences that arrive in pieces

A sequence is delivered piece by piece until an empty piece ends it. Taking a number of places
off its front does not depend on how it was cut.
-/

namespace Pieces

variable {α : Type*}

/-- What arrives: the pieces up to the first empty one. -/
def delivered : List (List α) → List α
  | [] => []
  | [] :: _ => []
  | (a :: piece) :: pieces => a :: piece ++ delivered pieces

def take : ℕ → List (List α) → Option (List α × List (List α))
  | 0, pieces => some ([], pieces)
  | _ + 1, [] => none
  | _ + 1, [] :: _ => none
  | n + 1, (a :: piece) :: pieces =>
      if piece.length ≤ n then
        (take (n - piece.length) pieces).map fun r ↦ (a :: piece ++ r.1, r.2)
      else some ((a :: piece).take (n + 1), (a :: piece).drop (n + 1) :: pieces)

theorem length_delivered_le (pieces : List (List α)) :
    (delivered pieces).length ≤ pieces.flatten.length := by
  induction pieces with
  | nil => exact Nat.le_refl _
  | cons piece pieces ih =>
      cases piece with
      | nil => exact Nat.zero_le _
      | cons a piece =>
          rw [delivered, List.flatten_cons, List.length_append, List.length_append]
          omega

/-- A piece of which something is left arrives before the others. -/
theorem delivered_cons {piece : List α} (h : piece ≠ []) (pieces : List (List α)) :
    delivered (piece :: pieces) = piece ++ delivered pieces := by
  cases piece with
  | nil => exact absurd rfl h
  | cons a piece => rfl

/-- The places are there, and the rest arrives as before. -/
theorem take_of_le {n : ℕ} {pieces : List (List α)} (h : n ≤ (delivered pieces).length) :
    ∃ rest, take n pieces = some ((delivered pieces).take n, rest) ∧
      delivered rest = (delivered pieces).drop n := by
  induction pieces generalizing n with
  | nil =>
      obtain rfl : n = 0 := Nat.le_zero.mp h
      exact ⟨[], rfl, rfl⟩
  | cons piece pieces ih =>
      cases n with
      | zero => exact ⟨piece :: pieces, rfl, rfl⟩
      | succ n =>
          cases piece with
          | nil => cases h
          | cons a piece =>
              rw [delivered, List.length_append, List.length_cons] at h
              rw [take, delivered, List.take_append, List.drop_append, List.length_cons,
                Nat.add_sub_add_right]
              split
              · rename_i hle
                obtain ⟨rest, htake, hrest⟩ := ih (n := n - piece.length) (by omega)
                have hwhole : (a :: piece).length ≤ n + 1 := Nat.succ_le_succ hle
                refine ⟨rest, ?_, ?_⟩
                · rw [htake, List.take_of_length_le hwhole]
                  rfl
                · rw [hrest, List.drop_of_length_le hwhole, List.nil_append]
              · rename_i hlt
                have hzero : n - piece.length = 0 := by omega
                refine ⟨(a :: piece).drop (n + 1) :: pieces, ?_, ?_⟩
                · rw [hzero, List.take_zero, List.append_nil]
                · rw [hzero, List.drop_zero, delivered_cons]
                  intro hnil
                  have hlength := congrArg List.length hnil
                  rw [List.length_drop, List.length_cons, List.length_nil] at hlength
                  omega

theorem take_of_lt {n : ℕ} {pieces : List (List α)} (h : (delivered pieces).length < n) :
    take n pieces = none := by
  induction pieces generalizing n with
  | nil =>
      cases n with
      | zero => cases h
      | succ n => rfl
  | cons piece pieces ih =>
      cases n with
      | zero => cases h
      | succ n =>
          cases piece with
          | nil => rfl
          | cons a piece =>
              rw [delivered, List.length_append, List.length_cons] at h
              rw [take, if_pos (by omega), ih (by omega)]
              rfl

/-- What was taken stood at the front. -/
theorem take_eq_some {n : ℕ} {pieces rest : List (List α)} {front : List α}
    (h : take n pieces = some (front, rest)) :
    front.length = n ∧ delivered pieces = front ++ delivered rest := by
  by_cases hle : n ≤ (delivered pieces).length
  · obtain ⟨rest', htake, hrest⟩ := take_of_le hle
    rw [htake] at h
    obtain ⟨rfl, rfl⟩ := Prod.mk.inj (Option.some.inj h)
    exact ⟨List.length_take_of_le hle, by rw [hrest, List.take_append_drop]⟩
  · rw [take_of_lt (Nat.lt_of_not_le hle)] at h
    cases h

end Pieces
