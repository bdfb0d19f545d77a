import Mathlib.Data.List.DropRight
import Mathlib.Data.List.GetD
import Mathlib.Data.List.Rotate

/-!
# Rings

Slots that are filled one after the other, and then overwritten at a cursor that goes round. Read
from the cursor on, they hold the newest elements in the order in which they came.
-/

namespace Ring

variable {α : Type*} {c next : ℕ} {slots history : List α}

/-- The slots hold the newest `c` elements of the history, the oldest of them at the cursor. -/
structure Keeps (c : ℕ) (slots : List α) (next : ℕ) (history : List α) : Prop where
  newest : slots.rotate next = history.rtake c
  cursor : next = 0 ∨ next < slots.length
  filling : slots.length < c → next = 0

theorem length_rtake (l : List α) (c : ℕ) : (l.rtake c).length = min l.length c := by
  unfold List.rtake
  rw [List.length_drop]
  omega

theorem rtake_of_length_le {l : List α} (h : l.length ≤ c) : l.rtake c = l := by
  unfold List.rtake
  rw [Nat.sub_eq_zero_of_le h, List.drop_zero]

/-- The newest `c` elements without the oldest of them. -/
theorem rtake_eq_tail {l : List α} (h : c < l.length) : l.rtake c = (l.rtake (c + 1)).tail := by
  unfold List.rtake
  rw [List.tail_drop]
  congr 1
  omega

namespace Keeps

variable (h : Keeps c slots next history)

include h

theorem length_eq : slots.length = min history.length c := by
  rw [← length_rtake, ← h.newest, List.length_rotate]

/-- While a slot is empty the next element is appended. -/
theorem fill (hroom : slots.length < c) (x : α) :
    Keeps c (slots ++ [x]) next (history ++ [x]) := by
  have hnext := h.filling hroom
  subst hnext
  have hlength := h.length_eq
  have hall : slots = history := by
    have hnewest := h.newest
    rwa [List.rotate_zero, rtake_of_length_le (by omega)] at hnewest
  subst hall
  refine ⟨?_, .inl rfl, fun _ ↦ rfl⟩
  rw [List.rotate_zero, rtake_of_length_le]
  rw [List.length_append, List.length_singleton]
  exact hroom

/-- When every slot is taken the next element takes the place of the oldest. -/
theorem overwrite (hc : 0 < c) (hfull : slots.length = c) (x : α) :
    Keeps c (slots.set next x) ((next + 1) % c) (history ++ [x]) := by
  have hlength := h.length_eq
  have hnext : next < slots.length := by
    have hcursor := h.cursor
    omega
  have hset : (slots.set next x).length = c := by rw [List.length_set, hfull]
  refine ⟨?_, .inr (by rw [hset]; exact Nat.mod_lt _ hc), fun hroom ↦ by omega⟩
  -- the cursor leaves the new element behind, and the oldest before it
  have hafter : (slots.set next x).rotate (next + 1) = (slots.rotate next).tail ++ [x] := by
    rw [List.rotate_eq_drop_append_take (by rw [List.length_set]; exact hnext),
      List.rotate_eq_drop_append_take hnext.le, List.drop_set_of_lt (Nat.lt_succ_self next),
      List.drop_eq_getElem_cons hnext, List.cons_append, List.tail_cons, List.append_assoc]
    congr 1
    rw [List.take_set, List.take_succ_eq_append_getElem hnext,
      List.set_append_right _ _ (by rw [List.length_take]; omega), List.length_take,
      Nat.min_eq_left hnext.le, Nat.sub_self]
    rfl
  obtain ⟨k, rfl⟩ := Nat.exists_eq_add_one_of_ne_zero hc.ne'
  calc (slots.set next x).rotate ((next + 1) % (k + 1)) =
        (slots.set next x).rotate ((next + 1) % (slots.set next x).length) := by rw [hset]
    _ = (slots.rotate next).tail ++ [x] := by rw [List.rotate_mod, hafter]
    _ = history.rtake k ++ [x] := by rw [h.newest, ← rtake_eq_tail (by omega)]
    _ = (history ++ [x]).rtake (k + 1) := (List.rtake_concat_succ history k x).symm

end Keeps

theorem keeps_nil (c : ℕ) : Keeps c ([] : List α) 0 [] :=
  ⟨by rw [List.rotate_nil, List.rtake_nil], .inl rfl, fun _ ↦ rfl⟩

/-- Reading round the ring, one slot after the other. -/
theorem map_getD_eq_rotate (slots : List α) (next : ℕ) (d : α) :
    (List.range slots.length).map (fun i ↦ slots.getD ((next + i) % slots.length) d) =
      slots.rotate next := by
  refine List.ext_getElem (by simp) fun i hi hi' ↦ ?_
  rw [List.length_map, List.length_range] at hi
  rw [List.getElem_map, List.getElem_range, List.getElem_rotate, Nat.add_comm next i,
    List.getD_eq_getElem _ _ (Nat.mod_lt _ (Nat.zero_lt_of_lt hi))]

end Ring
