import BufferFabric.Lib.Table
import Mathlib.Data.List.Dedup
import Mathlib.Data.List.DropRight

/-!
# Tables with an order of arrival

A table whose keys are listed in the order in which they came, and the last entries of a
list, which are what a bounded memory keeps.
-/

/-- The order lists the keys of the table, each of them once. -/
structure Listed {κ α : Type*} [DecidableEq κ] (order : List κ) (t : Table κ α) : Prop where
  nodup : order.Nodup
  same : ∀ k, k ∈ order ↔ ∃ a, t.lookup k = some a

namespace Listed

variable {κ α : Type*} [DecidableEq κ] {order : List κ} {t u : Table κ α} {k : κ}

theorem size_eq (h : Listed order t) : t.size = order.length := by
  have hperm : t.keys.Perm order := by
    rw [List.perm_ext_iff_of_nodup t.keys_nodup h.nodup]
    intro k
    rw [Table.mem_keys_iff, h.same]
  have hlen := hperm.length_eq
  rw [← hlen]
  exact (List.length_map _).symm

theorem congr (h : Listed order t) (hu : ∀ k, u.lookup k = t.lookup k) : Listed order u :=
  ⟨h.nodup, fun k ↦ by rw [h.same, hu]⟩

/-- Dropping the first key. -/
theorem tail (h : Listed (k :: order) t) : Listed order (t.erase k) := by
  obtain ⟨hnew, hnodup⟩ := List.nodup_cons.mp h.nodup
  refine ⟨hnodup, ?_⟩
  intro j
  rw [Table.lookup_erase_eq]
  by_cases hj : j = k
  · subst hj
    rw [if_pos rfl]
    constructor
    · intro hmem
      exact absurd hmem hnew
    · rintro ⟨a, ha⟩
      cases ha
  · rw [if_neg hj, ← h.same, List.mem_cons]
    exact (or_iff_right hj).symm

/-- A key that was not there comes last. -/
theorem concat (h : Listed order t) (hnew : t.lookup k = none) (a : α) :
    Listed (order ++ [k]) (t.insert k a) := by
  have hk : k ∉ order := by
    rw [h.same]
    rintro ⟨b, hb⟩
    rw [hnew] at hb
    cases hb
  refine ⟨?_, ?_⟩
  · rw [List.nodup_append]
    refine ⟨h.nodup, List.nodup_singleton k, ?_⟩
    intro x hx y hy heq
    rw [List.mem_singleton.mp hy] at heq
    exact hk (heq ▸ hx)
  · intro j
    rw [Table.lookup_insert_eq, List.mem_append, List.mem_singleton, h.same]
    split
    · rename_i hj
      exact ⟨fun _ ↦ ⟨a, rfl⟩, fun _ ↦ .inr hj⟩
    · rename_i hj
      exact or_iff_left hj

end Listed

namespace List

variable {α : Type*} {n : ℕ}

theorem rtake_of_length_le {l : List α} (h : l.length ≤ n) : l.rtake n = l := by
  rw [rtake, Nat.sub_eq_zero_of_le h, drop_zero]

theorem length_rtake_le (l : List α) (n : ℕ) : (l.rtake n).length ≤ n := by
  rw [rtake, length_drop]
  omega

theorem rtake_suffix (l : List α) (n : ℕ) : l.rtake n <:+ l := drop_suffix _ _

theorem rtake_rtake_concat (l : List α) (n : ℕ) (a : α) :
    (l.rtake n ++ [a]).rtake n = (l ++ [a]).rtake n := by
  have hle : l.length - n ≤ l.length := Nat.sub_le _ _
  have hdrop : l.rtake n ++ [a] = (l ++ [a]).drop (l.length - n) := by
    rw [rtake, drop_append_of_le_length hle]
  rw [hdrop, rtake, rtake, drop_drop, length_drop, length_append, length_singleton]
  congr 1
  omega

/-- An entry with fewer than `n` later ones is among the last `n`. -/
theorem mem_rtake_of_lt {l l' : List α} {a : α} (h : l'.length < n) :
    a ∈ (l ++ [a] ++ l').rtake n := by
  have hle : (l ++ [a] ++ l').length - n ≤ l.length := by
    simp only [length_append, length_singleton]
    omega
  rw [rtake, append_assoc, drop_append_of_le_length (by simpa using hle)]
  simp

end List

/-- The keys are listed in the order in which they were last recorded. -/
def OldestFirst {κ : Type*} [DecidableEq κ] (recorded order : List κ) : Prop :=
  order.Sublist recorded.dedup

namespace OldestFirst

variable {κ : Type*} [DecidableEq κ] {recorded order : List κ} {k : κ}

theorem nil (recorded : List κ) : OldestFirst recorded [] := List.nil_sublist _

theorem dedup_concat (recorded : List κ) (k : κ) :
    (recorded ++ [k]).dedup = recorded.dedup.filter (· ≠ k) ++ [k] := by
  induction recorded with
  | nil => rfl
  | cons j recorded ih =>
      rw [List.cons_append, List.dedup_cons, List.dedup_cons, ih]
      by_cases hmem : j ∈ recorded
      · rw [if_pos hmem, if_pos (List.mem_append_left _ hmem)]
      · rw [if_neg hmem]
        by_cases hj : j = k
        · subst hj
          simp
        · have hnew : j ∉ recorded ++ [k] := by simp [hmem, hj]
          rw [if_neg hnew, List.filter_cons_of_pos (by simpa using hj), List.cons_append]

/-- A key that is recorded anew comes last. -/
theorem concat (h : OldestFirst recorded order) (hnew : k ∉ order) :
    OldestFirst (recorded ++ [k]) (order ++ [k]) := by
  have hkept : order.filter (· ≠ k) = order := by
    rw [List.filter_eq_self]
    intro j hj
    exact decide_eq_true fun heq ↦ hnew (heq ▸ hj)
  unfold OldestFirst
  rw [dedup_concat, ← hkept]
  exact (h.filter _).append_right [k]

theorem rtake (h : OldestFirst recorded order) (n : ℕ) : OldestFirst recorded (order.rtake n) :=
  (List.rtake_suffix order n).sublist.trans h

end OldestFirst
