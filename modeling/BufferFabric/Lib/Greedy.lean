import Mathlib.Data.List.Sort

/-!
# Greedy passes

A greedy pass goes through a list in order and takes elements as long as a test on what was
taken so far and the next element allows it. What it takes is a prefix; where the test does not
look at the next element, it is the shortest prefix that fails the test.
-/

section

variable {α : Type*} {go go' : List α → α → Prop} {P : List α → Prop} {l A B C : List α} {a : α}

structure Greedy (go : List α → α → Prop) (l A : List α) : Prop where
  isPrefix : A <+: l
  taken : ∀ B a C, A = B ++ a :: C → go B a
  stopped : ∀ a C, l = A ++ a :: C → ¬go A a

namespace Greedy

theorem nil (go : List α → α → Prop) : Greedy go [] [] := by
  refine ⟨List.prefix_refl _, fun B a C h ↦ ?_, fun a C h ↦ ?_⟩
  · cases B <;> cases h
  · cases h

theorem stop (h : ¬go [] a) : Greedy go (a :: l) [] := by
  refine ⟨List.nil_prefix, fun B b C hB ↦ ?_, fun b C hb ↦ ?_⟩
  · cases B <;> cases hB
  · obtain rfl := (List.cons.inj hb).1
    exact h

theorem cons (ha : go [] a) (h : Greedy (fun B b ↦ go (a :: B) b) l A) :
    Greedy go (a :: l) (a :: A) := by
  refine ⟨List.cons_prefix_cons.mpr ⟨rfl, h.isPrefix⟩, fun B b C hB ↦ ?_, fun b C hb ↦ ?_⟩
  · cases B with
    | nil =>
        obtain rfl := (List.cons.inj hB).1
        exact ha
    | cons a' B =>
        obtain ⟨rfl, hA⟩ := List.cons.inj hB
        exact h.taken B b C hA
  · exact h.stopped b C (List.cons.inj hb).2

theorem congr (h : Greedy go l A) (hgo : ∀ B a, go B a ↔ go' B a) : Greedy go' l A :=
  ⟨h.isPrefix, fun B a C hA ↦ (hgo B a).mp (h.taken B a C hA),
    fun a C hl hgo' ↦ h.stopped a C hl ((hgo A a).mpr hgo')⟩

/-- A pass that takes at least as much as another one takes the same. -/
theorem eq_of_prefix (hA : Greedy go l A) (hB : Greedy go l B) (h : A <+: B) : A = B := by
  obtain ⟨C, rfl⟩ := h
  cases C with
  | nil => exact (List.append_nil A).symm
  | cons a C =>
      obtain ⟨D, hD⟩ := hB.isPrefix
      refine absurd (hB.taken A a C rfl) (hA.stopped a (C ++ D) ?_)
      rw [← hD, List.append_assoc, List.cons_append]

theorem unique (hA : Greedy go l A) (hB : Greedy go l B) : A = B := by
  rcases List.prefix_or_prefix_of_prefix hA.isPrefix hB.isPrefix with h | h
  · exact hA.eq_of_prefix hB h
  · exact (hB.eq_of_prefix hA h).symm

end Greedy

/-- The shortest prefix of `l` with the property, or all of `l` when none has it. -/
def ShortestPrefix (P : List α → Prop) : List α → List α → Prop := Greedy fun B _ ↦ ¬P B

namespace ShortestPrefix

theorem eq_or (h : ShortestPrefix P l A) : A = l ∨ P A := by
  obtain ⟨D, rfl⟩ := h.isPrefix
  cases D with
  | nil => exact .inl (List.append_nil A).symm
  | cons d D => exact .inr (not_not.mp (h.stopped d D rfl))

theorem eq_nil (h : ShortestPrefix P l A) (hP : P []) : A = [] := by
  cases A with
  | nil => rfl
  | cons a A => exact absurd hP (h.taken [] a A rfl)

/-- It goes beyond every prefix up to which the property never held. -/
theorem concat_prefix (h : ShortestPrefix P l A) (hl : l = B ++ a :: C)
    (hB : ∀ D, D <+: B → ¬P D) : B ++ [a] <+: A := by
  have hBa : B ++ [a] <+: l := ⟨C, by rw [hl, List.append_assoc, List.singleton_append]⟩
  rcases List.prefix_or_prefix_of_prefix hBa h.isPrefix with hlt | hle
  · exact hlt
  rcases List.prefix_concat_iff.mp hle with heq | hinit
  · exact heq ▸ List.prefix_refl _
  · exfalso
    rcases h.eq_or with hall | hP
    · have hlength := hinit.length_le
      rw [hall, hl, List.length_append, List.length_cons] at hlength
      omega
    · exact hB A hinit hP

end ShortestPrefix

/-- The list has exactly the elements with the property, in strictly ascending order of a key. -/
structure Enumerates {κ : Type*} [LT κ] (key : α → κ) (P : α → Prop) (l : List α) : Prop where
  sorted : l.Pairwise fun a b ↦ key a < key b
  mem : ∀ a, a ∈ l ↔ P a

namespace Enumerates

variable {κ : Type*} [LinearOrder κ] {key : α → κ}

theorem nodup {P : α → Prop} (h : Enumerates key P l) : l.Nodup :=
  h.sorted.imp fun hlt heq ↦ absurd (congrArg key heq) hlt.ne

/-- Two enumerations of the same elements are the same list. -/
theorem unique {P : α → Prop} {m : List α} (h : Enumerates key P l) (h' : Enumerates key P m) :
    l = m := by
  have hirrefl : Std.Irrefl fun a b : α ↦ key a < key b := ⟨fun a ↦ lt_irrefl (key a)⟩
  have hasymm : Std.Antisymm fun a b : α ↦ key a < key b :=
    ⟨fun a b hab hba ↦ absurd hab hba.not_gt⟩
  exact h.sorted.eq_of_mem_iff h'.sorted fun a ↦ (h.mem a).trans (h'.mem a).symm

/-- Sorting by the key enumerates a list in which no key comes twice. -/
theorem insertionSort {P : α → Prop} {le : α → α → Prop} [DecidableRel le]
    (hle : ∀ a ∈ l, ∀ b ∈ l, le a b ↔ key a ≤ key b) (hnodup : (l.map key).Nodup)
    (hmem : ∀ a, a ∈ l ↔ P a) : Enumerates key P (l.insertionSort le) := by
  have hsort : l.insertionSort le = l.insertionSort fun a b ↦ key a ≤ key b := by
    have hmap := List.map_insertionSort _ (fun a b ↦ key a ≤ key b) id l hle
    rwa [List.map_id, List.map_id] at hmap
  have htotal : Std.Total fun a b : α ↦ key a ≤ key b := ⟨fun a b ↦ le_total (key a) (key b)⟩
  have htrans : IsTrans α fun a b ↦ key a ≤ key b := ⟨fun a b c ↦ le_trans⟩
  rw [hsort]
  refine ⟨?_, fun a ↦ (List.mem_insertionSort _).trans (hmem a)⟩
  have hkeys : ((l.insertionSort fun a b ↦ key a ≤ key b).map key).Nodup :=
    (((l.perm_insertionSort _).map key).nodup_iff).mpr hnodup
  have hne : (l.insertionSort fun a b ↦ key a ≤ key b).Pairwise fun a b ↦ key a ≠ key b :=
    List.pairwise_map.mp hkeys
  exact (List.pairwise_insertionSort _ l).imp₂ (fun a b hab hab' ↦ lt_of_le_of_ne hab hab') hne

end Enumerates

end
