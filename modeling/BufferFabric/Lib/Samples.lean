import Mathlib.Algebra.Order.Group.Nat
import Mathlib.Data.List.Basic

/-!
# Samples that are taken before they are installed

A source shows values that never go down. Samples of it are taken at one moment and installed
at a later one, in any order. A sample is overtaken when one that was taken after it, and shows
another value, was installed before it. What is installed last never goes down exactly as long
as no overtaken sample is installed.
-/

structure Sample (ι : Type*) where
  serial : ℕ
  item : ι

/-- The samples taken so far: those that wait, and those that were installed. -/
structure Samples (ι : Type*) where
  taken : ℕ := 0
  waiting : List (Sample ι) := []
  installed : List (Sample ι) := []

namespace Samples

variable {ι α : Type*} {z : Samples ι} {a b : Sample ι} {before after : List (Sample ι)}

def take (z : Samples ι) (x : ι) : Samples ι :=
  { z with taken := z.taken + 1, waiting := z.waiting ++ [⟨z.taken, x⟩] }

/-- The sample between `before` and `after` is installed. -/
def install (z : Samples ι) (before : List (Sample ι)) (a : Sample ι) (after : List (Sample ι)) :
    Samples ι :=
  { z with waiting := before ++ after, installed := a :: z.installed }

/-- The sample between `before` and `after` is given up. -/
def drop (z : Samples ι) (before after : List (Sample ι)) : Samples ι :=
  { z with waiting := before ++ after }

def Has (z : Samples ι) (a : Sample ι) : Prop := a ∈ z.waiting ∨ a ∈ z.installed

/-- A sample taken later, with another value, was installed. -/
def Overtaken (value : ι → α) (z : Samples ι) (a : Sample ι) : Prop :=
  ∃ b ∈ z.installed, a.serial < b.serial ∧ value a.item ≠ value b.item

/-- What was installed last: the value there was before, or that of an installed sample. -/
def Shows (value : ι → α) (start : α) (z : Samples ι) (shown : α) : Prop :=
  shown = start ∨ ∃ b ∈ z.installed, shown = value b.item

variable {value : ι → α} {start now now' shown : α}

theorem Shows.of_installed (h : z.Shows value start shown) {z' : Samples ι}
    (hz : ∀ b ∈ z.installed, b ∈ z'.installed) : z'.Shows value start shown := by
  rcases h with rfl | ⟨b, hb, rfl⟩
  · exact .inl rfl
  · exact .inr ⟨b, hz b hb, rfl⟩

theorem Shows.install (z : Samples ι) (before after : List (Sample ι)) (a : Sample ι) :
    (z.install before a after).Shows value start (value a.item) :=
  .inr ⟨a, List.mem_cons_self, rfl⟩

variable [LinearOrder α]

/-- The samples come from a source that started at `start`, shows `now`, and never went down. -/
structure Ordered (value : ι → α) (start now : α) (z : Samples ι) : Prop where
  serial : ∀ a, z.Has a → a.serial < z.taken
  low : ∀ a, z.Has a → start ≤ value a.item
  high : ∀ a, z.Has a → value a.item ≤ now
  mono : ∀ a b, z.Has a → z.Has b → a.serial ≤ b.serial → value a.item ≤ value b.item
  start_le : start ≤ now

namespace Ordered

theorem empty (h : start ≤ now) : Ordered value start now ({} : Samples ι) := by
  have hno : ∀ a, ¬({} : Samples ι).Has a := by simp [Has]
  exact ⟨fun a ha ↦ absurd ha (hno a), fun a ha ↦ absurd ha (hno a), fun a ha ↦ absurd ha (hno a),
    fun a b ha ↦ absurd ha (hno a), h⟩

/-- Taking a sample of a source that shows no less than before. -/
theorem take (h : Ordered value start now z) {x : ι} (hx : now ≤ value x) :
    Ordered value start (value x) (z.take x) := by
  have hhas : ∀ a, (z.take x).Has a → z.Has a ∨ a = ⟨z.taken, x⟩ := by
    rintro a (ha | ha)
    · rcases List.mem_append.mp ha with ha | ha
      · exact .inl (.inl ha)
      · exact .inr (List.mem_singleton.mp ha)
    · exact .inl (.inr ha)
  refine ⟨?_, ?_, ?_, ?_, h.start_le.trans hx⟩
  · intro a ha
    rcases hhas a ha with ha | rfl
    · exact Nat.lt_succ_of_lt (h.serial a ha)
    · exact Nat.lt_succ_self _
  · intro a ha
    rcases hhas a ha with ha | rfl
    · exact h.low a ha
    · exact h.start_le.trans hx
  · intro a ha
    rcases hhas a ha with ha | rfl
    · exact (h.high a ha).trans hx
    · exact le_refl _
  · intro a b ha hb hle
    rcases hhas a ha with ha | rfl
    · rcases hhas b hb with hb | rfl
      · exact h.mono a b ha hb hle
      · exact (h.high a ha).trans hx
    · rcases hhas b hb with hb | rfl
      · exact absurd (h.serial b hb) (Nat.not_lt.mpr hle)
      · exact le_refl _

/-- Fewer samples are ordered as well. -/
theorem of_has (h : Ordered value start now z) {z' : Samples ι} (htaken : z'.taken = z.taken)
    (hhas : ∀ a, z'.Has a → z.Has a) : Ordered value start now z' :=
  ⟨fun a ha ↦ htaken ▸ h.serial a (hhas a ha), fun a ha ↦ h.low a (hhas a ha),
    fun a ha ↦ h.high a (hhas a ha), fun a b ha hb ↦ h.mono a b (hhas a ha) (hhas b hb),
    h.start_le⟩

theorem drop (h : Ordered value start now z) (hz : z.waiting = before ++ a :: after) :
    Ordered value start now (z.drop before after) := by
  refine h.of_has rfl ?_
  rintro b (hb | hb)
  · refine .inl ?_
    rw [hz]
    exact List.mem_append.mpr ((List.mem_append.mp hb).imp id (List.mem_cons_of_mem a))
  · exact .inr hb

theorem install (h : Ordered value start now z) (hz : z.waiting = before ++ a :: after) :
    Ordered value start now (z.install before a after) := by
  refine h.of_has rfl ?_
  rintro b (hb | hb)
  · refine .inl ?_
    rw [hz]
    exact List.mem_append.mpr ((List.mem_append.mp hb).imp id (List.mem_cons_of_mem a))
  · rcases List.mem_cons.mp hb with rfl | hb
    · refine .inl ?_
      rw [hz]
      exact List.mem_append.mpr (.inr List.mem_cons_self)
    · exact .inr hb

/-- A sample that was not overtaken shows no less than what was installed. -/
theorem shown_le (h : Ordered value start now z) (ha : z.Has a) (hshown : z.Shows value start shown)
    (hnot : ¬z.Overtaken value a) : shown ≤ value a.item := by
  rcases hshown with rfl | ⟨b, hb, rfl⟩
  · exact h.low a ha
  · rcases Nat.lt_or_ge a.serial b.serial with hlt | hge
    · have heq : value a.item = value b.item := by
        by_contra hne
        exact hnot ⟨b, hb, hlt, hne⟩
      exact heq.ge
    · exact h.mono b a (.inr hb) ha hge

end Ordered

end Samples
