import Mathlib.Data.Option.Basic

/-!
# Overwriting logs

A log whose records overwrite what a state holds at a point, or leave the point alone. A
whole log then does one of the two as well, so that replaying it over a state that already
went through it changes nothing.
-/

namespace Replay

variable {σ ρ α : Type*}

/-- What a record leaves at the point `read` looks at is `write` of the record, or what was
there before. -/
def Overwrites (apply : σ → ρ → σ) (read : σ → α) (write : ρ → Option α) : Prop :=
  ∀ s r, read (apply s r) = (write r).getD (read s)

variable {apply : σ → ρ → σ} {read : σ → α} {write : ρ → Option α}

/-- A log leaves a point alone or decides what is there. -/
theorem Overwrites.foldl (h : Overwrites apply read write) (log : List ρ) :
    (∀ s, read (log.foldl apply s) = read s) ∨ ∃ a, ∀ s, read (log.foldl apply s) = a := by
  induction log with
  | nil => exact .inl fun _ ↦ rfl
  | cons r log ih =>
      simp only [List.foldl_cons]
      rcases ih with ih | ⟨a, ih⟩
      · cases hw : write r with
        | none =>
            refine .inl fun s ↦ ?_
            rw [ih, h, hw, Option.getD_none]
        | some a =>
            refine .inr ⟨a, fun s ↦ ?_⟩
            rw [ih, h, hw, Option.getD_some]
      · exact .inr ⟨a, fun s ↦ ih _⟩

/-- Replayed over another state, a log leaves what it left before or what that state has. -/
theorem Overwrites.foldl_or (h : Overwrites apply read write) (log : List ρ) (s t : σ) :
    read (log.foldl apply t) = read t ∨ read (log.foldl apply t) = read (log.foldl apply s) := by
  rcases h.foldl log with hl | ⟨a, hl⟩
  · exact .inl (hl t)
  · exact .inr ((hl t).trans (hl s).symm)

/-! ### Logs that follow a value -/

/-- Replayed over any state, the log leaves the point alone or leaves something there that
stands for `a`. -/
def Tracks (apply : σ → ρ → σ) (read : σ → α) (R : α → α → Prop) (log : List ρ) (a : α) : Prop :=
  ∀ s, read (log.foldl apply s) = read s ∨ R (read (log.foldl apply s)) a

variable {R : α → α → Prop} {log : List ρ} {a : α}

/-- A log that leaves something for `a` over one state does so over every state. -/
theorem Overwrites.tracks (h : Overwrites apply read write) {s : σ}
    (hs : R (read (log.foldl apply s)) a) : Tracks apply read R log a := by
  intro t
  rcases h.foldl_or log s t with ht | ht
  · exact .inl ht
  · exact .inr (by rwa [ht])

/-- Replaying the log over a state that already stands for `a` changes nothing. -/
theorem Tracks.over (ht : Tracks apply read R log a) {s : σ} (hs : R (read s) a) :
    R (read (log.foldl apply s)) a := by
  rcases ht s with h | h
  · rwa [h]
  · exact h

end Replay
