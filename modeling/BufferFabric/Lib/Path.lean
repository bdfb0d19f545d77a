import Mathlib.Data.List.Basic

/-!
# Paths of labelled steps

A path is a finite sequence of labelled steps, each of them allowed in the state in which
it is taken. What every allowed step preserves, every path preserves.
-/

/-- A sequence of labelled steps from `s`, each allowed where it is taken. -/
inductive StepPath {σ l : Type*} (step : σ → l → σ → Prop) (allow : σ → l → Prop) (s : σ) :
    σ → Prop
  | refl : StepPath step allow s s
  | tail {t u : σ} {a : l} (h : StepPath step allow s t) (ha : allow t a) (hs : step t a u) :
      StepPath step allow s u

namespace StepPath

variable {σ l : Type*} {step : σ → l → σ → Prop} {allow allow' : σ → l → Prop} {s t u : σ}

theorem single {a : l} (ha : allow s a) (hs : step s a t) : StepPath step allow s t :=
  .tail .refl ha hs

theorem trans (h : StepPath step allow s t) (h' : StepPath step allow t u) :
    StepPath step allow s u := by
  induction h' with
  | refl => exact h
  | tail _ ha hs ih => exact .tail ih ha hs

theorem mono (hle : ∀ t a, allow t a → allow' t a) (h : StepPath step allow s t) :
    StepPath step allow' s t := by
  induction h with
  | refl => exact .refl
  | tail _ ha hs ih => exact .tail ih (hle _ _ ha) hs

/-- What every allowed step preserves, every path preserves. -/
theorem invariant {I : σ → Prop} (hstep : ∀ t a u, I t → allow t a → step t a u → I u)
    (h : StepPath step allow s t) (hs : I s) : I t := by
  induction h with
  | refl => exact hs
  | tail _ ha hst ih => exact hstep _ _ _ ih ha hst

/-- A path that keeps a count no step lowers only takes steps that keep it. -/
theorem quiet {c : σ → ℕ} {ok : l → Prop} (hle : ∀ t a u, step t a u → c t ≤ c u)
    (hok : ∀ t a u, step t a u → c u = c t → ok a) (h : StepPath step allow s t) (hc : c t = c s) :
    StepPath step (fun t a ↦ allow t a ∧ ok a) s t := by
  have hmono : ∀ {v : σ}, StepPath step allow s v → c s ≤ c v := by
    intro v hv
    induction hv with
    | refl => exact Nat.le_refl _
    | tail _ _ hst ih => exact Nat.le_trans ih (hle _ _ _ hst)
  induction h with
  | refl => exact .refl
  | tail hp ha hst ih =>
      have h₁ := hmono hp
      have h₂ := hle _ _ _ hst
      exact .tail (ih (by omega)) ⟨ha, hok _ _ _ hst (by omega)⟩ hst

/-- What a step tells of its label may be added to what is allowed. -/
theorem strengthen (hstep : ∀ t a u, allow t a → step t a u → allow' t a)
    (h : StepPath step allow s t) : StepPath step allow' s t := by
  induction h with
  | refl => exact .refl
  | tail _ ha hs ih => exact .tail ih (hstep _ _ _ ha hs) hs

end StepPath
