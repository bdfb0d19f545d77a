import Mathlib.Algebra.Order.Group.Nat

/-!
# Versioned values

A value carries a version and a subject. A later value follows an earlier one when it has a
higher version, or the same version and the same subject. A slot continues when whatever it
holds follows what it held before, so that an emptied slot stays empty.
-/

section

variable {α β : Type*} (version : α → ℕ) (subject : α → β)

/-- The second value has a higher version than the first, or is about the same subject. -/
def Follows (a b : α) : Prop :=
  version a < version b ∨ version a = version b ∧ subject a = subject b

def Continues (f g : Option α) : Prop :=
  ∀ b, g = some b → ∃ a, f = some a ∧ Follows version subject a b

variable {version subject} {a b c : α} {f g h : Option α}

theorem Follows.refl (a : α) : Follows version subject a a := .inr ⟨rfl, rfl⟩

theorem Follows.trans (hab : Follows version subject a b) (hbc : Follows version subject b c) :
    Follows version subject a c := by
  rcases hab with hlt | ⟨hv, hs⟩
  · rcases hbc with hlt' | ⟨hv', -⟩
    · exact .inl (hlt.trans hlt')
    · exact .inl (hlt.trans_eq hv')
  · rcases hbc with hlt' | ⟨hv', hs'⟩
    · exact .inl (hv.trans_lt hlt')
    · exact .inr ⟨hv.trans hv', hs.trans hs'⟩

/-- Among the values that follow one another a version names one subject. -/
theorem Follows.subject_eq (hab : Follows version subject a b) (hv : version b = version a) :
    subject b = subject a := by
  rcases hab with hlt | ⟨-, hs⟩
  · exact absurd hv hlt.ne'
  · exact hs.symm

namespace Continues

theorem refl (f : Option α) : Continues version subject f f := fun b hb ↦ ⟨b, hb, .refl b⟩

theorem of_eq (hfg : g = f) : Continues version subject f g := by
  rw [hfg]
  exact refl f

theorem of_none (hg : g = none) : Continues version subject f g := by
  intro b hb
  rw [hg] at hb
  cases hb

theorem trans (hfg : Continues version subject f g) (hgh : Continues version subject g h) :
    Continues version subject f h := by
  intro c hc
  obtain ⟨b, hb, hbc⟩ := hgh c hc
  obtain ⟨a, ha, hab⟩ := hfg b hb
  exact ⟨a, ha, hab.trans hbc⟩

theorem of_follows (hf : f = some a) (hg : g = some b) (hab : Follows version subject a b) :
    Continues version subject f g := by
  intro c hc
  rw [hg] at hc
  obtain rfl := Option.some.inj hc
  exact ⟨a, hf, hab⟩

theorem follows (hfg : Continues version subject f g) (hf : f = some a) (hg : g = some b) :
    Follows version subject a b := by
  obtain ⟨a', ha', hab⟩ := hfg b hg
  rw [hf] at ha'
  obtain rfl := Option.some.inj ha'
  exact hab

end Continues

end
