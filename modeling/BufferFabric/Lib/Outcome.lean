import Mathlib.Data.List.Basic

/-!
# Checked computations

A check either lets a computation go on or ends it with an error. The lemmas invert
a successful sequence of checks into the facts that were checked.
-/

namespace Outcome

variable {ε : Type*} {α β : Type}

/-- Go on when the condition holds, otherwise stop with the error. -/
def require (c : Prop) [Decidable c] (e : ε) : Except ε Unit :=
  if c then .ok () else .error e

def demand (x : Option α) (e : ε) : Except ε α :=
  match x with
  | some a => .ok a
  | none => .error e

@[simp] theorem require_eq_ok {c : Prop} [Decidable c] {e : ε} {u : Unit} :
    require c e = .ok u ↔ c := by
  unfold require
  split <;> simp_all

@[simp] theorem require_eq_error {c : Prop} [Decidable c] {e e' : ε} :
    require c e = .error e' ↔ ¬c ∧ e = e' := by
  unfold require
  split <;> simp_all

@[simp] theorem demand_eq_ok {x : Option α} {e : ε} {a : α} :
    demand x e = .ok a ↔ x = some a := by
  cases x <;> simp [demand]

@[simp] theorem demand_eq_error {x : Option α} {e e' : ε} :
    demand x e = .error e' ↔ x = none ∧ e = e' := by
  cases x <;> simp [demand]

/-- A sequence of two computations succeeds through the value of the first one. -/
theorem seq_ok {first : Except ε α} {next : α → Except ε β} {result : β} :
    (first >>= next) = .ok result ↔ ∃ mid, first = .ok mid ∧ next mid = .ok result := by
  rcases first with e | mid
  · constructor
    · intro h
      cases h
    · rintro ⟨_, h, _⟩
      cases h
  · constructor
    · intro h
      exact ⟨mid, rfl, h⟩
    · rintro ⟨_, hm, h⟩
      cases hm
      exact h

/-- A sequence of two computations fails in one of them. -/
theorem seq_error {first : Except ε α} {next : α → Except ε β} {e : ε} :
    (first >>= next) = .error e ↔
      first = .error e ∨ ∃ mid, first = .ok mid ∧ next mid = .error e := by
  rcases first with e' | mid
  · constructor
    · intro h
      exact .inl (congrArg Except.error (Except.error.inj h))
    · rintro (h | ⟨_, h, _⟩)
      · exact congrArg Except.error (Except.error.inj h)
      · cases h
  · constructor
    · intro h
      exact .inr ⟨mid, rfl, h⟩
    · rintro (h | ⟨_, hm, h⟩)
      · cases h
      · cases hm
        exact h

/-- What is left when the error is dropped is the result. -/
theorem ok_of_toOption {e : Except ε α} {a : α} (h : e.toOption = some a) : e = .ok a := by
  cases e with
  | error e => cases h
  | ok b => rw [Option.some.inj h]

theorem pure_ok {a b : α} : (pure a : Except ε α) = .ok b ↔ a = b :=
  ⟨fun h ↦ Except.ok.inj h, fun h ↦ congrArg Except.ok h⟩

def ErrorsIn (P : ε → Prop) (x : Except ε α) : Prop := ∀ e, x = .error e → P e

namespace ErrorsIn

variable {P : ε → Prop}

theorem ok (a : α) : ErrorsIn P (.ok a) := by
  intro e h
  cases h

theorem error {e : ε} (h : P e) : ErrorsIn P (.error e : Except ε α) := by
  intro e' he
  cases he
  exact h

theorem require {c : Prop} [Decidable c] {e : ε} (h : ¬c → P e) :
    ErrorsIn P (Outcome.require c e) := by
  intro e' he
  obtain ⟨hc, rfl⟩ := require_eq_error.mp he
  exact h hc

theorem demand {x : Option α} {e : ε} (h : P e) : ErrorsIn P (Outcome.demand x e) := by
  intro e' he
  obtain ⟨-, rfl⟩ := demand_eq_error.mp he
  exact h

theorem bind {first : Except ε α} {next : α → Except ε β} (h : ErrorsIn P first)
    (hnext : ∀ mid, ErrorsIn P (next mid)) : ErrorsIn P (first >>= next) := by
  intro e he
  rcases seq_error.mp he with he | ⟨mid, -, he⟩
  · exact h e he
  · exact hnext mid e he

end ErrorsIn

end Outcome
