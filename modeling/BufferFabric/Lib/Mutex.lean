import Mathlib.Data.List.Basic

/-!
# Steps around a mutex that is not recursive

A thread takes a mutex, gives it back, and calls what lies outside. It is disciplined when it
calls nothing outside while it holds the mutex. What is called may then call back: no call back
finds the mutex held by its own thread.
-/

inductive LockStep (ι : Type*)
  | acquire
  | release
  | outside (callee : ι)

namespace LockStep

variable {ι : Type*} {ok : List (LockStep ι) → Prop} {l l' pre post : List (LockStep ι)} {c : ι}
  {inside callees : List ι} {b b' : Bool}

def held : Bool → LockStep ι → Bool
  | _, .acquire => true
  | _, .release => false
  | b, .outside _ => b

/-- Nothing is called outside between an `acquire` and the next `release`. -/
def CallsUnlocked (l : List (LockStep ι)) : Prop :=
  ∀ pre c post, l = pre ++ .outside c :: post → pre.foldl held false = false

/-- Whether the mutex is held after a step, or `none` where the step is not allowed: the mutex is
neither taken again nor is anything called while it is held. -/
def walk : Bool → LockStep ι → Option Bool
  | false, .acquire => some true
  | true, .release => some false
  | false, .outside _ => some false
  | _, _ => none

/-- The steps begin and end without the mutex, and every one of them is allowed. -/
def Disciplined (l : List (LockStep ι)) : Prop := l.foldlM walk false = some false

instance (l : List (LockStep ι)) : Decidable (Disciplined l) :=
  inferInstanceAs (Decidable (_ = _))

def calls (callees : List ι) : List (LockStep ι) := callees.map .outside

def locked (inside : List ι) : List (LockStep ι) := .acquire :: (calls inside ++ [.release])

theorem walk_append (h : l.foldlM walk b = some b') :
    (l ++ l').foldlM walk b = l'.foldlM walk b' := by
  rw [List.foldlM_append, h]
  rfl

theorem held_of_walk (h : l.foldlM walk b = some b') : l.foldl held b = b' := by
  induction l generalizing b with
  | nil => exact Option.some.inj h
  | cons x l ih =>
      obtain ⟨b₁, hb₁, hl⟩ := Option.bind_eq_some_iff.mp h
      have hx : held b x = b₁ := by
        cases x <;> cases b <;> simp_all [walk, held]
      rw [List.foldl_cons, hx]
      exact ih hl

/-- A locked section with a call inside. -/
theorem not_callsUnlocked (before : List ι) (c : ι) (inside : List ι) (l : List (LockStep ι)) :
    ¬CallsUnlocked (calls before ++ (locked (c :: inside) ++ l)) := by
  intro h
  have hheld := h (calls before ++ [.acquire]) c (calls inside ++ [.release] ++ l)
    (by simp [locked, calls])
  rw [List.foldl_append] at hheld
  cases hheld

namespace Disciplined

theorem nil : Disciplined ([] : List (LockStep ι)) := rfl

theorem append_iff (h : Disciplined l) : Disciplined (l ++ l') ↔ Disciplined l' := by
  unfold Disciplined
  rw [walk_append h]

theorem append (h : Disciplined l) (h' : Disciplined l') : Disciplined (l ++ l') :=
  (append_iff h).mpr h'

theorem calls (callees : List ι) : Disciplined (calls callees) := by
  induction callees with
  | nil => exact .nil
  | cons c callees ih => exact ih

/-- A locked section is disciplined when nothing is called inside. -/
theorem locked_iff (h : Disciplined l) : Disciplined (locked inside ++ l) ↔ inside = [] := by
  constructor
  · intro hall
    cases inside with
    | nil => rfl
    | cons c inside => cases hall
  · rintro rfl
    exact h

theorem callsUnlocked (h : Disciplined l) : CallsUnlocked l := by
  rintro pre c post rfl
  unfold Disciplined at h
  rw [List.foldlM_append] at h
  obtain ⟨b, hb, hpost⟩ := Option.bind_eq_some_iff.mp h
  cases b with
  | false => exact held_of_walk hb
  | true => cases hpost

end Disciplined

/-- The second steps are those of a thread that makes the first ones itself, when what it calls
outside calls back: the calls back make steps that satisfy `ok`, and are called back in turn. -/
inductive Reenters (ok : List (LockStep ι) → Prop) :
    List (LockStep ι) → List (LockStep ι) → Prop
  | nil : Reenters ok [] []
  | acquire {own all : List (LockStep ι)} (h : Reenters ok own all) :
      Reenters ok (.acquire :: own) (.acquire :: all)
  | release {own all : List (LockStep ι)} (h : Reenters ok own all) :
      Reenters ok (.release :: own) (.release :: all)
  | outside {callee : ι} {back back' own all : List (LockStep ι)} (hok : ok back)
      (hback : Reenters ok back back') (h : Reenters ok own all) :
      Reenters ok (.outside callee :: own) (.outside callee :: (back' ++ all))

theorem Reenters.walk_eq (h : Reenters ok l l') (hok : ∀ k, ok k → Disciplined k)
    (hl : l.foldlM walk b = some b') : l'.foldlM walk b = some b' := by
  induction h generalizing b b' with
  | nil => exact hl
  | acquire h ih | release h ih =>
      obtain ⟨held, hheld, hrest⟩ := Option.bind_eq_some_iff.mp hl
      exact Option.bind_eq_some_iff.mpr ⟨held, hheld, ih hrest⟩
  | outside hback hinner h ihback ih =>
      -- the call is only allowed without the mutex, and so are the steps of the calls back
      cases b with
      | true => cases hl
      | false => exact (walk_append (ihback (hok _ hback))).trans (ih hl)

/-- Disciplined threads never find the mutex held by themselves. -/
theorem Disciplined.reenters (hl : Disciplined l) (hok : ∀ k, ok k → Disciplined k)
    (h : Reenters ok l l') : Disciplined l' :=
  h.walk_eq hok hl

end LockStep
