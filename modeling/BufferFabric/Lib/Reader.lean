import Mathlib.Data.List.Basic

/-!
# Readers

A reader takes a value off the front of a list, or fails. A reader inverts a writer when it
takes back what was written, whatever follows it.
-/

abbrev Reader (β α : Type) := StateT (List β) Option α

namespace Reader

variable {β α γ : Type}

@[simp] theorem bind_apply (x : Reader β α) (f : α → Reader β γ) (l : List β) :
    (x >>= f) l = (x l).bind fun p ↦ f p.1 p.2 := by
  change StateT.bind x f l = _
  unfold StateT.bind
  cases x l <;> rfl

@[simp] theorem pure_apply (a : α) (l : List β) : (pure a : Reader β α) l = some (a, l) := rfl

@[simp] theorem map_apply (f : α → γ) (x : Reader β α) (l : List β) :
    (f <$> x) l = (x l).map fun p ↦ (f p.1, p.2) := by
  change StateT.map f x l = _
  unfold StateT.map
  cases x l <;> rfl

/-- One step of a reader that goes on. -/
theorem step {x : Reader β α} {f : α → Reader β γ} {l rest : List β} {a : α}
    (h : x l = some (a, rest)) : (x >>= f) l = f a rest := by
  rw [bind_apply, h, Option.bind_some]

/-- `read` takes back what `put` has written of an acceptable value. -/
def Inverts (read : Reader β α) (put : α → List β) (ok : α → Prop) : Prop :=
  ∀ a, ok a → ∀ rest, read (put a ++ rest) = some (a, rest)

/-- What `read` accepts is what `put` writes of the value it returns, which is acceptable. -/
def Canonical (read : Reader β α) (put : α → List β) (ok : α → Prop) : Prop :=
  ∀ l a rest, read l = some (a, rest) → ok a ∧ l = put a ++ rest

/-- A reader and a writer that are inverse to each other. Whatever follows what was written is
left, and no proper beginning of it is read. -/
structure Codec (read : Reader β α) (put : α → List β) (ok : α → Prop) : Prop where
  inverts : Inverts read put ok
  canonical : Canonical read put ok
  strict : ∀ a, ok a → ∀ n < (put a).length, read ((put a).take n) = none

section Codecs

variable {read : Reader β α} {put : α → List β} {ok : α → Prop}

/-- What is read off a proper beginning would be the value itself, with something left over. -/
theorem Codec.of (hinverts : Inverts read put ok) (hcanonical : Canonical read put ok) :
    Codec read put ok := by
  refine ⟨hinverts, hcanonical, ?_⟩
  intro a ha n hn
  cases h : read ((put a).take n) with
  | none => rfl
  | some r =>
      obtain ⟨b, rest⟩ := r
      obtain ⟨hb, heq⟩ := hcanonical _ _ _ h
      have hwhole : put a = put b ++ (rest ++ (put a).drop n) := by
        rw [← List.append_assoc, ← heq, List.take_append_drop]
      have hleft : read (put a) = some (a, []) := by
        simpa using hinverts a ha []
      rw [hwhole, hinverts b hb] at hleft
      obtain ⟨-, hrest⟩ := Prod.mk.inj (Option.some.inj hleft)
      have hdrop := congrArg List.length (List.append_eq_nil_iff.mp hrest).2
      rw [List.length_drop, List.length_nil] at hdrop
      omega

/-- One step back in a reader that goes on. -/
theorem Canonical.step (h : Canonical read put ok) {f : α → Reader β γ} {l : List β}
    {r : γ × List β} (hr : (read >>= f) l = some r) :
    ∃ a rest, ok a ∧ l = put a ++ rest ∧ f a rest = some r := by
  rw [bind_apply] at hr
  obtain ⟨⟨a, rest⟩, hread, hf⟩ := Option.bind_eq_some_iff.mp hr
  obtain ⟨ha, hl⟩ := h l a rest hread
  exact ⟨a, rest, ha, hl, hf⟩

/-- What `read` takes off is, behind `front`, what `put` writes of the value it returns. -/
def After (front : List β) (read : Reader β γ) (put : γ → List β) (ok : γ → Prop) : Prop :=
  ∀ l c rest, read l = some (c, rest) → ok c ∧ front ++ l = put c ++ rest

section Fields

variable {f : α → Reader β γ} {put' : γ → List β} {ok' : γ → Prop} {front : List β}

/-- The first field of a record. -/
theorem Codec.first (h : Codec read put ok) (hf : ∀ a, ok a → After (put a) (f a) put' ok') :
    Canonical (read >>= f) put' ok' := by
  intro l c rest hr
  obtain ⟨a, l', ha, rfl, hrest⟩ := h.canonical.step hr
  exact hf a ha l' c rest hrest

/-- A field behind those in `front`. -/
theorem Codec.next (h : Codec read put ok)
    (hf : ∀ a, ok a → After (front ++ put a) (f a) put' ok') :
    After front (read >>= f) put' ok' := by
  intro l c rest hr
  obtain ⟨a, l', ha, rfl, hrest⟩ := h.canonical.step hr
  rw [← List.append_assoc]
  exact hf a ha l' c rest hrest

/-- The record when its fields were read. -/
theorem After.done {c : γ} (hc : ok' c) (hfront : front = put' c) :
    After front (pure c : Reader β γ) put' ok' := by
  intro l d rest h
  obtain ⟨rfl, rfl⟩ := Prod.mk.inj (Option.some.inj h)
  exact ⟨hc, by rw [hfront]⟩

end Fields

def many (read : Reader β α) : ℕ → List β → List α × List β
  | 0, l => ([], l)
  | fuel + 1, l =>
      match read l with
      | none => ([], l)
      | some (a, rest) => (a :: (many read fuel rest).1, (many read fuel rest).2)

/-- Values that were written one after the other are all read back. -/
theorem Inverts.many (h : Inverts read put ok) (hnil : read [] = none) {as : List α}
    (hok : ∀ a ∈ as, ok a) {fuel : ℕ} (hfuel : as.length ≤ fuel) :
    many read fuel (as.flatMap put) = (as, []) := by
  induction as generalizing fuel with
  | nil =>
      cases fuel with
      | zero => rfl
      | succ fuel =>
          unfold Reader.many
          rw [List.flatMap_nil, hnil]
  | cons a as ih =>
      cases fuel with
      | zero => cases hfuel
      | succ fuel =>
          have hrest := ih (fun b hb ↦ hok b (List.mem_cons_of_mem _ hb))
            (Nat.le_of_succ_le_succ hfuel)
          unfold Reader.many
          rw [List.flatMap_cons, h a (hok a List.mem_cons_self)]
          dsimp only
          rw [hrest]

end Codecs

def ofCode {κ : Type} [DecidableEq κ] (values : List α) (code : α → κ) (k : κ) : Option α :=
  values.find? fun a ↦ decide (code a = k)

theorem ofCode_eq_some {κ : Type} [DecidableEq κ] {values : List α} {code : α → κ} {k : κ} {a : α}
    (h : ofCode values code k = some a) : code a = k := by
  have hcode : decide (code a = k) = true :=
    List.find?_some (p := fun a ↦ decide (code a = k)) h
  exact of_decide_eq_true hcode

end Reader
