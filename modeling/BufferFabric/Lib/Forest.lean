import Mathlib.Algebra.Order.Group.Nat
import Mathlib.Logic.Relation

/-!
# Forests

A partial parent function: `none` stands for what is no node, `some none` for a root. The depth
of a node is the number of its proper ancestors; a node that has one has no cycle above it.
-/

section

variable {α : Type*} {up up' : α → Option (Option α)} {P : α → Prop} {a b p q : α} {m n : ℕ}

/-- The node `a` has the `n` proper ancestors of a chain that ends in a root. -/
inductive Depth (up : α → Option (Option α)) : α → ℕ → Prop
  | root {a : α} (h : up a = some none) : Depth up a 0
  | child {a b : α} {n : ℕ} (h : up a = some (some b)) (hb : Depth up b n) : Depth up a (n + 1)

def ParentOf (up : α → Option (Option α)) (p c : α) : Prop := up c = some (some p)

def AncestorOf (up : α → Option (Option α)) : α → α → Prop := Relation.TransGen (ParentOf up)

theorem AncestorOf.cases (h : up a = some (some b)) (hp : AncestorOf up p a) :
    p = b ∨ AncestorOf up p b := by
  cases hp with
  | single hpa =>
      obtain rfl := Option.some.inj (Option.some.inj (h.symm.trans hpa))
      exact .inl rfl
  | tail hpc hca =>
      obtain rfl := Option.some.inj (Option.some.inj (h.symm.trans hca))
      exact .inr hpc

theorem AncestorOf.exists_child (h : AncestorOf up p a) : ∃ c, ParentOf up p c := by
  induction h with
  | single hpa => exact ⟨_, hpa⟩
  | tail _ _ ih => exact ih

namespace Depth

theorem ne_none (h : Depth up a n) : up a ≠ none := by
  cases h with
  | root h => rw [h]; exact Option.some_ne_none _
  | child h => rw [h]; exact Option.some_ne_none _

theorem unique (hm : Depth up a m) (hn : Depth up a n) : m = n := by
  induction hm generalizing n with
  | root h =>
      cases hn with
      | root => rfl
      | child h' => cases h.symm.trans h'
  | child h _ ih =>
      cases hn with
      | root h' => cases h.symm.trans h'
      | child h' hb =>
          obtain rfl := Option.some.inj (Option.some.inj (h.symm.trans h'))
          rw [ih hb]

/-- A proper ancestor has a smaller depth. -/
theorem ancestor (h : Depth up a n) (hp : AncestorOf up p a) : ∃ m, m < n ∧ Depth up p m := by
  induction h with
  | root h =>
      cases hp with
      | single hpa => cases h.symm.trans hpa
      | tail _ hca => cases h.symm.trans hca
  | child h hb ih =>
      rcases hp.cases h with rfl | hp
      · exact ⟨_, Nat.lt_succ_self _, hb⟩
      · obtain ⟨m, hlt, hm⟩ := ih hp
        exact ⟨m, hlt.trans (Nat.lt_succ_self _), hm⟩

theorem not_ancestor_self (h : Depth up a n) : ¬AncestorOf up a a := by
  intro hself
  obtain ⟨m, hlt, hm⟩ := h.ancestor hself
  exact absurd (hm.unique h) hlt.ne

/-- The proper ancestors are as many as the depth says. -/
theorem ancestors (h : Depth up a n) :
    ∃ l : List α, l.Nodup ∧ l.length = n ∧ ∀ p, AncestorOf up p a ↔ p ∈ l := by
  induction h with
  | root h =>
      refine ⟨[], List.nodup_nil, rfl, fun p ↦ ⟨fun hp ↦ ?_, fun hp ↦ absurd hp List.not_mem_nil⟩⟩
      obtain ⟨m, hlt, -⟩ := (Depth.root h).ancestor hp
      exact absurd hlt (Nat.not_lt_zero m)
  | @child a b n h hb ih =>
      obtain ⟨l, hnodup, hlength, hl⟩ := ih
      have hnew : b ∉ l := fun hmem ↦ hb.not_ancestor_self ((hl b).mpr hmem)
      refine ⟨b :: l, List.nodup_cons.mpr ⟨hnew, hnodup⟩, by rw [List.length_cons, hlength], ?_⟩
      intro p
      rw [List.mem_cons, ← hl p]
      constructor
      · exact fun hp ↦ hp.cases h
      · rintro (rfl | hp)
        · exact .single h
        · exact hp.tail h

/-- The depth of a node rests on its ancestors only. -/
theorem congr (h : Depth up a n) (ha : up' a = up a)
    (hup : ∀ p, AncestorOf up p a → up' p = up p) : Depth up' a n := by
  induction h with
  | root h => exact .root (ha.trans h)
  | child h hb ih =>
      refine .child (ha.trans h) (ih (hup _ (.single h)) fun p hp ↦ hup p (hp.tail h))

end Depth

/-! ### The nearest ancestor with a property -/

/-- The first proper ancestor with the property: any other one is an ancestor of it. -/
def NearestAncestor (up : α → Option (Option α)) (P : α → Prop) (a p : α) : Prop :=
  AncestorOf up p a ∧ P p ∧ ∀ q, AncestorOf up q a → P q → q = p ∨ AncestorOf up q p

/-- The walk up the ancestors, over at most `fuel` of them. -/
def nearestAncestor (up : α → Option (Option α)) (P : α → Prop) [DecidablePred P] :
    ℕ → α → Option α
  | 0, _ => none
  | fuel + 1, a =>
      match up a with
      | some (some b) => if P b then some b else nearestAncestor up P fuel b
      | _ => none

theorem NearestAncestor.unique (ha : Depth up a n) (hp : NearestAncestor up P a p)
    (hq : NearestAncestor up P a q) : p = q := by
  rcases hp.2.2 q hq.1 hq.2.1 with rfl | hqp
  · rfl
  rcases hq.2.2 p hp.1 hp.2.1 with rfl | hpq
  · rfl
  obtain ⟨_, -, hm⟩ := ha.ancestor hp.1
  exact absurd (hpq.trans hqp) hm.not_ancestor_self

/-- A parent without the property is passed over. -/
theorem nearestAncestor_skip (h : up a = some (some b)) (hb : ¬P b) :
    NearestAncestor up P a p ↔ NearestAncestor up P b p := by
  constructor
  · rintro ⟨hpa, hp, hfirst⟩
    refine ⟨?_, hp, fun q hq hPq ↦ hfirst q (hq.tail h) hPq⟩
    rcases hpa.cases h with rfl | hpb
    · exact absurd hp hb
    · exact hpb
  · rintro ⟨hpb, hp, hfirst⟩
    refine ⟨hpb.tail h, hp, fun q hq hPq ↦ ?_⟩
    rcases hq.cases h with rfl | hqb
    · exact absurd hPq hb
    · exact hfirst q hqb hPq

theorem NearestAncestor.parent (h : up a = some (some b)) (hb : P b) :
    NearestAncestor up P a b :=
  ⟨.single h, hb, fun _ hq _ ↦ hq.cases h⟩

theorem nearestAncestor_of_none [DecidablePred P] {fuel : ℕ} (h : up a = none) :
    nearestAncestor up P fuel a = none := by
  cases fuel with
  | zero => rfl
  | succ fuel =>
      unfold nearestAncestor
      rw [h]

/-- A walk that is long enough finds the nearest ancestor. -/
theorem nearestAncestor_eq_some [DecidablePred P] {fuel : ℕ} (ha : Depth up a n)
    (hfuel : n ≤ fuel) : nearestAncestor up P fuel a = some p ↔ NearestAncestor up P a p := by
  induction fuel generalizing a n with
  | zero =>
      obtain rfl : n = 0 := Nat.le_zero.mp hfuel
      refine ⟨fun h ↦ (Option.some_ne_none _ h.symm).elim, fun h ↦ ?_⟩
      obtain ⟨m, hlt, -⟩ := ha.ancestor h.1
      exact absurd hlt (Nat.not_lt_zero m)
  | succ fuel ih =>
      unfold nearestAncestor
      cases ha with
      | root h =>
          rw [h]
          refine ⟨fun hnone ↦ (Option.some_ne_none _ hnone.symm).elim, fun hp ↦ ?_⟩
          obtain ⟨m, hlt, -⟩ := (Depth.root h).ancestor hp.1
          exact absurd hlt (Nat.not_lt_zero m)
      | child h hb =>
          rename_i b k
          rw [h]
          dsimp only
          split
          · rename_i hPb
            refine ⟨fun hsome ↦ ?_, fun hp ↦ ?_⟩
            · rw [← Option.some.inj hsome]
              exact .parent h hPb
            · rw [hp.unique (.child h hb) (.parent h hPb)]
          · rename_i hPb
            rw [nearestAncestor_skip h hPb]
            exact ih hb (Nat.le_of_succ_le_succ hfuel)

end
