import Mathlib.Data.List.AList
import Mathlib.Algebra.BigOperators.Group.List.Basic
import Mathlib.Algebra.Order.BigOperators.Group.List
import Mathlib.Algebra.Order.Group.Nat
import Mathlib.Algebra.GroupWithZero.Nat
import Mathlib.Logic.Function.Basic

/-!
# Keyed tables and their totals

A table is an association list without duplicate keys. The order of its entries is
the order in which a loop over the container visits them. This module adds the sum
of a measure over all entries, and says how inserting, erasing and reordering
entries change it.
-/

/-- A finite map from keys to values, with an iteration order. -/
abbrev Table (κ α : Type*) := AList (fun _ : κ ↦ α)

namespace Table

variable {κ α : Type*}

def toList (t : Table κ α) : List (κ × α) :=
  t.entries.map fun e ↦ (e.1, e.2)

def size (t : Table κ α) : ℕ :=
  t.entries.length

def mapValues (f : α → α) (t : Table κ α) : Table κ α where
  entries := t.entries.map fun e ↦ ⟨e.1, f e.2⟩
  nodupKeys := by
    have hkeys : (t.entries.map fun e ↦ (⟨e.1, f e.2⟩ : Sigma fun _ : κ ↦ α)).keys =
        t.entries.keys := by
      simp [List.keys, List.map_map, Function.comp_def]
    have h : t.entries.keys.Nodup := t.nodupKeys
    rw [← hkeys] at h
    exact h

def filterValues (p : α → Bool) (t : Table κ α) : Table κ α where
  entries := t.entries.filter fun e ↦ p e.2
  nodupKeys := t.nodupKeys.sublist List.filter_sublist

/-- Two tables hold the same entries, possibly in another iteration order. -/
def Same (t u : Table κ α) : Prop :=
  t.entries.Perm u.entries

theorem Same.refl (t : Table κ α) : t.Same t := List.Perm.refl _

/-- The sum of `g` over all entries of the table. -/
def total (g : κ → α → ℕ) (t : Table κ α) : ℕ :=
  (t.entries.map fun e ↦ g e.1 e.2).sum

@[simp] theorem total_empty (g : κ → α → ℕ) : total g (∅ : Table κ α) = 0 := rfl

theorem Same.total_eq {t u : Table κ α} (h : t.Same u) (g : κ → α → ℕ) :
    total g t = total g u :=
  (h.map _).sum_eq

theorem total_add (g g' : κ → α → ℕ) (t : Table κ α) :
    total (fun k a ↦ g k a + g' k a) t = total g t + total g' t := by
  unfold total
  rw [← List.sum_map_add]

theorem total_zero (t : Table κ α) : total (fun _ _ ↦ 0) t = 0 := by
  simp [total]

theorem total_one (t : Table κ α) : total (fun _ _ ↦ 1) t = t.size := by
  simp [total, size]

theorem total_filterValues (g : κ → α → ℕ) (p : α → Bool) (t : Table κ α) :
    total g (t.filterValues p) = total (fun k a ↦ if p a then g k a else 0) t := by
  change ((t.entries.filter fun e ↦ p e.2).map fun e ↦ g e.1 e.2).sum =
    (t.entries.map fun e ↦ if p e.2 then g e.1 e.2 else 0).sum
  induction t.entries with
  | nil => rfl
  | cons e l ih =>
      by_cases hp : p e.2 = true <;> simp [hp, ih]

/-- Two sums may be taken in either order. -/
theorem total_comm {ι β : Type*} (g : κ → α → ι → β → ℕ) (t : Table κ α) (u : Table ι β) :
    total (fun k a ↦ total (g k a) u) t = total (fun i b ↦ total (fun k a ↦ g k a i b) t) u := by
  unfold total
  induction t.entries with
  | nil => simp
  | cons e l ih =>
      simp only [List.map_cons, List.sum_cons]
      rw [ih, ← List.sum_map_add]

theorem toList_nodup (t : Table κ α) : t.toList.Nodup := by
  refine (t.nodupKeys.nodup).map ?_
  rintro ⟨k, a⟩ ⟨k', a'⟩ h
  obtain ⟨rfl, rfl⟩ := Prod.mk.inj h
  rfl

variable [DecidableEq κ]

/-! ### Lookups -/

theorem mem_toList {t : Table κ α} {k : κ} {a : α} :
    (k, a) ∈ t.toList ↔ t.lookup k = some a := by
  rw [← Option.mem_def, AList.mem_lookup_iff]
  constructor
  · intro h
    obtain ⟨⟨k', a'⟩, he, heq⟩ := List.mem_map.mp h
    obtain ⟨rfl, rfl⟩ := Prod.mk.inj heq
    exact he
  · intro h
    exact List.mem_map.mpr ⟨⟨k, a⟩, h, rfl⟩

theorem mem_keys_iff {t : Table κ α} {k : κ} :
    k ∈ t.keys ↔ ∃ a, t.lookup k = some a := by
  rw [← AList.mem_keys, ← AList.lookup_isSome, Option.isSome_iff_exists]

/-- The value under a key, picked out of all values by a test that only it passes. -/
theorem filter_values_eq {t : Table κ α} {p : α → Bool} {k : κ} {a : α} (ha : t.lookup k = some a)
    (hp : ∀ k' a', t.lookup k' = some a' → (p a' = true ↔ k' = k)) :
    (t.toList.map Prod.snd).filter p = [a] := by
  classical
  have hpick : t.toList.filter (p ∘ Prod.snd) = [(k, a)] := by
    have hcount := List.count_eq_one_of_mem t.toList_nodup (mem_toList.mpr ha)
    rw [← List.replicate_one, ← hcount, ← List.filter_beq]
    refine List.filter_congr fun e he ↦ ?_
    obtain ⟨k', a'⟩ := e
    have he' := mem_toList.mp he
    rw [Bool.eq_iff_iff, Function.comp_apply, hp k' a' he', beq_iff_eq]
    constructor
    · rintro rfl
      rw [Option.some.inj (he'.symm.trans ha)]
    · exact fun heq ↦ (Prod.mk.inj heq).1
  rw [List.filter_map, hpick]
  rfl

/-- A table that is not empty has an entry. -/
theorem exists_lookup {t : Table κ α} (h : t ≠ ∅) : ∃ k a, t.lookup k = some a := by
  cases hl : t.entries with
  | nil => exact absurd (AList.ext hl) h
  | cons e l =>
      refine ⟨e.1, e.2, AList.mem_lookup_iff.mpr ?_⟩
      rw [hl]
      exact List.mem_cons_self

theorem notMem_iff {t : Table κ α} {k : κ} : k ∉ t ↔ t.lookup k = none :=
  AList.lookup_eq_none.symm

theorem mem_of_lookup {t : Table κ α} {k : κ} {a : α} (h : t.lookup k = some a) : k ∈ t := by
  rw [← AList.lookup_isSome, h]
  rfl

theorem lookup_insert_eq (t : Table κ α) (k j : κ) (a : α) :
    (t.insert k a).lookup j = if j = k then some a else t.lookup j := by
  split
  · subst j
    exact AList.lookup_insert t
  · exact AList.lookup_insert_ne ‹_›

theorem lookup_erase_eq (t : Table κ α) (k j : κ) :
    (t.erase k).lookup j = if j = k then none else t.lookup j := by
  split
  · subst j
    exact AList.lookup_erase k t
  · exact AList.lookup_erase_ne ‹_›

theorem lookup_mapValues (f : α → α) (t : Table κ α) (k : κ) :
    (t.mapValues f).lookup k = (t.lookup k).map f := by
  apply Option.ext
  intro b
  constructor
  · intro h
    have hmem := AList.mem_lookup_iff.mp h
    obtain ⟨e, he, heq⟩ := List.mem_map.mp hmem
    obtain ⟨rfl, hb⟩ := Sigma.mk.inj heq
    have hlook : t.lookup e.1 = some e.2 := AList.mem_lookup_iff.mpr he
    rw [hlook]
    simpa using hb
  · intro h
    obtain ⟨a, ha, rfl⟩ := Option.map_eq_some_iff.mp h
    apply AList.mem_lookup_iff.mpr
    exact List.mem_map.mpr ⟨⟨k, a⟩, AList.mem_lookup_iff.mp ha, rfl⟩

theorem lookup_filterValues (p : α → Bool) (t : Table κ α) (k : κ) :
    (t.filterValues p).lookup k = (t.lookup k).filter p := by
  apply Option.ext
  intro b
  rw [Option.filter_eq_some_iff, ← Option.mem_def, AList.mem_lookup_iff,
    ← Option.mem_def, AList.mem_lookup_iff]
  simp [filterValues]

theorem Same.lookup_eq {t u : Table κ α} (h : t.Same u) (k : κ) :
    t.lookup k = u.lookup k :=
  AList.perm_lookup h

/-! ### Loading a list of values -/

/-- The lookups after a list of values was stored one after the other. -/
def overlay (key : α → κ) (l : List α) (f : κ → Option α) : κ → Option α :=
  l.foldl (fun f a ↦ Function.update f (key a) (some a)) f

theorem lookup_insert_update (t : Table κ α) (k : κ) (a : α) :
    (t.insert k a).lookup = Function.update t.lookup k (some a) := by
  funext j
  rw [lookup_insert_eq, Function.update_apply]

theorem lookup_foldl_insert (key : α → κ) (l : List α) (t : Table κ α) :
    (l.foldl (fun t a ↦ t.insert (key a) a) t).lookup = overlay key l t.lookup := by
  induction l generalizing t with
  | nil => rfl
  | cons a l ih =>
      rw [List.foldl_cons, ih, lookup_insert_update]
      rfl

/-- Inserting every item whose key is not there yet keeps the first item of each key. -/
theorem lookup_foldl_first {ι : Type*} {step : Table κ α → ι → Table κ α} (key : ι → κ)
    (value : ι → α) (hold : ∀ t e a, t.lookup (key e) = some a → step t e = t)
    (hnew : ∀ t e, t.lookup (key e) = none → step t e = t.insert (key e) (value e)) (l : List ι)
    (t : Table κ α) (k : κ) :
    (l.foldl step t).lookup k =
      (t.lookup k).or ((l.find? fun e ↦ decide (key e = k)).map value) := by
  induction l generalizing t with
  | nil => simp
  | cons e l ih =>
      rw [List.foldl_cons, ih, List.find?_cons]
      cases ht : t.lookup (key e) with
      | some a =>
          rw [hold t e a ht]
          by_cases hk : key e = k
          · subst hk
            rw [ht, Option.some_or, Option.some_or]
          · simp only [hk, decide_false]
      | none =>
          rw [hnew t e ht, lookup_insert_eq]
          by_cases hk : key e = k
          · subst hk
            simp only [if_true, ht, decide_true, Option.map_some, Option.some_or, Option.none_or]
          · simp only [hk, decide_false, if_neg fun h : k = key e ↦ hk h.symm]

/-- A value found after loading was loaded or was there before. -/
theorem overlay_cases {key : α → κ} {l : List α} {f : κ → Option α} {k : κ} {a : α}
    (h : overlay key l f k = some a) : (a ∈ l ∧ key a = k) ∨ f k = some a := by
  induction l generalizing f with
  | nil => exact .inr h
  | cons b l ih =>
      rcases ih (f := Function.update f (key b) (some b)) h with ⟨hmem, hk⟩ | hf
      · exact .inl ⟨List.mem_cons_of_mem _ hmem, hk⟩
      · rw [Function.update_apply] at hf
        split at hf
        · rename_i hk
          obtain rfl := Option.some.inj hf
          exact .inl ⟨List.mem_cons_self, hk.symm⟩
        · exact .inr hf

theorem overlay_of_notMem {key : α → κ} {l : List α} {f : κ → Option α} {k : κ}
    (h : ∀ a ∈ l, key a ≠ k) : overlay key l f k = f k := by
  induction l generalizing f with
  | nil => rfl
  | cons b l ih =>
      have hb : k ≠ key b := fun hk ↦ h b List.mem_cons_self hk.symm
      refine (ih (f := Function.update f (key b) (some b)) fun a ha ↦
        h a (List.mem_cons_of_mem _ ha)).trans ?_
      rw [Function.update_apply, if_neg hb]

theorem overlay_of_mem {key : α → κ} {l : List α} {f : κ → Option α} {a : α} (hmem : a ∈ l)
    (hinj : ∀ b ∈ l, key b = key a → b = a) : overlay key l f (key a) = some a := by
  induction l generalizing f with
  | nil => cases hmem
  | cons b l ih =>
      by_cases hin : a ∈ l
      · exact ih hin fun c hc ↦ hinj c (List.mem_cons_of_mem _ hc)
      · have hb : b = a := by
          rcases List.mem_cons.mp hmem with rfl | h
          · rfl
          · exact absurd h hin
        subst hb
        refine (overlay_of_notMem (f := Function.update f (key b) (some b)) ?_).trans ?_
        · intro c hc hkey
          rw [hinj c (List.mem_cons_of_mem _ hc) hkey] at hc
          exact hin hc
        · rw [Function.update_apply, if_pos rfl]

theorem overlay_append (key : α → κ) (l l' : List α) (f : κ → Option α) :
    overlay key (l ++ l') f = overlay key l' (overlay key l f) :=
  List.foldl_append

/-- At every key a list decides the lookup, or leaves it as it was. -/
theorem overlay_decides (key : α → κ) (l : List α) (k : κ) :
    (∀ f, overlay key l f k = f k) ∨ ∃ a ∈ l, key a = k ∧ ∀ f, overlay key l f k = some a := by
  induction l with
  | nil => exact .inl fun _ ↦ rfl
  | cons b l ih =>
      rcases ih with hkeep | ⟨a, ha, hk, hwrite⟩
      · by_cases hb : k = key b
        · refine .inr ⟨b, List.mem_cons_self, hb.symm, fun f ↦ ?_⟩
          refine (hkeep (Function.update f (key b) (some b))).trans ?_
          rw [Function.update_apply, if_pos hb]
        · refine .inl fun f ↦ ?_
          refine (hkeep (Function.update f (key b) (some b))).trans ?_
          rw [Function.update_apply, if_neg hb]
      · exact .inr ⟨a, List.mem_cons_of_mem _ ha, hk, fun f ↦ hwrite _⟩

/-- A key that the list has is found. -/
theorem overlay_ne_none {key : α → κ} {l : List α} {a : α} (h : a ∈ l) (f : κ → Option α) :
    overlay key l f (key a) ≠ none := by
  induction l generalizing f with
  | nil => cases h
  | cons c l ih =>
      by_cases hin : a ∈ l
      · exact ih hin _
      · have hc : a = c := (List.mem_cons.mp h).resolve_right hin
        subst hc
        rcases overlay_decides key l (key a) with hkeep | ⟨b, -, -, hwrite⟩
        · refine ne_of_eq_of_ne (hkeep (Function.update f (key a) (some a))) ?_
          rw [Function.update_apply, if_pos rfl]
          exact Option.some_ne_none a
        · exact ne_of_eq_of_ne (hwrite _) (Option.some_ne_none b)

/-- What is live can be read off a list: the last entry for a key decides, and entries for
other keys do not matter. -/
def Tells {β : Type*} (key : α → κ) (value : α → β) (l : List α) (live : κ → Option β) : Prop :=
  ∀ k b, live k = some b → (overlay key l (fun _ ↦ none) k).map value = some b

namespace Tells

variable {β : Type*} {key : α → κ} {value : α → β} {l l' : List α} {live live' : κ → Option β}

theorem mono (h : Tells key value l live) (hle : ∀ k b, live' k = some b → live k = some b) :
    Tells key value l live' :=
  fun k b hb ↦ h k b (hle k b hb)

/-- More entries, all of which are live. -/
theorem append (h : Tells key value l live) (hnew : ∀ a ∈ l', live' (key a) = some (value a))
    (hle : ∀ k b, live' k = some b → live k = some b ∨ ∃ a ∈ l', key a = k) :
    Tells key value (l ++ l') live' := by
  intro k b hb
  rw [overlay_append]
  rcases overlay_decides key l' k with hkeep | ⟨a, ha, rfl, hwrite⟩
  · rw [hkeep]
    rcases hle k b hb with hlive | ⟨a, ha, rfl⟩
    · exact h k b hlive
    · exact absurd (hkeep fun _ ↦ none) (overlay_ne_none ha _)
  · rw [hwrite, Option.map_some, ← hb, hnew a ha]

/-- Other entries at the front. -/
theorem replace {front front' : List α} (hfront : Tells key value front live)
    (h : Tells key value (front' ++ l) live) : Tells key value (front ++ l) live := by
  intro k b hb
  rw [overlay_append]
  rcases overlay_decides key l k with hkeep | ⟨a, -, -, hwrite⟩
  · rw [hkeep]
    exact hfront k b hb
  · have hold := h k b hb
    rw [overlay_append, hwrite] at hold
    rw [hwrite]
    exact hold

/-- The list tells exactly what is live, if it has no entry for another key. -/
theorem exact_of_keys (h : Tells key value l live) (hkeys : ∀ a ∈ l, live (key a) ≠ none) (k : κ) :
    (overlay key l (fun _ ↦ none) k).map value = live k := by
  cases hk : live k with
  | some b => exact h k b hk
  | none =>
      have hnone : overlay key l (fun _ ↦ none) k = none := by
        apply overlay_of_notMem
        rintro a ha rfl
        exact hkeys a ha hk
      rw [hnone]
      rfl

end Tells

/-- Loading what is kept of the values of a table, when it tells the keys, gives what is kept
of the table. -/
theorem overlay_values {β : Type*} (key : β → κ) (f : α → β) {t : Table κ α}
    (hkey : ∀ k a, t.lookup k = some a → key (f a) = k) :
    overlay key (t.toList.map fun e ↦ f e.2) (fun _ ↦ none) = fun k ↦ (t.lookup k).map f := by
  have hmem : ∀ b, b ∈ t.toList.map (fun e ↦ f e.2) →
      ∃ a, t.lookup (key b) = some a ∧ f a = b := by
    intro b hb
    obtain ⟨⟨k, a⟩, ha, rfl⟩ := List.mem_map.mp hb
    have ha := mem_toList.mp ha
    exact ⟨a, by rw [hkey k a ha]; exact ha, rfl⟩
  funext k
  cases hk : t.lookup k with
  | none =>
      apply overlay_of_notMem
      rintro b hb rfl
      obtain ⟨a, ha, -⟩ := hmem b hb
      rw [ha] at hk
      cases hk
  | some a =>
      obtain rfl := hkey k a hk
      refine overlay_of_mem (List.mem_map.mpr ⟨(key (f a), a), mem_toList.mpr hk, rfl⟩) ?_
      intro b hb hkey'
      obtain ⟨a', ha', rfl⟩ := hmem b hb
      rw [hkey', hk] at ha'
      rw [Option.some.inj ha']

/-! ### Totals -/

theorem total_insert (g : κ → α → ℕ) (t : Table κ α) (k : κ) (a : α) :
    total g (t.insert k a) = g k a + total g (t.erase k) := by
  simp only [total, AList.entries_insert, List.map_cons, List.sum_cons]
  rfl

theorem total_erase_of_lookup (g : κ → α → ℕ) {t : Table κ α} {k : κ} {a : α}
    (h : t.lookup k = some a) : total g t = g k a + total g (t.erase k) := by
  have hmem : (⟨k, a⟩ : Sigma fun _ ↦ α) ∈ t.entries := AList.mem_lookup_iff.mp h
  have hkey : k ∈ t.entries.keys := List.mem_keys_of_mem hmem
  obtain ⟨b, l₁, l₂, hnot, hl, hk⟩ := List.exists_of_kerase hkey
  have hb : b = a := by
    have hmem' : (⟨k, b⟩ : Sigma fun _ ↦ α) ∈ t.entries := by simp [hl]
    have h' : t.lookup k = some b := AList.mem_lookup_iff.mpr hmem'
    exact Option.some.inj (h'.symm.trans h)
  subst b
  have herase : (t.erase k).entries = l₁ ++ l₂ := hk
  simp only [total, herase, hl, List.map_append, List.map_cons, List.sum_append, List.sum_cons]
  omega

theorem total_erase_of_notMem (g : κ → α → ℕ) {t : Table κ α} {k : κ}
    (h : t.lookup k = none) : total g (t.erase k) = total g t := by
  have hkey : k ∉ t.entries.keys := fun hk ↦ by
    have := AList.lookup_eq_none.mp h
    exact this (AList.mem_keys.mpr hk)
  have herase : (t.erase k).entries = t.entries := List.kerase_of_notMem_keys hkey
  simp only [total, herase]

theorem total_insert_of_notMem (g : κ → α → ℕ) {t : Table κ α} {k : κ} (a : α)
    (h : t.lookup k = none) : total g (t.insert k a) = g k a + total g t := by
  rw [total_insert, total_erase_of_notMem g h]

/-- Replacing an entry exchanges its summand. -/
theorem total_replace (g : κ → α → ℕ) {t : Table κ α} {k : κ} {a : α} (b : α)
    (h : t.lookup k = some a) :
    total g (t.insert k b) + g k a = total g t + g k b := by
  rw [total_insert, total_erase_of_lookup g h]
  omega

theorem le_total (g : κ → α → ℕ) {t : Table κ α} {k : κ} {a : α}
    (h : t.lookup k = some a) : g k a ≤ total g t := by
  rw [total_erase_of_lookup g h]
  omega

theorem total_congr {g g' : κ → α → ℕ} {t : Table κ α}
    (h : ∀ k a, t.lookup k = some a → g k a = g' k a) : total g t = total g' t := by
  unfold total
  congr 1
  apply List.map_congr_left
  intro e he
  exact h e.1 e.2 (AList.mem_lookup_iff.mpr he)

theorem total_mono {g g' : κ → α → ℕ} {t : Table κ α}
    (h : ∀ k a, t.lookup k = some a → g k a ≤ g' k a) : total g t ≤ total g' t := by
  unfold total
  apply List.sum_le_sum
  intro e he
  exact h e.1 e.2 (AList.mem_lookup_iff.mpr he)

theorem total_eq_zero_iff {g : κ → α → ℕ} {t : Table κ α} :
    total g t = 0 ↔ ∀ k a, t.lookup k = some a → g k a = 0 := by
  constructor
  · intro h k a hk
    have := le_total g hk
    omega
  · intro h
    rw [total_congr h, total_zero]

/-- Summands that are nowhere larger and add up to the same are the same. -/
theorem total_eq_of_le {g g' : κ → α → ℕ} {t : Table κ α}
    (hle : ∀ k a, t.lookup k = some a → g k a ≤ g' k a) (h : total g' t ≤ total g t) {k : κ}
    {a : α} (hk : t.lookup k = some a) : g k a = g' k a := by
  have hsplit : total g' t = total g t + total (fun k a ↦ g' k a - g k a) t := by
    rw [← total_add]
    refine total_congr fun k a hk ↦ ?_
    have := hle k a hk
    omega
  have hzero : total (fun k a ↦ g' k a - g k a) t = 0 := by omega
  have hdiff := total_eq_zero_iff.mp hzero k a hk
  have := hle k a hk
  omega

/-- A sum with one summand. -/
theorem total_single {t : Table κ α} {key : κ} {a : α} (h : t.lookup key = some a) (n : ℕ) :
    total (fun k _ ↦ if key = k then n else 0) t = n := by
  have hrest : total (fun k _ ↦ if key = k then n else 0) (t.erase key) = 0 := by
    rw [total_eq_zero_iff]
    intro k b hk
    rw [if_neg]
    rintro rfl
    rw [lookup_erase_eq, if_pos rfl] at hk
    cases hk
  rw [total_erase_of_lookup _ h, hrest, if_pos rfl, Nat.add_zero]

theorem total_mem (t : Table κ α) (key : κ) (n : ℕ) :
    total (fun k _ ↦ if key = k then n else 0) t = if key ∈ t then n else 0 := by
  split
  · rename_i hmem
    obtain ⟨a, ha⟩ := mem_keys_iff.mp (AList.mem_keys.mp hmem)
    exact total_single ha n
  · rename_i hnot
    rw [total_eq_zero_iff]
    intro k a hk
    rw [if_neg]
    rintro rfl
    exact hnot (mem_of_lookup hk)

/-- What each entry contributes, the entry under the same key of another table contributes. -/
theorem total_le_of_sub {β : Type*} {g : κ → α → ℕ} {f : κ → β → ℕ} {t : Table κ α}
    {u : Table κ β} (h : ∀ k a, t.lookup k = some a → g k a ≠ 0 →
      ∃ b, u.lookup k = some b ∧ g k a ≤ f k b) : total g t ≤ total f u := by
  have hspread : total g t ≤ total (fun k _ ↦ total (fun j b ↦ if k = j then f j b else 0) u) t := by
    refine total_mono fun k a hk ↦ ?_
    by_cases hzero : g k a = 0
    · omega
    · obtain ⟨b, hb, hle⟩ := h k a hk hzero
      have hterm := le_total (fun j b ↦ if k = j then f j b else 0) hb
      rw [if_pos rfl] at hterm
      exact hle.trans hterm
  refine hspread.trans ?_
  rw [total_comm]
  refine total_mono fun j b _ ↦ ?_
  have hmem := total_mem t j (f j b)
  have heq : total (fun k _ ↦ if k = j then f j b else 0) t =
      total (fun k _ ↦ if j = k then f j b else 0) t :=
    total_congr fun k _ _ ↦ by simp only [eq_comm]
  rw [heq, hmem]
  split
  · exact Nat.le_refl _
  · exact Nat.zero_le _

/-- A sum over some of the entries, read one by one. -/
theorem sum_lookups (g : α → ℕ) (t : Table κ α) {keys : List κ} (h : keys.Nodup) :
    ((keys.filterMap t.lookup).map g).sum = total (fun k a ↦ if k ∈ keys then g a else 0) t := by
  induction keys with
  | nil => simp [total_zero]
  | cons key keys ih =>
      obtain ⟨hkey, h⟩ := List.nodup_cons.mp h
      have hsplit : total (fun k a ↦ if k ∈ key :: keys then g a else 0) t =
          total (fun k a ↦ if key = k then g a else 0) t +
            total (fun k a ↦ if k ∈ keys then g a else 0) t := by
        rw [← total_add]
        refine total_congr fun k a _ ↦ ?_
        by_cases hk : key = k
        · subst hk
          simp [hkey]
        · simp [hk, Ne.symm hk]
      rw [hsplit, ← ih h]
      cases hl : t.lookup key with
      | none =>
          rw [List.filterMap_cons_none (f := fun k ↦ t.lookup k) hl, total_eq_zero_iff.mpr,
            Nat.zero_add]
          intro k a hk
          rw [if_neg]
          rintro rfl
          rw [hl] at hk
          cases hk
      | some a =>
          have hone : total (fun k b ↦ if key = k then g b else 0) t = g a := by
            refine Eq.trans (total_congr fun k b hk ↦ ?_) (total_single hl (g a))
            split
            · rename_i heq
              subst heq
              rw [Option.some.inj (hl.symm.trans hk)]
            · rfl
          rw [List.filterMap_cons_some (f := fun k ↦ t.lookup k) hl, List.map_cons, List.sum_cons, hone]

/-- A total of what is kept of the values depends on what is kept only. -/
theorem total_of_lookup_map {β γ : Type*} (f : α → β) (f' : γ → β) (g : κ → β → ℕ)
    {t : Table κ α} {u : Table κ γ} (h : ∀ k, (t.lookup k).map f = (u.lookup k).map f') :
    total (fun k a ↦ g k (f a)) t = total (fun k a ↦ g k (f' a)) u := by
  induction t using AList.insertRec generalizing u with
  | H0 =>
      refine (total_empty _).trans (total_eq_zero_iff.mpr ?_).symm
      intro k a ha
      have hk := h k
      rw [ha, AList.lookup_empty] at hk
      cases hk
  | IH k a t hnew ih =>
      have hk := h k
      rw [lookup_insert_eq, if_pos rfl, Option.map_some] at hk
      obtain ⟨b, hb, hba⟩ := Option.map_eq_some_iff.mp hk.symm
      have hnew := notMem_iff.mp hnew
      rw [total_insert_of_notMem _ a hnew, total_erase_of_lookup _ hb, hba]
      refine congrArg (_ + ·) (ih fun j ↦ ?_)
      rw [lookup_erase_eq]
      by_cases hj : j = k
      · rw [if_pos hj, hj, hnew, Option.map_none, Option.map_none]
      · have hj' := h j
        rw [lookup_insert_eq, if_neg hj] at hj'
        rw [if_neg hj]
        exact hj'

end Table
