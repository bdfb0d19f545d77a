import BufferFabric.Ancestry
import BufferFabric.Holdings
import BufferFabric.Reservations
import Mathlib.Algebra.BigOperators.Ring.Finset

/-!
# Sequences of partial releases

A partial release returns a rounded share of the borrowed units with the units it releases, and
keeps the rest for the releases after it. The share is computed from a product in 64-bit
arithmetic; as long as that product leaves a remainder that owns what it holds, the parts add up
to the whole.
-/

namespace BufferFabric

open Outcome

/-! ### Fair splits -/

namespace AllocationRecord

/-- The borrowed units that stay with the rest of the allocation fit in it: the whole is
released, or what the product of the split loses to wrapping is no more than what the rounding
has to spare. -/
def SplitsFairly (r : AllocationRecord) (units : UInt64) : Prop :=
  units = r.units ∨
    r.borrowUnits.toNat * units.toNat / 18446744073709551616 * 18446744073709551616 ≤
      (r.units.toNat - r.borrowUnits.toNat) * (r.units.toNat - units.toNat)

instance (r : AllocationRecord) (units : UInt64) : Decidable (r.SplitsFairly units) :=
  inferInstanceAs (Decidable (_ ∨ _))

variable {r : AllocationRecord} {units : UInt64} {s : Impl}

/-- What is left of an allocation, in numbers. -/
theorem remainder_values (hb : r.borrowUnits.toNat ≤ r.units.toNat)
    (hle : units.toNat ≤ r.units.toNat) :
    (s.remainder r units).pool = r.pool ∧
      (s.remainder r units).units.toNat = r.units.toNat - units.toNat ∧
      (s.remainder r units).borrowUnits.toNat =
        r.borrowUnits.toNat - (Impl.releasedBorrow r units).toNat ∧
      (units ≠ r.units → (s.remainder r units).state = r.state ∧
        (s.remainder r units).lender = r.lender) := by
  have hunits : (r.units - units).toNat = r.units.toNat - units.toNat := Word.toNat_sub hle
  have hborrow : (r.borrowed - Impl.releasedBorrow r units).toNat =
      r.borrowUnits.toNat - (Impl.releasedBorrow r units).toNat := by
    rw [Word.toNat_sub (releasedBorrow_le (Word.le_iff.mpr hle)), borrowed_eq hb]
  unfold Impl.remainder
  dsimp only
  split
  · rename_i hzero
    have hall : units = r.units := by
      rw [Word.eq_zero_iff, hunits] at hzero
      exact Word.eq_of_toNat (Nat.le_antisymm hle (Nat.le_of_sub_eq_zero hzero))
    refine ⟨rfl, hunits, ?_, fun hne ↦ absurd hall hne⟩
    subst hall
    have hreturned : Impl.releasedBorrow r r.units = r.borrowed := if_pos rfl
    dsimp only
    rw [hreturned, borrowed_eq hb, Nat.sub_self]
    rfl
  · exact ⟨rfl, hunits, hborrow, fun _ ↦ ⟨rfl, rfl⟩⟩

/-- No more is returned to the lender than was borrowed, or than is released. -/
theorem releasedBorrow_bound (hb : r.borrowUnits.toNat ≤ r.units.toNat)
    (hle : units.toNat ≤ r.units.toNat) :
    (Impl.releasedBorrow r units).toNat ≤ r.borrowUnits.toNat ∧
      (Impl.releasedBorrow r units).toNat ≤ units.toNat := by
  have hall := releasedBorrow_le (r := r) (Word.le_iff.mpr hle)
  rw [borrowed_eq hb] at hall
  refine ⟨hall, ?_⟩
  unfold Impl.releasedBorrow
  rw [borrowed_eq hb]
  split
  · rename_i h
    rw [h]
    exact hb
  · rw [UInt64.toNat_div, UInt64.toNat_mul]
    exact Nat.div_le_of_le_mul ((Nat.mod_le _ _).trans (Nat.mul_le_mul_right _ hb))

/-- The rest of the allocation covers its borrowed units exactly when the split is fair. -/
theorem remainder_fair_iff (hb : r.borrowUnits.toNat ≤ r.units.toNat)
    (hle : units.toNat ≤ r.units.toNat) :
    (s.remainder r units).borrowUnits.toNat ≤ (s.remainder r units).units.toNat ↔
      r.SplitsFairly units := by
  obtain ⟨-, hunits, hborrow, -⟩ := remainder_values (s := s) hb hle
  rw [hunits, hborrow]
  unfold SplitsFairly Impl.releasedBorrow
  by_cases hall : units = r.units
  · rw [if_pos hall, borrowed_eq hb, hall, Nat.sub_self]
    simp
  · have hlt : units.toNat < r.units.toNat := by
      have hne : units.toNat ≠ r.units.toNat := fun h ↦ hall (Word.eq_of_toNat h)
      omega
    rw [if_neg hall, UInt64.toNat_div, UInt64.toNat_mul, borrowed_eq hb, or_iff_right hall]
    exact Word.sub_mod_div_le_iff 18446744073709551616 hb hlt

end AllocationRecord

/-! ### What a release takes -/

namespace Impl

variable {s : Impl}

def row (s : Impl) (p : PoolId) (f : Row) : ℕ := ((s.pools.lookup p).map (·.read f)).getD 0

/-- The units that are returned are there to be taken: the lender is looked up after its borrower
gave its part back. -/
theorem applyReleaseUnits_bounds {r : AllocationRecord} {entry : PoolEntry}
    (h : (s.applyReleaseUnits r.pool entry r).1 = .ok ()) :
    r.units.toNat - r.borrowed.toNat ≤ entry.ownUsage.toNat ∧
      r.borrowed.toNat ≤ entry.borrowedIn.toNat ∧
      (r.borrowed ≠ 0 → ∃ l,
        (s.pools.insert r.pool ((entry.settleSplit r).debitUsage r)).lookup r.lender = some l ∧
          r.borrowed.toNat ≤ l.lentOut.toNat ∧ r.borrowed.toNat ≤ l.ownUsage.toNat) := by
  unfold applyReleaseUnits at h
  split at h
  · cases h
  split at h
  · cases h
  rename_i hown
  split at h
  · cases h
  rename_i hborrowed
  split at h
  · cases h
  rename_i e₁ h₁
  split at h
  · cases h
  rename_i e₂ h₂
  obtain rfl := PoolEntry.settleSplit_eq h₁ h₂
  dsimp only at h
  split at h
  · cases h
  rename_i t hlender
  rw [Word.lt_iff, Nat.not_lt] at hown hborrowed
  rw [Word.toNat_sub r.borrowed_le] at hown
  refine ⟨hown, hborrowed, fun hb ↦ ?_⟩
  unfold debitLender at hlender
  rw [if_neg hb] at hlender
  split at hlender
  · cases hlender
  rename_i l hl
  split at hlender
  · cases hlender
  rename_i hcovered
  rw [not_or, Word.lt_iff, Word.lt_iff, Nat.not_lt, Nat.not_lt] at hcovered
  refine ⟨l, ?_, hcovered⟩
  split at hl
  · exact hl
  · cases hl

/-- A release that answers a new attempt with a decision has returned its units. -/
theorem releaseLocked_returned {q : ReleaseRequest} {d : Decision} {r : AllocationRecord}
    {units : UInt64} (hok : (s.releaseLocked q).1 = .ok d)
    (hnew : s.attempts.lookup q.attempt = none)
    (hr : s.allocations.lookup q.allocation = some r) (hholds : r.state.holdsUnits = true)
    (hamount : releaseAmount q r = .ok units) :
    ∃ entry, s.pools.lookup r.pool = some entry ∧
      (s.applyReleaseUnits r.pool entry (s.releasedPart r units)).1 = .ok () := by
  unfold releaseLocked at hok
  split at hok
  · cases hok
  · rename_i previous t hadm
    obtain ⟨hprev, -⟩ := admitTarget_ok hadm
    cases hnew.symm.trans (remembered_of_replay hprev)
  rename_i t hadm
  obtain ⟨-, hr', hl, -⟩ := admitTarget_ok hadm
  have ht : t.record = r := Option.some.inj (hr'.symm.trans hr)
  rw [ht] at hl hok
  refine ⟨t.entry, hl, ?_⟩
  split at hok
  · cases hok
  split at hok
  · rename_i hterminal
    exfalso
    cases hs : r.state <;>
      simp_all [AllocationState.isTerminal, AllocationState.holdsUnits]
  split at hok
  · cases hok
  rename_i u hu
  obtain rfl := Except.ok.inj (hu.symm.trans hamount)
  unfold applyRelease at hok
  rw [ht] at hok
  dsimp only at hok
  split at hok
  · cases hok
  · rename_i u' s' happly
    rw [happly]

/-- What a release of a new attempt did: it took the share of the released part from every row
and left the remainder. -/
structure ReleaseMade (s : Impl) (r : AllocationRecord) (k : AllocationId) (units : UInt64)
    (t : Impl) : Prop where
  record : t.allocations.lookup k = some (s.remainder r units)
  rows : ∀ p, t.pools.lookup p =
    (s.pools.lookup p).map (PoolEntry.returned p (s.releasedPart r units))
  covered : ∃ entry, s.pools.lookup r.pool = some entry ∧
    (s.applyReleaseUnits r.pool entry (s.releasedPart r units)).1 = .ok ()

theorem exec_released {c : Call} {q : ReleaseRequest} {d : Decision} {r : AllocationRecord}
    {units : UInt64} (hop : c.op = .release q) (hok : (s.exec c).1 = .ok (.decision d))
    (hnew : s.attempts.lookup q.attempt = none)
    (hr : s.allocations.lookup q.allocation = some r) (hholds : r.state.holdsUnits = true)
    (hamount : releaseAmount q r = .ok units) :
    (s.enter c).ReleaseMade r q.allocation units (s.exec c).2 := by
  have hexec : s.exec c = reply .decision ((s.enter c).releaseLocked q) := by
    unfold exec
    rw [hop]
    rfl
  rw [hexec] at hok ⊢
  have hok : ((s.enter c).releaseLocked q).1 = .ok d := by
    unfold reply at hok
    cases hres : ((s.enter c).releaseLocked q).1 with
    | error e =>
        rw [hres] at hok
        cases hok
    | ok d' =>
        rw [hres] at hok
        rw [Reply.decision.inj (Except.ok.inj hok)]
  have hcovered := releaseLocked_returned (s := s.enter c) hok hnew hr hholds hamount
  have hend := (s.enter c).releaseLocked_end q
  rw [hok] at hend
  change ReleaseMade _ _ _ _ ((s.enter c).releaseLocked q).2
  generalize ((s.enter c).releaseLocked q).2 = t at hend
  cases hend with
  | replayed hprev => cases hnew.symm.trans (remembered_of_replay hprev)
  | idle hprev hr' hno =>
      obtain rfl := Option.some.inj (hr'.symm.trans hr)
      cases hholds.symm.trans hno
  | released hprev hr' hholds' hl hamount' hpools =>
      obtain rfl := Option.some.inj (hr'.symm.trans hr)
      obtain rfl := Except.ok.inj (hamount'.symm.trans hamount)
      refine ⟨?_, fun p ↦ ?_, hcovered⟩
      · rw [allocations_recordAttempt]
        exact (Table.lookup_insert_eq ..).trans (if_pos rfl)
      · obtain ⟨order, attempts, hframe⟩ := recordAttempt_frame
          (advanceDecision (releasedState _ _ _ _ _ _)) _
        rw [hframe]
        exact hpools p

theorem ReleaseMade.row {t : Impl} {r : AllocationRecord} {k : AllocationId} {units : UInt64}
    (h : s.ReleaseMade r k units t) (hholds : r.state.holdsUnits = true) {p : PoolId} {f : Row}
    (hle : (s.releasedPart r units).contrib p f ≤ s.row p f) :
    t.row p f + (s.releasedPart r units).contrib p f = s.row p f := by
  have hp := h.rows p
  unfold Impl.row at hle ⊢
  rw [hp]
  cases he : s.pools.lookup p with
  | none =>
      rw [he] at hle
      simpa using hle
  | some e =>
      rw [he] at hle
      exact PoolEntry.read_returned hholds hle

/-- The pool and the lender lose what the released part held of each. -/
theorem ReleaseMade.falls {t : Impl} {r : AllocationRecord} {k : AllocationId} {units : UInt64}
    (h : s.ReleaseMade r k units t) (hholds : r.state.holdsUnits = true)
    (hb : r.borrowUnits.toNat ≤ r.units.toNat) (hle : units.toNat ≤ r.units.toNat)
    (hne : r.borrowUnits ≠ 0 → r.lender ≠ r.pool) :
    t.row r.pool .own + (units.toNat - (releasedBorrow r units).toNat) = s.row r.pool .own ∧
      t.row r.pool .borrowed + (releasedBorrow r units).toNat = s.row r.pool .borrowed ∧
      (r.lender ≠ r.pool →
        t.row r.lender .lent + (releasedBorrow r units).toNat = s.row r.lender .lent ∧
          t.row r.lender .own + (releasedBorrow r units).toNat = s.row r.lender .own) := by
  obtain ⟨hbb, hbu⟩ := AllocationRecord.releasedBorrow_bound hb hle
  obtain ⟨entry, hl, happly⟩ := h.covered
  obtain ⟨hown, hborrowed, hlender⟩ := applyReleaseUnits_bounds happly
  have hpart : (s.releasedPart r units).borrowed = releasedBorrow r units :=
    AllocationRecord.borrowed_eq hbu
  have hzero : (releasedBorrow r units).toNat ≠ 0 → r.borrowUnits ≠ 0 := by
    intro hnz
    rw [Word.ne_zero_iff]
    omega
  have hrow : ∀ f, s.row r.pool f = entry.read f := by
    intro f
    unfold Impl.row
    rw [hl]
    rfl
  have hcontrib : ∀ p f, (s.releasedPart r units).contrib p f =
      (if r.pool = p then (s.releasedPart r units).share f else 0) +
        (if r.lender = p then (s.releasedPart r units).lentShare f else 0) := fun p f ↦
    if_pos hholds
  rw [hpart] at hown hborrowed hlender
  refine ⟨?_, ?_, fun hdiff ↦ ?_⟩
  · have hshare : (s.releasedPart r units).contrib r.pool .own =
        units.toNat - (releasedBorrow r units).toNat := by
      rw [hcontrib, if_pos rfl]
      simp only [AllocationRecord.share, AllocationRecord.lentShare, hpart]
      split
      · rename_i heq
        have hnone : (releasedBorrow r units).toNat = 0 := by
          by_contra hnz
          exact hne (hzero hnz) heq
        rw [hnone, Nat.add_zero]
        rfl
      · rfl
    rw [← hshare]
    refine h.row hholds ?_
    rw [hshare, hrow]
    exact hown
  · have hshare : (s.releasedPart r units).contrib r.pool .borrowed =
        (releasedBorrow r units).toNat := by
      rw [hcontrib, if_pos rfl]
      simp [AllocationRecord.share, AllocationRecord.lentShare, hpart]
    have := h.row hholds (p := r.pool) (f := .borrowed) (by
      rw [hshare, hrow]
      exact hborrowed)
    rwa [hshare] at this
  · have hlent : (releasedBorrow r units).toNat ≤ s.row r.lender .lent ∧
        (releasedBorrow r units).toNat ≤ s.row r.lender .own := by
      by_cases hret : releasedBorrow r units = 0
      · rw [hret]
        exact ⟨Nat.zero_le _, Nat.zero_le _⟩
      · obtain ⟨l, hlook, hcovered⟩ := hlender hret
        have hlook : (s.pools.insert r.pool _).lookup r.lender = some l := hlook
        rw [Table.lookup_insert_eq, if_neg hdiff] at hlook
        unfold Impl.row
        rw [hlook]
        exact hcovered
    have hshare : ∀ f, (s.releasedPart r units).contrib r.lender f =
        (s.releasedPart r units).lentShare f := by
      intro f
      rw [hcontrib, if_neg (Ne.symm hdiff), if_pos rfl, Nat.zero_add]
    have hvalue : ∀ f, f = .lent ∨ f = .own →
        (s.releasedPart r units).lentShare f = (releasedBorrow r units).toNat := by
      rintro f (rfl | rfl) <;> simp only [AllocationRecord.lentShare, hpart]
    have hfall : ∀ f, f = .lent ∨ f = .own →
        (releasedBorrow r units).toNat ≤ s.row r.lender f →
          t.row r.lender f + (releasedBorrow r units).toNat = s.row r.lender f := by
      intro f hf hcov
      have hrowf := h.row hholds (p := r.lender) (f := f) (by rw [hshare, hvalue f hf]; exact hcov)
      rwa [hshare, hvalue f hf] at hrowf
    exact ⟨hfall _ (.inl rfl) hlent.1, hfall _ (.inr rfl) hlent.2⟩

end Impl

/-! ### What every holding keeps -/

/-- A holding holds something, owns what it does not borrow, and borrows from another pool. -/
structure AllocationRecord.Divisible (r : AllocationRecord) : Prop where
  pos : 0 < r.units.toNat
  borrow_le : r.borrowUnits.toNat ≤ r.units.toNat
  lender : r.borrowUnits ≠ 0 → r.lender ≠ r.pool

namespace Impl

variable {s t : Impl} {k : AllocationId}

def FairReleases (k : AllocationId) (s : Impl) (c : Call) : Prop :=
  ∀ q r units, c.op = .release q → q.allocation = k → s.allocations.lookup k = some r →
    r.state.holdsUnits = true → releaseAmount q r = .ok units → r.SplitsFairly units

def fairReleases (k : AllocationId) (s : Impl) (c : Call) : Bool :=
  match c.op with
  | .release q => decide (q.allocation ≠ k) || (s.allocations.lookup k).all fun r ↦
      !r.state.holdsUnits ||
        match releaseAmount q r with
        | .error _ => true
        | .ok units => decide (r.SplitsFairly units)
  | _ => true

theorem fairReleases_iff {c : Call} : fairReleases k s c = true ↔ FairReleases k s c := by
  unfold fairReleases FairReleases
  constructor
  · intro h q r units hop hq hr hholds hamount
    rw [hop] at h
    simpa [hq, hr, hholds, hamount] using h
  · intro h
    split
    · rename_i q hop
      by_cases hq : q.allocation = k
      · cases hr : s.allocations.lookup k with
        | none => simp [hq]
        | some r =>
            cases hholds : r.state.holdsUnits with
            | false => simp [hq, hholds]
            | true =>
                cases hamount : releaseAmount q r with
                | error e => simp [hq, hamount]
                | ok units => simp [hq, hamount, h q r units hop hq hr hholds hamount]
      · simp [hq]
    · rfl

instance (k : AllocationId) (s : Impl) (c : Call) : Decidable (FairReleases k s c) :=
  decidable_of_iff _ fairReleases_iff

/-- What is left of a fair split can be divided again. -/
theorem remainder_divisible {r : AllocationRecord} {units : UInt64} (hr : r.Divisible)
    (hle : units.toNat ≤ r.units.toNat) (hfair : r.SplitsFairly units)
    (hholds : (s.remainder r units).state.holdsUnits = true) : (s.remainder r units).Divisible := by
  obtain ⟨hpool, hunits, hborrow, hrest⟩ :=
    AllocationRecord.remainder_values (s := s) hr.borrow_le hle
  have hne : units ≠ r.units := by
    rintro rfl
    rw [AllocationRecord.remainder_all_state] at hholds
    cases hholds
  have hlt : units.toNat ≠ r.units.toNat := fun h ↦ hne (Word.eq_of_toNat h)
  refine ⟨by omega, (AllocationRecord.remainder_fair_iff hr.borrow_le hle).mpr hfair, fun hnz ↦ ?_⟩
  rw [(hrest hne).2, hpool]
  refine hr.lender ?_
  rw [Word.ne_zero_iff] at hnz ⊢
  omega

end Impl

/-! ### What every run keeps -/

/-- While it holds units, the record under the id holds one at least and no less than it borrows. -/
def AllocationRecord.CoveredAt (k : AllocationId) (r : AllocationRecord) : Prop :=
  r.id = k → r.state.holdsUnits = true → 0 < r.units.toNat ∧ r.borrowUnits.toNat ≤ r.units.toNat

theorem AllocationRecord.coveredAt_of_ended {k : AllocationId} {r : AllocationRecord}
    (h : r.state.holdsUnits = false) : r.CoveredAt k := by
  intro _ hholds
  cases hholds.symm.trans h

/-- A grant is covered, and what keeps its units stays so. -/
theorem AllocationRecord.coveredAt_inherited (k : AllocationId) : Inherited (CoveredAt k) False := by
  rintro s r hk hs hstems hid hholds
  cases hstems with
  | ended hends => cases hholds.symm.trans hends
  | granted hfits => exact ⟨hfits.pos, hfits.borrow_le⟩
  | kept hr hholds₀ hshare =>
      rw [hshare.units, hshare.borrowUnits]
      exact hs _ _ hr (hshare.id.symm.trans hid) hholds₀
  | left hpart => exact hpart.elim

section

variable {k : AllocationId} {s : Impl}

/-- Only a release leaves a part of an allocation. -/
theorem Impl.Among.exec_of_ne {c : Call} (hop : ∀ q, c.op ≠ .release q)
    (hs : (s.enter c).Among (AllocationRecord.CoveredAt k)) :
    (s.exec c).2.Among (AllocationRecord.CoveredAt k) := by
  refine hs.exec fun t a hallow ↦ ?_
  have hnone : a.1.Parts → False := by
    obtain ⟨l, w⟩ := a
    intro hparts
    cases l with
    | release r units =>
        obtain ⟨q, hq, -⟩ := hallow
        exact hop q hq
    | lostRelease =>
        obtain ⟨q, hq⟩ := hallow
        exact hop q hq
    | _ => exact hparts
  rw [eq_false hnone]
  exact AllocationRecord.coveredAt_inherited k

/-- What a fair release leaves is covered. -/
theorem Impl.remainder_coveredAt {r : AllocationRecord} {units : UInt64}
    (hr : r.CoveredAt k) (hholds : r.state.holdsUnits = true) (hle : units.toNat ≤ r.units.toNat)
    (hfair : r.id = k → r.SplitsFairly units) : (s.remainder r units).CoveredAt k := by
  intro hid hleft
  rw [Impl.remainder_id] at hid
  obtain ⟨-, hborrow⟩ := hr hid hholds
  obtain ⟨-, hunits, -, -⟩ := AllocationRecord.remainder_values (s := s) hborrow hle
  have hne : units ≠ r.units := by
    rintro rfl
    rw [AllocationRecord.remainder_all_state] at hleft
    cases hleft
  have hlt : units.toNat ≠ r.units.toNat := fun h ↦ hne (Word.eq_of_toNat h)
  exact ⟨by omega, (AllocationRecord.remainder_fair_iff hborrow hle).mpr (hfair hid)⟩

/-- A fair release keeps the records covered, also where it fails after it has journaled. -/
theorem Impl.Among.exec_release {c : Call} {q : ReleaseRequest} (hop : c.op = .release q)
    (hfair : Impl.FairReleases k s c) (hs : (s.enter c).Among (AllocationRecord.CoveredAt k)) :
    (s.exec c).2.Among (AllocationRecord.CoveredAt k) := by
  have hstate : (s.exec c).2 = ((s.enter c).releaseLocked q).2 := by
    simp only [Impl.exec, hop]
    rfl
  have hkeyed := Impl.exec_keyed (s := s) hs.keyed c
  have hend := (s.enter c).releaseLocked_end q
  rw [hstate] at hkeyed ⊢
  generalize ((s.enter c).releaseLocked q).1 = result at hend
  generalize ((s.enter c).releaseLocked q).2 = t at hend hkeyed
  have hleft : ∀ {r : AllocationRecord} {units : UInt64},
      (s.enter c).allocations.lookup q.allocation = some r → r.state.holdsUnits = true →
      Impl.releaseAmount q r = .ok units →
      ((s.enter c).remainder r units).CoveredAt k := by
    intro r units hr hholds hamount
    refine Impl.remainder_coveredAt (hs.view _ _ hr) hholds (Impl.releaseAmount_ok hamount).2
      fun hid ↦ ?_
    have hq : q.allocation = k := (hs.keyed.allocations _ _ hr).symm.trans hid
    exact hfair q r units hop hq (hq ▸ hr) hholds hamount
  have hjournaled : ∀ {r : AllocationRecord} {units : UInt64} {pools : Table PoolId PoolEntry}
      {res : Except Status Unit} {u : Impl},
      (s.enter c).allocations.lookup q.allocation = some r → r.state.holdsUnits = true →
      Impl.releaseAmount q r = .ok units →
      { s.enter c with pools := pools }.journal
        (.allocation .released ((s.enter c).remainder r units)) = (res, u) →
      ∀ d ∈ u.store.disk :: u.store.trail, d.Among (AllocationRecord.CoveredAt k) := by
    intro r units pools res u hr hholds hamount hj
    refine Impl.journal_among hj hs.view hs.disks ?_
    rintro op r' ⟨⟩
    exact hleft hr hholds hamount
  have hput : ∀ {r : AllocationRecord} {units : UInt64},
      (s.enter c).allocations.lookup q.allocation = some r → r.state.holdsUnits = true →
      Impl.releaseAmount q r = .ok units → ∀ j r',
        ((s.enter c).allocations.insert q.allocation ((s.enter c).remainder r units)).lookup j =
          some r' → r'.CoveredAt k := by
    intro r units hr hholds hamount j r' hr'
    rcases lookup_insert_cases hr' with ⟨-, rfl⟩ | ⟨-, hr'⟩
    · exact hleft hr hholds hamount
    · exact hs.view j r' hr'
  cases hend with
  | rejected => exact ⟨hkeyed, hs.view, hs.disks⟩
  | replayed => exact ⟨hkeyed, hs.view, hs.disks⟩
  | idle =>
      rename_i r a d _ _ _ _ _ _
      obtain ⟨order, attempts, hframe⟩ := (s.enter c).advanceDecision.recordAttempt_frame a
      rw [hframe] at hkeyed ⊢
      exact ⟨hkeyed, hs.view, hs.disks⟩
  | broken => exact ⟨hkeyed, hs.view, hs.disks⟩
  | unlogged hr hholds hl hamount hpools hj =>
      refine ⟨hkeyed, ?_, hjournaled hr hholds hamount hj⟩
      rw [Impl.eq_of_journal hj]
      exact hs.view
  | unclosed hr hholds hl hamount hpools hj =>
      have hdisks := hjournaled hr hholds hamount hj
      exact ⟨hkeyed, hput hr hholds hamount, hdisks⟩
  | released hprev hr hholds hl hamount hpools hj =>
      rename_i r entry entry' units pools t a d _ _ _ _ _
      obtain ⟨order, attempts, hframe⟩ := Impl.recordAttempt_frame
        (Impl.advanceDecision (Impl.releasedState _ _ _ _ _ _)) a
      rw [hframe] at hkeyed ⊢
      have hdisks := hjournaled hr hholds hamount hj
      exact ⟨hkeyed, hput hr hholds hamount, hdisks⟩

end

/-- Every release of the allocation splits it fairly, also one that a crash interrupts. -/
def System.FairReleases (k : AllocationId) (y : System) (ev : Event) : Prop :=
  ∀ s c, y.live = some s → (ev = .called c ∨ ev = .crashed c) → Impl.FairReleases k s c

/-- In every run, over any number of sessions, in which the releases of an allocation are fair, the
allocation holds no less than it borrows. -/
theorem System.Run.coveredAt {k : AllocationId} {y : System}
    (h : System.Run (System.FairReleases k) y) {s : Impl} (hlive : y.live = some s)
    {r : AllocationRecord} (hr : s.allocations.lookup k = some r)
    (hholds : r.state.holdsUnits = true) :
    0 < r.units.toNat ∧ r.borrowUnits.toNat ≤ r.units.toNat := by
  have hall := h.invariant (I := System.Among (AllocationRecord.CoveredAt k)) ?_ System.among_empty
  · obtain ⟨-, hk, hview⟩ := hall.live s hlive
    exact hview k r hr (hk.allocations k r hr) hholds
  · intro _ _ _ hy hev hstep
    refine hstep.among (fun r ↦ AllocationRecord.coveredAt_of_ended) (fun s c hlive hc hs ↦ ?_) hy
    by_cases hop : ∃ q, c.op = .release q
    · obtain ⟨q, hop⟩ := hop
      exact hs.exec_release hop (hev s c hlive hc)
    · exact hs.exec_of_ne fun q hq ↦ hop ⟨q, hq⟩

/-! ### Releasing in parts -/

/-- A release of a sequence: the states around it and the units it returned. -/
structure PartialRelease where
  before : Impl
  after : Impl
  units : UInt64

def PartialRelease.fall (p : PoolId) (f : Row) (x : PartialRelease) : ℤ :=
  x.before.row p f - x.after.row p f

/-- The allocation is released part by part, with any calls in between that leave its record as
it is. -/
inductive Impl.Drain (P : Impl → Call → Prop) (k : AllocationId) (s : Impl) :
    List PartialRelease → Impl → Prop
  | refl : Drain P k s [] s
  | other {steps : List PartialRelease} {t : Impl} (c : Call) (h : Drain P k s steps t)
      (hp : P t c) (hsame : (t.exec c).2.allocations.lookup k = t.allocations.lookup k) :
      Drain P k s steps (t.exec c).2
  | rehash {steps : List PartialRelease} {t u : Impl} (h : Drain P k s steps t)
      (hr : t.Rehash u) : Drain P k s steps u
  | release {steps : List PartialRelease} {t : Impl} {c : Call} {q : ReleaseRequest}
      {d : Decision} {r : AllocationRecord} {units : UInt64} (h : Drain P k s steps t)
      (hp : P t c) (hop : c.op = .release q) (hq : q.allocation = k)
      (hok : (t.exec c).1 = .ok (.decision d)) (hnew : t.attempts.lookup q.attempt = none)
      (hr : t.allocations.lookup k = some r) (hholds : r.state.holdsUnits = true)
      (hamount : Impl.releaseAmount q r = .ok units) :
      Drain P k s (steps ++ [⟨t, (t.exec c).2, units⟩]) (t.exec c).2

/-- The release moved the ledgers of the pool and the lender of `r` by the two parts of what it
returned, and left a record that owns what it does not borrow. -/
structure PartialRelease.Consistent (k : AllocationId) (r : AllocationRecord) (x : PartialRelease) :
    Prop where
  own : 0 ≤ x.fall r.pool .own
  borrowed : 0 ≤ x.fall r.pool .borrowed
  parts : x.fall r.pool .own + x.fall r.pool .borrowed = x.units.toNat
  lender : r.borrowUnits ≠ 0 → x.fall r.lender .lent = x.fall r.pool .borrowed ∧
    x.fall r.lender .own = x.fall r.pool .borrowed
  left : ∃ r', x.after.allocations.lookup k = some r' ∧ r'.borrowUnits ≤ r'.units

/-- Where a sequence of releases stands: what it returned and what is left make up the whole. -/
structure Drained (k : AllocationId) (r : AllocationRecord) (steps : List PartialRelease)
    (r' : AllocationRecord) : Prop where
  pool : r'.pool = r.pool
  units : r'.units.toNat + (steps.map (·.units.toNat)).sum = r.units.toNat
  left : r'.borrowUnits ≤ r'.units
  borrowed : r'.borrowUnits.toNat + (steps.map (·.fall r.pool .borrowed)).sum =
    (r.borrowUnits.toNat : ℤ)
  holding : r'.state.holdsUnits = true → r'.Divisible ∧ r'.lender = r.lender
  ended : r'.state.holdsUnits = false → r'.state = .released
  steps : ∀ x ∈ steps, x.Consistent k r

/-- One more release. -/
theorem Drained.snoc {k : AllocationId} {r r' : AllocationRecord} {steps : List PartialRelease}
    {s₀ s t : Impl} {units : UInt64} (h : Drained k r steps r') (hr : r.Divisible)
    (hholds : r'.state.holdsUnits = true) (hle : units.toNat ≤ r'.units.toNat)
    (hfair : r'.SplitsFairly units) (hmade : s.ReleaseMade r' k units t)
    (hpools : s₀.pools = s.pools) :
    Drained k r (steps ++ [⟨s₀, t, units⟩]) (s.remainder r' units) := by
  obtain ⟨hdiv, hlender⟩ := h.holding hholds
  obtain ⟨hpool, hunits, hborrow, hrest⟩ :=
    AllocationRecord.remainder_values (s := s) hdiv.borrow_le hle
  obtain ⟨hbb, hbu⟩ := AllocationRecord.releasedBorrow_bound hdiv.borrow_le hle
  obtain ⟨hown, hin, hlent⟩ := hmade.falls hholds hdiv.borrow_le hle hdiv.lender
  have hleft : (s.remainder r' units).borrowUnits ≤ (s.remainder r' units).units :=
    Word.le_iff.mpr ((AllocationRecord.remainder_fair_iff hdiv.borrow_le hle).mpr hfair)
  have hrow : ∀ p f, s₀.row p f = s.row p f := by
    intro p f
    unfold Impl.row
    rw [hpools]
  simp only [← hrow] at hown hin hlent
  rw [h.pool] at hown hin
  have hfallIn : PartialRelease.fall r.pool .borrowed ⟨s₀, t, units⟩ =
      (Impl.releasedBorrow r' units).toNat := by
    unfold PartialRelease.fall
    dsimp only
    omega
  have hfallOwn : PartialRelease.fall r.pool .own ⟨s₀, t, units⟩ =
      (units.toNat - (Impl.releasedBorrow r' units).toNat : ℕ) := by
    unfold PartialRelease.fall
    dsimp only
    omega
  have hstep : PartialRelease.Consistent k r ⟨s₀, t, units⟩ := by
    refine ⟨?_, ?_, ?_, fun hnz ↦ ?_, _, hmade.record, hleft⟩
    · rw [hfallOwn]
      exact Int.natCast_nonneg _
    · rw [hfallIn]
      exact Int.natCast_nonneg _
    · rw [hfallOwn, hfallIn]
      dsimp only
      omega
    · rw [hfallIn]
      rw [hlender, h.pool] at hlent
      obtain ⟨hl, ho⟩ := hlent (hr.lender hnz)
      unfold PartialRelease.fall
      dsimp only
      constructor <;> omega
  refine ⟨hpool.trans h.pool, ?_, hleft, ?_, fun hstill ↦ ?_, fun hend ↦ ?_, fun x hx ↦ ?_⟩
  · have := h.units
    rw [List.map_append, List.sum_append, hunits]
    simp only [List.map_cons, List.map_nil, List.sum_cons, List.sum_nil]
    omega
  · have := h.borrowed
    rw [List.map_append, List.sum_append, hborrow]
    simp only [List.map_cons, List.map_nil, List.sum_cons, List.sum_nil]
    rw [hfallIn]
    omega
  · have hpart : units ≠ r'.units := by
      rintro rfl
      rw [AllocationRecord.remainder_all_state] at hstill
      cases hstill
    exact ⟨Impl.remainder_divisible hdiv hle hfair hstill, (hrest hpart).2.trans hlender⟩
  · have hall : units = r'.units := by
      by_contra hpart
      rw [(hrest hpart).1, hholds] at hend
      cases hend
    rw [hall]
    exact AllocationRecord.remainder_all_state s r'
  · rcases List.mem_append.mp hx with hold | hnew
    · exact h.steps x hold
    · rw [List.mem_singleton.mp hnew]
      exact hstep

theorem Impl.Drain.drained {k : AllocationId} {s t : Impl} {steps : List PartialRelease}
    (h : Impl.Drain (Impl.FairReleases k) k s steps t) {r : AllocationRecord}
    (hr : s.allocations.lookup k = some r) (hholds : r.state.holdsUnits = true)
    (hdiv : r.Divisible) : ∃ r', t.allocations.lookup k = some r' ∧ Drained k r steps r' := by
  induction h with
  | refl =>
      refine ⟨r, hr, rfl, rfl, Word.le_iff.mpr hdiv.borrow_le, ?_, fun _ ↦ ⟨hdiv, rfl⟩,
        fun hend ↦ ?_, fun x hx ↦ ?_⟩
      · exact Int.add_zero _
      · cases hholds.symm.trans hend
      · cases hx
  | other c _ hp hsame ih =>
      obtain ⟨r', hr', hdrained⟩ := ih
      exact ⟨r', hsame.trans hr', hdrained⟩
  | rehash _ hrehash ih =>
      obtain ⟨r', hr', hdrained⟩ := ih
      have hview := congrArg View.allocations hrehash.view_eq
      exact ⟨r', (congrFun hview k).trans hr', hdrained⟩
  | release _ hp hop hq hok hnew hr₁ hholds₁ hamount ih =>
      obtain ⟨r', hr', hdrained⟩ := ih
      obtain rfl := Option.some.inj (hr'.symm.trans hr₁)
      have hfair := hp _ _ _ hop hq hr₁ hholds₁ hamount
      have hmade := Impl.exec_released hop hok hnew (hq ▸ hr₁) hholds₁ hamount
      rw [hq] at hmade
      exact ⟨_, hmade.record,
        hdrained.snoc hdiv hholds₁ (Impl.releaseAmount_ok hamount).2 hfair hmade rfl⟩

/-- In every run, over any number of sessions, an allocation whose releases all split it fairly and
that borrows from another pool is returned exactly by the releases that sum to its units: each
moves the ledgers of the pool and the lender by the two parts of what it returns, together they
return what the pool provided and what was lent, and nothing is left. -/
theorem partial_releases_add_up {k : AllocationId} {y : System}
    (hrun : System.Run (System.FairReleases k) y) {s t : Impl} (hlive : y.live = some s)
    {r : AllocationRecord} (hr : s.allocations.lookup k = some r)
    (hholds : r.state.holdsUnits = true) (hother : r.borrowUnits ≠ 0 → r.lender ≠ r.pool)
    {steps : List PartialRelease} (h : Impl.Drain (Impl.FairReleases k) k s steps t)
    (hall : (steps.map (·.units.toNat)).sum = r.units.toNat) :
    (∀ x ∈ steps, x.Consistent k r) ∧
      (steps.map (·.fall r.pool .own)).sum = (r.units.toNat : ℤ) - r.borrowUnits.toNat ∧
      (steps.map (·.fall r.pool .borrowed)).sum = (r.borrowUnits.toNat : ℤ) ∧
      (r.borrowUnits ≠ 0 →
        (steps.map (·.fall r.lender .lent)).sum = (r.borrowUnits.toNat : ℤ) ∧
          (steps.map (·.fall r.lender .own)).sum = (r.borrowUnits.toNat : ℤ)) ∧
      ∃ r', t.allocations.lookup k = some r' ∧ r'.state = .released ∧ r'.units = 0 := by
  obtain ⟨hpos, hborrow⟩ := hrun.coveredAt hlive hr hholds
  have hdiv : r.Divisible := ⟨hpos, hborrow, hother⟩
  obtain ⟨r', hr', hdrained⟩ := h.drained hr hholds hdiv
  have hunits := hdrained.units
  have hborrowed := hdrained.borrowed
  have hzero : r'.units.toNat = 0 := by omega
  have hend : r'.state.holdsUnits = false := by
    cases hstate : r'.state.holdsUnits with
    | false => rfl
    | true =>
        have hpos := (hdrained.holding hstate).1.pos
        omega
  have hnone := Word.le_iff.mp hdrained.left
  have hin : (steps.map (·.fall r.pool .borrowed)).sum = (r.borrowUnits.toNat : ℤ) := by omega
  refine ⟨hdrained.steps, ?_, hin, fun hnz ↦ ⟨?_, ?_⟩, r', hr', hdrained.ended hend,
    Word.eq_zero_iff.mpr hzero⟩
  · have hparts : (steps.map (·.fall r.pool .own)).sum + (steps.map (·.fall r.pool .borrowed)).sum =
        (steps.map fun x ↦ (x.units.toNat : ℤ)).sum := by
      rw [← List.sum_map_add]
      exact congrArg List.sum (List.map_congr_left fun x hx ↦ (hdrained.steps x hx).parts)
    have hcast : (steps.map fun x ↦ (x.units.toNat : ℤ)).sum = (r.units.toNat : ℤ) := by
      rw [← hall, Nat.cast_list_sum, List.map_map]
      rfl
    omega
  · rw [← hin]
    exact congrArg List.sum (List.map_congr_left fun x hx ↦ ((hdrained.steps x hx).lender hnz).1)
  · rw [← hin]
    exact congrArg List.sum (List.map_congr_left fun x hx ↦ ((hdrained.steps x hx).lender hnz).2)

def giveBack (attempt units : UInt64) (allocation : AllocationId) : Call :=
  { op := .release
      { attempt := ⟨attempt⟩, allocation := allocation, units := units, releaseAll := false } }

theorem Impl.Drain.giveBack {P : Impl → Call → Prop} {k : AllocationId} {s t : Impl}
    {steps : List PartialRelease} (h : Impl.Drain P k s steps t) (attempt units : UInt64)
    (hp : P t (giveBack attempt units k))
    (hcheck : ((Reply.decided (t.exec (BufferFabric.giveBack attempt units k)).1).isSome &&
      !(t.attempts.lookup ⟨attempt⟩).isSome && decide (units ≠ 0) &&
      (t.allocations.lookup k).any fun r ↦ r.state.holdsUnits && decide (units ≤ r.units)) = true) :
    Impl.Drain P k s
      (steps ++ [⟨t, (t.exec (BufferFabric.giveBack attempt units k)).2, units⟩])
      (t.exec (BufferFabric.giveBack attempt units k)).2 := by
  simp only [Bool.and_eq_true, decide_eq_true_eq, Bool.not_eq_true', Option.isSome_eq_false_iff,
    Option.isNone_iff_eq_none] at hcheck
  obtain ⟨⟨⟨hd, hnew⟩, hne⟩, hr⟩ := hcheck
  obtain ⟨d, hd⟩ := Option.isSome_iff_exists.mp hd
  obtain ⟨r, hr, hfacts⟩ := (Option.any_eq_true ..).mp hr
  simp only [Bool.and_eq_true, decide_eq_true_eq] at hfacts
  refine h.release (r := r) hp rfl rfl (Reply.decided_eq_some hd) hnew hr hfacts.1 ?_
  unfold Impl.releaseAmount
  rw [if_neg Bool.false_ne_true]
  simp only [seq_ok, require_eq_ok, exists_const, pure_ok]
  exact ⟨hne, hfacts.2, trivial⟩

/-- A child of twenty units holds forty, twenty of them from its parent. -/
def lentSetup : List Call := lendingSession.dropLast

/-- Ten units and then the other thirty return the twenty borrowed ones. -/
theorem partial_releases_add_up_child :
    ∃ steps t, Impl.Drain (Impl.FairReleases ⟨1⟩) ⟨1⟩ (smallOpened.play lentSetup) steps t ∧
      steps.length = 2 ∧ (steps.map (·.fall ⟨2⟩ .borrowed)).sum = 20 ∧
      ∃ r', t.allocations.lookup ⟨1⟩ = some r' ∧ r'.state = .released ∧ r'.units = 0 := by
  have hadmits : smallOpened.Admits (Impl.FairReleases ⟨1⟩) lentSetup := by decide +kernel
  have hr : ((smallOpened.play lentSetup).allocations.lookup ⟨1⟩).any (fun r ↦ decide
      (r.state.holdsUnits = true ∧ r.units = 40 ∧ r.borrowUnits = 20 ∧ r.pool = ⟨2⟩ ∧
        r.lender = ⟨1⟩)) = true := by
    decide +kernel
  obtain ⟨r, hr, hfacts⟩ := (Option.any_eq_true ..).mp hr
  obtain ⟨hholds, hunits, hborrow, hpool, hlender⟩ := of_decide_eq_true hfacts
  have hother : r.borrowUnits ≠ 0 → r.lender ≠ r.pool := by
    intro _
    rw [hlender, hpool]
    decide
  obtain ⟨y, hopened, hlive⟩ : ∃ y, System.Run (System.FairReleases ⟨1⟩) y ∧
      y.live = some smallOpened := by
    refine smallOpened_fresh.system fun config s c hlive ↦ ?_
    cases hlive
  have hcall : ∀ y s c, y.live = some s → Impl.FairReleases ⟨1⟩ s c →
      System.FairReleases ⟨1⟩ y (.called c) := by
    rintro y s c hlive hfair s' c' hlive' (hc | hc)
    · obtain rfl := Option.some.inj (hlive.symm.trans hlive')
      obtain rfl := Event.called.inj hc
      exact hfair
    · cases hc
  have hquiet : ∀ y, System.FairReleases ⟨1⟩ y .rehashed := by
    rintro y s c - (hc | hc) <;> cases hc
  obtain ⟨y', hrun, hlive', -⟩ := (SessionRun.refl.play hadmits).system hcall hquiet hopened hlive
    smallOpened_fresh.isOpen
  have hdrain := (Impl.Drain.refl (P := Impl.FairReleases ⟨1⟩) (k := ⟨1⟩)
      (s := smallOpened.play lentSetup)).giveBack 2 10
      (by decide +kernel) (by decide +kernel) |>.giveBack 3 30
      (by decide +kernel) (by decide +kernel)
  obtain ⟨-, -, hborrowed, -, hend⟩ := partial_releases_add_up hrun hlive' hr hholds hother hdrain
    (by rw [hunits]; rfl)
  rw [hpool, hborrow] at hborrowed
  exact ⟨_, _, hdrain, rfl, hborrowed, hend⟩

/-- A child and its parent of 2^59 units each. The child holds 2^58 of its own, and 3 * 2^58
in another allocation, 2^59 of them from its parent. -/
def largeLoan : List Call :=
  smallTopology { smallPolicy with
      borrow := { mode := .fromAncestorFree, limitUnits := 576460752303423488 } } ++
    [hugeCapacity ⟨2⟩,
      { op := .registerPool
          { name := [97], resource := ⟨2⟩, backend := ⟨1⟩, rawUnits := 576460752303423488
            policy := ⟨1⟩ } },
      { op := .registerPool
          { name := [98], parent := ⟨1⟩, resource := ⟨2⟩, backend := ⟨1⟩
            rawUnits := 576460752303423488, policy := ⟨1⟩ } },
      { op := .registerQueue { name := [113], pool := ⟨2⟩ } },
      { op := .allocate
          { attempt := ⟨1⟩, pool := ⟨2⟩, queue := ⟨1⟩, requestedUnits := 288230376151711744 } },
      { op := .allocate
          { attempt := ⟨2⟩, pool := ⟨2⟩, queue := ⟨1⟩, requestedUnits := 864691128455135232 } }]

/-- The releases of 2^59 and 2^58 units of the loan succeed. The first leaves a record that
borrows more than it holds, and half of what was borrowed is never returned. -/
theorem partial_releases_wrap :
    ∃ r steps t, (smallOpened.play largeLoan).allocations.lookup ⟨2⟩ = some r ∧
      r.state.holdsUnits = true ∧ r.units = 864691128455135232 ∧
      r.borrowUnits = 576460752303423488 ∧
      Impl.Drain (fun _ _ ↦ True) ⟨2⟩ (smallOpened.play largeLoan) steps t ∧
      (steps.map (·.units.toNat)).sum = r.units.toNat ∧
      (∃ x ∈ steps, ∃ r', x.after.allocations.lookup ⟨2⟩ = some r' ∧
        r'.units < r'.borrowUnits) ∧
      (steps.map (·.fall ⟨2⟩ .borrowed)).sum = 288230376151711744 ∧
      (steps.map (·.fall ⟨1⟩ .lent)).sum = 288230376151711744 ∧
      ∃ r', t.allocations.lookup ⟨2⟩ = some r' ∧ r'.state = .released ∧ r'.units = 0 := by
  have hr : ((smallOpened.play largeLoan).allocations.lookup ⟨2⟩).any (fun r ↦ decide
      (r.state.holdsUnits = true ∧ r.units = 864691128455135232 ∧
        r.borrowUnits = 576460752303423488)) = true := by
    decide +kernel
  obtain ⟨r, hr, hfacts⟩ := (Option.any_eq_true ..).mp hr
  obtain ⟨hholds, hunits, hborrow⟩ := of_decide_eq_true hfacts
  have hdrain := (Impl.Drain.refl (P := fun _ _ ↦ True) (k := ⟨2⟩)
      (s := smallOpened.play largeLoan)).giveBack 3 576460752303423488
      trivial (by decide +kernel) |>.giveBack 4 288230376151711744
      trivial (by decide +kernel)
  have hmid : (((smallOpened.play largeLoan).exec
      (giveBack 3 576460752303423488 ⟨2⟩)).2.allocations.lookup ⟨2⟩).any
      (fun r ↦ decide (r.units < r.borrowUnits)) = true := by
    decide +kernel
  have hend : ((((smallOpened.play largeLoan).exec (giveBack 3 576460752303423488 ⟨2⟩)).2.exec
      (giveBack 4 288230376151711744 ⟨2⟩)).2.allocations.lookup ⟨2⟩).any
      (fun r ↦ decide (r.state = .released ∧ r.units = 0)) = true := by
    decide +kernel
  have hfalls : ∀ x y : PartialRelease,
      x = ⟨smallOpened.play largeLoan, ((smallOpened.play largeLoan).exec
        (giveBack 3 576460752303423488 ⟨2⟩)).2, 576460752303423488⟩ →
      y = ⟨x.after, (x.after.exec (giveBack 4 288230376151711744 ⟨2⟩)).2, 288230376151711744⟩ →
      x.fall ⟨2⟩ .borrowed + y.fall ⟨2⟩ .borrowed = 288230376151711744 ∧
        x.fall ⟨1⟩ .lent + y.fall ⟨1⟩ .lent = 288230376151711744 := by
    rintro x y rfl rfl
    decide +kernel
  obtain ⟨r₁, hr₁, hless⟩ := (Option.any_eq_true ..).mp hmid
  obtain ⟨r₂, hr₂, hreleased⟩ := (Option.any_eq_true ..).mp hend
  generalize smallOpened.play largeLoan = s at *
  obtain ⟨hborrowed, hlent⟩ := hfalls _ _ rfl rfl
  refine ⟨r, _, _, hr, hholds, hunits, hborrow, hdrain, ?_, ?_, ?_, ?_, r₂, hr₂,
    of_decide_eq_true hreleased⟩
  · rw [hunits]
    rfl
  · exact ⟨_, List.mem_append_left _ (List.mem_append_right _ (List.mem_singleton.mpr rfl)), r₁,
      hr₁, of_decide_eq_true hless⟩
  · simpa using hborrowed
  · simpa using hlent

end BufferFabric
