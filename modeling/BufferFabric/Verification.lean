import BufferFabric.Validity
import Mathlib.Data.List.Induction

/-!
# Deep verification

What the global check of the books decides, and what `deep_verify` gives it: rows that are
recomputed from the allocation records. The aggregates that the pools keep are not looked
at.
-/

namespace BufferFabric

/-! ### The global check -/

inductive Total where
  | raw | protectedUnits | allocated | free | borrowed | lent | overcommit
  deriving DecidableEq

def PoolAccounting.total (a : PoolAccounting) : Total → UInt64
  | .raw => a.raw
  | .protectedUnits => a.protectedUnits
  | .allocated => a.allocated
  | .free => a.free
  | .borrowed => a.borrowedIn
  | .lent => a.lentOut
  | .overcommit => a.overcommitUsed

def AccountingReport.total (r : AccountingReport) : Total → UInt64
  | .raw => r.rawTotal
  | .protectedUnits => r.protectedTotal
  | .allocated => r.allocatedTotal
  | .free => r.freeTotal
  | .borrowed => r.borrowedTotal
  | .lent => r.lentTotal
  | .overcommit => r.overcommitTotal

def totalOf (t : Total) (rows : List PoolAccounting) : ℕ :=
  (rows.map fun a ↦ (a.total t).toNat).sum

theorem totalOf_concat (t : Total) (rows : List PoolAccounting) (a : PoolAccounting) :
    totalOf t (rows ++ [a]) = totalOf t rows + (a.total t).toNat := by
  simp [totalOf]

def PoolAccounting.Closes (a : PoolAccounting) : Prop :=
  poolViolations a .bounded a.overcommitLimit = []

/-- One more row: the report stays closed when the row closes and no total overflows, and
then every total has grown by the row. -/
theorem AccountingReport.addPool_closed (r : AccountingReport) (a : PoolAccounting) :
    ((r.addPool a).closed = true ↔
      r.closed = true ∧ a.Closes ∧ ∀ t, ¬AddOverflow (r.total t) (a.total t)) ∧
    ((r.addPool a).closed = true → ∀ t, (r.addPool a).total t = r.total t + a.total t) := by
  have hforall : (∀ t, ¬AddOverflow (r.total t) (a.total t)) ↔
      ¬AddOverflow r.rawTotal a.raw ∧ ¬AddOverflow r.protectedTotal a.protectedUnits ∧
      ¬AddOverflow r.allocatedTotal a.allocated ∧ ¬AddOverflow r.freeTotal a.free ∧
      ¬AddOverflow r.borrowedTotal a.borrowedIn ∧ ¬AddOverflow r.lentTotal a.lentOut ∧
      ¬AddOverflow r.overcommitTotal a.overcommitUsed := by
    constructor
    · intro h
      exact ⟨h .raw, h .protectedUnits, h .allocated, h .free, h .borrowed, h .lent, h .overcommit⟩
    · rintro ⟨h₁, h₂, h₃, h₄, h₅, h₆, h₇⟩ t
      cases t <;> assumption
  rw [hforall]
  unfold addPool PoolAccounting.Closes
  by_cases h₁ : AddOverflow r.rawTotal a.raw
  · simp [addTotal, addViolation, h₁]
  by_cases h₂ : AddOverflow r.protectedTotal a.protectedUnits
  · simp [addTotal, addViolation, h₁, h₂]
  by_cases h₃ : AddOverflow r.allocatedTotal a.allocated
  · simp [addTotal, addViolation, h₁, h₂, h₃]
  by_cases h₄ : AddOverflow r.freeTotal a.free
  · simp [addTotal, addViolation, h₁, h₂, h₃, h₄]
  by_cases h₅ : AddOverflow r.borrowedTotal a.borrowedIn
  · simp [addTotal, addViolation, h₁, h₂, h₃, h₄, h₅]
  by_cases h₆ : AddOverflow r.lentTotal a.lentOut
  · simp [addTotal, addViolation, h₁, h₂, h₃, h₄, h₅, h₆]
  by_cases h₇ : AddOverflow r.overcommitTotal a.overcommitUsed
  · simp [addTotal, addViolation, h₁, h₂, h₃, h₄, h₅, h₆, h₇]
  simp only [addTotal, h₁, h₂, h₃, h₄, h₅, h₆, h₇, decide_false, Bool.not_false, if_true]
  refine ⟨?_, ?_⟩
  · simp [checkPoolAccounting, List.isEmpty_iff]
  · intro _ t
    cases t <;> rfl

/-- The report over the rows, before the two global identities are checked. -/
def tally (rows : List PoolAccounting) : AccountingReport :=
  rows.foldl AccountingReport.addPool {}

theorem tally_closed (rows : List PoolAccounting) :
    ((tally rows).closed = true ↔
      (∀ a ∈ rows, a.Closes) ∧ ∀ t, totalOf t rows < 18446744073709551616) ∧
    ((tally rows).closed = true → ∀ t, ((tally rows).total t).toNat = totalOf t rows) := by
  induction rows using List.reverseRecOn with
  | nil =>
      refine ⟨?_, ?_⟩
      · simp [tally, totalOf]
      · intro _ t
        cases t <;> rfl
  | append_singleton rows a ih =>
      obtain ⟨hiff, htotal⟩ := ih
      have hsnoc : tally (rows ++ [a]) = (tally rows).addPool a := by
        simp only [tally, List.foldl_append, List.foldl_cons, List.foldl_nil]
      obtain ⟨hstep, hgrow⟩ := (tally rows).addPool_closed a
      rw [hsnoc]
      refine ⟨?_, ?_⟩
      · rw [hstep]
        constructor
        · rintro ⟨hclosed, ha, hfits⟩
          refine ⟨?_, ?_⟩
          · intro b hb
            rcases List.mem_append.mp hb with hb | hb
            · exact (hiff.mp hclosed).1 b hb
            · rw [List.mem_singleton.mp hb]
              exact ha
          · intro t
            have ht := hfits t
            rw [addOverflow_iff, htotal hclosed] at ht
            rw [totalOf_concat]
            omega
        · rintro ⟨hrows, hfits⟩
          have hclosed : (tally rows).closed = true := by
            refine hiff.mpr ⟨fun b hb ↦ hrows b (List.mem_append_left _ hb), ?_⟩
            intro t
            have ht := hfits t
            rw [totalOf_concat] at ht
            omega
          refine ⟨hclosed, hrows a (by simp), ?_⟩
          intro t
          have ht := hfits t
          rw [totalOf_concat] at ht
          rw [addOverflow_iff, htotal hclosed]
          omega
      · intro hclosed t
        obtain ⟨hprev, -, hfits⟩ := hstep.mp hclosed
        rw [hgrow hclosed, toNat_add_of_not_overflow (hfits t), htotal hprev, totalOf_concat]

/-- The two global identities, checked once the rows are added up. -/
def closeBooks (r : AccountingReport) : AccountingReport :=
  let r := if r.borrowedTotal ≠ r.lentTotal then
      r.addViolation ⟨.globalBorrowMismatch, default,
        u64Text "borrowed" r.borrowedTotal ++ " " ++ u64Text "lent" r.lentTotal⟩
    else r
  let lhs := r.rawTotal + r.overcommitTotal
  let rhs := r.protectedTotal + r.allocatedTotal + r.freeTotal
  if AddOverflow r.rawTotal r.overcommitTotal ∨ AddOverflow r.protectedTotal r.allocatedTotal ∨
      AddOverflow (r.protectedTotal + r.allocatedTotal) r.freeTotal then
    r.addViolation ⟨.saturatedField, default, "global closure"⟩
  else if lhs ≠ rhs then
    r.addViolation ⟨.globalClosureMismatch, default,
      u64Text "lhs" lhs ++ " " ++ u64Text "rhs" rhs⟩
  else r

theorem closeBooks_closed (r : AccountingReport) :
    (closeBooks r).closed = true ↔
      r.closed = true ∧ r.borrowedTotal = r.lentTotal ∧
      ¬AddOverflow r.rawTotal r.overcommitTotal ∧
      ¬AddOverflow r.protectedTotal r.allocatedTotal ∧
      ¬AddOverflow (r.protectedTotal + r.allocatedTotal) r.freeTotal ∧
      r.rawTotal + r.overcommitTotal =
        r.protectedTotal + r.allocatedTotal + r.freeTotal := by
  unfold closeBooks
  by_cases hlent : r.borrowedTotal = r.lentTotal
  · by_cases hfit : AddOverflow r.rawTotal r.overcommitTotal ∨
        AddOverflow r.protectedTotal r.allocatedTotal ∨
        AddOverflow (r.protectedTotal + r.allocatedTotal) r.freeTotal
    · simp only [hlent, ne_eq, not_true_eq_false, if_false, hfit, if_true,
        AccountingReport.addViolation, Bool.false_eq_true, false_iff]
      tauto
    · simp only [hlent, ne_eq, not_true_eq_false, if_false, hfit]
      simp only [not_or] at hfit
      split <;> rename_i hside <;> simp_all [AccountingReport.addViolation]
  · simp only [hlent, ne_eq, not_false_eq_true, if_true, false_and, and_false, iff_false]
    split
    · simp [AccountingReport.addViolation]
    · split <;> simp [AccountingReport.addViolation]

/-- The rows of a ledger close one by one, and so do the books over all of them. -/
structure BooksClose (rows : List PoolAccounting) : Prop where
  each : ∀ a ∈ rows, a.Closes
  fits : ∀ t, totalOf t rows < 18446744073709551616
  lent : totalOf .borrowed rows = totalOf .lent rows
  bounded : totalOf .raw rows + totalOf .overcommit rows < 18446744073709551616
  closure : totalOf .raw rows + totalOf .overcommit rows =
    totalOf .protectedUnits rows + totalOf .allocated rows + totalOf .free rows

/-- What the global check decides. -/
theorem checkGlobalAccounting_closed (rows : List PoolAccounting) :
    (checkGlobalAccounting rows).closed = true ↔ BooksClose rows := by
  obtain ⟨hiff, htotal⟩ := tally_closed rows
  refine (closeBooks_closed (tally rows)).trans ?_
  constructor
  · rintro ⟨hclosed, hlent, hleft, hright₁, hright₂, hclosure⟩
    obtain ⟨hrows, hfits⟩ := hiff.mp hclosed
    have ht := htotal hclosed
    have hraw : ((tally rows).rawTotal).toNat = totalOf .raw rows := ht .raw
    have hover : ((tally rows).overcommitTotal).toNat = totalOf .overcommit rows := ht .overcommit
    have hprot : ((tally rows).protectedTotal).toNat = totalOf .protectedUnits rows :=
      ht .protectedUnits
    have halloc : ((tally rows).allocatedTotal).toNat = totalOf .allocated rows := ht .allocated
    have hfree : ((tally rows).freeTotal).toNat = totalOf .free rows := ht .free
    have hsum := congrArg UInt64.toNat hclosure
    rw [toNat_add_of_not_overflow hleft, toNat_add_of_not_overflow hright₂,
      toNat_add_of_not_overflow hright₁, hraw, hover, hprot, halloc, hfree] at hsum
    refine ⟨hrows, hfits, ?_, ?_, hsum⟩
    · rw [← ht .borrowed, ← ht .lent]
      exact congrArg UInt64.toNat hlent
    · rw [addOverflow_iff, hraw, hover] at hleft
      omega
  · rintro ⟨hrows, hfits, hlent, hbounded, hclosure⟩
    have hclosed := hiff.mpr ⟨hrows, hfits⟩
    have ht := htotal hclosed
    have hraw : ((tally rows).rawTotal).toNat = totalOf .raw rows := ht .raw
    have hover : ((tally rows).overcommitTotal).toNat = totalOf .overcommit rows := ht .overcommit
    have hprot : ((tally rows).protectedTotal).toNat = totalOf .protectedUnits rows :=
      ht .protectedUnits
    have halloc : ((tally rows).allocatedTotal).toNat = totalOf .allocated rows := ht .allocated
    have hfree : ((tally rows).freeTotal).toNat = totalOf .free rows := ht .free
    have hleft : ¬AddOverflow (tally rows).rawTotal (tally rows).overcommitTotal := by
      rw [addOverflow_iff, hraw, hover]
      omega
    have hright₁ : ¬AddOverflow (tally rows).protectedTotal (tally rows).allocatedTotal := by
      rw [addOverflow_iff, hprot, halloc]
      omega
    have hright₂ : ¬AddOverflow ((tally rows).protectedTotal + (tally rows).allocatedTotal)
        (tally rows).freeTotal := by
      rw [addOverflow_iff, toNat_add_of_not_overflow hright₁, hprot, halloc, hfree]
      omega
    refine ⟨hclosed, ?_, hleft, hright₁, hright₂, ?_⟩
    · apply Word.eq_of_toNat
      exact (ht .borrowed).trans (hlent.trans (ht .lent).symm)
    · apply Word.eq_of_toNat
      rw [toNat_add_of_not_overflow hleft, toNat_add_of_not_overflow hright₂,
        toNat_add_of_not_overflow hright₁, hraw, hover, hprot, halloc, hfree]
      exact hclosure

/-! ### The rows that are recomputed -/

namespace Impl

/-- The pools by the ids of their descriptors; of two pools with one id the first counts. -/
def ledgerPools (s : Impl) : Table PoolId PoolEntry :=
  s.pools.toList.foldl (fun acc e ↦
    match acc.lookup e.2.descriptor.id with
    | some _ => acc
    | none => acc.insert e.2.descriptor.id e.2) ∅

def emptyRow (s : Impl) (e : PoolEntry) : PoolAccounting where
  pool := e.descriptor.id
  poolGeneration := e.descriptor.generation
  raw := e.descriptor.rawUnits
  protectedUnits := e.descriptor.protectedUnits
  usable := e.usable
  overcommitLimit := s.allowanceUnits e

theorem ledgerPools_find (s : Impl) (p : PoolId) :
    s.ledgerPools.lookup p =
      (s.pools.toList.find? fun e ↦ decide (e.2.descriptor.id = p)).map Prod.snd := by
  refine (Table.lookup_foldl_first (fun e : PoolId × PoolEntry ↦ e.2.descriptor.id) Prod.snd ?_ ?_
    s.pools.toList ∅ p).trans ?_
  · intro t e a ha
    simp only [ha]
  · intro t e ha
    simp only [ha]
  · rw [AList.lookup_empty, Option.none_or]

theorem recomputedPools_lookup (s : Impl) (p : PoolId) :
    s.recomputedPools.lookup p = (s.ledgerPools.lookup p).map s.emptyRow := by
  rw [ledgerPools_find, Option.map_map]
  refine (Table.lookup_foldl_first (fun e : PoolId × PoolEntry ↦ e.2.descriptor.id)
    (fun e ↦ s.emptyRow e.2) ?_ ?_ s.pools.toList ∅ p).trans ?_
  · intro t e a ha
    simp only [ha]
  · intro t e ha
    simp only [ha, emptyRow]
  · rw [AList.lookup_empty, Option.none_or]
    simp only [Function.comp_def]

end Impl

namespace PoolAccounting

/-- The row of the pool `p` with the given units added to its columns. Nothing is ever
counted as lent by the id 0. -/
def plus (p : PoolId) (a : PoolAccounting) (units : Row → ℕ) : PoolAccounting :=
  { a with
    allocated := a.allocated + UInt64.ofNat (units .reserved + units .committed)
    reserved := a.reserved + UInt64.ofNat (units .reserved)
    committed := a.committed + UInt64.ofNat (units .committed)
    pinned := a.pinned + UInt64.ofNat (units .pinned)
    reclaimable := a.reclaimable + UInt64.ofNat (units .reclaimable)
    borrowedIn := a.borrowedIn + UInt64.ofNat (units .borrowed)
    lentOut := a.lentOut + UInt64.ofNat (if p.Valid then units .lent else 0) }

theorem plus_zero (p : PoolId) (a : PoolAccounting) : a.plus p (fun _ ↦ 0) = a := by
  simp [plus]

theorem plus_plus (p : PoolId) (a : PoolAccounting) (units units' : Row → ℕ) :
    (a.plus p units).plus p units' = a.plus p fun f ↦ units f + units' f := by
  have hadd : ∀ (a : UInt64) (m n : ℕ), a + UInt64.ofNat m + UInt64.ofNat n =
      a + UInt64.ofNat (m + n) := by
    intro a m n
    rw [UInt64.ofNat_add, UInt64.add_assoc]
  have hlent : ∀ m n : ℕ, (if p.Valid then m else 0) + (if p.Valid then n else 0) =
      if p.Valid then m + n else 0 := by
    intro m n
    split <;> rfl
  unfold plus
  simp only [hadd, hlent]
  rw [Nat.add_add_add_comm]

/-- What a record adds to the row of the pool `p` when its own pool is in the ledger. -/
def meet (p : PoolId) (a : PoolAccounting) (r : AllocationRecord) : PoolAccounting :=
  a.plus p fun f ↦ r.contrib p f

theorem foldl_meet (p : PoolId) (l : List AllocationRecord) (a : PoolAccounting) :
    l.foldl (meet p) a = a.plus p fun f ↦ (l.map (·.contrib p f)).sum := by
  induction l generalizing a with
  | nil => exact (a.plus_zero p).symm
  | cons r l ih =>
      rw [List.foldl_cons, ih, meet, plus_plus]
      rfl

def addRecord (a : PoolAccounting) (r : AllocationRecord) : PoolAccounting :=
  let a := { a with allocated := a.allocated + r.units }
  let a := match r.reclaimClass with
    | .pinned => { a with pinned := a.pinned + r.units }
    | .reclaimable => { a with reclaimable := a.reclaimable + r.units }
  let a := match r.state with
    | .reserved => { a with reserved := a.reserved + r.units }
    | _ => { a with committed := a.committed + r.units }
  { a with borrowedIn := a.borrowedIn + r.borrowed }

theorem addRecord_eq (p : PoolId) (a : PoolAccounting) (r : AllocationRecord) :
    a.addRecord r = a.plus p r.share := by
  unfold addRecord plus
  cases hc : r.reclaimClass <;> cases hs : r.state <;> simp [AllocationRecord.share, hc, hs]

theorem lend_eq (p : PoolId) (a : PoolAccounting) (r : AllocationRecord) (hp : p.Valid) :
    { a with lentOut := a.lentOut + r.borrowed } = a.plus p r.lentShare := by
  simp [plus, AllocationRecord.lentShare, hp]

theorem meet_eq (p : PoolId) (a : PoolAccounting) {r : AllocationRecord}
    (h : r.state.holdsUnits = true) :
    a.meet p r =
      (a.plus p fun f ↦ if r.pool = p then r.share f else 0).plus p
        fun f ↦ if r.lender = p then r.lentShare f else 0 := by
  unfold meet
  rw [plus_plus]
  simp only [AllocationRecord.contrib, h, if_true]

end PoolAccounting

/-- The record in the row of its own pool. -/
theorem lookup_insert_addRecord {t : Table PoolId PoolAccounting} {r : AllocationRecord}
    {own : PoolAccounting} (h : t.lookup r.pool = some own) (p : PoolId) :
    (t.insert r.pool (own.addRecord r)).lookup p =
      (t.lookup p).map fun a ↦ a.plus p fun f ↦ if r.pool = p then r.share f else 0 := by
  rw [Table.lookup_insert_eq]
  by_cases hp : p = r.pool
  · subst hp
    simp only [if_true]
    rw [h, Option.map_some, own.addRecord_eq r.pool]
  · simp only [if_neg hp, if_neg (Ne.symm hp), PoolAccounting.plus_zero, Option.map_id']

/-- The borrowed part in the row of the lender. -/
theorem lookup_lend (t : Table PoolId PoolAccounting) (r : AllocationRecord) (p : PoolId) :
    (if r.borrowed ≠ 0 ∧ r.lender.Valid then
      match t.lookup r.lender with
      | none => t
      | some l => t.insert r.lender { l with lentOut := l.lentOut + r.borrowed }
    else t).lookup p =
      (t.lookup p).map fun a ↦ a.plus p fun f ↦ if r.lender = p then r.lentShare f else 0 := by
  by_cases hl : r.borrowed ≠ 0 ∧ r.lender.Valid
  · rw [if_pos hl]
    cases hlender : t.lookup r.lender with
    | none =>
        by_cases hp : r.lender = p
        · subst hp
          rw [hlender, Option.map_none]
        · simp only [if_neg hp, PoolAccounting.plus_zero, Option.map_id']
    | some l =>
        rw [Table.lookup_insert_eq]
        by_cases hp : p = r.lender
        · subst hp
          simp only [if_true]
          rw [hlender, Option.map_some, l.lend_eq r.lender r hl.2]
        · simp only [if_neg hp, if_neg (Ne.symm hp), PoolAccounting.plus_zero, Option.map_id']
  · rw [if_neg hl]
    have hkeep : ∀ a : PoolAccounting,
        (a.plus p fun f ↦ if r.lender = p then r.lentShare f else 0) = a := by
      intro a
      by_cases hp : r.lender = p
      · subst hp
        simp only [if_true]
        by_cases hv : r.lender.Valid
        · have hb : r.borrowed = 0 := by
            by_contra hb
            exact hl ⟨hb, hv⟩
          simp [PoolAccounting.plus, AllocationRecord.lentShare, hb]
        · simp [PoolAccounting.plus, AllocationRecord.lentShare, hv]
      · simp only [if_neg hp]
        exact a.plus_zero p
    simp only [hkeep, Option.map_id']

/-- One record: it counts when its own pool is in the ledger. -/
theorem verifyRecord_lookup (t : Table PoolId PoolAccounting) (r : AllocationRecord) (p : PoolId) :
    (verifyRecord t r).lookup p =
      (t.lookup p).map fun a ↦ if r.pool ∈ t then a.meet p r else a := by
  unfold verifyRecord
  by_cases hh : r.state.holdsUnits = true
  · cases hpool : t.lookup r.pool with
    | none =>
        have hnot : r.pool ∉ t := Table.notMem_iff.mpr hpool
        simp [hh, hnot]
    | some own =>
        have hmem := Table.mem_of_lookup hpool
        simp only [hh, Bool.not_true, Bool.false_eq_true, if_false, hmem, if_true]
        refine (lookup_lend (t.insert r.pool (own.addRecord r)) r p).trans ?_
        rw [lookup_insert_addRecord hpool, Option.map_map]
        congr 1
        funext a
        exact (a.meet_eq p hh).symm
  · have hz : ∀ a : PoolAccounting, a.meet p r = a := by
      intro a
      unfold PoolAccounting.meet
      rw [Bool.not_eq_true] at hh
      simp only [AllocationRecord.contrib_of_not_holds hh]
      exact a.plus_zero p
    simp [hh, hz]

theorem foldl_verifyRecord_lookup (l : List AllocationRecord) (t : Table PoolId PoolAccounting)
    (p : PoolId) :
    (l.foldl verifyRecord t).lookup p =
      (t.lookup p).map ((l.filter fun r ↦ decide (r.pool ∈ t)).foldl (PoolAccounting.meet p)) := by
  induction l generalizing t with
  | nil => simp
  | cons r l ih =>
      have hkeys : ∀ q, q ∈ verifyRecord t r ↔ q ∈ t := by
        intro q
        rw [← AList.lookup_isSome, ← AList.lookup_isSome, verifyRecord_lookup, Option.isSome_map]
      rw [List.foldl_cons, ih, verifyRecord_lookup, Option.map_map]
      simp only [hkeys]
      congr 1
      funext a
      by_cases hr : r.pool ∈ t <;> simp [hr]

/-- Two tables that show the same rows have the same books. -/
theorem BooksClose.congr {α β : Type} {t : Table PoolId α} {u : Table PoolId β}
    {f : α → PoolAccounting} {f' : β → PoolAccounting}
    (h : ∀ p, (t.lookup p).map f = (u.lookup p).map f')
    (hbooks : BooksClose (t.toList.map fun e ↦ f e.2)) :
    BooksClose (u.toList.map fun e ↦ f' e.2) := by
  have htotal : ∀ total, totalOf total (u.toList.map fun e ↦ f' e.2) =
      totalOf total (t.toList.map fun e ↦ f e.2) := by
    intro total
    have hsum := Table.total_of_lookup_map f f' (fun _ a ↦ (a.total total).toNat) h
    simp only [Table.total] at hsum
    simp only [totalOf, Table.toList, List.map_map, Function.comp_def]
    exact hsum.symm
  obtain ⟨heach, hfits, hlent, hbounded, hclosure⟩ := hbooks
  simp only [← htotal] at hfits hlent hbounded hclosure
  refine ⟨?_, hfits, hlent, hbounded, hclosure⟩
  intro a ha
  obtain ⟨⟨p, b⟩, hb, rfl⟩ := List.mem_map.mp ha
  have hp := h p
  rw [Table.mem_toList.mp hb, Option.map_some] at hp
  obtain ⟨a, ha, heq⟩ := Option.map_eq_some_iff.mp hp
  rw [← heq]
  exact heach _ (List.mem_map.mpr ⟨(p, a), Table.mem_toList.mpr ha, rfl⟩)

namespace Impl

def counted (s : Impl) : Impl :=
  { s with allocations := s.allocations.filterValues fun r ↦ decide (r.pool ∈ s.ledgerPools) }

def recordedRow (s : Impl) (e : PoolEntry) : PoolAccounting :=
  ((s.emptyRow e).plus e.descriptor.id (s.counted.books [] e.descriptor.id)).derived

def RecordsClose (s : Impl) : Prop :=
  BooksClose (s.ledgerPools.toList.map fun e ↦ s.recordedRow e.2)

theorem ledgerPools_id {s : Impl} {p : PoolId} {e : PoolEntry}
    (h : s.ledgerPools.lookup p = some e) : e.descriptor.id = p := by
  rw [ledgerPools_find] at h
  obtain ⟨a, ha, rfl⟩ := Option.map_eq_some_iff.mp h
  simpa using List.find?_some ha

theorem counted_records (s : Impl) :
    s.counted.allocations.toList.map Prod.snd =
      (s.allocations.toList.map Prod.snd).filter fun r ↦ decide (r.pool ∈ s.ledgerPools) := by
  simp only [counted, Table.toList, Table.filterValues, List.map_map, List.filter_map,
    Function.comp_def]

/-- Deep verification is the closure of the books by the allocation records, whatever the
pools have kept of them. -/
theorem deepVerify_closed (s : Impl) : s.deepVerify.closed = true ↔ s.RecordsClose := by
  unfold deepVerify
  dsimp only
  rw [checkGlobalAccounting_closed]
  have hkeys : ∀ q, q ∈ s.recomputedPools ↔ q ∈ s.ledgerPools := by
    intro q
    rw [← AList.lookup_isSome, ← AList.lookup_isSome, recomputedPools_lookup, Option.isSome_map]
  have hrows : ∀ p,
      (((s.allocations.toList.map Prod.snd).foldl verifyRecord s.recomputedPools).lookup p).map
        PoolAccounting.derived = (s.ledgerPools.lookup p).map s.recordedRow := by
    intro p
    rw [foldl_verifyRecord_lookup, recomputedPools_lookup, Option.map_map, Option.map_map]
    cases he : s.ledgerPools.lookup p with
    | none => rfl
    | some e =>
        rw [Option.map_some, Option.map_some, Function.comp_apply, Function.comp_apply,
          PoolAccounting.foldl_meet]
        simp only [hkeys, ← counted_records, sum_records, ← ledgerPools_id he]
        rfl
  exact ⟨BooksClose.congr hrows, BooksClose.congr fun p ↦ (hrows p).symm⟩

/-! ### What verification detects -/

def validateAccounting (s : Impl) : AccountingReport := s.deepVerify

end Impl

structure Aggregates where
  reservedUnits : UInt64 := 0
  committedUnits : UInt64 := 0
  pinnedUnits : UInt64 := 0
  reclaimableUnits : UInt64 := 0
  ownUsage : UInt64 := 0
  borrowedIn : UInt64 := 0
  lentOut : UInt64 := 0

def PoolEntry.withAggregates (e : PoolEntry) (a : Aggregates) : PoolEntry :=
  { e with
    reservedUnits := a.reservedUnits, committedUnits := a.committedUnits
    pinnedUnits := a.pinnedUnits, reclaimableUnits := a.reclaimableUnits
    ownUsage := a.ownUsage, borrowedIn := a.borrowedIn, lentOut := a.lentOut }

namespace Impl

def withAggregates (s : Impl) (a : PoolId → Aggregates) : Impl :=
  { s with pools := s.pools.mapValues fun e ↦ e.withAggregates (a e.descriptor.id) }

/-- Every aggregate of every pool is the sum over the unit-holding records. -/
def AggregatesExact (s : Impl) : Prop :=
  ∀ p e, s.pools.lookup p = some e →
    ∀ f : Row, f.Checked → e.read f = s.books [] e.descriptor.id f

theorem recomputedPools_withAggregates (s : Impl) (a : PoolId → Aggregates) :
    (s.withAggregates a).recomputedPools = s.recomputedPools := by
  have hlist : (s.withAggregates a).pools.toList =
      s.pools.toList.map fun e ↦ (e.1, e.2.withAggregates (a e.2.descriptor.id)) := by
    simp only [withAggregates, Table.toList, Table.mapValues, List.map_map, Function.comp_def]
  unfold recomputedPools
  rw [hlist, List.foldl_map]
  rfl

/-- The report does not depend on what the pools have kept. -/
theorem validateAccounting_withAggregates (s : Impl) (a : PoolId → Aggregates) :
    (s.withAggregates a).validateAccounting = s.validateAccounting := by
  unfold validateAccounting deepVerify
  rw [recomputedPools_withAggregates]
  rfl

end Impl

/-- Over all aggregates, a closed report means that they are exact if and only if there is
no pool or the books by the records do not close. -/
theorem divergence_detected_iff (s : Impl) :
    (∀ a, (s.withAggregates a).validateAccounting.closed = true →
      (s.withAggregates a).AggregatesExact) ↔ s.pools = ∅ ∨ ¬s.RecordsClose := by
  simp only [Impl.validateAccounting_withAggregates]
  constructor
  · intro h
    by_contra hnot
    obtain ⟨hpools, hclose⟩ := not_or.mp hnot
    have hclosed := s.deepVerify_closed.mpr (not_not.mp hclose)
    obtain ⟨p, e, he⟩ := Table.exists_lookup hpools
    -- an own usage that no sum over the records gives
    let a : PoolId → Aggregates := fun q ↦ { ownUsage := if s.books [] q .own = 0 then 1 else 0 }
    have hlook : (s.withAggregates a).pools.lookup p =
        some (e.withAggregates (a e.descriptor.id)) := by
      simp only [Impl.withAggregates, Table.lookup_mapValues, he, Option.map_some]
    have hexact := h a hclosed p _ hlook .own trivial
    change (if s.books [] e.descriptor.id .own = 0 then (1 : UInt64) else 0).toNat =
      s.books [] e.descriptor.id .own at hexact
    split at hexact
    · rename_i hzero
      rw [hzero] at hexact
      exact absurd hexact (by decide)
    · rename_i hpos
      exact hpos hexact.symm
  · rintro (hnone | hopen)
    · intro a _ p e he
      have he : (s.withAggregates a).pools.lookup p = some e := he
      simp only [Impl.withAggregates, Table.lookup_mapValues, hnone, AList.lookup_empty,
        Option.map_none, reduceCtorEq] at he
    · intro a hclosed
      exact absurd (s.deepVerify_closed.mp hclosed) hopen

/-- A release whose journal append fails: the units are taken from the pool, the record keeps
them, and the report is closed. -/
def lostRelease : Call :=
  { io := [.lost ""]
    op := .release { attempt := ⟨2⟩, allocation := ⟨1⟩, releaseAll := true } }

theorem divergence_not_detected :
    ∃ (y : System) (s : Impl), System.Run System.Durable y ∧ y.live = some s ∧
      s.validateAccounting.closed = true ∧
      (s.pools.lookup ⟨1⟩).map (fun e ↦ (e.descriptor.id, e.read .own)) = some (⟨1⟩, 0) ∧
      s.books [] ⟨1⟩ .own = 40 ∧ ¬s.AggregatesExact := by
  have h : (System.script durableCheck {} (heldScript ++ [.call lostRelease])).any (fun y ↦
      y.live.any fun s ↦ s.validateAccounting.closed &&
        decide ((s.pools.lookup ⟨1⟩).map (fun e ↦ (e.descriptor.id, e.read .own)) =
          some (⟨1⟩, 0)) &&
        decide (s.books [] ⟨1⟩ .own = 40)) = true := by
    decide +kernel
  obtain ⟨y, hy, h⟩ := (Option.any_eq_true _ _).mp h
  obtain ⟨s, hs, h⟩ := (Option.any_eq_true _ _).mp h
  simp only [Bool.and_eq_true, decide_eq_true_eq] at h
  obtain ⟨⟨hclosed, hpool⟩, hbooks⟩ := h
  refine ⟨y, s, System.Run.script durableCheck_durable .refl hy, hs, hclosed, hpool, hbooks, ?_⟩
  intro hexact
  obtain ⟨e, he, heq⟩ := Option.map_eq_some_iff.mp hpool
  obtain ⟨hid, hread⟩ := Prod.mk.inj heq
  have hown := hexact ⟨1⟩ e he .own trivial
  rw [hid, hbooks, hread] at hown
  cases hown

end BufferFabric
