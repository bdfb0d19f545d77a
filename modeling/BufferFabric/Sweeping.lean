import BufferFabric.Closing

/-!
# What a sweep takes

A sweep fences allocations one after the other. Unless a write is lost it goes through exactly if
every pool has, in each of its aggregates, what the fenced allocations take from it together; in
which order they are fenced makes no difference.
-/

namespace BufferFabric

open Outcome

namespace Impl

variable {s t u : Impl} {state : AllocationState} {A B ids : List AllocationId}

def taken (s : Impl) (p : PoolId) (f : Row) (k : AllocationId) : ℕ :=
  ((s.allocations.lookup k).map (·.contrib p f)).getD 0

/-- Every aggregate of every pool has what the listed allocations take from it together. -/
def Covers (s : Impl) (A : List AllocationId) : Prop :=
  ∀ p f, f.Checked → (A.map (s.taken p f)).sum ≤ s.row p f

/-- What a sweep relies on: records are under their own ids, no holder is empty, and pools have
valid ids. -/
structure Sweepable (s : Impl) : Prop where
  keyed : ∀ k r, s.allocations.lookup k = some r → r.id = k
  sized : ∀ k r, s.allocations.lookup k = some r → r.state.holdsUnits = true → 0 < r.units.toNat
  pools : ∀ p e, s.pools.lookup p = some e → p.Valid

theorem Regular.sweepable (h : s.Regular) : s.Sweepable := by
  refine ⟨fun k r hr ↦ h.keyed.allocations k r hr, h.sized, fun p e he ↦ ?_⟩
  have hvalid := h.valid.pools p e.shape (view_pools_lookup he)
  rw [← h.keyed.pool_id he]
  exact (PoolDescriptor.isValid_iff.mp hvalid).1

theorem Sweepable.congr (h : s.Sweepable) (hpools : t.pools = s.pools)
    (hallocations : t.allocations = s.allocations) : t.Sweepable := by
  refine ⟨?_, ?_, ?_⟩
  · rw [hallocations]
    exact h.keyed
  · rw [hallocations]
    exact h.sized
  · rw [hpools]
    exact h.pools

theorem Covers.perm (h : s.Covers A) (hperm : A.Perm B) : s.Covers B := fun p f hf ↦ by
  rw [← (hperm.map (s.taken p f)).sum_eq]
  exact h p f hf

theorem taken_eq {k : AllocationId} {r : AllocationRecord} (hr : s.allocations.lookup k = some r)
    (p : PoolId) (f : Row) : s.taken p f k = r.contrib p f := by
  unfold taken
  rw [hr]
  rfl

theorem row_eq {p : PoolId} {e : PoolEntry} (hl : s.pools.lookup p = some e) (f : Row) :
    s.row p f = e.read f := by
  unfold row
  rw [hl]
  rfl

theorem exists_of_row_pos {p : PoolId} {f : Row} (h : 0 < s.row p f) :
    ∃ e, s.pools.lookup p = some e := by
  unfold row at h
  cases hl : s.pools.lookup p with
  | none =>
      rw [hl] at h
      exact absurd h (Nat.lt_irrefl 0)
  | some e => exact ⟨e, rfl⟩

/-! ### One fence -/

theorem journal_ok_failures {record : JournalRecord} {v : Unit}
    (h : s.journal record = (.ok v, t)) :
    t.store.failures = s.store.failures := by
  rw [journal_failures_eq h, if_pos rfl, Nat.add_zero]

theorem fenceAllocationLocked_failures {key : AllocationId} {r : AllocationRecord} {v : Unit}
    (h : s.fenceAllocationLocked key r state = (.ok v, t)) :
    t.store.failures = s.store.failures := by
  unfold fenceAllocationLocked at h
  split at h
  · cases h
  rename_i entry hl
  split at h
  · cases h
  obtain ⟨pools, hpools, -, -⟩ := applyReleaseUnits_spec (r := r) hl
  split at h
  · cases h
  rename_i w s₁ happly
  rw [happly] at hpools
  dsimp only at hpools
  subst hpools
  dsimp only at h
  split at h
  · cases h
  rename_i w' s₂ hj
  obtain ⟨-, rfl⟩ := Prod.mk.inj h
  have hcount : (s₂.countFence r.pool state).store = s₂.store := by
    unfold countFence modifyPool
    split <;> rfl
  rw [hcount, journal_ok_failures hj]
  rfl

/-- The pool of the record has its own and borrowed units and its units in their state. -/
def Bears (s : Impl) (r : AllocationRecord) : Prop :=
  ∃ e, s.pools.lookup r.pool = some e ∧ e.Bears r

theorem share_le_contrib {r : AllocationRecord} (hholds : r.state.holdsUnits = true) (f : Row) :
    r.share f ≤ r.contrib r.pool f := by
  rw [AllocationRecord.contrib, if_pos hholds, if_pos rfl]
  exact Nat.le_add_right _ _

/-- An allocation is covered exactly if its pool bears it, in its class too, and so does its
lender. -/
theorem covers_singleton (hs : s.Sweepable) {k : AllocationId} {r : AllocationRecord}
    (hr : s.allocations.lookup k = some r) (hholds : r.state.holdsUnits = true) :
    s.Covers [k] ↔ ∃ e, s.pools.lookup r.pool = some e ∧ e.Bears r ∧ s.BearsRest e r := by
  have hsum : ∀ p f, ([k].map (s.taken p f)).sum = r.contrib p f := fun p f ↦ by
    rw [List.map_singleton, List.sum_singleton, taken_eq hr]
  unfold Covers
  simp only [hsum]
  constructor
  · intro hall
    have hpos := hs.sized k r hr hholds
    have hshare : r.share .reserved + r.share .committed = r.units.toNat := by
      unfold AllocationRecord.share
      dsimp only
      split <;> omega
    have hres := (share_le_contrib hholds _).trans (hall r.pool .reserved trivial)
    have hcom := (share_le_contrib hholds _).trans (hall r.pool .committed trivial)
    obtain ⟨e, hl⟩ : ∃ e, s.pools.lookup r.pool = some e := by
      rcases Nat.eq_zero_or_pos (s.row r.pool .reserved) with hzero | hsome
      · exact exists_of_row_pos (f := .committed) (by omega)
      · exact exists_of_row_pos hsome
    have hle : ∀ f, f.Checked → r.share f ≤ e.read f := fun f hf ↦ by
      rw [← row_eq hl]
      exact (share_le_contrib hholds f).trans (hall r.pool f hf)
    refine ⟨e, hl, ⟨hle _ trivial, hle _ trivial, hle _ trivial, hle _ trivial⟩,
      ⟨hle _ trivial, hle _ trivial⟩, fun hb ↦ ?_⟩
    have hlent := hall r.lender .lent trivial
    have hborrowed : 0 < r.borrowed.toNat := by
      rcases Nat.eq_zero_or_pos r.borrowed.toNat with hzero | hsome
      · exact absurd (Word.eq_of_toNat hzero) hb
      · exact hsome
    obtain ⟨l, hlender⟩ : ∃ l, s.pools.lookup r.lender = some l :=
      exists_of_row_pos (f := .lent) (by
        rw [(AllocationRecord.contrib_lender hholds).1] at hlent
        omega)
    refine ⟨hs.pools _ l hlender, l, hlender, ?_, ?_⟩
    · rw [← row_eq hlender]
      exact hlent
    · rw [← row_eq hlender]
      exact hall r.lender .own trivial
  · rintro ⟨e, hl, hbears, hrest⟩ p f hf
    by_cases hp : r.pool = p
    · rw [← hp, row_eq hl]
      exact contrib_le_of_bears hholds hl hbears hrest hf
    rw [AllocationRecord.contrib, if_pos hholds, if_neg hp, Nat.zero_add]
    split
    swap
    · exact Nat.zero_le _
    rename_i hlender
    by_cases hb : r.borrowed = 0
    · have hzero : r.lentShare f = 0 := by
        cases f <;> simp [AllocationRecord.lentShare, hb]
      rw [hzero]
      exact Nat.zero_le _
    obtain ⟨-, l, hl', hlent, hown⟩ := hrest.2 hb
    obtain ⟨hlentPart, hownPart⟩ := AllocationRecord.contrib_lender hholds
    have hne : r.pool ≠ r.lender := fun h ↦ hp (h.trans hlender)
    rw [hlentPart] at hlent
    rw [hownPart, if_neg hne, Nat.zero_add] at hown
    rw [← hlender, row_eq hl']
    cases f with
    | lent => exact hlent
    | own => exact hown
    | _ => exact Nat.zero_le _

/-- What a sweep has done that fenced the listed allocations. -/
structure Returned (s : Impl) (state : AllocationState) (A : List AllocationId) (t : Impl) : Prop
    extends Revoked s state A t where
  rows : ∀ p f, f.Checked → t.row p f + (A.map (s.taken p f)).sum = s.row p f
  members : ∀ p e', t.pools.lookup p = some e' → ∃ e, s.pools.lookup p = some e ∧
    (∀ k ∈ e'.members, k ∈ e.members) ∧ ∀ k ∈ e.members, k ∉ A → k ∈ e'.members
  failures : t.store.failures = s.store.failures

theorem Returned.refl (s : Impl) (state : AllocationState) : s.Returned state [] s :=
  ⟨.refl s state, fun _ _ _ ↦ rfl, fun _ e' he' ↦ ⟨e', he', fun _ hk ↦ hk, fun _ hk _ ↦ hk⟩, rfl⟩

namespace Returned

theorem taken_eq (h : s.Returned state A t) {k : AllocationId} (hk : k ∉ A) (p : PoolId)
    (f : Row) : t.taken p f k = s.taken p f k := by
  unfold taken
  rw [h.toRevoked.lookup_of_notMem hk]

theorem map_taken (h : s.Returned state A t) (hdisjoint : ∀ k ∈ B, k ∉ A) (p : PoolId) (f : Row) :
    B.map (t.taken p f) = B.map (s.taken p f) :=
  List.map_congr_left fun k hk ↦ h.taken_eq (hdisjoint k hk) p f

theorem trans (h : s.Returned state A t) (h' : t.Returned state B u)
    (hdisjoint : ∀ k ∈ B, k ∉ A) : s.Returned state (A ++ B) u := by
  refine ⟨h.toRevoked.trans h'.toRevoked hdisjoint, fun p f hf ↦ ?_, fun p e' he' ↦ ?_,
    h'.failures.trans h.failures⟩
  · have hA := h.rows p f hf
    have hB := h'.rows p f hf
    rw [h.map_taken hdisjoint] at hB
    rw [List.map_append, List.sum_append]
    omega
  · obtain ⟨e₁, he₁, hsub₁, hkeep₁⟩ := h'.members p e' he'
    obtain ⟨e, he, hsub, hkeep⟩ := h.members p e₁ he₁
    refine ⟨e, he, fun k hk ↦ hsub k (hsub₁ k hk), fun k hk hno ↦ ?_⟩
    rw [List.mem_append, not_or] at hno
    exact hkeep₁ k (hkeep k hk hno.1) hno.2

theorem covers (h : s.Returned state A t) : s.Covers A := fun p f hf ↦ by
  have hrow := h.rows p f hf
  omega

/-- What is left has to cover what is fenced later. -/
theorem covers_iff (h : s.Returned state A t) (hdisjoint : ∀ k ∈ B, k ∉ A) :
    s.Covers (A ++ B) ↔ t.Covers B := by
  unfold Covers
  refine forall_congr' fun p ↦ forall_congr' fun f ↦ forall_congr' fun hf ↦ ?_
  have hrow := h.rows p f hf
  rw [h.map_taken hdisjoint, List.map_append, List.sum_append]
  omega

theorem holds (h : s.Returned state A t) (hstate : state.holdsUnits = false) {k : AllocationId}
    {r : AllocationRecord} (hr : t.allocations.lookup k = some r)
    (hholds : r.state.holdsUnits = true) : k ∉ A ∧ s.allocations.lookup k = some r := by
  have hrecord := h.toRevoked.records k
  rw [hr] at hrecord
  obtain ⟨r₀, hr₀, heq⟩ := Option.map_eq_some_iff.mp hrecord.symm
  split at heq
  · rw [← heq] at hholds
    exact absurd hholds (by rw [fencedRecord, hstate]; exact Bool.false_ne_true)
  · rename_i hk
    exact ⟨hk, heq ▸ hr₀⟩

theorem sweepable (h : s.Returned state A t) (hstate : state.holdsUnits = false)
    (hs : s.Sweepable) : t.Sweepable := by
  refine ⟨fun k r hr ↦ ?_, fun k r hr hholds ↦ ?_, fun p e he ↦ ?_⟩
  · have hrecord := h.toRevoked.records k
    rw [hr] at hrecord
    obtain ⟨r₀, hr₀, rfl⟩ := Option.map_eq_some_iff.mp hrecord.symm
    have hid := hs.keyed k r₀ hr₀
    split
    · exact hid
    · exact hid
  · exact hs.sized k r (h.holds hstate hr hholds).2 hholds
  · obtain ⟨e₀, he₀, -⟩ := h.members p e he
    exact hs.pools p e₀ he₀

end Returned

theorem countFence_keeps (s : Impl) (key : PoolId) (state : AllocationState) (p : PoolId) :
    (∀ f, (s.countFence key state).row p f = s.row p f) ∧
      ((s.countFence key state).pools.lookup p).map (·.members) =
        (s.pools.lookup p).map (·.members) := by
  unfold countFence modifyPool row
  split
  · exact ⟨fun _ ↦ rfl, rfl⟩
  rename_i e he
  simp only [putPool]
  rw [Table.lookup_insert_eq]
  by_cases hp : p = key
  · rw [if_pos hp, hp, he]
    cases state with
    | fenced | reclaimed => exact ⟨fun f ↦ by cases f <;> rfl, rfl⟩
    | _ => exact ⟨fun _ ↦ rfl, rfl⟩
  · rw [if_neg hp]
    exact ⟨fun _ ↦ rfl, rfl⟩

theorem fenceAllocationLocked_returned (hs : s.Sweepable) {key : AllocationId}
    {r : AllocationRecord} {v : Unit} (hr : s.allocations.lookup key = some r)
    (h : s.fenceAllocationLocked key r state = (.ok v, t)) :
    s.Returned state [key] t := by
  have hrevoked := fenceAllocationLocked_revoked hr h
  have hquiet := fenceAllocationLocked_failures h
  unfold fenceAllocationLocked at h
  split at h
  · cases h
  rename_i entry hl
  split at h
  · cases h
  rename_i hholds
  rw [Bool.not_eq_true, Bool.not_eq_false'] at hholds
  obtain ⟨pools, hpools, -, hreturned⟩ := applyReleaseUnits_spec (s := s) (r := r) hl
  split at h
  · cases h
  rename_i w s₁ happly
  have hbears : entry.Bears r := by
    by_contra hno
    obtain ⟨e, -, he⟩ := applyReleaseUnits_unborne s r.pool hno
    cases he.symm.trans happly
  have hrest : s.BearsRest entry r :=
    (applyReleaseUnits_borne hholds hl hbears).1.mp (congrArg Prod.fst happly)
  have hcovers : s.Covers [key] := (covers_singleton hs hr hholds).mpr ⟨entry, hl, hbears, hrest⟩
  rw [happly] at hpools hreturned
  dsimp only at hpools
  subst hpools
  obtain ⟨-, hreturned⟩ := hreturned rfl
  dsimp only at h
  split at h
  · cases h
  rename_i w' s₂ hj
  obtain ⟨-, rfl⟩ := Prod.mk.inj h
  have hpools₂ : s₂.pools = pools := by
    rw [eq_of_journal hj]
    rfl
  refine ⟨hrevoked, fun p f hf ↦ ?_, fun p e' he' ↦ ?_, hquiet⟩
  · have hle := hcovers p f hf
    rw [List.map_singleton, List.sum_singleton, taken_eq hr] at hle ⊢
    rw [(s₂.countFence_keeps r.pool state p).1 f]
    unfold row at hle ⊢
    rw [hpools₂, hreturned p]
    cases he : s.pools.lookup p with
    | none =>
        rw [he] at hle
        exact (Nat.zero_add _).trans (Nat.eq_zero_of_le_zero hle)
    | some e =>
        rw [he] at hle
        exact PoolEntry.read_returned hholds hle
  · have hmembers := (s₂.countFence_keeps r.pool state p).2
    rw [he', hpools₂, hreturned p, Option.map_map] at hmembers
    obtain ⟨e, he, hmembers⟩ := Option.map_eq_some_iff.mp hmembers.symm
    have hmembers : (e.returned p r).members = e'.members := hmembers
    refine ⟨e, he, ?_⟩
    rw [← hmembers, PoolEntry.members_returned, hs.keyed key r hr]
    refine ⟨fun k hk ↦ ?_, fun k hk hne ↦ ?_⟩
    · split at hk
      · exact (AList.mem_erase.mp hk).2
      · exact hk
    · split
      · exact AList.mem_erase.mpr ⟨fun h ↦ hne (List.mem_singleton.mpr h), hk⟩
      · exact hk

/-- How a fence fails: a covered allocation is marked and its write is lost; one that its pool
bears and nobody else has been taken from the pool; any other changes nothing. -/
inductive FenceFails (s : Impl) (state : AllocationState) (key : AllocationId)
    (r : AllocationRecord) : Impl → Prop
  | lost {t : Impl} {r' : AllocationRecord} (hcovers : s.Covers [key])
      (hlost : s.store.failures < t.store.failures) (hstate : r'.state = state)
      (hallocations : t.allocations = s.allocations.insert key r') : FenceFails s state key r t
  | broken {t : Impl} (hcovers : ¬s.Covers [key]) (hbears : s.Bears r)
      (hpools : t.pools.lookup r.pool ≠ s.pools.lookup r.pool)
      (hallocations : t.allocations = s.allocations) : FenceFails s state key r t
  | refused (hcovers : ¬s.Covers [key]) (hbears : ¬s.Bears r) : FenceFails s state key r s

theorem fenceAllocationLocked_fails (hs : s.Sweepable) {key : AllocationId} {r : AllocationRecord}
    {e : Status} (hr : s.allocations.lookup key = some r) (hholds : r.state.holdsUnits = true)
    (h : s.fenceAllocationLocked key r state = (.error e, t)) : s.FenceFails state key r t := by
  have hiff := covers_singleton hs hr hholds
  unfold fenceAllocationLocked at h
  split at h
  · rename_i hl
    obtain ⟨-, rfl⟩ := Prod.mk.inj h
    refine .refused (fun hc ↦ ?_) ?_
    · obtain ⟨entry, he, -⟩ := hiff.mp hc
      cases hl.symm.trans he
    · rintro ⟨entry, he, -⟩
      cases hl.symm.trans he
  rename_i entry hl
  rw [hholds, if_neg (by simp)] at h
  have hbears : s.Bears r ↔ entry.Bears r := by
    refine ⟨?_, fun hb ↦ ⟨entry, hl, hb⟩⟩
    rintro ⟨e₀, he₀, hb⟩
    obtain rfl := Option.some.inj (hl.symm.trans he₀)
    exact hb
  by_cases hb : entry.Bears r
  swap
  · obtain ⟨e', -, he'⟩ := applyReleaseUnits_unborne s r.pool hb
    rw [he'] at h
    obtain ⟨-, rfl⟩ := Prod.mk.inj h
    refine .refused (fun hc ↦ ?_) (mt hbears.mp hb)
    obtain ⟨e₀, he₀, hb₀, -⟩ := hiff.mp hc
    exact mt hbears.mp hb ⟨e₀, he₀, hb₀⟩
  obtain ⟨hok, e', he', hres, hcom⟩ := applyReleaseUnits_borne hholds hl hb
  rcases happly : s.applyReleaseUnits r.pool entry r with ⟨e₁ | v, s₁⟩
  · rw [happly] at hok he' h
    obtain ⟨-, rfl⟩ := Prod.mk.inj h
    obtain ⟨pools, hpools, -⟩ := applyReleaseUnits_spec (s := s) (r := r) hl
    rw [happly] at hpools
    dsimp only at hpools
    refine .broken (fun hc ↦ ?_) (hbears.mpr hb) (fun hsame ↦ ?_) (by rw [hpools])
    · obtain ⟨e₀, he₀, -, hrest⟩ := hiff.mp hc
      obtain rfl := Option.some.inj (hl.symm.trans he₀)
      cases hok.mpr hrest
    · rw [hsame, hl] at he'
      obtain rfl := Option.some.inj he'
      have hpos := hs.sized key r hr hholds
      have hshare : r.share .reserved + r.share .committed = r.units.toNat := by
        unfold AllocationRecord.share
        dsimp only
        split <;> omega
      omega
  · rw [happly] at hok h
    dsimp only at h
    split at h
    swap
    · cases h
    rename_i e₂ s₂ hj
    obtain ⟨-, rfl⟩ := Prod.mk.inj h
    obtain ⟨pools, hpools, -⟩ := applyReleaseUnits_spec (s := s) (r := r) hl
    rw [happly] at hpools
    dsimp only at hpools
    subst hpools
    have hlt := journal_failures hj
    refine .lost (hiff.mpr ⟨entry, hl, hb, hok.mp rfl⟩) hlt
      (show (s.fencedRecord state r).state = state from rfl) ?_
    rw [eq_of_journal hj]
    rfl

theorem fenceAllocationLocked_from {key : AllocationId} {r : AllocationRecord}
    {result : Except Status Unit} (h : s.fenceAllocationLocked key r state = (result, t)) :
    s.FencedFrom t := by
  have hframe := fenceAllocationLocked_frame s key r state
  have hshapes := fenceAllocationLocked_shapes s key r state
  rw [h] at hframe hshapes
  exact ⟨hframe, hshapes⟩

/-! ### Loops -/

def selected (s : Impl) (select : AllocationRecord → Bool) (k : AllocationId) : Bool :=
  (s.allocations.lookup k).any fun r ↦ r.state.holdsUnits && select r

/-- The listed allocations up to the first that finds the pool at a usage at which the sweep
stops. -/
def upTo (s : Impl) (p : PoolId) (stop : ℕ → Bool) : ℕ → List AllocationId → List AllocationId
  | _, [] => []
  | own, k :: ks => if stop own then [] else k :: s.upTo p stop (own - s.taken p .own k) ks

section

variable {p : PoolId} {stop : ℕ → Bool} {own : ℕ}

theorem upTo_stopped (h : stop own = true) : s.upTo p stop own ids = [] := by
  cases ids with
  | nil => rfl
  | cons k ks => exact if_pos h

theorem upTo_never : s.upTo p (fun _ ↦ false) own ids = ids := by
  induction ids generalizing own with
  | nil => rfl
  | cons k ks ih =>
      unfold upTo
      rw [if_neg Bool.false_ne_true, ih]

theorem upTo_starts : s.upTo p stop own ids <+: ids := by
  induction ids generalizing own with
  | nil => exact List.prefix_refl _
  | cons k ks ih =>
      unfold upTo
      split
      · exact List.nil_prefix
      · exact List.cons_prefix_cons.mpr ⟨rfl, ih⟩

theorem upTo_congr (h : ∀ k ∈ ids, t.taken p .own k = s.taken p .own k) :
    t.upTo p stop own ids = s.upTo p stop own ids := by
  induction ids generalizing own with
  | nil => rfl
  | cons k ks ih =>
      unfold upTo
      rw [h k List.mem_cons_self]
      simp only [ih fun k hk ↦ h k (List.mem_cons_of_mem _ hk)]

end

theorem Covers.of_append_left (h : s.Covers (A ++ B)) : s.Covers A := fun p f hf ↦ by
  have hle := h p f hf
  rw [List.map_append, List.sum_append] at hle
  omega

/-- A sweep of `A` that is over: it has fenced `A`, or it fails at an allocation `k` of it, before
which it has fenced the others. -/
inductive Sweeps {α : Type} (s : Impl) (state : AllocationState) (A : List AllocationId) :
    Outcome α → Prop
  | done {a : α} {t : Impl} (hreturned : s.Returned state A t) : Sweeps s state A (.ok a, t)
  | failed {pre post : List AllocationId} {k : AllocationId} {r : AllocationRecord} {u t : Impl}
      {e : Status} (hA : A = pre ++ k :: post) (hreturned : s.Returned state pre u)
      (hfirst : pre = [] → u = s) (hframe : u.FencedFrom t)
      (hr : u.allocations.lookup k = some r) (hholds : r.state.holdsUnits = true)
      (hfails : u.FenceFails state k r t) : Sweeps s state A (.error e, t)

/-- A sweep of `A`, in some order, that is through or has failed on a lost write or on what is not
covered. -/
inductive Goes {α : Type} (s : Impl) (state : AllocationState) (A : List AllocationId) :
    Outcome α → Prop
  | through {a : α} {t : Impl} {B : List AllocationId} (hreturned : s.Returned state B t)
      (hperm : B.Perm A) : Goes s state A (.ok a, t)
  | failed {e : Status} {t : Impl} (hframe : s.FencedFrom t)
      (h : s.store.failures < t.store.failures ∨ ¬s.Covers A) : Goes s state A (.error e, t)

theorem Goes.ended {α : Type} {a : α} (h : s.Goes state A (.ok a, t)) :
    t.store.failures = s.store.failures ∧ s.Covers A := by
  cases h with
  | through hreturned hperm => exact ⟨hreturned.failures, hreturned.covers.perm hperm⟩

theorem Goes.stopped {α : Type} {e : Status} (h : s.Goes state A ((.error e, t) : Outcome α)) :
    s.FencedFrom t ∧ ¬(t.store.failures = s.store.failures ∧ s.Covers A) := by
  cases h with
  | failed hframe h =>
      refine ⟨hframe, ?_⟩
      rintro ⟨hquiet, hcovers⟩
      rcases h with hlt | hno
      · exact hlt.ne' hquiet
      · exact hno hcovers

theorem Sweeps.goes {α : Type} {result : Outcome α} (h : s.Sweeps state A result)
    (hnodup : A.Nodup) : s.Goes state A result := by
  cases h with
  | done hreturned => exact .through hreturned (.refl A)
  | @failed pre post k r u t e hA hreturned _ hframe hr hholds hfails =>
      have hnew : ∀ k' ∈ [k], k' ∉ pre := by
        rw [hA] at hnodup
        intro k' hk' hpre
        obtain rfl := List.mem_singleton.mp hk'
        exact List.disjoint_of_nodup_append hnodup hpre List.mem_cons_self
      have hshort : s.Covers A → u.Covers [k] := fun hall ↦ by
        rw [hA, ← List.singleton_append, ← List.append_assoc] at hall
        exact (hreturned.covers_iff hnew).mp hall.of_append_left
      have hframe := hreturned.frame.trans hframe
      cases hfails with
      | lost hone hlost => exact .failed hframe (.inl (hreturned.failures ▸ hlost))
      | broken hone => exact .failed hframe (.inr fun hall ↦ hone (hshort hall))
      | refused hone => exact .failed hframe (.inr fun hall ↦ hone (hshort hall))

/-- A sweep behind one allocation that was fenced. -/
theorem Sweeps.cons {α : Type} {result : Outcome α} {k : AllocationId}
    (hone : s.Returned state [k] t) (hnew : k ∉ A) (h : t.Sweeps state A result) :
    s.Sweeps state (k :: A) result := by
  have hdisjoint : ∀ k' ∈ A, k' ∉ [k] := fun k' hk' hk ↦ by
    rw [List.mem_singleton.mp hk] at hk'
    exact hnew hk'
  cases h with
  | done hreturned => exact .done (hone.trans hreturned hdisjoint)
  | @failed pre post k' r u v e hA hreturned _ hframe hr hholds hfails =>
      have hdisjoint' : ∀ k' ∈ pre, k' ∉ [k] := fun k' hk' ↦ hdisjoint k' (by
        rw [hA]
        exact List.mem_append_left _ hk')
      have hA' : k :: A = (k :: pre) ++ k' :: post := congrArg (k :: ·) hA
      exact .failed hA' (hone.trans hreturned hdisjoint')
        (fun h ↦ absurd h (List.cons_ne_nil _ _)) hframe hr hholds hfails

/-- A loop sweeps what it selects, up to where the own usage of a pool tells it to stop. -/
theorem fenceEach_sweeps (p : PoolId) (stop : ℕ → Bool) (select : AllocationRecord → Bool)
    (hs : s.Sweepable) (hstate : state.holdsUnits = false) (hids : ids.Nodup)
    (tally : FenceTally) :
    s.Sweeps state (s.upTo p stop (s.row p .own) (ids.filter (s.selected select)))
      (fenceEach (fun s ↦ stop (s.row p .own)) (fun _ ↦ select) state ids tally s) := by
  induction ids generalizing s tally with
  | nil => exact .done (.refl s state)
  | cons id ids ih =>
      obtain ⟨hid, hids⟩ := List.nodup_cons.mp hids
      unfold fenceEach
      split
      · rename_i hstop
        rw [upTo_stopped hstop]
        exact .done (.refl s state)
      rename_i hgo
      split
      · rename_i hnone
        have hskip : ¬s.selected select id = true := by
          unfold selected
          rw [hnone]
          exact Bool.false_ne_true
        rw [List.filter_cons_of_neg hskip]
        exact ih hs hids tally
      rename_i r hr
      split
      · rename_i hno
        have hskip : ¬s.selected select id = true := by
          unfold selected
          rw [hr, Option.any_some]
          cases hholds : r.state.holdsUnits <;> simp_all
        rw [List.filter_cons_of_neg hskip]
        exact ih hs hids tally
      rename_i hsel
      rw [Bool.not_eq_true, Bool.or_eq_false_iff, Bool.not_eq_false', Bool.not_eq_false'] at hsel
      obtain ⟨hholds, hsel⟩ := hsel
      have htake : s.selected select id = true := by
        unfold selected
        rw [hr, Option.any_some, hholds, hsel]
        rfl
      rw [List.filter_cons_of_pos htake]
      unfold upTo
      rw [if_neg hgo]
      split
      · rename_i e t hone
        exact .failed (List.nil_append _).symm (.refl s state) (fun _ ↦ rfl)
          (fenceAllocationLocked_from hone) hr hholds
          (fenceAllocationLocked_fails hs hr hholds hone)
      rename_i v t hone
      have hreturned := fenceAllocationLocked_returned hs hr hone
      have hother : ∀ k ∈ ids, k ∉ [id] := fun k hk hk' ↦ by
        rw [List.mem_singleton.mp hk'] at hk
        exact hid hk
      have hfilter : ids.filter (t.selected select) = ids.filter (s.selected select) :=
        List.filter_congr fun k hk ↦ by
          unfold selected
          rw [hreturned.toRevoked.lookup_of_notMem (hother k hk)]
      have hrow : t.row p .own = s.row p .own - s.taken p .own id := by
        have hrow := hreturned.rows p .own trivial
        rw [List.map_singleton, List.sum_singleton] at hrow
        omega
      have hrest := ih (hreturned.sweepable hstate hs) hids
        { allocations := tally.allocations + 1
          units := tally.units + r.units
          borrow := tally.borrow + r.borrowUnits }
      rw [hfilter, hrow, upTo_congr fun k hk ↦
        hreturned.taken_eq (hother k (List.mem_of_mem_filter hk)) p .own] at hrest
      exact .cons hreturned (fun hk ↦ hid (List.mem_of_mem_filter (upTo_starts.subset hk))) hrest

/-! ### The sweeps of the fabric -/

theorem covers_congr (hpools : t.pools = s.pools) (hallocations : t.allocations = s.allocations) :
    t.Covers A ↔ s.Covers A := by
  unfold Covers row taken
  rw [hpools, hallocations]

theorem idsWhere_nodup (s : Impl) (P : AllocationRecord → Bool) : (s.idsWhere P).Nodup := by
  have hkeys : (s.allocations.toList.map Prod.fst).Nodup := by
    unfold Table.toList
    rw [List.map_map]
    exact s.allocations.keys_nodup
  unfold idsWhere sortIds
  exact (List.perm_insertionSort _ _).nodup_iff.mpr (hkeys.sublist (List.filter_sublist.map _))

theorem filter_selected (h : ∀ k ∈ ids, ∃ r, s.allocations.lookup k = some r ∧
    r.state.holdsUnits = true) : ids.filter (s.selected fun _ ↦ true) = ids :=
  List.filter_eq_self.mpr fun k hk ↦ by
    obtain ⟨r, hr, hholds⟩ := h k hk
    unfold selected
    rw [hr, Option.any_some, hholds]
    rfl

theorem recordsOfQueue_holds (s : Impl) (queue : QueueId) :
    ∀ k ∈ s.recordsOfQueue queue, ∃ r, s.allocations.lookup k = some r ∧
      r.state.holdsUnits = true := by
  intro k hk
  obtain ⟨r, hr, hsel⟩ := mem_idsWhere.mp hk
  exact ⟨r, hr, (Bool.and_eq_true_iff.mp hsel).2⟩

/-- Retiring a queue, and moving it, sweeps what it holds. -/
theorem fenceQueue_sweeps (hs : s.Sweepable) (queue : QueueId) :
    s.Sweeps .fenced (s.recordsOfQueue queue)
      (fenceEach (fun _ ↦ false) (fun _ _ ↦ true) .fenced (s.recordsOfQueue queue) {} s) := by
  have hloop : s.Sweeps .fenced _ _ := fenceEach_sweeps default (fun _ ↦ false)
    (fun _ ↦ true) hs rfl (s.idsWhere_nodup fun r ↦
      decide (r.queue = queue) && r.state.holdsUnits) {}
  rw [upTo_never] at hloop
  have hall := filter_selected (s.recordsOfQueue_holds queue)
  unfold recordsOfQueue at hall ⊢
  rwa [hall] at hloop

/-- What a new revision of a policy fences: the members of the pools it governs that were granted
under another one. -/
def policyVictims (s : Impl) (policy : PolicyId) (generation : Generation) : List AllocationId :=
  s.idsWhere fun r ↦ (r.state.holdsUnits && decide (r.bound.policyGeneration ≠ generation)) &&
    s.pools.toList.any fun e ↦
      decide (e.2.descriptor.policy = policy) && decide (r.id ∈ e.2.members)

theorem fencePolicyPools_goes {policy : PolicyId} {generation : Generation} {keys : List PoolId}
    (hs : s.Sweepable) (hA : A.Nodup)
    (hmem : ∀ k, k ∈ A ↔ ∃ key ∈ keys, ∃ e, s.pools.lookup key = some e ∧
      e.descriptor.policy = policy ∧ k ∈ e.members ∧
        s.selected (fun r ↦ decide (r.bound.policyGeneration ≠ generation)) k = true) :
    s.Goes .fenced A (fencePolicyPools policy generation keys s) := by
  induction keys generalizing s A with
  | nil =>
      have hnil : A = [] := List.eq_nil_iff_forall_not_mem.mpr fun k hk ↦ by
        obtain ⟨key, hkey, -⟩ := (hmem k).mp hk
        exact List.not_mem_nil hkey
      rw [hnil]
      exact .through (.refl s _) (.refl _)
  | cons key keys ih =>
      -- a pool that is not governed has no part in the sweep
      have hskip : (∀ e, s.pools.lookup key = some e → e.descriptor.policy ≠ policy) →
          s.Goes .fenced A (fencePolicyPools policy generation keys s) := fun hno ↦ by
        refine ih hs hA fun k ↦ (hmem k).trans ⟨?_, ?_⟩
        · rintro ⟨key', hkey', e, he, hpolicy, hrest⟩
          rcases List.mem_cons.mp hkey' with rfl | hkey'
          · exact absurd hpolicy (hno e he)
          · exact ⟨key', hkey', e, he, hpolicy, hrest⟩
        · rintro ⟨key', hkey', hrest⟩
          exact ⟨key', List.mem_cons_of_mem _ hkey', hrest⟩
      unfold fencePolicyPools
      split
      · rename_i hnone
        exact hskip fun e he ↦ by cases hnone.symm.trans he
      rename_i entry hl
      split
      · rename_i hne
        exact hskip fun e he ↦ Option.some.inj (hl.symm.trans he) ▸ hne
      rename_i hgoverned
      rw [not_not] at hgoverned
      have hloop : s.Sweeps .fenced _ _ := fenceEach_sweeps key (fun _ ↦ false)
        (fun r ↦ decide (r.bound.policyGeneration ≠ generation)) hs rfl
        entry.sortedMembers_nodup {}
      rw [upTo_never] at hloop
      generalize hfirst : entry.sortedMembers.filter
        (s.selected fun r ↦ decide (r.bound.policyGeneration ≠ generation)) = A₁ at hloop
      have hmem₁ : ∀ k, k ∈ A₁ ↔ k ∈ entry.members ∧
          s.selected (fun r ↦ decide (r.bound.policyGeneration ≠ generation)) k = true := fun k ↦ by
        rw [← hfirst, List.mem_filter, PoolEntry.mem_sortedMembers]
      have hA₁ : A₁.Nodup := hfirst ▸ entry.sortedMembers_nodup.filter _
      have hsub : ∀ k ∈ A₁, k ∈ A := fun k hk ↦
        (hmem k).mpr ⟨key, List.mem_cons_self, entry, hl, hgoverned, (hmem₁ k).mp hk⟩
      have hdisjoint : ∀ k ∈ A.filter (· ∉ A₁), k ∉ A₁ := fun k hk ↦
        of_decide_eq_true (List.mem_filter.mp hk).2
      have hperm : A.Perm (A₁ ++ A.filter (· ∉ A₁)) := by
        refine (List.perm_ext_iff_of_nodup hA (List.Nodup.append hA₁ (hA.filter _)
          fun k hk hk' ↦ hdisjoint k hk' hk)).mpr fun k ↦ ?_
        rw [List.mem_append, List.mem_filter, decide_eq_true_eq]
        constructor
        · intro hk
          by_cases hk₁ : k ∈ A₁
          · exact .inl hk₁
          · exact .inr ⟨hk, hk₁⟩
        · rintro (hk | ⟨hk, -⟩)
          · exact hsub k hk
          · exact hk
      have hcovers : s.Covers A ↔ s.Covers (A₁ ++ A.filter (· ∉ A₁)) :=
        ⟨fun h ↦ h.perm hperm, fun h ↦ h.perm hperm.symm⟩
      split
      · rename_i e t hone
        rw [hone] at hloop
        cases hloop.goes hA₁ with
        | failed hframe h =>
            exact .failed hframe
              (h.imp_right (mt fun hall ↦ (hcovers.mp hall).of_append_left))
      rename_i v t hone
      rw [hone] at hloop
      cases hloop with
      | done hreturned =>
          have hmem' : ∀ k, k ∈ A.filter (· ∉ A₁) ↔ ∃ key' ∈ keys, ∃ e,
              t.pools.lookup key' = some e ∧ e.descriptor.policy = policy ∧ k ∈ e.members ∧
                t.selected (fun r ↦ decide (r.bound.policyGeneration ≠ generation)) k = true := by
            intro k
            constructor
            · intro hk
              have hk₁ := hdisjoint k hk
              obtain ⟨key', hkey', e, he, hpolicy, hmember, hsel⟩ :=
                (hmem k).mp (List.mem_of_mem_filter hk)
              rcases List.mem_cons.mp hkey' with rfl | hkey'
              · obtain rfl := Option.some.inj (hl.symm.trans he)
                exact absurd ((hmem₁ k).mpr ⟨hmember, hsel⟩) hk₁
              obtain ⟨e', he', hshape⟩ := hreturned.toRevoked.frame.shapes.symm.lookup_some he
              obtain ⟨e₀, he₀, -, hkeep⟩ := hreturned.members key' e' he'
              obtain rfl := Option.some.inj (he.symm.trans he₀)
              refine ⟨key', hkey', e', he', ?_, hkeep k hmember hk₁, ?_⟩
              · rw [← PoolEntry.descriptor_eq_of_shape hshape]
                exact hpolicy
              · unfold selected at hsel ⊢
                rw [hreturned.toRevoked.lookup_of_notMem hk₁]
                exact hsel
            · rintro ⟨key', hkey', e', he', hpolicy, hmember, hsel⟩
              obtain ⟨e, he, hold, -⟩ := hreturned.members key' e' he'
              obtain ⟨e₀, he₀, hshape⟩ := hreturned.toRevoked.frame.shapes.lookup_some he'
              obtain rfl := Option.some.inj (he.symm.trans he₀)
              unfold selected at hsel
              obtain ⟨r, hr, hsel⟩ := (Option.any_eq_true _ _).mp hsel
              obtain ⟨hk₁, hr₀⟩ := hreturned.holds rfl hr (Bool.and_eq_true_iff.mp hsel).1
              refine List.mem_filter.mpr ⟨(hmem k).mpr ⟨key', List.mem_cons_of_mem _ hkey', e, he,
                ?_, hold k hmember, ?_⟩, decide_eq_true hk₁⟩
              · rw [← PoolEntry.descriptor_eq_of_shape hshape]
                exact hpolicy
              · unfold selected
                rw [hr₀]
                exact hsel
          have hrest := ih (hreturned.sweepable rfl hs) (hA.filter _) hmem'
          generalize fencePolicyPools policy generation keys t = result at hrest ⊢
          cases hrest with
          | through hafter hperm' =>
              refine .through
                (hreturned.trans hafter fun k hk ↦ hdisjoint k (hperm'.mem_iff.mp hk)) ?_
              exact (hperm'.append_left A₁).trans hperm.symm
          | failed hframe h =>
              refine .failed (hreturned.frame.trans hframe)
                (h.imp (fun hlt ↦ hreturned.failures ▸ hlt) (mt fun hall ↦ ?_))
              exact (hreturned.covers_iff hdisjoint).mp (hcovers.mp hall)

theorem fencePolicies_goes (hs : s.Sweepable) (policy : PolicyId) (generation : Generation) :
    s.Goes .fenced (s.policyVictims policy generation)
      (fencePolicyPools policy generation s.pools.keys s) := by
  refine fencePolicyPools_goes hs (s.idsWhere_nodup _) fun k ↦ ?_
  unfold policyVictims
  rw [mem_idsWhere]
  constructor
  · rintro ⟨r, hr, hsel⟩
    obtain ⟨hsel, hmember⟩ := Bool.and_eq_true_iff.mp hsel
    obtain ⟨⟨key, e⟩, he, hmember⟩ := List.any_eq_true.mp hmember
    obtain ⟨hpolicy, hmember⟩ := Bool.and_eq_true_iff.mp hmember
    have hl := Table.mem_toList.mp he
    refine ⟨key, AList.mem_keys.mpr (AList.lookup_isSome.mp (by rw [hl]; rfl)), e, hl,
      of_decide_eq_true hpolicy, hs.keyed k r hr ▸ of_decide_eq_true hmember, ?_⟩
    unfold selected
    rw [hr]
    exact hsel
  · rintro ⟨key, -, e, hl, hpolicy, hmember, hsel⟩
    unfold selected at hsel
    obtain ⟨r, hr, hsel⟩ := (Option.any_eq_true _ _).mp hsel
    refine ⟨r, hr, Bool.and_eq_true_iff.mpr ⟨hsel, List.any_eq_true.mpr ⟨(key, e),
      Table.mem_toList.mpr hl, ?_⟩⟩⟩
    simp [hpolicy, hs.keyed k r hr, hmember]

theorem withinAllowance_eq (p : PoolId) (allowance : UInt64) :
    withinAllowance p allowance = fun s ↦ decide (s.row p .own ≤ allowance.toNat) := by
  funext s
  unfold withinAllowance row
  cases s.pools.lookup p with
  | none => rfl
  | some e => exact decide_eq_decide.mpr Word.le_iff

/-- The borrowers that are left are those that were not fenced. -/
theorem Returned.borrowersOf (h : s.Returned state A t) (hstate : state.holdsUnits = false)
    (p : PoolId) : t.borrowersOf p = (s.borrowersOf p).filter fun k ↦ !A.contains k := by
  have hs := s.borrowersOf_enumerates p
  refine (t.borrowersOf_enumerates p).unique ⟨hs.sorted.filter _, fun k ↦ ?_⟩
  rw [List.mem_filter, hs.mem, List.contains_eq_mem, Bool.not_eq_true', decide_eq_false_iff_not]
  constructor
  · rintro ⟨⟨r, hr, hborrows⟩, hk⟩
    exact ⟨r, (h.toRevoked.lookup_of_notMem hk).trans hr, hborrows⟩
  · rintro ⟨r, hr, hholds, hborrows⟩
    obtain ⟨hk, hr₀⟩ := h.holds hstate hr hholds
    exact ⟨⟨r, hr₀, hholds, hborrows⟩, hk⟩

/-- What a new size fences: members in the order of victims until the pool is within its limit, or
all of them, and then borrowers by id. -/
def sizeVictims (s : Impl) (p : PoolId) (entry : PoolEntry) (all : Bool) : List AllocationId :=
  let limit := (satAdd entry.usable (s.allowanceUnits entry)).toNat
  let own := s.upTo p (fun own ↦ !all && decide (own ≤ limit)) (s.row p .own)
    ((entry.sortedMembers.insertionSort fun a b ↦ s.victimBefore b a = false).filter
      (s.selected fun _ ↦ true))
  own ++ s.upTo p (fun own ↦ decide (own ≤ limit))
    (s.row p .own - (own.map (s.taken p .own)).sum)
    ((s.borrowersOf entry.descriptor.id).filter fun k ↦ !own.contains k)

theorem enforceCapacity_goes (hs : s.Sweepable) (p : PoolId) (entry : PoolEntry) (all : Bool) :
    s.Goes .fenced (s.sizeVictims p entry all) (s.enforceCapacity p entry all) := by
  have hvictims : (entry.sortedMembers.insertionSort fun a b ↦ s.victimBefore b a = false).Nodup :=
    (List.perm_insertionSort _ _).nodup_iff.mpr entry.sortedMembers_nodup
  unfold enforceCapacity sizeVictims
  simp only [withinAllowance_eq]
  generalize satAdd entry.usable (s.allowanceUnits entry) = allowance
  have hown : s.Sweeps .fenced _ _ := fenceEach_sweeps p
    (fun own ↦ !all && decide (own ≤ allowance.toNat)) (fun _ ↦ true) hs rfl hvictims {}
  have hA : (s.upTo p (fun own ↦ !all && decide (own ≤ allowance.toNat)) (s.row p .own)
      ((entry.sortedMembers.insertionSort fun a b ↦ s.victimBefore b a = false).filter
        (s.selected fun _ ↦ true))).Nodup :=
    (hvictims.filter _).sublist upTo_starts.sublist
  generalize s.upTo p (fun own ↦ !all && decide (own ≤ allowance.toNat)) (s.row p .own) _ = A
    at hown hA ⊢
  split
  · rename_i e t hone
    rw [hone] at hown
    cases hown.goes hA with
    | failed hframe h => exact .failed hframe (h.imp_right (mt Covers.of_append_left))
  rename_i own s₁ hone
  rw [hone] at hown
  cases hown with
  | done hreturned =>
      have hrow : s₁.row p .own = s.row p .own - (A.map (s.taken p .own)).sum := by
        have hrow := hreturned.rows p .own trivial
        omega
      rw [← hrow, ← hreturned.borrowersOf rfl]
      have hborrowers : (s₁.borrowersOf entry.descriptor.id).Nodup := s₁.idsWhere_nodup _
      have hnew : ∀ k ∈ s₁.borrowersOf entry.descriptor.id, k ∉ A := fun k hk ↦ by
        rw [hreturned.borrowersOf rfl, List.mem_filter, List.contains_eq_mem, Bool.not_eq_true',
          decide_eq_false_iff_not] at hk
        exact hk.2
      have hcandidates : (if decide (s₁.row p .own ≤ allowance.toNat) = true then []
          else s₁.borrowersOf entry.descriptor.id).Nodup := by
        split
        · exact List.nodup_nil
        · exact hborrowers
      have hlent : s₁.Sweeps .fenced _ _ := fenceEach_sweeps p
        (fun own ↦ decide (own ≤ allowance.toNat)) (fun _ ↦ true)
        (hreturned.sweepable rfl hs) rfl hcandidates {}
      -- within its limit the pool needs no borrower; beyond it the candidates are all borrowers
      have hB : s₁.upTo p (fun own ↦ decide (own ≤ allowance.toNat)) (s₁.row p .own)
          ((if decide (s₁.row p .own ≤ allowance.toNat) = true then []
            else s₁.borrowersOf entry.descriptor.id).filter (s₁.selected fun _ ↦ true)) =
          s.upTo p (fun own ↦ decide (own ≤ allowance.toNat)) (s₁.row p .own)
            (s₁.borrowersOf entry.descriptor.id) := by
        by_cases hwithin : decide (s₁.row p .own ≤ allowance.toNat) = true
        · rw [upTo_stopped hwithin, upTo_stopped hwithin]
        · rw [if_neg hwithin, filter_selected fun k hk ↦ ?_]
          · exact upTo_congr fun k hk ↦ hreturned.taken_eq (hnew k hk) p .own
          · obtain ⟨r, hr, hholds, -⟩ := ((s₁.borrowersOf_enumerates _).mem k).mp hk
            exact ⟨r, hr, hholds⟩
      rw [hB] at hlent
      generalize hfenced : s.upTo p (fun own ↦ decide (own ≤ allowance.toNat)) (s₁.row p .own)
        (s₁.borrowersOf entry.descriptor.id) = B at hlent ⊢
      have hBsub : ∀ k ∈ B, k ∈ s₁.borrowersOf entry.descriptor.id := fun k hk ↦
        upTo_starts.subset (hfenced ▸ hk)
      have hdisjoint : ∀ k ∈ B, k ∉ A := fun k hk ↦ hnew k (hBsub k hk)
      have hBnodup : B.Nodup := hfenced ▸ hborrowers.sublist upTo_starts.sublist
      split
      · rename_i e t hone'
        rw [hone'] at hlent
        cases hlent.goes hBnodup with
        | failed hframe h =>
            exact .failed (hreturned.frame.trans hframe) (h.imp (fun hlt ↦ hreturned.failures ▸ hlt)
              (mt (hreturned.covers_iff hdisjoint).mp))
      · rename_i lent t hone'
        rw [hone'] at hlent
        cases hlent with
        | done hreturned' => exact .through (hreturned.trans hreturned' hdisjoint) (.refl _)

/-- After a sweep a pool closes exactly if what is left in its rows balances. -/
theorem Returned.closes_iff {p : PoolId} {e e' : PoolEntry} {policy : PoolPolicy}
    (h : s.Returned state A t) (hl : s.pools.lookup p = some e) (hd : e.descriptor.IsValid)
    (hp : s.policies.lookup e.descriptor.policy = some policy) (hvalid : policy.IsValid)
    (he' : t.pools.lookup p = some e') :
    t.checkClosure e' = .ok () ↔ e.descriptor.Balances policy.allowanceUnits.toNat fun f ↦
      s.row p f - (A.map (s.taken p f)).sum := by
  obtain ⟨e₀, he₀, hshape⟩ := h.toRevoked.frame.shapes.lookup_some he'
  obtain rfl := Option.some.inj (hl.symm.trans he₀)
  have hdescriptor := PoolEntry.descriptor_eq_of_shape hshape
  have hpolicies : t.policies = s.policies := by
    obtain ⟨pools, allocations, store, heq⟩ := h.toRevoked.frame.frame
    rw [heq]
  have hrows : ∀ f, f.Checked → e'.read f = s.row p f - (A.map (s.taken p f)).sum := fun f hf ↦ by
    have hrow := h.rows p f hf
    rw [row_eq he'] at hrow
    omega
  rw [checkClosure_iff_balances (by rw [hdescriptor]; exact hd)
    (by rw [hdescriptor, hpolicies]; exact hp) hvalid, hdescriptor]
  exact ⟨fun hb ↦ hb.congr fun f hf ↦ (hrows f hf).symm, fun hb ↦ hb.congr hrows⟩

end Impl

end BufferFabric
