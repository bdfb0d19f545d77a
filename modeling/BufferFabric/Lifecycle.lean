import BufferFabric.Attempts

/-!
# The life of an allocation

What one call can do to an allocation record: nothing, or one advance. An advance starts
from a record that holds units, keeps its identity, takes units away but never adds any,
and raises the revision by one.
-/

namespace BufferFabric

open Outcome

namespace AllocationState

inductive Moves : AllocationState → AllocationState → Prop
  | stay (state : AllocationState) : Moves state state
  | commit : Moves .reserved .committed
  | release {state : AllocationState} (h : state.holdsUnits = true) : Moves state .released
  | fence {state : AllocationState} (h : state.holdsUnits = true) : Moves state .fenced
  | reclaim {state : AllocationState} (h : state.holdsUnits = true) : Moves state .reclaimed
  | expire : Moves .reserved .expired

end AllocationState

namespace AllocationRecord

structure SameIdentity (r r' : AllocationRecord) : Prop where
  id : r'.id = r.id
  pool : r'.pool = r.pool
  queue : r'.queue = r.queue
  reclaimClass : r'.reclaimClass = r.reclaimClass
  attempt : r'.attempt = r.attempt
  lineage : r'.lineage = r.lineage

/-- One change of a record; `rebinds` is the condition for new bound generations. -/
structure Advances (rebinds : Prop) (r r' : AllocationRecord) : Prop where
  holds : r.state.holdsUnits = true
  state : r.state.Moves r'.state
  same : r.SameIdentity r'
  units : r'.units ≤ r.units
  borrowUnits : r'.borrowUnits ≤ r.borrowUnits
  bound : r'.bound = r.bound ∨ rebinds
  revision : r'.revision = r.revision + 1

structure Becomes (r r' : AllocationRecord) : Prop where
  ended : r.state.holdsUnits = false → r' = r
  same : r.SameIdentity r'
  units : r'.units ≤ r.units
  borrowUnits : r'.borrowUnits ≤ r.borrowUnits

theorem SameIdentity.refl (r : AllocationRecord) : r.SameIdentity r :=
  ⟨rfl, rfl, rfl, rfl, rfl, rfl⟩

theorem SameIdentity.trans {r r' r'' : AllocationRecord} (h : r.SameIdentity r')
    (h' : r'.SameIdentity r'') : r.SameIdentity r'' :=
  ⟨h'.id.trans h.id, h'.pool.trans h.pool, h'.queue.trans h.queue,
    h'.reclaimClass.trans h.reclaimClass, h'.attempt.trans h.attempt, h'.lineage.trans h.lineage⟩

namespace Becomes

variable {r r' r'' : AllocationRecord} {rebinds : Prop}

theorem refl (r : AllocationRecord) : r.Becomes r :=
  ⟨fun _ ↦ rfl, .refl r, UInt64.le_refl _, UInt64.le_refl _⟩

theorem trans (h : r.Becomes r') (h' : r'.Becomes r'') : r.Becomes r'' := by
  refine ⟨?_, h.same.trans h'.same, UInt64.le_trans h'.units h.units,
    UInt64.le_trans h'.borrowUnits h.borrowUnits⟩
  intro hended
  obtain rfl := h.ended hended
  exact h'.ended hended

theorem of_advances (h : r' = r ∨ r.Advances rebinds r') : r.Becomes r' := by
  rcases h with rfl | h
  · exact .refl _
  · refine ⟨?_, h.same, h.units, h.borrowUnits⟩
    intro hended
    rw [h.holds] at hended
    cases hended

end Becomes

/-! ### The changes of the code -/

theorem holds_of_reserved {r : AllocationRecord} (h : r.state = .reserved) :
    r.state.holdsUnits = true := by
  rw [h]
  rfl

theorem fenced_advances (s : Impl) {r : AllocationRecord} {state : AllocationState}
    (hholds : r.state.holdsUnits = true) (hstate : state.holdsUnits = false)
    (hexpired : state = .expired → r.state = .reserved) :
    r.Advances False (s.fencedRecord state r) := by
  refine ⟨hholds, ?_, ⟨rfl, rfl, rfl, rfl, rfl, rfl⟩, UInt64.le_refl _, UInt64.le_refl _, .inl rfl,
    rfl⟩
  change r.state.Moves state
  cases state with
  | reserved => cases hstate
  | committed => cases hstate
  | fenced => exact .fence hholds
  | reclaimed => exact .reclaim hholds
  | released => exact .release hholds
  | expired =>
      rw [hexpired rfl]
      exact .expire

theorem committed_advances (s : Impl) {r : AllocationRecord} (hs : r.state = .reserved) :
    r.Advances False (s.committedRecord r) := by
  refine ⟨holds_of_reserved hs, ?_, ⟨rfl, rfl, rfl, rfl, rfl, rfl⟩, UInt64.le_refl _,
    UInt64.le_refl _, .inl rfl, rfl⟩
  rw [hs]
  exact .commit

/-- Even when the product of a partial release wraps around, no more is returned to the
lender than was borrowed. -/
theorem releasedBorrow_le {r : AllocationRecord} {units : UInt64} (hle : units ≤ r.units) :
    (Impl.releasedBorrow r units).toNat ≤ r.borrowed.toNat := by
  unfold Impl.releasedBorrow
  split
  · exact Nat.le_refl _
  rw [Word.le_iff] at hle
  rw [UInt64.toNat_div, UInt64.toNat_mul]
  apply Nat.div_le_of_le_mul
  have hmul : r.borrowed.toNat * units.toNat ≤ r.units.toNat * r.borrowed.toNat := by
    rw [Nat.mul_comm]
    exact Nat.mul_le_mul_right _ hle
  exact (Nat.mod_le _ _).trans hmul

theorem remainder_advances (s : Impl) {r : AllocationRecord} {units : UInt64}
    (hholds : r.state.holdsUnits = true) (hle : units.toNat ≤ r.units.toNat) :
    r.Advances False (s.remainder r units) := by
  have hunits : r.units - units ≤ r.units := by
    rw [Word.le_iff, Word.toNat_sub hle]
    exact Nat.sub_le _ _
  have hborrow : r.borrowed - Impl.releasedBorrow r units ≤ r.borrowUnits := by
    have hle' : (Impl.releasedBorrow r units).toNat ≤ r.borrowed.toNat :=
      releasedBorrow_le (Word.le_iff.mpr hle)
    have hmin := r.borrowed_toNat
    rw [Word.le_iff, Word.toNat_sub hle']
    omega
  unfold Impl.remainder
  dsimp only
  split
  · exact ⟨hholds, .release hholds, ⟨rfl, rfl, rfl, rfl, rfl, rfl⟩, hunits, UInt64.zero_le,
      .inl rfl, rfl⟩
  · exact ⟨hholds, .stay _, ⟨rfl, rfl, rfl, rfl, rfl, rfl⟩, hunits, hborrow, .inl rfl, rfl⟩

theorem rebound_advances (s : Impl) {r : AllocationRecord} {bound : BoundGenerations}
    (hholds : r.state.holdsUnits = true) :
    r.Advances True { r with bound := bound, lastTouched := s.tick, revision := r.revision + 1 } :=
  ⟨hholds, .stay _, ⟨rfl, rfl, rfl, rfl, rfl, rfl⟩, UInt64.le_refl _, UInt64.le_refl _,
    .inr trivial, rfl⟩

theorem Advances.mono {P Q : Prop} {r r' : AllocationRecord} (hle : P → Q)
    (h : r.Advances P r') : r.Advances Q r' :=
  ⟨h.holds, h.state, h.same, h.units, h.borrowUnits, h.bound.imp_right hle, h.revision⟩

end AllocationRecord

/-! ### One call -/

namespace Impl

variable {s t : Impl} {k : AllocationId} {r : AllocationRecord}

theorem allocations_recordAttempt (s : Impl) (a : AttemptRecord) :
    (s.recordAttempt a).allocations = s.allocations := by
  obtain ⟨order, attempts, h⟩ := s.recordAttempt_frame a
  rw [h]

def Lives (rebinds : Prop) (r : AllocationRecord) (k : AllocationId) (t : Impl) : Prop :=
  ∃ r', t.allocations.lookup k = some r' ∧ (r' = r ∨ r.Advances rebinds r')

theorem Lives.of_lookup {rebinds : Prop} (h : t.allocations.lookup k = some r) :
    Lives rebinds r k t := ⟨r, h, .inl rfl⟩

theorem Lives.mono {P Q : Prop} (hle : P → Q) (h : Lives P r k t) : Lives Q r k t := by
  obtain ⟨r', hr', hlife⟩ := h
  exact ⟨r', hr', hlife.imp_right fun h ↦ h.mono hle⟩

/-- A write to one record lets the record under every key live on. -/
theorem Lives.of_insert {rebinds : Prop} {key : AllocationId} {r₀ r₁ : AllocationRecord}
    (hr : s.allocations.lookup k = some r) (hr₀ : s.allocations.lookup key = some r₀)
    (ht : t.allocations = s.allocations.insert key r₁) (h : r₀.Advances rebinds r₁) :
    Lives rebinds r k t := by
  by_cases hk : k = key
  · subst hk
    rw [hr] at hr₀
    obtain rfl := Option.some.inj hr₀
    refine ⟨r₁, ?_, .inr h⟩
    rw [ht, Table.lookup_insert_eq, if_pos rfl]
  · apply Lives.of_lookup
    rw [ht, Table.lookup_insert_eq, if_neg hk]
    exact hr

end Impl

/-- A change writes no record, or advances one, or grants. -/
theorem Change.advances {s m : Impl} {l : Label} {record : Option JournalRecord}
    (h : Change s l record m) (hl : ∀ r, l ≠ .grant r) :
    m.allocations = s.allocations ∨ ∃ key r r', s.allocations.lookup key = some r ∧
      m.allocations = s.allocations.insert key r' ∧ r.Advances (l = .rebind) r' := by
  cases h with
  | attempt a => exact .inl (s.allocations_recordAttempt a)
  | fence key r entry state pools hr hholds hstate hent hpools hexpired =>
      exact .inr ⟨key, r, _, hr, rfl,
        (AllocationRecord.fenced_advances s hholds hstate hexpired).mono False.elim⟩
  | grant key entry policy r pools hfits hpools => exact absurd rfl (hl r)
  | commit key r entry hr hs hent =>
      exact .inr ⟨key, r, _, hr, rfl,
        (AllocationRecord.committed_advances s hs).mono False.elim⟩
  | release key r entry units pools hr hholds hunits hle hent hpools =>
      exact .inr ⟨key, r, _, hr, rfl,
        (AllocationRecord.remainder_advances s hholds hle).mono False.elim⟩
  | rebind key r bound hr hholds hepoch hqueue =>
      exact .inr ⟨key, r, _, hr, rfl,
        (AllocationRecord.rebound_advances s hholds).mono fun _ ↦ rfl⟩
  | _ => exact .inl rfl

/-- A move of an operation that fences keeps a record or ends its life. -/
theorem Change.fences {s₀ s m : Impl} {op : Op} {l : Label} {w : Bool}
    {record : Option JournalRecord} (h : Change s l record m) (hop : op.Fences)
    (hallow : op.Allows s₀ s (l, w)) {k : AllocationId} {r : AllocationRecord}
    (hr : s.allocations.lookup k = some r) :
    m.allocations.lookup k = some r ∨ ∃ r', m.allocations.lookup k = some r' ∧
      r.Advances False r' ∧ r'.state.holdsUnits = false := by
  cases h with
  | attempt a =>
      rcases hallow with ⟨q, hq⟩ | ⟨q, hq⟩ | ⟨q, hq⟩ | ⟨q, hq⟩
      · exact absurd hq (hop.1 q)
      · exact absurd hq (hop.2.1 q)
      · exact absurd hq (hop.2.2.1 q)
      · exact absurd hq (hop.2.2.2 q)
  | fence key r₀ entry state pools hr₀ hholds hstate hl hpools hexpired =>
      dsimp only
      rw [Table.lookup_insert_eq]
      by_cases hk : k = key
      · subst hk
        rw [hr] at hr₀
        obtain rfl := Option.some.inj hr₀
        rw [if_pos rfl]
        exact .inr ⟨_, rfl, AllocationRecord.fenced_advances s hholds hstate hexpired, hstate⟩
      · rw [if_neg hk]
        exact .inl hr
  | grant =>
      obtain ⟨-, q, hq⟩ := hallow
      exact absurd hq (hop.1 q)
  | commit =>
      obtain ⟨q, hq, -⟩ := hallow
      exact absurd hq (hop.2.1 q)
  | release =>
      obtain ⟨q, hq, -⟩ := hallow
      exact absurd hq (hop.2.2.1 q)
  | rebind =>
      obtain ⟨q, hq⟩ := hallow
      exact absurd hq (hop.2.2.2 q)
  | _ => exact .inl hr

theorem Impl.allocations_journal {s t : Impl} {record : JournalRecord} {e : Except Status Unit}
    (h : s.journal record = (e, t)) : t.allocations = s.allocations := by
  rw [Impl.eq_of_journal h]

theorem Move.fences {s₀ s t : Impl} {op : Op} {a : Label × Bool} (h : Move s a t)
    (hop : op.Fences) (hallow : op.Allows s₀ s a) {k : AllocationId} {r : AllocationRecord}
    (hr : s.allocations.lookup k = some r) :
    t.allocations.lookup k = some r ∨ ∃ r', t.allocations.lookup k = some r' ∧
      r.Advances False r' ∧ r'.state.holdsUnits = false := by
  cases h with
  | volatile h => exact h.fences hop hallow hr
  | written h hstore hview hj => exact h.fences hop hallow hr
  | unlogged h hstore hview hj => exact h.fences hop hallow hr
  | refused hj =>
      rw [Impl.allocations_journal hj]
      exact .inl hr
  | lostRelease hshapes hj =>
      rw [Impl.allocations_journal hj]
      exact .inl hr
  | snapshot h =>
      obtain ⟨st, hst, -⟩ := s.writeFullSnapshot_spec
      rw [h] at hst
      simp only at hst
      rw [hst]
      exact .inl hr

namespace Impl

variable {s t : Impl} {k : AllocationId} {r : AllocationRecord}

/-- An operation that fences advances a record at most once: after that it holds nothing. -/
theorem exec_fences {c : Call} (hop : c.op.Fences) (hr : s.allocations.lookup k = some r) :
    Lives False r k (s.exec c).2 := by
  have hlife : (s.exec c).2.allocations.lookup k = some r ∨
      ∃ r', (s.exec c).2.allocations.lookup k = some r' ∧ r.Advances False r' ∧
        r'.state.holdsUnits = false := by
    refine (s.exec_trace c).invariant (I := fun u ↦ u.allocations.lookup k = some r ∨
      ∃ r', u.allocations.lookup k = some r' ∧ r.Advances False r' ∧
        r'.state.holdsUnits = false) ?_ (.inl hr)
    rintro t a u (hsame | ⟨r', hr', hadv, hended⟩) hallow hm
    · exact hm.fences hop hallow hsame
    · rcases hm.fences hop hallow hr' with hsame | ⟨r'', -, hadv', -⟩
      · exact .inr ⟨r', hsame, hadv, hended⟩
      · rw [hadv'.holds] at hended
        cases hended
  rcases hlife with hsame | ⟨r', hr', hadv, -⟩
  · exact .of_lookup hsame
  · exact ⟨r', hr', .inr hadv⟩

theorem AllocateEnd.lives {q : AllocateRequest} {x : Except Status Decision}
    (h : AllocateEnd s q x t) (ha : s.view.Ahead .allocation)
    (hr : s.allocations.lookup k = some r) : Lives False r k t := by
  -- a grant takes a key no record has
  have hnew : ∀ {key : PoolId} {entry : PoolEntry} {policy : PoolPolicy} {r₁ : AllocationRecord},
      GrantFits s key entry policy r₁ → (s.allocations.insert r₁.id r₁).lookup k = some r := by
    intro key entry policy r₁ hfits
    rw [Table.lookup_insert_eq, if_neg]
    · exact hr
    · rintro rfl
      rw [ha.fresh hfits] at hr
      cases hr
  cases h with
  | rejected e => exact .of_lookup hr
  | replayed hprev hd halloc => exact .of_lookup hr
  | declined hprev hl ha hkind =>
      apply Lives.of_lookup
      rw [allocations_recordAttempt]
      exact hr
  | unlogged hj =>
      apply Lives.of_lookup
      rw [allocations_journal hj]
      exact hr
  | broken hfits hj hfail => exact .of_lookup hr
  | unclosed hfits hpools hj hl hclosure => exact .of_lookup (hnew hfits)
  | granted hprev hfits hpools hj hl hclosure ha hd hkind =>
      apply Lives.of_lookup
      rw [allocations_recordAttempt]
      exact hnew hfits

theorem CommitEnd.lives {q : CommitRequest} {x : Except Status Decision}
    (h : CommitEnd s q x t) (hr : s.allocations.lookup k = some r) : Lives False r k t := by
  cases h with
  | rejected e => exact .of_lookup hr
  | replayed hprev hr₀ hd halloc => exact .of_lookup hr
  | unlogged hj =>
      apply Lives.of_lookup
      rw [allocations_journal hj]
      exact hr
  | unclosed hr₀ hs hl hj hclosure =>
      exact .of_insert hr hr₀ rfl (AllocationRecord.committed_advances s hs)
  | committed hprev hr₀ hs hl hj hclosure ha halloc hkind =>
      exact .of_insert hr hr₀ (allocations_recordAttempt _ _)
        (AllocationRecord.committed_advances s hs)

theorem ReleaseEnd.lives {q : ReleaseRequest} {x : Except Status Decision}
    (h : ReleaseEnd s q x t) (hr : s.allocations.lookup k = some r) : Lives False r k t := by
  cases h with
  | rejected e => exact .of_lookup hr
  | replayed hprev hr₀ hd halloc => exact .of_lookup hr
  | idle hprev hr₀ hholds ha halloc hkind =>
      apply Lives.of_lookup
      rw [allocations_recordAttempt]
      exact hr
  | broken hr₀ hholds hl hamount hfail => exact .of_lookup hr
  | unlogged hr₀ hholds hl hamount hpools hj =>
      apply Lives.of_lookup
      rw [allocations_journal hj]
      exact hr
  | unclosed hr₀ hholds hl hamount hpools hj hl' hclosure =>
      exact .of_insert hr hr₀ rfl
        (AllocationRecord.remainder_advances s hholds (releaseAmount_ok hamount).2)
  | released hprev hr₀ hholds hl hamount hpools hj hl' hclosure ha halloc hkind =>
      exact .of_insert hr hr₀ (allocations_recordAttempt _ _)
        (AllocationRecord.remainder_advances s hholds (releaseAmount_ok hamount).2)

theorem RevalidateEnd.lives {q : RevalidateRequest} {x : Except Status Decision}
    (h : RevalidateEnd s q x t) (hr : s.allocations.lookup k = some r) :
    Lives (q.allocation = k ∧ ∃ d, x = .ok d) r k t := by
  cases h with
  | rejected e => exact .of_lookup hr
  | replayed hprev hr₀ hd halloc => exact .of_lookup hr
  | stale hprev hkind => exact .of_lookup hr
  | unlogged hj =>
      apply Lives.of_lookup
      rw [allocations_journal hj]
      exact hr
  | @rebound r₀ bound u a d hprev hr₀ hholds hj ha halloc hkind =>
      by_cases hk : q.allocation = k
      · exact .of_insert hr hr₀ (allocations_recordAttempt _ _)
          ((AllocationRecord.rebound_advances s hholds).mono fun _ ↦ ⟨hk, d, rfl⟩)
      · apply Lives.of_lookup
        rw [allocations_recordAttempt]
        change (s.allocations.insert q.allocation _).lookup k = some r
        rw [Table.lookup_insert_eq, if_neg (Ne.symm hk)]
        exact hr

def Revalidates (s : Impl) (c : Call) (k : AllocationId) : Prop :=
  ∃ q d, c.op = .revalidate q ∧ q.allocation = k ∧ (s.exec c).1 = .ok (.decision d)

/-- One call leaves a record alone or advances it once. -/
theorem exec_lives (c : Call) (ha : s.view.Ahead .allocation)
    (hr : s.allocations.lookup k = some r) : Lives (s.Revalidates c k) r k (s.exec c).2 := by
  by_cases hop : c.op.Fences
  · exact (exec_fences hop hr).mono False.elim
  unfold Op.Fences at hop
  cases hc : c.op with
  | allocate q =>
      have hend := (s.enter c).allocateLocked_end q
      have hstate : (s.exec c).2 = ((s.enter c).allocateLocked q).2 := by
        simp only [exec, hc, run, reply]
      rw [hstate]
      exact (hend.lives ha hr).mono False.elim
  | commit q =>
      have hend := (s.enter c).commitLocked_end q
      have hstate : (s.exec c).2 = ((s.enter c).commitLocked q).2 := by
        simp only [exec, hc, run, reply]
      rw [hstate]
      exact (hend.lives hr).mono False.elim
  | release q =>
      have hend := (s.enter c).releaseLocked_end q
      have hstate : (s.exec c).2 = ((s.enter c).releaseLocked q).2 := by
        simp only [exec, hc, run, reply]
      rw [hstate]
      exact (hend.lives hr).mono False.elim
  | revalidate q =>
      have hend := (s.enter c).revalidateLocked_end q
      have hexec : s.exec c = reply .decision ((s.enter c).revalidateLocked q) := by
        simp only [exec, hc, run]
      have hstate : (s.exec c).2 = ((s.enter c).revalidateLocked q).2 := by
        rw [hexec, reply]
      rw [hstate]
      refine Lives.mono ?_ (hend.lives hr)
      rintro ⟨hk, d, hd⟩
      refine ⟨q, d, hc, hk, ?_⟩
      rw [hexec, reply, hd]
      rfl
  | _ => exact absurd (by simp [hc]) hop

end Impl

/-! ### Whole sessions -/

/-- The ids of the session are in order: every record is under its id, below the counter. -/
structure Numbered (s : Impl) : Prop where
  keyed : s.view.Keyed
  ahead : s.view.Ahead .allocation

theorem Numbered.exec {s : Impl} (h : Numbered s) (c : Call) : Numbered (s.exec c).2 :=
  (s.exec_trace c).invariant (I := Numbered)
    (fun _ _ _ hi _ hm ↦ ⟨hm.keyed hi.keyed, hm.ahead hi.keyed hi.ahead⟩) ⟨h.keyed, h.ahead⟩

theorem Numbered.rehash {s t : Impl} (h : Numbered s) (hr : s.Rehash t) : Numbered t :=
  ⟨by rw [hr.view_eq]; exact h.keyed, by rw [hr.view_eq]; exact h.ahead⟩

theorem SessionRun.numbered {P : Impl → Call → Prop} {start s : Impl} (h : SessionRun P start s)
    (hstart : Numbered start) : Numbered s :=
  h.invariant (fun _ c hi _ ↦ hi.exec c) (fun _ _ hi hr ↦ hi.rehash hr) hstart

theorem SessionRun.becomes {P : Impl → Call → Prop} {start s : Impl} (h : SessionRun P start s)
    (hstart : Numbered start) {k : AllocationId} {r : AllocationRecord}
    (hr : start.allocations.lookup k = some r) :
    ∃ r', s.allocations.lookup k = some r' ∧ r.Becomes r' := by
  have hboth : Numbered s ∧ ∃ r', s.allocations.lookup k = some r' ∧ r.Becomes r' := by
    refine h.invariant (I := fun u ↦ Numbered u ∧ ∃ r', u.allocations.lookup k = some r' ∧
      r.Becomes r') ?_ ?_ ⟨hstart, r, hr, .refl r⟩
    · rintro t c ⟨hn, r₁, hr₁, hbecomes⟩ -
      obtain ⟨r₂, hr₂, hlife⟩ := t.exec_lives c hn.ahead hr₁
      exact ⟨hn.exec c, r₂, hr₂, hbecomes.trans (.of_advances hlife)⟩
    · rintro t u ⟨hn, r₁, hr₁, hbecomes⟩ hrehash
      refine ⟨hn.rehash hrehash, r₁, ?_, hbecomes⟩
      have hview : u.view.allocations = t.view.allocations := by rw [hrehash.view_eq]
      exact (congrFun hview k).trans hr₁
  exact hboth.2

/-- In every session from an empty fabric, whatever the file system does: a call leaves an
allocation record as it is or advances it once, and an advance raises its revision by one;
and whatever calls follow, a record that holds no units stays as it is, units are never
added and the identity of the allocation never changes. -/
theorem allocation_lifecycle {start s : Impl} (hstart : FreshlyOpened start)
    (hrun : SessionRun (fun _ _ ↦ True) start s) {k : AllocationId} {r : AllocationRecord}
    (hr : s.allocations.lookup k = some r) :
    (∀ c, ∃ r', (s.exec c).2.allocations.lookup k = some r' ∧
        (r' = r ∨ r.Advances (s.Revalidates c k) r')) ∧
      ∀ t, SessionRun (fun _ _ ↦ True) s t →
        ∃ r', t.allocations.lookup k = some r' ∧ r.Becomes r' := by
  have hexact := hstart.blank.exact
  have hnumbered : Numbered s := hrun.numbered ⟨hexact.keyed, hexact.ahead⟩
  exact ⟨fun c ↦ s.exec_lives c hnumbered.ahead hr, fun t ht ↦ ht.becomes hnumbered hr⟩

/-! ### The revision wraps around -/

namespace Impl

variable {s : Impl}

/-- Without a durable directory nothing is written. -/
theorem journal_of_none (hmode : s.store.config.mode = .none) {record : JournalRecord}
    (henc : record.encodable = .ok ()) : s.journal record = (.ok (), s) := by
  unfold journal DurableStore.journal
  rw [henc]
  dsimp only
  rw [if_pos hmode]
  rfl

theorem lookupAttempt_new {id : AttemptId} {digest : Digest} (hvalid : id.Valid)
    (hnew : s.attempts.lookup id = none) : s.lookupAttempt id digest = .ok none := by
  unfold lookupAttempt
  simp only [seq_ok, require_eq_ok, exists_const]
  refine ⟨hvalid, ?_⟩
  rw [hnew]
  rfl

/-- A fabric in memory that holds allocation 1 at the given revision under current
generations, and remembers the given attempt only. -/
structure Renewable (s : Impl) (n : UInt64) (a : AttemptId) : Prop where
  isOpen : s.isOpen = true
  mode : s.store.config.mode = .none
  capacity : s.memoryCapacity = 1
  memory : s.MemoryInOrder
  last : s.attemptOrder = [a]
  target : ∃ t : Target, s.allocations.lookup ⟨1⟩ = some t.record ∧
    t.record.state.holdsUnits = true ∧ t.record.revision = n ∧
    s.requirePool t.record.pool = .ok t.entry ∧ s.requirePolicy t.entry = .ok t.policy ∧
    s.requireQueue t.record.queue = .ok t.queue ∧ t.queue.pool = t.entry.descriptor.id ∧
    isStaleBinding t.record t.entry t.policy s.epoch = false

def renewal (a : AttemptId) : Call := { op := .revalidate { attempt := a, allocation := ⟨1⟩ } }

theorem Renewable.renew {n : UInt64} {a b : AttemptId} (h : Renewable s n a) (hb : b.Valid)
    (hne : b ≠ a) : Renewable (s.exec (renewal b)).2 (n + 1) b := by
  obtain ⟨t, hr, hholds, hrev, hpool, hpolicy, hqueue, hbound, hfresh⟩ := h.target
  have hnew : s.attempts.lookup b = none := by
    cases hl : s.attempts.lookup b with
    | none => rfl
    | some x =>
        have hmem := (h.memory.listed.same b).mpr ⟨x, hl⟩
        rw [h.last, List.mem_singleton] at hmem
        exact absurd hmem hne
  generalize hq : ({ attempt := b, allocation := ⟨1⟩ } : RevalidateRequest) = q
  have hattempt : q.attempt = b := by rw [← hq]
  have hallocation : q.allocation = ⟨1⟩ := by rw [← hq]
  have hepoch : q.expectedEpoch = default := by rw [← hq]
  have hstate : (s.exec (renewal b)).2 = ((s.enter (renewal b)).revalidateLocked q).2 := by
    rw [← hq]
    rfl
  rw [hstate]
  generalize hs : s.enter (renewal b) = e
  have hadm : e.admitTarget q.attempt q.requestDigest q.allocation = .ok (none, t) := by
    unfold admitTarget
    simp only [seq_ok, requireOpen_eq_ok, require_eq_ok, demand_eq_ok, exists_const, pure_ok,
      Prod.mk.injEq]
    rw [hattempt, hallocation, ← hs]
    exact ⟨h.isOpen, hb, none, lookupAttempt_new hb hnew, t.record, hr, t.entry, hpool, t.policy,
      hpolicy, t.queue, hqueue, rfl, rfl⟩
  have hassert : e.assertRevalidate q t = .ok () := by
    unfold assertRevalidate
    simp only [seq_ok, require_eq_ok, exists_const]
    refine ⟨?_, hholds, hbound⟩
    rw [hepoch]
    exact fun hv ↦ StrongId.valid_default hv.1
  have hfresh' : isStaleBinding t.record t.entry t.policy e.epoch = false := by
    rw [← hs]
    exact hfresh
  have hmode : e.store.config.mode = .none := by
    rw [← hs]
    exact h.mode
  unfold revalidateLocked
  rw [hadm]
  dsimp only
  rw [hassert]
  dsimp only
  rw [hfresh', if_neg (by simp), journalAllocation, journal_of_none hmode rfl]
  dsimp only
  generalize hf : finishTarget _ q.attempt _ _ _ _ _ t _ _ = f
  rcases f with ⟨d, m⟩
  obtain ⟨x, rfl, hx, -⟩ := finishTarget_spec hf
  rw [hattempt] at hx
  dsimp only
  -- the memory drops the old attempt for the new one
  generalize hm : (e.putAllocation q.allocation (e.reboundRecord t)).advanceDecision = m
  have hsame : SameMemory s m := by
    rw [← hm, ← hs]
    exact ⟨rfl, rfl, fun _ ↦ rfl⟩
  have hmemory : m.MemoryInOrder := hsame.inOrder h.memory
  have hx' : m.attempts.lookup x.id = none := by
    rw [hsame.lookup, hx.id]
    exact hnew
  have horder := (recordAttempt_memory hmemory hx').1
  rw [hsame.capacity, h.capacity, hsame.order, h.last, hx.id] at horder
  obtain ⟨order, attempts, hframe⟩ := m.recordAttempt_frame x
  refine ⟨?_, ?_, ?_, hmemory.record hx', horder, { t with record := e.reboundRecord t }, ?_⟩
  · rw [hframe, ← hm, ← hs]
    exact h.isOpen
  · rw [hframe, ← hm, ← hs]
    exact h.mode
  · rw [memoryCapacity_recordAttempt, hsame.capacity]
    exact h.capacity
  · rw [hframe, ← hm, hallocation]
    refine ⟨?_, hholds, ?_, ?_, ?_, ?_, hbound, ?_⟩
    · change (e.allocations.insert ⟨1⟩ (e.reboundRecord t)).lookup ⟨1⟩ = _
      rw [Table.lookup_insert_eq, if_pos rfl]
    · change t.record.revision + 1 = n + 1
      rw [hrev]
    · rw [← hs]
      exact hpool
    · rw [← hs]
      exact hpolicy
    · rw [← hs]
      exact hqueue
    · change isStaleBinding (e.reboundRecord t) t.entry t.policy e.epoch = false
      simp [isStaleBinding, reboundRecord]

/-- The attempts of the renewals: two ids in turn. -/
def turn (n : ℕ) : AttemptId := if n % 2 = 0 then ⟨1⟩ else ⟨2⟩

theorem turn_valid (n : ℕ) : (turn n).Valid := by
  unfold turn
  split <;> decide

theorem turn_succ_ne (n : ℕ) : turn (n + 1) ≠ turn n := by
  unfold turn
  rcases Nat.mod_two_eq_zero_or_one n with h | h
  · have h' : (n + 1) % 2 ≠ 0 := by omega
    rw [if_pos h, if_neg h']
    decide
  · have h' : (n + 1) % 2 = 0 := by omega
    rw [if_pos h', if_neg (by omega)]
    decide

/-- Any number of renewals can be made, and each of them raises the revision by one. -/
theorem Renewable.reaches {start : Impl} {v : UInt64} (h : Renewable s v (turn 0))
    (hs : SessionRun (fun _ _ ↦ True) start s) (n : ℕ) :
    ∃ t, SessionRun (fun _ _ ↦ True) start t ∧ Renewable t (v + UInt64.ofNat n) (turn n) := by
  induction n with
  | zero => exact ⟨s, hs, by simpa using h⟩
  | succ n ih =>
      obtain ⟨t, ht, hn⟩ := ih
      have hnext := hn.renew (turn_valid (n + 1)) (turn_succ_ne n)
      refine ⟨_, .call (renewal (turn (n + 1))) ht trivial, ?_⟩
      rwa [UInt64.ofNat_add, ← UInt64.add_assoc]

theorem memoryInOrder_of_keys (hk : s.attempts.keys = s.attemptOrder)
    (hb : s.attempts.size ≤ s.memoryCapacity) : s.MemoryInOrder := by
  refine ⟨⟨?_, ?_⟩, hb⟩
  · rw [← hk]
    exact s.attempts.keys_nodup
  · intro k
    rw [← hk]
    exact Table.mem_keys_iff

end Impl

def renewConfig : FabricConfig := { attemptMemoryCapacity := 1 }

def renewStart : Impl := (({} : Impl).openFabric renewConfig {}).2

def renewHeld : Impl := renewStart.play (smallSetup ++ [askUnits 1 40 true])

theorem renewHeld_renewable : renewHeld.Renewable 1 (Impl.turn 0) := by
  have h : (renewHeld.isOpen && decide (renewHeld.store.config.mode = .none) &&
      decide (renewHeld.memoryCapacity = 1) && decide (renewHeld.attempts.size ≤ 1) &&
      decide (renewHeld.attempts.keys = renewHeld.attemptOrder) &&
      decide (renewHeld.attemptOrder = [⟨1⟩]) &&
      (renewHeld.allocations.lookup ⟨1⟩).any fun r ↦
        r.state.holdsUnits && decide (r.revision = 1) && decide r.pool.Valid &&
          decide r.queue.Valid && (renewHeld.pools.lookup r.pool).any fun e ↦
            (renewHeld.policies.lookup e.descriptor.policy).any fun p ↦
              (renewHeld.queues.lookup r.queue).any fun d ↦
                decide (d.pool = e.descriptor.id) && !isStaleBinding r e p renewHeld.epoch) =
        true := by
    decide +kernel
  simp only [Bool.and_eq_true, decide_eq_true_eq, Option.any_eq_true, Bool.not_eq_true'] at h
  obtain ⟨⟨⟨⟨⟨⟨hopen, hmode⟩, hcap⟩, hsize⟩, hkeys⟩, horder⟩, r, hr, ⟨⟨⟨hholds, hrev⟩, hpv⟩, hqv⟩, e,
    he, p, hp, d, hd, hpool, hstale⟩ := h
  exact ⟨hopen, hmode, hcap, Impl.memoryInOrder_of_keys hkeys (by rw [hcap]; exact hsize), horder,
    ⟨r, e, p, d⟩, hr, hholds, hrev, Impl.requirePool_eq_ok.mpr ⟨hpv, he⟩,
    Impl.requirePolicy_eq_ok.mpr hp, Impl.requireQueue_eq_ok.mpr ⟨hqv, hd⟩, hpool, hstale⟩

theorem renewStart_fresh : FreshlyOpened renewStart :=
  .of_isOk (by decide +kernel)

theorem Impl.admits_true (calls : List Call) (s : Impl) : s.Admits (fun _ _ ↦ True) calls :=
  admits_of_forall (fun _ _ _ ↦ trivial) s

/-- The life of an allocation that is granted 40 units and gives 10 of them back. -/
theorem allocation_lifecycle_held :
    ∃ r r', renewHeld.allocations.lookup ⟨1⟩ = some r ∧
      (renewHeld.exec { op := .release { attempt := ⟨2⟩, allocation := ⟨1⟩, units := 10
                                         releaseAll := false } }).2.allocations.lookup ⟨1⟩ =
        some r' ∧ r'.units = 30 ∧ r'.SameIdentity r ∧ r'.revision = 2 := by
  have h : ((renewHeld.allocations.lookup ⟨1⟩).any fun r ↦ decide (r.revision = 1) &&
      ((renewHeld.exec { op := .release { attempt := ⟨2⟩, allocation := ⟨1⟩, units := 10
                                          releaseAll := false } }).2.allocations.lookup ⟨1⟩).any
        fun r' ↦ decide (r'.units = 30) && decide (r' ≠ r)) = true := by
    decide +kernel
  simp only [Option.any_eq_true, Bool.and_eq_true, decide_eq_true_eq] at h
  obtain ⟨r, hr, hrev, r', hr', hunits, hne⟩ := h
  have hheld : SessionRun (fun _ _ ↦ True) renewStart renewHeld :=
    SessionRun.refl.play (renewStart.admits_true _)
  obtain ⟨r₁, hr₁, hlife⟩ := (allocation_lifecycle renewStart_fresh hheld hr).1
    { op := .release { attempt := ⟨2⟩, allocation := ⟨1⟩, units := 10, releaseAll := false } }
  rw [hr'] at hr₁
  obtain rfl := Option.some.inj hr₁
  rcases hlife with rfl | hadv
  · exact absurd rfl hne
  · have hsame := hadv.same
    refine ⟨r, r', hr, hr', hunits, ⟨hsame.id.symm, hsame.pool.symm, hsame.queue.symm,
      hsame.reclaimClass.symm, hsame.attempt.symm, hsame.lineage.symm⟩, ?_⟩
    rw [hadv.revision, hrev]
    rfl

/-- After 2^64 - 2 revalidations the next one takes the revision of the allocation back
to 0. -/
theorem revision_wraps_around :
    ∃ (start s : Impl) (c : Call) (r r' : AllocationRecord), FreshlyOpened start ∧
      SessionRun (fun _ _ ↦ True) start s ∧ s.allocations.lookup ⟨1⟩ = some r ∧
      (s.exec c).2.allocations.lookup ⟨1⟩ = some r' ∧ r' ≠ r ∧ ¬r.revision < r'.revision := by
  have hheld : SessionRun (fun _ _ ↦ True) renewStart renewHeld :=
    SessionRun.refl.play (renewStart.admits_true _)
  obtain ⟨s, hs, hlast⟩ := renewHeld_renewable.reaches hheld 18446744073709551614
  have hnext := hlast.renew (Impl.turn_valid 18446744073709551615) (Impl.turn_succ_ne _)
  obtain ⟨t, hr, -, hrev, -⟩ := hlast.target
  obtain ⟨t', hr', -, hrev', -⟩ := hnext.target
  have hmax : t.record.revision = 18446744073709551615 := hrev
  have hzero : t'.record.revision = 0 := hrev'
  refine ⟨renewStart, s, _, t.record, t'.record, renewStart_fresh, hs, hr, hr', ?_, ?_⟩
  · intro heq
    rw [heq, hmax] at hzero
    cases hzero
  · rw [hmax, hzero]
    decide

end BufferFabric
