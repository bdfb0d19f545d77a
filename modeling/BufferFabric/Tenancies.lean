import BufferFabric.Epochs
import BufferFabric.Lifecycle
import BufferFabric.Memory
import BufferFabric.Prediction

/-!
# Tenancies

The allocations that are held under a set of attempts. Only an allocate call under one of these
attempts begins such a tenancy; every other call leaves it or ends it.
-/

namespace BufferFabric

open Outcome

namespace Impl

variable {s t : Impl} {k : AllocationId} {A : AttemptId → Prop}

def HeldUnder (A : AttemptId → Prop) (s : Impl) (k : AllocationId) : Prop :=
  ∃ r, s.allocations.lookup k = some r ∧ A r.attempt ∧ r.state.holdsUnits = true

def Vacant (A : AttemptId → Prop) (s : Impl) : Prop := ∀ k, ¬s.HeldUnder A k

def Sparse (A : AttemptId → Prop) (s : Impl) : Prop :=
  ∀ k k', s.HeldUnder A k → s.HeldUnder A k' → k = k'

theorem Vacant.sparse (h : s.Vacant A) : s.Sparse A := fun k _ hk _ ↦ absurd hk (h k)

theorem HeldUnder.congr (h : t.HeldUnder A k) (ht : t.allocations = s.allocations) :
    s.HeldUnder A k := by
  obtain ⟨r, hr, hrest⟩ := h
  exact ⟨r, ht ▸ hr, hrest⟩

def Spares (A : AttemptId → Prop) (_ : Impl) (c : Call) : Prop :=
  ∀ q, Request.of c.op = some q → ¬A q.attempt

/-! ### Allocate -/

inductive Lets (s : Impl) (q : AllocateRequest) : Except Status Decision → Impl → Prop
  | failed {e : Status} {t : Impl} (ht : t.allocations = s.allocations) : Lets s q (.error e) t
  | unclosed {e : Status} {t : Impl} {r : AllocationRecord} (hattempt : r.attempt = q.attempt)
      (ht : t.allocations = s.allocations.insert r.id r) (he : e.code = .accountingViolation) :
      Lets s q (.error e) t
  | replayed {d : Decision} {previous : AttemptRecord}
      (hprev : s.attempts.lookup q.attempt = some previous) : Lets s q (.ok d) s
  | declined {d : Decision} {t : Impl} (ht : t.allocations = s.allocations)
      (hd : d.grantedUnits = 0) : Lets s q (.ok d) t
  | granted {d : Decision} {t : Impl} {r : AllocationRecord} (hattempt : r.attempt = q.attempt)
      (ht : t.allocations = s.allocations.insert r.id r) (hd : d.allocation = r.id)
      (hstatus : d.status = .ok) (hunits : d.grantedUnits ≠ 0)
      (hkind : d.kind = .grant ∨ d.kind = .grantPartial) : Lets s q (.ok d) t

theorem status_code {r : AccountingReport} {e : Status} (h : r.status = .error e) :
    e.code = .accountingViolation := by
  unfold AccountingReport.status at h
  split at h
  · cases h
  · rw [← Except.error.inj h]

theorem allocateLocked_lets (s : Impl) (q : AllocateRequest) :
    s.Lets q (s.allocateLocked q).1 (s.allocateLocked q).2 := by
  have hbranch := s.allocateLocked_cases q
  generalize s.allocateLocked q = result at hbranch ⊢
  cases hbranch with
  | rejected | barred | unplanned => exact .failed rfl
  | replayed hadm =>
      obtain ⟨-, -, hprev, -⟩ := admitAllocate_ok hadm
      exact .replayed (lookupAttempt_some hprev).1
  | declined hadm hassert hrefuse hfinish =>
      have hverdict := congrArg (fun x : Decision × Impl ↦ x.1.verdict.grantedUnits) hfinish
      dsimp only at hverdict
      rw [finishAllocate_verdict] at hverdict
      obtain ⟨runtime, a, -, rfl, -⟩ := finishAllocate_spec hfinish
      exact .declined (allocations_recordAttempt _ a) hverdict.symm
  | @planned entry queue policy u g r result hadm hassert hgrant hplan hresult =>
      obtain ⟨hfits, hunits, hborrow⟩ := grantFits hadm hassert hgrant hplan
      obtain ⟨-, expiresAt, lineage, hr⟩ := planRecord_ok hplan
      have hattempt : r.attempt = q.attempt := by
        rw [hr]
        rfl
      have hend := applyGrant_cases queue (s.resolveEvidence entry) hfits hunits hborrow
      rw [hresult] at hend
      cases hend with
      | lost hj => exact .failed (allocations_journal hj)
      | broken => exact .failed rfl
      | unclosed hj hpools hclosure => exact .unclosed hattempt rfl (status_code hclosure)
      | @done _ _ m n pools d target hj hpools hclosure hfinish =>
          have hverdict := congrArg (fun x : Decision × Impl ↦ x.1.verdict) hfinish
          dsimp only at hverdict
          rw [finishAllocate_verdict] at hverdict
          obtain ⟨runtime, a, -, rfl, -, hkind, halloc⟩ := finishAllocate_spec hfinish
          refine .granted hattempt (allocations_recordAttempt _ a) halloc ?_ ?_ ?_
          · exact (congrArg Verdict.status hverdict).symm
          · have hgranted : d.grantedUnits = r.units :=
              (congrArg Verdict.grantedUnits hverdict).symm.trans hunits.symm
            change d.grantedUnits ≠ 0
            rw [hgranted]
            intro hzero
            have hpos := hfits.pos
            rw [hzero] at hpos
            cases hpos
          · change d.kind = .grant ∨ d.kind = .grantPartial
            rw [hkind]
            split
            · exact .inl rfl
            · exact .inr rfl

/-! ### Release -/

/-- A release of everything that succeeds leaves the allocation without units, unless it repeats
an attempt. -/
theorem releaseLocked_vacates {q : ReleaseRequest} {d : Decision} (hall : q.releaseAll = true)
    (hnew : s.attempts.lookup q.attempt = none) (h : (s.releaseLocked q).1 = .ok d) :
    ¬(s.releaseLocked q).2.HeldUnder A q.allocation := by
  rintro ⟨r', hr', -, hholds'⟩
  have hend := s.releaseLocked_end q
  rw [h] at hend
  generalize (s.releaseLocked q).2 = t at hend hr'
  cases hend with
  | replayed hprev =>
      rw [(lookupAttempt_some hprev).1] at hnew
      cases hnew
  | idle hprev hr hholds =>
      rw [allocations_recordAttempt] at hr'
      obtain rfl := Option.some.inj (hr.symm.trans hr')
      rw [hholds] at hholds'
      cases hholds'
  | released hprev hr hholds hl hamount =>
      rw [allocations_recordAttempt] at hr'
      have hr' : (s.allocations.insert q.allocation _).lookup q.allocation = some r' := hr'
      rw [Table.lookup_insert_eq, if_pos rfl] at hr'
      unfold releaseAmount at hamount
      rw [if_pos hall] at hamount
      rw [← Option.some.inj hr', ← Except.ok.inj hamount] at hholds'
      unfold remainder at hholds'
      simp only [UInt64.sub_self, if_true] at hholds'
      cases hholds'

/-! ### One call -/

/-- The record under a key was there before the call, or the call made it under its attempt. -/
def Stems (s : Impl) (op : Op) (k : AllocationId) (r' : AllocationRecord) : Prop :=
  (∃ r, s.allocations.lookup k = some r ∧ r.Becomes r') ∨
    ∃ q, op = .allocate q ∧ r'.attempt = q.attempt

/-- A change that is no grant makes no record. -/
theorem stems_of_change {m : Impl} {l : Label} {record : Option JournalRecord}
    (h : Change s l record m) (hl : ∀ r, l ≠ .grant r) {r' : AllocationRecord}
    (hr' : m.allocations.lookup k = some r') :
    ∃ r, s.allocations.lookup k = some r ∧ r.Becomes r' := by
  rcases h.advances hl with hsame | ⟨key, r, r₁, hr, hinsert, hadvances⟩
  · rw [hsame] at hr'
    exact ⟨r', hr', .refl r'⟩
  · rw [hinsert, Table.lookup_insert_eq] at hr'
    split at hr'
    · rename_i hk
      subst hk
      obtain rfl := Option.some.inj hr'
      exact ⟨r, hr, .of_advances (.inr hadvances)⟩
    · exact ⟨r', hr', .refl r'⟩

theorem stems_of_move {a : Label × Bool} (h : Move s a t) (hl : ∀ r, a.1 ≠ .grant r)
    {r' : AllocationRecord} (hr' : t.allocations.lookup k = some r') :
    ∃ r, s.allocations.lookup k = some r ∧ r.Becomes r' := by
  by_cases hlost : a.1 = .lostRelease
  · cases h with
    | lostRelease hshapes hj =>
        rw [allocations_journal hj] at hr'
        exact ⟨r', hr', .refl r'⟩
    | volatile hc | written hc | unlogged hc =>
        cases hlost
        cases hc
    | refused | snapshot => cases hlost
  · exact h.keeps (I := fun u ↦ u.allocations.lookup k = some r' →
      ∃ r, s.allocations.lookup k = some r ∧ r.Becomes r') hlost (fun _ _ hm ↦ hm)
      (fun _ _ hc ↦ stems_of_change hc hl) (fun hr ↦ ⟨r', hr, .refl r'⟩) hr'

theorem held_of_insert {r : AllocationRecord} (hs : s.Vacant A)
    (ht : t.allocations = s.allocations.insert r.id r) (hk : t.HeldUnder A k) : k = r.id := by
  obtain ⟨r', hr', hrest⟩ := hk
  rw [ht, Table.lookup_insert_eq] at hr'
  split at hr'
  · assumption
  · exact absurd ⟨r', hr', hrest⟩ (hs k)

/-- An allocate call begins at most one tenancy. -/
theorem Lets.sparse {q : AllocateRequest} {x : Except Status Decision} (h : s.Lets q x t)
    (hs : s.Vacant A) : t.Sparse A := by
  have hsame : t.allocations = s.allocations → t.Sparse A :=
    fun ht k _ hk _ ↦ absurd (hk.congr ht) (hs k)
  have hone : ∀ r : AllocationRecord, t.allocations = s.allocations.insert r.id r →
      t.Sparse A :=
    fun r ht k k' hk hk' ↦ (held_of_insert hs ht hk).trans (held_of_insert hs ht hk').symm
  cases h with
  | failed ht | declined ht => exact hsame ht
  | replayed => exact hsame rfl
  | unclosed hattempt ht | granted hattempt ht => exact hone _ ht

theorem allocateLocked_stems {q : AllocateRequest} {r' : AllocationRecord}
    (hr' : (s.allocateLocked q).2.allocations.lookup k = some r') :
    s.Stems (.allocate q) k r' := by
  have hlets := s.allocateLocked_lets q
  generalize (s.allocateLocked q).1 = x at hlets
  generalize (s.allocateLocked q).2 = t at hlets hr'
  have hinsert : ∀ r : AllocationRecord, r.attempt = q.attempt →
      t.allocations = s.allocations.insert r.id r → s.Stems (.allocate q) k r' := by
    intro r hattempt ht
    rw [ht, Table.lookup_insert_eq] at hr'
    split at hr'
    · obtain rfl := Option.some.inj hr'
      exact .inr ⟨q, rfl, hattempt⟩
    · exact .inl ⟨r', hr', .refl r'⟩
  cases hlets with
  | failed ht | declined ht =>
      rw [ht] at hr'
      exact .inl ⟨r', hr', .refl r'⟩
  | replayed => exact .inl ⟨r', hr', .refl r'⟩
  | unclosed hattempt ht => exact hinsert _ hattempt ht
  | granted hattempt ht => exact hinsert _ hattempt ht

theorem exec_stems {c : Call} {r' : AllocationRecord}
    (hr' : (s.exec c).2.allocations.lookup k = some r') : s.Stems c.op k r' := by
  by_cases hop : ∃ q, c.op = .allocate q
  · obtain ⟨q, hq⟩ := hop
    rw [hq]
    refine allocateLocked_stems (s := s.enter c) ?_
    rw [exec_request (q := .allocate q) hq] at hr'
    exact hr'
  · refine .inl ((s.exec_trace c).invariant (I := fun u ↦ ∀ r', u.allocations.lookup k = some r' →
      ∃ r, s.allocations.lookup k = some r ∧ r.Becomes r') ?_ ?_ r' hr')
    · intro m a u hm hallow hmove r₂ hr₂
      have hl : ∀ r, a.1 ≠ .grant r := by
        rintro r hr
        rcases a with ⟨l, w⟩
        obtain rfl : l = .grant r := hr
        obtain ⟨-, q, hq⟩ := hallow
        exact hop ⟨q, hq⟩
      obtain ⟨r₁, hr₁, hbecomes⟩ := stems_of_move hmove hl hr₂
      obtain ⟨r, hr, hbecomes'⟩ := hm r₁ hr₁
      exact ⟨r, hr, hbecomes'.trans hbecomes⟩
    · exact fun r hr ↦ ⟨r, hr, .refl r⟩

/-- A call that asks for nothing under the attempts begins no tenancy. -/
theorem exec_heldUnder {c : Call} (hasks : ∀ q, c.op = .allocate q → ¬A q.attempt)
    (h : (s.exec c).2.HeldUnder A k) : s.HeldUnder A k := by
  obtain ⟨r', hr', hattempt, hholds⟩ := h
  rcases exec_stems hr' with ⟨r, hr, hbecomes⟩ | ⟨q, hq, heq⟩
  · refine ⟨r, hr, hbecomes.same.attempt ▸ hattempt, ?_⟩
    by_contra hended
    rw [hbecomes.ended (Bool.not_eq_true _ ▸ hended)] at hholds
    exact hended hholds
  · rw [heq] at hattempt
    exact absurd hattempt (hasks q hq)

/-! ### The memory -/

theorem recordAttempt_forgets {a : AttemptRecord} {id : AttemptId} (hne : a.id ≠ id)
    (h : s.attempts.lookup id = none) : (s.recordAttempt a).attempts.lookup id = none := by
  unfold recordAttempt
  split
  · exact h
  · cases hl : (evictLoop _ _ (s.attempts.insert a.id a)).2.lookup id with
    | none => rfl
    | some b =>
        have hsub := evictLoop_sub _ _ _ hl
        rw [Table.lookup_insert_eq, if_neg (Ne.symm hne), h] at hsub
        cases hsub

theorem answer_forgets {q : Request} {id : AttemptId} (hne : q.attempt ≠ id)
    (h : s.attempts.lookup id = none) : (s.answer q).2.attempts.lookup id = none := by
  rcases s.answer_recorded q with ⟨hsame, -⟩ | ⟨a, d, -, -, ha, -, hsame⟩
  · rw [hsame.lookup]
    exact h
  · rw [hsame.lookup]
    exact recordAttempt_forgets (ha.id ▸ hne) h

/-- A call under another attempt does not bring an attempt to memory. -/
theorem exec_forgets {c : Call} {id : AttemptId}
    (hother : ∀ q, Request.of c.op = some q → q.attempt ≠ id)
    (h : s.attempts.lookup id = none) : (s.exec c).2.attempts.lookup id = none := by
  rcases s.exec_memory c with ⟨hsame, -⟩ | ⟨q, a, d, hq, -, -, ha, -, hsame, -⟩
  · rw [hsame.lookup]
    exact h
  · rw [hsame.lookup]
    exact recordAttempt_forgets (ha.id ▸ hother q hq) h

end Impl

/-! ### Sessions -/

variable {A : AttemptId → Prop} {s t : Impl}

theorem SessionRun.heldUnder {k : AllocationId} (h : SessionRun (Impl.Spares A) s t)
    (hheld : t.HeldUnder A k) : s.HeldUnder A k := by
  refine h.invariant (I := fun u ↦ u.HeldUnder A k → s.HeldUnder A k) ?_ ?_ (fun hs ↦ hs) hheld
  · refine fun u c hu hc hheld ↦ hu (Impl.exec_heldUnder ?_ hheld)
    exact fun q hq ↦ hc (.allocate q) (by rw [hq]; rfl)
  · intro u v hu hr hv
    apply hu
    obtain ⟨r, hlookup, hrest⟩ := hv
    refine ⟨r, ?_, hrest⟩
    have hview : v.view.allocations = u.view.allocations := by rw [hr.view_eq]
    exact (congrFun hview k).symm.trans hlookup

theorem SessionRun.forgets {id : AttemptId} (h : SessionRun (Impl.Spares A) s t) (hid : A id)
    (hs : s.attempts.lookup id = none) : t.attempts.lookup id = none := by
  refine h.invariant (I := fun u ↦ u.attempts.lookup id = none) ?_ ?_ hs
  · refine fun u c hu hc ↦ Impl.exec_forgets ?_ hu
    rintro q hq rfl
    exact hc q hq hid
  · intro u v hu hr
    rw [hr.sameMemory.lookup]
    exact hu

theorem SessionRun.epoch_eq {P : Impl → Call → Prop} (h : SessionRun P s t) :
    t.epoch = s.epoch := by
  refine h.invariant (I := fun u ↦ u.epoch = s.epoch) ?_ ?_ rfl
  · intro u c hu _
    refine (u.exec_trace c).invariant (I := fun v ↦ v.epoch = s.epoch) ?_ hu
    exact fun _ _ _ hv _ hm ↦ hm.epoch_eq.trans hv
  · intro u v hu hr
    cases hr
    exact hu

end BufferFabric
