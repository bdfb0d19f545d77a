import BufferFabric.Identity

/-!
# Invariants of a session

From moves to calls and runs: the ledger stays sound as long as releases are exact and
journaled, and in a session that starts from nothing no record is ever lost.
-/

namespace BufferFabric

open Outcome

/-- A key of a table after an insertion is the inserted key or an old one. -/
theorem lookup_insert_cases {κ α : Type} [DecidableEq κ] {t : Table κ α} {key k : κ} {a b : α}
    (h : (t.insert key a).lookup k = some b) :
    (k = key ∧ b = a) ∨ (k ≠ key ∧ t.lookup k = some b) := by
  rw [Table.lookup_insert_eq] at h
  split at h
  · exact .inl ⟨‹_›, (Option.some.inj h).symm⟩
  · exact .inr ⟨‹_›, h⟩

/-! ### Calls whose writes succeed -/

theorem Move.failures_le {s t : Impl} {a : Label × Bool} (h : Move s a t) :
    s.store.failures ≤ t.store.failures := by
  rw [h.failures]
  omega

/-- A move that fails no write is one whose write succeeds. -/
theorem Move.flag_of_failures {s t : Impl} {a : Label × Bool} (h : Move s a t)
    (heq : t.store.failures = s.store.failures) : a.2 = true := by
  have hf := h.failures
  by_contra hw
  rw [if_neg hw] at hf
  omega

/-- A call that fails no write only makes moves whose write succeeds. -/
theorem Impl.exec_quiet {s : Impl} {c : Call} (h : AppendsOk s c) :
    StepPath Move (fun t a ↦ c.op.Allows (s.enter c) t a ∧ a.2 = true) (s.enter c) (s.exec c).2 :=
  (s.exec_trace c).quiet (c := fun t : Impl ↦ t.store.failures) (fun _ _ _ hm ↦ hm.failures_le)
    (fun _ _ _ hm heq ↦ hm.flag_of_failures heq) h

/-- A release is always journaled, and splits the record as `R` says. -/
def ReleasesAs (R : AllocationRecord → UInt64 → Prop) (s : Impl) (c : Call) : Prop :=
  ∀ q, c.op = .release q → AppendsOk s c ∧
    ∀ r units, s.allocations.lookup q.allocation = some r →
      Impl.releaseAmount q r = .ok units → R r units

def ReleasesExactly : Impl → Call → Prop := ReleasesAs AllocationRecord.ExactSplit

/-- Every append of the call succeeds; a checkpoint appends nothing. -/
def JournalsOk (s : Impl) (c : Call) : Prop :=
  match c.op with
  | .checkpoint => True
  | _ => AppendsOk s c

instance (s : Impl) (c : Call) : Decidable (JournalsOk s c) :=
  decidable_of_iff ((match c.op with
    | .checkpoint => true
    | _ => decide (AppendsOk s c)) = true) (by
      unfold JournalsOk
      cases c.op <;> simp)

theorem JournalsOk.appendsOk {s : Impl} {c : Call} (h : JournalsOk s c)
    (hop : c.op ≠ .checkpoint) : AppendsOk s c := by
  unfold JournalsOk at h
  split at h
  · rename_i heq
    exact absurd heq hop
  · exact h

/-- In no partial release does the product of the borrowed and the released units leave 64
bits. -/
def NarrowReleases (s : Impl) (c : Call) : Prop :=
  ∀ q, c.op = .release q → q.releaseAll = true ∨ ∀ r, s.allocations.lookup q.allocation = some r →
    q.units = r.units ∨ r.borrowUnits.toNat * q.units.toNat < 18446744073709551616

instance (s : Impl) (c : Call) : Decidable (NarrowReleases s c) :=
  decidable_of_iff ((match c.op with
    | .release q => q.releaseAll || (s.allocations.lookup q.allocation).all fun r ↦
        decide (q.units = r.units ∨ r.borrowUnits.toNat * q.units.toNat < 18446744073709551616)
    | _ => true) = true) (by
      unfold NarrowReleases
      cases c.op with
      | release q => simp [Option.all_eq_true]
      | _ => simp)

theorem AllocationRecord.borrowed_le_borrowUnits (r : AllocationRecord) :
    r.borrowed.toNat ≤ r.borrowUnits.toNat := by
  rw [AllocationRecord.borrowed_toNat]
  exact Nat.min_le_left _ _

theorem NarrowReleases.releasesExactly {s : Impl} {c : Call} (h : NarrowReleases s c)
    (hok : JournalsOk s c) : ReleasesExactly s c := by
  intro q hq
  refine ⟨hok.appendsOk (by simp [hq]), ?_⟩
  intro r units hr hamount
  unfold Impl.releaseAmount at hamount
  split at hamount
  · exact .inl (Except.ok.inj hamount).symm
  · rename_i hall
    simp only [seq_ok, require_eq_ok, exists_const, pure_ok] at hamount
    obtain ⟨-, -, rfl⟩ := hamount
    rcases h q hq with hq | hq
    · exact absurd hq hall
    · rcases hq r hr with hunits | hlt
      · exact .inl hunits
      · exact .inr ((Nat.mul_le_mul_right _ r.borrowed_le_borrowUnits).trans_lt hlt)

theorem Move.lostRelease_flag {s t : Impl} {w : Bool} (h : Move s (.lostRelease, w) t) :
    w = false := by
  cases h with
  | volatile h => cases h
  | written h _ _ _ => cases h
  | unlogged h _ _ _ => rfl
  | lostRelease _ _ => rfl

/-- A call whose releases split as `R` says only makes such moves. -/
theorem Impl.exec_splits {R : AllocationRecord → UInt64 → Prop} (hall : ∀ r, R r r.units)
    {s : Impl} {c : Call} (h : ReleasesAs R s c) :
    StepPath Move (fun t a ↦ c.op.Allows (s.enter c) t a ∧ a.1.Splits R) (s.enter c) (s.exec c).2 := by
  by_cases hrel : ∃ q, c.op = .release q
  · obtain ⟨q, hq⟩ := hrel
    obtain ⟨hok, hsplit⟩ := h q hq
    refine (Impl.exec_quiet hok).strengthen ?_
    rintro t ⟨l, w⟩ u ⟨hallow, hw⟩ hm
    refine ⟨hallow, ?_⟩
    simp only at hw
    subst hw
    cases l with
    | lostRelease => exact absurd hm.lostRelease_flag (by simp)
    | release r units =>
        obtain ⟨q', hq', hr, hamount⟩ := hallow
        rw [hq] at hq'
        have hq' := Op.release.inj hq'
        subst hq'
        exact hsplit r units hr hamount
    | brokenReturn r units =>
        rcases hallow with rfl | ⟨q', hq', hr, hamount⟩
        · exact hall r
        · rw [hq] at hq'
          have hq' := Op.release.inj hq'
          subst hq'
          exact hsplit r units hr hamount
    | _ => trivial
  · refine (s.exec_trace c).mono ?_
    intro t a hallow
    refine ⟨hallow, ?_⟩
    obtain ⟨l, w⟩ := a
    cases l with
    | lostRelease => exact absurd hallow hrel
    | release r units =>
        obtain ⟨q, hq, -⟩ := hallow
        exact absurd ⟨q, hq⟩ hrel
    | brokenReturn r units =>
        rcases hallow with rfl | ⟨q, hq, -⟩
        · exact hall r
        · exact absurd ⟨q, hq⟩ hrel
    | _ => trivial

/-- Under exact releases a call makes safe moves only. -/
theorem Impl.exec_safe {s : Impl} {c : Call} (h : ReleasesExactly s c) :
    StepPath Move (fun t a ↦ c.op.Allows (s.enter c) t a ∧ a.1.Safe) (s.enter c) (s.exec c).2 :=
  Impl.exec_splits (fun _ ↦ .inl rfl) h

/-! ### Runs -/

/-- What every allowed call and every rehash preserve, a session preserves. -/
theorem SessionRun.invariant {P : Impl → Call → Prop} {I : Impl → Prop} {start s : Impl}
    (hcall : ∀ t c, I t → P t c → I (t.exec c).2) (hrehash : ∀ t u, I t → t.Rehash u → I u)
    (h : SessionRun P start s) (hstart : I start) : I s := by
  induction h with
  | refl => exact hstart
  | call c _ hp ih => exact hcall _ c ih hp
  | rehash _ hr ih => exact hrehash _ _ ih hr

theorem SessionRun.mono {P Q : Impl → Call → Prop} {start s : Impl}
    (hle : ∀ s c, P s c → Q s c) (h : SessionRun P start s) : SessionRun Q start s := by
  induction h with
  | refl => exact .refl
  | call c _ hc ih => exact ih.call c (hle _ c hc)
  | rehash _ hr ih => exact ih.rehash hr

theorem Sound.enter {s : Impl} {lost : List AllocationRecord} (h : Sound s lost) (c : Call) :
    Sound (s.enter c) lost :=
  h.congr rfl rfl rfl

theorem Sound.rehash {s t : Impl} {lost : List AllocationRecord} (h : Sound s lost)
    (hr : s.Rehash t) : Sound t lost := by
  cases hr with
  | @mk _ policies _ pools _ _ _ allocations _ _ hc hp hpn ho hon hq hqn ha hpr ht =>
      have hpools : ∀ p, pools.lookup p = s.pools.lookup p := fun p ↦ (ho.lookup_eq p).symm
      have hallocs : ∀ k, allocations.lookup k = s.allocations.lookup k :=
        fun k ↦ (ha.lookup_eq k).symm
      have hkeep : ∀ p e, s.pools.lookup p = some e → ∃ e', pools.lookup p = some e' :=
        fun p e he ↦ ⟨e, (hpools p).trans he⟩
      refine ⟨fun k r hr ↦ h.allocation_id k r ((hallocs k).symm.trans hr),
        fun k r hr ↦ h.allocation_units k r ((hallocs k).symm.trans hr),
        fun k r hr hh ↦ (h.placed k r ((hallocs k).symm.trans hr) hh).mono hkeep,
        fun r hr ↦ ⟨(h.lost_placed r hr).1, (h.lost_placed r hr).2.mono hkeep⟩,
        fun p e he ↦ h.pool_id p e ((hpools p).symm.trans he),
        fun k p hp' ↦ h.policy_id k p ((hp.lookup_eq k).trans hp'), ?_,
        fun p e he ↦ h.own_le p e ((hpools p).symm.trans he),
        fun p e he ↦ h.borrowed_le p e ((hpools p).symm.trans he), ?_⟩
      · intro p e he f
        rw [h.rows p e ((hpools p).symm.trans he) f]
        unfold Impl.books
        dsimp only
        rw [ha.total_eq]
      · obtain ⟨rank, hrank⟩ := h.ranked
        refine ⟨rank, ?_⟩
        intro p e he hv
        obtain ⟨⟨pe, hpe⟩, hlt⟩ := hrank p e ((hpools p).symm.trans he) hv
        exact ⟨hkeep _ _ hpe, hlt⟩

theorem Label.Safe.ne_lostRelease {l : Label} (h : l.Safe) : l ≠ .lostRelease := by
  rintro rfl
  exact h

/-- A ledger from which nothing was lost, with every record under its id and the counter
ahead of every id. -/
structure Exact (s : Impl) : Prop where
  sound : Sound s []
  keyed : s.view.Keyed
  ahead : s.view.Ahead .allocation

theorem Exact.change {s m : Impl} {l : Label} {record : Option JournalRecord} (h : Exact s)
    (hsafe : l.Safe) (hc : Change s l record m) : Exact m := by
  obtain ⟨lost', hs, hfresh⟩ := hc.sound h.sound hsafe
  have hlost : lost' = [] := by
    apply hfresh
    cases hc with
    | grant key entry policy r pools hfits hpools => exact h.ahead.fresh hfits
    | _ => trivial
  subst hlost
  exact ⟨hs, hc.keyed h.keyed, hc.ahead h.keyed h.ahead⟩

theorem Exact.move {s t : Impl} {a : Label × Bool} (h : Exact s) (hsafe : a.1.Safe)
    (hm : Move s a t) : Exact t :=
  hm.keeps hsafe.ne_lostRelease (fun _ _ h ↦ ⟨h.sound.congr rfl rfl rfl, h.keyed, h.ahead⟩)
    (fun _ _ hc ↦ h.change hsafe hc) h

theorem Exact.enter {s : Impl} (h : Exact s) (c : Call) : Exact (s.enter c) :=
  ⟨h.sound.enter c, h.keyed, h.ahead⟩

theorem Exact.exec {s : Impl} (h : Exact s) {c : Call} (hc : ReleasesExactly s c) :
    Exact (s.exec c).2 :=
  (Impl.exec_safe hc).invariant (fun _ _ _ hi ha hm ↦ hi.move ha.2 hm) (h.enter c)

theorem Impl.Rehash.view_eq {s t : Impl} (hr : s.Rehash t) : t.view = s.view := by
  cases hr with
  | mk hc hp hpn ho hon hq hqn ha hpr ht =>
      simp only [Impl.view, View.mk.injEq, true_and]
      exact ⟨funext fun k ↦ (hc.lookup_eq k).symm, funext fun k ↦ (hp.lookup_eq k).symm,
        funext fun k ↦ by rw [ho.lookup_eq k], funext fun k ↦ (hq.lookup_eq k).symm,
        funext fun k ↦ (ha.lookup_eq k).symm⟩

theorem Exact.rehash {s t : Impl} (h : Exact s) (hr : s.Rehash t) : Exact t :=
  ⟨h.sound.rehash hr, by rw [hr.view_eq]; exact h.keyed, by rw [hr.view_eq]; exact h.ahead⟩

theorem SessionRun.exact {P : Impl → Call → Prop} {start s : Impl}
    (hP : ∀ s c, P s c → ReleasesExactly s c) (h : SessionRun P start s) (hstart : Exact start) :
    Exact s :=
  h.invariant (fun _ _ hs hp ↦ hs.exec (hP _ _ hp)) (fun _ _ hs hr ↦ hs.rehash hr) hstart

/-- What every change of an exact ledger preserves, a session with exact releases
preserves. -/
theorem SessionRun.exact_invariant {P : Impl → Call → Prop} {J : Impl → Prop} {start s : Impl}
    (hP : ∀ s c, P s c → ReleasesExactly s c)
    (hframe : ∀ (s : Impl) (tick : Tick) (store : DurableStore), J s →
      J { s with tick := tick, store := store })
    (hrehash : ∀ s t, J s → s.Rehash t → J t)
    (hchange : ∀ s l record m, Change s l record m → l.Safe → Exact s → Exact m → J s → J m)
    (h : SessionRun P start s) (hstart : Exact start) (hJ : J start) : J s := by
  have hrun := h.invariant (I := fun t ↦ Exact t ∧ J t) ?_ ?_ ⟨hstart, hJ⟩
  · exact hrun.2
  · rintro t c ⟨ht, hj⟩ hp
    refine (Impl.exec_safe (hP _ _ hp)).invariant (I := fun t ↦ Exact t ∧ J t) ?_
      ⟨ht.enter c, hframe t _ _ hj⟩
    rintro u a v ⟨hu, hj⟩ ⟨-, hsafe⟩ hm
    exact ⟨hu.move hsafe hm, hm.keeps hsafe.ne_lostRelease (fun m st ↦ hframe m m.tick st)
      (fun record m h ↦ hchange u a.1 record m h hsafe hu (hu.change hsafe h) hj) hj⟩
  · rintro t u ⟨ht, hj⟩ hr
    exact ⟨ht.rehash hr, hrehash t u hj hr⟩

end BufferFabric
