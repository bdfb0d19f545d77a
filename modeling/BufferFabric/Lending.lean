import BufferFabric.Faults
import BufferFabric.Lifecycle

/-!
# Lending

A borrowed unit is lent by an ancestor of the pool that uses it, and counted once on either
side. Pools are removed only when nothing is lent and nothing below them is registered, so
the lender of a holding stays registered above it.
-/

namespace BufferFabric

open Outcome

/-! ### Ancestors -/

def View.Parent (v : View) (p c : PoolId) : Prop :=
  p.Valid ∧ ∃ d, v.pools c = some d ∧ d.1.parent = p

def View.Above (v : View) : PoolId → PoolId → Prop := Relation.TransGen v.Parent

theorem Impl.view_pools_lookup {s : Impl} {p : PoolId} {e : PoolEntry}
    (h : s.pools.lookup p = some e) : s.view.pools p = some e.shape := by
  simp only [Impl.view, h, Option.map_some]

theorem Change.parent {s m : Impl} {l : Label} {record : Option JournalRecord}
    (h : Change s l record m) (hk : s.view.Keyed) (hl : l ≠ .brokenGrant) {p c : PoolId}
    (hp : s.view.Parent p c) (hc : ∀ key, l = .removePool key → c ≠ key) : m.view.Parent p c := by
  have hpools := (h.view_agrees hk hl).pools
  obtain ⟨hv, d, hd, hparent⟩ := hp
  refine ⟨hv, ?_⟩
  rw [hpools]
  cases h with
  | pool d' hvalid hnew hid hparent' hpolicy hroom hfits =>
      have hne : c ≠ d'.id := by
        rintro rfl
        simp only [Impl.view, hnew, Option.map_none] at hd
        cases hd
      exact ⟨d, (Function.update_of_ne hne _ _).trans hd, hparent⟩
  | removePool key entry hlook hleaf hlent halloc =>
      exact ⟨d, (Function.update_of_ne (hc key rfl) _ _).trans hd, hparent⟩
  | resize key entry raw prot generation capacity hlook =>
      have hid : entry.descriptor.id = key := hk.pools key _ (Impl.view_pools_lookup hlook)
      by_cases hck : c = entry.descriptor.id
      · refine ⟨(entry.resized raw prot generation capacity).shape, ?_, ?_⟩
        · rw [hck]
          exact Function.update_self ..
        · rw [hck, hid, Impl.view_pools_lookup hlook] at hd
          obtain rfl := Option.some.inj hd
          exact hparent
      · exact ⟨d, (Function.update_of_ne hck _ _).trans hd, hparent⟩
  | brokenGrant => exact absurd rfl hl
  | _ => exact ⟨d, hd, hparent⟩

/-- An ancestor stays above a pool that stays registered: what is removed has nothing below
it. -/
theorem Change.above {s m : Impl} {l : Label} {record : Option JournalRecord}
    (h : Change s l record m) (hk : s.view.Keyed) (hl : l ≠ .brokenGrant) {p c : PoolId}
    (hp : s.view.Above p c) (hc : ∀ key, l = .removePool key → c ≠ key) : m.view.Above p c := by
  have hleaf : ∀ key, l = .removePool key → ∀ {a b : PoolId}, s.view.Parent a b → a ≠ key := by
    intro key hkey a b hab
    cases h with
    | removePool key' entry hlook hleaf hlent halloc =>
        obtain rfl := Label.removePool.inj hkey
        obtain ⟨-, d, hd, rfl⟩ := hab
        obtain ⟨e, he, rfl⟩ := Option.map_eq_some_iff.mp hd
        exact hleaf b e he
    | _ => cases hkey
  induction hp with
  | single hab => exact .single (h.parent hk hl hab hc)
  | tail hab hbc ih =>
      exact (ih fun key hkey ↦ hleaf key hkey hbc).tail (h.parent hk hl hbc hc)

/-- The lender a grant takes is above its pool. -/
theorem Impl.findLender_above {s : Impl} (hs : Sound s []) {c : PoolId} {e : PoolEntry}
    (he : s.pools.lookup c = some e) {fuel : ℕ} {lender : PoolId} {free : UInt64}
    (hres : s.findLender fuel e.descriptor.parent = (lender, free)) (hfree : free ≠ 0) :
    s.view.Above lender c := by
  have hnone : ∀ {l : PoolId} {u : UInt64}, ((default : PoolId), (0 : UInt64)) = (l, u) → u = 0 :=
    fun h ↦ (congrArg Prod.snd h).symm
  induction fuel generalizing c e with
  | zero => exact absurd (hnone hres) hfree
  | succ fuel ih =>
      unfold Impl.findLender at hres
      split at hres
      · rename_i hv
        have hparent : s.view.Parent e.descriptor.parent c :=
          ⟨hv, e.shape, Impl.view_pools_lookup he, rfl⟩
        split at hres
        · exact absurd (hnone hres) hfree
        rename_i ancestor hl
        split at hres
        · rw [(hs.pool_id _ ancestor hl).1] at hres
          rw [← (Prod.mk.inj hres).1]
          exact .single hparent
        · exact (ih hl hres).tail hparent
      · exact absurd (hnone hres) hfree

/-! ### Lenders of holdings -/

def LendersAbove (s : Impl) : Prop :=
  ∀ k r, s.allocations.lookup k = some r → r.state.holdsUnits = true → r.borrowUnits ≠ 0 →
    s.view.Above r.lender r.pool

/-- A record was written in the place of another one that held as much. -/
theorem LendersAbove.of_insert {s m : Impl} (h : LendersAbove s) {key : AllocationId}
    {r r' : AllocationRecord} (hr : s.allocations.lookup key = some r)
    (hholds : r.state.holdsUnits = true) (ha : m.allocations = s.allocations.insert key r')
    (hpool : r'.pool = r.pool)
    (hlender : r'.state.holdsUnits = true → r'.borrowUnits ≠ 0 →
      r'.lender = r.lender ∧ r.borrowUnits ≠ 0)
    (habove : ∀ {p c}, s.view.Above p c → m.view.Above p c) : LendersAbove m := by
  intro k r₁ hr₁ hh hb
  rw [ha] at hr₁
  apply habove
  rcases lookup_insert_cases hr₁ with ⟨-, rfl⟩ | ⟨-, hold⟩
  · obtain ⟨hl, hb'⟩ := hlender hh hb
    rw [hpool, hl]
    exact h key r hr hholds hb'
  · exact h k r₁ hold hh hb

theorem Change.lendersAbove {s m : Impl} {l : Label} {record : Option JournalRecord}
    (h : Change s l record m) (hs : Exact s) (hm : Exact m) (hsafe : l.Safe)
    (hv : LendersAbove s) : LendersAbove m := by
  have hl := (h.not_broken hs.sound hsafe).1
  have habove : (∀ key, l ≠ .removePool key) → ∀ {p c}, s.view.Above p c → m.view.Above p c :=
    fun hne p c hp ↦ h.above hs.keyed hl hp fun key hkey ↦ absurd hkey (hne key)
  have hkeep : m.allocations = s.allocations → (∀ key, l ≠ .removePool key) → LendersAbove m := by
    intro ha hne k r hr hh hb
    rw [ha] at hr
    exact habove hne (hv k r hr hh hb)
  cases h with
  | attempt a => exact hkeep (s.allocations_recordAttempt a) (by simp)
  | removePool key entry hlook hleaf hlent halloc =>
      intro k r hr hh hb
      refine (Change.removePool key entry hlook hleaf hlent halloc).above hs.keyed hl
        (hv k r hr hh hb) ?_
      rintro key' hkey rfl
      obtain rfl := Label.removePool.inj hkey
      obtain ⟨e, he⟩ := (hm.sound.placed k r hr hh).pool
      rw [Table.lookup_erase_eq, if_pos rfl] at he
      cases he
  | grant key entry policy r pools hfits hpools =>
      intro k r' hr' hh hb
      apply habove (by simp)
      rcases lookup_insert_cases hr' with ⟨-, rfl⟩ | ⟨-, hold⟩
      · obtain ⟨hlender, hle⟩ := hfits.lender hb
        rw [hlender, (hs.sound.grant_placed hfits).1]
        refine Impl.findLender_above hs.sound hfits.pool_lookup (Prod.mk.eta).symm ?_
        rw [Word.ne_zero_iff] at hb ⊢
        omega
      · exact hv k r' hold hh hb
  | fence key r entry state pools hr hholds hstate hent hpools hexpired =>
      exact hv.of_insert hr hholds rfl rfl (fun _ hb ↦ ⟨rfl, hb⟩) (habove (by simp))
  | commit key r entry hr hst hent =>
      exact hv.of_insert hr (AllocationRecord.holds_of_reserved hst) rfl rfl
        (fun _ hb ↦ ⟨rfl, hb⟩) (habove (by simp))
  | release key r entry units pools hr hholds hunits hle hent hpools =>
      have hadv := AllocationRecord.remainder_advances s hholds hle
      refine hv.of_insert hr hholds rfl hadv.same.pool ?_ (habove (by simp))
      intro hh hb
      have hborrow := Word.le_iff.mp hadv.borrowUnits
      refine ⟨?_, ?_⟩
      · unfold Impl.remainder at hh ⊢
        dsimp only at hh ⊢
        split at hh
        · cases hh
        · rename_i hne
          rw [if_neg hne]
      · rw [Word.ne_zero_iff] at hb ⊢
        omega
  | rebind key r bound hr hholds hepoch hqueue =>
      exact hv.of_insert hr hholds rfl rfl (fun _ hb ↦ ⟨rfl, hb⟩) (habove (by simp))
  | brokenGrant => exact absurd rfl hl
  | _ => exact hkeep rfl (by simp)

/-! ### Conservation -/

/-- What all pools borrowed is what all pools lent. -/
theorem Exact.borrowed_eq_lent {s : Impl} (hs : Exact s) :
    Table.total (fun _ e ↦ e.borrowedIn.toNat) s.pools =
      Table.total (fun _ e ↦ e.lentOut.toNat) s.pools := by
  have hside : ∀ f, Table.total (fun _ e ↦ e.read f) s.pools =
      Table.total (fun _ r ↦ Table.total (fun p _ ↦ r.contrib p f) s.pools) s.allocations := by
    intro f
    rw [Table.total_comm]
    apply Table.total_congr
    intro p e he
    rw [hs.sound.rows p e he]
    unfold Impl.books
    rw [List.map_nil, List.sum_nil, Nat.add_zero]
  refine (hside .borrowed).trans (Eq.trans ?_ (hside .lent).symm)
  apply Table.total_congr
  intro k r hr
  cases hh : r.state.holdsUnits with
  | false => simp [AllocationRecord.contrib, hh]
  | true =>
      have hplaced := hs.sound.placed k r hr hh
      obtain ⟨e, he⟩ := hplaced.pool
      have hin : Table.total (fun p _ ↦ r.contrib p .borrowed) s.pools = r.borrowed.toNat := by
        simp only [AllocationRecord.contrib, AllocationRecord.share, AllocationRecord.lentShare,
          hh, if_true, ite_self, Nat.add_zero]
        exact Table.total_single he _
      have hout : Table.total (fun p _ ↦ r.contrib p .lent) s.pools = r.borrowed.toNat := by
        simp only [AllocationRecord.contrib, AllocationRecord.share, AllocationRecord.lentShare,
          hh, if_true, ite_self, Nat.zero_add]
        by_cases hb : r.borrowUnits = 0
        · simp [hplaced.borrowed_eq, hb, Table.total_zero]
        · obtain ⟨-, -, l, hl⟩ := hplaced.lender hb
          exact Table.total_single hl _
      rw [hin, hout]

/-! ### Sessions -/

theorem Impl.view_above_ne {s : Impl} {lost : List AllocationRecord} (hs : Sound s lost)
    {p c : PoolId} (h : s.view.Above p c) : p ≠ c := by
  obtain ⟨rank, hrank⟩ := hs.ranked
  have hlt : rank p < rank c := by
    have hstep : ∀ {a b : PoolId}, s.view.Parent a b → rank a < rank b := by
      rintro a b ⟨hv, d, hd, rfl⟩
      obtain ⟨e, he, rfl⟩ := Option.map_eq_some_iff.mp hd
      exact (hrank b e he hv).2
    induction h with
    | single hab => exact hstep hab
    | tail _ hbc ih => exact ih.trans (hstep hbc)
  rintro rfl
  exact Nat.lt_irrefl _ hlt

/-- In a session that starts from nothing, in which every write succeeds and every partial
release computes its borrowed part within 64 bits: borrowed units are part of what the
allocation holds and come from a registered proper ancestor of its pool, what all pools
borrowed is what all pools lent, and no operation that moves units meets an error branch of
the ledger. -/
theorem lenders_safe {start s : Impl} (hstart : FreshlyOpened start)
    (hrun : SessionRun (fun s c ↦ JournalsOk s c ∧ NarrowReleases s c) start s) :
    (∀ k r, s.allocations.lookup k = some r → r.state.holdsUnits = true → 0 < r.borrowUnits →
        r.borrowUnits ≤ r.units ∧ (∃ e, s.pools.lookup r.lender = some e) ∧
          s.view.Above r.lender r.pool ∧ r.lender ≠ r.pool) ∧
      Table.total (fun _ e ↦ e.borrowedIn.toNat) s.pools =
        Table.total (fun _ e ↦ e.lentOut.toNat) s.pools ∧
      ∀ c, JournalsOk s c → NarrowReleases s c → c.op.MovesUnits = true →
        ∀ e, (s.exec c).1 = .error e → ¬e.LedgerFault := by
  have hblank := hstart.blank
  have hexact := hrun.exact (fun s c h ↦ h.2.releasesExactly h.1) hblank.exact
  have habove : LendersAbove s := by
    refine hrun.exact_invariant (fun s c h ↦ h.2.releasesExactly h.1)
      (fun _ _ _ hj ↦ hj) ?_ (fun _ _ _ _ hc hsafe hs hm hj ↦ hc.lendersAbove hs hm hsafe hj)
      hblank.exact ?_
    · intro t u hj hr k r hlookup
      have hview := hr.view_eq
      rw [hview]
      exact hj k r ((congrFun (congrArg View.allocations hview) k).symm.trans hlookup)
    · intro k r hr
      rw [hblank.allocations] at hr
      cases hr
  refine ⟨?_, hexact.borrowed_eq_lent, ?_⟩
  · intro k r hr hholds hpos
    have hb : r.borrowUnits ≠ 0 := by
      rintro h
      rw [h] at hpos
      exact absurd hpos (by decide)
    have hplaced := hexact.sound.placed k r hr hholds
    obtain ⟨-, -, l, hl⟩ := hplaced.lender hb
    have hab := habove k r hr hholds hb
    exact ⟨Word.le_iff.mpr hplaced.borrow_le, ⟨l, hl⟩, hab,
      Impl.view_above_ne hexact.sound hab⟩
  · intro c hok hnarrow hop e he
    rcases hexact.exec_graceful (hnarrow.releasesExactly hok) hop e he with hplain | hlost
    · exact hplain.not_fault
    · have hcheck : c.op ≠ .checkpoint := by
        intro h
        rw [h] at hop
        cases hop
      exact absurd (hok.appendsOk hcheck).symm (Nat.ne_of_lt hlost)

/-- A child of twenty units takes forty, twenty of them from its parent, and gives ten
back. -/
def lendingSession : List Call :=
  smallTopology { smallPolicy with borrow := { mode := .fromAncestorFree, limitUnits := 50 } } ++
    [{ op := .registerPool
        { name := [97], resource := ⟨1⟩, backend := ⟨1⟩, rawUnits := 100, policy := ⟨1⟩ } },
      { op := .registerPool
          { name := [98], parent := ⟨1⟩, resource := ⟨1⟩, backend := ⟨1⟩, rawUnits := 20
            policy := ⟨1⟩ } },
      { op := .registerQueue { name := [113], pool := ⟨2⟩ } },
      { op := .allocate { attempt := ⟨1⟩, pool := ⟨2⟩, queue := ⟨1⟩, requestedUnits := 40 } },
      { op := .release { attempt := ⟨2⟩, allocation := ⟨1⟩, units := 10, releaseAll := false } }]

theorem lenders_safe_child :
    ∃ r, (smallOpened.play lendingSession).allocations.lookup ⟨1⟩ = some r ∧
      r.borrowUnits = 15 ∧ r.units = 30 ∧
      (smallOpened.play lendingSession).view.Above r.lender r.pool := by
  have hadmits : smallOpened.Admits (fun s c ↦ JournalsOk s c ∧ NarrowReleases s c)
      lendingSession := by
    decide +kernel
  have hr : ((smallOpened.play lendingSession).allocations.lookup ⟨1⟩).any
      (fun r ↦ decide (r.borrowUnits = 15 ∧ r.units = 30 ∧ r.state.holdsUnits = true)) = true := by
    decide +kernel
  obtain ⟨r, hr, hdec⟩ := (Option.any_eq_true ..).mp hr
  obtain ⟨hborrow, hunits, hholds⟩ := of_decide_eq_true hdec
  obtain ⟨hlenders, -, -⟩ := lenders_safe smallOpened_fresh (SessionRun.refl.play hadmits)
  obtain ⟨-, -, habove, -⟩ := hlenders ⟨1⟩ r hr hholds (by rw [hborrow]; decide)
  exact ⟨r, hr, hborrow, hunits, habove⟩

end BufferFabric
