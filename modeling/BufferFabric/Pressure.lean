import BufferFabric.Prediction
import BufferFabric.Validity

/-!
# Pressure bands

The bands are compared by products of two words each, which are computed in halves. The
comparison is that of the products of natural numbers. The reported utilization and the soft mark
are computed from a single word, which is too small for the largest pools.
-/

namespace BufferFabric

open Outcome

/-! ### The comparison of products -/

/-- The two words are the product: the high one counts multiples of `2^64`. -/
theorem splitMul_eq (x y : UInt64) :
    (splitMul x y).1.toNat * 18446744073709551616 + (splitMul x y).2.toNat =
      x.toNat * y.toNat := by
  have hx := Word.toNat_lt x
  have hy := Word.toNat_lt y
  have hproduct : ∀ {a b : UInt64}, a.toNat < 4294967296 → b.toNat < 4294967296 →
      (a * b).toNat = a.toNat * b.toNat := by
    intro a b ha hb
    exact Word.toNat_mul (Nat.mul_lt_mul'' ha hb)
  have hlow : ∀ a : UInt64, (a &&& 4294967295).toNat < 4294967296 := by
    intro a
    rw [Word.toNat_low]
    exact Nat.mod_lt _ (by decide)
  have hhigh : ∀ a : UInt64, (a >>> 32).toNat < 4294967296 := by
    intro a
    rw [Word.toNat_high]
    exact Nat.div_lt_of_lt_mul (Word.toNat_lt a)
  let mask : UInt64 := 4294967295
  -- the sum of the partial products in natural numbers
  have hsum : ((x >>> 32) * (y >>> 32)).toNat * 18446744073709551616 +
      (((x &&& mask) * (y >>> 32)).toNat + ((x >>> 32) * (y &&& mask)).toNat) *
        4294967296 + ((x &&& mask) * (y &&& mask)).toNat = x.toNat * y.toNat := by
    rw [hproduct (hhigh x) (hhigh y), hproduct (hlow x) (hhigh y), hproduct (hhigh x) (hlow y),
      hproduct (hlow x) (hlow y)]
    simp only [Word.toNat_low, Word.toNat_high]
    calc _ = (x.toNat / 4294967296 * 4294967296 + x.toNat % 4294967296) *
          (y.toNat / 4294967296 * 4294967296 + y.toNat % 4294967296) := by ring
      _ = x.toNat * y.toNat := by rw [Nat.div_add_mod', Nat.div_add_mod']
  rw [← hsum]
  refine Word.toNat_wide rfl ?_
  rw [hsum]
  exact Nat.mul_lt_mul'' hx hy

/-- The order of the two products. -/
theorem mulCompare_eq (a b c d : UInt64) :
    mulCompare a b c d = compare (a.toNat * b.toNat) (c.toNat * d.toNat) := by
  have hab := splitMul_eq a b
  have hcd := splitMul_eq c d
  unfold mulCompare
  generalize splitMul a b = ab at *
  generalize splitMul c d = cd at *
  obtain ⟨hi₁, lo₁⟩ := ab
  obtain ⟨hi₂, lo₂⟩ := cd
  dsimp only at hab hcd ⊢
  have hlo₁ := Word.toNat_lt lo₁
  have hlo₂ := Word.toNat_lt lo₂
  rw [← hab, ← hcd]
  split
  · rename_i hne
    have hne : hi₁.toNat ≠ hi₂.toNat := fun h ↦ hne (Word.eq_of_toNat h)
    split
    · rename_i hlt
      rw [Word.lt_iff] at hlt
      exact (Nat.compare_eq_lt.mpr (by omega)).symm
    · rename_i hlt
      rw [Word.lt_iff] at hlt
      exact (Nat.compare_eq_gt.mpr (by omega)).symm
  · rename_i heq
    obtain rfl := not_not.mp heq
    split
    · rename_i hne
      have hne : lo₁.toNat ≠ lo₂.toNat := fun h ↦ hne (Word.eq_of_toNat h)
      split
      · rename_i hlt
        rw [Word.lt_iff] at hlt
        exact (Nat.compare_eq_lt.mpr (by omega)).symm
      · rename_i hlt
        rw [Word.lt_iff] at hlt
        exact (Nat.compare_eq_gt.mpr (by omega)).symm
    · rename_i heq
      obtain rfl := not_not.mp heq
      exact (Nat.compare_eq_eq.mpr rfl).symm

/-- The comparison tells which product is larger. -/
theorem mulCompare_exact (a b c d : UInt64) :
    (mulCompare a b c d = .lt ↔ a.toNat * b.toNat < c.toNat * d.toNat) ∧
      (mulCompare a b c d = .eq ↔ a.toNat * b.toNat = c.toNat * d.toNat) ∧
      (mulCompare a b c d = .gt ↔ c.toNat * d.toNat < a.toNat * b.toNat) := by
  rw [mulCompare_eq]
  exact ⟨Nat.compare_eq_lt, Nat.compare_eq_eq, Nat.compare_eq_gt⟩

theorem utilizationAtLeast_iff {used usable : UInt64} {bandBp : UInt32} (h : usable ≠ 0) :
    utilizationAtLeast used usable bandBp = true ↔
      bandBp.toNat * usable.toNat ≤ used.toNat * 10000 := by
  unfold utilizationAtLeast
  rw [if_neg h, mulCompare_eq]
  have hscale : Thresholds.kScale.toUInt64.toNat = 10000 := by decide
  rw [hscale, UInt32.toNat_toUInt64, bne_iff_ne, Ne, Nat.compare_eq_lt]
  exact Nat.not_lt

/-! ### The bands -/

def Thresholds.band (t : Thresholds) (used usable : ℕ) : PressureState :=
  if t.criticalBp.toNat * usable ≤ used * 10000 then .critical
  else if t.highBp.toNat * usable ≤ used * 10000 then .high
  else if t.elevatedBp.toNat * usable ≤ used * 10000 then .elevated
  else .clear

theorem classifyPressure_state (t : Thresholds) {used usable : UInt64} (h : usable ≠ 0)
    (overcommitted : Bool) :
    (classifyPressure t used usable overcommitted).state = t.band used.toNat usable.toNat := by
  unfold classifyPressure Thresholds.band
  rw [if_neg h]
  simp only [utilizationAtLeast_iff h]
  split
  · rfl
  split
  · rfl
  split
  · rfl
  · rfl

/-- A pressure does not fall when a band is reached sooner. -/
theorem Thresholds.band_mono {t : Thresholds} {used used' usable usable' : ℕ}
    (hused : used ≤ used') (husable : usable' ≤ usable) :
    (t.band used usable).toU8 ≤ (t.band used' usable').toU8 := by
  have hkeep : ∀ bp : UInt32, bp.toNat * usable ≤ used * 10000 →
      bp.toNat * usable' ≤ used' * 10000 := by
    intro bp hbp
    calc bp.toNat * usable' ≤ bp.toNat * usable := Nat.mul_le_mul_left _ husable
      _ ≤ used * 10000 := hbp
      _ ≤ used' * 10000 := Nat.mul_le_mul_right _ hused
  have hc := hkeep t.criticalBp
  have hh := hkeep t.highBp
  have he := hkeep t.elevatedBp
  unfold band
  split_ifs <;> first | decide | tauto

theorem Thresholds.bounds_of_valid {t : Thresholds} (h : t.validate = .ok ()) :
    0 < t.elevatedBp.toNat ∧ t.criticalBp.toNat ≤ 10000 := by
  unfold validate at h
  simp only [seq_ok, require_eq_ok, exists_const] at h
  obtain ⟨hpos, -, -, hscale⟩ := h
  refine ⟨Nat.pos_of_ne_zero fun hzero ↦ hpos (UInt32.toNat_inj.mp hzero), ?_⟩
  exact UInt32.le_iff_toNat_le.mp hscale

/-- No use is below every band. -/
theorem Thresholds.band_zero {t : Thresholds} (h : t.validate = .ok ()) {usable : ℕ}
    (husable : 0 < usable) : t.band 0 usable = .clear := by
  have hpos := (bounds_of_valid h).1
  unfold validate at h
  simp only [seq_ok, require_eq_ok, exists_const, UInt32.lt_iff_toNat_lt] at h
  obtain ⟨-, hhigh, hcritical, -⟩ := h
  have hnot : ∀ bp : UInt32, 0 < bp.toNat → ¬bp.toNat * usable ≤ 0 * 10000 := by
    intro bp hbp hle
    rw [Nat.zero_mul] at hle
    exact absurd (Nat.mul_pos hbp husable) (by omega)
  unfold band
  rw [if_neg (hnot _ (by omega)), if_neg (hnot _ (by omega)), if_neg (hnot _ hpos)]

theorem classifyPressure_mono {t : Thresholds} (ht : t.validate = .ok ())
    {used used' usable usable' : UInt64} (hpos : usable ≠ 0) (hused : used ≤ used')
    (husable : usable' ≤ usable) (o o' : Bool) :
    (classifyPressure t used usable o).state.toU8 ≤
      (classifyPressure t used' usable' o').state.toU8 := by
  have hused := Word.le_iff.mp hused
  have husable := Word.le_iff.mp husable
  rw [classifyPressure_state t hpos]
  by_cases hzero : usable' = 0
  · by_cases hidle : used' = 0 ∧ o' = false
    · obtain ⟨rfl, rfl⟩ := hidle
      have hnone : used.toNat = 0 := Nat.le_zero.mp hused
      rw [hnone, Thresholds.band_zero ht (Word.ne_zero_iff.mp hpos)]
      unfold classifyPressure
      rw [if_pos hzero, if_pos ⟨rfl, rfl⟩]
      exact UInt8.le_refl _
    · have hcritical : (classifyPressure t used' usable' o').state = .critical := by
        unfold classifyPressure
        rw [if_pos hzero, if_neg]
        simpa using hidle
      rw [hcritical]
      unfold Thresholds.band
      split_ifs <;> decide
  · rw [classifyPressure_state t hzero]
    exact Thresholds.band_mono hused husable

/-! ### The pools of a fabric -/

namespace Impl

variable {s : Impl} {p : PoolId} {e : PoolEntry}

def thresholdsOf (s : Impl) (entry : PoolEntry) : Thresholds :=
  match s.policies.lookup entry.descriptor.policy with
  | none => {}
  | some policy => policy.pressure.thresholds

/-- The observation that `resolve_evidence` makes of a pool. -/
def observePool (s : Impl) (entry : PoolEntry) : PressureObservation :=
  classifyPressure (s.thresholdsOf entry) entry.ownUsage entry.usable (entry.overcommitUsed != 0)

/-- The evidence reports this observation, and its state where the evidence can be used. -/
theorem resolveEvidence_observation (s : Impl) (entry : PoolEntry) :
    (s.resolveEvidence entry).utilizationBp = (s.observePool entry).utilizationBp ∧
      ((s.resolveEvidence entry).usable = true →
        (s.resolveEvidence entry).state = (s.observePool entry).state) := by
  have hrefused : ∀ e : PressureEvidence, e.utilizationBp = (s.observePool entry).utilizationBp →
      e.usable = false → e.utilizationBp = (s.observePool entry).utilizationBp ∧
        (e.usable = true → e.state = (s.observePool entry).state) := by
    intro e hbp hunusable
    refine ⟨hbp, fun husable ↦ ?_⟩
    cases hunusable.symm.trans husable
  unfold resolveEvidence
  dsimp only
  split
  · exact hrefused _ rfl rfl
  split
  · exact hrefused _ rfl rfl
  split
  · exact hrefused _ rfl rfl
  split
  · exact hrefused _ rfl rfl
  split
  · exact hrefused _ rfl rfl
  split
  · exact hrefused _ rfl rfl
  · exact ⟨rfl, fun _ ↦ rfl⟩

/-- A pool over its capacity is at the critical band. -/
theorem observePool_overcommitted (hv : s.view.Valid) (hover : 0 < e.overcommitUsed.toNat) :
    (s.observePool e).state = .critical := by
  have hscale : (s.thresholdsOf e).criticalBp.toNat ≤ 10000 := by
    unfold thresholdsOf
    split
    · decide
    · rename_i policy hpolicy
      have hvalid := hv.policies _ _ (show s.view.policies _ = some policy from hpolicy)
      unfold PoolPolicy.IsValid PoolPolicy.validate at hvalid
      simp only [seq_ok] at hvalid
      obtain ⟨_, -, _, -, u, hthresholds, -⟩ := hvalid
      exact (Thresholds.bounds_of_valid hthresholds).2
  rw [PoolEntry.overcommitUsed_toNat] at hover
  unfold observePool
  by_cases hzero : e.usable = 0
  · unfold classifyPressure
    rw [if_pos hzero, if_neg]
    rintro ⟨hidle, -⟩
    rw [hidle, UInt64.toNat_zero] at hover
    omega
  · rw [classifyPressure_state _ hzero]
    unfold Thresholds.band
    rw [if_pos]
    calc _ ≤ 10000 * e.usable.toNat := Nat.mul_le_mul_right _ hscale
      _ ≤ e.ownUsage.toNat * 10000 := by omega

end Impl

/-- The band is that of the natural numbers, it does not fall when the use grows or the capacity
shrinks, and every pool over its capacity is at the critical band, as its evidence reports. -/
theorem pressure_bands_exact :
    (∀ (t : Thresholds) (used usable : UInt64) (overcommitted : Bool), usable ≠ 0 →
      (classifyPressure t used usable overcommitted).state = t.band used.toNat usable.toNat) ∧
    (∀ (t : Thresholds) (used used' usable usable' : UInt64) (o o' : Bool),
      t.validate = .ok () → usable ≠ 0 → used ≤ used' → usable' ≤ usable →
      (classifyPressure t used usable o).state.toU8 ≤
        (classifyPressure t used' usable' o').state.toU8) ∧
    ∀ (allow : System → Event → Prop) (y : System) (s : Impl), System.Run allow y →
      y.live = some s → ∀ p e, s.pools.lookup p = some e → 0 < e.overcommitUsed →
        (s.observePool e).state = .critical ∧
          ((s.resolveEvidence e).usable = true → (s.resolveEvidence e).state = .critical) := by
  refine ⟨fun t _ _ o h ↦ classifyPressure_state t h o,
    fun _ _ _ _ _ o o' ht hpos hused husable ↦ classifyPressure_mono ht hpos hused husable o o',
    ?_⟩
  intro allow y s hrun hlive p e he hover
  have hcritical := Impl.observePool_overcommitted (hrun.valid hlive) (Word.lt_iff.mp hover)
  refine ⟨hcritical, fun husable ↦ ?_⟩
  rw [(s.resolveEvidence_observation e).2 husable, hcritical]

def overcommittedScript : List Command :=
  [.start smallConfig] ++
    (smallTopology { smallPolicy with overcommit := { mode := .bounded, limitUnits := 50 } } ++
      [{ op := .registerPool
          { name := [97], resource := ⟨1⟩, backend := ⟨1⟩, rawUnits := 100, policy := ⟨1⟩ } },
        { op := .registerQueue { name := [113], pool := ⟨1⟩ } },
        askUnits 1 120 true]).map .call

theorem pressure_bands_exact_overcommitted :
    (classifyPressure {} 6999 10000 false).state = .clear ∧
      (classifyPressure {} 6999 10000 false).state.toU8 ≤
        (classifyPressure {} 7000 9999 false).state.toU8 ∧
      ∃ (y : System) (s : Impl) (e : PoolEntry), System.Run System.Durable y ∧
        y.live = some s ∧ s.pools.lookup ⟨1⟩ = some e ∧ e.overcommitUsed = 20 ∧
        (s.observePool e).state = .critical := by
  have h : (System.script durableCheck {} overcommittedScript).any (fun y ↦ y.live.any fun s ↦
      (s.pools.lookup ⟨1⟩).any fun e ↦ decide (e.overcommitUsed = 20)) = true := by
    decide +kernel
  obtain ⟨y, hy, h⟩ := (Option.any_eq_true _ _).mp h
  obtain ⟨s, hs, h⟩ := (Option.any_eq_true _ _).mp h
  obtain ⟨e, he, h⟩ := (Option.any_eq_true _ _).mp h
  have hover : e.overcommitUsed = 20 := of_decide_eq_true h
  have hpos : 0 < e.overcommitUsed := by rw [hover]; decide
  have hrun : System.Run System.Durable y := System.Run.script durableCheck_durable .refl hy
  refine ⟨?_, pressure_bands_exact.2.1 {} 6999 7000 10000 9999 false false (by decide) (by decide)
    (by decide) (by decide), y, s, e, hrun, hs, he, hover,
    (pressure_bands_exact.2.2 System.Durable y s hrun hs ⟨1⟩ e he hpos).1⟩
  rw [pressure_bands_exact.1 {} 6999 10000 false (by decide)]
  decide

/-! ### Basis points -/

theorem mulOverflow_iff {a b : UInt64} :
    MulOverflow a b ↔ 18446744073709551616 ≤ a.toNat * b.toNat := by
  unfold MulOverflow
  rw [Word.ne_zero_iff, gt_iff_lt, Word.lt_iff, UInt64.toNat_div]
  have hmax : maxU64.toNat = 18446744073709551615 := rfl
  rw [hmax]
  constructor
  · rintro ⟨hpos, hlt⟩
    have := (Nat.div_lt_iff_lt_mul hpos).mp hlt
    rw [Nat.mul_comm]
    omega
  · intro hle
    have hpos : 0 < a.toNat := by
      apply Nat.pos_of_ne_zero
      intro hzero
      rw [hzero, Nat.zero_mul] at hle
      omega
    refine ⟨hpos, (Nat.div_lt_iff_lt_mul hpos).mpr ?_⟩
    rw [Nat.mul_comm]
    omega

theorem toNat_satMul (a b : UInt64) :
    (satMul a b).toNat = min (a.toNat * b.toNat) 18446744073709551615 := by
  unfold satMul
  split
  · rename_i h
    rw [mulOverflow_iff] at h
    have hmax : maxU64.toNat = 18446744073709551615 := rfl
    omega
  · rename_i h
    rw [mulOverflow_iff] at h
    rw [Word.toNat_mul (by omega)]
    omega

theorem classifyPressure_utilizationBp (t : Thresholds) {used usable : UInt64} (h : usable ≠ 0)
    (overcommitted : Bool) :
    (classifyPressure t used usable overcommitted).utilizationBp.toNat =
      if 18446744073709551616 ≤ used.toNat * 10000 then 10000
      else min 10000 (used.toNat * 10000 / usable.toNat) := by
  have hscale : Thresholds.kScale.toUInt64.toNat = 10000 := by decide
  have hbp : (classifyPressure t used usable overcommitted).utilizationBp =
      if MulOverflow used Thresholds.kScale.toUInt64 then Thresholds.kScale
      else if Thresholds.kScale.toUInt64 ≤ used * Thresholds.kScale.toUInt64 / usable then
        Thresholds.kScale
      else (used * Thresholds.kScale.toUInt64 / usable).toUInt32 := by
    unfold classifyPressure
    rw [if_neg h]
    dsimp only
    split_ifs <;> rfl
  rw [hbp]
  by_cases hover : MulOverflow used Thresholds.kScale.toUInt64
  · rw [if_pos hover, if_pos (by rw [mulOverflow_iff, hscale] at hover; exact hover)]
    rfl
  · rw [if_neg hover]
    rw [mulOverflow_iff, hscale] at hover
    have hquotient : (used * Thresholds.kScale.toUInt64 / usable).toNat =
        used.toNat * 10000 / usable.toNat := by
      rw [UInt64.toNat_div, Word.toNat_mul (by rw [hscale]; omega), hscale]
    rw [if_neg hover]
    split
    · rename_i hle
      rw [Word.le_iff, hscale, hquotient] at hle
      exact (Nat.min_eq_left hle).symm
    · rename_i hle
      rw [Word.le_iff, hscale, hquotient] at hle
      rw [UInt64.toNat_toUInt32, hquotient, Nat.min_eq_right (by omega)]
      omega

/-- The reported utilization is right where its product fits a word, and from full use on. -/
theorem utilizationBp_iff (t : Thresholds) {used usable : UInt64} (h : usable ≠ 0)
    (overcommitted : Bool) :
    (classifyPressure t used usable overcommitted).utilizationBp.toNat =
        min 10000 (used.toNat * 10000 / usable.toNat) ↔
      used.toNat * 10000 < 18446744073709551616 ∨ usable ≤ used := by
  have hfull : 10000 ≤ used.toNat * 10000 / usable.toNat ↔ usable ≤ used := by
    rw [Nat.le_div_iff_mul_le (Word.ne_zero_iff.mp h), Word.le_iff]
    omega
  rw [classifyPressure_utilizationBp t h, ← hfull]
  split
  · omega
  · omega

/-- The soft mark is right where its product is below the next multiple of 10000 above a word. -/
theorem softUnits_iff (usable : UInt64) (softLimitBp : UInt32) :
    (softUnits usable softLimitBp).toNat = usable.toNat * softLimitBp.toNat / 10000 ↔
      usable.toNat * softLimitBp.toNat < 18446744073709560000 := by
  unfold softUnits
  have hscale : Thresholds.kScale.toUInt64.toNat = 10000 := by decide
  rw [UInt64.toNat_div, toNat_satMul, hscale, UInt32.toNat_toUInt64]
  omega

/-- The arithmetic with basis points is exact: the reported utilization and the soft mark are the
rounded shares of the natural numbers. -/
def BasisPointsExact (t : Thresholds) (used usable : UInt64) (bp : UInt32)
    (overcommitted : Bool) : Prop :=
  (classifyPressure t used usable overcommitted).utilizationBp.toNat =
      min 10000 (used.toNat * 10000 / usable.toNat) ∧
    (softUnits usable bp).toNat = usable.toNat * bp.toNat / 10000

theorem basis_points_exact_iff (t : Thresholds) {used usable : UInt64} (bp : UInt32)
    (overcommitted : Bool) (h : usable ≠ 0) :
    BasisPointsExact t used usable bp overcommitted ↔
      (used.toNat * 10000 < 18446744073709551616 ∨ usable ≤ used) ∧
        usable.toNat * bp.toNat < 18446744073709560000 :=
  and_congr (utilizationBp_iff t h overcommitted) (softUnits_iff usable bp)

theorem basis_points_exact_of_small :
    BasisPointsExact {} 6999 10000 9000 false ↔
      ((6999 : UInt64).toNat * 10000 < 18446744073709551616 ∨ (10000 : UInt64) ≤ 6999) ∧
        (10000 : UInt64).toNat * (9000 : UInt32).toNat < 18446744073709560000 :=
  basis_points_exact_iff {} 9000 false (by decide)

/-- In the largest pool a use below a quarter of a percent is reported as full, and the mark of
90 percent is below a quarter of a percent. -/
theorem basis_points_of_largest_pool :
    (classifyPressure {} 2000000000000000 kMaxUnitsPerPool false).state = .clear ∧
      (classifyPressure {} 2000000000000000 kMaxUnitsPerPool false).utilizationBp = 10000 ∧
      min 10000 (2000000000000000 * 10000 / kMaxUnitsPerPool.toNat) = 17 ∧
      (softUnits kMaxUnitsPerPool 9000).toNat = 1844674407370955 ∧
      kMaxUnitsPerPool.toNat * 9000 / 10000 = 1037629354146162278 ∧
      ¬BasisPointsExact {} 2000000000000000 kMaxUnitsPerPool 9000 false := by
  refine ⟨by decide, by decide, by decide, by decide, by decide, ?_⟩
  rintro ⟨hutilization, -⟩
  exact absurd hutilization (by decide)

end BufferFabric
