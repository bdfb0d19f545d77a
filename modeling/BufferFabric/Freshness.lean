import BufferFabric.Outcomes

/-!
# Fresh ids

The counters are kept in memory and in snapshots, but not in the journal. An open that
replays records restores the counters of the last snapshot, so the ids named in the
journal may be at or above the counters afterwards. As long as this does not happen, every
id the fabric picks is new.
-/

namespace BufferFabric

open Outcome

/-! ### Ids on disk -/

def Image.Names (i : Image) : IdKind → UInt64 → Prop
  | .allocation, n => ∃ r ∈ i.allocations, r.id = ⟨n⟩
  | .policy, n => (∃ p ∈ i.policies, p.id = ⟨n⟩) ∨ ∃ e ∈ i.pools, e.1.policy = ⟨n⟩
  | .pool, n => ∃ e ∈ i.pools, e.1.id = ⟨n⟩
  | .queue, n => ∃ q ∈ i.queues, q.id = ⟨n⟩

theorem Impl.image_names {s : Impl} (hk : s.view.Keyed) {kind : IdKind} {n : UInt64}
    (h : s.image.Names kind n) : s.view.Uses kind n := by
  have hpool : ∀ {e : PoolDescriptor × Generation}, e ∈ s.image.pools →
      ∃ k, s.view.pools k = some e := by
    intro e he
    obtain ⟨⟨k, entry⟩, hmem, rfl⟩ := List.mem_map.mp he
    refine ⟨k, ?_⟩
    simp only [Impl.view, Table.mem_toList.mp hmem, Option.map_some, PoolEntry.shape]
  cases kind with
  | allocation =>
      obtain ⟨r, hr, hid⟩ := h
      obtain ⟨k, hlook⟩ := Impl.mem_records.mp hr
      refine ⟨r, ?_⟩
      rw [← hid, hk.allocations k r hlook]
      exact hlook
  | policy =>
      rcases h with ⟨p, hp, hid⟩ | ⟨e, he, hpol⟩
      · obtain ⟨⟨k, p'⟩, hmem, rfl⟩ := List.mem_map.mp hp
        have hlook := Table.mem_toList.mp hmem
        refine .inl ⟨p', ?_⟩
        rw [← hid, hk.policies k p' hlook]
        exact hlook
      · obtain ⟨k, hlook⟩ := hpool he
        exact .inr ⟨k, e, hlook, hpol⟩
  | pool =>
      obtain ⟨e, he, hid⟩ := h
      obtain ⟨k, hlook⟩ := hpool he
      refine ⟨e, ?_⟩
      rw [← hid, hk.pools k e hlook]
      exact hlook
  | queue =>
      obtain ⟨q, hq, hid⟩ := h
      obtain ⟨⟨k, q'⟩, hmem, rfl⟩ := List.mem_map.mp hq
      have hlook := Table.mem_toList.mp hmem
      refine ⟨q', ?_⟩
      rw [← hid, hk.queues k q' hlook]
      exact hlook

theorem View.uses_load {v : View} {i : Image} {kind : IdKind} {n : UInt64}
    (h : (v.load i).Uses kind n) : v.Uses kind n ∨ i.Names kind n := by
  cases kind with
  | allocation =>
      obtain ⟨r, hr⟩ := h
      rcases Table.overlay_cases hr with ⟨hmem, hid⟩ | hr
      · exact .inr ⟨r, hmem, hid⟩
      · exact .inl ⟨r, hr⟩
  | policy =>
      rcases h with ⟨p, hp⟩ | ⟨k, d, hd, hpol⟩
      · rcases Table.overlay_cases hp with ⟨hmem, hid⟩ | hp
        · exact .inr (.inl ⟨p, hmem, hid⟩)
        · exact .inl (.inl ⟨p, hp⟩)
      · rcases Table.overlay_cases hd with ⟨hmem, -⟩ | hd
        · exact .inr (.inr ⟨d, hmem, hpol⟩)
        · exact .inl (.inr ⟨k, d, hd, hpol⟩)
  | pool =>
      obtain ⟨d, hd⟩ := h
      rcases Table.overlay_cases hd with ⟨hmem, hid⟩ | hd
      · exact .inr ⟨d, hmem, hid⟩
      · exact .inl ⟨d, hd⟩
  | queue =>
      obtain ⟨q, hq⟩ := h
      rcases Table.overlay_cases hq with ⟨hmem, hid⟩ | hq
      · exact .inr ⟨q, hmem, hid⟩
      · exact .inl ⟨q, hq⟩

namespace Disk

/-- The counters an open on the directory starts with: those of the snapshot, or those the
instance has. -/
def counters (d : Disk) (c : Counters) : Counters :=
  match d.snapshot with
  | none => c
  | some i => i.counters.restored

def Counted (d : Disk) (kind : IdKind) : Prop :=
  ∀ i, d.snapshot = some i → ∀ n, i.Names kind n → n.toNat < (i.counters.restored.next kind).toNat

/-- The ids the journal names are below the counter an open starts with. -/
def Covered (d : Disk) (c : Counters) (kind : IdKind) : Prop :=
  ∀ r ∈ d.journal, ∀ n, r.Names kind n → n.toNat < ((d.counters c).next kind).toNat

def Knows (d : Disk) (kind : IdKind) (n : UInt64) : Prop :=
  (∃ i, d.snapshot = some i ∧ n.toNat < (i.counters.restored.next kind).toNat) ∨
    ∃ r ∈ d.journal, r.Names kind n

theorem uses_view {d : Disk} {v : View} {kind : IdKind} {n : UInt64}
    (h : (d.view v).Uses kind n) :
    v.Uses kind n ∨ (∃ i, d.snapshot = some i ∧ i.Names kind n) ∨
      ∃ r ∈ d.journal, r.Names kind n := by
  have hfold : ∀ (l : List JournalRecord) (v : View), (l.foldl View.apply v).Uses kind n →
      v.Uses kind n ∨ ∃ r ∈ l, r.Names kind n := by
    intro l
    induction l with
    | nil => exact fun v h ↦ .inl h
    | cons r l ih =>
        intro v h
        rcases ih _ h with h | ⟨r', hr', hn⟩
        · rcases View.uses_apply h with h | h
          · exact .inl h
          · exact .inr ⟨r, List.mem_cons_self, h⟩
        · exact .inr ⟨r', List.mem_cons_of_mem _ hr', hn⟩
  unfold view at h
  rcases hfold _ _ h with h | h
  · split at h
    · exact .inl h
    · rename_i i hi
      rcases View.uses_load h with h | h
      · exact .inl h
      · exact .inr (.inl ⟨i, hi, h⟩)
  · exact .inr (.inr h)

theorem counters_view (d : Disk) (v : View) : (d.view v).counters = d.counters v.counters := by
  have hfold : ∀ (l : List JournalRecord) (v : View), (l.foldl View.apply v).counters =
      v.counters := by
    intro l
    induction l with
    | nil => exact fun v ↦ rfl
    | cons r l ih =>
        intro v
        refine (ih _).trans ?_
        cases r <;> rfl
  unfold view counters
  rw [hfold]
  cases d.snapshot <;> rfl

/-- Recovery leaves every id below its counter when the journal does. -/
theorem view_ahead {d : Disk} {v : View} {kind : IdKind} (hcount : d.Counted kind)
    (hcover : d.Covered v.counters kind)
    (hv : ∀ n, v.Uses kind n → n.toNat < ((d.counters v.counters).next kind).toNat) :
    (d.view v).Ahead kind := by
  intro n hn
  rw [counters_view]
  rcases uses_view hn with hn | ⟨i, hi, hn⟩ | ⟨r, hr, hn⟩
  · exact hv n hn
  · have hlt := hcount i hi n hn
    unfold counters
    rw [hi]
    exact hlt
  · exact hcover r hr n hn

/-- An id the directory knows is below the counter an open starts with. -/
theorem lt_of_knows {d : Disk} {c : Counters} {kind : IdKind} {n : UInt64}
    (hcover : d.Covered c kind) (h : d.Knows kind n) :
    n.toNat < ((d.counters c).next kind).toNat := by
  rcases h with ⟨i, hi, hlt⟩ | ⟨r, hr, hn⟩
  · unfold counters
    rw [hi]
    exact hlt
  · exact hcover r hr n hn

end Disk

theorem Counters.next_le_restored (c : Counters) (kind : IdKind) :
    (c.next kind).toNat ≤ (c.restored.next kind).toNat := by
  have h : ∀ u : UInt64, u.toNat ≤ (restoredCounter u).toNat := by
    intro u
    unfold restoredCounter
    split
    · rename_i hu
      rw [hu]
      exact Nat.zero_le _
    · exact Nat.le_refl _
  cases kind <;> exact h _

namespace Disk.Next

variable {image : Image} {record : JournalRecord} {d d' : Disk} {kind : IdKind}

theorem counted (h : Disk.Next image record d d') (hd : d.Counted kind)
    (himage : ∀ n, image.Names kind n → n.toNat < (image.counters.next kind).toNat) :
    d'.Counted kind := by
  have hnew : ∀ n, image.Names kind n → n.toNat < (image.counters.restored.next kind).toNat :=
    fun n hn ↦ Nat.lt_of_lt_of_le (himage n hn) (image.counters.next_le_restored kind)
  cases h with
  | same => exact hd
  | appended => exact hd
  | replaced | compacted | restarted =>
      intro i hi
      obtain rfl := Option.some.inj hi
      exact hnew

theorem knows (h : Disk.Next image record d d') {n : UInt64} (hd : d.Knows kind n)
    (hlt : n.toNat < (image.counters.next kind).toNat) : d'.Knows kind n := by
  have hnew : n.toNat < (image.counters.restored.next kind).toNat :=
    Nat.lt_of_lt_of_le hlt (image.counters.next_le_restored kind)
  cases h with
  | same => exact hd
  | appended =>
      rcases hd with hd | ⟨r, hr, hn⟩
      · exact .inl hd
      · exact .inr ⟨r, List.mem_append_left _ hr, hn⟩
  | replaced | compacted | restarted => exact .inl ⟨_, rfl, hnew⟩

end Disk.Next

/-! ### Moves keep the ids in order -/

/-- Every table is keyed by ids, and all ids of the kind are below their counter, in memory
and in every content of the directory. -/
structure Orderly (kind : IdKind) (t : Impl) : Prop where
  keyed : t.view.Keyed
  ahead : t.view.Ahead kind
  disk : t.store.disk.Counted kind
  trail : ∀ d ∈ t.store.trail, d.Counted kind

theorem Orderly.image {kind : IdKind} {t : Impl} (hk : t.view.Keyed) (ha : t.view.Ahead kind) :
    ∀ n, t.image.Names kind n → n.toNat < (t.image.counters.next kind).toNat :=
  fun n hn ↦ ha n (t.image_names hk hn)

theorem Move.orderly {kind : IdKind} {s t : Impl} {a : Label × Bool} (h : Move s a t)
    (hs : Orderly kind s) : Orderly kind t := by
  have hk := h.keyed hs.keyed
  have ha := h.ahead hs.keyed hs.ahead
  obtain ⟨-, j, record, hview, hdisk, htrail, -⟩ := h.disks
  have himage : ∀ n, j.image.Names kind n → n.toNat < (j.image.counters.next kind).toNat := by
    apply Orderly.image
    · rcases hview with hv | hv <;> rw [hv]
      · exact hs.keyed
      · exact hk
    · rcases hview with hv | hv <;> rw [hv]
      · exact hs.ahead
      · exact ha
  refine ⟨hk, ha, hdisk.counted hs.disk himage, ?_⟩
  intro d hd
  rcases htrail d hd with hd | hd
  · exact hs.trail d hd
  · exact hd.counted hs.disk himage

theorem View.Keyed.load {v : View} (h : v.Keyed) (i : Image) : (v.load i).Keyed := by
  refine ⟨?_, ?_, ?_, ?_⟩
  · intro k p hp
    rcases Table.overlay_cases hp with ⟨-, hid⟩ | hp
    · exact hid
    · exact h.policies k p hp
  · intro k d hd
    rcases Table.overlay_cases hd with ⟨-, hid⟩ | hd
    · exact hid
    · exact h.pools k d hd
  · intro k q hq
    rcases Table.overlay_cases hq with ⟨-, hid⟩ | hq
    · exact hid
    · exact h.queues k q hq
  · intro k r hr
    rcases Table.overlay_cases hr with ⟨-, hid⟩ | hr
    · exact hid
    · exact h.allocations k r hr

theorem Disk.view_keyed {d : Disk} {v : View} (h : v.Keyed) : (d.view v).Keyed := by
  have hfold : ∀ (l : List JournalRecord) (v : View), v.Keyed → (l.foldl View.apply v).Keyed := by
    intro l
    induction l with
    | nil => exact fun v h ↦ h
    | cons r l ih => exact fun v h ↦ ih _ (h.apply r)
  unfold Disk.view
  apply hfold
  split
  · exact h
  · exact h.load _

namespace View

theorem expireReserved_id (tick : Tick) (r : AllocationRecord) :
    (Impl.expireReserved tick r).id = r.id := by
  unfold Impl.expireReserved
  split <;> rfl

theorem uses_settled {v : View} {tick : Tick} {kind : IdKind} {n : UInt64} :
    (v.settled tick).Uses kind n ↔ v.Uses kind n := by
  cases kind with
  | allocation =>
      simp only [Uses, settled, Option.map_eq_some_iff]
      constructor
      · rintro ⟨r, r', hr', -⟩
        exact ⟨r', hr'⟩
      · rintro ⟨r, hr⟩
        exact ⟨_, r, hr, rfl⟩
  | _ => exact Iff.rfl

theorem Keyed.settled {v : View} (h : v.Keyed) (tick : Tick) : (v.settled tick).Keyed := by
  refine ⟨h.policies, h.pools, h.queues, ?_⟩
  intro k r hr
  obtain ⟨r', hr', rfl⟩ := Option.map_eq_some_iff.mp hr
  rw [expireReserved_id]
  exact h.allocations k r' hr'

end View

theorem Impl.keyed_empty : ({} : Impl).view.Keyed := by
  refine ⟨?_, ?_, ?_, ?_⟩ <;> intro k x hx <;> cases hx

/-- Opening a directory whose journal is covered by the counters it restores keeps the ids
in order, in every content the directory goes through. -/
theorem Orderly.openFabric {kind : IdKind} {s t : Impl} {config : FabricConfig}
    {boot : Impl.BootInputs} {r : Except Status Unit}
    (h : s.openFabric config boot = (r, t)) (hmode : config.persistence.mode ≠ .none)
    (hk : s.view.Keyed) (hcount : s.store.disk.Counted kind)
    (hcover : s.store.disk.Covered s.counters kind)
    (huses : ∀ n, s.view.Uses kind n →
      n.toNat < ((s.store.disk.counters s.counters).next kind).toNat)
    (htrail : s.store.trail = []) :
    t.store.disk.Counted kind ∧ (∀ d ∈ t.store.trail, d.Counted kind) ∧
      (r = .ok () → Orderly kind t) := by
  rcases Impl.openFabric_cases h hmode with ⟨⟨e, rfl⟩, hd, ht⟩ | ⟨m, t', res, hview, hdisk, htr,
    hconfig, hopen, hj, hd, ht, hok⟩
  · rw [hd, ht, htrail]
    exact ⟨hcount, by simp, by simp⟩
  have hmk : m.view.Keyed := by
    rw [hview]
    exact (Disk.view_keyed hk).settled _
  have hma : m.view.Ahead kind := by
    rw [hview]
    intro n hn
    rw [View.uses_settled] at hn
    exact Disk.view_ahead hcount hcover huses n hn
  obtain ⟨st, hst, hf, -⟩ := m.journal_spec (.epochAdvance m.epoch m.boot)
  rw [hj] at hst
  simp only at hst
  rw [hdisk] at hf
  have himage := Orderly.image hmk hma
  have hdisk' : t'.store.disk.Counted kind := by
    rw [hst]
    rcases hf.disk with heq | hnext
    · have heq : st.disk = m.store.disk := heq
      change st.disk.Counted kind
      rw [heq, hdisk]
      exact hcount
    · exact hnext.counted hcount himage
  have htrail' : ∀ d ∈ t'.store.trail, d.Counted kind := by
    rw [hst]
    intro d hd
    rcases hf.trail d hd with hd | hnext
    · rw [htr, htrail] at hd
      cases hd
    · exact hnext.counted hcount himage
  rw [hd, ht]
  refine ⟨hdisk', htrail', ?_⟩
  intro hr
  obtain ⟨rfl, -⟩ := hok hr
  refine ⟨?_, ?_, hdisk', htrail'⟩
  · rw [hst]
    exact hmk
  · rw [hst]
    exact hma

/-! ### Runs keep the ids in order -/

structure System.Ordered (kind : IdKind) (y : System) : Prop where
  disk : y.disk.Counted kind
  live : ∀ s, y.live = some s → s.store.disk = y.disk ∧ s.view.Keyed ∧
    (s.isOpen = true → s.view.Ahead kind)

theorem System.Idle.keyed {kind : IdKind} {y : System} (hy : y.Ordered kind) {s : Impl}
    (h : y.Idle s) : s.view.Keyed := by
  cases h with
  | fresh h => exact Impl.keyed_empty
  | again h hclosed => exact (hy.live s h).2.1

/-- A step keeps the ids in order if an open finds the journal covered. -/
theorem System.Step.ordered {kind : IdKind} {y y' : System} {ev : Event}
    (h : System.Step y ev y') (hy : y.Ordered kind)
    (hopens : ∀ config, ev.opens = some config → config.persistence.mode ≠ .none ∧
      ∀ s, y.Idle s → y.disk.Covered s.counters kind ∧ ∀ n, s.view.Uses kind n →
        n.toNat < ((y.disk.counters s.counters).next kind).toNat) : y'.Ordered kind := by
  have hopen : ∀ {config : FabricConfig} {s s' : Impl} {boot : Impl.BootInputs} {tick : Tick}
      {io : List Io} {r : Except Status Unit}, ev.opens = some config → y.Idle s →
      (s.attach y.disk tick io).openFabric config boot = (r, s') →
      s'.store.disk.Counted kind ∧ (∀ d ∈ s'.store.trail, d.Counted kind) ∧
        (r = .ok () → Orderly kind s') := by
    intro config s s' boot tick io r hev hidle heq
    obtain ⟨hmode, hcond⟩ := hopens config hev
    obtain ⟨hcover, huses⟩ := hcond s hidle
    have hkeyed : s.view.Keyed := System.Idle.keyed hy hidle
    exact Orderly.openFabric heq hmode hkeyed hy.disk hcover huses rfl
  have hcall : ∀ {s : Impl} (c : Call), y.live = some s → s.isOpen = true →
      Orderly kind (s.exec c).2 := by
    intro s c hlive hop
    obtain ⟨hdisk, hkeyed, hahead⟩ := hy.live s hlive
    refine (s.exec_trace c).invariant (fun _ _ _ hi _ hm ↦ hm.orderly hi) ⟨hkeyed, hahead hop, ?_, ?_⟩
    · change s.store.disk.Counted kind
      rw [hdisk]
      exact hy.disk
    · simp [Impl.enter]
  cases h with
  | opened hidle heq =>
      obtain ⟨hd, -, hok⟩ := hopen rfl hidle heq
      refine ⟨hd, ?_⟩
      intro s' hs'
      obtain rfl := Option.some.inj hs'
      have ho := hok rfl
      exact ⟨rfl, ho.keyed, fun _ ↦ ho.ahead⟩
  | openFailed hidle heq =>
      obtain ⟨hd, -, -⟩ := hopen rfl hidle heq
      exact ⟨hd, by simp⟩
  | openCrashed hidle heq hmem =>
      obtain ⟨-, ht, -⟩ := hopen rfl hidle heq
      exact ⟨ht _ hmem, by simp⟩
  | called c hlive hop =>
      have ho := hcall c hlive hop
      refine ⟨ho.disk, ?_⟩
      intro s' hs'
      obtain rfl := Option.some.inj hs'
      exact ⟨rfl, ho.keyed, fun _ ↦ ho.ahead⟩
  | crashed c hlive hop hmem => exact ⟨(hcall c hlive hop).trail _ hmem, by simp⟩
  | closed hlive =>
      refine ⟨hy.disk, ?_⟩
      intro s' hs'
      obtain rfl := Option.some.inj hs'
      obtain ⟨hdisk, hkeyed, hahead⟩ := hy.live _ hlive
      unfold Impl.closeFabric
      split
      · exact ⟨hdisk, hkeyed, by simp⟩
      · exact ⟨hdisk, hkeyed, hahead⟩
  | stopped => exact ⟨hy.disk, by simp⟩
  | rehashed hlive hr =>
      refine ⟨hy.disk, ?_⟩
      intro s' hs'
      obtain rfl := Option.some.inj hs'
      obtain ⟨hdisk, hkeyed, hahead⟩ := hy.live _ hlive
      have hview := hr.view_eq
      refine ⟨?_, ?_, ?_⟩
      · cases hr
        exact hdisk
      · rw [hview]
        exact hkeyed
      · rw [hview]
        cases hr
        exact hahead

theorem System.ordered_empty (kind : IdKind) : ({} : System).Ordered kind :=
  ⟨(fun _ hi ↦ by cases hi), (fun _ hs ↦ by cases hs)⟩

/-! ### Allocation ids -/

/-- A move makes no allocation id that the directory does not know: a grant is journaled
before memory changes. -/
theorem Move.uses_allocation {s t : Impl} {a : Label × Bool} (h : Move s a t)
    (hk : s.view.Keyed) (hmode : s.store.config.mode ≠ .none)
    (hgrant : ∀ r, a.1 = .grant r → a.2 = true) {n : UInt64}
    (hn : t.view.Uses .allocation n) :
    s.view.Uses .allocation n ∨ ∃ r ∈ t.store.disk.journal, r.Names .allocation n := by
  cases h with
  | @volatile l m h =>
      by_cases hl : l = .brokenGrant
      · subst hl
        cases h
      · exact .inl ((h.view_agrees hk hl).uses hn)
  | @written l record m j u h hstore hview hj =>
      by_cases hl : l = .brokenGrant
      · subst hl
        cases h with
        | brokenGrant key entry policy r pools j' hfits hj' hfail hsh =>
            have hv := Impl.view_eq_of_shapes hsh
            left
            rw [← hv]
            exact hn
      have hn := (h.view_agrees hk hl).uses hn
      rcases View.uses_apply hn with hn | hn
      · exact .inl hn
      refine .inr ⟨record, ?_, hn⟩
      obtain ⟨st, hst, -, hcases⟩ := j.journal_spec record
      rw [hj] at hst hcases
      simp only at hst
      subst hst
      rw [hstore] at hcases
      rcases hcases with ⟨-, -, hdisk⟩ | ⟨⟨e, he⟩, -⟩
      · rcases hdisk hmode with hd | hd
        · change record ∈ st.disk.journal
          rw [hd]
          exact List.mem_append_right _ (List.mem_singleton.mpr rfl)
        · change record ∈ st.disk.journal
          rw [hd]
          exact List.mem_singleton.mpr rfl
      · cases he
  | @unlogged l record m j u e h hstore hview hj =>
      by_cases hl : l = .brokenGrant
      · subst hl
        cases h with
        | brokenGrant key entry policy r pools j' hfits hj' hfail hsh =>
            have hv := Impl.view_eq_of_shapes hsh
            left
            rw [← hv]
            exact hn
      have hn := (h.view_agrees hk hl).uses hn
      rcases View.uses_apply hn with hn | hn
      · exact .inl hn
      rcases h.names hk hl hn with hn | ⟨-, hl'⟩
      · exact .inl hn
      · obtain ⟨r, hr⟩ := hl' rfl
        exact absurd (hgrant r hr) (by simp)
  | refused hj =>
      rw [Impl.eq_of_journal hj] at hn
      exact .inl hn
  | lostRelease hsh hj =>
      have hv := Impl.view_eq_of_shapes hsh
      rw [Impl.eq_of_journal hj] at hn
      left
      rw [← hv]
      exact hn
  | snapshot h =>
      obtain ⟨st, hst, -⟩ := s.writeFullSnapshot_spec
      rw [h] at hst
      simp only at hst
      rw [hst] at hn
      exact .inl hn

/-- The allocation ids of `G` and of memory are known to every content of the directory and
below the counter. -/
structure Registered (G : UInt64 → Prop) (t : Impl) : Prop where
  orderly : Orderly .allocation t
  mode : t.store.config.mode ≠ .none
  below : ∀ n, G n → n.toNat < t.counters.nextAllocationId.toNat
  disk : ∀ n, G n → t.store.disk.Knows .allocation n
  trail : ∀ d ∈ t.store.trail, ∀ n, G n → d.Knows .allocation n
  uses : ∀ n, t.view.Uses .allocation n → t.store.disk.Knows .allocation n

theorem Move.next_le {s t : Impl} {a : Label × Bool} (h : Move s a t) (kind : IdKind) :
    (s.counters.next kind).toNat ≤ (t.counters.next kind).toNat := by
  cases h with
  | volatile h => exact h.next_le kind
  | written h _ _ _ => exact h.next_le kind
  | unlogged h _ _ _ => exact h.next_le kind
  | refused hj => rw [Impl.eq_of_journal hj]
  | lostRelease hsh hj => rw [Impl.eq_of_journal hj]
  | snapshot h =>
      obtain ⟨st, hst, -⟩ := s.writeFullSnapshot_spec
      rw [h] at hst
      simp only at hst
      rw [hst]

theorem Move.registered {G : UInt64 → Prop} {s t : Impl} {a : Label × Bool} (h : Move s a t)
    (hs : Registered G s) (hgrant : ∀ r, a.1 = .grant r → a.2 = true) : Registered G t := by
  have hle := h.next_le .allocation
  have huses := fun n hn ↦ h.uses_allocation hs.orderly.keyed hs.mode hgrant (n := n) hn
  obtain ⟨hconfig, j, record, hview, hdisk, htrail, -⟩ := h.disks
  -- the image a compaction may write has a counter that is at least the old one
  have hj : s.counters.nextAllocationId.toNat ≤ (j.image.counters.next .allocation).toNat := by
    have hcounters : j.image.counters = j.view.counters := rfl
    rw [hcounters]
    rcases hview with hv | hv <;> rw [hv]
    · exact Nat.le_refl _
    · exact hle
  have hknown : ∀ {d : Disk}, Disk.Next j.image record s.store.disk d → ∀ {n : UInt64},
      s.store.disk.Knows .allocation n → n.toNat < s.counters.nextAllocationId.toNat →
      d.Knows .allocation n :=
    fun hnext n hk hlt ↦ hnext.knows hk (Nat.lt_of_lt_of_le hlt hj)
  refine ⟨h.orderly hs.orderly, by rw [hconfig]; exact hs.mode, ?_, ?_, ?_, ?_⟩
  · exact fun n hn ↦ Nat.lt_of_lt_of_le (hs.below n hn) hle
  · exact fun n hn ↦ hknown hdisk (hs.disk n hn) (hs.below n hn)
  · intro d hd n hn
    rcases htrail d hd with hd | hnext
    · exact hs.trail d hd n hn
    · exact hknown hnext (hs.disk n hn) (hs.below n hn)
  · intro n hn
    rcases huses n hn with hn | hn
    · exact hknown hdisk (hs.uses n hn) (hs.orderly.ahead n hn)
    · exact .inr hn

theorem Registered.exec {G : UInt64 → Prop} {s : Impl} {c : Call}
    (hs : Registered G (s.enter c)) : Registered G (s.exec c).2 := by
  refine (s.exec_trace c).invariant ?_ hs
  rintro t ⟨l, w⟩ u hi hallow hm
  refine hm.registered hi ?_
  rintro r rfl
  exact hallow.1

/-- A call that hands out an id is an allocate that ends with a new grant. -/
theorem Impl.granting_end {s : Impl} {c : Call} {id : AllocationId}
    (h : s.granting c = some id) :
    ∃ q d, c.op = .allocate q ∧ d.allocation = id ∧ (d.kind = .grant ∨ d.kind = .grantPartial) ∧
      Impl.AllocateEnd (s.enter c) q (.ok d) (s.exec c).2 := by
  unfold Impl.granting at h
  split at h
  · rename_i q d hop hres
    split at h
    · rename_i hkind
      refine ⟨q, d, hop, Option.some.inj h, hkind, ?_⟩
      have hend := (s.enter c).allocateLocked_end q
      have hexec : s.exec c = reply .decision ((s.enter c).allocateLocked q) := by
        unfold Impl.exec
        rw [hop]
        rfl
      rw [hexec] at hres ⊢
      rcases hr : (s.enter c).allocateLocked q with ⟨r, t⟩
      rw [hr] at hend hres
      cases r with
      | error e => cases hres
      | ok d' =>
          obtain rfl : d' = d := Reply.decision.inj (Except.ok.inj hres)
          exact hend
    · cases h
  · cases h

/-- What a call that hands out an id does: the id was the next one, it is now in the table,
and the counter has passed it. -/
theorem Impl.granting_spec {s : Impl} {c : Call} {id : AllocationId}
    (h : s.granting c = some id) :
    id = ⟨s.counters.nextAllocationId⟩ ∧ (s.exec c).2.view.Uses .allocation id.raw ∧
      id.raw.toNat < (s.exec c).2.counters.nextAllocationId.toNat := by
  obtain ⟨q, d, -, rfl, hkind, hend⟩ := Impl.granting_end h
  generalize (s.exec c).2 = t at hend
  cases hend with
  | replayed hprev hd halloc =>
      rw [hd.kind] at hkind
      rcases hkind with hkind | hkind <;> cases hkind
  | declined hprev hl ha hk =>
      rcases hkind with hkind | hkind
      · exact absurd hkind hk.1
      · exact absurd hkind hk.2.1
  | @granted entry entry' policy r pools u runtime a _ hprev hfits hpools hj hl hclosure ha hd _ =>
      have hnext : (s.counters.nextAllocationId + 1).toNat =
          s.counters.nextAllocationId.toNat + 1 := toNat_add_of_not_overflow hfits.next
      obtain ⟨order, attempts, hrec⟩ := Impl.recordAttempt_frame
        (((s.enter c).grantedState r pools u.store).putPool q.pool
          { entry' with runtime := runtime }).advanceDecision a
      rw [hrec, hd, hfits.id_eq]
      refine ⟨rfl, ⟨r, ?_⟩, ?_⟩
      · change ((s.enter c).allocations.insert r.id r).lookup _ = some r
        rw [Table.lookup_insert_eq, if_pos hfits.id_eq.symm]
      · change s.counters.nextAllocationId.toNat < (s.counters.nextAllocationId + 1).toNat
        omega

/-- A new grant fits its pool. -/
theorem Impl.granting_fits {s : Impl} {c : Call} {id : AllocationId}
    (h : s.granting c = some id) :
    ∃ q entry policy r, c.op = .allocate q ∧ GrantFits (s.enter c) q.pool entry policy r := by
  obtain ⟨q, d, hop, -, hkind, hend⟩ := Impl.granting_end h
  generalize (s.exec c).2 = t at hend
  cases hend with
  | replayed hprev hd halloc =>
      rw [hd.kind] at hkind
      rcases hkind with hkind | hkind <;> cases hkind
  | declined hprev hl ha hk =>
      rcases hkind with hkind | hkind
      · exact absurd hkind hk.1
      · exact absurd hkind hk.2.1
  | granted hprev hfits => exact ⟨q, _, _, _, hop, hfits⟩

/-- Opening a covered directory keeps every known id known. -/
theorem Registered.openFabric {G : UInt64 → Prop} {s t : Impl} {config : FabricConfig}
    {boot : Impl.BootInputs} {r : Except Status Unit}
    (h : s.openFabric config boot = (r, t)) (hmode : config.persistence.mode ≠ .none)
    (hk : s.view.Keyed) (hcount : s.store.disk.Counted .allocation)
    (hcover : s.store.disk.Covered s.counters .allocation)
    (hG : ∀ n, G n → s.store.disk.Knows .allocation n)
    (huses : ∀ n, s.view.Uses .allocation n → s.store.disk.Knows .allocation n)
    (htrail : s.store.trail = []) :
    (∀ n, G n → t.store.disk.Knows .allocation n) ∧
      (∀ d ∈ t.store.trail, ∀ n, G n → d.Knows .allocation n) ∧
      (r = .ok () → Registered G t) := by
  have hlt : ∀ {n : UInt64}, s.store.disk.Knows .allocation n →
      n.toNat < ((s.store.disk.counters s.counters).next .allocation).toNat :=
    fun hn ↦ Disk.lt_of_knows hcover hn
  obtain ⟨hcount', htrail', horder⟩ := Orderly.openFabric h hmode hk hcount hcover
    (fun n hn ↦ hlt (huses n hn)) htrail
  rcases Impl.openFabric_cases h hmode with ⟨⟨e, rfl⟩, hd, ht⟩ | ⟨m, t', res, hview, hdisk, htr,
    hconfig, hopen, hj, hd, ht, hok⟩
  · rw [hd, ht, htrail]
    exact ⟨hG, by simp, by simp⟩
  have hnext : m.image.counters = s.store.disk.counters s.counters := by
    have hcounters : m.image.counters = m.view.counters := rfl
    rw [hcounters, hview]
    exact Disk.counters_view _ _
  have hmuses : ∀ n, m.view.Uses .allocation n → s.store.disk.Knows .allocation n := by
    intro n hn
    rw [hview, View.uses_settled] at hn
    rcases Disk.uses_view hn with hn | ⟨i, hi, hn⟩ | hn
    · exact huses n hn
    · exact .inl ⟨i, hi, hcount i hi n hn⟩
    · exact .inr hn
  obtain ⟨st, hst, hf, -⟩ := m.journal_spec (.epochAdvance m.epoch m.boot)
  rw [hj] at hst
  simp only at hst
  rw [hdisk] at hf
  have hknown : ∀ {d : Disk},
      Disk.Next m.image (.epochAdvance m.epoch m.boot) s.store.disk d → ∀ {n : UInt64},
      s.store.disk.Knows .allocation n → d.Knows .allocation n :=
    fun hd n hn ↦ hd.knows hn (by rw [hnext]; exact hlt hn)
  have hstep : ∀ {n : UInt64}, s.store.disk.Knows .allocation n →
      t'.store.disk.Knows .allocation n := by
    intro n hn
    rw [hst]
    rcases hf.disk with heq | hd
    · have heq : st.disk = m.store.disk := heq
      change st.disk.Knows .allocation n
      rw [heq, hdisk]
      exact hn
    · exact hknown hd hn
  have htrail'' : ∀ d ∈ t'.store.trail, ∀ n, G n → d.Knows .allocation n := by
    rw [hst]
    intro d hd n hn
    rcases hf.trail d hd with hd | hd
    · rw [htr, htrail] at hd
      cases hd
    · exact hknown hd (hG n hn)
  rw [hd, ht]
  refine ⟨fun n hn ↦ hstep (hG n hn), htrail'', ?_⟩
  intro hr
  have ho := horder hr
  obtain ⟨rfl, -⟩ := hok hr
  have hview' : t.view = m.view := by
    rw [hst]
    rfl
  refine ⟨ho, ?_, ?_, fun n hn ↦ hstep (hG n hn), htrail'', ?_⟩
  · rw [hst]
    have hc : st.config = m.store.config := hf.config
    change st.config.mode ≠ .none
    rw [hc, hconfig]
    exact hmode
  · intro n hn
    have hc : t.counters = m.image.counters := by
      rw [hst]
      rfl
    rw [hc, hnext]
    exact hlt (hG n hn)
  · intro n hn
    rw [hview'] at hn
    exact hstep (hmuses n hn)

/-- The allocation ids handed out and those in memory are known to the directory. -/
structure System.Tracked (y : System) : Prop where
  ordered : y.Ordered .allocation
  granted : ∀ k ∈ y.granted, y.disk.Knows .allocation k.raw
  uses : ∀ s, y.live = some s → ∀ n, s.view.Uses .allocation n → y.disk.Knows .allocation n
  session : ∀ s, y.live = some s → s.isOpen = true → s.store.config.mode ≠ .none ∧
    ∀ k ∈ y.granted, k.raw.toNat < s.counters.nextAllocationId.toNat

/-- Sessions are durable, and no open finds an allocation id in the journal that is at or
above the counter it restores: that of the snapshot, or without one that of the instance,
which is 1 for a new one. -/
def System.CoversAllocations (y : System) (ev : Event) : Prop :=
  ∀ config, ev.opens = some config → config.persistence.mode = .journalSync ∧
    ∀ s, y.Idle s → y.disk.Covered s.counters .allocation

theorem System.Step.tracked {y y' : System} {ev : Event} (h : System.Step y ev y')
    (hy : y.Tracked) (hev : y.CoversAllocations ev) : y'.Tracked := by
  have hsync : ∀ {config : FabricConfig}, config.persistence.mode = .journalSync →
      config.persistence.mode ≠ .none := by
    intro config hmode
    rw [hmode]
    simp
  have hidle : ∀ {s : Impl}, y.Idle s → ∀ n, s.view.Uses .allocation n →
      y.disk.Knows .allocation n := by
    intro s hs n hn
    cases hs with
    | fresh h =>
        obtain ⟨r, hr⟩ := hn
        cases hr
    | again hlive hclosed => exact hy.uses _ hlive n hn
  have hord : y'.Ordered .allocation := by
    refine h.ordered hy.ordered ?_
    intro config hconfig
    obtain ⟨hmode, hcover⟩ := hev config hconfig
    exact ⟨hsync hmode, fun s hs ↦ ⟨hcover s hs, fun n hn ↦
      Disk.lt_of_knows (hcover s hs) (hidle hs n hn)⟩⟩
  have hopen : ∀ {config : FabricConfig} {s s' : Impl} {boot : Impl.BootInputs} {tick : Tick}
      {io : List Io} {r : Except Status Unit}, ev.opens = some config → y.Idle s →
      (s.attach y.disk tick io).openFabric config boot = (r, s') →
      (∀ k ∈ y.granted, s'.store.disk.Knows .allocation k.raw) ∧
        (∀ d ∈ s'.store.trail, ∀ k ∈ y.granted, d.Knows .allocation k.raw) ∧
        (r = .ok () → Registered (fun n ↦ (⟨n⟩ : AllocationId) ∈ y.granted) s') := by
    intro config s s' boot tick io r hconfig hs heq
    obtain ⟨hmode, hcover⟩ := hev config hconfig
    have hkeyed : s.view.Keyed := System.Idle.keyed hy.ordered hs
    have huses := hidle hs
    obtain ⟨h₁, h₂, h₃⟩ := Registered.openFabric
      (G := fun n ↦ (⟨n⟩ : AllocationId) ∈ y.granted) heq (hsync hmode) hkeyed hy.ordered.disk
      (hcover s hs) (fun n hn ↦ hy.granted _ hn) huses rfl
    exact ⟨fun k hk ↦ h₁ _ hk, fun d hd k hk ↦ h₂ d hd _ hk, h₃⟩
  have hcall : ∀ {s : Impl} (c : Call), y.live = some s → s.isOpen = true →
      Registered (fun n ↦ (⟨n⟩ : AllocationId) ∈ y.granted) (s.exec c).2 := by
    intro s c hlive hop
    obtain ⟨hdisk, hkeyed, hahead⟩ := hy.ordered.live s hlive
    obtain ⟨hmode, hbelow⟩ := hy.session s hlive hop
    have hd : (s.enter c).store.disk = y.disk := hdisk
    apply Registered.exec
    refine ⟨⟨hkeyed, hahead hop, ?_, by simp [Impl.enter]⟩, hmode, fun n hn ↦ hbelow _ hn, ?_,
      by simp [Impl.enter], ?_⟩
    · rw [hd]
      exact hy.ordered.disk
    · rw [hd]
      exact fun n hn ↦ hy.granted _ hn
    · rw [hd]
      exact hy.uses s hlive
  cases h with
  | opened hs heq =>
      obtain ⟨hd, -, hok⟩ := hopen rfl hs heq
      have hreg := hok rfl
      refine ⟨hord, hd, ?_, ?_⟩
      · intro s' hs'
        obtain rfl := Option.some.inj hs'
        exact hreg.uses
      · intro s' hs' _
        obtain rfl := Option.some.inj hs'
        exact ⟨hreg.mode, fun k hk ↦ hreg.below _ hk⟩
  | openFailed hs heq =>
      obtain ⟨hd, -, -⟩ := hopen rfl hs heq
      exact ⟨hord, hd, by simp, by simp⟩
  | openCrashed hs heq hmem =>
      obtain ⟨-, ht, -⟩ := hopen rfl hs heq
      exact ⟨hord, ht _ hmem, by simp, by simp⟩
  | @called s c hlive hop =>
      have hreg := hcall c hlive hop
      refine ⟨hord, ?_, ?_, ?_⟩
      · intro k hk
        rcases List.mem_append.mp hk with hk | hk
        · exact hreg.disk _ hk
        · have hk : s.granting c = some k := by simpa using hk
          exact hreg.uses _ (Impl.granting_spec hk).2.1
      · intro s' hs'
        obtain rfl := Option.some.inj hs'
        exact hreg.uses
      · intro s' hs' _
        obtain rfl := Option.some.inj hs'
        refine ⟨hreg.mode, ?_⟩
        intro k hk
        rcases List.mem_append.mp hk with hk | hk
        · exact hreg.below _ hk
        · have hk : s.granting c = some k := by simpa using hk
          exact (Impl.granting_spec hk).2.2
  | crashed c hlive hop hmem =>
      have hreg := hcall c hlive hop
      exact ⟨hord, fun k hk ↦ hreg.trail _ hmem _ hk, by simp, by simp⟩
  | closed hlive =>
      refine ⟨hord, hy.granted, ?_, ?_⟩
      · intro s' hs'
        obtain rfl := Option.some.inj hs'
        have huses := hy.uses _ hlive
        unfold Impl.closeFabric
        split <;> exact huses
      · intro s' hs' hop
        obtain rfl := Option.some.inj hs'
        unfold Impl.closeFabric at hop ⊢
        split at hop
        · cases hop
        · rename_i hclosed
          exact absurd hop hclosed
  | stopped => exact ⟨hord, hy.granted, by simp, by simp⟩
  | rehashed hlive hr =>
      have hview := hr.view_eq
      refine ⟨hord, hy.granted, ?_, ?_⟩
      · intro s' hs'
        obtain rfl := Option.some.inj hs'
        rw [hview]
        exact hy.uses _ hlive
      · intro s' hs' hop
        obtain rfl := Option.some.inj hs'
        have hsession := hy.session _ hlive
        cases hr
        exact hsession hop

theorem System.Run.tracked {y : System} (h : System.Run System.CoversAllocations y) :
    y.Tracked :=
  h.invariant (fun _ _ _ hi ha hs ↦ hs.tracked hi ha)
    ⟨System.ordered_empty _, by simp, by simp, by simp⟩

/-- In every run over one durable directory in which no open finds an allocation id at or
above the counter it restores, an id that is handed out is not in the table and was never
handed out before. -/
theorem allocation_ids_not_reused {y : System} (hrun : System.Run System.CoversAllocations y)
    {s : Impl} (hlive : y.live = some s) (hopen : s.isOpen = true) {c : Call}
    {id : AllocationId} (hgrant : s.granting c = some id) :
    s.allocations.lookup id = none ∧ id ∉ y.granted := by
  have ht := System.Run.tracked hrun
  obtain ⟨hid, -⟩ := Impl.granting_spec hgrant
  have hahead := (ht.ordered.live s hlive).2.2 hopen
  constructor
  · cases hl : s.allocations.lookup id with
    | none => rfl
    | some r =>
        rw [hid] at hl
        exact absurd (hahead _ ⟨r, hl⟩) (Nat.lt_irrefl _)
  · intro hmem
    have hlt := (ht.session s hlive hopen).2 id hmem
    rw [hid] at hlt
    exact absurd hlt (Nat.lt_irrefl _)

/-- Commands that open durable sessions only, on new instances and on directories with an
empty journal. -/
def coversCheck (y : System) : Command → Bool
  | .start config => decide (config.persistence.mode = .journalSync) && y.live.isNone &&
      y.disk.journal.isEmpty
  | _ => true

theorem coversCheck_covers (y : System) (k : Command) (h : coversCheck y k = true) :
    y.CoversAllocations k.event := by
  intro config hconfig
  cases k with
  | start config' =>
      obtain rfl := Option.some.inj hconfig
      simp only [coversCheck, Bool.and_eq_true, decide_eq_true_eq, List.isEmpty_iff] at h
      refine ⟨h.1.1, ?_⟩
      intro s _ r hr
      rw [h.2] at hr
      cases hr
  | call c => cases hconfig
  | stop => cases hconfig

def checkpointedScript : List Command :=
  [.start smallConfig] ++ (smallSetup ++ [askUnits 1 40 true, { op := .checkpoint }]).map .call ++
    [.stop, .start smallConfig]

theorem allocation_ids_not_reused_checkpointed :
    ∃ (y : System) (s : Impl), y.live = some s ∧
      s.granting (askUnits 2 30 true) = some ⟨2⟩ ∧ (⟨1⟩ : AllocationId) ∈ y.granted ∧
      s.allocations.lookup ⟨2⟩ = none ∧ (⟨2⟩ : AllocationId) ∉ y.granted := by
  have h : (System.script coversCheck {} checkpointedScript).any (fun y ↦ y.live.any fun s ↦
      s.isOpen && decide (s.granting (askUnits 2 30 true) = some ⟨2⟩) &&
        decide (⟨1⟩ ∈ y.granted)) = true := by
    decide +kernel
  obtain ⟨y, hy, h⟩ := (Option.any_eq_true _ _).mp h
  obtain ⟨s, hs, h⟩ := (Option.any_eq_true _ _).mp h
  simp only [Bool.and_eq_true, decide_eq_true_eq] at h
  obtain ⟨⟨hopen, hgrant⟩, hmem⟩ := h
  have hrun : System.Run System.CoversAllocations y :=
    System.Run.script coversCheck_covers .refl hy
  obtain ⟨hnone, hnew⟩ := allocation_ids_not_reused hrun hs hopen hgrant
  exact ⟨y, s, hs, hgrant, hmem, hnone, hnew⟩

def System.Durable (y : System) (ev : Event) : Prop :=
  ∀ config, ev.opens = some config → config.persistence.mode = .journalSync ∧ y.live = none

/-- A durable open is made on a new instance. -/
theorem System.Durable.fresh {y : System} {ev : Event} {config : FabricConfig} {s : Impl}
    (h : y.Durable ev) (hopens : ev.opens = some config) (hidle : y.Idle s) :
    config.persistence.mode ≠ .none ∧ s = {} := by
  obtain ⟨hmode, hnone⟩ := h config hopens
  refine ⟨by rw [hmode]; nofun, ?_⟩
  cases hidle with
  | fresh => rfl
  | again hlive =>
      rw [hnone] at hlive
      cases hlive

/-- Commands that open durable sessions only, on new instances. -/
def durableCheck (y : System) : Command → Bool
  | .start config => decide (config.persistence.mode = .journalSync) && y.live.isNone
  | _ => true

theorem durableCheck_durable (y : System) (k : Command) (h : durableCheck y k = true) :
    y.Durable k.event := by
  intro config hconfig
  cases k with
  | start config' =>
      obtain rfl := Option.some.inj hconfig
      simpa [durableCheck] using h
  | call c => cases hconfig
  | stop => cases hconfig

def restartedScript : List Command :=
  [.start smallConfig] ++ (smallSetup ++ [askUnits 1 40 true]).map .call ++
    [.stop, .start smallConfig]

/-- After a restart without a snapshot the first id is handed out a second time, over the
record that has it. -/
theorem allocation_id_handed_out_twice :
    ∃ (y : System) (s : Impl), System.Run System.Durable y ∧ y.live = some s ∧
      s.granting (askUnits 2 30 true) = some ⟨1⟩ ∧ (⟨1⟩ : AllocationId) ∈ y.granted ∧
      (s.allocations.lookup ⟨1⟩).isSome = true := by
  have h : (System.script durableCheck {} restartedScript).any (fun y ↦ y.live.any fun s ↦
      decide (s.granting (askUnits 2 30 true) = some ⟨1⟩) && decide (⟨1⟩ ∈ y.granted) &&
        (s.allocations.lookup ⟨1⟩).isSome) = true := by
    decide +kernel
  obtain ⟨y, hy, h⟩ := (Option.any_eq_true _ _).mp h
  obtain ⟨s, hs, h⟩ := (Option.any_eq_true _ _).mp h
  simp only [Bool.and_eq_true, decide_eq_true_eq] at h
  obtain ⟨⟨hgrant, hmem⟩, hsome⟩ := h
  exact ⟨y, s, System.Run.script durableCheck_durable .refl hy, hs, hgrant, hmem, hsome⟩

end BufferFabric
