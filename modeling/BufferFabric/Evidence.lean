import BufferFabric.Epochs
import BufferFabric.Journaling

/-!
# Pressure evidence

Which pressure snapshot stands behind a grant of a pool whose policy refuses to grow on
unknown pressure. A run is observed with the snapshots `observe_pressure` has accepted in
the current session and those that its open recovered.
-/

namespace BufferFabric

open Outcome

/-! ### What evidence is usable -/

/-- Usable evidence comes from a stored snapshot of this epoch and of the current generation
of the pool, which is fresh and does not contradict the ledger. -/
theorem Impl.resolveEvidence_usable {s : Impl} {entry : PoolEntry}
    (h : (s.resolveEvidence entry).usable = true) :
    ∃ e, s.pressure.lookup entry.descriptor.id = some e ∧ e.latest.epoch = s.epoch ∧
      e.latest.poolGeneration = entry.descriptor.generation ∧
      isFresh s.tick e.latest.observedAt e.latest.ttlTicks = true ∧
      (e.latest.assertCommitted = true → e.latest.committedUnits = entry.ownUsage) := by
  unfold resolveEvidence at h
  dsimp only at h
  split at h
  · cases h
  rename_i e he
  split at h
  · cases h
  split at h
  · cases h
  rename_i hepoch
  split at h
  · cases h
  rename_i hgeneration
  split at h
  · cases h
  rename_i hfresh
  split at h
  · cases h
  rename_i hasserted
  simp only [Bool.not_eq_true', Bool.not_eq_false, decide_eq_true_eq] at hepoch hgeneration hfresh
  refine ⟨e, he, hepoch, hgeneration, hfresh, ?_⟩
  intro hassert
  by_contra hne
  exact hasserted ⟨hassert, hne⟩

theorem isFresh_eq_true {now observedAt ttl : Tick} (h : isFresh now observedAt ttl = true) :
    ttl ≠ 0 ∧ observedAt ≤ now ∧ now - observedAt ≤ ttl := by
  unfold isFresh at h
  split at h
  · cases h
  rename_i httl
  split at h
  · cases h
  rename_i hpast
  exact ⟨httl, UInt64.not_lt.mp hpast, of_decide_eq_true h⟩

/-! ### What a call does to the evidence -/

/-- Only the observation of pressure stores a snapshot. -/
theorem Change.pressure_sub {s m : Impl} {l : Label} {record : Option JournalRecord}
    (h : Change s l record m) (hl : l ≠ .pressure) {p : PoolId} {e : PressureEntry}
    (he : m.pressure.lookup p = some e) : s.pressure.lookup p = some e := by
  cases h with
  | attempt a =>
      obtain ⟨order, attempts, h⟩ := s.recordAttempt_frame a
      rw [h] at he
      exact he
  | removePool key entry =>
      rw [Table.lookup_erase_eq] at he
      split at he
      · cases he
      · exact he
  | pressure => exact absurd rfl hl
  | _ => exact he

theorem Move.pressure_sub {s t : Impl} {a : Label × Bool} (h : Move s a t)
    (hl : a.1 ≠ .pressure) {p : PoolId} {e : PressureEntry}
    (he : t.pressure.lookup p = some e) : s.pressure.lookup p = some e := by
  cases h with
  | volatile h => exact h.pressure_sub hl he
  | written h => exact h.pressure_sub hl he
  | unlogged h => exact h.pressure_sub hl he
  | refused hj =>
      rw [Impl.eq_of_journal hj] at he
      exact he
  | lostRelease _ hj =>
      rw [Impl.eq_of_journal hj] at he
      exact he
  | snapshot h =>
      obtain ⟨st, hst, -⟩ := s.writeFullSnapshot_spec
      rw [h] at hst
      simp only at hst
      rw [hst] at he
      exact he

theorem Impl.exec_pressure_sub {s : Impl} {c : Call} (hop : ∀ q, c.op ≠ .observePressure q)
    {p : PoolId} {e : PressureEntry} (he : (s.exec c).2.pressure.lookup p = some e) :
    s.pressure.lookup p = some e := by
  have hsub := (s.exec_trace c).invariant
    (I := fun t ↦ ∀ e, t.pressure.lookup p = some e → s.pressure.lookup p = some e) ?_
    (fun _ h ↦ h)
  · exact hsub e he
  · intro t a u ht ha hm e he
    refine ht e (hm.pressure_sub ?_ he)
    intro hl
    unfold Op.Allows at ha
    rw [hl] at ha
    obtain ⟨q, hq⟩ := ha
    exact hop q hq

/-- An observation stores one snapshot for its pool, or nothing. -/
theorem Impl.observePressure_cases (s : Impl) (q : PressureSnapshot) :
    (∃ e, (s.observePressure q).1 = .error e ∧ (s.observePressure q).2.pressure = s.pressure) ∨
      ∃ e : PressureEntry, (s.observePressure q).1 = .ok () ∧ e.latest.pool = q.pool ∧
        (s.observePressure q).2.pressure = s.pressure.insert q.pool e := by
  unfold observePressure
  split
  · exact .inl ⟨_, rfl, rfl⟩
  dsimp only
  split
  · exact .inl ⟨_, rfl, rfl⟩
  split
  · exact .inl ⟨_, rfl, rfl⟩
  rename_i snapshot hplan
  have hpool : snapshot.pool = q.pool := by
    unfold planPressure at hplan
    simp only [seq_ok, require_eq_ok, exists_const, pure_ok] at hplan
    obtain ⟨-, -, -, -, rfl⟩ := hplan
    dsimp only
    split <;> rfl
  split
  · rename_i e t hj
    refine .inl ⟨_, rfl, ?_⟩
    rw [eq_of_journal hj]
  · rename_i u t hj
    rw [eq_of_journal hj]
    exact .inr ⟨_, rfl, hpool, rfl⟩

/-! ### Observed runs -/

/-- A run with the snapshots that were accepted since the last open, and the latest ones
that this open recovered. -/
structure Observed where
  system : System := {}
  accepted : List PressureSnapshot := []
  recovered : List PressureSnapshot := []

def Impl.accepting (s : Impl) (c : Call) : Option PressureSnapshot :=
  match c.op, (s.exec c).1 with
  | .observePressure q, .ok _ => ((s.exec c).2.pressure.lookup q.pool).map (·.latest)
  | _, _ => none

namespace Observed

def accepts (x : Observed) : Event → List PressureSnapshot
  | .opened _ => []
  | .called c => x.accepted ++ (x.system.live.bind (·.accepting c)).toList
  | _ => x.accepted

/-- The recovered snapshots after an event that leads to the system `y`. -/
def recovers (x : Observed) (y : System) : Event → List PressureSnapshot
  | .opened _ => (y.live.map fun s ↦ s.pressure.toList.map (·.2.latest)).getD []
  | _ => x.recovered

inductive Step (x : Observed) (ev : Event) : Observed → Prop
  | mk {y : System} (h : System.Step x.system ev y) :
      Step x ev { system := y, accepted := x.accepts ev, recovered := x.recovers y ev }

/-- The runs in which every open is made by a new instance in the durable mode. -/
abbrev Run : Observed → Prop := StepPath Step (fun x ev ↦ x.system.Durable ev) {}

def latest (x : Observed) (pool : PoolId) : Option PressureSnapshot :=
  (x.accepted.filter fun p ↦ decide (p.pool = pool)).getLast?

/-- What is stored for a pool is from an earlier epoch, or it is the latest snapshot that
was accepted for it. -/
def Stored (accepted : List PressureSnapshot) (s : Impl) : Prop :=
  ∀ p e, s.pressure.lookup p = some e → e.latest.epoch.raw.toNat < s.epoch.raw.toNat ∨
    (accepted.filter fun q ↦ decide (q.pool = p)).getLast? = some e.latest

structure Sound (x : Observed) : Prop where
  current : x.system.Current
  writing : x.system.Writing
  stored : ∀ s, x.system.live = some s → Stored x.accepted s
  recovered : ∀ s, x.system.live = some s → ∀ p ∈ x.recovered,
    p.epoch.raw.toNat < s.epoch.raw.toNat

theorem Stored.exec {accepted : List PressureSnapshot} {s : Impl} (h : Stored accepted s)
    (hs : s.Current) (c : Call) :
    Stored (accepted ++ (s.accepting c).toList) (s.exec c).2 := by
  have hepoch := (hs.exec c).2.1
  by_cases hop : ∃ q, c.op = .observePressure q
  · obtain ⟨q, hop⟩ := hop
    have hexec : s.exec c = reply (fun _ ↦ .done) ((s.enter c).observePressure q) := by
      unfold Impl.exec
      rw [hop]
      rfl
    intro p e he
    rw [hepoch]
    rcases (s.enter c).observePressure_cases q with ⟨error, hres, hsame⟩ |
      ⟨stored, hres, hpool, hstore⟩
    · have hnone : s.accepting c = none := by
        unfold Impl.accepting
        rw [hop, hexec]
        simp only [reply, hres, Except.map]
      rw [hexec] at he
      have he : ((s.enter c).observePressure q).2.pressure.lookup p = some e := he
      rw [hsame] at he
      rw [hnone, Option.toList_none, List.append_nil]
      exact h p e he
    · have hpressure : (s.exec c).2.pressure = s.pressure.insert q.pool stored := by
        rw [hexec]
        exact hstore
      have hsome : s.accepting c = some stored.latest := by
        unfold Impl.accepting
        rw [hop, hpressure, hexec]
        simp only [reply, hres, Except.map, Table.lookup_insert_eq, if_true, Option.map_some]
      rw [hpressure, Table.lookup_insert_eq] at he
      rw [hsome, Option.toList_some, List.filter_append]
      split at he
      · rename_i hp
        obtain rfl := Option.some.inj he
        subst hp
        right
        rw [List.filter_cons_of_pos (by simpa using hpool), List.filter_nil,
          List.getLast?_append, List.getLast?_singleton]
        rfl
      · rename_i hp
        rw [List.filter_cons_of_neg (by simpa [hpool] using fun h ↦ hp h.symm), List.filter_nil,
          List.append_nil]
        exact h p e he
  · have hop' : ∀ q, c.op ≠ .observePressure q := fun q hq ↦ hop ⟨q, hq⟩
    have hnone : s.accepting c = none := by
      unfold Impl.accepting
      split
      · rename_i q u hq hok
        exact absurd hq (hop' q)
      · rfl
    intro p e he
    rw [hepoch, hnone, Option.toList_none, List.append_nil]
    exact h p e (Impl.exec_pressure_sub hop' he)

theorem Stored.rehash {accepted : List PressureSnapshot} {s t : Impl} (h : Stored accepted s)
    (hr : s.Rehash t) : Stored accepted t := by
  cases hr with
  | mk hc hp hpn ho hon hq hqn ha hpr ht =>
      intro p e he
      exact h p e ((hpr.lookup_eq p).trans he)

theorem Stored.closeFabric {accepted : List PressureSnapshot} {s : Impl} (h : Stored accepted s) :
    Stored accepted s.closeFabric := by
  unfold Impl.closeFabric
  split
  · exact h
  · exact h

theorem closeFabric_epoch (s : Impl) : s.closeFabric.epoch = s.epoch := by
  unfold Impl.closeFabric
  split <;> rfl

theorem Step.sound {x x' : Observed} {ev : Event} (h : Step x ev x') (hx : x.Sound)
    (hev : x.system.Durable ev) : x'.Sound := by
  obtain ⟨h⟩ := h
  obtain ⟨hcurrent, -, hopened⟩ := h.current hx.current hev
  have hwriting := h.writing hx.writing hev
  have hstopped : ∀ {y : System}, y.live = none → y.Current → y.Writing →
      Sound { system := y, accepted := x.accepts ev, recovered := x.recovers y ev } := by
    intro y hlive hc hw
    refine ⟨hc, hw, ?_, ?_⟩ <;> intro s hs <;> rw [hlive] at hs <;> cases hs
  cases h with
  | opened hidle heq =>
      obtain ⟨s, hs, hlt, -, hdated⟩ := hopened _ rfl
      obtain rfl := Option.some.inj hs
      refine ⟨hcurrent, hwriting, ?_, ?_⟩
      · intro t ht p e he
        obtain rfl := Option.some.inj ht
        exact .inl ((hdated.latest p e he).trans_lt hlt)
      · intro t ht p hp
        obtain rfl := Option.some.inj ht
        obtain ⟨⟨k, e⟩, hmem, rfl⟩ := List.mem_map.mp hp
        exact (hdated.latest k e (Table.mem_toList.mp hmem)).trans_lt hlt
  | openFailed | openCrashed | crashed | stopped => exact hstopped rfl hcurrent hwriting
  | @called s c hlive hopen =>
      refine ⟨hcurrent, hwriting, ?_, ?_⟩
      · intro t ht
        obtain rfl := Option.some.inj ht
        have haccepts : x.accepts (.called c) = x.accepted ++ (s.accepting c).toList := by
          simp only [accepts, hlive, Option.bind_some]
        rw [haccepts]
        exact (hx.stored s hlive).exec (hx.current.live s hlive).2 c
      · intro t ht p hp
        obtain rfl := Option.some.inj ht
        rw [((hx.current.live s hlive).2.exec c).2.1]
        exact hx.recovered s hlive p hp
  | @closed s hlive =>
      refine ⟨hcurrent, hwriting, ?_, ?_⟩
      · intro t ht
        obtain rfl := Option.some.inj ht
        exact (hx.stored s hlive).closeFabric
      · intro t ht p hp
        obtain rfl := Option.some.inj ht
        rw [closeFabric_epoch]
        exact hx.recovered s hlive p hp
  | @rehashed s s' hlive hr =>
      refine ⟨hcurrent, hwriting, ?_, ?_⟩
      · intro t ht
        obtain rfl := Option.some.inj ht
        exact (hx.stored s hlive).rehash hr
      · intro t ht p hp
        obtain rfl := Option.some.inj ht
        rw [((hx.current.live s hlive).2.rehash hr).2.1]
        exact hx.recovered s hlive p hp

theorem sound_empty : ({} : Observed).Sound :=
  ⟨System.current_empty, .of_stopped rfl, by simp, by simp⟩

theorem Run.sound {x : Observed} (h : Run x) : x.Sound :=
  h.invariant (fun _ _ _ hx hev hs ↦ hs.sound hx hev) sound_empty

end Observed

/-- Behind a new grant of a pool whose policy refuses to grow on unknown pressure stands the
latest snapshot that was accepted for the pool in this session. It names the current
generation, is within its lifetime and does not contradict the ledger, and no recovered
snapshot is it. -/
theorem grants_rest_on_evidence {x : Observed} (hrun : Observed.Run x) {s : Impl}
    (hlive : x.system.live = some s) {c : Call} {q : AllocateRequest} (hop : c.op = .allocate q)
    {id : AllocationId} (hgrant : s.granting c = some id) {entry : PoolEntry} {policy : PoolPolicy}
    (hl : s.pools.lookup q.pool = some entry)
    (hpolicy : s.policies.lookup entry.descriptor.policy = some policy)
    (hrefuse : policy.pressure.refuseIncreaseOnUnknown = true) :
    ∃ p, x.latest q.pool = some p ∧
      (∃ e, s.pressure.lookup q.pool = some e ∧ e.latest = p) ∧
      p.poolGeneration = entry.descriptor.generation ∧ p.ttlTicks ≠ 0 ∧
      p.observedAt ≤ c.tick ∧ c.tick - p.observedAt ≤ p.ttlTicks ∧
      (p.assertCommitted = true → p.committedUnits = entry.ownUsage) ∧ p ∉ x.recovered := by
  have hx := hrun.sound
  obtain ⟨q', entry', policy', r, hop', hfits⟩ := Impl.granting_fits hgrant
  obtain rfl : q' = q := Op.allocate.inj (hop'.symm.trans hop)
  obtain rfl : entry' = entry := Option.some.inj (hfits.pool_lookup.symm.trans hl)
  obtain rfl : policy' = policy := Option.some.inj (hfits.policy_lookup.symm.trans hpolicy)
  obtain ⟨e, he, hepoch, hgeneration, hfresh, hasserted⟩ :=
    Impl.resolveEvidence_usable (hfits.evidence hrefuse)
  have hid : entry'.descriptor.id = q'.pool :=
    (hx.writing s hlive).1.keyed.pools q'.pool entry'.shape
      (by simp only [Impl.view, hl, Option.map_some])
  rw [hid] at he
  have he : s.pressure.lookup q'.pool = some e := he
  have hepoch : e.latest.epoch = s.epoch := hepoch
  obtain ⟨httl, hpast, hage⟩ := isFresh_eq_true hfresh
  have hlatest : x.latest q'.pool = some e.latest := by
    refine (hx.stored s hlive q'.pool e he).resolve_left ?_
    rw [hepoch]
    exact Nat.lt_irrefl _
  refine ⟨e.latest, hlatest, ⟨e, he, rfl⟩, hgeneration, httl, hpast, hage, hasserted, ?_⟩
  intro hmem
  have hlt := hx.recovered s hlive _ hmem
  rw [hepoch] at hlt
  exact Nat.lt_irrefl _ hlt

/-- The observed run after a command, when it can be carried out. -/
def Observed.perform (x : Observed) (k : Command) : Option Observed :=
  (x.system.perform k).map fun y ↦
    { system := y, accepted := x.accepts k.event, recovered := x.recovers y k.event }

def Observed.script (x : Observed) : List Command → Option Observed
  | [] => some x
  | k :: ks => if durableCheck x.system k then (x.perform k).bind (·.script ks) else none

theorem Observed.Run.script {ks : List Command} {x x' : Observed} (hrun : Observed.Run x)
    (h : x.script ks = some x') : Observed.Run x' := by
  induction ks generalizing x with
  | nil =>
      obtain rfl := Option.some.inj h
      exact hrun
  | cons k ks ih =>
      unfold Observed.script at h
      split at h
      · rename_i hk
        obtain ⟨m, hm, h⟩ := Option.bind_eq_some_iff.mp h
        obtain ⟨y, hy, rfl⟩ := Option.map_eq_some_iff.mp hm
        exact ih (hrun.tail (durableCheck_durable x.system k hk) ⟨System.perform_step hy⟩) h
      · cases h

/-- A call that tells the small pool's fabric about its pressure. -/
def reportPressure (epoch : EpochId) : Call :=
  { op := .observePressure
      { pool := ⟨1⟩, poolGeneration := ⟨1⟩, epoch := epoch, ttlTicks := 9 }
    tick := 5 }

/-- A policy that asks for evidence; its fabric is told about the pressure and opened again. -/
def observedSetup : List Call :=
  smallTopology { name := [112] } ++
    [{ op := .registerPool
        { name := [97], resource := ⟨1⟩, backend := ⟨1⟩, rawUnits := 100, policy := ⟨1⟩ } },
      { op := .registerQueue { name := [113], pool := ⟨1⟩ } }, reportPressure ⟨1⟩]

def observedScript : List Command :=
  [.start smallConfig] ++ observedSetup.map .call ++
    [.stop, .start smallConfig, .call (reportPressure ⟨2⟩)]

theorem grants_rest_on_evidence_observed :
    ∃ (x : Observed) (s : Impl), Observed.Run x ∧ x.system.live = some s ∧
      (s.granting { askUnits 1 40 true with tick := 9 }).isSome = true ∧ x.recovered ≠ [] ∧
      ∃ p, x.latest ⟨1⟩ = some p ∧ p ∉ x.recovered := by
  have h : (({} : Observed).script observedScript).any (fun x ↦ x.system.live.any fun s ↦
      (s.granting { askUnits 1 40 true with tick := 9 }).isSome && decide (x.recovered ≠ []) &&
        (s.pools.lookup ⟨1⟩).any fun entry ↦
          (s.policies.lookup entry.descriptor.policy).any fun policy ↦
            policy.pressure.refuseIncreaseOnUnknown) = true := by
    decide +kernel
  obtain ⟨x, hx, h⟩ := (Option.any_eq_true _ _).mp h
  obtain ⟨s, hs, h⟩ := (Option.any_eq_true _ _).mp h
  simp only [Bool.and_eq_true, decide_eq_true_eq] at h
  obtain ⟨⟨hgrant, hrecovered⟩, h⟩ := h
  obtain ⟨entry, hl, h⟩ := (Option.any_eq_true _ _).mp h
  obtain ⟨policy, hpolicy, hrefuse⟩ := (Option.any_eq_true _ _).mp h
  obtain ⟨id, hid⟩ := Option.isSome_iff_exists.mp hgrant
  have hrun : Observed.Run x := Observed.Run.script .refl hx
  obtain ⟨p, hp, -, -, -, -, -, -, hnew⟩ :=
    grants_rest_on_evidence hrun hs rfl hid hl hpolicy hrefuse
  exact ⟨x, s, hrun, hs, hgrant, hrecovered, p, hp, hnew⟩

end BufferFabric
