import BufferFabric.Conversations

/-!
# Departures

What a worker leaves behind. Its attempts are its own, and when its run succeeds nothing is held
under them, whatever the other sessions of the coordinator have done in the meantime.
-/

namespace BufferFabric

open Outcome Protocol

/-! ### The attempts of a worker -/

namespace WorkerConfig

/-- The attempts of a run, in order: at most two for each operation. -/
def attempt (config : WorkerConfig) (i : ℕ) : AttemptId :=
  ⟨config.attemptBase + 1 + UInt64.ofNat i⟩

def Owns (config : WorkerConfig) (a : AttemptId) : Prop :=
  ∃ i < 2 * config.operations.toNat, a = config.attempt i

variable {config : WorkerConfig}

theorem attempt_inj {i j : ℕ} (hi : i < 18446744073709551616) (hj : j < 18446744073709551616)
    (h : config.attempt i = config.attempt j) : i = j := by
  have hraw : config.attemptBase + 1 + UInt64.ofNat i = config.attemptBase + 1 + UInt64.ofNat j :=
    congrArg StrongId.raw h
  have hnat := congrArg UInt64.toNat (UInt64.add_right_inj _ |>.mp hraw)
  rwa [UInt64.toNat_ofNat', UInt64.toNat_ofNat', Nat.mod_eq_of_lt hi, Nat.mod_eq_of_lt hj] at hnat

end WorkerConfig

/-- None of the attempts has been used, and nothing is held under them. -/
structure Impl.NewTo (s : Impl) (config : WorkerConfig) : Prop where
  forgotten : ∀ i < 2 * config.operations.toNat, s.attempts.lookup (config.attempt i) = none
  vacant : s.Vacant config.Owns

/-- Every grant was given back, and every answer is accounted for. -/
structure WorkerReport.Balances (r : WorkerReport) (config : WorkerConfig) : Prop where
  released : r.releaseOk = r.grants + r.partialGrants
  answered : r.operationsAttempted = r.refusals + r.releaseOk +
    if r.handshakeOk = true ∧ r.staleEpochRejected = true then 1 else 0
  complete : r.staleEpochRejected = false → r.operationsAttempted = config.operations

namespace Worker

variable {net : Network} {w : Worker Channel} {config : WorkerConfig} {epoch : EpochId} {n u : ℕ}

def Unused (config : WorkerConfig) (u : ℕ) (s : Impl) : Prop :=
  ∀ i, u ≤ i → i < 2 * config.operations.toNat → s.attempts.lookup (config.attempt i) = none

/-- A session that spares the attempts of the worker. -/
theorem found_unused (hshared : net.Shared (Impl.Spares config.Owns))
    (h : Unused config u w.peer.coordinator.fabric) : Unused config u (w.found net) := by
  intro i hu hi
  exact (hshared _ _).forgets ⟨i, hi, rfl⟩ (h i hu hi)

theorem found_vacant (hshared : net.Shared (Impl.Spares config.Owns))
    (h : w.peer.coordinator.fabric.Vacant config.Owns) : (w.found net).Vacant config.Owns := by
  intro k hk
  have hbefore : ((net.moments w.peer.messages).before w.peer.coordinator.fabric).HeldUnder
      config.Owns k := hk
  exact h k ((hshared _ _).heldUnder hbefore)

/-- A request under the `u`-th attempt leaves the later ones unused. -/
theorem unused_after {q : Request} {s : Impl} (hbound : config.operations.toNat ≤ 16777216)
    (hu : u < 2 * config.operations.toNat) (hq : q.attempt = config.attempt u)
    (h : Unused config u s) : Unused config (u + 1) (s.answer q).2 := by
  intro i hle hi
  refine Impl.answer_forgets ?_ (h i (by omega) hi)
  rw [hq]
  intro heq
  have hsame := WorkerConfig.attempt_inj (by omega) (by omega) heq
  omega

/-- A release begins no tenancy. -/
theorem release_heldUnder {A : AttemptId → Prop} {q : ReleaseRequest} {k : AllocationId}
    (h : ((w.found net).releaseLocked q).2.HeldUnder A k) : (w.found net).HeldUnder A k := by
  have hcall : (((net.moments w.peer.messages).before w.peer.coordinator.fabric).exec
      ((net.moments w.peer.messages).call (.release q))).2.HeldUnder A k := h
  exact Impl.exec_heldUnder (by rintro q' ⟨⟩) hcall

/-! ### A cycle -/

structure Ready (config : WorkerConfig) (u : ℕ) (w : Worker Channel) : Prop where
  sequence : w.attemptSequence = config.attemptBase + 1 + UInt64.ofNat u
  unused : Unused config u w.peer.coordinator.fabric
  vacant : w.peer.coordinator.fabric.Vacant config.Owns

/-- What the coordinator does with a request for units leaves at most one allocation. -/
theorem dispatched_sparse (hvacant : (w.found net).Vacant config.Owns) :
    (w.dispatched net (w.allocateMessage config epoch)).coordinator.fabric.Sparse config.Owns := by
  have hlets := (w.found net).allocateLocked_lets (w.allocation config epoch)
  cases dispatched_allocate net config epoch w with
  | stale hstale hfabric =>
      rw [hfabric]
      exact hvacant.sparse
  | failed e hcurrent houtcome hfabric | done d hcurrent houtcome hfabric =>
      rw [hfabric]
      exact hlets.sparse hvacant

/-- A request that is turned down for its epoch lets nothing. -/
theorem dispatched_vacant (hvacant : (w.found net).Vacant config.Owns)
    (hstatus : (w.dispatched net (w.allocateMessage config epoch)).passed.status = .staleEpoch) :
    (w.dispatched net (w.allocateMessage config epoch)).coordinator.fabric.Vacant config.Owns := by
  have hlets := (w.found net).allocateLocked_lets (w.allocation config epoch)
  cases dispatched_allocate net config epoch w with
  | stale hstale hfabric =>
      rw [hfabric]
      exact hvacant
  | failed e hcurrent houtcome hfabric hcode =>
      rw [hfabric]
      rw [houtcome] at hlets
      intro k hk
      generalize ((w.found net).allocateLocked (w.allocation config epoch)).2 = t at hlets hk
      cases hlets with
      | failed ht => exact hvacant k (hk.congr ht)
      | unclosed hattempt ht he =>
          rw [hcode, he] at hstatus
          cases hstatus
  | done d hcurrent houtcome hfabric hcode =>
      rw [hcode] at hstatus
      cases hstatus

/-- A worker between two cycles, with `n` of them to go. -/
structure Working (config : WorkerConfig) (n : ℕ) (w : Worker Channel) : Prop where
  ready : ∃ u, u + 2 * n ≤ 2 * config.operations.toNat ∧ w.Ready config u
  handshakeOk : w.report.handshakeOk = true
  current : w.report.staleEpochRejected = false
  released : w.report.releaseOk = w.report.grants + w.report.partialGrants
  answered : w.report.operationsAttempted = w.report.refusals + w.report.releaseOk
  progress : w.report.operationsAttempted + UInt64.ofNat n = config.operations

/-- The end of a run: at most one allocation is held, and none when it succeeds. -/
structure Left (config : WorkerConfig) (x : Except Failure Unit) (w : Worker Channel) : Prop where
  sparse : w.peer.coordinator.fabric.Sparse config.Owns
  vacant : x = .ok () → w.peer.coordinator.fabric.Vacant config.Owns ∧ w.report.Balances config

/-- What the coordinator grants is the only allocation held, and it is counted. -/
theorem granted_only {d : Decision} (hvacant : (w.found net).Vacant config.Owns)
    (hnew : (w.found net).attempts.lookup (w.allocation config epoch).attempt = none)
    (houtcome : ((w.found net).allocateLocked (w.allocation config epoch)).1 = .ok d)
    (hd : ¬(d.grantedUnits = 0 ∨ d.status ≠ .ok)) :
    (∀ k, ((w.found net).allocateLocked (w.allocation config epoch)).2.HeldUnder config.Owns k →
      k = d.allocation) ∧ (d.kind = .grant ∨ d.kind = .grantPartial) := by
  have hlets := (w.found net).allocateLocked_lets (w.allocation config epoch)
  rw [houtcome] at hlets
  generalize ((w.found net).allocateLocked (w.allocation config epoch)).2 = t at hlets
  cases hlets with
  | replayed hprev =>
      rw [hprev] at hnew
      cases hnew
  | declined ht hzero => exact absurd (.inl hzero) hd
  | granted hattempt ht halloc hstatus hunits hkind =>
      refine ⟨fun k hk ↦ ?_, hkind⟩
      rw [halloc]
      exact Impl.held_of_insert hvacant ht hk

/-- What the coordinator declines leaves nothing held. -/
theorem declined_vacant {d : Decision} (hvacant : (w.found net).Vacant config.Owns)
    (houtcome : ((w.found net).allocateLocked (w.allocation config epoch)).1 = .ok d)
    (hd : d.grantedUnits = 0 ∨ d.status ≠ .ok) :
    ((w.found net).allocateLocked (w.allocation config epoch)).2.Vacant config.Owns := by
  have hlets := (w.found net).allocateLocked_lets (w.allocation config epoch)
  rw [houtcome] at hlets
  intro k hk
  generalize ((w.found net).allocateLocked (w.allocation config epoch)).2 = t at hlets hk
  cases hlets with
  | replayed => exact hvacant k hk
  | declined ht hzero => exact hvacant k (hk.congr ht)
  | granted hattempt ht halloc hstatus hunits hkind =>
      rcases hd with hd | hd
      · exact hunits hd
      · exact hd hstatus

/-! ### The release -/

/-- A worker that has to give one allocation back, with `n` cycles to go after that. -/
structure Owing (config : WorkerConfig) (n u : ℕ) (allocation : AllocationId)
    (w : Worker Channel) : Prop where
  room : u + 1 + 2 * n ≤ 2 * config.operations.toNat
  sequence : w.attemptSequence = config.attemptBase + 1 + UInt64.ofNat u
  unused : Unused config u w.peer.coordinator.fabric
  only : ∀ k, w.peer.coordinator.fabric.HeldUnder config.Owns k → k = allocation
  handshakeOk : w.report.handshakeOk = true
  current : w.report.staleEpochRejected = false
  released : w.report.releaseOk + 1 = w.report.grants + w.report.partialGrants
  answered : w.report.operationsAttempted = w.report.refusals + (w.report.releaseOk + 1)
  progress : w.report.operationsAttempted + UInt64.ofNat n = config.operations

variable {allocation : AllocationId}

theorem found_only (hshared : net.Shared (Impl.Spares config.Owns))
    (honly : ∀ k, w.peer.coordinator.fabric.HeldUnder config.Owns k → k = allocation)
    {k : AllocationId} (hk : (w.found net).HeldUnder config.Owns k) : k = allocation := by
  have hbefore : ((net.moments w.peer.messages).before w.peer.coordinator.fabric).HeldUnder
      config.Owns k := hk
  exact honly k ((hshared _ _).heldUnder hbefore)

/-- Whatever the coordinator does with the release, no other allocation is held. -/
theorem dispatched_only (hshared : net.Shared (Impl.Spares config.Owns))
    (honly : ∀ k, w.peer.coordinator.fabric.HeldUnder config.Owns k → k = allocation) :
    ∀ k, (w.dispatched net (w.releaseMessage epoch allocation)).coordinator.fabric.HeldUnder
      config.Owns k → k = allocation := by
  intro k hk
  cases dispatched_release net epoch w allocation with
  | stale hstale hfabric =>
      rw [hfabric] at hk
      exact found_only hshared honly hk
  | failed e hcurrent houtcome hfabric | done d hcurrent houtcome hfabric =>
      rw [hfabric] at hk
      exact found_only hshared honly (release_heldUnder hk)

theorem returned_left (hshared : net.Shared (Impl.Spares config.Owns))
    (hbound : config.operations.toNat ≤ 16777216) (h : w.Owing config n u allocation)
    {result : Except Failure Bool × Worker Channel}
    (hreturned : Returned net epoch w allocation result) :
    Ends (Working config n) (Left config) result := by
  have hlater : ∀ k, (w.dispatched net (w.releaseMessage epoch
      allocation)).coordinator.fabric.HeldUnder config.Owns k → k = allocation :=
    dispatched_only hshared h.only
  have hroom := h.room
  have hsparse : ∀ {s : Impl}, (∀ k, s.HeldUnder config.Owns k → k = allocation) →
      s.Sparse config.Owns :=
    fun honly k k' hk hk' ↦ (honly k hk).trans (honly k' hk').symm
  cases hreturned with
  | @unanswered e sent received ch hch =>
      refine ⟨?_, by rintro ⟨⟩⟩
      change ch.coordinator.fabric.Sparse config.Owns
      rcases hch with hch | hch
      · rw [hch]
        exact hsparse h.only
      · rw [hch]
        exact hsparse hlater
  | @failed e sent received ch hch =>
      refine ⟨?_, by rintro ⟨⟩⟩
      change ch.coordinator.fabric.Sparse config.Owns
      rw [hch]
      exact hsparse hlater
  | @released d sent received ch houtcome hfabric =>
      have hattempt : (w.giveBack epoch allocation).attempt = config.attempt u := by
        unfold giveBack WorkerConfig.attempt
        dsimp only
        rw [h.sequence]
      have hfound := found_unused hshared h.unused
      have hnew : (w.found net).attempts.lookup (w.giveBack epoch allocation).attempt = none := by
        rw [hattempt]
        exact hfound u (Nat.le_refl u) (by omega)
      have hused : Unused config (u + 1) ((w.found net).releaseLocked (w.giveBack epoch
          allocation)).2 :=
        unused_after (q := .release (w.giveBack epoch allocation)) hbound (by omega) hattempt hfound
      have hvacant : ((w.found net).releaseLocked (w.giveBack epoch allocation)).2.Vacant
          config.Owns := by
        intro k hk
        obtain rfl := found_only hshared h.only (release_heldUnder hk)
        have hall : (w.giveBack epoch k).releaseAll = true := rfl
        exact Impl.releaseLocked_vacates hall hnew houtcome hk
      rw [← hfabric] at hused hvacant
      refine ⟨⟨u + 1, by omega, ?_, hused, hvacant⟩, h.handshakeOk, h.current, h.released,
        h.answered, h.progress⟩
      change w.attemptSequence + 1 = _
      rw [h.sequence, UInt64.ofNat_add]
      exact UInt64.add_assoc _ _ _

/-! ### A whole cycle -/

theorem cycle_left (hnet : net.Delivers) (hshared : net.Shared (Impl.Spares config.Owns))
    (hbound : config.operations.toNat ≤ 16777216) (h : w.Working config (n + 1)) :
    Ends (Working config n) (Left config) (w.cycle config epoch (Channel.deliver net)) := by
  obtain ⟨u, hroom, hready⟩ := h.ready
  have hcycled := cycle_cases hnet config epoch w
  have hvacant := found_vacant hshared hready.vacant
  have hfound := found_unused hshared hready.unused
  have hattempt : (w.allocation config epoch).attempt = config.attempt u := by
    unfold allocation WorkerConfig.attempt
    dsimp only
    rw [hready.sequence]
  have hnew : (w.found net).attempts.lookup (w.allocation config epoch).attempt = none := by
    rw [hattempt]
    exact hfound u (Nat.le_refl u) (by omega)
  have hused : Unused config (u + 1) ((w.found net).allocateLocked (w.allocation config epoch)).2 :=
    unused_after (q := .allocate (w.allocation config epoch)) hbound (by omega) hattempt hfound
  have hsequence : w.attemptSequence + 1 = config.attemptBase + 1 + UInt64.ofNat (u + 1) := by
    rw [hready.sequence, UInt64.ofNat_add]
    exact UInt64.add_assoc _ _ _
  have hprogress : w.report.operationsAttempted + 1 + UInt64.ofNat n = config.operations := by
    rw [← h.progress, UInt64.ofNat_add, UInt64.add_assoc, UInt64.add_comm 1]
    rfl
  generalize w.cycle config epoch (Channel.deliver net) = result at hcycled
  cases hcycled with
  | @unanswered e sent received ch hch =>
      refine ⟨?_, by rintro ⟨⟩⟩
      change ch.coordinator.fabric.Sparse config.Owns
      rcases hch with hch | hch
      · rw [hch]
        exact hready.vacant.sparse
      · rw [hch]
        exact dispatched_sparse hvacant
  | @stale sent received ch hch hstatus =>
      have hleft : ch.coordinator.fabric.Vacant config.Owns := by
        rw [hch]
        exact dispatched_vacant hvacant hstatus
      refine ⟨hleft.sparse, fun _ ↦ ⟨hleft, h.released, ?_, by rintro ⟨⟩⟩⟩
      change w.report.operationsAttempted + 1 = w.report.refusals + w.report.releaseOk +
        if w.report.handshakeOk = true ∧ true = true then 1 else 0
      rw [if_pos ⟨h.handshakeOk, rfl⟩, h.answered]
  | @failed e sent received ch hch =>
      refine ⟨?_, by rintro ⟨⟩⟩
      change ch.coordinator.fabric.Sparse config.Owns
      rw [hch]
      exact dispatched_sparse hvacant
  | @declined d sent received ch hcurrent houtcome hfabric hd =>
      have hleft := declined_vacant hvacant houtcome hd
      rw [← hfabric] at hleft hused
      refine ⟨⟨u + 1, by omega, hsequence, hused, hleft⟩, h.handshakeOk, h.current, h.released, ?_,
        hprogress⟩
      change w.report.operationsAttempted + 1 = w.report.refusals + 1 + w.report.releaseOk
      rw [h.answered]
      ac_rfl
  | @granted d sent received ch _ hcurrent houtcome hfabric hd hreturned =>
      obtain ⟨honly, hkind⟩ := granted_only hvacant hnew houtcome hd
      rw [← hfabric] at honly hused
      refine returned_left (u := u + 1) hshared hbound ?_ hreturned
      refine ⟨by omega, hsequence, hused, honly, h.handshakeOk, h.current, ?_, ?_, hprogress⟩
      · change w.report.releaseOk + 1 =
          (if d.kind = .grant then w.report.grants + 1 else w.report.grants) +
            if d.kind = .grantPartial then w.report.partialGrants + 1 else w.report.partialGrants
        rw [h.released]
        rcases hkind with hkind | hkind
        · rw [if_pos hkind, if_neg (by rw [hkind]; exact DecisionKind.noConfusion)]
          ac_rfl
        · rw [if_neg (by rw [hkind]; exact DecisionKind.noConfusion), if_pos hkind]
          ac_rfl
      · change w.report.operationsAttempted + 1 = w.report.refusals + (w.report.releaseOk + 1)
        rw [h.answered]
        ac_rfl

end Worker

/-! ### Whole runs -/

namespace Worker

variable {net : Network} {w : Worker Channel} {config : WorkerConfig}

theorem handshake_left (hnet : net.Delivers) (hshared : net.Shared (Impl.Spares config.Owns))
    {ch : Channel} (hnew : ch.coordinator.fabric.NewTo config) :
    Ends (fun w ↦ (w.begin config).Working config config.operations.toNat) (Left config)
      ((connectedTo ch).handshake config (Channel.deliver net)) := by
  have hshaken := handshake_cases hnet config (connectedTo ch)
  have hstart : (connectedTo ch).peer.coordinator.fabric.Vacant config.Owns := hnew.vacant
  have hunused : Unused config 0 (connectedTo ch).peer.coordinator.fabric :=
    fun i _ hi ↦ hnew.forgotten i hi
  have hvacant := found_vacant hshared hstart
  have hfound := found_unused hshared hunused
  generalize (connectedTo ch).handshake config (Channel.deliver net) = result at hshaken
  cases hshaken with
  | failed hfabric =>
      refine ⟨?_, by rintro ⟨⟩⟩
      rcases hfabric with hfabric | hfabric
      · exact hfabric ▸ hstart.sparse
      · exact hfabric ▸ hvacant.sparse
  | @stale sent received ch' hclaim hfabric =>
      have hleft : ch'.coordinator.fabric.Vacant config.Owns := hfabric ▸ hvacant
      exact ⟨hleft.sparse, fun _ ↦ ⟨hleft, rfl, rfl, by rintro ⟨⟩⟩⟩
  | @accepted sent received ch' ack hclaim hepoch hfabric =>
      have hleft : ch'.coordinator.fabric.Vacant config.Owns := hfabric ▸ hvacant
      have hlater : Unused config 0 ch'.coordinator.fabric := hfabric ▸ hfound
      refine ⟨⟨0, by omega, ?_, hlater, hleft⟩, rfl, rfl, rfl, rfl, ?_⟩
      · exact (UInt64.add_zero _).symm
      · change 0 + UInt64.ofNat config.operations.toNat = config.operations
        rw [UInt64.zero_add, UInt64.ofNat_toNat]

theorem Working.left (h : w.Working config 0) : w.Left config (.ok ()) := by
  obtain ⟨u, -, hready⟩ := h.ready
  refine ⟨hready.vacant.sparse, fun _ ↦ ⟨hready.vacant, h.released, ?_, fun _ ↦ ?_⟩⟩
  · rw [h.answered, if_neg, UInt64.add_zero]
    rintro ⟨-, hstale⟩
    rw [h.current] at hstale
    cases hstale
  · rw [← h.progress]
    exact (UInt64.add_zero _).symm

end Worker

/-- A worker with a range of attempts of its own, over any network, beside any other sessions. At
the end of its run at most one allocation is held under its attempts; and when the run succeeds
none is, every grant has been given back, and the report accounts for every request. -/
theorem worker_leaves_nothing {net : Network} (hnet : net.Delivers) {config : WorkerConfig}
    (hshared : net.Shared (Impl.Spares config.Owns)) {ch : Channel}
    (hnew : ch.coordinator.fabric.NewTo config) (connected : Except Status Unit) :
    let r := runWorker config connected (Channel.deliver net) ch
    let s := r.2.peer.coordinator.fabric
    s.Sparse config.Owns ∧
      ∀ report, r.1 = .ok report → s.Vacant config.Owns ∧ report.Balances config := by
  have hnever : ∀ e, Worker.Left config (.error e) { peer := ch } :=
    fun _ ↦ ⟨hnew.vacant.sparse, by rintro ⟨⟩⟩
  have hbegun : config.operations.toNat ≤ 16777216 →
      Worker.Ends (fun w ↦ config.operations.toNat ≤ 16777216 ∧
          (w.begin config).Working config config.operations.toNat) (Worker.Left config)
        ((Worker.connectedTo ch).handshake config (Channel.deliver net)) := by
    intro hbound
    have hstart := Worker.handshake_left hnet hshared hnew
    generalize (Worker.connectedTo ch).handshake config (Channel.deliver net) = result at hstart ⊢
    rcases result with ⟨e | ⟨_ | _⟩, w⟩
    · exact hstart
    · exact hstart
    · exact ⟨hbound, hstart⟩
  have hstep : ∀ (epoch : EpochId) (n : ℕ) (w : Worker Channel),
      (config.operations.toNat ≤ 16777216 ∧ w.Working config (n + 1)) →
        Worker.Ends (fun w ↦ config.operations.toNat ≤ 16777216 ∧ w.Working config n)
          (Worker.Left config) (w.cycle config epoch (Channel.deliver net)) := by
    rintro epoch n w ⟨hbound, hw⟩
    have hcycle : Worker.Ends (Worker.Working config n) (Worker.Left config)
      (w.cycle config epoch (Channel.deliver net)) := Worker.cycle_left hnet hshared hbound hw
    generalize w.cycle config epoch (Channel.deliver net) = result at hcycle ⊢
    rcases result with ⟨e | ⟨_ | _⟩, w'⟩
    · exact hcycle
    · exact hcycle
    · exact ⟨hbound, hcycle⟩
  obtain ⟨herror, hok⟩ := Worker.run_rule connected
    (I := fun _ n w ↦ config.operations.toNat ≤ 16777216 ∧ w.Working config n)
    (Q := Worker.Left config) hnever hbegun (fun _ _ hw ↦ hw.2.left) hstep
  dsimp only
  cases hr : (runWorker config connected (Channel.deliver net) ch).1 with
  | error e => exact ⟨(herror e hr).sparse, by rintro report ⟨⟩⟩
  | ok report =>
      obtain ⟨hleft, hreport⟩ := hok report hr
      refine ⟨hleft.sparse, ?_⟩
      rintro report' hreport'
      rw [← Except.ok.inj hreport', hreport]
      exact hleft.vacant rfl

/-! ### A small run -/

theorem named_new : namedChannel.coordinator.fabric.NewTo namedWorker := by
  have hkeys : namedChannel.coordinator.fabric.allocations.keys = [] := by decide +kernel
  refine ⟨by decide +kernel, ?_⟩
  rintro k ⟨r, hr, -⟩
  have hmem : k ∈ namedChannel.coordinator.fabric.allocations.keys :=
    Table.mem_keys_iff.mpr ⟨r, hr⟩
  rw [hkeys] at hmem
  cases hmem

theorem worker_leaves_nothing_named :
    let r := runWorker namedWorker (.ok ()) (Channel.deliver {}) namedChannel
    let s := r.2.peer.coordinator.fabric
    s.Sparse namedWorker.Owns ∧ ∀ report, r.1 = .ok report →
      s.Vacant namedWorker.Owns ∧ report.Balances namedWorker :=
  worker_leaves_nothing wholeFrames_deliver shared_alone named_new (.ok ())

end BufferFabric
