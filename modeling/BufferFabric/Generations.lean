import BufferFabric.Lib.Versions
import BufferFabric.Lifecycle

/-!
# What a generation identifies

A pool that is resized and a queue that is moved or retired get the next generation, and what
is registered starts at generation 1. An id and a generation therefore name one pool, or one
queue, as long as the id is not registered again.
-/

namespace BufferFabric

open Outcome

/-! ### Pools and queues by id and generation -/

/-- What the holder of a pool's id and generation may rely on. -/
structure PoolSubject where
  rawUnits : UInt64
  protectedUnits : UInt64
  parent : PoolId
  policy : PolicyId
  resource : ResourceId
  backend : BackendId
  deriving DecidableEq

def PoolDescriptor.subject (d : PoolDescriptor) : PoolSubject where
  rawUnits := d.rawUnits
  protectedUnits := d.protectedUnits
  parent := d.parent
  policy := d.policy
  resource := d.resource
  backend := d.backend

def poolVersion (d : PoolDescriptor × Generation) : ℕ := d.1.generation.raw.toNat

def poolSubject (d : PoolDescriptor × Generation) : PoolSubject := d.1.subject

def QueueDescriptor.version (d : QueueDescriptor) : ℕ := d.generation.raw.toNat

def Impl.RegistersPool (s : Impl) (p : PoolId) (c : Call) : Prop :=
  ∃ q, c.op = .registerPool q ∧ pickId q.id s.counters.nextPoolId = p

def Impl.RegistersQueue (s : Impl) (k : QueueId) (c : Call) : Prop :=
  ∃ q, c.op = .registerQueue q ∧ pickId q.id s.counters.nextQueueId = k

def Impl.SparesPool (p : PoolId) (s : Impl) (c : Call) : Prop :=
  s.pools.lookup p = none → ¬s.RegistersPool p c

def Impl.SparesQueue (k : QueueId) (s : Impl) (c : Call) : Prop :=
  s.queues.lookup k = none → ¬s.RegistersQueue k c

/-! ### One change -/

section

variable {s m t : Impl} {l : Label} {record : Option JournalRecord}

theorem Change.pool_continues (h : Change s l record m) {p : PoolId}
    (hl : ∀ d, l = .pool d → d.id ≠ p) :
    Continues poolVersion poolSubject (s.view.pools p) (m.view.pools p) := by
  have hshapes : ∀ {pools : Table PoolId PoolEntry}, SameShapes s.pools pools →
      Continues poolVersion poolSubject (s.view.pools p)
        ((pools.lookup p).map PoolEntry.shape) :=
    fun hsh ↦ .of_eq (hsh p)
  cases h with
  | attempt a =>
      obtain ⟨order, attempts, h⟩ := s.recordAttempt_frame a
      rw [h]
      exact .refl _
  | runtime pools runtime h =>
      exact hshapes (.of_map (g := fun p e ↦ { e with runtime := runtime p e }) (fun _ _ ↦ rfl) h)
  | pool d hv hnew =>
      refine .of_eq ?_
      simp only [Impl.view]
      rw [Table.lookup_insert_eq, if_neg fun h ↦ hl d rfl h.symm]
  | removePool key entry =>
      by_cases hp : p = key
      · refine .of_none ?_
        simp only [Impl.view]
        rw [Table.lookup_erase_eq, if_pos hp, Option.map_none]
      · refine .of_eq ?_
        simp only [Impl.view]
        rw [Table.lookup_erase_eq, if_neg hp]
  | resize key entry raw prot g c hent hraw hprot hfits hnext =>
      by_cases hp : p = key
      · subst hp
        have hold : s.view.pools p = some entry.shape := by
          simp only [Impl.view, hent, Option.map_some]
        refine .of_follows hold (b := (entry.resized raw prot g c).shape) ?_ (.inl hnext)
        simp only [Impl.view, Impl.putPool]
        rw [Table.lookup_insert_eq, if_pos rfl, Option.map_some]
      · refine .of_eq ?_
        simp only [Impl.view, Impl.putPool]
        rw [Table.lookup_insert_eq, if_neg hp]
  | fence key r entry state pools hr hholds hstate hent hpools =>
      exact hshapes (.of_map (fun p e ↦ PoolEntry.shape_returned p r e) hpools)
  | grant key entry policy r pools hfits hpools =>
      exact hshapes (.of_map (fun p e ↦ PoolEntry.shape_granted key p r e) hpools)
  | brokenGrant key entry policy r pools j hfits hj hfail hsh => exact hshapes hsh
  | commit key r entry hr hs hent =>
      exact hshapes (.insert hent (PoolEntry.shape_committedEntry entry r))
  | release key r entry units pools hr hholds hunits hle hent hpools =>
      exact hshapes (.of_map (fun p e ↦ PoolEntry.shape_returned p _ e) hpools)
  | brokenReturn key r part entry units pools hr hholds hent hpart hfail hsh => exact hshapes hsh
  | _ => exact .refl _

theorem Change.queue_continues (h : Change s l record m) {k : QueueId}
    (hl : l = .queue k → s.queues.lookup k ≠ none) :
    Continues QueueDescriptor.version QueueDescriptor.pool (s.queues.lookup k)
      (m.queues.lookup k) := by
  have hinsert : ∀ {key : QueueId} {d d' : QueueDescriptor}, s.queues.lookup key = some d →
      Follows QueueDescriptor.version QueueDescriptor.pool d d' →
      Continues QueueDescriptor.version QueueDescriptor.pool (s.queues.lookup k)
        ((s.queues.insert key d').lookup k) := by
    intro key d d' hd hfollows
    rw [Table.lookup_insert_eq]
    by_cases hk : k = key
    · subst hk
      rw [if_pos rfl]
      exact .of_follows hd rfl hfollows
    · rw [if_neg hk]
      exact .refl _
  cases h with
  | attempt a =>
      obtain ⟨order, attempts, h⟩ := s.recordAttempt_frame a
      rw [h]
      exact .refl _
  | dropQueues key hgone =>
      intro d hd
      simp only [Impl.dropRetiredQueues, Table.lookup_filterValues] at hd
      exact ⟨d, (Option.filter_eq_some_iff.mp hd).1, .refl d⟩
  | queue key q names hup =>
      cases hup with
      | registered hkey hid hnew =>
          refine .of_eq ((Table.lookup_insert_eq _ _ _ _).trans (if_neg ?_))
          rintro rfl
          exact hl rfl hnew
      | updated hd hq => exact hinsert hd (.inr (by rw [hq]; exact ⟨rfl, rfl⟩))
      | moved hd hq hfree hpool hnames hnext => exact hinsert hd (.inl (by rw [hq]; exact hnext))
  | retire key d g hd hnext => exact hinsert hd (.inl hnext)
  | _ => exact .refl _

theorem Move.pool_continues {a : Label × Bool} (h : Move s a t) {p : PoolId}
    (hl : ∀ d, a.1 = .pool d → d.id ≠ p) :
    Continues poolVersion poolSubject (s.view.pools p) (t.view.pools p) :=
  h.keeps_view (I := fun v ↦ Continues poolVersion poolSubject (s.view.pools p) (v.pools p))
    (fun _ _ hc ↦ hc.pool_continues hl) (.refl _)

theorem Move.queue_continues {a : Label × Bool} (h : Move s a t) {k : QueueId}
    (hl : a.1 = .queue k → s.queues.lookup k ≠ none) :
    Continues QueueDescriptor.version QueueDescriptor.pool (s.queues.lookup k)
      (t.queues.lookup k) :=
  h.keeps_view (I := fun v ↦
    Continues QueueDescriptor.version QueueDescriptor.pool (s.queues.lookup k) (v.queues k))
    (fun _ _ hc ↦ hc.queue_continues hl) (.refl _)

end

/-! ### One call -/

namespace Impl

variable {s : Impl} {c : Call}

/-- A registration under an id in use leaves the pool that has it alone. -/
theorem registerPool_lookup {q : PoolRegistration} {p : PoolId} (hp : s.pools.lookup p ≠ none) :
    (s.registerPool q).2.pools.lookup p = s.pools.lookup p := by
  unfold registerPool
  split
  · rfl
  dsimp only
  split
  · rfl
  split
  · rfl
  rename_i hplan
  obtain ⟨-, hnew, -⟩ := planPool_ok hplan
  unfold applyPool
  dsimp only
  split
  · rename_i hj
    rw [eq_of_journal hj]
  · rename_i hj
    rw [eq_of_journal hj]
    refine (Table.lookup_insert_eq _ _ _ _).trans (if_neg ?_)
    rintro rfl
    exact hp hnew

theorem registerQueue_lookup {q : QueueRegistration} {k : QueueId}
    (hk : s.queues.lookup k ≠ none) :
    (s.registerQueue q).2.queues.lookup k = s.queues.lookup k := by
  unfold registerQueue
  split
  · rfl
  dsimp only
  split
  · rfl
  split
  · rfl
  rename_i hplan
  unfold planQueue at hplan
  simp only [seq_ok, require_eq_ok, exists_const, Option.isNone_iff_eq_none] at hplan
  obtain ⟨-, -, -, hnew, -⟩ := hplan
  unfold applyQueue
  split
  · rename_i hj
    rw [eq_of_journal hj]
  · rename_i hj
    rw [eq_of_journal hj]
    refine (Table.lookup_insert_eq _ _ _ _).trans (if_neg ?_)
    rintro rfl
    exact hk hnew

theorem exec_pool_continues {p : PoolId} (hp : s.SparesPool p c) :
    Continues poolVersion poolSubject (s.view.pools p) ((s.exec c).2.view.pools p) := by
  by_cases hreg : s.RegistersPool p c
  · have hsome : s.pools.lookup p ≠ none := fun hnone ↦ hp hnone hreg
    obtain ⟨q, hop, -⟩ := hreg
    have hsame : (s.exec c).2.pools.lookup p = s.pools.lookup p := by
      unfold exec
      rw [hop]
      exact registerPool_lookup (s := s.enter c) hsome
    exact .of_eq (congrArg (Option.map PoolEntry.shape) hsame)
  · refine (s.exec_trace c).invariant (I := fun u ↦
      Continues poolVersion poolSubject (s.view.pools p) (u.view.pools p)) ?_ (.refl _)
    intro u a v hu hallow hm
    refine hu.trans (hm.pool_continues ?_)
    rintro d hd rfl
    unfold Op.Allows at hallow
    rw [hd] at hallow
    obtain ⟨q, hop, hid⟩ := hallow
    exact hreg ⟨q, hop, hid.symm⟩

theorem exec_queue_continues {k : QueueId} (hk : s.SparesQueue k c) :
    Continues QueueDescriptor.version QueueDescriptor.pool (s.queues.lookup k)
      ((s.exec c).2.queues.lookup k) := by
  by_cases hreg : s.RegistersQueue k c
  · have hsome : s.queues.lookup k ≠ none := fun hnone ↦ hk hnone hreg
    obtain ⟨q, hop, -⟩ := hreg
    unfold exec
    rw [hop]
    exact .of_eq (registerQueue_lookup (s := s.enter c) hsome)
  · refine (s.exec_trace c).invariant (I := fun u ↦
      Continues QueueDescriptor.version QueueDescriptor.pool (s.queues.lookup k)
        (u.queues.lookup k)) ?_ (.refl _)
    intro u a v hu hallow hm
    refine hu.trans (hm.queue_continues ?_)
    intro hlabel hnone
    unfold Op.Allows at hallow
    rw [hlabel] at hallow
    obtain ⟨q, hop, hid⟩ := hallow hnone
    exact hreg ⟨q, hop, hid.symm⟩

end Impl

/-! ### Runs -/

theorem SessionRun.pool_continues {s t : Impl} {p : PoolId}
    (h : SessionRun (Impl.SparesPool p) s t) :
    Continues poolVersion poolSubject (s.view.pools p) (t.view.pools p) := by
  induction h with
  | refl => exact .refl _
  | call c _ hc ih => exact ih.trans (Impl.exec_pool_continues hc)
  | rehash _ hr ih => exact ih.trans (.of_eq (congrFun (congrArg View.pools hr.view_eq) p))

theorem SessionRun.queue_continues {s t : Impl} {k : QueueId}
    (h : SessionRun (Impl.SparesQueue k) s t) :
    Continues QueueDescriptor.version QueueDescriptor.pool (s.queues.lookup k)
      (t.queues.lookup k) := by
  induction h with
  | refl => exact .refl _
  | call c _ hc ih => exact ih.trans (Impl.exec_queue_continues hc)
  | rehash _ hr ih => exact ih.trans (.of_eq (congrFun (congrArg View.queues hr.view_eq) k))

/-- An assertion that is met names the generation it asserts. -/
theorem Matches.eq {tag : IdTag} {expected current : StrongId tag} (hm : Matches expected current)
    (hv : expected.Valid) : expected = current := by
  by_contra hne
  exact hm ⟨hv, hne⟩

/-- Between two moments of a session between which an id is not given to a new object, the id
and a generation name one pool, or one queue; an assertion that was correct is met by nothing
else. -/
theorem generations_identify {s t : Impl} :
    (∀ p, SessionRun (Impl.SparesPool p) s t → ∀ e e', s.pools.lookup p = some e →
      t.pools.lookup p = some e' →
      (e'.descriptor.generation = e.descriptor.generation →
        e'.descriptor.subject = e.descriptor.subject) ∧
      (e.descriptor.generation.Valid →
        Matches e.descriptor.generation e'.descriptor.generation →
        e'.descriptor.subject = e.descriptor.subject)) ∧
    ∀ k, SessionRun (Impl.SparesQueue k) s t → ∀ d d', s.queues.lookup k = some d →
      t.queues.lookup k = some d' →
      (d'.generation = d.generation → d'.pool = d.pool) ∧
      (d.generation.Valid → Matches d.generation d'.generation → d'.pool = d.pool) := by
  constructor
  · intro p hrun e e' he he'
    have hfollows := hrun.pool_continues.follows (a := e.shape) (b := e'.shape)
      (by simp only [Impl.view, he, Option.map_some]) (by simp only [Impl.view, he', Option.map_some])
    have hsame : e'.descriptor.generation = e.descriptor.generation →
        e'.descriptor.subject = e.descriptor.subject :=
      fun hg ↦ hfollows.subject_eq (congrArg (fun g : Generation ↦ g.raw.toNat) hg)
    exact ⟨hsame, fun hv hm ↦ hsame (hm.eq hv).symm⟩
  · intro k hrun d d' hd hd'
    have hsame : d'.generation = d.generation → d'.pool = d.pool :=
      fun hg ↦ (hrun.queue_continues.follows hd hd').subject_eq
        (congrArg (fun g : Generation ↦ g.raw.toNat) hg)
    exact ⟨hsame, fun hv hm ↦ hsame (hm.eq hv).symm⟩

/-! ### An id that is registered again -/

def namedStart : Impl := smallOpened.play smallSetup

/-- The pool and the queue are removed, and their ids go to others. -/
def renamedSession : List Call :=
  [{ op := .retireQueue ⟨1⟩ ⟨0⟩ }, { op := .removePool ⟨1⟩ ⟨0⟩ },
    { op := .registerPool
        { id := ⟨1⟩, name := [98], resource := ⟨1⟩, backend := ⟨1⟩, rawUnits := 200
          policy := ⟨1⟩ } },
    { op := .registerPool
        { id := ⟨2⟩, name := [99], resource := ⟨1⟩, backend := ⟨1⟩, rawUnits := 300
          policy := ⟨1⟩ } },
    { op := .registerQueue { id := ⟨1⟩, name := [113], pool := ⟨2⟩ } }]

/-- An id that is registered again starts at generation 1 once more: one id and one generation
name two pools and two queues of a session, and an assertion made for the first holds of the
second. -/
theorem generations_repeat :
    ∃ start s t : Impl, FreshlyOpened start ∧ SessionRun (fun _ _ ↦ True) start s ∧
      SessionRun (fun _ _ ↦ True) s t ∧
      (∃ e e', s.pools.lookup ⟨1⟩ = some e ∧ t.pools.lookup ⟨1⟩ = some e' ∧
        e'.descriptor.generation = e.descriptor.generation ∧ e.descriptor.generation.Valid ∧
        Matches e.descriptor.generation e'.descriptor.generation ∧
        e'.descriptor.subject ≠ e.descriptor.subject) ∧
      ∃ d d', s.queues.lookup ⟨1⟩ = some d ∧ t.queues.lookup ⟨1⟩ = some d' ∧
        d'.generation = d.generation ∧ d'.pool ≠ d.pool := by
  have h : ((namedStart.pools.lookup ⟨1⟩).any fun e ↦
      ((namedStart.play renamedSession).pools.lookup ⟨1⟩).any fun e' ↦
        (namedStart.queues.lookup ⟨1⟩).any fun d ↦
          ((namedStart.play renamedSession).queues.lookup ⟨1⟩).any fun d' ↦
            decide (e'.descriptor.generation = e.descriptor.generation ∧
              e.descriptor.generation.Valid ∧
              Matches e.descriptor.generation e'.descriptor.generation ∧
              e'.descriptor.subject ≠ e.descriptor.subject) &&
            decide (d'.generation = d.generation ∧ d'.pool ≠ d.pool)) = true := by
    decide +kernel
  simp only [Option.any_eq_true, Bool.and_eq_true, decide_eq_true_eq] at h
  obtain ⟨e, he, e', he', d, hd, d', hd', hpool, hqueue⟩ := h
  exact ⟨smallOpened, namedStart, _, smallOpened_fresh,
    SessionRun.refl.play (smallOpened.admits_true _), SessionRun.refl.play (Impl.admits_true _ _),
    ⟨e, e', he, he', hpool⟩, d, d', hd, hd', hqueue⟩

/-- A pool that stays registered while another one takes up, and gives up, its place beside it. -/
theorem generations_identify_neighbour :
    ∃ e e', namedStart.pools.lookup ⟨1⟩ = some e ∧
      (namedStart.play [askUnits 1 40 true,
        { op := .registerPool
            { name := [98], resource := ⟨1⟩, backend := ⟨1⟩, rawUnits := 200, policy := ⟨1⟩ } },
        { op := .removePool ⟨2⟩ ⟨0⟩ }]).pools.lookup ⟨1⟩ = some e' ∧
      e'.descriptor.generation = e.descriptor.generation ∧
      e'.descriptor.subject = e.descriptor.subject := by
  have hadmits : namedStart.Admits (fun s _ ↦ (s.pools.lookup ⟨1⟩).isSome = true)
      [askUnits 1 40 true,
        { op := .registerPool
            { name := [98], resource := ⟨1⟩, backend := ⟨1⟩, rawUnits := 200, policy := ⟨1⟩ } },
        { op := .removePool ⟨2⟩ ⟨0⟩ }] := by
    decide +kernel
  have hrun := (SessionRun.refl.play hadmits).mono (Q := Impl.SparesPool ⟨1⟩) (by
    intro s c hsome hnone
    rw [hnone] at hsome
    cases hsome)
  have h : ((namedStart.pools.lookup ⟨1⟩).any fun e ↦
      ((namedStart.play [askUnits 1 40 true,
        { op := .registerPool
            { name := [98], resource := ⟨1⟩, backend := ⟨1⟩, rawUnits := 200, policy := ⟨1⟩ } },
        { op := .removePool ⟨2⟩ ⟨0⟩ }]).pools.lookup ⟨1⟩).any fun e' ↦
          decide (e'.descriptor.generation = e.descriptor.generation)) = true := by
    decide +kernel
  simp only [Option.any_eq_true, decide_eq_true_eq] at h
  obtain ⟨e, he, e', he', hgen⟩ := h
  exact ⟨e, e', he, he', hgen, (generations_identify.1 ⟨1⟩ hrun e e' he he').1 hgen⟩

end BufferFabric
