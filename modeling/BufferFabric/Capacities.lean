import BufferFabric.Lib.Samples
import BufferFabric.Lifecycle
import BufferFabric.Partition

/-!
# Concurrent publications of one capacity

`set_capacity` looks its backend up under the lock, asks it with no lock held, and publishes the
answer under the lock. Calls on one resource may be between these steps at the same time, and
any other calls may come between them.
-/

namespace BufferFabric

open Outcome

/-! ### The steps of a call -/

/-- The lookup of `set_capacity`, under the lock. -/
def Impl.findBackend (s : Impl) (resource : ResourceId) (backend : BackendId) :
    Except Status BackendEntry := do
  require resource.Valid ⟨.invalidArgument, "resource id must be non-zero"⟩
  require backend.Valid ⟨.invalidArgument, "backend id must be non-zero"⟩
  s.requireOpen
  demand (s.backends.lookup backend) ⟨.unknownBackend, "backend is not attached"⟩

def judgeAnswer (programBackendEffects : Bool) (answer : BackendAnswer) :
    Except Status CapacityAuthority := do
  require answer.ready ⟨.backendNotReady, "backend is not ready; capacity is UNKNOWN"⟩
  let authority ← answer.capacity
  require authority.Usable
    ⟨.evidenceUnknown, "backend did not supply an authoritative capacity for this resource"⟩
  if programBackendEffects then
    match answer.effect with
    | .ok _ => pure authority
    | .error e => if e.code = .unsupported then pure authority else .error e
  else pure authority

/-- What a call of `set_capacity` asserts. -/
structure CapacityRequest where
  expectedRawUnits : UInt64 := 0
  expected : Generation := default

structure AnsweredRequest where
  request : CapacityRequest
  authority : CapacityAuthority

def AnsweredRequest.version (a : AnsweredRequest) : ℕ := a.authority.generation.raw.toNat

/-- A fabric, the calls on one resource and one backend that have passed their lookup, the
answers taken so far, and the generation the backend reported last. -/
structure Market where
  fabric : Impl
  looked : List CapacityRequest := []
  answers : Samples AnsweredRequest := {}
  reported : ℕ := 0

/-- The generation stored for the resource: 0 where none is published. -/
def Market.stored (z : Market) (resource : ResourceId) : ℕ :=
  ((z.fabric.capacities.lookup resource).map fun c ↦ c.generation.raw.toNat).getD 0

inductive Market.Turn where
  | looked (q : CapacityRequest)
  | answered (a : AnsweredRequest)
  | refused
  | published (a : Sample AnsweredRequest)
  | called (c : Call)
  | rehashed

def Impl.publishAnswer (s : Impl) (resource : ResourceId) (backend : BackendId) (tick : Tick)
    (io : List Io) (a : AnsweredRequest) : Outcome Generation :=
  (s.relock tick io).publishCapacity resource backend a.request.expectedRawUnits a.request.expected
    a.authority

/-- One step of a call on the resource, or a whole call of another kind. The generations the
backend reports for the resource never go down. -/
inductive Market.Step (resource : ResourceId) (backend : BackendId) (z : Market) :
    Market.Turn → Market → Prop
  | looked (q : CapacityRequest) {b : BackendEntry}
      (h : z.fabric.findBackend resource backend = .ok b) :
      Step resource backend z (.looked q) { z with looked := z.looked ++ [q] }
  | answered (q : CapacityRequest) {answer : BackendAnswer} {authority : CapacityAuthority}
      {before after : List CapacityRequest} (hlooked : z.looked = before ++ q :: after)
      (h : judgeAnswer z.fabric.config.programBackendEffects answer = .ok authority)
      (hreported : z.reported ≤ authority.generation.raw.toNat) :
      Step resource backend z (.answered ⟨q, authority⟩)
        { z with
          looked := before ++ after
          answers := z.answers.take ⟨q, authority⟩
          reported := authority.generation.raw.toNat }
  | refused {q : CapacityRequest} {before after : List CapacityRequest}
      (hlooked : z.looked = before ++ q :: after) :
      Step resource backend z .refused { z with looked := before ++ after }
  | published {a : Sample AnsweredRequest} {before after : List (Sample AnsweredRequest)}
      {g : Generation} {t : Impl} (tick : Tick) (io : List Io)
      (hwaiting : z.answers.waiting = before ++ a :: after)
      (h : z.fabric.publishAnswer resource backend tick io a.item = (.ok g, t)) :
      Step resource backend z (.published a)
        { z with fabric := t, answers := z.answers.install before a after }
  | turnedDown {a : Sample AnsweredRequest} {before after : List (Sample AnsweredRequest)}
      {e : Status} {t : Impl} (tick : Tick) (io : List Io)
      (hwaiting : z.answers.waiting = before ++ a :: after)
      (h : z.fabric.publishAnswer resource backend tick io a.item = (.error e, t)) :
      Step resource backend z .refused
        { z with fabric := t, answers := z.answers.drop before after }
  | called (c : Call)
      (hother : ∀ b raw g answer, c.op ≠ .setCapacity resource b raw g answer) :
      Step resource backend z (.called c) { z with fabric := (z.fabric.exec c).2 }
  | rehashed {t : Impl} (h : z.fabric.Rehash t) :
      Step resource backend z .rehashed { z with fabric := t }

/-- No call is overtaken: an answer is not published after a later answer with another
generation was. -/
def Market.InTurn (z : Market) : Market.Turn → Prop
  | .published a => ¬z.answers.Overtaken AnsweredRequest.version a
  | _ => True

/-! ### What the steps do to the stored generation -/

section

variable {s t : Impl} {resource : ResourceId} {backend : BackendId} {tick : Tick} {io : List Io}
  {a : AnsweredRequest}

theorem Impl.publishAnswer_ok {g : Generation}
    (h : s.publishAnswer resource backend tick io a = (.ok g, t)) :
    (t.capacities.lookup resource).map CapacityEntry.generation = some a.authority.generation := by
  unfold publishAnswer publishCapacity at h
  split at h
  · cases h
  rename_i entry hplan
  simp only [seq_ok, requireWorking_eq_ok, require_eq_ok, exists_const, pure_ok] at hplan
  obtain ⟨-, -, -, total, -, -, rfl⟩ := hplan
  split at h
  · cases h
  · obtain ⟨-, rfl⟩ := Prod.mk.inj h
    simp only
    rw [Table.lookup_insert_eq, if_pos rfl, Option.map_some]

theorem Impl.publishAnswer_error {e : Status}
    (h : s.publishAnswer resource backend tick io a = (.error e, t)) :
    t.capacities = s.capacities := by
  unfold publishAnswer publishCapacity at h
  split at h
  · obtain ⟨-, rfl⟩ := Prod.mk.inj h
    rfl
  split at h
  · rename_i hj
    obtain ⟨-, rfl⟩ := Prod.mk.inj h
    rw [eq_of_journal hj]
    rfl
  · cases h

/-- A `set_capacity` of one resource leaves the capacity of the others. -/
theorem Impl.setCapacity_lookup {r : ResourceId} {b : BackendId} {raw : UInt64} {g : Generation}
    {answer : BackendAnswer} (hr : resource ≠ r) :
    (s.setCapacity r b raw g answer).2.capacities.lookup resource =
      s.capacities.lookup resource := by
  unfold setCapacity
  split
  · rfl
  unfold publishCapacity
  split
  · rfl
  split
  · rename_i hj
    rw [eq_of_journal hj]
  · rename_i hj
    rw [eq_of_journal hj]
    exact (Table.lookup_insert_eq _ _ _ _).trans (if_neg hr)

theorem Change.capacities_eq {m : Impl} {l : Label} {record : Option JournalRecord}
    (h : Change s l record m) (hl : l ≠ .capacity) : m.view.capacities = s.view.capacities := by
  cases h with
  | attempt a =>
      obtain ⟨order, attempts, h⟩ := s.recordAttempt_frame a
      rw [h]
      rfl
  | capacity => exact absurd rfl hl
  | _ => rfl

/-- Only `set_capacity` on a resource changes its capacity. -/
theorem Impl.exec_capacity {c : Call}
    (hother : ∀ b raw g answer, c.op ≠ .setCapacity resource b raw g answer) :
    (s.exec c).2.capacities.lookup resource = s.capacities.lookup resource := by
  by_cases hset : ∃ r b raw g answer, c.op = .setCapacity r b raw g answer
  · obtain ⟨r, b, raw, g, answer, hop⟩ := hset
    have hr : resource ≠ r := by
      rintro rfl
      exact hother b raw g answer hop
    unfold exec
    rw [hop]
    exact setCapacity_lookup (s := s.enter c) hr
  · have hcaps : (s.exec c).2.view.capacities = s.view.capacities := by
      refine (s.exec_trace c).invariant
        (I := fun u ↦ u.view.capacities = s.view.capacities) ?_ rfl
      intro u x v hu hallow hm
      refine hm.keeps_view (I := fun w ↦ w.capacities = s.view.capacities) ?_ hu
      intro record m hc
      refine (hc.capacities_eq ?_).trans hu
      intro hl
      unfold Op.Allows at hallow
      rw [hl] at hallow
      exact hset hallow
    exact congrFun hcaps resource

end

/-! ### Runs -/

/-- The answers are in order, and the generation stored is the one there was at the start or
that of a published answer. -/
structure Market.Kept (resource : ResourceId) (start : ℕ) (z : Market) : Prop where
  ordered : z.answers.Ordered AnsweredRequest.version start z.reported
  shows : z.answers.Shows AnsweredRequest.version start (z.stored resource)

variable {resource : ResourceId} {backend : BackendId} {z z' : Market} {turn : Market.Turn}
  {start : ℕ}

theorem Market.stored_eq (h : z'.fabric.capacities.lookup resource =
    z.fabric.capacities.lookup resource) : z'.stored resource = z.stored resource := by
  unfold stored
  rw [h]

theorem Market.Step.kept (h : Market.Step resource backend z turn z')
    (hz : z.Kept resource start) : z'.Kept resource start := by
  obtain ⟨hordered, hshows⟩ := hz
  cases h with
  | looked q h => exact ⟨hordered, hshows⟩
  | answered q hlooked h hreported => exact ⟨hordered.take (x := ⟨q, _⟩) hreported, hshows⟩
  | refused => exact ⟨hordered, hshows⟩
  | @published a before after g t tick io hwaiting h =>
      refine ⟨hordered.install hwaiting, ?_⟩
      have hstored : Market.stored { z with
          fabric := t, answers := z.answers.install before a after } resource = a.item.version := by
        obtain ⟨c, hc, hgen⟩ := Option.map_eq_some_iff.mp (Impl.publishAnswer_ok h)
        simp only [stored, hc, Option.map_some, Option.getD_some, hgen]
        rfl
      rw [hstored]
      exact .install _ _ _ _
  | @turnedDown a before after e t tick io hwaiting h =>
      refine ⟨hordered.drop hwaiting, ?_⟩
      have hstored : Market.stored { z with
          fabric := t, answers := z.answers.drop before after } resource = z.stored resource :=
        stored_eq (by simp only [Impl.publishAnswer_error h])
      rw [hstored]
      exact hshows.of_installed fun _ hb ↦ hb
  | called c hother =>
      refine ⟨hordered, ?_⟩
      rw [stored_eq (z := z) (Impl.exec_capacity hother)]
      exact hshows
  | @rehashed t hr =>
      refine ⟨hordered, ?_⟩
      have hcaps : t.capacities.lookup resource = z.fabric.capacities.lookup resource :=
        congrFun (congrArg View.capacities hr.view_eq) resource
      rw [stored_eq (z := z) hcaps]
      exact hshows

/-- A step lowers the stored generation only by publishing an overtaken answer. -/
theorem Market.Step.stored_le (h : Market.Step resource backend z turn z')
    (hz : z.Kept resource start) (hturn : z.InTurn turn) :
    z.stored resource ≤ z'.stored resource := by
  cases h with
  | looked | answered | refused => exact le_refl _
  | @published a before after g t tick io hwaiting h =>
      have ha : z.answers.Has a := by
        refine .inl ?_
        rw [hwaiting]
        exact List.mem_append.mpr (.inr List.mem_cons_self)
      refine (hz.ordered.shown_le ha hz.shows hturn).trans_eq ?_
      obtain ⟨c, hc, hgen⟩ := Option.map_eq_some_iff.mp (Impl.publishAnswer_ok h)
      simp only [stored, hc, Option.map_some, Option.getD_some, hgen]
      rfl
  | turnedDown tick io hwaiting h => exact (stored_eq (by simp only [Impl.publishAnswer_error h])).ge
  | called c hother => exact (stored_eq (Impl.exec_capacity hother)).ge
  | @rehashed t hr =>
      have hcaps : t.capacities.lookup resource = z.fabric.capacities.lookup resource :=
        congrFun (congrArg View.capacities hr.view_eq) resource
      exact (stored_eq (z := z) hcaps).ge

/-- In every run of concurrent calls on one resource in which no answer is overtaken, the stored
generation of the resource never goes down from one moment to a later one. -/
theorem capacity_never_goes_back {z₀ z z' : Market} (hidle : z₀.answers = {})
    (hstart : z₀.stored resource ≤ z₀.reported)
    (hrun : StepPath (Market.Step resource backend) Market.InTurn z₀ z)
    (hlater : StepPath (Market.Step resource backend) Market.InTurn z z') :
    z.stored resource ≤ z'.stored resource := by
  have hkept : ∀ {y}, StepPath (Market.Step resource backend) Market.InTurn z₀ y →
      y.Kept resource (z₀.stored resource) := by
    intro y hy
    refine hy.invariant (fun _ _ _ hi _ hs ↦ hs.kept hi) ⟨?_, .inl rfl⟩
    rw [hidle]
    exact .empty hstart
  induction hlater with
  | refl => exact le_refl _
  | tail hpath hallow hstep ih =>
      exact ih.trans (hstep.stored_le (hkept (hrun.trans hpath)) hallow)

/-! ### Two calls that overlap -/

/-- Two calls that have taken their answers, and have not published them. -/
def Market.asked (z : Market) (first second : CapacityAuthority) : Market :=
  { z with
    answers := (z.answers.take ⟨{}, first⟩).take ⟨{}, second⟩
    reported := second.generation.raw.toNat }

theorem Market.asked_path {z : Market} {first second : CapacityAuthority} {b : BackendEntry}
    (hlooked : z.looked = []) (hfind : z.fabric.findBackend resource backend = .ok b)
    (heffects : z.fabric.config.programBackendEffects = false) (hfirst : first.Usable)
    (hsecond : second.Usable) (hle : z.reported ≤ first.generation.raw.toNat)
    (hle' : first.generation.raw.toNat ≤ second.generation.raw.toNat) :
    StepPath (Market.Step resource backend) Market.InTurn z (z.asked first second) := by
  have hjudge : ∀ {a : CapacityAuthority}, a.Usable →
      judgeAnswer z.fabric.config.programBackendEffects ⟨true, .ok a, .ok ()⟩ = .ok a := by
    intro a ha
    simp only [heffects, judgeAnswer, seq_ok, require_eq_ok, exists_const]
    exact ⟨trivial, a, rfl, ha, rfl⟩
  have hl₁ : Market.Step resource backend z (.looked {}) { z with looked := [{}] } := by
    have h := Market.Step.looked (z := z) {} hfind
    rwa [hlooked] at h
  have hl₂ : Market.Step resource backend { z with looked := [{}] } (.looked {})
      { z with looked := [{}, {}] } := .looked {} hfind
  have htwo : ({ z with looked := [{}, {}] } : Market).looked =
      [] ++ ({} : CapacityRequest) :: [({} : CapacityRequest)] := rfl
  have hone : ({ z with
      looked := [{}]
      answers := z.answers.take ⟨{}, first⟩
      reported := first.generation.raw.toNat } : Market).looked =
        [] ++ ({} : CapacityRequest) :: [] := rfl
  have ha₁ : Market.Step resource backend { z with looked := [{}, {}] } (.answered ⟨{}, first⟩)
      { z with
        looked := [{}]
        answers := z.answers.take ⟨{}, first⟩
        reported := first.generation.raw.toNat } :=
    .answered {} htwo (hjudge hfirst) hle
  have ha₂ : Market.Step resource backend
      { z with
        looked := [{}]
        answers := z.answers.take ⟨{}, first⟩
        reported := first.generation.raw.toNat }
      (.answered ⟨{}, second⟩) { z.asked first second with looked := [] } :=
    .answered {} hone (hjudge hsecond) hle'
  have hend : { z.asked first second with looked := [] } = z.asked first second := by
    simp only [Market.asked, hlooked]
  rw [← hend]
  exact (((StepPath.single (by trivial) hl₁).tail (by trivial) hl₂).tail (by trivial) ha₁).tail
    (by trivial) ha₂

def capacityAt (generation : UInt64) : CapacityAuthority :=
  { smallCapacity with generation := ⟨generation⟩ }

def quietMarket : Market := { fabric := smallOpened.play (smallTopology smallPolicy), reported := 1 }

def readyMarket : Market := quietMarket.asked (capacityAt 2) (capacityAt 3)

theorem readyMarket_path :
    StepPath (Market.Step ⟨1⟩ ⟨1⟩) Market.InTurn quietMarket readyMarket := by
  have hlook : (quietMarket.fabric.findBackend ⟨1⟩ ⟨1⟩).isOk = true := by decide +kernel
  have heffects : quietMarket.fabric.config.programBackendEffects = false := by decide +kernel
  rcases hb : quietMarket.fabric.findBackend ⟨1⟩ ⟨1⟩ with e | b
  · rw [hb] at hlook
    cases hlook
  · exact Market.asked_path rfl hb heffects (by decide) (by decide) (by decide) (by decide)

def answerTwo : Sample AnsweredRequest := ⟨0, {}, capacityAt 2⟩

def answerThree : Sample AnsweredRequest := ⟨1, {}, capacityAt 3⟩

def Market.publish (z : Market) (before : List (Sample AnsweredRequest))
    (a : Sample AnsweredRequest) (after : List (Sample AnsweredRequest)) : Market :=
  { z with
    fabric := (z.fabric.publishAnswer ⟨1⟩ ⟨1⟩ ⟨0⟩ [] a.item).2
    answers := z.answers.install before a after }

theorem Market.publish_step {z : Market} {before after : List (Sample AnsweredRequest)}
    {a : Sample AnsweredRequest} (hwaiting : z.answers.waiting = before ++ a :: after)
    (h : (z.fabric.publishAnswer ⟨1⟩ ⟨1⟩ ⟨0⟩ [] a.item).1.isOk = true) :
    Market.Step ⟨1⟩ ⟨1⟩ z (.published a) (z.publish before a after) := by
  rcases hp : z.fabric.publishAnswer ⟨1⟩ ⟨1⟩ ⟨0⟩ [] a.item with ⟨e | g, t⟩
  · rw [hp] at h
    cases h
  · unfold Market.publish
    rw [hp]
    exact .published ⟨0⟩ [] hwaiting hp

/-- The call that asked last publishes first: the generation goes from 3 back to 2. -/
theorem capacity_goes_back :
    ∃ z₀ z z' : Market, FreshlyOpened smallOpened ∧
      SessionRun (fun _ _ ↦ True) smallOpened z₀.fabric ∧ z₀.answers = {} ∧
      z₀.stored ⟨1⟩ ≤ z₀.reported ∧
      StepPath (Market.Step ⟨1⟩ ⟨1⟩) (fun _ _ ↦ True) z₀ z ∧
      StepPath (Market.Step ⟨1⟩ ⟨1⟩) (fun _ _ ↦ True) z z' ∧ z'.stored ⟨1⟩ < z.stored ⟨1⟩ := by
  have hrun := SessionRun.refl.play (smallOpened.admits_true (smallTopology smallPolicy))
  have hlate : Market.Step ⟨1⟩ ⟨1⟩ readyMarket _ (readyMarket.publish [answerTwo] answerThree []) :=
    Market.publish_step rfl (by decide +kernel)
  have hearly : Market.Step ⟨1⟩ ⟨1⟩ (readyMarket.publish [answerTwo] answerThree []) _
      ((readyMarket.publish [answerTwo] answerThree []).publish [] answerTwo []) :=
    Market.publish_step rfl (by decide +kernel)
  exact ⟨quietMarket, _, _, smallOpened_fresh, by simpa only [quietMarket] using hrun, rfl,
    by decide +kernel,
    (readyMarket_path.mono (by intros; trivial)).tail trivial hlate, .single trivial hearly,
    by decide +kernel⟩

/-- The calls publish in the order in which they asked. -/
theorem capacity_never_goes_back_twice :
    (readyMarket.publish [] answerTwo [answerThree]).stored ⟨1⟩ ≤
      ((readyMarket.publish [] answerTwo [answerThree]).publish [] answerThree []).stored ⟨1⟩ := by
  have hearly : Market.Step ⟨1⟩ ⟨1⟩ readyMarket _ (readyMarket.publish [] answerTwo [answerThree]) :=
    Market.publish_step rfl (by decide +kernel)
  have hlate : Market.Step ⟨1⟩ ⟨1⟩ (readyMarket.publish [] answerTwo [answerThree]) _
      ((readyMarket.publish [] answerTwo [answerThree]).publish [] answerThree []) :=
    Market.publish_step rfl (by decide +kernel)
  have hidle : quietMarket.answers = {} := rfl
  refine capacity_never_goes_back hidle (by decide +kernel)
    (readyMarket_path.tail ?_ hearly) (.single ?_ hlate)
  · rintro ⟨b, hb, -⟩
    cases hb
  · rintro ⟨b, hb, hlt, -⟩
    cases hb with
    | head => exact absurd hlt (by decide)
    | tail _ hb => cases hb

end BufferFabric
