import BufferFabric.Coordinator
import Mathlib.Data.List.Nodup
import Mathlib.Logic.Relation

/-!
# Clients of a coordinator

Which connections the accept loop turns away (`accept_loop` of `coordinator.cpp`). A connection
enters the list of clients when it is accepted and leaves it only when the coordinator stops:
`serve` shuts its socket down and does not take it off the list. So the bound on concurrent
clients bounds the connections of a whole start.
-/

namespace BufferFabric

open Protocol

/-- The accepting side of a coordinator. A number stands for the socket of a connection. -/
structure Acceptor where
  config : CoordinatorConfig := {}
  started : Bool := false
  shutdownRequested : Bool := false
  rejected : UInt64 := 0
  clients : List ℕ := []
  /-- The sessions whose `serve` has not returned. -/
  serving : List ℕ := []

namespace Acceptor

def fullReply : Message :=
  respond { op := .helloAck } .boundedResourceExhausted
    (textBytes "coordinator client capacity reached") []

/-- One connection in `accept_loop`: the reply that turns it away, if any. -/
def accept (f : Acceptor) (peer : ℕ) : Option Message × Acceptor :=
  if f.config.maxClients.toNat ≤ f.clients.length then
    (some fullReply, { f with rejected := f.rejected + 1 })
  else (none, { f with clients := f.clients ++ [peer], serving := f.serving ++ [peer] })

/-- `serve` returns: the socket is shut down and stays on the list. -/
def leave (f : Acceptor) (peer : ℕ) : Acceptor := { f with serving := f.serving.erase peer }

inductive Step (f : Acceptor) : Acceptor → Prop
  | start (config : CoordinatorConfig) (hidle : f.started = false) :
      Step f { f with config := config, shutdownRequested := false, started := true }
  | startFailed (config : CoordinatorConfig) (hidle : f.started = false) :
      Step f { f with config := config }
  | connect (peer : ℕ) (hstarted : f.started = true) (hnew : peer ∉ f.clients) :
      Step f (f.accept peer).2
  | leave (peer : ℕ) (hserved : peer ∈ f.serving) : Step f (f.leave peer)
  | requestShutdown : Step f { f with shutdownRequested := true }
  /-- `stop` joins every session before it forgets the clients. -/
  | stop (hstarted : f.started = true) (hjoined : f.serving = []) :
      Step f { f with shutdownRequested := true, clients := [], started := false }

def Reached (f : Acceptor) : Prop := Relation.ReflTransGen Step {} f

/-- The sessions are clients of the present start, of which there are at most as many as the
configuration allows. -/
structure Counted (f : Acceptor) : Prop where
  distinct : f.clients.Nodup
  serving : f.serving.Sublist f.clients
  bound : f.started = true → f.clients.length ≤ f.config.maxClients.toNat
  idle : f.started = false → f.clients = []

theorem Counted.step {f g : Acceptor} (h : f.Counted) (hs : Step f g) : g.Counted := by
  cases hs with
  | start config hidle =>
      refine ⟨h.distinct, h.serving, ?_, fun hstarted ↦ absurd hstarted Bool.noConfusion⟩
      intro _
      rw [show f.clients = [] from h.idle hidle]
      exact Nat.zero_le _
  | startFailed config hidle =>
      exact ⟨h.distinct, h.serving, fun hstarted ↦ absurd (hidle.symm.trans hstarted)
        Bool.noConfusion, h.idle⟩
  | connect peer hstarted hnew =>
      unfold accept
      split
      · exact ⟨h.distinct, h.serving, h.bound, h.idle⟩
      · rename_i hroom
        refine ⟨?_, h.serving.append (List.Sublist.refl [peer]), ?_, ?_⟩
        · exact h.distinct.append (List.nodup_singleton peer)
            (List.disjoint_singleton.mpr hnew)
        · intro _
          rw [List.length_append, List.length_singleton]
          exact Nat.lt_of_not_le hroom
        · intro hidle
          exact absurd (hstarted.symm.trans hidle) Bool.noConfusion
  | leave peer hserved =>
      exact ⟨h.distinct, List.erase_sublist.trans h.serving, h.bound, h.idle⟩
  | requestShutdown => exact ⟨h.distinct, h.serving, h.bound, h.idle⟩
  | stop hstarted hjoined =>
      refine ⟨List.nodup_nil, ?_, fun hrun ↦ absurd hrun Bool.noConfusion, fun _ ↦ rfl⟩
      change f.serving.Sublist []
      rw [hjoined]

theorem Reached.counted {f : Acceptor} (h : f.Reached) : f.Counted := by
  induction h with
  | refl =>
      exact ⟨List.nodup_nil, List.Sublist.refl _, fun h ↦ absurd h Bool.noConfusion, fun _ ↦ rfl⟩
  | tail _ hs ih => exact ih.step hs

/-- A connection is turned away only when the coordinator serves as many sessions as it may,
exactly when there is room for it on the list or no client has left since the start. -/
theorem rejected_only_full_iff {f : Acceptor} (h : f.Reached) (hstarted : f.started = true)
    (peer : ℕ) :
    ((f.accept peer).1 = some fullReply → f.config.maxClients.toNat ≤ f.serving.length) ↔
      f.clients.length < f.config.maxClients.toNat ∨ ∀ p ∈ f.clients, p ∈ f.serving := by
  have hc := h.counted
  have hbound := hc.bound hstarted
  by_cases hfull : f.config.maxClients.toNat ≤ f.clients.length
  · have hreply : (f.accept peer).1 = some fullReply := by
      unfold accept
      rw [if_pos hfull]
    constructor
    · intro hserved
      right
      have hsame : f.serving = f.clients :=
        hc.serving.eq_of_length_le (hbound.trans (hserved hreply))
      intro p hp
      rw [hsame]
      exact hp
    · rintro (hroom | hall) -
      · exact absurd hfull (Nat.not_le.mpr hroom)
      · exact hfull.trans (List.subperm_of_subset hc.distinct hall).length_le
  · refine iff_of_true ?_ (.inl (Nat.lt_of_not_le hfull))
    intro hreply
    unfold accept at hreply
    rw [if_neg hfull] at hreply
    cases hreply

/-! ### A client that has left -/

def leftAlone : Acceptor :=
  { config := { maxClients := 1 }, started := true, clients := [0], serving := [] }

theorem leftAlone_reached : leftAlone.Reached := by
  have hstart : Reached { config := { maxClients := 1 }, started := true } :=
    .tail .refl (.start { maxClients := 1 } rfl)
  have hconnect := hstart.tail (.connect 0 rfl List.not_mem_nil)
  exact hconnect.tail (.leave 0 List.mem_cons_self)

theorem rejected_while_idle :
    leftAlone.Reached ∧ (leftAlone.accept 1).1 = some fullReply ∧
      ¬leftAlone.config.maxClients.toNat ≤ leftAlone.serving.length :=
  ⟨leftAlone_reached, rfl, by decide⟩

theorem rejected_only_full_iff_idle :
    ¬((leftAlone.accept 1).1 = some fullReply →
      leftAlone.config.maxClients.toNat ≤ leftAlone.serving.length) := by
  rw [rejected_only_full_iff leftAlone_reached rfl 1]
  decide

end Acceptor

end BufferFabric
