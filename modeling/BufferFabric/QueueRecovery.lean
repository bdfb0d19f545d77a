import BufferFabric.Images

/-!
# Queues across restarts

What a directory says about queues and their names, next to the tables of the instance that
writes it. `remove_pool` drops the retired queues of the pool from memory and writes no record
of it, so that a directory can name more queues than are registered, and never fewer.
-/

namespace BufferFabric

open Outcome

/-! ### The queues of a directory -/

def JournalRecord.queues : JournalRecord → List QueueDescriptor
  | .queueUpsert q => [q]
  | _ => []

def Disk.queues (d : Disk) : List QueueDescriptor :=
  ((d.snapshot.map Image.queues).getD []) ++ d.journal.flatMap JournalRecord.queues

/-- No record of the journal retires a queue by its id alone: retirements are written as the
whole queue. -/
def Disk.Plain (d : Disk) : Prop := ∀ r ∈ d.journal, ∀ k, r ≠ .queueRetired k

theorem View.apply_queues {record : JournalRecord} (h : ∀ k, record ≠ .queueRetired k) (v : View) :
    (v.apply record).queues = Table.overlay QueueDescriptor.id record.queues v.queues := by
  cases record with
  | queueUpsert q => rfl
  | queueRetired k => exact absurd rfl (h k)
  | _ => rfl

theorem View.foldl_queues {records : List JournalRecord}
    (h : ∀ r ∈ records, ∀ k, r ≠ .queueRetired k) (v : View) :
    (records.foldl View.apply v).queues =
      Table.overlay QueueDescriptor.id (records.flatMap JournalRecord.queues) v.queues := by
  induction records generalizing v with
  | nil => rfl
  | cons r records ih =>
      rw [List.foldl_cons, ih fun r' hr' ↦ h r' (List.mem_cons_of_mem _ hr'),
        View.apply_queues (h r List.mem_cons_self), List.flatMap_cons, Table.overlay_append]

/-- The queues that are loaded from a directory. -/
theorem Disk.view_queues {d : Disk} (h : d.Plain) (v : View) :
    (d.view v).queues = Table.overlay QueueDescriptor.id d.queues v.queues := by
  unfold Disk.view Disk.queues
  rw [View.foldl_queues h, Table.overlay_append]
  cases d.snapshot with
  | none => rfl
  | some i => rfl

namespace Impl

variable {s t : Impl}

def loadNames (names : Table Name QueueId) (queues : List QueueDescriptor) :
    Table Name QueueId :=
  queues.foldl (fun names q ↦ names.insert q.name q.id) names

theorem lookup_loadNames (queues : List QueueDescriptor) (n : Name) :
    (loadNames ∅ queues).lookup n =
      (Table.overlay QueueDescriptor.name queues (fun _ ↦ none) n).map QueueDescriptor.id := by
  have key : ∀ (names : Table Name QueueId) (f : Name → Option QueueDescriptor),
      (∀ n, names.lookup n = (f n).map QueueDescriptor.id) →
      (loadNames names queues).lookup n =
        (Table.overlay QueueDescriptor.name queues f n).map QueueDescriptor.id := by
    induction queues with
    | nil => exact fun names f h ↦ h n
    | cons q queues ih =>
        intro names f h
        refine ih (names.insert q.name q.id) (Function.update f q.name (some q)) ?_
        intro m
        rw [Table.lookup_insert_eq, Function.update_apply]
        split
        · rfl
        · exact h m
  exact key ∅ _ fun _ ↦ rfl

theorem applyRecord_queueNames {record : JournalRecord} {u : Unit}
    (h : s.applyRecord record = (.ok u, t)) :
    t.queueNames = loadNames s.queueNames record.queues := by
  cases record with
  | epochAdvance e b =>
      obtain ⟨-, rfl⟩ := Prod.mk.inj h
      unfold JournalRecord.queues loadNames
      split_ifs
      all_goals rfl
  | poolUpsert | policyUpsert | poolRemoved | queueRetired | allocation =>
      unfold applyRecord at h
      dsimp only at h
      split at h
      all_goals cases h
      all_goals rfl
  | _ =>
      obtain ⟨-, rfl⟩ := Prod.mk.inj h
      rfl

theorem replay_queueNames {records : List JournalRecord} {u : Unit}
    (h : replay records s = (.ok u, t)) :
    t.queueNames = loadNames s.queueNames (records.flatMap JournalRecord.queues) := by
  induction records generalizing s with
  | nil =>
      obtain ⟨-, rfl⟩ := Prod.mk.inj h
      rfl
  | cons r records ih =>
      unfold replay at h
      split at h
      · cases h
      · rename_i v m hm
        rw [ih h, applyRecord_queueNames hm, List.flatMap_cons, loadNames, loadNames, loadNames,
          List.foldl_append]

theorem queueNames_loadImage (s : Impl) (i : Image) :
    (s.loadImage i).queueNames = loadNames s.queueNames i.queues := by
  have hqueues : ∀ (l : List QueueDescriptor) (m : Impl),
      (l.foldl restoreQueue m).queueNames = loadNames m.queueNames l := by
    intro l
    induction l with
    | nil => exact fun m ↦ rfl
    | cons q l ih => exact fun m ↦ ih (m.restoreQueue q)
  unfold loadImage
  refine (foldl_frame queueNames ?_ _ _).trans ?_
  · exact fun _ _ ↦ rfl
  refine (foldl_frame queueNames ?_ _ _).trans ?_
  · exact fun _ _ ↦ rfl
  refine (foldl_frame queueNames ?_ _ _).trans ?_
  · exact fun _ _ ↦ rfl
  refine (foldl_frame queueNames ?_ _ _).trans ?_
  · exact fun _ _ ↦ rfl
  rw [hqueues]
  refine congrArg (loadNames · i.queues) ?_
  refine (foldl_frame queueNames ?_ _ _).trans ?_
  · exact fun _ _ ↦ rfl
  refine foldl_frame queueNames ?_ _ _
  exact fun _ _ ↦ rfl

/-- The index of names after the directory was read. -/
theorem loadFromStore_queueNames {u : Unit} (h : s.loadFromStore = (.ok u, t)) :
    t.queueNames = loadNames s.queueNames s.store.disk.queues := by
  obtain ⟨-, m, n, hsnap, hreplay, rfl⟩ := loadFromStore_ok h
  have hm : m.store.disk = s.store.disk ∧ m.queueNames =
      loadNames s.queueNames ((s.store.disk.snapshot.map Image.queues).getD []) := by
    unfold loadSnapshot at hsnap
    cases hd : s.store.disk.snapshot with
    | none =>
        rw [hd] at hsnap
        obtain ⟨-, rfl⟩ := Prod.mk.inj hsnap
        exact ⟨rfl, rfl⟩
    | some i =>
        rw [hd] at hsnap
        obtain ⟨-, rfl⟩ := applySnapshot_ok.mp hsnap
        exact ⟨congrArg DurableStore.disk (s.loadImage_spec i).2.1, queueNames_loadImage s i⟩
  have hn : n.recoveredFrom.settleRecovered.queueNames = n.queueNames := rfl
  rw [hn, replay_queueNames hreplay, hm.1, hm.2]
  exact (List.foldl_append ..).symm

end Impl

/-! ### The queues in memory -/

/-- Queues are stored under their ids, and the index of names has exactly their names. -/
structure QueueIndex (queues : QueueId → Option QueueDescriptor)
    (names : Name → Option QueueId) : Prop where
  keyed : ∀ k q, queues k = some q → q.id = k
  named : ∀ n k, names n = some k ↔ ∃ q, queues k = some q ∧ q.name = n

namespace QueueIndex

variable {queues queues' : QueueId → Option QueueDescriptor} {names names' : Name → Option QueueId}

/-- Two registered queues do not share a name. -/
theorem eq_of_name (h : QueueIndex queues names) {k k' : QueueId} {q q' : QueueDescriptor}
    (hq : queues k = some q) (hq' : queues k' = some q') (hname : q.name = q'.name) : q = q' := by
  have hk := (h.named q.name k).mpr ⟨q, hq, rfl⟩
  have hk' := (h.named q.name k').mpr ⟨q', hq', hname.symm⟩
  obtain rfl := Option.some.inj (hk.symm.trans hk')
  exact Option.some.inj (hq.symm.trans hq')

/-- A new queue under a free name. -/
theorem register (h : QueueIndex queues names) {q : QueueDescriptor} (hnew : queues q.id = none)
    (hname : names q.name = none) :
    QueueIndex (Function.update queues q.id (some q))
      (Function.update names q.name (some q.id)) := by
  refine ⟨fun k q' hq' ↦ ?_, fun n k ↦ ?_⟩
  · rcases View.update_cases hq' with ⟨rfl, heq⟩ | ⟨-, hq'⟩
    · rw [← Option.some.inj heq]
    · exact h.keyed k q' hq'
  · rw [Function.update_apply, Function.update_apply]
    constructor
    · intro hk
      split at hk
      · rename_i hn
        obtain rfl := Option.some.inj hk
        exact ⟨q, if_pos rfl, hn.symm⟩
      · obtain ⟨q', hq', hn⟩ := (h.named n k).mp hk
        have hne : k ≠ q.id := by
          rintro rfl
          rw [hnew] at hq'
          cases hq'
        exact ⟨q', by rw [if_neg hne]; exact hq', hn⟩
    · rintro ⟨q', hq', rfl⟩
      split at hq'
      · rename_i hk
        obtain rfl := Option.some.inj hq'
        rw [if_pos rfl, hk]
      · have hn := (h.named q'.name k).mpr ⟨q', hq', rfl⟩
        have hne : q'.name ≠ q.name := by
          intro heq
          rw [heq, hname] at hn
          cases hn
        rw [if_neg hne]
        exact hn

/-- A queue is replaced by one with its id and its name. -/
theorem replace (h : QueueIndex queues names) {k : QueueId} {d q : QueueDescriptor}
    (hd : queues k = some d) (hid : q.id = d.id) (hname : q.name = d.name) :
    QueueIndex (Function.update queues k (some q)) names := by
  refine ⟨fun k' q' hq' ↦ ?_, fun n k' ↦ (h.named n k').trans ?_⟩
  · rcases View.update_cases hq' with ⟨rfl, heq⟩ | ⟨-, hq'⟩
    · rw [← Option.some.inj heq, hid]
      exact h.keyed _ d hd
    · exact h.keyed k' q' hq'
  · rw [Function.update_apply]
    split
    · rename_i hk
      rw [hk, hd]
      constructor
      · rintro ⟨q', hq', hn⟩
        obtain rfl := Option.some.inj hq'
        exact ⟨q, rfl, hname.trans hn⟩
      · rintro ⟨q', hq', hn⟩
        obtain rfl := Option.some.inj hq'
        exact ⟨d, rfl, hname.symm.trans hn⟩
    · exact Iff.rfl

end QueueIndex

def Impl.QueuesIndexed (s : Impl) : Prop := QueueIndex s.queues.lookup s.queueNames.lookup

theorem lookup_foldl_erase (l : List (QueueId × QueueDescriptor)) (names : Table Name QueueId)
    (n : Name) :
    (l.foldl (fun names e ↦ names.erase e.2.name) names).lookup n =
      if ∃ e ∈ l, e.2.name = n then none else names.lookup n := by
  induction l generalizing names with
  | nil => simp
  | cons e l ih =>
      rw [List.foldl_cons, ih, Table.lookup_erase_eq]
      by_cases hl : ∃ e ∈ l, e.2.name = n
      · rw [if_pos hl, if_pos]
        obtain ⟨e', he', hn⟩ := hl
        exact ⟨e', List.mem_cons_of_mem _ he', hn⟩
      · rw [if_neg hl]
        by_cases hn : n = e.2.name
        · rw [if_pos hn, if_pos ⟨e, List.mem_cons_self, hn.symm⟩]
        · rw [if_neg hn, if_neg]
          rintro ⟨e', he', hn'⟩
          rcases List.mem_cons.mp he' with rfl | he'
          · exact hn hn'.symm
          · exact hl ⟨e', he', hn'⟩

/-- Dropping the retired queues of a pool drops their names, and nothing else. -/
theorem Impl.QueuesIndexed.dropRetired {s : Impl} (h : s.QueuesIndexed) (key : PoolId) :
    (s.dropRetiredQueues key).QueuesIndexed ∧
      (∀ k q, (s.dropRetiredQueues key).queues.lookup k = some q → s.queues.lookup k = some q) ∧
      ∀ n k, (s.dropRetiredQueues key).queueNames.lookup n = some k →
        s.queueNames.lookup n = some k := by
  have hqueues : ∀ k q, (s.dropRetiredQueues key).queues.lookup k = some q ↔
      s.queues.lookup k = some q ∧ ¬(q.pool = key ∧ q.retired = true) := by
    intro k q
    unfold Impl.dropRetiredQueues
    rw [Table.lookup_filterValues, Option.filter_eq_some_iff, Bool.not_eq_true', Bool.and_eq_false_iff,
      not_and_or, decide_eq_false_iff_not, Bool.not_eq_true]
  have hdropped : ∀ n, (∃ e ∈ s.queues.toList.filter fun e ↦
        decide (e.2.pool = key) && e.2.retired, e.2.name = n) ↔
      ∃ k q, s.queues.lookup k = some q ∧ (q.pool = key ∧ q.retired = true) ∧ q.name = n := by
    intro n
    constructor
    · rintro ⟨⟨k, q⟩, he, hn⟩
      obtain ⟨hmem, hp⟩ := List.mem_filter.mp he
      exact ⟨k, q, Table.mem_toList.mp hmem, by simpa using hp, hn⟩
    · rintro ⟨k, q, hq, hp, hn⟩
      exact ⟨(k, q), List.mem_filter.mpr ⟨Table.mem_toList.mpr hq, by simpa using hp⟩, hn⟩
  have hnames : ∀ n k, (s.dropRetiredQueues key).queueNames.lookup n = some k ↔
      s.queueNames.lookup n = some k ∧
        ¬∃ k q, s.queues.lookup k = some q ∧ (q.pool = key ∧ q.retired = true) ∧ q.name = n := by
    intro n k
    unfold Impl.dropRetiredQueues
    rw [lookup_foldl_erase, ← hdropped]
    split
    · rename_i hex
      exact iff_of_false (Option.some_ne_none k).symm fun hk ↦ hk.2 hex
    · rename_i hex
      exact ⟨fun hk ↦ ⟨hk, hex⟩, And.left⟩
  refine ⟨⟨fun k q hq ↦ h.keyed k q ((hqueues k q).mp hq).1, fun n k ↦ (hnames n k).trans ?_⟩,
    fun k q hq ↦ ((hqueues k q).mp hq).1, fun n k hk ↦ ((hnames n k).mp hk).1⟩
  constructor
  · rintro ⟨hk, hno⟩
    obtain ⟨q, hq, rfl⟩ := (h.named n k).mp hk
    exact ⟨q, (hqueues k q).mpr ⟨hq, fun hp ↦ hno ⟨k, q, hq, hp, rfl⟩⟩, rfl⟩
  · rintro ⟨q, hq, rfl⟩
    obtain ⟨hq, hkept⟩ := (hqueues k q).mp hq
    refine ⟨(h.named _ k).mpr ⟨q, hq, rfl⟩, ?_⟩
    rintro ⟨k', q', hq', hp, hn⟩
    rw [h.eq_of_name hq' hq hn] at hp
    exact hkept hp

/-- What a change does to the queues: they keep their index, what its record writes is what is
registered afterwards, and nothing else is new. -/
theorem Change.queues {s m : Impl} {l : Label} {record : Option JournalRecord}
    (h : Change s l record m) (hs : s.QueuesIndexed) :
    m.QueuesIndexed ∧ (∀ r, record = some r → ∀ k, r ≠ .queueRetired k) ∧
      (∀ q ∈ (record.map JournalRecord.queues).getD [],
        m.queues.lookup q.id = some q ∧ m.queueNames.lookup q.name = some q.id) ∧
      (∀ k q, m.queues.lookup k = some q → s.queues.lookup k = some q ∨
        ∃ q' ∈ (record.map JournalRecord.queues).getD [], q'.id = k) ∧
      ∀ n k, m.queueNames.lookup n = some k → s.queueNames.lookup n = some k ∨
        ∃ q' ∈ (record.map JournalRecord.queues).getD [], q'.name = n := by
  have hreplace : ∀ {key : QueueId} {d q : QueueDescriptor} {n : Impl},
      s.queues.lookup key = some d → q.id = d.id → q.name = d.name →
      n.queues = s.queues.insert key q → n.queueNames = s.queueNames →
      n.QueuesIndexed ∧ (∀ q' ∈ [q],
        n.queues.lookup q'.id = some q' ∧ n.queueNames.lookup q'.name = some q'.id) ∧
      (∀ k q', n.queues.lookup k = some q' → s.queues.lookup k = some q' ∨ ∃ q' ∈ [q], q'.id = k) ∧
      ∀ m k, n.queueNames.lookup m = some k → s.queueNames.lookup m = some k ∨
        ∃ q' ∈ [q], q'.name = m := by
    intro key d q n hd hid hname hqueues hnames
    have hkey : q.id = key := hid.trans (hs.keyed key d hd)
    unfold Impl.QueuesIndexed
    rw [hqueues, hnames, Table.lookup_insert_update]
    refine ⟨hs.replace hd hid hname, ?_, ?_, fun m k hk ↦ .inl hk⟩
    · intro q' hq'
      obtain rfl := List.mem_singleton.mp hq'
      rw [hkey, AList.lookup_insert, hname]
      exact ⟨rfl, (hs.named _ _).mpr ⟨d, hd, rfl⟩⟩
    · intro k q' hq'
      rcases lookup_insert_cases hq' with ⟨rfl, -⟩ | ⟨-, hq'⟩
      · exact .inr ⟨q, List.mem_singleton_self q, hkey⟩
      · exact .inl hq'
  have hkeep : m.queues = s.queues → m.queueNames = s.queueNames →
      (record.map JournalRecord.queues).getD [] = [] →
      m.QueuesIndexed ∧ (∀ q ∈ (record.map JournalRecord.queues).getD [],
        m.queues.lookup q.id = some q ∧ m.queueNames.lookup q.name = some q.id) ∧
      (∀ k q, m.queues.lookup k = some q → s.queues.lookup k = some q ∨
        ∃ q' ∈ (record.map JournalRecord.queues).getD [], q'.id = k) ∧
      ∀ n k, m.queueNames.lookup n = some k → s.queueNames.lookup n = some k ∨
        ∃ q' ∈ (record.map JournalRecord.queues).getD [], q'.name = n := by
    intro hqueues hnames hnone
    unfold Impl.QueuesIndexed
    rw [hqueues, hnames, hnone]
    exact ⟨hs, by simp, fun k q hq ↦ .inl hq, fun n k hk ↦ .inl hk⟩
  cases h with
  | dropQueues key hgone =>
      obtain ⟨hindexed, hqueues, hnames⟩ := hs.dropRetired key
      exact ⟨hindexed, by simp, by simp, fun k q hq ↦ .inl (hqueues k q hq),
        fun n k hk ↦ .inl (hnames n k hk)⟩
  | queue key q names hkey =>
      refine and_left_comm.mp ⟨by simp, ?_⟩
      cases hkey with
      | registered hkey hid hnew hname hpool hnames =>
          subst hkey hnames
          unfold Impl.QueuesIndexed
          rw [Table.lookup_insert_update, Table.lookup_insert_update]
          refine ⟨hs.register hnew hname, ?_, ?_, ?_⟩
          · intro q' hq'
            obtain rfl := List.mem_singleton.mp hq'
            exact ⟨AList.lookup_insert _, AList.lookup_insert _⟩
          · intro k q' hq'
            rcases lookup_insert_cases hq' with ⟨rfl, -⟩ | ⟨-, hq'⟩
            · exact .inr ⟨q, List.mem_singleton_self q, rfl⟩
            · exact .inl hq'
          · intro n k hk
            rcases lookup_insert_cases hk with ⟨rfl, -⟩ | ⟨-, hk⟩
            · exact .inr ⟨q, List.mem_singleton_self q, rfl⟩
            · exact .inl hk
      | updated hl hq hnames => exact hreplace hl (by rw [hq]) (by rw [hq]) rfl hnames
      | moved hl hq hfree hpool hnames => exact hreplace hl (by rw [hq]) (by rw [hq]) rfl hnames
  | retire key d generation hl =>
      exact and_left_comm.mp ⟨by simp, hreplace hl rfl rfl rfl rfl⟩
  | attempt a =>
      refine and_left_comm.mp ⟨by simp, ?_⟩
      obtain ⟨order, attempts, ha⟩ := s.recordAttempt_frame a
      exact hkeep (by rw [ha]) (by rw [ha]) rfl
  | _ => exact and_left_comm.mp ⟨by simp, hkeep rfl rfl rfl⟩

/-! ### Queues on disk -/

/-- Every registered queue and every name in use can be read off the directory. -/
structure Disk.Tells (d : Disk) (queues : QueueId → Option QueueDescriptor)
    (names : Name → Option QueueId) : Prop where
  plain : d.Plain
  ids : Table.Tells QueueDescriptor.id (fun q ↦ q) d.queues queues
  names : Table.Tells QueueDescriptor.name QueueDescriptor.id d.queues names

section Images

variable {j : Impl} {queues : QueueId → Option QueueDescriptor} {names : Name → Option QueueId}

/-- A snapshot lists the registered queues. -/
theorem Impl.mem_image_queues (hs : QueueIndex queues names) (hj : j.queues.lookup = queues)
    (q : QueueDescriptor) : q ∈ j.image.queues ↔ queues q.id = some q := by
  constructor
  · intro hq
    obtain ⟨⟨k, q'⟩, he, rfl⟩ := List.mem_map.mp hq
    have hk : queues k = some q' := (congrFun hj k).symm.trans (Table.mem_toList.mp he)
    dsimp only
    rw [hs.keyed k q' hk]
    exact hk
  · intro hq
    have hq : j.queues.lookup q.id = some q := (congrFun hj q.id).trans hq
    exact List.mem_map.mpr ⟨(q.id, q), Table.mem_toList.mpr hq, rfl⟩

/-- A snapshot of an instance with indexed queues tells them. -/
theorem Impl.image_tells (hs : QueueIndex queues names) (hj : j.queues.lookup = queues) :
    Table.Tells QueueDescriptor.id (fun q ↦ q) j.image.queues queues ∧
      Table.Tells QueueDescriptor.name QueueDescriptor.id j.image.queues names := by
  have hlisted := Impl.mem_image_queues hs hj
  constructor
  · intro k q hq
    obtain rfl := hs.keyed k q hq
    rw [Table.overlay_of_mem ((hlisted q).mpr hq), Option.map_some]
    intro q' hq' hid
    have hq' := (hlisted q').mp hq'
    rw [hid] at hq'
    exact Option.some.inj (hq'.symm.trans hq)
  · intro n k hk
    obtain ⟨q, hq, rfl⟩ := (hs.named n k).mp hk
    obtain rfl := hs.keyed k q hq
    rw [Table.overlay_of_mem ((hlisted q).mpr hq), Option.map_some]
    intro q' hq' hname
    exact hs.eq_of_name ((hlisted q').mp hq') hq hname

end Images

namespace Disk.Tells

variable {d : Disk} {queues queues' : QueueId → Option QueueDescriptor}
  {names names' : Name → Option QueueId}

/-- A record that writes what is registered afterwards. -/
theorem append (h : d.Tells queues names) (record : JournalRecord)
    (hplain : ∀ k, record ≠ .queueRetired k)
    (hnew : ∀ q ∈ record.queues, queues' q.id = some q ∧ names' q.name = some q.id)
    (hqueues : ∀ k q, queues' k = some q → queues k = some q ∨ ∃ q' ∈ record.queues, q'.id = k)
    (hnames : ∀ n k, names' n = some k → names n = some k ∨ ∃ q' ∈ record.queues, q'.name = n) :
    ({ d with journal := d.journal ++ [record] } : Disk).Tells queues' names' := by
  have hlist : ({ d with journal := d.journal ++ [record] } : Disk).queues =
      d.queues ++ record.queues := by
    unfold Disk.queues
    rw [List.flatMap_append, List.flatMap_singleton, List.append_assoc]
  refine ⟨?_, ?_, ?_⟩
  · intro r hr k
    rcases List.mem_append.mp hr with hr | hr
    · exact h.plain r hr k
    · rw [List.mem_singleton.mp hr]
      exact hplain k
  · rw [hlist]
    exact h.ids.append (fun q hq ↦ (hnew q hq).1) hqueues
  · rw [hlist]
    exact h.names.append (fun q hq ↦ (hnew q hq).2) hnames

/-- A directory that holds a snapshot of the registered queues, and no journal. -/
theorem of_snapshot {j : Impl} (hs : QueueIndex queues names) (hj : j.queues.lookup = queues) :
    ({ snapshot := some j.image, journal := [] } : Disk).Tells queues names := by
  obtain ⟨hids, hnames⟩ := Impl.image_tells hs hj
  have hlist : ({ snapshot := some j.image, journal := [] } : Disk).queues = j.image.queues :=
    List.append_nil _
  refine ⟨fun r hr ↦ absurd hr List.not_mem_nil, ?_, ?_⟩
  · rw [hlist]
    exact hids
  · rw [hlist]
    exact hnames

/-- A snapshot of the registered queues takes the place of the one before, with or without the
journal after it. -/
theorem replaced {j : Impl} (hs : QueueIndex queues names) (hj : j.queues.lookup = queues)
    (h : d.Tells queues names) {d' : Disk} (hd : Disk.Replaced j.image d d') :
    d'.Tells queues names := by
  cases hd with
  | same => exact h
  | replaced =>
      obtain ⟨hids, hnames⟩ := Impl.image_tells hs hj
      exact ⟨h.plain, Table.Tells.replace hids h.ids, Table.Tells.replace hnames h.names⟩
  | compacted => exact .of_snapshot hs hj

end Disk.Tells

structure Impl.QueuesKept (s : Impl) : Prop where
  indexed : s.QueuesIndexed
  told : s.store.disk.Tells s.queues.lookup s.queueNames.lookup

/-- A record is journaled for a change from `s` to `m`, by an instance with the queues of one
of the two. -/
theorem Impl.QueuesKept.journal {s m j u : Impl} {record : JournalRecord} (hs : s.QueuesKept)
    (hm : m.QueuesIndexed) (hstore : j.store = s.store) (hmode : s.store.config.mode ≠ .none)
    (hj : j.journal record = (.ok (), u))
    (hview : j.queues.lookup = s.queues.lookup ∨ j.queues.lookup = m.queues.lookup)
    (hplain : ∀ k, record ≠ .queueRetired k)
    (hnew : ∀ q ∈ record.queues,
      m.queues.lookup q.id = some q ∧ m.queueNames.lookup q.name = some q.id)
    (hqueues : ∀ k q, m.queues.lookup k = some q → s.queues.lookup k = some q ∨
      ∃ q' ∈ record.queues, q'.id = k)
    (hnames : ∀ n k, m.queueNames.lookup n = some k → s.queueNames.lookup n = some k ∨
      ∃ q' ∈ record.queues, q'.name = n) :
    ({ m with store := u.store } : Impl).QueuesKept := by
  refine ⟨hm, ?_⟩
  change u.store.disk.Tells m.queues.lookup m.queueNames.lookup
  have hkept : ∀ {d : Disk}, d.Tells s.queues.lookup s.queueNames.lookup →
      ({ d with journal := d.journal ++ [record] } : Disk).Tells m.queues.lookup
        m.queueNames.lookup :=
    fun h ↦ h.append record hplain hnew hqueues hnames
  have hdone : ∀ {d : Disk}, d.Tells m.queues.lookup m.queueNames.lookup →
      ({ d with journal := d.journal ++ [record] } : Disk).Tells m.queues.lookup
        m.queueNames.lookup :=
    fun h ↦ h.append record hplain hnew (fun _ _ hq ↦ .inl hq) fun _ _ hk ↦ .inl hk
  rcases Impl.journal_disk hj (by rw [hstore]; exact hmode) with hd | hd
  · rw [hd, hstore]
    exact hkept hs.told
  · rw [hd]
    rcases hview with hview | hview
    · exact hkept (.of_snapshot hs.indexed hview)
    · exact hdone (.of_snapshot hm hview)

/-- A journaled move keeps the queues on disk. -/
theorem Move.queuesKept {s t : Impl} {a : Label × Bool} (h : Move s a t) (ha : Journaled a)
    (hw : s.Writing) (hs : s.QueuesKept) : t.QueuesKept := by
  cases h with
  | volatile h =>
      obtain ⟨hm, -, -, hqueues, hnames⟩ := h.queues hs.indexed
      refine ⟨hm, ?_⟩
      rw [h.frame.1]
      refine ⟨hs.told.plain, hs.told.ids.mono fun k q hq ↦ ?_,
        hs.told.names.mono fun n k hk ↦ ?_⟩
      · exact (hqueues k q hq).resolve_right (by simp)
      · exact (hnames n k hk).resolve_right (by simp)
  | @written _ record m j u h hstore hview hj hnotes =>
      obtain ⟨hm, hplain, hnew, hqueues, hnames⟩ := h.queues hs.indexed
      exact hs.journal hm hstore hw.2 hj
        (hview.imp (congrArg View.queues) (congrArg View.queues)) (hplain record rfl) hnew hqueues
        hnames
  | unlogged h =>
      rcases ha with ha | ha
      · cases ha
      · cases ha
        cases h
  | refused => exact absurd ha (by simp [Journaled])
  | lostRelease => exact absurd ha (by simp [Journaled])
  | snapshot h =>
      have hdisk := (Impl.writeFullSnapshot_disk h).2
      obtain ⟨st, hst, -, -⟩ := s.writeFullSnapshot_spec
      rw [h] at hst
      simp only at hst
      subst hst
      exact ⟨hs.indexed, hs.told.replaced hs.indexed rfl hdisk⟩

/-! ### Pools of queues -/

def View.Placed (v : View) : Prop := ∀ k q, v.queues k = some q → v.pools q.pool ≠ none

/-- A change that removes no pool keeps the queues placed. -/
theorem Change.placed {s m : Impl} {l : Label} {record : Option JournalRecord}
    (h : Change s l record m) (hk : s.view.Keyed) (hl : ∀ key, l ≠ .removePool key)
    (hs : s.view.Placed) : m.view.Placed := by
  have hpools : ∀ p, s.view.pools p ≠ none → m.view.pools p ≠ none := by
    intro p hp
    rw [← (h.sameTopology hk).pools]
    cases record with
    | none => exact hp
    | some record =>
        cases record with
        | poolUpsert d g =>
            change Function.update s.view.pools d.id (some (d, g)) p ≠ none
            rw [Function.update_apply]
            split
            · exact Option.some_ne_none _
            · exact hp
        | poolRemoved key =>
            cases h
            exact absurd rfl (hl key)
        | _ => exact hp
  have hplaced : ∀ {q : QueueDescriptor}, (s.pools.lookup q.pool).isSome = true →
      m.view.pools q.pool ≠ none := by
    intro q hq
    obtain ⟨e, he⟩ := Option.isSome_iff_exists.mp hq
    refine hpools q.pool ?_
    simp only [Impl.view, he, Option.map_some]
    exact Option.some_ne_none _
  have hinsert : ∀ {key : QueueId} {q : QueueDescriptor}, m.view.pools q.pool ≠ none →
      m.queues = s.queues.insert key q → m.view.Placed := by
    intro key q hq hqueues k q' hq'
    change m.queues.lookup k = some q' at hq'
    rw [hqueues] at hq'
    rcases lookup_insert_cases hq' with ⟨-, rfl⟩ | ⟨-, hq'⟩
    · exact hq
    · exact hpools _ (hs k q' hq')
  have hkeep : m.queues = s.queues → m.view.Placed := by
    intro hqueues k q hq
    change m.queues.lookup k = some q at hq
    rw [hqueues] at hq
    exact hpools _ (hs k q hq)
  cases h with
  | dropQueues key hgone =>
      intro k q hq
      change (s.queues.filterValues _).lookup k = some q at hq
      rw [Table.lookup_filterValues, Option.filter_eq_some_iff] at hq
      exact hs k q hq.1
  | queue key q names hkey =>
      cases hkey with
      | registered hkey hid hnew hname hpool => exact hinsert (hplaced hpool) rfl
      | @updated d _ _ hl' hq =>
          have hpool : q.pool = d.pool := by rw [hq]
          exact hinsert (hpool ▸ hpools _ (hs key d hl')) rfl
      | moved hl' hq hfree hpool =>
          subst hq
          exact hinsert (hplaced hpool) rfl
  | retire key d generation hl' =>
      have hpool := hpools d.pool (hs key d hl')
      exact hinsert (q := { d with retired := true, generation := generation }) hpool rfl
  | attempt a =>
      obtain ⟨order, attempts, ha⟩ := s.recordAttempt_frame a
      exact hkeep (by rw [ha])
  | _ => exact hkeep rfl

namespace Impl

theorem removePool_placed {s : Impl} (hs : s.view.Placed) (key : PoolId) (expected : Generation) :
    (s.removePool key expected).2.view.Placed := by
  unfold removePool
  split
  · exact hs
  rename_i entry hplan
  unfold planRemove at hplan
  simp only [seq_ok, requireOpen_eq_ok, requirePool_eq_ok, require_eq_ok, exists_const,
    pure_ok] at hplan
  obtain ⟨-, entry', ⟨-, hl⟩, -, hleaf, hretired, -⟩ := hplan
  split
  · rename_i e t hj
    rw [eq_of_journal hj]
    exact hs
  · rename_i u t hj
    rw [eq_of_journal hj]
    intro k q hq
    change (s.queues.filterValues fun q ↦ !(decide (q.pool = key) && q.retired)).lookup k =
      some q at hq
    rw [Table.lookup_filterValues, Option.filter_eq_some_iff] at hq
    obtain ⟨hq, hkept⟩ := hq
    have hne : q.pool ≠ key := by
      intro heq
      have hret : q.retired = true := hretired (k, q) (Table.mem_toList.mpr hq) heq
      simp [heq, hret] at hkept
    change ((s.pools.erase key).lookup q.pool).map PoolEntry.shape ≠ none
    rw [Table.lookup_erase_eq, if_neg hne]
    exact hs k q hq

/-- Every operation keeps the queues in registered pools. -/
theorem exec_placed {s : Impl} (hk : s.view.Keyed) (hs : s.view.Placed) (c : Call) :
    (s.exec c).2.view.Placed := by
  by_cases hop : ∃ key expected, c.op = .removePool key expected
  · obtain ⟨key, expected, hop⟩ := hop
    unfold exec run
    rw [hop]
    exact removePool_placed (s := s.enter c) hs key expected
  · refine ((s.exec_trace c).invariant (I := fun u ↦ u.view.Keyed ∧ u.view.Placed) ?_
      ⟨hk, hs⟩).2
    intro u a v hu ha hm
    refine ⟨hm.keyed hu.1, hm.keeps_view (fun record m hc ↦ hc.placed hu.1 ?_ hu.2) hu.2⟩
    intro key hl
    unfold Op.Allows at ha
    rw [hl] at ha
    obtain ⟨expected, heq⟩ := ha
    exact hop ⟨key, expected, heq⟩

end Impl

/-! ### Recovered queues -/

def Disk.queueMap (d : Disk) : QueueId → Option QueueDescriptor :=
  Table.overlay QueueDescriptor.id d.queues fun _ ↦ none

def Disk.nameMap (d : Disk) (n : Name) : Option QueueId :=
  (Table.overlay QueueDescriptor.name d.queues (fun _ ↦ none) n).map QueueDescriptor.id

/-- What a directory tells is what it holds, if it names nothing else. -/
theorem Disk.Tells.exact {d : Disk} {queues : QueueId → Option QueueDescriptor}
    {names : Name → Option QueueId} (h : d.Tells queues names)
    (hkeys : ∀ q ∈ d.queues, queues q.id ≠ none ∧ names q.name ≠ none) :
    d.queueMap = queues ∧ d.nameMap = names := by
  constructor
  · funext k
    have hk := h.ids.exact_of_keys (fun q hq ↦ (hkeys q hq).1) k
    rw [Option.map_id'] at hk
    exact hk
  · funext n
    exact h.names.exact_of_keys (fun q hq ↦ (hkeys q hq).2) n

/-- A directory that a new instance can be opened on: the queues it holds have their index, and
their pools. -/
structure Disk.QueuesSound (d : Disk) : Prop where
  plain : d.Plain
  indexed : QueueIndex d.queueMap d.nameMap
  placed : (d.view View.blank).Placed

namespace Disk.QueuesSound

variable {d d' : Disk}

theorem told (h : d.QueuesSound) : d.Tells d.queueMap d.nameMap := by
  refine ⟨h.plain, fun k q hq ↦ ?_, fun n k hk ↦ hk⟩
  rw [Option.map_id']
  exact hq

theorem named (q : QueueDescriptor) (hq : q ∈ d.queues) :
    d.queueMap q.id ≠ none ∧ d.nameMap q.name ≠ none := by
  refine ⟨Table.overlay_ne_none hq _, ?_⟩
  unfold Disk.nameMap
  rw [ne_eq, Option.map_eq_none_iff]
  exact Table.overlay_ne_none hq _

/-- Journaling the epoch, from an instance that has loaded the directory, leaves the queues of
the directory as they are. -/
theorem next (h : d.QueuesSound) {m : Impl} {epoch : EpochId} {boot : BootIncarnation}
    (hm : m.queues.lookup = d.queueMap)
    (hd : Disk.Next m.image (.epochAdvance epoch boot) d d') :
    d'.Plain ∧ d'.queueMap = d.queueMap ∧ d'.nameMap = d.nameMap := by
  have hlisted := Impl.mem_image_queues h.indexed hm
  have hkeys : ∀ q, q ∈ m.image.queues → d.queueMap q.id ≠ none ∧ d.nameMap q.name ≠ none := by
    intro q hq
    have hq := (hlisted q).mp hq
    have hn := (h.indexed.named q.name q.id).mpr ⟨q, hq, rfl⟩
    rw [hq, hn]
    exact ⟨Option.some_ne_none _, Option.some_ne_none _⟩
  have hreplaced : ∀ {u : Disk}, Disk.Replaced m.image d u →
      u.Tells d.queueMap d.nameMap ∧
        ∀ q ∈ u.queues, d.queueMap q.id ≠ none ∧ d.nameMap q.name ≠ none := by
    intro u hu
    refine ⟨h.told.replaced h.indexed hm hu, fun q hq ↦ ?_⟩
    cases hu with
    | same => exact named q hq
    | replaced =>
        rcases List.mem_append.mp hq with hq | hq
        · exact hkeys q hq
        · exact named q (List.mem_append_right _ hq)
    | compacted => exact hkeys q (by simpa [Disk.queues] using hq)
  have happend : ∀ {u : Disk}, Disk.Replaced m.image d u →
      ({ u with journal := u.journal ++ [.epochAdvance epoch boot] } : Disk).Plain ∧
        ({ u with journal := u.journal ++ [.epochAdvance epoch boot] } : Disk).queueMap =
          d.queueMap ∧
        ({ u with journal := u.journal ++ [.epochAdvance epoch boot] } : Disk).nameMap =
          d.nameMap := by
    intro u hu
    obtain ⟨htold, hnamed⟩ := hreplaced hu
    have hlist : ({ u with journal := u.journal ++ [.epochAdvance epoch boot] } : Disk).queues =
        u.queues := by
      unfold Disk.queues
      rw [List.flatMap_append]
      exact congrArg _ (List.append_nil _)
    have hnew := htold.append (.epochAdvance epoch boot) (fun _ ↦ by simp)
      (fun q hq ↦ absurd hq List.not_mem_nil) (fun _ _ hq ↦ .inl hq) fun _ _ hk ↦ .inl hk
    exact ⟨hnew.plain, hnew.exact fun q hq ↦ hnamed q (hlist ▸ hq)⟩
  have hkeep : ∀ {u : Disk}, Disk.Replaced m.image d u →
      u.Plain ∧ u.queueMap = d.queueMap ∧ u.nameMap = d.nameMap := by
    intro u hu
    obtain ⟨htold, hnamed⟩ := hreplaced hu
    exact ⟨htold.plain, htold.exact hnamed⟩
  cases hd with
  | same => exact hkeep .same
  | appended => exact happend .same
  | replaced => exact hkeep .replaced
  | compacted => exact hkeep .compacted
  | restarted => exact happend .compacted

end Disk.QueuesSound

structure Impl.QueuesHeld (s : Impl) : Prop where
  kept : s.QueuesKept
  placed : s.view.Placed
  writing : s.Writing
  saved : s.TopologySaved

section Opening

variable {t : Impl} {disk : Disk} {tick : Tick} {io : List Io} {config : FabricConfig}
  {boot : Impl.BootInputs}

/-- A new instance finds the queues of the directory it is opened on. -/
theorem Impl.openFabric_queues
    (h : (({} : Impl).attach disk tick io).openFabric config boot = (.ok (), t))
    (hmode : config.persistence.mode ≠ .none) (hplain : disk.Plain) :
    t.queues.lookup = disk.queueMap ∧ t.queueNames.lookup = disk.nameMap := by
  rcases Impl.openFabric_begun h hmode with ⟨⟨e, he⟩, -⟩ | ⟨m, t', res, hl, -, hj, -, -, hok⟩
  · cases he
  obtain ⟨rfl, rfl⟩ := hok rfl
  obtain ⟨-, -, hview, -⟩ := Impl.loadFromStore_view hl
  have hqueues : m.queues.lookup = (disk.view View.blank).queues := congrArg View.queues hview
  have hnames := Impl.loadFromStore_queueNames hl
  rw [Impl.eq_of_journal hj]
  constructor
  · exact hqueues.trans (Disk.view_queues hplain View.blank)
  · change m.queueNames.lookup = _
    rw [hnames]
    funext n
    exact Impl.lookup_loadNames disk.queues n

/-- An attempt to open a directory leaves its queues as they are. -/
theorem Impl.openFabric_queuesSound {r : Except Status Unit}
    (h : (({} : Impl).attach disk tick io).openFabric config boot = (r, t))
    (hmode : config.persistence.mode ≠ .none) (hs : disk.QueuesSound) :
    t.store.disk.QueuesSound ∧ t.store.disk.queueMap = disk.queueMap ∧
      t.store.disk.nameMap = disk.nameMap := by
  have htop := Impl.openFabric_keepsTopology h hmode (.inl rfl)
  have hkeep : t.store.disk.Plain ∧ t.store.disk.queueMap = disk.queueMap ∧
      t.store.disk.nameMap = disk.nameMap := by
    rcases Impl.openFabric_disks h hmode View.blank_indexed rfl (.inl rfl) with hd |
      ⟨m, hview, -, hnext⟩
    · rw [hd]
      exact ⟨hs.plain, rfl, rfl⟩
    · refine hs.next ?_ hnext
      refine (congrArg View.queues hview).trans ?_
      exact Disk.view_queues hs.plain View.blank
  obtain ⟨hplain, hqueues, hnames⟩ := hkeep
  refine ⟨⟨hplain, ?_, ?_⟩, hqueues, hnames⟩
  · rw [hqueues, hnames]
    exact hs.indexed
  · intro k q hq
    rw [htop.pools]
    refine hs.placed k q ?_
    rw [Disk.view_queues hplain] at hq
    rw [Disk.view_queues hs.plain]
    exact (congrFun hqueues k).symm.trans hq

theorem Impl.QueuesHeld.opened
    (h : (({} : Impl).attach disk tick io).openFabric config boot = (.ok (), t))
    (hmode : config.persistence.mode ≠ .none) (hs : disk.QueuesSound) : t.QueuesHeld := by
  obtain ⟨hqueues, hnames⟩ := Impl.openFabric_queues h hmode hs.plain
  obtain ⟨hsaved, hw, htop⟩ := Impl.TopologySaved.opened h hmode
  obtain ⟨hsound, hqueues', hnames'⟩ := Impl.openFabric_queuesSound h hmode hs
  refine ⟨⟨?_, ?_⟩, ?_, hw, hsaved⟩
  · unfold Impl.QueuesIndexed
    rw [hqueues, hnames]
    exact hs.indexed
  · rw [hqueues, hnames, ← hqueues', ← hnames']
    exact hsound.told
  · intro k q hq
    rw [← htop.pools]
    refine hs.placed k q ?_
    rw [Disk.view_queues hs.plain]
    exact (congrFun hqueues k).symm.trans hq

end Opening

namespace Impl

variable {s t : Impl}

theorem QueuesHeld.exec (h : s.QueuesHeld) {c : Call} (hc : JournalsOk s c) :
    (s.exec c).2.QueuesHeld := by
  have hpath := exec_journaled hc
  have hkept : (s.exec c).2.Writing ∧ (s.exec c).2.QueuesKept :=
    hpath.invariant (I := fun u ↦ u.Writing ∧ u.QueuesKept)
      (fun _ _ _ hu ha hm ↦ ⟨hm.writing hu.1, hm.queuesKept ha.2 hu.1 hu.2⟩)
      ⟨h.writing.enter c, h.kept.indexed, h.kept.told⟩
  exact ⟨hkept.2, exec_placed h.writing.1.keyed h.placed c, hkept.1, h.saved.exec h.writing hc⟩

theorem QueuesHeld.rehash (h : s.QueuesHeld) (hr : s.Rehash t) : t.QueuesHeld := by
  have hview := hr.view_eq
  have hqueues : t.queues.lookup = s.queues.lookup := congrArg View.queues hview
  have hnames : t.queueNames.lookup = s.queueNames.lookup := by
    cases hr with
    | mk hc hp hpn ho hon hq hqn =>
        funext n
        exact (hqn.lookup_eq n).symm
  have hstore : t.store = s.store := by
    cases hr
    rfl
  refine ⟨⟨?_, ?_⟩, ?_, h.writing.rehash hr, ?_⟩
  · unfold QueuesIndexed
    rw [hqueues, hnames]
    exact h.kept.indexed
  · rw [hstore, hqueues, hnames]
    exact h.kept.told
  · rw [hview]
    exact h.placed
  · unfold TopologySaved
    rw [hstore, hview]
    exact h.saved

theorem QueuesHeld.closeFabric (h : s.QueuesHeld) : s.closeFabric.QueuesHeld := by
  obtain ⟨⟨hi, ht⟩, hp, hw, hs⟩ := h
  unfold Impl.closeFabric
  split
  · exact ⟨⟨hi, ht⟩, hp, hw, hs⟩
  · exact ⟨⟨hi, ht⟩, hp, hw, hs⟩

/-- The directory names no queue that was dropped from memory: each queue it mentions is
registered under its id, and its name is in use. -/
def NoneDropped (s : Impl) : Prop :=
  ∀ q ∈ s.store.disk.queues, s.queues.lookup q.id ≠ none ∧ s.queueNames.lookup q.name ≠ none

/-- An instance that has dropped none of the queues of its directory leaves a directory with
exactly its queues. -/
theorem QueuesHeld.queuesSound (h : s.QueuesHeld) (hnone : s.NoneDropped) :
    s.store.disk.QueuesSound := by
  obtain ⟨hqueues, hnames⟩ := h.kept.told.exact hnone
  refine ⟨h.kept.told.plain, ?_, ?_⟩
  · rw [hqueues, hnames]
    exact h.kept.indexed
  · intro k q hq
    rw [h.saved.pools]
    refine h.placed k q ?_
    rw [Disk.view_queues h.kept.told.plain] at hq
    exact (congrFun hqueues k).symm.trans hq

end Impl

/-- Every append succeeds, no call is interrupted, and whoever stops has dropped no queue that
the directory names. -/
structure System.KeepsQueues (y : System) (ev : Event) : Prop where
  durable : y.Durable ev
  journals : ∀ c s, ev = .called c → y.live = some s → JournalsOk s c
  calls : ∀ c, ev ≠ .crashed c
  opens : ∀ config, ev ≠ .openCrashed config
  stops : ev = .stopped → ∀ s, y.live = some s → s.NoneDropped

/-- A directory is sound between sessions, and an instance holds its queues. -/
structure System.QueuesHeld (y : System) : Prop where
  live : ∀ s, y.live = some s → s.store.disk = y.disk ∧ s.QueuesHeld
  stopped : y.live = none → y.disk.QueuesSound

theorem System.QueuesHeld.of_live {y : System} {s : Impl} (hlive : y.live = some s)
    (hdisk : s.store.disk = y.disk) (hs : s.QueuesHeld) : y.QueuesHeld := by
  refine ⟨fun s' hs' ↦ ?_, fun hnone ↦ ?_⟩
  · obtain rfl := Option.some.inj (hlive.symm.trans hs')
    exact ⟨hdisk, hs⟩
  · rw [hlive] at hnone
    cases hnone

theorem System.QueuesHeld.of_stopped {y : System} (hlive : y.live = none)
    (hdisk : y.disk.QueuesSound) : y.QueuesHeld := by
  refine ⟨fun s hs ↦ ?_, fun _ ↦ hdisk⟩
  rw [hlive] at hs
  cases hs

theorem System.Step.queuesHeld {y y' : System} {ev : Event} (h : System.Step y ev y')
    (hev : y.KeepsQueues ev) (hy : y.QueuesHeld) : y'.QueuesHeld := by
  cases h with
  | opened hidle heq =>
      have hnone := (hev.durable _ rfl).2
      obtain ⟨hmode, rfl⟩ := hev.durable.fresh rfl hidle
      exact .of_live rfl rfl (.opened heq hmode (hy.stopped hnone))
  | openFailed hidle heq =>
      have hnone := (hev.durable _ rfl).2
      obtain ⟨hmode, rfl⟩ := hev.durable.fresh rfl hidle
      exact .of_stopped rfl (Impl.openFabric_queuesSound heq hmode (hy.stopped hnone)).1
  | openCrashed => exact absurd rfl (hev.opens _)
  | @called s c hlive hopen =>
      exact .of_live rfl rfl ((hy.live s hlive).2.exec (hev.journals c s rfl hlive))
  | crashed c => exact absurd rfl (hev.calls c)
  | @closed s hlive =>
      obtain ⟨hdisk, hs⟩ := hy.live s hlive
      exact .of_live rfl ((Impl.closeFabric_disk s).trans hdisk) hs.closeFabric
  | stopped =>
      refine .of_stopped rfl ?_
      cases hlive : y.live with
      | none => exact hy.stopped hlive
      | some s =>
          obtain ⟨hdisk, hs⟩ := hy.live s hlive
          rw [← hdisk]
          exact hs.queuesSound (hev.stops rfl s hlive)
  | @rehashed s s' hlive hr =>
      obtain ⟨hdisk, hs⟩ := hy.live s hlive
      refine .of_live rfl ?_ (hs.rehash hr)
      cases hr
      exact hdisk

theorem System.Run.queuesHeld {y : System} (h : System.Run System.KeepsQueues y) :
    y.QueuesHeld := by
  have hstep : ∀ (y : System) (ev : Event) (y' : System), y.QueuesHeld → y.KeepsQueues ev →
      System.Step y ev y' → y'.QueuesHeld := fun _ _ _ hy hev hstep ↦ hstep.queuesHeld hev hy
  refine h.invariant hstep (.of_stopped rfl ⟨fun r hr ↦ absurd hr List.not_mem_nil, ?_, ?_⟩)
  · refine ⟨by rintro k q ⟨⟩, fun n k ↦ ⟨by rintro ⟨⟩, ?_⟩⟩
    rintro ⟨q, hq, -⟩
    cases hq
  · intro k q hq
    cases hq

/-- The queues that a new instance recovers are those that were registered at the stop, in
recovered pools and with no name taken that was free, exactly if the directory names no queue
that was dropped from memory. -/
theorem queues_recovered_iff {y : System} {s t : Impl} {config : FabricConfig}
    {boot : Impl.BootInputs} {tick : Tick} {io : List Io}
    (hrun : System.Run System.KeepsQueues y) (hlive : y.live = some s)
    (hmode : config.persistence.mode = .journalSync)
    (hopen : (({} : Impl).attach y.disk tick io).openFabric config boot = (.ok (), t)) :
    ((∀ k, t.queues.lookup k = s.queues.lookup k) ∧
      (∀ k q, t.queues.lookup k = some q → (t.pools.lookup q.pool).isSome = true) ∧
      ∀ n, s.queueNames.lookup n = none → t.queueNames.lookup n = none) ↔ s.NoneDropped := by
  obtain ⟨hdisk, hs⟩ := hrun.queuesHeld.live s hlive
  have hmode : config.persistence.mode ≠ .none := by
    rw [hmode]
    decide
  rw [← hdisk] at hopen
  obtain ⟨hqueues, hnames⟩ := Impl.openFabric_queues hopen hmode hs.kept.told.plain
  constructor
  · rintro ⟨hsame, -, hfree⟩ q hq
    obtain ⟨hid, hname⟩ := Disk.QueuesSound.named q hq
    rw [← hqueues] at hid
    rw [← hnames] at hname
    exact ⟨by rw [← hsame]; exact hid, fun hn ↦ hname (hfree q.name hn)⟩
  · intro hnone
    obtain ⟨hqueues', hnames'⟩ := hs.kept.told.exact hnone
    have ht := Impl.QueuesHeld.opened hopen hmode (hs.queuesSound hnone)
    refine ⟨fun k ↦ ?_, fun k q hq ↦ ?_, fun n hn ↦ ?_⟩
    · exact (congrFun hqueues k).trans (congrFun hqueues' k)
    · have hpool := ht.placed k q hq
      simp only [Impl.view, ne_eq, Option.map_eq_none_iff] at hpool
      exact Option.isSome_iff_ne_none.mpr hpool
    · exact (congrFun hnames n).trans ((congrFun hnames' n).trans hn)

/-- Commands of one durable session in which every append succeeds. -/
def keepsQueuesCheck (y : System) : Command → Bool
  | .start config => decide (config.persistence.mode = .journalSync) && y.live.isNone
  | .call c => y.live.all fun s ↦ decide (JournalsOk s c)
  | .stop => false

theorem keepsQueuesCheck_keeps (y : System) (k : Command) (h : keepsQueuesCheck y k = true) :
    y.KeepsQueues k.event := by
  cases k with
  | start config =>
      refine ⟨durableCheck_durable y (.start config) h, ?_, ?_, ?_, ?_⟩
      all_goals simp [Command.event]
  | call c =>
      refine ⟨durableCheck_durable y (.call c) rfl, ?_, ?_, ?_, ?_⟩
      · intro c' s hc hlive
        obtain rfl := Event.called.inj hc
        simpa [keepsQueuesCheck, hlive] using h
      all_goals simp [Command.event]
  | stop => cases h

def retireScript : List Command :=
  [.start smallConfig] ++ smallSetup.map .call ++
    [.call { op := .retireQueue ⟨1⟩ ⟨0⟩ }, .call { op := .removePool ⟨1⟩ ⟨0⟩ }]

def System.reopened (y : System) : Except Status Unit × Impl :=
  (({} : Impl).attach y.disk 0 []).openFabric smallConfig {}

/-- A restart brings a queue back that was removed with its pool: it has no pool, and takes the
name that was free. -/
theorem removed_queue_recovered :
    ∃ (y : System) (s t : Impl), System.Run System.KeepsQueues y ∧ y.live = some s ∧
      y.reopened = (.ok (), t) ∧ s.queues.lookup ⟨1⟩ = none ∧
      (t.queues.lookup ⟨1⟩).map QueueDescriptor.pool = some ⟨1⟩ ∧ t.pools.lookup ⟨1⟩ = none ∧
      s.queueNames.lookup [113] = none ∧ t.queueNames.lookup [113] = some ⟨1⟩ := by
  have h : (System.script keepsQueuesCheck {} retireScript).any (fun y ↦ y.live.any fun s ↦
      decide (y.reopened.1 = .ok ()) && (s.queues.lookup ⟨1⟩).isNone &&
        decide ((y.reopened.2.queues.lookup ⟨1⟩).map QueueDescriptor.pool = some ⟨1⟩) &&
        (y.reopened.2.pools.lookup ⟨1⟩).isNone && (s.queueNames.lookup [113]).isNone &&
        decide (y.reopened.2.queueNames.lookup [113] = some ⟨1⟩)) = true := by
    decide +kernel
  obtain ⟨y, hy, h⟩ := (Option.any_eq_true _ _).mp h
  obtain ⟨s, hs, h⟩ := (Option.any_eq_true _ _).mp h
  simp only [Bool.and_eq_true, decide_eq_true_eq, Option.isNone_iff_eq_none] at h
  obtain ⟨⟨⟨⟨⟨hopen, hgone⟩, hback⟩, hpool⟩, hfree⟩, htaken⟩ := h
  exact ⟨y, s, y.reopened.2, System.Run.script keepsQueuesCheck_keeps .refl hy, hs,
    Prod.ext hopen rfl, hgone, hback, hpool, hfree, htaken⟩

/-- With a checkpoint in between the queue stays removed. -/
theorem queues_recovered_checkpointed :
    ∃ (y : System) (s t : Impl), System.Run System.KeepsQueues y ∧ y.live = some s ∧
      y.reopened = (.ok (), t) ∧ s.NoneDropped ∧ s.queues.lookup ⟨1⟩ = none ∧
      ∀ k, t.queues.lookup k = s.queues.lookup k := by
  have h : (System.script keepsQueuesCheck {} (retireScript ++ [.call { op := .checkpoint }])).any
      (fun y ↦ y.live.any fun s ↦ decide (y.reopened.1 = .ok ()) &&
        (s.queues.lookup ⟨1⟩).isNone && s.store.disk.queues.all fun q ↦
          (s.queues.lookup q.id).isSome && (s.queueNames.lookup q.name).isSome) = true := by
    decide +kernel
  obtain ⟨y, hy, h⟩ := (Option.any_eq_true _ _).mp h
  obtain ⟨s, hs, h⟩ := (Option.any_eq_true _ _).mp h
  simp only [Bool.and_eq_true, decide_eq_true_eq, Option.isNone_iff_eq_none, List.all_eq_true,
    Option.isSome_iff_ne_none] at h
  obtain ⟨⟨hopen, hgone⟩, hnone⟩ := h
  have hrun : System.Run System.KeepsQueues y := .script keepsQueuesCheck_keeps .refl hy
  have hreopened : y.reopened = (.ok (), y.reopened.2) := Prod.ext hopen rfl
  have hmode : smallConfig.persistence.mode = .journalSync := rfl
  have hall := (queues_recovered_iff hrun hs hmode hreopened).mpr hnone
  exact ⟨y, s, y.reopened.2, hrun, hs, hreopened, hnone, hgone, hall.1⟩

end BufferFabric
