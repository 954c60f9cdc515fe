import OS2024.Lib.Runs
import OS2024.Fat32.Mount

/-!
# Sequences of calls

A client calls the four operations in any order.  `WriteCase` and `DeleteCase` list what
a call can do to a sound file system; from them follow the invariants of whole runs.

**Results.**
* `write_cases`, `delete_cases`: every way through `write` and `delete`.
* `safe_effect`: what a safe call does to the file system.
* `safeRun_sound`: runs of safe calls stay sound.
* `safeRun_recorded`: directories know their own cluster and that of their parent.
* `wellScopedRun_sized`: files have as many clusters as their size needs.
-/

namespace OS2024
namespace Fat32

open TracedState LinkedChain SlotTree Runs

/-! ## The ways through `write` and `delete` -/

section Cases

variable {s : FileSystem} {r : FAT32DriverRequest}

theorem length_slotBuf_eq {c : UInt32} {rest : List UInt32} (hbuf : slotBuf s r = c :: rest)
    (hfree : (required r).toNat ≤ (freeClusters s.fatTable).length) :
    (c :: rest).length = (required r).toNat := by
  rw [← hbuf, List.length_take]
  omega

/-- The ways a `write` into a live directory can go. -/
inductive WriteCase (s : FileSystem) (r : FAT32DriverRequest) : Prop
  | taken (hm : ¬ NoMatch (s.parentTable r) r.key)
      (run : write r s = ⟨.ok 1, s, parentReadEvents r⟩)
  | full (hm : NoMatch (s.parentTable r) r.key) (hfull : Full (s.parentTable r))
      (run : write r s = ⟨.ok (-1), s, parentReadEvents r⟩)
  | noSpace (k : Fin 64) (hm : NoMatch (s.parentTable r) r.key)
      (hk : FirstEmpty (s.parentTable r) k)
      (hfree : (freeClusters s.fatTable).length < (required r).toNat)
      (run : write r s = ⟨.ok (-1), s, parentReadEvents r⟩)
  | emptySlotBuf (k : Fin 64) (hm : NoMatch (s.parentTable r) r.key)
      (hk : FirstEmpty (s.parentTable r) k) (hreq : required r = 0)
      (run : write r s = ⟨.error Fault.emptySlotBuf, s, parentReadEvents r⟩)
  | done (k : Fin 64) (c : UInt32) (rest : List UInt32) (s' : FileSystem) (w : List DiskEvent)
      (hbuf : slotBuf s r = c :: rest)
      (hfree : (required r).toNat ≤ (freeClusters s.fatTable).length)
      (run : write r s = ⟨.ok 0, s', w⟩)
      (inserted : Inserted s s' r.parentClusterNumber k (newEntry r c) (c :: rest)
        (newBlocks s r c (c :: rest).length))

theorem write_cases (hs : Sound s) (hp : LiveDir s r.parentClusterNumber) :
    WriteCase s r := by
  have hok := hs.parentOk hp
  by_cases hm : NoMatch (s.parentTable r) r.key
  · rcases firstEmpty_or_full (s.parentTable r) with ⟨k, hk⟩ | hfull
    · by_cases hfree : (freeClusters s.fatTable).length < (required r).toNat
      · exact WriteCase.noSpace k hm hk hfree (write_noSpace hok hm hk hfree)
      · rw [Nat.not_lt] at hfree
        cases hbuf : slotBuf s r with
        | nil =>
            have hreq := required_of_slotBuf_nil hbuf hfree
            exact WriteCase.emptySlotBuf k hm hk hreq (write_emptySlotBuf hok hm hk hreq)
        | cons c rest =>
            obtain ⟨s', w, hrun, hins⟩ := write_done hs hp hm hk hbuf hfree
            exact WriteCase.done k c rest s' w hbuf hfree hrun hins
    · exact WriteCase.full hm hfull (write_full hok hm hfull)
  · exact WriteCase.taken hm (write_exists hok hm)

/-- A `write` that reports success added the entry it asked for. -/
theorem write_inserted (hs : Sound s) (hp : LiveDir s r.parentClusterNumber)
    (hw : (write r s).result = .ok 0) :
    ∃ k c rest, slotBuf s r = c :: rest ∧
      (required r).toNat ≤ (freeClusters s.fatTable).length ∧
      Inserted s (write r s).state r.parentClusterNumber k (newEntry r c) (c :: rest)
        (newBlocks s r c (c :: rest).length) := by
  cases write_cases hs hp with
  | taken _ run => rw [run] at hw; cases hw
  | full _ _ run => rw [run] at hw; cases hw
  | noSpace _ _ _ _ run => rw [run] at hw; cases hw
  | emptySlotBuf _ _ _ _ run => rw [run] at hw; cases hw
  | done k c rest s' w hbuf hfree run inserted =>
      refine ⟨k, c, rest, hbuf, hfree, ?_⟩
      rwa [run]

/-- What a `delete` finds may be deleted: a child, or a directory that is not empty and
therefore stays. -/
def SafeDelete (s : FileSystem) (r : FAT32DriverRequest) : Prop :=
  ∀ k, FirstMatch (s.parentTable r) r.key k →
    (2 ≤ k ∧ (s.parentTable r k).Live) ∨
      ((s.parentTable r k).IsDir ∧ ¬ isEmptyTable (s.table (s.parentTable r k).cluster) = true)

/-- A `delete` whose first match, if there is one, is a child. -/
def DeletesChild (s : FileSystem) (r : FAT32DriverRequest) : Prop :=
  ∀ k, FirstMatch (s.parentTable r) r.key k → 2 ≤ k ∧ (s.parentTable r k).Live

theorem DeletesChild.safeDelete (h : DeletesChild s r) : SafeDelete s r :=
  fun k hk => Or.inl (h k hk)

/-- The ways a safe `delete` in a live directory can go. -/
inductive DeleteCase (s : FileSystem) (r : FAT32DriverRequest) : Prop
  | absent (hm : NoMatch (s.parentTable r) r.key)
      (run : delete r s = ⟨.ok 1, s, parentReadEvents r⟩)
  | notEmpty (k : Fin 64) (hk : FirstMatch (s.parentTable r) r.key k)
      (hdir : (s.parentTable r k).IsDir)
      (hfull : ¬ isEmptyTable (s.table (s.parentTable r k).cluster) = true)
      (run : delete r s = ⟨.ok 2, s,
        parentReadEvents r ++ clusterReadEvents (physical (s.parentTable r k).cluster)⟩)
  | removed (k : Fin 64) (cs : List UInt32) (s' : FileSystem) (w : List DiskEvent)
      (hk : FirstMatch (s.parentTable r) r.key k)
      (run : delete r s = ⟨.ok 0, s', w⟩)
      (removed : Removed s s' r.parentClusterNumber k cs)

theorem delete_cases (hs : Sound s) (hp : LiveDir s r.parentClusterNumber)
    (hsafe : SafeDelete s r) : DeleteCase s r := by
  have hok := hs.parentOk hp
  rcases firstMatch_or_noMatch (s.parentTable r) r.key with ⟨k, hk⟩ | hm
  · by_cases hfull : (s.parentTable r k).IsDir ∧
        ¬ isEmptyTable (s.table (s.parentTable r k).cluster) = true
    · exact DeleteCase.notEmpty k hk hfull.1 hfull.2 (delete_notEmpty hok hk hfull.1 hfull.2)
    · have hempty : (s.parentTable r k).IsDir →
          isEmptyTable (s.table (s.parentTable r k).cluster) = true :=
        fun hdir => by_contra fun he => hfull ⟨hdir, he⟩
      obtain ⟨h2, hl⟩ := (hsafe k hk).resolve_right hfull
      obtain ⟨cs, s', w, hrun, hrem⟩ := delete_child hs ⟨hp, h2, hl⟩ hk hempty
      exact DeleteCase.removed k cs s' w hk hrun hrem
  · exact DeleteCase.absent hm (delete_notFound hok hm)

end Cases

/-! ## Reading leaves the state alone -/

/-- The computation neither writes to the disk nor to the cached table. -/
abbrev Readonly {α : Type} (x : Driver α) : Prop := Observes DiskEvent.IsRead x

theorem isRead_of_clusterReadEvents {n : Nat} {e : DiskEvent} (he : e ∈ clusterReadEvents n) :
    DiskEvent.IsRead e := by
  obtain ⟨i, -, rfl⟩ := List.mem_map.mp he
  trivial

theorem readCluster_readonly (c : UInt32) : Readonly (readCluster c) := by
  intro s
  rw [readCluster_apply]
  exact ⟨rfl, fun _ he => isRead_of_clusterReadEvents he⟩

theorem readTable_readonly (c : UInt32) : Readonly (readTable c) := by
  intro s
  rw [readTable_apply]
  exact ⟨rfl, fun _ he => isRead_of_clusterReadEvents he⟩

theorem clusterMap_readonly (i : UInt32) : Readonly (clusterMap i) := by
  refine Observes.of_trace_nil fun s => ?_
  by_cases h : i.toNat < 512
  · rw [clusterMap_apply h]
    exact ⟨rfl, rfl⟩
  · rw [clusterMap_apply_of_not_lt h]
    exact ⟨rfl, rfl⟩

theorem readChain_readonly (rounds j : Nat) (c : UInt32) : Readonly (readChain rounds j c) := by
  induction rounds generalizing j c with
  | zero =>
      rw [readChain]
      split_ifs
      · exact Observes.pure _
      · exact Observes.fault _
  | succ rounds ih =>
      rw [readChain]
      split_ifs
      · exact Observes.pure _
      · exact (readCluster_readonly c).bind fun _ => (clusterMap_readonly c).bind fun _ =>
          (ih _ _).bind fun _ => Observes.pure _

theorem read_readonly (r : FAT32DriverRequest) : Readonly (read r) := by
  refine (clusterMap_readonly _).bind fun v => ?_
  split_ifs
  · exact Observes.pure _
  refine (readTable_readonly _).bind fun t => ?_
  split
  · exact Observes.pure _
  · split_ifs
    · exact Observes.pure _
    · exact Observes.pure _
    · exact (readChain_readonly _ _ _).bind fun _ => Observes.pure _

theorem readDirectory_readonly (r : FAT32DriverRequest) : Readonly (readDirectory r) := by
  refine (readTable_readonly _).bind fun t => ?_
  split
  · exact Observes.pure _
  · split_ifs
    · exact Observes.pure _
    · exact (readCluster_readonly _).bind fun _ => Observes.pure _
    · exact Observes.pure _

/-! ## Calls -/

/-- The calls of a client. -/
inductive Call
  | read (request : FAT32DriverRequest)
  | readDirectory (request : FAT32DriverRequest)
  | write (request : FAT32DriverRequest)
  | delete (request : FAT32DriverRequest)

def Call.request : Call → FAT32DriverRequest
  | read request => request
  | readDirectory request => request
  | write request => request
  | delete request => request

/-- What a client sees of a call: the code it returns and what it stores in the buffer. -/
abbrev Reply := Int8 × List Delivery

def Call.run : Call → Driver Reply
  | read request => Fat32.read request
  | readDirectory request => Fat32.readDirectory request
  | write request => (·, []) <$> Fat32.write request
  | delete request => (·, []) <$> Fat32.delete request

/-- The state that a call leaves, also if it faults. -/
def after (s : FileSystem) (c : Call) : FileSystem := (c.run s).state

@[simp] theorem after_read (s : FileSystem) (r : FAT32DriverRequest) :
    after s (Call.read r) = s :=
  (read_readonly r s).1

@[simp] theorem after_readDirectory (s : FileSystem) (r : FAT32DriverRequest) :
    after s (Call.readDirectory r) = s :=
  (readDirectory_readonly r s).1

@[simp] theorem after_write (s : FileSystem) (r : FAT32DriverRequest) :
    after s (Call.write r) = (write r s).state :=
  map_state _ _ s

@[simp] theorem after_delete (s : FileSystem) (r : FAT32DriverRequest) :
    after s (Call.delete r) = (delete r s).state :=
  map_state _ _ s

/-- The states just after `create_fat32`, on any disk and with any cache. -/
def NewSystem (s : FileSystem) : Prop := ∃ s₀, s = (createFat32 s₀).state

/-- A call on a live directory that deletes at most a child. -/
structure Safe (s : FileSystem) (c : Call) : Prop where
  parent : LiveDir s c.request.parentClusterNumber
  delete : ∀ r, c = Call.delete r → SafeDelete s r

/-- A call on a live directory whose deletes match a child or nothing. -/
structure Scoped (s : FileSystem) (c : Call) : Prop where
  parent : LiveDir s c.request.parentClusterNumber
  delete : ∀ r, c = Call.delete r → DeletesChild s r

/-- The data of a `write` fits into 255 clusters. -/
def SmallWrite (c : Call) : Prop := ∀ r, c = Call.write r → r.bufferSize.toNat ≤ 255 * 2048

/-- A call on a live directory with small writes whose deletes match a child or nothing. -/
def WellScoped (s : FileSystem) (c : Call) : Prop := Scoped s c ∧ SmallWrite c

theorem Scoped.safe {s : FileSystem} {c : Call} (h : Scoped s c) : Safe s c :=
  ⟨h.parent, fun r hr => (h.delete r hr).safeDelete⟩

/-! ## One call -/

/-- What a safe call does: it only reads, or it adds the entry it asks for, or it removes
the child it matches. -/
inductive Effect (s : FileSystem) : Call → Prop
  | reads {c : Call} (state : after s c = s)
      (trace : ∀ e, e ∈ (c.run s).trace → e.IsRead) : Effect s c
  | inserts {r : FAT32DriverRequest} (k : Fin 64) (c : UInt32) (rest : List UInt32)
      (hbuf : slotBuf s r = c :: rest)
      (hfree : (required r).toNat ≤ (freeClusters s.fatTable).length)
      (code : (write r s).result = .ok 0)
      (inserted : Inserted s (after s (Call.write r)) r.parentClusterNumber k (newEntry r c)
        (c :: rest) (newBlocks s r c (c :: rest).length)) : Effect s (Call.write r)
  | removes {r : FAT32DriverRequest} (k : Fin 64) (cs : List UInt32)
      (hk : FirstMatch (s.parentTable r) r.key k)
      (code : (delete r s).result = .ok 0)
      (removed : Removed s (after s (Call.delete r)) r.parentClusterNumber k cs) :
      Effect s (Call.delete r)

theorem isRead_of_parentReadEvents {r : FAT32DriverRequest} :
    ∀ e, e ∈ parentReadEvents r → DiskEvent.IsRead e :=
  fun _ he => isRead_of_clusterReadEvents he

/-- A `write` that only reads. -/
theorem Effect.of_write {s : FileSystem} {r : FAT32DriverRequest} {v : Except Fault Int8}
    (run : write r s = ⟨v, s, parentReadEvents r⟩) : Effect s (Call.write r) := by
  refine Effect.reads (by rw [after_write, run]) ?_
  rw [Call.run, map_trace, run]
  exact isRead_of_parentReadEvents

/-- A `delete` that only reads. -/
theorem Effect.of_delete {s : FileSystem} {r : FAT32DriverRequest} {v : Except Fault Int8}
    {w : List DiskEvent} (run : delete r s = ⟨v, s, w⟩) (hw : ∀ e, e ∈ w → e.IsRead) :
    Effect s (Call.delete r) := by
  refine Effect.reads (by rw [after_delete, run]) ?_
  rwa [Call.run, map_trace, run]

/-- **Every safe call has one of the three effects.** -/
theorem safe_effect {s : FileSystem} {c : Call} (hs : Sound s) (hc : Safe s c) :
    Effect s c := by
  cases c with
  | read r =>
      refine Effect.reads (after_read s r) ?_
      exact (read_readonly r s).2
  | readDirectory r =>
      refine Effect.reads (after_readDirectory s r) ?_
      exact (readDirectory_readonly r s).2
  | write r =>
      cases write_cases (r := r) hs hc.parent with
      | taken _ run => exact Effect.of_write run
      | full _ _ run => exact Effect.of_write run
      | noSpace _ _ _ _ run => exact Effect.of_write run
      | emptySlotBuf _ _ _ _ run => exact Effect.of_write run
      | done k c rest s' w hbuf hfree run inserted =>
          refine Effect.inserts k c rest hbuf hfree (by rw [run]) ?_
          rwa [after_write, run]
  | delete r =>
      cases delete_cases (r := r) hs hc.parent (hc.delete r rfl) with
      | absent _ run => exact Effect.of_delete run isRead_of_parentReadEvents
      | notEmpty _ _ _ _ run =>
          refine Effect.of_delete run fun e he => ?_
          exact (List.mem_append.mp he).elim isRead_of_clusterReadEvents
            isRead_of_clusterReadEvents
      | removed k cs s' w hk run removed =>
          refine Effect.removes k cs hk (by rw [run]) ?_
          rwa [after_delete, run]

/-- What a call does to the tree: nothing, or one entry more or less. -/
inductive Edited (s s' : FileSystem) : Prop
  | same (h : s' = s)
  | inserted (p : UInt32) (k : Fin 64) (e : FAT32DirectoryEntry) (cs : List UInt32)
      (blocks : List ClusterBuffer) (h : Inserted s s' p k e cs blocks)
  | removed (p : UInt32) (k : Fin 64) (cs : List UInt32) (h : Removed s s' p k cs)

theorem after_edited {s : FileSystem} {c : Call} (hs : Sound s) (hc : Safe s c) :
    Edited s (after s c) := by
  cases safe_effect hs hc with
  | reads state _ => exact Edited.same state
  | inserts k c rest _ _ _ inserted => exact Edited.inserted _ _ _ _ _ inserted
  | removes k cs _ _ removed => exact Edited.removed _ _ _ removed

theorem Edited.sound {s s' : FileSystem} (h : Edited s s') (hs : Sound s) : Sound s' := by
  cases h with
  | same h => rwa [h]
  | inserted p k e cs blocks h => exact h.sound hs
  | removed p k cs h => exact h.sound hs

/-- The root has the records of `create_fat32`, every other directory has its own cluster
in slot 0 and that of its parent in slot 1. -/
structure Recorded (s : FileSystem) : Prop where
  root : ∀ i, i < 2 → s.table rootClusterNumber i = rootTable i
  self : ∀ d, LiveDir s d → d ≠ rootClusterNumber → (s.table d 0).cluster = d
  parent : ∀ p i, Child s p i → (s.table p i).IsDir →
    (s.table (s.table p i).cluster 1).cluster = p

theorem Created.recorded {s : FileSystem} (h : Created s) : Recorded s where
  root := fun i _ => by rw [h.root]
  self := fun d hd hne => absurd ((h.liveDir_iff d).mp hd) hne
  parent := fun p i hp => absurd hp (h.not_child p i)

theorem Inserted.recorded {s s' : FileSystem} {p : UInt32} {k : Fin 64}
    {e : FAT32DirectoryEntry} {cs : List UInt32} {blocks : List ClusterBuffer}
    (h : Inserted s s' p k e cs blocks) (hs : Sound s) (hr : Recorded s) : Recorded s' := by
  have hk2 := h.two_le hs
  have hslot : ∀ d i, LiveDir s d → i < 2 → s'.table d i = s.table d i :=
    fun d i hd hi => h.slot_eq hs hd fun he => absurd hk2 (not_le.mpr (he.2 ▸ hi))
  refine ⟨?_, ?_, ?_⟩
  · intro i hi
    rw [hslot _ i (liveDir_root s) hi]
    exact hr.root i hi
  · intro d hd hne
    rcases (h.liveDir_iff hs d).mp hd with hd | ⟨hdir, rfl⟩
    · rw [hslot d 0 hd (by decide)]
      exact hr.self d hd hne
    · obtain ⟨-, e₀, e₁, hrec, htab⟩ := h.folder hdir
      rw [htab, recordTable_zero]
      exact hrec.self_cluster
  · intro q i hq hdir
    rcases (h.child_iff hs q i).mp hq with hq | ⟨rfl, rfl⟩
    · rw [h.slot_child hs hq] at hdir ⊢
      rw [hslot _ 1 (hq.liveDir hdir) (by decide)]
      exact hr.parent q i hq hdir
    · rw [h.slot_self] at hdir ⊢
      obtain ⟨-, e₀, e₁, hrec, htab⟩ := h.folder hdir
      rw [htab, recordTable_one]
      exact hrec.parent_cluster

theorem Removed.recorded {s s' : FileSystem} {p : UInt32} {k : Fin 64} {cs : List UInt32}
    (h : Removed s s' p k cs) (hs : Sound s) (hr : Recorded s) : Recorded s' := by
  have hk2 := h.child.2.1
  have hslot : ∀ d i, LiveDir s' d → i < 2 → s'.table d i = s.table d i := by
    intro d i hd hi
    obtain ⟨hd, hne⟩ := (h.liveDir_iff hs d).mp hd
    exact h.slot_eq hs hd hne fun he => absurd hk2 (not_le.mpr (he.2 ▸ hi))
  refine ⟨?_, ?_, ?_⟩
  · intro i hi
    rw [hslot _ i (liveDir_root s') hi]
    exact hr.root i hi
  · intro d hd hne
    rw [hslot d 0 hd (by decide)]
    exact hr.self d ((h.liveDir_iff hs d).mp hd).1 hne
  · intro q i hq hdir
    have hlive := hq.liveDir hdir
    rw [h.slot_child hs hq] at hdir hlive ⊢
    rw [hslot _ 1 hlive (by decide)]
    exact hr.parent q i ((h.child_iff hs q i).mp hq).1 hdir

theorem Edited.recorded {s s' : FileSystem} (h : Edited s s') (hs : Sound s)
    (hr : Recorded s) : Recorded s' := by
  cases h with
  | same h => rwa [h]
  | inserted p k e cs blocks h => exact h.recorded hs hr
  | removed p k cs h => exact h.recorded hs hr

/-- Every file has as many clusters as its size needs. -/
def Sized (s : FileSystem) : Prop :=
  ∀ d i cs, Child s d i → ¬ (s.table d i).IsDir → FatChain s (s.table d i).cluster cs →
    cs.length = clusterCount (s.table d i).filesize

/-- The eight bits of `required` count the clusters of a file modulo 256. -/
theorem required_of_file {r : FAT32DriverRequest} (hlt : r.bufferSize.toNat < 2 ^ 24)
    (hfile : ¬ isFolder r = true) :
    (required r).toNat = clusterCount r.bufferSize % 256 := by
  rw [required, if_neg hfile, ceil_floatClusters hlt, UInt8.add_zero, UInt8.toNat_ofNat']

theorem clusterCount_le {n : UInt32} (h : n.toNat ≤ 255 * 2048) : clusterCount n ≤ 255 := by
  rw [clusterCount]
  omega

/-- The chain of a new file of at most 255 clusters has the right length. -/
theorem required_of_small {r : FAT32DriverRequest} (hsmall : r.bufferSize.toNat ≤ 255 * 2048)
    (hfile : ¬ isFolder r = true) : (required r).toNat = clusterCount r.bufferSize := by
  rw [required_of_file (by omega) hfile,
    Nat.mod_eq_of_lt (Nat.lt_succ_of_le (clusterCount_le hsmall))]

theorem after_sized {s : FileSystem} {c : Call} (hs : Sound s) (hz : Sized s)
    (hc : Safe s c) (hsmall : SmallWrite c) : Sized (after s c) := by
  cases safe_effect hs hc with
  | reads state _ => rwa [state]
  | @inserts r k c rest hbuf hfree _ inserted =>
      intro d i cs hd hfile hcs
      rcases (inserted.child_iff hs d i).mp hd with hd | ⟨rfl, rfl⟩
      · rw [inserted.slot_child hs hd] at hfile hcs ⊢
        exact hz d i cs hd hfile ((inserted.chain_old_iff hs hd cs).mp hcs)
      · rw [inserted.slot_self] at hfile hcs ⊢
        have hnofolder : ¬ isFolder r = true :=
          fun hf => hfile ((newEntry_isDir_iff c).mpr hf)
        rw [hcs.unique inserted.chain_new, length_slotBuf_eq hbuf hfree,
          required_of_small (hsmall r rfl) hnofolder]
        rfl
  | removes k cs _ _ removed =>
      intro d i ds hd hfile hds
      obtain ⟨hd₀, hslot⟩ := (removed.child_iff hs d i).mp hd
      rw [removed.slot_child hs hd] at hfile hds ⊢
      exact hz d i ds hd₀ hfile ((removed.chain_iff hs hd₀ hslot ds).mp hds)

/-! ## Runs -/

theorem NewSystem.created {s : FileSystem} (h : NewSystem s) : Created s := by
  obtain ⟨s₀, rfl⟩ := h
  exact createFat32_created s₀

/-- **Runs of safe calls stay sound.** -/
theorem safeRun_sound {s : FileSystem} (h : Reached NewSystem Safe after s) : Sound s :=
  h.invariant (fun _ hs => hs.created.sound) fun _ _ hs hc => (after_edited hs hc).sound hs

theorem safeRun_recorded {s : FileSystem} (h : Reached NewSystem Safe after s) :
    Recorded s := by
  refine (h.invariant (P := fun s => Sound s ∧ Recorded s) ?_ ?_).2
  · exact fun s hs => ⟨hs.created.sound, hs.created.recorded⟩
  · intro s c hs hc
    have hedit := after_edited hs.1 hc
    exact ⟨hedit.sound hs.1, hedit.recorded hs.1 hs.2⟩

theorem scopedRun_sound {s : FileSystem} (h : Reached NewSystem Scoped after s) : Sound s :=
  safeRun_sound (h.mono fun _ _ _ hc => hc.safe)

theorem wellScopedRun_sound {s : FileSystem} (h : Reached NewSystem WellScoped after s) :
    Sound s :=
  scopedRun_sound (h.mono fun _ _ _ hc => hc.1)

theorem wellScopedRun_sized {s : FileSystem} (h : Reached NewSystem WellScoped after s) :
    Sized s := by
  refine (h.invariant (P := fun s => Sound s ∧ Sized s) ?_ ?_).2
  · exact fun s hs =>
      ⟨hs.created.sound, fun d i _ hd => absurd hd (hs.created.not_child d i)⟩
  · exact fun s c hs hc =>
      ⟨(after_edited hs.1 hc.1.safe).sound hs.1, after_sized hs.1 hs.2 hc.1.safe hc.2⟩

/-! ## A small run -/

/-- A new file system on a disk of zeros. -/
def emptySystem : FileSystem := (createFat32 ⟨fun _ _ => 0, fun _ => 0⟩).state

theorem newSystem_emptySystem : NewSystem emptySystem := ⟨_, rfl⟩

/-- A request about `name`, without extension, in directory `p`. -/
def requestFor (name : List Char) (p bufferSize : UInt32) : FAT32DriverRequest where
  buf := UInt8.ofNat
  name := fun k => (name.map byteOfChar).getD k 0
  ext := fun _ => 0
  parentClusterNumber := p
  bufferSize := bufferSize

theorem wellScoped_write {s : FileSystem} {r : FAT32DriverRequest}
    (hp : LiveDir s r.parentClusterNumber) (hsmall : r.bufferSize.toNat ≤ 255 * 2048) :
    WellScoped s (Call.write r) := by
  refine ⟨⟨hp, fun r' hr => by cases hr⟩, fun r' hr => ?_⟩
  cases hr
  exact hsmall

theorem wellScoped_delete {s : FileSystem} {r : FAT32DriverRequest}
    (hp : LiveDir s r.parentClusterNumber) (hchild : DeletesChild s r) :
    WellScoped s (Call.delete r) := by
  refine ⟨⟨hp, fun r' hr => ?_⟩, fun r' hr => by cases hr⟩
  cases hr
  exact hchild

/-- Writing one file of 3000 bytes into the root of a new file system. -/
theorem wellScoped_firstWrite :
    WellScoped emptySystem (Call.write (requestFor ['a'] 2 3000)) :=
  wellScoped_write (liveDir_root _) (by decide)

/-- The root with a file `a` of two clusters and a folder `b`, in cluster 5. -/
def smallSystem : FileSystem :=
  after (after emptySystem (Call.write (requestFor ['a'] 2 3000)))
    (Call.write (requestFor ['b'] 2 0))

theorem smallSystem_folder : LiveDir smallSystem 5 := by
  have hedge : smallSystem.edge 2 3 = some 5 := by decide +kernel
  exact Reach.child (liveDir_root _) hedge

/-- The same with a file `c` in the folder. -/
def populatedSystem : FileSystem := after smallSystem (Call.write (requestFor ['c'] 5 100))

theorem populatedSystem_folder : LiveDir populatedSystem 5 := by
  have hedge : populatedSystem.edge 2 3 = some 5 := by decide +kernel
  exact Reach.child (liveDir_root _) hedge

theorem populatedSystem_reached : Reached NewSystem WellScoped after populatedSystem :=
  Reached.step
    (Reached.step
      (Reached.step (Reached.start newSystem_emptySystem) wellScoped_firstWrite)
      (wellScoped_write (liveDir_root _) (by decide)))
    (wellScoped_write smallSystem_folder (by decide))

/-- The file in the root is a child. -/
theorem populatedSystem_file : DeletesChild populatedSystem (requestFor ['a'] 2 0) := by
  have hk : FirstMatch (populatedSystem.parentTable (requestFor ['a'] 2 0))
      (requestFor ['a'] 2 0).key 2 := by
    decide +kernel
  intro k' hk'
  rw [hk'.unique hk]
  exact ⟨by decide, by decide +kernel⟩

end Fat32
end OS2024
