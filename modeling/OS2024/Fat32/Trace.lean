import OS2024.Fat32.Calls

/-!
# The writes that a call issues

The trace of a call lists its block transfers.  The writes in it are all that the call
does to the disk, so the disk after a power cut is given by a prefix of them.

**Results.**
* `run_accounted`: the final disk is the result of the writes in the trace.
* `tableWrites_atomic`: rewriting a directory table with one new slot is atomic.
-/

namespace OS2024
namespace Fat32

open BlockStore TracedState

/-- The block writes among the events, in order. -/
def writesOf (w : List DiskEvent) : List (Nat × BlockBuffer) :=
  w.filterMap fun
    | DiskEvent.read _ => none
    | DiskEvent.write sector block => some (sector, block)

@[simp] theorem writesOf_nil : writesOf [] = [] := rfl

@[simp] theorem writesOf_append (v w : List DiskEvent) :
    writesOf (v ++ w) = writesOf v ++ writesOf w :=
  List.filterMap_append

@[simp] theorem writesOf_clusterReadEvents (n : Nat) : writesOf (clusterReadEvents n) = [] := rfl

theorem writesOf_map_write (ws : List (Nat × BlockBuffer)) :
    writesOf (ws.map fun w => DiskEvent.write w.1 w.2) = ws := by
  rw [writesOf, List.filterMap_map]
  exact List.filterMap_some

@[simp] theorem writesOf_clusterWriteEvents (n : Nat) (b : ClusterBuffer) :
    writesOf (clusterWriteEvents n b) = Disk.clusterWrites n b :=
  writesOf_map_write _

theorem writesOf_of_isRead {w : List DiskEvent} (h : ∀ e, e ∈ w → e.IsRead) :
    writesOf w = [] := by
  refine List.filterMap_eq_nil_iff.mpr fun e he => ?_
  cases e with
  | read _ => rfl
  | write _ _ => exact absurd (h _ he) id

/-! ## The trace accounts for the disk -/

section Accounting

variable {α β : Type}

/-- The writes that `x` issues are all that it does to the disk. -/
def Accounted (x : Driver α) : Prop :=
  Effected FileSystem.disk (fun d w => applyWrites d (writesOf w)) x

theorem Accounted.of_silent {x : Driver α}
    (h : ∀ s, (x s).state.disk = s.disk ∧ (x s).trace = []) : Accounted x :=
  Effected.of_trace_nil (fun _ => rfl) h

theorem Accounted.pure (a : α) : Accounted (Pure.pure a : Driver α) :=
  Accounted.of_silent fun _ => ⟨rfl, rfl⟩

theorem Accounted.fault (e : Fault) : Accounted (TracedState.fault e : Driver α) :=
  Accounted.of_silent fun _ => ⟨rfl, rfl⟩

theorem Accounted.getState : Accounted (TracedState.getState : Driver FileSystem) :=
  Accounted.of_silent fun _ => ⟨rfl, rfl⟩

theorem Accounted.bind {x : Driver α} {f : α → Driver β} (hx : Accounted x)
    (hf : ∀ a, Accounted (f a)) : Accounted (x >>= f) :=
  Effected.bind (fun d w v => by rw [writesOf_append, applyWrites_append]) hx hf

theorem Accounted.map {x : Driver α} (f : α → β) (hx : Accounted x) :
    Accounted (f <$> x) :=
  hx.bind fun _ => Accounted.pure _

theorem readCluster_accounted (c : UInt32) : Accounted (readCluster c) :=
  fun s => by rw [readCluster_apply]; rfl

theorem readTable_accounted (c : UInt32) : Accounted (readTable c) :=
  fun s => by rw [readTable_apply]; rfl

theorem writeClusters_accounted (ptr : Stdlib.Memory) (c : UInt32) :
    Accounted (writeClusters ptr c 1) := by
  intro s
  rw [writeClusters_apply]
  exact congrArg (applyWrites s.disk) (writesOf_clusterWriteEvents _ _).symm

theorem writeCluster_accounted (b : ClusterBuffer) (c : UInt32) :
    Accounted (writeCluster b c) :=
  writeClusters_accounted _ c

theorem clusterMap_accounted (i : UInt32) : Accounted (clusterMap i) :=
  Accounted.getState.bind fun s => by
    split_ifs
    · exact Accounted.pure _
    · exact Accounted.fault _

theorem setClusterMap_accounted (i v : UInt32) : Accounted (setClusterMap i v) := by
  rw [setClusterMap]
  split_ifs
  · exact Accounted.of_silent fun _ => ⟨rfl, rfl⟩
  · exact Accounted.fault _

theorem flushFat_accounted : Accounted flushFat :=
  Accounted.getState.bind fun _ => writeCluster_accounted _ _

theorem initDirectoryTable_accounted (t : FAT32DirectoryTable) (name : Fin 8 → UInt8)
    (p : UInt32) : Accounted (initDirectoryTable t name p) :=
  (readTable_accounted p).bind fun _ => Accounted.pure _

theorem readChain_accounted (rounds j : Nat) (c : UInt32) :
    Accounted (readChain rounds j c) := by
  induction rounds generalizing j c with
  | zero =>
      rw [readChain]
      split_ifs
      · exact Accounted.pure _
      · exact Accounted.fault _
  | succ rounds ih =>
      rw [readChain]
      split_ifs
      · exact Accounted.pure _
      · exact (readCluster_accounted c).bind fun _ => (clusterMap_accounted c).bind fun _ =>
          (ih _ _).bind fun _ => Accounted.pure _

theorem writeLoop_accounted (buf : Stdlib.Memory) (j : Nat) (cs : List UInt32) :
    Accounted (writeLoop buf j cs) := by
  induction cs generalizing j with
  | nil => exact Accounted.pure _
  | cons c rest ih =>
      exact (setClusterMap_accounted _ _).bind fun _ => flushFat_accounted.bind fun _ =>
        (writeClusters_accounted _ _).bind fun _ => ih (j + 1)

theorem freeChain_accounted (rounds : Nat) (c : UInt32) : Accounted (freeChain rounds c) := by
  induction rounds generalizing c with
  | zero => exact Accounted.fault _
  | succ rounds ih =>
      refine (clusterMap_accounted c).bind fun next => (setClusterMap_accounted _ _).bind
        fun _ => (writeCluster_accounted _ _).bind fun _ => ?_
      split_ifs
      · exact Accounted.pure _
      · exact ih next

theorem writeFolder_accounted (r : FAT32DriverRequest) (c : UInt32) :
    Accounted (writeFolder r c) :=
  (initDirectoryTable_accounted _ _ _).bind fun _ => (writeCluster_accounted _ _).bind
    fun _ => (setClusterMap_accounted _ _).bind fun _ => flushFat_accounted

theorem writeContent_accounted (r : FAT32DriverRequest) (c : UInt32) (rest : List UInt32) :
    Accounted (writeContent r c rest) := by
  rw [writeContent]
  split_ifs
  · exact writeFolder_accounted r c
  · exact writeLoop_accounted _ _ _

theorem read_accounted (r : FAT32DriverRequest) : Accounted (read r) := by
  refine (clusterMap_accounted _).bind fun v => ?_
  split_ifs
  · exact Accounted.pure _
  refine (readTable_accounted _).bind fun t => ?_
  split
  · exact Accounted.pure _
  · split_ifs
    · exact Accounted.pure _
    · exact Accounted.pure _
    · exact (readChain_accounted _ _ _).bind fun _ => Accounted.pure _

theorem readDirectory_accounted (r : FAT32DriverRequest) : Accounted (readDirectory r) := by
  refine (readTable_accounted _).bind fun t => ?_
  split
  · exact Accounted.pure _
  · split_ifs
    · exact Accounted.pure _
    · exact (readCluster_accounted _).bind fun _ => Accounted.pure _
    · exact Accounted.pure _

theorem write_accounted (r : FAT32DriverRequest) : Accounted (write r) := by
  refine (clusterMap_accounted _).bind fun v => ?_
  split_ifs
  · exact Accounted.pure _
  refine (readTable_accounted _).bind fun t => ?_
  split
  · exact Accounted.pure _
  · split_ifs
    · exact Accounted.pure _
    refine Accounted.getState.bind fun s => ?_
    dsimp only
    split_ifs
    · exact Accounted.pure _
    · split
      · exact Accounted.fault _
      · exact (writeContent_accounted _ _ _).bind fun _ =>
          (writeCluster_accounted _ _).bind fun _ => Accounted.pure _

theorem clearEntry_accounted (t : FAT32DirectoryTable) (r : FAT32DriverRequest)
    (k : Fin 64) : Accounted (clearEntry t r k) :=
  (writeCluster_accounted _ _).bind fun _ => (freeChain_accounted _ _).bind fun _ =>
    flushFat_accounted.bind fun _ => Accounted.pure _

theorem delete_accounted (r : FAT32DriverRequest) : Accounted (delete r) := by
  refine (clusterMap_accounted _).bind fun v => ?_
  split_ifs
  · exact Accounted.pure _
  refine (readTable_accounted _).bind fun t => ?_
  split
  · exact Accounted.pure _
  · next k _ =>
      have hrest : ∀ isEmpty : Bool,
          Accounted (if !isEmpty then Pure.pure 2 else clearEntry t r k) := by
        intro isEmpty
        split_ifs
        · exact Accounted.pure _
        · exact clearEntry_accounted t r k
      dsimp only
      split_ifs
      · exact ((readTable_accounted _).map _).bind hrest
      · exact (Accounted.pure _).bind hrest

/-- **The writes in its trace are all that a call does to the disk.** -/
theorem run_accounted (c : Call) : Accounted c.run := by
  cases c with
  | read r => exact read_accounted r
  | readDirectory r => exact readDirectory_accounted r
  | write r => exact (write_accounted r).map _
  | delete r => exact (delete_accounted r).map _

end Accounting

/-! ## Rewriting a directory table -/

/-- The blocks of a table that do not hold slot `k` are not affected by changing it. -/
theorem blocksOf_update (t : FAT32DirectoryTable) (k : Fin 64) (e : FAT32DirectoryEntry)
    {i : Fin 4} (hi : (i : Nat) ≠ k / 16) :
    Disk.blocksOf (FAT32DirectoryTable.toBytes (Function.update t k e)) i =
      Disk.blocksOf (FAT32DirectoryTable.toBytes t) i := by
  funext b
  have hne : (⟨(512 * (i : Nat) + b) / 32, by omega⟩ : Fin 64) ≠ k := by
    rintro rfl
    apply hi
    show (i : Nat) = (512 * (i : Nat) + b) / 32 / 16
    omega
  simp only [Disk.blocksOf, FAT32DirectoryTable.toBytes, Function.update_of_ne hne]

/-- **Rewriting a directory table with one new slot is atomic.** -/
theorem tableWrites_atomic {d : Disk} {n : Nat} {t : FAT32DirectoryTable} {k : Fin 64}
    {e : FAT32DirectoryEntry} (h : d.cluster n = FAT32DirectoryTable.toBytes t)
    {ws : List (Nat × BlockBuffer)}
    (hws : ws <+:
      Disk.clusterWrites n (FAT32DirectoryTable.toBytes (Function.update t k e))) :
    applyWrites d ws = d ∨ applyWrites d ws =
      applyWrites d
        (Disk.clusterWrites n (FAT32DirectoryTable.toBytes (Function.update t k e))) := by
  refine groupWrites_atomic (b := ⟨k / 16, by omega⟩) (fun i hi => ?_) hws
  have hne : (i : Nat) ≠ k / 16 := fun he => hi (Fin.ext he)
  rw [blocksOf_update t k e hne, ← h]
  exact Disk.blocksOf_cluster d n i

end Fat32
end OS2024
