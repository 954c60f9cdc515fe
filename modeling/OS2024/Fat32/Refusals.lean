import OS2024.Fat32.Calls

/-!
# Calls that fail leave no trace

`write` and `delete` look before they change anything: every exit with a code other than
0 comes before the first assignment to the cached table and before the first block is
written.  Nothing is assumed about the disk or the table, so this holds of malformed
directories too.

**Results.**
* `write_commits`, `delete_commits`: only the code 0 comes with a change.
* `failed_calls_leave_no_trace`: the four operations.
-/

namespace OS2024
namespace Fat32

open Stdlib TracedState

/-- The run of `x` from `s` left every block of the disk and every entry of the cached
table as they were, and wrote no block. -/
def LeavesNoTrace {α : Type} (x : Driver α) (s : FileSystem) : Prop :=
  (∀ n, (x s).state.disk n = s.disk n) ∧ (∀ i, (x s).state.fatTable i = s.fatTable i) ∧
    ∀ e, e ∈ (x s).trace → DiskEvent.IsRead e

theorem LeavesNoTrace.of_state {α : Type} {x : Driver α} {s : FileSystem}
    (h : (x s).state = s ∧ ∀ e, e ∈ (x s).trace → DiskEvent.IsRead e) :
    LeavesNoTrace x s := by
  refine ⟨fun n => ?_, fun i => ?_, h.2⟩
  · rw [h.1]
  · rw [h.1]

theorem Observes.leavesNoTrace {α : Type} {x : Driver α} (hx : Readonly x) (s : FileSystem) :
    LeavesNoTrace x s :=
  LeavesNoTrace.of_state (hx s)

theorem getState_readonly : Readonly getState :=
  Observes.of_trace_nil fun _ => ⟨rfl, rfl⟩

/-- A computation that changes the file system only when it returns 0. -/
abbrev CommitsOnZero (x : Driver Int8) : Prop := Commits DiskEvent.IsRead (· = 0) x

theorem commitsOnZero_return (code : Int8) : CommitsOnZero (return code) :=
  (Observes.pure code).commits

/-- `write` stores nothing before its last check. -/
theorem write_commits (r : FAT32DriverRequest) : CommitsOnZero (write r) := by
  refine Commits.bind (clusterMap_readonly _) fun v => ?_
  split_ifs
  · exact commitsOnZero_return 2
  refine Commits.bind (readTable_readonly _) fun t => ?_
  split
  · exact commitsOnZero_return 1
  split_ifs
  · exact commitsOnZero_return (-1)
  refine Commits.bind getState_readonly fun s => ?_
  dsimp only
  split_ifs
  · exact commitsOnZero_return (-1)
  split
  · exact (Observes.fault _).commits
  · -- the writing part, which can only return 0
    refine Returns.commits ?_
    exact Returns.bind fun _ => Returns.bind fun _ => Returns.pure rfl

/-- The part of `delete` that follows the emptiness check. -/
theorem clear_commits (t : FAT32DirectoryTable) (r : FAT32DriverRequest) (k : Fin 64)
    (empty : Bool) :
    CommitsOnZero (if (!empty) = true then return 2 else clearEntry t r k) := by
  split_ifs
  · exact commitsOnZero_return 2
  · refine Returns.commits ?_
    exact Returns.bind fun _ => Returns.bind fun _ => Returns.bind fun _ => Returns.pure rfl

/-- `delete` stores nothing before it knows that the entry may go. -/
theorem delete_commits (r : FAT32DriverRequest) : CommitsOnZero (delete r) := by
  refine Commits.bind (clusterMap_readonly _) fun v => ?_
  split_ifs
  · exact commitsOnZero_return 2
  refine Commits.bind (readTable_readonly _) fun t => ?_
  split
  · exact commitsOnZero_return 1
  dsimp only
  split_ifs
  · refine Commits.bind (readTable_readonly _ |>.bind fun _ => Observes.pure _) fun empty => ?_
    exact clear_commits t r _ empty
  · refine Commits.bind (Observes.pure _) fun empty => ?_
    exact clear_commits t r _ empty

theorem CommitsOnZero.leavesNoTrace {x : Driver Int8} (hx : CommitsOnZero x) {s : FileSystem}
    {code : Int8} (hcode : (x s).result = .ok code) (hne : code ≠ 0) : LeavesNoTrace x s :=
  LeavesNoTrace.of_state (hx s code hcode hne)

/-- **Failed calls leave no trace**, and reads never do. -/
theorem failed_calls_leave_no_trace
    (s : FileSystem)
    (r : FAT32DriverRequest) :
    (∀ code, (write r s).result = .ok code → code ≠ 0 → LeavesNoTrace (write r) s) ∧
      (∀ code, (delete r s).result = .ok code → code ≠ 0 → LeavesNoTrace (delete r) s) ∧
      LeavesNoTrace (read r) s ∧ LeavesNoTrace (readDirectory r) s :=
  ⟨fun _ hcode hne => CommitsOnZero.leavesNoTrace (write_commits r) hcode hne,
    fun _ hcode hne => CommitsOnZero.leavesNoTrace (delete_commits r) hcode hne,
    Observes.leavesNoTrace (read_readonly r) s,
    Observes.leavesNoTrace (readDirectory_readonly r) s⟩

/-- The calls that are turned down: the name exists, the parent is no directory, the directory or
the allocation table is full, the name does not exist, and the directory is not empty. -/
theorem failed_calls_populatedSystem :
    LeavesNoTrace (write (requestFor ['a'] 2 100)) populatedSystem ∧
      LeavesNoTrace (write (requestFor ['d'] 7 100)) populatedSystem ∧
      LeavesNoTrace (write (requestFor ['d'] 2 100))
        { populatedSystem with disk := fun _ _ => uattrNotEmpty } ∧
      LeavesNoTrace (write (requestFor ['d'] 2 100))
        { populatedSystem with fatTable := fun _ => fat32FatEndOfFile } ∧
      LeavesNoTrace (delete (requestFor ['d'] 2 0)) populatedSystem ∧
      LeavesNoTrace (delete (requestFor ['b'] 2 0)) populatedSystem :=
  ⟨(failed_calls_leave_no_trace _ _).1 1 (by decide +kernel) (by decide),
    (failed_calls_leave_no_trace _ _).1 2 (by decide +kernel) (by decide),
    (failed_calls_leave_no_trace _ _).1 (-1) (by decide +kernel) (by decide),
    (failed_calls_leave_no_trace _ _).1 (-1) (by decide +kernel) (by decide),
    (failed_calls_leave_no_trace _ _).2.1 1 (by decide +kernel) (by decide),
    (failed_calls_leave_no_trace _ _).2.1 2 (by decide +kernel) (by decide)⟩

end Fat32
end OS2024
