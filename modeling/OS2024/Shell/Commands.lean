import OS2024.Fat32.Calls
import OS2024.Shell.Strings

/-!
# Changing the directory

`cd`, `cdNoPrint` and `cetak_prompt` of `user-shell.c`, on the global variables of the shell
and the file system behind the system calls.

The shell issues system call 1 with a cluster number where the kernel expects the address of
a request.  What the kernel finds there are bytes of the compiled shell, which enter as the
parameter `image`.  The code that `read_directory` returns lands in the first byte of
`currentDir`; were it to deliver a cluster as well, that would go through a pointer made of
the same bytes, and the model faults.

**Results.**
* `cdWith_tooLong`, `cdWith_notFound`, `cdWith_root`, `cdWith_up`, `cdWith_down`: the ways
  through `cd` and `cdNoPrint`.
* `cetakPrompt_ends`, `cetakPrompt_ok`: when the prompt is printed, and what it leaves.
-/

namespace OS2024
namespace Shell

open Fat32 TracedState

/-- The characters of a name are written as numerals. -/
instance neZero_name : NeZero 8 := ⟨by decide⟩

/-- `currentDir`, a `struct FAT32DirectoryTable` with the fields that only the shell uses. -/
structure CurrentDir where
  table : FAT32DirectoryTable
  parentClusterNumber : Fin 256 → UInt32
  bufferIndex : UInt32

/-- The global variables of the shell. -/
structure Globals where
  currentDirCluster : UInt32
  currentDir : CurrentDir
  dirBuff : Fin 256 → Fin 8 → UInt8

/-- Global variables start as zeros. -/
def Globals.zero : Globals where
  currentDirCluster := 0
  currentDir := ⟨FAT32DirectoryTable.zero, fun _ => 0, 0⟩
  dirBuff := fun _ _ => 0

/-- The shell and the file system behind its system calls. -/
structure Session where
  fileSystem : FileSystem
  globals : Globals

/-- What ends a command abnormally. -/
inductive ShellFault
  /-- A fault of the driver, in a system call. -/
  | driver (e : Fault)
  /-- `parent_cluster_number[i]` with `i` outside the 256 entries. -/
  | parentClusterIndex (i : UInt32)
  /-- `dir_buff[i]` with `i` outside the 256 entries. -/
  | dirBuffIndex (i : UInt32)
  /-- `request.name[i]` with `i` behind the end of the request. -/
  | requestNameIndex
  /-- `buf[i]` of a `struct StringBuff` with `i` outside the 256 characters. -/
  | stringBuffIndex
  /-- A string without a NUL in its array. -/
  | unterminated
  /-- The loop of `cetak_prompt`, whose eight-bit counter does not exceed 255. -/
  | endlessPrompt
  /-- System call 1 delivers a cluster to where the bytes of the shell point. -/
  | strayStore
deriving DecidableEq

/-- What a command does: system calls with a request, the disk transfers they lead to in the
kernel, and prints. -/
inductive ShellEvent
  | disk (e : DiskEvent)
  | puts (text : List UInt8) (color : UInt32)
  | call (eax : UInt32) (request : FAT32DriverRequest)

abbrev ShellM := Traced ShellFault Session ShellEvent

/-! ## System calls -/

/-- An operation of the driver. -/
def liftDriver {α : Type} (x : Driver α) : ShellM α :=
  fun s =>
    match x s.fileSystem with
    | ⟨.ok a, fs, w⟩ => ⟨.ok a, { s with fileSystem := fs }, w.map ShellEvent.disk⟩
    | ⟨.error e, fs, w⟩ =>
        ⟨.error (ShellFault.driver e), { s with fileSystem := fs }, w.map ShellEvent.disk⟩

/-- System call `eax` with the address of a request of the shell: 0 is `read`, 2 is `write`
and 8 is `delete`. -/
def syscallRequest {α : Type} (eax : UInt32) (operation : FAT32DriverRequest → Driver α)
    (request : FAT32DriverRequest) : ShellM α :=
  fun s => (liftDriver (operation request) s).prepend [ShellEvent.call eax request]

/-- System call 6. -/
def print (text : List UInt8) (color : UInt32) : ShellM Unit :=
  fun s => ⟨.ok (), s, [ShellEvent.puts text color]⟩

def puts (buf : List UInt8) (color : UInt32) : ShellM Unit :=
  if 0 ∈ buf then print (cString buf) color else fault ShellFault.unterminated

/-- Assign the global variables. -/
def setGlobals (g : Globals) : ShellM Unit :=
  modifyState fun s => { s with globals := g }

def Globals.withTable (g : Globals) (t : FAT32DirectoryTable) : Globals :=
  { g with currentDir := { g.currentDir with table := t } }

/-- The byte `code` stored at the address of `currentDir`. -/
def Globals.withCode (g : Globals) (code : Int8) : Globals :=
  g.withTable (Function.update g.currentDir.table 0
    { g.currentDir.table 0 with
      name := Function.update (g.currentDir.table 0).name 0 code.toUInt8 })

/-- `syscall(3, currentDirCluster, &currentDir, 1)` -/
def readCurrentDir : ShellM Unit := do
  let g := (← getState).globals
  let t ← liftDriver (readTable g.currentDirCluster)
  setGlobals (g.withTable t)

/-- `syscall(1, currentDirCluster, &currentDir, 1)` -/
def readDirectoryAt (image : UInt32 → FAT32DriverRequest) : ShellM Unit := do
  let g := (← getState).globals
  let (code, deliveries) ← liftDriver (readDirectory (image g.currentDirCluster))
  if deliveries.isEmpty then setGlobals (g.withCode code)
  else fault ShellFault.strayStore

/-! ## `cd` -/

/-- `currentDirCluster` taken from the top of the stack of parents; `none` where that is
outside the array. -/
def Globals.popParent (g : Globals) : Option Globals :=
  let i := g.currentDir.bufferIndex - 1
  if h : i.toNat < 256 then
    some { g with
      currentDirCluster := g.currentDir.parentClusterNumber ⟨i.toNat, h⟩
      currentDir := { g.currentDir with bufferIndex := i } }
  else none

/-- `currentDirCluster` put on the stack and replaced by `cluster`. -/
def Globals.pushParent (g : Globals) (cluster : UInt32) : Option Globals :=
  let i := g.currentDir.bufferIndex
  if h : i.toNat < 256 then
    some { g with
      currentDirCluster := cluster
      currentDir := { g.currentDir with
        parentClusterNumber :=
          Function.update g.currentDir.parentClusterNumber ⟨i.toNat, h⟩ g.currentDirCluster
        bufferIndex := i + 1 } }
  else none

/-- `fullname` -/
def fullname (entry : FAT32DirectoryEntry) : List UInt8 := List.ofFn entry.name ++ [0]

/-- `strCompare(dirname.buf, "..") == 1` -/
def isDotDot (dirname : StringBuff) : Bool :=
  strCompare (List.ofFn dirname.buf) (literal "..")

/-- The slot has a name, the one that is asked for. -/
def nameMatches (t : FAT32DirectoryTable) (name : StringBuff) (i : Fin 64) : Bool :=
  (t i).name 0 != 0 && strCompare (fullname (t i)) (List.ofFn name.buf)

/-- The slots at which the loop of `cd` ends. -/
def cdStops (t : FAT32DirectoryTable) (dirname : StringBuff) (i : Fin 64) : Bool :=
  if isDotDot dirname then (t i).name 0 != 0
  else nameMatches t dirname i && (t i).attr &&& 0x10 != 0

/-- The new value of the globals, then system call 1. -/
def moveTo (image : UInt32 → FAT32DriverRequest) (g : Option Globals) (i : UInt32) :
    ShellM Unit := do
  match g with
  | some g =>
      setGlobals g
      readDirectoryAt image
  | none => fault (ShellFault.parentClusterIndex i)

/-- A message of `cd` that `cdNoPrint` leaves out. -/
def say (verbose : Bool) (text : List UInt8) (color : UInt32) : ShellM Unit :=
  if verbose then puts text color else pure ()

/-- The common body of `cd` and `cdNoPrint`. -/
def cdWith (image : UInt32 → FAT32DriverRequest) (verbose : Bool) (dirname : StringBuff) :
    ShellM Unit := do
  if 8 < dirname.len then
    puts (literal "Directory name is too long! (Maximum 8 Characters)") 0xC
  else
    let g := (← getState).globals
    match Fin.find? fun i => cdStops g.currentDir.table dirname i with
    | none => say verbose (literal "Directory not found\n") 0xC
    | some i =>
        if isDotDot dirname then
          if g.currentDirCluster = 2 then
            say verbose (literal "Already in root directory\n") 0xC
          else
            moveTo image g.popParent (g.currentDir.bufferIndex - 1)
            say verbose (literal "Changed directory to parent directory\n") 0x2
        else
          moveTo image (g.pushParent (g.currentDir.table i).cluster) g.currentDir.bufferIndex

def cd (image : UInt32 → FAT32DriverRequest) (dirname : StringBuff) : ShellM Unit :=
  cdWith image true dirname

def cdNoPrint (image : UInt32 → FAT32DriverRequest) (dirname : StringBuff) : ShellM Unit :=
  cdWith image false dirname

/-! ## The system calls, run -/

section Calls

variable {image : UInt32 → FAT32DriverRequest} {s : Session} {g g' : Globals}

@[simp] theorem setGlobals_apply (g : Globals) (s : Session) :
    setGlobals g s = ⟨.ok (), { s with globals := g }, []⟩ := rfl

theorem puts_apply
    {buf : List UInt8}
    (h : 0 ∈ buf)
    (color : UInt32)
    (s : Session) :
    puts buf color s = ⟨.ok (), s, [ShellEvent.puts (cString buf) color]⟩ := by
  rw [puts, if_pos h, print]

@[simp] theorem puts_literal (t : String) (color : UInt32) (s : Session) :
    puts (literal t) color s = ⟨.ok (), s, [ShellEvent.puts (cString (literal t)) color]⟩ :=
  puts_apply (zero_mem_literal t) color s

theorem puts_observes (buf : List UInt8) (color : UInt32) :
    Observes (fun _ => True) (puts buf color) := by
  rw [puts]
  split_ifs
  · exact fun s => ⟨rfl, fun _ _ => trivial⟩
  · exact Observes.fault _

theorem liftDriver_of_ok
    {α : Type}
    {x : Driver α}
    {a : α}
    {fs : FileSystem}
    {w : List DiskEvent}
    (h : x s.fileSystem = ⟨.ok a, fs, w⟩) :
    liftDriver x s = ⟨.ok a, { s with fileSystem := fs }, w.map ShellEvent.disk⟩ := by
  simp only [liftDriver, h]

/-- The globals after system call 3. -/
def Session.loaded (s : Session) : Globals :=
  s.globals.withTable (s.fileSystem.table s.globals.currentDirCluster)

theorem readCurrentDir_apply (s : Session) :
    readCurrentDir s =
      ⟨.ok (), { s with globals := s.loaded },
        (clusterReadEvents (physical s.globals.currentDirCluster)).map ShellEvent.disk⟩ := by
  simp [readCurrentDir, bind_apply, liftDriver_of_ok (readTable_apply _ _), Outcome.prepend,
    Session.loaded]

/-- `read_directory` always comes back, with a code other than 0 if it delivers nothing. -/
theorem readDirectory_reply
    (r : FAT32DriverRequest)
    (fs : FileSystem) :
    ∃ code ds w, readDirectory r fs = ⟨.ok (code, ds), fs, w⟩ ∧ (ds = [] → code ≠ 0) := by
  rcases firstLiveMatch_or (fs.parentTable r) r.key with ⟨k, hk⟩ | hm
  · by_cases hdir : (fs.parentTable r k).IsDir
    · by_cases hsmall : r.bufferSize < 32
      · exact ⟨_, _, _, readDirectory_tooSmall hk hdir hsmall, fun _ => by decide⟩
      · exact ⟨_, _, _, readDirectory_dir hk hdir hsmall, fun h => by cases h⟩
    · exact ⟨_, _, _, readDirectory_file hk hdir, fun _ => by decide⟩
  · exact ⟨_, _, _, readDirectory_notFound hm, fun _ => by decide⟩

/-- The request at the address `c` delivers nothing. -/
def Quiet
    (image : UInt32 → FAT32DriverRequest)
    (fs : FileSystem)
    (c : UInt32) : Prop :=
  ∃ code, (readDirectory (image c) fs).result = .ok (code, [])

instance (image : UInt32 → FAT32DriverRequest) (fs : FileSystem) (c : UInt32) :
    Decidable (Quiet image fs c) :=
  match h : (readDirectory (image c) fs).result with
  | .ok (code, []) => isTrue ⟨code, h⟩
  | .ok (_, _ :: _) => isFalse fun ⟨_, hq⟩ => by rw [h] at hq; cases hq
  | .error _ => isFalse fun ⟨_, hq⟩ => by rw [h] at hq; cases hq

/-- System call 1 for the new globals, if there are any, leaves the globals `g'`. -/
def Arrives
    (image : UInt32 → FAT32DriverRequest)
    (fs : FileSystem)
    (g : Option Globals)
    (g' : Globals) : Prop :=
  ∃ g₁ code, g = some g₁ ∧
    (readDirectory (image g₁.currentDirCluster) fs).result = .ok (code, []) ∧
    g' = g₁.withCode code

theorem arrives_of_quiet
    (h : Quiet image s.fileSystem g.currentDirCluster) :
    ∃ code, Arrives image s.fileSystem (some g) (g.withCode code) := by
  obtain ⟨code, h⟩ := h
  exact ⟨code, g, code, rfl, h, rfl⟩

theorem Arrives.quiet
    (h : Arrives image s.fileSystem (some g) g') :
    Quiet image s.fileSystem g.currentDirCluster := by
  obtain ⟨g₁, code, hg, h, -⟩ := h
  cases hg
  exact ⟨code, h⟩

theorem moveTo_arrives
    {o : Option Globals}
    (h : Arrives image s.fileSystem o g')
    (i : UInt32) :
    Ends (moveTo image o i) s () { s with globals := g' } := by
  obtain ⟨g₁, code, rfl, h, rfl⟩ := h
  obtain ⟨code', ds, w, hrun, -⟩ := readDirectory_reply (image g₁.currentDirCluster) s.fileSystem
  rw [hrun] at h
  cases h
  simp [Ends, moveTo, readDirectoryAt, bind_apply, liftDriver, hrun, Outcome.prepend]

/-- System call 1 strays where its request delivers something. -/
theorem moveTo_strays
    (h : ¬ Quiet image s.fileSystem g.currentDirCluster)
    (i : UInt32) :
    (moveTo image (some g) i s).result = .error ShellFault.strayStore := by
  obtain ⟨code, ds, w, hrun, -⟩ := readDirectory_reply (image g.currentDirCluster) s.fileSystem
  cases ds with
  | nil => exact absurd ⟨code, by rw [hrun]⟩ h
  | cons d ds => simp [moveTo, readDirectoryAt, bind_apply, liftDriver, hrun, Outcome.prepend]

theorem moveTo_strands
    {o : Option Globals}
    (h : ¬ ∃ g', Arrives image s.fileSystem o g')
    (i : UInt32) :
    Faults (moveTo image o i) s := by
  cases o with
  | none => exact ⟨ShellFault.parentClusterIndex i, rfl⟩
  | some g =>
      refine ⟨ShellFault.strayStore, moveTo_strays (fun hquiet => h ?_) i⟩
      obtain ⟨code, harrives⟩ := arrives_of_quiet hquiet
      exact ⟨_, harrives⟩

end Calls

/-! ## The ways through `cd` -/

section Ways

variable {image : UInt32 → FAT32DriverRequest} {verbose : Bool} {dirname : StringBuff}
  {s : Session} {g' : Globals} {i : Fin 64}

/-- The loop of `cd` ends at slot `i`. -/
def StopsAt
    (t : FAT32DirectoryTable)
    (dirname : StringBuff)
    (i : Fin 64) : Prop :=
  cdStops t dirname i = true ∧ ∀ j, j < i → ¬ cdStops t dirname j = true

theorem say_ends (verbose : Bool) (t : String) (color : UInt32) (s : Session) :
    Ends (say verbose (literal t) color) s () s := by
  cases verbose
  · exact Ends.pure () s
  · exact Ends.of_apply (puts_literal t color s)

theorem find_cdStops_eq_some
    {t : FAT32DirectoryTable} :
    (Fin.find? fun j => cdStops t dirname j) = some i ↔ StopsAt t dirname i := by
  rw [Fin.find?_eq_some_iff, StopsAt]
  simp

theorem find_cdStops_eq_none
    {t : FAT32DirectoryTable} :
    (Fin.find? fun j => cdStops t dirname j) = none ↔ ∀ j, ¬ cdStops t dirname j = true := by
  rw [Fin.find?_eq_none_iff]
  simp

theorem cdStops_cases
    (t : FAT32DirectoryTable)
    (dirname : StringBuff) :
    (∃ i, StopsAt t dirname i) ∨ ∀ j, ¬ cdStops t dirname j = true := by
  cases hf : Fin.find? fun j => cdStops t dirname j with
  | none => exact Or.inr (find_cdStops_eq_none.mp hf)
  | some i => exact Or.inl ⟨i, find_cdStops_eq_some.mp hf⟩

theorem cdWith_tooLong
    (hlen : 8 < dirname.len) :
    Ends (cdWith image verbose dirname) s () s := by
  have hputs : Ends (puts (literal "Directory name is too long! (Maximum 8 Characters)") 0xC)
      s () s := Ends.of_apply (puts_literal _ 0xC s)
  rwa [cdWith, if_pos hlen]

variable (hlen : ¬ 8 < dirname.len)
include hlen

theorem cdWith_notFound
    (hno : ∀ j, ¬ cdStops s.globals.currentDir.table dirname j = true) :
    Ends (cdWith image verbose dirname) s () s := by
  have hsay := say_ends verbose "Directory not found\n" 0xC s
  simpa [Ends, cdWith, hlen, bind_apply, find_cdStops_eq_none.mpr hno] using hsay

theorem cdWith_root
    (hi : StopsAt s.globals.currentDir.table dirname i)
    (hup : isDotDot dirname = true)
    (hroot : s.globals.currentDirCluster = 2) :
    Ends (cdWith image verbose dirname) s () s := by
  have hsay := say_ends verbose "Already in root directory\n" 0xC s
  simpa [Ends, cdWith, hlen, bind_apply, find_cdStops_eq_some.mpr hi, hup, hroot] using hsay

theorem cdWith_up
    (hi : StopsAt s.globals.currentDir.table dirname i)
    (hup : isDotDot dirname = true)
    (hroot : s.globals.currentDirCluster ≠ 2) :
    cdWith image verbose dirname s =
      (do
        moveTo image s.globals.popParent (s.globals.currentDir.bufferIndex - 1)
        say verbose (literal "Changed directory to parent directory\n") 0x2 : ShellM Unit) s := by
  simp [cdWith, hlen, bind_apply, find_cdStops_eq_some.mpr hi, hup, hroot, Outcome.prepend]

theorem cdWith_down
    (hi : StopsAt s.globals.currentDir.table dirname i)
    (hup : ¬ isDotDot dirname = true) :
    cdWith image verbose dirname s =
      moveTo image (s.globals.pushParent (s.globals.currentDir.table i).cluster)
        s.globals.currentDir.bufferIndex s := by
  simp [cdWith, hlen, bind_apply, find_cdStops_eq_some.mpr hi, hup, Outcome.prepend]

end Ways

/-! ## The prompt -/

/-- `dir_buff` with the name of `currentDir.table[0]` at `buffer_index`. -/
def Globals.withPrompt (g : Globals) : Globals :=
  { g with
    dirBuff := fun i =>
      if i.val = g.currentDir.bufferIndex.toNat then (g.currentDir.table 0).name
      else g.dirBuff i }

/-- The bytes from `dir_buff[i]` to the end of the array. -/
def dirBuffFrom (g : Globals) (i : Nat) : List UInt8 :=
  ((List.ofFn g.dirBuff).drop i).flatMap List.ofFn

/-- The last loop of `cetak_prompt`, over the indices `is`. -/
def printDirBuff (g : Globals) : List Nat → ShellM Unit
  | [] => return ()
  | i :: is => do
      puts (dirBuffFrom g i) 0x9
      (if i ≠ g.currentDir.bufferIndex.toNat then puts (literal "/") 0x9 else pure ())
      printDirBuff g is

def cetakPrompt : ShellM Unit := do
  readCurrentDir
  let g := (← getState).globals
  puts (literal "Istiqomah@OS-IF2230:") 0x5
  puts (literal "/") 0x9
  let i := g.currentDir.bufferIndex
  if 256 ≤ i.toNat then fault (ShellFault.dirBuffIndex i)
  else
    setGlobals g.withPrompt
    if i.toNat = 255 then fault ShellFault.endlessPrompt
    else
      printDirBuff g.withPrompt (List.range (i.toNat + 1))
      puts (literal "$ ") 0x7

/-- The branch of `parseCommand` for `cd`. -/
def cdCommand (image : UInt32 → FAT32DriverRequest) (variabel : StringBuff) : ShellM Unit := do
  puts (literal "\n") 0x7
  cd image variabel
  cetakPrompt

/-- `main` up to the first prompt. -/
def start : ShellM Unit := do
  let g := (← getState).globals
  setGlobals { g with
    currentDirCluster := 2
    currentDir := { g.currentDir with bufferIndex := 0 } }
  readCurrentDir
  cetakPrompt

/-! ## The prompt, run -/

section Prompt

variable {s : Session} {g : Globals}

/-- The last byte of `dir_buff` ends every string in it. -/
def Globals.LastZero (g : Globals) : Prop := g.dirBuff ⟨255, by decide⟩ ⟨7, by decide⟩ = 0

@[simp] theorem withTable_table (g : Globals) (t : FAT32DirectoryTable) :
    (g.withTable t).currentDir.table = t := rfl

/-- An entry of a vector is found behind every earlier one. -/
theorem mem_drop_ofFn
    {α : Type}
    {n i : Nat}
    (f : Fin n → α)
    (k : Fin n)
    (h : i ≤ k) :
    f k ∈ (List.ofFn f).drop i := by
  have hk : k.val - i < ((List.ofFn f).drop i).length := by
    rw [List.length_drop, List.length_ofFn]
    omega
  have hget : ((List.ofFn f).drop i)[k.val - i] = f k := by
    rw [List.getElem_drop, List.getElem_ofFn]
    exact congrArg f (Fin.ext (by simp only []; omega))
  rw [← hget]
  exact List.getElem_mem hk

theorem zero_mem_dirBuffFrom
    (h : g.LastZero)
    {i : Nat}
    (hi : i ≤ 255) :
    0 ∈ dirBuffFrom g i := by
  refine List.mem_flatMap.mpr ⟨_, mem_drop_ofFn g.dirBuff ⟨255, by decide⟩ hi, ?_⟩
  rw [← h]
  exact (List.mem_ofFn).mpr ⟨⟨7, by decide⟩, rfl⟩

theorem withPrompt_lastZero
    (h : g.LastZero)
    (hi : g.currentDir.bufferIndex.toNat < 255) :
    g.withPrompt.LastZero :=
  (congrFun (if_neg (Nat.ne_of_gt hi)) _).trans h

theorem printDirBuff_observes (g : Globals) (is : List Nat) :
    Observes (fun _ => True) (printDirBuff g is) := by
  induction is with
  | nil => exact Observes.pure ()
  | cons i is ih =>
      refine (puts_observes _ _).bind fun _ => Observes.bind ?_ fun _ => ih
      split_ifs
      · exact puts_observes _ _
      · exact Observes.pure ()

theorem printDirBuff_ends
    {is : List Nat}
    (h : ∀ i, i ∈ is → 0 ∈ dirBuffFrom g i)
    (s : Session) :
    Ends (printDirBuff g is) s () s := by
  induction is with
  | nil => exact Ends.pure () s
  | cons i is ih =>
      have hi := puts_apply (h i List.mem_cons_self) 0x9 s
      refine (Ends.of_apply hi).bind (Ends.bind (show Ends _ s () s from ?_) ?_)
      · split_ifs
        · exact Ends.of_apply (puts_literal "/" 0x9 s)
        · exact Ends.pure () s
      · exact ih fun j hj => h j (List.mem_cons_of_mem i hj)

/-- The globals after the prompt. -/
def Session.prompted (s : Session) : Session := { s with globals := s.loaded.withPrompt }

theorem cetakPrompt_ends
    (hi : s.globals.currentDir.bufferIndex.toNat < 255)
    (hlast : s.globals.LastZero) :
    Ends cetakPrompt s () s.prompted := by
  have hzero : s.loaded.withPrompt.LastZero := withPrompt_lastZero hlast hi
  have hprint : Ends (printDirBuff s.loaded.withPrompt
      (List.range (s.globals.currentDir.bufferIndex.toNat + 1))) s.prompted () s.prompted :=
    printDirBuff_ends (fun i hmem =>
      zero_mem_dirBuffFrom hzero (by rw [List.mem_range] at hmem; omega)) s.prompted
  have hall : Ends (printDirBuff s.loaded.withPrompt
      (List.range (s.globals.currentDir.bufferIndex.toNat + 1)) >>= fun _ =>
        puts (literal "$ ") 0x7) s.prompted () s.prompted :=
    hprint.bind (Ends.of_apply (puts_literal "$ " 0x7 s.prompted))
  have hindex : s.loaded.currentDir.bufferIndex = s.globals.currentDir.bufferIndex := rfl
  have h256 : ¬ 256 ≤ s.globals.currentDir.bufferIndex.toNat := by omega
  have h255 : ¬ s.globals.currentDir.bufferIndex.toNat = 255 := by omega
  simpa only [Ends, Session.prompted, cetakPrompt, bind_apply, readCurrentDir_apply,
    getState_apply, puts_literal, hindex, if_neg h256, if_neg h255, setGlobals_apply,
    Outcome.prepend_result, Outcome.prepend_state] using hall

theorem cetakPrompt_endless
    (hi : s.globals.currentDir.bufferIndex.toNat = 255) :
    (cetakPrompt s).result = .error ShellFault.endlessPrompt := by
  have hindex : s.loaded.currentDir.bufferIndex = s.globals.currentDir.bufferIndex := rfl
  have h256 : ¬ 256 ≤ s.globals.currentDir.bufferIndex.toNat := by omega
  simp only [cetakPrompt, bind_apply, readCurrentDir_apply, getState_apply, puts_literal, hindex,
    if_neg h256, if_pos hi, setGlobals_apply, fault_apply, Outcome.prepend_result]

/-- A prompt that comes to its end was printed at a depth of less than 255. -/
theorem cetakPrompt_ok
    {s' : Session}
    (h : Ends cetakPrompt s () s') :
    s.globals.currentDir.bufferIndex.toNat < 255 ∧ s' = s.prompted := by
  obtain ⟨h, rfl⟩ := h
  have hindex : s.loaded.currentDir.bufferIndex = s.globals.currentDir.bufferIndex := rfl
  simp only [cetakPrompt, bind_apply, readCurrentDir_apply, getState_apply, puts_literal,
    hindex, Outcome.prepend_result, Outcome.prepend_state] at h ⊢
  by_cases h256 : 256 ≤ s.globals.currentDir.bufferIndex.toNat
  · rw [if_pos h256] at h
    cases h
  by_cases h255 : s.globals.currentDir.bufferIndex.toNat = 255
  · simp only [if_neg h256, if_pos h255, bind_apply, setGlobals_apply, fault_apply,
      Outcome.prepend_result] at h
    cases h
  refine ⟨by omega, ?_⟩
  simp only [if_neg h256, if_neg h255]
  have hobs : Observes (fun _ => True)
      (printDirBuff s.loaded.withPrompt
        (List.range (s.globals.currentDir.bufferIndex.toNat + 1)) >>= fun _ =>
          puts (literal "$ ") 0x7) :=
    (printDirBuff_observes _ _).bind fun _ => puts_observes _ _
  exact (hobs s.prompted).1

end Prompt

end Shell
end OS2024
