import OS2024.Console.Keyboard
import OS2024.Fat32.Calls
import OS2024.Lib.WordStack

/-!
# The page frame of the programs and of the kernel

All pages are the same page frame.  A program finds in its own page the kernel too, with the
allocation table that the driver has cached, and the screen; nothing but its own care keeps it from
storing there.  So there is one memory here, and the file system is the disk together with the
bytes of the cached table in this memory.

Where the variables of the kernel are is decided by the linker; `Layout` is any such decision.

**Results.**
* `fileSystem_congr`: the file system is in the disk and in the bytes of the cached table.
* `Layout.fileSystem_store`: what the driver leaves is found there again.
* `liftDriver_readonly`: an operation that only looks at it changes nothing.
* `liftConsole_memory`: the console stores at its own places.
-/

namespace OS2024
namespace Interrupts

open Stdlib TracedState LittleEndian WordStack Fat32 Console

/-- `PAGE_FRAME_SIZE` -/
def pageFrameSize : Nat := 0x400000

/-! ## Clusters in the memory -/

/-- The memory behind a pointer. -/
def behind (m : Memory32) (a : UInt32) : Memory := fun k => m (a + UInt32.ofNat k)

/-- The cluster in the 2048 bytes from `a` on. -/
def clusterAt (m : Memory32) (a : UInt32) : ClusterBuffer := fun k => behind m a k

/-- The memory with the bytes of a cluster from `a` on. -/
def storedCluster (m : Memory32) (a : UInt32) (b : ClusterBuffer) : Memory32 := fun x =>
  if h : (x - a).toNat < 2048 then b ⟨(x - a).toNat, h⟩ else m x

section Clusters

variable {m m' : Memory32} {a x : UInt32}

theorem cluster_distance
    (a : UInt32)
    (k : Fin 2048) :
    (a + UInt32.ofNat k - a).toNat = k := by
  rw [UInt32.add_comm, UInt32.add_sub_cancel]
  exact UInt32.toNat_ofNat_of_lt' (k.isLt.trans (by decide))

@[simp] theorem clusterAt_storedCluster
    (m : Memory32)
    (a : UInt32)
    (b : ClusterBuffer) :
    clusterAt (storedCluster m a b) a = b := by
  funext k
  have hk := cluster_distance a k
  have hlt : (a + UInt32.ofNat k - a).toNat < 2048 := hk.trans_lt k.isLt
  rw [clusterAt, behind, storedCluster, dif_pos hlt]
  exact congrArg b (Fin.ext hk)

@[simp] theorem storedCluster_clusterAt
    (m : Memory32)
    (a : UInt32) :
    storedCluster m a (clusterAt m a) = m := by
  funext x
  rw [storedCluster]
  split_ifs
  · rw [clusterAt, behind, UInt32.ofNat_toNat, UInt32.add_comm, UInt32.sub_add_cancel]
  · rfl

theorem storedCluster_of_not_lt
    (b : ClusterBuffer)
    (h : ¬ (x - a).toNat < 2048) :
    storedCluster m a b x = m x :=
  dif_neg h

theorem clusterAt_congr
    (h : ∀ x, (x - a).toNat < 2048 → m' x = m x) :
    clusterAt m' a = clusterAt m a := by
  funext k
  exact h _ ((cluster_distance a k).trans_lt k.isLt)

end Clusters

/-! ## Layouts -/

/-- Where things are in the page frame. -/
structure Layout where
  /-- The places of the programs.  All others are those of the kernel, with its stack, and of the
  devices. -/
  program : UInt32 → Prop
  inside : ∀ a, program a → a.toNat < pageFrameSize
  /-- The devices and the kernel begin behind the first 512 KiB. -/
  low : ∀ a, a.toNat < 0x80000 → program a
  /-- `&fat32_driverstate.fat_table` -/
  fatTable : UInt32
  /-- `linker.ld` puts the kernel at 1 MiB. -/
  fatTable_high : 0x100000 ≤ fatTable.toNat
  fatTable_fits : fatTable.toNat + 2048 ≤ pageFrameSize
  fatTable_kernel : ∀ a, (a - fatTable).toNat < 2048 → ¬ program a
  /-- The statics of the console and the screen, as they are found in the memory. -/
  loadConsole : Memory32 → ConsoleState
  storeConsole : ConsoleState → Memory32 → Memory32
  storeConsole_own : ∀ c m a,
    program a ∨ (a - fatTable).toNat < 2048 → storeConsole c m a = m a

/-- A byte of the cached allocation table. -/
def Layout.InFat (L : Layout) (a : UInt32) : Prop := (a - L.fatTable).toNat < 2048

/-- The page frame and the disk. -/
structure Machine where
  memory : Memory32
  disk : Disk

/-- The file system that the driver finds. -/
def Layout.fileSystem (L : Layout) (s : Machine) : FileSystem where
  disk := s.disk
  fatTable := FAT32FileAllocationTable.ofBytes (clusterAt s.memory L.fatTable)

/-- The machine with the file system that the driver leaves. -/
def Layout.store (L : Layout) (s : Machine) (fs : FileSystem) : Machine where
  memory := storedCluster s.memory L.fatTable (FAT32FileAllocationTable.toBytes fs.fatTable)
  disk := fs.disk

inductive SyscallEvent
  | disk (e : DiskEvent)
  | screen (e : ConsoleEvent)

abbrev SyscallM := Traced Fault Machine SyscallEvent

/-- An operation of the driver.  If it faults, it does not come back, and neither what it has
stored in a buffer until then nor anything later is of interest. -/
def liftDriver {α : Type} (L : Layout) (x : Driver α) : SyscallM α := fun s =>
  match x (L.fileSystem s) with
  | ⟨r, fs, w⟩ => ⟨r, L.store s fs, w.map SyscallEvent.disk⟩

/-- An operation of the console. -/
def liftConsole {α : Type} (L : Layout) (x : ConsoleM α) : SyscallM α := fun s =>
  match x (L.loadConsole s.memory) with
  | ⟨.ok a, c, w⟩ =>
      ⟨.ok a, { s with memory := L.storeConsole c s.memory }, w.map SyscallEvent.screen⟩
  | ⟨.error e, _, _⟩ => e.elim

section Layouts

variable {L : Layout} {s s' : Machine} {fs : FileSystem} {a : UInt32}

theorem Layout.not_inFat
    (h : L.program a) :
    ¬ L.InFat a :=
  fun hfat => L.fatTable_kernel a hfat h

/-- The bytes from 1 MiB on, where the kernel is, come behind the first ones. -/
theorem Layout.not_inFat_of_lt
    (L : Layout)
    (h : a.toNat < 0x100000) :
    ¬ L.InFat a := by
  have hhigh := L.fatTable_high
  have hfits := L.fatTable_fits
  rw [InFat, UInt32.toNat_sub]
  rw [pageFrameSize] at hfits
  omega

/-- A buffer in the first 512 KiB. -/
theorem Layout.low_of_distance
    (L : Layout)
    {ptr : UInt32}
    {n : Nat}
    (hfits : ptr.toNat + n ≤ 0x80000)
    (h : (a - ptr).toNat < n) :
    L.program a := by
  refine L.low a ?_
  rw [UInt32.toNat_sub] at h
  have ha := a.toNat_lt
  omega

theorem Layout.inFat_fatTable (L : Layout) : L.InFat L.fatTable := by
  rw [InFat, UInt32.sub_self]
  decide

@[simp] theorem Layout.fileSystem_store
    (L : Layout)
    (s : Machine)
    (fs : FileSystem) :
    L.fileSystem (L.store s fs) = fs := by
  rw [fileSystem, store, clusterAt_storedCluster, FAT32FileAllocationTable.ofBytes_toBytes]

@[simp] theorem Layout.store_fileSystem
    (L : Layout)
    (s : Machine) :
    L.store s (L.fileSystem s) = s := by
  rw [store, fileSystem, FAT32FileAllocationTable.toBytes_ofBytes, storedCluster_clusterAt]

theorem Layout.store_memory
    (fs : FileSystem)
    (h : ¬ L.InFat a) :
    (L.store s fs).memory a = s.memory a :=
  storedCluster_of_not_lt _ h

/-- The file system is in the disk and in the bytes of the cached table. -/
theorem fileSystem_congr
    (hdisk : s'.disk = s.disk)
    (hfat : ∀ a, L.InFat a → s'.memory a = s.memory a) :
    L.fileSystem s' = L.fileSystem s := by
  rw [Layout.fileSystem, Layout.fileSystem, hdisk, clusterAt_congr hfat]

end Layouts

/-! ## Operations -/

section Operations

variable {L : Layout} {α : Type} {s : Machine} {a : UInt32}

theorem liftDriver_of_apply
    {x : Driver α}
    {r : Except Fault α}
    {fs : FileSystem}
    {w : List DiskEvent}
    (hrun : x (L.fileSystem s) = ⟨r, fs, w⟩) :
    liftDriver L x s = ⟨r, L.store s fs, w.map SyscallEvent.disk⟩ := by
  rw [liftDriver, hrun]

variable (L) in
/-- An operation that only looks at the file system changes nothing at all. -/
theorem liftDriver_readonly
    {x : Driver α}
    (hx : Readonly x)
    (s : Machine) :
    (liftDriver L x s).state = s := by
  show L.store s (x (L.fileSystem s)).state = s
  rw [(hx _).1, L.store_fileSystem]

variable (L) in
theorem liftConsole_apply
    (x : ConsoleM α)
    (s : Machine) :
    ∃ a c w, liftConsole L x s =
      ⟨.ok a, { s with memory := L.storeConsole c s.memory }, w⟩ := by
  rw [liftConsole]
  rcases x (L.loadConsole s.memory) with ⟨e | a, c, w⟩
  · exact e.elim
  · exact ⟨a, c, _, rfl⟩

variable (L) in
/-- The console does not store at the places of the programs, nor in the cached table. -/
theorem liftConsole_memory
    (x : ConsoleM α)
    (h : L.program a ∨ L.InFat a) :
    Keeps (fun s : Machine => s.memory a) (liftConsole L x) := by
  intro s
  obtain ⟨b, c, w, hrun⟩ := liftConsole_apply L x s
  rw [hrun]
  exact L.storeConsole_own c s.memory a h

variable (L) in
theorem liftConsole_disk
    (x : ConsoleM α) :
    Keeps Machine.disk (liftConsole L x) := by
  intro s
  obtain ⟨b, c, w, hrun⟩ := liftConsole_apply L x s
  rw [hrun]

end Operations

/-! ## An example -/

/-- The statics of the console in the order of their declarations. -/
def consoleBytes (c : ConsoleState) : List UInt8 :=
  List.ofFn (byte32 (Int32.ofInt c.row).toUInt32) ++
    List.ofFn (byte32 (Int32.ofInt c.col).toUInt32) ++
    [c.keyPressed.toUInt8, c.backspacePressed.toUInt8, c.keyboardState.readExtendedMode.toUInt8,
      c.keyboardState.keyboardInputOn.toUInt8, c.keyboardState.keyboardBuffer, c.cursorRow,
      c.cursorCol]

/-- A layout in which the kernel has the place up to 3.5 MiB, and the screen is where it is. -/
def smallLayout : Layout where
  program a := a.toNat < 0x80000 ∨ 0x380000 ≤ a.toNat ∧ a.toNat < 0x400000
  inside a h := by
    rw [pageFrameSize]
    omega
  low a h := Or.inl h
  fatTable := 0x110000
  fatTable_high := by decide
  fatTable_fits := by decide
  fatTable_kernel a h := by
    rw [UInt32.toNat_sub] at h
    have hfat : (0x110000 : UInt32).toNat = 0x110000 := rfl
    omega
  loadConsole m :=
    { row := (loadWord m 0x112000).toInt32.toInt
      col := (loadWord m 0x112004).toInt32.toInt
      keyPressed := m 0x112008 != 0
      backspacePressed := m 0x112009 != 0
      keyboardState := ⟨m 0x11200A != 0, m 0x11200B != 0, m 0x11200C⟩
      cursorRow := m 0x11200D
      cursorCol := m 0x11200E
      framebuffer := behind m 0xB8000 }
  storeConsole c m a :=
    if (a - 0x112000).toNat < 15 then (consoleBytes c).getD (a - 0x112000).toNat 0
    else if (a - 0xB8000).toNat < 0x8000 then c.framebuffer (a - 0xB8000).toNat
    else m a
  storeConsole_own c m a h := by
    have hfat : (0x110000 : UInt32).toNat = 0x110000 := rfl
    have hstatics : (0x112000 : UInt32).toNat = 0x112000 := rfl
    have hscreen : (0xB8000 : UInt32).toNat = 0xB8000 := rfl
    rw [UInt32.toNat_sub] at h
    rw [UInt32.toNat_sub, UInt32.toNat_sub, if_neg (by omega), if_neg (by omega)]

end Interrupts
end OS2024
