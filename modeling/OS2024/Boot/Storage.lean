import OS2024.Boot.Setup

/-!
# `external-inserter.c`: from one start to the next

The inserter puts a file on the image, the kernel is started from it, programs run until the power
is switched off, and so on.  Only the disk outlives this; each time the driver finds in its cache
what happens to be in the memory.

**Results.**
* `sessions_run`: from outside, all these sessions are one run of calls of the driver.
* `sessions_uninterrupted`: the disk always holds the file system of that run.
* `inserted_shell_starts`: the program that the kernel enters is the one that was inserted.
-/

namespace OS2024
namespace Boot

open Stdlib TracedState WordStack Fat32 Console Interrupts Runs

/-- What the inserter is called with: the name of the target, the bytes of it if it can be opened,
and the number of the parent. -/
structure Arguments where
  target : List UInt8
  content : Option (List UInt8)
  parent : UInt32

/-- `isspace` -/
def isSpace (c : UInt8) : Bool := c = 32 || (9 ≤ c && c ≤ 13)

/-- `sscanf` with `%8s` -/
def scanName (s : List UInt8) : List UInt8 :=
  ((s.dropWhile isSpace).takeWhile fun c => !isSpace c).take 8

/-- The request of the inserter.  Behind the file, `file_buffer` holds what it held before. -/
def Arguments.request (a : Arguments) (stale : Memory) : FAT32DriverRequest where
  buf i := (a.content.getD []).getD i (stale i)
  name k := (scanName a.target).getD k 0
  ext _ := 0
  parentClusterNumber := a.parent
  bufferSize := UInt32.ofNat (a.content.elim 0 List.length)

/-- `main` of the inserter. -/
def inserterMain (a : Arguments) (stale : Memory) : Driver Int8 := do
  initializeFilesystemFat32
  write (a.request stale)

/-- What happens to the disk: the inserter runs, or the kernel is started with what is in the
memory, and the machine runs until it is switched off. -/
inductive Session
  | insert (a : Arguments) (stale : Memory) (cache : FAT32FileAllocationTable)
  | boot (rodata : Memory) (memory : Memory32) (as : List Action)

/-- The machine when the first program is entered. -/
def booted (L : Layout) (d : Disk) (rodata : Memory) (memory : Memory32) : Machine :=
  (kernelSetup L rodata ⟨memory, d⟩).state

def Session.after (L : Layout) (d : Disk) : Session → Disk
  | insert a stale cache => (inserterMain a stale ⟨d, cache⟩).state.disk
  | boot rodata memory as => (as.foldl (Machine.after L) (booted L d rodata memory)).disk

/-- The calls of the driver in a session. -/
def Session.calls (L : Layout) (d : Disk) : Session → List Call
  | insert a stale _ => [.write (a.request stale)]
  | boot rodata memory as =>
      .read (shellRequest (kernelMount L ⟨memory, d⟩).state.memory) ::
        .write (ikanaideRequest rodata) :: Interrupts.calls L (booted L d rodata memory) as

/-- The calls of the driver in a list of sessions. -/
def storageCalls (L : Layout) : Disk → List Session → List Call
  | _, [] => []
  | d, s :: ss => s.calls L d ++ storageCalls L (s.after L d) ss

/-- The file system on a disk, as it is mounted with an empty cache. -/
def fileSystemOn (d : Disk) : FileSystem := (initializeFilesystemFat32 ⟨d, fun _ => 0⟩).state

/-- The inserter is used for a directory of the tree and a file that is not too large, and what
happens on the machine is safe. -/
def SafeSession (L : Layout) (d : Disk) : Session → Prop
  | .insert a stale _ => WellScoped (fileSystemOn d) (.write (a.request stale))
  | .boot rodata memory as => Along (SafeAction L) (Machine.after L) (booted L d rodata memory) as

/-- A disk without a file system. -/
def Blank (d : Disk) : Prop := d 0 ≠ fsSignature

/-! ## Mounting -/

/-- The file system on the disk is mounted, whatever is in the cache, and it is a reachable one. -/
structure Mounts (d : Disk) : Prop where
  ends : ∀ cache, Ends initializeFilesystemFat32 ⟨d, cache⟩ () (fileSystemOn d)
  reached : Reached NewSystem WellScoped Fat32.after (fileSystemOn d)

section Mounting

variable {d : Disk} {fs : FileSystem}

theorem createdState_cache
    (d : Disk)
    (cache cache' : FAT32FileAllocationTable) :
    createdState ⟨d, cache⟩ = createdState ⟨d, cache'⟩ := rfl

/-- On a blank disk a file system is created. -/
theorem Blank.ends
    (h : Blank d)
    (cache cache' : FAT32FileAllocationTable) :
    Ends initializeFilesystemFat32 ⟨d, cache⟩ () (createFat32 ⟨d, cache'⟩).state := by
  have hboot : (⟨d, cache⟩ : FileSystem).disk 0 ≠ fsSignature := h
  rw [Ends, initialize_of_unformatted hboot, createFat32_apply, createFat32_apply]
  exact ⟨rfl, createdState_cache d cache cache'⟩

theorem Blank.fileSystemOn_eq
    (h : Blank d)
    (cache : FAT32FileAllocationTable) :
    fileSystemOn d = (createFat32 ⟨d, cache⟩).state :=
  (h.ends _ cache).2

theorem Blank.mounts
    (h : Blank d) :
    Mounts d := by
  have heq := h.fileSystemOn_eq fun _ => 0
  refine ⟨fun cache => ?_, Reached.start ⟨_, heq⟩⟩
  rw [heq]
  exact h.ends cache _

/-- A file system is found on its disk again. -/
theorem fileSystemOn_disk
    (hs : Sound fs) :
    fileSystemOn fs.disk = fs := by
  rw [fileSystemOn, initialize_of_sound hs]

theorem mounts_disk
    (h : Reached NewSystem WellScoped Fat32.after fs) :
    Mounts fs.disk := by
  have hs := wellScopedRun_sound h
  refine ⟨fun cache => ?_, ?_⟩
  · rw [fileSystemOn_disk hs, Ends, initialize_of_sound hs]
    exact ⟨rfl, rfl⟩
  · rw [fileSystemOn_disk hs]
    exact h

end Mounting

/-! ## Sessions -/

section Sessions

variable {L : Layout} {d : Disk}

theorem wellScoped_shell
    (fs : FileSystem)
    (memory : Memory32) :
    WellScoped fs (.read (shellRequest memory)) :=
  ⟨⟨liveDir_root fs, nofun⟩, nofun⟩

theorem wellScoped_ikanaide
    (fs : FileSystem)
    (rodata : Memory) :
    WellScoped fs (.write (ikanaideRequest rodata)) :=
  wellScoped_write (liveDir_root fs) (show (21 : UInt32).toNat ≤ 255 * 2048 by decide)

/-- The file system when the first program is entered. -/
theorem booted_fileSystem
    (h : Mounts d)
    (rodata : Memory)
    (memory : Memory32) :
    L.fileSystem (booted L d rodata memory) =
      Fat32.after (fileSystemOn d) (.write (ikanaideRequest rodata)) := by
  have hmount := h.ends (L.fileSystem ⟨memory, d⟩).fatTable
  obtain ⟨-, -, -, -, hfs, -⟩ := kernelSetup_run (L := L) (s := ⟨memory, d⟩) rodata hmount h.reached
  rw [booted, hfs, after_write]

/-- **A session is a run of calls.** -/
theorem session_run
    (h : Mounts d)
    {s : Session}
    (hs : SafeSession L d s) :
    Along WellScoped Fat32.after (fileSystemOn d) (s.calls L d) ∧
      s.after L d = ((s.calls L d).foldl Fat32.after (fileSystemOn d)).disk := by
  cases s with
  | insert a stale cache =>
      refine ⟨⟨hs, trivial⟩, ?_⟩
      obtain ⟨w, hmount⟩ := (h.ends cache).apply
      rw [Session.after, inserterMain, bind_of_ok hmount, Session.calls, List.foldl_cons,
        List.foldl_nil, after_write]
      rfl
  | boot rodata memory as =>
      have hfs := booted_fileSystem (L := L) h rodata memory
      have hwrite := wellScoped_ikanaide (fileSystemOn d) rodata
      have hreached := h.reached.step hwrite
      rw [← hfs] at hreached
      obtain ⟨hcalls, hend⟩ := run_fileSystem hreached hs
      rw [hfs] at hcalls hend
      refine ⟨⟨wellScoped_shell _ _, ?_⟩, ?_⟩
      · rw [after_read]
        exact ⟨hwrite, hcalls⟩
      · rw [Session.calls, List.foldl_cons, List.foldl_cons, after_read, ← hend]
        rfl

/-- The disk mounts again afterwards, and holds what the calls have left. -/
theorem Mounts.after
    (h : Mounts d)
    {s : Session}
    (hs : SafeSession L d s) :
    Mounts (s.after L d) ∧
      fileSystemOn (s.after L d) = (s.calls L d).foldl Fat32.after (fileSystemOn d) := by
  obtain ⟨hcalls, hdisk⟩ := session_run h hs
  have hreached := h.reached.along hcalls
  rw [hdisk]
  exact ⟨mounts_disk hreached, fileSystemOn_disk (wellScopedRun_sound hreached)⟩

/-- **Any number of sessions is one run of calls**; the loading in between does not show. -/
theorem sessions_run
    (h : Mounts d)
    {ss : List Session}
    (hss : Along (SafeSession L) (Session.after L) d ss) :
    Along WellScoped Fat32.after (fileSystemOn d) (storageCalls L d ss) ∧
      Mounts (ss.foldl (Session.after L) d) ∧
      fileSystemOn (ss.foldl (Session.after L) d) =
        (storageCalls L d ss).foldl Fat32.after (fileSystemOn d) := by
  induction ss generalizing d with
  | nil => exact ⟨trivial, h, rfl⟩
  | cons s ss ih =>
      obtain ⟨hnext, heq⟩ := h.after hss.1
      obtain ⟨hcalls, hmounts, hrest⟩ := ih hnext hss.2
      rw [heq] at hcalls hrest
      rw [storageCalls, along_append, List.foldl_append, List.foldl_cons]
      exact ⟨⟨(session_run h hss.1).1, hcalls⟩, hmounts, hrest⟩

theorem storage_mounts
    (h : Reached Blank (SafeSession L) (Session.after L) d) :
    Mounts d :=
  h.invariant (fun _ hd => hd.mounts) fun _ _ hd hs => (hd.after hs).1

/-- **The disk of any sessions carries the file system of one run without interruptions.** -/
theorem sessions_uninterrupted
    (h : Blank d)
    (cache : FAT32FileAllocationTable)
    {ss : List Session}
    (hss : Along (SafeSession L) (Session.after L) d ss) :
    Mounts (ss.foldl (Session.after L) d) ∧
      Along WellScoped Fat32.after (createFat32 ⟨d, cache⟩).state (storageCalls L d ss) ∧
      fileSystemOn (ss.foldl (Session.after L) d) =
        (storageCalls L d ss).foldl Fat32.after (createFat32 ⟨d, cache⟩).state := by
  obtain ⟨hcalls, hmounts, heq⟩ := sessions_run h.mounts hss
  rw [h.fileSystemOn_eq cache] at hcalls heq
  exact ⟨hmounts, hcalls, heq⟩

end Sessions

/-! ## The program -/

/-- The inserter is asked to put these bytes into the root, as the shell. -/
structure InsertsShell (a : Arguments) (bytes : List UInt8) : Prop where
  target : scanName a.target = ['s', 'h', 'e', 'l', 'l'].map byteOfChar
  content : a.content = some bytes
  parent : a.parent = rootClusterNumber
  nonempty : 0 < bytes.length
  small : bytes.length ≤ 255 * 2048

section Program

variable {L : Layout} {d : Disk} {a : Arguments} {stale : Memory}
  {cache : FAT32FileAllocationTable} {bytes : List UInt8}

theorem InsertsShell.size
    (h : InsertsShell a bytes)
    (stale : Memory) :
    (a.request stale).bufferSize.toNat = bytes.length := by
  have hlt : bytes.length < UInt32.size := Nat.lt_of_le_of_lt h.small (by decide)
  rw [Arguments.request, h.content]
  exact UInt32.toNat_ofNat_of_lt' hlt

theorem InsertsShell.buf
    (h : InsertsShell a bytes)
    (stale : Memory)
    {i : Nat}
    (hi : i < bytes.length) :
    (a.request stale).buf i = bytes.get ⟨i, hi⟩ := by
  rw [Arguments.request, h.content]
  show bytes.getD i (stale i) = _
  rw [List.getD_eq_getElem?_getD, List.getElem?_eq_getElem hi]
  rfl

theorem InsertsShell.sameEntry
    (h : InsertsShell a bytes)
    (stale : Memory)
    (memory : Memory32) :
    SameEntry (a.request stale) (shellRequest memory) := by
  refine ⟨h.parent.symm, Prod.ext (funext fun k => ?_) rfl⟩
  show nameOf ['s', 'h', 'e', 'l', 'l'] k = (scanName a.target).getD k 0
  rw [h.target]
  rfl

variable (L) in
theorem InsertsShell.safe
    (h : InsertsShell a bytes)
    (stale : Memory)
    (cache : FAT32FileAllocationTable)
    (d : Disk) :
    SafeSession L d (.insert a stale cache) := by
  have hp : LiveDir (fileSystemOn d) (a.request stale).parentClusterNumber := by
    show LiveDir (fileSystemOn d) a.parent
    rw [h.parent]
    exact liveDir_root _
  refine wellScoped_write hp ?_
  rw [h.size stale]
  exact h.small

/-- The clusters of the shell are what the kernel reads at a later start. -/
theorem read_shell
    (hm : Mounts d)
    (ha : InsertsShell a bytes)
    (hinserted : (inserterMain a stale ⟨d, cache⟩).result = .ok 0)
    {d₁ d₂ : Disk}
    (hd₁ : Session.after L d (.insert a stale cache) = d₁)
    {later : List Session}
    (hlater : Along (SafeSession L) (Session.after L) d₁ later)
    (hkept : ∀ r, Call.delete r ∈ storageCalls L d₁ later → ¬ SameEntry (a.request stale) r)
    (hd₂ : later.foldl (Session.after L) d₁ = d₂)
    (memory : Memory32) :
    Mounts d₂ ∧ (read (shellRequest memory) (fileSystemOn d₂)).result =
      .ok (0, deliveriesFrom 0 (chunks (a.request stale).buf 0
        (clusterCount (a.request stale).bufferSize))) := by
  have hsize := ha.size stale
  have hsafe := ha.safe L stale cache d
  obtain ⟨hm₁, hfs⟩ := hm.after hsafe
  rw [Session.calls, List.foldl_cons, List.foldl_nil, after_write, hd₁] at hfs
  rw [hd₁] at hm₁
  have hw : (write (a.request stale) (fileSystemOn d)).result = .ok 0 := by
    obtain ⟨w, hmount⟩ := (hm.ends cache).apply
    rwa [inserterMain, bind_of_ok hmount] at hinserted
  obtain ⟨hcalls, hm₂, hend⟩ := sessions_run hm₁ hlater
  rw [hd₂] at hm₂ hend
  rw [hfs] at hcalls hend
  have hlarge : 2048 * clusterCount (a.request stale).bufferSize ≤
      (shellRequest memory).bufferSize.toNat := by
    have hcount := clusterCount_le (hsize.trans_le ha.small)
    show _ ≤ (0x100000 : UInt32).toNat
    have htotal : (0x100000 : UInt32).toNat = 2048 * 512 := rfl
    rw [htotal]
    omega
  have hread := read_written_calls hm.reached hsafe (ha.nonempty.trans_eq hsize.symm) hw hcalls
    hkept (ha.sameEntry stale memory) hlarge
  rw [← hend] at hread
  exact ⟨hm₂, hread⟩

/-- **The program that the kernel enters is the one that was inserted**, whatever was inserted,
started and run in the meantime, if nothing has asked to delete it. -/
theorem inserted_shell_starts
    (h : Reached Blank (SafeSession L) (Session.after L) d)
    (ha : InsertsShell a bytes)
    (hinserted : (inserterMain a stale ⟨d, cache⟩).result = .ok 0)
    {d₁ d₂ : Disk}
    (hd₁ : Session.after L d (.insert a stale cache) = d₁)
    {later : List Session}
    (hlater : Along (SafeSession L) (Session.after L) d₁ later)
    (hkept : ∀ r, Call.delete r ∈ storageCalls L d₁ later → ¬ SameEntry (a.request stale) r)
    (hd₂ : later.foldl (Session.after L) d₁ = d₂)
    (rodata : Memory)
    (memory : Memory32)
    {c : Cpu}
    (hmemory : ∀ p, L.program p → c.memory p = (booted L d₂ rodata memory).memory p)
    (hargument : argument c = 0)
    (hstack : ∀ p, L.program p → ¬ Under (c.reg .esp) 20 p) :
    (kernelSetup L rodata ⟨memory, d₂⟩).result = .ok () ∧
      Resumed (userProgram c) (executeUserProgram c) ∧ (executeUserProgram c).eip = 0 ∧
      ∀ i (hi : i < bytes.length),
        (executeUserProgram c).memory (UInt32.ofNat i) = bytes.get ⟨i, hi⟩ := by
  obtain ⟨hm, hread⟩ := read_shell (storage_mounts h) ha hinserted hd₁ hlater hkept hd₂
    (kernelMount L ⟨memory, d₂⟩).state.memory
  obtain ⟨code, ds, hread', hresult, -, hbytes⟩ :=
    kernelSetup_run (L := L) (s := ⟨memory, d₂⟩) rodata (hm.ends _) hm.reached
  have hds : ds = deliveriesFrom 0
      (chunks (a.request stale).buf 0 (clusterCount (a.request stale).bufferSize)) := by
    rw [hread] at hread'
    cases hread'
    rfl
  obtain ⟨henters, hleft⟩ := executeUserProgram_enters c
  refine ⟨hresult, henters, henters.eip.trans hargument, fun i hi => ?_⟩
  have hlow : i < 0x80000 := hi.trans (Nat.lt_of_le_of_lt ha.small (by decide))
  have hi32 : i < 2 ^ 32 := hlow.trans (by decide)
  have hp : L.program (UInt32.ofNat i) := by
    refine L.low _ ?_
    rwa [UInt32.toNat_ofNat_of_lt' hi32]
  rw [hleft _ (hstack _ hp), hmemory _ hp, booted, hbytes i hi32 hp, hds,
    deliver_written _ (hi.trans_eq (ha.size stale).symm), ha.buf stale hi]

end Program

/-- A new image. -/
def blankDisk : Disk := fun _ _ => 0

theorem blankDisk_blank : Blank blankDisk := fun h => absurd (congrFun h 0) (by decide)

/-- A shell that jumps to itself. -/
def shellArguments : Arguments where
  target := ['s', 'h', 'e', 'l', 'l'].map byteOfChar
  content := some [0xEB, 0xFE]
  parent := 2

theorem shellArguments_insertsShell : InsertsShell shellArguments [0xEB, 0xFE] :=
  ⟨by decide, rfl, rfl, by decide, by decide⟩

/-- A cache that nobody has cleared. -/
def staleCache : FAT32FileAllocationTable := fun i => UInt32.ofNat i

/-- The kernel is started, and switched off after a while. -/
def restart : List Session := [.boot (fun _ => 0) (fun x => x.toUInt8) forget]

theorem restart_safe (d : Disk) :
    Along (SafeSession smallLayout) (Session.after smallLayout) d restart :=
  ⟨forget_safe _, trivial⟩

theorem sessions_uninterrupted_restart :
    Mounts (restart.foldl (Session.after smallLayout) blankDisk) ∧
      Along WellScoped Fat32.after (createFat32 ⟨blankDisk, staleCache⟩).state
        (storageCalls smallLayout blankDisk restart) ∧
      fileSystemOn (restart.foldl (Session.after smallLayout) blankDisk) =
        (storageCalls smallLayout blankDisk restart).foldl Fat32.after
          (createFat32 ⟨blankDisk, staleCache⟩).state :=
  sessions_uninterrupted blankDisk_blank staleCache (restart_safe _)

def insertedDisk : Disk :=
  Session.after smallLayout blankDisk (.insert shellArguments (fun _ => 0xCC) staleCache)

def restartDisk : Disk := restart.foldl (Session.after smallLayout) insertedDisk

def restartMachine : Machine := booted smallLayout restartDisk (fun _ => 0) fun x => x.toUInt8

/-- The processor when `kernel_execute_user_program` is called.  All addresses show the page frame,
and the stack of the kernel is empty but for the argument. -/
def kernelCpu (m : Memory32) : Cpu where
  reg
    | .esp => 0xC0310000
    | _ => 0
  seg s := if s = .cs then 0x8 else 0x10
  eip := 0xC0100000
  eflags := 0x202
  memory x :=
    if 0x300000 ≤ x % 0x400000 ∧ x % 0x400000 < 0x320000 then 0 else m (x % 0x400000)

theorem kernelCpu_esp (m : Memory32) : (kernelCpu m).reg .esp = 0xC0310000 := rfl

theorem kernelCpu_memory
    (m : Memory32)
    {p : UInt32}
    (hp : smallLayout.program p) :
    (kernelCpu m).memory p = m p := by
  have hplace : p % 0x400000 = p := by
    apply UInt32.toNat_inj.mp
    rw [UInt32.toNat_mod]
    exact Nat.mod_eq_of_lt (smallLayout.inside p hp)
  show (if 0x300000 ≤ p % 0x400000 ∧ p % 0x400000 < 0x320000 then 0 else m (p % 0x400000)) = m p
  rw [hplace]
  refine if_neg fun hstack => ?_
  have hlow := UInt32.le_iff_toNat_le.mp hstack.1
  have hhigh := UInt32.lt_iff_toNat_lt.mp hstack.2
  have hfirst : (0x300000 : UInt32).toNat = 0x300000 := rfl
  have hlast : (0x320000 : UInt32).toNat = 0x320000 := rfl
  rcases hp with hp | hp
  · omega
  · omega

theorem kernelCpu_argument (m : Memory32) : argument (kernelCpu m) = 0 := by
  have hbytes : ∀ i : Fin 4,
      0x300000 ≤ ((0xC0310000 : UInt32) + 4 + UInt32.ofNat i) % 0x400000 ∧
        ((0xC0310000 : UInt32) + 4 + UInt32.ofNat i) % 0x400000 < 0x320000 := by decide
  have hzero : ∀ i : Fin 4,
      (kernelCpu m).memory ((0xC0310000 : UInt32) + 4 + UInt32.ofNat i) = 0 :=
    fun i => if_pos (hbytes i)
  rw [argument, kernelCpu_esp, loadWord_congr (m := fun _ => 0) hzero]
  decide

theorem kernelCpu_stack
    (m : Memory32)
    {p : UInt32}
    (hp : smallLayout.program p) :
    ¬ Under ((kernelCpu m).reg .esp) 20 p := by
  have htop : ((0xC0310000 : UInt32) - 1).toNat = 0xC030FFFF := rfl
  rw [kernelCpu_esp, Under, UInt32.toNat_sub, htop]
  rcases hp with hp | hp
  · omega
  · omega

theorem inserted_shell_starts_restart :
    (kernelSetup smallLayout (fun _ => 0) ⟨fun x => x.toUInt8, restartDisk⟩).result = .ok () ∧
      Resumed (userProgram (kernelCpu restartMachine.memory))
        (executeUserProgram (kernelCpu restartMachine.memory)) ∧
      (executeUserProgram (kernelCpu restartMachine.memory)).eip = 0 ∧
      ∀ i (hi : i < [0xEB, 0xFE].length),
        (executeUserProgram (kernelCpu restartMachine.memory)).memory (UInt32.ofNat i) =
          [0xEB, 0xFE].get ⟨i, hi⟩ := by
  have hinserted : (inserterMain shellArguments (fun _ => 0xCC) ⟨blankDisk, staleCache⟩).result =
      .ok 0 := by decide +kernel
  have hdisk : Session.after smallLayout blankDisk
      (.insert shellArguments (fun _ => 0xCC) staleCache) = insertedDisk := rfl
  have hkept : ∀ r, Call.delete r ∈ storageCalls smallLayout insertedDisk restart →
      ¬ SameEntry (shellArguments.request fun _ => 0xCC) r := by
    intro r hr
    simp [restart, storageCalls, Session.calls, Interrupts.calls, forget, Action.call] at hr
  have hrestart : restart.foldl (Session.after smallLayout) insertedDisk = restartDisk := rfl
  exact inserted_shell_starts (Reached.start blankDisk_blank) shellArguments_insertsShell hinserted
    hdisk (restart_safe insertedDisk) hkept hrestart (fun _ => 0) (fun x => x.toUInt8)
    (fun p hp => by rw [kernelCpu_memory _ hp, restartMachine]) (kernelCpu_argument _)
    fun p hp => kernelCpu_stack _ hp

end Boot
end OS2024
