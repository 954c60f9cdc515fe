import OS2024.Interrupts.SavedBytes

/-!
# `kernel.c` and `kernel-entrypoint.s`: from the storage to the program

`kernel_setup` mounts the file system, reads the file `shell` to address 0 and writes a file of its
own.  `kernel_execute_user_program` then leaves the kernel with the frame of an interrupt that has
never happened.

The parts of `kernel_setup` that are not about the file system or the screen have modules of their
own; the page for address 0 is there when the shell is read.  The shell is read into the first MiB
of the page frame, in front of the kernel.

**Results.**
* `kernelSetup_run`: to the file system, `kernel_setup` is a mount and two calls, and what the first
  one reads is at address 0.
* `executeUserProgram_enters`: the program runs at its first byte, with its own privilege and stack.
-/

namespace OS2024
namespace Boot

open Stdlib TracedState WordStack Fat32 Console Interrupts Runs

/-! ## `framebuffer.c` -/

/-- `framebuffer_clear`, byte by byte. -/
def framebufferClear : ConsoleM Unit :=
  modifyState fun s =>
    { s with
      framebuffer := (List.range (80 * 25 * 2)).foldl
        (fun m i => Function.update m i (if i % 2 = 0 then 0x00 else 0x07)) s.framebuffer }

/-! ## `kernel.c` -/

/-- A name in `name[8]`, the rest is zero. -/
def nameOf (name : List Char) : Fin 8 → UInt8 := fun k => (name.map byteOfChar).getD k 0

/-- The request for the shell; the memory at 0 is its buffer. -/
def shellRequest (m : Memory32) : FAT32DriverRequest where
  buf := behind m 0
  name := nameOf ['s', 'h', 'e', 'l', 'l']
  ext _ := 0
  parentClusterNumber := rootClusterNumber
  bufferSize := 0x100000

def ikanaideText : List Char :=
  ['H', 'A', 'L', 'L', 'O', ' ', 'T', 'E', 'M', 'A', 'N', ' ', 'T', 'E', 'M', 'A', 'N', 'N', 'N',
    'N', 'N']

/-- The request for the file of the kernel.  `write` takes a whole cluster, so `rodata` follows. -/
def ikanaideRequest (rodata : Memory) : FAT32DriverRequest where
  buf i := if h : i < ikanaideText.length then byteOfChar (ikanaideText.get ⟨i, h⟩) else rodata i
  name := nameOf ['i', 'k', 'a', 'n', 'a', 'i', 'd', 'e']
  ext _ := 0
  parentClusterNumber := rootClusterNumber
  bufferSize := 21

/-- `kernel_setup` from `framebuffer_clear` to `initialize_filesystem_fat32`. -/
def kernelMount (L : Layout) : SyscallM Unit := do
  liftConsole L framebufferClear
  liftConsole L (framebufferSetCursor 0 0)
  liftDriver L initializeFilesystemFat32

/-- `kernel_setup` from `framebuffer_clear` to the second request. -/
def kernelSetup (L : Layout) (rodata : Memory) : SyscallM Unit := do
  kernelMount L
  let m := (← getState).memory
  let (_, deliveries) ← liftDriver L (read (shellRequest m))
  storeDeliveries 0 deliveries
  let _ ← liftDriver L (write (ikanaideRequest rodata))
  return ()

/-! ## `kernel-entrypoint.s` -/

/-- `kernel_execute_user_program` before the `iret`.  The return address is on top of the stack,
the argument behind it. -/
def pushUserProgram (c : Cpu) : Cpu :=
  let c := c.setReg .eax (0x20 ||| 0x3)
  let c := [Segment.ds, .es, .fs, .gs].foldl
    (fun (c : Cpu) s => c.setSeg s (c.reg .eax).toUInt16) c
  let c := c.setReg .ecx (loadWord c.memory (c.reg .esp + 4))
  let c := c.push (c.reg .eax)
  let c := c.setReg .eax (c.reg .ecx)
  let c := c.setReg .eax (c.reg .eax + (0x400000 - 4))
  let c := c.push (c.reg .eax)
  -- pushf
  let c := c.push c.eflags
  let c := c.setReg .eax (0x18 ||| 0x3)
  let c := c.push (c.reg .eax)
  let c := c.setReg .eax (c.reg .ecx)
  c.push (c.reg .eax)

def executeUserProgram (c : Cpu) : Cpu := (pushUserProgram c).iret

/-! ## The first instruction of the program -/

/-- The argument of a function that has just been called. -/
def argument (c : Cpu) : UInt32 := loadWord c.memory (c.reg .esp + 4)

/-- The program before its first instruction.  It finds its own address in `eax` and `ecx`. -/
def userProgram (c : Cpu) : Cpu where
  reg
    | .esp => argument c + (0x400000 - 4)
    | .eax => argument c
    | .ecx => argument c
    | r => c.reg r
  seg
    | .cs => 0x1B
    | _ => 0x23
  eip := argument c
  eflags := c.eflags
  memory := c.memory

/-- What `kernel_execute_user_program` puts on the stack, in the order of the pushes. -/
def userWords (c : Cpu) : List UInt32 :=
  [0x20 ||| 0x3, argument c + (0x400000 - 4), c.eflags, 0x18 ||| 0x3, argument c]

section Program

variable {c : Cpu}

theorem pushUserProgram_memory (c : Cpu) :
    (pushUserProgram c).memory = ((userWords c).foldl Cpu.push c).memory ∧
      (pushUserProgram c).reg .esp = ((userWords c).foldl Cpu.push c).reg .esp := by
  simp [pushUserProgram, userWords, argument, Cpu.push, Cpu.setReg, Cpu.setSeg]

theorem userProgram_cpl (c : Cpu) : ¬ (userProgram c).cpl = 0 := by
  show ¬ (0x1B : UInt16) &&& 3 = 0
  decide

/-- What `iret` finds on the stack is where a program was interrupted. -/
theorem pushUserProgram_stack (c : Cpu) :
    (pushUserProgram c).Stack (c.reg .esp)
      ((userProgram c).eip :: ((userProgram c).seg .cs).toUInt32 :: (userProgram c).eflags ::
        (userProgram c).origin) := by
  obtain ⟨hholds, htop⟩ := c.stack_nil.foldl_push (userWords c) (by simp [userWords])
  obtain ⟨hmemory, hesp⟩ := pushUserProgram_memory c
  have hwords : (userWords c).reverse ++ [] =
      (userProgram c).eip :: ((userProgram c).seg .cs).toUInt32 :: (userProgram c).eflags ::
        (userProgram c).origin := by
    have hcs : (0x18 ||| 0x3 : UInt32) = (0x1B : UInt16).toUInt32 := by decide
    have hss : (0x20 ||| 0x3 : UInt32) = (0x23 : UInt16).toUInt32 := by decide
    rw [Cpu.origin, if_neg (userProgram_cpl c), userWords, hcs, hss]
    rfl
  rw [hwords, ← hmemory, ← hesp] at hholds
  rw [hwords, ← hesp] at htop
  exact ⟨hholds, htop⟩

/-- **The program runs at its first byte, as if it had been interrupted there**, and finds the
memory as the kernel has left it, but for five words on the stack of the kernel. -/
theorem executeUserProgram_enters (c : Cpu) :
    Resumed (userProgram c) (executeUserProgram c) ∧
      ∀ x, ¬ Under (c.reg .esp) 20 x → (executeUserProgram c).memory x = c.memory x := by
  constructor
  · have hselector : (0x20 ||| 0x3 : UInt16) = 0x23 := by decide
    refine iret_resumes ⟨c.reg .esp, 0⟩ ?_ ?_ ?_ ?_
    · rw [Cpu.stackBase, if_neg (userProgram_cpl c)]
      exact pushUserProgram_stack c
    · intro r hr
      cases r <;> simp [pushUserProgram, userProgram, argument, Cpu.push, Cpu.setReg, Cpu.setSeg]
        at hr ⊢
    · intro s hcs hss
      cases s <;> simp [pushUserProgram, userProgram, Cpu.push, Cpu.setReg, Cpu.setSeg,
        hselector] at hcs hss ⊢
    · exact fun hcpl => absurd hcpl (userProgram_cpl c)
  · intro x hx
    have hiret : (executeUserProgram c).memory = (pushUserProgram c).memory := by
      rw [executeUserProgram, Cpu.iret]
      split_ifs
      · rfl
      · rfl
    rw [hiret, (pushUserProgram_memory c).1]
    exact c.stack_nil.foldl_push_memory (userWords c) (by simp [userWords]) hx

end Program

/-! ## The file system during `kernel_setup` -/

section Setup

variable {L : Layout} {s : Machine} {fs : FileSystem}

theorem liftDriver_ends
    {α : Type}
    {x : Driver α}
    {a : α}
    (hrun : Ends x (L.fileSystem s) a fs) :
    Ends (liftDriver L x) s a (L.store s fs) := by
  obtain ⟨w, hw⟩ := hrun.apply
  exact Ends.of_apply (liftDriver_of_apply hw)

theorem shellRequest_key (m : Memory32) : (shellRequest m).key ≠ Key.blank := by
  intro h
  exact absurd (congrFun (congrArg Prod.fst h) 0) (by show ¬ (115 : UInt8) = 0; decide)

theorem required_ikanaide (rodata : Memory) : required (ikanaideRequest rodata) ≠ 0 := by
  have hsize : (ikanaideRequest rodata).bufferSize = 21 := rfl
  have hpos : 0 < (ikanaideRequest rodata).bufferSize.toNat := by
    rw [hsize]
    decide
  have hsmall : (ikanaideRequest rodata).bufferSize.toNat ≤ 255 * 2048 := by
    rw [hsize]
    decide
  have hcount := required_of_small hsmall (not_isFolder hpos)
  intro hzero
  rw [hzero, hsize] at hcount
  exact absurd hcount (by decide)

/-- The console leaves the file system and the places of the programs alone. -/
theorem liftConsole_ends
    {α : Type}
    (x : ConsoleM α)
    (s : Machine) :
    ∃ a s', Ends (liftConsole L x) s a s' ∧ L.fileSystem s' = L.fileSystem s ∧
      ∀ p, L.program p → s'.memory p = s.memory p := by
  obtain ⟨a, c, w, hrun⟩ := liftConsole_apply L x s
  refine ⟨a, _, Ends.of_apply hrun, fileSystem_congr rfl fun p hp => ?_, fun p hp => ?_⟩
  · exact L.storeConsole_own c s.memory p (Or.inr hp)
  · exact L.storeConsole_own c s.memory p (Or.inl hp)

/-- The first MiB is in front of the cached table. -/
theorem storedDeliveries_fileSystem
    {bs : List ClusterBuffer}
    (hlen : bs.length * 2048 ≤ 0x100000) :
    L.fileSystem { s with memory := storedDeliveries s.memory 0 (deliveriesFrom 0 bs) } =
      L.fileSystem s := by
  refine fileSystem_congr rfl fun a ha => storedDeliveries_of_le 0 bs ?_
  by_contra hlow
  refine L.not_inFat_of_lt ?_ ha
  rw [UInt32.sub_zero] at hlow
  omega

/-- The file system is mounted, and the places of the programs are what they were. -/
theorem kernelMount_ends
    (hmount : Ends initializeFilesystemFat32 (L.fileSystem s) () fs) :
    ∃ s', Ends (kernelMount L) s () s' ∧ L.fileSystem s' = fs ∧
      ∀ p, L.program p → s'.memory p = s.memory p := by
  obtain ⟨a₁, s₁, hclear, hfs₁, hplaces₁⟩ := liftConsole_ends (L := L) framebufferClear s
  obtain ⟨a₂, s₂, hcursor, hfs₂, hplaces₂⟩ :=
    liftConsole_ends (L := L) (framebufferSetCursor 0 0) s₁
  rw [← hfs₁, ← hfs₂] at hmount
  refine ⟨L.store s₂ fs, hclear.bind (hcursor.bind (liftDriver_ends hmount)),
    L.fileSystem_store s₂ fs, fun p hp => ?_⟩
  rw [Layout.store_memory fs (Layout.not_inFat hp), hplaces₂ p hp, hplaces₁ p hp]

/-- The second part of `kernel_setup`, with the file system mounted. -/
theorem kernelSetup_ends
    {rodata : Memory}
    {s₁ : Machine}
    {readCode code : Int8}
    {ds : List Delivery}
    (hmounts : Ends (kernelMount L) s () s₁)
    (hread : (read (shellRequest s₁.memory) (L.fileSystem s₁)).result = .ok (readCode, ds))
    (hfs : L.fileSystem { s₁ with memory := storedDeliveries s₁.memory 0 ds } =
      L.fileSystem s₁)
    (hwrite : (write (ikanaideRequest rodata) (L.fileSystem s₁)).result = .ok code) :
    Ends (kernelSetup L rodata) s ()
      (L.store { s₁ with memory := storedDeliveries s₁.memory 0 ds }
        (write (ikanaideRequest rodata) (L.fileSystem s₁)).state) := by
  -- the `read` leaves the machine alone
  have hshell := liftDriver_ends ⟨hread, (read_readonly _ _).1⟩
  rw [L.store_fileSystem] at hshell
  rw [← hfs] at hwrite
  have hfile := liftDriver_ends ⟨hwrite, rfl⟩
  rw [hfs] at hfile
  have hstores : Ends (storeDeliveries 0 ds) s₁ ()
      { s₁ with memory := storedDeliveries s₁.memory 0 ds } := ⟨rfl, rfl⟩
  have hget : Ends (getState : SyscallM Machine) s₁ s₁ s₁ := ⟨rfl, rfl⟩
  rw [kernelSetup]
  exact hmounts.bind (hget.bind (hshell.bind (hstores.bind (hfile.bind (Ends.pure () _)))))

/-- **To the file system, `kernel_setup` is a mount, a `read` and a `write`**, and the clusters of
the shell are at address 0 afterwards. -/
theorem kernelSetup_run
    (rodata : Memory)
    (hmount : Ends initializeFilesystemFat32 (L.fileSystem s) () fs)
    (h : Reached NewSystem WellScoped Fat32.after fs) :
    ∃ code ds, (read (shellRequest (kernelMount L s).state.memory) fs).result = .ok (code, ds) ∧
      (kernelSetup L rodata s).result = .ok () ∧
      L.fileSystem (kernelSetup L rodata s).state = (write (ikanaideRequest rodata) fs).state ∧
      ∀ i, i < 2 ^ 32 → L.program (UInt32.ofNat i) →
        (kernelSetup L rodata s).state.memory (UInt32.ofNat i) =
          Fat32.deliver (behind s.memory 0) ds i := by
  obtain ⟨s₁, hmounts, rfl, hplaces⟩ := kernelMount_ends hmount
  have hs := wellScopedRun_sound h
  have hroot := liveDir_root (L.fileSystem s₁)
  obtain ⟨⟨code, ds⟩, hread⟩ := read_answers hs hroot (shellRequest_key s₁.memory)
  obtain ⟨code', hwrite⟩ := write_answers hs hroot (required_ikanaide rodata)
  obtain ⟨bs, rfl, hlen⟩ := read_deliveries h hroot hread
  have hfs := storedDeliveries_fileSystem (L := L) (s := s₁) hlen
  obtain ⟨hresult, hstate⟩ := kernelSetup_ends hmounts hread hfs hwrite
  rw [hmounts.2, hresult, hstate]
  refine ⟨code, _, hread, rfl, L.fileSystem_store _ _, fun i hi hp => ?_⟩
  rw [Layout.store_memory _ (Layout.not_inFat hp)]
  have hfit : (0 + bs.length) * 2048 ≤ 2 ^ 32 := by
    rw [Nat.zero_add]
    exact hlen.trans (show (0x100000 : UInt32).toNat ≤ 2 ^ 32 by decide)
  have hbytes := behind_storedDeliveries s₁.memory 0 hi hfit
  rw [behind, UInt32.zero_add] at hbytes
  refine hbytes.trans (deliver_congr _ ?_)
  rw [behind, behind, UInt32.zero_add]
  exact hplaces _ hp

end Setup

end Boot
end OS2024
