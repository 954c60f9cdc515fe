import OS2024.Console.Screen
import OS2024.Fat32.Service
import OS2024.Interrupts.Entry
import OS2024.Interrupts.PageFrame

/-!
# `interrupt.c`: system calls

A program puts addresses into its registers and executes `int 0x30`.  The kernel reads the request
from the memory, calls the driver and stores what comes back there: the clusters that were read
from `request.buf` on, and the code at `ecx`.

The kernel checks no address.  A program can overwrite the kernel, or have it overwritten by a
system call; `SafeAction` says what it must not do.  In particular, the pointers that it passes
are to its own places.

**Results.**
* `after_fileSystem`: to the file system, a safe action is at most one call of the driver.
* `run_fileSystem`: so a run of programs, keys and system calls is a run of calls.
* `run_reached`: the file system stays reachable in them.
* `interrupt_frame`: which bytes of a program an interrupt can change.
-/

namespace OS2024
namespace Interrupts

open Stdlib TracedState WordStack Fat32 Console Runs

/-- `*(struct FAT32DriverRequest*) a`, a packed structure. -/
def requestAt (m : Memory32) (a : UInt32) : FAT32DriverRequest where
  buf := behind m (loadWord m a)
  name i := behind m (a + 4) i
  ext i := behind m (a + 12) i
  parentClusterNumber := loadWord m (a + 15)
  bufferSize := loadWord m (a + 19)

/-- The memory with the clusters of a `read` in the buffer at `ptr`. -/
def storedDeliveries (m : Memory32) (ptr : UInt32) (ds : List Delivery) : Memory32 :=
  ds.foldl (fun m d => storedCluster m (ptr + UInt32.ofNat d.1) d.2) m

def storeByte (a : UInt32) (b : UInt8) : SyscallM Unit :=
  modifyState fun s => { s with memory := Function.update s.memory a b }

def storeCluster (a : UInt32) (b : ClusterBuffer) : SyscallM Unit :=
  modifyState fun s => { s with memory := storedCluster s.memory a b }

def storeDeliveries (ptr : UInt32) (ds : List Delivery) : SyscallM Unit :=
  modifyState fun s => { s with memory := storedDeliveries s.memory ptr ds }

def syscall (L : Layout) (frame : InterruptFrame) : SyscallM Unit := do
  let m := (← getState).memory
  if frame.eax = 0 then
    let (code, deliveries) ← liftDriver L (read (requestAt m frame.ebx))
    storeDeliveries (loadWord m frame.ebx) deliveries
    storeByte frame.ecx code.toUInt8
  else if frame.eax = 1 then
    let (code, deliveries) ← liftDriver L (readDirectory (requestAt m frame.ebx))
    storeDeliveries (loadWord m frame.ebx) deliveries
    storeByte frame.ecx code.toUInt8
  else if frame.eax = 2 then
    let code ← liftDriver L (write (requestAt m frame.ebx))
    storeByte frame.ecx code.toUInt8
  else if frame.eax = 3 then
    let b ← liftDriver L (readCluster frame.ebx)
    storeCluster frame.ecx b
  else if frame.eax = 4 then
    let c ← liftConsole L getKeyboardBuffer
    storeByte frame.ebx c
  else if frame.eax = 6 then
    liftConsole L (puts (behind m frame.ebx) frame.ecx frame.edx)
  else if frame.eax = 7 then liftConsole L keyboardStateActivate
  else if frame.eax = 8 then
    let code ← liftDriver L (delete (requestAt m frame.ebx))
    storeByte frame.ecx code.toUInt8
  else return ()

/-- `main_interrupt_handler`, with the byte at the port of the keyboard. -/
def mainInterruptHandler (L : Layout) (frame : InterruptFrame) (scancode : UInt8) :
    SyscallM Unit :=
  -- PIC1_OFFSET + IRQ_KEYBOARD
  if frame.intNumber = 0x21 then liftConsole L (keyboardIsr scancode)
  else if frame.intNumber = 0x30 then syscall L frame
  else return ()

/-- The call of the driver that a system call makes. -/
def InterruptFrame.call (frame : InterruptFrame) (m : Memory32) : Option Call :=
  if frame.eax = 0 then some (.read (requestAt m frame.ebx))
  else if frame.eax = 1 then some (.readDirectory (requestAt m frame.ebx))
  else if frame.eax = 2 then some (.write (requestAt m frame.ebx))
  else if frame.eax = 8 then some (.delete (requestAt m frame.ebx))
  else none

/-! ## Safe actions -/

/-- How many bytes of its buffer a call can store to. -/
def stored : Call → Nat
  | .read r => r.bufferSize.toNat
  | .readDirectory _ => 2048
  | .write _ => 0
  | .delete _ => 0

/-- How many bytes of its buffer a call takes; `write` takes whole clusters. -/
def taken : Call → Nat
  | .write r => 2048 * clusterCount r.bufferSize
  | _ => 0

/-- The bytes that a system call can change. -/
def InterruptFrame.Touches (frame : InterruptFrame) (m : Memory32) (a : UInt32) : Prop :=
  match frame.call m with
  | some c => a = frame.ecx ∨ (a - loadWord m frame.ebx).toNat < stored c
  | none =>
      if frame.eax = 3 then (a - frame.ecx).toNat < 2048
      else if frame.eax = 4 then a = frame.ebx
      else False

/-- The bytes that a system call looks at: the request and the buffer, or the text of `puts`. -/
def InterruptFrame.Reads (frame : InterruptFrame) (m : Memory32) (a : UInt32) : Prop :=
  match frame.call m with
  | some c => (a - frame.ebx).toNat < 23 ∨ (a - loadWord m frame.ebx).toNat < taken c
  | none => frame.eax = 6 ∧ (a - frame.ebx).toNat < frame.ecx.toNat

/-- What happens: the program does something to the memory, the kernel does something with data
of its own (its stack, its buffers), or there is an interrupt. -/
inductive Action
  | compute (f : Memory32 → Memory32)
  | kernel (f : Memory32 → Memory32)
  | interrupt (frame : InterruptFrame) (scancode : UInt8)

def Machine.after (L : Layout) (s : Machine) : Action → Machine
  | .compute f => { s with memory := f s.memory }
  | .kernel f => { s with memory := f s.memory }
  | .interrupt frame scancode => (mainInterruptHandler L frame scancode s).state

/-- The call of the driver in a step. -/
def Action.call (m : Memory32) : Action → Option Call
  | .interrupt frame _ => if frame.intNumber = 0x30 then frame.call m else none
  | _ => none

/-- The calls of the driver in a run. -/
def calls (L : Layout) : Machine → List Action → List Call
  | _, [] => []
  | s, a :: as => (a.call s.memory).toList ++ calls L (s.after L a) as

/-- What a system call reads and stores for the program is at the places of the program.  What is
read at other places can change while the kernel is at work. -/
structure OwnPlaces (L : Layout) (m : Memory32) (frame : InterruptFrame) : Prop where
  stores : ∀ a, frame.Touches m a → L.program a
  reads : ∀ a, frame.Reads m a → L.program a

/-- The call is well-scoped, the interrupt returns, and it keeps to the places of the program. -/
structure SafeInterrupt (L : Layout) (s : Machine) (frame : InterruptFrame) (scancode : UInt8) :
    Prop where
  call : ∀ c, (Action.interrupt frame scancode).call s.memory = some c →
    WellScoped (L.fileSystem s) c
  returns : (mainInterruptHandler L frame scancode s).result = .ok ()
  places : frame.intNumber = 0x30 → OwnPlaces L s.memory frame

/-- Everybody stores at his own places. -/
def SafeAction (L : Layout) (s : Machine) : Action → Prop
  | .compute f => ∀ a, ¬ L.program a → f s.memory a = s.memory a
  | .kernel f => ∀ a, L.program a ∨ L.InFat a → f s.memory a = s.memory a
  | .interrupt frame scancode => SafeInterrupt L s frame scancode

/-! ## Calls of the driver -/

/-- The part of a system call that is the same for all calls of the driver. -/
def answerCall (L : Layout) (ptr codeAddress : UInt32) (c : Call) : SyscallM Unit := do
  let (code, deliveries) ← liftDriver L c.run
  storeDeliveries ptr deliveries
  storeByte codeAddress code.toUInt8

/-- The machine after a call of the driver that has answered. -/
def Machine.answered (s : Machine) (ptr codeAddress : UInt32) (reply : Reply) : Machine :=
  { s with
    memory := Function.update (storedDeliveries s.memory ptr reply.2) codeAddress
      reply.1.toUInt8 }

section Answers

variable {L : Layout} {frame : InterruptFrame} {s : Machine} {c : Call}

/-- `write` and `delete` deliver nothing. -/
theorem answerCall_code
    (ptr a : UInt32)
    (x : Driver Int8)
    (s : Machine) :
    (liftDriver L x >>= fun code => storeByte a code.toUInt8) s =
      (liftDriver L ((·, ([] : List Delivery)) <$> x) >>= fun reply =>
        storeDeliveries ptr reply.2 >>= fun _ => storeByte a reply.1.toUInt8) s := by
  rw [bind_apply, bind_apply, liftDriver, liftDriver, map_apply]
  rcases x (L.fileSystem s) with ⟨e | code, fs, w⟩
  · rfl
  · rfl

/-- A system call with a request. -/
theorem syscall_of_call
    (hcall : frame.call s.memory = some c) :
    syscall L frame s = answerCall L (loadWord s.memory frame.ebx) frame.ecx c s := by
  rw [InterruptFrame.call] at hcall
  rw [syscall, getState_bind]
  split_ifs at hcall with h0 h1 h2 h8
  · cases hcall
    rw [if_pos h0]
    rfl
  · cases hcall
    rw [if_neg h0, if_pos h1]
    rfl
  · cases hcall
    rw [if_neg h0, if_neg h1, if_pos h2]
    exact answerCall_code _ _ _ s
  · cases hcall
    have h3 : ¬ frame.eax = 3 := fun h => absurd (h.symm.trans h8) (by decide)
    have h4 : ¬ frame.eax = 4 := fun h => absurd (h.symm.trans h8) (by decide)
    have h6 : ¬ frame.eax = 6 := fun h => absurd (h.symm.trans h8) (by decide)
    have h7 : ¬ frame.eax = 7 := fun h => absurd (h.symm.trans h8) (by decide)
    rw [if_neg h0, if_neg h1, if_neg h2, if_neg h3, if_neg h4, if_neg h6, if_neg h7, if_pos h8]
    exact answerCall_code _ _ _ s

/-- If the driver answers, its answer is stored. -/
theorem answerCall_of_ok
    (ptr a : UInt32)
    {reply : Reply}
    {fs : FileSystem}
    {w : List DiskEvent}
    (hrun : c.run (L.fileSystem s) = ⟨.ok reply, fs, w⟩) :
    (answerCall L ptr a c s).result = .ok () ∧
      (answerCall L ptr a c s).state = (L.store s fs).answered ptr a reply := by
  rw [answerCall, bind_apply, liftDriver_of_apply hrun]
  exact ⟨rfl, rfl⟩

/-- Only a call that has answered returns. -/
theorem answerCall_returns
    {ptr a : UInt32}
    (h : (answerCall L ptr a c s).result = .ok ()) :
    ∃ reply w, c.run (L.fileSystem s) = ⟨.ok reply, Fat32.after (L.fileSystem s) c, w⟩ ∧
      (answerCall L ptr a c s).state =
        (L.store s (Fat32.after (L.fileSystem s) c)).answered ptr a reply := by
  rcases hrun : c.run (L.fileSystem s) with ⟨e | reply, fs, w⟩
  · rw [answerCall, bind_apply, liftDriver_of_apply hrun] at h
    cases h
  · have hfs : Fat32.after (L.fileSystem s) c = fs := congrArg Outcome.state hrun
    rw [hfs]
    exact ⟨reply, w, rfl, (answerCall_of_ok ptr a hrun).2⟩

end Answers

/-! ## What a call stores -/

section Deliveries

variable {s : FileSystem} {r : FAT32DriverRequest} {code : Int8} {ds : List Delivery}

/-- `read_directory` stores one cluster at most. -/
theorem readDirectory_deliveries
    (hread : (readDirectory r s).result = .ok (code, ds)) :
    ∃ bs, ds = deliveriesFrom 0 bs ∧ bs.length * 2048 ≤ 2048 := by
  have hnothing : ds = [] → ∃ bs, ds = deliveriesFrom 0 bs ∧ bs.length * 2048 ≤ 2048 :=
    fun hnil => ⟨[], hnil, by simp⟩
  rcases firstLiveMatch_or (s.parentTable r) r.key with ⟨i, hi⟩ | hnone
  · by_cases hdir : (s.parentTable r i).IsDir
    · by_cases hsmall : r.bufferSize < 32
      · rw [readDirectory_tooSmall hi hdir hsmall] at hread
        exact hnothing (by cases hread; rfl)
      · rw [readDirectory_dir hi hdir hsmall] at hread
        cases hread
        exact ⟨[_], rfl, by rw [List.length_singleton, Nat.one_mul]⟩
    · rw [readDirectory_file hi hdir] at hread
      exact hnothing (by cases hread; rfl)
  · rw [readDirectory_notFound hnone] at hread
    exact hnothing (by cases hread; rfl)

/-- `write` and `delete` store nothing. -/
theorem code_only
    {x : Driver Int8}
    (hrun : (((·, []) <$> x : Driver Reply) s).result = .ok (code, ds)) :
    (x s).result = .ok code ∧ ds = [] := by
  rw [map_apply] at hrun
  rcases hx : x s with ⟨e | a, s', w⟩ <;> rw [hx] at hrun <;> cases hrun
  exact ⟨rfl, rfl⟩

/-- A call stores clusters from the beginning of its buffer on, and no more of them than it may. -/
theorem run_deliveries
    {c : Call}
    (h : Reached NewSystem WellScoped Fat32.after s)
    (hc : WellScoped s c)
    (hrun : (c.run s).result = .ok (code, ds)) :
    ∃ bs, ds = deliveriesFrom 0 bs ∧ bs.length * 2048 ≤ stored c := by
  cases c with
  | read r => exact read_deliveries h hc.1.parent hrun
  | readDirectory r => exact readDirectory_deliveries hrun
  | write r => exact ⟨[], (code_only hrun).2, Nat.zero_le _⟩
  | delete r => exact ⟨[], (code_only hrun).2, Nat.zero_le _⟩

end Deliveries

section Stores

variable {m : Memory32} {a ptr : UInt32}

/-- The distance to a cluster of the buffer. -/
theorem toNat_sub_cluster
    {j : Nat}
    (h : j * 2048 ≤ (a - ptr).toNat) :
    (a - (ptr + UInt32.ofNat (j * 2048))).toNat = (a - ptr).toNat - j * 2048 := by
  have hj : (UInt32.ofNat (j * 2048)).toNat = j * 2048 :=
    UInt32.toNat_ofNat_of_lt' (Nat.lt_of_le_of_lt h (a - ptr).toNat_lt_size)
  have hsub : a - (ptr + UInt32.ofNat (j * 2048)) = a - ptr - UInt32.ofNat (j * 2048) := by grind
  have hle : UInt32.ofNat (j * 2048) ≤ a - ptr := by
    rwa [UInt32.le_iff_toNat_le, hj]
  rw [hsub, UInt32.toNat_sub_of_le _ _ hle, hj]

theorem cluster_distances
    {j n length : Nat}
    (h : (j + (length + 1)) * 2048 ≤ n) :
    j * 2048 ≤ n ∧ ¬ n - j * 2048 < 2048 ∧ (j + 1 + length) * 2048 ≤ n := by omega

/-- A byte behind the clusters from number `j` on. -/
theorem storedDeliveries_of_le
    (j : Nat)
    (bs : List ClusterBuffer)
    (h : (j + bs.length) * 2048 ≤ (a - ptr).toNat) :
    storedDeliveries m ptr (deliveriesFrom j bs) a = m a := by
  induction bs generalizing m j with
  | nil => rfl
  | cons b bs ih =>
      rw [List.length_cons] at h
      obtain ⟨hlow, hbehind, hnext⟩ := cluster_distances h
      rw [← toNat_sub_cluster hlow] at hbehind
      exact (ih (j + 1) hnext).trans (storedCluster_of_not_lt b hbehind)

end Stores

section Frames

variable {L : Layout} {s : Machine} {frame : InterruptFrame} {a : UInt32}

/-- A call changes the byte for its code, what it delivers, and the cached table. -/
theorem answered_memory
    {ptr x : UInt32}
    {reply : Reply}
    {bs : List ClusterBuffer}
    {n : Nat}
    (hbs : reply.2 = deliveriesFrom 0 bs)
    (hlen : bs.length * 2048 ≤ n)
    (hcode : a ≠ x)
    (hfar : ¬ (a - ptr).toNat < n) :
    (s.answered ptr x reply).memory a = s.memory a := by
  rw [Machine.answered, hbs]
  refine (Function.update_of_ne hcode _ _).trans (storedDeliveries_of_le 0 bs ?_)
  rw [Nat.zero_add]
  exact hlen.trans (Nat.not_lt.mp hfar)

/-- A system call without a call of the driver stores to the bytes that it touches, and to data of
the console. -/
theorem syscall_no_call
    (hcall : frame.call s.memory = none)
    (hplace : L.program a ∨ L.InFat a)
    (ha : ¬ frame.Touches s.memory a) :
    (syscall L frame s).state.disk = s.disk ∧
      (syscall L frame s).state.memory a = s.memory a := by
  have hconsole : ∀ {α : Type} (x : ConsoleM α), (liftConsole L x s).state.disk = s.disk ∧
      (liftConsole L x s).state.memory a = s.memory a :=
    fun x => ⟨liftConsole_disk L x s, liftConsole_memory L x hplace s⟩
  rw [InterruptFrame.Touches, hcall] at ha
  dsimp only at ha
  rw [InterruptFrame.call] at hcall
  split_ifs at hcall with h0 h1 h2 h8
  rw [syscall, getState_bind, if_neg h0, if_neg h1, if_neg h2]
  split_ifs with h3 h4
  · rw [if_pos h3] at ha
    have hstate := liftDriver_readonly L (readCluster_readonly frame.ebx) s
    rw [bind_apply]
    rcases hrun : liftDriver L (readCluster frame.ebx) s with ⟨e | b, s', w⟩ <;>
      rw [hrun] at hstate <;> cases hstate
    · exact ⟨rfl, rfl⟩
    · exact ⟨rfl, storedCluster_of_not_lt b ha⟩
  · rw [if_neg h3, if_pos h4] at ha
    have hstate := hconsole getKeyboardBuffer
    obtain ⟨b, c, w, hrun⟩ := liftConsole_apply L getKeyboardBuffer s
    rw [hrun] at hstate
    rw [bind_of_ok hrun]
    exact ⟨rfl, (Function.update_of_ne ha _ _).trans hstate.2⟩
  · exact hconsole _
  · exact hconsole _
  · exact ⟨rfl, rfl⟩

end Frames

section Steps

variable {L : Layout} {s : Machine} {frame : InterruptFrame} {scancode : UInt8} {a : UInt32}

/-- A system call with a call of the driver that returns: the driver has left its file system, and
the bytes that are not touched are what they were. -/
theorem syscall_call
    {c : Call}
    (h : Reached NewSystem WellScoped Fat32.after (L.fileSystem s))
    (hcall : frame.call s.memory = some c)
    (hc : WellScoped (L.fileSystem s) c)
    (hreturns : (syscall L frame s).result = .ok ()) :
    (syscall L frame s).state.disk = (Fat32.after (L.fileSystem s) c).disk ∧
      ∀ a, ¬ frame.Touches s.memory a →
        (syscall L frame s).state.memory a =
          (L.store s (Fat32.after (L.fileSystem s) c)).memory a := by
  rw [syscall_of_call hcall] at hreturns ⊢
  obtain ⟨⟨code, ds⟩, w, hrun, hstate⟩ := answerCall_returns hreturns
  obtain ⟨bs, hbs, hlen⟩ := run_deliveries h hc (congrArg Outcome.result hrun)
  rw [hstate]
  refine ⟨rfl, fun a ha => ?_⟩
  rw [InterruptFrame.Touches, hcall] at ha
  obtain ⟨hcode, hfar⟩ := not_or.mp ha
  exact answered_memory hbs hlen hcode hfar

/-- **An interrupt changes the bytes that its system call stores to, and no other byte of the
program.** -/
theorem interrupt_frame
    (h : Reached NewSystem WellScoped Fat32.after (L.fileSystem s))
    (hsafe : SafeAction L s (.interrupt frame scancode))
    (hprogram : L.program a)
    (ha : frame.intNumber = 0x30 → ¬ frame.Touches s.memory a) :
    (s.after L (.interrupt frame scancode)).memory a = s.memory a := by
  have hreturns := hsafe.returns
  rw [Machine.after]
  rw [mainInterruptHandler] at hreturns ⊢
  split_ifs at hreturns ⊢ with hkey hsyscall
  · exact liftConsole_memory L (keyboardIsr scancode) (Or.inl hprogram) s
  · cases hcall : frame.call s.memory with
    | none => exact (syscall_no_call hcall (Or.inl hprogram) (ha hsyscall)).2
    | some c =>
        have hc : (Action.interrupt frame scancode).call s.memory = some c := by
          rw [Action.call, if_pos hsyscall, hcall]
        have hkept := (syscall_call h hcall (hsafe.call c hc) hreturns).2 a (ha hsyscall)
        rw [hkept, Layout.store_memory _ (Layout.not_inFat hprogram)]
  · rfl

/-- **To the file system, a safe action is at most one call of the driver.** -/
theorem after_fileSystem
    {x : Action}
    (h : Reached NewSystem WellScoped Fat32.after (L.fileSystem s))
    (hsafe : SafeAction L s x) :
    L.fileSystem (s.after L x) =
      (x.call s.memory).toList.foldl Fat32.after (L.fileSystem s) := by
  cases x with
  | compute f => exact fileSystem_congr rfl fun a ha => hsafe a (L.fatTable_kernel a ha)
  | kernel f => exact fileSystem_congr rfl fun a ha => hsafe a (Or.inr ha)
  | interrupt frame scancode =>
      have hreturns := hsafe.returns
      have hplaces := hsafe.places
      rw [Machine.after, Action.call]
      rw [mainInterruptHandler] at hreturns ⊢
      split_ifs at hreturns ⊢ with hkey hsyscall hsyscall
      · rw [hkey] at hsyscall
        exact absurd hsyscall (by decide)
      · exact fileSystem_congr (liftConsole_disk L _ s) fun a ha =>
          liftConsole_memory L (keyboardIsr scancode) (Or.inr ha) s
      · have huntouched : ∀ a, L.InFat a → ¬ frame.Touches s.memory a :=
          fun a ha htouched => L.fatTable_kernel a ha ((hplaces hsyscall).stores a htouched)
        cases hcall : frame.call s.memory with
        | none =>
            have hkept := fun a ha =>
              syscall_no_call (L := L) hcall (Or.inr ha) (huntouched a ha)
            exact fileSystem_congr (hkept L.fatTable L.inFat_fatTable).1 fun a ha => (hkept a ha).2
        | some c =>
            have hc : (Action.interrupt frame scancode).call s.memory = some c := by
              rw [Action.call, if_pos hsyscall, hcall]
            obtain ⟨hdisk, hmemory⟩ := syscall_call h hcall (hsafe.call c hc) hreturns
            have hstored := L.fileSystem_store s (Fat32.after (L.fileSystem s) c)
            exact (fileSystem_congr hdisk fun a ha => hmemory a (huntouched a ha)).trans hstored
      · rfl

end Steps

/-! ## Runs -/

section Runs

variable {L : Layout} {s : Machine} {as : List Action}

theorem after_reached
    {x : Action}
    (h : Reached NewSystem WellScoped Fat32.after (L.fileSystem s))
    (hsafe : SafeAction L s x) :
    Along WellScoped Fat32.after (L.fileSystem s) (x.call s.memory).toList ∧
      Reached NewSystem WellScoped Fat32.after (L.fileSystem (s.after L x)) := by
  have hcalls : Along WellScoped Fat32.after (L.fileSystem s) (x.call s.memory).toList := by
    cases x with
    | compute f => trivial
    | kernel f => trivial
    | interrupt frame scancode =>
        cases hcall : (Action.interrupt frame scancode).call s.memory with
        | none => trivial
        | some c => exact ⟨hsafe.call c hcall, trivial⟩
  rw [after_fileSystem h hsafe]
  exact ⟨hcalls, h.along hcalls⟩

/-- **To the file system, a run is a run of calls.** -/
theorem run_fileSystem
    (h : Reached NewSystem WellScoped Fat32.after (L.fileSystem s))
    (has : Along (SafeAction L) (Machine.after L) s as) :
    Along WellScoped Fat32.after (L.fileSystem s) (calls L s as) ∧
      L.fileSystem (as.foldl (Machine.after L) s) =
        (calls L s as).foldl Fat32.after (L.fileSystem s) := by
  induction as generalizing s with
  | nil => exact ⟨trivial, rfl⟩
  | cons x as ih =>
      obtain ⟨hcalls, hreached⟩ := after_reached h has.1
      obtain ⟨hrest, hend⟩ := ih hreached has.2
      rw [after_fileSystem h has.1] at hrest hend
      rw [calls, along_append, List.foldl_append, List.foldl_cons]
      exact ⟨⟨hcalls, hrest⟩, hend⟩

/-- The file system stays reachable in a run of safe actions. -/
theorem run_reached
    (h : Reached NewSystem WellScoped Fat32.after (L.fileSystem s))
    (has : Along (SafeAction L) (Machine.after L) s as) :
    Reached NewSystem WellScoped Fat32.after (L.fileSystem (as.foldl (Machine.after L) s)) := by
  obtain ⟨hcalls, hend⟩ := run_fileSystem h has
  rw [hend]
  exact h.along hcalls

end Runs

/-! ## A small run -/

/-- A program with a request for `a` in the root in its first bytes. -/
def requestMemory (buf bufferSize : UInt32) : Memory32 :=
  let m := storeWord (storeWord (storeWord (fun x => x.toUInt8) 0 buf) 4 97) 8 0
  storeWord (storeWord (storeWord m 12 0) 15 2) 19 bufferSize

def firstProgram : Machine :=
  smallLayout.store ⟨requestMemory 0x1000 3000, fun _ _ => 0⟩ emptySystem

theorem firstProgram_fileSystem : smallLayout.fileSystem firstProgram = emptySystem :=
  Layout.fileSystem_store _ _ _

/-- `int 0x30`, the request at 0 and the code at 64. -/
def smallCall (eax : UInt32) : InterruptFrame :=
  { edi := 0, esi := 0, esp := 0x3FFFFC, ebp := 0, ebx := 0, edx := 0, ecx := 64, eax := eax,
    gs := 0, fs := 0, es := 0, ds := 0x23, intNumber := 0x30, errorCode := 0, eip := 0,
    cs := 0x1B, eflags := 0x202 }

@[simp] theorem smallCall_ebx (eax : UInt32) : (smallCall eax).ebx = 0 := rfl

@[simp] theorem smallCall_ecx (eax : UInt32) : (smallCall eax).ecx = 64 := rfl

theorem firstProgram_places : OwnPlaces smallLayout firstProgram.memory (smallCall 2) where
  stores a h := by
    rcases h with rfl | h
    · exact smallLayout.low _ (by decide)
    · exact absurd h (Nat.not_lt_zero _)
  reads a h := by
    rcases h with h | h
    · exact smallLayout.low_of_distance (by decide) h
    · exact smallLayout.low_of_distance (by decide +kernel) h

theorem firstProgram_safe : SafeAction smallLayout firstProgram (.interrupt (smallCall 2) 0) where
  call c hc := by
    cases hc
    rw [firstProgram_fileSystem]
    exact wellScoped_write (liveDir_root _) (by decide)
  returns := by decide +kernel
  places _ := firstProgram_places

theorem firstProgram_reached :
    Reached NewSystem WellScoped Fat32.after (smallLayout.fileSystem firstProgram) := by
  rw [firstProgram_fileSystem]
  exact Reached.start newSystem_emptySystem

/-- The call stores its code at 64, and leaves the byte behind it alone. -/
theorem interrupt_frame_firstProgram :
    (firstProgram.after smallLayout (.interrupt (smallCall 2) 0)).memory 65 =
      firstProgram.memory 65 :=
  interrupt_frame firstProgram_reached firstProgram_safe (smallLayout.low _ (by decide))
    fun _ htouched => htouched.elim (by decide) (Nat.not_lt_zero _)

/-- The kernel uses its stack, and the program overwrites all that it has in front of it. -/
def forget : List Action :=
  [.kernel fun m => Function.update m 0x300000 0xFF,
    .compute fun m a => if a.toNat < 0x80000 then requestMemory 0x5000 4096 a else m a]

theorem forget_safe (s : Machine) :
    Along (SafeAction smallLayout) (Machine.after smallLayout) s forget := by
  refine ⟨fun a ha => Function.update_of_ne ?_ _ _, fun a ha => if_neg fun hlow => ?_, trivial⟩
  · rintro rfl
    have hlow : ¬ (0x300000 : UInt32).toNat < 0x80000 := by decide
    have hhigh : ¬ 0x380000 ≤ (0x300000 : UInt32).toNat := by decide
    have hfat : ¬ ((0x300000 : UInt32) - 0x110000).toNat < 2048 := by decide
    rcases ha with (hprogram | hprogram) | hstack
    · exact hlow hprogram
    · exact hhigh hprogram.1
    · exact hfat hstack
  · exact ha (smallLayout.low a hlow)

/-- The call and what comes after it. -/
def smallActions : List Action := .interrupt (smallCall 2) 0 :: forget

theorem run_reached_smallActions :
    Reached NewSystem WellScoped Fat32.after
      (smallLayout.fileSystem (smallActions.foldl (Machine.after smallLayout) firstProgram)) :=
  run_reached firstProgram_reached ⟨firstProgram_safe, forget_safe _⟩

end Interrupts
end OS2024
