import OS2024.Interrupts.Entry

/-!
# `idt.c`: the gates of the interrupts

`initialize_idt` fills the first 64 entries of the interrupt descriptor table, one for each stub.
An entry is a packed structure of bit fields; the processor reads it as eight bytes.

A user program that executes `int v` comes to the stub of `v` only if the gate allows it.  In any
other case it has caused a general protection fault, for which the handler does nothing, so the
program is back at the same instruction.

**Results.**
* `decode_bits`: the processor reads the fields of the structure.
* `enter_stub`, `enter_other`: which interrupts come through, and to where.
* `int_resumes`: what becomes of a user program that executes `int v`.
-/

namespace OS2024
namespace Interrupts

open WordStack

/-- `struct IDTGate` -/
structure IDTGate where
  offsetLow : BitVec 16
  segment : BitVec 16
  reserved : BitVec 5
  rBit1 : BitVec 3
  rBit2 : BitVec 3
  gate32 : BitVec 1
  rBit3 : BitVec 1
  dpl : BitVec 2
  valid : BitVec 1
  offsetHigh : BitVec 16

/-- The eight bytes of the packed structure; the first field is in the lowest bits. -/
def IDTGate.bits (g : IDTGate) : BitVec 64 :=
  BitVec.ofNat 64 (g.offsetLow.toNat + 2 ^ 16 * g.segment.toNat + 2 ^ 32 * g.reserved.toNat +
    2 ^ 37 * g.rBit1.toNat + 2 ^ 40 * g.rBit2.toNat + 2 ^ 43 * g.gate32.toNat +
    2 ^ 44 * g.rBit3.toNat + 2 ^ 45 * g.dpl.toNat + 2 ^ 47 * g.valid.toNat +
    2 ^ 48 * g.offsetHigh.toNat)

abbrev InterruptDescriptorTable := Fin 256 → IDTGate

/-- An entry that was never set. -/
def IDTGate.zero : IDTGate := ⟨0, 0, 0, 0, 0, 0, 0, 0, 0, 0⟩

/-- What `set_interrupt_gate` stores. -/
def interruptGate (handlerAddress : UInt32) (gdtSegSelector : BitVec 16)
    (privilege : BitVec 2) : IDTGate where
  dpl := privilege
  offsetLow := handlerAddress.toBitVec.setWidth 16
  offsetHigh := (handlerAddress.toBitVec >>> 16).setWidth 16
  segment := gdtSegSelector
  reserved := 0
  -- INTERRUPT_GATE_R_BIT_1 to 3
  rBit1 := 0b000
  rBit2 := 0b110
  rBit3 := 0b0
  gate32 := 1
  valid := 1

def setInterruptGate (table : InterruptDescriptorTable) (intVector : Fin 256)
    (handlerAddress : UInt32) (gdtSegSelector : BitVec 16) (privilege : BitVec 2) :
    InterruptDescriptorTable :=
  Function.update table intVector (interruptGate handlerAddress gdtSegSelector privilege)

def gdtKernelCodeSegmentSelector : BitVec 16 := 0x8

/-- The entry of a stub. -/
def vectorOf (v : Fin 64) : Fin 256 := Fin.castAdd 192 v

/-- The loop of `initialize_idt` over the stubs `vs`. -/
def setGates (isrStubTable : Fin 64 → UInt32) (vs : List (Fin 64))
    (table : InterruptDescriptorTable) : InterruptDescriptorTable :=
  vs.foldl (fun table v =>
    setInterruptGate table (vectorOf v) (isrStubTable v) gdtKernelCodeSegmentSelector 0) table

def initializeIdt (isrStubTable : Fin 64 → UInt32) (table : InterruptDescriptorTable) :
    InterruptDescriptorTable :=
  -- the gate of the system calls is set once more
  setInterruptGate (setGates isrStubTable (List.finRange 64) table) 0x30 (isrStubTable 0x30)
    gdtKernelCodeSegmentSelector 3

/-! ## What the processor reads -/

/-- An entry as the processor takes it apart. -/
structure Descriptor where
  offset : UInt32
  selector : BitVec 16
  kind : BitVec 3
  size32 : BitVec 1
  storage : BitVec 1
  dpl : BitVec 2
  present : BitVec 1

def Descriptor.decode (bits : BitVec 64) : Descriptor where
  offset := UInt32.ofBitVec (bits.extractLsb' 48 16 ++ bits.extractLsb' 0 16)
  selector := bits.extractLsb' 16 16
  kind := bits.extractLsb' 40 3
  size32 := bits.extractLsb' 43 1
  storage := bits.extractLsb' 44 1
  dpl := bits.extractLsb' 45 2
  present := bits.extractLsb' 47 1

/-- A gate for interrupts into 32-bit code, which is present. -/
def Descriptor.IsInterruptGate (d : Descriptor) : Prop :=
  d.kind = 0b110 ∧ d.size32 = 1 ∧ d.storage = 0 ∧ d.present = 1

instance (d : Descriptor) : Decidable d.IsInterruptGate :=
  inferInstanceAs (Decidable (_ ∧ _))

/-- The gate through which vector `v` goes.  For the instruction `int`, the gate must be open to
the privilege level `cpl`; without a gate there is a general protection fault. -/
def enter (table : InterruptDescriptorTable) (software : Bool) (cpl : UInt16) (v : Fin 256) :
    Option Descriptor :=
  let d := Descriptor.decode (table v).bits
  if d.IsInterruptGate ∧ (software → cpl.toNat ≤ d.dpl.toNat) then some d else none

/-- The stub whose code is at an address. -/
def stubAt (isrStubTable : Fin 64 → UInt32) (address : UInt32) : Option (Fin 64) :=
  Fin.find? fun v => isrStubTable v = address

section Reading

variable {isrStubTable : Fin 64 → UInt32} {table : InterruptDescriptorTable}

/-- **The processor reads the fields of the structure.** -/
theorem decode_bits (g : IDTGate) :
    Descriptor.decode g.bits =
      ⟨UInt32.ofBitVec (g.offsetHigh ++ g.offsetLow), g.segment, g.rBit2, g.gate32, g.rBit3,
        g.dpl, g.valid⟩ := by
  have hlow := g.offsetLow.isLt
  have hsegment := g.segment.isLt
  have hreserved := g.reserved.isLt
  have hbit1 := g.rBit1.isLt
  have hbit2 := g.rBit2.isLt
  have hgate := g.gate32.isLt
  have hbit3 := g.rBit3.isLt
  have hdpl := g.dpl.isLt
  have hvalid := g.valid.isLt
  have hhigh := g.offsetHigh.isLt
  have hbits : g.bits.toNat = g.offsetLow.toNat + 2 ^ 16 * g.segment.toNat +
      2 ^ 32 * g.reserved.toNat + 2 ^ 37 * g.rBit1.toNat + 2 ^ 40 * g.rBit2.toNat +
      2 ^ 43 * g.gate32.toNat + 2 ^ 44 * g.rBit3.toNat + 2 ^ 45 * g.dpl.toNat +
      2 ^ 47 * g.valid.toNat + 2 ^ 48 * g.offsetHigh.toNat := by
    rw [IDTGate.bits, BitVec.toNat_ofNat]
    omega
  have hfield : ∀ {start len : Nat} (field : BitVec len),
      g.bits.toNat / 2 ^ start % 2 ^ len = field.toNat →
        g.bits.extractLsb' start len = field := by
    intro start len field h
    apply BitVec.eq_of_toNat_eq
    rw [BitVec.extractLsb'_toNat, Nat.shiftRight_eq_div_pow, h]
  rw [Descriptor.decode, hfield g.offsetHigh (by omega),
    hfield g.offsetLow (by omega), hfield g.segment (by omega),
    hfield g.rBit2 (by omega), hfield g.gate32 (by omega),
    hfield g.rBit3 (by omega), hfield g.dpl (by omega),
    hfield g.valid (by omega)]

theorem offset_halves (a : UInt32) :
    UInt32.ofBitVec ((a.toBitVec >>> 16).setWidth 16 ++ a.toBitVec.setWidth 16) = a := by
  have hbits : (a.toBitVec >>> 16).setWidth 16 ++ a.toBitVec.setWidth 16 = a.toBitVec := by
    ext i hi
    simp
    grind
  rw [hbits]

theorem decode_interruptGate
    (address : UInt32)
    (selector : BitVec 16)
    (privilege : BitVec 2) :
    Descriptor.decode (interruptGate address selector privilege).bits =
      ⟨address, selector, 0b110, 1, 0, privilege, 1⟩ := by
  rw [decode_bits, interruptGate, offset_halves]

theorem vectorOf_inj
    {v w : Fin 64} :
    vectorOf v = vectorOf w ↔ v = w :=
  (Fin.castAdd_injective 64 192).eq_iff

/-- The loop leaves the other entries alone. -/
theorem setGates_of_not_mem
    {vs : List (Fin 64)}
    {x : Fin 256}
    (hx : ∀ v, v ∈ vs → x ≠ vectorOf v) :
    setGates isrStubTable vs table x = table x := by
  induction vs generalizing table with
  | nil => rfl
  | cons w vs ih =>
      rw [setGates, List.foldl_cons, ← setGates, ih fun v hv => hx v (List.mem_cons_of_mem w hv)]
      exact Function.update_of_ne (hx w List.mem_cons_self) _ _

/-- It sets the gates of the stubs that it goes over. -/
theorem setGates_of_mem
    {vs : List (Fin 64)}
    {v : Fin 64}
    (hv : v ∈ vs) :
    setGates isrStubTable vs table (vectorOf v) =
      interruptGate (isrStubTable v) gdtKernelCodeSegmentSelector 0 := by
  induction vs generalizing table with
  | nil => cases hv
  | cons w vs ih =>
      rw [setGates, List.foldl_cons, ← setGates]
      by_cases hrest : v ∈ vs
      · exact ih hrest
      · obtain rfl := (List.mem_cons.mp hv).resolve_right hrest
        have hother : ∀ u, u ∈ vs → vectorOf v ≠ vectorOf u := by
          intro u hu he
          rw [← vectorOf_inj.mp he] at hu
          exact hrest hu
        rw [setGates_of_not_mem hother]
        exact Function.update_self _ _ _

/-- The privilege level for which the gate of a stub is open. -/
def gateDpl (v : Fin 64) : BitVec 2 := if v = 0x30 then 3 else 0

theorem initializeIdt_stub
    (v : Fin 64) :
    initializeIdt isrStubTable table (vectorOf v) =
      interruptGate (isrStubTable v) gdtKernelCodeSegmentSelector (gateDpl v) := by
  have hsyscall : (0x30 : Fin 256) = vectorOf 0x30 := rfl
  rw [initializeIdt, setInterruptGate, hsyscall, gateDpl]
  split_ifs with hv
  · rw [hv, Function.update_self]
  · rw [Function.update_of_ne fun he => hv (vectorOf_inj.mp he)]
    exact setGates_of_mem (List.mem_finRange v)

theorem initializeIdt_other
    {x : Fin 256}
    (hx : ∀ v, x ≠ vectorOf v) :
    initializeIdt isrStubTable table x = table x := by
  have hne : x ≠ 0x30 := hx 0x30
  rw [initializeIdt, setInterruptGate, Function.update_of_ne hne]
  exact setGates_of_not_mem fun v _ => hx v

/-- A vector without a stub leads nowhere. -/
theorem enter_other
    {x : Fin 256}
    (hx : ∀ v, x ≠ vectorOf v)
    (software : Bool)
    (cpl : UInt16) :
    enter (initializeIdt isrStubTable (fun _ => .zero)) software cpl x = none := by
  have hkind : ¬ (Descriptor.decode IDTGate.zero.bits).kind = 0b110 := by decide
  rw [enter, initializeIdt_other hx]
  exact if_neg fun h => hkind h.1.1

/-- The gate of a stub is open to the kernel and to the hardware, that of the system calls also
to user programs. -/
theorem enter_stub
    (v : Fin 64)
    (software : Bool)
    (cpl : UInt16) :
    enter (initializeIdt isrStubTable table) software cpl (vectorOf v) =
      if software → cpl.toNat ≤ (gateDpl v).toNat then
        some ⟨isrStubTable v, gdtKernelCodeSegmentSelector, 0b110, 1, 0, gateDpl v, 1⟩
      else none := by
  rw [enter, initializeIdt_stub, decode_interruptGate]
  exact if_congr (and_iff_right ⟨rfl, rfl, rfl, rfl⟩) rfl rfl

end Reading

/-! ## Interrupts of a user program -/

/-- Where the processor is to be found in the kernel. -/
structure Kernel where
  isrStubTable : Fin 64 → UInt32
  handler : Cpu → Cpu
  returnAddress : UInt32
  tss : TSSEntry

/-- The interrupt of a stub, from where it came back to there. -/
def Kernel.interrupt (k : Kernel) (v : Fin 64) (errorCode : Option UInt32) (c : Cpu) : Cpu :=
  Interrupts.interrupt k.handler k.returnAddress k.tss (k.isrStubTable v) v errorCode c

/-- The state in which the handler is called for it. -/
def Kernel.called (k : Kernel) (v : Fin 64) (errorCode : Option UInt32) (c : Cpu) : Cpu :=
  Interrupts.called k.handler k.returnAddress k.tss (k.isrStubTable v) v errorCode c

/-- The handler is called with this frame, and if it follows the convention then, the program goes
on. -/
structure Kernel.Handles (k : Kernel) (v : Fin 64) (errorCode : Option UInt32) (c : Cpu) :
    Prop where
  frame : ∃ sp, Holds (k.called v errorCode c).memory ((k.called v errorCode c).reg .esp + 4)
    ((c.frame sp v (errorCode.getD 0)).words ++ c.origin)
  resumes : Cdecl k.handler (17 + c.origin.length) (k.called v errorCode c) →
    Resumed c (k.interrupt v errorCode c)

/-- The processor takes interrupt `x`, if there is a gate for it and a stub behind that. -/
def Kernel.take (k : Kernel) (software : Bool) (x : Fin 256) (errorCode : Option UInt32)
    (c : Cpu) : Option Cpu := do
  let gate ← enter (initializeIdt k.isrStubTable (fun _ => .zero)) software c.cpl x
  let v ← stubAt k.isrStubTable gate.offset
  return k.interrupt v errorCode c

/-- The error code of a general protection fault that `int x` has caused. -/
def protectionCode (x : Fin 256) : UInt32 := 8 * UInt32.ofNat x + 2

/-- `int x`, an instruction of two bytes.  The program is to go on behind it, or if it may not
use the gate, is stopped at it by a general protection fault. -/
def Kernel.int (k : Kernel) (x : Fin 256) (c : Cpu) : Option Cpu :=
  match k.take true x none { c with eip := c.eip + 2 } with
  | some c' => some c'
  | none => k.take false 13 (some (protectionCode x)) c

/-- **The property.**  `int x` leads to the system calls if `x` is 0x30, and the program goes on
behind the instruction; otherwise it leads to the handler of general protection faults, which finds
the error code in its frame, and the program comes to the same instruction again. -/
structure IntResumes (k : Kernel) (x : Fin 256) (c : Cpu) : Prop where
  syscall : x = 0x30 →
    k.int x c = some (k.interrupt 0x30 none { c with eip := c.eip + 2 }) ∧
      k.Handles 0x30 none { c with eip := c.eip + 2 }
  protection : x ≠ 0x30 →
    k.int x c = some (k.interrupt 13 (some (protectionCode x)) c) ∧
      k.Handles 13 (some (protectionCode x)) c

section User

variable {k : Kernel} {c : Cpu}

theorem stubAt_stub
    (hstubs : Function.Injective k.isrStubTable)
    (v : Fin 64) :
    stubAt k.isrStubTable (k.isrStubTable v) = some v := by
  rw [stubAt, Fin.find?_eq_some_iff]
  refine ⟨decide_eq_true rfl, fun u hu => ?_⟩
  exact decide_eq_false fun he => hu.ne (hstubs he)

theorem take_stub
    (hstubs : Function.Injective k.isrStubTable)
    {v : Fin 64}
    {software : Bool}
    (hopen : software → c.cpl.toNat ≤ (gateDpl v).toNat)
    (errorCode : Option UInt32) :
    k.take software (vectorOf v) errorCode c = some (k.interrupt v errorCode c) := by
  rw [Kernel.take, enter_stub, if_pos hopen]
  show (stubAt k.isrStubTable (k.isrStubTable v)).bind _ = _
  rw [stubAt_stub hstubs]
  rfl

/-- A user program cannot use the other gates. -/
theorem take_refused
    (huser : c.cpl = 3)
    {x : Fin 256}
    (hx : x ≠ 0x30)
    (errorCode : Option UInt32) :
    k.take true x errorCode c = none := by
  by_cases hstub : ∃ v, x = vectorOf v
  · obtain ⟨v, rfl⟩ := hstub
    have hv : v ≠ 0x30 := fun h => hx (by rw [h]; rfl)
    have hclosed : ¬ (true → c.cpl.toNat ≤ (gateDpl v).toNat) := by
      rw [huser, gateDpl, if_neg hv]
      decide
    rw [Kernel.take, enter_stub, if_neg hclosed]
    rfl
  · rw [Kernel.take, enter_other (not_exists.mp hstub)]
    rfl

theorem handles_of_code
    {v : Fin 64}
    {errorCode : Option UInt32}
    (hcode : errorCode.isSome = expectsErrorCode v) :
    k.Handles v errorCode c := by
  obtain ⟨sp, hstack⟩ := @called_frame k.handler k.returnAddress k.tss (k.isrStubTable v) v
    errorCode c hcode
  have horigin := length_origin c
  refine ⟨⟨sp, ?_⟩, fun hcall => (interrupt_resumes hcode hcall).1⟩
  exact (hstack.holds.push (by
    rw [List.length_append]
    show 4 * (17 + c.origin.length + 1) ≤ 2 ^ 32
    omega) k.returnAddress).pop

/-- **A user program gets into the kernel by `int 0x30` alone.** -/
theorem int_resumes
    (hstubs : Function.Injective k.isrStubTable)
    (huser : c.cpl = 3)
    (x : Fin 256) :
    IntResumes k x c := by
  constructor
  · rintro rfl
    have htake : k.take true 0x30 none { c with eip := c.eip + 2 } = _ :=
      take_stub hstubs (v := 0x30) (fun _ => by
        show c.cpl.toNat ≤ 3
        rw [huser]
        decide) none
    refine ⟨?_, handles_of_code rfl⟩
    rw [Kernel.int, htake]
  · intro hx
    have hrefused : k.take true x none { c with eip := c.eip + 2 } = none :=
      take_refused (c := { c with eip := c.eip + 2 }) huser hx none
    have htake : k.take false 13 (some (protectionCode x)) c = _ :=
      take_stub hstubs (v := 13) (fun h => by cases h) _
    refine ⟨?_, handles_of_code rfl⟩
    rw [Kernel.int, hrefused]
    exact htake

end User

/-- A kernel whose handler uses all registers. -/
def busyKernel : Kernel where
  isrStubTable v := 0xC0100000 + 16 * UInt32.ofNat v
  handler := clobber
  returnAddress := 0xC0100800
  tss := ⟨0xC0400000, 0x10⟩

/-- A system call and a forbidden interrupt of a user program, which goes on after both. -/
theorem int_resumes_firstInstruction :
    (IntResumes busyKernel 0x30 firstInstruction ∧ IntResumes busyKernel 0x21 firstInstruction) ∧
      Resumed { firstInstruction with eip := 2 }
        (busyKernel.interrupt 0x30 none { firstInstruction with eip := 2 }) ∧
      Resumed firstInstruction
        (busyKernel.interrupt 13 (some (protectionCode 0x21)) firstInstruction) := by
  have hstubs : Function.Injective busyKernel.isrStubTable := by decide +kernel
  have hsyscall : IntResumes busyKernel 0x30 firstInstruction :=
    int_resumes hstubs (by decide) 0x30
  have hother : IntResumes busyKernel 0x21 firstInstruction :=
    int_resumes hstubs (by decide) 0x21
  exact ⟨⟨hsyscall, hother⟩,
    (hsyscall.syscall rfl).2.resumes (convention_clobber _ _ _ _ _ _),
    (hother.protection (by decide)).2.resumes (convention_clobber _ _ _ _ _ _)⟩

end Interrupts
end OS2024
