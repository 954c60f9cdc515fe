import OS2024.Lib.WordStack

/-!
# `intsetup.s`: into the kernel and back

The processor stores where it was interrupted, a stub of `isr_stub_table` adds the number of the
interrupt, and `call_generic_handler` saves the registers, calls `main_interrupt_handler` and
restores them.  The instructions are executed one by one on a processor with byte memory.

`main_interrupt_handler` is any function that follows the calling convention when it is called;
what it does to the memory is its own business, except for the words of its argument.

**Results.**
* `entered_stack`: the words on the stack when the handler is called.
* `entered_memory`: nothing else is stored.
* `interrupt_resumes`: the interrupted program goes on as if nothing had happened.
* `resumes_iff`: it does so in every state exactly if the processor stores an error code for the
  vectors whose stubs expect one.
-/

namespace OS2024
namespace Interrupts

open LittleEndian WordStack

/-- The registers in the order in which `popad` takes them from the stack. -/
inductive Register
  | edi | esi | ebp | esp | ebx | edx | ecx | eax
deriving DecidableEq

inductive Segment
  | gs | fs | es | ds | cs | ss
deriving DecidableEq

structure Cpu where
  reg : Register → UInt32
  seg : Segment → UInt16
  eip : UInt32
  eflags : UInt32
  memory : Memory32

namespace Cpu

def setReg (c : Cpu) (r : Register) (w : UInt32) : Cpu :=
  { c with reg := Function.update c.reg r w }

def setSeg (c : Cpu) (s : Segment) (w : UInt16) : Cpu :=
  { c with seg := Function.update c.seg s w }

/-- `push` of a word. -/
def push (c : Cpu) (w : UInt32) : Cpu :=
  { c.setReg .esp (c.reg .esp - 4) with memory := storeWord c.memory (c.reg .esp - 4) w }

/-- The word on top of the stack. -/
def top (c : Cpu) : UInt32 := loadWord c.memory (c.reg .esp)

/-- The stack without its top. -/
def drop (c : Cpu) : Cpu := c.setReg .esp (c.reg .esp + 4)

/-- `pop` into a general register. -/
def popReg (c : Cpu) (r : Register) : Cpu := c.drop.setReg r c.top

/-- `pop` into a segment register, which takes the lower half of the word. -/
def popSeg (c : Cpu) (s : Segment) : Cpu := c.drop.setSeg s c.top.toUInt16

/-- The privilege level of the code that is being executed. -/
def cpl (c : Cpu) : UInt16 := c.seg .cs &&& 3

/-- The values that `pushad` stores; `esp` is the one before the instruction. -/
def pushad (c : Cpu) : Cpu :=
  [c.reg .eax, c.reg .ecx, c.reg .edx, c.reg .ebx, c.reg .esp, c.reg .ebp, c.reg .esi,
    c.reg .edi].foldl push c

/-- The value of `esp` is skipped. -/
def popad (c : Cpu) : Cpu :=
  let c := ((c.popReg .edi).popReg .esi).popReg .ebp
  (((c.drop.popReg .ebx).popReg .edx).popReg .ecx).popReg .eax

/-- `mov ax, n` -/
def setAx (c : Cpu) (n : UInt16) : Cpu :=
  c.setReg .eax (c.reg .eax &&& 0xFFFF0000 ||| n.toUInt32)

/-- The first part of `iret`: `eip`, `cs` and `eflags`. -/
def popProgram (c : Cpu) : Cpu :=
  let c : Cpu := { c.drop with eip := c.top }
  let c := c.popSeg .cs
  { c.drop with eflags := c.top }

/-- The second part, for a program of another privilege level. -/
def popStack (c : Cpu) : Cpu := (c.drop.popSeg .ss).setReg .esp c.top

/-- The return from an interrupt. -/
def iret (c : Cpu) : Cpu :=
  if c.popProgram.cpl = 0 then c.popProgram else c.popProgram.popStack

end Cpu

/-- The instructions of `call_generic_handler` and of the stubs. -/
inductive Instruction
  | pushSeg (s : Segment)
  | popSeg (s : Segment)
  | pushReg (r : Register)
  | popReg (r : Register)
  | pushDword (n : UInt32)
  | pushad
  | popad
  | movAx (n : UInt16)
  | movSegAx (s : Segment)
  | addEsp (n : UInt32)
  | call
  | sti
  | iret

/-- One instruction.  `call` stores the address of the next one and runs the handler up to its
return. -/
def Instruction.exec (handler : Cpu → Cpu) (returnAddress : UInt32) :
    Instruction → Cpu → Cpu
  | pushSeg s, c => c.push (c.seg s).toUInt32
  | popSeg s, c => c.popSeg s
  | pushReg r, c => c.push (c.reg r)
  | popReg r, c => c.popReg r
  | pushDword n, c => c.push n
  | pushad, c => c.pushad
  | popad, c => c.popad
  | movAx n, c => c.setAx n
  | movSegAx s, c => c.setSeg s (c.reg .eax).toUInt16
  | addEsp n, c => c.setReg .esp (c.reg .esp + n)
  | call, c => handler (c.push returnAddress)
  | sti, c => { c with eflags := c.eflags ||| 0x200 }
  | iret, c => c.iret

def run (handler : Cpu → Cpu) (returnAddress : UInt32) (code : List Instruction) (c : Cpu) :
    Cpu :=
  code.foldl (fun c i => i.exec handler returnAddress c) c

/-- `call_generic_handler` before the call. -/
def saveRegisters : List Instruction :=
  [.pushSeg .ds, .pushSeg .es, .pushSeg .fs, .pushSeg .gs, .pushad,
    -- the segments of the kernel
    .pushReg .eax, .movAx 0x10, .movSegAx .ds, .movSegAx .es, .movSegAx .fs, .movSegAx .gs,
    .popReg .eax]

/-- `call_generic_handler` between the call and the return. -/
def popRegisters : List Instruction :=
  [.popad, .popSeg .gs, .popSeg .fs, .popSeg .es, .popSeg .ds,
    -- int_number and error_code
    .addEsp 8, .sti]

def callGenericHandler : List Instruction := saveRegisters ++ [.call] ++ popRegisters ++ [.iret]

/-- The vectors with an `error_code_interrupt_handler`. -/
def expectsErrorCode (v : Fin 64) : Bool := v.val ∈ [8, 10, 11, 12, 13, 14, 17, 30]

/-- What `interrupt_handler_v` stores. -/
def stubPushes (v : Fin 64) : List Instruction :=
  if expectsErrorCode v then [.pushDword (UInt32.ofNat v)]
  else [.pushDword 0, .pushDword (UInt32.ofNat v)]

/-- `interrupt_handler_v`, which ends with a jump to `call_generic_handler`. -/
def interruptHandler (v : Fin 64) : List Instruction := stubPushes v ++ callGenericHandler

/-- The fields of the task state segment that the processor reads. -/
structure TSSEntry where
  esp0 : UInt32
  ss0 : UInt32

/-- From a user program, the processor goes to the stack of the kernel and stores the old one. -/
def switchStack (tss : TSSEntry) (c : Cpu) : Cpu :=
  if c.cpl = 0 then c
  else
    (((c.setReg .esp tss.esp0).setSeg .ss tss.ss0.toUInt16).push (c.seg .ss).toUInt32).push
      (c.reg .esp)

/-- `IF`, `TF`, `NT`, `RF` and `VM`, which an interrupt gate clears. -/
def gateFlags : UInt32 := 0x34300

/-- The processor takes an interrupt through a gate for the kernel's code segment at `entry`. -/
def deliver (tss : TSSEntry) (entry : UInt32) (errorCode : Option UInt32) (c : Cpu) : Cpu :=
  let c₁ := (((switchStack tss c).push c.eflags).push (c.seg .cs).toUInt32).push c.eip
  let c₂ := errorCode.elim c₁ c₁.push
  { c₂.setSeg .cs 0x8 with eip := entry, eflags := c.eflags &&& ~~~ gateFlags }

/-- From the interrupt to the return from it. -/
def interrupt (handler : Cpu → Cpu) (returnAddress : UInt32) (tss : TSSEntry) (entry : UInt32)
    (v : Fin 64) (errorCode : Option UInt32) (c : Cpu) : Cpu :=
  run handler returnAddress (interruptHandler v) (deliver tss entry errorCode c)

/-! ## The argument of the handler -/

/-- `struct InterruptFrame`; the two words of `stack` are called the wrong way round. -/
structure InterruptFrame where
  edi : UInt32
  esi : UInt32
  esp : UInt32
  ebp : UInt32
  ebx : UInt32
  edx : UInt32
  ecx : UInt32
  eax : UInt32
  gs : UInt32
  fs : UInt32
  es : UInt32
  ds : UInt32
  intNumber : UInt32
  errorCode : UInt32
  eip : UInt32
  cs : UInt32
  eflags : UInt32

/-- The layout of the packed structure. -/
def InterruptFrame.words (f : InterruptFrame) : List UInt32 :=
  [f.edi, f.esi, f.esp, f.ebp, f.ebx, f.edx, f.ecx, f.eax, f.gs, f.fs, f.es, f.ds, f.intNumber,
    f.errorCode, f.eip, f.cs, f.eflags]

/-- What the processor stores above the frame when it comes from a user program. -/
def Cpu.origin (c : Cpu) : List UInt32 :=
  if c.cpl = 0 then [] else [c.reg .esp, (c.seg .ss).toUInt32]

/-- The frame of a program that is interrupted in the state `c`; `sp` is the stack pointer
before `pushad`. -/
def Cpu.frame (c : Cpu) (sp : UInt32) (v : Fin 64) (errorCode : UInt32) : InterruptFrame where
  edi := c.reg .edi
  esi := c.reg .esi
  esp := c.reg .ebp
  ebp := sp
  ebx := c.reg .ebx
  edx := c.reg .edx
  ecx := c.reg .ecx
  eax := c.reg .eax
  gs := (c.seg .gs).toUInt32
  fs := (c.seg .fs).toUInt32
  es := (c.seg .es).toUInt32
  ds := (c.seg .ds).toUInt32
  intNumber := UInt32.ofNat v
  errorCode := errorCode
  eip := c.eip
  cs := (c.seg .cs).toUInt32
  eflags := c.eflags

/-- What `saveRegisters` leaves on the stack, from the top. -/
def Cpu.registers (c : Cpu) (sp : UInt32) : List UInt32 :=
  [c.reg .edi, c.reg .esi, c.reg .ebp, sp, c.reg .ebx, c.reg .edx, c.reg .ecx, c.reg .eax,
    (c.seg .gs).toUInt32, (c.seg .fs).toUInt32, (c.seg .es).toUInt32, (c.seg .ds).toUInt32]

/-- Where the stack of the kernel begins. -/
def Cpu.stackBase (tss : TSSEntry) (c : Cpu) : UInt32 :=
  if c.cpl = 0 then c.reg .esp else tss.esp0

/-- The state in which `main_interrupt_handler` is called. -/
def entered (handler : Cpu → Cpu) (returnAddress : UInt32) (tss : TSSEntry) (entry : UInt32)
    (v : Fin 64) (errorCode : Option UInt32) (c : Cpu) : Cpu :=
  run handler returnAddress (stubPushes v ++ saveRegisters) (deliver tss entry errorCode c)

/-- The stack below `base` consists of these words. -/
structure Cpu.Stack (c : Cpu) (base : UInt32) (ws : List UInt32) : Prop where
  holds : Holds c.memory (c.reg .esp) ws
  top : c.reg .esp + 4 * UInt32.ofNat ws.length = base

section Argument

variable {handler : Cpu → Cpu} {returnAddress : UInt32} {tss : TSSEntry} {entry : UInt32}
  {v : Fin 64} {errorCode : Option UInt32} {c : Cpu} {base : UInt32} {ws : List UInt32}

theorem run_append (code code' : List Instruction) (c : Cpu) :
    run handler returnAddress (code ++ code') c =
      run handler returnAddress code' (run handler returnAddress code c) :=
  List.foldl_append

/-- Below the stack pointer nothing is stored yet. -/
theorem Cpu.stack_nil (c : Cpu) : c.Stack (c.reg .esp) [] := ⟨trivial, UInt32.add_zero _⟩

theorem Cpu.Stack.push
    (h : c.Stack base ws)
    (hlength : ws.length < 100)
    (w : UInt32) :
    (c.push w).Stack base (w :: ws) := by
  refine ⟨Holds.push h.holds (by omega) w, ?_⟩
  show c.reg .esp - 4 + 4 * UInt32.ofNat (ws.length + 1) = base
  rw [← h.top, UInt32.ofNat_add]
  grind

theorem Cpu.Stack.foldl_push
    (h : c.Stack base ws)
    (vs : List UInt32)
    (hlength : ws.length + vs.length < 100) :
    (vs.foldl Cpu.push c).Stack base (vs.reverse ++ ws) := by
  induction vs generalizing c ws with
  | nil => exact h
  | cons w vs ih =>
      rw [List.length_cons] at hlength
      have hrest := ih (h.push (by omega) w) (by rw [List.length_cons]; omega)
      rwa [List.foldl_cons, List.reverse_cons, List.append_assoc]

/-- Pushing changes the stack pointer and the memory, and nothing else. -/
theorem foldl_push
    (vs : List UInt32)
    (c : Cpu) :
    (vs.foldl Cpu.push c).seg = c.seg ∧
      ∀ r, r ≠ .esp → (vs.foldl Cpu.push c).reg r = c.reg r := by
  induction vs generalizing c with
  | nil => exact ⟨rfl, fun _ _ => rfl⟩
  | cons w vs ih =>
      obtain ⟨hseg, hreg⟩ := ih (c.push w)
      refine ⟨hseg, fun r hr => ?_⟩
      rw [List.foldl_cons, hreg r hr]
      exact Function.update_of_ne hr _ _

/-- The words that the processor and the stub store, in the order of the pushes. -/
def storedWords (v : Fin 64) (errorCode : Option UInt32) (c : Cpu) : List UInt32 :=
  [c.eflags, (c.seg .cs).toUInt32, c.eip] ++ errorCode.toList ++
    (if expectsErrorCode v then [UInt32.ofNat v] else [0, UInt32.ofNat v])

theorem run_stubPushes :
    run handler returnAddress (stubPushes v) (deliver tss entry errorCode c) =
      { ((storedWords v errorCode c).foldl Cpu.push (switchStack tss c)).setSeg .cs 0x8 with
        eip := entry, eflags := c.eflags &&& ~~~ gateFlags } := by
  rw [stubPushes, storedWords]
  cases errorCode <;> split_ifs <;> rfl

/-- The words that `saveRegisters` stores. -/
def savedWords (c : Cpu) : List UInt32 :=
  [(c.seg .ds).toUInt32, (c.seg .es).toUInt32, (c.seg .fs).toUInt32, (c.seg .gs).toUInt32,
    c.reg .eax, c.reg .ecx, c.reg .edx, c.reg .ebx, c.reg .esp - 4 - 4 - 4 - 4, c.reg .ebp,
    c.reg .esi, c.reg .edi]

variable (handler returnAddress c) in
theorem run_saveRegisters :
    (run handler returnAddress saveRegisters c).memory =
        (((savedWords c).foldl Cpu.push c).push (c.reg .eax)).memory ∧
      (run handler returnAddress saveRegisters c).reg .esp =
        ((savedWords c).foldl Cpu.push c).reg .esp := by
  refine ⟨rfl, ?_⟩
  show c.reg .esp - 4 - 4 - 4 - 4 - 4 - 4 - 4 - 4 - 4 - 4 - 4 - 4 - 4 + 4 =
    c.reg .esp - 4 - 4 - 4 - 4 - 4 - 4 - 4 - 4 - 4 - 4 - 4 - 4
  rw [UInt32.sub_add_cancel]

variable (handler returnAddress) in
/-- `saveRegisters` uses one word more, for a moment. -/
theorem Cpu.Stack.saveRegisters
    (h : c.Stack base ws)
    (hlength : ws.length < 80) :
    (run handler returnAddress saveRegisters c).Stack base ((savedWords c).reverse ++ ws) := by
  obtain ⟨hmemory, hesp⟩ := run_saveRegisters handler returnAddress c
  have htwelve : (savedWords c).length = 12 := rfl
  have hpushed := h.foldl_push (savedWords c) (by omega)
  generalize (savedWords c).foldl Cpu.push c = c₁ at hmemory hesp hpushed
  have hbelow := hpushed.push (by rw [List.length_append, List.length_reverse]; omega) (c.reg .eax)
  have hpop : Holds (c₁.push (c.reg .eax)).memory (c₁.reg .esp - 4 + 4) _ := hbelow.holds.pop
  rw [UInt32.sub_add_cancel] at hpop
  constructor
  · rw [hmemory, hesp]
    exact hpop
  · rw [hesp]
    exact hpushed.top

variable (tss c) in
theorem switchStack_stack :
    (switchStack tss c).Stack (c.stackBase tss) c.origin := by
  rw [switchStack, Cpu.stackBase, Cpu.origin]
  split_ifs with h
  · exact c.stack_nil
  · have hempty : ((c.setReg .esp tss.esp0).setSeg .ss tss.ss0.toUInt16).Stack tss.esp0 [] :=
      Cpu.stack_nil _
    exact (hempty.push (by decide) _).push (by simp) _

theorem switchStack_reg
    {r : Register}
    (hr : r ≠ .esp) :
    (switchStack tss c).reg r = c.reg r := by
  rw [switchStack]
  split_ifs with h
  · rfl
  · simp [Cpu.push, Cpu.setReg, Cpu.setSeg, Function.update_of_ne hr]

theorem switchStack_seg
    {s : Segment}
    (hs : s ≠ .ss) :
    (switchStack tss c).seg s = c.seg s := by
  rw [switchStack]
  split_ifs with h
  · rfl
  · simp [Cpu.push, Cpu.setReg, Cpu.setSeg, Function.update_of_ne hs]

theorem length_origin (c : Cpu) : c.origin.length ≤ 2 := by
  rw [Cpu.origin]
  split_ifs <;> simp

theorem length_storedWords
    (v : Fin 64)
    (errorCode : Option UInt32)
    (c : Cpu) :
    (storedWords v errorCode c).length ≤ 6 := by
  rw [storedWords]
  cases errorCode <;> split_ifs <;> simp

theorem length_stored (v : Fin 64) (errorCode : Option UInt32) (c : Cpu) :
    ((storedWords v errorCode c).reverse ++ c.origin).length ≤ 8 := by
  have horigin := length_origin c
  have hstored := length_storedWords v errorCode c
  rw [List.length_append, List.length_reverse]
  omega

section Stub

variable (handler returnAddress tss entry v errorCode c)

/-- The words on the stack behind the stub. -/
theorem stubPushes_stack :
    (run handler returnAddress (stubPushes v) (deliver tss entry errorCode c)).Stack
      (c.stackBase tss) ((storedWords v errorCode c).reverse ++ c.origin) := by
  have horigin := length_origin c
  have hstored := length_storedWords v errorCode c
  have hpushed := (switchStack_stack tss c).foldl_push (storedWords v errorCode c) (by omega)
  rw [run_stubPushes]
  exact ⟨hpushed.holds, hpushed.top⟩

/-- The processor and the stub leave the registers alone, and the segments of the data. -/
theorem stubPushes_registers :
    (∀ r, r ≠ .esp →
        (run handler returnAddress (stubPushes v) (deliver tss entry errorCode c)).reg r =
          c.reg r) ∧
      ∀ s, s ≠ .cs → s ≠ .ss →
        (run handler returnAddress (stubPushes v) (deliver tss entry errorCode c)).seg s =
          c.seg s := by
  obtain ⟨hseg, hreg⟩ := foldl_push (storedWords v errorCode c) (switchStack tss c)
  rw [run_stubPushes]
  refine ⟨fun r hr => (hreg r hr).trans (switchStack_reg hr), fun s hcs hss => ?_⟩
  exact (Function.update_of_ne hcs _ _).trans ((congrFun hseg s).trans (switchStack_seg hss))

/-- The words on the stack when the handler is called. -/
theorem entered_stack :
    ∃ sp, (entered handler returnAddress tss entry v errorCode c).Stack (c.stackBase tss)
      (c.registers sp ++ ((storedWords v errorCode c).reverse ++ c.origin)) := by
  have hstub := stubPushes_stack handler returnAddress tss entry v errorCode c
  have hlength := length_stored v errorCode c
  obtain ⟨hreg, hseg⟩ := stubPushes_registers handler returnAddress tss entry v errorCode c
  have hsaved := hstub.saveRegisters handler returnAddress (by omega)
  rw [entered, run_append]
  generalize run handler returnAddress (stubPushes v) (deliver tss entry errorCode c) = c₁ at *
  refine ⟨c₁.reg .esp - 4 - 4 - 4 - 4, ?_⟩
  convert hsaved using 2
  simp [Cpu.registers, savedWords, hreg, hseg]

end Stub

/-- The byte is one of the `n` bytes below `base`, or at the same place of another page: all pages
are one page frame of 4 MiB. -/
def Under (base : UInt32) (n : Nat) (a : UInt32) : Prop := (base - 1 - a).toNat % 0x400000 < n

theorem not_under_of_le
    {m n : Nat}
    {a : UInt32}
    (hmn : m ≤ n)
    (ha : ¬ Under base n a) :
    ¬ Under base m a :=
  fun hunder => ha (lt_of_lt_of_le hunder hmn)

theorem Cpu.Stack.push_memory
    (h : c.Stack base ws)
    (hlength : ws.length < 100)
    {a : UInt32}
    (ha : ¬ Under base (4 * (ws.length + 1)) a)
    (w : UInt32) :
    (c.push w).memory a = c.memory a := by
  have hlen : (UInt32.ofNat ws.length).toNat = ws.length :=
    UInt32.toNat_ofNat_of_lt' (lt_trans hlength (by decide))
  have hfar : ¬ (a - (c.reg .esp - 4)).toNat < 4 := by
    intro hnear
    refine ha ?_
    have hdist : base - 1 - a = 4 * UInt32.ofNat ws.length + 3 - (a - (c.reg .esp - 4)) := by
      rw [← h.top]
      grind
    have hfour : (4 * UInt32.ofNat ws.length + 3).toNat = 4 * ws.length + 3 := by
      rw [UInt32.toNat_add, UInt32.toNat_mul, hlen]
      show (4 * ws.length % 2 ^ 32 + 3) % 2 ^ 32 = _
      omega
    rw [Under, hdist, UInt32.toNat_sub_of_le _ _ (by rw [UInt32.le_iff_toNat_le]; omega)]
    refine lt_of_le_of_lt (Nat.mod_le _ _) ?_
    omega
  exact dif_neg hfar

theorem Cpu.Stack.foldl_push_memory
    (h : c.Stack base ws)
    (vs : List UInt32)
    (hlength : ws.length + vs.length < 100)
    {a : UInt32}
    (ha : ¬ Under base (4 * (ws.length + vs.length)) a) :
    (vs.foldl Cpu.push c).memory a = c.memory a := by
  induction vs generalizing c ws with
  | nil => rfl
  | cons w vs ih =>
      rw [List.length_cons] at hlength ha
      have hfirst : (c.push w).memory a = c.memory a :=
        h.push_memory (by omega) (not_under_of_le (by omega) ha) w
      rw [List.foldl_cons, ← hfirst]
      refine ih (h.push (by omega) w) (by rw [List.length_cons]; omega) ?_
      rw [List.length_cons]
      exact not_under_of_le (by omega) ha

theorem switchStack_memory
    {a : UInt32}
    (ha : ¬ Under (c.stackBase tss) 8 a) :
    (switchStack tss c).memory a = c.memory a := by
  rw [Cpu.stackBase] at ha
  rw [switchStack]
  split_ifs at ha ⊢ with h
  · rfl
  · have hempty : ((c.setReg .esp tss.esp0).setSeg .ss tss.ss0.toUInt16).Stack tss.esp0 [] :=
      Cpu.stack_nil _
    exact hempty.foldl_push_memory [(c.seg .ss).toUInt32, c.reg .esp] (by simp) ha

variable (handler returnAddress) in
/-- The registers come back; the number of the interrupt and the error code are dropped. -/
theorem run_popRegisters
    {c' : Cpu}
    {sp n e : UInt32}
    (h : Holds c'.memory (c'.reg .esp) (c.registers sp ++ n :: e :: ws)) :
    let c'' := run handler returnAddress popRegisters c'
    (∀ r, r ≠ .esp → c''.reg r = c.reg r) ∧
      (∀ s, s ≠ .cs → s ≠ .ss → c''.seg s = c.seg s) ∧
      (∀ s, s = .cs ∨ s = .ss → c''.seg s = c'.seg s) ∧
      c''.memory = c'.memory ∧ c''.reg .esp = c'.reg .esp + 4 * 14 ∧
      Holds c''.memory (c''.reg .esp) ws := by
  obtain ⟨hedi, hesi, hebp, -, hebx, hedx, hecx, heax, hgs, hfs, hes, hds, -, -, hws⟩ := h
  intro c''
  refine ⟨fun r hr => ?_, fun s hcs hss => ?_, fun s hs => ?_, rfl, ?_, ?_⟩
  · cases r with
    | edi => exact hedi
    | esi => exact hesi
    | ebp => exact hebp
    | esp => exact absurd rfl hr
    | ebx => exact hebx
    | edx => exact hedx
    | ecx => exact hecx
    | eax => exact heax
  · have hlower : ∀ w : UInt16, w.toUInt32.toUInt16 = w := fun w => by simp
    cases s with
    | gs => exact (congrArg UInt32.toUInt16 hgs).trans (hlower _)
    | fs => exact (congrArg UInt32.toUInt16 hfs).trans (hlower _)
    | es => exact (congrArg UInt32.toUInt16 hes).trans (hlower _)
    | ds => exact (congrArg UInt32.toUInt16 hds).trans (hlower _)
    | cs => exact absurd rfl hcs
    | ss => exact absurd rfl hss
  · rcases hs with rfl | rfl <;> rfl
  · show c'.reg .esp + 4 + 4 + 4 + 4 + 4 + 4 + 4 + 4 + 4 + 4 + 4 + 4 + 8 = c'.reg .esp + 4 * 14
    grind
  · have height : c'.reg .esp + 4 + 4 + 4 + 4 + 4 + 4 + 4 + 4 + 4 + 4 + 4 + 4 + 4 + 4 =
        c'.reg .esp + 4 + 4 + 4 + 4 + 4 + 4 + 4 + 4 + 4 + 4 + 4 + 4 + 8 := by grind
    rw [height] at hws
    exact hws

theorem iret_eip
    {w : UInt32}
    (h : Holds c.memory (c.reg .esp) (w :: ws)) :
    c.iret.eip = w := by
  have htop : c.top = w := h.word
  rw [Cpu.iret]
  split_ifs
  · exact htop
  · exact htop

/-- The program that the words on the stack describe. -/
theorem popProgram_pops
    {c' : Cpu}
    (h : Holds c'.memory (c'.reg .esp)
      (c.eip :: (c.seg .cs).toUInt32 :: c.eflags :: ws)) :
    c'.popProgram.eip = c.eip ∧ c'.popProgram.eflags = c.eflags ∧
      c'.popProgram.seg = Function.update c'.seg .cs (c.seg .cs) ∧
      c'.popProgram.reg = Function.update c'.reg .esp (c'.reg .esp + 4 * 3) ∧
      Holds c'.popProgram.memory (c'.popProgram.reg .esp) ws := by
  obtain ⟨heip, hcs, hflags, hws⟩ := h
  have hlower : (c.seg .cs).toUInt32.toUInt16 = c.seg .cs := by simp
  have htwelve : c'.reg .esp + 4 + 4 + 4 = c'.reg .esp + 4 * 3 := by grind
  refine ⟨heip, hflags, ?_, ?_, hws⟩
  · exact congrArg (Function.update c'.seg .cs) ((congrArg UInt32.toUInt16 hcs).trans hlower)
  · rw [← htwelve]
    show Function.update (Function.update (Function.update c'.reg .esp _) .esp _) .esp _ = _
    rw [Function.update_idem, Function.update_idem]
    rfl

/-- The stack of a program of another privilege level. -/
theorem popStack_pops
    {sp ss : UInt32}
    (h : Holds c.memory (c.reg .esp) (sp :: ss :: ws)) :
    c.popStack.reg = Function.update c.reg .esp sp ∧
      c.popStack.seg = Function.update c.seg .ss ss.toUInt16 := by
  obtain ⟨hsp, hss, -⟩ := h
  constructor
  · rw [← hsp]
    show Function.update (Function.update (Function.update c.reg .esp _) .esp _) .esp _ = _
    rw [Function.update_idem, Function.update_idem]
    rfl
  · exact congrArg (fun w => Function.update c.seg .ss w.toUInt16) hss

end Argument

/-- A compiled function that is called in the state `c` returns to its caller, where its argument
of `words` words is as it was.  Everything else in the memory is its own business. -/
structure Cdecl (handler : Cpu → Cpu) (words : Nat) (c : Cpu) : Prop where
  esp : (handler c).reg .esp = c.reg .esp + 4
  ss : (handler c).seg .ss = c.seg .ss
  argument : ∀ i, i < 4 * words →
    (handler c).memory (c.reg .esp + 4 + UInt32.ofNat i) =
      c.memory (c.reg .esp + 4 + UInt32.ofNat i)

/-- The state of the call: the handler is to return to `call_generic_handler`. -/
def called (handler : Cpu → Cpu) (returnAddress : UInt32) (tss : TSSEntry) (entry : UInt32)
    (v : Fin 64) (errorCode : Option UInt32) (c : Cpu) : Cpu :=
  (entered handler returnAddress tss entry v errorCode c).push returnAddress

/-- The handler follows the convention when it is called for this interrupt. -/
def Convention (handler : Cpu → Cpu) (returnAddress : UInt32) (tss : TSSEntry) (entry : UInt32)
    (v : Fin 64) (errorCode : Option UInt32) (c : Cpu) : Prop :=
  Cdecl handler (17 + c.origin.length) (called handler returnAddress tss entry v errorCode c)

/-- The program goes on in the state in which it was interrupted, up to what the handler did to
the memory. -/
structure Resumed (c c' : Cpu) : Prop where
  reg : c'.reg = c.reg
  seg : c'.seg = c.seg
  eip : c'.eip = c.eip
  eflags : c'.eflags = c.eflags

section Return

variable {handler : Cpu → Cpu} {returnAddress : UInt32} {tss : TSSEntry} {entry : UInt32}
  {v : Fin 64} {errorCode : Option UInt32} {c c' : Cpu} {ws : List UInt32}

variable (tss) in
/-- `iret` with the words of the interrupt on the stack, and all other registers restored. -/
theorem iret_resumes
    (hstack : c'.Stack (c.stackBase tss)
      (c.eip :: (c.seg .cs).toUInt32 :: c.eflags :: c.origin))
    (hreg : ∀ r, r ≠ .esp → c'.reg r = c.reg r)
    (hseg : ∀ s, s ≠ .cs → s ≠ .ss → c'.seg s = c.seg s)
    (hss : c.cpl = 0 → c'.seg .ss = c.seg .ss) :
    Resumed c c'.iret := by
  obtain ⟨heip, hflags, hpseg, hpreg, hrest⟩ := popProgram_pops hstack.holds
  have hcpl : c'.popProgram.cpl = c.cpl := by
    rw [Cpu.cpl, hpseg, Function.update_self, Cpu.cpl]
  rw [Cpu.iret, hcpl]
  split_ifs with hkernel
  · refine ⟨?_, ?_, heip, hflags⟩
    · have htop := hstack.top
      rw [Cpu.origin, if_pos hkernel, Cpu.stackBase, if_pos hkernel] at htop
      rw [hpreg]
      exact Function.update_eq_iff.mpr ⟨htop, hreg⟩
    · rw [hpseg]
      refine Function.update_eq_iff.mpr ⟨rfl, fun s hcs => ?_⟩
      by_cases hs : s = .ss
      · rw [hs, hss hkernel]
      · exact hseg s hcs hs
  · rw [Cpu.origin, if_neg hkernel] at hrest
    obtain ⟨hsp, hssWord⟩ := popStack_pops hrest
    refine ⟨?_, ?_, heip, hflags⟩
    · rw [hsp, hpreg, Function.update_idem]
      exact Function.update_eq_iff.mpr ⟨rfl, hreg⟩
    · rw [hssWord, hpseg]
      refine Function.update_eq_iff.mpr ⟨by simp, fun s hs => ?_⟩
      by_cases hcs : s = .cs
      · rw [hcs, Function.update_self]
      · rw [Function.update_of_ne hcs, hseg s hcs hs]

theorem interrupt_eq :
    interrupt handler returnAddress tss entry v errorCode c =
      (run handler returnAddress popRegisters
        (handler (called handler returnAddress tss entry v errorCode c))).iret := by
  rw [interrupt, interruptHandler, callGenericHandler, called, entered, run_append, run_append,
    run_append, run_append, run_append]
  rfl

theorem Cdecl.mono
    {m n : Nat}
    (h : Cdecl handler n c)
    (hmn : m ≤ n) :
    Cdecl handler m c :=
  ⟨h.esp, h.ss, fun i hi => h.argument i (by omega)⟩

theorem handler_esp
    {words : Nat}
    (hcall : Cdecl handler words (c.push returnAddress)) :
    (handler (c.push returnAddress)).reg .esp = c.reg .esp := by
  rw [hcall.esp]
  show c.reg .esp - 4 + 4 = c.reg .esp
  rw [UInt32.sub_add_cancel]

variable (returnAddress) in
/-- After the handler, the stack is as it was before the call. -/
theorem holds_called
    (h : Holds c.memory (c.reg .esp) ws)
    (hcall : Cdecl handler ws.length (c.push returnAddress))
    (hlength : ws.length < 100) :
    Holds (handler (c.push returnAddress)).memory
      ((handler (c.push returnAddress)).reg .esp) ws := by
  have hpushed : Holds (c.push returnAddress).memory (c.reg .esp - 4 + 4) ws :=
    (h.push (by omega) returnAddress).pop
  rw [UInt32.sub_add_cancel] at hpushed
  rw [handler_esp hcall]
  refine hpushed.congr fun i hi => ?_
  have hbyte := hcall.argument i hi
  have hargument : (c.push returnAddress).reg .esp + 4 = c.reg .esp :=
    UInt32.sub_add_cancel _ _
  rwa [hargument] at hbyte

variable (handler returnAddress tss entry v errorCode) in
theorem entered_ss
    (hkernel : c.cpl = 0) :
    (entered handler returnAddress tss entry v errorCode c).seg .ss = c.seg .ss := by
  have hseg := (foldl_push (storedWords v errorCode c) (switchStack tss c)).1
  rw [entered, run_append, run_stubPushes]
  show ((storedWords v errorCode c).foldl Cpu.push (switchStack tss c)).seg .ss = _
  rw [hseg, switchStack, if_pos hkernel]

/-- The stubs store a frame with an error code, be it that of the processor or 0. -/
theorem storedWords_reverse
    (hcode : errorCode.isSome = expectsErrorCode v) :
    (storedWords v errorCode c).reverse =
      [UInt32.ofNat v, errorCode.getD 0, c.eip, (c.seg .cs).toUInt32, c.eflags] := by
  rw [storedWords, ← hcode]
  cases errorCode <;> rfl

/-- The words of the processor and of the stub. -/
theorem stubPushes_memory
    {a : UInt32}
    (ha : ¬ Under (c.stackBase tss) 84 a) :
    (run handler returnAddress (stubPushes v) (deliver tss entry errorCode c)).memory a =
      c.memory a := by
  have horigin := length_origin c
  have hstored := length_storedWords v errorCode c
  rw [run_stubPushes]
  show ((storedWords v errorCode c).foldl Cpu.push (switchStack tss c)).memory a = c.memory a
  rw [(switchStack_stack tss c).foldl_push_memory (storedWords v errorCode c) (by omega)
    (not_under_of_le (by omega) ha), switchStack_memory (not_under_of_le (by omega) ha)]

/-- **Up to the call, only the 84 bytes below the stack of the kernel are stored.** -/
theorem entered_memory
    {a : UInt32}
    (ha : ¬ Under (c.stackBase tss) 84 a) :
    (called handler returnAddress tss entry v errorCode c).memory a = c.memory a := by
  have hstub := stubPushes_stack handler returnAddress tss entry v errorCode c
  have hlength := length_stored v errorCode c
  have hfirst : (run handler returnAddress (stubPushes v) (deliver tss entry errorCode c)).memory
      a = c.memory a := stubPushes_memory ha
  rw [called, entered, run_append, ← hfirst]
  generalize run handler returnAddress (stubPushes v) (deliver tss entry errorCode c) = c₁ at *
  generalize (storedWords v errorCode c).reverse ++ c.origin = ws at *
  -- the registers, and the address of the return
  have htwelve : (savedWords c₁).length = 12 := rfl
  have hsaved := hstub.saveRegisters handler returnAddress (by omega)
  have hregisters := hstub.foldl_push (savedWords c₁) (by omega)
  have hwords : ((savedWords c₁).reverse ++ ws).length = 12 + ws.length := by
    rw [List.length_append, List.length_reverse, htwelve]
  rw [hsaved.push_memory (by omega) (not_under_of_le (by omega) ha),
    (run_saveRegisters handler returnAddress c₁).1,
    hregisters.push_memory (by omega) (not_under_of_le (by omega) ha),
    hstub.foldl_push_memory (savedWords c₁) (by omega) (not_under_of_le (by omega) ha)]

theorem interrupt_memory :
    (interrupt handler returnAddress tss entry v errorCode c).memory =
      (handler (called handler returnAddress tss entry v errorCode c)).memory := by
  rw [interrupt_eq, Cpu.iret]
  split_ifs
  · rfl
  · rfl

/-- The argument of the handler. -/
theorem called_frame
    (hcode : errorCode.isSome = expectsErrorCode v) :
    ∃ sp, (entered handler returnAddress tss entry v errorCode c).Stack (c.stackBase tss)
      ((c.frame sp v (errorCode.getD 0)).words ++ c.origin) := by
  obtain ⟨sp, hstack⟩ := entered_stack handler returnAddress tss entry v errorCode c
  rw [storedWords_reverse hcode] at hstack
  exact ⟨sp, hstack⟩

/-- **The interrupted program goes on as if nothing had happened,** and the handler has seen its
registers.  Of the memory, nothing but the 84 bytes below the stack of the kernel has changed, save
for what the handler has changed. -/
theorem interrupt_resumes
    (hcode : errorCode.isSome = expectsErrorCode v)
    (hcall : Convention handler returnAddress tss entry v errorCode c) :
    Resumed c (interrupt handler returnAddress tss entry v errorCode c) ∧
      (∃ sp, Holds (entered handler returnAddress tss entry v errorCode c).memory
        ((entered handler returnAddress tss entry v errorCode c).reg .esp)
        ((c.frame sp v (errorCode.getD 0)).words ++ c.origin)) ∧
      ∀ a, ¬ Under (c.stackBase tss) 84 a →
        (handler (called handler returnAddress tss entry v errorCode c)).memory a =
            (called handler returnAddress tss entry v errorCode c).memory a →
          (interrupt handler returnAddress tss entry v errorCode c).memory a = c.memory a := by
  obtain ⟨sp, hstack⟩ := @called_frame handler returnAddress tss entry v errorCode c hcode
  have hss := @entered_ss handler returnAddress tss entry v errorCode c
  refine ⟨?_, ⟨sp, hstack.holds⟩, fun a ha hkeeps => ?_⟩
  swap
  · rw [interrupt_memory, hkeeps, entered_memory ha]
  rw [Convention, called] at hcall
  rw [interrupt_eq, called]
  generalize entered handler returnAddress tss entry v errorCode c = c₁ at hstack hss hcall
  have hlength : ((c.frame sp v (errorCode.getD 0)).words ++ c.origin).length =
      17 + c.origin.length := List.length_append
  have horigin := length_origin c
  have hcalled := holds_called returnAddress hstack.holds
    (by rwa [hlength]) (by omega)
  have hsame : (handler (c₁.push returnAddress)).reg .esp = c₁.reg .esp := handler_esp hcall
  have hsegment : (handler (c₁.push returnAddress)).seg .ss = c₁.seg .ss := hcall.ss
  generalize handler (c₁.push returnAddress) = c₂ at hcalled hsame hsegment
  obtain ⟨hreg, hseg, hkept, -, hesp, hholds⟩ := run_popRegisters handler returnAddress hcalled
  refine iret_resumes tss ⟨hholds, ?_⟩ hreg hseg fun hkernel => ?_
  · have htop := hstack.top
    rw [hlength, ← hsame] at htop
    rw [hesp, ← htop, List.length_cons, List.length_cons, List.length_cons, UInt32.ofNat_add,
      UInt32.ofNat_add, UInt32.ofNat_add, UInt32.ofNat_add]
    grind
  · rw [hkept .ss (Or.inr rfl), hsegment, hss hkernel]

/-- Behind the two words that the stub is thought to have stored, `iret` finds `eip`. -/
theorem interrupt_eip
    (hcall : Convention handler returnAddress tss entry v errorCode c)
    {n e w : UInt32}
    {rest : List UInt32}
    (hwords : (storedWords v errorCode c).reverse ++ c.origin = n :: e :: w :: rest) :
    (interrupt handler returnAddress tss entry v errorCode c).eip = w := by
  obtain ⟨sp, hstack⟩ := entered_stack handler returnAddress tss entry v errorCode c
  have hsplit : c.registers sp ++ n :: e :: w :: rest =
      (c.registers sp ++ [n, e, w]) ++ rest := by simp
  rw [hwords, hsplit] at hstack
  rw [interrupt_eq]
  have hcalled := holds_called returnAddress hstack.holds.of_append
    (hcall.mono (by show 15 ≤ 17 + c.origin.length; omega)) (by show 15 < 100; omega)
  obtain ⟨-, -, -, -, -, hholds⟩ := run_popRegisters handler returnAddress hcalled
  exact iret_eip hholds

/-- All interrupted programs go on, whatever the handler is, as long as it follows the
convention.  The processor stores an error code for the vectors of `storesErrorCode`. -/
def Resumes (returnAddress : UInt32) (tss : TSSEntry) (entry : UInt32)
    (storesErrorCode : Fin 64 → Bool) : Prop :=
  ∀ handler v errorCode c, errorCode.isSome = storesErrorCode v →
    Convention handler returnAddress tss entry v errorCode c →
      Resumed c (interrupt handler returnAddress tss entry v errorCode c)

/-- A program at address 1, with zeros everywhere else. -/
def programAtOne : Cpu := ⟨fun _ => 0, fun _ => 0, 1, 0, fun _ => 0⟩

/-- The code segment of the program, or its flags, are taken for its address. -/
theorem interrupt_strays
    (hmismatch : errorCode.isSome ≠ expectsErrorCode v)
    (hzero : errorCode.getD 0 = 0)
    (hcall : Convention handler returnAddress tss entry v errorCode programAtOne) :
    (interrupt handler returnAddress tss entry v errorCode programAtOne).eip ≠
      programAtOne.eip := by
  have hwords : ∃ n e rest, (storedWords v errorCode programAtOne).reverse ++
      programAtOne.origin = n :: e :: 0 :: rest := by
    cases errorCode with
    | none =>
        have hexpects : expectsErrorCode v = true :=
          Bool.eq_true_of_not_eq_false fun he => hmismatch he.symm
        exact ⟨_, _, _, by rw [storedWords, hexpects]; rfl⟩
    | some code =>
        have hexpects : expectsErrorCode v = false :=
          Bool.eq_false_of_not_eq_true fun he => hmismatch he.symm
        have hcode : code = 0 := hzero
        exact ⟨_, _, _, by rw [storedWords, hexpects, hcode]; rfl⟩
  obtain ⟨n, e, rest, hwords⟩ := hwords
  rw [interrupt_eip hcall hwords]
  decide

/-- A handler that uses all registers and the stack below it, and returns. -/
def clobber (c : Cpu) : Cpu where
  reg r := if r = .esp then c.reg .esp + 4 else 0xDEADBEEF
  seg s := if s = .ss then c.seg .ss else 0
  eip := c.top
  eflags := 0
  memory := storeWord c.memory (c.reg .esp - 4) 0xDEADBEEF

theorem cdecl_clobber
    {words : Nat}
    (hwords : words < 100)
    (c : Cpu) :
    Cdecl clobber words c := by
  refine ⟨rfl, rfl, fun i hi => dif_neg ?_⟩
  have hdist : c.reg .esp + 4 + UInt32.ofNat i - (c.reg .esp - 4) = 8 + UInt32.ofNat i := by grind
  have hi' : (UInt32.ofNat i).toNat = i :=
    UInt32.toNat_ofNat_of_lt' (lt_of_lt_of_le hi (by show 4 * words ≤ 2 ^ 32; omega))
  rw [hdist, UInt32.toNat_add, hi']
  show ¬ (8 + i) % 2 ^ 32 < 4
  omega

variable (returnAddress tss entry) in
theorem convention_clobber
    (v : Fin 64)
    (errorCode : Option UInt32)
    (c : Cpu) :
    Convention clobber returnAddress tss entry v errorCode c := by
  have horigin := length_origin c
  exact cdecl_clobber (by omega) _

/-- **All interrupted programs go on exactly if the processor stores an error code for the
vectors for which the stubs expect one.**  For any other vector there is a program that goes on at a
wrong address, whatever the handler is. -/
theorem resumes_iff
    (returnAddress : UInt32)
    (tss : TSSEntry)
    (entry : UInt32)
    (storesErrorCode : Fin 64 → Bool) :
    (Resumes returnAddress tss entry storesErrorCode ↔ storesErrorCode = expectsErrorCode) ∧
      ∀ v, storesErrorCode v ≠ expectsErrorCode v →
        ∃ errorCode c, errorCode.isSome = storesErrorCode v ∧
          ∀ handler, Convention handler returnAddress tss entry v errorCode c →
            (interrupt handler returnAddress tss entry v errorCode c).eip ≠ c.eip := by
  have hstray : ∀ v, storesErrorCode v ≠ expectsErrorCode v →
      ∃ errorCode c, errorCode.isSome = storesErrorCode v ∧
        ∀ handler, Convention handler returnAddress tss entry v errorCode c →
          (interrupt handler returnAddress tss entry v errorCode c).eip ≠ c.eip := by
    intro v hv
    refine ⟨if storesErrorCode v then some 0 else none, programAtOne, ?_, fun handler hcall => ?_⟩
    · split_ifs with hstores <;> simp [hstores]
    · refine interrupt_strays ?_ ?_ hcall
      · split_ifs with hstores <;> simpa [hstores] using hv
      · split_ifs <;> rfl
  refine ⟨⟨fun h => ?_, ?_⟩, hstray⟩
  · funext v
    by_contra hne
    obtain ⟨errorCode, c, hcode, hwrong⟩ := hstray v hne
    have hcall := convention_clobber returnAddress tss entry v errorCode c
    exact hwrong clobber hcall (h clobber v errorCode c hcode hcall).eip
  · rintro rfl handler v errorCode c hcode hcall
    exact (interrupt_resumes hcode hcall).1

end Return

/-- A user program at its first instruction. -/
def firstInstruction : Cpu where
  reg r := if r = .esp then 0x3FFFFC else 0
  seg s := if s = .cs then 0x1B else 0x23
  eip := 0
  eflags := 0x202
  memory _ := 0

/-- A timer interrupt of a user program. -/
theorem interrupt_resumes_timer :
    Resumed firstInstruction
        (interrupt clobber 0 ⟨0xC0400000, 0x10⟩ 0xC0100000 0x20 none firstInstruction) ∧
      (∃ sp, Holds
        (entered clobber 0 ⟨0xC0400000, 0x10⟩ 0xC0100000 0x20 none firstInstruction).memory
        ((entered clobber 0 ⟨0xC0400000, 0x10⟩ 0xC0100000 0x20 none firstInstruction).reg .esp)
        ((firstInstruction.frame sp 0x20 0).words ++ firstInstruction.origin)) ∧
      ∀ a, ¬ Under 0xC0400000 84 a →
        (clobber (called clobber 0 ⟨0xC0400000, 0x10⟩ 0xC0100000 0x20 none
            firstInstruction)).memory a =
          (called clobber 0 ⟨0xC0400000, 0x10⟩ 0xC0100000 0x20 none firstInstruction).memory a →
        (interrupt clobber 0 ⟨0xC0400000, 0x10⟩ 0xC0100000 0x20 none firstInstruction).memory a =
          firstInstruction.memory a :=
  interrupt_resumes (by decide) (convention_clobber _ _ _ _ _ _)

end Interrupts
end OS2024
