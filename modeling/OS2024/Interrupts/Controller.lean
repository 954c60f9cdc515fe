import Mathlib.Tactic

/-!
# `interrupt.c`: the interrupt controllers

Two 8259 controllers, the second of which is connected to line 2 of the first.  A request is
latched until the processor takes it, and while an interrupt is in service no other of the same or
a lower priority is taken.  The driver programs both through their ports and acknowledges an
interrupt by the command `PIC_ACK`.

**Results.**
* `activate_ready`: whatever state the controllers were in, `pic_remap` and
  `activate_keyboard_interrupt` let line 1 through, and no other line.
* `Ready.acknowledge`: the only interrupt that is then taken is vector 0x21.
* `Ready.acked`: its acknowledgement makes room for the next one.
-/

namespace OS2024
namespace Interrupts

/-- The data that a controller expects next. -/
inductive Phase
  | operation | icw2 | icw3 | icw4
deriving DecidableEq

/-- The registers of a controller, one bit for each line. -/
structure Pic where
  irr : BitVec 8
  isr : BitVec 8
  imr : BitVec 8
  offset : UInt8
  cascade : UInt8
  icw1 : UInt8
  phase : Phase

namespace Pic

/-- The end of the interrupt with the highest priority. -/
def endOfInterrupt (p : Pic) : Pic := { p with isr := p.isr &&& (p.isr - 1) }

/-- The command port: the first word of an initialization, or the end of an interrupt. -/
def command (p : Pic) (v : UInt8) : Pic :=
  if v &&& 0x10 ≠ 0 then { p with irr := 0, isr := 0, imr := 0, icw1 := v, phase := .icw2 }
  else if v = 0x20 then p.endOfInterrupt
  else p

/-- What comes behind the third word. -/
def afterIcw3 (p : Pic) : Phase := if p.icw1 &&& 0x01 ≠ 0 then .icw4 else .operation

/-- The data port: the words of an initialization, and in operation the mask. -/
def data (p : Pic) (v : UInt8) : Pic :=
  match p.phase with
  | .operation => { p with imr := v.toBitVec }
  | .icw2 =>
      { p with offset := v &&& 0xF8, phase := if p.icw1 &&& 0x02 ≠ 0 then p.afterIcw3 else .icw3 }
  | .icw3 => { p with cascade := v, phase := p.afterIcw3 }
  | .icw4 => { p with phase := .operation }

/-- An edge on a line. -/
def raise (p : Pic) (i : Fin 8) : Pic := { p with irr := p.irr ||| BitVec.twoPow 8 i }

/-- A line whose request is not masked, and for which no interrupt is in service that goes
first. -/
def requests (p : Pic) (i : Fin 8) : Bool :=
  p.irr.getLsbD i && !p.imr.getLsbD i &&
    decide (∀ j : Fin 8, j ≤ i → p.isr.getLsbD j = false) && decide (p.phase = .operation)

/-- The line of the interrupt to be taken. -/
def request (p : Pic) : Option (Fin 8) := Fin.find? p.requests

/-- The processor takes the interrupt of a line. -/
def take (p : Pic) (i : Fin 8) : Pic :=
  { p with irr := p.irr &&& ~~~ BitVec.twoPow 8 i, isr := p.isr ||| BitVec.twoPow 8 i }

def vector (p : Pic) (i : Fin 8) : UInt8 := p.offset + UInt8.ofNat i

end Pic

/-- The two controllers. -/
structure Pics where
  pic1 : Pic
  pic2 : Pic

namespace Pics

/-- The output of the second controller is line 2 of the first. -/
def cascaded (b : Pics) : Pic :=
  if b.pic2.request.isSome then b.pic1.raise 2 else b.pic1

/-- The processor asks for a vector; `none` if there is no interrupt. -/
def acknowledge (b : Pics) : Option (UInt8 × Pics) :=
  b.cascaded.request.map fun i =>
    match i, b.pic2.request with
    | 2, some j => (b.pic2.vector j, ⟨b.cascaded.take i, b.pic2.take j⟩)
    | i, _ => (b.cascaded.vector i, { b with pic1 := b.cascaded.take i })

/-- The interrupt of line 1 is taken. -/
def takeKeyboard (b : Pics) : Pics := { b with pic1 := b.pic1.take 1 }

/-- An edge on one of the sixteen lines. -/
def raise (b : Pics) (i : Fin 16) : Pics :=
  if h : i.val < 8 then { b with pic1 := b.pic1.raise ⟨i, h⟩ }
  else { b with pic2 := b.pic2.raise ⟨i - 8, by omega⟩ }

def pic1Command : UInt16 := 0x20
def pic1Data : UInt16 := 0x21
def pic2Command : UInt16 := 0xA0
def pic2Data : UInt16 := 0xA1

def out (b : Pics) (port : UInt16) (data : UInt8) : Pics :=
  if port = pic1Command then { b with pic1 := b.pic1.command data }
  else if port = pic1Data then { b with pic1 := b.pic1.data data }
  else if port = pic2Command then { b with pic2 := b.pic2.command data }
  else if port = pic2Data then { b with pic2 := b.pic2.data data }
  else b

/-- Reading the data port of the first controller gives its mask. -/
def inPic1Data (b : Pics) : UInt8 := UInt8.ofBitVec b.pic1.imr

/-- `io_wait` -/
def ioWait (b : Pics) : Pics := b.out 0x80 0

/-- `PIC_ACK` -/
def ackCommand : UInt8 := 0x20

def picAck (b : Pics) (irq : UInt8) : Pics :=
  let b := if irq ≥ 8 then b.out pic2Command ackCommand else b
  b.out pic1Command ackCommand

def icw1Init : UInt8 := 0x10
def icw1Icw4 : UInt8 := 0x01
def icw48086 : UInt8 := 0x01
def pic1Offset : UInt8 := 0x20
def pic2Offset : UInt8 := 0x28
def picDisableAllMask : UInt8 := 0xFF

def picRemap (b : Pics) : Pics :=
  let b := (b.out pic1Command (icw1Init ||| icw1Icw4)).ioWait
  let b := (b.out pic2Command (icw1Init ||| icw1Icw4)).ioWait
  let b := (b.out pic1Data pic1Offset).ioWait
  let b := (b.out pic2Data pic2Offset).ioWait
  let b := (b.out pic1Data 0b0100).ioWait
  let b := (b.out pic2Data 0b0010).ioWait
  let b := (b.out pic1Data icw48086).ioWait
  let b := (b.out pic2Data icw48086).ioWait
  (b.out pic1Data picDisableAllMask).out pic2Data picDisableAllMask

def irqKeyboard : UInt8 := 1

def activateKeyboardInterrupt (b : Pics) : Pics :=
  b.out pic1Data (b.inPic1Data &&& ~~~ (1 <<< irqKeyboard))

end Pics

/-- The controllers let line 1 through; `service` are the lines in service. -/
structure Serving (service : BitVec 8) (b : Pics) : Prop where
  operation : b.pic1.phase = .operation
  offset : b.pic1.offset = Pics.pic1Offset
  mask : b.pic1.imr = 0xFD
  service : b.pic1.isr = service
  mask2 : b.pic2.imr = 0xFF

/-- No interrupt is in service. -/
abbrev Ready (b : Pics) : Prop := Serving 0 b

/-- There is a request on line 1. -/
def Pics.Requested (b : Pics) : Prop := b.pic1.irr.getLsbD 1 = true

instance (b : Pics) : Decidable b.Requested := inferInstanceAs (Decidable (_ = _))

section Ports

variable {b : Pics}

@[simp] theorem out_pic1Command (b : Pics) (v : UInt8) :
    b.out Pics.pic1Command v = { b with pic1 := b.pic1.command v } := rfl

@[simp] theorem out_pic1Data (b : Pics) (v : UInt8) :
    b.out Pics.pic1Data v = { b with pic1 := b.pic1.data v } := rfl

@[simp] theorem out_pic2Command (b : Pics) (v : UInt8) :
    b.out Pics.pic2Command v = { b with pic2 := b.pic2.command v } := rfl

@[simp] theorem out_pic2Data (b : Pics) (v : UInt8) :
    b.out Pics.pic2Data v = { b with pic2 := b.pic2.data v } := rfl

@[simp] theorem ioWait_eq (b : Pics) : b.ioWait = b := rfl

/-- The five words that a controller gets. -/
def Pic.initialized (p : Pic) (offset cascade : UInt8) : Pic :=
  ((((p.command (Pics.icw1Init ||| Pics.icw1Icw4)).data offset).data cascade).data
    Pics.icw48086).data Pics.picDisableAllMask

theorem picRemap_eq (b : Pics) :
    b.picRemap =
      ⟨b.pic1.initialized Pics.pic1Offset 0b0100, b.pic2.initialized Pics.pic2Offset 0b0010⟩ := by
  simp only [Pics.picRemap, out_pic1Command, out_pic1Data, out_pic2Command, out_pic2Data,
    ioWait_eq, Pic.initialized]

/-- An initialization leaves nothing of the state before it. -/
theorem initialized_eq
    (p : Pic)
    (offset cascade : UInt8) :
    p.initialized offset cascade =
      ⟨0, 0, 0xFF, offset &&& 0xF8, cascade, 0x11, .operation⟩ := by
  have hcommand : p.command (Pics.icw1Init ||| Pics.icw1Icw4) =
      { p with irr := 0, isr := 0, imr := 0, icw1 := 0x11, phase := .icw2 } := rfl
  have htwo : ¬ ((0x11 : UInt8) &&& 0x02 ≠ 0) := by decide
  have hfour : (0x11 : UInt8) &&& 0x01 ≠ 0 := by decide
  rw [Pic.initialized, hcommand]
  simp only [Pic.data, Pic.afterIcw3, if_neg htwo, if_pos hfour]
  rfl

/-- **The initialization works from any state.** -/
theorem activate_ready (b : Pics) : Ready b.picRemap.activateKeyboardInterrupt := by
  rw [picRemap_eq, initialized_eq, initialized_eq]
  exact ⟨rfl, rfl, rfl, rfl, rfl⟩

/-- A request on a masked line does not count. -/
theorem request_masked
    {p : Pic}
    (h : p.imr = 0xFF) :
    p.request = none := by
  rw [Pic.request, Fin.find?_eq_none_iff]
  intro i
  have hmask : p.imr.getLsbD i = true := by
    rw [h]
    revert i
    decide
  rw [Pic.requests, hmask]
  simp

theorem Serving.cascaded
    {service : BitVec 8}
    (h : Serving service b) :
    b.cascaded = b.pic1 := by
  rw [Pics.cascaded, request_masked h.mask2]
  rfl

/-- Of all lines only line 1 can make a request. -/
theorem Ready.requests
    (h : Ready b)
    (i : Fin 8) :
    b.pic1.requests i = (b.pic1.irr.getLsbD 1 && decide (i = 1)) := by
  have hmask : ∀ i : Fin 8, (0xFD : BitVec 8).getLsbD i = !decide (i = 1) := by decide
  rw [Pic.requests, h.mask, h.service, h.operation, hmask]
  by_cases hi : i = 1
  · subst hi
    simp
  · simp [hi]

/-- **With no interrupt in service, a request on line 1 is taken as vector 0x21,** and there is
no other interrupt. -/
theorem Ready.acknowledge
    (h : Ready b) :
    b.acknowledge =
      if b.Requested then some (0x21, b.takeKeyboard) else none := by
  rw [Pics.acknowledge, h.cascaded]
  split_ifs with hreq
  · have hfind : b.pic1.request = some 1 := by
      rw [Pic.request, Fin.find?_eq_some_iff]
      refine ⟨?_, fun j hj => ?_⟩
      · rw [h.requests, hreq]
        rfl
      · rw [h.requests, decide_eq_false hj.ne, Bool.and_false]
    have hvector : b.pic1.vector 1 = 0x21 := by
      rw [Pic.vector, h.offset]
      rfl
    rw [hfind, Option.map_some, ← hvector]
    rfl
  · have hfind : b.pic1.request = none := by
      rw [Pic.request, Fin.find?_eq_none_iff]
      intro j
      rw [h.requests, Bool.eq_false_of_not_eq_true hreq]
      rfl
    rw [hfind, Option.map_none]

theorem Serving.taken
    (h : Ready b) :
    Serving 2 b.takeKeyboard := by
  refine ⟨h.operation, h.offset, h.mask, ?_, h.mask2⟩
  show b.pic1.isr ||| BitVec.twoPow 8 1 = 2
  rw [h.service]
  rfl

theorem Serving.raise
    {service : BitVec 8}
    (h : Serving service b)
    (i : Fin 16) :
    Serving service (b.raise i) := by
  rw [Pics.raise]
  split_ifs with hi
  · exact ⟨h.operation, h.offset, h.mask, h.service, h.mask2⟩
  · exact ⟨h.operation, h.offset, h.mask, h.service, h.mask2⟩

/-- **The acknowledgement ends the interrupt of line 1.** -/
theorem Serving.acked
    (h : Serving 2 b) :
    Ready (b.picAck Pics.irqKeyboard) ∧
      (b.picAck Pics.irqKeyboard).pic1.irr = b.pic1.irr := by
  have hack : b.picAck Pics.irqKeyboard = { b with pic1 := b.pic1.endOfInterrupt } := rfl
  rw [hack]
  refine ⟨⟨h.operation, h.offset, h.mask, ?_, h.mask2⟩, rfl⟩
  show b.pic1.isr &&& (b.pic1.isr - 1) = 0
  rw [h.service]
  rfl

/-- An edge on line 1 is a request; an edge on another line changes nothing about that. -/
theorem requested_raise
    (b : Pics)
    (i : Fin 16) :
    (b.raise i).Requested ↔ i = 1 ∨ b.Requested := by
  rw [Pics.raise]
  split_ifs with hi
  · have hline : i.val = 1 ↔ i = 1 := ⟨fun h => Fin.ext h, fun h => by rw [h]; rfl⟩
    show (b.pic1.irr ||| BitVec.twoPow 8 i.val).getLsbD 1 = true ↔ _
    rw [BitVec.getLsbD_or, Bool.or_eq_true, BitVec.getLsbD_twoPow, or_comm, ← hline]
    simp [Pics.Requested, hi]
  · have hline : i ≠ 1 := fun h => hi (by rw [h]; decide)
    simp [Pics.Requested, hline]

theorem not_requested_taken
    (b : Pics) :
    ¬ b.takeKeyboard.Requested := by
  simp [Pics.Requested, Pics.takeKeyboard, Pic.take]

end Ports

end Interrupts
end OS2024
