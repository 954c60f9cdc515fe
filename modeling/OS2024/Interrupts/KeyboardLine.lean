import OS2024.Lib.Runs
import OS2024.Console.Screen
import OS2024.Interrupts.Controller

/-!
# From the keyboard to its interrupt

The keyboard sends bytes; the keyboard controller holds one of them at its data port and asks for
an interrupt when a byte gets there.  The next byte comes to the port when this one is read.

`keyboard_isr` reads the port if the input is on.  If it is off, it acknowledges the interrupt all
the same, so that the byte stays at the port and no further byte ever gets there.  Interrupts are
admitted long before the shell turns the input on by system call 7.

**Results.**
* `handled_inOrder`: in every run, the bytes that were handled and those that wait are the bytes
  that were sent, in their order.
* `delivers_iff`: all of them can still be handled exactly if no interrupt came too early, and
  after one that did, none is handled any more.
-/

namespace OS2024
namespace Interrupts

open Console Runs

/-- The keyboard controller: the byte at the data port, and those behind it. -/
structure KeyboardController where
  outputBuffer : Option UInt8
  waiting : List UInt8

/-- The line from the keyboard to the driver.  `sent` are all bytes of the keyboard so far, and
`handled` those that the driver has read. -/
structure Line where
  pics : Pics
  controller : KeyboardController
  console : ConsoleState
  sent : List UInt8
  handled : List UInt8

namespace Line

/-- If the port is free, the next byte comes to it, with an edge on line 1. -/
def fill (l : Line) : Line :=
  match l.controller with
  | ⟨none, b :: bs⟩ => { l with controller := ⟨some b, bs⟩, pics := l.pics.raise 1 }
  | _ => l

/-- `in(KEYBOARD_DATA_PORT)`; nobody reads a port that is empty, where the byte would be the last
one. -/
def readPort (l : Line) : UInt8 × Line :=
  let b := l.controller.outputBuffer.getD (l.handled.getLastD 0)
  (b, { l with
    controller := { l.controller with outputBuffer := none }, handled := l.handled ++ [b] }.fill)

/-- `keyboard_isr` with its port and its acknowledgement. -/
def keyboardIsr (l : Line) : Line :=
  let l :=
    if l.console.keyboardState.keyboardInputOn then
      let (scancode, l) := l.readPort
      { l with console := (Console.keyboardIsr scancode l.console).state }
    else { l with console := (Console.keyboardIsr 0 l.console).state }
  { l with pics := l.pics.picAck Pics.irqKeyboard }

/-- `main_interrupt_handler`, for the interrupts of the controllers. -/
def mainInterruptHandler (l : Line) (intNumber : UInt8) : Line :=
  if intNumber = Pics.pic1Offset + Pics.irqKeyboard then l.keyboardIsr else l

/-- The processor takes an interrupt, if there is one. -/
def take (l : Line) : Line :=
  l.pics.acknowledge.elim l fun taken =>
    { l with pics := taken.2 }.mainInterruptHandler taken.1

/-- The keyboard sends a byte. -/
def send (l : Line) (b : UInt8) : Line :=
  { l with
    controller := { l.controller with waiting := l.controller.waiting ++ [b] }
    sent := l.sent ++ [b] }.fill

end Line

/-- What can happen: a byte of the keyboard, an edge on another line, an interrupt, system call 7
and system call 4. -/
inductive Happening
  | send (b : UInt8)
  | raise (irq : Fin 16) (other : irq ≠ 1)
  | take
  | activate
  | poll

def Happening.after (l : Line) : Happening → Line
  | send b => l.send b
  | raise irq _ => { l with pics := l.pics.raise irq }
  | take => l.take
  | activate => { l with console := (keyboardStateActivate l.console).state }
  | poll => { l with console := (getKeyboardBuffer l.console).state }

/-- `kernel_setup` up to the activation of the keyboard interrupt, with an empty controller and
the input off. -/
structure BootLine (l : Line) : Prop where
  pics : ∃ b : Pics, l.pics = b.picRemap.activateKeyboardInterrupt
  controller : l.controller = ⟨none, []⟩
  off : l.console.keyboardState.keyboardInputOn = false
  sent : l.sent = []
  handled : l.handled = []

/-- A line at boot. -/
def bootLine : Line where
  pics := (Pics.mk ⟨0xB8, 0, 0, 0x08, 4, 0x11, .operation⟩
    ⟨0, 0, 0, 0x70, 2, 0x11, .operation⟩).picRemap.activateKeyboardInterrupt
  controller := ⟨none, []⟩
  console := ⟨0, 0, false, false, ⟨false, false, 0⟩, 0, 0, fun _ => 0⟩
  sent := []
  handled := []

theorem bootLine_boots : BootLine bootLine := ⟨⟨_, rfl⟩, rfl, rfl, rfl, rfl⟩

/-- The bytes that the driver has not read. -/
def Line.pending (l : Line) : List UInt8 :=
  l.controller.outputBuffer.toList ++ l.controller.waiting

/-- The processor does not take an interrupt of the keyboard while the input is off. -/
def NotTooEarly (l : Line) (h : Happening) : Prop :=
  h = .take → l.pics.Requested → l.console.InputOn

instance (l : Line) (h : Happening) : Decidable (NotTooEarly l h) :=
  match h with
  | .send _ => isTrue fun hno => Happening.noConfusion hno
  | .raise _ _ => isTrue fun hno => Happening.noConfusion hno
  | .take => decidable_of_iff (l.pics.Requested → l.console.InputOn)
      ⟨fun h _ => h, fun h => h rfl⟩
  | .activate => isTrue fun hno => Happening.noConfusion hno
  | .poll => isTrue fun hno => Happening.noConfusion hno

/-- **The property.**  Once the input is on, interrupts hand over all that the keyboard has
sent. -/
def Delivers (l : Line) : Prop :=
  ∃ n, (Line.take^[n] (Happening.after l .activate)).handled = l.sent

/-! ## Invariants -/

/-- No interrupt is being served, and the port is used before anything waits. -/
structure Waiting (l : Line) : Prop where
  ready : Ready l.pics
  port : l.controller.outputBuffer = none → l.controller.waiting = []
  inOrder : l.handled ++ l.pending = l.sent

/-- A byte at the port has its request. -/
structure Flowing (l : Line) : Prop extends Waiting l where
  requested : l.pics.Requested ↔ l.controller.outputBuffer.isSome

/-- There is a byte at the port that nobody asks to read. -/
structure Stuck (l : Line) : Prop extends Waiting l where
  full : l.controller.outputBuffer.isSome
  silent : ¬ l.pics.Requested

section Fill

variable {l : Line}

/-- The port is filled if it is empty and a byte waits. -/
theorem fill_cases (l : Line) :
    (l.fill = l ∧ (l.controller.outputBuffer = none → l.controller.waiting = [])) ∨
      ∃ b bs, l.controller = ⟨none, b :: bs⟩ ∧
        l.fill = { l with controller := ⟨some b, bs⟩, pics := l.pics.raise 1 } := by
  obtain ⟨pics, ⟨port, waiting⟩, console, sent, handled⟩ := l
  cases port with
  | some b => exact Or.inl ⟨rfl, fun h => by simp at h⟩
  | none =>
      cases waiting with
      | nil => exact Or.inl ⟨rfl, fun _ => rfl⟩
      | cons b bs => exact Or.inr ⟨b, bs, rfl, rfl⟩

theorem fill_console (l : Line) : l.fill.console = l.console := by
  obtain ⟨h, -⟩ | ⟨b, bs, -, h⟩ := fill_cases l
  · rw [h]
  · rw [h]

theorem fill_sent (l : Line) : l.fill.sent = l.sent := by
  obtain ⟨h, -⟩ | ⟨b, bs, -, h⟩ := fill_cases l
  · rw [h]
  · rw [h]

theorem fill_handled (l : Line) : l.fill.handled = l.handled := by
  obtain ⟨h, -⟩ | ⟨b, bs, -, h⟩ := fill_cases l
  · rw [h]
  · rw [h]

theorem fill_pending (l : Line) : l.fill.pending = l.pending := by
  obtain ⟨h, -⟩ | ⟨b, bs, hc, h⟩ := fill_cases l
  · rw [h]
  · rw [h, Line.pending, Line.pending, hc]
    rfl

theorem fill_port
    (h : l.fill.controller.outputBuffer = none) :
    l.fill.controller.waiting = [] := by
  obtain ⟨hfill, hport⟩ | ⟨b, bs, -, hfill⟩ := fill_cases l
  · rw [hfill] at h ⊢
    exact hport h
  · rw [hfill] at h
    simp at h

theorem fill_serving
    {service : BitVec 8}
    (h : Serving service l.pics) :
    Serving service l.fill.pics := by
  obtain ⟨hfill, -⟩ | ⟨b, bs, -, hfill⟩ := fill_cases l
  · rw [hfill]
    exact h
  · rw [hfill]
    exact h.raise 1

/-- A byte comes to the port together with its request. -/
theorem fill_requested
    (h : l.pics.Requested ↔ l.controller.outputBuffer.isSome) :
    l.fill.pics.Requested ↔ l.fill.controller.outputBuffer.isSome := by
  obtain ⟨hfill, -⟩ | ⟨b, bs, -, hfill⟩ := fill_cases l
  · rw [hfill]
    exact h
  · rw [hfill]
    exact iff_of_true ((requested_raise l.pics 1).mpr (Or.inl rfl)) rfl

/-- A port that is full stays as it is. -/
theorem fill_full
    (h : l.controller.outputBuffer.isSome) :
    l.fill = l := by
  obtain ⟨hfill, -⟩ | ⟨b, bs, hc, -⟩ := fill_cases l
  · exact hfill
  · rw [hc] at h
    simp at h

end Fill

section Steps

variable {l : Line}

theorem BootLine.flowing
    (h : BootLine l) :
    Flowing l := by
  obtain ⟨b, hb⟩ := h.pics
  refine ⟨⟨?_, fun _ => ?_, ?_⟩, ?_⟩
  · rw [hb]
    exact activate_ready b
  · rw [h.controller]
  · rw [Line.pending, h.controller, h.sent, h.handled]
    rfl
  · have hirr : l.pics.pic1.irr = 0 := by
      rw [hb, picRemap_eq, initialized_eq]
      rfl
    rw [Pics.Requested, hirr, h.controller]
    decide

/-- With no request, there is nothing to take. -/
theorem take_idle
    (hready : Ready l.pics)
    (hreq : ¬ l.pics.Requested) :
    l.take = l := by
  rw [Line.take, hready.acknowledge, if_neg hreq, Option.elim_none]

/-- A request on line 1 leads to `keyboard_isr`. -/
theorem take_requested
    (hready : Ready l.pics)
    (hreq : l.pics.Requested) :
    l.take = { l with pics := l.pics.takeKeyboard }.keyboardIsr := by
  rw [Line.take, hready.acknowledge, if_pos hreq, Option.elim_some]
  rfl

/-- With the input on, `keyboard_isr` reads the port, and the next byte comes to it. -/
theorem keyboardIsr_on
    (hon : l.console.InputOn)
    {b : UInt8}
    (hb : l.controller.outputBuffer = some b) :
    ∃ next : Line,
      next = ({ l with
        controller := ⟨none, l.controller.waiting⟩, handled := l.handled ++ [b] } : Line).fill ∧
      l.keyboardIsr = { next with
        console := (Console.keyboardIsr b l.console).state
        pics := next.pics.picAck Pics.irqKeyboard } := by
  refine ⟨_, rfl, ?_⟩
  have hread : l.readPort =
      (b, ({ l with
        controller := ⟨none, l.controller.waiting⟩
        handled := l.handled ++ [b] } : Line).fill) := by
    rw [Line.readPort, hb]
    rfl
  rw [Line.keyboardIsr, if_pos hon, hread]
  simp only [fill_console]

/-- With the input off, it only acknowledges. -/
theorem keyboardIsr_off
    (hoff : ¬ l.console.InputOn) :
    l.keyboardIsr = { l with
      console := (Console.keyboardIsr 0 l.console).state
      pics := l.pics.picAck Pics.irqKeyboard } := by
  rw [Line.keyboardIsr, if_neg hoff]

/-- **Taking an interrupt with the input on.**  One byte more is handled, and the line still
flows. -/
theorem Flowing.take_on
    (h : Flowing l)
    (hon : l.console.InputOn)
    {b : UInt8}
    (hb : l.controller.outputBuffer = some b) :
    Flowing l.take ∧ l.take.console.InputOn ∧ l.take.sent = l.sent ∧
      l.take.handled = l.handled ++ [b] := by
  have hreq : l.pics.Requested := h.requested.mpr (by rw [hb]; rfl)
  obtain ⟨next, hnext, hisr⟩ := keyboardIsr_on
    (l := { l with pics := l.pics.takeKeyboard }) hon hb
  rw [take_requested h.ready hreq, hisr]
  have hserving : Serving 2 next.pics := by
    rw [hnext]
    exact fill_serving (Serving.taken h.ready)
  obtain ⟨hready, hirr⟩ := Serving.acked hserving
  have hsent : next.sent = l.sent := by rw [hnext, fill_sent]
  have hhandled : next.handled = l.handled ++ [b] := by rw [hnext, fill_handled]
  have hpending : l.pending = b :: next.pending := by
    rw [hnext, fill_pending, Line.pending, hb]
    rfl
  obtain ⟨s', w, hkey, -, -, hon'⟩ := keyboardIsr_frame (k := b) hon
  refine ⟨⟨⟨hready, ?_, ?_⟩, ?_⟩, ?_, hsent, hhandled⟩
  · show next.controller.outputBuffer = none → next.controller.waiting = []
    rw [hnext]
    exact fill_port
  · show next.handled ++ next.pending = next.sent
    rw [hsent, ← h.inOrder, hhandled, hpending, List.append_assoc]
    rfl
  · have hnone := fill_requested (l := { l with
      pics := l.pics.takeKeyboard
      controller := ⟨none, l.controller.waiting⟩, handled := l.handled ++ [b] })
      (iff_of_false (not_requested_taken l.pics) (by simp))
    rw [← hnext] at hnone
    rw [← hnone]
    show (next.pics.picAck Pics.irqKeyboard).pic1.irr.getLsbD 1 = true ↔ _
    rw [hirr]
    rfl
  · show (Console.keyboardIsr b l.console).state.InputOn
    rw [hkey]
    exact hon'

/-- **Taking an interrupt with the input off.**  The byte stays, and its request is gone. -/
theorem Flowing.take_off
    (h : Flowing l)
    (hreq : l.pics.Requested)
    (hoff : ¬ l.console.InputOn) :
    Stuck l.take := by
  rw [take_requested h.ready hreq,
    keyboardIsr_off (l := { l with pics := l.pics.takeKeyboard }) hoff]
  obtain ⟨hready, hirr⟩ := Serving.acked (Serving.taken h.ready)
  refine ⟨⟨hready, h.port, h.inOrder⟩, h.requested.mp hreq, ?_⟩
  rw [Pics.Requested, hirr]
  exact not_requested_taken l.pics

/-- A byte of the keyboard is sent and waits. -/
theorem Waiting.send
    (h : Waiting l)
    (b : UInt8) :
    Waiting (l.send b) := by
  refine ⟨fill_serving h.ready, fill_port, ?_⟩
  rw [Line.send, fill_handled, fill_pending, fill_sent]
  show l.handled ++ (l.controller.outputBuffer.toList ++ (l.controller.waiting ++ [b])) =
    l.sent ++ [b]
  rw [← List.append_assoc _ l.controller.waiting, ← List.append_assoc, ← h.inOrder]
  rfl

/-- **Every step that comes in time keeps the line flowing.** -/
theorem Flowing.after
    (h : Flowing l)
    (a : Happening)
    (ha : NotTooEarly l a) :
    Flowing (Happening.after l a) := by
  cases a with
  | send b => exact ⟨h.toWaiting.send b, fill_requested h.requested⟩
  | raise irq other =>
      have hsame : (l.pics.raise irq).Requested ↔ l.pics.Requested :=
        (requested_raise l.pics irq).trans (or_iff_right other)
      exact ⟨⟨h.ready.raise irq, h.port, h.inOrder⟩, hsame.trans h.requested⟩
  | take =>
      by_cases hreq : l.pics.Requested
      · obtain ⟨b, hb⟩ := Option.isSome_iff_exists.mp (h.requested.mp hreq)
        exact (h.take_on (ha rfl hreq) hb).1
      · rw [Happening.after, take_idle h.ready hreq]
        exact h
  | activate => exact ⟨⟨h.ready, h.port, h.inOrder⟩, h.requested⟩
  | poll => exact ⟨⟨h.ready, h.port, h.inOrder⟩, h.requested⟩

/-- An interrupt that comes too early stops the line. -/
theorem Flowing.tooEarly
    (h : Flowing l)
    {a : Happening}
    (ha : ¬ NotTooEarly l a) :
    Stuck (Happening.after l a) := by
  obtain ⟨rfl, hreq, hoff⟩ : a = .take ∧ l.pics.Requested ∧ ¬ l.console.InputOn := by
    rw [NotTooEarly] at ha
    push Not at ha
    exact ha
  exact h.take_off hreq hoff

/-- **Nothing starts it again,** and nothing more is handled. -/
theorem Stuck.after
    (h : Stuck l)
    (a : Happening) :
    Stuck (Happening.after l a) ∧ (Happening.after l a).handled = l.handled := by
  cases a with
  | send b =>
      have hfull : l.send b = { l with
          controller := { l.controller with waiting := l.controller.waiting ++ [b] }
          sent := l.sent ++ [b] } := fill_full h.full
      refine ⟨⟨h.toWaiting.send b, ?_, ?_⟩, ?_⟩
      · rw [Happening.after, hfull]
        exact h.full
      · rw [Happening.after, hfull]
        exact h.silent
      · rw [Happening.after, hfull]
  | raise irq other =>
      refine ⟨⟨⟨h.ready.raise irq, h.port, h.inOrder⟩, h.full, fun hreq => ?_⟩, rfl⟩
      exact ((requested_raise l.pics irq).mp hreq).elim other h.silent
  | take =>
      rw [Happening.after, take_idle h.ready h.silent]
      exact ⟨h, rfl⟩
  | activate => exact ⟨⟨⟨h.ready, h.port, h.inOrder⟩, h.full, h.silent⟩, rfl⟩
  | poll => exact ⟨⟨⟨h.ready, h.port, h.inOrder⟩, h.full, h.silent⟩, rfl⟩

theorem Stuck.not_handled
    (h : Stuck l) :
    l.handled ≠ l.sent := by
  obtain ⟨b, hb⟩ := Option.isSome_iff_exists.mp h.full
  intro heq
  have horder := h.inOrder
  rw [heq, Line.pending, hb] at horder
  simp at horder

end Steps

/-! ## Runs -/

section Delivery

variable {l : Line}

/-- With the input on, the line hands over all that waits. -/
theorem Flowing.drains
    (h : Flowing l)
    (hon : l.console.InputOn) :
    ∃ n, (Line.take^[n] l).handled = l.sent := by
  -- one byte at a time, by the number of bytes that are not handled
  induction hn : l.pending generalizing l with
  | nil =>
      refine ⟨0, ?_⟩
      rw [← h.inOrder, hn, List.append_nil]
      rfl
  | cons b bs ih =>
      obtain ⟨c, hc⟩ : ∃ c, l.controller.outputBuffer = some c := by
        refine Option.isSome_iff_exists.mp (Option.isSome_iff_ne_none.mpr fun hnone => ?_)
        rw [Line.pending, hnone, h.port hnone] at hn
        simp at hn
      obtain ⟨hflow, hon', hsent, hhandled⟩ := h.take_on hon hc
      have hrest : l.take.pending = bs := by
        have hpending : c :: l.controller.waiting = b :: bs := by
          rw [← hn, Line.pending, hc]
          rfl
        have horder := hflow.inOrder
        rw [hhandled, hsent, ← h.inOrder, hn, List.append_assoc] at horder
        have htail := List.append_cancel_left horder
        exact (List.cons.inj htail).2
      obtain ⟨n, hnext⟩ := ih hflow hon' hrest
      refine ⟨n + 1, ?_⟩
      rw [Function.iterate_succ_apply, hnext, hsent]

theorem Flowing.delivers
    (h : Flowing l) :
    Delivers l := by
  have hflow : Flowing (Happening.after l .activate) :=
    h.after .activate (fun hno => by simp at hno)
  exact hflow.drains rfl

theorem Stuck.not_delivers
    (h : Stuck l) :
    ¬ Delivers l := by
  rintro ⟨n, hn⟩
  obtain ⟨hstuck, -⟩ := h.after .activate
  rw [Function.iterate_fixed (take_idle hstuck.ready hstuck.silent)] at hn
  exact hstuck.not_handled hn

theorem Stuck.foldl
    (h : Stuck l)
    (more : List Happening) :
    Stuck (more.foldl Happening.after l) ∧
      (more.foldl Happening.after l).handled = l.handled := by
  induction more generalizing l with
  | nil => exact ⟨h, rfl⟩
  | cons a more ih =>
      obtain ⟨hstuck, hsame⟩ := h.after a
      obtain ⟨hend, hhandled⟩ := ih hstuck
      exact ⟨hend, hhandled.trans hsame⟩

variable (l) (hs : List Happening)

theorem flowing_or_stuck
    (hboot : BootLine l) :
    (Along NotTooEarly Happening.after l hs ∧ Flowing (hs.foldl Happening.after l)) ∨
      (¬ Along NotTooEarly Happening.after l hs ∧ Stuck (hs.foldl Happening.after l)) :=
  along_or_broken (fun _ a h ha => h.after a ha) (fun _ _ h ha => h.tooEarly ha)
    (fun _ a h => (h.after a).1) hboot.flowing

/-- **No byte is lost, doubled or overtaken,** in any run. -/
theorem handled_inOrder
    (hboot : BootLine l) :
    (hs.foldl Happening.after l).handled ++ (hs.foldl Happening.after l).pending =
      (hs.foldl Happening.after l).sent := by
  obtain ⟨-, h⟩ | ⟨-, h⟩ := flowing_or_stuck l hs hboot
  · exact h.inOrder
  · exact h.inOrder

theorem handled_inOrder_threeBytes :
    let l := [Happening.send 0x1E, .take, .send 0x9E, .activate, .send 0x30].foldl
      Happening.after bootLine
    l.handled ++ l.pending = l.sent :=
  handled_inOrder bootLine _ bootLine_boots

/-- **All that the keyboard has sent can be handled exactly if no interrupt came before the
input was on.**  After one that came too early, no further byte is handled, whatever happens. -/
theorem delivers_iff
    (hboot : BootLine l) :
    (Delivers (hs.foldl Happening.after l) ↔ Along NotTooEarly Happening.after l hs) ∧
      (¬ Along NotTooEarly Happening.after l hs → ∀ more : List Happening,
        (more.foldl Happening.after (hs.foldl Happening.after l)).handled =
            (hs.foldl Happening.after l).handled ∧
          ¬ Delivers (more.foldl Happening.after (hs.foldl Happening.after l))) := by
  refine ⟨foldl_iff_along (fun _ a h ha => h.after a ha) (fun _ _ h ha => h.tooEarly ha)
    (fun _ a h => (h.after a).1) (fun _ h => h.delivers) (fun _ h => h.not_delivers)
    hboot.flowing, fun hearly more => ?_⟩
  obtain ⟨halong, -⟩ | ⟨-, h⟩ := flowing_or_stuck l hs hboot
  · exact absurd halong hearly
  · obtain ⟨hstuck, hsame⟩ := h.foldl more
    exact ⟨hsame, hstuck.not_delivers⟩

/-- A key pressed while the kernel boots, and two more when the input is on. -/
theorem dead_keyAtBoot :
    let l := [Happening.send 0x1E, .take, .activate].foldl Happening.after bootLine
    ¬ Delivers l ∧
      ([Happening.send 0x9E, .take, .send 0x30, .take].foldl Happening.after l).handled = [] := by
  obtain ⟨hiff, hdead⟩ :=
    delivers_iff bootLine [Happening.send 0x1E, .take, .activate] bootLine_boots
  have hearly : ¬ Along NotTooEarly Happening.after bootLine
      [Happening.send 0x1E, .take, .activate] := by
    decide
  exact ⟨hiff.not.mpr hearly, (hdead hearly _).1.trans (by decide)⟩

end Delivery

end Interrupts
end OS2024
