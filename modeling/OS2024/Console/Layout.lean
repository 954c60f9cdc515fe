import OS2024.Lib.Grid
import OS2024.Console.Screen

/-!
# Where `puts` writes

`puts` counts its rows and columns in two bytes, and checks the right edge and the bottom one
after the other.  Seen as a page of 2000 cells that are filled one after another, this is
counting modulo 2000, and a line break goes on at the next multiple of 80.

The keyboard has a copy of the position, which `puts` refreshes at the end of each line.  The row
it gets there is the one before the check of the bottom.

**Results.**
* `putsChar_apply`: one round of the loop.
* `puts_layout`: what `puts` writes, and where it ends.
* `inStep_puts_iff`: when the keyboard has the position of `puts` afterwards.
-/

namespace OS2024
namespace Console

open Stdlib TracedState Grid

/-! ## The page -/

/-- The characters that `puts` takes: those before the first NUL, and no more than `length`. -/
def shownText (str : Memory) (length : UInt32) : List UInt8 :=
  ((List.range length.toNat).map str).takeWhile (· ≠ 0)

/-- The cells of the screen, each with a character and its attribute, and the number of the cell
that comes next. -/
@[ext]
structure Page where
  cells : Nat → UInt8 × UInt8
  pos : Nat

/-- A line break stores nothing, any other character is stored in the next cell. -/
def Page.put (attr : UInt8) (page : Page) (c : UInt8) : Page :=
  if c = 10 then { page with pos := (page.pos / 80 + 1) % 25 * 80 }
  else
    { cells := Function.update page.cells page.pos (c, attr)
      pos := (page.pos + 1) % 2000 }

/-- The cursor of `puts`. -/
def ConsoleState.cursor (s : ConsoleState) : Cursor := ⟨s.cursorRow.toNat, s.cursorCol.toNat⟩

/-- The memory of the screen, cell by cell, and the cursor of `puts`. -/
def ConsoleState.page (s : ConsoleState) : Page where
  cells k := (s.framebuffer (k * 2), s.framebuffer (k * 2 + 1))
  pos := s.cursor.index 80

/-- The keyboard has the position of `puts`. -/
structure InStep (s : ConsoleState) : Prop where
  row : s.row = s.cursorRow.toNat
  col : s.col = s.cursorCol.toNat

instance (s : ConsoleState) : Decidable (InStep s) :=
  decidable_of_iff (s.row = s.cursorRow.toNat ∧ s.col = s.cursorCol.toNat)
    ⟨fun h => ⟨h.1, h.2⟩, fun h => ⟨h.row, h.col⟩⟩

/-! ## One character -/

section Character

/-- The state after a line that is full was ended. -/
def ConsoleState.edged (s : ConsoleState) : ConsoleState :=
  if s.cursorCol ≥ 80 then s.nextLine else s

/-- The state after the check of the bottom. -/
def ConsoleState.bottomed (s : ConsoleState) : ConsoleState :=
  if s.cursorRow ≥ 25 then s.wrapped else s

/-- The state after a character. -/
def ConsoleState.put (s : ConsoleState) (c fg bg : UInt8) : ConsoleState :=
  (if c = 10 then s.nextLine else (s.advanced c fg bg).edged).bottomed

/-- The event of a character. -/
def shown (s : ConsoleState) (c fg bg : UInt8) : List ConsoleEvent :=
  if c = 10 then [] else [ConsoleEvent.write s.cursorRow s.cursorCol c fg bg]

variable {s : ConsoleState} {c fg bg : UInt8}

/-- **One round of the loop of `puts`.** -/
theorem putsChar_apply :
    putsChar c fg bg s = ⟨.ok (), s.put c fg bg, shown s c fg bg⟩ := by
  by_cases hc : c = 10
  · simp only [putsChar, ConsoleState.put, shown, if_pos hc, bind_apply, newLine_apply,
      wrapRow_apply, Outcome.prepend, ConsoleState.bottomed, List.append_nil]
  · simp only [putsChar, ConsoleState.put, shown, if_neg hc, bind_apply, printChar_apply,
      wrapRow_apply, Outcome.prepend, ConsoleState.bottomed, ConsoleState.edged,
      List.append_nil]

theorem toNat_ge_iff
    (a b : UInt8) :
    a ≥ b ↔ b.toNat ≤ a.toNat :=
  UInt8.le_iff_toNat_le

/-- The check of the bottom takes a row below the screen to the first one. -/
theorem bottomed_cursor
    (hrow : s.cursorRow.toNat ≤ 25) :
    s.bottomed.cursor = ⟨s.cursorRow.toNat % 25, s.cursorCol.toNat⟩ := by
  have h25 : (25 : UInt8).toNat = 25 := rfl
  rw [ConsoleState.bottomed]
  split_ifs with hge <;> rw [toNat_ge_iff, h25] at hge
  · have hmod : s.cursorRow.toNat % 25 = 0 := by omega
    rw [hmod]
    rfl
  · rw [Nat.mod_eq_of_lt (Nat.lt_of_not_le hge)]
    rfl

/-- It sets the column of the keyboard again, and forgets the row. -/
theorem bottomed_keyboard
    (hcol : s.col = s.cursorCol.toNat) :
    s.bottomed.row = s.row ∧ s.bottomed.col = s.cursorCol.toNat := by
  rw [ConsoleState.bottomed]
  split_ifs with hge
  · exact ⟨rfl, rfl⟩
  · exact ⟨rfl, hcol⟩

/-- A line was ended: the cursor is at the beginning of the next row, and the keyboard in the
row below the old one. -/
structure LineEnded (s s' : ConsoleState) : Prop where
  cursor : s'.cursor = s.cursor.nextLine 25
  row : s'.row = s.cursorRow.toNat + 1
  col : s'.col = s'.cursorCol.toNat

/-- The line goes on: the cursor is in the next column. -/
structure LineGoesOn (s s' : ConsoleState) : Prop where
  cursor : s'.cursor = ⟨s.cursorRow.toNat, s.cursorCol.toNat + 1⟩
  row : s'.row = s.row
  col : s'.col = s'.cursorCol.toNat

theorem lineEnded_nextLine
    (hrow : s.cursorRow.toNat < 25) :
    LineEnded s s.nextLine.bottomed := by
  have hnext : s.nextLine.cursorRow.toNat = s.cursorRow.toNat + 1 := cursorRow_succ hrow
  have hcursor := bottomed_cursor (s := s.nextLine) (by omega)
  obtain ⟨hrow', hcol'⟩ := bottomed_keyboard (s := s.nextLine) rfl
  refine ⟨by rw [hcursor, hnext]; rfl, ?_, ?_⟩
  · rw [hrow']
    exact congrArg Nat.cast hnext
  · rw [hcol']
    exact congrArg Nat.cast (congrArg Cursor.col hcursor).symm

/-- A line break ends the line, and so does a character in the last column. -/
theorem put_lineEnded
    (hrow : s.cursorRow.toNat < 25)
    (hcol : s.cursorCol.toNat < 80)
    (hend : c = 10 ∨ ¬ s.cursorCol.toNat + 1 < 80) :
    LineEnded s (s.put c fg bg) := by
  by_cases hc : c = 10
  · rw [ConsoleState.put, if_pos hc]
    exact lineEnded_nextLine hrow
  · have hedge : (s.advanced c fg bg).cursorCol ≥ 80 := by
      rw [toNat_ge_iff]
      show 80 ≤ (s.cursorCol + 1).toNat
      rw [cursorCol_succ hcol]
      exact Nat.le_of_not_lt (hend.resolve_left hc)
    rw [ConsoleState.put, if_neg hc, ConsoleState.edged, if_pos hedge]
    obtain ⟨hcursor, hrow', hcol'⟩ := lineEnded_nextLine (s := s.advanced c fg bg) hrow
    exact ⟨hcursor, hrow', hcol'⟩

theorem put_lineGoesOn
    (hrow : s.cursorRow.toNat < 25)
    (hc : c ≠ 10)
    (hcol : s.cursorCol.toNat + 1 < 80) :
    LineGoesOn s (s.put c fg bg) := by
  have hnext : (s.advanced c fg bg).cursorCol.toNat = s.cursorCol.toNat + 1 :=
    cursorCol_succ (Nat.lt_of_succ_lt hcol)
  have hedge : ¬ (s.advanced c fg bg).cursorCol ≥ 80 := by
    rw [toNat_ge_iff, hnext]
    exact Nat.not_le_of_lt hcol
  rw [ConsoleState.put, if_neg hc, ConsoleState.edged, if_neg hedge]
  have hcursor := bottomed_cursor (s := s.advanced c fg bg) (Nat.le_of_lt hrow)
  obtain ⟨hrow', hcol'⟩ := bottomed_keyboard (s := s.advanced c fg bg) rfl
  refine ⟨?_, hrow', ?_⟩
  · rw [hcursor, hnext]
    exact congrArg (Cursor.mk · _) (Nat.mod_eq_of_lt hrow)
  · rw [hcol']
    exact congrArg Nat.cast (congrArg Cursor.col hcursor).symm

/-- The cursor goes from cell to cell. -/
theorem put_cursor
    (hs : s.cursor.Within 80 25) :
    (s.put c fg bg).cursor =
      if c = 10 then s.cursor.nextLine 25 else s.cursor.next 80 25 := by
  split_ifs with hc
  · exact (put_lineEnded hs.row hs.col (Or.inl hc)).cursor
  · rw [Cursor.next]
    split_ifs with hcol
    · exact (put_lineGoesOn hs.row hc hcol).cursor
    · exact (put_lineEnded hs.row hs.col (Or.inr hcol)).cursor

theorem put_within
    (hs : s.cursor.Within 80 25) :
    (s.put c fg bg).cursor.Within 80 25 := by
  rw [put_cursor hs]
  split_ifs
  · exact hs.nextLine
  · exact hs.next

theorem put_framebuffer
    (s : ConsoleState)
    (c fg bg : UInt8) :
    (s.put c fg bg).framebuffer =
      if c = 10 then s.framebuffer else (s.advanced c fg bg).framebuffer := by
  rw [ConsoleState.put, ConsoleState.bottomed]
  split_ifs with hc hge hge
  · rfl
  · rfl
  all_goals
    show (s.advanced c fg bg).edged.framebuffer = _
    rw [ConsoleState.edged]
    split_ifs <;> rfl

/-- A cell of the page is written as a whole. -/
theorem advanced_cells
    (s : ConsoleState)
    (c fg bg : UInt8) :
    (s.advanced c fg bg).page.cells =
      Function.update s.page.cells s.page.pos (c, bg <<< 4 ||| fg) := by
  have hindex : frameBufferIndex s.cursorRow s.cursorCol = s.page.pos * 2 := rfl
  funext k
  show (Function.update (Function.update s.framebuffer _ c) _ _ (k * 2),
    Function.update (Function.update s.framebuffer _ c) _ _ (k * 2 + 1)) = _
  rw [hindex]
  by_cases hk : k = s.page.pos
  · subst hk
    simp
  · have heven : k * 2 ≠ s.page.pos * 2 + 1 := by omega
    have hsame : k * 2 ≠ s.page.pos * 2 := by omega
    have hodd : k * 2 + 1 ≠ s.page.pos * 2 + 1 := by omega
    have hother : k * 2 + 1 ≠ s.page.pos * 2 := by omega
    rw [Function.update_of_ne heven, Function.update_of_ne hsame, Function.update_of_ne hodd,
      Function.update_of_ne hother, Function.update_of_ne hk]
    rfl

/-- **One character on the page.** -/
theorem put_page
    (hs : s.cursor.Within 80 25) :
    (s.put c fg bg).page = s.page.put (bg <<< 4 ||| fg) c := by
  have hcursor : (s.put c fg bg).cursor =
      if c = 10 then s.cursor.nextLine 25 else s.cursor.next 80 25 := put_cursor hs
  have hbytes := put_framebuffer s c fg bg
  rw [Page.put]
  split_ifs with hc
  · rw [if_pos hc] at hcursor hbytes
    ext1
    · simp only [ConsoleState.page, hbytes]
    · exact (congrArg (Cursor.index 80) hcursor).trans (Cursor.index_nextLine hs)
  · rw [if_neg hc] at hcursor hbytes
    ext1
    · rw [← advanced_cells]
      simp only [ConsoleState.page, hbytes]
    · exact (congrArg (Cursor.index 80) hcursor).trans (Cursor.index_next hs)

end Character

/-! ## A text -/

section Text

/-- The state after a text. -/
def ConsoleState.putAll (s : ConsoleState) (fg bg : UInt8) (text : List UInt8) : ConsoleState :=
  text.foldl (fun s c => s.put c fg bg) s

/-- The two halves of an attribute. -/
def foreground (attr : UInt32) : UInt8 := (attr &&& 0x0F).toUInt8

def background (attr : UInt32) : UInt8 := (attr >>> 4 &&& 0x0F).toUInt8

variable {s : ConsoleState}

/-- The byte at an odd address is the low byte of the attribute. -/
theorem attribute_eq
    (attr : UInt32) :
    background attr <<< 4 ||| foreground attr = attr.toUInt8 := by
  apply UInt8.toBitVec_inj.mp
  ext i hi
  simp only [background, foreground]
  simp
  interval_cases i <;> simp

theorem each_putsChar
    (fg bg : UInt8)
    (text : List UInt8)
    (s : ConsoleState) :
    ∃ w, each (putsChar · fg bg) text s = ⟨.ok (), s.putAll fg bg text, w⟩ := by
  induction text generalizing s with
  | nil => exact ⟨[], rfl⟩
  | cons c text ih =>
      obtain ⟨w, hrun⟩ := ih (s.put c fg bg)
      refine ⟨shown s c fg bg ++ w, ?_⟩
      simp only [each, bind_apply, putsChar_apply, hrun, Outcome.prepend]
      rfl

/-- The loop of `puts` goes through the characters that are shown. -/
theorem putsLoop_eq
    (str : Memory)
    (fg bg : UInt8)
    (n i : Nat) :
    putsLoop str fg bg n i =
      each (putsChar · fg bg) (((List.range' i n).map str).takeWhile (· ≠ 0)) := by
  induction n generalizing i with
  | zero => rfl
  | succ n ih =>
      rw [putsLoop, List.range'_succ, List.map_cons, List.takeWhile_cons]
      by_cases hi : str i = 0
      · simp [hi, each]
      · simp [hi, each, ih]

/-- The state at the end of `puts`. -/
def ConsoleState.printed
    (s : ConsoleState)
    (str : Memory)
    (length attr : UInt32) :
    ConsoleState :=
  s.putAll (foreground attr) (background attr) (shownText str length)

theorem puts_apply
    (str : Memory)
    (length attr : UInt32)
    (s : ConsoleState) :
    ∃ w, puts str length attr s =
      ⟨.ok (), s.printed str length attr,
        w ++ [ConsoleEvent.setCursor
          ((s.printed str length attr).cursorRow.toUInt16 * 80 +
            (s.printed str length attr).cursorCol.toUInt16)]⟩ := by
  have hputs : puts str length attr =
      (do each (putsChar · (foreground attr) (background attr)) (shownText str length)
          updateCursorPosition) := by
    rw [shownText, List.range_eq_range', ← putsLoop_eq]
    rfl
  obtain ⟨w, hrun⟩ := each_putsChar (foreground attr) (background attr) (shownText str length) s
  refine ⟨w, ?_⟩
  rw [hputs, bind_apply, hrun]
  rfl

/-- A text on the page: the characters are put one after another. -/
theorem putAll_page
    (fg bg : UInt8)
    (text : List UInt8)
    (hs : s.cursor.Within 80 25) :
    (s.putAll fg bg text).page = text.foldl (Page.put (bg <<< 4 ||| fg)) s.page ∧
      (s.putAll fg bg text).cursor.Within 80 25 := by
  induction text generalizing s with
  | nil => exact ⟨rfl, hs⟩
  | cons c text ih =>
      obtain ⟨hpage, hwithin⟩ := ih (s := s.put c fg bg) (put_within hs)
      rw [put_page hs] at hpage
      exact ⟨hpage, hwithin⟩

/-- The number that goes to the hardware is that of the cell. -/
theorem cursorIndex_toNat
    (hs : s.cursor.Within 80 25) :
    (s.cursorRow.toUInt16 * 80 + s.cursorCol.toUInt16).toNat = s.page.pos := by
  have hrow : s.cursorRow.toNat < 25 := hs.row
  have hcol : s.cursorCol.toNat < 80 := hs.col
  have h80 : (80 : UInt16).toNat = 80 := rfl
  rw [UInt16.toNat_add, UInt16.toNat_mul, UInt8.toNat_toUInt16, UInt8.toNat_toUInt16, h80]
  show _ = s.cursorRow.toNat * 80 + s.cursorCol.toNat
  omega

/-- **`puts` fills the page, one cell after another,** and sends the number of the next cell to
the hardware. -/
theorem puts_layout
    (str : Memory)
    (length attr : UInt32)
    (hrow : s.cursorRow < 25)
    (hcol : s.cursorCol < 80) :
    ∃ s' w i, puts str length attr s = ⟨.ok (), s', w ++ [ConsoleEvent.setCursor i]⟩ ∧
      s'.page = (shownText str length).foldl (Page.put attr.toUInt8) s.page ∧
      s'.cursorRow < 25 ∧ s'.cursorCol < 80 ∧ i.toNat = s'.page.pos := by
  have hs : s.cursor.Within 80 25 :=
    ⟨UInt8.lt_iff_toNat_lt.mp hrow, UInt8.lt_iff_toNat_lt.mp hcol⟩
  obtain ⟨w, hrun⟩ := puts_apply str length attr s
  obtain ⟨hpage, hwithin⟩ :=
    putAll_page (foreground attr) (background attr) (shownText str length) hs
  rw [attribute_eq] at hpage
  exact ⟨_, w, _, hrun, hpage, UInt8.lt_iff_toNat_lt.mpr hwithin.row,
    UInt8.lt_iff_toNat_lt.mpr hwithin.col, cursorIndex_toNat hwithin⟩

/-- A text that wraps the page, from the last cell. -/
theorem puts_layout_corner :
    ∃ s' w i, puts (fun _ => 65) 3 7 { bootConsole with cursorRow := 24, cursorCol := 79 } =
        ⟨.ok (), s', w ++ [ConsoleEvent.setCursor i]⟩ ∧
      s'.page = [65, 65, 65].foldl (Page.put 7)
        ({ bootConsole with cursorRow := 24, cursorCol := 79 } : ConsoleState).page ∧
      s'.cursorRow < 25 ∧ s'.cursorCol < 80 ∧ i.toNat = s'.page.pos :=
  puts_layout _ 3 7 (by decide) (by decide)

end Text

/-! ## The position of the keyboard -/

section Echo

variable {s : ConsoleState}

/-- How often a text goes to a next row. -/
def ConsoleState.lineEnds (s : ConsoleState) (text : List UInt8) : Nat :=
  Grid.lineEnds 80 10 s.cursorCol.toNat text

/-- The text ends some line, and its last line end is the one that goes from the last row to the
first. -/
def EndsAtTop (s : ConsoleState) (text : List UInt8) : Prop :=
  0 < s.lineEnds text ∧ 25 ∣ s.cursorRow.toNat + s.lineEnds text

instance (s : ConsoleState) (text : List UInt8) : Decidable (EndsAtTop s text) :=
  inferInstanceAs (Decidable (_ ∧ _))

theorem lineEnds_cons_ended
    {s' : ConsoleState}
    {c : UInt8}
    (text : List UInt8)
    (hs : s.cursor.Within 80 25)
    (hend : c = 10 ∨ ¬ s.cursorCol.toNat + 1 < 80)
    (hended : LineEnded s s') :
    s.lineEnds (c :: text) = s'.lineEnds text + 1 := by
  have hold : s.cursorCol.toNat < 80 := hs.col
  have hcol : s'.cursorCol.toNat = 0 := congrArg Cursor.col hended.cursor
  rw [ConsoleState.lineEnds, ConsoleState.lineEnds, hcol]
  by_cases hc : c = 10
  · rw [hc]
    exact lineEnds_break hold
  · rw [lineEnds_letter hc hold]
    exact if_neg (hend.resolve_left hc)

theorem lineEnds_cons_goesOn
    {s' : ConsoleState}
    {c : UInt8}
    (text : List UInt8)
    (hs : s.cursor.Within 80 25)
    (hc : c ≠ 10)
    (hcol : s.cursorCol.toNat + 1 < 80)
    (hgoes : LineGoesOn s s') :
    s.lineEnds (c :: text) = s'.lineEnds text := by
  have hold : s.cursorCol.toNat < 80 := hs.col
  have hcol' : s'.cursorCol.toNat = s.cursorCol.toNat + 1 := congrArg Cursor.col hgoes.cursor
  rw [ConsoleState.lineEnds, ConsoleState.lineEnds, hcol', lineEnds_letter hc hold]
  exact if_pos hcol

/-- The two rows after `n` line ends: the screen wraps, the keyboard's row is the one before the
last wrap. -/
structure Echoed (s : ConsoleState) (n : Nat) (s' : ConsoleState) : Prop where
  cursorRow : s'.cursorRow.toNat = (s.cursorRow.toNat + n) % 25
  row : s'.row = if n = 0 then s.row else ((s.cursorRow.toNat + n - 1) % 25 + 1 : Nat)
  col : s'.col = s'.cursorCol.toNat

/-- **The keyboard's position along a text.** -/
theorem putAll_echoed
    (fg bg : UInt8)
    (text : List UInt8)
    (hs : s.cursor.Within 80 25)
    (hcol : s.col = s.cursorCol.toNat) :
    Echoed s (s.lineEnds text) (s.putAll fg bg text) := by
  induction text generalizing s with
  | nil =>
      have hnone : s.lineEnds [] = 0 := lineEnds_nil hs.col
      rw [hnone]
      exact ⟨(Nat.mod_eq_of_lt hs.row).symm, rfl, hcol⟩
  | cons c text ih =>
      have hrow : s.cursorRow.toNat < 25 := hs.row
      by_cases hend : c = 10 ∨ ¬ s.cursorCol.toNat + 1 < 80
      · have hended : LineEnded s (s.put c fg bg) := put_lineEnded hs.row hs.col hend
        obtain ⟨hcursor, hkey, hcol'⟩ := ih (put_within hs) hended.col
        have hnext : (s.put c fg bg).cursorRow.toNat = (s.cursorRow.toNat + 1) % 25 :=
          congrArg Cursor.row hended.cursor
        rw [hnext] at hcursor hkey
        rw [hended.row] at hkey
        rw [lineEnds_cons_ended text hs hend hended]
        refine ⟨hcursor.trans (by omega), hkey.trans ?_, hcol'⟩
        rw [if_neg (Nat.succ_ne_zero _)]
        split_ifs with hn <;> omega
      · obtain ⟨hc, hline⟩ := not_or.mp hend
        have hline : s.cursorCol.toNat + 1 < 80 := not_not.mp hline
        have hgoes : LineGoesOn s (s.put c fg bg) := put_lineGoesOn hs.row hc hline
        obtain ⟨hcursor, hkey, hcol'⟩ := ih (put_within hs) hgoes.col
        have hnext : (s.put c fg bg).cursorRow.toNat = s.cursorRow.toNat :=
          congrArg Cursor.row hgoes.cursor
        rw [hnext] at hcursor hkey
        rw [hgoes.row] at hkey
        rw [lineEnds_cons_goesOn text hs hc hline hgoes]
        exact ⟨hcursor, hkey, hcol'⟩

theorem Echoed.inStep_iff
    {n : Nat}
    {s' : ConsoleState}
    (h : Echoed s n s')
    (hstep : InStep s)
    (hrow : s.cursorRow.toNat < 25) :
    InStep s' ↔ ¬ (0 < n ∧ 25 ∣ s.cursorRow.toNat + n) := by
  obtain ⟨hcursor, hkey, hcol⟩ := h
  have hold := hstep.row
  constructor
  · rintro hstep' ⟨hpos, hdvd⟩
    have hnew := hstep'.row
    rw [hkey, hcursor, if_neg (by omega)] at hnew
    omega
  · intro hnot
    refine ⟨?_, hcol⟩
    rw [hkey, hcursor]
    split_ifs with hn
    · rw [hold, hn, Nat.add_zero, Nat.mod_eq_of_lt hrow]
    · have hrest : ¬ 25 ∣ s.cursorRow.toNat + n := fun hdvd => hnot ⟨by omega, hdvd⟩
      omega

/-- **The keyboard keeps the position of `puts`, unless the last line end of the text wraps the
screen.** -/
theorem inStep_puts_iff
    (str : Memory)
    (length attr : UInt32)
    (hstep : InStep s)
    (hrow : s.cursorRow < 25)
    (hcol : s.cursorCol < 80) :
    InStep (puts str length attr s).state ↔ ¬ EndsAtTop s (shownText str length) := by
  have hs : s.cursor.Within 80 25 :=
    ⟨UInt8.lt_iff_toNat_lt.mp hrow, UInt8.lt_iff_toNat_lt.mp hcol⟩
  obtain ⟨w, hrun⟩ := puts_apply str length attr s
  rw [hrun]
  exact (putAll_echoed _ _ _ hs hstep.col).inStep_iff hstep hs.row

/-- The greeting of one line keeps the keyboard in step. -/
theorem inStep_firstLine :
    InStep (puts (fun i => if i = 5 then 10 else 65) 6 7 bootConsole).state :=
  (inStep_puts_iff _ 6 7 ⟨rfl, rfl⟩ (by decide) (by decide)).mpr (by decide +kernel)

/-- Twenty-five line breaks take `puts` back to the first row, and the keyboard below the last
one, where the next key writes. -/
theorem keyboard_left_below :
    InStep bootConsole ∧ bootConsole.cursorRow < 25 ∧ bootConsole.cursorCol < 80 ∧
      ¬ InStep (puts (fun _ => 10) 25 7 bootConsole).state ∧
      ConsoleEvent.write 25 0 97 0x0F 0x00 ∈
        (keyboardIsr 0x1E (puts (fun _ => 10) 25 7 bootConsole).state).trace := by
  decide +kernel

end Echo

end Console
end OS2024
