import Mathlib.Tactic

/-!
# A cursor on a grid

A cursor on a grid of `h` rows and `w` columns goes from cell to cell, from the end of a row to
the beginning of the next one, and from the last row to the first.  Counted row by row this is
counting modulo `h * w`.

A text moves the cursor by one cell for each of its letters, and to the next row for a line
break.  How often it goes to a next row follows from the lengths of its lines.

**Results.**
* `Cursor.index_next`, `Cursor.index_nextLine`: the moves, counted row by row.
* `lineEnds_break`, `lineEnds_letter`: one letter more at the beginning of a text.
-/

namespace OS2024
namespace Grid

universe u

/-- A cell of a grid. -/
@[ext]
structure Cursor where
  row : Nat
  col : Nat

variable {w h : Nat} {p : Cursor}

/-- The number of the cell, counted row by row. -/
def Cursor.index (w : Nat) (p : Cursor) : Nat := p.row * w + p.col

/-- The cell is on the grid. -/
structure Cursor.Within (w h : Nat) (p : Cursor) : Prop where
  row : p.row < h
  col : p.col < w

/-- The beginning of the next row. -/
def Cursor.nextLine (h : Nat) (p : Cursor) : Cursor := ⟨(p.row + 1) % h, 0⟩

/-- The next cell. -/
def Cursor.next (w h : Nat) (p : Cursor) : Cursor :=
  if p.col + 1 < w then ⟨p.row, p.col + 1⟩ else p.nextLine h

theorem Cursor.Within.nextLine (hp : p.Within w h) : (p.nextLine h).Within w h :=
  ⟨Nat.mod_lt _ (Nat.zero_lt_of_lt hp.row), Nat.zero_lt_of_lt hp.col⟩

theorem Cursor.Within.next (hp : p.Within w h) : (p.next w h).Within w h := by
  rw [Cursor.next]
  split_ifs with hc
  · exact ⟨hp.row, hc⟩
  · exact hp.nextLine

theorem Cursor.Within.index_lt (hp : p.Within w h) : p.index w < h * w :=
  calc p.row * w + p.col < p.row * w + w := Nat.add_lt_add_left hp.col _
    _ = (p.row + 1) * w := (Nat.succ_mul _ _).symm
    _ ≤ h * w := Nat.mul_le_mul_right w hp.row

/-- The row of a cell is found by division. -/
theorem Cursor.Within.index_div (hp : p.Within w h) : p.index w / w = p.row := by
  rw [Cursor.index, Nat.add_comm, Nat.add_mul_div_right _ _ (Nat.zero_lt_of_lt hp.col),
    Nat.div_eq_of_lt hp.col, Nat.zero_add]

/-- A line break, counted row by row. -/
theorem Cursor.index_nextLine (hp : p.Within w h) :
    (p.nextLine h).index w = (p.index w / w + 1) % h * w := by
  rw [hp.index_div, Cursor.index, Cursor.nextLine, Nat.add_zero]

/-- A step to the next cell, counted row by row. -/
theorem Cursor.index_next (hp : p.Within w h) :
    (p.next w h).index w = (p.index w + 1) % (h * w) := by
  by_cases hc : p.col + 1 < w
  · have hstep : (p.next w h).index w = p.index w + 1 := by
      rw [Cursor.next, if_pos hc]
      rfl
    have hlt := hp.next.index_lt
    rw [hstep] at hlt ⊢
    exact (Nat.mod_eq_of_lt hlt).symm
  · have hend : p.index w + 1 = (p.row + 1) * w := by
      have hcol : p.col + 1 = w := Nat.le_antisymm hp.col (Nat.le_of_not_lt hc)
      rw [Cursor.index, Nat.add_assoc, hcol, Nat.succ_mul]
    rw [Cursor.next, if_neg hc, hend, Nat.mul_mod_mul_right]
    rfl

/-! ## Texts -/

section Texts

variable {α : Type u} [DecidableEq α] {br a : α} {col : Nat} {text : List α}

/-- How often a text that begins in column `col` goes to a next row: once behind each of its
lines but the last, and once for each row that a line fills. -/
def lineEnds (w : Nat) (br : α) (col : Nat) (text : List α) : Nat :=
  match text.splitOn br with
  | [] => 0
  | line :: lines => (col + line.length) / w + (lines.map fun line => line.length / w + 1).sum

theorem lineEnds_nil (hcol : col < w) : lineEnds w br col [] = 0 := by
  simp [lineEnds, Nat.div_eq_of_lt hcol]

/-- A line break ends a line. -/
theorem lineEnds_break (hcol : col < w) :
    lineEnds w br col (br :: text) = lineEnds w br 0 text + 1 := by
  obtain ⟨line, lines, hlines⟩ := List.exists_cons_of_ne_nil (List.splitOn_ne_nil br text)
  rw [lineEnds, lineEnds, List.splitOn_cons_eq_if_modifyHead, if_pos (beq_self_eq_true br), hlines]
  simp only [List.length_nil, Nat.add_zero, Nat.div_eq_of_lt hcol, List.map_cons, List.sum_cons,
    Nat.zero_add]
  omega

/-- A letter ends a line if it stands in the last column. -/
theorem lineEnds_letter (ha : a ≠ br) (hcol : col < w) :
    lineEnds w br col (a :: text) =
      if col + 1 < w then lineEnds w br (col + 1) text else lineEnds w br 0 text + 1 := by
  obtain ⟨line, lines, hlines⟩ := List.exists_cons_of_ne_nil (List.splitOn_ne_nil br text)
  have hfalse : (a == br) = false := beq_false_of_ne ha
  have hword : col + (line.length + 1) = col + 1 + line.length := by omega
  simp only [lineEnds, List.splitOn_cons_eq_if_modifyHead, hfalse, hlines, Bool.false_eq_true,
    if_false, List.modifyHead_cons, List.length_cons, hword, Nat.zero_add]
  split_ifs with hc
  · rfl
  · have hfull : col + 1 = w := by omega
    rw [hfull, Nat.add_div_left _ (Nat.zero_lt_of_lt hcol)]
    omega

end Texts

end Grid
end OS2024
