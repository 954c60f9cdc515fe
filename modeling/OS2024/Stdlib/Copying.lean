import OS2024.Lib.Splices
import OS2024.Lib.Traced
import OS2024.Stdlib.String

/-!
# `stdlib/string.c`: `memcpy` and `memmove`

Memory is a family of objects, each with its bytes; a pointer is an object and an offset in it.
A flat memory has a single object.  An access behind the end of an object is a fault.

Both functions store one byte after another.  `memcpy` goes from the first byte to the last, and
so does `memmove` if the destination is below the source; otherwise it goes from the last byte to
the first.  No byte of the source is overwritten before it is read as long as the destination does
not run ahead.

**Results.**
* `each_upwards`, `each_downwards`: the two loops.
* `memcpy_apply`: what `memcpy` does if its destination does not begin inside of its source.
* `memmove_moves`: `memmove` is right under every overlap.
-/

namespace OS2024
namespace Stdlib

open TracedState Splices

variable {ω : Type}

/-- The bytes of the objects. -/
abbrev Objects (ω : Type) := ω → Memory

/-- A pointer to a byte of an object. -/
structure Pointer (ω : Type) where
  object : ω
  offset : Nat
deriving DecidableEq

/-- `p + n` -/
def Pointer.plus (p : Pointer ω) (n : Nat) : Pointer ω := ⟨p.object, p.offset + n⟩

/-- What ends an access abnormally. -/
inductive MemoryFault (ω : Type)
  /-- The byte is not in its object. -/
  | outside (p : Pointer ω)

/-- Computations on memory. -/
abbrev MemoryM (ω : Type) := Traced (MemoryFault ω) (Objects ω) Empty

section Functions

variable [DecidableEq ω] (size : ω → Nat)

omit [DecidableEq ω] in
def load (p : Pointer ω) : MemoryM ω UInt8 := do
  if p.offset < size p.object then return (← getState) p.object p.offset
  else fault (MemoryFault.outside p)

def store (p : Pointer ω) (v : UInt8) : MemoryM ω Unit := do
  if p.offset < size p.object then
    modifyState fun m =>
      Function.update m p.object (Function.update (m p.object) p.offset v)
  else fault (MemoryFault.outside p)

/-- `dstbuf[i] = srcbuf[i]` -/
def copyByte (dstbuf srcbuf : Pointer ω) (i : Nat) : MemoryM ω Unit := do
  store size (dstbuf.plus i) (← load size (srcbuf.plus i))

def memcpy (dest src : Pointer ω) (n : Nat) : MemoryM ω (Pointer ω) := do
  -- i from 0 to n - 1
  each (copyByte size dest src) (List.range n)
  return dest

/-- `memmove` for two pointers into the same object. -/
def memmove (dest src : Pointer ω) (n : Nat) : MemoryM ω (Pointer ω) := do
  if dest.offset < src.offset then each (copyByte size dest src) (List.range n)
  else
    -- i from n down to 1
    each (fun i => copyByte size dest src (i - 1)) (List.range' 1 n).reverse
  return dest

end Functions

/-! ## The loops -/

section Loops

variable [DecidableEq ω] {size : ω → Nat} {m : Objects ω} {d s : Pointer ω} {n i : Nat}

/-- The memory with `n` bytes at `d` that were at `s`. -/
def moved (m : Objects ω) (d s : Pointer ω) (n : Nat) : Objects ω :=
  Function.update m d.object
    (splice (m d.object) d.offset n fun i => m s.object (s.offset + i))

omit [DecidableEq ω] in
/-- The `n` bytes at `p` are in its object. -/
abbrev Holds (size : ω → Nat) (p : Pointer ω) (n : Nat) : Prop := p.offset + n ≤ size p.object

theorem moved_zero :
    moved m d s 0 = m := by
  rw [moved, splice_zero, Function.update_eq_self]

theorem moved_inside
    (hi : i < n) :
    moved m d s n d.object (d.offset + i) = m s.object (s.offset + i) := by
  rw [moved, Function.update_self, splice_inside hi]

theorem moved_outside
    {o : ω}
    {a : Nat}
    (ha : ¬ (o = d.object ∧ d.offset ≤ a ∧ a < d.offset + n)) :
    moved m d s n o a = m o a := by
  by_cases ho : o = d.object
  · subst ho
    have hout : a < d.offset ∨ d.offset + n ≤ a := by
      by_contra hin
      exact ha ⟨rfl, by omega, by omega⟩
    rw [moved, Function.update_self, splice_outside hout]
  · rw [moved, Function.update_of_ne ho]

omit [DecidableEq ω] in
theorem load_apply
    {p : Pointer ω}
    (hp : p.offset < size p.object) :
    load size p m = ⟨.ok (m p.object p.offset), m, []⟩ := by
  rw [load, if_pos hp]
  rfl

theorem store_apply
    {p : Pointer ω}
    {v : UInt8}
    (hp : p.offset < size p.object) :
    store size p v m =
      ⟨.ok (), Function.update m p.object (Function.update (m p.object) p.offset v), []⟩ := by
  rw [store, if_pos hp]
  rfl

/-- Two parts next to each other, from another object. -/
theorem moved_moved
    {k : Nat}
    (ho : s.object ≠ d.object) :
    moved (moved m d s n) (d.plus n) (s.plus n) k = moved m d s (n + k) := by
  have hsource : moved m d s n s.object = m s.object := Function.update_of_ne ho _ _
  have hwhole : moved m d s n d.object =
      splice (m d.object) d.offset n fun i => m s.object (s.offset + i) :=
    Function.update_self _ _ _
  have hparts := splice_splice (m d.object) d.offset n k fun i => m s.object (s.offset + i)
  rw [moved, Pointer.plus, Pointer.plus, hsource, hwhole]
  simp only [Nat.add_assoc, hparts]
  rw [moved, Function.update_idem]
  rfl

theorem copyByte_apply
    (hd : d.offset + i < size d.object)
    (hs : s.offset + i < size s.object) :
    copyByte size d s i m =
      ⟨.ok (),
        Function.update m d.object
          (Function.update (m d.object) (d.offset + i) (m s.object (s.offset + i))), []⟩ := by
  have hload := load_apply (m := m) (p := s.plus i) hs
  have hstore := store_apply (m := m) (p := d.plus i) (v := m s.object (s.offset + i)) hd
  rw [copyByte, bind_apply, hload]
  exact congrArg (Outcome.prepend []) hstore

/-- Going up, no byte that is still to be read was overwritten, if the destination begins below
the source or behind its end. -/
theorem each_upwards
    (hd : Holds size d n)
    (hs : Holds size s n)
    (hup : d.object = s.object → d.offset ≤ s.offset ∨ s.offset + n ≤ d.offset) :
    each (copyByte size d s) (List.range n) m = ⟨.ok (), moved m d s n, []⟩ := by
  have hround : ∀ i, i < n →
      copyByte size d s i (moved m d s i) = ⟨.ok (), moved m d s (i + 1), []⟩ := by
    intro i hi
    -- the byte that comes next is still the old one
    have hread : moved m d s i s.object (s.offset + i) = m s.object (s.offset + i) := by
      refine moved_outside fun ⟨ho, hlow, hhigh⟩ => ?_
      rcases hup ho.symm with hle | hle <;> omega
    have hobject : moved m d s i d.object =
        splice (m d.object) d.offset i fun i => m s.object (s.offset + i) :=
      Function.update_self _ _ _
    rw [copyByte_apply (by omega) (by omega), hread, hobject,
      update_splice (m d.object) d.offset i fun i => m s.object (s.offset + i), moved,
      Function.update_idem]
    rfl
  have hrun := each_range_states (S := moved m d s) hround
  rwa [moved_zero] at hrun

/-- Going down, the same holds if the destination begins above the source or ends before it. -/
theorem each_downwards
    (hd : Holds size d n)
    (hs : Holds size s n)
    (hdown : d.object = s.object → s.offset ≤ d.offset ∨ d.offset + n ≤ s.offset) :
    each (fun i => copyByte size d s (i - 1)) (List.range' 1 n).reverse m =
      ⟨.ok (), moved m d s n, []⟩ := by
  induction n generalizing m with
  | zero => rw [List.range'_zero, List.reverse_nil, each_nil, moved_zero]
  | succ n ih =>
      have hbyte := copyByte_apply (m := m) (d := d) (s := s) (i := n)
        (Nat.lt_of_succ_le hd) (Nat.lt_of_succ_le hs)
      generalize hm : Function.update m d.object (Function.update (m d.object) (d.offset + n)
        (m s.object (s.offset + n))) = m₁ at hbyte
      have hrun := ih (m := m₁) (by omega) (by omega) fun ho => (hdown ho).imp_right (by omega)
      -- the bytes that are still to be read are the old ones
      have hread : ∀ i, i < n → m₁ s.object (s.offset + i) = m s.object (s.offset + i) := by
        intro i hi
        rw [← hm]
        by_cases ho : s.object = d.object
        · have hne : s.offset + i ≠ d.offset + n := by
            rcases hdown ho.symm with hle | hle <;> omega
          rw [ho, Function.update_self, Function.update_of_ne hne]
        · rw [Function.update_of_ne ho]
      have hmoved : moved m₁ d s n = moved m d s (n + 1) := by
        rw [moved, splice_congr hread, ← hm, Function.update_self, Function.update_idem,
          splice_update (m d.object) d.offset n fun i => m s.object (s.offset + i), moved]
      have hrounds : (List.range' 1 (n + 1)).reverse = (n + 1) :: (List.range' 1 n).reverse := by
        rw [List.range'_concat, List.reverse_append, Nat.one_mul, Nat.add_comm 1 n]
        rfl
      rw [hrounds, each, bind_apply, Nat.add_sub_cancel, hbyte]
      rw [← hmoved]
      exact congrArg (Outcome.prepend []) hrun

/-- `memcpy`, where the destination does not begin inside of the source. -/
theorem memcpy_apply
    (hd : Holds size d n)
    (hs : Holds size s n)
    (hup : d.object = s.object → d.offset ≤ s.offset ∨ s.offset + n ≤ d.offset) :
    memcpy size d s n m = ⟨.ok d, moved m d s n, []⟩ := by
  rw [memcpy, bind_apply, each_upwards hd hs hup]
  rfl

theorem memmove_apply
    (hd : Holds size d n)
    (hs : Holds size s n) :
    memmove size d s n m = ⟨.ok d, moved m d s n, []⟩ := by
  rw [memmove]
  split_ifs with hlt
  · rw [bind_apply, each_upwards hd hs fun _ => Or.inl (Nat.le_of_lt hlt)]
    rfl
  · rw [bind_apply, each_downwards hd hs fun _ => Or.inl (Nat.le_of_not_lt hlt)]
    rfl

/-- **`memmove` is right under every overlap,** and gives what `memcpy` gives if there is none. -/
theorem memmove_moves
    (m : Objects ω)
    (o : ω)
    (dest src n : Nat)
    (hdest : dest + n ≤ size o)
    (hsrc : src + n ≤ size o) :
    ∃ m', memmove size ⟨o, dest⟩ ⟨o, src⟩ n m = ⟨.ok ⟨o, dest⟩, m', []⟩ ∧
      (∀ i, i < n → m' o (dest + i) = m o (src + i)) ∧
      (∀ o' a, ¬ (o' = o ∧ dest ≤ a ∧ a < dest + n) → m' o' a = m o' a) ∧
      (dest + n ≤ src ∨ src + n ≤ dest →
        memcpy size ⟨o, dest⟩ ⟨o, src⟩ n m = ⟨.ok ⟨o, dest⟩, m', []⟩) := by
  refine ⟨moved m ⟨o, dest⟩ ⟨o, src⟩ n, memmove_apply hdest hsrc, fun i hi => moved_inside hi,
    fun o' a ha => moved_outside ha, fun hapart => memcpy_apply hdest hsrc fun _ => ?_⟩
  exact hapart.imp_left (Nat.le_trans (Nat.le_add_right dest n))

end Loops

/-- Five bytes moved up by two, over their own end. -/
theorem memmove_moves_up :
    ∃ m', memmove (fun _ : Unit => 7) ⟨(), 2⟩ ⟨(), 0⟩ 5 (fun _ a => UInt8.ofNat a) =
        ⟨.ok ⟨(), 2⟩, m', []⟩ ∧
      (∀ i, i < 5 → m' () (2 + i) = UInt8.ofNat (0 + i)) ∧
      (∀ o a, ¬ (o = () ∧ 2 ≤ a ∧ a < 2 + 5) → m' o a = UInt8.ofNat a) ∧
      (2 + 5 ≤ 0 ∨ 0 + 5 ≤ 2 →
        memcpy (fun _ : Unit => 7) ⟨(), 2⟩ ⟨(), 0⟩ 5 (fun _ a => UInt8.ofNat a) =
          ⟨.ok ⟨(), 2⟩, m', []⟩) :=
  memmove_moves _ () 2 0 5 (by decide) (by decide)

end Stdlib
end OS2024
