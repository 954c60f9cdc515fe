import Mathlib.Data.List.GetD
import Mathlib.Data.List.TakeWhile
import Mathlib.Tactic
import OS2024.Fat32.Driver

/-!
# The strings of the shell

`user-shell.c` collects what is typed in a buffer of 256 characters and a length, and
passes such buffers to its commands by value.  The commands treat them as C strings: a
`char*` is the list of the bytes from there to the end of the array.

**Results.**
* `text_inputChar`: a character is put at the end of the text.
* `ofChars_inputChar`: so is one at the end of a word in a new buffer.
* `strCompare_iff`: two strings are equal up to their first NULs.
-/

namespace OS2024
namespace Shell

open Fat32

/-- `struct StringBuff` -/
structure StringBuff where
  buf : Fin 256 → UInt8
  len : UInt32

/-- `stringBuff_create` -/
def stringBuffCreate : StringBuff := ⟨fun _ => 0, 0⟩

/-- `stringBuffInputChar`; nothing keeps it from leaving the buffer. -/
def stringBuffInputChar (str : StringBuff) (c : UInt8) : Option StringBuff :=
  if h : str.len.toNat < 256 then
    some ⟨Function.update str.buf ⟨str.len.toNat, h⟩ c, str.len + 1⟩
  else none

/-- The characters put into the buffer so far. -/
def StringBuff.text (str : StringBuff) : List UInt8 := (List.ofFn str.buf).take str.len.toNat

section Text

/-- Replacing entry `i` of a vector and cutting behind it appends the entry. -/
theorem take_ofFn_update
    {α : Type}
    {n : Nat}
    (b : Fin n → α)
    (i : Fin n)
    (c : α) :
    (List.ofFn (Function.update b i c)).take (i + 1) = (List.ofFn b).take i ++ [c] := by
  have hi := i.isLt
  refine List.ext_getElem (by simp) fun j h₁ h₂ => ?_
  rw [List.getElem_take, List.getElem_ofFn]
  by_cases hj : j = i
  · subst hj
    rw [List.getElem_append_right (by simp)]
    simp
  · have hlt : j < i := by
      rw [List.length_take] at h₁
      omega
    have hne : (⟨j, by omega⟩ : Fin n) ≠ i := fun he => hj (congrArg Fin.val he)
    rw [Function.update_of_ne hne, List.getElem_append_left (by simp; omega), List.getElem_take,
      List.getElem_ofFn]

variable {str : StringBuff} {c : UInt8}

@[simp] theorem text_create : stringBuffCreate.text = [] := rfl

theorem length_text
    (h : str.len.toNat ≤ 256) :
    str.text.length = str.len.toNat := by
  rw [StringBuff.text, List.length_take, List.length_ofFn]
  omega

theorem inputChar_of_lt
    (h : str.len.toNat < 256) :
    stringBuffInputChar str c =
      some ⟨Function.update str.buf ⟨str.len.toNat, h⟩ c, str.len + 1⟩ :=
  dif_pos h

theorem inputChar_len
    {str' : StringBuff}
    (h : stringBuffInputChar str c = some str') :
    str'.len.toNat = str.len.toNat + 1 ∧ str'.len.toNat ≤ 256 := by
  unfold stringBuffInputChar at h
  split_ifs at h with hlt
  rw [← Option.some_inj.mp h]
  show (str.len + 1).toNat = _ ∧ (str.len + 1).toNat ≤ 256
  rw [UInt32.toNat_add]
  have hone : (1 : UInt32).toNat = 1 := rfl
  omega

/-- A character is put at the end of the text. -/
theorem text_inputChar
    {str' : StringBuff}
    (h : stringBuffInputChar str c = some str') :
    str'.text = str.text ++ [c] := by
  have hlen := (inputChar_len h).1
  unfold stringBuffInputChar at h
  split_ifs at h with hlt
  have hbuf : str'.buf = Function.update str.buf ⟨str.len.toNat, hlt⟩ c := by
    rw [← Option.some_inj.mp h]
  rw [StringBuff.text, StringBuff.text, hlen, hbuf]
  exact take_ofFn_update str.buf ⟨str.len.toNat, hlt⟩ c

end Text

/-! ## C strings -/

/-- A string literal, with the NUL at its end. -/
def literal (s : String) : List UInt8 := s.toList.map byteOfChar ++ [0]

/-- The characters before the first NUL. -/
def cString (buf : List UInt8) : List UInt8 := buf.takeWhile (· ≠ 0)

/-- `strLength`, on an array that has a NUL. -/
def strLength : List UInt8 → Nat
  | [] => 0
  | c :: buf => if c = 0 then 0 else strLength buf + 1

/-- The comparing loop of `strCompare`. -/
def strCompareLoop : List UInt8 → List UInt8 → Bool
  | [], _ => true
  | c :: str1, str2 =>
      if c = 0 then true
      else if c ≠ str2.headD 0 then false
      else strCompareLoop str1 str2.tail

def strCompare (str1 str2 : List UInt8) : Bool :=
  if strLength str1 ≠ strLength str2 then false
  else strCompareLoop str1 str2

section CStrings

variable {buf str1 str2 : List UInt8}

@[simp] theorem cString_nil : cString [] = [] := rfl

@[simp] theorem cString_cons (c : UInt8) (buf : List UInt8) :
    cString (c :: buf) = if c = 0 then [] else c :: cString buf := by
  simp [cString, List.takeWhile_cons]

@[simp] theorem zero_mem_literal (s : String) : 0 ∈ literal s :=
  List.mem_append_right _ (List.mem_singleton_self _)

theorem cString_eq_self
    {buf : List UInt8} :
    cString buf = buf ↔ 0 ∉ buf := by
  rw [cString, List.takeWhile_eq_self_iff]
  simp only [decide_eq_true_eq]
  exact ⟨fun h hzero => h 0 hzero rfl, fun h b hb he => h (he ▸ hb)⟩

theorem strLength_eq (buf : List UInt8) : strLength buf = (cString buf).length := by
  induction buf with
  | nil => rfl
  | cons c buf ih =>
      rw [strLength, cString_cons, ih]
      split_ifs <;> rfl

theorem strCompareLoop_iff
    (hlen : (cString str1).length = (cString str2).length) :
    strCompareLoop str1 str2 = true ↔ cString str1 = cString str2 := by
  induction str1 generalizing str2 with
  | nil =>
      have hnil : cString str2 = [] := List.length_eq_zero_iff.mp hlen.symm
      simp [strCompareLoop, hnil]
  | cons c str1 ih =>
      by_cases hc : c = 0
      · have hnil : cString str2 = [] :=
          List.length_eq_zero_iff.mp (by rw [← hlen, cString_cons, if_pos hc, List.length_nil])
        simp [strCompareLoop, hc, hnil]
      · cases str2 with
        | nil => simp [hc] at hlen
        | cons d str2 =>
            by_cases hd : d = 0
            · simp [hc, hd] at hlen
            · have hlen' : (cString str1).length = (cString str2).length := by
                simpa [hc, hd] using hlen
              by_cases hcd : c = d
              · simp [strCompareLoop, hd, hcd, ih hlen']
              · simp [strCompareLoop, hc, hd, hcd]

/-- `strCompare` compares the characters before the first NULs. -/
theorem strCompare_iff :
    strCompare str1 str2 = true ↔ cString str1 = cString str2 := by
  rw [strCompare, strLength_eq, strLength_eq]
  by_cases hlen : (cString str1).length = (cString str2).length
  · rw [if_neg (not_not.mpr hlen)]
    exact strCompareLoop_iff hlen
  · rw [if_pos hlen]
    constructor
    · intro h
      exact absurd h Bool.false_ne_true
    · intro h
      exact absurd (congrArg List.length h) hlen

/-- Behind a NUL nothing counts. -/
theorem cString_append_zeros (cs : List UInt8) (n : Nat) :
    cString (cs ++ List.replicate n 0) = cString cs := by
  induction cs with
  | nil => cases n <;> simp [List.replicate_succ]
  | cons c cs ih => simp [ih]

end CStrings

/-! ## Words of a command -/

/-- The buffer that holds the word `cs`. -/
def StringBuff.ofChars (cs : List UInt8) : StringBuff :=
  ⟨fun k => cs.getD k 0, UInt32.ofNat cs.length⟩

/-- An argument of at most eight characters. -/
abbrev Argument := { cs : List UInt8 // cs.length ≤ 8 }

/-- The buffer in which `parseCommand` passes an argument. -/
def Argument.buff (cs : Argument) : StringBuff := StringBuff.ofChars cs.val

section Words

variable {cs : List UInt8}

@[simp] theorem ofChars_len
    (h : cs.length ≤ 256) :
    (StringBuff.ofChars cs).len.toNat = cs.length :=
  UInt32.toNat_ofNat_of_lt' (by rw [UInt32.size]; omega)

theorem getD_append_of_ne
    {c : UInt8}
    {k : Nat}
    (hk : k ≠ cs.length) :
    (cs ++ [c]).getD k 0 = cs.getD k 0 := by
  rcases Nat.lt_or_gt_of_ne hk with hlt | hgt
  · simp [List.getD, List.getElem?_append_left hlt]
  · rw [List.getD_eq_default _ _ (by simp; omega), List.getD_eq_default _ _ (by omega)]

theorem ofChars_inputChar
    (c : UInt8)
    (h : cs.length < 256) :
    stringBuffInputChar (StringBuff.ofChars cs) c = some (StringBuff.ofChars (cs ++ [c])) := by
  have hlen : (StringBuff.ofChars cs).len.toNat = cs.length := ofChars_len (by omega)
  rw [inputChar_of_lt (by rw [hlen]; exact h)]
  refine congrArg some (congrArg₂ StringBuff.mk (funext fun k => ?_) ?_)
  · by_cases hk : k.val = cs.length
    · have he : k = ⟨(StringBuff.ofChars cs).len.toNat, by omega⟩ := Fin.ext (hk.trans hlen.symm)
      rw [← he, Function.update_self, hk]
      simp
    · rw [Function.update_of_ne fun he => hk ((congrArg Fin.val he).trans hlen)]
      exact (getD_append_of_ne hk).symm
  · rw [List.length_append, List.length_singleton, UInt32.ofNat_add]
    rfl

/-- A shorter word is followed by NULs. -/
theorem ofFn_getD
    {n : Nat}
    (h : cs.length ≤ n) :
    List.ofFn (fun k : Fin n => cs.getD k 0) = cs ++ List.replicate (n - cs.length) 0 := by
  refine List.ext_getElem (by simp; omega) fun k h₁ h₂ => ?_
  rw [List.getElem_ofFn]
  by_cases hk : k < cs.length
  · rw [List.getElem_append_left hk, List.getD_eq_getElem _ _ hk]
  · rw [List.getElem_append_right (by omega), List.getElem_replicate,
      List.getD_eq_default _ _ (Nat.le_of_not_lt hk)]

theorem Argument.cString_buff (cs : Argument) :
    cString (List.ofFn cs.buff.buf) = cString cs.val := by
  have h := cs.property
  rw [Argument.buff, StringBuff.ofChars, ofFn_getD (by omega), cString_append_zeros]

theorem Argument.len_buff (cs : Argument) : cs.buff.len.toNat ≤ 8 := by
  have h := cs.property
  rw [Argument.buff, ofChars_len (by omega)]
  exact h

end Words

end Shell
end OS2024
