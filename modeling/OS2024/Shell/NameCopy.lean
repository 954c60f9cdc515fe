import OS2024.Lib.LittleEndian
import OS2024.Shell.Commands

/-!
# The name of a request

The commands of the shell copy their argument into `request.name` character by character.
`struct FAT32DriverRequest` is packed: behind the eight bytes of `name` follow the three of
`ext`, the four of `parent_cluster_number` and the four of `buffer_size`, and the loop does
not stop there.

**Results.**
* `fillName_short`: an argument of at most eight characters becomes the name.
* `fillName_long`: a longer one changes `ext`, or the loop leaves the request.
-/

namespace OS2024
namespace Shell

open Fat32 Stdlib LittleEndian

/-- The characters of an extension are written as numerals. -/
instance neZero_ext : NeZero 3 := ⟨by decide⟩

/-- A request of the shell whose name is still to be filled in. -/
def blankRequest (g : Globals) (buf : Memory) (bufferSize : UInt32) : FAT32DriverRequest where
  buf := buf
  name := fun _ => 0
  ext := fun _ => 0
  parentClusterNumber := g.currentDirCluster
  bufferSize := bufferSize

/-- `request.name[i] = c`; `none` behind the end of the request. -/
def setName (request : FAT32DriverRequest) (i : Nat) (c : UInt8) : Option FAT32DriverRequest :=
  if h : i < 8 then some { request with name := Function.update request.name ⟨i, h⟩ c }
  else if h : i - 8 < 3 then
    some { request with ext := Function.update request.ext ⟨i - 8, h⟩ c }
  else if h : i - 11 < 4 then
    some { request with
      parentClusterNumber :=
        word32 (Function.update (byte32 request.parentClusterNumber) ⟨i - 11, h⟩ c) }
  else if h : i - 15 < 4 then
    some { request with
      bufferSize := word32 (Function.update (byte32 request.bufferSize) ⟨i - 15, h⟩ c) }
  else none

/-- The first `n` rounds of the loop `request.name[i] = filename.buf[i]`. -/
def fillNameLoop (filename : StringBuff) (n : Nat) (request : FAT32DriverRequest) :
    Option FAT32DriverRequest :=
  (List.range n).foldlM
    (fun request i => setName request i (Memory.ofBuffer filename.buf i)) request

/-- The loop over all characters of the argument. -/
def fillName (filename : StringBuff) (request : FAT32DriverRequest) :
    Option FAT32DriverRequest :=
  fillNameLoop filename filename.len.toNat request

section Rounds

variable {filename : StringBuff} {request request' : FAT32DriverRequest} {n : Nat} {c : UInt8}

@[simp] theorem fillNameLoop_zero : fillNameLoop filename 0 request = some request := rfl

/-- One more round. -/
theorem fillNameLoop_succ :
    fillNameLoop filename (n + 1) request =
      (fillNameLoop filename n request).bind
        fun r => setName r n (Memory.ofBuffer filename.buf n) := by
  simp [fillNameLoop, List.range_succ, List.foldlM_append]

theorem setName_of_lt
    (h : n < 8) :
    setName request n c =
      some { request with name := Function.update request.name ⟨n, h⟩ c } :=
  dif_pos h

/-- Only round 8 stores into the first byte of `ext`. -/
theorem setName_ext
    (h : 8 ≤ n)
    (hset : setName request n c = some request') :
    request'.ext 0 = if n = 8 then c else request.ext 0 := by
  unfold setName at hset
  rw [dif_neg (Nat.not_lt.mpr h)] at hset
  by_cases hext : n - 8 < 3
  · rw [dif_pos hext] at hset
    obtain rfl := Option.some_inj.mp hset
    by_cases hn : n = 8
    · subst hn
      exact Function.update_self (0 : Fin 3) c request.ext
    · rw [if_neg hn]
      refine Function.update_of_ne (fun he => hn ?_) _ _
      have hval : 0 = n - 8 := congrArg Fin.val he
      omega
  · have hn : ¬ n = 8 := by omega
    rw [dif_neg hext] at hset
    rw [if_neg hn]
    split_ifs at hset
    · obtain rfl := Option.some_inj.mp hset
      rfl
    · obtain rfl := Option.some_inj.mp hset
      rfl

/-- The first eight rounds only fill in the name. -/
theorem fillNameLoop_short
    (hn : n ≤ 8) :
    fillNameLoop filename n request =
      some { request with
        name := fun k =>
          if k.val < n then Memory.ofBuffer filename.buf k else request.name k } := by
  induction n with
  | zero => simp
  | succ n ih =>
      rw [fillNameLoop_succ, ih (by omega), Option.bind_some, setName_of_lt (by omega)]
      congr 2
      funext k
      by_cases hk : k.val = n
      · have hself : (⟨n, by omega⟩ : Fin 8) = k := Fin.ext hk.symm
        simp [hself, hk]
      · have hne : k ≠ ⟨n, by omega⟩ := fun he => hk (congrArg Fin.val he)
        have hlt : k.val < n + 1 ↔ k.val < n := by omega
        simp [Function.update_of_ne hne, hlt]

/-- Later rounds do not restore the first byte of `ext`. -/
theorem fillNameLoop_ext
    (hn : 8 < n)
    (h : fillNameLoop filename n request = some request') :
    request'.ext 0 = Memory.ofBuffer filename.buf 8 := by
  induction n generalizing request' with
  | zero => exact absurd hn (Nat.not_lt_zero 8)
  | succ n ih =>
      rw [fillNameLoop_succ, Option.bind_eq_some_iff] at h
      obtain ⟨r, hr, hset⟩ := h
      rw [setName_ext (by omega) hset]
      split_ifs with h8
      · rw [h8]
      · exact ih (by omega) hr

end Rounds

/-! ## The whole loop -/

section Arguments

variable {cs : List UInt8} {request request' : FAT32DriverRequest}

theorem ofChars_byte
    (k : Nat)
    (hk : k < 256) :
    Memory.ofBuffer (StringBuff.ofChars cs).buf k = cs.getD k 0 :=
  Memory.ofBuffer_of_lt _ hk

/-- An argument of at most eight characters becomes the name. -/
theorem fillName_short
    (hlen : cs.length ≤ 8)
    (g : Globals)
    (buf : Memory)
    (bufferSize : UInt32) :
    fillName (StringBuff.ofChars cs) (blankRequest g buf bufferSize) =
      some { blankRequest g buf bufferSize with name := fun k => cs.getD k 0 } := by
  rw [fillName, ofChars_len (by omega), fillNameLoop_short hlen]
  congr 2
  funext k
  rw [ofChars_byte k (by omega), blankRequest]
  split_ifs with hk
  · rfl
  · exact (List.getD_eq_default _ _ (Nat.le_of_not_lt hk)).symm

/-- A longer argument changes `ext`, or the loop leaves the request. -/
theorem fillName_long
    (hlen : 8 < cs.length)
    (hmax : cs.length ≤ 256)
    (hzero : 0 ∉ cs)
    (h : fillName (StringBuff.ofChars cs) request = some request') :
    request'.ext 0 ≠ 0 := by
  rw [fillName, ofChars_len hmax] at h
  rw [fillNameLoop_ext hlen h, ofChars_byte 8 (by decide), List.getD_eq_getElem _ _ hlen]
  exact fun he => hzero (he ▸ List.getElem_mem hlen)

end Arguments

end Shell
end OS2024
