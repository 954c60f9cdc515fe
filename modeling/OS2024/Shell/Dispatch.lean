import OS2024.Shell.FileCommands

/-!
# From a line to a command

`parseCommand` of `user-shell.c` cuts the line at blanks into three words, with one index that
runs through three loops, and compares the first word with the names of the commands, one
after the other and only up to the length of the name.

**Results.**
* `takeFields_line`: the three words are the first three fields of the line.
* `recognise_eq_some_iff`: a command is recognised exactly if its name begins the first word.
* `dispatchesExactly_iff`: this is right exactly if the first word does not go on behind the
  name of a command.
-/

namespace OS2024
namespace Shell

open Fat32 Stdlib TracedState Runs

/-- One loop of `parseCommand`: the characters of `input` from index `i` up to a blank go into
`word`.  There are `n` rounds left up to `input.len`; the index where the loop ends is the
second component. -/
def takeField (input word : StringBuff) (i : Nat) : Nat → Option (StringBuff × Nat)
  | 0 => some (word, i)
  | n + 1 =>
      if h : i < 256 then
        -- ' '
        if input.buf ⟨i, h⟩ = 32 then some (word, i)
        else
          match stringBuffInputChar word (input.buf ⟨i, h⟩) with
          | some word => takeField input word (i + 1) n
          | none => none
      else none

/-- The loop into a new buffer. -/
def newField (input : StringBuff) (i : Nat) : Option (StringBuff × Nat) :=
  takeField input stringBuffCreate i (input.len.toNat - i)

/-- `perintah`, `variabel` and `variabel2` of a line. -/
def takeFields (input : StringBuff) : Option (StringBuff × StringBuff × StringBuff) := do
  let (perintah, i) ← newField input 0
  let (variabel, i) ← newField input (i + 1)
  let (variabel2, _) ← newField input (i + 1)
  return (perintah, variabel, variabel2)

/-- The commands of the shell. -/
inductive CommandWord
  | cd
  | ls
  | mkdir
  | cat
  | rm
  | cp
  | find
  | mv
deriving DecidableEq

namespace CommandWord

/-- What the first word is compared with, and how many characters of it. -/
def test : CommandWord → List Char × Nat
  | cd => (['c', 'd'], 2)
  | ls => (['l', 's'], 2)
  | mkdir => (['m', 'k', 'd', 'i', 'r'], 5)
  | cat => (['c', 'a', 't'], 3)
  | rm => (['r', 'm'], 2)
  | cp => (['c', 'p'], 2)
  | find => (['f', 'i', 'n', 'd'], 4)
  | mv => (['m', 'v'], 2)

/-- The name of the command. -/
def chars (c : CommandWord) : List UInt8 := c.test.1.map byteOfChar

/-- `memcmp(perintah.buf, …) == 0` -/
def compares (perintah : StringBuff) (c : CommandWord) : Bool :=
  memcmp (fun k : Fin c.test.2 => Memory.ofBuffer perintah.buf k)
    (fun k => c.chars.getD k 0) = 0

/-- The order of the comparisons. -/
def chain : List CommandWord := [cd, ls, mkdir, cat, rm, cp, find, mv]

/-- What the command is called with. -/
def perform (image : UInt32 → FAT32DriverRequest) (m : MvStack) (c : CommandWord)
    (variabel variabel2 : StringBuff) : ShellM Unit :=
  match c with
  | cd => Shell.cd image variabel
  | ls => Shell.ls
  | mkdir => Shell.mkdir variabel
  | cat => Shell.cat m variabel
  | rm => Shell.rm variabel
  | cp => Shell.cp m variabel
  | find => Shell.find variabel
  | mv => Shell.mv image m variabel variabel2

end CommandWord

/-- The command that the chain of comparisons comes to. -/
def recognise (perintah : StringBuff) : Option CommandWord :=
  CommandWord.chain.find? (CommandWord.compares perintah)

/-- A branch of the chain. -/
def branch (x : ShellM Unit) : ShellM Unit := do
  puts (literal "\n") 0x7
  x
  cetakPrompt

/-- The last branch. -/
def notFound : ShellM Unit := do
  puts (literal "\nCommand not found\n") 0xC
  cetakPrompt

namespace Dispatch

def parseCommand (image : UInt32 → FAT32DriverRequest) (m : MvStack) (input : StringBuff) :
    ShellM Unit :=
  match takeFields input with
  | none => fault ShellFault.stringBuffIndex
  | some (perintah, variabel, variabel2) =>
      match recognise perintah with
      | some c => branch (c.perform image m variabel variabel2)
      | none => notFound

end Dispatch

/-! ## The fields of a line -/

/-- Field `j` of a line that is split at each blank, empty if there is none. -/
def field (cs : List UInt8) (j : Nat) : List UInt8 := (cs.splitOn 32).getD j []

section Fields

variable {cs w : List UInt8} {i n j : Nat}

/-- The characters up to the next blank. -/
def firstField (cs : List UInt8) : List UInt8 := cs.takeWhile (· ≠ 32)

theorem firstField_cons_of_ne
    {c : UInt8}
    (hc : c ≠ 32)
    (cs : List UInt8) :
    firstField (c :: cs) = c :: firstField cs := by
  simp [firstField, hc]

/-- A line is its first field, alone or with a blank and the other fields behind it. -/
theorem firstField_cases (cs : List UInt8) :
    cs.splitOn 32 = [firstField cs] ∧ cs.drop ((firstField cs).length + 1) = [] ∨
      cs.splitOn 32 =
        firstField cs :: (cs.drop ((firstField cs).length + 1)).splitOn 32 := by
  induction cs with
  | nil => exact Or.inl (by simp [firstField])
  | cons c cs ih =>
      by_cases hc : c = 32
      · subst hc
        refine Or.inr ?_
        simp [firstField, List.splitOn_cons_eq_if_modifyHead]
      · have hbeq : ¬ (c == 32) = true := by simpa using hc
        rw [firstField_cons_of_ne hc, List.splitOn_cons_eq_if_modifyHead, if_neg hbeq]
        rcases ih with ⟨hsplit, hdrop⟩ | hsplit
        · refine Or.inl ⟨?_, ?_⟩
          · rw [hsplit]
            rfl
          · simpa using hdrop
        · refine Or.inr ?_
          rw [hsplit]
          simp

theorem field_zero (cs : List UInt8) : field cs 0 = firstField cs := by
  rcases firstField_cases cs with ⟨h, -⟩ | h <;> simp [field, h]

/-- The later fields are those behind the first blank. -/
theorem field_succ (cs : List UInt8) (j : Nat) :
    field cs (j + 1) = field (cs.drop ((firstField cs).length + 1)) j := by
  rcases firstField_cases cs with ⟨h, hdrop⟩ | h
  · rw [hdrop]
    cases j <;> simp [field, h]
  · simp [field, h]

/-- The loop puts the characters up to the next blank into its buffer. -/
theorem takeField_ofChars
    (hline : cs.length ≤ 256)
    (hw : w.length ≤ i)
    (hn : n = cs.length - i) :
    takeField (StringBuff.ofChars cs) (StringBuff.ofChars w) i n =
      some (StringBuff.ofChars (w ++ firstField (cs.drop i)),
        i + (firstField (cs.drop i)).length) := by
  induction n generalizing i w with
  | zero =>
      have hdrop : cs.drop i = [] := List.drop_eq_nil_of_le (by omega)
      simp [takeField, firstField, hdrop]
  | succ n ih =>
      have hi : i < cs.length := by omega
      have hdrop : cs.drop i = cs[i] :: cs.drop (i + 1) := List.drop_eq_getElem_cons hi
      have hbuf : (StringBuff.ofChars cs).buf ⟨i, by omega⟩ = cs[i] :=
        List.getD_eq_getElem cs 0 hi
      rw [takeField, dif_pos (show i < 256 by omega), hbuf, hdrop]
      by_cases hblank : cs[i] = 32
      · simp [firstField, hblank]
      · rw [if_neg hblank, ofChars_inputChar _ (by omega), firstField_cons_of_ne hblank]
        dsimp only
        rw [ih (by simp; omega) (by omega)]
        simp
        omega

theorem newField_ofChars
    (hline : cs.length ≤ 256)
    (i : Nat) :
    newField (StringBuff.ofChars cs) i =
      some (StringBuff.ofChars (firstField (cs.drop i)),
        i + (firstField (cs.drop i)).length) := by
  rw [newField, ofChars_len hline]
  exact takeField_ofChars (w := []) hline (Nat.zero_le i) rfl

/-- The three loops take the first three fields. -/
theorem takeFields_line
    (hline : cs.length ≤ 256) :
    takeFields (StringBuff.ofChars cs) =
      some (StringBuff.ofChars (field cs 0), StringBuff.ofChars (field cs 1),
        StringBuff.ofChars (field cs 2)) := by
  simp [takeFields, newField_ofChars hline, field_zero, field_succ, List.drop_drop,
    Nat.add_assoc]

end Fields

/-! ## Recognition -/

section Recognition

variable {c d : CommandWord} {cs : List UInt8}

namespace CommandWord

/-- The whole name is compared. -/
theorem length_chars (c : CommandWord) : c.chars.length = c.test.2 := by
  cases c <;> rfl

theorem zero_not_mem_chars (c : CommandWord) : 0 ∉ c.chars := by
  cases c <;> decide

theorem mem_chain (c : CommandWord) : c ∈ chain := by
  cases c <;> decide

/-- No name begins another one. -/
theorem eq_of_prefix
    (h : c.chars <+: d.chars) :
    c = d := by
  revert h
  cases c <;> cases d <;> decide

end CommandWord

/-- A word without NULs begins another one if that has its characters. -/
theorem prefix_iff_getD
    {w : List UInt8}
    (hw : 0 ∉ w) :
    w <+: cs ↔ ∀ k, k < w.length → cs.getD k 0 = w.getD k 0 := by
  constructor
  · rintro ⟨rest, rfl⟩ k hk
    exact List.getD_append w rest 0 k hk
  · intro h
    have hlen : w.length ≤ cs.length := by
      by_contra hshort
      have hk : cs.length < w.length := Nat.lt_of_not_le hshort
      have hzero : w[cs.length] = 0 := by
        simpa [hk] using (h cs.length hk).symm
      exact hw (hzero ▸ List.getElem_mem hk)
    rw [List.prefix_iff_eq_take]
    refine List.ext_getElem (by simp [hlen]) fun k hk _ => ?_
    have hcs : k < cs.length := by omega
    simpa [hk, hcs] using (h k hk).symm

/-- A comparison looks at no more than the name. -/
theorem compares_iff :
    CommandWord.compares (StringBuff.ofChars cs) c = true ↔ c.chars <+: cs := by
  have hshort : c.test.2 ≤ 256 := by cases c <;> decide
  rw [CommandWord.compares, decide_eq_true_iff, memcmp_eq_zero_iff,
    prefix_iff_getD c.zero_not_mem_chars, c.length_chars]
  constructor
  · intro h k hk
    have hbyte := congrFun h ⟨k, hk⟩
    rwa [ofChars_byte k (by omega)] at hbyte
  · intro h
    funext k
    rw [ofChars_byte k (by omega)]
    exact h k k.isLt

/-- The order of the comparisons does not matter. -/
theorem recognise_eq_some_iff :
    recognise (StringBuff.ofChars cs) = some c ↔ c.chars <+: cs := by
  constructor
  · intro h
    exact compares_iff.mp (List.find?_some h)
  · intro h
    have hsome : (recognise (StringBuff.ofChars cs)).isSome :=
      List.find?_isSome.mpr ⟨c, c.mem_chain, compares_iff.mpr h⟩
    obtain ⟨d, hd⟩ := Option.isSome_iff_exists.mp hsome
    have hprefix : d.chars <+: cs := compares_iff.mp (List.find?_some hd)
    rcases List.prefix_or_prefix_of_prefix h hprefix with hcd | hdc
    · rwa [CommandWord.eq_of_prefix hcd]
    · rwa [← CommandWord.eq_of_prefix hdc]

end Recognition

/-! ## The prompt stays in the directory -/

/-- The shell is where it was. -/
structure SamePlace
    (s s' : Session) : Prop where
  fileSystem : s'.fileSystem = s.fileSystem
  cluster : s'.globals.currentDirCluster = s.globals.currentDirCluster
  parents : s'.globals.currentDir.parentClusterNumber = s.globals.currentDir.parentClusterNumber
  depth : s'.globals.currentDir.bufferIndex = s.globals.currentDir.bufferIndex

theorem cetakPrompt_samePlace (s : Session) : SamePlace s (cetakPrompt s).state := by
  have hindex : s.loaded.currentDir.bufferIndex = s.globals.currentDir.bufferIndex := rfl
  simp only [cetakPrompt, bind_apply, readCurrentDir_apply, getState_apply, puts_literal,
    hindex, Outcome.prepend_state]
  split_ifs with h256 h255
  · exact ⟨rfl, rfl, rfl, rfl⟩
  · exact ⟨rfl, rfl, rfl, rfl⟩
  · have hobs : Observes (fun _ => True)
        (printDirBuff s.loaded.withPrompt
          (List.range (s.globals.currentDir.bufferIndex.toNat + 1)) >>= fun _ =>
            puts (literal "$ ") 0x7) :=
      (printDirBuff_observes _ _).bind fun _ => puts_observes _ _
    have hplace : SamePlace s s.prompted := ⟨rfl, rfl, rfl, rfl⟩
    rw [← (hobs s.prompted).1] at hplace
    exact hplace

/-! ## Dispatch -/

/-- A line that fits into its buffer. -/
abbrev Line := { cs : List UInt8 // cs.length ≤ 256 }

/-- The buffer that `main` passes. -/
def Line.buff (line : Line) : StringBuff := StringBuff.ofChars line.val

/-- Field `j` of the line in the buffer of `parseCommand`. -/
def Line.word (line : Line) (j : Nat) : StringBuff := StringBuff.ofChars (field line.val j)

/-- The run prints the message and the prompt, and the shell is where it was. -/
structure OnlyNotFound
    (s : Session)
    (o : Outcome ShellFault Session ShellEvent Unit) : Prop where
  message : o.trace =
    ShellEvent.puts (cString (literal "\nCommand not found\n")) 0xC :: (cetakPrompt s).trace
  place : SamePlace s o.state

/-- The words are the fields of the line, and a command runs exactly if the first field is
its name. -/
structure DispatchesExactly
    (image : UInt32 → FAT32DriverRequest)
    (m : MvStack)
    (line : Line) : Prop where
  fields : takeFields line.buff = some (line.word 0, line.word 1, line.word 2)
  runs : ∀ c : CommandWord, recognise (line.word 0) = some c ↔ field line.val 0 = c.chars
  performs : ∀ c : CommandWord, field line.val 0 = c.chars →
    Dispatch.parseCommand image m line.buff =
      branch (c.perform image m (line.word 1) (line.word 2))
  unknown : (∀ c : CommandWord, field line.val 0 ≠ c.chars) →
    ∀ s, OnlyNotFound s (Dispatch.parseCommand image m line.buff s)

section Dispatching

variable {image : UInt32 → FAT32DriverRequest} {m : MvStack} {line : Line} {c : CommandWord}

/-- The chain of comparisons decides on the first field. -/
theorem parseCommand_line
    (image : UInt32 → FAT32DriverRequest)
    (m : MvStack)
    (line : Line) :
    Dispatch.parseCommand image m line.buff =
      match recognise (line.word 0) with
      | some c => branch (c.perform image m (line.word 1) (line.word 2))
      | none => notFound := by
  have hfields : takeFields line.buff = some (line.word 0, line.word 1, line.word 2) :=
    takeFields_line line.property
  rw [Dispatch.parseCommand, hfields]

theorem notFound_only (s : Session) : OnlyNotFound s (notFound s) := by
  have hrun : notFound s = (cetakPrompt s).prepend
      [ShellEvent.puts (cString (literal "\nCommand not found\n")) 0xC] := by
    simp [notFound, bind_apply]
  rw [hrun]
  exact ⟨rfl, cetakPrompt_samePlace s⟩

/-- **Dispatch is exact, except for words that go on behind the name of a command.** -/
theorem dispatchesExactly_iff
    (image : UInt32 → FAT32DriverRequest)
    (m : MvStack)
    (line : Line) :
    DispatchesExactly image m line ↔
      ∀ c : CommandWord, c.chars <+: field line.val 0 → field line.val 0 = c.chars := by
  constructor
  · intro h c hprefix
    exact (h.runs c).mp (recognise_eq_some_iff.mpr hprefix)
  · intro h
    have hruns : ∀ c : CommandWord, recognise (line.word 0) = some c ↔
        field line.val 0 = c.chars := by
      intro c
      rw [Line.word, recognise_eq_some_iff]
      exact ⟨h c, fun he => he ▸ List.prefix_refl _⟩
    refine ⟨takeFields_line line.property, hruns, fun c hc => ?_, fun hno s => ?_⟩
    · rw [parseCommand_line, (hruns c).mpr hc]
    · have hnone : recognise (line.word 0) = none :=
        Option.eq_none_iff_forall_ne_some.mpr fun c hc => hno c ((hruns c).mp hc)
      rw [parseCommand_line, hnone]
      exact notFound_only s

end Dispatching

/-! ## A word that goes on -/

/-- `rmdir a` -/
def rmdirLine : Line :=
  ⟨['r', 'm', 'd', 'i', 'r', ' ', 'a'].map byteOfChar, by decide⟩

/-- `rmdir` is no command, but it runs `rm`. -/
theorem rmdir_removes :
    Reached NewSystem WellScoped after folderSystem ∧ AtPrompt (atRoot folderSystem) ∧
      (folderSystem.table 2 2).name 0 ≠ 0 ∧
      ((Dispatch.parseCommand silentImage zeroStack rmdirLine.buff
        (atRoot folderSystem)).state.fileSystem.table 2 2).name 0 = 0 ∧
      ¬ DispatchesExactly silentImage zeroStack rmdirLine := by
  refine ⟨folderSystem_reached, atPrompt_atRoot _, by decide +kernel, by decide +kernel, ?_⟩
  intro h
  have hrm : recognise (rmdirLine.word 0) = some CommandWord.rm :=
    recognise_eq_some_iff.mpr (by decide)
  exact absurd ((h.runs CommandWord.rm).mp hrm) (by decide)

end Shell
end OS2024
