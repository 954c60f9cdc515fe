import OS2024.Lib.SeparatedLists
import OS2024.Shell.Depth

/-!
# What the prompt shows

`cetak_prompt` keeps the name of the directory at each depth in a row of `dir_buff`, and prints
the rows up to the current depth as strings, with `/` between them.  A name of eight characters
fills its row, and the string goes on in the next one.  There it finds the name one level further
down, which may be one that was left behind on the way up.

**Results.**
* `promptText_eq`: what is printed, from the rows.
* `Shown.prompted`: after the prompt every row holds the name that was last printed in it.
* `showsPath_iff`: the walks on which the prompt shows the path.
-/

namespace OS2024
namespace Shell

open Fat32 TracedState SlotTree Runs SeparatedLists

/-- The characters of a text. -/
def chars (text : String) : List UInt8 := text.toList.map byteOfChar

/-- What an event prints. -/
def ShellEvent.printed : ShellEvent → List UInt8
  | .disk _ => []
  | .puts text _ => text
  | .call _ _ => []

/-- What `cetak_prompt` prints. -/
def promptText (t : Session) : List UInt8 :=
  (cetakPrompt t).trace.flatMap ShellEvent.printed

/-- The prompt with a path. -/
def promptFor (names : List (List UInt8)) : List UInt8 :=
  chars "Istiqomah@OS-IF2230:" ++ (chars "/" ++ ((chars "/").intercalate names ++ chars "$ "))

/-- A name of an entry, up to its first NUL. -/
def entryName (e : FAT32DirectoryEntry) : List UInt8 := cString (List.ofFn e.name)

/-- The names of the directories from the root down to `d`. -/
inductive NamedPath (s : FileSystem) : UInt32 → List (List UInt8) → Prop
  | root : NamedPath s rootClusterNumber [chars "root"]
  | child {d c : UInt32} {i : Fin 64} {names : List (List UInt8)} :
      NamedPath s d names → s.edge d i = some c →
      NamedPath s c (names ++ [entryName (s.table d i)])

/-- **The property.**  The prompt behind every `cd` shows the path to the current directory. -/
def ShowsPath
    (image : UInt32 → FAT32DriverRequest)
    (s : FileSystem)
    (args : List Argument) : Prop :=
  ∀ as arg t t₁, as ++ [arg] <+: args → walk image s as = .ok t →
    Ends (cd image arg.buff) t () t₁ →
    ∃ names, NamedPath s t₁.globals.currentDirCluster names ∧ promptText t₁ = promptFor names

/-- Somewhere on the walk there were at least `k` directories above the current one. -/
def BeenAt
    (image : UInt32 → FAT32DriverRequest)
    (s : FileSystem)
    (as : List Argument)
    (k : Nat) : Prop :=
  ∃ bs t, bs <+: as ∧ walk image s bs = .ok t ∧ k ≤ t.globals.parents.length

/-- All names but the last have at most seven characters, and so has the last one if the walk
has been further down. -/
def Short
    (been : Nat → Prop)
    (names : List (List UInt8)) : Prop :=
  (∀ name, name ∈ names.dropLast → name.length ≤ 7) ∧
    (been names.length → ∀ name, name ∈ names.getLast? → name.length ≤ 7)

/-- The names on the path behind every `cd` are short. -/
def ShortNames
    (image : UInt32 → FAT32DriverRequest)
    (s : FileSystem)
    (args : List Argument) : Prop :=
  ∀ as arg t names, as ++ [arg] <+: args → walk image s (as ++ [arg]) = .ok t →
    NamedPath s t.globals.currentDirCluster names → Short (BeenAt image s as) names

/-! ## Strings in rows -/

section Rows

variable {a b : List UInt8} {g : Globals} {i : Nat}

theorem cString_append (a b : List UInt8) :
    cString (a ++ b) = if 0 ∈ a then cString a else a ++ cString b := by
  induction a with
  | nil => simp
  | cons c a ih =>
      by_cases hc : c = 0
      · simp [hc]
      · rw [List.cons_append, cString_cons, if_neg hc, ih, cString_cons, if_neg hc]
        by_cases ha : 0 ∈ a
        · rw [if_pos ha, if_pos (List.mem_cons_of_mem c ha)]
        · have hno : 0 ∉ c :: a := by simpa [ha] using Ne.symm hc
          rw [if_neg ha, if_neg hno, List.cons_append]

/-- A string that is not ended by its row goes on in the next one. -/
theorem cString_append_eq_iff :
    cString (a ++ b) = cString a ↔ 0 ∈ a ∨ b.head?.all (· = 0) := by
  rw [cString_append]
  by_cases ha : 0 ∈ a
  · simp [ha]
  · rw [if_neg ha, cString_eq_self.mpr ha, List.append_right_eq_self]
    cases b with
    | nil => simp
    | cons c b => by_cases hc : c = 0 <;> simp [hc, ha]

theorem cString_prefix_append (a b : List UInt8) : cString a <+: cString (a ++ b) := by
  rw [cString_append]
  split_ifs with ha
  · exact List.prefix_refl _
  · exact (cString_eq_self.mpr ha).symm ▸ List.prefix_append a _

/-- The row itself, and what is behind it. -/
theorem dirBuffFrom_eq (g : Globals) (k : Fin 256) :
    dirBuffFrom g k = List.ofFn (g.dirBuff k) ++ dirBuffFrom g (k + 1) := by
  have hk : (k : Nat) < (List.ofFn g.dirBuff).length := by rw [List.length_ofFn]; exact k.isLt
  rw [dirBuffFrom, dirBuffFrom, List.drop_eq_getElem_cons hk, List.flatMap_cons,
    List.getElem_ofFn]

theorem dirBuffFrom_head? (g : Globals) (k : Fin 256) :
    (dirBuffFrom g k).head? = some (g.dirBuff k 0) := by
  rw [dirBuffFrom_eq, List.ofFn_succ, List.cons_append, List.head?_cons]

/-- What is printed for row `i`. -/
def rowText (g : Globals) (i : Nat) : List UInt8 := cString (dirBuffFrom g i)

/-- The name in row `i`. -/
def rowName (g : Globals) (i : Nat) : List UInt8 := cString ((dirBuffFrom g i).take 8)

theorem rowName_eq (g : Globals) (k : Fin 256) :
    rowName g k = cString (List.ofFn (g.dirBuff k)) := by
  rw [rowName, dirBuffFrom_eq, List.take_left' List.length_ofFn]

theorem rowName_prefix (g : Globals) (i : Nat) : rowName g i <+: rowText g i := by
  have h := cString_prefix_append ((dirBuffFrom g i).take 8) ((dirBuffFrom g i).drop 8)
  rwa [List.take_append_drop] at h

/-- Seven characters leave room for a NUL. -/
theorem zero_mem_ofFn_iff (name : Fin 8 → UInt8) :
    0 ∈ List.ofFn name ↔ (cString (List.ofFn name)).length ≤ 7 := by
  constructor
  · intro h
    have hlt : (cString (List.ofFn name)).length < (List.ofFn name).length := by
      refine Nat.lt_of_le_of_ne (List.takeWhile_prefix _).length_le fun he => ?_
      exact cString_eq_self.mp ((List.takeWhile_prefix _).eq_of_length he) h
    rw [List.length_ofFn] at hlt
    omega
  · intro h
    by_contra hno
    rw [cString_eq_self.mpr hno, List.length_ofFn] at h
    omega

/-- The name alone is printed if it ends in its row, or the next row is empty. -/
theorem rowText_eq_iff (g : Globals) {i : Nat} (hi : i + 1 < 256) :
    rowText g i = rowName g i ↔ (rowName g i).length ≤ 7 ∨ g.dirBuff ⟨i + 1, hi⟩ 0 = 0 := by
  have hname := rowName_eq g ⟨i, by omega⟩
  have htext := dirBuffFrom_eq g ⟨i, by omega⟩
  have hnext := dirBuffFrom_head? g ⟨i + 1, hi⟩
  simp only [] at hname htext hnext
  rw [rowText, htext, hname, cString_append_eq_iff, hnext, zero_mem_ofFn_iff]
  simp

end Rows

/-! ## The prompt as a text -/

/-- The computation ends, and `text` is printed. -/
def Prints {α : Type} (x : ShellM α) (t : Session) (a : α) (t' : Session)
    (text : List UInt8) : Prop :=
  Ends x t a t' ∧ (x t).trace.flatMap ShellEvent.printed = text

section Text

variable {α β : Type} {x : ShellM α} {f : α → ShellM β} {a : α} {b : β} {t t' t'' : Session}
  {text text' : List UInt8} {g : Globals}

theorem Prints.of_apply
    {w : List ShellEvent}
    (h : x t = ⟨.ok a, t', w⟩) :
    Prints x t a t' (w.flatMap ShellEvent.printed) :=
  ⟨Ends.of_apply h, by rw [h]⟩

/-- What is printed first comes first. -/
theorem Prints.bind
    (hx : Prints x t a t' text)
    (hf : Prints (f a) t' b t'' text') :
    Prints (x >>= f) t b t'' (text ++ text') := by
  refine ⟨hx.1.bind hf.1, ?_⟩
  obtain ⟨w, hw⟩ := hx.1.apply
  have htext := hx.2
  rw [hw] at htext
  rw [bind_apply, hw]
  show (w ++ (f a t').trace).flatMap ShellEvent.printed = text ++ text'
  rw [List.flatMap_append, htext, hf.2]

theorem Prints.pure (a : α) (t : Session) : Prints (Pure.pure a : ShellM α) t a t [] :=
  Prints.of_apply (pure_apply a t)

theorem puts_prints
    {buf : List UInt8}
    (h : 0 ∈ buf)
    (color : UInt32)
    (t : Session) :
    Prints (puts buf color) t () t (cString buf) := by
  have hputs := Prints.of_apply (puts_apply h color t)
  rwa [List.flatMap_singleton] at hputs

/-- A text without a NUL is printed as it is. -/
theorem literal_prints
    {s : String}
    (h : cString (literal s) = chars s)
    (color : UInt32)
    (t : Session) :
    Prints (puts (literal s) color) t () t (chars s) :=
  h ▸ puts_prints (zero_mem_literal s) color t

theorem readCurrentDir_prints (t : Session) :
    Prints readCurrentDir t () { t with globals := t.loaded } [] := by
  have h := Prints.of_apply (readCurrentDir_apply t)
  rwa [List.flatMap_eq_nil_iff.mpr] at h
  intro e he
  obtain ⟨e, -, rfl⟩ := List.mem_map.mp he
  rfl

theorem printDirBuff_prints
    {is : List Nat}
    (h : ∀ i, i ∈ is → 0 ∈ dirBuffFrom g i)
    (t : Session) :
    Prints (printDirBuff g is) t () t
      (is.flatMap fun i =>
        rowText g i ++ if i ≠ g.currentDir.bufferIndex.toNat then chars "/" else []) := by
  induction is with
  | nil => exact Prints.pure () t
  | cons i is ih =>
      have hrow := puts_prints (h i List.mem_cons_self) 0x9 t
      have hrest := ih fun j hj => h j (List.mem_cons_of_mem i hj)
      have hseparator : Prints
          (if i ≠ g.currentDir.bufferIndex.toNat then puts (literal "/") 0x9 else pure ()) t () t
          (if i ≠ g.currentDir.bufferIndex.toNat then chars "/" else []) := by
        split_ifs
        · exact literal_prints (by decide) 0x9 t
        · exact Prints.pure () t
      rw [List.flatMap_cons, List.append_assoc]
      exact hrow.bind (hseparator.bind hrest)

/-- **What the prompt prints, from the rows.** -/
theorem promptText_eq
    (hi : t.globals.currentDir.bufferIndex.toNat < 255)
    (hlast : t.globals.LastZero) :
    promptText t =
      promptFor ((List.range (t.globals.currentDir.bufferIndex.toNat + 1)).map
        (rowText t.prompted.globals)) := by
  have hzero : t.loaded.withPrompt.LastZero := withPrompt_lastZero hlast hi
  have hindex : t.loaded.currentDir.bufferIndex = t.globals.currentDir.bufferIndex := rfl
  have hzeros : ∀ i, i ∈ List.range (t.globals.currentDir.bufferIndex.toNat + 1) →
      0 ∈ dirBuffFrom t.loaded.withPrompt i := by
    intro i hmem
    rw [List.mem_range] at hmem
    exact zero_mem_dirBuffFrom hzero (by omega)
  have hrows := printDirBuff_prints hzeros t.prompted
  have hseparated := flatMap_separated (rowText t.loaded.withPrompt) (chars "/")
    (List.not_mem_range_self (n := t.globals.currentDir.bufferIndex.toNat))
  rw [← List.range_succ] at hseparated
  have h256 : ¬ 256 ≤ t.globals.currentDir.bufferIndex.toNat := by omega
  have h255 : ¬ t.globals.currentDir.bufferIndex.toNat = 255 := by omega
  have hset := Prints.of_apply (setGlobals_apply t.loaded.withPrompt { t with globals := t.loaded })
  have hprompt : Prints cetakPrompt t () t.prompted
      ([] ++ ([] ++ (chars "Istiqomah@OS-IF2230:" ++ (chars "/" ++ ([] ++
        ((chars "/").intercalate ((List.range (t.globals.currentDir.bufferIndex.toNat + 1)).map
          (rowText t.loaded.withPrompt)) ++ chars "$ ")))))) := by
    refine (readCurrentDir_prints t).bind ((Prints.of_apply (getState_apply _)).bind ?_)
    refine (literal_prints (by decide) 0x5 _).bind ((literal_prints (by decide) 0x9 _).bind ?_)
    simp only [hindex, if_neg h256, if_neg h255]
    rw [← hseparated]
    exact hset.bind (hrows.bind (literal_prints (by decide) 0x7 _))
  exact hprompt.2

end Text

/-! ## The names on the path -/

/-- The name that directory `d` has in its own record. -/
def dirName (s : FileSystem) (d : UInt32) : List UInt8 := entryName (s.table d 0)

section Names

variable {s : FileSystem} {d : UInt32} {l : List UInt32} {names : List (List UInt8)}

theorem entryName_copyName (name : Fin 8 → UInt8) :
    cString (List.ofFn (copyName name)) = cString (List.ofFn name) := by
  have hle : ((List.ofFn name).takeWhile (· ≠ 0)).length ≤ 8 := by
    have h := (List.takeWhile_prefix (l := List.ofFn name) (· ≠ 0)).length_le
    rwa [List.length_ofFn] at h
  have hcopy : List.ofFn (copyName name) =
      cString (List.ofFn name) ++ List.replicate (8 - (cString (List.ofFn name)).length) 0 :=
    ofFn_getD hle
  rw [hcopy, cString_append_zeros, cString, cString, List.takeWhile_idem]

/-- A directory has the name that its entry has. -/
theorem dirName_child
    (hn : SelfNamed s)
    {p : UInt32}
    {i : Fin 64}
    (hp : LiveDir s p)
    (he : s.edge p i = some d) :
    dirName s d = entryName (s.table p i) := by
  obtain ⟨hi, hl, hdir, rfl⟩ := edge_eq_some_iff.mp he
  rw [dirName, entryName, hn p i ⟨hp, hi, hl⟩ hdir, entryName_copyName, entryName]

theorem dirName_root (hr : Recorded s) : dirName s rootClusterNumber = chars "root" := by
  rw [dirName, hr.root 0 (by decide)]
  decide

/-- The names from the root down to a directory are those along its path. -/
theorem namedPath_of_path
    (hr : Recorded s)
    (hn : SelfNamed s)
    (h : Path s.edge rootClusterNumber d l) :
    NamedPath s d ((l ++ [d]).map (dirName s)) := by
  induction h with
  | root =>
      rw [List.nil_append, List.map_singleton, dirName_root hr]
      exact NamedPath.root
  | @child p d i l hp he ih =>
      rw [List.map_append, List.map_singleton, dirName_child hn hp.reach he]
      exact ih.child he

theorem NamedPath.path
    (hr : Recorded s)
    (hn : SelfNamed s)
    (h : NamedPath s d names) :
    ∃ l, Path s.edge rootClusterNumber d l ∧ names = (l ++ [d]).map (dirName s) := by
  induction h with
  | root => exact ⟨[], Path.root, by rw [List.nil_append, List.map_singleton, dirName_root hr]⟩
  | @child p d i names _ he ih =>
      obtain ⟨l, hl, rfl⟩ := ih
      refine ⟨l ++ [p], hl.child he, ?_⟩
      simp only [List.map_append, List.map_singleton, dirName_child hn hl.reach he]

theorem namedPath_iff
    (hs : Sound s)
    (hr : Recorded s)
    (hn : SelfNamed s)
    (h : Path s.edge rootClusterNumber d l) :
    NamedPath s d names ↔ names = (l ++ [d]).map (dirName s) := by
  constructor
  · intro hnames
    obtain ⟨l', hl', rfl⟩ := hnames.path hr hn
    rw [path_unique hs hl' h]
  · rintro rfl
    exact namedPath_of_path hr hn h

end Names

/-! ## The rows along a walk -/

/-- The first rows hold the names of the directories `l`, and the rows in use are those with
`been`. -/
structure Rows
    (s : FileSystem)
    (l : List UInt32)
    (been : Nat → Prop)
    (g : Globals) : Prop where
  path : ∀ (k : Fin 256) d, l[k.val]? = some d → g.dirBuff k = (s.table d 0).name
  used : ∀ k : Fin 256, g.dirBuff k 0 ≠ 0 ↔ been k

section Prompting

variable {s : FileSystem} {t : Session} {been : Nat → Prop}

/-- **After the prompt the row of the current directory holds its name too.** -/
theorem Rows.prompted
    (h : Ready s t)
    (hrows : Rows s t.globals.parents been t.globals) :
    Rows s (t.globals.parents ++ [t.globals.currentDirCluster])
      (fun k => been k ∨ k ≤ t.globals.parents.length) t.prompted.globals := by
  have hdepth := h.onTree.depth
  have hshallow := h.shallow
  have hbuff : ∀ k : Fin 256, t.prompted.globals.dirBuff k =
      if k.val = t.globals.parents.length then
        (s.table t.globals.currentDirCluster 0).name
      else t.globals.dirBuff k := by
    intro k
    rw [hdepth, ← h.fileSystem]
    rfl
  have hcur : t.globals.currentDirCluster ∈
      t.globals.parents ++ [t.globals.currentDirCluster] :=
    List.mem_append_right _ (List.mem_singleton_self _)
  constructor
  · intro k d hd
    rw [hbuff]
    by_cases hk : k.val = t.globals.parents.length
    · rw [if_pos hk]
      rw [hk, List.getElem?_concat_length] at hd
      rw [Option.some_inj.mp hd]
    · have hlt : k.val < (t.globals.parents ++ [t.globals.currentDirCluster]).length :=
        (List.getElem?_eq_some_iff.mp hd).1
      rw [List.length_append, List.length_singleton] at hlt
      rw [if_neg hk]
      refine hrows.path k d ?_
      rwa [List.getElem?_append_left (by omega)] at hd
  · intro k
    rw [hbuff]
    by_cases hk : k.val = t.globals.parents.length
    · rw [if_pos hk]
      exact iff_of_true (h.named _ hcur) (Or.inr hk.le)
    · rw [if_neg hk, hrows.used k]
      refine (or_iff_left_of_imp fun hle => ?_).symm
      have hlt : k.val < t.globals.parents.length := by omega
      have hd := List.getElem?_eq_getElem hlt
      rw [← hrows.used k, hrows.path k _ hd]
      exact h.named _ (List.mem_append_left _ (List.getElem_mem hlt))

/-- The names in the rows. -/
theorem map_rowName
    {l : List UInt32}
    {g : Globals}
    (hrows : Rows s l been g)
    (hl : l.length ≤ 256) :
    (List.range l.length).map (rowName g) = l.map (dirName s) := by
  refine List.ext_getElem (by simp) fun k h₁ h₂ => ?_
  rw [List.length_map] at h₂
  have hk := hrows.path ⟨k, by omega⟩ _ (List.getElem?_eq_getElem h₂)
  rw [List.getElem_map, List.getElem_range, List.getElem_map, dirName, entryName, ← hk]
  exact rowName_eq g ⟨k, by omega⟩

theorem promptFor_inj
    {names names' : List (List UInt8)} :
    promptFor names = promptFor names' ↔
      (chars "/").intercalate names = (chars "/").intercalate names' := by
  rw [promptFor, promptFor, List.append_cancel_left_eq, List.append_cancel_left_eq,
    List.append_cancel_right_eq]

theorem short_map_iff
    {l : List UInt32}
    {d : UInt32}
    {f : UInt32 → List UInt8} :
    Short been ((l ++ [d]).map f) ↔
      (∀ d', d' ∈ l → (f d').length ≤ 7) ∧ (been (l.length + 1) → (f d).length ≤ 7) := by
  simp [Short, List.map_append]

/-- **When the prompt shows the path.** -/
theorem promptText_iff
    (h : Ready s t)
    (hrows : Rows s t.globals.parents been t.globals) :
    promptText t =
        promptFor ((t.globals.parents ++ [t.globals.currentDirCluster]).map (dirName s)) ↔
      Short been ((t.globals.parents ++ [t.globals.currentDirCluster]).map (dirName s)) := by
  have hdepth := h.onTree.depth
  have hshallow := h.shallow
  have hprompted := hrows.prompted h
  have hlen : (t.globals.parents ++ [t.globals.currentDirCluster]).length =
      t.globals.parents.length + 1 := by rw [List.length_append, List.length_singleton]
  rw [short_map_iff, promptText_eq h.shallow h.lastZero, ← hdepth,
    ← map_rowName hprompted (by omega), hlen, promptFor_inj,
    intercalate_map_eq_iff fun i _ => rowName_prefix _ i]
  -- a row is printed right if its name is short, or nobody was ever further down
  have hrow : ∀ i d, i < 255 →
      (t.globals.parents ++ [t.globals.currentDirCluster])[i]? = some d →
      (rowText t.prompted.globals i = rowName t.prompted.globals i ↔
        (dirName s d).length ≤ 7 ∨ ¬ (been (i + 1) ∨ i + 1 ≤ t.globals.parents.length)) := by
    intro i d hi hd
    have hname := hprompted.path ⟨i, by omega⟩ d hd
    have hused := hprompted.used ⟨i + 1, by omega⟩
    rw [rowText_eq_iff _ (by omega), dirName, entryName, ← hname,
      ← rowName_eq t.prompted.globals ⟨i, by omega⟩, ← hused, not_not]
  constructor
  · intro hall
    constructor
    · intro d hd
      obtain ⟨i, hi, rfl⟩ := List.mem_iff_getElem.mp hd
      have hget : (t.globals.parents ++ [t.globals.currentDirCluster])[i]? =
          some t.globals.parents[i] := by
        rw [List.getElem?_append_left hi, List.getElem?_eq_getElem hi]
      have hshort := (hrow i _ (by omega) hget).mp (hall i (List.mem_range.mpr (by omega)))
      exact hshort.resolve_right (not_not.mpr (Or.inr hi))
    · intro hbeen
      refine ((hrow _ _ (by omega) List.getElem?_concat_length).mp
        (hall _ (List.mem_range.mpr (Nat.lt_succ_self _)))).resolve_right ?_
      exact not_not.mpr (Or.inl hbeen)
  · rintro ⟨habove, hcur⟩ i hi
    rw [List.mem_range] at hi
    by_cases hlast : i = t.globals.parents.length
    · rw [hlast, hrow _ _ (by omega) List.getElem?_concat_length]
      by_cases hbeen : been (t.globals.parents.length + 1)
      · exact Or.inl (hcur hbeen)
      · exact Or.inr fun hor => hor.elim hbeen (by omega)
    · have hlt : i < t.globals.parents.length := by omega
      have hget : (t.globals.parents ++ [t.globals.currentDirCluster])[i]? =
          some t.globals.parents[i] := by
        rw [List.getElem?_append_left hlt, List.getElem?_eq_getElem hlt]
      exact (hrow i _ (by omega) hget).mpr (Or.inl (habove _ (List.getElem_mem hlt)))

end Prompting

/-! ## Walks -/

section Walking

variable {image : UInt32 → FAT32DriverRequest} {s : FileSystem} {t t' : Session}
  {arg : Argument} {been : Nat → Prop}

theorem Settled.waiting
    (h : Settled s t) :
    Waiting t :=
  ⟨⟨h.onTree.path.head?_eq, h.lastZero, h.shallow.le⟩, h.shallow⟩

/-- A `cd` leads to a directory whose ancestors are all on the path. -/
theorem CdEffect.parents
    {dirname : StringBuff}
    (h : Waiting t)
    (heffect : CdEffect image t dirname (.ok t')) :
    t'.globals.parents <+: t.globals.parents ++ [t.globals.currentDirCluster] ∧
      t'.globals.dirBuff = t.globals.dirBuff := by
  have hindex := h.index
  cases heffect with
  | stays => exact ⟨List.prefix_append _ _, rfl⟩
  | @up g code hroot hpop =>
      obtain ⟨g', hpop', hpath, -, hbuff, -⟩ := h.grounded.popParent (by omega) hroot
      obtain rfl : g' = g := Option.some_inj.mp (hpop'.symm.trans hpop)
      refine ⟨?_, hbuff⟩
      have hprefix : g'.parents <+: t.globals.parents := ⟨_, hpath⟩
      exact hprefix.trans (List.prefix_append _ _)
  | @down i g code _ _ hpush =>
      obtain ⟨-, hparents, -, -, -, hbuff⟩ := pushParent_parents hpush
      refine ⟨?_, hbuff⟩
      show g.parents <+: _
      rw [hparents]

theorem Rows.of_prefix
    {l l' : List UInt32}
    {g g' : Globals}
    (hrows : Rows s l been g)
    (hl : l' <+: l)
    (hbuff : g'.dirBuff = g.dirBuff) :
    Rows s l' been g' := by
  obtain ⟨l'', rfl⟩ := hl
  constructor
  · intro k d hd
    have hlt := (List.getElem?_eq_some_iff.mp hd).1
    rw [hbuff, hrows.path k d (by rwa [List.getElem?_append_left hlt])]
  · intro k
    rw [hbuff, hrows.used k]

/-- The shell waits, with the rows that the walk has filled. -/
structure Painted
    (s : FileSystem)
    (been : Nat → Prop)
    (t : Session) : Prop extends Settled s t where
  rows : Rows s (t.globals.parents ++ [t.globals.currentDirCluster]) been t.globals

/-- **One more `cd` of a walk, up to its prompt.** -/
theorem Painted.next
    (hs : Sound s)
    (hn : SelfNamed s)
    {as : List Argument}
    (hwalk : walk image s as = .ok t)
    (h : Painted s been t)
    (hgood : GoodStep image (as.foldl (afterCd image) (started s)) arg) :
    ∃ t₁, Ends (cd image arg.buff) t () t₁ ∧ walk image s (as ++ [arg]) = .ok t₁.prompted ∧
      Ready s t₁ ∧ Rows s t₁.globals.parents been t₁.globals := by
  rw [← walk, hwalk] at hgood
  obtain ⟨t₁, hends, hready, -⟩ := cd_good hs hn h.toSettled hgood
  have hwaiting := h.toSettled.waiting
  have heffect := cd_effect image hwaiting arg.buff
  rw [finish_eq_ok.mpr hends] at heffect
  obtain ⟨hparents, hbuff⟩ := heffect.parents hwaiting
  refine ⟨t₁, hends, ?_, hready, h.rows.of_prefix hparents hbuff⟩
  rw [walk, List.foldl_append, ← walk, hwalk]
  exact finish_eq_ok.mpr (cdCommand_ends_iff.mpr ⟨t₁, hends, hready.prompted.1⟩)

theorem beenAt_append_singleton
    {as : List Argument}
    (hwalk : walk image s (as ++ [arg]) = .ok t)
    (k : Nat) :
    BeenAt image s (as ++ [arg]) k ↔ BeenAt image s as k ∨ k ≤ t.globals.parents.length := by
  constructor
  · rintro ⟨bs, t', hbs, ht', hk⟩
    rcases List.prefix_concat_iff.mp hbs with rfl | hbs
    · rw [Except.ok.inj (hwalk.symm.trans ht')]
      exact Or.inr hk
    · exact Or.inl ⟨bs, t', hbs, ht', hk⟩
  · rintro (⟨bs, t', hbs, ht', hk⟩ | hk)
    · exact ⟨bs, t', hbs.trans (List.prefix_append _ _), ht', hk⟩
    · exact ⟨_, t, List.prefix_refl _, hwalk, hk⟩

/-- Before the first prompt no row is in use. -/
theorem rows_firstLoaded (s : FileSystem) :
    Rows s (firstLoaded s).globals.parents (fun _ => False) (firstLoaded s).globals where
  path := fun k d hd => by cases hd
  used := fun _ => iff_of_false (fun h => h rfl) id

/-- **Along good steps, every row shows what the walk has left in it.** -/
theorem painted_walk
    (hs : Sound s)
    (hr : Recorded s)
    (hn : SelfNamed s)
    {as : List Argument}
    (hgood : Along (GoodStep image) (afterCd image) (started s) as) :
    ∃ t, walk image s as = .ok t ∧ Painted s (BeenAt image s as) t := by
  induction as using List.reverseRecOn with
  | nil =>
      have hready := ready_firstLoaded hs hr
      obtain ⟨hprompt, hsettled⟩ := hready.prompted
      have hstart : walk image s [] = .ok (firstLoaded s).prompted := by
        rw [walk, List.foldl_nil]
        exact started_eq hprompt
      refine ⟨(firstLoaded s).prompted, hstart, hsettled, ?_⟩
      have hbeen : BeenAt image s [] =
          fun k => False ∨ k ≤ (firstLoaded s).globals.parents.length := by
        funext k
        refine propext ⟨?_, ?_⟩
        · rintro ⟨bs, t, hbs, ht, hk⟩
          rw [List.prefix_nil.mp hbs, hstart] at ht
          rw [← Except.ok.inj ht] at hk
          exact Or.inr hk
        · rintro (hk | hk)
          · exact hk.elim
          · exact ⟨[], (firstLoaded s).prompted, List.prefix_refl _, hstart, hk⟩
      rw [hbeen]
      exact (rows_firstLoaded s).prompted hready
  | append_singleton as arg ih =>
      obtain ⟨has, harg, -⟩ := along_append.mp hgood
      obtain ⟨t, hwalk, ht⟩ := ih has
      obtain ⟨t₁, -, hwalk', hready, hrows⟩ := ht.next hs hn hwalk harg
      refine ⟨_, hwalk', hready.prompted.2, ?_⟩
      rw [funext fun k => propext (beenAt_append_singleton hwalk' k)]
      exact hrows.prompted hready

end Walking

section Walked

variable {s : FileSystem} {image : UInt32 → FAT32DriverRequest} {args : List Argument}

/-- The prompt behind a `cd` of a good walk. -/
theorem prompt_step
    (h : Reached NewSystem WellScoped after s)
    (hgood : Along (GoodStep image) (afterCd image) (started s) args)
    {as : List Argument}
    {arg : Argument}
    (has : as ++ [arg] <+: args) :
    ∃ t t₁ names, walk image s as = .ok t ∧ Ends (cd image arg.buff) t () t₁ ∧
      walk image s (as ++ [arg]) = .ok t₁.prompted ∧
      (∀ names', NamedPath s t₁.globals.currentDirCluster names' ↔ names' = names) ∧
      (promptText t₁ = promptFor names ↔ Short (BeenAt image s as) names) := by
  have hs := wellScopedRun_sound h
  have hsafe : Reached NewSystem Safe after s := h.mono fun _ _ _ hc => hc.1.safe
  have hr := safeRun_recorded hsafe
  have hn := safeRun_selfNamed hsafe
  obtain ⟨rest, rfl⟩ := has
  obtain ⟨has, harg, -⟩ := along_append.mp (along_append.mp hgood).1
  obtain ⟨t, hwalk, ht⟩ := painted_walk hs hr hn has
  obtain ⟨t₁, hends, hwalk', hready, hrows⟩ := ht.next hs hn hwalk harg
  exact ⟨t, t₁, _, hwalk, hends, hwalk', fun _ => namedPath_iff hs hr hn hready.onTree.path,
    promptText_iff hready hrows⟩

/-- A prompt that shows the path has short names. -/
theorem ShowsPath.shortNames
    (h : Reached NewSystem WellScoped after s)
    (hgood : Along (GoodStep image) (afterCd image) (started s) args)
    (hshows : ShowsPath image s args) :
    ShortNames image s args := by
  intro as arg t' names has hwalk' hnames
  obtain ⟨t, t₁, names₁, hwalk, hends, hwalk₁, hpath, hiff⟩ := prompt_step h hgood has
  obtain rfl : t₁.prompted = t' := Except.ok.inj (hwalk₁.symm.trans hwalk')
  obtain rfl := (hpath names).mp hnames
  obtain ⟨names', hnames', htext⟩ := hshows as arg t t₁ has hwalk hends
  rw [(hpath names').mp hnames'] at htext
  exact hiff.mp htext

/-- **After any well-scoped calls and along any good walk, the prompt shows the path exactly if
the names that are followed by another row are short.** -/
theorem showsPath_iff
    (h : Reached NewSystem WellScoped after s)
    (hgood : Along (GoodStep image) (afterCd image) (started s) args) :
    ShowsPath image s args ↔ ShortNames image s args := by
  refine ⟨ShowsPath.shortNames h hgood, fun hshort => ?_⟩
  intro as arg t t₁ has hwalk hends
  obtain ⟨t', t₁', names, hwalk', hends', hwalk₁, hpath, hiff⟩ := prompt_step h hgood has
  obtain rfl : t' = t := Except.ok.inj (hwalk'.symm.trans hwalk)
  obtain ⟨-, rfl⟩ := hends'.unique hends
  have hnames := (hpath names).mpr rfl
  exact ⟨names, hnames, hiff.mpr (hshort as arg _ names has hwalk₁ hnames)⟩

end Walked

/-- Short names all over the tree are short along every walk. -/
theorem shortNames_of_short
    {s : FileSystem}
    (hshort : ∀ d names, NamedPath s d names → ∀ name, name ∈ names → name.length ≤ 7)
    (image : UInt32 → FAT32DriverRequest)
    (args : List Argument) :
    ShortNames image s args := by
  intro as arg t names _ _ hnames
  refine ⟨fun name hname => ?_, fun _ name hname => ?_⟩
  · exact hshort _ names hnames name (List.mem_of_mem_dropLast hname)
  · exact hshort _ names hnames name (List.mem_of_getLast? hname)

/-- An argument of a single letter. -/
def letter (c : Char) : Argument := argument [c] (Nat.le_add_left 1 7)

/-- The walk into the folder and back. -/
def thereAndBack : List Argument := [letter 'a', argument ['.', '.'] (by decide)]

theorem showsPath_folderSystem :
    ShowsPath silentImage folderSystem thereAndBack := by
  refine (showsPath_iff folderSystem_reached (by decide +kernel)).mpr ?_
  refine shortNames_of_short (fun d names hnames => ?_) silentImage thereAndBack
  have hroot : ∀ i, folderSystem.edge 2 i = if i = 2 then some 3 else none := by decide +kernel
  have hfolder : ∀ i, folderSystem.edge 3 i = none := by decide +kernel
  have hname : (entryName (folderSystem.table 2 2)).length ≤ 7 := by decide +kernel
  suffices hall : (d = 2 ∨ d = 3) ∧ ∀ name, name ∈ names → name.length ≤ 7 from hall.2
  induction hnames with
  | root =>
      refine ⟨Or.inl rfl, fun name hmem => ?_⟩
      rw [List.mem_singleton.mp hmem]
      decide
  | @child d c i names _ he ih =>
      obtain ⟨rfl | rfl, hnames⟩ := ih
      · rw [hroot] at he
        split_ifs at he with hi
        subst hi
        refine ⟨Or.inr (Option.some_inj.mp he).symm, fun name hmem => ?_⟩
        rcases List.mem_append.mp hmem with hmem | hmem
        · exact hnames name hmem
        · rwa [List.mem_singleton.mp hmem]
      · rw [hfolder] at he
        cases he

/-- A name that fills its row. -/
def wideName : List Char := ['a', 'b', 'c', 'd', 'e', 'f', 'g', 'h']

/-- A folder with this name, in cluster 3. -/
def wideFolder : FileSystem := after emptySystem (Call.write (requestFor wideName 2 0))

/-- A folder `b` in it, in cluster 4. -/
def wideSystem : FileSystem := after wideFolder (Call.write (requestFor ['b'] 3 0))

theorem wideSystem_reached : Reached NewSystem WellScoped after wideSystem := by
  have hfolder : Reached NewSystem WellScoped after wideFolder :=
    Reached.step (Reached.start newSystem_emptySystem)
      (wellScoped_write (liveDir_root _) (by decide))
  have hedge : wideFolder.edge 2 2 = some 3 := by decide +kernel
  exact Reached.step hfolder
    (wellScoped_write (Reach.child (liveDir_root _) hedge) (by decide))

/-- Down both folders. -/
def intoWide : List Argument := [argument wideName (by decide), letter 'b']

/-- The prompt runs the two names together. -/
theorem prompt_runs_on :
    Reached NewSystem WellScoped after wideSystem ∧
      Along (GoodStep silentImage) (afterCd silentImage) (started wideSystem) intoWide ∧
      (walk silentImage wideSystem intoWide).toOption.map promptText =
        some (chars "Istiqomah@OS-IF2230:/root/abcdefghb/b$ ") ∧
      ¬ ShowsPath silentImage wideSystem intoWide := by
  have hgood : Along (GoodStep silentImage) (afterCd silentImage) (started wideSystem)
      intoWide := by decide +kernel
  have htext : (walk silentImage wideSystem intoWide).toOption.map promptText =
      some (chars "Istiqomah@OS-IF2230:/root/abcdefghb/b$ ") := by decide +kernel
  have hcluster : (walk silentImage wideSystem intoWide).toOption.map
      (·.globals.currentDirCluster) = some 4 := by decide +kernel
  have hwide : wideSystem.edge 2 2 = some 3 := by decide +kernel
  have hb : wideSystem.edge 3 2 = some 4 := by decide +kernel
  have hname : (entryName (wideSystem.table 2 2)).length = 8 := by decide +kernel
  refine ⟨wideSystem_reached, hgood, htext, fun hshows => ?_⟩
  have hshort := hshows.shortNames wideSystem_reached hgood
  cases hwalk : walk silentImage wideSystem intoWide with
  | error e =>
      rw [hwalk] at hcluster
      cases hcluster
  | ok t =>
      rw [hwalk] at hcluster
      have hfour : t.globals.currentDirCluster = 4 := Option.some_inj.mp hcluster
      have hnames : NamedPath wideSystem t.globals.currentDirCluster
          ([chars "root"] ++ [entryName (wideSystem.table 2 2)] ++
            [entryName (wideSystem.table 3 2)]) :=
        hfour ▸ (NamedPath.root.child hwide).child hb
      have habove := (hshort [argument wideName (by decide)] (letter 'b') t _
        (List.prefix_refl _) hwalk hnames).1
      rw [List.dropLast_concat] at habove
      have hlong := habove _ (List.mem_append_right _ (List.mem_singleton_self _))
      omega

end Shell
end OS2024
