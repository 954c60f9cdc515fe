import OS2024.Fat32.Relocation
import OS2024.Shell.NameCopy
import OS2024.Shell.Navigation

/-!
# Moving a file

`mv` of `user-shell.c` enters the destination with `cdNoPrint`, reads the file into a local
buffer, writes a copy whose length is that of the C string in the buffer, and if this went
through goes back with `cd ..` and deletes the original.  Its local variables start with what
is on the stack, and the string may end above the buffer.

**Results.**
* `mv_noMatch`, `mv_notDir`, `mv_dir`: the ways through the search for the destination.
-/

namespace OS2024
namespace Shell

open Fat32 Stdlib TracedState LittleEndian

/-- The bytes of an `int` are written as numerals. -/
instance neZero_int : NeZero 4 := ⟨by decide⟩

/-- The stack in `mv`: the bytes from `buf` up to its bottom, and those of `retcode`.  `cat`
and `cp` have the same `buf`; their `retcode` is one byte, which the system call sets. -/
structure MvStack where
  bytes : List UInt8
  retcode : Fin 4 → UInt8
  room : 10 * 2048 ≤ bytes.length
  bounded : bytes.length < 2 ^ 32

/-- The memory that starts with `bytes`. -/
def memoryOf (bytes : List UInt8) : Memory := fun a => bytes.getD a 0

/-- The bytes from `buf` up, after a read into it. -/
def MvStack.afterRead (m : MvStack) (deliveries : List Delivery) : List UInt8 :=
  (List.range m.bytes.length).map (deliver (memoryOf m.bytes) deliveries)

/-- A system call stores its code into the first byte of `retcode`. -/
def storeCode (retcode : Fin 4 → UInt8) (code : Int8) : Fin 4 → UInt8 :=
  Function.update retcode 0 code.toUInt8

/-- `request.name`, filled from a buffer by the copy loop. -/
def requestName (filename : StringBuff) : Fin 8 → UInt8 :=
  fun k => if k.val < filename.len.toNat then filename.buf ⟨k, by omega⟩ else 0

/-- `request` of `mv` for a name of at most eight characters. -/
def mvRequest (g : Globals) (filename : StringBuff) (m : MvStack) : FAT32DriverRequest where
  buf := memoryOf m.bytes
  name := requestName filename
  ext := fun _ => 0
  parentClusterNumber := g.currentDirCluster
  bufferSize := 10 * clusterSize

/-- `copy` of `mv`, with the bytes from `buf` up. -/
def copyRequest (g : Globals) (filename : StringBuff) (bytes : List UInt8) :
    FAT32DriverRequest where
  buf := memoryOf bytes
  name := fun k => filename.buf ⟨k, by omega⟩
  ext := fun _ => 0
  parentClusterNumber := g.currentDirCluster
  bufferSize := UInt32.ofNat (strLength bytes)

/-- `request` of `rmNoPrint` -/
def rmRequest (g : Globals) (folder : StringBuff) : FAT32DriverRequest where
  buf := fun _ => 0
  name := requestName folder
  ext := fun _ => 0
  parentClusterNumber := g.currentDirCluster
  bufferSize := 0

def rmNoPrint (folder : StringBuff) : ShellM Unit := do
  if 8 < folder.len then
    puts (literal "rm: cannot remove : name is too long! (Max Characters is 8)") 0xC
  else
    let g := (← getState).globals
    let _ ← syscallRequest 8 delete (rmRequest g folder)
    return ()

/-- `destPath`: a new buffer with two dots put in. -/
def destPath : StringBuff := StringBuff.ofChars [46, 46]

/-- The `switch` of `mv`. -/
def switchRetcode (image : UInt32 → FAT32DriverRequest) (filename : StringBuff)
    (retcode : Fin 4 → UInt8) : ShellM Unit := do
  if word32 retcode = 0 then
    puts (literal "File moved successfully\n") 0x2
    cdNoPrint image destPath
    rmNoPrint filename
    readCurrentDir
  else if word32 retcode = 1 then
    puts (literal "mv: cannot move file '") 0xC
    puts (List.ofFn filename.buf) 0xC
    puts (literal "': No such file or directory\n") 0xC
  else return ()

/-- `mv` from the second request on. -/
def writeCopy (image : UInt32 → FAT32DriverRequest) (filename : StringBuff)
    (bytes : List UInt8) (retcode : Fin 4 → UInt8) : ShellM Unit := do
  if 0 ∈ bytes then
    let g := (← getState).globals
    let code ← syscallRequest 2 write (copyRequest g filename bytes)
    switchRetcode image filename (storeCode retcode code)
  else fault ShellFault.unterminated

def mv (image : UInt32 → FAT32DriverRequest) (m : MvStack) (filename dest : StringBuff) :
    ShellM Unit := do
  let g := (← getState).globals
  match fillName filename (blankRequest g (memoryOf m.bytes) (10 * clusterSize)) with
  | none => fault ShellFault.requestNameIndex
  | some request =>
      if 8 < dest.len then
        puts (literal "Destination name is too long! (Maximum 8 Characters)") 0xC
      else
        match Fin.find? fun i => nameMatches g.currentDir.table dest i with
        | none => puts (literal "File not found\n") 0xC
        | some i =>
            if (g.currentDir.table i).attr = 0x10 then
              cdNoPrint image dest
              let (code, deliveries) ← syscallRequest 0 read request
              writeCopy image filename (m.afterRead deliveries) (storeCode m.retcode code)
            else puts (literal "mv: destination is not a directory\n") 0xC

/-! ## What is printed -/

section Emissions

variable {image : UInt32 → FAT32DriverRequest} {P : ShellEvent → Prop}

theorem liftDriver_emits
    {α : Type}
    (hdisk : ∀ e, P (ShellEvent.disk e))
    (x : Driver α) :
    Emits P (liftDriver x) := by
  intro s e he
  rcases hx : x s.fileSystem with ⟨e' | a, fs, w⟩ <;> simp only [liftDriver, hx] at he
  · obtain ⟨d, -, rfl⟩ := List.mem_map.mp he
    exact hdisk d
  · obtain ⟨d, -, rfl⟩ := List.mem_map.mp he
    exact hdisk d

theorem puts_emits
    (buf : List UInt8)
    (color : UInt32)
    (hputs : P (ShellEvent.puts (cString buf) color)) :
    Emits P (puts buf color) := by
  intro s e he
  rw [puts] at he
  split_ifs at he
  · rwa [List.mem_singleton.mp he]
  · cases he

theorem moveTo_emits
    (hdisk : ∀ e, P (ShellEvent.disk e))
    (o : Option Globals)
    (i : UInt32) :
    Emits P (moveTo image o i) := by
  cases o with
  | none => exact Emits.of_trace_nil fun _ => rfl
  | some g =>
      refine Emits.bind (Emits.of_trace_nil fun _ => rfl) fun _ => ?_
      refine Emits.bind (Emits.of_trace_nil fun _ => rfl) fun s => ?_
      refine Emits.bind (liftDriver_emits hdisk _) fun ⟨code, deliveries⟩ => ?_
      dsimp only
      split_ifs
      · exact Emits.of_trace_nil fun _ => rfl
      · exact Emits.of_trace_nil fun _ => rfl

/-- `cdNoPrint` prints at most its error message. -/
theorem cdNoPrint_emits
    (hdisk : ∀ e, P (ShellEvent.disk e))
    (hputs : ∀ text, P (ShellEvent.puts text 0xC))
    (dirname : StringBuff) :
    Emits P (cdNoPrint image dirname) := by
  rw [cdNoPrint, cdWith]
  by_cases hlen : 8 < dirname.len
  · rw [if_pos hlen]
    exact puts_emits _ _ (hputs _)
  · rw [if_neg hlen]
    refine Emits.bind (Emits.of_trace_nil fun _ => rfl) fun s => ?_
    dsimp only
    split
    · exact Emits.of_trace_nil fun _ => rfl
    · split_ifs
      · exact Emits.of_trace_nil fun _ => rfl
      · exact (moveTo_emits hdisk _ _).bind fun _ => Emits.of_trace_nil fun _ => rfl
      · exact moveTo_emits hdisk _ _

end Emissions

/-- `mv` reports success. -/
def movedMessage : ShellEvent :=
  ShellEvent.puts (cString (literal "File moved successfully\n")) 0x2

/-- The computation does not report that a file has moved. -/
abbrev NotReporting {α : Type} (x : ShellM α) : Prop := Emits (fun e => e ≠ movedMessage) x

section Reports

variable {image : UInt32 → FAT32DriverRequest}

theorem disk_ne_movedMessage (e : DiskEvent) : ShellEvent.disk e ≠ movedMessage := by
  intro h
  cases h

theorem error_ne_movedMessage (text : List UInt8) : ShellEvent.puts text 0xC ≠ movedMessage := by
  intro h
  injection h with _ hcolor
  exact absurd hcolor (by decide)

theorem syscallRequest_notReporting
    {α : Type}
    (eax : UInt32)
    (operation : FAT32DriverRequest → Driver α)
    (request : FAT32DriverRequest) :
    NotReporting (syscallRequest eax operation request) := by
  intro s e he
  rcases List.mem_cons.mp he with rfl | he
  · intro h
    cases h
  · exact liftDriver_emits (P := fun e => e ≠ movedMessage) disk_ne_movedMessage _ s e he

theorem puts_notReporting (buf : List UInt8) : NotReporting (puts buf 0xC) :=
  puts_emits buf 0xC (error_ne_movedMessage _)

theorem cdNoPrint_notReporting (dirname : StringBuff) :
    NotReporting (cdNoPrint image dirname) :=
  cdNoPrint_emits disk_ne_movedMessage error_ne_movedMessage dirname

end Reports

/-! ## The ways through `mv` -/

section Ways

variable {image : UInt32 → FAT32DriverRequest} {m : MvStack} {filename dest : Argument}
  {t t' : Session} {i : Fin 64}

/-- The first slot with the name of the destination. -/
def FirstNamed
    (t : FAT32DirectoryTable)
    (dest : Argument)
    (i : Fin 64) : Prop :=
  nameMatches t dest.buff i = true ∧ ∀ j, j < i → ¬ nameMatches t dest.buff j = true

theorem find_nameMatches_eq_some
    {t : FAT32DirectoryTable} :
    (Fin.find? fun j => nameMatches t dest.buff j) = some i ↔ FirstNamed t dest i := by
  rw [Fin.find?_eq_some_iff, FirstNamed]
  simp

theorem find_nameMatches_eq_none
    {t : FAT32DirectoryTable} :
    (Fin.find? fun j => nameMatches t dest.buff j) = none ↔
      ∀ j, ¬ nameMatches t dest.buff j = true := by
  rw [Fin.find?_eq_none_iff]
  simp

theorem FirstNamed.unique
    {t : FAT32DirectoryTable}
    {j : Fin 64}
    (h : FirstNamed t dest i)
    (h' : FirstNamed t dest j) :
    i = j := by
  rcases lt_trichotomy i j with hlt | rfl | hlt
  · exact absurd h.1 (h'.2 i hlt)
  · rfl
  · exact absurd h'.1 (h.2 j hlt)

theorem requestName_buff :
    requestName filename.buff = fun k : Fin 8 => filename.val.getD k 0 := by
  have h := filename.property
  funext k
  rw [requestName, Argument.buff, ofChars_len (by omega)]
  split_ifs with hk
  · rfl
  · exact (List.getD_eq_default _ _ (Nat.le_of_not_lt hk)).symm

/-- The name is filled in. -/
theorem fillName_mv :
    fillName filename.buff (blankRequest t.globals (memoryOf m.bytes) (10 * clusterSize)) =
      some (mvRequest t.globals filename.buff m) := by
  rw [Argument.buff, fillName_short filename.property, mvRequest, ← Argument.buff,
    requestName_buff]
  rfl

theorem mv_noMatch
    (hno : ∀ j, ¬ nameMatches t.globals.currentDir.table dest.buff j = true) :
    ∃ w, (∀ e, e ∈ w → e ≠ movedMessage) ∧
      mv image m filename.buff dest.buff t = ⟨.ok (), t, w⟩ := by
  refine ⟨_, puts_notReporting (literal "File not found\n") t, ?_⟩
  simp [mv, fillName_mv, dest.not_long, bind_apply, find_nameMatches_eq_none.mpr hno,
    Outcome.prepend]

theorem mv_notDir
    (hi : FirstNamed t.globals.currentDir.table dest i)
    (hattr : (t.globals.currentDir.table i).attr ≠ 0x10) :
    ∃ w, (∀ e, e ∈ w → e ≠ movedMessage) ∧
      mv image m filename.buff dest.buff t = ⟨.ok (), t, w⟩ := by
  refine ⟨_, puts_notReporting (literal "mv: destination is not a directory\n") t, ?_⟩
  simp [mv, fillName_mv, dest.not_long, bind_apply, find_nameMatches_eq_some.mpr hi, hattr,
    Outcome.prepend]

theorem mv_dir
    (hi : FirstNamed t.globals.currentDir.table dest i)
    (hattr : (t.globals.currentDir.table i).attr = 0x10) :
    mv image m filename.buff dest.buff t =
      (do
        cdNoPrint image dest.buff
        let (code, deliveries) ← syscallRequest 0 read (mvRequest t.globals filename.buff m)
        writeCopy image filename.buff (m.afterRead deliveries)
          (storeCode m.retcode code) : ShellM Unit) t := by
  simp [mv, fillName_mv, dest.not_long, bind_apply, find_nameMatches_eq_some.mpr hi, hattr,
    Outcome.prepend]

end Ways

/-! ## Into the destination and back -/

section Entering

variable {image : UInt32 → FAT32DriverRequest} {arg : Argument} {t t' : Session} {g : Globals}
  {i : Fin 64}

/-- The globals `g` after `cd ..`. -/
def GoneUp
    (image : UInt32 → FAT32DriverRequest)
    (t : Session)
    (g : Globals) : Prop :=
  (t.globals.currentDirCluster = rootClusterNumber ∧ g = t.globals) ∨
    (t.globals.currentDirCluster ≠ rootClusterNumber ∧
      Arrives image t.fileSystem t.globals.popParent g)

/-- The globals `g` after the destination in slot `i` was entered. -/
def Entered
    (image : UInt32 → FAT32DriverRequest)
    (t : Session)
    (dest : Argument)
    (i : Fin 64)
    (g : Globals) : Prop :=
  (IsDotDot dest ∧ GoneUp image t g) ∨
    (¬ IsDotDot dest ∧
      Arrives image t.fileSystem
        (t.globals.pushParent (t.globals.currentDir.table i).cluster) g)

theorem cdNoPrint_dotDot_iff
    (hup : IsDotDot arg)
    (hnamed : (t.globals.currentDir.table i).name 0 ≠ 0) :
    Ends (cdNoPrint image arg.buff) t () t' ↔
      ∃ g, GoneUp image t g ∧ t' = { t with globals := g } := by
  obtain ⟨j, hj⟩ := (cdStops_cases t.globals.currentDir.table arg.buff).resolve_right
    fun hno => hno i ((cdStops_of_dotDot hup).mpr hnamed)
  have hup' := isDotDot_iff.mpr hup
  by_cases hroot : t.globals.currentDirCluster = rootClusterNumber
  · have hends : Ends (cdNoPrint image arg.buff) t () t :=
      cdWith_root arg.not_long hj hup' hroot
    constructor
    · intro h
      exact ⟨t.globals, Or.inl ⟨hroot, rfl⟩, (h.unique hends).2⟩
    · rintro ⟨g, hg, rfl⟩
      obtain ⟨-, rfl⟩ := hg.resolve_right fun hne => hne.1 hroot
      exact hends
  · rw [Ends, cdNoPrint, cdWith_up arg.not_long hj hup' hroot, ← Ends]
    constructor
    · intro h
      obtain ⟨_, t₁, hmove, hsay⟩ := h.of_bind
      obtain ⟨g, harrives, rfl⟩ := moveTo_ends hmove
      exact ⟨g, Or.inr ⟨hroot, harrives⟩, (hsay.unique (Ends.pure () _)).2⟩
    · rintro ⟨g, hg, rfl⟩
      obtain ⟨-, harrives⟩ := hg.resolve_left fun he => hroot he.1
      exact (moveTo_arrives harrives _).bind (Ends.pure () _)

theorem cdNoPrint_iff
    (hi : FirstNamed t.globals.currentDir.table arg i)
    (hattr : (t.globals.currentDir.table i).attr = 0x10) :
    Ends (cdNoPrint image arg.buff) t () t' ↔
      ∃ g, Entered image t arg i g ∧ t' = { t with globals := g } := by
  have hname := nameMatches_iff.mp hi.1
  by_cases hup : IsDotDot arg
  · rw [cdNoPrint_dotDot_iff hup hname.1]
    simp [Entered, hup]
  · have hstop : StopsAt t.globals.currentDir.table arg.buff i := by
      refine ⟨(cdStops_iff hup).mpr ⟨hname.1, hname.2, by rw [hattr]; decide⟩, fun j hj he => ?_⟩
      obtain ⟨hname₁, hname₂, -⟩ := (cdStops_iff hup).mp he
      exact hi.2 j hj (nameMatches_iff.mpr ⟨hname₁, hname₂⟩)
    rw [Ends, cdNoPrint, cdWith_down arg.not_long hstop fun he => hup (isDotDot_iff.mp he), ← Ends]
    constructor
    · intro h
      obtain ⟨g, harrives, rfl⟩ := moveTo_ends h
      exact ⟨g, Or.inr ⟨hup, harrives⟩, rfl⟩
    · rintro ⟨g, hg, rfl⟩
      obtain ⟨-, harrives⟩ := hg.resolve_left fun he => hup he.1
      exact moveTo_arrives harrives _

theorem toUInt8_eq_zero_iff (code : Int8) : code.toUInt8 = 0 ↔ code = 0 := by
  constructor
  · intro h
    rw [← Int8.toInt8_toUInt8 code, h]
    rfl
  · rintro rfl
    rfl

/-- The code that `read_directory` returns gives slot 0 a name. -/
theorem Arrives.named
    {fs : FileSystem}
    {o : Option Globals}
    (h : Arrives image fs o g) :
    (g.currentDir.table 0).name 0 ≠ 0 := by
  obtain ⟨g₁, code, rfl, hrun, rfl⟩ := h
  obtain ⟨code', ds, w, hreply, hcode⟩ :=
    readDirectory_reply (image g₁.currentDirCluster) fs
  rw [hreply] at hrun
  cases hrun
  intro hzero
  refine hcode rfl ((toUInt8_eq_zero_iff code).mp ?_)
  simpa [Globals.withCode] using hzero

theorem Arrives.currentDirCluster
    {fs : FileSystem}
    {g₁ : Globals}
    (h : Arrives image fs (some g₁) g) :
    g.currentDirCluster = g₁.currentDirCluster := by
  obtain ⟨g₂, code, hsome, -, rfl⟩ := h
  cases hsome
  rfl

end Entering

/-! ## The copy and what follows -/

section Copying

variable {image : UInt32 → FAT32DriverRequest} {m : MvStack} {filename dest : Argument}
  {t t' : Session} {i : Fin 64} {g : Globals}

theorem liftDriver_ends_iff
    {α : Type}
    {x : Driver α}
    {a : α} :
    Ends (liftDriver x) t a t' ↔
      (x t.fileSystem).result = .ok a ∧ t' = { t with fileSystem := (x t.fileSystem).state } := by
  rcases hx : x t.fileSystem with ⟨e | b, fs, w⟩ <;> simp [Ends, liftDriver, hx, eq_comm]

/-- A system call ends like the operation of the driver. -/
theorem syscallRequest_ends_iff
    {α : Type}
    {eax : UInt32}
    {operation : FAT32DriverRequest → Driver α}
    {r : FAT32DriverRequest}
    {a : α} :
    Ends (syscallRequest eax operation r) t a t' ↔
      (operation r t.fileSystem).result = .ok a ∧
        t' = { t with fileSystem := (operation r t.fileSystem).state } :=
  liftDriver_ends_iff

theorem syscallRequest_read_ends_iff
    {r : FAT32DriverRequest}
    {reply : Int8 × List Delivery} :
    Ends (syscallRequest 0 read r) t reply t' ↔
      (read r t.fileSystem).result = .ok reply ∧ t' = t := by
  rw [syscallRequest_ends_iff, (read_readonly r t.fileSystem).1]

/-- The bytes from `buf` up when the copy is made. -/
def InBuffer
    (t : Session)
    (filename : Argument)
    (m : MvStack)
    (bytes : List UInt8) : Prop :=
  ∃ code deliveries,
    (read (mvRequest t.globals filename.buff m) t.fileSystem).result = .ok (code, deliveries) ∧
      bytes = m.afterRead deliveries

theorem storeCode_storeCode (retcode : Fin 4 → UInt8) (code code' : Int8) :
    storeCode (storeCode retcode code) code' = storeCode retcode code' :=
  Function.update_idem _ _ _

theorem writeCopy_ends_iff
    {bytes : List UInt8}
    {retcode : Fin 4 → UInt8} :
    Ends (writeCopy image filename.buff bytes retcode) t () t' ↔
      0 ∈ bytes ∧ ∃ code,
        (write (copyRequest t.globals filename.buff bytes) t.fileSystem).result = .ok code ∧
        Ends (switchRetcode image filename.buff (storeCode retcode code))
          { t with fileSystem :=
              (write (copyRequest t.globals filename.buff bytes) t.fileSystem).state } () t' := by
  rw [writeCopy]
  by_cases hzero : 0 ∈ bytes
  · rw [if_pos hzero, Ends, getState_bind, ← Ends]
    constructor
    · intro h
      obtain ⟨code, t₁, hwrite, h⟩ := Ends.of_bind h
      obtain ⟨hcode, rfl⟩ := syscallRequest_ends_iff.mp hwrite
      exact ⟨hzero, code, hcode, h⟩
    · rintro ⟨-, code, hcode, h⟩
      exact (syscallRequest_ends_iff.mpr ⟨hcode, rfl⟩).bind h
  · rw [if_neg hzero]
    constructor
    · intro h
      exact absurd h (Faults.not_ends ⟨ShellFault.unterminated, rfl⟩)
    · exact fun h => absurd h.1 hzero

/-- The second request of `mv` after the destination was entered. -/
abbrev copyOf (g : Globals) (filename : Argument) (bytes : List UInt8) : FAT32DriverRequest :=
  copyRequest g filename.buff bytes

/-- The session after the copy was written. -/
abbrev copied (t : Session) (g : Globals) (filename : Argument) (bytes : List UInt8) : Session :=
  ⟨(write (copyOf g filename bytes) t.fileSystem).state, g⟩

/-- How a `mv` ends that finds a directory. -/
theorem mv_ends_iff
    (hi : FirstNamed t.globals.currentDir.table dest i)
    (hattr : (t.globals.currentDir.table i).attr = 0x10) :
    Ends (mv image m filename.buff dest.buff) t () t' ↔
      ∃ g bytes code, Entered image t dest i g ∧ InBuffer t filename m bytes ∧ 0 ∈ bytes ∧
        (write (copyOf g filename bytes) t.fileSystem).result = .ok code ∧
        Ends (switchRetcode image filename.buff (storeCode m.retcode code))
          (copied t g filename bytes) () t' := by
  rw [Ends, mv_dir hi hattr, ← Ends]
  constructor
  · intro h
    obtain ⟨_, t₁, hcd, h⟩ := h.of_bind
    obtain ⟨g, hg, rfl⟩ := (cdNoPrint_iff hi hattr).mp hcd
    obtain ⟨⟨code, ds⟩, t₂, hlift, h⟩ := h.of_bind
    obtain ⟨hread, rfl⟩ := syscallRequest_read_ends_iff.mp hlift
    obtain ⟨hzero, code', hwrite, h⟩ := writeCopy_ends_iff.mp h
    rw [storeCode_storeCode] at h
    exact ⟨g, _, code', hg, ⟨code, ds, hread, rfl⟩, hzero, hwrite, h⟩
  · rintro ⟨g, _, code', hg, ⟨code, ds, hread, rfl⟩, hzero, hwrite, h⟩
    refine ((cdNoPrint_iff hi hattr).mpr ⟨g, hg, rfl⟩).bind ?_
    refine Ends.bind (a := (code, ds)) (syscallRequest_read_ends_iff.mpr ⟨hread, rfl⟩) ?_
    refine writeCopy_ends_iff.mpr ⟨hzero, code', hwrite, ?_⟩
    rw [storeCode_storeCode]
    exact h

/-- Up to the `switch` nothing is reported. -/
theorem mv_reports_iff
    (hi : FirstNamed t.globals.currentDir.table dest i)
    (hattr : (t.globals.currentDir.table i).attr = 0x10)
    {bytes : List UInt8}
    {code : Int8}
    (hg : Entered image t dest i g)
    (hbytes : InBuffer t filename m bytes)
    (hzero : 0 ∈ bytes)
    (hwrite : (write (copyOf g filename bytes) t.fileSystem).result = .ok code) :
    movedMessage ∈ (mv image m filename.buff dest.buff t).trace ↔
      movedMessage ∈ (switchRetcode image filename.buff (storeCode m.retcode code)
        (copied t g filename bytes)).trace := by
  obtain ⟨code₀, ds, hread, rfl⟩ := hbytes
  obtain ⟨w₁, hw₁, hrun₁⟩ := ((cdNoPrint_iff hi hattr).mpr ⟨g, hg, rfl⟩).prepend
    (cdNoPrint_notReporting _) _
  have hread' : Ends (syscallRequest 0 read (mvRequest t.globals filename.buff m))
      { t with globals := g } (code₀, ds) { t with globals := g } :=
    syscallRequest_read_ends_iff.mpr ⟨hread, rfl⟩
  obtain ⟨w₂, hw₂, hrun₂⟩ := hread'.prepend (syscallRequest_notReporting _ _ _) _
  have hwrite' : Ends (syscallRequest 2 write (copyOf g filename (m.afterRead ds)))
      { t with globals := g } code (copied t g filename (m.afterRead ds)) :=
    syscallRequest_ends_iff.mpr ⟨hwrite, rfl⟩
  obtain ⟨w₃, hw₃, hrun₃⟩ := hwrite'.prepend (syscallRequest_notReporting _ _ _) fun code =>
    switchRetcode image filename.buff (storeCode (storeCode m.retcode code₀) code)
  have hcopy : writeCopy image filename.buff (m.afterRead ds) (storeCode m.retcode code₀)
      { t with globals := g } = (switchRetcode image filename.buff
        (storeCode (storeCode m.retcode code₀) code)
        (copied t g filename (m.afterRead ds))).prepend w₃ := by
    rw [writeCopy, if_pos hzero, getState_bind]
    exact hrun₃
  rw [mv_dir hi hattr, hrun₁, hrun₂]
  dsimp only
  rw [hcopy, storeCode_storeCode]
  simp only [Outcome.prepend_trace, List.mem_append]
  rw [or_iff_right fun he => hw₁ _ he rfl, or_iff_right fun he => hw₂ _ he rfl,
    or_iff_right fun he => hw₃ _ he rfl]

end Copying

/-! ## The `switch` -/

section Switch

variable {image : UInt32 → FAT32DriverRequest} {m : MvStack} {filename : Argument}
  {t t' : Session} {i : Fin 64} {code : Int8} {retcode : Fin 4 → UInt8}

theorem word32_eq_zero_iff (b : Fin 4 → UInt8) : word32 b = 0 ↔ ∀ k, b k = 0 := by
  have hzero : byte32 0 = fun _ => 0 := by decide
  constructor
  · intro h k
    rw [← byte32_word32 b, h, hzero]
  · intro h
    have hb : b = byte32 0 := by
      rw [hzero]
      exact funext h
    rw [hb, word32_byte32]

/-- The code is all of `retcode` if its other bytes happen to be zero. -/
theorem retcode_eq_zero_iff :
    word32 (storeCode retcode code) = 0 ↔ code = 0 ∧ ∀ k, k ≠ 0 → retcode k = 0 := by
  rw [word32_eq_zero_iff, storeCode]
  constructor
  · intro h
    refine ⟨(toUInt8_eq_zero_iff code).mp (by simpa using h 0), fun k hk => ?_⟩
    simpa [hk] using h k
  · rintro ⟨rfl, hrest⟩ k
    by_cases hk : k = 0
    · rw [hk, Function.update_self]
      rfl
    · rw [Function.update_of_ne hk]
      exact hrest k hk

theorem zero_mem_buff (arg : Argument) : 0 ∈ List.ofFn arg.buff.buf := by
  have h := arg.property
  rw [Argument.buff, StringBuff.ofChars, ofFn_getD (by omega)]
  exact List.mem_append_right _ (List.mem_replicate.mpr ⟨by omega, rfl⟩)

/-- With any other code the shell stays where it is. -/
theorem switchRetcode_other
    (image : UInt32 → FAT32DriverRequest)
    (filename : Argument)
    (t : Session)
    (h : word32 retcode ≠ 0) :
    Ends (switchRetcode image filename.buff retcode) t () t ∧
      movedMessage ∉ (switchRetcode image filename.buff retcode t).trace := by
  rw [switchRetcode, if_neg h]
  by_cases hone : word32 retcode = 1
  · rw [if_pos hone]
    have hname := puts_apply (zero_mem_buff filename) 0xC t
    have hemits : NotReporting (do
        puts (literal "mv: cannot move file '") 0xC
        puts (List.ofFn filename.buff.buf) 0xC
        puts (literal "': No such file or directory\n") 0xC : ShellM Unit) :=
      (puts_notReporting _).bind fun _ => (puts_notReporting _).bind fun _ =>
        puts_notReporting _
    refine ⟨?_, fun he => hemits t _ he rfl⟩
    exact (Ends.of_apply (puts_literal _ 0xC t)).bind
      ((Ends.of_apply hname).bind (Ends.of_apply (puts_literal _ 0xC t)))
  · rw [if_neg hone]
    exact ⟨Ends.pure () t, List.not_mem_nil⟩

theorem switchRetcode_reports
    (h : word32 retcode = 0) :
    movedMessage ∈ (switchRetcode image filename.buff retcode t).trace := by
  rw [switchRetcode, if_pos h, bind_apply, puts_literal]
  exact List.mem_append_left _ (List.mem_singleton_self _)

theorem destPath_eq : destPath = Argument.buff ⟨[46, 46], by decide⟩ := rfl

theorem rmNoPrint_ends_iff :
    Ends (rmNoPrint filename.buff) t () t' ↔
      ∃ code, (delete (rmRequest t.globals filename.buff) t.fileSystem).result = .ok code ∧
        t' = { t with fileSystem :=
          (delete (rmRequest t.globals filename.buff) t.fileSystem).state } := by
  rw [rmNoPrint, if_neg filename.not_long, Ends, getState_bind, ← Ends]
  constructor
  · intro h
    obtain ⟨code, t₁, hdelete, h⟩ := Ends.of_bind h
    obtain ⟨hcode, rfl⟩ := syscallRequest_ends_iff.mp hdelete
    exact ⟨code, hcode, (h.unique (Ends.pure () _)).2⟩
  · rintro ⟨code, hcode, rfl⟩
    exact (syscallRequest_ends_iff.mpr ⟨hcode, rfl⟩).bind (Ends.pure () _)

/-- The session after the original was deleted. -/
abbrev deleted (t : Session) (g : Globals) (filename : Argument) : Session :=
  ⟨(delete (rmRequest g filename.buff) t.fileSystem).state, g⟩

/-- After a success the shell goes back, deletes the original and loads the directory. -/
theorem switchRetcode_moved_iff
    (h : word32 retcode = 0)
    (hnamed : (t.globals.currentDir.table i).name 0 ≠ 0) :
    Ends (switchRetcode image filename.buff retcode) t () t' ↔
      ∃ g code, GoneUp image t g ∧
        (delete (rmRequest g filename.buff) t.fileSystem).result = .ok code ∧
        t' = { deleted t g filename with globals := (deleted t g filename).loaded } := by
  have hdots : IsDotDot ⟨[46, 46], by decide⟩ := by decide
  have hputs : Ends (puts (literal "File moved successfully\n") 0x2) t () t :=
    Ends.of_apply (puts_literal _ 0x2 t)
  rw [switchRetcode, if_pos h, destPath_eq]
  constructor
  · intro hends
    obtain ⟨_, t₀, h₀, hends⟩ := hends.of_bind
    obtain ⟨-, rfl⟩ := hputs.unique h₀
    obtain ⟨_, t₁, hcd, hends⟩ := hends.of_bind
    obtain ⟨g, hg, rfl⟩ := (cdNoPrint_dotDot_iff hdots hnamed).mp hcd
    obtain ⟨_, t₂, hrm, hends⟩ := hends.of_bind
    obtain ⟨code, hcode, rfl⟩ := rmNoPrint_ends_iff.mp hrm
    exact ⟨g, code, hg, hcode, (hends.unique (Ends.of_apply (readCurrentDir_apply _))).2⟩
  · rintro ⟨g, code, hg, hcode, rfl⟩
    refine hputs.bind (((cdNoPrint_dotDot_iff hdots hnamed).mpr ⟨g, hg, rfl⟩).bind ?_)
    exact (rmNoPrint_ends_iff.mpr ⟨code, hcode, rfl⟩).bind
      (Ends.of_apply (readCurrentDir_apply (deleted t g filename)))

end Switch

end Shell
end OS2024
