import OS2024.Shell.Moved

/-!
# The commands on files and folders

`mkdir`, `rm`, `ls`, `cat`, `cp` and `find` of `user-shell.c`.

Five of them copy their argument into a request, and only `mkdir` and `rm` look at its length
first.

**Results.**
* `carriesArgument_iff`: the request says what the user asked for, exactly if the length is
  checked or is at most eight.
* `cat_redirected`: a longer one that changes the parent cluster.
-/

namespace OS2024
namespace Shell

open Fat32 Stdlib TracedState Runs

/-- `puts` for each string, in the same color. -/
def putsAll (color : UInt32) : List (List UInt8) → ShellM Unit
  | [] => return ()
  | buf :: bufs => do
      puts buf color
      putsAll color bufs

def mkdir (folderName : StringBuff) : ShellM Unit := do
  let g := (← getState).globals
  if 8 < folderName.len then
    puts (literal "Directory name is too long! (Max Characters is 8)") 0xC
  else
    match fillName folderName (blankRequest g (fun _ => 0) 0) with
    | none => fault ShellFault.requestNameIndex
    | some request =>
        let retcode ← syscallRequest 2 write request
        if retcode = 0 then
          putsAll 0x2 [literal "Make directory success! ", literal "'",
            List.ofFn folderName.buf, literal "'", literal " has been created..\n"]
          readCurrentDir
        else if retcode = 1 then
          putsAll 0xC [literal "mkdir: cannot create directory ", literal "'",
            List.ofFn folderName.buf, literal "'", literal ": File exists\n"]
        else return ()

def rm (folder : StringBuff) : ShellM Unit := do
  let g := (← getState).globals
  if 8 < folder.len then
    puts (literal "rm: cannot remove : name is too long! (Max Characters is 8)") 0xC
  else
    match fillName folder (blankRequest g (fun _ => 0) 0) with
    | none => fault ShellFault.requestNameIndex
    | some request =>
        let retcode ← syscallRequest 8 delete request
        if retcode = 0 then
          putsAll 0x2 [literal "Remove success! ", literal "'", List.ofFn folder.buf,
            literal "'", literal " has been removed..\n"]
        else if retcode = 1 then
          putsAll 0xC [literal "rm: cannot remove '", List.ofFn folder.buf,
            literal "': No such file or directory"]
        else return ()

/-- The loop of `ls` over the slots `is`; `entry.name` runs on into the rest of the entry. -/
def lsLoop (t : FAT32DirectoryTable) : List (Fin 64) → ShellM Unit
  | [] => return ()
  | i :: is => do
      (if (t i).name 0 = 0 then pure ()
      else putsAll 0x2 [List.ofFn (t i).toBytes, literal " "])
      lsLoop t is

def ls : ShellM Unit := do
  readCurrentDir
  let g := (← getState).globals
  lsLoop g.currentDir.table ((List.finRange 64).drop 2)
  puts (literal "\n") 0x2

/-- The `switch` of `cat` and `cp`; `text` is what a success prints. -/
def reportFile (filename : StringBuff) (text : List UInt8) (retcode : Int8) :
    ShellM Unit := do
  (if retcode = 0 then puts text 0x2
  else if retcode = 1 then
    putsAll 0xC [literal "cat: ", List.ofFn filename.buf, literal ": Is a directory"]
  else if retcode = 2 then
    putsAll 0xC [literal "cat: ", List.ofFn filename.buf,
      literal ": No such file or directory"]
  else pure ())
  puts (literal "\n") 0x7

/-- `copy` of `cp`, with the bytes from `buf` up. -/
def cpRequest (g : Globals) (bytes : List UInt8) : FAT32DriverRequest :=
  { blankRequest g (memoryOf bytes) (UInt32.ofNat (strLength bytes)) with
    name := fun k => (['c', 'o', 'p', 'y'].map byteOfChar).getD k 0 }

/-- `cp` from the second request on. -/
def storeCopy (filename : StringBuff) (bytes : List UInt8) : ShellM Unit := do
  if 0 ∈ bytes then
    let g := (← getState).globals
    let retcode ← syscallRequest 2 write (cpRequest g bytes)
    reportFile filename bytes retcode
  else fault ShellFault.unterminated

def cp (m : MvStack) (filename : StringBuff) : ShellM Unit := do
  let g := (← getState).globals
  match fillName filename (blankRequest g (memoryOf m.bytes) (10 * clusterSize)) with
  | none => fault ShellFault.requestNameIndex
  | some request =>
      -- the code of the read is overwritten by that of the write
      let (_, deliveries) ← syscallRequest 0 read request
      storeCopy filename (m.afterRead deliveries)

def cat (m : MvStack) (filename : StringBuff) : ShellM Unit := do
  let g := (← getState).globals
  match fillName filename (blankRequest g (memoryOf m.bytes) (10 * clusterSize)) with
  | none => fault ShellFault.requestNameIndex
  | some request =>
      let (retcode, deliveries) ← syscallRequest 0 read request
      reportFile filename (m.afterRead deliveries) retcode

def find (filename : StringBuff) : ShellM Unit := do
  let g := (← getState).globals
  match Fin.find? fun i => nameMatches g.currentDir.table filename i with
  | none => puts (literal "File not found\n") 0xC
  | some i =>
      putsAll 0x2 [literal "File found: ", fullname (g.currentDir.table i), literal "\n"]

/-! ## Requests -/

/-- The requests of system calls in a trace, with the numbers of the calls. -/
def requestsOf (w : List ShellEvent) : List (UInt32 × FAT32DriverRequest) :=
  w.filterMap fun e =>
    match e with
    | ShellEvent.call eax request => some (eax, request)
    | _ => none

/-- The event is no system call with a request. -/
def NotCall (e : ShellEvent) : Prop := ∀ eax request, e ≠ ShellEvent.call eax request

section Requests

variable {s : Session} {w w' : List ShellEvent} {request : FAT32DriverRequest}

@[simp] theorem requestsOf_nil : requestsOf [] = [] := rfl

@[simp] theorem requestsOf_append : requestsOf (w ++ w') = requestsOf w ++ requestsOf w' :=
  List.filterMap_append

@[simp] theorem requestsOf_cons_call (eax : UInt32) (request : FAT32DriverRequest) :
    requestsOf (ShellEvent.call eax request :: w) = (eax, request) :: requestsOf w := rfl

theorem requestsOf_eq_nil
    (h : ∀ e, e ∈ w → NotCall e) :
    requestsOf w = [] := by
  refine List.filterMap_eq_nil_iff.mpr fun e he => ?_
  cases e with
  | disk d => rfl
  | puts text color => rfl
  | call eax request => exact absurd rfl (h _ he eax request)

/-- Whatever follows a system call, its request comes first. -/
theorem requestsOf_call
    {α β : Type}
    (eax : UInt32)
    (operation : FAT32DriverRequest → Driver α)
    (request : FAT32DriverRequest)
    (f : α → ShellM β)
    (s : Session) :
    ∃ rest, requestsOf ((syscallRequest eax operation request >>= f) s).trace =
      (eax, request) :: rest := by
  rw [bind_apply, syscallRequest]
  rcases liftDriver (operation request) s with ⟨_ | a, s', w⟩
  · exact ⟨requestsOf w, rfl⟩
  · exact ⟨requestsOf (w ++ (f a s').trace), rfl⟩

theorem cdNoPrint_requests
    (image : UInt32 → FAT32DriverRequest)
    (dirname : StringBuff) :
    Emits NotCall (cdNoPrint image dirname) :=
  cdNoPrint_emits (fun _ _ _ h => by cases h) (fun _ _ _ h => by cases h) dirname

end Requests

/-! ## The commands that copy their argument into a request -/

/-- An argument as `parseCommand` finds it in a line of at most 255 characters. -/
abbrev Word := { cs : List UInt8 // cs.length ≤ 255 ∧ 0 ∉ cs ∧ 32 ∉ cs }

/-- The buffer in which `parseCommand` passes it. -/
def Word.buff (arg : Word) : StringBuff := StringBuff.ofChars arg.val

inductive RequestCommand
  | mkdir
  | rm
  | cat
  | cp
  | mv (dest : StringBuff)

namespace RequestCommand

/-- The command, with the argument that it copies. -/
def run (image : UInt32 → FAT32DriverRequest) (m : MvStack) (c : RequestCommand)
    (filename : StringBuff) : ShellM Unit :=
  match c with
  | mkdir => Shell.mkdir filename
  | rm => Shell.rm filename
  | cat => Shell.cat m filename
  | cp => Shell.cp m filename
  | mv dest => Shell.mv image m filename dest

/-- The command looks at the length of the argument. -/
def Checks : RequestCommand → Prop
  | mkdir | rm => True
  | cat | cp | mv _ => False

/-- The number of its system call. -/
def number : RequestCommand → UInt32
  | mkdir => 2
  | rm => 8
  | cat | cp | mv _ => 0

/-- The intended `buffer_size`. -/
def bufferSize : RequestCommand → UInt32
  | mkdir | rm => 0
  | cat | cp | mv _ => 10 * clusterSize

/-- `request.buf` -/
def buf (m : MvStack) : RequestCommand → Memory
  | mkdir | rm => fun _ => 0
  | cat | cp | mv _ => memoryOf m.bytes

/-- The request before the loop. -/
def blank (c : RequestCommand) (g : Globals) (m : MvStack) : FAT32DriverRequest :=
  blankRequest g (c.buf m) c.bufferSize

end RequestCommand

/-- The request asks for `arg` in the current directory. -/
structure AsAsked
    (g : Globals)
    (bufferSize : UInt32)
    (arg : Word)
    (request : FAT32DriverRequest) : Prop where
  name : List.ofFn request.name = arg.val ++ List.replicate (8 - arg.val.length) 0
  ext : ∀ k, request.ext k = 0
  parent : request.parentClusterNumber = g.currentDirCluster
  size : request.bufferSize = bufferSize

/-- The run refuses its argument: it comes to its end with no request, and nothing but
messages. -/
structure Refuses (o : Outcome ShellFault Session ShellEvent Unit) : Prop where
  ends : o.result = .ok ()
  requests : requestsOf o.trace = []
  messages : ∀ e, e ∈ o.trace → ∃ text color, e = ShellEvent.puts text color

/-- The run is one of `mv` and stops in the walk to the destination, before any request. -/
structure LostOnTheWay
    (image : UInt32 → FAT32DriverRequest)
    (c : RequestCommand)
    (s : Session)
    (o : Outcome ShellFault Session ShellEvent Unit) : Prop where
  walk : ∃ dest e, c = RequestCommand.mv dest ∧ (cdNoPrint image dest s).result = .error e ∧
    o.result = .error e
  requests : requestsOf o.trace = []

/-- The first request of the run is that of system call `eax` and has the property. -/
def Issues
    (o : Outcome ShellFault Session ShellEvent Unit)
    (eax : UInt32)
    (P : FAT32DriverRequest → Prop) : Prop :=
  ∃ request rest, requestsOf o.trace = (eax, request) :: rest ∧ P request

/-- The command refuses the argument or asks for it, if `mv` is not lost before, and where it gets
to its loop, this fills in the name and nothing else. -/
structure CarriesArgument
    (image : UInt32 → FAT32DriverRequest)
    (m : MvStack)
    (c : RequestCommand)
    (arg : Word)
    (s : Session) : Prop where
  request :
    Refuses (c.run image m arg.buff s) ∨ LostOnTheWay image c s (c.run image m arg.buff s) ∨
      Issues (c.run image m arg.buff s) c.number (AsAsked s.globals c.bufferSize arg)
  loop : (c.Checks → arg.val.length ≤ 8) →
    ∃ request, fillName arg.buff (c.blank s.globals m) = some request ∧
      AsAsked s.globals c.bufferSize arg request

section Requesting

variable {image : UInt32 → FAT32DriverRequest} {m : MvStack} {c : RequestCommand} {arg : Word}
  {s : Session} {filename : StringBuff} {request : FAT32DriverRequest}

theorem refuses_literal (t : String) (color : UInt32) (s : Session) :
    Refuses (puts (literal t) color s) := by
  rw [puts_literal]
  exact ⟨rfl, rfl, fun e he => ⟨_, _, List.mem_singleton.mp he⟩⟩

/-- A command that first changes the directory makes its request afterwards or gets stuck. -/
theorem requests_behind
    {α : Type}
    {eax : UInt32}
    {x : ShellM α}
    {f : α → ShellM Unit}
    (hx : Emits NotCall x)
    (hf : ∀ a s', ∃ rest, requestsOf (f a s').trace = (eax, request) :: rest)
    (s : Session) :
    (∃ e, (x s).result = .error e ∧ ((x >>= f) s).result = .error e ∧
        requestsOf ((x >>= f) s).trace = []) ∨
      ∃ rest, requestsOf ((x >>= f) s).trace = (eax, request) :: rest := by
  have hquiet : requestsOf (x s).trace = [] := requestsOf_eq_nil (hx s)
  rw [bind_apply]
  rcases hrun : x s with ⟨e | a, s', w⟩ <;> rw [hrun] at hquiet
  · exact Or.inl ⟨e, rfl, rfl, hquiet⟩
  · obtain ⟨rest, hrest⟩ := hf a s'
    refine Or.inr ⟨rest, ?_⟩
    rw [Outcome.prepend_trace, requestsOf_append, hrest]
    exact congrArg (· ++ _) hquiet

/-- `mv` has filled in its request before it looks at the destination. -/
theorem mv_requests
    (dest : StringBuff)
    (hfill : fillName filename
      (blankRequest s.globals (memoryOf m.bytes) (10 * clusterSize)) = some request) :
    Refuses (mv image m filename dest s) ∨
      LostOnTheWay image (RequestCommand.mv dest) s (mv image m filename dest s) ∨
      ∃ rest, requestsOf (mv image m filename dest s).trace = (0, request) :: rest := by
  rw [mv, getState_bind]
  dsimp only
  rw [hfill]
  dsimp only
  by_cases hlen : 8 < dest.len
  · rw [if_pos hlen]
    exact Or.inl (refuses_literal _ _ s)
  · rw [if_neg hlen]
    cases Fin.find? fun i => nameMatches s.globals.currentDir.table dest i with
    | none => exact Or.inl (refuses_literal _ _ s)
    | some i =>
        dsimp only
        by_cases hattr : (s.globals.currentDir.table i).attr = 0x10
        · rw [if_pos hattr]
          rcases requests_behind (cdNoPrint_requests image dest)
            (fun _ s' => requestsOf_call 0 read request _ s') s with
            ⟨e, hwalk, hresult, hquiet⟩ | hrest
          · exact Or.inr (Or.inl ⟨⟨dest, e, rfl, hwalk, hresult⟩, hquiet⟩)
          · exact Or.inr (Or.inr hrest)
        · rw [if_neg hattr]
          exact Or.inl (refuses_literal _ _ s)

/-- A command that gets through its loop makes the request that the loop has filled in. -/
theorem run_requests
    (hlen : c.Checks → ¬ 8 < filename.len)
    (hfill : fillName filename (c.blank s.globals m) = some request) :
    Refuses (c.run image m filename s) ∨ LostOnTheWay image c s (c.run image m filename s) ∨
      ∃ rest, requestsOf (c.run image m filename s).trace = (c.number, request) :: rest := by
  cases c with
  | mkdir =>
      have hblank : fillName filename (blankRequest s.globals (fun _ => 0) 0) = some request :=
        hfill
      refine Or.inr (Or.inr ?_)
      rw [RequestCommand.run, mkdir, getState_bind, if_neg (hlen trivial), hblank]
      exact requestsOf_call 2 write request _ s
  | rm =>
      have hblank : fillName filename (blankRequest s.globals (fun _ => 0) 0) = some request :=
        hfill
      refine Or.inr (Or.inr ?_)
      rw [RequestCommand.run, rm, getState_bind, if_neg (hlen trivial), hblank]
      exact requestsOf_call 8 delete request _ s
  | cat =>
      have hblank : fillName filename
          (blankRequest s.globals (memoryOf m.bytes) (10 * clusterSize)) = some request := hfill
      refine Or.inr (Or.inr ?_)
      rw [RequestCommand.run, cat, getState_bind, hblank]
      exact requestsOf_call 0 read request _ s
  | cp =>
      have hblank : fillName filename
          (blankRequest s.globals (memoryOf m.bytes) (10 * clusterSize)) = some request := hfill
      refine Or.inr (Or.inr ?_)
      rw [RequestCommand.run, cp, getState_bind, hblank]
      exact requestsOf_call 0 read request _ s
  | mv dest => exact mv_requests dest hfill

/-- The two that look at the length print a message and do nothing else. -/
theorem run_refuses
    (hchecks : c.Checks)
    (hlen : 8 < filename.len) :
    Refuses (c.run image m filename s) := by
  cases c with
  | mkdir =>
      rw [RequestCommand.run, mkdir, getState_bind, if_pos hlen]
      exact refuses_literal _ _ s
  | rm =>
      rw [RequestCommand.run, rm, getState_bind, if_pos hlen]
      exact refuses_literal _ _ s
  | cat | cp | mv dest => exact hchecks.elim

theorem long_buff :
    8 < arg.buff.len ↔ 8 < arg.val.length := by
  have h := arg.property.1
  rw [UInt32.lt_iff_toNat_lt, Word.buff, ofChars_len (by omega)]
  exact Iff.rfl

/-- A name of at most eight characters is filled in as it was typed. -/
theorem fillName_asAsked
    (hlen : arg.val.length ≤ 8) :
    ∃ request, fillName arg.buff (c.blank s.globals m) = some request ∧
      AsAsked s.globals c.bufferSize arg request :=
  ⟨_, fillName_short hlen _ _ _, ofFn_getD hlen, fun _ => rfl, rfl, rfl⟩

/-- A longer one is not. -/
theorem not_asAsked
    (hlen : 8 < arg.val.length)
    (hfill : fillName arg.buff (c.blank s.globals m) = some request) :
    ¬ AsAsked s.globals c.bufferSize arg request := by
  have hmax : arg.val.length ≤ 256 := Nat.le_succ_of_le arg.property.1
  intro h
  exact fillName_long hlen hmax arg.property.2.1 hfill (h.ext 0)

/-- `mkdir` and `rm` always ask for what the user asked for, and `cat`, `cp` and `mv` do
exactly if the argument has at most eight characters. -/
theorem carriesArgument_iff
    (image : UInt32 → FAT32DriverRequest)
    (m : MvStack)
    (c : RequestCommand)
    (arg : Word)
    (s : Session) :
    CarriesArgument image m c arg s ↔ c.Checks ∨ arg.val.length ≤ 8 := by
  constructor
  · intro h
    by_cases hchecks : c.Checks
    · exact Or.inl hchecks
    · refine Or.inr (Nat.le_of_not_lt fun hlen => ?_)
      obtain ⟨request, hfill, hasked⟩ := h.loop fun hc => absurd hc hchecks
      exact not_asAsked hlen hfill hasked
  · intro h
    by_cases hlen : arg.val.length ≤ 8
    · obtain ⟨request, hfill, hasked⟩ :=
        fillName_asAsked (c := c) (s := s) (m := m) hlen
      refine ⟨?_, fun _ => ⟨request, hfill, hasked⟩⟩
      have hshort : ¬ 8 < arg.buff.len :=
        fun hlong => absurd hlen (Nat.not_le.mpr (long_buff.mp hlong))
      rcases run_requests (fun _ => hshort) hfill with hrefuses | hlost | ⟨rest, hrest⟩
      · exact Or.inl hrefuses
      · exact Or.inr (Or.inl hlost)
      · exact Or.inr (Or.inr ⟨request, rest, hrest, hasked⟩)
    · have hchecks : c.Checks := h.resolve_right hlen
      have hlong : 8 < arg.buff.len := long_buff.mpr (Nat.lt_of_not_le hlen)
      exact ⟨Or.inl (run_refuses hchecks hlong), fun hc => absurd (hc hchecks) hlen⟩

end Requesting

/-! ## A name that reaches the parent cluster -/

/-- Fifteen characters. -/
def longWord : Word := ⟨List.replicate 15 97, by decide, by decide, by decide⟩

/-- `cat aaaaaaaaaaaaaaa` reads from cluster `0x61616161`. -/
theorem cat_redirected :
    Reached NewSystem WellScoped after folderSystem ∧ AtPrompt (atRoot folderSystem) ∧
      Issues (cat zeroStack longWord.buff (atRoot folderSystem)) 0
        (fun request => request.parentClusterNumber = 0x61616161) ∧
      ¬ CarriesArgument silentImage zeroStack RequestCommand.cat longWord
        (atRoot folderSystem) := by
  have hparent : (fillName longWord.buff
      (RequestCommand.cat.blank (atRoot folderSystem).globals zeroStack)).map
        FAT32DriverRequest.parentClusterNumber = some 0x61616161 := by decide +kernel
  obtain ⟨request, hfill, hparent⟩ := Option.map_eq_some_iff.mp hparent
  have hissues : Issues (cat zeroStack longWord.buff (atRoot folderSystem)) 0
      (fun request => request.parentClusterNumber = 0x61616161) := by
    have hblank : fillName longWord.buff (blankRequest (atRoot folderSystem).globals
        (memoryOf zeroStack.bytes) (10 * clusterSize)) = some request := hfill
    rw [cat, getState_bind, hblank]
    obtain ⟨rest, hrest⟩ := requestsOf_call 0 read request _ (atRoot folderSystem)
    exact ⟨request, rest, hrest, hparent⟩
  refine ⟨folderSystem_reached, atPrompt_atRoot _, hissues, fun h => ?_⟩
  obtain ⟨request', hfill', hasked⟩ := h.loop fun hc => hc.elim
  exact not_asAsked (by decide) hfill' hasked

end Shell
end OS2024
