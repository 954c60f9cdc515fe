import OS2024.Shell.Move

/-!
# Whether `mv` moves the file or changes nothing

`mv` examines the code of its `write` only.  When that fails it does not go back to the
directory it came from; when it succeeds the copy is what stands in the buffer up to the
first NUL, whatever `read` said, and the way back leads to the directory above the
destination unless that is the root.

**Results.**
* `movesOrKeeps_of_stays`, `movesOrKeeps_of_goes`: the runs that are right.
* `stays_or_goes`: every run that is right is one of these.
* `movesOrKeeps_iff`: when `mv` moves the file or changes nothing.
-/

namespace OS2024
namespace Shell

open Fat32 TracedState LinkedChain SlotTree Runs LittleEndian

/-- The shell waits for a command in a live directory, to which it came by live
directories. -/
structure AtPrompt (t : Session) : Prop where
  live : LiveDir t.fileSystem t.globals.currentDirCluster
  loaded : t.globals.currentDir.table = t.fileSystem.table t.globals.currentDirCluster
  shallow : t.globals.currentDir.bufferIndex.toNat < 255
  stack : ∀ c, c ∈ t.globals.parents → LiveDir t.fileSystem c

/-- The key of the file that is to be moved. -/
def fileKey (filename : Argument) : Key := (requestName filename.buff, fun _ => 0)

/-- After a report of success the file is in the destination, without one nothing has
changed; the shell is where it was. -/
structure MovedOrKept
    (t t' : Session)
    (filename dest : Argument)
    (w : List ShellEvent) : Prop where
  current : t'.globals.currentDirCluster = t.globals.currentDirCluster
  moved : movedMessage ∈ w → ∃ i j k bytes,
    FirstNamed t.globals.currentDir.table dest i ∧
      Relocation t.fileSystem t'.fileSystem t.globals.currentDirCluster
        (t.globals.currentDir.table i).cluster j k (fileKey filename) bytes
  kept : movedMessage ∉ w → t'.fileSystem = t.fileSystem

/-- **The property.**  `mv` comes to its end and moves the file or changes nothing. -/
def MovesOrKeeps
    (image : UInt32 → FAT32DriverRequest)
    (m : MvStack)
    (filename dest : Argument)
    (t : Session) : Prop :=
  ∃ t', Ends (mv image m filename.buff dest.buff) t () t' ∧
    MovedOrKept t t' filename dest (mv image m filename.buff dest.buff t).trace

/-- The parent's table has the key, no empty slot, or there are too few free clusters. -/
def Refused
    (s : FileSystem)
    (r : FAT32DriverRequest) : Prop :=
  ¬ NoMatch (s.parentTable r) r.key ∨ Full (s.parentTable r) ∨
    (freeClusters s.fatTable).length < (required r).toNat

/-- The destination is the current directory itself, and the copy is refused. -/
structure Stays
    (t : Session)
    (filename : Argument)
    (g : Globals)
    (bytes : List UInt8) : Prop where
  current : g.currentDirCluster = t.globals.currentDirCluster
  refused : Refused t.fileSystem (copyOf g filename bytes)

/-- The destination is the directory of the entry and not the root, the buffer holds the
file up to its first NUL, the copy is accepted, `retcode` shows its code, and `cd ..` leads
back: it does so from a directory below, and from the one above if the current directory is also
above that one on the stack.  The system call of `cd ..` delivers nothing. -/
structure Goes
    (image : UInt32 → FAT32DriverRequest)
    (m : MvStack)
    (t : Session)
    (filename dest : Argument)
    (i : Fin 64)
    (g : Globals)
    (bytes : List UInt8) : Prop where
  entered : g.currentDirCluster = (t.globals.currentDir.table i).cluster
  live : LiveDir t.fileSystem g.currentDirCluster
  notRoot : g.currentDirCluster ≠ rootClusterNumber
  source : ∃ j, FileAt t.fileSystem t.globals.currentDirCluster j (fileKey filename)
    (cString bytes)
  accepted : ¬ Refused t.fileSystem (copyOf g filename bytes)
  retcode : ∀ k, k ≠ 0 → m.retcode k = 0
  home : IsDotDot dest →
    t.globals.parents.dropLast.getLast? = some t.globals.currentDirCluster
  quiet : Quiet image (copied t g filename bytes).fileSystem t.globals.currentDirCluster

/-- No slot has the name of the destination, or the first one that has it is no directory,
or `mv` enters it and then stays or goes as above. -/
def GoodMv
    (image : UInt32 → FAT32DriverRequest)
    (m : MvStack)
    (filename dest : Argument)
    (t : Session) : Prop :=
  (∀ i, ¬ nameMatches t.globals.currentDir.table dest.buff i = true) ∨
    ∃ i, FirstNamed t.globals.currentDir.table dest i ∧
      ((t.globals.currentDir.table i).attr ≠ 0x10 ∨
        ∃ g bytes, Entered image t dest i g ∧ InBuffer t filename m bytes ∧ 0 ∈ bytes ∧
          (Stays t filename g bytes ∨ Goes image m t filename dest i g bytes))

/-! ## The copy -/

section Copies

variable {filename : Argument} {g : Globals} {bytes : List UInt8} {m : MvStack}

theorem copyOf_key
    (g : Globals)
    (filename : Argument)
    (bytes : List UInt8) :
    (copyOf g filename bytes).key = fileKey filename := by
  rw [fileKey, requestName_buff]
  rfl

/-- A copy depends on the length of the string and on the bytes. -/
theorem copyOf_congr
    {bytes' : List UInt8}
    (h : strLength bytes = strLength bytes') :
    copyOf g filename bytes =
      { copyOf g filename bytes' with buf := memoryOf bytes } := by
  rw [copyOf, copyRequest, h]
  rfl

/-- A request with the length of the C string in the buffer has the bytes up to the first
NUL. -/
theorem requestBytes_memoryOf
    {r : FAT32DriverRequest}
    (hbuf : r.buf = memoryOf bytes)
    (hsize : r.bufferSize = UInt32.ofNat (strLength bytes))
    (hlen : bytes.length < 2 ^ 32) :
    requestBytes r = cString bytes := by
  have hle : strLength bytes ≤ bytes.length := by
    rw [strLength_eq]
    exact (List.takeWhile_sublist _).length_le
  have hsize : r.bufferSize.toNat = strLength bytes := by
    rw [hsize]
    exact UInt32.toNat_ofNat_of_lt' (by rw [UInt32.size]; omega)
  have htake : cString bytes = bytes.take (strLength bytes) := by
    rw [strLength_eq]
    exact List.prefix_iff_eq_take.mp (List.takeWhile_prefix _)
  rw [requestBytes, hsize, htake, hbuf]
  refine List.ext_getElem (by simpa using hle) fun a h₁ h₂ => ?_
  rw [List.length_map, List.length_range] at h₁
  rw [List.getElem_map, List.getElem_range, List.getElem_take]
  exact List.getD_eq_getElem _ _ (by omega)

theorem requestBytes_copyOf
    (g : Globals)
    (filename : Argument)
    (hlen : bytes.length < 2 ^ 32) :
    requestBytes (copyOf g filename bytes) = cString bytes :=
  requestBytes_memoryOf rfl rfl hlen

theorem InBuffer.length
    {t : Session}
    (h : InBuffer t filename m bytes) :
    bytes.length < 2 ^ 32 := by
  obtain ⟨code, ds, -, rfl⟩ := h
  rw [MvStack.afterRead, List.length_map, List.length_range]
  exact m.bounded

/-- The buffer of `mv` has room for ten clusters. -/
theorem tooSmall_mvRequest_iff
    {t : Session}
    {i : Fin 64}
    (hmax : (t.fileSystem.table t.globals.currentDirCluster i).filesize.toNat ≤ 255 * 2048) :
    TooSmall t.fileSystem (mvRequest t.globals filename.buff m) i ↔
      10 * 2048 < (t.fileSystem.table t.globals.currentDirCluster i).filesize.toNat := by
  have hmax' : (t.fileSystem.parentTable (mvRequest t.globals filename.buff m) i).filesize.toNat ≤
      255 * 2048 := hmax
  have hbuffer : (10 * clusterSize).toNat / 2048 = 10 := by decide
  rw [tooSmall_iff (by omega),
    show (mvRequest t.globals filename.buff m).bufferSize = 10 * clusterSize from rfl, hbuffer,
    clusterCount]
  show _ ↔ 10 * 2048 <
    (t.fileSystem.parentTable (mvRequest t.globals filename.buff m) i).filesize.toNat
  omega

/-- A file of at most ten clusters is read whole. -/
theorem inBuffer_of_file
    {t : Session}
    {j : Fin 64}
    {cs : List UInt32}
    (hs : Sound t.fileSystem)
    (hf : FileAt t.fileSystem t.globals.currentDirCluster j (fileKey filename) bytes)
    (hcs : FatChain t.fileSystem
      (t.fileSystem.table t.globals.currentDirCluster j).cluster cs)
    (hlen : bytes.length ≤ 10 * 2048) :
    InBuffer t filename m (m.afterRead (deliveriesFrom 0 (cs.map t.fileSystem.data))) := by
  have hsize := hf.length
  have hlarge : ¬ TooSmall t.fileSystem (mvRequest t.globals filename.buff m) j := by
    rw [tooSmall_mvRequest_iff (by omega)]
    omega
  have hread := (read_file (r := mvRequest t.globals filename.buff m) hs hf.child hf.key hf.file
    hcs).2 hlarge
  exact ⟨0, _, hread, rfl⟩

end Copies

/-! ## Where the copy goes -/

section Places

variable {image : UInt32 → FAT32DriverRequest} {t : Session} {dest : Argument} {i : Fin 64}
  {g : Globals}

theorem AtPrompt.depth
    (h : AtPrompt t) :
    t.globals.parents.length = t.globals.currentDir.bufferIndex.toNat := by
  have hshallow := h.shallow
  rw [Globals.parents, List.length_take, List.length_ofFn, Nat.min_eq_left (by omega)]

/-- There is nothing to take off an empty stack. -/
theorem popParent_of_nil
    (hdepth : g.parents.length = g.currentDir.bufferIndex.toNat)
    (hnil : g.parents = []) :
    g.popParent = none := by
  rw [hnil, List.length_nil] at hdepth
  have hzero : g.currentDir.bufferIndex = 0 := UInt32.toNat_inj.mp hdepth.symm
  exact dif_neg (by rw [hzero]; decide)

/-- `cd ..` arrives in the directory on the top of the stack. -/
theorem arrives_popParent_iff
    {fs : FileSystem}
    {c : UInt32}
    (hdepth : g.parents.length = g.currentDir.bufferIndex.toNat) :
    (∃ g', Arrives image fs g.popParent g' ∧ g'.currentDirCluster = c) ↔
      g.parents.getLast? = some c ∧ Quiet image fs c := by
  rcases List.eq_nil_or_concat g.parents with hnil | ⟨l, p, hl⟩
  · constructor
    · rintro ⟨g', ⟨g₁, code, hsome, -⟩, -⟩
      rw [popParent_of_nil hdepth hnil] at hsome
      cases hsome
    · rintro ⟨hlast, -⟩
      rw [hnil] at hlast
      cases hlast
  · rw [List.concat_eq_append] at hl
    obtain ⟨g₁, hpop, hcur, -⟩ := popParent_parents hdepth hl
    rw [hpop, hl, List.getLast?_concat, Option.some_inj]
    constructor
    · rintro ⟨g', harrives, rfl⟩
      obtain ⟨g₂, code, hsome, hread, rfl⟩ := harrives
      cases hsome
      exact ⟨hcur.symm, code, hread⟩
    · rintro ⟨rfl, code, hread⟩
      exact ⟨g₁.withCode code, ⟨g₁, code, rfl, by rw [hcur]; exact hread, rfl⟩, hcur⟩

/-- What is on the stack in the destination. -/
theorem Entered.parents
    (h : AtPrompt t)
    (hg : Entered image t dest i g)
    (hroot : g.currentDirCluster ≠ rootClusterNumber) :
    g.parents.length = g.currentDir.bufferIndex.toNat ∧
      (IsDotDot dest → g.parents = t.globals.parents.dropLast) ∧
        (¬ IsDotDot dest → g.parents = t.globals.parents ++ [t.globals.currentDirCluster]) := by
  rcases hg with ⟨hup, ⟨hcur, rfl⟩ | ⟨-, harrives⟩⟩ | ⟨hup, harrives⟩
  · exact absurd hcur hroot
  · obtain ⟨g₁, code, hpop, -, rfl⟩ := harrives
    rcases List.eq_nil_or_concat t.globals.parents with hnil | ⟨l, p, hl⟩
    · rw [popParent_of_nil h.depth hnil] at hpop
      cases hpop
    · rw [List.concat_eq_append] at hl
      obtain ⟨g₂, hpop₂, -, hparents, hindex, -⟩ := popParent_parents h.depth hl
      obtain rfl := Option.some_inj.mp (hpop.symm.trans hpop₂)
      have hparents' : (g₁.withCode code).parents = l := hparents
      have hdepth := h.depth
      rw [hl, List.length_append, List.length_singleton] at hdepth
      refine ⟨?_, fun _ => by rw [hparents', hl, List.dropLast_concat], fun hno => absurd hup hno⟩
      rw [hparents']
      show l.length = g₁.currentDir.bufferIndex.toNat
      omega
  · obtain ⟨g₁, code, hpush, -, rfl⟩ := harrives
    obtain ⟨-, hparents, -, hindex, -⟩ := pushParent_parents hpush
    have hparents' : (g₁.withCode code).parents = t.globals.parents ++
        [t.globals.currentDirCluster] := hparents
    refine ⟨?_, fun hyes => absurd hyes hup, fun _ => hparents'⟩
    rw [hparents', List.length_append, List.length_singleton, h.depth]
    exact hindex.symm

/-- `cd ..` in the destination leads back to the current directory. -/
theorem Entered.back_iff
    {fs : FileSystem}
    (h : AtPrompt t)
    (hg : Entered image t dest i g)
    (hroot : g.currentDirCluster ≠ rootClusterNumber) :
    (∃ g', Arrives image fs g.popParent g' ∧
        g'.currentDirCluster = t.globals.currentDirCluster) ↔
      (IsDotDot dest →
        t.globals.parents.dropLast.getLast? = some t.globals.currentDirCluster) ∧
        Quiet image fs t.globals.currentDirCluster := by
  obtain ⟨hdepth, hup, hdown⟩ := hg.parents h hroot
  rw [arrives_popParent_iff hdepth]
  refine and_congr_left fun _ => ?_
  by_cases hdots : IsDotDot dest
  · rw [hup hdots]
    exact ⟨fun hlast _ => hlast, fun hlast => hlast hdots⟩
  · rw [hdown hdots, List.getLast?_concat]
    exact iff_of_true rfl fun hyes => absurd hyes hdots

/-- The top of the stack is a live directory. -/
theorem AtPrompt.popParent_live
    (h : AtPrompt t)
    {g₁ : Globals}
    (hpop : t.globals.popParent = some g₁) :
    LiveDir t.fileSystem g₁.currentDirCluster := by
  rcases List.eq_nil_or_concat t.globals.parents with hnil | ⟨l, p, hl⟩
  · rw [popParent_of_nil h.depth hnil] at hpop
    cases hpop
  · rw [List.concat_eq_append] at hl
    obtain ⟨g₂, hpop₂, hcur, -⟩ := popParent_parents h.depth hl
    obtain rfl := Option.some_inj.mp (hpop.symm.trans hpop₂)
    rw [hcur]
    exact h.stack p (by rw [hl]; exact List.mem_append_right _ (List.mem_singleton_self p))

/-- A slot with a name and the directory flag leads to a live directory, or is slot 0 of the
root. -/
theorem live_of_slot
    {s : FileSystem}
    {d : UInt32}
    (hs : Sound s)
    (hr : Recorded s)
    (hd : LiveDir s d)
    (hattr : (s.table d i).attr = 0x10) :
    LiveDir s (s.table d i).cluster ∨ (s.table d i).cluster = 0 := by
  by_cases hi : 2 ≤ i
  · obtain ⟨hchild, hdir⟩ := child_of_attr hs hd hi (by rw [hattr]; decide)
    exact Or.inl (hchild.liveDir hdir)
  · have hval : i.val = 0 ∨ i.val = 1 := by
      have : i.val < 2 := not_le.mp hi
      omega
    rcases hval with hval | hval
    · obtain rfl : i = 0 := Fin.ext hval
      by_cases hroot : d = rootClusterNumber
      · rw [hroot]
        exact Or.inr (root_self_cluster hr)
      · rw [hr.self d hd hroot]
        exact Or.inl hd
    · obtain rfl : i = 1 := Fin.ext hval
      exact Or.inl (hr.parentOf hd).liveDir

/-- `mv` enters a live directory or cluster 0. -/
theorem Entered.live
    (hs : Sound t.fileSystem)
    (hr : Recorded t.fileSystem)
    (h : AtPrompt t)
    (hattr : (t.globals.currentDir.table i).attr = 0x10)
    (hg : Entered image t dest i g) :
    LiveDir t.fileSystem g.currentDirCluster ∨ g.currentDirCluster = 0 := by
  rcases hg with ⟨-, ⟨-, rfl⟩ | ⟨-, g₁, code, hpop, -, rfl⟩⟩ | ⟨-, g₁, code, hpush, -, rfl⟩
  · exact Or.inl h.live
  · have hlive := h.popParent_live hpop
    exact Or.inl hlive
  · have hlive := live_of_slot hs hr h.live (i := i) (by rw [← h.loaded]; exact hattr)
    rw [← h.loaded, ← (pushParent_parents hpush).1] at hlive
    exact hlive

/-- After a way in slot 0 has a name. -/
theorem Entered.named
    (hr : Recorded t.fileSystem)
    (h : AtPrompt t)
    (hg : Entered image t dest i g) :
    (g.currentDir.table 0).name 0 ≠ 0 := by
  rcases hg with ⟨-, ⟨hroot, rfl⟩ | ⟨-, harrives⟩⟩ | ⟨-, harrives⟩
  · rw [h.loaded, hroot, hr.root 0 (by decide)]
    decide
  · exact harrives.named
  · exact harrives.named

end Places

/-! ## What the second `write` does -/

section Writes

variable {s : FileSystem} {r : FAT32DriverRequest} {code : Int8}

theorem not_full_of_firstEmpty
    {t : FAT32DirectoryTable}
    {k : Fin 64}
    (hk : FirstEmpty t k) :
    ¬ Full t := by
  intro hfull
  exact hk.2.1 (hfull k hk.1)

/-- A refused `write` changes nothing. -/
theorem write_of_refused
    (hs : Sound s)
    (hp : LiveDir s r.parentClusterNumber)
    (h : Refused s r) :
    ∃ code, code ≠ 0 ∧ (write r s).result = .ok code ∧ (write r s).state = s := by
  cases write_cases hs hp with
  | taken _ run => exact ⟨1, by decide, by rw [run], by rw [run]⟩
  | full _ _ run => exact ⟨-1, by decide, by rw [run], by rw [run]⟩
  | noSpace _ _ _ _ run => exact ⟨-1, by decide, by rw [run], by rw [run]⟩
  | emptySlotBuf k hm hk hreq run =>
      rcases h with h | h | h
      · exact absurd hm h
      · exact absurd h (not_full_of_firstEmpty hk)
      · rw [hreq] at h
        exact absurd h (Nat.not_lt_zero _)
  | done k c rest s' w hbuf hfree run inserted =>
      rcases h with h | h | h
      · exact absurd inserted.noMatch h
      · exact absurd h (not_full_of_firstEmpty inserted.slot)
      · exact absurd hfree (Nat.not_le.mpr h)

/-- What a `write` into a live directory or cluster 0 did. -/
inductive Written (s : FileSystem) (r : FAT32DriverRequest) (code : Int8) : Prop
  | refused (hcode : code ≠ 0) (state : (write r s).state = s)
      (why : LiveDir s r.parentClusterNumber → Refused s r)
  | inserted (hcode : code = 0) (live : LiveDir s r.parentClusterNumber)
      (accepted : ¬ Refused s r) (k : Fin 64) (c : UInt32) (rest : List UInt32)
      (hlen : (c :: rest).length = (required r).toNat)
      (inserted : Inserted s (write r s).state r.parentClusterNumber k (newEntry r c)
        (c :: rest) (newBlocks s r c (c :: rest).length))

theorem written_of_ok
    (hs : Sound s)
    (hp : LiveDir s r.parentClusterNumber ∨ r.parentClusterNumber = 0)
    (hw : (write r s).result = .ok code) :
    Written s r code := by
  rcases hp with hp | hzero
  · cases write_cases hs hp with
    | taken hm run =>
        rw [run] at hw
        cases hw
        exact Written.refused (by decide) (by rw [run]) fun _ => Or.inl hm
    | full _ hfull run =>
        rw [run] at hw
        cases hw
        exact Written.refused (by decide) (by rw [run]) fun _ => Or.inr (Or.inl hfull)
    | noSpace _ _ _ hfree run =>
        rw [run] at hw
        cases hw
        exact Written.refused (by decide) (by rw [run]) fun _ => Or.inr (Or.inr hfree)
    | emptySlotBuf _ _ _ _ run =>
        rw [run] at hw
        cases hw
    | done k c rest s' w hbuf hfree run inserted =>
        have hstate : (write r s).state = s' := by rw [run]
        rw [run] at hw
        cases hw
        refine Written.inserted rfl hp ?_ k c rest (length_slotBuf_eq hbuf hfree)
          (by rw [hstate]; exact inserted)
        rintro (h | h | h)
        · exact h inserted.noMatch
        · exact not_full_of_firstEmpty inserted.slot h
        · exact absurd hfree (Nat.not_le.mpr h)
  · have hlive : ¬ LiveDir s r.parentClusterNumber := by
      intro hlive
      have hlow := (hs.liveDir_bounds hlive).1
      rw [hzero] at hlow
      exact absurd hlow (by decide)
    have hfat : s.fat r.parentClusterNumber ≠ fat32FatEndOfFile := by
      rw [hzero, hs.fat_zero]
      decide
    have run := write_badParent (s := s) (by rw [hzero]; decide) hfat
    rw [run] at hw
    cases hw
    exact Written.refused (by decide) (by rw [run]) fun h => absurd h hlive

end Writes

/-- An accepted `write` of some data goes through. -/
theorem write_of_accepted
    {s : FileSystem}
    {r : FAT32DriverRequest}
    (hs : Sound s)
    (hp : LiveDir s r.parentClusterNumber)
    (haccepted : ¬ Refused s r)
    (hpos : 0 < r.bufferSize.toNat)
    (hsmall : r.bufferSize.toNat ≤ 255 * 2048) :
    (write r s).result = .ok 0 := by
  cases write_cases hs hp with
  | taken hm _ => exact absurd (Or.inl hm) haccepted
  | full _ hfull _ => exact absurd (Or.inr (Or.inl hfull)) haccepted
  | noSpace _ _ _ hfree _ => exact absurd (Or.inr (Or.inr hfree)) haccepted
  | emptySlotBuf _ _ _ hreq _ =>
      have hcount := required_of_small hsmall (not_isFolder hpos)
      rw [hreq, UInt8.toNat_zero, clusterCount] at hcount
      omega
  | done _ _ _ _ _ _ _ run _ => rw [run]

/-- The original is deleted where it stands. -/
theorem delete_original
    {s : FileSystem}
    {filename : Argument}
    {g : Globals}
    {j : Fin 64}
    {bytes : List UInt8}
    (hs : Sound s)
    (h : FileAt s g.currentDirCluster j (fileKey filename) bytes) :
    ∃ ds, (delete (rmRequest g filename.buff) s).result = .ok 0 ∧
      Removed s (delete (rmRequest g filename.buff) s).state g.currentDirCluster j ds := by
  obtain ⟨ds, s', w, hrun, hrem⟩ :=
    delete_child (r := rmRequest g filename.buff) hs h.child (h.firstMatch hs)
      fun hdir => absurd hdir h.file
  refine ⟨ds, by rw [hrun], ?_⟩
  rw [hrun]
  exact hrem

/-! ## The runs -/

section Runs

variable {image : UInt32 → FAT32DriverRequest} {m : MvStack} {filename dest : Argument}
  {t t' : Session} {i : Fin 64} {g : Globals} {bytes : List UInt8}

theorem movesOrKeeps_of_still
    (h : ∃ w, (∀ e, e ∈ w → e ≠ movedMessage) ∧
      mv image m filename.buff dest.buff t = ⟨.ok (), t, w⟩) :
    MovesOrKeeps image m filename dest t := by
  obtain ⟨w, hw, hrun⟩ := h
  refine ⟨t, Ends.of_apply hrun, rfl, fun hmem => ?_, fun _ => rfl⟩
  rw [hrun] at hmem
  exact absurd rfl (hw _ hmem)

/-- A copy that is not reported would be a change. -/
theorem word32_of_inserted
    {retcode : Fin 4 → UInt8}
    {k : Fin 64}
    {e : FAT32DirectoryEntry}
    {cs : List UInt32}
    {blocks : List ClusterBuffer}
    (hs : Sound t.fileSystem)
    (hins : Inserted t.fileSystem (copied t g filename bytes).fileSystem g.currentDirCluster k e
      cs blocks)
    (hswitch : Ends (switchRetcode image filename.buff retcode) (copied t g filename bytes) () t')
    (hkept : movedMessage ∉
        (switchRetcode image filename.buff retcode (copied t g filename bytes)).trace →
      t'.fileSystem = t.fileSystem) :
    word32 retcode = 0 := by
  by_contra hret
  obtain ⟨hother, hsilent⟩ := switchRetcode_other image filename (copied t g filename bytes) hret
  obtain ⟨-, rfl⟩ := hswitch.unique hother
  have hnew := hins.child_new hs
  rw [hkept hsilent] at hnew
  exact hins.child_ne_slot hnew ⟨rfl, rfl⟩

/-- The directory that takes the copy is not the one that has the file. -/
theorem ne_of_inserted
    {s' : FileSystem}
    {j k : Fin 64}
    {c : UInt32}
    {cs : List UInt32}
    {blocks : List ClusterBuffer}
    {bytes' : List UInt8}
    (hs : Sound t.fileSystem)
    (hins : Inserted t.fileSystem s' g.currentDirCluster k (newEntry (copyOf g filename bytes) c)
      cs blocks)
    (hsource : FileAt t.fileSystem t.globals.currentDirCluster j (fileKey filename) bytes') :
    g.currentDirCluster ≠ t.globals.currentDirCluster := by
  intro he
  have hno : NoMatch (t.fileSystem.table g.currentDirCluster) (fileKey filename) := by
    rw [← copyOf_key g filename bytes]
    exact hins.noMatch
  rw [he] at hno
  exact hno j (hsource.firstMatch hs).1

section Directory

variable (hs : Sound t.fileSystem) (hat : AtPrompt t)
  (hi : FirstNamed t.globals.currentDir.table dest i)
  (hattr : (t.globals.currentDir.table i).attr = 0x10)
include hs hat hi hattr

/-- A copy into the current directory that is refused. -/
theorem movesOrKeeps_of_stays
    (hg : Entered image t dest i g)
    (hbytes : InBuffer t filename m bytes)
    (hzero : 0 ∈ bytes)
    (h : Stays t filename g bytes) :
    MovesOrKeeps image m filename dest t := by
  have hlive : LiveDir t.fileSystem (copyOf g filename bytes).parentClusterNumber := by
    show LiveDir t.fileSystem g.currentDirCluster
    rw [h.current]
    exact hat.live
  obtain ⟨code, hcode, hwrite, hstate⟩ := write_of_refused hs hlive h.refused
  have hret : word32 (storeCode m.retcode code) ≠ 0 :=
    fun he => hcode (retcode_eq_zero_iff.mp he).1
  obtain ⟨hends, hsilent⟩ :=
    switchRetcode_other image filename (copied t g filename bytes) hret
  refine ⟨copied t g filename bytes,
    (mv_ends_iff hi hattr).mpr ⟨g, bytes, code, hg, hbytes, hzero, hwrite, hends⟩,
    h.current, fun hmem => ?_, fun _ => hstate⟩
  exact absurd ((mv_reports_iff hi hattr hg hbytes hzero hwrite).mp hmem) hsilent

/-- A copy of the whole file into another directory than the root. -/
theorem movesOrKeeps_of_goes
    (hr : Recorded t.fileSystem)
    (hz : FileSizes t.fileSystem)
    (hg : Entered image t dest i g)
    (hbytes : InBuffer t filename m bytes)
    (hzero : 0 ∈ bytes)
    (h : Goes image m t filename dest i g bytes) :
    MovesOrKeeps image m filename dest t := by
  obtain ⟨j, hsource⟩ := h.source
  have hcontent := requestBytes_copyOf g filename hbytes.length
  have hsize := hsource.length
  rw [← hcontent, requestBytes, List.length_map, List.length_range] at hsize
  obtain ⟨hpos, hsmall⟩ := hz _ j hsource.child hsource.file
  have hwrite := write_of_accepted hs h.live h.accepted (by omega) (by omega)
  cases written_of_ok hs (Or.inl h.live) hwrite with
  | refused hcode _ _ => exact absurd rfl hcode
  | inserted _ _ _ k c rest hlen hins =>
      obtain ⟨g', harrives, hcur⟩ := (hg.back_iff hat h.notRoot).mpr ⟨h.home, h.quiet⟩
      have hkept := hins.kept hs hsource.child
      have horiginal : FileAt (copied t g filename bytes).fileSystem g'.currentDirCluster j
          (fileKey filename) (cString bytes) := by
        rw [hcur]
        exact hsource.of_kept hkept
      obtain ⟨ds, hdelete, hrem⟩ := delete_original (hins.sound hs) horiginal
      rw [hcur] at hrem
      have hret := retcode_eq_zero_iff.mpr ⟨rfl, h.retcode⟩
      have hback : GoneUp image (copied t g filename bytes) g' := Or.inr ⟨h.notRoot, harrives⟩
      refine ⟨_, (mv_ends_iff hi hattr).mpr ⟨g, bytes, 0, hg, hbytes, hzero, hwrite,
        (switchRetcode_moved_iff hret (hg.named hr hat)).mpr ⟨g', 0, hback, hdelete, rfl⟩⟩,
        hcur, fun _ => ⟨i, j, k, cString bytes, hi, ?_⟩, fun hno => ?_⟩
      · rw [← copyOf_key g filename bytes, ← hcontent] at hsource
        have hreloc := relocation_of_copy hs hz hins hlen hrem hsource
        rw [hcontent, copyOf_key] at hreloc
        rw [← h.entered]
        exact hreloc
      · exact absurd ((mv_reports_iff hi hattr hg hbytes hzero hwrite).mpr
          (switchRetcode_reports hret)) hno

/-- A run that moves the file or changes nothing is one of these. -/
theorem stays_or_goes
    (hr : Recorded t.fileSystem)
    (hz : FileSizes t.fileSystem)
    (h : MovesOrKeeps image m filename dest t) :
    ∃ g bytes, Entered image t dest i g ∧ InBuffer t filename m bytes ∧ 0 ∈ bytes ∧
      (Stays t filename g bytes ∨ Goes image m t filename dest i g bytes) := by
  obtain ⟨t', hends, hright⟩ := h
  obtain ⟨g, bytes, code, hg, hbytes, hzero, hwrite, hswitch⟩ := (mv_ends_iff hi hattr).mp hends
  have hreports := mv_reports_iff hi hattr hg hbytes hzero hwrite
  refine ⟨g, bytes, hg, hbytes, hzero, ?_⟩
  cases written_of_ok hs (hg.live hs hr hat hattr) hwrite with
  | refused hcode hstate why =>
      -- nothing is reported, and the shell stays in the destination
      have hret : word32 (storeCode m.retcode code) ≠ 0 :=
        fun he => hcode (retcode_eq_zero_iff.mp he).1
      obtain ⟨-, rfl⟩ := hswitch.unique (switchRetcode_other image filename _ hret).1
      have hcur : g.currentDirCluster = t.globals.currentDirCluster := hright.current
      refine Or.inl ⟨hcur, why ?_⟩
      show LiveDir t.fileSystem g.currentDirCluster
      rw [hcur]
      exact hat.live
  | inserted hcode hlive haccepted k c rest hlen hins =>
      subst hcode
      have hret := word32_of_inserted hs hins hswitch fun hno =>
        hright.kept fun hmem => hno (hreports.mp hmem)
      obtain ⟨i', j, k', bytes', hi', hreloc⟩ :=
        hright.moved (hreports.mpr (switchRetcode_reports hret))
      obtain rfl := hi.unique hi'
      obtain ⟨g', code', hback, hdelete, rfl⟩ :=
        (switchRetcode_moved_iff hret (hg.named hr hat)).mp hswitch
      have hcur : g'.currentDirCluster = t.globals.currentDirCluster := hright.current
      -- the original is still there when it is deleted
      have horiginal : FileAt (copied t g filename bytes).fileSystem g'.currentDirCluster j
          (fileKey filename) bytes' := by
        rw [hcur]
        exact hreloc.source.of_kept (hins.kept hs hreloc.source.child)
      obtain ⟨ds, -, hrem⟩ := delete_original (hins.sound hs) horiginal
      rw [hcur] at hrem
      obtain ⟨hentered, rfl⟩ := hreloc.copy hs hz hins hlen hrem hreloc.source.child
      rw [requestBytes_copyOf g filename hbytes.length] at hreloc
      have hne := ne_of_inserted hs hins hreloc.source
      have hup := hback.resolve_left fun hroot => hne (by rw [← hcur, hroot.2])
      obtain ⟨hhome, hquiet⟩ := (hg.back_iff hat hup.1).mp ⟨g', hup.2, hcur⟩
      exact Or.inr ⟨hentered.symm, hlive, hup.1, ⟨j, hreloc.source⟩, haccepted,
        (retcode_eq_zero_iff.mp hret).2, hhome, hquiet⟩

end Directory

end Runs

/-- **After any well-scoped calls and with any stack, `mv` moves the file or changes nothing
exactly in the cases of `GoodMv`.** -/
theorem movesOrKeeps_iff
    {t : Session}
    (h : Reached NewSystem WellScoped after t.fileSystem)
    (hat : AtPrompt t)
    (image : UInt32 → FAT32DriverRequest)
    (m : MvStack)
    (filename dest : Argument) :
    MovesOrKeeps image m filename dest t ↔ GoodMv image m filename dest t := by
  have hs := wellScopedRun_sound h
  have hr := safeRun_recorded (h.mono fun _ _ _ hc => hc.1.safe)
  have hz := wellScopedRun_filesize h
  constructor
  · intro hright
    cases hf : Fin.find? fun j => nameMatches t.globals.currentDir.table dest.buff j with
    | none => exact Or.inl (find_nameMatches_eq_none.mp hf)
    | some i =>
        have hi := find_nameMatches_eq_some.mp hf
        by_cases hattr : (t.globals.currentDir.table i).attr = 0x10
        · exact Or.inr ⟨i, hi, Or.inr (stays_or_goes hs hat hi hattr hr hz hright)⟩
        · exact Or.inr ⟨i, hi, Or.inl hattr⟩
  · rintro (hno | ⟨i, hi, hcase⟩)
    · exact movesOrKeeps_of_still (mv_noMatch hno)
    by_cases hattr : (t.globals.currentDir.table i).attr = 0x10
    · obtain ⟨g, bytes, hg, hbytes, hzero, hstay | hgo⟩ := hcase.resolve_left (not_not.mpr hattr)
      · exact movesOrKeeps_of_stays hs hat hi hattr hg hbytes hzero hstay
      · exact movesOrKeeps_of_goes hs hat hi hattr hr hz hg hbytes hzero hgo
    · exact movesOrKeeps_of_still (mv_notDir hi hattr)

/-! ## A folder and a file -/

/-- A stack of zeros. -/
def zeroStack : MvStack where
  bytes := List.replicate (10 * 2048) 0
  retcode := fun _ => 0
  room := by rw [List.length_replicate]
  bounded := by
    rw [List.length_replicate]
    decide

/-- The shell in the root. -/
def atRoot (s : FileSystem) : Session :=
  ⟨s, ⟨rootClusterNumber, ⟨s.table rootClusterNumber, fun _ => 0, 0⟩, fun _ _ => 0⟩⟩

theorem atRoot_fileSystem (s : FileSystem) : (atRoot s).fileSystem = s := rfl

theorem atPrompt_atRoot (s : FileSystem) : AtPrompt (atRoot s) where
  live := liveDir_root s
  loaded := rfl
  shallow := Nat.succ_pos 254
  stack := fun _ hc => absurd hc List.not_mem_nil

/-- A file of the root is read whole. -/
theorem inBuffer_atRoot
    {s : FileSystem}
    {filename : Argument}
    {m : MvStack}
    {j : Fin 64}
    {bytes : List UInt8}
    {cs : List UInt32}
    (hs : Sound s)
    (hf : FileAt s rootClusterNumber j (fileKey filename) bytes)
    (hcs : FatChain s (s.table rootClusterNumber j).cluster cs)
    (hlen : bytes.length ≤ 10 * 2048) :
    InBuffer (atRoot s) filename m (m.afterRead (deliveriesFrom 0 (cs.map s.data))) :=
  inBuffer_of_file (t := atRoot s) hs hf hcs hlen

/-- The name of the folder. -/
def folderName : Argument := argument ['a'] (by decide)

/-- The name of the file. -/
def letterName : Argument := argument ['b'] (by decide)

/-- Three letters for the root. -/
def letterRequest : FAT32DriverRequest :=
  { requestFor ['b'] 2 3 with buf := fun a => if a < 3 then 120 else 0 }

/-- A folder in cluster 3 and a file of three letters in cluster 4. -/
def letterSystem : FileSystem := after folderSystem (Call.write letterRequest)

theorem letterSystem_reached : Reached NewSystem WellScoped after letterSystem :=
  Reached.step folderSystem_reached (wellScoped_write (liveDir_root _) (by decide))

theorem letterSystem_chain :
    FatChain letterSystem (letterSystem.table 2 3).cluster [4] := by
  have hcluster : (letterSystem.table 2 3).cluster = 4 := by decide +kernel
  have hend : letterSystem.fat 4 = fat32FatEndOfFile := by decide +kernel
  rw [hcluster]
  refine Linked.cons (by decide) ?_
  rw [hend]
  exact Linked.nil

theorem letterSystem_file :
    FileAt letterSystem 2 3 (fileKey letterName) [120, 120, 120] where
  child := ⟨liveDir_root _, by decide, by unfold FAT32DirectoryEntry.Live; decide +kernel⟩
  file := by
    unfold FAT32DirectoryEntry.IsDir
    decide +kernel
  key := by decide +kernel
  content := ⟨[4], letterSystem_chain, by decide +kernel⟩

/-- The bytes in `buf` after the file was read. -/
def letterBytes (m : MvStack) : List UInt8 :=
  m.afterRead (deliveriesFrom 0 ([4].map letterSystem.data))

theorem cString_letterBytes : cString (letterBytes zeroStack) = [120, 120, 120] := by
  -- the string ends long before the range does, so that the range is taken lazily
  rw [letterBytes, MvStack.afterRead, List.range_eq_range']
  decide +kernel

theorem letterBytes_inBuffer (m : MvStack) :
    InBuffer (atRoot letterSystem) letterName m (letterBytes m) :=
  inBuffer_atRoot (wellScopedRun_sound letterSystem_reached) letterSystem_file
    letterSystem_chain (by rw [List.length_cons]; simp)

theorem length_letterBytes (m : MvStack) : 10 * 2048 ≤ (letterBytes m).length := by
  rw [letterBytes, MvStack.afterRead, List.length_map, List.length_range]
  exact m.room

/-- There is a NUL above the letters. -/
theorem zero_mem_letterBytes : 0 ∈ letterBytes zeroStack := by
  by_contra hzero
  have hself : cString (letterBytes zeroStack) = letterBytes zeroStack :=
    cString_eq_self.mpr hzero
  have hlength := length_letterBytes zeroStack
  rw [← hself, cString_letterBytes] at hlength
  exact absurd hlength (by decide)

/-- The shell in the folder. -/
def letterEntered : Globals :=
  (((atRoot letterSystem).globals.pushParent 3).get (by decide +kernel)).withCode 2

/-- The copy in the folder, its length being known. -/
def letterCopy : FAT32DriverRequest :=
  { copyOf letterEntered letterName [120, 120, 120] with
    buf := memoryOf (letterBytes zeroStack) }

theorem copyOf_letterBytes :
    copyOf letterEntered letterName (letterBytes zeroStack) = letterCopy :=
  copyOf_congr (by rw [strLength_eq, strLength_eq, cString_letterBytes]; decide)

theorem goodMv_letter :
    GoodMv silentImage zeroStack letterName folderName (atRoot letterSystem) := by
  have hfirst : FirstNamed (atRoot letterSystem).globals.currentDir.table folderName 2 := by
    unfold FirstNamed
    decide +kernel
  have hcluster : (letterSystem.table 2 2).cluster = 3 := by decide +kernel
  have hentered : Entered silentImage (atRoot letterSystem) folderName 2 letterEntered := by
    refine Or.inr ⟨by decide, _, 2, ?_, by decide +kernel, rfl⟩
    rw [Option.some_get]
    exact congrArg _ hcluster
  have hedge : letterSystem.edge 2 2 = some 3 := by decide +kernel
  have hcur : letterEntered.currentDirCluster = 3 := by decide +kernel
  have hlive : LiveDir letterSystem letterEntered.currentDirCluster := by
    rw [hcur]
    exact Reach.child (liveDir_root _) hedge
  have hwrite : (write letterCopy letterSystem).result = .ok 0 := by decide +kernel
  have haccepted : ¬ Refused letterSystem letterCopy := by
    cases written_of_ok (wellScopedRun_sound letterSystem_reached) (Or.inl hlive) hwrite with
    | refused hcode _ _ => exact absurd rfl hcode
    | inserted _ _ accepted _ _ _ _ _ => exact accepted
  have hsource :
      FileAt letterSystem 2 3 (fileKey letterName) (cString (letterBytes zeroStack)) := by
    rw [cString_letterBytes]
    exact letterSystem_file
  have hcopied :
      (copied (atRoot letterSystem) letterEntered letterName (letterBytes zeroStack)).fileSystem =
        (write letterCopy letterSystem).state := by
    rw [copied, copyOf_letterBytes, atRoot_fileSystem]
  have hquiet : Quiet silentImage
      (copied (atRoot letterSystem) letterEntered letterName (letterBytes zeroStack)).fileSystem
      2 := by
    rw [hcopied]
    decide +kernel
  refine Or.inr ⟨2, hfirst, Or.inr ⟨letterEntered, letterBytes zeroStack, hentered,
    letterBytes_inBuffer zeroStack, zero_mem_letterBytes, Or.inr ?_⟩⟩
  exact
    { entered := hcur.trans hcluster.symm
      live := by rw [atRoot_fileSystem]; exact hlive
      notRoot := by rw [hcur]; decide
      source := ⟨3, by rw [atRoot_fileSystem]; exact hsource⟩
      accepted := by rw [atRoot_fileSystem, copyOf_letterBytes]; exact haccepted
      retcode := fun _ _ => rfl
      home := fun hup => absurd hup (by decide)
      quiet := hquiet }

theorem movesOrKeeps_letter :
    MovesOrKeeps silentImage zeroStack letterName folderName (atRoot letterSystem) := by
  have hreached : Reached NewSystem WellScoped after (atRoot letterSystem).fileSystem := by
    rw [atRoot_fileSystem]
    exact letterSystem_reached
  exact (movesOrKeeps_iff hreached (atPrompt_atRoot _) silentImage zeroStack letterName
    folderName).mpr goodMv_letter

/-! ## A folder moved into itself -/

/-- A run that leaves the current directory is not right. -/
theorem not_movesOrKeeps
    {image : UInt32 → FAT32DriverRequest}
    {m : MvStack}
    {filename dest : Argument}
    {t : Session}
    {c : UInt32}
    (hcur : (mv image m filename.buff dest.buff t).state.globals.currentDirCluster = c)
    (hc : c ≠ t.globals.currentDirCluster) :
    ¬ MovesOrKeeps image m filename dest t := by
  rintro ⟨t', hends, hright⟩
  obtain rfl := hends.2
  exact hc (hcur.symm.trans hright.current)

/-- `mv a a` leaves the shell in the folder. -/
theorem mv_into_itself :
    Reached NewSystem WellScoped after folderSystem ∧ AtPrompt (atRoot folderSystem) ∧
      (mv silentImage zeroStack folderName.buff folderName.buff
        (atRoot folderSystem)).state.globals.currentDirCluster = 3 ∧
      ¬ MovesOrKeeps silentImage zeroStack folderName folderName (atRoot folderSystem) := by
  have hcur : (mv silentImage zeroStack folderName.buff folderName.buff
      (atRoot folderSystem)).state.globals.currentDirCluster = 3 := by decide +kernel
  exact ⟨folderSystem_reached, atPrompt_atRoot _, hcur, not_movesOrKeeps hcur (by decide)⟩

end Shell
end OS2024
