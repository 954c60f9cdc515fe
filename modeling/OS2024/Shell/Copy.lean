import OS2024.Fat32.Buffers
import OS2024.Fat32.Contents
import OS2024.Shell.FileCommands

/-!
# Whether `cp` copies the file

`cp` reads into a buffer on the stack and writes a file `copy` with the C string that stands
there afterwards.  The length of the string is not the size of the file, and the code of the
read is overwritten by that of the write before it is looked at.

**Results.**
* `afterRead_deliveriesFrom`: what stands on the stack after a read.
* `cp_ends_iff`: how `cp` ends.
* `copiesFaithfully_iff`: when `cp` copies a file that can be read, and does nothing else.
-/

namespace OS2024
namespace Shell

open Fat32 Stdlib TracedState LinkedChain Runs

/-! ## The stack after a read -/

section Stack

variable {m : MvStack} {blocks : List ClusterBuffer} {content l : List UInt8}

theorem length_flatMap_bytesOf (blocks : List ClusterBuffer) :
    (blocks.flatMap bytesOf).length = 2048 * blocks.length := by
  induction blocks with
  | nil => rfl
  | cons b blocks ih =>
      rw [List.flatMap_cons, List.length_append, ih, bytesOf, List.length_ofFn, List.length_cons]
      omega

/-- The clusters of a chain lie one behind the other in the buffer. -/
theorem deliver_deliveriesFrom
    (mem : Memory)
    (j a : Nat)
    (blocks : List ClusterBuffer) :
    deliver mem (deliveriesFrom j blocks) (j * 2048 + a) =
      (blocks.flatMap bytesOf).getD a (mem (j * 2048 + a)) := by
  induction blocks generalizing mem j a with
  | nil => rfl
  | cons b blocks ih =>
      rw [deliveriesFrom, deliver_cons, List.flatMap_cons]
      by_cases ha : a < 2048
      · have hbytes : a < (bytesOf b).length := by rwa [bytesOf, List.length_ofFn]
        have hin : j * 2048 ≤ j * 2048 + a ∧ j * 2048 + a < j * 2048 + 2048 := by omega
        have hindex : j * 2048 + a - j * 2048 = a := Nat.add_sub_cancel_left _ _
        rw [deliver_deliveriesFrom_of_lt _ _ _ (by omega), List.getD_append _ _ _ _ hbytes,
          List.getD_eq_getElem _ _ hbytes, storeDelivery, dif_pos hin]
        simp only [bytesOf, List.getElem_ofFn, hindex]
      · have hsum : j * 2048 + a = (j + 1) * 2048 + (a - 2048) := by omega
        have hbytes : (bytesOf b).length ≤ a := by
          rw [bytesOf, List.length_ofFn]
          omega
        have hbehind : storeDelivery mem (j * 2048, b) (j * 2048 + a) = mem (j * 2048 + a) :=
          dif_neg (by dsimp only; omega)
        rw [List.getD_append_right _ _ _ _ hbytes, hsum, ih, ← hsum, hbehind, bytesOf,
          List.length_ofFn]

/-- The stack with some clusters laid over the first bytes of `buf`. -/
def MvStack.under (m : MvStack) (blocks : List ClusterBuffer) : List UInt8 :=
  blocks.flatMap bytesOf ++ m.bytes.drop (2048 * blocks.length)

theorem afterRead_deliveriesFrom
    (h : 2048 * blocks.length ≤ m.bytes.length) :
    m.afterRead (deliveriesFrom 0 blocks) = m.under blocks := by
  have hlen := length_flatMap_bytesOf blocks
  refine List.ext_getElem (by simp [MvStack.afterRead, MvStack.under, hlen]; omega)
    fun a h₁ h₂ => ?_
  rw [MvStack.afterRead, List.length_map, List.length_range] at h₁
  have hdeliver := deliver_deliveriesFrom (memoryOf m.bytes) 0 a blocks
  rw [Nat.zero_mul, Nat.zero_add] at hdeliver
  simp only [MvStack.afterRead, MvStack.under, List.getElem_map, List.getElem_range, hdeliver]
  by_cases ha : a < 2048 * blocks.length
  · rw [List.getElem_append_left (by omega), List.getD_eq_getElem _ _ (by omega)]
  · rw [List.getElem_append_right (by omega), List.getD_eq_default _ _ (by omega),
      List.getElem_drop, memoryOf, List.getD_eq_getElem _ _ h₁]
    congr 1
    omega

theorem afterRead_nil (m : MvStack) : m.afterRead [] = m.bytes := by
  have h : m.afterRead (deliveriesFrom 0 []) = m.under [] :=
    afterRead_deliveriesFrom (Nat.zero_le _)
  simpa [MvStack.under, deliveriesFrom] using h

/-- The content of a file is the beginning of its clusters. -/
theorem chainBytes_eq_take
    {s : FileSystem}
    {cs : List UInt32}
    {n : Nat}
    (h : n ≤ 2048 * cs.length) :
    chainBytes s cs n = ((cs.map s.data).flatMap bytesOf).take n := by
  have hlen := length_flatMap_bytesOf (cs.map s.data)
  rw [List.length_map] at hlen
  refine List.ext_getElem (by simp [chainBytes, hlen]; omega) fun a h₁ h₂ => ?_
  rw [chainBytes, List.length_map, List.length_range] at h₁
  have hdeliver := deliver_deliveriesFrom (fun _ => 0) 0 a (cs.map s.data)
  rw [Nat.zero_mul, Nat.zero_add] at hdeliver
  have ha : a < ((cs.map s.data).flatMap bytesOf).length := by omega
  rw [List.getElem_take, ← List.getD_eq_getElem _ 0 ha, ← hdeliver]
  simp only [chainBytes, List.getElem_map, List.getElem_range]

/-- A string begins the bytes exactly if it has no NUL and one follows. -/
theorem cString_append_iff
    {rest : List UInt8} :
    cString (content ++ rest) = content ∧ 0 ∈ content ++ rest ↔
      0 ∉ content ∧ rest.head? = some 0 := by
  constructor
  · rintro ⟨hself, hzero⟩
    have hno : 0 ∉ content := by
      intro hmem
      rw [← hself] at hmem
      exact absurd (List.mem_takeWhile_imp hmem) (by decide)
    refine ⟨hno, ?_⟩
    cases rest with
    | nil => exact absurd hzero (by simpa using hno)
    | cons c rest =>
        by_cases hc : c = 0
        · rw [hc]
          rfl
        · have hall : ∀ x, x ∈ content → x ≠ 0 := fun x hx he => hno (he ▸ hx)
          have hlength := congrArg List.length hself
          rw [cString, List.takeWhile_append_of_pos (by simpa using hall)] at hlength
          simp [hc] at hlength
  · rintro ⟨hno, hhead⟩
    obtain ⟨rest', rfl⟩ := List.head?_eq_some_iff.mp hhead
    have hall : ∀ x, x ∈ content → x ≠ 0 := fun x hx he => hno (he ▸ hx)
    rw [cString, List.takeWhile_append_of_pos (by simpa using hall)]
    simp

theorem cString_eq_iff
    (h : content <+: l) :
    cString l = content ∧ 0 ∈ l ↔ 0 ∉ content ∧ l[content.length]? = some 0 := by
  obtain ⟨rest, rfl⟩ := h
  have hbehind : (content ++ rest)[content.length]? = rest.head? := by
    rw [List.getElem?_append_right (Nat.le_refl _), Nat.sub_self, List.head?_eq_getElem?]
  rw [hbehind]
  exact cString_append_iff

end Stack

/-! ## How `cp` ends -/

section Ending

variable {m : MvStack} {filename : Argument} {t t' : Session} {bytes : List UInt8}

theorem putsAll_ends
    {color : UInt32}
    {bufs : List (List UInt8)}
    (h : ∀ buf, buf ∈ bufs → 0 ∈ buf)
    (t : Session) :
    Ends (putsAll color bufs) t () t := by
  induction bufs with
  | nil => exact Ends.pure () t
  | cons buf bufs ih =>
      have hbuf := Ends.of_apply (puts_apply (h buf List.mem_cons_self) color t)
      exact hbuf.bind (ih fun buf' hmem => h buf' (List.mem_cons_of_mem buf hmem))

/-- A message about the argument. -/
theorem putsAll_about_ends (color : UInt32) (before behind : String) (t : Session) :
    Ends (putsAll color [literal before, List.ofFn filename.buff.buf, literal behind]) t () t := by
  refine putsAll_ends (fun buf hmem => ?_) t
  simp only [List.mem_cons, List.not_mem_nil, or_false] at hmem
  rcases hmem with rfl | rfl | rfl
  · exact zero_mem_literal _
  · exact zero_mem_buff filename
  · exact zero_mem_literal _

/-- The messages of `cat` and `cp` leave the session alone. -/
theorem reportFile_ends
    (hzero : 0 ∈ bytes)
    (code : Int8)
    (t : Session) :
    Ends (reportFile filename.buff bytes code) t () t := by
  have hnewline := Ends.of_apply (puts_literal "\n" 0x7 t)
  rw [reportFile]
  refine Ends.bind (show Ends _ t () t from ?_) hnewline
  split_ifs
  · exact Ends.of_apply (puts_apply hzero 0x2 t)
  · exact putsAll_about_ends 0xC _ _ t
  · exact putsAll_about_ends 0xC _ _ t
  · exact Ends.pure () t

/-- The session after the copy was written. -/
abbrev stored (t : Session) (bytes : List UInt8) : Session :=
  { t with fileSystem := (write (cpRequest t.globals bytes) t.fileSystem).state }

theorem storeCopy_ends_iff :
    Ends (storeCopy filename.buff bytes) t () t' ↔
      0 ∈ bytes ∧ ∃ code, (write (cpRequest t.globals bytes) t.fileSystem).result = .ok code ∧
        t' = stored t bytes := by
  rw [storeCopy]
  by_cases hzero : 0 ∈ bytes
  · rw [if_pos hzero, Ends, getState_bind, ← Ends]
    constructor
    · intro h
      obtain ⟨code, t₁, hwrite, h⟩ := Ends.of_bind h
      obtain ⟨hcode, rfl⟩ := syscallRequest_ends_iff.mp hwrite
      exact ⟨hzero, code, hcode, (h.unique (reportFile_ends hzero code _)).2⟩
    · rintro ⟨-, code, hcode, rfl⟩
      exact (syscallRequest_ends_iff.mpr ⟨hcode, rfl⟩).bind (reportFile_ends hzero code _)
  · rw [if_neg hzero]
    constructor
    · intro h
      exact absurd h (Faults.not_ends ⟨ShellFault.unterminated, rfl⟩)
    · exact fun h => absurd h.1 hzero

/-- `cp` comes to its end if the read does, the bytes have a NUL and the write ends. -/
theorem cp_ends_iff :
    Ends (cp m filename.buff) t () t' ↔
      ∃ bytes code, InBuffer t filename m bytes ∧ 0 ∈ bytes ∧
        (write (cpRequest t.globals bytes) t.fileSystem).result = .ok code ∧
        t' = stored t bytes := by
  rw [cp, Ends, getState_bind, fillName_mv, ← Ends]
  constructor
  · intro h
    obtain ⟨⟨code, ds⟩, t₁, hlift, hstore⟩ := Ends.of_bind h
    obtain ⟨hread, rfl⟩ := syscallRequest_read_ends_iff.mp hlift
    obtain ⟨hzero, code', hcode, rfl⟩ := storeCopy_ends_iff.mp hstore
    exact ⟨_, code', ⟨code, ds, hread, rfl⟩, hzero, hcode, rfl⟩
  · rintro ⟨_, code', ⟨code, ds, hread, rfl⟩, hzero, hcode, rfl⟩
    refine Ends.bind (a := (code, ds)) (syscallRequest_read_ends_iff.mpr ⟨hread, rfl⟩) ?_
    exact storeCopy_ends_iff.mpr ⟨hzero, code', hcode, rfl⟩

end Ending

/-! ## The property and the runs that have it -/

/-- `copy`, without an extension. -/
def copyKey : Key :=
  (fun k => (['c', 'o', 'p', 'y'].map byteOfChar).getD k 0, fun _ => 0)

/-- The name denotes a file of at most ten clusters in slot `j` of the current directory. -/
structure Denotes
    (t : Session)
    (filename : Argument)
    (j : Fin 64)
    (content : List UInt8) : Prop where
  file : FileAt t.fileSystem t.globals.currentDirCluster j (fileKey filename) content
  small : content.length ≤ 10 * 2048

/-- There is an empty slot, and there are clusters for another file of this size. -/
structure HasRoom
    (t : Session)
    (j : Fin 64) : Prop where
  slot : ¬ Full (t.fileSystem.table t.globals.currentDirCluster)
  clusters : clusterCount (t.fileSystem.table t.globals.currentDirCluster j).filesize ≤
    (freeClusters t.fileSystem.fatTable).length

/-- **The property.**  `cp` copies what it can read if there is room, and if it cannot read
anything it comes to its end and nothing has changed. -/
structure CopiesFaithfully
    (m : MvStack)
    (filename : Argument)
    (t : Session) : Prop where
  copies : ∀ j content, Denotes t filename j content → HasRoom t j →
    ∃ t', Ends (cp m filename.buff) t () t' ∧
      ∃ k, FileAt t'.fileSystem t.globals.currentDirCluster k copyKey content
  refuses : (¬ ∃ j content, Denotes t filename j content) →
    ∃ t', Ends (cp m filename.buff) t () t' ∧ t'.fileSystem = t.fileSystem

/-- The content has no NUL and one follows it, in its last cluster or on the stack, and no
record of the directory is called `copy`; a name that denotes nothing of the kind is not that
of an empty slot either, and the string that is on the stack anyway is refused. -/
structure GoodCp
    (m : MvStack)
    (filename : Argument)
    (t : Session) : Prop where
  copies : ∀ j content cs, Denotes t filename j content → HasRoom t j →
    FatChain t.fileSystem (t.fileSystem.table t.globals.currentDirCluster j).cluster cs →
    NoMatch (t.fileSystem.table t.globals.currentDirCluster) copyKey ∧ 0 ∉ content ∧
      (m.under (cs.map t.fileSystem.data))[content.length]? = some 0
  refuses : (¬ ∃ j content, Denotes t filename j content) →
    (∀ i, FirstMatch (t.fileSystem.table t.globals.currentDirCluster) (fileKey filename) i →
      (t.fileSystem.table t.globals.currentDirCluster i).Live) ∧
    0 ∈ m.bytes ∧ Refused t.fileSystem (cpRequest t.globals m.bytes)

/-! ## What is in the buffer -/

section Buffer

variable {m : MvStack} {filename : Argument} {t : Session} {bytes bytes' content : List UInt8}
  {j : Fin 64} {cs : List UInt32}

theorem InBuffer.unique
    (h : InBuffer t filename m bytes)
    (h' : InBuffer t filename m bytes') :
    bytes = bytes' := by
  obtain ⟨code, ds, hread, rfl⟩ := h
  obtain ⟨code', ds', hread', rfl⟩ := h'
  obtain ⟨-, rfl⟩ := Prod.mk.inj (Except.ok.inj (hread.symm.trans hread'))
  rfl

section File

variable (hs : Sound t.fileSystem) (hz : Sized t.fileSystem)
  (h : Denotes t filename j content)
  (hcs : FatChain t.fileSystem
    (t.fileSystem.table t.globals.currentDirCluster j).cluster cs)
include hz h hcs

theorem Denotes.length_chain :
    content.length ≤ 2048 * cs.length ∧ 2048 * cs.length ≤ 10 * 2048 := by
  have hlength := hz _ j cs h.file.child h.file.file hcs
  have hsize := h.file.length
  have hsmall := h.small
  rw [hlength, clusterCount]
  omega

/-- The buffer begins with the content. -/
theorem Denotes.prefix_under : content <+: m.under (cs.map t.fileSystem.data) := by
  obtain ⟨cs', hcs', hcontent⟩ := h.file.content
  obtain rfl := hcs.unique hcs'
  have hsize := h.file.length
  have hlength := (h.length_chain hz hcs).1
  rw [← hcontent, chainBytes_eq_take (by omega)]
  exact (List.take_prefix _ _).trans (List.prefix_append _ _)

include hs

theorem Denotes.inBuffer :
    InBuffer t filename m (m.under (cs.map t.fileSystem.data)) := by
  have hlength := (h.length_chain hz hcs).2
  have hroom := m.room
  rw [← afterRead_deliveriesFrom (by rw [List.length_map]; omega)]
  exact inBuffer_of_file hs h.file hcs h.small

end File

/-- A read that fails leaves the stack as it was. -/
theorem inBuffer_of_failed
    (hs : Sound t.fileSystem)
    (hz : FileSizes t.fileSystem)
    (hlive : LiveDir t.fileSystem t.globals.currentDirCluster)
    (hno : ¬ ∃ j content, Denotes t filename j content)
    (hslot : ∀ i, FirstMatch (t.fileSystem.table t.globals.currentDirCluster)
      (fileKey filename) i → (t.fileSystem.table t.globals.currentDirCluster i).Live) :
    InBuffer t filename m m.bytes := by
  have hok : ParentOk t.fileSystem (mvRequest t.globals filename.buff m) := hs.parentOk hlive
  have hfailed : ∃ code, (read (mvRequest t.globals filename.buff m) t.fileSystem).result =
      .ok (code, []) := by
    rcases firstMatch_or_noMatch (t.fileSystem.table t.globals.currentDirCluster)
      (fileKey filename) with ⟨i, hi⟩ | hnone
    · by_cases hdir : (t.fileSystem.table t.globals.currentDirCluster i).IsDir
      · exact ⟨1, by rw [read_dir hok hi hdir]⟩
      · have ht := hs.table _ hlive
        have hchild : Child t.fileSystem t.globals.currentDirCluster i :=
          ⟨hlive, ht.two_le_of_not_isDir hdir, hslot i hi⟩
        obtain ⟨-, cs, hcs, -⟩ := hs.chain _ i hchild
        obtain ⟨content, hfile⟩ : ∃ content, FileAt t.fileSystem t.globals.currentDirCluster i
            (fileKey filename) content := ⟨_, hchild, hdir, hi.1, cs, hcs, rfl⟩
        have hlarge : 10 * 2048 < content.length :=
          Nat.lt_of_not_le fun hsmall => hno ⟨i, content, hfile, hsmall⟩
        rw [hfile.length] at hlarge
        have htoo : TooSmall t.fileSystem (mvRequest t.globals filename.buff m) i :=
          (tooSmall_mvRequest_iff (hz _ i hchild hdir).2).mpr hlarge
        exact ⟨-1, by rw [read_tooSmall hok hi hdir htoo]⟩
    · exact ⟨2, by rw [read_notFound hok hnone]⟩
  obtain ⟨code, hread⟩ := hfailed
  exact ⟨code, [], hread, (afterRead_nil m).symm⟩

/-- A read that comes to its end has not followed an empty slot. -/
theorem InBuffer.live_of_firstMatch
    (hs : Sound t.fileSystem)
    (hlive : LiveDir t.fileSystem t.globals.currentDirCluster)
    (h : InBuffer t filename m bytes)
    {i : Fin 64}
    (hi : FirstMatch (t.fileSystem.table t.globals.currentDirCluster) (fileKey filename) i) :
    (t.fileSystem.table t.globals.currentDirCluster i).Live := by
  by_contra hdead
  obtain ⟨code, ds, hread, -⟩ := h
  rw [read_empty_slot (r := mvRequest t.globals filename.buff m) hs hlive hi hdead] at hread
  cases hread

end Buffer

/-! ## The copy that is written -/

section Storing

variable {m : MvStack} {filename : Argument} {t : Session} {bytes content : List UInt8}
  {j k : Fin 64} {cs : List UInt32}

/-- The copy has the bytes of the string. -/
theorem requestBytes_cpRequest
    (g : Globals)
    (hlen : bytes.length < 2 ^ 32) :
    requestBytes (cpRequest g bytes) = cString bytes :=
  requestBytes_memoryOf rfl rfl hlen

theorem size_cpRequest
    (g : Globals)
    (hlen : bytes.length < 2 ^ 32) :
    (cpRequest g bytes).bufferSize.toNat = (cString bytes).length := by
  rw [← requestBytes_cpRequest g hlen, requestBytes, List.length_map, List.length_range]

variable (hs : Sound t.fileSystem)
  (hlive : LiveDir t.fileSystem t.globals.currentDirCluster)
include hs hlive

/-- If the string is the content of the file and there is room, the write copies it. -/
theorem stored_copy
    (hz : FileSizes t.fileSystem)
    (h : Denotes t filename j content)
    (hroom : HasRoom t j)
    (hno : NoMatch (t.fileSystem.table t.globals.currentDirCluster) copyKey)
    (hlen : bytes.length < 2 ^ 32)
    (hstring : cString bytes = content) :
    (write (cpRequest t.globals bytes) t.fileSystem).result = .ok 0 ∧
      ∃ k, FileAt (stored t bytes).fileSystem t.globals.currentDirCluster k copyKey content := by
  have hsize := size_cpRequest t.globals hlen
  rw [hstring, h.file.length] at hsize
  obtain ⟨hpos, hsmall⟩ := hz _ j h.file.child h.file.file
  have hrequired : (required (cpRequest t.globals bytes)).toNat =
      clusterCount (t.fileSystem.table t.globals.currentDirCluster j).filesize := by
    rw [required_of_small (by omega) (not_isFolder (by omega)), UInt32.toNat_inj.mp hsize]
  have haccepted : ¬ Refused t.fileSystem (cpRequest t.globals bytes) := by
    rintro (hmatch | hfull | hfree)
    · exact hmatch hno
    · exact hroom.slot hfull
    · rw [hrequired] at hfree
      exact absurd hroom.clusters (Nat.not_le.mpr hfree)
  have hwrite := write_of_accepted hs hlive haccepted (by omega) (by omega)
  refine ⟨hwrite, ?_⟩
  cases written_of_ok hs (Or.inl hlive) hwrite with
  | refused hcode _ _ => exact absurd rfl hcode
  | inserted _ _ _ k c rest hchain hins =>
      have hfile := hins.fileAt hs hchain (by omega) (by omega)
      have hbytes := requestBytes_cpRequest t.globals hlen
      rw [requestBytes, hstring] at hbytes
      rw [hbytes] at hfile
      exact ⟨k, hfile⟩

/-- Only a write of the content makes a copy of the file. -/
theorem cString_of_stored
    (hz : FileSizes t.fileSystem)
    (hcopy : ∀ i, Child t.fileSystem t.globals.currentDirCluster i →
      (t.fileSystem.table t.globals.currentDirCluster i).key ≠ copyKey)
    (h : Denotes t filename j content)
    (hlen : bytes.length < 2 ^ 32)
    {code : Int8}
    (hwrite : (write (cpRequest t.globals bytes) t.fileSystem).result = .ok code)
    (hstored : FileAt (stored t bytes).fileSystem t.globals.currentDirCluster k copyKey content) :
    NoMatch (t.fileSystem.table t.globals.currentDirCluster) copyKey ∧
      cString bytes = content := by
  obtain ⟨hpos, -⟩ := hz _ j h.file.child h.file.file
  have hlength := h.file.length
  have hmax := h.small
  cases written_of_ok hs (Or.inl hlive) hwrite with
  | refused _ hstate _ =>
      have hold : FileAt t.fileSystem t.globals.currentDirCluster k copyKey content := by
        rwa [show (stored t bytes).fileSystem = t.fileSystem from hstate] at hstored
      exact absurd hold.key (hcopy k hold.child)
  | inserted _ _ _ k' c rest hchain hins =>
      have hslot : k = k' := by
        rcases (hins.child_iff hs _ k).mp hstored.child with hold | ⟨-, hk⟩
        · have hkey := hstored.key
          rw [show (stored t bytes).fileSystem.table t.globals.currentDirCluster k = _ from
            hins.slot_child hs hold] at hkey
          exact absurd hkey (hcopy k hold)
        · exact hk
      subst hslot
      have hsize := hstored.length
      rw [show (stored t bytes).fileSystem.table t.globals.currentDirCluster k = _ from
        hins.slot_self] at hsize
      have hsize : content.length = (cpRequest t.globals bytes).bufferSize.toNat := hsize
      have hfile := hins.fileAt hs hchain (by omega) (by omega)
      refine ⟨hins.noMatch, ?_⟩
      rw [← requestBytes_cpRequest t.globals hlen]
      exact (hstored.unique hfile).symm

end Storing

/-! ## When `cp` is faithful -/

section Faithful

variable {m : MvStack} {filename : Argument} {t : Session} {content : List UInt8} {j : Fin 64}
  {cs : List UInt32}

variable (hs : Sound t.fileSystem) (hz : FileSizes t.fileSystem)
  (hlive : LiveDir t.fileSystem t.globals.currentDirCluster)
include hs hz hlive

/-- A file that can be read is copied if its content stands in the buffer as a string. -/
theorem copies_iff
    (hsized : Sized t.fileSystem)
    (hcopy : ∀ i, Child t.fileSystem t.globals.currentDirCluster i →
      (t.fileSystem.table t.globals.currentDirCluster i).key ≠ copyKey)
    (hfile : Denotes t filename j content)
    (hroom : HasRoom t j)
    (hcs : FatChain t.fileSystem
      (t.fileSystem.table t.globals.currentDirCluster j).cluster cs) :
    (∃ t', Ends (cp m filename.buff) t () t' ∧
      ∃ k, FileAt t'.fileSystem t.globals.currentDirCluster k copyKey content) ↔
    NoMatch (t.fileSystem.table t.globals.currentDirCluster) copyKey ∧ 0 ∉ content ∧
      (m.under (cs.map t.fileSystem.data))[content.length]? = some 0 := by
  have hbytes := hfile.inBuffer (m := m) hs hsized hcs
  rw [← cString_eq_iff (hfile.prefix_under hsized hcs)]
  constructor
  · rintro ⟨t', hends, k, hk⟩
    obtain ⟨bytes, code, hbytes', hzero, hwrite, rfl⟩ := cp_ends_iff.mp hends
    obtain rfl := hbytes'.unique hbytes
    obtain ⟨hno, hstring⟩ := cString_of_stored hs hlive hz hcopy hfile hbytes.length hwrite hk
    exact ⟨hno, hstring, hzero⟩
  · rintro ⟨hno, hstring, hzero⟩
    obtain ⟨hwrite, hk⟩ := stored_copy hs hlive hz hfile hroom hno hbytes.length hstring
    exact ⟨_, cp_ends_iff.mpr ⟨_, 0, hbytes, hzero, hwrite, rfl⟩, hk⟩

/-- If there is nothing to read, the write takes what is on the stack. -/
theorem refuses_iff
    (hno : ¬ ∃ j content, Denotes t filename j content) :
    (∃ t', Ends (cp m filename.buff) t () t' ∧ t'.fileSystem = t.fileSystem) ↔
    (∀ i, FirstMatch (t.fileSystem.table t.globals.currentDirCluster) (fileKey filename) i →
      (t.fileSystem.table t.globals.currentDirCluster i).Live) ∧
    0 ∈ m.bytes ∧ Refused t.fileSystem (cpRequest t.globals m.bytes) := by
  constructor
  · rintro ⟨t', hends, hstate⟩
    obtain ⟨bytes, code, hbytes, hzero, hwrite, rfl⟩ := cp_ends_iff.mp hends
    have hslot := fun i hi => hbytes.live_of_firstMatch hs hlive (i := i) hi
    obtain rfl := hbytes.unique (inBuffer_of_failed hs hz hlive hno hslot)
    refine ⟨hslot, hzero, ?_⟩
    cases written_of_ok hs (Or.inl hlive) hwrite with
    | refused _ _ why => exact why hlive
    | inserted _ _ _ k c rest _ hins =>
        have hnew := hins.child_new hs
        rw [show (write (cpRequest t.globals m.bytes) t.fileSystem).state = _ from hstate] at hnew
        exact absurd ⟨rfl, rfl⟩ (hins.child_ne_slot hnew)
  · rintro ⟨hslot, hzero, hrefused⟩
    have hbytes := inBuffer_of_failed (m := m) hs hz hlive hno hslot
    obtain ⟨code, -, hwrite, hstate⟩ := write_of_refused hs hlive hrefused
    exact ⟨_, cp_ends_iff.mpr ⟨_, code, hbytes, hzero, hwrite, rfl⟩, hstate⟩

end Faithful

/-- **When `cp` is faithful: after any well-scoped calls, in any live directory without a file
or folder `copy`, and with any stack.** -/
theorem copiesFaithfully_iff
    {t : Session}
    (h : Reached NewSystem WellScoped after t.fileSystem)
    (hlive : LiveDir t.fileSystem t.globals.currentDirCluster)
    (hcopy : ∀ i, Child t.fileSystem t.globals.currentDirCluster i →
      (t.fileSystem.table t.globals.currentDirCluster i).key ≠ copyKey)
    (m : MvStack)
    (filename : Argument) :
    CopiesFaithfully m filename t ↔ GoodCp m filename t := by
  have hs := wellScopedRun_sound h
  have hz := wellScopedRun_filesize h
  have hsized := wellScopedRun_sized h
  constructor
  · intro hright
    refine ⟨fun j content cs hfile hroom hcs => ?_, fun hno => ?_⟩
    · exact (copies_iff hs hz hlive hsized hcopy hfile hroom hcs).mp
        (hright.copies j content hfile hroom)
    · exact (refuses_iff hs hz hlive hno).mp (hright.refuses hno)
  · intro hgood
    refine ⟨fun j content hfile hroom => ?_, fun hno => ?_⟩
    · obtain ⟨cs, hcs, -⟩ := hfile.file.content
      exact (copies_iff hs hz hlive hsized hcopy hfile hroom hcs).mpr
        (hgood.copies j content cs hfile hroom hcs)
    · exact (refuses_iff hs hz hlive hno).mpr (hgood.refuses hno)

/-! ## A file that is copied, and one that is not there -/

section AtRoot

variable {s : FileSystem} {m : MvStack} {filename : Argument} {j : Fin 64}
  {content : List UInt8} {cs : List UInt32}

theorem noCopy_atRoot
    (h : NoMatch (s.table 2) copyKey)
    (i : Fin 64) :
    ((atRoot s).fileSystem.table (atRoot s).globals.currentDirCluster i).key ≠ copyKey :=
  h i

theorem not_denotes_atRoot
    (h : NoMatch (s.table 2) (fileKey filename)) :
    ¬ ∃ j content, Denotes (atRoot s) filename j content :=
  fun ⟨j, _, hfile⟩ => h j hfile.file.key

/-- A file of the root whose content stands in the buffer as a string. -/
theorem goodCp_atRoot
    (hreached : Reached NewSystem WellScoped after s)
    (hno : NoMatch (s.table 2) copyKey)
    (hf : FileAt s 2 j (fileKey filename) content)
    (hsmall : content.length ≤ 10 * 2048)
    (hcs : FatChain s (s.table 2 j).cluster cs)
    (hstring : cString (m.afterRead (deliveriesFrom 0 (cs.map s.data))) = content)
    (hzero : 0 ∈ m.afterRead (deliveriesFrom 0 (cs.map s.data))) :
    GoodCp m filename (atRoot s) := by
  have hs : Sound (atRoot s).fileSystem := wellScopedRun_sound hreached
  have hz : Sized (atRoot s).fileSystem := wellScopedRun_sized hreached
  have hdenotes : Denotes (atRoot s) filename j content := ⟨hf, hsmall⟩
  refine ⟨fun j' content' cs' h _ hcs' => ?_, fun hnone => absurd ⟨j, _, hdenotes⟩ hnone⟩
  obtain rfl := (h.file.firstMatch hs).unique (hdenotes.file.firstMatch hs)
  obtain rfl := h.file.unique hdenotes.file
  obtain rfl := hcs'.unique hcs
  have hbytes := (h.inBuffer hs hz hcs').unique (inBuffer_atRoot (m := m) hs hf hcs hsmall)
  refine ⟨hno, (cString_eq_iff (h.prefix_under hz hcs')).mp ?_⟩
  rw [hbytes]
  exact ⟨hstring, hzero⟩

end AtRoot

theorem letterSystem_noCopy : NoMatch (letterSystem.table 2) copyKey := by decide +kernel

/-- The letters are followed by zeros. -/
theorem goodCp_letter : GoodCp zeroStack letterName (atRoot letterSystem) :=
  goodCp_atRoot letterSystem_reached letterSystem_noCopy letterSystem_file (by decide)
    letterSystem_chain cString_letterBytes zero_mem_letterBytes

theorem copiesFaithfully_letter :
    CopiesFaithfully zeroStack letterName (atRoot letterSystem) := by
  have hreached : Reached NewSystem WellScoped after (atRoot letterSystem).fileSystem := by
    rw [atRoot_fileSystem]
    exact letterSystem_reached
  exact (copiesFaithfully_iff hreached (atPrompt_atRoot _).live
    (fun i _ => noCopy_atRoot letterSystem_noCopy i) zeroStack letterName).mpr goodCp_letter

/-- The name of no file. -/
def missingName : Argument := argument ['c'] (by decide)

/-- `cp` of a file that is not there makes a folder `copy`. -/
theorem cp_missing_file :
    Reached NewSystem WellScoped after letterSystem ∧ AtPrompt (atRoot letterSystem) ∧
      NoMatch (letterSystem.table 2) copyKey ∧
      NoMatch (letterSystem.table 2) (fileKey missingName) ∧
      ((cp zeroStack missingName.buff (atRoot letterSystem)).state.fileSystem.table 2 4).key =
        copyKey ∧
      ¬ CopiesFaithfully zeroStack missingName (atRoot letterSystem) := by
  have hmissing : NoMatch (letterSystem.table 2) (fileKey missingName) := by decide +kernel
  have hmade : ((cp zeroStack missingName.buff
      (atRoot letterSystem)).state.fileSystem.table 2 4).key = copyKey := by decide +kernel
  refine ⟨letterSystem_reached, atPrompt_atRoot _, letterSystem_noCopy, hmissing, hmade,
    fun h => ?_⟩
  obtain ⟨t', hends, hsame⟩ := h.refuses (not_denotes_atRoot hmissing)
  rw [hends.2, hsame, atRoot_fileSystem] at hmade
  exact letterSystem_noCopy 4 hmade

end Shell
end OS2024
