import OS2024.Fat32.Records
import OS2024.Shell.Commands

/-!
# Walking through the directories

The shell remembers the directory it is in and a stack of the directories above it.  `cd`
takes any slot with a fitting name and the directory flag for a way down, also the two
records: the record of the directory itself leads to where it is, or from the root to
cluster 0, and the record of its parent leads up, but each pushes on the stack.  At a depth
of 255 the prompt does not come to its end.

**Results.**
* `settled_cd`: what a `cd` other than these keeps.
* `not_onTree_of_bad`: after any of these the stack does not lead to the current directory.
* `navigates_iff`: the walks on which the stack is always right.
-/

namespace OS2024
namespace Shell

open Fat32 TracedState SlotTree Runs

/-- The clusters on the stack, from the bottom to the top. -/
def Globals.parents (g : Globals) : List UInt32 :=
  (List.ofFn g.currentDir.parentClusterNumber).take g.currentDir.bufferIndex.toNat

/-- The current directory is live, and the stack holds the directories above it. -/
structure OnTree
    (s : FileSystem)
    (g : Globals) : Prop where
  live : LiveDir s g.currentDirCluster
  path : Path s.edge rootClusterNumber g.currentDirCluster g.parents
  depth : g.parents.length = g.currentDir.bufferIndex.toNat
  root : g.currentDir.bufferIndex = 0 ↔ g.currentDirCluster = rootClusterNumber

/-- How a command ends, without its events. -/
def finish (x : ShellM Unit) (s : Session) : Except ShellFault Session :=
  (x s).result.map fun _ => (x s).state

/-- The first prompt. -/
def started (s : FileSystem) : Except ShellFault Session := finish start ⟨s, Globals.zero⟩

/-- One more `cd`. -/
def afterCd (image : UInt32 → FAT32DriverRequest) (r : Except ShellFault Session)
    (arg : Argument) : Except ShellFault Session := do
  finish (cdCommand image arg.buff) (← r)

/-- The session after a sequence of `cd`. -/
def walk (image : UInt32 → FAT32DriverRequest) (s : FileSystem) (args : List Argument) :
    Except ShellFault Session :=
  args.foldl (afterCd image) (started s)

/-- The argument is `..`. -/
def IsDotDot (arg : Argument) : Prop := cString arg.val = [46, 46]

instance (arg : Argument) : Decidable (IsDotDot arg) :=
  inferInstanceAs (Decidable (_ = _))

/-- **The property.**  All along the walk the shell knows where it is, and `cd ..` leads to
the directory above. -/
structure Navigates
    (image : UInt32 → FAT32DriverRequest)
    (s : FileSystem)
    (args : List Argument) : Prop where
  onTree : ∀ as, as <+: args → ∃ t, walk image s as = .ok t ∧ OnTree s t.globals
  up : ∀ as arg t t', as ++ [arg] <+: args → IsDotDot arg → walk image s as = .ok t →
    t.globals.currentDirCluster ≠ rootClusterNumber → walk image s (as ++ [arg]) = .ok t' →
    ParentOf s t'.globals.currentDirCluster t.globals.currentDirCluster

/-- `cd` takes slot `i` for the directory that is asked for. -/
def EntersAt
    (t : FAT32DirectoryTable)
    (arg : Argument)
    (i : Fin 64) : Prop :=
  (t i).name 0 ≠ 0 ∧ cString (List.ofFn (t i).name) = cString arg.val ∧ (t i).attr &&& 0x10 ≠ 0

instance (t : FAT32DirectoryTable) (arg : Argument) (i : Fin 64) :
    Decidable (EntersAt t arg i) :=
  inferInstanceAs (Decidable (_ ∧ _))

/-- The `cd` goes up, or down by a slot other than the two records to a depth below 255, or
nowhere, and the request it makes of a cluster number delivers nothing. -/
structure GoodCd
    (image : UInt32 → FAT32DriverRequest)
    (t : Session)
    (arg : Argument) : Prop where
  up : IsDotDot arg → ∀ p, p ∈ t.globals.parents.getLast? → Quiet image t.fileSystem p
  down : ¬ IsDotDot arg → ∀ i, EntersAt t.globals.currentDir.table arg i →
    (∀ j, j < i → ¬ EntersAt t.globals.currentDir.table arg j) →
    2 ≤ i ∧ t.globals.currentDir.bufferIndex.toNat < 254 ∧
      Quiet image t.fileSystem (t.globals.currentDir.table i).cluster

instance (image : UInt32 → FAT32DriverRequest) (t : Session) (arg : Argument) :
    Decidable (GoodCd image t arg) :=
  -- decided at the one `p` there can be, not over all clusters
  have : Decidable (∀ p, p ∈ t.globals.parents.getLast? → Quiet image t.fileSystem p) :=
    Option.decidableForallMem _
  decidable_of_iff
    ((IsDotDot arg → ∀ p, p ∈ t.globals.parents.getLast? → Quiet image t.fileSystem p) ∧
      (¬ IsDotDot arg → ∀ i, EntersAt t.globals.currentDir.table arg i →
        (∀ j, j < i → ¬ EntersAt t.globals.currentDir.table arg j) →
        2 ≤ i ∧ t.globals.currentDir.bufferIndex.toNat < 254 ∧
          Quiet image t.fileSystem (t.globals.currentDir.table i).cluster))
    ⟨fun h => ⟨h.1, h.2⟩, fun h => ⟨h.up, h.down⟩⟩

/-- The next `cd` of a walk is good. -/
def GoodStep (image : UInt32 → FAT32DriverRequest) :
    Except ShellFault Session → Argument → Prop
  | .ok t, arg => GoodCd image t arg
  | .error _, _ => True

instance (image : UInt32 → FAT32DriverRequest) (r : Except ShellFault Session)
    (arg : Argument) : Decidable (GoodStep image r arg) :=
  match r with
  | .ok t => inferInstanceAs (Decidable (GoodCd image t arg))
  | .error _ => isTrue trivial

/-! ## The stack -/

section Stack

variable {g g' : Globals} {c p : UInt32} {l : List UInt32}

theorem toNat_add_one
    {b : UInt32}
    (h : b.toNat < 256) :
    (b + 1).toNat = b.toNat + 1 := by
  have hone : (1 : UInt32).toNat = 1 := rfl
  rw [UInt32.toNat_add, hone]
  omega

theorem toNat_sub_one
    {b : UInt32}
    {n : Nat}
    (h : b.toNat = n + 1) :
    (b - 1).toNat = n := by
  have hle : (1 : UInt32) ≤ b := by
    rw [UInt32.le_iff_toNat_le, h]
    exact Nat.le_add_left 1 n
  rw [UInt32.toNat_sub_of_le b 1 hle, h]
  rfl

theorem pushParent_parents
    (h : g.pushParent c = some g') :
    g'.currentDirCluster = c ∧ g'.parents = g.parents ++ [g.currentDirCluster] ∧
      g.currentDir.bufferIndex.toNat < 256 ∧
      g'.currentDir.bufferIndex.toNat = g.currentDir.bufferIndex.toNat + 1 ∧
      g'.currentDir.table = g.currentDir.table ∧ g'.dirBuff = g.dirBuff := by
  simp only [Globals.pushParent] at h
  split_ifs at h with hlt
  rw [← Option.some_inj.mp h]
  refine ⟨rfl, ?_, hlt, toNat_add_one hlt, rfl, rfl⟩
  simp only [Globals.parents, toNat_add_one hlt]
  exact take_ofFn_update _ ⟨g.currentDir.bufferIndex.toNat, hlt⟩ _

theorem exists_pushParent
    (h : g.currentDir.bufferIndex.toNat < 256)
    (c : UInt32) :
    ∃ g', g.pushParent c = some g' := by
  simp only [Globals.pushParent, dif_pos h]
  exact ⟨_, rfl⟩

/-- The last of the first entries of a vector. -/
theorem take_ofFn_concat
    {α : Type}
    {n k : Nat}
    {f : Fin n → α}
    {l : List α}
    {a : α}
    (h : (List.ofFn f).take k = l ++ [a]) :
    (∃ hl : l.length < n, f ⟨l.length, hl⟩ = a) ∧ (List.ofFn f).take l.length = l := by
  have hlen := congrArg List.length h
  rw [List.length_take, List.length_ofFn, List.length_append, List.length_singleton] at hlen
  constructor
  · refine ⟨by omega, ?_⟩
    have hget : ((List.ofFn f).take k)[l.length]? = some a := by
      rw [h]
      simp
    rw [List.getElem?_take_of_lt (by omega), List.getElem?_ofFn, dif_pos (by omega)] at hget
    exact Option.some_inj.mp hget
  · have htake := congrArg (List.take l.length) h
    rwa [List.take_take, List.take_left, Nat.min_eq_left (by omega)] at htake

/-- The top of the stack is taken off. -/
theorem popParent_parents
    (hdepth : g.parents.length = g.currentDir.bufferIndex.toNat)
    (h : g.parents = l ++ [p]) :
    ∃ g', g.popParent = some g' ∧ g'.currentDirCluster = p ∧ g'.parents = l ∧
      g'.currentDir.bufferIndex.toNat + 1 = g.currentDir.bufferIndex.toNat ∧
      g'.currentDir.table = g.currentDir.table ∧ g'.dirBuff = g.dirBuff := by
  have hlen : g.currentDir.bufferIndex.toNat = l.length + 1 := by
    rw [← hdepth, h, List.length_append, List.length_singleton]
  have hsub := toNat_sub_one hlen
  obtain ⟨⟨hlt, hp⟩, hl⟩ := take_ofFn_concat h
  have hlt' : (g.currentDir.bufferIndex - 1).toNat < 256 := by rwa [hsub]
  have hi : (⟨(g.currentDir.bufferIndex - 1).toNat, hlt'⟩ : Fin 256) = ⟨l.length, hlt⟩ :=
    Fin.ext hsub
  refine ⟨_, dif_pos hlt', ?_, ?_, ?_, rfl, rfl⟩
  · rw [← hp, ← hi]
  · show (List.ofFn g.currentDir.parentClusterNumber).take _ = l
    rw [hsub]
    exact hl
  · rw [hsub, hlen]

end Stack

/-! ## Names -/

section Names

variable {arg : Argument} {t : FAT32DirectoryTable} {i : Fin 64}

theorem isDotDot_iff :
    isDotDot arg.buff = true ↔ IsDotDot arg := by
  rw [isDotDot, strCompare_iff, arg.cString_buff]
  rfl

theorem cString_fullname (e : FAT32DirectoryEntry) :
    cString (fullname e) = cString (List.ofFn e.name) :=
  cString_append_zeros (List.ofFn e.name) 1

theorem nameMatches_iff :
    nameMatches t arg.buff i = true ↔
      (t i).name 0 ≠ 0 ∧ cString (List.ofFn (t i).name) = cString arg.val := by
  rw [nameMatches, Bool.and_eq_true, strCompare_iff, arg.cString_buff, cString_fullname,
    bne_iff_ne]

theorem cdStops_of_dotDot
    (h : IsDotDot arg) :
    cdStops t arg.buff i = true ↔ (t i).name 0 ≠ 0 := by
  rw [cdStops, if_pos (isDotDot_iff.mpr h), bne_iff_ne]

theorem cdStops_iff
    (h : ¬ IsDotDot arg) :
    cdStops t arg.buff i = true ↔ EntersAt t arg i := by
  rw [cdStops, if_neg fun he => h (isDotDot_iff.mp he), Bool.and_eq_true, nameMatches_iff,
    bne_iff_ne, and_assoc, EntersAt]

theorem Argument.not_long (arg : Argument) : ¬ 8 < arg.buff.len := by
  rw [UInt32.lt_iff_toNat_lt]
  exact Nat.not_lt.mpr arg.len_buff

end Names

/-! ## One `cd` -/

/-- Where the shell is between a `cd` and its prompt. -/
structure Ready
    (s : FileSystem)
    (t : Session) : Prop where
  fileSystem : t.fileSystem = s
  onTree : OnTree s t.globals
  named : ∀ d, d ∈ t.globals.parents ++ [t.globals.currentDirCluster] →
    (s.table d 0).name 0 ≠ 0
  shallow : t.globals.currentDir.bufferIndex.toNat < 255
  lastZero : t.globals.LastZero

/-- Where the shell is when it waits for a command. -/
structure Settled
    (s : FileSystem)
    (t : Session) : Prop extends Ready s t where
  loaded : t.globals.currentDir.table = s.table t.globals.currentDirCluster

section Tree

variable {s : FileSystem} {d : UInt32} {l l' : List UInt32}

/-- A directory has one path from the root. -/
theorem path_unique
    (hs : Sound s)
    (h : Path s.edge rootClusterNumber d l)
    (h' : Path s.edge rootClusterNumber d l') :
    l = l' := by
  refine Path.unique ?_ ?_ h h'
  · intro p i hp he
    obtain ⟨hi, hl, -, hc⟩ := edge_eq_some_iff.mp he
    exact hs.cluster_ne_root ⟨hp, hi, hl⟩ hc
  · intro p p' i i' c hp hp' he he'
    obtain ⟨hi, hl, -, hc⟩ := edge_eq_some_iff.mp he
    obtain ⟨hi', hl', -, hc'⟩ := edge_eq_some_iff.mp he'
    exact (hs.only_parent ⟨hp, hi, hl⟩ ⟨hp', hi', hl'⟩ (hc.trans hc'.symm)).1

/-- A stack that leads to the current directory has the right depth at the root. -/
theorem OnTree.of_path
    (hs : Sound s)
    {g : Globals}
    (hpath : Path s.edge rootClusterNumber g.currentDirCluster g.parents)
    (hdepth : g.parents.length = g.currentDir.bufferIndex.toNat) :
    OnTree s g := by
  refine ⟨hpath.reach, hpath, hdepth, ?_⟩
  rw [← UInt32.toNat_inj, ← hdepth, UInt32.toNat_zero, List.length_eq_zero_iff]
  constructor
  · intro hnil
    rw [hnil] at hpath
    exact hpath.eq_root
  · intro hroot
    rw [hroot] at hpath
    exact path_unique hs hpath Path.root

theorem parentOf_of_edge
    {p : UInt32}
    {i : Fin 64}
    (hp : LiveDir s p)
    (he : s.edge p i = some d) :
    ParentOf s p d := by
  obtain ⟨hi, hl, hdir, hc⟩ := edge_eq_some_iff.mp he
  exact Or.inr ⟨i, ⟨hp, hi, hl⟩, hdir, hc⟩

/-- A slot with the directory flag, other than the two records, is a way down. -/
theorem child_of_attr
    (hs : Sound s)
    {i : Fin 64}
    (hd : LiveDir s d)
    (hi : 2 ≤ i)
    (hattr : (s.table d i).attr &&& 0x10 ≠ 0) :
    Child s d i ∧ (s.table d i).IsDir := by
  have hlive : (s.table d i).Live := by
    by_contra hdead
    rw [(hs.table d hd).dead i hi hdead] at hattr
    exact hattr rfl
  refine ⟨⟨hd, hi, hlive⟩, (hs.kind d i ⟨hd, hi, hlive⟩).resolve_right fun hz => ?_⟩
  rw [hz] at hattr
  exact hattr rfl

/-- A directory with a name is known under a name. -/
theorem named_child
    (hn : SelfNamed s)
    {i : Fin 64}
    (hd : Child s d i)
    (hdir : (s.table d i).IsDir)
    (hname : (s.table d i).name 0 ≠ 0) :
    (s.table (s.table d i).cluster 0).name 0 ≠ 0 := by
  rw [hn d i hd hdir, copyName, List.ofFn_succ, List.takeWhile_cons_of_pos (by simpa using hname)]
  exact hname

end Tree

section Step

variable {image : UInt32 → FAT32DriverRequest} {s : FileSystem} {t t' : Session}
  {arg : Argument}

/-- A code stored in `currentDir` changes nothing but its table. -/
theorem Ready.withCode
    {fs : FileSystem}
    {g : Globals}
    (h : Ready s ⟨fs, g⟩)
    (code : Int8) :
    Ready s ⟨fs, g.withCode code⟩ where
  fileSystem := h.fileSystem
  onTree := ⟨h.onTree.live, h.onTree.path, h.onTree.depth, h.onTree.root⟩
  named := h.named
  shallow := h.shallow
  lastZero := h.lastZero

theorem Ready.prompted
    (h : Ready s t) :
    Ends cetakPrompt t () t.prompted ∧ Settled s t.prompted := by
  refine ⟨cetakPrompt_ends h.shallow h.lastZero, ?_⟩
  have hready : Ready s t.prompted :=
    ⟨h.fileSystem, ⟨h.onTree.live, h.onTree.path, h.onTree.depth, h.onTree.root⟩, h.named,
      h.shallow, withPrompt_lastZero (g := t.loaded) h.lastZero h.shallow⟩
  refine ⟨hready, ?_⟩
  show t.fileSystem.table _ = s.table _
  rw [h.fileSystem]
  rfl

/-- Slot 0 of the current directory has a name. -/
theorem Settled.named_self
    (h : Settled s t) :
    (t.globals.currentDir.table 0).name 0 ≠ 0 := by
  rw [h.loaded]
  exact h.named _ (List.mem_append_right _ (List.mem_singleton_self _))

theorem Settled.stopsAt_zero
    (h : Settled s t)
    (hup : IsDotDot arg) :
    StopsAt t.globals.currentDir.table arg.buff 0 :=
  ⟨(cdStops_of_dotDot hup).mpr h.named_self, fun j hj => absurd hj (Fin.not_lt_zero j)⟩

/-- `cd ..` from the root. -/
theorem cd_root
    (h : Settled s t)
    (hup : IsDotDot arg)
    (hroot : t.globals.currentDirCluster = rootClusterNumber) :
    Ends (cd image arg.buff) t () t :=
  cdWith_root arg.not_long (h.stopsAt_zero hup) (isDotDot_iff.mpr hup) hroot

/-- `cd ..` from any other directory leads to the one above. -/
theorem cd_up
    (hs : Sound s)
    (h : Settled s t)
    (hup : IsDotDot arg)
    (hroot : t.globals.currentDirCluster ≠ rootClusterNumber)
    (hgood : GoodCd image t arg) :
    ∃ t', Ends (cd image arg.buff) t () t' ∧ Ready s t' ∧
      ParentOf s t'.globals.currentDirCluster t.globals.currentDirCluster := by
  obtain ⟨p, i, l, hl, hpath, hedge⟩ := h.onTree.path.above hroot
  have hquiet := hgood.up hup p (by simp [hl])
  obtain ⟨g, hpop, hcur, hparents, hindex, -, hbuff⟩ := popParent_parents h.onTree.depth hl
  obtain ⟨code, harrives⟩ := arrives_of_quiet (s := t) (g := g) (by rwa [hcur])
  have hrun : Ends (cd image arg.buff) t () { t with globals := g.withCode code } := by
    rw [Ends, cd, cdWith_up arg.not_long (h.stopsAt_zero hup) (isDotDot_iff.mpr hup) hroot, hpop]
    exact (moveTo_arrives harrives _).bind (say_ends true _ 0x2 _)
  have hdepth := h.onTree.depth
  rw [hl, List.length_append, List.length_singleton, ← hparents] at hdepth
  have hdepth' : g.parents.length = g.currentDir.bufferIndex.toNat := by omega
  have hready : Ready s { t with globals := g } := by
    refine ⟨h.fileSystem, OnTree.of_path hs ?_ hdepth', ?_, ?_, ?_⟩
    · rw [hcur, hparents]
      exact hpath
    · intro d hd
      rw [hcur, hparents, ← hl] at hd
      exact h.named d (List.mem_append_left _ hd)
    · have hshallow := h.shallow
      show g.currentDir.bufferIndex.toNat < 255
      omega
    · show g.LastZero
      rw [Globals.LastZero, hbuff]
      exact h.lastZero
  refine ⟨_, hrun, hready.withCode code, ?_⟩
  show ParentOf s g.currentDirCluster _
  rw [hcur]
  exact parentOf_of_edge hpath.reach hedge

/-- `cd` by a slot other than the two records leads down. -/
theorem cd_down
    (hs : Sound s)
    (hn : SelfNamed s)
    (h : Settled s t)
    (hup : ¬ IsDotDot arg)
    {i : Fin 64}
    (hi : StopsAt t.globals.currentDir.table arg.buff i)
    (hgood : GoodCd image t arg) :
    ∃ t', Ends (cd image arg.buff) t () t' ∧ Ready s t' := by
  have henters := (cdStops_iff hup).mp hi.1
  obtain ⟨hi2, hshallow, hquiet⟩ := hgood.down hup i henters fun j hj he =>
    hi.2 j hj ((cdStops_iff hup).mpr he)
  obtain ⟨g, hpush⟩ := exists_pushParent (g := t.globals) (by omega)
    (t.globals.currentDir.table i).cluster
  obtain ⟨hcur, hparents, -, hindex, -, hbuff⟩ := pushParent_parents hpush
  obtain ⟨code, harrives⟩ := arrives_of_quiet (s := t) (g := g) (by rwa [hcur])
  have hrun : Ends (cd image arg.buff) t () { t with globals := g.withCode code } := by
    rw [Ends, cd, cdWith_down arg.not_long hi fun he => hup (isDotDot_iff.mp he), hpush]
    exact moveTo_arrives harrives _
  rw [h.loaded] at henters hcur
  obtain ⟨hchild, hdir⟩ := child_of_attr hs h.onTree.live hi2 henters.2.2
  have hpath : Path s.edge rootClusterNumber g.currentDirCluster g.parents := by
    rw [hcur, hparents]
    exact h.onTree.path.child (edge_eq_some_iff.mpr ⟨hi2, hchild.2.2, hdir, rfl⟩)
  have hdepth := h.onTree.depth
  have hready : Ready s { t with globals := g } := by
    refine ⟨h.fileSystem, OnTree.of_path hs hpath ?_, ?_, ?_, ?_⟩
    · rw [hparents, List.length_append, List.length_singleton, hindex, hdepth]
    · intro d hd
      rw [hparents, hcur] at hd
      rcases List.mem_append.mp hd with hd | hd
      · exact h.named d hd
      · rw [List.mem_singleton.mp hd]
        exact named_child hn hchild hdir henters.1
    · show g.currentDir.bufferIndex.toNat < 255
      omega
    · show g.LastZero
      rw [Globals.LastZero, hbuff]
      exact h.lastZero
  exact ⟨_, hrun, hready.withCode code⟩

/-- A good `cd` leads to a place where the shell knows where it is. -/
theorem cd_good
    (hs : Sound s)
    (hn : SelfNamed s)
    (h : Settled s t)
    (hgood : GoodCd image t arg) :
    ∃ t', Ends (cd image arg.buff) t () t' ∧ Ready s t' ∧
      (IsDotDot arg → t.globals.currentDirCluster ≠ rootClusterNumber →
        ParentOf s t'.globals.currentDirCluster t.globals.currentDirCluster) := by
  by_cases hup : IsDotDot arg
  · by_cases hroot : t.globals.currentDirCluster = rootClusterNumber
    · exact ⟨t, cd_root h hup hroot, h.toReady, fun _ hne => absurd hroot hne⟩
    · obtain ⟨t', hrun, hready, hparent⟩ := cd_up hs h hup hroot hgood
      exact ⟨t', hrun, hready, fun _ _ => hparent⟩
  · rcases cdStops_cases t.globals.currentDir.table arg.buff with ⟨i, hi⟩ | hno
    · obtain ⟨t', hrun, hready⟩ := cd_down hs hn h hup hi hgood
      exact ⟨t', hrun, hready, fun hdot => absurd hdot hup⟩
    · exact ⟨t, cdWith_notFound arg.not_long hno, h.toReady, fun hdot => absurd hdot hup⟩

theorem cdCommand_ends_iff
    {arg : StringBuff} :
    Ends (cdCommand image arg) t () t' ↔
      ∃ t₁, Ends (cd image arg) t () t₁ ∧ Ends cetakPrompt t₁ () t' := by
  have hputs : Ends (puts (literal "\n") 0x7) t () t := Ends.of_apply (puts_literal "\n" 0x7 t)
  constructor
  · intro h
    obtain ⟨_, t₀, h₀, h⟩ := h.of_bind
    obtain ⟨-, rfl⟩ := hputs.unique h₀
    obtain ⟨_, t₁, h₁, h⟩ := h.of_bind
    exact ⟨t₁, h₁, h⟩
  · rintro ⟨t₁, h₁, h⟩
    exact hputs.bind (h₁.bind h)

/-- **A good `cd` with its prompt.** -/
theorem settled_cd
    (hs : Sound s)
    (hn : SelfNamed s)
    (h : Settled s t)
    (hgood : GoodCd image t arg) :
    ∃ t', Ends (cdCommand image arg.buff) t () t' ∧ Settled s t' ∧
      (IsDotDot arg → t.globals.currentDirCluster ≠ rootClusterNumber →
        ParentOf s t'.globals.currentDirCluster t.globals.currentDirCluster) := by
  obtain ⟨t₁, hrun, hready, hparent⟩ := cd_good hs hn h hgood
  obtain ⟨hprompt, hsettled⟩ := hready.prompted
  exact ⟨t₁.prompted, cdCommand_ends_iff.mpr ⟨t₁, hrun, hprompt⟩, hsettled, hparent⟩

theorem moveTo_ends
    {o : Option Globals}
    {i : UInt32}
    (h : Ends (moveTo image o i) t () t') :
    ∃ g, Arrives image t.fileSystem o g ∧ t' = { t with globals := g } := by
  by_cases harrives : ∃ g, Arrives image t.fileSystem o g
  · obtain ⟨g, hg⟩ := harrives
    exact ⟨g, hg, (h.unique (moveTo_arrives hg i)).2⟩
  · exact absurd h (moveTo_strands harrives i).not_ends

/-- No directory is above itself. -/
theorem not_path_self
    (hs : Sound s)
    {d : UInt32}
    {l : List UInt32}
    (h : Path s.edge rootClusterNumber d l) :
    ¬ Path s.edge rootClusterNumber d (l ++ [d]) := by
  intro h'
  have hlen := congrArg List.length (path_unique hs h h')
  rw [List.length_append, List.length_singleton] at hlen
  omega

/-- No directory is above the one that is above it. -/
theorem not_path_parent
    (hs : Sound s)
    {c d : UInt32}
    {l : List UInt32}
    (h : Path s.edge rootClusterNumber d l)
    (hp : ParentOf s c d) :
    ¬ Path s.edge rootClusterNumber c (l ++ [d]) := by
  rcases hp with ⟨rfl, rfl⟩ | ⟨i, hc, hdir, rfl⟩
  · exact not_path_self hs h
  · intro h'
    have hpath := h'.child (edge_eq_some_iff.mpr ⟨hc.2.1, hc.2.2, hdir, rfl⟩)
    have hlen := congrArg List.length (path_unique hs h hpath)
    simp only [List.length_append, List.length_singleton] at hlen
    omega

/-- A record leads to a place for which the stack is wrong. -/
theorem not_path_record
    (hs : Sound s)
    (hr : Recorded s)
    {d : UInt32}
    {l : List UInt32}
    {i : Fin 64}
    (h : Path s.edge rootClusterNumber d l)
    (hi : i < 2) :
    ¬ Path s.edge rootClusterNumber (s.table d i).cluster (l ++ [d]) := by
  have hcases : i = 0 ∨ i = 1 := by
    have hval : i.val < 2 := hi
    have : i.val = 0 ∨ i.val = 1 := by omega
    exact this.imp Fin.ext Fin.ext
  rcases hcases with rfl | rfl
  · by_cases hd : d = rootClusterNumber
    · intro h'
      have hlow := (hs.liveDir_bounds h'.reach).1
      rw [hd, root_self_cluster hr] at hlow
      exact absurd hlow (by decide)
    · rw [hr.self d h.reach hd]
      exact not_path_self hs h
  · exact not_path_parent hs h (hr.parentOf h.reach)

/-- **After any other `cd` the prompt does not come, or the stack is wrong.** -/
theorem not_onTree_of_bad
    (hs : Sound s)
    (hr : Recorded s)
    (h : Settled s t)
    (hbad : ¬ GoodCd image t arg)
    (hends : Ends (cdCommand image arg.buff) t () t') :
    ¬ OnTree s t'.globals := by
  intro hon
  obtain ⟨t₁, hcd, hprompt⟩ := cdCommand_ends_iff.mp hends
  obtain ⟨hshallow, rfl⟩ := cetakPrompt_ok hprompt
  have hpath : Path s.edge rootClusterNumber t₁.globals.currentDirCluster t₁.globals.parents :=
    hon.path
  refine hbad ⟨fun hup p hp => ?_, fun hup i henters hfirst => ?_⟩
  · obtain ⟨l, hl⟩ := List.getLast?_eq_some_iff.mp (Option.mem_def.mp hp)
    have hroot : t.globals.currentDirCluster ≠ rootClusterNumber := by
      intro hroot
      have hdepth := h.onTree.depth
      rw [h.onTree.root.mpr hroot, hl, List.length_append, List.length_singleton] at hdepth
      exact absurd hdepth (Nat.succ_ne_zero _)
    rw [Ends, cd, cdWith_up arg.not_long (h.stopsAt_zero hup) (isDotDot_iff.mpr hup) hroot] at hcd
    obtain ⟨_, t₂, hmove, -⟩ := Ends.of_bind hcd
    obtain ⟨g, harrives, -⟩ := moveTo_ends hmove
    obtain ⟨g', hpop, hcur, -⟩ := popParent_parents h.onTree.depth hl
    rw [hpop] at harrives
    rw [← hcur]
    exact harrives.quiet
  · have hstop : StopsAt t.globals.currentDir.table arg.buff i :=
      ⟨(cdStops_iff hup).mpr henters, fun j hj he => hfirst j hj ((cdStops_iff hup).mp he)⟩
    rw [Ends, cd, cdWith_down arg.not_long hstop fun he => hup (isDotDot_iff.mp he)] at hcd
    obtain ⟨g, harrives, rfl⟩ := moveTo_ends hcd
    obtain ⟨g₁, code, hpush, hquiet, rfl⟩ := harrives
    obtain ⟨hcur, hparents, -, hindex, -⟩ := pushParent_parents hpush
    have hshallow' : g₁.currentDir.bufferIndex.toNat < 255 := hshallow
    refine ⟨?_, by omega, code, by rw [← hcur, hquiet]⟩
    by_contra hi
    have hwrong := not_path_record hs hr h.onTree.path (not_le.mp hi)
    rw [← h.loaded, ← hcur, ← hparents] at hwrong
    exact hwrong hpath

end Step

/-! ## Walks -/

section Walks

variable {image : UInt32 → FAT32DriverRequest} {s : FileSystem}

theorem finish_eq_ok
    {x : ShellM Unit}
    {t t' : Session} :
    finish x t = .ok t' ↔ Ends x t () t' := by
  rcases hx : x t with ⟨e | a, t₁, w⟩ <;> simp [finish, Ends, hx, Except.map]

/-- What `main` has read before its first prompt. -/
def firstLoaded (s : FileSystem) : Session :=
  ⟨s, Session.loaded ⟨s, { Globals.zero with currentDirCluster := 2 }⟩⟩

theorem started_eq
    {t : Session}
    (h : Ends cetakPrompt (firstLoaded s) () t) :
    started s = .ok t := by
  have hset : Ends (setGlobals { Globals.zero with currentDirCluster := 2 })
      ⟨s, Globals.zero⟩ () ⟨s, { Globals.zero with currentDirCluster := 2 }⟩ :=
    Ends.of_apply (setGlobals_apply _ _)
  exact finish_eq_ok.mpr (Ends.bind (Ends.of_apply (getState_apply _))
    (hset.bind ((Ends.of_apply (readCurrentDir_apply _)).bind h)))

theorem ready_firstLoaded
    (hs : Sound s)
    (hr : Recorded s) :
    Ready s (firstLoaded s) := by
  have hroot : OnTree s { Globals.zero with currentDirCluster := 2 } :=
    OnTree.of_path hs Path.root rfl
  refine ⟨rfl, ⟨hroot.live, hroot.path, rfl, hroot.root⟩, ?_, Nat.succ_pos 254, rfl⟩
  intro d hd
  rw [List.mem_singleton.mp hd]
  show (s.table rootClusterNumber 0).name 0 ≠ 0
  rw [hr.root 0 (by decide)]
  decide

theorem settled_start
    (hs : Sound s)
    (hr : Recorded s) :
    ∃ t, started s = .ok t ∧ Settled s t := by
  obtain ⟨hprompt, hsettled⟩ := (ready_firstLoaded hs hr).prompted
  exact ⟨_, started_eq hprompt, hsettled⟩

/-- A good `cd` leaves the shell waiting for the next command. -/
theorem afterCd_settled
    (hs : Sound s)
    (hn : SelfNamed s)
    (r : Except ShellFault Session)
    (a : Argument)
    (hr : ∃ t, r = Except.ok t ∧ Settled s t)
    (hg : GoodStep image r a) :
    ∃ t, afterCd image r a = .ok t ∧ Settled s t := by
  obtain ⟨t, rfl, ht⟩ := hr
  obtain ⟨t', hends, ht', -⟩ := settled_cd hs hn ht hg
  exact ⟨t', finish_eq_ok.mpr hends, ht'⟩

/-- So does a walk of them. -/
theorem walk_settled
    (h : Reached NewSystem Safe after s)
    {args : List Argument}
    (hargs : Along (GoodStep image) (afterCd image) (started s) args) :
    ∃ t, walk image s args = .ok t ∧ Settled s t :=
  hargs.keeps (afterCd_settled (safeRun_sound h) (safeRun_selfNamed h))
    (settled_start (safeRun_sound h) (safeRun_recorded h))

/-- **After any well-scoped calls, a walk is right all along exactly if each of its steps is
good.** -/
theorem navigates_iff
    (h : Reached NewSystem WellScoped after s)
    (image : UInt32 → FAT32DriverRequest)
    (args : List Argument) :
    Navigates image s args ↔ Along (GoodStep image) (afterCd image) (started s) args := by
  have hs := wellScopedRun_sound h
  have hsafe : Reached NewSystem Safe after s := h.mono fun _ _ _ hc => hc.1.safe
  have hr := safeRun_recorded hsafe
  have hn := safeRun_selfNamed hsafe
  have hgood := @afterCd_settled image s hs hn
  have hbad : ∀ r a, (∃ t, r = Except.ok t ∧ Settled s t) → ¬ GoodStep image r a →
      ¬ ∃ t, afterCd image r a = .ok t ∧ OnTree s t.globals := by
    rintro _ a ⟨t, rfl, ht⟩ hno ⟨t', hends, hon⟩
    exact not_onTree_of_bad hs hr ht hno (finish_eq_ok.mp hends) hon
  have hiff : (∀ as, as <+: args → ∃ t, walk image s as = .ok t ∧ OnTree s t.globals) ↔
      Along (GoodStep image) (afterCd image) (started s) args :=
    prefixes_iff_along (Q := fun r => ∃ t, r = Except.ok t ∧ OnTree s t.globals) hgood hbad
      (fun _ hsettled => hsettled.imp fun _ ht => ⟨ht.1, ht.2.onTree⟩) (settled_start hs hr)
  refine ⟨fun hnav => hiff.mp hnav.onTree, fun halong => ⟨hiff.mpr halong, ?_⟩⟩
  rintro as arg t t' ⟨bs, rfl⟩ hup ht hroot ht'
  obtain ⟨has, harg, -⟩ := along_append.mp (along_append.mp halong).1
  obtain ⟨t₁, ht₁, hsettled⟩ := walk_settled hsafe has
  obtain rfl : t₁ = t := Except.ok.inj (ht₁.symm.trans ht)
  rw [← walk, ht] at harg
  obtain ⟨t₂, hends, -, hparent⟩ := settled_cd hs hn hsettled harg
  rw [walk, List.foldl_append, List.foldl_cons, List.foldl_nil, ← walk, ht] at ht'
  obtain rfl : t₂ = t' := Except.ok.inj ((finish_eq_ok.mpr hends).symm.trans ht')
  exact hparent hup hroot

end Walks

/-! ## Small walks -/

/-- Bytes that ask for a name that no directory has. -/
def silentImage : UInt32 → FAT32DriverRequest := fun _ => requestFor ['x'] 2 0

/-- An argument that is typed in letters. -/
def argument (cs : List Char) (h : cs.length ≤ 8) : Argument :=
  ⟨cs.map byteOfChar, by rwa [List.length_map]⟩

/-- Into a folder and back. -/
theorem navigates_folderSystem :
    Navigates silentImage folderSystem
      [argument ['a'] (by decide), argument ['.', '.'] (by decide)] :=
  (navigates_iff folderSystem_reached silentImage _).mpr (by decide +kernel)

/-- `cd root` in the root of a new file system leads to cluster 0. -/
theorem cd_root_leaves_tree :
    Reached NewSystem WellScoped after emptySystem ∧
      (walk silentImage emptySystem [argument ['r', 'o', 'o', 't'] (by decide)]).toOption.map
        (·.globals.currentDirCluster) = some 0 ∧
      ¬ Navigates silentImage emptySystem [argument ['r', 'o', 'o', 't'] (by decide)] := by
  have hcluster :
      (walk silentImage emptySystem [argument ['r', 'o', 'o', 't'] (by decide)]).toOption.map
        (·.globals.currentDirCluster) = some 0 := by
    decide +kernel
  refine ⟨Reached.start newSystem_emptySystem, hcluster, fun hnav => ?_⟩
  obtain ⟨t, ht, hon⟩ := hnav.onTree _ (List.prefix_refl _)
  rw [ht] at hcluster
  have hzero : t.globals.currentDirCluster = 0 := Option.some_inj.mp hcluster
  have hlow := (newSystem_emptySystem.created.sound.liveDir_bounds hon.live).1
  rw [hzero] at hlow
  exact absurd hlow (by decide)

end Shell
end OS2024
