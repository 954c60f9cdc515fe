import OS2024.Fat32.Service
import OS2024.Shell.Places
import OS2024.Shell.Prompt

/-!
# What `ls` prints

`ls` prints `entry.name` of every slot from 2 on that has a name.  The eight characters of a name
need not end with a NUL; `puts` then goes on in `ext` and the fields behind it, up to `undelete`,
which is always zero.  Nobody in this system asks for an extension, and without one a name ends
where it should.

**Results.**
* `after_children`: what holds of the entries that `write` makes holds of all children.
* `ls_prints`: the text that `ls` prints.
* `namedKeys_drawer`: the keys in the drawer of a directory, each of them once.
* `ls_lists`: after any `cd` and whatever calls there are, `ls` prints their names.
-/

namespace OS2024
namespace Shell

open Fat32 Stdlib TracedState SlotTree Runs Cabinet

/-! ## The entries of a directory -/

section Entries

variable {s : FileSystem} {c : Call}

/-- What `write` gives to its entries and the children have, all children have afterwards. -/
theorem after_children
    {P : FAT32DirectoryEntry → Prop}
    (hs : Sound s)
    (hP : ∀ d i, Child s d i → P (s.table d i))
    (hc : Safe s c)
    (hnew : ∀ r x, c = .write r → P (newEntry r x)) :
    ∀ d i, Child (after s c) d i → P ((after s c).table d i) := by
  intro d i hd
  cases safe_effect hs hc with
  | reads state _ =>
      rw [state] at hd ⊢
      exact hP d i hd
  | @inserts r k x rest _ _ _ inserted =>
      rcases (inserted.child_iff hs d i).mp hd with hd | ⟨rfl, rfl⟩
      · rw [inserted.slot_child hs hd]
        exact hP d i hd
      · rw [inserted.slot_self]
        exact hnew r x rfl
  | removes _ _ _ _ removed =>
      rw [removed.slot_child hs hd]
      exact hP d i ((removed.child_iff hs d i).mp hd).1

/-- The byte behind the attributes is zero. -/
def Undeleted (s : FileSystem) : Prop := ∀ d i, Child s d i → (s.table d i).undelete = 0

theorem safeRun_undeleted
    (h : Reached NewSystem Safe after s) :
    Undeleted s := by
  refine (h.invariant (P := fun s => Sound s ∧ Undeleted s) ?_ ?_).2
  · exact fun s hs => ⟨hs.created.sound, fun d i hd => absurd hd (hs.created.not_child d i)⟩
  · exact fun s c hs hc =>
      ⟨(after_edited hs.1 hc).sound hs.1,
        after_children (P := fun e => e.undelete = 0) hs.1 hs.2 hc fun _ _ _ => rfl⟩

/-- No child has an extension. -/
def Plain (s : FileSystem) : Prop := ∀ d i, Child s d i → ∀ k, (s.table d i).ext k = 0

/-- A safe call that asks for no extension. -/
structure PlainCall (s : FileSystem) (c : Call) : Prop where
  safe : Safe s c
  ext : ∀ k, c.request.ext k = 0

theorem after_plain
    (hs : Sound s)
    (hplain : Plain s)
    (hc : PlainCall s c) :
    Plain (after s c) :=
  after_children (P := fun e => ∀ k, e.ext k = 0) hs hplain hc.safe fun r x hr k => by
    have hext := hc.ext
    rw [hr] at hext
    exact hext k

theorem plainRun_plain
    (h : Reached NewSystem PlainCall after s) :
    Plain s := by
  refine (h.invariant (P := fun s => Sound s ∧ Plain s) ?_ ?_).2
  · exact fun s hs => ⟨hs.created.sound, fun d i hd => absurd hd (hs.created.not_child d i)⟩
  · exact fun s c hs hc =>
      ⟨(after_edited hs.1 hc.safe).sound hs.1, after_plain hs.1 hs.2 hc⟩

end Entries

/-! ## The text -/

section Text

variable {e : FAT32DirectoryEntry} {t : Session}

theorem zero_mem_entry
    (h : e.undelete = 0) :
    0 ∈ List.ofFn e.toBytes :=
  List.mem_ofFn.mpr ⟨13, h⟩

/-- A name without an extension ends at its eighth character, if it has eight. -/
theorem cString_entry
    (h : e.ext 0 = 0) :
    cString (List.ofFn e.toBytes) = entryName e := by
  have hsplit : List.ofFn e.toBytes = List.ofFn e.name ++
      List.ofFn fun k : Fin 24 => e.toBytes (k.natAdd 8) := by
    exact @List.ofFn_add _ 8 24 e.toBytes
  rw [hsplit, entryName, cString_append_eq_iff]
  right
  rw [List.ofFn_succ, List.head?_cons]
  exact decide_eq_true h

theorem putsAll_prints
    {color : UInt32}
    {bufs : List (List UInt8)}
    (h : ∀ buf, buf ∈ bufs → 0 ∈ buf)
    (t : Session) :
    Prints (putsAll color bufs) t () t (bufs.flatMap cString) := by
  induction bufs with
  | nil => exact Prints.pure () t
  | cons buf bufs ih =>
      have hrest := ih fun buf' hmem => h buf' (List.mem_cons_of_mem buf hmem)
      exact (puts_prints (h buf List.mem_cons_self) color t).bind hrest

/-- The slots that the loop does not skip. -/
def namedSlots (t : FAT32DirectoryTable) (is : List (Fin 64)) : List (Fin 64) :=
  is.filter fun i => (t i).name 0 ≠ 0

theorem lsLoop_prints
    {table : FAT32DirectoryTable}
    {is : List (Fin 64)}
    (h : ∀ i, i ∈ is → (table i).name 0 ≠ 0 → 0 ∈ List.ofFn (table i).toBytes)
    (t : Session) :
    Prints (lsLoop table is) t () t
      ((namedSlots table is).flatMap fun i => cString (List.ofFn (table i).toBytes) ++ [32]) := by
  induction is with
  | nil => exact Prints.pure () t
  | cons i is ih =>
      have hrest := ih fun j hj => h j (List.mem_cons_of_mem i hj)
      rw [namedSlots, List.filter_cons]
      by_cases hname : (table i).name 0 = 0
      · have hskip : Prints (if (table i).name 0 = 0 then pure ()
            else putsAll 0x2 [List.ofFn (table i).toBytes, literal " "]) t () t [] := by
          rw [if_pos hname]
          exact Prints.pure () t
        rw [if_neg (by simpa using hname)]
        exact hskip.bind hrest
      · have hputs : Prints (if (table i).name 0 = 0 then pure ()
            else putsAll 0x2 [List.ofFn (table i).toBytes, literal " "]) t () t
            (cString (List.ofFn (table i).toBytes) ++ [32]) := by
          rw [if_neg hname]
          refine putsAll_prints (fun buf hmem => ?_) t
          rcases List.mem_cons.mp hmem with rfl | hmem
          · exact h i List.mem_cons_self hname
          · rw [List.mem_singleton.mp hmem]
            exact zero_mem_literal _
        rw [if_pos (by simpa using hname), List.flatMap_cons]
        exact hputs.bind hrest

end Text

/-! ## The directory -/

section Directory

variable {s : FileSystem} {t : Session}

/-- Slots with a name are children. -/
theorem child_of_named
    (hs : Sound s)
    {d : UInt32}
    (hd : LiveDir s d)
    {i : Fin 64}
    (hi : 2 ≤ i)
    (hname : (s.table d i).name 0 ≠ 0) :
    Child s d i := by
  refine ⟨hd, hi, ?_⟩
  by_contra hdead
  rw [(hs.table d hd).dead i hi hdead] at hname
  exact hname rfl

/-- The slots behind the records. -/
theorem mem_slots
    (i : Fin 64) :
    i ∈ (List.finRange 64).drop 2 ↔ 2 ≤ i := by
  revert i
  decide

/-- **The text that `ls` prints.** -/
theorem ls_prints
    (h : Reached NewSystem Safe after s)
    (hready : Ready s t) :
    Prints ls t () { t with globals := t.loaded }
      ((namedSlots (s.table t.globals.currentDirCluster) ((List.finRange 64).drop 2)).flatMap
        (fun i => cString (List.ofFn (s.table t.globals.currentDirCluster i).toBytes) ++ [32]) ++
          [10]) := by
  have hs := safeRun_sound h
  have htable : t.loaded.currentDir.table = s.table t.globals.currentDirCluster := by
    rw [Session.loaded, withTable_table, hready.fileSystem]
  refine (readCurrentDir_prints t).bind ((Prints.of_apply (getState_apply _)).bind ?_)
  rw [← htable]
  refine Prints.bind (lsLoop_prints (fun i hi hname => ?_) _) (literal_prints (by decide) 0x2 _)
  rw [htable] at hname ⊢
  exact zero_mem_entry (safeRun_undeleted h _ i
    (child_of_named hs hready.onTree.live ((mem_slots i).mp hi) hname))

/-- The keys of the children that have a name. -/
def namedKeys (s : FileSystem) (d : UInt32) : List Key :=
  (namedSlots (s.table d) ((List.finRange 64).drop 2)).map fun i => (s.table d i).key

/-- **They are the keys in the drawer of the directory, each of them once.** -/
theorem namedKeys_drawer
    (hs : Sound s)
    {d : UInt32}
    (hd : LiveDir s d) :
    (namedKeys s d).Nodup ∧ ∀ key, key ∈ namedKeys s d ↔
      key.1 0 ≠ 0 ∧ ∃ item, (s.drawer d).look key = some item := by
  have ht := hs.table d hd
  have hslots : ∀ i, i ∈ namedSlots (s.table d) ((List.finRange 64).drop 2) ↔
      2 ≤ i ∧ (s.table d i).name 0 ≠ 0 := by
    intro i
    rw [namedSlots, List.mem_filter, mem_slots, decide_eq_true_iff]
  constructor
  · refine List.Nodup.map_on (fun i hi j hj hkey => ?_)
      (((List.nodup_finRange 64).sublist (List.drop_sublist 2 _)).filter _)
    obtain ⟨hi2, hname⟩ := (hslots i).mp hi
    obtain ⟨hj2, hname'⟩ := (hslots j).mp hj
    by_contra hne
    exact ht.distinct i j hi2 (child_of_named hs hd hi2 hname).2.2
      (child_of_named hs hd hj2 hname').2.2 hne hkey
  · intro key
    rw [namedKeys, List.mem_map]
    constructor
    · rintro ⟨i, hi, rfl⟩
      obtain ⟨hi2, hname⟩ := (hslots i).mp hi
      exact ⟨hname, _, look_child ht hi2 (child_of_named hs hd hi2 hname).2.2⟩
    · rintro ⟨hname, item, hlook⟩
      obtain ⟨i, hi2, ⟨-, rfl⟩, -⟩ := (look_eq_some_iff ht).mp hlook
      exact ⟨i, (hslots i).mpr ⟨hi2, hname⟩, rfl⟩

/-- The names in these keys, one after the other. -/
def listing (keys : List Key) : List UInt8 :=
  keys.flatMap (fun key => cString (List.ofFn key.1) ++ [32]) ++ [10]

/-- Without extensions `ls` prints the names. -/
theorem ls_names
    (h : Reached NewSystem PlainCall after s)
    (hready : Ready s t) :
    Prints ls t () { t with globals := t.loaded }
      (listing (namedKeys s t.globals.currentDirCluster)) := by
  have hsafe : Reached NewSystem Safe after s := h.mono fun _ _ _ hc => hc.safe
  have hprints := ls_prints hsafe hready
  have hnames : ∀ i, i ∈ namedSlots (s.table t.globals.currentDirCluster)
      ((List.finRange 64).drop 2) →
      cString (List.ofFn (s.table t.globals.currentDirCluster i).toBytes) ++ [32] =
        cString (List.ofFn (s.table t.globals.currentDirCluster i).key.1) ++ [32] := by
    intro i hi
    rw [namedSlots, List.mem_filter, mem_slots, decide_eq_true_iff] at hi
    have hchild := child_of_named (safeRun_sound hsafe) hready.onTree.live hi.1 hi.2
    rw [cString_entry (plainRun_plain h _ i hchild 0)]
    rfl
  rw [List.flatMap_congr hnames] at hprints
  rwa [listing, namedKeys, List.flatMap_map]

/-- **`ls` lists the current directory**, wherever the shell has gone, and after whatever calls that
delete nothing elsewhere: every key with a name once, and no other. -/
theorem ls_lists
    (h : Reached NewSystem PlainCall after s)
    {image : UInt32 → FAT32DriverRequest}
    {args : List Argument}
    (hargs : Along (GoodStep image) (afterCd image) (started s) args)
    (hwalk : walk image s args = .ok t)
    {cs : List Call}
    (hcs : Along PlainCall after s cs)
    (hhere : ∀ r, Call.delete r ∈ cs → r.parentClusterNumber = t.globals.currentDirCluster)
    {s' : FileSystem}
    (hs' : cs.foldl after s = s') :
    ∃ keys t', Prints ls { t with fileSystem := s' } () t' (listing keys) ∧
      t'.fileSystem = s' ∧ keys.Nodup ∧
      ∀ key, key ∈ keys ↔
        key.1 0 ≠ 0 ∧ ∃ item, (s'.drawer t.globals.currentDirCluster).look key = some item := by
  have hsafe : Reached NewSystem Safe after s := h.mono fun _ _ _ hc => hc.safe
  obtain ⟨t₁, ht₁, hsettled⟩ := walk_settled hsafe hargs
  obtain rfl : t₁ = t := Except.ok.inj (ht₁.symm.trans hwalk)
  have hready := hsettled.toReady
  have hplace := hready.run (safeRun_sound hsafe) (hcs.mono fun _ _ hc => hc.safe) hhere
  have hreached := h.along hcs
  rw [hs'] at hplace hreached
  have hs := safeRun_sound (hreached.mono fun _ _ _ hc => hc.safe)
  obtain ⟨hnodup, hkeys⟩ := namedKeys_drawer hs hplace.onTree.live
  exact ⟨_, _, ls_names hreached hplace, rfl, hnodup, hkeys⟩

end Directory

/-! ## A small listing -/

theorem folderSystem_plain : Reached NewSystem PlainCall after folderSystem :=
  Reached.step (Reached.start newSystem_emptySystem)
    ⟨(wellScoped_write (liveDir_root _) (by decide)).1.safe, fun _ => rfl⟩

theorem folderSystem_folder : LiveDir folderSystem 3 := by
  have hedge : folderSystem.edge 2 2 = some 3 := by decide +kernel
  exact Reach.child (liveDir_root _) hedge

/-- `ls` in the folder, in which somebody has written a file. -/
theorem ls_lists_folderSystem :
    ∃ t, walk silentImage folderSystem [argument ['a'] (by decide)] = .ok t ∧
      ∃ keys t', Prints ls
          { t with fileSystem := after folderSystem (.write (requestFor ['c'] 3 100)) } () t'
          (listing keys) ∧
        t'.fileSystem = after folderSystem (.write (requestFor ['c'] 3 100)) ∧ keys.Nodup ∧
        ∀ key, key ∈ keys ↔ key.1 0 ≠ 0 ∧ ∃ item,
          ((after folderSystem (.write (requestFor ['c'] 3 100))).drawer
            t.globals.currentDirCluster).look key = some item := by
  have hargs : Along (GoodStep silentImage) (afterCd silentImage) (started folderSystem)
      [argument ['a'] (by decide)] := by decide +kernel
  have hsafe := folderSystem_plain.mono fun _ _ _ hc => hc.safe
  obtain ⟨t, hwalk, -⟩ := walk_settled hsafe hargs
  have hwrite : PlainCall folderSystem (.write (requestFor ['c'] 3 100)) :=
    ⟨(wellScoped_write folderSystem_folder (by decide)).1.safe, fun _ => rfl⟩
  have hcs : Along PlainCall after folderSystem [.write (requestFor ['c'] 3 100)] :=
    ⟨hwrite, trivial⟩
  have hhere : ∀ r, Call.delete r ∈ [Call.write (requestFor ['c'] 3 100)] →
      r.parentClusterNumber = t.globals.currentDirCluster := by
    intro r hr
    rw [List.mem_singleton] at hr
    cases hr
  exact ⟨t, hwalk, ls_lists folderSystem_plain hargs hwalk hcs hhere rfl⟩

end Shell
end OS2024
