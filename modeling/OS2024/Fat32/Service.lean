import OS2024.Lib.Cabinet
import OS2024.Fat32.Buffers
import OS2024.Fat32.Contents

/-!
# The file system as a cabinet

What a client knows of the file system is a cabinet: the directories are drawers, and the entries
from slot 2 on are their items.  The two records of a directory are its labels.  A cluster number
is only the name of a drawer; which clusters a file has, in which slot an entry is and which
clusters are free does not show.

`Serves` says what a call answers and which edit it makes, in terms of the cabinet alone.

**Results.**
* `Inserted.cabinet`, `Removed.cabinet`: what the driver does to the disk is an edit.
* `safe_serves`: every safe call serves the cabinet.
* `read_answers`, `write_answers`: when a call comes back.
* `read_deliveries`: what a `read` stores fits into its buffer.
-/

namespace OS2024
namespace Fat32

open TracedState LinkedChain Runs Cabinet

/-- What a client can read of a file. -/
structure File where
  filesize : UInt32
  blocks : List ClusterBuffer

def File.clusters (f : File) : Nat := f.blocks.length

/-- The slots behind the records. -/
def childSlots : Nat := 62

noncomputable def FileSystem.item (s : FileSystem) (e : FAT32DirectoryEntry) :
    Item UInt32 File :=
  if e.IsDir then .drawer e.cluster else .paper ⟨e.filesize, s.blocks e.cluster⟩

/-- The directory `d` as a drawer. -/
noncomputable def FileSystem.drawer (s : FileSystem) (d : UInt32) : Drawer UInt32 Key File where
  label := (s.table d 0).key
  above := (s.table d 1).key
  room := (Finset.univ.filter fun i => ¬ (s.table d i).Live).card
  look k := (Fin.find? fun i => decide (2 ≤ i ∧ LiveMatch (s.table d) k i)).map fun i =>
    s.item (s.table d i)

open Classical in
noncomputable def FileSystem.cabinet (s : FileSystem) : Cabinet UInt32 Key File where
  drawer d := if LiveDir s d then some (s.drawer d) else none
  free := s.freeEntries

noncomputable abbrev edited (c : Cabinet UInt32 Key File) (e : Edit UInt32 Key File) :
    Cabinet UInt32 Key File :=
  c.apply File.clusters childSlots e

/-! ## Drawers -/

section Drawers

variable {s s' : FileSystem} {d : UInt32} {k : Key} {i : Fin 64}

theorem cabinet_drawer
    (h : LiveDir s d) :
    s.cabinet.drawer d = some (s.drawer d) := if_pos h

theorem cabinet_no_drawer
    (h : ¬ LiveDir s d) :
    s.cabinet.drawer d = none := if_neg h

theorem cabinet_free (s : FileSystem) : s.cabinet.free = s.freeEntries := by
  rw [FileSystem.cabinet]

/-- A child is found under its key. -/
theorem look_child
    (ht : TableSound (s.table d))
    (hi : 2 ≤ i)
    (hl : (s.table d i).Live) :
    (s.drawer d).look (s.table d i).key = some (s.item (s.table d i)) := by
  have hfind : (Fin.find? fun j =>
      decide (2 ≤ j ∧ LiveMatch (s.table d) (s.table d i).key j)) = some i := by
    rw [Fin.find?_eq_some_iff]
    refine ⟨decide_eq_true ⟨hi, hl, rfl⟩, fun j hj => decide_eq_false ?_⟩
    rintro ⟨h2, hlj, hkey⟩
    exact ht.distinct j i h2 hlj hl (ne_of_lt hj) hkey
  exact congrArg (Option.map _) hfind

theorem look_eq_none_iff :
    (s.drawer d).look k = none ↔ ∀ i, 2 ≤ i → ¬ LiveMatch (s.table d) k i := by
  rw [FileSystem.drawer, Option.map_eq_none_iff, Fin.find?_eq_none_iff]
  exact forall_congr' fun i => by simp

/-- What is found under a key is a child. -/
theorem look_eq_some_iff
    (ht : TableSound (s.table d))
    {x : Item UInt32 File} :
    (s.drawer d).look k = some x ↔
      ∃ i, 2 ≤ i ∧ LiveMatch (s.table d) k i ∧ s.item (s.table d i) = x := by
  constructor
  · intro h
    obtain ⟨i, hfind, hx⟩ := Option.map_eq_some_iff.mp h
    have hi := of_decide_eq_true (Fin.find?_eq_some_iff.mp hfind).1
    exact ⟨i, hi.1, hi.2, hx⟩
  · rintro ⟨i, hi, ⟨hl, rfl⟩, rfl⟩
    exact look_child ht hi hl

/-- The same matches with the same items are found under a key. -/
theorem look_congr
    (hmatch : ∀ i, 2 ≤ i → (LiveMatch (s'.table d) k i ↔ LiveMatch (s.table d) k i))
    (hitem : ∀ i, 2 ≤ i → LiveMatch (s.table d) k i →
      s'.item (s'.table d i) = s.item (s.table d i)) :
    (s'.drawer d).look k = (s.drawer d).look k := by
  have hsame : (fun i : Fin 64 => decide (2 ≤ i ∧ LiveMatch (s'.table d) k i)) =
      fun i => decide (2 ≤ i ∧ LiveMatch (s.table d) k i) := by
    funext i
    exact decide_eq_decide.mpr (and_congr_right fun hi => hmatch i hi)
  show (Fin.find? _).map _ = (Fin.find? _).map _
  rw [hsame]
  refine Option.map_congr fun i hi => ?_
  have hfound := of_decide_eq_true (Fin.find?_eq_some_iff.mp hi).1
  exact hitem i hfound.1 hfound.2

/-- A child that is kept is the same item. -/
theorem Kept.item
    (hs : Sound s)
    (hd : Child s d i)
    (h : Kept s s' d i) :
    s'.item (s'.table d i) = s.item (s.table d i) := by
  obtain ⟨-, cs, hcs, -⟩ := hs.chain d i hd
  rw [h.entry, FileSystem.item, FileSystem.item]
  split_ifs with hdir
  · rfl
  · rw [FileSystem.blocks_eq hcs, FileSystem.blocks_eq (h.chain cs hcs), h.content hdir cs hcs]

end Drawers

/-! ## Insertions -/

section Insertions

variable {s s' : FileSystem} {p : UInt32} {k : Fin 64} {e : FAT32DirectoryEntry}
  {cs : List UInt32} {blocks : List ClusterBuffer}

namespace Inserted

/-- Only the directory with the new entry changes. -/
theorem drawer_of_ne
    (h : Inserted s s' p k e cs blocks)
    (hs : Sound s)
    {d : UInt32}
    (hd : LiveDir s d)
    (hne : d ≠ p) :
    s'.drawer d = s.drawer d := by
  have htable := h.table_of_ne_parent hs hd hne
  have hlook : (s'.drawer d).look = (s.drawer d).look := by
    funext key
    refine look_congr (fun i _ => by rw [htable]) fun i hi hm => ?_
    have hchild : Child s d i := ⟨hd, hi, hm.1⟩
    exact (h.kept hs hchild).item hs hchild
  ext1
  · exact congrArg FAT32DirectoryEntry.key (congrFun htable 0)
  · exact congrArg FAT32DirectoryEntry.key (congrFun htable 1)
  · show (Finset.univ.filter fun i => ¬ (s'.table d i).Live).card = _
    rw [htable]
    rfl
  · exact hlook

/-- The directory of the new entry has one item more. -/
theorem drawer_self
    (h : Inserted s s' p k e cs blocks)
    (hs : Sound s) :
    s'.drawer p = (s.drawer p).put e.key (s'.item e) := by
  have hk2 := h.two_le hs
  have hlow : ∀ i : Fin 64, i < 2 → s'.table p i = s.table p i := fun i hi =>
    h.slot_of_ne fun he => absurd hk2 (not_le.mpr (he ▸ hi))
  have hlook : ∀ key, (s'.drawer p).look key =
      Function.update (s.drawer p).look e.key (some (s'.item e)) key := by
    intro key
    by_cases hkey : key = e.key
    · have hlive : (s'.table p k).Live := by
        rw [h.slot_self]
        exact h.live
      have hnew := look_child (h.tableSound_parent hs) hk2 hlive
      rw [h.slot_self] at hnew
      rw [hkey, hnew, Function.update_self]
    · rw [Function.update_of_ne hkey]
      refine look_congr (fun i _ => ?_) fun i hi hm => ?_
      · exact h.liveMatch_iff_of_ne hs h.parent (fun hboth => hkey hboth.2) i
      · have hchild : Child s p i := ⟨h.parent, hi, hm.1⟩
        exact (h.kept hs hchild).item hs hchild
  ext1
  · exact congrArg FAT32DirectoryEntry.key (hlow 0 (by decide))
  · exact congrArg FAT32DirectoryEntry.key (hlow 1 (by decide))
  · exact h.room
  · exact funext hlook

end Inserted

/-- The edit of a `write` of the request that takes the clusters from `c` on. -/
def FAT32DriverRequest.edit (r : FAT32DriverRequest) (above : Key) (c : UInt32) :
    Edit UInt32 Key File :=
  if isFolder r then .putDrawer r.parentClusterNumber r.key c (copyName r.name, fun _ => 0) above
  else .putPaper r.parentClusterNumber r.key
    ⟨r.bufferSize, chunks r.buf 0 (required r).toNat⟩

variable {r : FAT32DriverRequest} {c : UInt32} {rest : List UInt32}

section Written

variable
  (h : Inserted s s' r.parentClusterNumber k (newEntry r c) (c :: rest)
    (newBlocks s r c (c :: rest).length))
include h

/-- A new folder has no items yet. -/
theorem Inserted.drawer_new
    (hf : isFolder r = true) :
    s'.drawer c = ⟨(copyName r.name, fun _ => 0), ((s.parentTable r 0).name, fun _ => 0),
      childSlots, fun _ => none⟩ := by
  have htable : s'.table c = newFolderTable s r c := by
    have hcontent := h.content
    rw [newBlocks, if_pos hf, List.map_cons] at hcontent
    rw [FileSystem.table, (List.cons.inj hcontent).1, FAT32DirectoryTable.ofBytes_toBytes]
  have hdead : ∀ i : Fin 64, ¬ (s'.table c i).Live ↔ 2 ≤ i := by
    intro i
    rw [htable, newFolderTable]
    have hrec := folder_records s r c
    constructor
    · intro hl
      by_contra hlt
      have hcase : i = 0 ∨ i = 1 := by omega
      rcases hcase with rfl | rfl
      · rw [recordTable_zero] at hl
        exact hl hrec.self_live
      · rw [recordTable_one] at hl
        exact hl hrec.parent_live
    · intro hi
      rw [recordTable_child _ _ hi]
      exact FAT32DirectoryEntry.not_live_zero
  ext1
  · show (s'.table c 0).key = _
    rw [htable, newFolderTable, recordTable_zero]
    rfl
  · show (s'.table c 1).key = _
    rw [htable, newFolderTable, recordTable_one]
    rfl
  · show (Finset.univ.filter fun i => ¬ (s'.table c i).Live).card = 62
    rw [Finset.filter_congr fun i _ => hdead i]
    rfl
  · funext key
    exact look_eq_none_iff.mpr fun i hi hm => (hdead i).mpr hi hm.1

/-- The item of the new entry. -/
theorem Inserted.item_new
    (hlen : (c :: rest).length = (required r).toNat) :
    s'.item (newEntry r c) =
      if isFolder r then .drawer c
      else .paper ⟨r.bufferSize, chunks r.buf 0 (required r).toNat⟩ := by
  by_cases hf : isFolder r = true
  · rw [FileSystem.item, if_pos ((newEntry_isDir_iff c).mpr hf), if_pos hf]
    exact congrArg Item.drawer (LittleEndian.join_halves c)
  · have hdir : ¬ (newEntry r c).IsDir := fun hd => hf ((newEntry_isDir_iff c).mp hd)
    rw [FileSystem.item, if_neg hdir, if_neg hf, FileSystem.blocks_eq h.chain_new, h.content,
      newBlocks, if_neg hf, hlen]
    rfl

variable (hs : Sound s)
include hs

theorem Inserted.liveDir_written
    (d : UInt32) :
    LiveDir s' d ↔ LiveDir s d ∨ (isFolder r = true ∧ d = c) := by
  have hcluster : (newEntry r c).cluster = c := LittleEndian.join_halves c
  rw [h.liveDir_iff hs, newEntry_isDir_iff, hcluster]

/-- The directory of the request gets the new item. -/
theorem Inserted.cabinet_parent :
    s'.cabinet.drawer r.parentClusterNumber =
      (s.cabinet.drawer r.parentClusterNumber).map (·.put r.key (s'.item (newEntry r c))) := by
  have hlive := (h.liveDir_written hs _).mpr (Or.inl h.parent)
  rw [cabinet_drawer hlive, cabinet_drawer h.parent, h.drawer_self hs]
  rfl

/-- The other directories, but for the new one, are as they were. -/
theorem Inserted.cabinet_other
    {d : UInt32}
    (hp : d ≠ r.parentClusterNumber)
    (hc : ¬ (isFolder r = true ∧ d = c)) :
    s'.cabinet.drawer d = s.cabinet.drawer d := by
  have hsame : LiveDir s' d ↔ LiveDir s d := (h.liveDir_written hs d).trans (or_iff_left hc)
  by_cases hd : LiveDir s d
  · rw [cabinet_drawer hd, cabinet_drawer (hsame.mpr hd), h.drawer_of_ne hs hd hp]
  · rw [cabinet_no_drawer hd, cabinet_no_drawer fun hd' => hd (hsame.mp hd')]

/-- **Adding an entry is an edit of the cabinet.** -/
theorem Inserted.cabinet
    (hlen : (c :: rest).length = (required r).toNat) :
    s'.cabinet = edited s.cabinet (r.edit ((s.parentTable r 0).name, fun _ => 0) c) := by
  have hitem := h.item_new hlen
  have hparent := h.cabinet_parent hs
  have hfree := h.freeEntries hs
  rw [hlen] at hfree
  by_cases hf : isFolder r = true
  · rw [hitem, if_pos hf] at hparent
    rw [required_of_isFolder hf] at hfree
    rw [FAT32DriverRequest.edit, if_pos hf, edited, apply]
    ext1
    · funext d
      rw [drawer_withDrawer, drawer_change]
      by_cases hc : d = c
      · subst hc
        rw [if_pos rfl, cabinet_drawer ((h.liveDir_written hs d).mpr (Or.inr ⟨hf, rfl⟩)),
          h.drawer_new hf]
      · rw [if_neg hc]
        by_cases hp : d = r.parentClusterNumber
        · rw [if_pos hp, hp, hparent]
        · rw [if_neg hp, h.cabinet_other hs hp fun he => hc he.2]
    · dsimp only
      rw [cabinet_free, cabinet_free, hfree]
      rfl
  · rw [hitem, if_neg hf] at hparent
    rw [FAT32DriverRequest.edit, if_neg hf, edited, apply]
    ext1
    · funext d
      rw [drawer_change]
      by_cases hp : d = r.parentClusterNumber
      · rw [if_pos hp, hp, hparent]
      · rw [if_neg hp, h.cabinet_other hs hp fun he => hf he.1]
    · dsimp only
      rw [cabinet_free, cabinet_free, hfree, File.clusters, length_chunks]

end Written
end Insertions

/-! ## Removals -/

section Removals

variable {s s' : FileSystem} {p : UInt32} {k : Fin 64} {cs : List UInt32}

namespace Removed

variable (h : Removed s s' p k cs) (hs : Sound s)
include h hs

/-- Only the directory of the removed entry changes, among those that stay. -/
theorem drawer_of_ne
    {d : UInt32}
    (hd : LiveDir s' d)
    (hne : d ≠ p) :
    s'.drawer d = s.drawer d := by
  obtain ⟨hold, hstays⟩ := (h.liveDir_iff hs d).mp hd
  have htable := h.table_of_ne_parent hs hold hne hstays
  have hlook : (s'.drawer d).look = (s.drawer d).look := by
    funext key
    refine look_congr (fun i _ => by rw [htable]) fun i hi hm => ?_
    have hchild : Child s d i := ⟨hold, hi, hm.1⟩
    exact (h.kept hs hchild fun he => hne he.1).item hs hchild
  ext1
  · exact congrArg FAT32DirectoryEntry.key (congrFun htable 0)
  · exact congrArg FAT32DirectoryEntry.key (congrFun htable 1)
  · show (Finset.univ.filter fun i => ¬ (s'.table d i).Live).card = _
    rw [htable]
    rfl
  · exact hlook

omit hs in
/-- The removed entry leaves an empty slot. -/
theorem room :
    (Finset.univ.filter fun i => ¬ (s'.table p i).Live).card =
      (Finset.univ.filter fun i => ¬ (s.table p i).Live).card + 1 := by
  have hmem : k ∉ Finset.univ.filter fun i => ¬ (s.table p i).Live := by
    simpa using h.child.2.2
  rw [← Finset.card_insert_of_notMem hmem]
  congr 1
  ext i
  by_cases hi : i = k
  · subst hi
    simp [h.slot_self, FAT32DirectoryEntry.not_live_zero]
  · simp [h.slot_of_ne hi, hi]

/-- The directory of the removed entry has one item less. -/
theorem drawer_self :
    s'.drawer p = (s.drawer p).take (s.table p k).key := by
  have hk2 := h.child.2.1
  have hlow : ∀ i : Fin 64, i < 2 → s'.table p i = s.table p i := fun i hi =>
    h.slot_of_ne fun he => absurd hk2 (not_le.mpr (he ▸ hi))
  have ht := hs.table p h.child.1
  have hlook : ∀ key, (s'.drawer p).look key =
      Function.update (s.drawer p).look (s.table p k).key none key := by
    intro key
    have hslot : ∀ i, LiveMatch (s'.table p) key i ↔ i ≠ k ∧ LiveMatch (s.table p) key i := by
      intro i
      by_cases hi : i = k
      · subst hi
        rw [LiveMatch, h.slot_self]
        exact iff_of_false (fun hm => FAT32DirectoryEntry.not_live_zero hm.1) fun hm => hm.1 rfl
      · rw [LiveMatch, h.slot_of_ne hi, LiveMatch, and_iff_right hi]
    by_cases hkey : key = (s.table p k).key
    · subst hkey
      rw [Function.update_self, look_eq_none_iff]
      intro i hi hm
      obtain ⟨hne, hl, hsame⟩ := (hslot i).mp hm
      exact ht.distinct i k hi hl h.child.2.2 hne hsame
    · rw [Function.update_of_ne hkey]
      have hother : ∀ i, LiveMatch (s.table p) key i → i ≠ k := by
        rintro i hm rfl
        exact hkey hm.2.symm
      refine look_congr (fun i _ => ?_) fun i hi hm => ?_
      · rw [hslot]
        exact and_iff_right_of_imp (hother i)
      · have hchild : Child s p i := ⟨h.child.1, hi, hm.1⟩
        exact (h.kept hs hchild fun he => hother i hm he.2).item hs hchild
  ext1
  · exact congrArg FAT32DirectoryEntry.key (hlow 0 (by decide))
  · exact congrArg FAT32DirectoryEntry.key (hlow 1 (by decide))
  · exact h.room
  · exact funext hlook

/-- The clusters of the removed chain are free again. -/
theorem freeEntries :
    s'.freeEntries = s.freeEntries + cs.length := by
  have hperm : (freeClusters s'.fatTable).Perm (cs ++ freeClusters s.fatTable) := by
    refine (List.perm_ext_iff_of_nodup (nodup_freeClusters _) ?_).mpr fun c => ?_
    · refine List.Nodup.append h.chain.nodup (nodup_freeClusters _) fun c hc hfree => ?_
      exact hs.owns_fat_ne_zero (h.owns hc) (mem_freeClusters.mp hfree).2
    · rw [List.mem_append]
      by_cases hc : c ∈ cs
      · refine iff_of_true (mem_freeClusters.mpr ⟨(hs.mem_bounds (h.owns hc)).2, ?_⟩) (Or.inl hc)
        show s'.fat c = 0
        rw [h.fat, if_pos hc]
      · have hfat : s'.fat c = s.fat c := h.fat_of_not_mem hc
        rw [or_iff_right hc, mem_freeClusters, mem_freeClusters]
        exact and_congr_right fun _ => by
          show s'.fat c = 0 ↔ s.fat c = 0
          rw [hfat]
  rw [freeEntries_eq, freeEntries_eq, hperm.length_eq, List.length_append, Nat.add_comm]

/-- The removed item. -/
theorem look_removed :
    s.cabinet.look p (s.table p k).key = some (s.item (s.table p k)) := by
  rw [look_of_drawer (cabinet_drawer h.child.1)]
  exact look_child (hs.table p h.child.1) h.child.2.1 h.child.2.2

/-- It took the clusters of its chain. -/
theorem cost_removed :
    cost File.clusters (s.item (s.table p k)) = cs.length := by
  by_cases hdir : (s.table p k).IsDir
  · rw [FileSystem.item, if_pos hdir, hs.dir_chain h.child hdir h.chain]
    rfl
  · rw [FileSystem.item, if_neg hdir, FileSystem.blocks_eq h.chain]
    exact List.length_map _

/-- The other directories stay, but for the removed one. -/
theorem cabinet_other
    {d : UInt32}
    (hp : d ≠ p) :
    s'.cabinet.drawer d = (s.cabinet.dispose (s.item (s.table p k))).drawer d := by
  have hlive := h.liveDir_iff hs d
  have hkept : ¬ ((s.table p k).IsDir ∧ d = (s.table p k).cluster) →
      s'.cabinet.drawer d = s.cabinet.drawer d := by
    intro hstays
    by_cases hd : LiveDir s d
    · have hd' := hlive.mpr ⟨hd, hstays⟩
      rw [cabinet_drawer hd, cabinet_drawer hd', h.drawer_of_ne hs hd' hp]
    · rw [cabinet_no_drawer hd, cabinet_no_drawer fun hd' => hd (hlive.mp hd').1]
  by_cases hdir : (s.table p k).IsDir
  · rw [FileSystem.item, if_pos hdir, dispose, drawer_withDrawer]
    by_cases hc : d = (s.table p k).cluster
    · rw [if_pos hc, cabinet_no_drawer fun hd' => (hlive.mp hd').2 ⟨hdir, hc⟩]
    · rw [if_neg hc, hkept fun he => hc he.2]
  · rw [FileSystem.item, if_neg hdir, dispose, hkept fun he => hdir he.1]

/-- A directory that is removed is not its own parent. -/
theorem parent_stays :
    (s.cabinet.dispose (s.item (s.table p k))).drawer p = some (s.drawer p) ∧ LiveDir s' p := by
  have hstays : ¬ ((s.table p k).IsDir ∧ p = (s.table p k).cluster) :=
    h.not_child_removed h.child
  refine ⟨?_, (h.liveDir_iff hs p).mpr ⟨h.child.1, hstays⟩⟩
  by_cases hdir : (s.table p k).IsDir
  · rw [FileSystem.item, if_pos hdir, dispose, drawer_withDrawer,
      if_neg fun hc => hstays ⟨hdir, hc⟩, cabinet_drawer h.child.1]
  · rw [FileSystem.item, if_neg hdir, dispose, cabinet_drawer h.child.1]

/-- **Removing an entry is an edit of the cabinet.** -/
theorem cabinet :
    s'.cabinet = edited s.cabinet (.take p (s.table p k).key) := by
  obtain ⟨hparent, hlive⟩ := h.parent_stays hs
  rw [edited, apply, h.look_removed hs, Option.elim_some, remove]
  ext1
  · funext d
    rw [drawer_change]
    by_cases hp : d = p
    · rw [if_pos hp, hp, hparent, cabinet_drawer hlive, h.drawer_self hs]
      rfl
    · rw [if_neg hp, h.cabinet_other hs hp]
  · dsimp only
    rw [cabinet_free, cabinet_free, h.cost_removed hs, h.freeEntries hs]

end Removed
end Removals

/-! ## The service -/

/-- Nothing in the drawer has the key.  An empty slot has the blank one. -/
structure Unused (w : Drawer UInt32 Key File) (k : Key) : Prop where
  unlabelled : ¬ w.Labelled k
  absent : w.look k = none
  nonblank : k = Key.blank → w.room = 0

/-- The table lists the items of a drawer. -/
structure Mirrors (t : FAT32DirectoryTable) (w : Drawer UInt32 Key File) : Prop where
  drawers : ∀ k x, w.look k = some (.drawer x) ↔
    ∃ i, 2 ≤ i ∧ LiveMatch t k i ∧ (t i).IsDir ∧ (t i).cluster = x
  papers : ∀ k n, (∃ f : File, w.look k = some (.paper f) ∧ f.filesize = n) ↔
    ∃ i, 2 ≤ i ∧ LiveMatch t k i ∧ ¬ (t i).IsDir ∧ (t i).filesize = n

instance (w : Drawer UInt32 Key File) (k : Key) : Decidable (w.Labelled k) :=
  inferInstanceAs (Decidable (_ ∨ _))

/-- How `read` answers.  The walk for the blank key starts in an empty slot and leaves the
allocation table. -/
def readReply (w : Drawer UInt32 Key File) (r : FAT32DriverRequest) : Except Fault Reply :=
  if w.Labelled r.key then .ok (1, [])
  else
    match w.look r.key with
    | some (.drawer _) => .ok (1, [])
    | some (.paper f) =>
        if r.bufferSize / clusterSize < (ceil (floatClusters f.filesize)).toUInt32 then
          .ok (-1, [])
        else .ok (0, deliveriesFrom 0 f.blocks)
    | none =>
        if r.key = Key.blank ∧ 0 < w.room then .error (Fault.clusterMapIndex cluster0Value)
        else .ok (2, [])

/-- A label with the key `k` in the drawer `w`, whose number is `d`, names the drawer `x`: the first
label that drawer itself, the other one a drawer in which it stands. -/
def Names (c : Cabinet UInt32 Key File) (w : Drawer UInt32 Key File) (d : UInt32) (k : Key)
    (x : UInt32) : Prop :=
  if k = w.label then x = d else k = w.above ∧ ∃ k', c.look x k' = some (.drawer d)

/-- The boot sector is in front of the cluster. -/
def StartsWithBoot (b : ClusterBuffer) : Prop :=
  ∀ i : Fin 512, b ⟨i, by omega⟩ = fsSignature i

/-- What a call answers, and the edit that it makes.  The labels of the root lead to cluster 0. -/
inductive Answers (c : Cabinet UInt32 Key File) (w : Drawer UInt32 Key File) :
    Call → Except Fault Reply → Option (Edit UInt32 Key File) → Prop
  | read (r : FAT32DriverRequest) : Answers c w (.read r) (readReply w r) none
  | listSmall {r : FAT32DriverRequest}
      (dir : w.Labelled r.key ∨ ∃ x, w.look r.key = some (.drawer x))
      (small : r.bufferSize < 32) : Answers c w (.readDirectory r) (.ok (-1, [])) none
  | listRoot {r : FAT32DriverRequest} {b : ClusterBuffer} (label : w.Labelled r.key)
      (root : r.parentClusterNumber = rootClusterNumber) (boot : StartsWithBoot b)
      (large : ¬ r.bufferSize < 32) : Answers c w (.readDirectory r) (.ok (0, [(0, b)])) none
  | listLabel {r : FAT32DriverRequest} {x : UInt32} {w' : Drawer UInt32 Key File}
      {t : FAT32DirectoryTable} (inner : r.parentClusterNumber ≠ rootClusterNumber)
      (names : Names c w r.parentClusterNumber r.key x) (drawer : c.drawer x = some w')
      (mirrors : Mirrors t w') (large : ¬ r.bufferSize < 32) :
      Answers c w (.readDirectory r) (.ok (0, [(0, t.toBytes)])) none
  | list {r : FAT32DriverRequest} {x : UInt32} {w' : Drawer UInt32 Key File}
      {t : FAT32DirectoryTable} (unlabelled : ¬ w.Labelled r.key)
      (found : w.look r.key = some (.drawer x)) (drawer : c.drawer x = some w')
      (mirrors : Mirrors t w') (large : ¬ r.bufferSize < 32) :
      Answers c w (.readDirectory r) (.ok (0, [(0, t.toBytes)])) none
  | listPaper {r : FAT32DriverRequest} {f : File} (unlabelled : ¬ w.Labelled r.key)
      (found : w.look r.key = some (.paper f)) :
      Answers c w (.readDirectory r) (.ok (1, [])) none
  | listNone {r : FAT32DriverRequest} (unlabelled : ¬ w.Labelled r.key)
      (absent : w.look r.key = none) : Answers c w (.readDirectory r) (.ok (2, [])) none
  | writeUsed {r : FAT32DriverRequest} (used : ¬ Unused w r.key) :
      Answers c w (.write r) (.ok (1, [])) none
  | writeFull {r : FAT32DriverRequest} (unused : Unused w r.key) (full : w.room = 0) :
      Answers c w (.write r) (.ok (-1, [])) none
  | writeNoSpace {r : FAT32DriverRequest} (unused : Unused w r.key) (room : 0 < w.room)
      (space : c.free < (required r).toNat) : Answers c w (.write r) (.ok (-1, [])) none
  | writeNothing {r : FAT32DriverRequest} (unused : Unused w r.key) (room : 0 < w.room)
      (nothing : required r = 0) : Answers c w (.write r) (.error Fault.emptySlotBuf) none
  | write {r : FAT32DriverRequest} (unused : Unused w r.key) (x : UInt32)
      (admits : Admits File.clusters c (r.edit (w.label.1, fun _ => 0) x)) :
      Answers c w (.write r) (.ok (0, [])) (some (r.edit (w.label.1, fun _ => 0) x))
  | deleteNone {r : FAT32DriverRequest} (unused : Unused w r.key) :
      Answers c w (.delete r) (.ok (1, [])) none
  | deleteKept {r : FAT32DriverRequest}
      (dir : w.Labelled r.key ∨ ∃ x w', w.look r.key = some (.drawer x) ∧
        c.drawer x = some w' ∧ ¬ w'.Empty) : Answers c w (.delete r) (.ok (2, [])) none
  | delete {r : FAT32DriverRequest} (unlabelled : ¬ w.Labelled r.key)
      (admits : Admits File.clusters c (.take r.parentClusterNumber r.key)) :
      Answers c w (.delete r) (.ok (0, [])) (some (.take r.parentClusterNumber r.key))

/-- The call with its reply takes the cabinet from `c` to `c'`. -/
def Serves (c : Cabinet UInt32 Key File) (call : Call) (reply : Except Fault Reply)
    (c' : Cabinet UInt32 Key File) : Prop :=
  ∃ w e, c.drawer call.request.parentClusterNumber = some w ∧ Answers c w call reply e ∧
    c' = e.elim c (edited c)

section Service

variable {s : FileSystem} {d : UInt32} {k : Key}

theorem labelled_iff :
    (s.drawer d).Labelled k ↔ ∃ i : Fin 64, i < 2 ∧ (s.table d i).key = k := by
  constructor
  · rintro (h | h)
    · exact ⟨0, by decide, h.symm⟩
    · exact ⟨1, by decide, h.symm⟩
  · rintro ⟨i, hi, rfl⟩
    have hcase : i = 0 ∨ i = 1 := by omega
    rcases hcase with rfl | rfl
    · exact Or.inl rfl
    · exact Or.inr rfl

/-- The labels take no key of a child. -/
theorem not_labelled_child
    (ht : TableSound (s.table d))
    {i : Fin 64}
    (hi : 2 ≤ i)
    (hl : (s.table d i).Live) :
    ¬ (s.drawer d).Labelled (s.table d i).key := by
  rw [labelled_iff]
  rintro ⟨j, hj, hkey⟩
  exact ht.distinct i j hi hl (ht.record j hj).1 (fun he => absurd hi (not_le.mpr (he ▸ hj)))
    hkey.symm

theorem room_pos_iff :
    0 < (s.drawer d).room ↔ ∃ i, ¬ (s.table d i).Live := by
  rw [FileSystem.drawer, Finset.card_pos]
  simp [Finset.Nonempty]

theorem unused_iff
    (ht : TableSound (s.table d)) :
    Unused (s.drawer d) k ↔ NoMatch (s.table d) k := by
  constructor
  · rintro ⟨hlabel, habsent, hblank⟩ i rfl
    by_cases hi : 2 ≤ i
    · by_cases hl : (s.table d i).Live
      · exact look_eq_none_iff.mp habsent i hi ⟨hl, rfl⟩
      · have hroom := hblank (ht.key_of_not_live hl)
        exact (Nat.pos_iff_ne_zero.mp (room_pos_iff.mpr ⟨i, hl⟩)) hroom
    · exact hlabel (labelled_iff.mpr ⟨i, not_le.mp hi, rfl⟩)
  · intro h
    refine ⟨fun hlabel => ?_, look_eq_none_iff.mpr fun i _ hm => h i hm.2, fun hblank => ?_⟩
    · obtain ⟨i, -, hkey⟩ := labelled_iff.mp hlabel
      exact h i hkey
    · by_contra hroom
      obtain ⟨i, hl⟩ := room_pos_iff.mp (Nat.pos_of_ne_zero hroom)
      exact h i ((ht.key_of_not_live hl).trans hblank.symm)

/-- The first match in use is a label or an item. -/
theorem firstLiveMatch_cases
    (ht : TableSound (s.table d))
    {i : Fin 64}
    (hi : FirstLiveMatch (s.table d) k i) :
    ((s.drawer d).Labelled k ∧ i < 2 ∧ (s.table d i).IsDir) ∨
      (¬ (s.drawer d).Labelled k ∧ 2 ≤ i ∧
        (s.drawer d).look k = some (s.item (s.table d i))) := by
  obtain ⟨⟨hl, rfl⟩, -⟩ := hi
  by_cases h2 : 2 ≤ i
  · exact Or.inr ⟨not_labelled_child ht h2 hl, h2, look_child ht h2 hl⟩
  · have hlow := not_le.mp h2
    exact Or.inl ⟨labelled_iff.mpr ⟨i, hlow, rfl⟩, hlow, (ht.record i hlow).2⟩

/-- The two records of the root have the same key. -/
theorem firstLiveMatch_root
    (ht : TableSound (s.table rootClusterNumber))
    (hr : Recorded s)
    {i : Fin 64}
    (hi : FirstLiveMatch (s.table rootClusterNumber) k i)
    (hlow : i < 2) :
    (s.table rootClusterNumber i).cluster = 0 := by
  have hkey : (s.table rootClusterNumber 0).key = (s.table rootClusterNumber i).key := by
    have hrecords : ∀ j : Fin 64, j < 2 → (rootTable 0).key = (rootTable j).key := by decide
    rw [hr.root 0 (by decide), hr.root i hlow, hrecords i hlow]
  have hzero : i = 0 := by
    by_contra hne
    exact hi.2 0 (Fin.pos_of_ne_zero hne) ⟨(ht.record 0 (by decide)).1, hkey.trans hi.1.2⟩
  rw [hzero, hr.root 0 (by decide)]
  rfl

/-- A record that matches names a directory of the tree. -/
theorem names_firstLiveMatch
    (hs : Sound s)
    (hr : Recorded s)
    (hd : LiveDir s d)
    (hroot : d ≠ rootClusterNumber)
    {i : Fin 64}
    (hi : FirstLiveMatch (s.table d) k i)
    (hlow : i < 2) :
    Names s.cabinet (s.drawer d) d k (s.table d i).cluster ∧
      LiveDir s (s.table d i).cluster := by
  have ht := hs.table d hd
  have hcase : i = 0 ∨ i = 1 := by omega
  rcases hcase with rfl | rfl
  · have hown : k = (s.drawer d).label := hi.1.2.symm
    rw [Names, if_pos hown, hr.self d hd hroot]
    exact ⟨rfl, hd⟩
  · have hother : k ≠ (s.drawer d).label := fun hown =>
      hi.2 0 (by decide) ⟨(ht.record 0 (by decide)).1, hown.symm⟩
    rcases liveDir_cases hd with hself | ⟨p, j, hchild, hdir, rfl⟩
    · exact absurd hself hroot
    · rw [Names, if_neg hother, hr.parent p j hchild hdir]
      refine ⟨⟨hi.1.2.symm, (s.table p j).key, ?_⟩, hchild.1⟩
      rw [look_of_drawer (cabinet_drawer hchild.1),
        look_child (hs.table p hchild.1) hchild.2.1 hchild.2.2, FileSystem.item, if_pos hdir]

theorem startsWithBoot_cluster_zero
    (hs : Sound s) :
    StartsWithBoot (s.data 0) := by
  intro i
  have hblock : 4 * physical 0 + (i : Nat) / 512 = 0 := by
    rw [Nat.div_eq_of_lt i.isLt]
    rfl
  have hbyte : (⟨(i : Nat) % 512, Nat.mod_lt _ (by decide)⟩ : Fin 512) = i :=
    Fin.ext (Nat.mod_eq_of_lt i.isLt)
  rw [← hs.boot, ← hblock]
  exact congrArg (s.disk _) hbyte

theorem data_eq_toBytes (c : UInt32) : s.data c = (s.table c).toBytes :=
  (FAT32DirectoryTable.toBytes_ofBytes _).symm

/-- Where no slot in use matches, there is neither a label nor an item. -/
theorem no_liveMatch
    (ht : TableSound (s.table d))
    (h : ∀ i, ¬ LiveMatch (s.table d) k i) :
    ¬ (s.drawer d).Labelled k ∧ (s.drawer d).look k = none := by
  refine ⟨fun hlabel => ?_, look_eq_none_iff.mpr fun i _ => h i⟩
  obtain ⟨i, hi, hkey⟩ := labelled_iff.mp hlabel
  exact h i ⟨(ht.record i hi).1, hkey⟩

/-- A directory is listed by its table. -/
theorem mirrors_table
    (hs : Sound s)
    (hd : LiveDir s d) :
    Mirrors (s.table d) (s.drawer d) := by
  have ht := hs.table d hd
  refine ⟨fun k x => ?_, fun k n => ?_⟩
  · rw [look_eq_some_iff ht]
    refine exists_congr fun i => and_congr_right fun hi => and_congr_right fun hm => ?_
    rw [FileSystem.item]
    by_cases hdir : (s.table d i).IsDir
    · rw [if_pos hdir, Item.drawer.injEq, and_iff_right hdir]
    · rw [if_neg hdir]
      exact iff_of_false (fun he => by cases he) fun he => hdir he.1
  · constructor
    · rintro ⟨f, hlook, rfl⟩
      obtain ⟨i, hi, hm, hitem⟩ := (look_eq_some_iff ht).mp hlook
      rw [FileSystem.item] at hitem
      by_cases hdir : (s.table d i).IsDir
      · rw [if_pos hdir] at hitem
        cases hitem
      · rw [if_neg hdir, Item.paper.injEq] at hitem
        exact ⟨i, hi, hm, hdir, by rw [← hitem]⟩
    · rintro ⟨i, hi, hm, hdir, rfl⟩
      have hitem : s.item (s.table d i) =
          .paper ⟨(s.table d i).filesize, s.blocks (s.table d i).cluster⟩ := if_neg hdir
      exact ⟨_, (look_eq_some_iff ht).mpr ⟨i, hi, hm, hitem⟩, rfl⟩

end Service

section Calls

variable {s : FileSystem} {r : FAT32DriverRequest}
  (hs : Sound s) (hp : LiveDir s r.parentClusterNumber)
include hs hp

theorem read_reply :
    (read r s).result = readReply (s.drawer r.parentClusterNumber) r := by
  have ht := hs.table _ hp
  rw [@read_answer _ (LiveDir s) _ hs hp hp, answer, readReply]
  rcases firstLiveMatch_or (s.parentTable r) r.key with ⟨i, hi⟩ | hnone
  · rw [catalogue_look_some hp hi]
    rcases firstLiveMatch_cases ht hi with ⟨hlabel, -, hdir⟩ | ⟨hlabel, h2, hlook⟩
    · rw [if_pos hlabel, FileSystem.node, if_pos hdir]
    · rw [if_neg hlabel, hlook, FileSystem.node, FileSystem.item]
      by_cases hdir : (s.parentTable r i).IsDir
      · rw [if_pos hdir, if_pos hdir]
      · rw [if_neg hdir, if_neg hdir]
  · obtain ⟨hlabel, hlook⟩ := no_liveMatch ht hnone
    rw [catalogue_look_none hp hnone, if_neg hlabel, hlook]
    rfl

theorem readDirectory_serves
    (hr : Recorded s) :
    ∃ e, Answers s.cabinet (s.drawer r.parentClusterNumber) (.readDirectory r)
      (readDirectory r s).result e ∧ e = none := by
  have ht := hs.table _ hp
  refine ⟨none, ?_, rfl⟩
  rcases firstLiveMatch_or (s.parentTable r) r.key with ⟨i, hi⟩ | hnone
  · rcases firstLiveMatch_cases ht hi with ⟨hlabel, hlow, hdir⟩ | ⟨hlabel, h2, hlook⟩
    · by_cases hsmall : r.bufferSize < 32
      · rw [readDirectory_tooSmall hi hdir hsmall]
        exact Answers.listSmall (Or.inl hlabel) hsmall
      · rw [readDirectory_dir hi hdir hsmall]
        by_cases hroot : r.parentClusterNumber = rootClusterNumber
        · have hzero : (s.parentTable r i).cluster = 0 := by
            have htable : s.parentTable r = s.table rootClusterNumber := congrArg s.table hroot
            rw [htable] at hi ⊢
            exact firstLiveMatch_root (hroot ▸ ht) hr hi hlow
          rw [hzero]
          exact Answers.listRoot hlabel hroot (startsWithBoot_cluster_zero hs) hsmall
        · obtain ⟨hnamed, hlive⟩ := names_firstLiveMatch hs hr hp hroot hi hlow
          rw [data_eq_toBytes]
          exact Answers.listLabel hroot hnamed (cabinet_drawer hlive) (mirrors_table hs hlive)
            hsmall
    · by_cases hdir : (s.parentTable r i).IsDir
      · rw [FileSystem.item, if_pos hdir] at hlook
        by_cases hsmall : r.bufferSize < 32
        · rw [readDirectory_tooSmall hi hdir hsmall]
          exact Answers.listSmall (Or.inr ⟨_, hlook⟩) hsmall
        · have hchild : Child s r.parentClusterNumber i := ⟨hp, h2, hi.1.1⟩
          have hlive := hchild.liveDir hdir
          rw [readDirectory_dir hi hdir hsmall, data_eq_toBytes]
          exact Answers.list hlabel hlook (cabinet_drawer hlive) (mirrors_table hs hlive) hsmall
      · rw [FileSystem.item, if_neg hdir] at hlook
        rw [readDirectory_file hi hdir]
        exact Answers.listPaper hlabel hlook
  · obtain ⟨hlabel, hlook⟩ := no_liveMatch ht hnone
    rw [readDirectory_notFound hnone]
    exact Answers.listNone hlabel hlook

/-- The cabinet admits what a `write` adds. -/
theorem write_admitted
    {s' : FileSystem}
    {k : Fin 64}
    {c : UInt32}
    {rest : List UInt32}
    (hins : Inserted s s' r.parentClusterNumber k (newEntry r c) (c :: rest)
      (newBlocks s r c (c :: rest).length))
    (hunused : Unused (s.drawer r.parentClusterNumber) r.key)
    (hfree : (required r).toNat ≤ (freeClusters s.fatTable).length)
    (hlen : (c :: rest).length = (required r).toNat) :
    Admits File.clusters s.cabinet (r.edit ((s.parentTable r 0).name, fun _ => 0) c) := by
  have hdrawer := cabinet_drawer hp
  have hroom := room_pos_iff.mpr ⟨k, hins.slot.2.1⟩
  rw [← freeEntries_eq] at hfree
  by_cases hf : isFolder r = true
  · have hnew : ¬ LiveDir s c := by
      intro hd
      exact hs.liveDir_fat_ne_zero hd (hins.fresh c (List.mem_cons_self ..)).2
    rw [FAT32DriverRequest.edit, if_pos hf]
    refine Admits.putDrawer _ hdrawer hunused.absent hroom ?_ (cabinet_no_drawer hnew)
    rw [cabinet_free]
    have hone := List.length_pos_of_mem (List.mem_cons_self (a := c) (l := rest))
    omega
  · rw [FAT32DriverRequest.edit, if_neg hf]
    refine Admits.putPaper _ hdrawer hunused.absent hroom ?_
    rwa [cabinet_free, File.clusters, length_chunks]

theorem write_serves :
    ∃ e, Answers s.cabinet (s.drawer r.parentClusterNumber) (.write r)
        ((Call.write r).run s).result e ∧
      ((Call.write r).run s).state.cabinet = e.elim s.cabinet (edited s.cabinet) := by
  have ht := hs.table _ hp
  rw [Call.run, map_apply]
  cases write_cases hs hp with
  | taken hm run =>
      rw [run]
      exact ⟨none, Answers.writeUsed fun h => hm ((unused_iff ht).mp h), rfl⟩
  | full hm hfull run =>
      have hroom : (s.drawer r.parentClusterNumber).room = 0 := by
        by_contra hne
        obtain ⟨i, hi⟩ := room_pos_iff.mp (Nat.pos_of_ne_zero hne)
        exact hi (live_of_full hs hp hfull i)
      rw [run]
      exact ⟨none, Answers.writeFull ((unused_iff ht).mpr hm) hroom, rfl⟩
  | noSpace k hm hk hless run =>
      rw [← freeEntries_eq, ← cabinet_free] at hless
      rw [run]
      exact ⟨none, Answers.writeNoSpace ((unused_iff ht).mpr hm) (room_pos_iff.mpr ⟨k, hk.2.1⟩)
        hless, rfl⟩
  | emptySlotBuf k hm hk hzero run =>
      rw [run]
      exact ⟨none, Answers.writeNothing ((unused_iff ht).mpr hm)
        (room_pos_iff.mpr ⟨k, hk.2.1⟩) hzero, rfl⟩
  | done k c rest s' w hbuf hfree run hins =>
      have hlen := length_slotBuf_eq hbuf hfree
      have hunused := (unused_iff ht).mpr hins.noMatch
      rw [run]
      exact ⟨some _, Answers.write hunused c (write_admitted hs hp hins hunused hfree hlen),
        hins.cabinet hs hlen⟩

omit hp in
/-- A directory that is not empty has an item. -/
theorem not_empty_drawer
    {d : UInt32}
    (hd : LiveDir s d)
    (hfull : ¬ isEmptyTable (s.table d) = true) :
    ¬ (s.drawer d).Empty := by
  intro hempty
  refine hfull ((isEmptyTable_iff _).mpr fun i hi hl => ?_)
  have hlook := look_child (hs.table d hd) hi hl
  rw [hempty] at hlook
  cases hlook

theorem delete_serves
    (hsafe : SafeDelete s r) :
    ∃ e, Answers s.cabinet (s.drawer r.parentClusterNumber) (.delete r)
        ((Call.delete r).run s).result e ∧
      ((Call.delete r).run s).state.cabinet = e.elim s.cabinet (edited s.cabinet) := by
  have ht := hs.table _ hp
  rw [Call.run, map_apply]
  cases delete_cases hs hp hsafe with
  | absent hm run =>
      rw [run]
      exact ⟨none, Answers.deleteNone ((unused_iff ht).mpr hm), rfl⟩
  | notEmpty k hk hdir hfull run =>
      rw [run]
      refine ⟨none, Answers.deleteKept ?_, rfl⟩
      by_cases h2 : 2 ≤ k
      · have hl : (s.parentTable r k).Live := by
          by_contra hl
          have hzero : s.parentTable r k = FAT32DirectoryEntry.zero := ht.dead k h2 hl
          rw [hzero] at hdir
          exact absurd hdir (by decide)
        have hchild : Child s r.parentClusterNumber k := ⟨hp, h2, hl⟩
        have hlive := hchild.liveDir hdir
        have hlook := look_child ht h2 hl
        rw [FileSystem.item, if_pos hdir, hk.1] at hlook
        exact Or.inr ⟨_, _, hlook, cabinet_drawer hlive, not_empty_drawer hs hlive hfull⟩
      · exact Or.inl (labelled_iff.mpr ⟨k, not_le.mp h2, hk.1⟩)
  | removed k cs s' w hk run hrem =>
      have hlook := hrem.look_removed hs
      have hcabinet := hrem.cabinet hs
      have hlabel := not_labelled_child ht hrem.child.2.1 hrem.child.2.2
      rw [hk.1] at hlook hcabinet hlabel
      rw [run]
      refine ⟨some _, Answers.delete hlabel ?_, hcabinet⟩
      by_cases hdir : (s.parentTable r k).IsDir
      · rw [FileSystem.item, if_pos hdir] at hlook
        refine Admits.takeDrawer _ hlook (cabinet_drawer (hrem.child.liveDir hdir)) ?_ ?_
        · exact fun key => look_eq_none_iff.mpr fun i hi hm => hrem.emptyDir hdir i hi hm.1
        · exact fun hself => hrem.not_child_removed hrem.child ⟨hdir, hself.symm⟩
      · rw [FileSystem.item, if_neg hdir] at hlook
        exact Admits.takePaper hlook

end Calls

/-- **Every safe call serves the cabinet.** -/
theorem safe_serves
    {s : FileSystem}
    {call : Call}
    (hs : Sound s)
    (hr : Recorded s)
    (hc : Safe s call) :
    Serves s.cabinet call (call.run s).result (after s call).cabinet := by
  have hp := hc.parent
  refine ⟨s.drawer call.request.parentClusterNumber, ?_⟩
  cases call with
  | read r =>
      refine ⟨none, cabinet_drawer hp, ?_, by rw [after_read]; rfl⟩
      have hreply : ((Call.read r).run s).result =
          readReply (s.drawer r.parentClusterNumber) r := read_reply hs hp
      rw [hreply]
      exact Answers.read r
  | readDirectory r =>
      obtain ⟨e, hanswer, rfl⟩ := readDirectory_serves hs hp hr
      exact ⟨none, cabinet_drawer hp, hanswer, by rw [after_readDirectory]; rfl⟩
  | write r =>
      obtain ⟨e, hanswer, hcabinet⟩ := write_serves hs hp
      exact ⟨e, cabinet_drawer hp, hanswer, hcabinet⟩
  | delete r =>
      obtain ⟨e, hanswer, hcabinet⟩ := delete_serves hs hp (hc.delete r rfl)
      exact ⟨e, cabinet_drawer hp, hanswer, hcabinet⟩

/-! ## Calls that come back -/

section Replies

variable {s : FileSystem} {r : FAT32DriverRequest} {code : Int8} {ds : List Delivery}

/-- Only a request of the wrong size makes `write` fault in a directory of the tree. -/
theorem write_answers
    (hs : Sound s)
    (hp : LiveDir s r.parentClusterNumber)
    (hrequired : required r ≠ 0) :
    ∃ code, (write r s).result = .ok code := by
  cases write_cases hs hp with
  | taken hm run => exact ⟨1, by rw [run]⟩
  | full hm hfull run => exact ⟨-1, by rw [run]⟩
  | noSpace k hm hk hfree run => exact ⟨-1, by rw [run]⟩
  | emptySlotBuf k hm hk hzero run => exact absurd hzero hrequired
  | done k c rest s' w hbuf hfree run hins => exact ⟨0, by rw [run]⟩

/-- Only the blank key makes `read` fault there. -/
theorem read_answers
    (hs : Sound s)
    (hp : LiveDir s r.parentClusterNumber)
    (hkey : r.key ≠ Key.blank) :
    ∃ reply, (read r s).result = .ok reply := by
  have hblank : ¬ (r.key = Key.blank ∧ 0 < (s.drawer r.parentClusterNumber).room) :=
    fun h => hkey h.1
  rw [read_reply hs hp, readReply, if_neg hblank]
  split_ifs
  · exact ⟨_, rfl⟩
  · split
    · exact ⟨_, rfl⟩
    · split_ifs
      · exact ⟨_, rfl⟩
      · exact ⟨_, rfl⟩
    · exact ⟨_, rfl⟩

/-- `read` stores whole clusters one behind the other, and no more than fit into the buffer. -/
theorem read_deliveries
    (h : Reached NewSystem WellScoped after s)
    (hp : LiveDir s r.parentClusterNumber)
    (hread : (read r s).result = .ok (code, ds)) :
    ∃ bs, ds = deliveriesFrom 0 bs ∧ bs.length * 2048 ≤ r.bufferSize.toNat := by
  have hs := wellScopedRun_sound h
  have ht := hs.table _ hp
  have hnothing : ds = [] → ∃ bs, ds = deliveriesFrom 0 bs ∧
      bs.length * 2048 ≤ r.bufferSize.toNat := fun hnil => ⟨[], hnil, by simp⟩
  rw [read_reply hs hp, readReply] at hread
  by_cases hlabel : (s.drawer r.parentClusterNumber).Labelled r.key
  · rw [if_pos hlabel] at hread
    exact hnothing (by cases hread; rfl)
  · rw [if_neg hlabel] at hread
    cases hlook : (s.drawer r.parentClusterNumber).look r.key with
    | none =>
        rw [hlook] at hread
        dsimp only at hread
        split_ifs at hread
        exact hnothing (by cases hread; rfl)
    | some item =>
        obtain ⟨i, hi, ⟨hl, hkey⟩, hitem⟩ := (look_eq_some_iff ht).mp hlook
        have hchild : Child s r.parentClusterNumber i := ⟨hp, hi, hl⟩
        rw [hlook] at hread
        cases item with
        | drawer x => exact hnothing (by cases hread; rfl)
        | paper f =>
            rw [FileSystem.item] at hitem
            split_ifs at hitem with hdir
            obtain ⟨-, cs, hcs, -⟩ := hs.chain _ i hchild
            obtain ⟨-, hsmall⟩ := wellScopedRun_filesize h _ i hchild hdir
            have hlen := wellScopedRun_sized h _ i cs hchild hdir hcs
            rw [FileSystem.blocks_eq hcs] at hitem
            cases hitem
            dsimp only at hread
            split_ifs at hread with hfits
            · exact hnothing (by cases hread; rfl)
            · cases hread
              have hbytes := (tooSmall_iff_bytes (r := r) (i := i) hsmall).not.mp hfits
              refine ⟨_, rfl, ?_⟩
              rw [List.length_map, hlen, Nat.mul_comm]
              exact Nat.not_lt.mp hbytes

end Replies

end Fat32
end OS2024
