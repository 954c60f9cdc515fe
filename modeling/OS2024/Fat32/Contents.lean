import OS2024.Lib.Catalogue
import OS2024.Fat32.Accounting
import OS2024.Fat32.Frame
import OS2024.Fat32.RoundTrip

/-!
# What a file system contains

Cluster numbers and slots are not visible to a client.  The catalogue of a file system
keeps what is: the folders and the files with their bytes, the number of empty slots and
of free clusters.  `write` is an insertion into the catalogue and `read` is answered from
it, so calls that only differ in the layout they produce cannot be told apart.

**Results.**
* `Inserted.catalogue`, `write_admits`: `write` refines the insertion.
* `read_answer`: `read` is answered from the catalogue.
* `independent_writes`: writes under different keys can be swapped.
-/

namespace OS2024
namespace Fat32

open TracedState LinkedChain Runs Catalogue

/-- What a client can read of an entry. -/
inductive Node
  | folder
  | file (filesize : UInt32) (blocks : List ClusterBuffer)

open Classical in
/-- The clusters of the chain from `c`, in order. -/
noncomputable def FileSystem.blocks (s : FileSystem) (c : UInt32) : List ClusterBuffer :=
  if h : ∃ cs, FatChain s c cs then h.choose.map s.data else []

theorem FileSystem.blocks_eq {s : FileSystem} {c : UInt32} {cs : List UInt32}
    (h : FatChain s c cs) : s.blocks c = cs.map s.data := by
  have hex : ∃ ds, FatChain s c ds := ⟨cs, h⟩
  rw [FileSystem.blocks, dif_pos hex, hex.choose_spec.unique h]

/-- What a client can read of the entry `e`. -/
noncomputable def FileSystem.node (s : FileSystem) (e : FAT32DirectoryEntry) : Node :=
  if e.IsDir then Node.folder else Node.file e.filesize (s.blocks e.cluster)

/-- Slot `i` is in use and has the key `k`. -/
abbrev LiveMatch (t : FAT32DirectoryTable) (k : Key) (i : Fin 64) : Prop :=
  (t i).Live ∧ (t i).key = k

/-- What the directories `dirs` contain. -/
noncomputable def FileSystem.catalogue (dirs : UInt32 → Prop) (s : FileSystem) :
    Catalogue {d // dirs d} Key Node where
  look d k := (Fin.find? fun i => decide (LiveMatch (s.table d) k i)).map fun i =>
    s.node (s.table d i)
  room d := (Finset.univ.filter fun i => ¬ (s.table d i).Live).card
  free := s.freeEntries

/-- The catalogue entry that a `write` asks for. -/
def FAT32DriverRequest.entry {dirs : UInt32 → Prop} (r : FAT32DriverRequest)
    (hd : dirs r.parentClusterNumber) : Entry {d // dirs d} Key Node where
  dir := ⟨r.parentClusterNumber, hd⟩
  key := r.key
  value := if isFolder r then Node.folder
    else Node.file r.bufferSize (chunks r.buf 0 (required r).toNat)
  cost := (required r).toNat

@[simp] theorem entry_dir {dirs : UInt32 → Prop} (r : FAT32DriverRequest)
    (hd : dirs r.parentClusterNumber) : (r.entry hd).dir = ⟨r.parentClusterNumber, hd⟩ := rfl

@[simp] theorem entry_key {dirs : UInt32 → Prop} (r : FAT32DriverRequest)
    (hd : dirs r.parentClusterNumber) : (r.entry hd).key = r.key := rfl

@[simp] theorem entry_cost {dirs : UInt32 → Prop} (r : FAT32DriverRequest)
    (hd : dirs r.parentClusterNumber) : (r.entry hd).cost = (required r).toNat := rfl

theorem catalogue_free (dirs : UInt32 → Prop) (s : FileSystem) :
    (s.catalogue dirs).free = s.freeEntries := by
  rw [FileSystem.catalogue]

section Catalogues

variable {s : FileSystem} {dirs : UInt32 → Prop} {d : UInt32} (hd : dirs d) {k : Key}
  {i : Fin 64}

theorem catalogue_look_some (h : FirstLiveMatch (s.table d) k i) :
    (s.catalogue dirs).look ⟨d, hd⟩ k = some (s.node (s.table d i)) := by
  have hfind : (Fin.find? fun i => decide (LiveMatch (s.table d) k i)) = some i := by
    rw [Fin.find?_eq_some_iff]
    exact ⟨decide_eq_true h.1, fun j hj => decide_eq_false (h.2 j hj)⟩
  exact congrArg (Option.map _) hfind

theorem catalogue_look_none (h : ∀ i, ¬ LiveMatch (s.table d) k i) :
    (s.catalogue dirs).look ⟨d, hd⟩ k = none := by
  have hfind : (Fin.find? fun i => decide (LiveMatch (s.table d) k i)) = none := by
    rw [Fin.find?_eq_none_iff]
    exact fun i => decide_eq_false (h i)
  exact congrArg (Option.map _) hfind

theorem catalogue_look_eq_none_iff :
    (s.catalogue dirs).look ⟨d, hd⟩ k = none ↔ ∀ i, ¬ LiveMatch (s.table d) k i := by
  refine ⟨fun h => ?_, catalogue_look_none hd⟩
  rcases firstLiveMatch_or (s.table d) k with ⟨i, hi⟩ | hnone
  · rw [catalogue_look_some hd hi] at h
    cases h
  · exact hnone

theorem catalogue_room :
    (s.catalogue dirs).room ⟨d, hd⟩ =
      (Finset.univ.filter fun i => ¬ (s.table d i).Live).card := rfl

theorem catalogue_room_pos_iff :
    0 < (s.catalogue dirs).room ⟨d, hd⟩ ↔ ∃ i, ¬ (s.table d i).Live := by
  rw [catalogue_room, Finset.card_pos]
  simp [Finset.Nonempty]

end Catalogues

section Keys

variable {s : FileSystem} {t : FAT32DirectoryTable} {k : Key} {i : Fin 64}

/-- Under a key that is not blank all matches are in use. -/
theorem TableSound.noMatch_iff (ht : TableSound t) (hk : k ≠ Key.blank) :
    NoMatch t k ↔ ∀ i, ¬ LiveMatch t k i := by
  refine ⟨fun h i hi => h i hi.2, fun h i hi => h i ⟨?_, hi⟩⟩
  by_contra hl
  rw [ht.key_of_not_live hl] at hi
  exact hk hi.symm

/-- The first match in use is the first match: empty slots do not come before it. -/
theorem TableSound.firstMatch_of_live (ht : TableSound t) (h : FirstLiveMatch t k i) :
    FirstMatch t k i := by
  refine ⟨h.1.2, fun j hj hk => h.2 j hj ⟨?_, hk⟩⟩
  by_contra hl
  have h2j := ht.two_le_of_not_live hl
  rw [ht.key_of_not_live hl] at hk
  exact ht.nonblank i (le_trans h2j (le_of_lt hj)) h.1.1 (h.1.2.trans hk.symm)

end Keys

section Insertions

variable {s s' : FileSystem} {dirs : UInt32 → Prop} {p : UInt32} {k : Fin 64}
  {e : FAT32DirectoryEntry} {cs : List UInt32} {blocks : List ClusterBuffer}

/-- A child that is kept shows a client the same. -/
theorem Kept.node {d : UInt32} {i : Fin 64} (hs : Sound s) (hd : Child s d i)
    (h : Kept s s' d i) : s'.node (s'.table d i) = s.node (s.table d i) := by
  obtain ⟨-, cs, hcs, -⟩ := hs.chain d i hd
  rw [h.entry, FileSystem.node, FileSystem.node]
  split_ifs with hdir
  · rfl
  · rw [FileSystem.blocks_eq hcs, FileSystem.blocks_eq (h.chain cs hcs), h.content hdir cs hcs]

namespace Inserted

/-- Under other keys the same slots match. -/
theorem liveMatch_iff_of_ne (h : Inserted s s' p k e cs blocks) (hs : Sound s) {d : UInt32}
    (hd : LiveDir s d) {key : Key} (hne : ¬(d = p ∧ key = e.key)) (i : Fin 64) :
    LiveMatch (s'.table d) key i ↔ LiveMatch (s.table d) key i := by
  by_cases hslot : d = p ∧ i = k
  · obtain ⟨rfl, rfl⟩ := hslot
    refine iff_of_false (fun hm => ?_) (fun hm => h.slot.2.1 hm.1)
    rw [LiveMatch, h.slot_self] at hm
    exact hne ⟨rfl, hm.2.symm⟩
  · rw [LiveMatch, LiveMatch, h.slot_eq hs hd hslot]

/-- What was in use shows a client the same. -/
theorem node_of_live (h : Inserted s s' p k e cs blocks) (hs : Sound s) {d : UInt32}
    (hd : LiveDir s d) {i : Fin 64} (hl : (s.table d i).Live) :
    s'.node (s'.table d i) = s.node (s.table d i) := by
  by_cases hi : 2 ≤ i
  · have hchild : Child s d i := ⟨hd, hi, hl⟩
    exact (h.kept hs hchild).node hs hchild
  · have hdir := ((hs.table d hd).record i (not_le.mp hi)).2
    have hslot : s'.table d i = s.table d i :=
      h.slot_eq hs hd fun he => h.slot.2.1 (by rw [← he.1, ← he.2]; exact hl)
    rw [hslot, FileSystem.node, FileSystem.node, if_pos hdir, if_pos hdir]

/-- The new entry takes one slot. -/
theorem room (h : Inserted s s' p k e cs blocks) :
    (Finset.univ.filter fun i => ¬ (s'.table p i).Live).card =
      (Finset.univ.filter fun i => ¬ (s.table p i).Live).card - 1 := by
  have hmem : k ∈ Finset.univ.filter fun i => ¬ (s.table p i).Live := by
    simpa using h.slot.2.1
  rw [← Finset.card_erase_of_mem hmem]
  congr 1
  ext i
  by_cases hi : i = k
  · subst hi
    simp [h.slot_self, h.live]
  · simp [h.slot_of_ne hi, hi]

/-- The clusters of the new chain are no longer free. -/
theorem freeEntries (h : Inserted s s' p k e cs blocks) (hs : Sound s) :
    s'.freeEntries = s.freeEntries - cs.length := by
  have hperm : (freeClusters s.fatTable).Perm (cs ++ freeClusters s'.fatTable) := by
    refine (List.perm_ext_iff_of_nodup (nodup_freeClusters _) ?_).mpr fun c => ?_
    · refine List.Nodup.append h.nodup (nodup_freeClusters _) fun c hc hfree => ?_
      exact ((h.sound hs).owns_fat_ne_zero ((h.owns_new_iff hs c).mpr hc))
        (mem_freeClusters.mp hfree).2
    · rw [List.mem_append]
      by_cases hc : c ∈ cs
      · exact iff_of_true (mem_freeClusters.mpr (h.fresh c hc)) (Or.inl hc)
      · have hfat : s'.fat c = s.fat c := by rw [h.fat, link_of_not_mem hc]
        rw [or_iff_right hc, mem_freeClusters, mem_freeClusters]
        exact and_congr_right fun _ => by
          show s.fat c = 0 ↔ s'.fat c = 0
          rw [hfat]
  rw [freeEntries_eq, freeEntries_eq, hperm.length_eq, List.length_append]
  omega

/-- Under other keys a client finds the same. -/
theorem look_of_ne (h : Inserted s s' p k e cs blocks) (hs : Sound s) {d : UInt32}
    (hd : dirs d) (hlive : LiveDir s d) {key : Key} (hne : ¬(d = p ∧ key = e.key)) :
    (s'.catalogue dirs).look ⟨d, hd⟩ key = (s.catalogue dirs).look ⟨d, hd⟩ key := by
  have hmatch := h.liveMatch_iff_of_ne hs hlive hne
  rcases firstLiveMatch_or (s.table d) key with ⟨i, hi⟩ | hnone
  · have hi' : FirstLiveMatch (s'.table d) key i :=
      ⟨(hmatch i).mpr hi.1, fun j hj hm => hi.2 j hj ((hmatch j).mp hm)⟩
    rw [catalogue_look_some hd hi, catalogue_look_some hd hi', h.node_of_live hs hlive hi.1.1]
  · rw [catalogue_look_none hd hnone,
      catalogue_look_none hd fun i hm => hnone i ((hmatch i).mp hm)]

end Inserted

variable {r : FAT32DriverRequest} {c : UInt32} {rest : List UInt32}

/-- The new entry shows a client what was written. -/
theorem Inserted.node_new
    (h : Inserted s s' r.parentClusterNumber k (newEntry r c) (c :: rest)
      (newBlocks s r c (c :: rest).length))
    (hlen : (c :: rest).length = (required r).toNat) (hd : dirs r.parentClusterNumber) :
    s'.node (newEntry r c) = (r.entry hd).value := by
  by_cases hf : isFolder r = true
  · have hdir := (newEntry_isDir_iff c).mpr hf
    rw [FileSystem.node, if_pos hdir, FAT32DriverRequest.entry, if_pos hf]
  · have hdir : ¬ (newEntry r c).IsDir := fun hd => hf ((newEntry_isDir_iff c).mp hd)
    rw [FileSystem.node, if_neg hdir, FAT32DriverRequest.entry, if_neg hf,
      FileSystem.blocks_eq h.chain_new, h.content, newBlocks, if_neg hf, hlen]
    rfl

/-- **Adding an entry inserts it into the catalogue.** -/
theorem Inserted.catalogue
    (h : Inserted s s' r.parentClusterNumber k (newEntry r c) (c :: rest)
      (newBlocks s r c (c :: rest).length))
    (hs : Sound s) (hlen : (c :: rest).length = (required r).toNat)
    (hdirs : ∀ d, dirs d → LiveDir s d) (hd : dirs r.parentClusterNumber) :
    s'.catalogue dirs = (s.catalogue dirs).insert (r.entry hd) := by
  ext1
  · funext ⟨d, hdd⟩ key
    by_cases hplace : d = r.parentClusterNumber ∧ key = r.key
    · obtain ⟨rfl, rfl⟩ := hplace
      have hfirst := (h.firstMatch hs).firstLive (by rw [h.slot_self]; exact h.live)
      rw [newEntry_key] at hfirst
      rw [catalogue_look_some hdd hfirst, h.slot_self, h.node_new hlen hd]
      exact (look_insert_self (c := s.catalogue dirs) (e := r.entry hd)).symm
    · rw [h.look_of_ne hs hdd (hdirs d hdd) hplace, look_insert_of_ne]
      exact fun he => hplace ⟨congrArg Subtype.val he.1, he.2⟩
  · funext ⟨d, hdd⟩
    by_cases hp : d = r.parentClusterNumber
    · subst hp
      have hself := room_insert_self (c := s.catalogue dirs) (e := r.entry hd)
      rw [entry_dir] at hself
      rw [hself, catalogue_room, catalogue_room, h.room]
    · rw [room_insert_of_ne fun he => hp (congrArg Subtype.val he)]
      rw [catalogue_room, catalogue_room, h.table_of_ne_parent hs (hdirs d hdd) hp]
  · rw [free_insert, catalogue_free, catalogue_free, entry_cost, h.freeEntries hs, hlen]

end Insertions

/-! ## Writing -/

section Writing

variable {s : FileSystem} {dirs : UInt32 → Prop} {r : FAT32DriverRequest}

/-- **`write` returns 0 exactly if the catalogue admits the entry**, and then inserts it. -/
theorem write_admits (hs : Sound s) (hp : LiveDir s r.parentClusterNumber)
    (hpos : 0 < (required r).toNat) (hd : dirs r.parentClusterNumber) :
    (write r s).result = .ok 0 ↔
      (s.catalogue dirs).Admits (r.entry hd) ∧ r.key ≠ Key.blank := by
  have ht := hs.table _ hp
  have hfree := freeEntries_eq s
  cases write_cases hs hp with
  | taken hm run =>
      refine iff_of_false (by simp [run]) ?_
      rintro ⟨⟨hfresh, -, -⟩, hblank⟩
      exact hm ((ht.noMatch_iff hblank).mpr ((catalogue_look_eq_none_iff hd).mp hfresh))
  | full hm hfull run =>
      refine iff_of_false (by simp [run]) ?_
      rintro ⟨⟨-, hroom, -⟩, -⟩
      obtain ⟨i, hi⟩ := (catalogue_room_pos_iff hd).mp hroom
      exact hi (live_of_full hs hp hfull i)
  | noSpace k hm hk hless run =>
      refine iff_of_false (by simp [run]) ?_
      rintro ⟨⟨-, -, hspace⟩, -⟩
      rw [entry_cost, catalogue_free] at hspace
      omega
  | emptySlotBuf k hm hk hzero run =>
      rw [hzero] at hpos
      exact absurd hpos (by decide)
  | done k c rest s' w hbuf hroom run inserted =>
      have hblank := ht.key_ne_blank_of_noMatch inserted.noMatch inserted.slot
      refine iff_of_true (by rw [run]) ⟨⟨?_, ?_, ?_⟩, hblank⟩
      · exact (catalogue_look_eq_none_iff hd).mpr ((ht.noMatch_iff hblank).mp inserted.noMatch)
      · exact (catalogue_room_pos_iff hd).mpr ⟨k, inserted.slot.2.1⟩
      · rw [entry_cost, catalogue_free]
        omega

theorem write_catalogue (hs : Sound s) (hp : LiveDir s r.parentClusterNumber)
    (hw : (write r s).result = .ok 0) (hdirs : ∀ d, dirs d → LiveDir s d)
    (hd : dirs r.parentClusterNumber) :
    (write r s).state.catalogue dirs = (s.catalogue dirs).insert (r.entry hd) := by
  obtain ⟨k, c, rest, hbuf, hfree, hins⟩ := write_inserted hs hp hw
  exact hins.catalogue hs (length_slotBuf_eq hbuf hfree) hdirs hd

end Writing

/-! ## Reading -/

/-- How `read` answers a client that sees the catalogue `c`.  The blank key finds an empty
slot, whose cluster 0 leads out of the allocation table. -/
def answer {D : Type} (c : Catalogue D Key Node) (d : D) (k : Key) (bufferSize : UInt32) :
    Except Fault (Int8 × List Delivery) :=
  match c.look d k with
  | some Node.folder => .ok (1, [])
  | some (Node.file filesize blocks) =>
      if bufferSize / clusterSize < (ceil (floatClusters filesize)).toUInt32 then .ok (-1, [])
      else .ok (0, deliveriesFrom 0 blocks)
  | none =>
      if k = Key.blank ∧ 0 < c.room d then .error (Fault.clusterMapIndex cluster0Value)
      else .ok (2, [])

section Reading

variable {s : FileSystem} {dirs : UInt32 → Prop} {r : FAT32DriverRequest}

/-- The walk from cluster 0 leaves the table with its second step. -/
theorem readChain_zero (hs : Sound s) (rounds j : Nat) :
    (readChain (rounds + 2) j 0 s).result = .error (Fault.clusterMapIndex cluster0Value) := by
  have hout : ¬ cluster0Value.toNat < 512 := by decide
  have hlt : (0 : UInt32).toNat < 512 := by decide
  rw [readChain, if_neg (by decide)]
  simp only [bind_apply, readCluster_apply, clusterMap_apply hlt, hs.fat_zero,
    Outcome.prepend_result]
  rw [readChain, if_neg (by decide)]
  simp only [bind_apply, readCluster_apply, clusterMap_apply_of_not_lt hout, Outcome.prepend]

/-- The first match under the blank key is an empty slot, or one of the records. -/
theorem read_empty_slot (hs : Sound s) (hp : LiveDir s r.parentClusterNumber) {i : Fin 64}
    (hi : FirstMatch (s.parentTable r) r.key i) (hl : ¬ (s.parentTable r i).Live) :
    (read r s).result = .error (Fault.clusterMapIndex cluster0Value) := by
  have ht := hs.table _ hp
  have hzero : s.parentTable r i = FAT32DirectoryEntry.zero :=
    ht.dead i (ht.two_le_of_not_live hl) hl
  have hdir : ¬ (s.parentTable r i).IsDir := by
    rw [hzero]
    decide
  have hlarge : ¬ TooSmall s r i := by
    have hcount : clusterCount FAT32DirectoryEntry.zero.filesize % 256 = 0 := by decide
    rw [tooSmall_iff (by rw [hzero]; decide), hzero, hcount]
    exact Nat.not_lt_zero _
  have hcluster : (s.parentTable r i).cluster = 0 := by
    rw [hzero]
    rfl
  rw [read_walk (hs.parentOk hp) hi hdir hlarge, hcluster]
  exact bind_result_error (readChain_zero hs 510 0)

/-- **`read` is answered from the catalogue.** -/
theorem read_answer (hs : Sound s) (hp : LiveDir s r.parentClusterNumber)
    (hd : dirs r.parentClusterNumber) :
    (read r s).result =
      answer (s.catalogue dirs) ⟨r.parentClusterNumber, hd⟩ r.key r.bufferSize := by
  have ht := hs.table _ hp
  have hok := hs.parentOk hp
  rcases firstLiveMatch_or (s.parentTable r) r.key with ⟨i, hi⟩ | hnone
  · have hfirst := ht.firstMatch_of_live hi
    rw [answer, catalogue_look_some hd hi]
    by_cases hdir : (s.parentTable r i).IsDir
    · rw [read_dir hok hfirst hdir, FileSystem.node, if_pos hdir]
    · have hchild : Child s r.parentClusterNumber i :=
        ⟨hp, ht.two_le_of_not_isDir hdir, hi.1.1⟩
      obtain ⟨-, cs, hcs, -⟩ := hs.chain _ i hchild
      have hread := read_file hs hchild hi.1.2 hdir hcs
      rw [FileSystem.node, if_neg hdir, FileSystem.blocks_eq hcs]
      by_cases hsmall : TooSmall s r i
      · rw [hread.1 hsmall]
        exact (if_pos hsmall).symm
      · rw [hread.2 hsmall]
        exact (if_neg hsmall).symm
  · rw [answer, catalogue_look_none hd hnone]
    rcases firstMatch_or_noMatch (s.parentTable r) r.key with ⟨i, hi⟩ | hm
    · have hl : ¬ (s.parentTable r i).Live := fun hl => hnone i ⟨hl, hi.1⟩
      have hblank : r.key = Key.blank := by rw [← hi.1, ht.key_of_not_live hl]
      rw [read_empty_slot hs hp hi hl]
      exact (if_pos ⟨hblank, (catalogue_room_pos_iff hd).mpr ⟨i, hl⟩⟩).symm
    · rw [read_notFound hok hm]
      refine (if_neg ?_).symm
      rintro ⟨hblank, hroom⟩
      obtain ⟨i, hl⟩ := (catalogue_room_pos_iff hd).mp hroom
      exact hm i (by rw [hblank]; exact ht.key_of_not_live hl)

end Reading

/-! ## Two writes -/

/-- The requests are about different entries. -/
def Independent (r₁ r₂ : FAT32DriverRequest) : Prop :=
  ¬(r₁.parentClusterNumber = r₂.parentClusterNumber ∧ r₁.key = r₂.key)

/-- A small `write` needs a cluster. -/
theorem required_pos {r : FAT32DriverRequest} (hsmall : r.bufferSize.toNat ≤ 255 * 2048) :
    0 < (required r).toNat := by
  by_cases hf : isFolder r = true
  · rw [required_of_isFolder hf]
    decide
  · have hpos : r.bufferSize.toNat ≠ 0 := fun hz =>
      hf (isFolder_iff.mpr (UInt32.toNat_inj.mp hz))
    rw [required_of_small hsmall hf, clusterCount]
    omega

section Swap

variable {s : FileSystem} {r₁ r₂ : FAT32DriverRequest}

/-- A directory that was live stays live after a `write` that returns 0. -/
theorem liveDir_write (hs : Sound s) (hp : LiveDir s r₁.parentClusterNumber)
    (hw : (write r₁ s).result = .ok 0) {d : UInt32} (hd : LiveDir s d) :
    LiveDir (write r₁ s).state d := by
  obtain ⟨k, c, rest, -, -, hins⟩ := write_inserted hs hp hw
  exact (hins.liveDir_iff hs d).mpr (Or.inl hd)

theorem sound_write (hs : Sound s) (hp : LiveDir s r₁.parentClusterNumber)
    (hw : (write r₁ s).result = .ok 0) : Sound (write r₁ s).state := by
  obtain ⟨k, c, rest, -, -, hins⟩ := write_inserted hs hp hw
  exact hins.sound hs

/-- The catalogue after two writes, as seen from the directories that were live before. -/
theorem catalogue_two_writes (hs : Sound s) (hp₁ : LiveDir s r₁.parentClusterNumber)
    (hp₂ : LiveDir s r₂.parentClusterNumber) (hw₁ : (write r₁ s).result = .ok 0)
    (hw₂ : (write r₂ (write r₁ s).state).result = .ok 0) :
    (write r₂ (write r₁ s).state).state.catalogue (LiveDir s) =
      ((s.catalogue (LiveDir s)).insert (r₁.entry hp₁)).insert (r₂.entry hp₂) := by
  rw [write_catalogue (sound_write hs hp₁ hw₁) (liveDir_write hs hp₁ hw₁ hp₂) hw₂
      (fun _ hd => liveDir_write hs hp₁ hw₁ hd) hp₂,
    write_catalogue hs hp₁ hw₁ (fun _ hd => hd) hp₁]

end Swap

/-- **Writes under different keys can be swapped: both succeed in the other order as well,
and no `read` in a directory that was live before tells the two orders apart.** -/
theorem independent_writes
    {s : FileSystem}
    {r₁ r₂ : FAT32DriverRequest}
    (h : Reached NewSystem WellScoped after s)
    (hp₁ : LiveDir s r₁.parentClusterNumber)
    (hp₂ : LiveDir s r₂.parentClusterNumber)
    (hsmall₁ : r₁.bufferSize.toNat ≤ 255 * 2048)
    (hsmall₂ : r₂.bufferSize.toNat ≤ 255 * 2048)
    (hind : Independent r₁ r₂)
    (hw₁ : (write r₁ s).result = .ok 0)
    (hw₂ : (write r₂ (write r₁ s).state).result = .ok 0) :
    (write r₂ s).result = .ok 0 ∧
      (write r₁ (write r₂ s).state).result = .ok 0 ∧
      ∀ r, LiveDir s r.parentClusterNumber →
        (read r (write r₂ (write r₁ s).state).state).result =
          (read r (write r₁ (write r₂ s).state).state).result := by
  have hs := wellScopedRun_sound h
  have hs₁ := sound_write hs hp₁ hw₁
  have hp₂₁ := liveDir_write hs hp₁ hw₁ hp₂
  have hpos₁ := required_pos hsmall₁
  have hpos₂ := required_pos hsmall₂
  have hapart : Apart (r₁.entry hp₁) (r₂.entry hp₂) :=
    fun he => hind ⟨congrArg Subtype.val he.1, he.2⟩
  have hall : ∀ d, LiveDir s d → LiveDir s d := fun _ hd => hd
  -- both insertions are admitted, and then also in the other order
  obtain ⟨hadm₁, hkey₁⟩ := (write_admits hs hp₁ hpos₁ hp₁).mp hw₁
  obtain ⟨hadm₂, hkey₂⟩ := (@write_admits _ (LiveDir s) _ hs₁ hp₂₁ hpos₂ hp₂).mp hw₂
  rw [write_catalogue hs hp₁ hw₁ hall hp₁] at hadm₂
  obtain ⟨hswap₂, hswap₁⟩ := hadm₁.swap hapart hadm₂
  have hw₂' : (write r₂ s).result = .ok 0 :=
    (write_admits hs hp₂ hpos₂ hp₂).mpr ⟨hswap₂, hkey₂⟩
  have hs₂ := sound_write hs hp₂ hw₂'
  have hp₁₂ := liveDir_write hs hp₂ hw₂' hp₁
  have hw₁' : (write r₁ (write r₂ s).state).result = .ok 0 := by
    refine (@write_admits _ (LiveDir s) _ hs₂ hp₁₂ hpos₁ hp₁).mpr ⟨?_, hkey₁⟩
    rw [write_catalogue hs hp₂ hw₂' hall hp₂]
    exact hswap₁
  refine ⟨hw₂', hw₁', fun r hp => ?_⟩
  -- the two orders lead to the same catalogue, from which `read` is answered
  have hsame : (write r₂ (write r₁ s).state).state.catalogue (LiveDir s) =
      (write r₁ (write r₂ s).state).state.catalogue (LiveDir s) := by
    rw [catalogue_two_writes hs hp₁ hp₂ hw₁ hw₂, catalogue_two_writes hs hp₂ hp₁ hw₂' hw₁',
      insert_comm hapart]
  have hlive₁ := liveDir_write hs₁ hp₂₁ hw₂ (liveDir_write hs hp₁ hw₁ hp)
  have hlive₂ := liveDir_write hs₂ hp₁₂ hw₁' (liveDir_write hs hp₂ hw₂' hp)
  rw [@read_answer _ (LiveDir s) _ (sound_write hs₁ hp₂₁ hw₂) hlive₁ hp,
    @read_answer _ (LiveDir s) _ (sound_write hs₂ hp₁₂ hw₁') hlive₂ hp, hsame]

/-- A file and a folder in a new root: the file starts in cluster 3 or in cluster 4. -/
theorem independent_file_and_folder :
    (read (requestFor ['a'] 2 4096)
          (write (requestFor ['b'] 2 0)
            (write (requestFor ['a'] 2 3000) emptySystem).state).state).result =
        (read (requestFor ['a'] 2 4096)
          (write (requestFor ['a'] 2 3000)
            (write (requestFor ['b'] 2 0) emptySystem).state).state).result ∧
      ((write (requestFor ['b'] 2 0)
          (write (requestFor ['a'] 2 3000) emptySystem).state).state.table 2 2).cluster = 3 ∧
      ((write (requestFor ['a'] 2 3000)
          (write (requestFor ['b'] 2 0) emptySystem).state).state.table 2 3).cluster = 4 := by
  have hind : Independent (requestFor ['a'] 2 3000) (requestFor ['b'] 2 0) := by
    rintro ⟨-, hkey⟩
    exact absurd hkey (by decide)
  have hroot : LiveDir emptySystem (requestFor ['a'] 2 4096).parentClusterNumber :=
    liveDir_root _
  refine ⟨?_, by decide +kernel, by decide +kernel⟩
  exact (independent_writes (Reached.start newSystem_emptySystem) (liveDir_root _)
    (liveDir_root _) (by decide) (by decide) hind (by decide +kernel)
    (by decide +kernel)).2.2 _ hroot

end Fat32
end OS2024
