import OS2024.Lib.LinkedChain
import OS2024.Fat32.Scans

/-!
# The loops of the driver

The three loops along the allocation table, each run to its end: `read` copies a chain,
`write` links and fills one, `delete` clears one.

**Results.**
* `readChain_run`: the clusters of the chain are delivered in order.
* `writeLoop_run`: the slots become a chain holding the buffer; nothing else changes.
* `freeChain_run`: entries and clusters of the chain become zero; nothing else changes.
* `initDirectoryTable_apply`: the two records of a new directory table.
-/

namespace OS2024
namespace Fat32

open Stdlib TracedState LinkedChain

/-- The walk along the cached allocation table from cluster `c` visits `cs`. -/
abbrev FatChain (s : FileSystem) (c : UInt32) (cs : List UInt32) : Prop :=
  Linked s.fat fat32FatEndOfFile c cs

/-- The cached table is the one stored in cluster 1. -/
def Synced (s : FileSystem) : Prop :=
  s.data fatClusterNumber = FAT32FileAllocationTable.toBytes s.fatTable

/-- The cluster of bytes that `write` takes from `buf` in round `j`. -/
def chunk (buf : Memory) (j : Nat) : ClusterBuffer := fun k => buf (j * 2048 + k)

/-- The clusters taken in `m` rounds from round `j` on. -/
def chunks (buf : Memory) : Nat → Nat → List ClusterBuffer
  | _, 0 => []
  | j, m + 1 => chunk buf j :: chunks buf (j + 1) m

@[simp] theorem length_chunks (buf : Memory) (j m : Nat) : (chunks buf j m).length = m := by
  induction m generalizing j with
  | zero => rfl
  | succ m ih => rw [chunks, List.length_cons, ih]

/-! ## Reading a chain -/

/-- The deliveries of `read` for consecutive clusters, `j` of them already delivered. -/
def deliveriesFrom : Nat → List ClusterBuffer → List Delivery
  | _, [] => []
  | j, b :: bs => (j * 2048, b) :: deliveriesFrom (j + 1) bs

/-- The events of reading the clusters of a chain. -/
def chainReadEvents (cs : List UInt32) : List DiskEvent :=
  cs.flatMap fun c => clusterReadEvents (physical c)

theorem readChain_run {s : FileSystem} {c : UInt32} {cs : List UInt32}
    (h : FatChain s c cs) (hlt : ∀ x, x ∈ cs → x.toNat < 512)
    {rounds : Nat} (hrounds : cs.length ≤ rounds) (j : Nat) :
    readChain rounds j c s =
      ⟨.ok (deliveriesFrom j (cs.map s.data)), s, chainReadEvents cs⟩ := by
  induction h generalizing rounds j with
  | nil => cases rounds <;> rw [readChain, if_pos rfl] <;> rfl
  | @cons c cs hc hl ih =>
      obtain ⟨rounds, rfl⟩ : ∃ m, rounds = m + 1 :=
        ⟨rounds - 1, by rw [List.length_cons] at hrounds; omega⟩
      have hrest := ih (fun x hx => hlt x (List.mem_cons_of_mem _ hx))
        (Nat.le_of_succ_le_succ hrounds) (j + 1)
      rw [readChain, if_neg hc]
      simp only [bind_apply, readCluster_apply, clusterMap_apply (hlt c List.mem_cons_self),
        hrest, pure_apply, Outcome.prepend, List.nil_append, List.append_nil]
      rfl

/-! ## Linking a chain -/

/-- What `s'` has in common with `s` after the clusters `cs` were linked and filled. -/
structure WroteChain (s s' : FileSystem) (cs : List UInt32)
    (blocks : List ClusterBuffer) : Prop where
  fat : ∀ x, s'.fat x = link fat32FatEndOfFile s.fat cs x
  synced : Synced s'
  content : cs.map s'.data = blocks
  frame : ∀ n, n ≠ 1 → (∀ c, c ∈ cs → n ≠ c.toNat) → s'.disk.cluster n = s.disk.cluster n

/-- The state after one round of the linking loop. -/
def linkRound (s : FileSystem) (c next : UInt32) (b : ClusterBuffer) : FileSystem :=
  ((s.assign c next).store fatClusterNumber
    (FAT32FileAllocationTable.toBytes (s.assign c next).fatTable)).store c b

section LinkRound

variable {s : FileSystem} {c next : UInt32} {b : ClusterBuffer}

theorem linkRound_fat (hc : c.toNat < 512) (x : UInt32) :
    (linkRound s c next b).fat x = if x = c then next else s.fat x :=
  FileSystem.fat_assign s next x hc

theorem linkRound_synced (hc : c.toNat < 512) (h1 : c ≠ fatClusterNumber) :
    Synced (linkRound s c next b) := by
  rw [Synced, linkRound, FileSystem.data_store_of_ne _ _ hc (by decide) h1.symm,
    FileSystem.data_store_self]
  rfl

theorem linkRound_cluster (hc : c.toNat < 512) {n : Nat} (h1 : n ≠ 1) (hn : n ≠ c.toNat) :
    (linkRound s c next b).disk.cluster n = s.disk.cluster n := by
  rw [linkRound, FileSystem.cluster_store_of_ne _ _ _ (by rw [physical_of_lt hc]; exact hn),
    FileSystem.cluster_store_of_ne _ _ _ (by exact h1)]
  rfl

@[simp] theorem linkRound_data_self : (linkRound s c next b).data c = b :=
  FileSystem.data_store_self _ _ _

end LinkRound

theorem writeLoop_cons (buf : Memory) (j : Nat) {c : UInt32} (rest : List UInt32)
    (hc : c.toNat < 512) (s : FileSystem) :
    writeLoop buf j (c :: rest) s =
      (writeLoop buf (j + 1) rest
        (linkRound s c (rest.headD fat32FatEndOfFile) (chunk buf j))).prepend
        (clusterWriteEvents 1 (FAT32FileAllocationTable.toBytes
            (s.assign c (rest.headD fat32FatEndOfFile)).fatTable) ++
          clusterWriteEvents (physical c) (chunk buf j)) := by
  simp only [writeLoop, bind_apply, setClusterMap_apply hc, flushFat_apply,
    writeClusters_apply, Outcome.prepend, List.nil_append, List.append_assoc]
  rfl

theorem writeLoop_run (buf : Memory) (j : Nat) {cs : List UInt32} (s : FileSystem)
    (hlt : ∀ c, c ∈ cs → c.toNat < 512) (h1 : fatClusterNumber ∉ cs) (hnd : cs.Nodup)
    (hsync : Synced s) :
    ∃ s' w, writeLoop buf j cs s = ⟨.ok (), s', w⟩ ∧
      WroteChain s s' cs (chunks buf j cs.length) := by
  induction cs generalizing s j with
  | nil => exact ⟨s, [], rfl, ⟨fun _ => rfl, hsync, rfl, fun _ _ _ => rfl⟩⟩
  | cons c rest ih =>
      have hc := hlt c List.mem_cons_self
      have hlt' : ∀ x, x ∈ rest → x.toNat < 512 :=
        fun x hx => hlt x (List.mem_cons_of_mem _ hx)
      rw [List.mem_cons, not_or] at h1
      rw [List.nodup_cons] at hnd
      have hc1 : c ≠ fatClusterNumber := fun he => h1.1 he.symm
      obtain ⟨s', w, hrun, hw⟩ := ih (j + 1)
        (linkRound s c (rest.headD fat32FatEndOfFile) (chunk buf j)) hlt' h1.2 hnd.2
        (linkRound_synced hc hc1)
      refine ⟨s', _, by rw [writeLoop_cons buf j rest hc s, hrun]; rfl, ?_, hw.synced, ?_, ?_⟩
      · intro x
        rw [hw.fat, link]
        by_cases hxr : x ∈ rest
        · have hxc : x ≠ c := fun he => hnd.1 (he ▸ hxr)
          rw [if_neg hxc]
          exact link_congr_of_mem hxr
        · rw [link_of_not_mem hxr, link_of_not_mem hxr, linkRound_fat hc]
      · rw [List.map_cons, hw.content, List.length_cons, chunks]
        congr 1
        -- the later rounds do not touch cluster `c`
        have hframe := hw.frame c.toNat
          (fun he => hc1 (UInt32.toNat_inj.mp (by simpa [fatClusterNumber] using he)))
          (fun x hx he => hnd.1 ((UInt32.toNat_inj.mp he) ▸ hx))
        rw [FileSystem.data_of_lt _ hc, hframe, ← FileSystem.data_of_lt _ hc,
          linkRound_data_self]
      · intro n hn1 hn
        rw [hw.frame n hn1 (fun x hx => hn x (List.mem_cons_of_mem _ hx)),
          linkRound_cluster hc hn1 (hn c List.mem_cons_self)]

/-! ## Freeing a chain -/

/-- What `s'` has in common with `s` after the chain `cs` was freed. -/
structure FreedChain (s s' : FileSystem) (cs : List UInt32) : Prop where
  fat : ∀ x, s'.fat x = if x ∈ cs then 0 else s.fat x
  cleared : ∀ c, c ∈ cs → s'.data c = fun _ => 0
  frame : ∀ n, (∀ c, c ∈ cs → n ≠ c.toNat) → s'.disk.cluster n = s.disk.cluster n

/-- The state after one round of the freeing loop. -/
def freeRound (s : FileSystem) (c : UInt32) : FileSystem :=
  (s.assign c fat32FatEmptyEntry).store c fun _ => 0

section FreeRound

variable {s : FileSystem} {c : UInt32}

theorem freeRound_fat (hc : c.toNat < 512) (x : UInt32) :
    (freeRound s c).fat x = if x = c then 0 else s.fat x :=
  FileSystem.fat_assign s 0 x hc

theorem freeRound_cluster (hc : c.toNat < 512) {n : Nat} (hn : n ≠ c.toNat) :
    (freeRound s c).disk.cluster n = s.disk.cluster n :=
  FileSystem.cluster_store_of_ne _ _ _ (by rw [physical_of_lt hc]; exact hn)

@[simp] theorem freeRound_data_self : (freeRound s c).data c = fun _ => 0 :=
  FileSystem.data_store_self _ _ _

theorem freeChain_succ (rounds : Nat) (hc : c.toNat < 512) :
    freeChain (rounds + 1) c s =
      ((if s.fat c = fat32FatEndOfFile then pure () else freeChain rounds (s.fat c) :
          Driver Unit) (freeRound s c)).prepend (clusterWriteEvents (physical c) fun _ => 0) := by
  simp only [freeChain, bind_apply, clusterMap_apply hc, setClusterMap_apply hc,
    writeCluster_apply, Outcome.prepend, List.nil_append]
  rfl

end FreeRound

theorem freeChain_run {s : FileSystem} {c : UInt32} {cs : List UInt32}
    (h : FatChain s c cs) (hc : c ≠ fat32FatEndOfFile)
    (hlt : ∀ x, x ∈ cs → x.toNat < 512) {rounds : Nat} (hrounds : cs.length ≤ rounds) :
    ∃ s' w, freeChain rounds c s = ⟨.ok (), s', w⟩ ∧ FreedChain s s' cs := by
  induction cs generalizing s c rounds with
  | nil => exact absurd (Linked.nil_iff.mp h) hc
  | cons d cs ih =>
      obtain ⟨rfl, -, hl⟩ := Linked.cons_iff.mp h
      have hnd := List.nodup_cons.mp h.nodup
      have hclt := hlt c List.mem_cons_self
      have hlt' : ∀ x, x ∈ cs → x.toNat < 512 :=
        fun x hx => hlt x (List.mem_cons_of_mem _ hx)
      obtain ⟨rounds, rfl⟩ : ∃ m, rounds = m + 1 :=
        ⟨rounds - 1, by rw [List.length_cons] at hrounds; omega⟩
      rw [freeChain_succ rounds hclt]
      by_cases hn : s.fat c = fat32FatEndOfFile
      · -- the last cluster of the chain
        obtain rfl : cs = [] := hl.unique (hn ▸ Linked.nil)
        refine ⟨freeRound s c, _, by rw [if_pos hn]; rfl, ?_, ?_, ?_⟩
        · intro x
          rw [freeRound_fat hclt]
          simp only [List.mem_singleton]
        · intro x hx
          rw [List.mem_singleton.mp hx, freeRound_data_self]
        · exact fun n hn => freeRound_cluster hclt (hn c List.mem_cons_self)
      · have hl₁ : FatChain (freeRound s c) (s.fat c) cs := by
          refine hl.congr fun x hx => ?_
          have hxc : x ≠ c := fun he => hnd.1 (he ▸ hx)
          rw [freeRound_fat hclt, if_neg hxc]
        obtain ⟨s', w, hrun, hf⟩ := ih hl₁ hn hlt' (Nat.le_of_succ_le_succ hrounds)
        refine ⟨s', _, by rw [if_neg hn, hrun]; rfl, ?_, ?_, ?_⟩
        · intro x
          rw [hf.fat, freeRound_fat hclt]
          by_cases hxc : x = c <;> by_cases hxs : x ∈ cs <;> simp [hxc, hxs]
        · intro x hx
          rcases List.mem_cons.mp hx with rfl | hx
          · -- the later rounds do not touch this cluster
            have hframe := hf.frame x.toNat
              (fun y hy he => hnd.1 ((UInt32.toNat_inj.mp he) ▸ hy))
            rw [FileSystem.data_of_lt _ hclt, hframe, ← FileSystem.data_of_lt _ hclt,
              freeRound_data_self]
          · exact hf.cleared x hx
        · intro n hn'
          rw [hf.frame n (fun x hx => hn' x (List.mem_cons_of_mem _ hx)),
            freeRound_cluster hclt (hn' c List.mem_cons_self)]

/-! ## A new directory table -/

/-- Slot 0 as `init_directory_table` leaves it in a cleared table. -/
def selfRecord (name : Fin 8 → UInt8) : FAT32DirectoryEntry :=
  { FAT32DirectoryEntry.zero with
    name := copyName name
    attr := attrSubdirectory
    userAttribute := uattrNotEmpty }

/-- Slot 1 as `init_directory_table` leaves it in a cleared table. -/
def parentRecord (parentName : Fin 8 → UInt8) (parentDirCluster : UInt32) :
    FAT32DirectoryEntry :=
  { FAT32DirectoryEntry.zero with
    name := parentName
    attr := attrSubdirectory
    userAttribute := uattrNotEmpty
    clusterLow := (parentDirCluster &&& 0xFFFF).toUInt16
    clusterHigh := (parentDirCluster >>> 16 &&& 0xFFFF).toUInt16 }

/-- The directory table with two records and 62 cleared slots. -/
def recordTable (self parent : FAT32DirectoryEntry) : FAT32DirectoryTable :=
  Function.update (Function.update FAT32DirectoryTable.zero 0 self) 1 parent

theorem initDirectoryTable_apply (name : Fin 8 → UInt8) (p : UInt32) (s : FileSystem) :
    initDirectoryTable FAT32DirectoryTable.zero name p s =
      ⟨.ok (recordTable (selfRecord name) (parentRecord (s.table p 0).name p)), s,
        clusterReadEvents (physical p)⟩ := by
  simp only [initDirectoryTable, bind_apply, readTable_apply, pure_apply, Outcome.prepend,
    List.append_nil]
  rfl

theorem recordTable_zero (self parent : FAT32DirectoryEntry) :
    recordTable self parent 0 = self := by
  rw [recordTable, Function.update_of_ne (by decide), Function.update_self]

theorem recordTable_one (self parent : FAT32DirectoryEntry) :
    recordTable self parent 1 = parent :=
  Function.update_self _ _ _

theorem recordTable_child (self parent : FAT32DirectoryEntry) {i : Fin 64} (hi : 2 ≤ i) :
    recordTable self parent i = FAT32DirectoryEntry.zero := by
  have h0 : i ≠ 0 := by rintro rfl; exact absurd hi (by decide)
  have h1 : i ≠ 1 := by rintro rfl; exact absurd hi (by decide)
  rw [recordTable, Function.update_of_ne h1, Function.update_of_ne h0]
  rfl

end Fat32
end OS2024
