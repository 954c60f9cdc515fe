import OS2024.Lib.SlotTree
import OS2024.Fat32.Loops

/-!
# The directory tree and its invariant

The directories of a file system are the nodes hanging below the root cluster: a slot
from 2 on that is in use and has the subdirectory attribute points to a child directory.
`Sound` is the invariant that every operation keeps: the allocation table, the directory
tables and the shape of the tree fit together.

**Results.**
* `Sound.liveDir_fat`, `Sound.liveDir_lt`: a live directory is an allocated cluster.
* `Sound.fat_ne_zero_of_mem`: chains run through allocated clusters.
* `Sound.only_parent`: a directory hangs in exactly one slot.
-/

namespace OS2024
namespace Fat32

open LinkedChain SlotTree

/-- The child directory in slot `i` of directory `d`, if there is one. -/
def FileSystem.edge (s : FileSystem) (d : UInt32) (i : Fin 64) : Option UInt32 :=
  if 2 ≤ i ∧ (s.table d i).Live ∧ (s.table d i).IsDir then some (s.table d i).cluster
  else none

/-- Directories reachable from the root. -/
abbrev LiveDir (s : FileSystem) (d : UInt32) : Prop := Reach s.edge rootClusterNumber d

/-- Slot `i` of the live directory `d` holds an entry other than the two records. -/
def Child (s : FileSystem) (d : UInt32) (i : Fin 64) : Prop :=
  LiveDir s d ∧ 2 ≤ i ∧ (s.table d i).Live

/-- The entry in slot `i` of `d` is a child whose chain runs through cluster `c`. -/
def Owns (s : FileSystem) (d : UInt32) (i : Fin 64) (c : UInt32) : Prop :=
  Child s d i ∧ ∃ cs, FatChain s (s.table d i).cluster cs ∧ c ∈ cs

/-- The slots of one directory table. -/
structure TableSound (t : FAT32DirectoryTable) : Prop where
  record : ∀ i, i < 2 → (t i).Live ∧ (t i).IsDir
  dead : ∀ i, 2 ≤ i → ¬ (t i).Live → t i = FAT32DirectoryEntry.zero
  nonblank : ∀ i, 2 ≤ i → (t i).Live → (t i).key ≠ Key.blank
  distinct : ∀ i j, 2 ≤ i → (t i).Live → (t j).Live → i ≠ j → (t i).key ≠ (t j).key

/-- The invariant of the file system. -/
structure Sound (s : FileSystem) : Prop where
  boot : s.disk 0 = fsSignature
  synced : Synced s
  fat_zero : s.fat 0 = cluster0Value
  fat_one : s.fat 1 = cluster1Value
  fat_root : s.fat 2 = fat32FatEndOfFile
  table : ∀ d, LiveDir s d → TableSound (s.table d)
  kind : ∀ d i, Child s d i → (s.table d i).IsDir ∨ (s.table d i).attr = 0
  chain : ∀ d i, Child s d i → (s.table d i).cluster ≠ fat32FatEndOfFile ∧
    ∃ cs, FatChain s (s.table d i).cluster cs ∧ ∀ c, c ∈ cs → 3 ≤ c.toNat ∧ c.toNat < 512
  dirEnd : ∀ d i, Child s d i → (s.table d i).IsDir →
    s.fat (s.table d i).cluster = fat32FatEndOfFile
  disjoint : ∀ d i d' i' c, Owns s d i c → Owns s d' i' c → d = d' ∧ i = i'
  noLeak : ∀ c : UInt32, 3 ≤ c.toNat → s.fat c ≠ 0 → ∃ d i, Owns s d i c

theorem edge_eq_some_iff {s : FileSystem} {d c : UInt32} {i : Fin 64} :
    s.edge d i = some c ↔
      2 ≤ i ∧ (s.table d i).Live ∧ (s.table d i).IsDir ∧ (s.table d i).cluster = c := by
  unfold FileSystem.edge
  by_cases h : 2 ≤ i ∧ (s.table d i).Live ∧ (s.table d i).IsDir
  · rw [if_pos h, Option.some_inj]
    exact ⟨fun hc => ⟨h.1, h.2.1, h.2.2, hc⟩, fun hc => hc.2.2.2⟩
  · rw [if_neg h]
    constructor
    · intro hc
      cases hc
    · exact fun hc => absurd ⟨hc.1, hc.2.1, hc.2.2.1⟩ h

theorem edge_eq_none_iff {s : FileSystem} {d : UInt32} {i : Fin 64} :
    s.edge d i = none ↔ ¬ (2 ≤ i ∧ (s.table d i).Live ∧ (s.table d i).IsDir) := by
  unfold FileSystem.edge
  split_ifs with h <;> simp [h]

theorem edge_congr {s s' : FileSystem} {d : UInt32} {i : Fin 64}
    (h : s'.table d i = s.table d i) : s'.edge d i = s.edge d i := by
  simp only [FileSystem.edge, h]

theorem liveDir_root (s : FileSystem) : LiveDir s rootClusterNumber := Reach.root

/-- A directory entry that is a child leads to a live directory. -/
theorem Child.liveDir {s : FileSystem} {d : UInt32} {i : Fin 64}
    (h : Child s d i) (hdir : (s.table d i).IsDir) : LiveDir s (s.table d i).cluster :=
  Reach.child h.1 (edge_eq_some_iff.mpr ⟨h.2.1, h.2.2, hdir, rfl⟩)

/-- A live directory is the root or the cluster of a child directory entry. -/
theorem liveDir_cases {s : FileSystem} {c : UInt32} (h : LiveDir s c) :
    c = rootClusterNumber ∨
      ∃ d i, Child s d i ∧ (s.table d i).IsDir ∧ (s.table d i).cluster = c := by
  rcases h.eq_root_or_child with rfl | ⟨d, i, hd, he⟩
  · exact Or.inl rfl
  · obtain ⟨hi, hl, hdir, hc⟩ := edge_eq_some_iff.mp he
    exact Or.inr ⟨d, i, ⟨hd, hi, hl⟩, hdir, hc⟩

namespace TableSound

variable {t : FAT32DirectoryTable}

/-- A slot that is not in use is a child slot. -/
theorem two_le_of_not_live (h : TableSound t) {i : Fin 64} (hl : ¬ (t i).Live) : 2 ≤ i := by
  by_contra hlt
  exact hl (h.record i (not_le.mp hlt)).1

/-- What is no directory is in a child slot. -/
theorem two_le_of_not_isDir (h : TableSound t) {i : Fin 64} (hdir : ¬ (t i).IsDir) :
    2 ≤ i := by
  by_contra hlt
  exact hdir (h.record i (not_le.mp hlt)).2

/-- A slot that is not in use has the blank key. -/
theorem key_of_not_live (h : TableSound t) {i : Fin 64} (hl : ¬ (t i).Live) :
    (t i).key = Key.blank := by
  rw [h.dead i (h.two_le_of_not_live hl) hl, FAT32DirectoryEntry.key_zero]

/-- The key of a child occurs in no other slot. -/
theorem firstMatch_of_child (h : TableSound t) {i : Fin 64} (hi : 2 ≤ i) (hl : (t i).Live) :
    FirstMatch t (t i).key i := by
  refine ⟨rfl, fun j hj hk => ?_⟩
  by_cases hlj : (t j).Live
  · exact h.distinct i j hi hl hlj (ne_of_gt hj) hk.symm
  · rw [h.key_of_not_live hlj] at hk
    exact h.nonblank i hi hl hk.symm

/-- Where no slot has the key but one is empty, the key is not blank. -/
theorem key_ne_blank_of_noMatch (h : TableSound t) {k : Key} {i : Fin 64}
    (hk : NoMatch t k) (hi : FirstEmpty t i) : k ≠ Key.blank := by
  rintro rfl
  exact hk i (h.key_of_not_live hi.2.1)

end TableSound

namespace Sound

variable {s : FileSystem}

theorem fat_ne_zero_of_mem (h : Sound s) {d : UInt32} {i : Fin 64} {cs : List UInt32}
    {c : UInt32} (hd : Child s d i) (hcs : FatChain s (s.table d i).cluster cs)
    (hc : c ∈ cs) : s.fat c ≠ 0 := by
  obtain ⟨-, cs', hcs', hlt⟩ := h.chain d i hd
  obtain rfl := hcs.unique hcs'
  rcases hcs.next_mem hc with he | hmem
  · rw [he]
    decide
  · intro hz
    have := (hlt _ hmem).1
    rw [hz] at this
    exact absurd this (by decide)

theorem mem_bounds (h : Sound s) {d : UInt32} {i : Fin 64} {c : UInt32}
    (hc : Owns s d i c) : 3 ≤ c.toNat ∧ c.toNat < 512 := by
  obtain ⟨hd, cs, hcs, hmem⟩ := hc
  obtain ⟨-, cs', hcs', hlt⟩ := h.chain d i hd
  obtain rfl := hcs.unique hcs'
  exact hlt c hmem

theorem owns_fat_ne_zero (h : Sound s) {d : UInt32} {i : Fin 64} {c : UInt32}
    (hc : Owns s d i c) : s.fat c ≠ 0 := by
  obtain ⟨hd, cs, hcs, hmem⟩ := hc
  exact h.fat_ne_zero_of_mem hd hcs hmem

/-- A child owns its first cluster. -/
theorem owns_cluster (h : Sound s) {d : UInt32} {i : Fin 64} (hd : Child s d i) :
    Owns s d i (s.table d i).cluster := by
  obtain ⟨hne, cs, hcs, -⟩ := h.chain d i hd
  exact ⟨hd, cs, hcs, hcs.head_mem hne⟩

/-- The chain of a directory is its cluster. -/
theorem dir_chain (h : Sound s) {d : UInt32} {i : Fin 64} {cs : List UInt32}
    (hd : Child s d i) (hdir : (s.table d i).IsDir)
    (hcs : FatChain s (s.table d i).cluster cs) : cs = [(s.table d i).cluster] := by
  refine hcs.unique (Linked.cons (h.chain d i hd).1 ?_)
  rw [h.dirEnd d i hd hdir]
  exact Linked.nil

theorem liveDir_fat (h : Sound s) {d : UInt32} (hd : LiveDir s d) :
    s.fat d = fat32FatEndOfFile := by
  rcases liveDir_cases hd with rfl | ⟨p, i, hp, hdir, rfl⟩
  · exact h.fat_root
  · exact h.dirEnd p i hp hdir

theorem liveDir_bounds (h : Sound s) {d : UInt32} (hd : LiveDir s d) :
    2 ≤ d.toNat ∧ d.toNat < 512 := by
  rcases liveDir_cases hd with rfl | ⟨p, i, hp, hdir, rfl⟩
  · decide
  · have := h.mem_bounds (h.owns_cluster hp)
    omega

theorem liveDir_lt (h : Sound s) {d : UInt32} (hd : LiveDir s d) : d.toNat < 512 :=
  (h.liveDir_bounds hd).2

theorem liveDir_ne_one (h : Sound s) {d : UInt32} (hd : LiveDir s d) : d.toNat ≠ 1 := by
  have := (h.liveDir_bounds hd).1
  omega

theorem liveDir_fat_ne_zero (h : Sound s) {d : UInt32} (hd : LiveDir s d) : s.fat d ≠ 0 := by
  rw [h.liveDir_fat hd]
  decide

/-- A directory hangs in exactly one slot. -/
theorem only_parent (h : Sound s) {d d' : UInt32} {i i' : Fin 64}
    (hd : Child s d i) (hd' : Child s d' i')
    (hc : (s.table d i).cluster = (s.table d' i').cluster) : d = d' ∧ i = i' := by
  have hown := h.owns_cluster hd
  rw [hc] at hown
  exact h.disjoint d i d' i' _ hown (h.owns_cluster hd')

/-- The root hangs in no slot. -/
theorem cluster_ne_root (h : Sound s) {d : UInt32} {i : Fin 64} (hd : Child s d i) :
    (s.table d i).cluster ≠ rootClusterNumber := by
  intro he
  have := (h.mem_bounds (h.owns_cluster hd)).1
  rw [he] at this
  exact absurd this (by decide)

/-- A cluster of a file chain is not a live directory. -/
theorem not_liveDir_of_owns (h : Sound s) {d : UInt32} {i : Fin 64} {c : UInt32}
    (hc : Owns s d i c) (hfile : ¬ (s.table d i).IsDir) : ¬ LiveDir s c := by
  intro hdir
  rcases liveDir_cases hdir with hroot | ⟨p, j, hp, hpdir, hcl⟩
  · have hlow := (h.mem_bounds hc).1
    rw [hroot] at hlow
    exact absurd hlow (by decide)
  · rw [← hcl] at hc
    obtain ⟨hdp, hij⟩ := h.disjoint d i p j _ hc (h.owns_cluster hp)
    rw [hdp, hij] at hfile
    exact hfile hpdir

/-- The chain of a child fits into 512 rounds. -/
theorem chain_length_le (h : Sound s) {d : UInt32} {i : Fin 64} {cs : List UInt32}
    (hd : Child s d i) (hcs : FatChain s (s.table d i).cluster cs) : cs.length ≤ 512 :=
  hcs.length_le (fun _ _ he => UInt32.toNat_inj.mp he)
    fun _ hx => (h.mem_bounds ⟨hd, cs, hcs, hx⟩).2

end Sound

end Fat32
end OS2024
