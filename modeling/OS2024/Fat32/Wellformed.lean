import OS2024.Fat32.Calls

/-!
# The structure of reachable file systems

What the invariants say about the file systems that well-scoped calls can produce,
without reference to how they are proved.

**Results.**
* `wellScopedRun_wellformed`: every state of a run from `create_fat32` is well formed.
-/

namespace OS2024
namespace Fat32

open LinkedChain SlotTree Runs

/-- The number of clusters that an entry is charged with. -/
def FAT32DirectoryEntry.clusters (e : FAT32DirectoryEntry) : Nat :=
  if e.IsDir then 1 else clusterCount e.filesize

/-- A file system without corrupt slots, shared, dangling or leaked clusters. -/
structure Wellformed (s : FileSystem) : Prop where
  /-- A child slot is in use or consists of zero bytes. -/
  slots : ∀ d i, LiveDir s d → 2 ≤ i →
    (s.table d i).Live ∨ ∀ b, (s.table d i).toBytes b = 0
  /-- Keys of children are distinct, and distinct from those of slots 0 and 1. -/
  keys : ∀ d i j, Child s d i → (Child s d j ∨ j < 2) → i ≠ j →
    (s.table d i).key ≠ (s.table d j).key
  /-- Chains are finite, stay in the data area and have the length that the size needs. -/
  chains : ∀ d i, Child s d i → ∃ cs, FatChain s (s.table d i).cluster cs ∧
    (∀ c, c ∈ cs → 3 ≤ c.toNat ∧ c.toNat ≤ 511) ∧ cs.length = (s.table d i).clusters
  /-- No cluster lies on two chains. -/
  disjoint : ∀ d i d' i' c, Owns s d i c → Owns s d' i' c → d = d' ∧ i = i'
  /-- A cluster in use lies on the chain of exactly one reachable entry. -/
  noLeak : ∀ c : UInt32, 3 ≤ c.toNat → s.fat c ≠ 0 →
    ∃! p : UInt32 × Fin 64, Owns s p.1 p.2 c

namespace Sound

variable {s : FileSystem}

theorem slot_live_or_zero (hs : Sound s) {d : UInt32} {i : Fin 64} (hd : LiveDir s d)
    (hi : 2 ≤ i) : (s.table d i).Live ∨ ∀ b, (s.table d i).toBytes b = 0 := by
  by_cases hl : (s.table d i).Live
  · exact Or.inl hl
  · exact Or.inr ((FAT32DirectoryEntry.eq_zero_iff _).mp ((hs.table d hd).dead i hi hl))

theorem key_ne (hs : Sound s) {d : UInt32} {i j : Fin 64} (hi : Child s d i)
    (hj : Child s d j ∨ j < 2) (hij : i ≠ j) : (s.table d i).key ≠ (s.table d j).key := by
  have ht := hs.table d hi.1
  rcases hj with hj | hj
  · exact ht.distinct i j hi.2.1 hi.2.2 hj.2.2 hij
  · exact ht.distinct i j hi.2.1 hi.2.2 (ht.record j hj).1 hij

/-- The chain of a child has the length that its size needs. -/
theorem chain_length (hs : Sound s) (hz : Sized s) {d : UInt32} {i : Fin 64}
    {cs : List UInt32} (hd : Child s d i) (hcs : FatChain s (s.table d i).cluster cs) :
    cs.length = (s.table d i).clusters := by
  by_cases hdir : (s.table d i).IsDir
  · rw [hs.dir_chain hd hdir hcs, FAT32DirectoryEntry.clusters, if_pos hdir]
    rfl
  · rw [hz d i cs hd hdir hcs, FAT32DirectoryEntry.clusters, if_neg hdir]

theorem existsUnique_owner (hs : Sound s) {c : UInt32} (hc : 3 ≤ c.toNat)
    (hused : s.fat c ≠ 0) : ∃! p : UInt32 × Fin 64, Owns s p.1 p.2 c := by
  obtain ⟨d, i, hown⟩ := hs.noLeak c hc hused
  refine ⟨(d, i), hown, fun p hp => ?_⟩
  obtain ⟨hd, hi⟩ := hs.disjoint p.1 p.2 d i c hp hown
  exact Prod.ext hd hi

theorem wellformed (hs : Sound s) (hz : Sized s) : Wellformed s where
  slots := fun _ _ hd hi => hs.slot_live_or_zero hd hi
  keys := fun _ _ _ hi hj hij => hs.key_ne hi hj hij
  chains := by
    intro d i hd
    obtain ⟨-, cs, hcs, hlt⟩ := hs.chain d i hd
    exact ⟨cs, hcs, fun c hc => ⟨(hlt c hc).1, Nat.le_of_lt_succ (hlt c hc).2⟩,
      hs.chain_length hz hd hcs⟩
  disjoint := hs.disjoint
  noLeak := fun _ hc hused => hs.existsUnique_owner hc hused

end Sound

/-- **Well-scoped runs from `create_fat32` on any disk only reach well-formed states.** -/
theorem wellScopedRun_wellformed {s : FileSystem}
    (h : Reached NewSystem WellScoped after s) : Wellformed s :=
  (wellScopedRun_sound h).wellformed (wellScopedRun_sized h)

theorem wellformed_firstWrite :
    Wellformed (after emptySystem (Call.write (requestFor ['a'] 2 3000))) :=
  wellScopedRun_wellformed
    (Reached.step (Reached.start newSystem_emptySystem) wellScoped_firstWrite)

end Fat32
end OS2024
