import OS2024.Fat32.Invariant

/-!
# Removing an entry from the tree

`Removed s s' p k cs` describes what a successful `delete` of a child does: slot `k` of
the directory `p` is cleared, and the clusters `cs` of its chain are freed and zeroed.

**Results.**
* `Removed.liveDir_iff`, `Removed.child_iff`, `Removed.owns_iff`: the tree afterwards.
* `Removed.sound`: the invariant is kept.
-/

namespace OS2024
namespace Fat32

open LinkedChain SlotTree

/-- The step from `s` to `s'` that removes the child in slot `k` of directory `p`. -/
structure Removed (s s' : FileSystem) (p : UInt32) (k : Fin 64) (cs : List UInt32) :
    Prop where
  child : Child s p k
  chain : FatChain s (s.table p k).cluster cs
  emptyDir : (s.table p k).IsDir → ∀ j, 2 ≤ j → ¬ (s.table (s.table p k).cluster j).Live
  fat : ∀ x, s'.fat x = if x ∈ cs then 0 else s.fat x
  synced : Synced s'
  cleared : ∀ c, c ∈ cs → s'.data c = fun _ => 0
  table : s'.table p = Function.update (s.table p) k FAT32DirectoryEntry.zero
  frame : ∀ n, n ≠ 1 → n ≠ p.toNat → (∀ c, c ∈ cs → n ≠ c.toNat) →
    s'.disk.cluster n = s.disk.cluster n

namespace Removed

variable {s s' : FileSystem} {p : UInt32} {k : Fin 64} {cs : List UInt32}

theorem owns (h : Removed s s' p k cs) {c : UInt32} (hc : c ∈ cs) : Owns s p k c :=
  ⟨h.child, cs, h.chain, hc⟩

theorem slot_self (h : Removed s s' p k cs) : s'.table p k = FAT32DirectoryEntry.zero := by
  rw [h.table, Function.update_self]

theorem slot_of_ne (h : Removed s s' p k cs) {i : Fin 64} (hi : i ≠ k) :
    s'.table p i = s.table p i := by
  rw [h.table, Function.update_of_ne hi]

theorem fat_of_not_mem (h : Removed s s' p k cs) {c : UInt32} (hc : c ∉ cs) :
    s'.fat c = s.fat c := by
  rw [h.fat, if_neg hc]

/-- A live directory lies on the freed chain only as the removed directory itself. -/
theorem not_mem_of_liveDir (h : Removed s s' p k cs) (hs : Sound s) {d : UInt32}
    (hd : LiveDir s d) (hne : ¬((s.table p k).IsDir ∧ d = (s.table p k).cluster)) :
    d ∉ cs := by
  intro hmem
  have hown := h.owns hmem
  rcases liveDir_cases hd with rfl | ⟨q, i, hq, hdir, rfl⟩
  · exact absurd (hs.mem_bounds hown).1 (by decide)
  · obtain ⟨rfl, rfl⟩ := hs.disjoint _ _ _ _ _ hown (hs.owns_cluster hq)
    exact hne ⟨hdir, rfl⟩

theorem table_of_ne_parent (h : Removed s s' p k cs) (hs : Sound s) {d : UInt32}
    (hd : LiveDir s d) (hp : d ≠ p)
    (hne : ¬((s.table p k).IsDir ∧ d = (s.table p k).cluster)) :
    s'.table d = s.table d := by
  have hlt := hs.liveDir_lt hd
  rw [FileSystem.table, FileSystem.data_of_lt _ hlt, h.frame _ (hs.liveDir_ne_one hd)
    (fun he => hp (UInt32.toNat_inj.mp he)), ← FileSystem.data_of_lt _ hlt]
  · rfl
  · intro x hx he
    exact h.not_mem_of_liveDir hs hd hne ((UInt32.toNat_inj.mp he) ▸ hx)

/-- Every other slot of a remaining directory is unchanged. -/
theorem slot_eq (h : Removed s s' p k cs) (hs : Sound s) {d : UInt32} {i : Fin 64}
    (hd : LiveDir s d) (hne : ¬((s.table p k).IsDir ∧ d = (s.table p k).cluster))
    (hslot : ¬(d = p ∧ i = k)) : s'.table d i = s.table d i := by
  by_cases hp : d = p
  · subst hp
    exact h.slot_of_ne fun hi => hslot ⟨rfl, hi⟩
  · rw [h.table_of_ne_parent hs hd hp hne]

/-- A removed directory has no children. -/
theorem not_child_removed (h : Removed s s' p k cs) {i : Fin 64} {d : UInt32}
    (hd : Child s d i) : ¬((s.table p k).IsDir ∧ d = (s.table p k).cluster) := by
  rintro ⟨hdir, rfl⟩
  exact h.emptyDir hdir i hd.2.1 hd.2.2

/-- The tree loses the removed directory when a folder is removed, and else nothing. -/
theorem liveDir_iff (h : Removed s s' p k cs) (hs : Sound s) (d : UInt32) :
    LiveDir s' d ↔ LiveDir s d ∧ ¬((s.table p k).IsDir ∧ d = (s.table p k).cluster) := by
  have hgone : s'.edge p k = none := by
    rw [edge_eq_none_iff, h.slot_self]
    exact fun hc => FAT32DirectoryEntry.not_live_zero hc.2.1
  by_cases hdir : (s.table p k).IsDir
  · have hleaf : ∀ i, s.edge (s.table p k).cluster i = none :=
      fun i => edge_eq_none_iff.mpr fun hc => h.emptyDir hdir i hc.1 hc.2.1
    have hhook : s.edge p k = some (s.table p k).cluster :=
      edge_eq_some_iff.mpr ⟨h.child.2.1, h.child.2.2, hdir, rfl⟩
    have honly : ∀ x i, LiveDir s x → s.edge x i = some (s.table p k).cluster →
        x = p ∧ i = k := by
      intro x i hx he
      obtain ⟨hi, hl, -, hc⟩ := edge_eq_some_iff.mp he
      exact hs.only_parent ⟨hx, hi, hl⟩ h.child hc
    have hagree : ∀ x i, LiveDir s x → x ≠ (s.table p k).cluster → ¬(x = p ∧ i = k) →
        s'.edge x i = s.edge x i :=
      fun x i hx hxc hslot => edge_congr (h.slot_eq hs hx (fun hc => hxc hc.2) hslot)
    simpa [hdir] using
      reach_erase_iff (hs.cluster_ne_root h.child) hleaf hhook hgone honly hagree d
  · have hsame : ∀ x i, LiveDir s x → s'.edge x i = s.edge x i := by
      intro x i hx
      by_cases hslot : x = p ∧ i = k
      · obtain ⟨rfl, rfl⟩ := hslot
        rw [hgone, eq_comm, edge_eq_none_iff]
        exact fun hc => hdir hc.2.2
      · exact edge_congr (h.slot_eq hs hx (fun hc => hdir hc.1) hslot)
    simpa [hdir] using reach_iff_of_agree hsame d

/-- The children afterwards are those before but the removed one. -/
theorem child_iff (h : Removed s s' p k cs) (hs : Sound s) (d : UInt32) (i : Fin 64) :
    Child s' d i ↔ Child s d i ∧ ¬(d = p ∧ i = k) := by
  constructor
  · rintro ⟨hd, hi, hl⟩
    obtain ⟨hd, hne⟩ := (h.liveDir_iff hs d).mp hd
    have hslot : ¬(d = p ∧ i = k) := by
      rintro ⟨rfl, rfl⟩
      rw [h.slot_self] at hl
      exact FAT32DirectoryEntry.not_live_zero hl
    rw [h.slot_eq hs hd hne hslot] at hl
    exact ⟨⟨hd, hi, hl⟩, hslot⟩
  · rintro ⟨hd, hslot⟩
    have hne := h.not_child_removed hd
    refine ⟨(h.liveDir_iff hs d).mpr ⟨hd.1, hne⟩, hd.2.1, ?_⟩
    rw [h.slot_eq hs hd.1 hne hslot]
    exact hd.2.2

theorem slot_child (h : Removed s s' p k cs) (hs : Sound s) {d : UInt32} {i : Fin 64}
    (hd : Child s' d i) : s'.table d i = s.table d i := by
  obtain ⟨hd, hslot⟩ := (h.child_iff hs d i).mp hd
  exact h.slot_eq hs hd.1 (h.not_child_removed hd) hslot

/-- The clusters of the remaining children are not freed. -/
theorem not_mem_of_owns (h : Removed s s' p k cs) (hs : Sound s) {d : UInt32} {i : Fin 64}
    {c : UInt32} (hc : Owns s d i c) (hslot : ¬(d = p ∧ i = k)) : c ∉ cs :=
  fun hmem => hslot (hs.disjoint d i p k c hc (h.owns hmem))

/-- The chains of the remaining children are unchanged. -/
theorem chain_iff (h : Removed s s' p k cs) (hs : Sound s) {d : UInt32} {i : Fin 64}
    (hd : Child s d i) (hslot : ¬(d = p ∧ i = k)) (ds : List UInt32) :
    FatChain s' (s.table d i).cluster ds ↔ FatChain s (s.table d i).cluster ds := by
  obtain ⟨-, ds', hds', -⟩ := hs.chain d i hd
  have hkeep : FatChain s' (s.table d i).cluster ds' :=
    hds'.congr fun x hx => h.fat_of_not_mem (h.not_mem_of_owns hs ⟨hd, ds', hds', hx⟩ hslot)
  constructor
  · intro hds
    rwa [hds.unique hkeep]
  · intro hds
    rwa [hds.unique hds']

theorem owns_iff (h : Removed s s' p k cs) (hs : Sound s) (d : UInt32) (i : Fin 64)
    (c : UInt32) : Owns s' d i c ↔ Owns s d i c ∧ ¬(d = p ∧ i = k) := by
  constructor
  · rintro ⟨hd', ds, hds, hc⟩
    obtain ⟨hd, hslot⟩ := (h.child_iff hs d i).mp hd'
    rw [h.slot_child hs hd', h.chain_iff hs hd hslot] at hds
    exact ⟨⟨hd, ds, hds, hc⟩, hslot⟩
  · rintro ⟨⟨hd, ds, hds, hc⟩, hslot⟩
    have hd' : Child s' d i := (h.child_iff hs d i).mpr ⟨hd, hslot⟩
    refine ⟨hd', ds, ?_, hc⟩
    rw [h.slot_child hs hd', h.chain_iff hs hd hslot]
    exact hds

theorem tableSound_parent (h : Removed s s' p k cs) (hs : Sound s) :
    TableSound (s'.table p) := by
  have ht := hs.table p h.child.1
  have hk2 := h.child.2.1
  have hlive : ∀ i, (s'.table p i).Live → i ≠ k := by
    rintro i hl rfl
    rw [h.slot_self] at hl
    exact FAT32DirectoryEntry.not_live_zero hl
  refine ⟨?_, ?_, ?_, ?_⟩
  · intro i hi
    have hik : i ≠ k := fun he => absurd hk2 (not_le.mpr (he ▸ hi))
    rw [h.slot_of_ne hik]
    exact ht.record i hi
  · intro i hi hl
    by_cases hik : i = k
    · rw [hik, h.slot_self]
    · rw [h.slot_of_ne hik] at hl ⊢
      exact ht.dead i hi hl
  · intro i hi hl
    have hik := hlive i hl
    rw [h.slot_of_ne hik] at hl ⊢
    exact ht.nonblank i hi hl
  · intro i j hi hli hlj hij
    have hik := hlive i hli
    have hjk := hlive j hlj
    rw [h.slot_of_ne hik] at hli ⊢
    rw [h.slot_of_ne hjk] at hlj ⊢
    exact ht.distinct i j hi hli hlj hij

/-- **Removing a child keeps the invariant.** -/
theorem sound (h : Removed s s' p k cs) (hs : Sound s) : Sound s' := by
  have hlow : ∀ c : UInt32, c.toNat < 3 → s'.fat c = s.fat c := by
    intro c hc
    refine h.fat_of_not_mem fun hmem => ?_
    have := (hs.mem_bounds (h.owns hmem)).1
    omega
  refine ⟨?_, h.synced, ?_, ?_, ?_, ?_, ?_, ?_, ?_, ?_, ?_⟩
  · rw [← hs.boot]
    refine Disk.boot_eq_of_cluster_zero (h.frame 0 (by decide) ?_ ?_)
    · have := (hs.liveDir_bounds h.child.1).1
      omega
    · intro c hc
      have := (hs.mem_bounds (h.owns hc)).1
      omega
  · rw [hlow 0 (by decide), hs.fat_zero]
  · rw [hlow 1 (by decide), hs.fat_one]
  · rw [hlow 2 (by decide), hs.fat_root]
  · intro d hd
    obtain ⟨hd, hne⟩ := (h.liveDir_iff hs d).mp hd
    by_cases hp : d = p
    · subst hp
      exact h.tableSound_parent hs
    · rw [h.table_of_ne_parent hs hd hp hne]
      exact hs.table d hd
  · intro d i hd'
    rw [h.slot_child hs hd']
    exact hs.kind d i ((h.child_iff hs d i).mp hd').1
  · intro d i hd'
    obtain ⟨hd, hslot⟩ := (h.child_iff hs d i).mp hd'
    rw [h.slot_child hs hd']
    obtain ⟨hne, ds, hds, hlt⟩ := hs.chain d i hd
    exact ⟨hne, ds, (h.chain_iff hs hd hslot ds).mpr hds, hlt⟩
  · intro d i hd' hdir
    obtain ⟨hd, hslot⟩ := (h.child_iff hs d i).mp hd'
    rw [h.slot_child hs hd'] at hdir ⊢
    rw [h.fat_of_not_mem (h.not_mem_of_owns hs (hs.owns_cluster hd) hslot)]
    exact hs.dirEnd d i hd hdir
  · intro d i d' i' c hc hc'
    exact hs.disjoint d i d' i' c ((h.owns_iff hs d i c).mp hc).1
      ((h.owns_iff hs d' i' c).mp hc').1
  · intro c hc3 hc
    by_cases hmem : c ∈ cs
    · rw [h.fat, if_pos hmem] at hc
      exact absurd rfl hc
    · rw [h.fat_of_not_mem hmem] at hc
      obtain ⟨d, i, ho⟩ := hs.noLeak c hc3 hc
      refine ⟨d, i, (h.owns_iff hs d i c).mpr ⟨ho, ?_⟩⟩
      rintro ⟨rfl, rfl⟩
      obtain ⟨-, ds, hds, hcd⟩ := ho
      rw [hds.unique h.chain] at hcd
      exact hmem hcd

end Removed

end Fat32
end OS2024
