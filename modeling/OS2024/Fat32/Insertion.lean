import OS2024.Fat32.Invariant

/-!
# Adding an entry to the tree

`Inserted s s' p k e cs blocks` describes what a successful `write` does: the fresh
clusters `cs` become a chain holding `blocks`, and slot `k` of the directory `p` becomes
the entry `e` pointing to it.

**Results.**
* `Inserted.liveDir_iff`, `Inserted.child_iff`, `Inserted.owns_iff`: the tree afterwards.
* `Inserted.sound`: the invariant is kept.
-/

namespace OS2024
namespace Fat32

open LinkedChain SlotTree

/-- The entries in slots 0 and 1 of the directory `c` whose parent is `p`. -/
structure Records (e₀ e₁ : FAT32DirectoryEntry) (c p : UInt32) : Prop where
  self_live : e₀.Live
  self_isDir : e₀.IsDir
  self_cluster : e₀.cluster = c
  parent_live : e₁.Live
  parent_isDir : e₁.IsDir
  parent_cluster : e₁.cluster = p

/-- The step from `s` to `s'` that adds the entry `e` in slot `k` of directory `p`. -/
structure Inserted (s s' : FileSystem) (p : UInt32) (k : Fin 64) (e : FAT32DirectoryEntry)
    (cs : List UInt32) (blocks : List ClusterBuffer) : Prop where
  parent : LiveDir s p
  slot : FirstEmpty (s.table p) k
  noMatch : NoMatch (s.table p) e.key
  live : e.Live
  kind : e.IsDir ∨ e.attr = 0
  fresh : ∀ c, c ∈ cs → c.toNat < 512 ∧ s.fat c = 0
  nodup : cs.Nodup
  first : cs.head? = some e.cluster
  fat : ∀ x, s'.fat x = link fat32FatEndOfFile s.fat cs x
  synced : Synced s'
  content : cs.map s'.data = blocks
  table : s'.table p = Function.update (s.table p) k e
  frame : ∀ n, n ≠ 1 → n ≠ p.toNat → (∀ c, c ∈ cs → n ≠ c.toNat) →
    s'.disk.cluster n = s.disk.cluster n
  folder : e.IsDir → cs = [e.cluster] ∧ ∃ self parent : FAT32DirectoryEntry,
    Records self parent e.cluster p ∧ s'.table e.cluster = recordTable self parent

namespace Inserted

variable {s s' : FileSystem} {p : UInt32} {k : Fin 64} {e : FAT32DirectoryEntry}
  {cs : List UInt32} {blocks : List ClusterBuffer}

theorem fresh_bounds (h : Inserted s s' p k e cs blocks) (hs : Sound s) {c : UInt32}
    (hc : c ∈ cs) : 3 ≤ c.toNat ∧ c.toNat < 512 := by
  obtain ⟨hlt, hz⟩ := h.fresh c hc
  refine ⟨?_, hlt⟩
  by_contra hlow
  have hcase : c = 0 ∨ c = 1 ∨ c = 2 := by
    have : c.toNat = 0 ∨ c.toNat = 1 ∨ c.toNat = 2 := by omega
    simpa [← UInt32.toNat_inj] using this
  rcases hcase with rfl | rfl | rfl
  · rw [hs.fat_zero] at hz
    exact absurd hz (by decide)
  · rw [hs.fat_one] at hz
    exact absurd hz (by decide)
  · rw [hs.fat_root] at hz
    exact absurd hz (by decide)

theorem not_fresh (h : Inserted s s' p k e cs blocks) {c : UInt32} (hc : s.fat c ≠ 0) :
    c ∉ cs :=
  fun hmem => hc (h.fresh c hmem).2

theorem fat_of_ne_zero (h : Inserted s s' p k e cs blocks) {c : UInt32}
    (hc : s.fat c ≠ 0) : s'.fat c = s.fat c := by
  rw [h.fat, link_of_not_mem (h.not_fresh hc)]

theorem two_le (h : Inserted s s' p k e cs blocks) (hs : Sound s) : 2 ≤ k :=
  (hs.table p h.parent).two_le_of_not_live h.slot.2.1

theorem cluster_mem (h : Inserted s s' p k e cs blocks) : e.cluster ∈ cs :=
  List.mem_of_mem_head? h.first

theorem slot_self (h : Inserted s s' p k e cs blocks) : s'.table p k = e := by
  rw [h.table, Function.update_self]

theorem slot_of_ne (h : Inserted s s' p k e cs blocks) {i : Fin 64} (hi : i ≠ k) :
    s'.table p i = s.table p i := by
  rw [h.table, Function.update_of_ne hi]

/-- Allocated clusters other than the parent keep their bytes. -/
theorem data_of_ne_parent (h : Inserted s s' p k e cs blocks) {c : UInt32}
    (hlt : c.toNat < 512) (h1 : c.toNat ≠ 1) (hp : c ≠ p) (hc : s.fat c ≠ 0) :
    s'.data c = s.data c := by
  rw [FileSystem.data_of_lt _ hlt, FileSystem.data_of_lt _ hlt]
  refine h.frame _ h1 (fun he => hp (UInt32.toNat_inj.mp he)) fun x hx he => ?_
  exact h.not_fresh hc ((UInt32.toNat_inj.mp he) ▸ hx)

theorem table_of_ne_parent (h : Inserted s s' p k e cs blocks) (hs : Sound s) {d : UInt32}
    (hd : LiveDir s d) (hp : d ≠ p) : s'.table d = s.table d := by
  rw [FileSystem.table, h.data_of_ne_parent (hs.liveDir_lt hd) (hs.liveDir_ne_one hd) hp
    (hs.liveDir_fat_ne_zero hd)]
  rfl

/-- Every slot of a live directory but the filled one is unchanged. -/
theorem slot_eq (h : Inserted s s' p k e cs blocks) (hs : Sound s) {d : UInt32} {i : Fin 64}
    (hd : LiveDir s d) (hne : ¬(d = p ∧ i = k)) : s'.table d i = s.table d i := by
  by_cases hp : d = p
  · subst hp
    exact h.slot_of_ne fun hi => hne ⟨rfl, hi⟩
  · rw [h.table_of_ne_parent hs hd hp]

theorem child_ne_slot (h : Inserted s s' p k e cs blocks) {d : UInt32} {i : Fin 64}
    (hd : Child s d i) : ¬(d = p ∧ i = k) := by
  rintro ⟨rfl, rfl⟩
  exact h.slot.2.1 hd.2.2

theorem slot_child (h : Inserted s s' p k e cs blocks) (hs : Sound s) {d : UInt32}
    {i : Fin 64} (hd : Child s d i) : s'.table d i = s.table d i :=
  h.slot_eq hs hd.1 (h.child_ne_slot hd)

/-- The tree has one more directory when a folder is added, and else the same ones. -/
theorem liveDir_iff (h : Inserted s s' p k e cs blocks) (hs : Sound s) (d : UInt32) :
    LiveDir s' d ↔ LiveDir s d ∨ (e.IsDir ∧ d = e.cluster) := by
  have hfree : s.edge p k = none := edge_eq_none_iff.mpr fun hc => h.slot.2.1 hc.2.1
  have hagree : ∀ x i, LiveDir s x → ¬(x = p ∧ i = k) → s'.edge x i = s.edge x i :=
    fun x i hx hne => edge_congr (h.slot_eq hs hx hne)
  by_cases hdir : e.IsDir
  · obtain ⟨-, self, parent, -, htab⟩ := h.folder hdir
    have hnew : s'.edge p k = some e.cluster := by
      refine edge_eq_some_iff.mpr ⟨h.two_le hs, ?_, ?_, ?_⟩ <;> rw [h.slot_self]
      · exact h.live
      · exact hdir
    have hleaf : ∀ i, s'.edge e.cluster i = none := by
      intro i
      refine edge_eq_none_iff.mpr fun hc => ?_
      rw [htab, recordTable_child self parent hc.1] at hc
      exact FAT32DirectoryEntry.not_live_zero hc.2.1
    simpa [hdir] using reach_insert_iff h.parent hfree hnew hleaf hagree d
  · have hsame : ∀ x i, LiveDir s x → s'.edge x i = s.edge x i := by
      intro x i hx
      by_cases hslot : x = p ∧ i = k
      · obtain ⟨rfl, rfl⟩ := hslot
        rw [hfree, edge_eq_none_iff, h.slot_self]
        exact fun hc => hdir hc.2.2
      · exact hagree x i hx hslot
    simpa [hdir] using reach_iff_of_agree hsame d

/-- The children afterwards are those before and the new entry. -/
theorem child_iff (h : Inserted s s' p k e cs blocks) (hs : Sound s) (d : UInt32)
    (i : Fin 64) : Child s' d i ↔ Child s d i ∨ (d = p ∧ i = k) := by
  constructor
  · rintro ⟨hd, hi, hl⟩
    rcases (h.liveDir_iff hs d).mp hd with hd | ⟨hdir, rfl⟩
    · by_cases hslot : d = p ∧ i = k
      · exact Or.inr hslot
      · rw [h.slot_eq hs hd hslot] at hl
        exact Or.inl ⟨hd, hi, hl⟩
    · -- the new folder has no children
      obtain ⟨-, self, parent, -, htab⟩ := h.folder hdir
      rw [htab, recordTable_child self parent hi] at hl
      exact absurd hl FAT32DirectoryEntry.not_live_zero
  · rintro (hd | ⟨rfl, rfl⟩)
    · refine ⟨(h.liveDir_iff hs d).mpr (Or.inl hd.1), hd.2.1, ?_⟩
      rw [h.slot_child hs hd]
      exact hd.2.2
    · refine ⟨(h.liveDir_iff hs d).mpr (Or.inl h.parent), h.two_le hs, ?_⟩
      rw [h.slot_self]
      exact h.live

/-- The new entry points to the new chain. -/
theorem chain_new (h : Inserted s s' p k e cs blocks) : FatChain s' e.cluster cs := by
  have hstop : fat32FatEndOfFile ∉ cs := fun hmem =>
    absurd (h.fresh _ hmem).1 (by decide)
  have hhead : cs.headD fat32FatEndOfFile = e.cluster := by
    rw [List.headD_eq_head?_getD, h.first]
    rfl
  have hlink : Linked (link fat32FatEndOfFile s.fat cs) fat32FatEndOfFile
      (cs.headD fat32FatEndOfFile) cs := linked_link h.nodup hstop
  rw [hhead] at hlink
  exact hlink.congr fun x _ => h.fat x

/-- The chains of old children are unchanged. -/
theorem chain_old_iff (h : Inserted s s' p k e cs blocks) (hs : Sound s) {d : UInt32}
    {i : Fin 64} (hd : Child s d i) (ds : List UInt32) :
    FatChain s' (s.table d i).cluster ds ↔ FatChain s (s.table d i).cluster ds := by
  obtain ⟨-, ds', hds', -⟩ := hs.chain d i hd
  have hkeep : FatChain s' (s.table d i).cluster ds' :=
    hds'.congr fun x hx => h.fat_of_ne_zero (hs.fat_ne_zero_of_mem hd hds' hx)
  constructor
  · intro hds
    rwa [hds.unique hkeep]
  · intro hds
    rwa [hds.unique hds']

theorem owns_old_iff (h : Inserted s s' p k e cs blocks) (hs : Sound s) {d : UInt32}
    {i : Fin 64} (hd : Child s d i) (c : UInt32) : Owns s' d i c ↔ Owns s d i c := by
  have hd' : Child s' d i := (h.child_iff hs d i).mpr (Or.inl hd)
  simp only [Owns, h.slot_child hs hd, h.chain_old_iff hs hd, hd, hd', true_and]

theorem owns_new_iff (h : Inserted s s' p k e cs blocks) (hs : Sound s) (c : UInt32) :
    Owns s' p k c ↔ c ∈ cs := by
  have hd' : Child s' p k := (h.child_iff hs p k).mpr (Or.inr ⟨rfl, rfl⟩)
  simp only [Owns, h.slot_self, hd', true_and]
  constructor
  · rintro ⟨ds, hds, hc⟩
    rwa [← hds.unique h.chain_new]
  · exact fun hc => ⟨cs, h.chain_new, hc⟩

theorem owns_iff (h : Inserted s s' p k e cs blocks) (hs : Sound s) (d : UInt32)
    (i : Fin 64) (c : UInt32) :
    Owns s' d i c ↔ Owns s d i c ∨ (d = p ∧ i = k ∧ c ∈ cs) := by
  constructor
  · intro hc
    rcases (h.child_iff hs d i).mp hc.1 with hd | ⟨rfl, rfl⟩
    · exact Or.inl ((h.owns_old_iff hs hd c).mp hc)
    · exact Or.inr ⟨rfl, rfl, (h.owns_new_iff hs c).mp hc⟩
  · rintro (hc | ⟨rfl, rfl, hc⟩)
    · exact (h.owns_old_iff hs hc.1 c).mpr hc
    · exact (h.owns_new_iff hs c).mpr hc

/-- The parent's table stays sound: the new key is fresh and not blank. -/
theorem tableSound_parent (h : Inserted s s' p k e cs blocks) (hs : Sound s) :
    TableSound (s'.table p) := by
  have ht := hs.table p h.parent
  have hk2 := h.two_le hs
  have hnew : ∀ j, (s.table p j).key ≠ e.key := h.noMatch
  refine ⟨?_, ?_, ?_, ?_⟩
  · intro i hi
    have hik : i ≠ k := fun he => absurd hk2 (not_le.mpr (he ▸ hi))
    rw [h.slot_of_ne hik]
    exact ht.record i hi
  · intro i hi hl
    by_cases hik : i = k
    · subst hik
      rw [h.slot_self] at hl
      exact absurd h.live hl
    · rw [h.slot_of_ne hik] at hl ⊢
      exact ht.dead i hi hl
  · intro i hi hl
    by_cases hik : i = k
    · subst hik
      rw [h.slot_self]
      exact ht.key_ne_blank_of_noMatch h.noMatch h.slot
    · rw [h.slot_of_ne hik] at hl ⊢
      exact ht.nonblank i hi hl
  · intro i j hi hli hlj hij
    by_cases hik : i = k
    · subst hik
      rw [h.slot_self, h.slot_of_ne hij.symm]
      exact (hnew j).symm
    · rw [h.slot_of_ne hik] at hli ⊢
      by_cases hjk : j = k
      · subst hjk
        rw [h.slot_self]
        exact hnew i
      · rw [h.slot_of_ne hjk] at hlj ⊢
        exact ht.distinct i j hi hli hlj hij

theorem tableSound_folder {self parent : FAT32DirectoryEntry}
    (hs : self.Live ∧ self.IsDir) (hp : parent.Live ∧ parent.IsDir) :
    TableSound (recordTable self parent) := by
  have hdead : ∀ i : Fin 64, 2 ≤ i → ¬ (recordTable self parent i).Live := by
    intro i hi
    rw [recordTable_child self parent hi]
    exact FAT32DirectoryEntry.not_live_zero
  refine ⟨?_, ?_, ?_, ?_⟩
  · intro i hi
    have hcase : i = 0 ∨ i = 1 := by omega
    rcases hcase with rfl | rfl
    · rwa [recordTable_zero]
    · rwa [recordTable_one]
  · exact fun i hi _ => recordTable_child self parent hi
  · exact fun i hi hl => absurd hl (hdead i hi)
  · exact fun i _ hi hl => absurd hl (hdead i hi)

/-- **Adding an entry keeps the invariant.** -/
theorem sound (h : Inserted s s' p k e cs blocks) (hs : Sound s) : Sound s' := by
  have hlow : ∀ c : UInt32, s.fat c ≠ 0 → s'.fat c = s.fat c := fun c => h.fat_of_ne_zero
  refine ⟨?_, h.synced, ?_, ?_, ?_, ?_, ?_, ?_, ?_, ?_, ?_⟩
  · rw [← hs.boot]
    refine Disk.boot_eq_of_cluster_zero (h.frame 0 (by decide) ?_ ?_)
    · have := (hs.liveDir_bounds h.parent).1
      omega
    · intro c hc
      have := (h.fresh_bounds hs hc).1
      omega
  · rw [hlow 0 (by rw [hs.fat_zero]; decide), hs.fat_zero]
  · rw [hlow 1 (by rw [hs.fat_one]; decide), hs.fat_one]
  · rw [hlow 2 (by rw [hs.fat_root]; decide), hs.fat_root]
  · intro d hd
    rcases (h.liveDir_iff hs d).mp hd with hd | ⟨hdir, rfl⟩
    · by_cases hp : d = p
      · subst hp
        exact h.tableSound_parent hs
      · rw [h.table_of_ne_parent hs hd hp]
        exact hs.table d hd
    · obtain ⟨-, self, parent, hrec, htab⟩ := h.folder hdir
      rw [htab]
      exact tableSound_folder ⟨hrec.self_live, hrec.self_isDir⟩
        ⟨hrec.parent_live, hrec.parent_isDir⟩
  · intro d i hd
    rcases (h.child_iff hs d i).mp hd with hd | ⟨rfl, rfl⟩
    · rw [h.slot_child hs hd]
      exact hs.kind d i hd
    · rw [h.slot_self]
      exact h.kind
  · intro d i hd
    rcases (h.child_iff hs d i).mp hd with hd | ⟨rfl, rfl⟩
    · rw [h.slot_child hs hd]
      obtain ⟨hne, ds, hds, hlt⟩ := hs.chain d i hd
      exact ⟨hne, ds, (h.chain_old_iff hs hd ds).mpr hds, hlt⟩
    · rw [h.slot_self]
      refine ⟨?_, cs, h.chain_new, fun c hc => h.fresh_bounds hs hc⟩
      intro he
      have := (h.fresh_bounds hs h.cluster_mem).2
      rw [he] at this
      exact absurd this (by decide)
  · intro d i hd hdir
    rcases (h.child_iff hs d i).mp hd with hd | ⟨rfl, rfl⟩
    · rw [h.slot_child hs hd] at hdir ⊢
      rw [hlow _ (hs.owns_fat_ne_zero (hs.owns_cluster hd))]
      exact hs.dirEnd d i hd hdir
    · rw [h.slot_self] at hdir ⊢
      rw [h.fat, (h.folder hdir).1]
      simp [link]
  · intro d i d' i' c hc hc'
    rcases (h.owns_iff hs d i c).mp hc with ho | ⟨rfl, rfl, hm⟩ <;>
      rcases (h.owns_iff hs d' i' c).mp hc' with ho' | ⟨rfl, rfl, hm'⟩
    · exact hs.disjoint d i d' i' c ho ho'
    · exact absurd hm' (h.not_fresh (hs.owns_fat_ne_zero ho))
    · exact absurd hm (h.not_fresh (hs.owns_fat_ne_zero ho'))
    · exact ⟨rfl, rfl⟩
  · intro c hc3 hc
    by_cases hmem : c ∈ cs
    · exact ⟨p, k, (h.owns_new_iff hs c).mpr hmem⟩
    · rw [h.fat, link_of_not_mem hmem] at hc
      obtain ⟨d, i, ho⟩ := hs.noLeak c hc3 hc
      exact ⟨d, i, (h.owns_iff hs d i c).mpr (Or.inl ho)⟩

end Inserted

end Fat32
end OS2024
