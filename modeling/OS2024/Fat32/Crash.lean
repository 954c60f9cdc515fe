import OS2024.Fat32.Frame
import OS2024.Fat32.Trace

/-!
# Power cuts

The drive writes blocks one by one and each of them atomically.  If the power fails
during a call, the disk holds the result of a prefix of the writes of the call.

A disk `Holds` a file system when everything that the file system refers to is there; what
its free clusters and free table entries contain does not matter.  `write` first fills
free clusters and links them, `delete` first clears the entry.  So the one block of the
parent's table that changes is the commit point: before it the disk holds the file system
before the call, and from it on the one after the call.

**Results.**
* `Holds.applyWrites`: harmless writes do not disturb what is held.
* `Holds.sameTree`: mounting a disk yields the tree of the file system that it holds.
* `crash_holds`: every prefix of a call leaves the state before or after it.
* `wellScoped_crashSafe`: what a client sees after a power cut and a remount.
-/

namespace OS2024
namespace Fat32

open BlockStore TracedState LinkedChain SlotTree Runs

/-! ## What a disk holds -/

/-- The disk contains everything that the file system `s` refers to. -/
structure Holds (s : FileSystem) (d : Disk) : Prop where
  boot : d 0 = fsSignature
  fat : ∀ c, s.fat c ≠ 0 → (mounted d).fat c = s.fat c
  data : ∀ c : UInt32, s.fat c ≠ 0 → 2 ≤ c.toNat →
    d.cluster c.toNat = s.disk.cluster c.toNat

theorem Sound.holds {s : FileSystem} (hs : Sound s) : Holds s s.disk where
  boot := hs.boot
  fat := fun _ _ => by rw [hs.mounted_eq]
  data := fun _ _ _ => rfl

/-- A write into a free cluster, or of a block of a table that agrees on used entries. -/
def Harmless (s : FileSystem) (w : Nat × BlockBuffer) : Prop :=
  (∃ c : UInt32, s.fat c = 0 ∧ 2 ≤ c.toNat ∧ w.1 / 4 = c.toNat) ∨
    ∃ u : FileSystem, (∀ c, s.fat c ≠ 0 → u.fat c = s.fat c) ∧
      w ∈ Disk.clusterWrites 1 (FAT32FileAllocationTable.toBytes u.fatTable)

theorem harmless_free {s : FileSystem} {c : UInt32} (hc : s.fat c = 0) (h2 : 2 ≤ c.toNat)
    (b : ClusterBuffer) {w : Nat × BlockBuffer} (hw : w ∈ Disk.clusterWrites c.toNat b) :
    Harmless s w := by
  obtain ⟨i, rfl⟩ := mem_groupWrites.mp hw
  refine Or.inl ⟨c, hc, h2, ?_⟩
  show (4 * c.toNat + (i : Nat)) / 4 = c.toNat
  omega

/-- Entry `c` of the table on disk is stored in a single block. -/
theorem mounted_fat_congr {d d' : Disk} {c : UInt32}
    (h : d (4 * 1 + c.toNat / 128) = d' (4 * 1 + c.toNat / 128)) :
    (mounted d).fat c = (mounted d').fat c := by
  by_cases hc : c.toNat < 512
  · rw [FileSystem.fat, FileSystem.fat, FAT32FileAllocationTable.get_of_lt _ hc,
      FAT32FileAllocationTable.get_of_lt _ hc]
    have hdiv : ∀ k : Fin 4, (4 * c.toNat + (k : Nat)) / 512 = c.toNat / 128 := by omega
    simp only [mounted, FAT32FileAllocationTable.ofBytes, Disk.cluster, group, hdiv, h]
  · rw [FileSystem.fat, FileSystem.fat, FAT32FileAllocationTable.get_of_not_lt _ hc,
      FAT32FileAllocationTable.get_of_not_lt _ hc]

theorem mounted_fat_of_cluster {d d' : Disk} (h : d.cluster 1 = d'.cluster 1) (c : UInt32) :
    (mounted d).fat c = (mounted d').fat c := by
  rw [FileSystem.fat, FileSystem.fat, mounted, mounted, h]

theorem mounted_fat_clusterWrites (d : Disk) (f : FAT32FileAllocationTable) (c : UInt32) :
    (mounted (applyWrites d (Disk.clusterWrites 1 f.toBytes))).fat c =
      FAT32FileAllocationTable.get f c := by
  rw [FileSystem.fat, mounted, Disk.cluster_applyWrites_clusterWrites, if_pos rfl,
    FAT32FileAllocationTable.ofBytes_toBytes]

/-- A harmless write does not disturb what is held. -/
theorem Holds.applyWrite {s : FileSystem} {d : Disk} {w : Nat × BlockBuffer}
    (h : Holds s d) (hw : Harmless s w) : Holds s (applyWrite d w) := by
  rcases hw with ⟨x, hx, hx2, haddr⟩ | ⟨u, hu, hw⟩
  · have hcluster : ∀ n, n ≠ x.toNat →
        Disk.cluster (BlockStore.applyWrite d w) n = d.cluster n :=
      fun n hn => Disk.cluster_applyWrite_of_ne d fun he => hn (he.symm.trans haddr)
    refine ⟨?_, fun c hc => ?_, fun c hc hc2 => ?_⟩
    · rw [← h.boot]
      exact Disk.boot_eq_of_cluster_zero (hcluster 0 (by omega))
    · rw [← h.fat c hc, mounted_fat_of_cluster (hcluster 1 (by omega))]
    · rw [← h.data c hc hc2]
      refine hcluster _ fun he => hc ?_
      rw [UInt32.toNat_inj.mp he, hx]
  · obtain ⟨i, rfl⟩ := mem_groupWrites.mp hw
    refine ⟨?_, fun c hc => ?_, fun c hc hc2 => ?_⟩
    · rw [← h.boot]
      exact if_neg (by omega)
    · by_cases hi : c.toNat / 128 = i
      · -- the block is the one that holds entry `c`
        refine (mounted_fat_congr ?_).trans
          ((mounted_fat_clusterWrites d u.fatTable c).trans (hu c hc))
        rw [hi, ← Disk.blocksOf_cluster (BlockStore.applyWrites d _) 1 i,
          Disk.cluster_applyWrites_clusterWrites, if_pos rfl]
        exact if_pos rfl
      · rw [← h.fat c hc]
        exact mounted_fat_congr (if_neg (by omega))
    · rw [← h.data c hc hc2]
      refine Disk.cluster_applyWrite_of_ne d ?_
      show (4 * 1 + (i : Nat)) / 4 ≠ c.toNat
      omega

theorem Holds.applyWrites {s : FileSystem} {d : Disk} {ws : List (Nat × BlockBuffer)}
    (h : Holds s d) (hws : ∀ w, w ∈ ws → Harmless s w) :
    Holds s (BlockStore.applyWrites d ws) :=
  applyWrites_invariant h fun _ w hd hw => hd.applyWrite (hws w hw)

/-! ## The stages of `write` and `delete` -/

section Stages

variable {s : FileSystem}

/-- Linking and filling free clusters is harmless. -/
theorem writeLoop_harmless (buf : Stdlib.Memory) (j : Nat) {cs : List UInt32} (u : FileSystem)
    (hu : ∀ c, s.fat c ≠ 0 → u.fat c = s.fat c)
    (hcs : ∀ c, c ∈ cs → s.fat c = 0 ∧ 2 ≤ c.toNat ∧ c.toNat < 512)
    {w : Nat × BlockBuffer} (hw : w ∈ writesOf (writeLoop buf j cs u).trace) :
    Harmless s w := by
  induction cs generalizing u j with
  | nil => cases hw
  | cons c rest ih =>
      obtain ⟨hfree, h2, hlt⟩ := hcs c List.mem_cons_self
      have hother : ∀ x, s.fat x ≠ 0 → x ≠ c := fun x hx he => hx (he ▸ hfree)
      rw [writeLoop_cons buf j rest hlt, Outcome.prepend_trace, writesOf_append,
        writesOf_append, writesOf_clusterWriteEvents, writesOf_clusterWriteEvents, List.mem_append,
        List.mem_append, physical_of_lt hlt] at hw
      rcases hw with (hw | hw) | hw
      · refine Or.inr ⟨_, fun x hx => ?_, hw⟩
        rw [FileSystem.fat_assign _ _ _ hlt, if_neg (hother x hx), hu x hx]
      · exact harmless_free hfree h2 _ hw
      · refine ih (j + 1) _ (fun x hx => ?_) (fun x hx => hcs x (List.mem_cons_of_mem _ hx)) hw
        rw [linkRound_fat hlt, if_neg (hother x hx), hu x hx]

theorem writeFolder_harmless {r : FAT32DriverRequest} {c : UInt32} (hfree : s.fat c = 0)
    (h2 : 2 ≤ c.toNat) (hlt : c.toNat < 512) {w : Nat × BlockBuffer}
    (hw : w ∈ writesOf (writeFolder r c s).trace) : Harmless s w := by
  rw [writeFolder_apply hlt] at hw
  simp only [writesOf_append, writesOf_clusterReadEvents, writesOf_clusterWriteEvents,
    List.nil_append, List.mem_append, physical_of_lt hlt] at hw
  rcases hw with hw | hw
  · exact harmless_free hfree h2 _ hw
  · refine Or.inr ⟨_, fun x hx => ?_, hw⟩
    have hne : x ≠ c := fun he => hx (he ▸ hfree)
    rw [FileSystem.fat_assign _ _ _ hlt, if_neg hne]

theorem writeContent_harmless {r : FAT32DriverRequest} {c : UInt32} {rest : List UInt32}
    (hcs : ∀ x, x ∈ c :: rest → s.fat x = 0 ∧ 2 ≤ x.toNat ∧ x.toNat < 512)
    {w : Nat × BlockBuffer} (hw : w ∈ writesOf (writeContent r c rest s).trace) :
    Harmless s w := by
  rw [writeContent] at hw
  split_ifs at hw
  · obtain ⟨hfree, h2, hlt⟩ := hcs c List.mem_cons_self
    exact writeFolder_harmless hfree h2 hlt hw
  · exact writeLoop_harmless r.buf 0 s (fun _ _ => rfl) hcs hw

/-- Zeroing the clusters of a chain is harmless once they count as free. -/
theorem freeChain_harmless {u : FileSystem} {c : UInt32} {cs : List UInt32} {rounds : Nat}
    (hu : FatChain u c cs) (hcs : ∀ x, x ∈ cs → s.fat x = 0 ∧ 2 ≤ x.toNat ∧ x.toNat < 512)
    (hc : c ≠ fat32FatEndOfFile) {w : Nat × BlockBuffer}
    (hw : w ∈ writesOf (freeChain rounds c u).trace) : Harmless s w := by
  induction cs generalizing u c rounds with
  | nil => exact absurd (Linked.nil_iff.mp hu) hc
  | cons d cs ih =>
      obtain ⟨rfl, -, hl⟩ := Linked.cons_iff.mp hu
      obtain ⟨hfree, h2, hlt⟩ := hcs c List.mem_cons_self
      have hnd := List.nodup_cons.mp hu.nodup
      cases rounds with
      | zero => cases hw
      | succ rounds =>
          rw [freeChain_succ rounds hlt, Outcome.prepend_trace, writesOf_append,
            writesOf_clusterWriteEvents, List.mem_append, physical_of_lt hlt] at hw
          rcases hw with hw | hw
          · exact harmless_free hfree h2 _ hw
          · split_ifs at hw with hn
            · cases hw
            · refine ih (hl.congr fun x hx => ?_)
                (fun x hx => hcs x (List.mem_cons_of_mem _ hx)) hn hw
              have hxc : x ≠ c := fun he => hnd.1 (he ▸ hx)
              rw [freeRound_fat hlt, if_neg hxc]

end Stages

/-! ## The commit point -/

section Commit

variable {s : FileSystem} {r : FAT32DriverRequest}

theorem table_toBytes (s : FileSystem) {c : UInt32} (hc : c.toNat < 512) :
    s.disk.cluster c.toNat = FAT32DirectoryTable.toBytes (s.table c) := by
  rw [FileSystem.table, FAT32DirectoryTable.toBytes_ofBytes, FileSystem.data_of_lt _ hc]

/-- Before the entry is stored the disk holds the old state, and then the new one. -/
theorem write_crash (hs : Sound s) {k : Fin 64} {c : UInt32} {rest : List UInt32}
    (hbuf : slotBuf s r = c :: rest)
    (hfree : (required r).toNat ≤ (freeClusters s.fatTable).length)
    (hins : Inserted s (write r s).state r.parentClusterNumber k (newEntry r c) (c :: rest)
      (newBlocks s r c (c :: rest).length))
    {ws : List (Nat × BlockBuffer)} (hws : ws <+: writesOf (write r s).trace) :
    Holds s (applyWrites s.disk ws) ∨ Holds (write r s).state (applyWrites s.disk ws) := by
  have hp := hins.parent
  have hs' := hins.sound hs
  have hplt := hs.liveDir_lt hp
  obtain ⟨s₁, w, hcont, hchain, hwrite⟩ :=
    write_stages hs hp hins.noMatch hins.slot hbuf hfree
  have hdisk : s₁.disk = applyWrites s.disk (writesOf w) := by
    have haccount := writeContent_accounted r c rest s
    rwa [hcont] at haccount
  have hharmless : ∀ x, x ∈ writesOf w → Harmless s x := by
    intro x hx
    have hmem : x ∈ writesOf (writeContent r c rest s).trace := by rwa [hcont]
    refine writeContent_harmless (fun y hy => ?_) hmem
    have hb := hins.fresh_bounds hs hy
    exact ⟨(hins.fresh y hy).2, by omega, hb.2⟩
  rw [hwrite] at hws hs' ⊢
  simp only [writesOf_append, writesOf_clusterReadEvents, writesOf_clusterWriteEvents,
    List.nil_append, List.append_nil, physical_of_lt hplt] at hws
  rcases prefix_append hws with hws | ⟨zs, hzs, rfl⟩
  · exact Or.inl (hs.holds.applyWrites fun x hx => hharmless x (hws.subset hx))
  · rw [applyWrites_append, ← hdisk]
    have hold : s₁.disk.cluster r.parentClusterNumber.toNat =
        FAT32DirectoryTable.toBytes (s.parentTable r) := by
      rw [hchain.frame _ (hs.liveDir_ne_one hp), table_toBytes s hplt]
      intro x hx he
      exact slotBuf_not_liveDir hbuf hs hp ((UInt32.toNat_inj.mp he) ▸ hx)
    rcases tableWrites_atomic hold hzs with he | he
    · rw [he, hdisk]
      exact Or.inl (hs.holds.applyWrites hharmless)
    · rw [he, ← physical_of_lt hplt]
      exact Or.inr hs'.holds

/-- Once the entry is cleared the disk holds the state without it. -/
theorem Removed.holds_cleared {s' : FileSystem} {k : Fin 64} {cs : List UInt32}
    (h : Removed s s' r.parentClusterNumber k cs) (hs : Sound s) :
    Holds s' (s.store r.parentClusterNumber (clearedTable s r k).toBytes).disk := by
  have hp := hs.liveDir_bounds h.child.1
  have hphys := physical_of_lt hp.2
  have hcluster : ∀ n, n ≠ r.parentClusterNumber.toNat →
      (s.store r.parentClusterNumber (clearedTable s r k).toBytes).disk.cluster n =
        s.disk.cluster n :=
    fun n hn => FileSystem.cluster_store_of_ne _ _ _ (by rw [hphys]; exact hn)
  have hkeep : ∀ c, s'.fat c ≠ 0 → c ∉ cs := by
    intro c hc hmem
    rw [h.fat, if_pos hmem] at hc
    exact hc rfl
  refine ⟨?_, fun c hc => ?_, fun c hc hc2 => ?_⟩
  · rw [← hs.boot]
    exact Disk.boot_eq_of_cluster_zero (hcluster 0 (by omega))
  · rw [h.fat_of_not_mem (hkeep c hc), mounted_fat_of_cluster (hcluster 1 (by omega)),
      hs.mounted_eq]
  · by_cases hcp : c = r.parentClusterNumber
    · rw [hcp, table_toBytes s' hp.2, h.table, ← FileSystem.data_of_lt _ hp.2,
        FileSystem.data_store_self]
    · have hne : c.toNat ≠ r.parentClusterNumber.toNat :=
        fun he => hcp (UInt32.toNat_inj.mp he)
      rw [hcluster _ hne, h.frame _ (by omega) hne]
      exact fun x hx he => hkeep c hc ((UInt32.toNat_inj.mp he) ▸ hx)

theorem writesOf_deleteReadEvents (s : FileSystem) (r : FAT32DriverRequest) (k : Fin 64) :
    writesOf (deleteReadEvents s r k) = [] := by
  rw [deleteReadEvents]
  split_ifs <;> rfl

/-- Before the entry is cleared the disk holds the old state, and then the new one. -/
theorem delete_crash (hs : Sound s) {k : Fin 64} {cs : List UInt32}
    (hk : FirstMatch (s.parentTable r) r.key k)
    (hrem : Removed s (delete r s).state r.parentClusterNumber k cs)
    {ws : List (Nat × BlockBuffer)} (hws : ws <+: writesOf (delete r s).trace) :
    Holds s (applyWrites s.disk ws) ∨ Holds (delete r s).state (applyWrites s.disk ws) := by
  have hempty := fun hdir => (isEmptyTable_iff _).mpr (hrem.emptyDir hdir)
  obtain ⟨ds, s₂, w, hcs, hfree, hf, hdelete⟩ := delete_stages hs hrem.child hk hempty
  obtain rfl := hcs.unique hrem.chain
  have hplt := hs.liveDir_lt hrem.child.1
  rw [hdelete] at hrem hws ⊢
  have hcleared := hrem.holds_cleared hs
  have hrest : ∀ x, x ∈ writesOf w ++
      Disk.clusterWrites 1 (FAT32FileAllocationTable.toBytes s₂.fatTable) →
      Harmless s₂.flush x := by
    intro x hx
    rcases List.mem_append.mp hx with hx | hx
    · have hmem : x ∈ writesOf (freeChain 513 (s.parentTable r k).cluster
          (s.store r.parentClusterNumber (clearedTable s r k).toBytes)).trace := by
        rwa [hfree]
      have hcs₁ : FatChain (s.store r.parentClusterNumber (clearedTable s r k).toBytes)
          (s.parentTable r k).cluster ds := hcs
      refine freeChain_harmless hcs₁ (fun y hy => ?_)
        (hs.chain _ _ hrem.child).1 hmem
      have hb := hs.mem_bounds (hrem.owns hy)
      exact ⟨by rw [hrem.fat, if_pos hy], by omega, hb.2⟩
    · exact Or.inr ⟨s₂, fun _ _ => rfl, hx⟩
  simp only [writesOf_append, writesOf_deleteReadEvents, writesOf_clusterWriteEvents,
    List.nil_append, List.append_nil, physical_of_lt hplt] at hws
  rcases prefix_append hws with hws | ⟨zs, hzs, rfl⟩
  · rcases tableWrites_atomic (table_toBytes s hplt) hws with he | he
    · rw [he]
      exact Or.inl hs.holds
    · rw [he, ← physical_of_lt hplt]
      exact Or.inr hcleared
  · rw [applyWrites_append, ← physical_of_lt hplt]
    exact Or.inr (hcleared.applyWrites fun x hx => hrest x (hzs.subset hx))

/-- **Every prefix of the writes of a call leaves the state before or after the call.** -/
theorem crash_holds {c : Call} (hs : Sound s) (hc : Safe s c)
    {ws : List (Nat × BlockBuffer)} (hws : ws <+: writesOf (c.run s).trace) :
    Holds s (applyWrites s.disk ws) ∨ Holds (after s c) (applyWrites s.disk ws) := by
  cases safe_effect hs hc with
  | reads _ trace =>
      rw [writesOf_of_isRead trace, List.prefix_nil] at hws
      rw [hws]
      exact Or.inl hs.holds
  | inserts k c rest hbuf hfree _ inserted =>
      rw [after_write] at inserted ⊢
      exact write_crash hs hbuf hfree inserted (by rwa [Call.run, map_trace] at hws)
  | removes k cs hk _ removed =>
      rw [after_delete] at removed ⊢
      exact delete_crash hs hk removed (by rwa [Call.run, map_trace] at hws)

end Commit

/-! ## Mounting after a power cut -/

/-- `t` has the directories, entries, chains and bytes of `s`. -/
structure SameTree (s t : FileSystem) : Prop where
  liveDir : ∀ d, LiveDir t d ↔ LiveDir s d
  data : ∀ d, LiveDir s d → t.data d = s.data d
  chain : ∀ d i cs, Child s d i → FatChain s (s.table d i).cluster cs →
    FatChain t (s.table d i).cluster cs
  content : ∀ d i cs, Child s d i → FatChain s (s.table d i).cluster cs →
    cs.map t.data = cs.map s.data

theorem Holds.sameTree {s : FileSystem} {d : Disk} (h : Holds s d) (hs : Sound s) :
    SameTree s (mounted d) := by
  have hdata : ∀ c, s.fat c ≠ 0 → 2 ≤ c.toNat → (mounted d).data c = s.data c := by
    intro c hc hc2
    have hlt := FileSystem.lt_of_fat_ne_zero hc
    rw [FileSystem.data_of_lt _ hlt, FileSystem.data_of_lt _ hlt]
    exact h.data c hc hc2
  have htable : ∀ x, LiveDir s x → (mounted d).data x = s.data x :=
    fun x hx => hdata x (hs.liveDir_fat_ne_zero hx) (hs.liveDir_bounds hx).1
  refine ⟨fun x => ?_, htable, fun x i cs hx hcs => ?_, fun x i cs hx hcs => ?_⟩
  · refine reach_iff_of_agree (fun y i hy => edge_congr ?_) x
    rw [FileSystem.table, FileSystem.table, htable y hy]
  · exact hcs.congr fun c hc => h.fat c (hs.fat_ne_zero_of_mem hx hcs hc)
  · refine List.map_congr_left fun c hc => ?_
    have hb := (hs.mem_bounds ⟨hx, cs, hcs, hc⟩).1
    exact hdata c (hs.fat_ne_zero_of_mem hx hcs hc) (by omega)

namespace SameTree

variable {s t : FileSystem}

theorem table_eq (h : SameTree s t) {d : UInt32} (hd : LiveDir s d) :
    t.table d = s.table d := by
  rw [FileSystem.table, FileSystem.table, h.data d hd]

theorem child_iff (h : SameTree s t) (d : UInt32) (i : Fin 64) :
    Child t d i ↔ Child s d i := by
  constructor
  · rintro ⟨hd, hi, hl⟩
    rw [h.liveDir] at hd
    rw [h.table_eq hd] at hl
    exact ⟨hd, hi, hl⟩
  · rintro ⟨hd, hi, hl⟩
    rw [← h.table_eq hd] at hl
    exact ⟨(h.liveDir d).mpr hd, hi, hl⟩

theorem owns (h : SameTree s t) (hs : Sound s) {d : UInt32} {i : Fin 64} {c : UInt32}
    (hc : Owns t d i c) : Owns s d i c := by
  obtain ⟨hd, cs, hcs, hmem⟩ := hc
  rw [h.child_iff] at hd
  rw [h.table_eq hd.1] at hcs
  obtain ⟨-, ds, hds, -⟩ := hs.chain d i hd
  obtain rfl := hcs.unique (h.chain d i ds hd hds)
  exact ⟨hd, cs, hds, hmem⟩

/-- What is kept up to `s` is kept up to `t`. -/
theorem kept {u : FileSystem} (h : SameTree s t) {d : UInt32} {i : Fin 64}
    (hk : Kept u s d i) : Kept u t d i := by
  have hentry := hk.entry
  refine ⟨(h.child_iff d i).mpr hk.child, by rw [h.table_eq hk.child.1, hentry], ?_, ?_⟩
  · intro cs hcs
    have hs := hk.chain cs hcs
    rw [← hentry] at hs ⊢
    exact h.chain d i cs hk.child hs
  · intro hfile cs hcs
    have hs := hk.chain cs hcs
    rw [← hentry] at hs
    rw [h.content d i cs hk.child hs, hk.content hfile cs hcs]

end SameTree

/-- What a client finds in the mounted file system `t` when the power failed during `c`. -/
structure CrashSafe (s : FileSystem) (c : Call) (t : FileSystem) : Prop where
  /-- Chains are finite and stay in the data area. -/
  chains : ∀ d i, Child t d i → ∃ cs, FatChain t (t.table d i).cluster cs ∧
    ∀ x, x ∈ cs → 3 ≤ x.toNat ∧ x.toNat ≤ 511
  /-- No cluster lies on two chains. -/
  disjoint : ∀ d i d' i' x, Owns t d i x → Owns t d' i' x → d = d' ∧ i = i'
  /-- The entries that the call is not about are the same as before. -/
  others : ∀ d i, Child s d i →
    ¬(d = c.request.parentClusterNumber ∧ (s.table d i).key = c.request.key) → Kept s t d i
  noOthers : ∀ d i, Child t d i →
    ¬(d = c.request.parentClusterNumber ∧ (t.table d i).key = c.request.key) → Child s d i
  /-- So are the tables of other directories. -/
  tables : ∀ d, LiveDir s d → d ≠ c.request.parentClusterNumber → ¬ DeletesDir s c d →
    t.data d = s.data d
  /-- The entry that the call is about is as before the call or as after it. -/
  target : SameTree s t ∨ SameTree (after s c) t

theorem SameTree.chain_bounds {s t : FileSystem} (h : SameTree s t) (hs : Sound s)
    {d : UInt32} {i : Fin 64} (hd : Child t d i) :
    ∃ cs, FatChain t (t.table d i).cluster cs ∧
      ∀ x, x ∈ cs → 3 ≤ x.toNat ∧ x.toNat ≤ 511 := by
  rw [h.child_iff] at hd
  obtain ⟨-, cs, hcs, hlt⟩ := hs.chain d i hd
  rw [h.table_eq hd.1]
  exact ⟨cs, h.chain d i cs hd hcs,
    fun x hx => ⟨(hlt x hx).1, Nat.le_of_lt_succ (hlt x hx).2⟩⟩

theorem SameTree.disjoint {s t : FileSystem} (h : SameTree s t) (hs : Sound s)
    {d d' : UInt32} {i i' : Fin 64} {x : UInt32} (hx : Owns t d i x) (hx' : Owns t d' i' x) :
    d = d' ∧ i = i' :=
  hs.disjoint d i d' i' x (h.owns hs hx) (h.owns hs hx')

section CrashSafety

variable {s t : FileSystem} {c : Call} (hs : Sound s)
include hs

theorem crashSafe_before (h : SameTree s t) : CrashSafe s c t where
  chains := fun _ _ hd => h.chain_bounds hs hd
  disjoint := fun _ _ _ _ _ hx hx' => h.disjoint hs hx hx'
  others := fun _ _ hd _ => h.kept (Kept.refl hd)
  noOthers := fun d i hd _ => (h.child_iff d i).mp hd
  tables := fun d hd _ _ => h.data d hd
  target := Or.inl h

theorem crashSafe_after (hc : Safe s c) (h : SameTree (after s c) t) : CrashSafe s c t := by
  have hs' := (after_edited hs hc).sound hs
  have hothers := othersKept_of_safe hs hc
  refine
    { chains := fun _ _ hd => h.chain_bounds hs' hd
      disjoint := fun _ _ _ _ _ hx hx' => h.disjoint hs' hx hx'
      others := fun d i hd hne => h.kept (hothers.kept d i hd hne)
      noOthers := ?_, tables := ?_, target := Or.inr h }
  · intro d i hd hne
    rw [h.child_iff] at hd
    rw [h.table_eq hd.1] at hne
    exact hothers.old d i hd hne
  · intro d hd hp hdel
    rw [h.data d (hothers.dirs d hd hdel)]
    exact (confined_of_safe hs hc).tables d hd hp hdel

end CrashSafety

/-- **Whatever prefix of its writes a well-scoped call gets to issue, the remounted disk
is consistent and shows the call as a whole or not at all.** -/
theorem wellScoped_crashSafe {s : FileSystem} {c : Call}
    (h : Reached NewSystem WellScoped after s) (hc : WellScoped s c)
    {ws : List (Nat × BlockBuffer)} (hws : ws <+: writesOf (c.run s).trace)
    (cache : FAT32FileAllocationTable) :
    (initializeFilesystemFat32 ⟨applyWrites s.disk ws, cache⟩).result = .ok () ∧
      CrashSafe s c (initializeFilesystemFat32 ⟨applyWrites s.disk ws, cache⟩).state := by
  have hs := wellScopedRun_sound h
  have hsafe := hc.1.safe
  have hheld := crash_holds hs hsafe hws
  have hboot : applyWrites s.disk ws 0 = fsSignature := by
    rcases hheld with hheld | hheld <;> exact hheld.boot
  rw [initialize_of_formatted hboot]
  refine ⟨rfl, ?_⟩
  rcases hheld with hheld | hheld
  · exact crashSafe_before hs (hheld.sameTree hs)
  · exact crashSafe_after hs hsafe (hheld.sameTree ((after_edited hs hsafe).sound hs))

/-- A power cut after five writes of the first file: the table is flushed, the first
block of data is written. -/
theorem crashSafe_firstWrite :
    CrashSafe emptySystem (Call.write (requestFor ['a'] 2 3000))
      (initializeFilesystemFat32
        ⟨applyWrites emptySystem.disk ((writesOf
          ((Call.write (requestFor ['a'] 2 3000)).run emptySystem).trace).take 5),
          fun _ => 0⟩).state :=
  (wellScoped_crashSafe (Reached.start newSystem_emptySystem) wellScoped_firstWrite
    (List.take_prefix _ _) fun _ => 0).2

end Fat32
end OS2024
