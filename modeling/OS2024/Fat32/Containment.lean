import OS2024.Fat32.Lookup

/-!
# Requests that stay inside the file system

`read`, `write` and `delete` take the parent number of a request as an index before they
check it, and the chain loops trust the cluster number of whatever slot they matched.  A
request is contained when all three operations come to an end, index the allocation table
inside its 512 entries and touch only the clusters below 512.

**Results.**
* `write_contained`: a `write` is contained once its parent number is.
* `delete_unchained`: a `delete` that starts from no chain leaves the allocation table.
* `contained_iff`: exactly which requests are contained.
* `safeTarget_child`: requests that name a child are.
-/

namespace OS2024
namespace Fat32

open Stdlib TracedState LinkedChain SlotTree Runs

/-- The sector of the event lies in one of the first 512 clusters. -/
def DiskEvent.Inside : DiskEvent → Prop
  | DiskEvent.read sector => sector < 2048
  | DiskEvent.write sector _ => sector < 2048

/-- The run came to an end without leaving the arrays, and stayed inside the clusters. -/
structure Contained
    {α : Type}
    (o : Outcome Fault FileSystem DiskEvent α) : Prop where
  returns : ∃ v, o.result = .ok v
  inside : ∀ e, e ∈ o.trace → DiskEvent.Inside e

/-- The three operations a user program can ask for are contained. -/
structure RequestContained
    (s : FileSystem)
    (r : FAT32DriverRequest) : Prop where
  read : Contained (read r s)
  write : Contained (write r s)
  delete : Contained (delete r s)

/-- A walk along the allocation table can start at `c`. -/
def Chained
    (s : FileSystem)
    (c : UInt32) : Prop :=
  c ≠ 0 ∧ s.fat c ≠ 0

/-- What the operations do with the cluster number of a matched entry is harmless. -/
structure Followable
    (s : FileSystem)
    (e : FAT32DirectoryEntry) : Prop where
  folder : e.IsDir → physical e.cluster < 512
  emptyFolder : e.IsDir → isEmptyTable (s.table e.cluster) = true → Chained s e.cluster
  file : ¬ e.IsDir → Chained s e.cluster

/-- The parent number is an index, and the slot that the scans match can be followed. -/
structure SafeTarget
    (s : FileSystem)
    (r : FAT32DriverRequest) : Prop where
  parent_lt : r.parentClusterNumber.toNat < 512
  matched : s.fat r.parentClusterNumber = fat32FatEndOfFile →
    ∀ k, FirstMatch (s.parentTable r) r.key k → Followable s (s.parentTable r k)

/-! ## Events -/

section Events

theorem clusterReadEvents_inside
    {n : Nat}
    (hn : n < 512) :
    ∀ e, e ∈ clusterReadEvents n → DiskEvent.Inside e := by
  intro e he
  obtain ⟨i, hi, rfl⟩ := List.mem_map.mp he
  have := List.mem_range.mp hi
  show 4 * n + i < 2048
  omega

/-- A cluster of which some read stays inside is inside. -/
theorem lt_of_clusterReadEvents_inside
    {n : Nat}
    (h : ∀ e, e ∈ clusterReadEvents n → DiskEvent.Inside e) :
    n < 512 := by
  have h0 : DiskEvent.read (4 * n + 0) ∈ clusterReadEvents n :=
    List.mem_map.mpr ⟨0, by simp, rfl⟩
  have : 4 * n + 0 < 2048 := h _ h0
  omega

theorem clusterWriteEvents_inside
    {n : Nat}
    (b : ClusterBuffer)
    (hn : n < 512) :
    ∀ e, e ∈ clusterWriteEvents n b → DiskEvent.Inside e := by
  intro e he
  obtain ⟨w, hw, rfl⟩ := List.mem_map.mp he
  obtain ⟨i, rfl⟩ := BlockStore.mem_groupWrites.mp hw
  show 4 * n + (i : Nat) < 2048
  omega

theorem chainReadEvents_inside
    {cs : List UInt32}
    (hlt : ∀ c, c ∈ cs → c.toNat < 512) :
    ∀ e, e ∈ chainReadEvents cs → DiskEvent.Inside e := by
  intro e he
  obtain ⟨c, hc, he⟩ := List.mem_flatMap.mp he
  exact clusterReadEvents_inside (by rw [physical_of_lt (hlt c hc)]; exact hlt c hc) e he

variable {c : UInt32}

theorem readTable_inside
    (hc : c.toNat < 512) :
    Emits DiskEvent.Inside (readTable c) := by
  intro s
  rw [readTable_apply, physical_of_lt hc]
  exact clusterReadEvents_inside hc

theorem writeCluster_inside
    (b : ClusterBuffer)
    (hc : c.toNat < 512) :
    Emits DiskEvent.Inside (writeCluster b c) := by
  intro s
  rw [writeCluster_apply, physical_of_lt hc]
  exact clusterWriteEvents_inside b hc

theorem flushFat_inside :
    Emits DiskEvent.Inside flushFat := by
  intro s
  rw [flushFat_apply]
  exact clusterWriteEvents_inside _ (by decide)

theorem setClusterMap_inside
    (c v : UInt32) :
    Emits DiskEvent.Inside (setClusterMap c v) := by
  refine Emits.of_trace_nil fun s => ?_
  unfold setClusterMap
  split_ifs <;> rfl

theorem writeLoop_inside
    (buf : Memory)
    (j : Nat)
    {cs : List UInt32}
    (hlt : ∀ c, c ∈ cs → c.toNat < 512) :
    Emits DiskEvent.Inside (writeLoop buf j cs) := by
  induction cs generalizing j with
  | nil => exact Emits.of_trace_nil fun _ => rfl
  | cons c rest ih =>
      have hc := hlt c List.mem_cons_self
      have hchunk : Emits DiskEvent.Inside
          (writeClusters (fun a => buf (j * 2048 + a)) c 1) := by
        intro s
        rw [writeClusters_apply, physical_of_lt hc]
        exact clusterWriteEvents_inside _ hc
      refine (setClusterMap_inside c _).bind fun _ => flushFat_inside.bind fun _ =>
        hchunk.bind fun _ => ?_
      exact ih (j + 1) fun x hx => hlt x (List.mem_cons_of_mem _ hx)

theorem writeFolder_inside
    {r : FAT32DriverRequest}
    (hp : r.parentClusterNumber.toNat < 512)
    (hc : c.toNat < 512) :
    Emits DiskEvent.Inside (writeFolder r c) := by
  have hinit : Emits DiskEvent.Inside
      (initDirectoryTable FAT32DirectoryTable.zero r.name r.parentClusterNumber) :=
    (readTable_inside hp).bind fun _ => Emits.of_trace_nil fun _ => rfl
  refine hinit.bind fun t => (writeCluster_inside _ hc).bind fun _ =>
    (setClusterMap_inside c _).bind fun _ => flushFat_inside

theorem storeEntry_inside
    {r : FAT32DriverRequest}
    {rest : List UInt32}
    (t : FAT32DirectoryTable)
    (k : Fin 64)
    (hp : r.parentClusterNumber.toNat < 512)
    (hlt : ∀ x, x ∈ c :: rest → x.toNat < 512) :
    Emits DiskEvent.Inside (storeEntry t r k c rest) := by
  have hcontent : Emits DiskEvent.Inside (writeContent r c rest) := by
    unfold writeContent
    split_ifs
    · exact writeFolder_inside hp (hlt c List.mem_cons_self)
    · exact writeLoop_inside r.buf 0 hlt
  exact hcontent.bind fun _ => (writeCluster_inside _ hp).bind fun _ =>
    Emits.of_trace_nil fun _ => rfl

/-- The freeing loop indexes the table before it writes to the disk. -/
theorem freeChain_inside
    (rounds : Nat)
    (c : UInt32) :
    Emits DiskEvent.Inside (freeChain rounds c) := by
  induction rounds generalizing c with
  | zero => exact Emits.of_trace_nil fun _ => rfl
  | succ rounds ih =>
      intro s
      by_cases hc : c.toNat < 512
      · rw [freeChain_succ rounds hc]
        intro e he
        rcases List.mem_append.mp he with he | he
        · exact clusterWriteEvents_inside _ (by rw [physical_of_lt hc]; exact hc) e he
        · split_ifs at he with hend
          · cases he
          · exact ih _ _ e he
      · rw [freeChain_badIndex hc]
        intro e he
        cases he

theorem clearEntry_inside
    {r : FAT32DriverRequest}
    (t : FAT32DirectoryTable)
    (k : Fin 64)
    (hp : r.parentClusterNumber.toNat < 512) :
    Emits DiskEvent.Inside (clearEntry t r k) :=
  (writeCluster_inside _ hp).bind fun _ => (freeChain_inside 513 _).bind fun _ =>
    flushFat_inside.bind fun _ => Emits.of_trace_nil fun _ => rfl

end Events

/-! ## Walks along the allocation table -/

section Walks

variable {s : FileSystem} {c : UInt32}

/-- A walk that can start comes to an end inside the allocation table. -/
theorem Chained.chain
    (hs : Sound s)
    (h : Chained s c) :
    ∃ cs, FatChain s c cs ∧ (∀ x, x ∈ cs → x.toNat < 512) ∧ cs.length ≤ 512 := by
  have hlt := FileSystem.lt_of_fat_ne_zero h.2
  by_cases h3 : 3 ≤ c.toNat
  · -- an allocated cluster lies on the chain of some child
    obtain ⟨d, i, hd, cs, hcs, hmem⟩ := hs.noLeak c h3 h.2
    obtain ⟨l₁, l₂, rfl, hl⟩ := hcs.suffix hmem
    refine ⟨l₂, hl, fun x hx => ?_, ?_⟩
    · exact (hs.mem_bounds ⟨hd, _, hcs, List.mem_append_right _ hx⟩).2
    · have hlen := hs.chain_length_le hd hcs
      rw [List.length_append] at hlen
      omega
  · -- clusters 1 and 2 carry the end marker
    have hend : s.fat c = fat32FatEndOfFile := by
      have hcases : c = 1 ∨ c = 2 := by
        have h0 : c.toNat ≠ 0 := fun h0 => h.1 (UInt32.toNat_inj.mp h0)
        have h12 : c.toNat = 1 ∨ c.toNat = 2 := by omega
        exact h12.imp (fun h1 => UInt32.toNat_inj.mp h1) fun h2 => UInt32.toNat_inj.mp h2
      rcases hcases with rfl | rfl
      · exact hs.fat_one
      · exact hs.fat_root
    have hne : c ≠ fat32FatEndOfFile := by
      rintro rfl
      exact absurd hlt (by decide)
    refine ⟨[c], Linked.cons hne (hend ▸ Linked.nil), ?_, by simp⟩
    intro x hx
    rw [List.mem_singleton.mp hx]
    exact hlt

/-- Freeing from where no walk can start leaves the allocation table. -/
theorem freeChain_unchained
    {u : FileSystem}
    (hu : u.fat 0 = cluster0Value)
    (h : ¬ Chained u c)
    (rounds : Nat) :
    ∃ e, (freeChain (rounds + 3) c u).result = .error e := by
  by_cases h0 : c = 0
  · rw [h0]
    exact ⟨_, freeChain_cluster_zero hu (rounds + 1)⟩
  · have hfree : u.fat c = 0 := by
      by_contra hne
      exact h ⟨h0, hne⟩
    by_cases hc : c.toNat < 512
    · -- the entry is 0, and so the loop goes on with cluster 0
      have hround : (freeRound u c).fat 0 = cluster0Value := by
        rw [freeRound_fat hc, if_neg (Ne.symm h0), hu]
      rw [freeChain_succ (rounds + 2) hc, hfree, if_neg (by decide), Outcome.prepend_result]
      exact ⟨_, freeChain_cluster_zero hround rounds⟩
    · exact ⟨_, by rw [freeChain_badIndex hc]⟩

theorem clearEntry_unchained
    {r : FAT32DriverRequest}
    {t : FAT32DirectoryTable}
    {k : Fin 64}
    (hs : Sound s)
    (h : ¬ Chained s (t k).cluster) :
    ∃ e, (clearEntry t r k s).result = .error e := by
  obtain ⟨e, he⟩ := freeChain_unchained (u := s.store r.parentClusterNumber
    (FAT32DirectoryTable.toBytes (Function.update t k FAT32DirectoryEntry.zero)))
    hs.fat_zero h 510
  refine ⟨e, ?_⟩
  rw [clearEntry, bind_apply, writeTable_apply, Outcome.prepend_result]
  exact bind_result_error he

theorem clearEntry_chained
    {r : FAT32DriverRequest}
    {t : FAT32DirectoryTable}
    {k : Fin 64}
    (hs : Sound s)
    (h : Chained s (t k).cluster) :
    (clearEntry t r k s).result = .ok 0 := by
  obtain ⟨cs, hcs, hlt, hlen⟩ := h.chain hs
  have hne : (t k).cluster ≠ fat32FatEndOfFile := by
    intro he
    exact absurd (FileSystem.lt_of_fat_ne_zero h.2) (by rw [he]; decide)
  have hcs₁ : FatChain (s.store r.parentClusterNumber
      (FAT32DirectoryTable.toBytes (Function.update t k FAT32DirectoryEntry.zero)))
      (t k).cluster cs := hcs
  obtain ⟨s', w, hrun, -⟩ := freeChain_run hcs₁ hne hlt (Nat.le_succ_of_le hlen)
  rw [clearEntry]
  simp only [bind_apply, writeTable_apply, hrun, flushFat_apply, pure_apply, Outcome.prepend]

end Walks

/-! ## The three operations -/

section Operations

variable {s : FileSystem} {r : FAT32DriverRequest}

/-- A run that issued no events but reads of the parent's table. -/
theorem Contained.of_parentRead
    {α : Type}
    {v : α}
    {s' : FileSystem}
    (hp : r.parentClusterNumber.toNat < 512) :
    Contained ⟨.ok v, s', parentReadEvents r⟩ :=
  ⟨⟨v, rfl⟩, clusterReadEvents_inside (by rw [physical_of_lt hp]; exact hp)⟩

theorem Contained.of_nil
    {α : Type}
    {v : α}
    {s' : FileSystem} :
    Contained ⟨.ok v, s', []⟩ :=
  ⟨⟨v, rfl⟩, fun e he => by cases he⟩

theorem Contained.prepend
    {α : Type}
    {o : Outcome Fault FileSystem DiskEvent α}
    {w : List DiskEvent}
    (hw : ∀ e, e ∈ w → DiskEvent.Inside e)
    (h : Contained o) :
    Contained (o.prepend w) := by
  refine ⟨h.returns, fun e he => ?_⟩
  rcases List.mem_append.mp he with he | he
  · exact hw e he
  · exact h.inside e he

theorem parentReadEvents_inside
    (hp : r.parentClusterNumber.toNat < 512) :
    ∀ e, e ∈ parentReadEvents r → DiskEvent.Inside e :=
  clusterReadEvents_inside (by rw [physical_of_lt hp]; exact hp)

/-- A request of at most 255 clusters needs a cluster. -/
theorem required_ne_zero
    (hsize : r.bufferSize.toNat ≤ 255 * 2048) :
    required r ≠ 0 := by
  by_cases hf : isFolder r = true
  · rw [required_of_isFolder hf]
    decide
  · intro h0
    have hreq := required_of_small hsize hf
    rw [h0] at hreq
    have hpos : r.bufferSize.toNat ≠ 0 := fun hz => hf (isFolder_iff.mpr (UInt32.toNat_inj.mp hz))
    rw [clusterCount] at hreq
    have : (0 : UInt8).toNat = 0 := rfl
    omega

/-- `write` uses no cluster number that it finds on the disk. -/
theorem write_contained
    (hs : Sound s)
    (hsize : r.bufferSize.toNat ≤ 255 * 2048)
    (hp : r.parentClusterNumber.toNat < 512) :
    Contained (write r s) := by
  by_cases hend : s.fat r.parentClusterNumber = fat32FatEndOfFile
  · have hok : ParentOk s r := ⟨hp, hend⟩
    by_cases hm : NoMatch (s.parentTable r) r.key
    · rcases firstEmpty_or_full (s.parentTable r) with ⟨k, hk⟩ | hfull
      · by_cases hfree : (freeClusters s.fatTable).length < (required r).toNat
        · rw [write_noSpace hok hm hk hfree]
          exact Contained.of_parentRead hp
        · have hfree := Nat.not_lt.mp hfree
          cases hbuf : slotBuf s r with
          | nil => exact absurd (required_of_slotBuf_nil hbuf hfree) (required_ne_zero hsize)
          | cons c rest =>
              have hlt := fun x hx => (slotBuf_fresh hbuf x hx).1
              obtain ⟨s₁, w, hrun, -⟩ := writeContent_run (r := r) hlt
                (slotBuf_not_fatCluster hbuf hs) (slotBuf_nodup hbuf)
                (slotBuf_folder hbuf) hs.synced
              rw [write_slots hok hm hk hbuf hfree]
              refine Contained.prepend (parentReadEvents_inside hp)
                ⟨⟨0, ?_⟩, storeEntry_inside _ k hp hlt s⟩
              simp only [storeEntry, bind_apply, hrun, writeTable_apply, pure_apply,
                Outcome.prepend]
      · rw [write_full hok hm hfull]
        exact Contained.of_parentRead hp
    · rw [write_exists hok hm]
      exact Contained.of_parentRead hp
  · rw [write_badParent hp hend]
    exact Contained.of_nil

theorem deleteReadEvents_inside
    {k : Fin 64}
    (hp : r.parentClusterNumber.toNat < 512)
    (h : (s.parentTable r k).IsDir → physical (s.parentTable r k).cluster < 512) :
    ∀ e, e ∈ deleteReadEvents s r k → DiskEvent.Inside e := by
  intro e he
  rcases List.mem_append.mp he with he | he
  · exact parentReadEvents_inside hp e he
  · split_ifs at he with hdir
    · exact clusterReadEvents_inside (h hdir) e he
    · cases he

section Matched

variable {k : Fin 64} (hok : ParentOk s r) (hk : FirstMatch (s.parentTable r) r.key k)
include hok hk

theorem read_contained
    (hs : Sound s)
    (h : Followable s (s.parentTable r k)) :
    Contained (read r s) := by
  by_cases hdir : (s.parentTable r k).IsDir
  · rw [read_dir hok hk hdir]
    exact Contained.of_parentRead hok.1
  · by_cases hsmall : TooSmall s r k
    · rw [read_tooSmall hok hk hdir hsmall]
      exact Contained.of_parentRead hok.1
    · obtain ⟨cs, hcs, hlt, hlen⟩ := (h.file hdir).chain hs
      rw [read_chain hok hk hdir hsmall hcs hlt hlen]
      exact Contained.prepend (o := ⟨_, s, chainReadEvents cs⟩)
        (parentReadEvents_inside hok.1) ⟨⟨_, rfl⟩, chainReadEvents_inside hlt⟩

theorem delete_contained
    (hs : Sound s)
    (h : Followable s (s.parentTable r k)) :
    Contained (delete r s) := by
  by_cases hempty : (s.parentTable r k).IsDir →
      isEmptyTable (s.table (s.parentTable r k).cluster) = true
  · have hchained : Chained s (s.parentTable r k).cluster := by
      by_cases hdir : (s.parentTable r k).IsDir
      · exact h.emptyFolder hdir (hempty hdir)
      · exact h.file hdir
    rw [delete_clear hok hk hempty]
    exact Contained.prepend (deleteReadEvents_inside hok.1 h.folder)
      ⟨⟨0, clearEntry_chained hs hchained⟩, clearEntry_inside _ k hok.1 s⟩
  · obtain ⟨hdir, hfull⟩ := Classical.not_imp.mp hempty
    rw [delete_notEmpty hok hk hdir hfull]
    exact Contained.prepend (o := ⟨.ok 2, s, _⟩) (parentReadEvents_inside hok.1)
      ⟨⟨2, rfl⟩, clusterReadEvents_inside (h.folder hdir)⟩

/-- A `delete` that starts from no chain leaves the allocation table. -/
theorem delete_unchained
    (hs : Sound s)
    (hempty : (s.parentTable r k).IsDir →
      isEmptyTable (s.table (s.parentTable r k).cluster) = true)
    (h : ¬ Chained s (s.parentTable r k).cluster) :
    ∃ e, (delete r s).result = .error e := by
  rw [delete_clear hok hk hempty]
  exact clearEntry_unchained hs h

/-- A contained `delete` had something to follow. -/
theorem followable_of_contained
    (hs : Sound s)
    (h : Contained (delete r s)) :
    Followable s (s.parentTable r k) := by
  have hchained : ((s.parentTable r k).IsDir →
      isEmptyTable (s.table (s.parentTable r k).cluster) = true) →
      Chained s (s.parentTable r k).cluster := by
    intro hempty
    by_contra hnot
    obtain ⟨e, he⟩ := delete_unchained hok hk hs hempty hnot
    obtain ⟨v, hv⟩ := h.returns
    rw [he] at hv
    cases hv
  refine ⟨fun hdir => ?_, fun _ hempty => hchained fun _ => hempty,
    fun hfile => hchained fun hdir => absurd hdir hfile⟩
  -- the table of the folder is read in any case
  refine lt_of_clusterReadEvents_inside fun e he => h.inside e ?_
  by_cases hempty : isEmptyTable (s.table (s.parentTable r k).cluster) = true
  · rw [delete_clear hok hk fun _ => hempty]
    refine List.mem_append_left _ (List.mem_append_right _ ?_)
    rw [if_pos hdir]
    exact he
  · rw [delete_notEmpty hok hk hdir hempty]
    exact List.mem_append_right _ he

end Matched

theorem SafeTarget.requestContained
    (hs : Sound s)
    (hsize : r.bufferSize.toNat ≤ 255 * 2048)
    (h : SafeTarget s r) :
    RequestContained s r := by
  have hp := h.parent_lt
  by_cases hend : s.fat r.parentClusterNumber = fat32FatEndOfFile
  · have hok : ParentOk s r := ⟨hp, hend⟩
    rcases firstMatch_or_noMatch (s.parentTable r) r.key with ⟨k, hk⟩ | hm
    · have hfollow := h.matched hend k hk
      exact ⟨read_contained hok hk hs hfollow, write_contained hs hsize hp,
        delete_contained hok hk hs hfollow⟩
    · refine ⟨?_, write_contained hs hsize hp, ?_⟩
      · rw [read_notFound hok hm]
        exact Contained.of_parentRead hp
      · rw [delete_notFound hok hm]
        exact Contained.of_parentRead hp
  · refine ⟨?_, write_contained hs hsize hp, ?_⟩
    · rw [read_badParent hp hend]
      exact Contained.of_nil
    · rw [delete_badParent hp hend]
      exact Contained.of_nil

theorem RequestContained.safeTarget
    (hs : Sound s)
    (h : RequestContained s r) :
    SafeTarget s r := by
  have hp : r.parentClusterNumber.toNat < 512 := by
    by_contra hp
    obtain ⟨v, hv⟩ := h.read.returns
    rw [read_badIndex hp] at hv
    cases hv
  exact ⟨hp, fun hend k hk => followable_of_contained ⟨hp, hend⟩ hk hs h.delete⟩

/-- Requests that name a child of a live directory have a safe target. -/
theorem safeTarget_child
    (hs : Sound s)
    {k : Fin 64}
    (hd : Child s r.parentClusterNumber k)
    (hkey : (s.parentTable r k).key = r.key) :
    SafeTarget s r := by
  refine ⟨hs.liveDir_lt hd.1, fun _ j hj => ?_⟩
  have hk : FirstMatch (s.parentTable r) r.key k := by
    rw [← hkey]
    exact (hs.table _ hd.1).firstMatch_of_child hd.2.1 hd.2.2
  obtain rfl := hj.unique hk
  have hown := hs.owns_cluster hd
  have hchained : Chained s (s.parentTable r j).cluster := by
    refine ⟨fun h0 => ?_, hs.owns_fat_ne_zero hown⟩
    have hlow := (hs.mem_bounds hown).1
    rw [show (s.table r.parentClusterNumber j).cluster = 0 from h0] at hlow
    exact absurd hlow (by decide)
  have hlt := (hs.mem_bounds hown).2
  exact ⟨fun _ => by rw [physical_of_lt hlt]; exact hlt, fun _ _ => hchained, fun _ => hchained⟩

end Operations

/-- **After any well-scoped calls, a request is contained exactly if its parent number is an
index and the slot it matches leads to a chain.** -/
theorem contained_iff
    {s : FileSystem}
    {r : FAT32DriverRequest}
    (h : Reached NewSystem WellScoped after s)
    (hsize : r.bufferSize.toNat ≤ 255 * 2048) :
    RequestContained s r ↔ SafeTarget s r :=
  ⟨fun hc => hc.safeTarget (wellScopedRun_sound h),
    fun ht => ht.requestContained (wellScopedRun_sound h) hsize⟩

theorem contained_file :
    RequestContained fileSystemWithFile (requestFor ['a'] 2 2048) :=
  (contained_iff fileSystemWithFile_reached (by decide)).mpr
    (safeTarget_child (wellScopedRun_sound fileSystemWithFile_reached) (k := 2)
      ⟨liveDir_root _, by decide, by decide +kernel⟩ (by decide +kernel))

/-- A parent number of 512 is used as an index before it is checked, and a blank name in
the root matches a cleared slot, whose cluster 0 starts no chain. -/
theorem request_not_contained :
    Reached NewSystem WellScoped after emptySystem ∧
      (read (requestFor ['a'] 512 2048) emptySystem).result =
        .error (Fault.clusterMapIndex 512) ∧
      (read (requestFor [] 2 2048) emptySystem).result =
        .error (Fault.clusterMapIndex cluster0Value) ∧
      ¬ RequestContained emptySystem (requestFor ['a'] 512 2048) ∧
      ¬ RequestContained emptySystem (requestFor [] 2 2048) := by
  have hindex : (read (requestFor ['a'] 512 2048) emptySystem).result =
      .error (Fault.clusterMapIndex 512) := by
    rw [read_badIndex (by decide)]
    rfl
  have hblank : (read (requestFor [] 2 2048) emptySystem).result =
      .error (Fault.clusterMapIndex cluster0Value) := by
    decide +kernel
  refine ⟨Reached.start newSystem_emptySystem, hindex, hblank, fun h => ?_, fun h => ?_⟩
  · obtain ⟨v, hv⟩ := h.read.returns
    rw [hindex] at hv
    cases hv
  · obtain ⟨v, hv⟩ := h.read.returns
    rw [hblank] at hv
    cases hv

end Fat32
end OS2024
