import OS2024.Fat32.Calls

/-!
# What a call leaves alone

A `write` or `delete` is about one entry of one directory.  Every other entry keeps its
slot, its chain and, if it is a file, the bytes on it.

**Results.**
* `Inserted.kept`, `Removed.kept`: the entries that survive an edit of the tree.
* `read_kept`: an entry that is kept reads the same.
* `othersKept_of_safe`: a call keeps every entry that it is not about.
* `wellScoped_confined`: a call in a well-scoped run does not interfere with the rest.
-/

namespace OS2024
namespace Fat32

open TracedState LinkedChain SlotTree Runs

/-- The child in slot `i` of `d` is the same in `s'` as in `s`. -/
structure Kept (s s' : FileSystem) (d : UInt32) (i : Fin 64) : Prop where
  child : Child s' d i
  entry : s'.table d i = s.table d i
  chain : ∀ cs, FatChain s (s.table d i).cluster cs → FatChain s' (s.table d i).cluster cs
  content : ¬ (s.table d i).IsDir → ∀ cs, FatChain s (s.table d i).cluster cs →
    cs.map s'.data = cs.map s.data

theorem Kept.refl {s : FileSystem} {d : UInt32} {i : Fin 64} (hd : Child s d i) :
    Kept s s d i :=
  ⟨hd, rfl, fun _ hcs => hcs, fun _ _ _ => rfl⟩

/-- Adding an entry keeps all children. -/
theorem Inserted.kept {s s' : FileSystem} {p : UInt32} {k : Fin 64}
    {e : FAT32DirectoryEntry} {cs : List UInt32} {blocks : List ClusterBuffer}
    (h : Inserted s s' p k e cs blocks) (hs : Sound s) {d : UInt32} {i : Fin 64}
    (hd : Child s d i) : Kept s s' d i where
  child := (h.child_iff hs d i).mpr (Or.inl hd)
  entry := h.slot_child hs hd
  chain := fun ds hds => (h.chain_old_iff hs hd ds).mpr hds
  content := by
    intro hfile ds hds
    refine List.map_congr_left fun c hc => ?_
    have hown : Owns s d i c := ⟨hd, ds, hds, hc⟩
    have hb := hs.mem_bounds hown
    refine h.data_of_ne_parent hb.2 (by omega) ?_ (hs.owns_fat_ne_zero hown)
    rintro rfl
    exact hs.not_liveDir_of_owns hown hfile h.parent

/-- Removing an entry keeps all other children. -/
theorem Removed.kept {s s' : FileSystem} {p : UInt32} {k : Fin 64} {cs : List UInt32}
    (h : Removed s s' p k cs) (hs : Sound s) {d : UInt32} {i : Fin 64} (hd : Child s d i)
    (hslot : ¬(d = p ∧ i = k)) : Kept s s' d i where
  child := (h.child_iff hs d i).mpr ⟨hd, hslot⟩
  entry := h.slot_eq hs hd.1 (h.not_child_removed hd) hslot
  chain := fun ds hds => (h.chain_iff hs hd hslot ds).mpr hds
  content := by
    intro hfile ds hds
    refine List.map_congr_left fun c hc => ?_
    have hown : Owns s d i c := ⟨hd, ds, hds, hc⟩
    have hb := hs.mem_bounds hown
    rw [FileSystem.data_of_lt _ hb.2, FileSystem.data_of_lt _ hb.2]
    refine h.frame _ (by omega) (fun he => ?_) fun x hx he => ?_
    · have hcp : c = p := UInt32.toNat_inj.mp he
      rw [hcp] at hown
      exact hs.not_liveDir_of_owns hown hfile h.child.1
    · exact h.not_mem_of_owns hs hown hslot ((UInt32.toNat_inj.mp he) ▸ hx)

/-- How `read` answers for a file, in terms of its entry and chain. -/
theorem read_file {s : FileSystem} {r : FAT32DriverRequest} (hs : Sound s) {i : Fin 64}
    (hd : Child s r.parentClusterNumber i) (hkey : (s.parentTable r i).key = r.key)
    (hfile : ¬ (s.parentTable r i).IsDir) {cs : List UInt32}
    (hcs : FatChain s (s.parentTable r i).cluster cs) :
    (TooSmall s r i → (read r s).result = .ok (-1, [])) ∧
      (¬ TooSmall s r i → (read r s).result = .ok (0, deliveriesFrom 0 (cs.map s.data))) := by
  have hok := hs.parentOk hd.1
  have hfirst := (hs.table _ hd.1).firstMatch_of_child hd.2.1 hd.2.2
  rw [hkey] at hfirst
  constructor
  · intro hsmall
    rw [read_tooSmall hok hfirst hfile hsmall]
  · intro hlarge
    rw [read_chain hok hfirst hfile hlarge hcs
      (fun x hx => (hs.mem_bounds ⟨hd, cs, hcs, hx⟩).2) (hs.chain_length_le hd hcs)]

/-- A file that is kept reads the same. -/
theorem read_kept {s s' : FileSystem} (hs : Sound s) (hs' : Sound s')
    {r : FAT32DriverRequest} {i : Fin 64} (hd : Child s r.parentClusterNumber i)
    (hkey : (s.parentTable r i).key = r.key) (hfile : ¬ (s.parentTable r i).IsDir)
    (hkept : Kept s s' r.parentClusterNumber i) :
    (read r s').result = (read r s).result := by
  obtain ⟨-, cs, hcs, -⟩ := hs.chain _ i hd
  have hentry : s'.parentTable r i = s.parentTable r i := hkept.entry
  have hcs' : FatChain s' (s'.parentTable r i).cluster cs := by
    rw [hentry]
    exact hkept.chain cs hcs
  have hold := read_file hs hd hkey hfile hcs
  have hnew := read_file hs' hkept.child (by rw [hentry, hkey]) (by rwa [hentry]) hcs'
  have hsmall : TooSmall s' r i ↔ TooSmall s r i := by rw [TooSmall, TooSmall, hentry]
  by_cases hts : TooSmall s r i
  · rw [hold.1 hts, hnew.1 (hsmall.mpr hts)]
  · rw [hold.2 hts, hnew.2 fun h => hts (hsmall.mp h), hkept.content hfile cs hcs]

/-- The call removes the directory with cluster `d`. -/
def DeletesDir (s : FileSystem) (c : Call) (d : UInt32) : Prop :=
  ∃ r k, c = Call.delete r ∧ (delete r s).result = .ok 0 ∧
    FirstMatch (s.parentTable r) r.key k ∧ (s.parentTable r k).IsDir ∧
      (s.parentTable r k).cluster = d

/-- What a safe call does to the entries that it is not about: nothing. -/
structure OthersKept (s : FileSystem) (c : Call) : Prop where
  kept : ∀ d i, Child s d i →
    ¬(d = c.request.parentClusterNumber ∧ (s.table d i).key = c.request.key) →
      Kept s (after s c) d i
  old : ∀ d i, Child (after s c) d i →
    ¬(d = c.request.parentClusterNumber ∧ ((after s c).table d i).key = c.request.key) →
      Child s d i
  dirs : ∀ d, LiveDir s d → ¬ DeletesDir s c d → LiveDir (after s c) d

theorem OthersKept.of_same {s : FileSystem} {c : Call} (h : after s c = s) :
    OthersKept s c := by
  constructor
  · rw [h]
    exact fun d i hd _ => Kept.refl hd
  · rw [h]
    exact fun d i hd _ => hd
  · rw [h]
    exact fun d hd _ => hd

theorem othersKept_of_safe {s : FileSystem} {c : Call} (hs : Sound s) (hc : Safe s c) :
    OthersKept s c := by
  cases safe_effect hs hc with
  | reads state _ => exact OthersKept.of_same state
  | inserts k c rest _ _ _ inserted =>
      refine ⟨fun d i hd _ => inserted.kept hs hd, fun d i hd hother => ?_,
        fun d hd _ => (inserted.liveDir_iff hs d).mpr (Or.inl hd)⟩
      refine ((inserted.child_iff hs d i).mp hd).resolve_right fun hslot => hother ?_
      obtain ⟨rfl, rfl⟩ := hslot
      exact ⟨rfl, by rw [inserted.slot_self]; exact newEntry_key c⟩
  | @removes r k cs hk code removed =>
      refine ⟨fun d i hd hother => removed.kept hs hd fun hslot => hother ?_,
        fun d i hd _ => ((removed.child_iff hs d i).mp hd).1, fun d hd hdel => ?_⟩
      · obtain ⟨rfl, rfl⟩ := hslot
        exact ⟨rfl, hk.1⟩
      · refine (removed.liveDir_iff hs d).mpr ⟨hd, fun hdir => hdel ?_⟩
        exact ⟨r, k, rfl, code, hk, hdir.1, hdir.2.symm⟩

/-! ## Non-interference -/

/-- The call does not interfere with anything but the entry it is about. -/
structure Confined (s : FileSystem) (c : Call) : Prop where
  /-- Other files read the same, with any buffer. -/
  files : ∀ d i, Child s d i → ¬ (s.table d i).IsDir →
    ¬(d = c.request.parentClusterNumber ∧ (s.table d i).key = c.request.key) →
    ∀ r : FAT32DriverRequest, r.parentClusterNumber = d → r.key = (s.table d i).key →
      (read r (after s c)).result = (read r s).result
  /-- The tables of other directories keep every byte. -/
  tables : ∀ d, LiveDir s d → d ≠ c.request.parentClusterNumber → ¬ DeletesDir s c d →
    (after s c).data d = s.data d
  /-- The table of the directory changes in one slot at most. -/
  slot : ∃ k, ∀ i, i ≠ k → (after s c).parentTable c.request i = s.parentTable c.request i
  /-- Only these clusters of the disk change. -/
  clusters : ∀ n, (after s c).disk.cluster n ≠ s.disk.cluster n →
    n = 1 ∨ n = c.request.parentClusterNumber.toNat ∨
      ∃ x : UInt32, n = x.toNat ∧
        (s.fat x = 0 ∧ (after s c).fat x ≠ 0 ∨ s.fat x ≠ 0 ∧ (after s c).fat x = 0)

theorem Confined.of_same {s : FileSystem} {c : Call} (h : after s c = s) : Confined s c where
  files := by
    intro d i _ _ _ r _ _
    rw [h]
  tables := fun d _ _ _ => by rw [h]
  slot := ⟨0, fun i _ => by rw [h]⟩
  clusters := fun n hn => absurd (by rw [h]) hn

theorem Inserted.confined {s : FileSystem} {c : Call} {k : Fin 64}
    {e : FAT32DirectoryEntry} {cs : List UInt32} {blocks : List ClusterBuffer}
    (h : Inserted s (after s c) c.request.parentClusterNumber k e cs blocks)
    (hs : Sound s) : Confined s c where
  files := by
    rintro d i hd hfile - r rfl hkey
    exact read_kept hs (h.sound hs) hd hkey.symm hfile (h.kept hs hd)
  tables := fun d hd hne _ => h.data_of_ne_parent (hs.liveDir_lt hd) (hs.liveDir_ne_one hd)
    hne (hs.liveDir_fat_ne_zero hd)
  slot := ⟨k, fun i hi => h.slot_of_ne hi⟩
  clusters := by
    intro n hn
    by_contra hnot
    rw [not_or, not_or] at hnot
    obtain ⟨h1, hp, hfree⟩ := hnot
    refine hn (h.frame n h1 hp fun x hx he => hfree ⟨x, he, Or.inl ⟨(h.fresh x hx).2, ?_⟩⟩)
    exact (h.sound hs).owns_fat_ne_zero ((h.owns_new_iff hs x).mpr hx)

theorem Removed.confined {s : FileSystem} {r : FAT32DriverRequest} {k : Fin 64}
    {cs : List UInt32}
    (h : Removed s (after s (Call.delete r)) r.parentClusterNumber k cs)
    (hk : FirstMatch (s.parentTable r) r.key k) (hcode : (delete r s).result = .ok 0)
    (hs : Sound s) : Confined s (Call.delete r) where
  files := by
    rintro d i hd hfile hother r' rfl hkey
    have hslot : ¬(r'.parentClusterNumber = r.parentClusterNumber ∧ i = k) := by
      rintro ⟨hp, rfl⟩
      rw [hp] at hother
      exact hother ⟨rfl, hk.1⟩
    exact read_kept hs (h.sound hs) hd hkey.symm hfile (h.kept hs hd hslot)
  tables := by
    intro d hd hne hdel
    have hnot : ¬((s.parentTable r k).IsDir ∧ d = (s.parentTable r k).cluster) :=
      fun hdir => hdel ⟨r, k, rfl, hcode, hk, hdir.1, hdir.2.symm⟩
    have htab := h.table_of_ne_parent hs hd hne hnot
    rw [← FAT32DirectoryTable.toBytes_ofBytes ((after s (Call.delete r)).data d),
      ← FAT32DirectoryTable.toBytes_ofBytes (s.data d)]
    exact congrArg FAT32DirectoryTable.toBytes htab
  slot := ⟨k, fun i hi => h.slot_of_ne hi⟩
  clusters := by
    intro n hn
    by_contra hnot
    rw [not_or, not_or] at hnot
    obtain ⟨h1, hp, hfree⟩ := hnot
    refine hn (h.frame n h1 hp fun x hx he => hfree ⟨x, he, Or.inr ⟨?_, ?_⟩⟩)
    · exact hs.owns_fat_ne_zero (h.owns hx)
    · rw [h.fat, if_pos hx]

theorem confined_of_safe {s : FileSystem} {c : Call} (hs : Sound s) (hc : Safe s c) :
    Confined s c := by
  cases safe_effect hs hc with
  | reads state _ => exact Confined.of_same state
  | @inserts r k c rest _ _ _ inserted =>
      exact Inserted.confined (c := Call.write r) inserted hs
  | removes k cs hk code removed => exact removed.confined hk code hs

/-- **A well-scoped call interferes with nothing but the entry it is about.** -/
theorem wellScoped_confined {s : FileSystem} {c : Call}
    (h : Reached NewSystem WellScoped after s) (hc : WellScoped s c) : Confined s c :=
  confined_of_safe (wellScopedRun_sound h) hc.1.safe

/-- The file in the root and the table of the root stay when the folder gets another file, and so
does what is in the folder when the file in the root is deleted. -/
theorem confined_populatedSystem :
    Confined populatedSystem (Call.write (requestFor ['d'] 5 3000)) ∧
      Confined populatedSystem (Call.delete (requestFor ['a'] 2 0)) :=
  ⟨wellScoped_confined populatedSystem_reached
      (wellScoped_write populatedSystem_folder (by decide)),
    wellScoped_confined populatedSystem_reached
      (wellScoped_delete (liveDir_root _) populatedSystem_file)⟩

end Fat32
end OS2024
