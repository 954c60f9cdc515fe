import OS2024.Fat32.RoundTrip

/-!
# The space that a `write` takes

A `write` counts the clusters of its data in eight bits.  Up to 255 clusters it succeeds
exactly when the directory has an empty slot and the table has enough empty entries.  A
larger count is taken modulo 256, so that a `write` may report success after storing only
the first clusters of the data.

**Results.**
* `spaceAccounted_of_refused`, `spaceAccounted_of_stored`: the two ways of a right account.
* `write_truncates`: a chain that is shorter than the data.
* `spaceAccounted_iff`: when a `write` accounts for its space.
-/

namespace OS2024
namespace Fat32

open TracedState LinkedChain SlotTree Runs

/-! ## Room for a file -/

/-- The number of empty entries of the cached table. -/
def FileSystem.freeEntries (s : FileSystem) : Nat :=
  (Finset.univ.filter fun i : Fin 512 => s.fatTable i = fat32FatEmptyEntry).card

/-- The directory has an empty slot and the table an empty entry for every cluster of the
data. -/
def HasRoom (s : FileSystem) (r : FAT32DriverRequest) : Prop :=
  (∃ k, ¬ (s.parentTable r k).Live) ∧ clusterCount r.bufferSize ≤ s.freeEntries

/-- `s'` has a new entry for `r` whose chain holds all of its data. -/
def StoredWhole (s s' : FileSystem) (r : FAT32DriverRequest) : Prop :=
  ∃ k cs, ¬ (s.parentTable r k).Live ∧ Child s' r.parentClusterNumber k ∧
    FirstMatch (s'.parentTable r) r.key k ∧ FatChain s' (s'.parentTable r k).cluster cs ∧
    cs.length = clusterCount r.bufferSize ∧
    cs.map s'.data = chunks r.buf 0 (clusterCount r.bufferSize)

/-- The `write` succeeds if there is room, and stores all of the data; otherwise it returns
-1 and changes nothing. -/
structure SpaceAccounted (s : FileSystem) (r : FAT32DriverRequest) : Prop where
  code : (write r s).result = .ok 0 ↔ HasRoom s r
  stored : HasRoom s r → StoredWhole s (write r s).state r
  refused : ¬ HasRoom s r → (write r s).result = .ok (-1) ∧ (write r s).state = s

section Account

variable {s s' : FileSystem} {r : FAT32DriverRequest} {w : List DiskEvent}

theorem spaceAccounted_of_refused (run : write r s = ⟨.ok (-1), s, w⟩)
    (hroom : ¬ HasRoom s r) : SpaceAccounted s r := by
  refine ⟨⟨fun h => ?_, fun h => absurd h hroom⟩, fun h => absurd h hroom, fun _ => ?_⟩
  · rw [run] at h
    cases h
  · rw [run]
    exact ⟨rfl, rfl⟩

theorem spaceAccounted_of_stored (run : write r s = ⟨.ok 0, s', w⟩) (hroom : HasRoom s r)
    (hstored : StoredWhole s s' r) : SpaceAccounted s r := by
  refine ⟨⟨fun _ => hroom, fun _ => by rw [run]⟩, fun _ => ?_, fun h => absurd hroom h⟩
  rwa [run]

/-- A fault is no right account. -/
theorem not_spaceAccounted_of_fault {e : Fault} (run : write r s = ⟨.error e, s, w⟩) :
    ¬ SpaceAccounted s r := by
  intro h
  by_cases hroom : HasRoom s r
  · have hok := h.code.mpr hroom
    rw [run] at hok
    cases hok
  · have hok := (h.refused hroom).1
    rw [run] at hok
    cases hok

end Account

/-! ## What a successful `write` stores -/

section Stored

variable {s s' : FileSystem} {r : FAT32DriverRequest} {k : Fin 64} {c : UInt32}
  {rest : List UInt32}

/-- The chain of the new entry is the list of slots that `write` found. -/
theorem storedWhole_iff (hs : Sound s)
    (hins : Inserted s s' r.parentClusterNumber k (newEntry r c) (c :: rest)
      (newBlocks s r c (c :: rest).length)) (hpos : 0 < r.bufferSize.toNat) :
    StoredWhole s s' r ↔ (c :: rest).length = clusterCount r.bufferSize := by
  have hfirst := hins.firstMatch hs
  have hslot : s'.parentTable r k = newEntry r c := hins.slot_self
  have hchain : FatChain s' (s'.parentTable r k).cluster (c :: rest) := by
    rw [hslot]
    exact hins.chain_new
  rw [newEntry_key] at hfirst
  constructor
  · rintro ⟨k', cs, -, -, hk', hcs, hlen, -⟩
    obtain rfl := hfirst.unique hk'
    rw [hchain.unique hcs, hlen]
  · intro hlen
    refine ⟨k, c :: rest, hins.slot.2.1, hins.child_new hs, hfirst, hchain, hlen, ?_⟩
    rw [hins.content, newBlocks, if_neg (not_isFolder hpos), hlen]

end Stored

/-- **A `write` of more than 255 clusters that reports success loses the clusters beyond its
eight-bit count.** -/
theorem write_truncates {s : FileSystem} {r : FAT32DriverRequest} (hs : Sound s)
    (hp : LiveDir s r.parentClusterNumber) (hlarge : 255 * 2048 < r.bufferSize.toNat)
    (hlt : r.bufferSize.toNat < 2 ^ 24) (hw : (write r s).result = .ok 0) :
    ¬ StoredWhole s (write r s).state r := by
  have hfile := not_isFolder (r := r) (by omega)
  obtain ⟨k, c, rest, hbuf, hfree, hins⟩ := write_inserted hs hp hw
  rw [storedWhole_iff hs hins (by omega), length_slotBuf_eq hbuf hfree,
    required_of_file hlt hfile, clusterCount]
  omega

/-! ## When the account is right -/

section Room

variable {s : FileSystem} {r : FAT32DriverRequest}

/-- Slot 0 of a live directory is in use as well. -/
theorem live_of_full (hs : Sound s) (hp : LiveDir s r.parentClusterNumber)
    (hfull : Full (s.parentTable r)) : ∀ k, (s.parentTable r k).Live := by
  intro k
  by_cases hk : k = 0
  · rw [hk]
    exact ((hs.table _ hp).record 0 (by decide)).1
  · exact hfull k hk

theorem freeEntries_eq (s : FileSystem) :
    s.freeEntries = (freeClusters s.fatTable).length :=
  (length_freeClusters s.fatTable).symm

end Room

/-- **A `write` of less than 4 MiB accounts for its space if and only if its data take at
most 255 clusters, or it has to refuse because the directory is full or the table lacks
even the clusters that the eight-bit count asks for.** -/
theorem spaceAccounted_iff {s : FileSystem} {r : FAT32DriverRequest}
    (h : Reached NewSystem Scoped after s) (hp : LiveDir s r.parentClusterNumber)
    (hpos : 0 < r.bufferSize.toNat) (hlimit : r.bufferSize.toNat < 4 * 1024 * 1024)
    (hm : NoMatch (s.parentTable r) r.key) :
    SpaceAccounted s r ↔
      r.bufferSize.toNat ≤ 255 * 2048 ∨ (∀ k, (s.parentTable r k).Live) ∨
        s.freeEntries < clusterCount r.bufferSize % 256 := by
  have hs := scopedRun_sound h
  have hreq := required_of_file (r := r) (by omega) (not_isFolder hpos)
  have hfree := freeEntries_eq s
  cases write_cases hs hp with
  | taken hm' _ => exact absurd hm hm'
  | full _ hfull run =>
      have hlive := live_of_full hs hp hfull
      refine iff_of_true (spaceAccounted_of_refused run ?_) (Or.inr (Or.inl hlive))
      rintro ⟨⟨k, hk⟩, -⟩
      exact hk (hlive k)
  | noSpace k _ _ hlt run =>
      have hless : s.freeEntries < clusterCount r.bufferSize % 256 := by
        rwa [hfree, ← hreq]
      refine iff_of_true (spaceAccounted_of_refused run ?_) (Or.inr (Or.inr hless))
      rintro ⟨-, hroom⟩
      exact absurd (Nat.mod_le (clusterCount r.bufferSize) 256) (by omega)
  | emptySlotBuf k _ hk hzero run =>
      have hmod : clusterCount r.bufferSize % 256 = 0 := by rw [← hreq, hzero]; rfl
      refine iff_of_false (not_spaceAccounted_of_fault run) ?_
      rintro (hsmall | hlive | hless)
      · rw [clusterCount] at hmod
        omega
      · exact hk.2.1 (hlive k)
      · omega
  | done k c rest s' w hbuf hle run hins =>
      have hlen := length_slotBuf_eq hbuf hle
      constructor
      · intro hacc
        have hw : (write r s).result = .ok 0 := by rw [run]
        refine Or.inl (Nat.not_lt.mp fun hlarge => ?_)
        exact write_truncates hs hp hlarge (by omega) hw (hacc.stored (hacc.code.mp hw))
      · rintro (hsmall | hlive | hless)
        · have hcount := required_of_small hsmall (not_isFolder hpos)
          refine spaceAccounted_of_stored run ⟨⟨k, hins.slot.2.1⟩, by omega⟩ ?_
          exact (storedWhole_iff hs hins hpos).mpr (by omega)
        · exact absurd (hlive k) hins.slot.2.1
        · omega

/-- A file of 3000 bytes takes two clusters of a new file system. -/
theorem spaceAccounted_firstWrite : SpaceAccounted emptySystem (requestFor ['a'] 2 3000) :=
  (spaceAccounted_iff (Reached.start newSystem_emptySystem) (liveDir_root _) (by decide)
    (by decide) (by decide +kernel)).mpr (Or.inl (by decide))

/-- A file of 257 clusters: the eight-bit count is 1, and `write` reports success with one
cluster in the chain although the table has room for all of them. -/
theorem write_257_clusters :
    Reached NewSystem Scoped after emptySystem ∧ LiveDir emptySystem 2 ∧
      NoMatch (emptySystem.parentTable (requestFor ['a'] 2 (257 * 2048)))
        (requestFor ['a'] 2 (257 * 2048)).key ∧
      HasRoom emptySystem (requestFor ['a'] 2 (257 * 2048)) ∧
      (write (requestFor ['a'] 2 (257 * 2048)) emptySystem).result = .ok 0 ∧
      ((write (requestFor ['a'] 2 (257 * 2048)) emptySystem).state.table 2 2).cluster = 3 ∧
      FatChain (write (requestFor ['a'] 2 (257 * 2048)) emptySystem).state 3 [3] ∧
      ¬ SpaceAccounted emptySystem (requestFor ['a'] 2 (257 * 2048)) := by
  have hroom : HasRoom emptySystem (requestFor ['a'] 2 (257 * 2048)) :=
    ⟨⟨2, by decide +kernel⟩, by decide +kernel⟩
  have hw : (write (requestFor ['a'] 2 (257 * 2048)) emptySystem).result = .ok 0 := by
    decide +kernel
  have hsound := newSystem_emptySystem.created.sound
  refine ⟨Reached.start newSystem_emptySystem, liveDir_root _, by decide +kernel, hroom, hw,
    by decide +kernel, ?_, fun hacc => ?_⟩
  · refine Linked.cons (by decide) ?_
    have hend : (write (requestFor ['a'] 2 (257 * 2048)) emptySystem).state.fat 3 =
        fat32FatEndOfFile := by decide +kernel
    rw [hend]
    exact Linked.nil
  · exact write_truncates hsound (liveDir_root _) (by decide) (by decide) hw
      (hacc.stored hroom)

end Fat32
end OS2024
