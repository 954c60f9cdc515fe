import OS2024.Fat32.Deletion
import OS2024.Fat32.Lookup
import OS2024.Fat32.Relocation

/-!
# What `read` and `read_directory` store into the caller's buffer

Both operations copy whole clusters.  `stores` lists the bytes that they write, in order
and with their positions, so that a write at or beyond `buffer_size` shows.

**Results.**
* `storedPositions_deliveriesFrom`: the clusters of a chain fill the buffer from its start
  without gaps.
* `read_fills_buffer`: `read` stores exactly the clusters of the file, or nothing.
* `respectsBuffer_iff`: `read_directory` overruns the buffers that are too small for a
  table and large enough for one entry, and no others.
-/

namespace OS2024
namespace Fat32

open Stdlib TracedState LinkedChain Runs

section Stores

variable {n : Nat}

/-- The bytes of `b` in order. -/
def bytesOf (b : Fin n → UInt8) : List UInt8 := List.ofFn b

/-- The bytes of `b` in order, with the positions they get from `a` on. -/
def bytesAt (a : Nat) (b : Fin n → UInt8) : List (Nat × UInt8) :=
  (List.finRange n).map fun k : Fin n => (a + k.val, b k)

theorem bytesAt_positions (a : Nat) (b : Fin n → UInt8) :
    (bytesAt a b).map Prod.fst = List.range' a n := by
  have hfst : (bytesAt a b).map Prod.fst = ((List.finRange n).map Fin.val).map (a + ·) := by
    rw [bytesAt, List.map_map, List.map_map]
    rfl
  rw [hfst, List.map_coe_finRange_eq_range, List.range'_eq_map_range]

theorem bytesAt_bytes (a : Nat) (b : Fin n → UInt8) :
    (bytesAt a b).map Prod.snd = bytesOf b := by
  simp [bytesAt, bytesOf, List.ofFn_eq_map]

/-- The bytes that a call stores into the buffer with their positions, in order. -/
def stores (ds : List Delivery) : List (Nat × UInt8) := ds.flatMap fun d => bytesAt d.1 d.2

/-- The positions of the buffer that a call stores to, in order. -/
def storedPositions (ds : List Delivery) : List Nat := (stores ds).map Prod.fst

/-- The bytes that a call stores, in order. -/
def storedBytes (ds : List Delivery) : List UInt8 := (stores ds).map Prod.snd

@[simp] theorem storedPositions_nil : storedPositions [] = [] := rfl

@[simp] theorem storedPositions_cons (d : Delivery) (ds : List Delivery) :
    storedPositions (d :: ds) = List.range' d.1 2048 ++ storedPositions ds := by
  rw [storedPositions, stores, List.flatMap_cons, List.map_append, bytesAt_positions]
  rfl

@[simp] theorem storedBytes_nil : storedBytes [] = [] := rfl

@[simp] theorem storedBytes_cons (d : Delivery) (ds : List Delivery) :
    storedBytes (d :: ds) = bytesOf d.2 ++ storedBytes ds := by
  rw [storedBytes, stores, List.flatMap_cons, List.map_append, bytesAt_bytes]
  rfl

/-- The clusters of a chain fill the buffer without gaps, each position once. -/
theorem storedPositions_deliveriesFrom (j : Nat) (bs : List ClusterBuffer) :
    storedPositions (deliveriesFrom j bs) = List.range' (j * 2048) (bs.length * 2048) := by
  induction bs generalizing j with
  | nil => simp [deliveriesFrom]
  | cons b bs ih =>
      have hnext : (j + 1) * 2048 = j * 2048 + 1 * 2048 := by omega
      have hlen : (b :: bs).length * 2048 = 2048 + bs.length * 2048 := by
        rw [List.length_cons, Nat.add_mul, Nat.one_mul, Nat.add_comm]
      rw [deliveriesFrom, storedPositions_cons, ih, hnext, hlen, List.range'_append]

/-- The bytes come in the order of the chain. -/
theorem storedBytes_deliveriesFrom (j : Nat) (bs : List ClusterBuffer) :
    storedBytes (deliveriesFrom j bs) = bs.flatMap bytesOf := by
  induction bs generalizing j with
  | nil => rfl
  | cons b bs ih => rw [deliveriesFrom, storedBytes_cons, ih, List.flatMap_cons]

end Stores

section Files

variable {s : FileSystem} {r : FAT32DriverRequest} {i : Fin 64}

/-- The size check of `read` compares bytes in the end. -/
theorem tooSmall_iff_bytes
    (hsmall : (s.parentTable r i).filesize.toNat ≤ 255 * 2048) :
    TooSmall s r i ↔
      r.bufferSize.toNat < 2048 * clusterCount (s.parentTable r i).filesize := by
  have hcount := clusterCount_le hsmall
  rw [tooSmall_iff (by omega), Nat.mod_eq_of_lt (Nat.lt_succ_of_le hcount),
    Nat.div_lt_iff_lt_mul (by decide), Nat.mul_comm]

/-- **`read` stores exactly the clusters of the file, or nothing.** -/
theorem read_fills_buffer
    (h : Reached NewSystem WellScoped after s)
    (hp : LiveDir s r.parentClusterNumber)
    (hlive : (s.parentTable r i).Live)
    (hfile : ¬ (s.parentTable r i).IsDir)
    (hkey : (s.parentTable r i).key = r.key) :
    (2048 * clusterCount (s.parentTable r i).filesize ≤ r.bufferSize.toNat →
      ∃ ds cs, (read r s).result = .ok (0, ds) ∧
        FatChain s (s.parentTable r i).cluster cs ∧
        storedPositions ds = List.range (2048 * clusterCount (s.parentTable r i).filesize) ∧
        storedBytes ds = cs.flatMap fun c => bytesOf (s.data c)) ∧
    (r.bufferSize.toNat < 2048 * clusterCount (s.parentTable r i).filesize →
      (read r s).result = .ok (-1, [])) := by
  have hs := wellScopedRun_sound h
  have hchild : Child s r.parentClusterNumber i :=
    ⟨hp, (hs.table _ hp).two_le_of_not_isDir hfile, hlive⟩
  have hfirst : FirstMatch (s.parentTable r) r.key i := by
    rw [← hkey]
    exact (hs.table _ hp).firstMatch_of_child hchild.2.1 hlive
  obtain ⟨-, hsmall⟩ := wellScopedRun_filesize h _ i hchild hfile
  have hcheck := tooSmall_iff_bytes hsmall
  constructor
  · intro hlarge
    obtain ⟨-, cs, hcs, hlt⟩ := hs.chain _ i hchild
    -- the recorded size and the chain agree, so the check bounds the copy loop
    have hlen : cs.length = clusterCount (s.parentTable r i).filesize :=
      wellScopedRun_sized h _ i cs hchild hfile hcs
    have hrun := read_chain (hs.parentOk hp) hfirst hfile
      (fun hbad => absurd (hcheck.mp hbad) (Nat.not_lt.mpr hlarge)) hcs
      (fun x hx => (hlt x hx).2) (hs.chain_length_le hchild hcs)
    refine ⟨_, cs, by rw [hrun], hcs, ?_, ?_⟩
    · rw [storedPositions_deliveriesFrom, List.length_map, hlen, Nat.zero_mul,
        List.range_eq_range', Nat.mul_comm]
    · rw [storedBytes_deliveriesFrom, List.flatMap_map]
  · intro hsmaller
    rw [read_tooSmall (hs.parentOk hp) hfirst hfile (hcheck.mpr hsmaller)]

/-- A file of 3000 bytes in a buffer of two clusters, and in one that is a byte smaller. -/
theorem read_fills_two_clusters :
    (∃ ds, (read (requestFor ['a'] 2 4096) fileSystemWithFile).result = .ok (0, ds) ∧
        storedPositions ds = List.range 4096) ∧
      (read (requestFor ['a'] 2 4095) fileSystemWithFile).result = .ok (-1, []) := by
  have hlive : (fileSystemWithFile.table 2 2).Live := by decide +kernel
  have hfile : ¬ (fileSystemWithFile.table 2 2).IsDir := by decide +kernel
  have hkey : (fileSystemWithFile.table 2 2).key = (requestFor ['a'] 2 0).key := by
    decide +kernel
  have hsize : (fileSystemWithFile.table 2 2).filesize = 3000 := by decide +kernel
  have hneed : 2048 * clusterCount (fileSystemWithFile.table 2 2).filesize = 4096 := by
    rw [hsize]
    decide
  have hfills := fun n => read_fills_buffer (r := requestFor ['a'] 2 n) (i := 2)
    fileSystemWithFile_reached (liveDir_root _) hlive hfile hkey
  simp only [FileSystem.parentTable, requestFor, hneed] at hfills
  constructor
  · obtain ⟨ds, cs, hrun, -, hpos, -⟩ := (hfills 4096).1 (by decide)
    exact ⟨ds, hrun, hpos⟩
  · exact (hfills 4095).2 (by decide)

end Files

section Directories

variable {s : FileSystem} {r : FAT32DriverRequest} {k : Fin 64}

/-- The request names a directory: the first entry in use with its key is one. -/
def NamesDirectory (s : FileSystem) (r : FAT32DriverRequest) (k : Fin 64) : Prop :=
  FirstLiveMatch (s.parentTable r) r.key k ∧ (s.parentTable r k).IsDir

/-- `read_directory` stores nothing outside the buffer, refuses a buffer that is too small
for a directory table, and delivers the whole table when it returns 0. -/
structure RespectsBuffer (s : FileSystem) (r : FAT32DriverRequest) : Prop where
  inside : ∀ code ds, (readDirectory r s).result = .ok (code, ds) →
    ∀ p, p ∈ storedPositions ds → p < r.bufferSize.toNat
  refused : ∀ k, NamesDirectory s r k → r.bufferSize.toNat < 2048 →
    (readDirectory r s).result = .ok (-1, [])
  whole : ∀ ds, (readDirectory r s).result = .ok (0, ds) → ∃ k, NamesDirectory s r k ∧
    storedPositions ds = List.range 2048 ∧
    storedBytes ds = bytesOf (s.data (s.parentTable r k).cluster)

/-- The positions of a table. -/
theorem storedPositions_table (b : ClusterBuffer) :
    storedPositions [(0, b)] = List.range 2048 := by
  rw [storedPositions_cons, storedPositions_nil, List.append_nil, List.range_eq_range']

theorem storedBytes_table (b : ClusterBuffer) : storedBytes [(0, b)] = bytesOf b := by
  rw [storedBytes_cons, storedBytes_nil, List.append_nil]

/-- A call that stores nothing and does not return 0 respects a buffer that need not be
refused otherwise. -/
theorem RespectsBuffer.of_nothing
    {code : Int8}
    (hrun : (readDirectory r s).result = .ok (code, []))
    (hcode : code ≠ 0)
    (hrefused : ∀ k, NamesDirectory s r k → code = -1) :
    RespectsBuffer s r := by
  refine ⟨?_, ?_, ?_⟩
  · intro code' ds hds p hp
    rw [hrun] at hds
    cases hds
    cases hp
  · intro k hk _
    rw [hrun, hrefused k hk]
  · intro ds hds
    rw [hrun] at hds
    cases hds
    exact absurd rfl hcode

theorem NamesDirectory.unique
    {k' : Fin 64}
    (h : NamesDirectory s r k)
    (h' : FirstLiveMatch (s.parentTable r) r.key k') :
    k = k' := by
  rcases lt_trichotomy k k' with hlt | heq | hgt
  · exact absurd h.1.1 (h'.2 k hlt)
  · exact heq
  · exact absurd h'.1 (h.1.2 k' hgt)

/-- A directory and a buffer of at least one entry: the whole table is stored. -/
theorem readDirectory_stores
    (hk : NamesDirectory s r k)
    (hlarge : 32 ≤ r.bufferSize.toNat) :
    (readDirectory r s).result = .ok (0, [(0, s.data (s.parentTable r k).cluster)]) := by
  have hcheck : ¬ r.bufferSize < 32 := by
    rw [UInt32.lt_iff_toNat_lt]
    exact Nat.not_lt.mpr hlarge
  rw [readDirectory_dir hk.1 hk.2 hcheck]

/-- **`read_directory` respects every buffer except those of 32 to 2047 bytes offered for a
directory.** -/
theorem respectsBuffer_iff
    (s : FileSystem)
    (r : FAT32DriverRequest) :
    RespectsBuffer s r ↔
      ¬((∃ k, NamesDirectory s r k) ∧
        32 ≤ r.bufferSize.toNat ∧ r.bufferSize.toNat < 2048) := by
  constructor
  · rintro h ⟨⟨k, hk⟩, hlarge, hsmall⟩
    have hrefused := h.refused k hk hsmall
    rw [readDirectory_stores hk hlarge] at hrefused
    cases hrefused
  · intro hnot
    rcases firstLiveMatch_or (s.parentTable r) r.key with ⟨k, hk⟩ | hnone
    · by_cases hdir : (s.parentTable r k).IsDir
      · have hnames : NamesDirectory s r k := ⟨hk, hdir⟩
        by_cases hcheck : r.bufferSize < 32
        · exact RespectsBuffer.of_nothing (by rw [readDirectory_tooSmall hk hdir hcheck])
            (by decide) fun _ _ => rfl
        · rw [UInt32.lt_iff_toNat_lt, Nat.not_lt] at hcheck
          have hrun := readDirectory_stores hnames hcheck
          have hfits : 2048 ≤ r.bufferSize.toNat :=
            Nat.not_lt.mp fun hsmall => hnot ⟨⟨k, hnames⟩, hcheck, hsmall⟩
          refine ⟨?_, fun _ _ hsmall => absurd hsmall (Nat.not_lt.mpr hfits), ?_⟩
          · intro code ds hds p hp
            rw [hrun] at hds
            cases hds
            rw [storedPositions_table, List.mem_range] at hp
            exact Nat.lt_of_lt_of_le hp hfits
          · intro ds hds
            rw [hrun] at hds
            cases hds
            exact ⟨k, hnames, storedPositions_table _, storedBytes_table _⟩
      · refine RespectsBuffer.of_nothing (by rw [readDirectory_file hk hdir]) (by decide) ?_
        intro k' hk'
        rw [hk'.unique hk] at hk'
        exact absurd hk'.2 hdir
    · refine RespectsBuffer.of_nothing (by rw [readDirectory_notFound hnone]) (by decide) ?_
      exact fun k' hk' => absurd hk'.1.1 (hnone k')

/-- A buffer of one entry: `read_directory` stores the 2048 bytes of the table. -/
theorem readDirectory_overruns :
    (readDirectory (requestFor ['a'] 2 32) folderSystem).result =
        .ok (0, [(0, folderSystem.data 3)]) ∧
      2047 ∈ storedPositions [(0, folderSystem.data 3)] ∧
      ¬ RespectsBuffer folderSystem (requestFor ['a'] 2 32) := by
  have hcluster : (folderSystem.parentTable (requestFor ['a'] 2 32) 2).cluster = 3 := by
    decide +kernel
  have hnames : NamesDirectory folderSystem (requestFor ['a'] 2 32) 2 := by
    exact ⟨⟨by decide +kernel, by decide +kernel⟩, by decide +kernel⟩
  have hrun := readDirectory_stores hnames (by decide)
  rw [hcluster] at hrun
  refine ⟨hrun, ?_, fun h => ?_⟩
  · rw [storedPositions_table, List.mem_range]
    decide
  · have hrefused := h.refused 2 hnames (by decide)
    rw [hrun] at hrefused
    cases hrefused

end Directories

end Fat32
end OS2024
