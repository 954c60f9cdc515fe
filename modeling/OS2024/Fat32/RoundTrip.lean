import OS2024.Fat32.Calls

/-!
# Reading back what was written

A file that `write` stored comes back byte for byte, and a folder that it created is read
as an empty directory with its two records.

**Results.**
* `deliver_chunks`: the copy loop of `read` puts the clusters back in place.
* `tooSmall_iff`: the size check of `read` over the integers.
* `write_read_roundtrip`: both round trips, from every state of a well-scoped run.
-/

namespace OS2024
namespace Fat32

open Stdlib TracedState LinkedChain SlotTree Runs

/-! ## The client's buffer -/

/-- The buffer after one cluster was stored into it. -/
def storeDelivery (m : Memory) (d : Delivery) : Memory :=
  fun a => if h : d.1 ≤ a ∧ a < d.1 + 2048 then d.2 ⟨a - d.1, by omega⟩ else m a

/-- The buffer after a read stored its clusters, in order. -/
def deliver (m : Memory) (ds : List Delivery) : Memory := ds.foldl storeDelivery m

@[simp] theorem deliver_cons (m : Memory) (d : Delivery) (ds : List Delivery) :
    deliver m (d :: ds) = deliver (storeDelivery m d) ds := rfl

/-- Later clusters of a chain leave the earlier part of the buffer alone. -/
theorem deliver_deliveriesFrom_of_lt (m : Memory) (j : Nat) (bs : List ClusterBuffer)
    {a : Nat} (h : a < j * 2048) : deliver m (deliveriesFrom j bs) a = m a := by
  induction bs generalizing m j with
  | nil => rfl
  | cons b bs ih =>
      have hout : ¬ (j * 2048 ≤ a ∧ a < j * 2048 + 2048) := by omega
      have hnext : a < (j + 1) * 2048 :=
        Nat.lt_of_lt_of_le h (Nat.mul_le_mul_right 2048 (Nat.le_succ j))
      rw [deliveriesFrom, deliver_cons, ih _ (j + 1) hnext]
      exact dif_neg hout

/-- The copy loop restores the bytes that `write` took from its buffer. -/
theorem deliver_chunks (buf m : Memory) (j n : Nat) {a : Nat} (hlow : j * 2048 ≤ a)
    (hhigh : a < (j + n) * 2048) : deliver m (deliveriesFrom j (chunks buf j n)) a = buf a := by
  induction n generalizing m j with
  | zero => exact absurd hlow (Nat.not_le.mpr hhigh)
  | succ n ih =>
      rw [chunks, deliveriesFrom, deliver_cons]
      by_cases hcur : a < (j + 1) * 2048
      · have hin : j * 2048 ≤ a ∧ a < j * 2048 + 2048 := by
          rw [Nat.add_mul, Nat.one_mul] at hcur
          exact ⟨hlow, hcur⟩
        have hsum : j * 2048 + (a - j * 2048) = a := Nat.add_sub_cancel' hlow
        rw [deliver_deliveriesFrom_of_lt _ _ _ hcur, storeDelivery, dif_pos hin]
        exact congrArg buf hsum
      · refine ih _ (j + 1) (Nat.not_lt.mp hcur) ?_
        rwa [Nat.add_assoc, Nat.add_comm 1 n]

/-! ## The size check -/

/-- Below 2^24 bytes the check compares whole clusters, counted modulo 256. -/
theorem tooSmall_iff {s : FileSystem} {r : FAT32DriverRequest} {k : Fin 64}
    (hsize : (s.parentTable r k).filesize.toNat < 2 ^ 24) :
    TooSmall s r k ↔
      r.bufferSize.toNat / 2048 < clusterCount (s.parentTable r k).filesize % 256 := by
  rw [TooSmall, ceil_floatClusters hsize, UInt32.lt_iff_toNat_lt, UInt32.toNat_div,
    UInt8.toNat_toUInt32, UInt8.toNat_ofNat']
  rfl

/-! ## Finding the new entry -/

section NewEntry

variable {s s' : FileSystem} {p : UInt32} {k : Fin 64} {e : FAT32DirectoryEntry}
  {cs : List UInt32} {blocks : List ClusterBuffer}

theorem Inserted.child_new (h : Inserted s s' p k e cs blocks) (hs : Sound s) :
    Child s' p k :=
  (h.child_iff hs p k).mpr (Or.inr ⟨rfl, rfl⟩)

/-- The scan of `read` stops at the new entry. -/
theorem Inserted.firstMatch (h : Inserted s s' p k e cs blocks) (hs : Sound s) :
    FirstMatch (s'.table p) e.key k := by
  have hchild := h.child_new hs
  have hfirst := ((h.sound hs).table p hchild.1).firstMatch_of_child hchild.2.1 hchild.2.2
  rwa [h.slot_self] at hfirst

/-- A match in use is the first match in use. -/
theorem FirstMatch.firstLive {t : FAT32DirectoryTable} {key : Key} {i : Fin 64}
    (h : FirstMatch t key i) (hl : (t i).Live) : FirstLiveMatch t key i :=
  ⟨⟨hl, h.1⟩, fun j hj hm => h.2 j hj hm.2⟩

end NewEntry

/-! ## The round trips -/

/-- `r'` asks for the entry that `r` is about. -/
structure SameEntry (r r' : FAT32DriverRequest) : Prop where
  parent : r'.parentClusterNumber = r.parentClusterNumber
  key : r'.key = r.key

section RoundTrips

variable {s s' : FileSystem} {r r' : FAT32DriverRequest} {k : Fin 64} {c : UInt32}
  {rest : List UInt32}

/-- A new file is read back from its chain. -/
theorem read_inserted (hs : Sound s)
    (hins : Inserted s s' r.parentClusterNumber k (newEntry r c) (c :: rest)
      (newBlocks s r c (c :: rest).length))
    (hfile : ¬ isFolder r = true) (hsmall : r.bufferSize.toNat ≤ 255 * 2048)
    (hsame : SameEntry r r') (hbuf : 2048 * clusterCount r.bufferSize ≤ r'.bufferSize.toNat) :
    (read r' s').result =
      .ok (0, deliveriesFrom 0 (chunks r.buf 0 (c :: rest).length)) := by
  have hs' := hins.sound hs
  have hslot : s'.parentTable r' k = newEntry r c := by
    rw [FileSystem.parentTable, hsame.parent, hins.slot_self]
  have hchild := hins.child_new hs
  have hfirst := hins.firstMatch hs
  rw [newEntry_key, ← hsame.key] at hfirst
  rw [← hsame.parent] at hchild hfirst
  have hdir : ¬ (s'.parentTable r' k).IsDir := by
    rw [hslot]
    exact fun hd => hfile ((newEntry_isDir_iff c).mp hd)
  have hlarge : ¬ TooSmall s' r' k := by
    have hfs : (s'.parentTable r' k).filesize = r.bufferSize := by rw [hslot]; rfl
    rw [tooSmall_iff (by rw [hfs]; omega), hfs, Nat.mod_eq_of_lt
      (Nat.lt_succ_of_le (clusterCount_le hsmall))]
    omega
  have hcs : FatChain s' (s'.parentTable r' k).cluster (c :: rest) := by
    rw [hslot]
    exact hins.chain_new
  have hlt : ∀ x, x ∈ c :: rest → x.toNat < 512 := fun x hx => (hins.fresh x hx).1
  rw [read_chain (hs'.parentOk hchild.1) hfirst hdir hlarge hcs hlt
    (hs'.chain_length_le hchild hcs), hins.content, newBlocks, if_neg hfile]

/-- A new folder is read back as a directory table with two records. -/
theorem readDirectory_inserted (hs : Sound s)
    (hins : Inserted s s' r.parentClusterNumber k (newEntry r c) (c :: rest)
      (newBlocks s r c (c :: rest).length))
    (hfolder : isFolder r = true) (hsame : SameEntry r r')
    (hbuf : 32 ≤ r'.bufferSize.toNat) :
    ∃ e₀ e₁, Records e₀ e₁ c r.parentClusterNumber ∧
      (readDirectory r' s').result =
        .ok (0, [(0, FAT32DirectoryTable.toBytes (recordTable e₀ e₁))]) := by
  have hslot : s'.parentTable r' k = newEntry r c := by
    rw [FileSystem.parentTable, hsame.parent, hins.slot_self]
  have hchild := hins.child_new hs
  have hfirst := hins.firstMatch hs
  obtain ⟨-, e₀, e₁, hrec, htab⟩ := hins.folder ((newEntry_isDir_iff c).mpr hfolder)
  rw [newEntry_cluster] at hrec htab
  rw [newEntry_key, ← hsame.key] at hfirst
  rw [← hsame.parent] at hchild hfirst
  have hdir : (s'.parentTable r' k).IsDir := by
    rw [hslot]
    exact (newEntry_isDir_iff c).mpr hfolder
  have hlarge : ¬ r'.bufferSize < 32 := by
    rw [UInt32.lt_iff_toNat_lt]
    exact Nat.not_lt.mpr hbuf
  refine ⟨e₀, e₁, hrec, ?_⟩
  rw [readDirectory_dir (hfirst.firstLive hchild.2.2) hdir hlarge, hslot, newEntry_cluster,
    ← htab, FileSystem.table, FAT32DirectoryTable.toBytes_ofBytes]

end RoundTrips

/-- **What a successful `write` stores is read back: the bytes of a file, and an empty
directory for a folder.** -/
theorem write_read_roundtrip {s : FileSystem} {r : FAT32DriverRequest}
    (h : Reached NewSystem WellScoped after s) (hp : LiveDir s r.parentClusterNumber)
    (hsmall : r.bufferSize.toNat ≤ 255 * 2048) (hw : (write r s).result = .ok 0) :
    (0 < r.bufferSize.toNat → ∀ r', SameEntry r r' →
      2048 * clusterCount r.bufferSize ≤ r'.bufferSize.toNat →
      ∃ ds, (read r' (write r s).state).result = .ok (0, ds) ∧
        ∀ i, i < r.bufferSize.toNat → deliver r'.buf ds i = r.buf i) ∧
    (r.bufferSize = 0 → ∀ r', SameEntry r r' → 2048 ≤ r'.bufferSize.toNat →
      ∃ (t : FAT32DirectoryTable) (k : Fin 64),
        (readDirectory r' (write r s).state).result =
          .ok (0, [(0, FAT32DirectoryTable.toBytes t)]) ∧
        (∀ i, 2 ≤ i → ∀ b, (t i).toBytes b = 0) ∧
        Child (write r s).state r.parentClusterNumber k ∧
        ((write r s).state.parentTable r k).key = r.key ∧
        (t 0).cluster = ((write r s).state.parentTable r k).cluster ∧
        (t 1).cluster = r.parentClusterNumber) := by
  have hs := wellScopedRun_sound h
  obtain ⟨k, c, rest, hbuf, hfree, hins⟩ := write_inserted hs hp hw
  constructor
  · intro hpos r' hsame hlarge
    have hfile := not_isFolder hpos
    refine ⟨_, read_inserted hs hins hfile hsmall hsame hlarge, fun i hi => ?_⟩
    refine deliver_chunks r.buf r'.buf 0 _ (by rw [Nat.zero_mul]; exact Nat.zero_le i) ?_
    rw [length_slotBuf_eq hbuf hfree, required_of_small hsmall hfile, clusterCount,
      Nat.zero_add]
    omega
  · intro hz r' hsame hlarge
    have hfolder := isFolder_iff.mpr hz
    obtain ⟨e₀, e₁, hrec, hread⟩ :=
      readDirectory_inserted hs hins hfolder hsame (by omega)
    refine ⟨recordTable e₀ e₁, k, hread, fun i hi => ?_, hins.child_new hs, ?_, ?_, ?_⟩
    · rw [recordTable_child e₀ e₁ hi]
      exact (FAT32DirectoryEntry.eq_zero_iff _).mp rfl
    · show ((write r s).state.table r.parentClusterNumber k).key = r.key
      rw [hins.slot_self, newEntry_key]
    · show _ = ((write r s).state.table r.parentClusterNumber k).cluster
      rw [recordTable_zero, hrec.self_cluster, hins.slot_self, newEntry_cluster]
    · rw [recordTable_one, hrec.parent_cluster]

/-- A request whose buffer holds `0xFF` everywhere. -/
def emptyHanded (r : FAT32DriverRequest) : FAT32DriverRequest := { r with buf := fun _ => 0xFF }

/-- A file of 3000 bytes, written into a folder and read into other memory, and a folder beside
it. -/
theorem roundtrip_populatedSystem :
    (∃ ds, (read (emptyHanded (requestFor ['d'] 5 4096))
          (write (requestFor ['d'] 5 3000) populatedSystem).state).result = .ok (0, ds) ∧
        ∀ i, i < 3000 → deliver (fun _ => 0xFF) ds i = UInt8.ofNat i) ∧
      ∃ t : FAT32DirectoryTable, (readDirectory (emptyHanded (requestFor ['e'] 5 2048))
          (write (requestFor ['e'] 5 0) populatedSystem).state).result =
            .ok (0, [(0, FAT32DirectoryTable.toBytes t)]) ∧ (t 1).cluster = 5 := by
  constructor
  · exact (write_read_roundtrip (r := requestFor ['d'] 5 3000)
      populatedSystem_reached populatedSystem_folder (by decide)
      (by decide +kernel)).1 (by decide) (emptyHanded (requestFor ['d'] 5 4096)) ⟨rfl, rfl⟩
      (by decide)
  · obtain ⟨t, k, hread, -, -, -, -, hparent⟩ :=
      (write_read_roundtrip (r := requestFor ['e'] 5 0)
        populatedSystem_reached populatedSystem_folder (by decide)
        (by decide +kernel)).2 rfl (emptyHanded (requestFor ['e'] 5 2048)) ⟨rfl, rfl⟩ (by decide)
    exact ⟨t, hread, hparent⟩

end Fat32
end OS2024
