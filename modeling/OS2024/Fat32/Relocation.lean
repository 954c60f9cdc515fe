import OS2024.Fat32.Frame
import OS2024.Fat32.RoundTrip

/-!
# A file that is written elsewhere and deleted where it was

The driver has no call that moves a file.  A client reads it, writes the bytes to another
directory and deletes the original; `Relocation` says what has to come out.

**Results.**
* `Inserted.fileAt`: a `write` with data adds a file with these data.
* `relocation_of_copy`: adding a copy and removing the original moves the file.
* `Relocation.copy`: only a copy in the right place with the right bytes does.
* `wellScopedRun_filesize`: files are not empty and not larger than 255 clusters.
-/

namespace OS2024
namespace Fat32

open LinkedChain SlotTree Runs

/-- The first `n` bytes on a chain. -/
def chainBytes (s : FileSystem) (cs : List UInt32) (n : Nat) : List UInt8 :=
  (List.range n).map (deliver (fun _ => 0) (deliveriesFrom 0 (cs.map s.data)))

/-- Slot `i` of `d` holds the file `key` with the content `bytes`. -/
structure FileAt
    (s : FileSystem)
    (d : UInt32)
    (i : Fin 64)
    (key : Key)
    (bytes : List UInt8) : Prop where
  child : Child s d i
  file : ¬ (s.table d i).IsDir
  key : (s.table d i).key = key
  content : ∃ cs, FatChain s (s.table d i).cluster cs ∧
    chainBytes s cs (s.table d i).filesize.toNat = bytes

/-- The file `key` has gone from slot `i` of `d` to slot `k` of `e`, and nothing else has
changed. -/
structure Relocation
    (s s' : FileSystem)
    (d e : UInt32)
    (i k : Fin 64)
    (key : Key)
    (bytes : List UInt8) : Prop where
  source : FileAt s d i key bytes
  target : FileAt s' e k key bytes
  gone : ¬ Child s' d i
  children : ∀ p j, Child s' p j ↔ (Child s p j ∧ ¬(p = d ∧ j = i)) ∨ (p = e ∧ j = k)
  kept : ∀ p j, Child s p j → ¬(p = d ∧ j = i) → Kept s s' p j
  slots : ∀ p j, LiveDir s p → ¬(p = d ∧ j = i) → ¬(p = e ∧ j = k) →
    s'.table p j = s.table p j

section Contents

variable {s s' : FileSystem} {d : UInt32} {i : Fin 64} {key : Key} {bytes bytes' : List UInt8}

theorem FileAt.length
    (h : FileAt s d i key bytes) :
    bytes.length = (s.table d i).filesize.toNat := by
  obtain ⟨cs, -, rfl⟩ := h.content
  rw [chainBytes, List.length_map, List.length_range]

/-- A slot holds one content. -/
theorem FileAt.unique
    (h : FileAt s d i key bytes)
    {key' : Key}
    (h' : FileAt s d i key' bytes') :
    bytes = bytes' := by
  obtain ⟨cs, hcs, rfl⟩ := h.content
  obtain ⟨cs', hcs', rfl⟩ := h'.content
  rw [hcs.unique hcs']

/-- A child that is kept keeps its content. -/
theorem FileAt.of_kept
    (h : FileAt s d i key bytes)
    (hk : Kept s s' d i) :
    FileAt s' d i key bytes := by
  obtain ⟨cs, hcs, hbytes⟩ := h.content
  refine ⟨hk.child, by rw [hk.entry]; exact h.file, by rw [hk.entry]; exact h.key, cs, ?_, ?_⟩
  · rw [hk.entry]
    exact hk.chain cs hcs
  · rw [hk.entry, chainBytes, hk.content h.file cs hcs]
    exact hbytes

theorem Kept.trans
    {s₁ : FileSystem}
    (h : Kept s s₁ d i)
    (h' : Kept s₁ s' d i) :
    Kept s s' d i := by
  obtain ⟨hchild, hentry, hchain, hcontent⟩ := h'
  rw [h.entry] at hentry hchain hcontent
  refine ⟨hchild, hentry, fun cs hcs => hchain cs (h.chain cs hcs), fun hfile cs hcs => ?_⟩
  rw [hcontent hfile cs (h.chain cs hcs), h.content hfile cs hcs]

/-- A file is the first match for its key. -/
theorem FileAt.firstMatch
    (h : FileAt s d i key bytes)
    (hs : Sound s) :
    FirstMatch (s.table d) key i := by
  have hfirst := (hs.table d h.child.1).firstMatch_of_child h.child.2.1 h.child.2.2
  rwa [h.key] at hfirst

end Contents

section Sizes

/-- The size of a file is between 1 byte and 255 clusters. -/
def FileSizes (s : FileSystem) : Prop :=
  ∀ d i, Child s d i → ¬ (s.table d i).IsDir →
    0 < (s.table d i).filesize.toNat ∧ (s.table d i).filesize.toNat ≤ 255 * 2048

theorem after_fileSizes
    {s : FileSystem}
    {c : Call}
    (hs : Sound s)
    (hz : FileSizes s)
    (hc : Safe s c)
    (hsmall : SmallWrite c) :
    FileSizes (after s c) := by
  cases safe_effect hs hc with
  | reads state _ => rwa [state]
  | @inserts r k c rest _ _ _ inserted =>
      intro d i hd hfile
      rcases (inserted.child_iff hs d i).mp hd with hd | ⟨rfl, rfl⟩
      · rw [inserted.slot_child hs hd] at hfile ⊢
        exact hz d i hd hfile
      · rw [inserted.slot_self] at hfile ⊢
        refine ⟨Nat.pos_of_ne_zero fun hzero => hfile ?_, hsmall r rfl⟩
        exact (newEntry_isDir_iff c).mpr (isFolder_iff.mpr (UInt32.toNat_inj.mp hzero))
  | removes k cs _ _ removed =>
      intro d i hd hfile
      rw [removed.slot_child hs hd] at hfile ⊢
      exact hz d i ((removed.child_iff hs d i).mp hd).1 hfile

theorem wellScopedRun_filesize
    {s : FileSystem}
    (h : Reached NewSystem WellScoped after s) :
    FileSizes s := by
  refine (h.invariant (P := fun s => Sound s ∧ FileSizes s) ?_ ?_).2
  · exact fun s hs =>
      ⟨hs.created.sound, fun d i hd => absurd hd (hs.created.not_child d i)⟩
  · exact fun s c hs hc =>
      ⟨(after_edited hs.1 hc.1.safe).sound hs.1, after_fileSizes hs.1 hs.2 hc.1.safe hc.2⟩

end Sizes

section Edits

variable {s s₁ s₂ : FileSystem} {d e : UInt32} {i k : Fin 64} {key : Key} {bytes : List UInt8}
  {entry : FAT32DirectoryEntry} {cs ds : List UInt32} {blocks : List ClusterBuffer}

/-- A `write` with data adds a file with these data. -/
theorem Inserted.fileAt
    {r : FAT32DriverRequest}
    {c : UInt32}
    {rest : List UInt32}
    (hs : Sound s)
    (h : Inserted s s₁ r.parentClusterNumber k (newEntry r c) (c :: rest)
      (newBlocks s r c (c :: rest).length))
    (hlen : (c :: rest).length = (required r).toNat)
    (hpos : 0 < r.bufferSize.toNat)
    (hsmall : r.bufferSize.toNat ≤ 255 * 2048) :
    FileAt s₁ r.parentClusterNumber k r.key ((List.range r.bufferSize.toNat).map r.buf) := by
  have hfile := not_isFolder hpos
  refine ⟨h.child_new hs, ?_, ?_, c :: rest, ?_, ?_⟩
  · rw [h.slot_self]
    exact fun hdir => hfile ((newEntry_isDir_iff c).mp hdir)
  · rw [h.slot_self, newEntry_key]
  · rw [h.slot_self]
    exact h.chain_new
  · have hsize : (newEntry r c).filesize = r.bufferSize := rfl
    rw [h.slot_self, hsize, chainBytes, h.content, newBlocks, if_neg hfile]
    refine List.map_congr_left fun a ha => ?_
    rw [List.mem_range] at ha
    refine deliver_chunks r.buf _ 0 _ (by rw [Nat.zero_mul]; exact Nat.zero_le a) ?_
    rw [hlen, required_of_small hsmall hfile, clusterCount]
    omega

/-- The children after a copy was added and the original removed. -/
theorem child_edits_iff
    (hs : Sound s)
    (hins : Inserted s s₁ e k entry cs blocks)
    (hrem : Removed s₁ s₂ d i ds)
    (hold : Child s d i)
    (p : UInt32)
    (j : Fin 64) :
    Child s₂ p j ↔ (Child s p j ∧ ¬(p = d ∧ j = i)) ∨ (p = e ∧ j = k) := by
  rw [hrem.child_iff (hins.sound hs), hins.child_iff hs]
  constructor
  · rintro ⟨hp | hp, hslot⟩
    · exact Or.inl ⟨hp, hslot⟩
    · exact Or.inr hp
  · rintro (⟨hp, hslot⟩ | ⟨rfl, rfl⟩)
    · exact ⟨Or.inl hp, hslot⟩
    · refine ⟨Or.inr ⟨rfl, rfl⟩, ?_⟩
      rintro ⟨rfl, rfl⟩
      exact hins.child_ne_slot hold ⟨rfl, rfl⟩

/-- Adding a copy and removing the original moves the file. -/
theorem relocation_of_edits
    (hs : Sound s)
    (hins : Inserted s s₁ e k entry cs blocks)
    (hrem : Removed s₁ s₂ d i ds)
    (hsource : FileAt s d i key bytes)
    (hcopy : FileAt s₁ e k key bytes) :
    Relocation s s₂ d e i k key bytes := by
  have hs₁ := hins.sound hs
  have hslot : ¬(e = d ∧ k = i) := by
    rintro ⟨rfl, rfl⟩
    exact hins.child_ne_slot hsource.child ⟨rfl, rfl⟩
  refine ⟨hsource, hcopy.of_kept (hrem.kept hs₁ hcopy.child hslot), ?_,
    child_edits_iff hs hins hrem hsource.child, ?_, ?_⟩
  · exact fun hchild => ((hrem.child_iff hs₁ d i).mp hchild).2 ⟨rfl, rfl⟩
  · intro p j hp hne
    have hkept := hins.kept hs hp
    exact hkept.trans (hrem.kept hs₁ hkept.child hne)
  · intro p j hp hne hne'
    have hp₁ : LiveDir s₁ p := (hins.liveDir_iff hs p).mpr (Or.inl hp)
    have hfile : ¬ (s₁.table d i).IsDir := by
      rw [hins.slot_child hs hsource.child]
      exact hsource.file
    rw [hrem.slot_eq hs₁ hp₁ (fun hdir => hfile hdir.1) hne, hins.slot_eq hs hp hne']

/-- The file that has moved is the copy. -/
theorem Relocation.edits
    (hs : Sound s)
    (hins : Inserted s s₁ e k entry cs blocks)
    (hrem : Removed s₁ s₂ d i ds)
    (hold : Child s d i)
    {d' e' : UInt32}
    {i' k' : Fin 64}
    (h : Relocation s s₂ d' e' i' k' key bytes) :
    e' = e ∧ k' = k := by
  have hnew : Child s₂ e k := (child_edits_iff hs hins hrem hold e k).mpr (Or.inr ⟨rfl, rfl⟩)
  rcases (h.children e k).mp hnew with ⟨hchild, -⟩ | ⟨he, hk⟩
  · exact absurd ⟨rfl, rfl⟩ (hins.child_ne_slot hchild)
  · exact ⟨he.symm, hk.symm⟩

section Copies

variable {r : FAT32DriverRequest} {c : UInt32} {rest : List UInt32}

/-- The bytes that a request asks to write. -/
def requestBytes (r : FAT32DriverRequest) : List UInt8 :=
  (List.range r.bufferSize.toNat).map r.buf

variable (hs : Sound s) (hz : FileSizes s)
  (hins : Inserted s s₁ r.parentClusterNumber k (newEntry r c) (c :: rest)
    (newBlocks s r c (c :: rest).length))
  (hlen : (c :: rest).length = (required r).toNat)
  (hrem : Removed s₁ s₂ d i ds)
include hs hz hins hlen hrem

/-- **Writing all bytes elsewhere and deleting the original moves the file.** -/
theorem relocation_of_copy
    (hsource : FileAt s d i r.key (requestBytes r)) :
    Relocation s s₂ d r.parentClusterNumber i k r.key (requestBytes r) := by
  have hsize := hsource.length
  rw [requestBytes, List.length_map, List.length_range] at hsize
  obtain ⟨hpos, hsmall⟩ := hz d i hsource.child hsource.file
  exact relocation_of_edits hs hins hrem hsource
    (hins.fileAt hs hlen (by omega) (by omega))

/-- The file that has moved is the copy, and its bytes are those that were written. -/
theorem Relocation.copy
    (hold : Child s d i)
    {e : UInt32}
    {i' k' : Fin 64}
    (h : Relocation s s₂ d e i' k' key bytes) :
    e = r.parentClusterNumber ∧ bytes = requestBytes r := by
  obtain ⟨rfl, rfl⟩ := h.edits hs hins hrem hold
  refine ⟨rfl, ?_⟩
  have hs₁ := hins.sound hs
  have hslot : ¬(r.parentClusterNumber = d ∧ k' = i) := by
    rintro ⟨rfl, rfl⟩
    exact hins.child_ne_slot hold ⟨rfl, rfl⟩
  have hkept := hrem.kept hs₁ (hins.child_new hs) hslot
  have hsize := h.target.length
  rw [hkept.entry, hins.slot_self, h.source.length] at hsize
  obtain ⟨hpos, hsmall⟩ := hz d i' h.source.child h.source.file
  have hsize' : (s.table d i').filesize.toNat = r.bufferSize.toNat := hsize
  have hcopy := hins.fileAt hs hlen (by omega) (by omega)
  exact h.target.unique (hcopy.of_kept hkept)

end Copies

end Edits

end Fat32
end OS2024
