import OS2024.Fat32.Accounting
import OS2024.Fat32.Relocation

/-!
# What of the caller's memory reaches the disk

`write` copies whole clusters from the caller's buffer.  Two runs on buffers that agree in
their first `buffer_size` bytes are compared: they agree if the last cluster is full, and
otherwise the memory behind the buffer ends up on the disk.

**Results.**
* `writeLoop_congr`: the copy loop depends on the clusters that it takes.
* `write_congr`: so does `write`.
* `onlyCallersBytes_iff`: `write` stores no bytes behind the buffer if and only if it
  refuses the request or the buffer consists of whole clusters.
-/

namespace OS2024
namespace Fat32

open Stdlib TracedState LinkedChain Runs

/-- The request with another memory behind its pointer. -/
def FAT32DriverRequest.withBuf (r : FAT32DriverRequest) (buf : Memory) :
    FAT32DriverRequest :=
  { r with buf := buf }

/-- What `write` leaves does not depend on the memory behind the first `buffer_size` bytes
of the buffer. -/
def OnlyCallersBytes (s : FileSystem) (r : FAT32DriverRequest) : Prop :=
  ∀ buf : Memory, (∀ a, a < r.bufferSize.toNat → buf a = r.buf a) →
    (write (r.withBuf buf) s).state = (write r s).state

/-- `write` finds no such name, an empty slot and enough clusters. -/
def Accepts (s : FileSystem) (r : FAT32DriverRequest) : Prop :=
  NoMatch (s.parentTable r) r.key ∧ HasRoom s r

section Congruence

variable {buf buf' : Memory}

theorem chunks_eq_map (buf : Memory) (j m : Nat) :
    chunks buf j m = (List.range' j m).map (chunk buf) := by
  induction m generalizing j with
  | zero => rfl
  | succ m ih => rw [chunks, ih, List.range'_succ, List.map_cons]

/-- The copy loop depends on the clusters that it takes. -/
theorem writeLoop_congr
    (cs : List UInt32)
    (j : Nat)
    (h : ∀ i, j ≤ i → i < j + cs.length → chunk buf' i = chunk buf i) :
    writeLoop buf' j cs = writeLoop buf j cs := by
  induction cs generalizing j with
  | nil => rfl
  | cons c rest ih =>
      rw [List.length_cons] at h
      have hcluster : writeClusters (fun a => buf' (j * 2048 + a)) c 1 =
          writeClusters (fun a => buf (j * 2048 + a)) c 1 := by
        have hchunk : (fun k : Fin 2048 => buf' (j * 2048 + k)) =
            fun k : Fin 2048 => buf (j * 2048 + k) := h j le_rfl (by omega)
        funext s
        rw [writeClusters_apply, writeClusters_apply, hchunk]
      have hrest := ih (j + 1) fun i hi hlt => h i (by omega) (by omega)
      rw [writeLoop, writeLoop, hcluster, hrest]

end Congruence

section TwoRuns

variable {s : FileSystem} {r : FAT32DriverRequest} {buf : Memory} {k : Fin 64} {c : UInt32}
  {rest : List UInt32}

/-- Two runs that take the same clusters from their buffers are the same. -/
theorem write_congr
    (hs : Sound s)
    (hp : LiveDir s r.parentClusterNumber)
    (h : ∀ i, i < (required r).toNat → chunk buf i = chunk r.buf i) :
    write (r.withBuf buf) s = write r s := by
  have hok := hs.parentOk hp
  cases write_cases hs hp with
  | taken hm run => rw [run, write_exists (r := r.withBuf buf) hok hm]; rfl
  | full hm hfull run => rw [run, write_full (r := r.withBuf buf) hok hm hfull]; rfl
  | noSpace k hm hk hfree run =>
      rw [run, write_noSpace (r := r.withBuf buf) hok hm hk hfree]; rfl
  | emptySlotBuf k hm hk hreq run =>
      rw [run, write_emptySlotBuf (r := r.withBuf buf) hok hm hk hreq]; rfl
  | done k c rest s₁ w hbuf hfree run inserted =>
      have hlen := length_slotBuf_eq hbuf hfree
      have hcontent : writeContent (r.withBuf buf) c rest = writeContent r c rest := by
        have hloop : writeLoop buf 0 (c :: rest) = writeLoop r.buf 0 (c :: rest) :=
          writeLoop_congr (c :: rest) 0 fun i _ hi => h i (by omega)
        rw [writeContent, writeContent]
        exact if_congr Iff.rfl rfl hloop
      rw [write_slots (r := r.withBuf buf) hok inserted.noMatch inserted.slot hbuf hfree,
        write_slots hok inserted.noMatch inserted.slot hbuf hfree, storeEntry, hcontent]
      rfl

/-- `write` returns 0 exactly for the requests it accepts. -/
theorem accepts_iff
    (hs : Sound s)
    (hp : LiveDir s r.parentClusterNumber)
    (hpos : 0 < r.bufferSize.toNat)
    (hsmall : r.bufferSize.toNat ≤ 255 * 2048) :
    Accepts s r ↔ (write r s).result = .ok 0 := by
  have hreq := required_of_small hsmall (not_isFolder hpos)
  have hfree := freeEntries_eq s
  cases write_cases hs hp with
  | taken hm run =>
      refine iff_of_false (fun h => hm h.1) ?_
      simp [run]
  | full hm hfull run =>
      refine iff_of_false ?_ (by simp [run])
      rintro ⟨-, ⟨k, hk⟩, -⟩
      exact hk (live_of_full hs hp hfull k)
  | noSpace k hm hk hless run =>
      refine iff_of_false ?_ (by simp [run])
      rintro ⟨-, -, hroom⟩
      omega
  | emptySlotBuf k hm hk hzero run =>
      have hcount : 0 < clusterCount r.bufferSize := by
        rw [clusterCount]
        omega
      rw [hzero, UInt8.toNat_zero] at hreq
      omega
  | done k c rest s₁ w hbuf hroom run inserted =>
      refine iff_of_true ⟨inserted.noMatch, ⟨k, inserted.slot.2.1⟩, by omega⟩ ?_
      rw [run]

/-- A refused request leaves no bytes at all. -/
theorem onlyCallersBytes_of_refused
    (hs : Sound s)
    (hp : LiveDir s r.parentClusterNumber)
    (hpos : 0 < r.bufferSize.toNat)
    (hsmall : r.bufferSize.toNat ≤ 255 * 2048)
    (h : ¬ Accepts s r) :
    OnlyCallersBytes s r := by
  have hsame : ∀ r' : FAT32DriverRequest, r'.bufferSize = r.bufferSize →
      LiveDir s r'.parentClusterNumber → ¬ Accepts s r' → (write r' s).state = s := by
    intro r' hsize hp' hno
    rw [← hsize] at hpos hsmall
    rcases (safe_effect (c := Call.write r') hs
      (wellScoped_write hp' hsmall).1.safe) with ⟨hstate, -⟩ | ⟨-, -, -, -, -, hcode, -⟩
    · rwa [after_write] at hstate
    · exact absurd ((accepts_iff hs hp' hpos hsmall).mpr hcode) hno
  intro buf _
  rw [hsame r rfl hp h, hsame (r.withBuf buf) rfl hp h]

/-- Whole clusters lie inside of the buffer. -/
theorem onlyCallersBytes_of_dvd
    (hs : Sound s)
    (hp : LiveDir s r.parentClusterNumber)
    (hpos : 0 < r.bufferSize.toNat)
    (hsmall : r.bufferSize.toNat ≤ 255 * 2048)
    (hdvd : 2048 ∣ r.bufferSize.toNat) :
    OnlyCallersBytes s r := by
  intro buf hagree
  refine congrArg Outcome.state (write_congr hs hp fun i hi => ?_)
  rw [required_of_small hsmall (not_isFolder hpos), clusterCount] at hi
  obtain ⟨m, hm⟩ := hdvd
  refine funext fun b => hagree _ ?_
  have hround : i + 1 ≤ m := by omega
  have hb := b.isLt
  omega

/-- The first byte behind the buffer is on the disk if the last cluster is not full. -/
theorem not_onlyCallersBytes
    (hs : Sound s)
    (hp : LiveDir s r.parentClusterNumber)
    (hpos : 0 < r.bufferSize.toNat)
    (hsmall : r.bufferSize.toNat ≤ 255 * 2048)
    (hacc : Accepts s r)
    (hdvd : ¬ 2048 ∣ r.bufferSize.toNat) :
    ¬ OnlyCallersBytes s r := by
  intro hown
  have hfile := not_isFolder hpos
  have hw := (accepts_iff hs hp hpos hsmall).mp hacc
  obtain ⟨k, c, rest, hbuf, hfree, hins⟩ := write_inserted hs hp hw
  -- another byte behind the buffer
  let n := r.bufferSize.toNat
  let buf : Memory := Function.update r.buf n (r.buf n + 1)
  have hagree : ∀ a, a < r.bufferSize.toNat → buf a = r.buf a :=
    fun a ha => Function.update_of_ne (Nat.ne_of_lt ha) _ _
  have hstate := hown buf hagree
  have hw' : (write (r.withBuf buf) s).result = .ok 0 :=
    (accepts_iff (r := r.withBuf buf) hs hp hpos hsmall).mp hacc
  obtain ⟨k', c', rest', hbuf', -, hins'⟩ := write_inserted (r := r.withBuf buf) hs hp hw'
  have hslots : c' :: rest' = c :: rest := hbuf'.symm.trans hbuf
  have hcontent := hins'.content
  rw [hstate, hslots, hins.content, newBlocks, newBlocks, if_neg hfile,
    if_neg (show ¬ isFolder (r.withBuf buf) = true from hfile),
    length_slotBuf_eq hbuf hfree, required_of_small hsmall hfile, chunks_eq_map, chunks_eq_map,
    List.map_inj_left] at hcontent
  -- the byte lies in the last cluster
  have hlast : n / 2048 ∈ List.range' 0 (clusterCount r.bufferSize) := by
    rw [List.mem_range'_1, clusterCount]
    omega
  have hchunk := congrFun (hcontent _ hlast) ⟨n % 2048, Nat.mod_lt _ (by decide)⟩
  have hpos' : n / 2048 * 2048 + n % 2048 = n := by omega
  have hbyte : r.buf n = buf n := by
    rw [← hpos']
    exact hchunk
  rw [show buf n = r.buf n + 1 from Function.update_self _ _ _] at hbyte
  exact absurd hbyte (by simp)

end TwoRuns

/-- **`write` stores only the caller's bytes if and only if it refuses the request or the
buffer consists of whole clusters.** -/
theorem onlyCallersBytes_iff
    {s : FileSystem}
    {r : FAT32DriverRequest}
    (h : Reached NewSystem WellScoped after s)
    (hp : LiveDir s r.parentClusterNumber)
    (hpos : 0 < r.bufferSize.toNat)
    (hsmall : r.bufferSize.toNat ≤ 255 * 2048) :
    OnlyCallersBytes s r ↔ ¬ Accepts s r ∨ 2048 ∣ r.bufferSize.toNat := by
  have hs := wellScopedRun_sound h
  constructor
  · intro hown
    by_contra hnot
    rw [not_or, not_not] at hnot
    exact not_onlyCallersBytes hs hp hpos hsmall hnot.1 hnot.2 hown
  · rintro (hno | hdvd)
    · exact onlyCallersBytes_of_refused hs hp hpos hsmall hno
    · exact onlyCallersBytes_of_dvd hs hp hpos hsmall hdvd

/-- A file of one full cluster. -/
theorem onlyCallersBytes_oneCluster :
    OnlyCallersBytes emptySystem (requestFor ['a'] 2 2048) :=
  (onlyCallersBytes_iff (Reached.start newSystem_emptySystem) (liveDir_root _) (by decide)
    (by decide)).mpr (Or.inr (by decide))

/-- A file of 21 bytes on a new file system: whatever follows the 21 bytes in the caller's
memory is stored with them, and a later read hands it out. -/
theorem write_discloses_memory :
    Reached NewSystem WellScoped after emptySystem ∧ LiveDir emptySystem 2 ∧
      ¬ OnlyCallersBytes emptySystem (requestFor ['a'] 2 21) ∧
      ∃ ds, (read (requestFor ['a'] 2 2048)
          (write (requestFor ['a'] 2 21) emptySystem).state).result = .ok (0, ds) ∧
        deliver (fun _ => 0) ds 21 = 21 := by
  have hreached : Reached NewSystem WellScoped after emptySystem :=
    Reached.start newSystem_emptySystem
  have hs := wellScopedRun_sound hreached
  have hw : (write (requestFor ['a'] 2 21) emptySystem).result = .ok 0 := by decide +kernel
  have hacc : Accepts emptySystem (requestFor ['a'] 2 21) :=
    (accepts_iff hs (liveDir_root _) (by decide) (by decide)).mpr hw
  refine ⟨hreached, liveDir_root _,
    not_onlyCallersBytes hs (liveDir_root _) (by decide) (by decide) hacc (by decide), ?_⟩
  have hfile : ¬ isFolder (requestFor ['a'] 2 21) = true := by decide
  have hsmall : (requestFor ['a'] 2 21).bufferSize.toNat ≤ 255 * 2048 := by decide
  have hsame : SameEntry (requestFor ['a'] 2 21) (requestFor ['a'] 2 2048) := ⟨rfl, rfl⟩
  obtain ⟨k, c, rest, hbuf, hfree, hins⟩ := write_inserted hs (liveDir_root _) hw
  refine ⟨_, read_inserted hs hins hfile hsmall hsame (by decide), ?_⟩
  have hlen : (c :: rest).length = 1 := by
    rw [length_slotBuf_eq hbuf hfree, required_of_small hsmall hfile]
    decide
  rw [hlen]
  exact deliver_chunks _ _ 0 1 (Nat.zero_le _) (by decide)

end Fat32
end OS2024
