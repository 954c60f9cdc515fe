import OS2024.Fat32.Durability
import OS2024.Interrupts.Syscalls

/-!
# Saving and loading through system calls

A program saves a part of its memory with system call 2, and loads it again with system call 0, at
another address if it likes.

**Results.**
* `behind_storedDeliveries`: what is delivered is found in the buffer.
* `saved_bytes_load`: the bytes that a program has saved come back at any time.
-/

namespace OS2024
namespace Interrupts

open Stdlib TracedState WordStack Fat32 Console Runs

/-! ## Buffers -/

section Buffers

variable {m : Memory32} {ptr : UInt32}

/-- The distance of two bytes of a buffer, the second one in front or behind. -/
theorem buffer_distance
    (ptr : UInt32)
    {i k : Nat}
    (hi : i < 2 ^ 32)
    (hk : k < 2 ^ 32) :
    (ptr + UInt32.ofNat i - (ptr + UInt32.ofNat k)).toNat =
      if k ≤ i then i - k else 2 ^ 32 - (k - i) := by
  have hsub : ptr + UInt32.ofNat i - (ptr + UInt32.ofNat k) =
      UInt32.ofNat i - UInt32.ofNat k := by grind
  rw [hsub, UInt32.toNat_sub, UInt32.toNat_ofNat_of_lt' hi, UInt32.toNat_ofNat_of_lt' hk]
  split_ifs
  · omega
  · omega

/-- A cluster in the buffer, at its place behind the pointer. -/
theorem behind_storedCluster
    (m : Memory32)
    (ptr : UInt32)
    {i k : Nat}
    (b : ClusterBuffer)
    (hi : i < 2 ^ 32)
    (hk : k + 2048 ≤ 2 ^ 32) :
    behind (storedCluster m (ptr + UInt32.ofNat k) b) ptr i =
      storeDelivery (behind m ptr) (k, b) i := by
  have hdist := buffer_distance ptr hi (Nat.lt_of_lt_of_le (by omega : k < k + 2048) hk)
  have hiff : (ptr + UInt32.ofNat i - (ptr + UInt32.ofNat k)).toNat < 2048 ↔
      k ≤ i ∧ i < k + 2048 := by
    rw [hdist]
    split_ifs
    · omega
    · omega
  rw [behind, storedCluster, storeDelivery]
  by_cases hin : k ≤ i ∧ i < k + 2048
  · rw [dif_pos (hiff.mpr hin), dif_pos hin]
    congr 2
    rw [hdist, if_pos hin.1]
  · rw [dif_neg (hiff.not.mpr hin), dif_neg hin, behind]

/-- A byte of the buffer depends on the same byte before. -/
theorem deliver_congr
    {m m' : Memory}
    {i : Nat}
    (ds : List Delivery)
    (h : m' i = m i) :
    Fat32.deliver m' ds i = Fat32.deliver m ds i := by
  induction ds generalizing m m' with
  | nil => exact h
  | cons d ds ih =>
      refine ih ?_
      rw [storeDelivery, storeDelivery, h]

theorem storedDeliveries_cons
    (m : Memory32)
    (ptr : UInt32)
    (d : Delivery)
    (ds : List Delivery) :
    storedDeliveries m ptr (d :: ds) =
      storedDeliveries (storedCluster m (ptr + UInt32.ofNat d.1) d.2) ptr ds :=
  rfl

theorem clusters_fit
    {j n length : Nat}
    (h : (j + (length + 1)) * 2048 ≤ n) :
    j * 2048 + 2048 ≤ n ∧ (j + 1 + length) * 2048 ≤ n := by omega

/-- What is delivered is found in the buffer. -/
theorem behind_storedDeliveries
    (m : Memory32)
    (ptr : UInt32)
    {i j : Nat}
    {bs : List ClusterBuffer}
    (hi : i < 2 ^ 32)
    (hfit : (j + bs.length) * 2048 ≤ 2 ^ 32) :
    behind (storedDeliveries m ptr (deliveriesFrom j bs)) ptr i =
      Fat32.deliver (behind m ptr) (deliveriesFrom j bs) i := by
  induction bs generalizing j m with
  | nil => rfl
  | cons b bs ih =>
      rw [List.length_cons] at hfit
      obtain ⟨hcluster, hnext⟩ := clusters_fit hfit
      have hfirst := behind_storedCluster m ptr b hi hcluster
      rw [deliveriesFrom, deliver_cons, ← deliver_congr _ hfirst, storedDeliveries_cons]
      exact ih _ hnext

end Buffers

/-! ## System calls -/

/-- A system call that saves a file: the code at `ecx` is 0. -/
structure Saves (L : Layout) (s : Machine) (frame : InterruptFrame) (scancode : UInt8) : Prop where
  number : frame.intNumber = 0x30
  eax : frame.eax = 2
  safe : SafeInterrupt L s frame scancode
  nonempty : 0 < (requestAt s.memory frame.ebx).bufferSize.toNat
  code : (s.after L (.interrupt frame scancode)).memory frame.ecx = 0

/-- A system call that loads a file of `n` bytes: its clusters fit into the buffer, and the byte
for the code is none of the bytes of the file. -/
structure Loads (L : Layout) (s : Machine) (frame : InterruptFrame) (n : UInt32) : Prop where
  number : frame.intNumber = 0x30
  eax : frame.eax = 0
  places : OwnPlaces L s.memory frame
  large : 2048 * clusterCount n ≤ (requestAt s.memory frame.ebx).bufferSize.toNat
  apart : n.toNat ≤ (frame.ecx - loadWord s.memory frame.ebx).toNat

section Saved

variable {L : Layout} {s : Machine} {frame saving loading : InterruptFrame} {k j : UInt8}
  {as : List Action}

theorem handler_of_call
    {c : Call}
    (hnumber : frame.intNumber = 0x30)
    (hcall : frame.call s.memory = some c) :
    mainInterruptHandler L frame k s =
      answerCall L (loadWord s.memory frame.ebx) frame.ecx c s := by
  rw [← syscall_of_call hcall, mainInterruptHandler, hnumber]
  rfl

theorem Saves.call_eq
    (h : Saves L s saving k) :
    saving.call s.memory = some (.write (requestAt s.memory saving.ebx)) := by
  rw [InterruptFrame.call, h.eax]
  rfl

theorem Saves.wellScoped
    (h : Saves L s saving k) :
    WellScoped (L.fileSystem s) (.write (requestAt s.memory saving.ebx)) := by
  refine h.safe.call _ ?_
  rw [Action.call, if_pos h.number]
  exact h.call_eq

/-- The code that is found at `ecx` is the one that the driver has returned. -/
theorem Saves.written
    (h : Saves L s saving k) :
    (Fat32.write (requestAt s.memory saving.ebx) (L.fileSystem s)).result = .ok 0 := by
  have hreturns := h.safe.returns
  have hcode := h.code
  rw [Machine.after] at hcode
  rw [handler_of_call h.number h.call_eq] at hreturns hcode
  obtain ⟨⟨code, ds⟩, w, hrun, hstate⟩ := answerCall_returns hreturns
  rw [hstate, Machine.answered] at hcode
  have hzero : code = 0 := congrArg Int8.ofUInt8 ((Function.update_self ..).symm.trans hcode)
  rw [(code_only (congrArg Outcome.result hrun)).1, hzero]

/-- What is loaded, if the driver delivers these clusters. -/
theorem Loads.loaded
    {n : UInt32}
    {bs : List ClusterBuffer}
    (h : Loads L s loading n)
    (hlen : bs.length = clusterCount n)
    (hsmall : n.toNat ≤ 255 * 2048)
    (hread : (Fat32.read (requestAt s.memory loading.ebx) (L.fileSystem s)).result =
      .ok (0, deliveriesFrom 0 bs)) :
    (mainInterruptHandler L loading k s).result = .ok () ∧
      (s.after L (.interrupt loading k)).memory loading.ecx = 0 ∧
      ∀ i, i < n.toNat →
        behind (s.after L (.interrupt loading k)).memory (loadWord s.memory loading.ebx) i =
          Fat32.deliver (behind s.memory (loadWord s.memory loading.ebx)) (deliveriesFrom 0 bs)
            i := by
  have hcall : loading.call s.memory = some (.read (requestAt s.memory loading.ebx)) := by
    rw [InterruptFrame.call, h.eax]
    rfl
  have hstate := (read_readonly (requestAt s.memory loading.ebx) (L.fileSystem s)).1
  rw [Machine.after, handler_of_call h.number hcall]
  rcases hrun : (Call.read (requestAt s.memory loading.ebx)).run (L.fileSystem s) with ⟨r, fs, w⟩
  have hr : r = .ok (0, deliveriesFrom 0 bs) := (congrArg Outcome.result hrun).symm.trans hread
  have hfs : fs = L.fileSystem s := (congrArg Outcome.state hrun).symm.trans hstate
  rw [hr, hfs] at hrun
  obtain ⟨hresult, hend⟩ := answerCall_of_ok (loadWord s.memory loading.ebx) loading.ecx hrun
  rw [L.store_fileSystem] at hend
  rw [hresult, hend]
  refine ⟨rfl, Function.update_self .., fun i hi => ?_⟩
  have hi32 : i < 2 ^ 32 := hi.trans n.toNat_lt
  have hne : loadWord s.memory loading.ebx + UInt32.ofNat i ≠ loading.ecx := by
    intro heq
    have hapart := h.apart
    rw [← heq, UInt32.add_comm, UInt32.add_sub_cancel, UInt32.toNat_ofNat_of_lt' hi32] at hapart
    exact absurd hi (Nat.not_lt.mpr hapart)
  have hfit : (0 + bs.length) * 2048 ≤ 2 ^ 32 := by
    have hcount := clusterCount_le hsmall
    omega
  rw [← behind_storedDeliveries s.memory _ hi32 hfit]
  exact Function.update_of_ne hne _ _

/-- **The bytes that a program has saved come back at any time**, whatever the programs and the
kernel do with their own places, and whatever keys and system calls there are, as long as none of
them asks to delete the file. -/
theorem saved_bytes_load
    (h : Reached NewSystem WellScoped Fat32.after (L.fileSystem s))
    (hsaved : Saves L s saving k)
    (has : Along (SafeAction L) (Machine.after L) (s.after L (.interrupt saving k)) as)
    (hkept : ∀ r, Call.delete r ∈ calls L (s.after L (.interrupt saving k)) as →
      ¬ SameEntry (requestAt s.memory saving.ebx) r)
    {s' : Machine}
    (hlater : as.foldl (Machine.after L) (s.after L (.interrupt saving k)) = s')
    (hloads : Loads L s' loading (requestAt s.memory saving.ebx).bufferSize)
    (hsame : SameEntry (requestAt s.memory saving.ebx) (requestAt s'.memory loading.ebx)) :
    (mainInterruptHandler L loading j s').result = .ok () ∧
      (s'.after L (.interrupt loading j)).memory loading.ecx = 0 ∧
      ∀ i, i < (requestAt s.memory saving.ebx).bufferSize.toNat →
        behind (s'.after L (.interrupt loading j)).memory (loadWord s'.memory loading.ebx) i =
          behind s.memory (loadWord s.memory saving.ebx) i := by
  have hwell := hsaved.wellScoped
  have hsmall : (requestAt s.memory saving.ebx).bufferSize.toNat ≤ 255 * 2048 := hwell.2 _ rfl
  have hsafe : SafeAction L s (.interrupt saving k) := hsaved.safe
  have hcall : (Action.interrupt saving k).call s.memory =
      some (.write (requestAt s.memory saving.ebx)) := by
    rw [Action.call, if_pos hsaved.number]
    exact hsaved.call_eq
  have hafter := after_fileSystem h hsafe
  rw [hcall, Option.toList_some, List.foldl_cons, List.foldl_nil, after_write] at hafter
  -- the run, as a run of the driver
  obtain ⟨hcalls, hend⟩ := run_fileSystem (after_reached h hsafe).2 has
  rw [hlater] at hend
  rw [hafter] at hcalls hend
  have hread := read_written_calls h hwell hsaved.nonempty hsaved.written hcalls hkept hsame
    hloads.large
  rw [← hend] at hread
  obtain ⟨hresult, hcode, hbytes⟩ := hloads.loaded (k := j) (length_chunks _ _ _) hsmall hread
  refine ⟨hresult, hcode, fun i hi => (hbytes i hi).trans ?_⟩
  exact deliver_written _ hi

end Saved

/-! ## A small run -/

/-- The machine after the small run. -/
def laterProgram : Machine := forget.foldl (Machine.after smallLayout)
  (firstProgram.after smallLayout (.interrupt (smallCall 2) 0))

theorem firstProgram_saves : Saves smallLayout firstProgram (smallCall 2) 0 where
  number := rfl
  eax := rfl
  safe := firstProgram_safe
  nonempty := by decide +kernel
  code := by decide +kernel

theorem laterProgram_places : OwnPlaces smallLayout laterProgram.memory (smallCall 0) where
  stores a h := by
    rcases h with rfl | h
    · exact smallLayout.low _ (by decide)
    · exact smallLayout.low_of_distance (by decide +kernel) h
  reads a h := by
    rcases h with h | h
    · exact smallLayout.low_of_distance (by decide) h
    · exact absurd h (Nat.not_lt_zero _)

theorem laterProgram_loads : Loads smallLayout laterProgram (smallCall 0) 3000 where
  number := rfl
  eax := rfl
  places := laterProgram_places
  large := by decide +kernel
  apart := by decide +kernel

theorem saved_bytes_load_forget :
    (mainInterruptHandler smallLayout (smallCall 0) 0 laterProgram).result = .ok () ∧
      (laterProgram.after smallLayout (.interrupt (smallCall 0) 0)).memory 64 = 0 ∧
      ∀ i, i < (3000 : UInt32).toNat →
        behind (laterProgram.after smallLayout (.interrupt (smallCall 0) 0)).memory
            (loadWord laterProgram.memory 0) i =
          behind firstProgram.memory (loadWord firstProgram.memory 0) i := by
  have hsize : (requestAt firstProgram.memory (smallCall 2).ebx).bufferSize = 3000 := by
    decide +kernel
  have hloads := laterProgram_loads
  have hsame : SameEntry (requestAt firstProgram.memory 0) (requestAt laterProgram.memory 0) :=
    ⟨by decide +kernel, by decide +kernel⟩
  rw [← hsize] at hloads
  have hlater : forget.foldl (Machine.after smallLayout)
      (firstProgram.after smallLayout (.interrupt (smallCall 2) 0)) = laterProgram := rfl
  have hkept : ∀ r, Call.delete r ∈
      calls smallLayout (firstProgram.after smallLayout (.interrupt (smallCall 2) 0)) forget →
      ¬ SameEntry (requestAt firstProgram.memory (smallCall 2).ebx) r :=
    fun r hr => absurd hr List.not_mem_nil
  have hbytes := saved_bytes_load (j := 0) firstProgram_reached firstProgram_saves (forget_safe _)
    hkept hlater hloads hsame
  rwa [hsize, smallCall_ebx, smallCall_ebx, smallCall_ecx] at hbytes

end Interrupts
end OS2024
