import OS2024.Fat32.Scans

/-!
# What `count_empty_fat_slots` stores

The scan takes an array and an eight-bit counter, which is also the index of the next entry.  Its
loop ends when the counter has reached the number that is required, or behind the last entry of
the table.  An entry outside of the array is a fault.

**Results.**
* `scanInto_lists`: the array holds the list of the driver's scan, and is unchanged behind it.
* `countEmptyFatSlots_fills`: it holds the free clusters with the smallest indices.
-/

namespace OS2024
namespace Fat32

/-- The loop of `count_empty_fat_slots` over the indices `is`, where `buf` has `size` entries. -/
def scanInto (fatTable : FAT32FileAllocationTable) (required : UInt8) (size : Nat) :
    List (Fin 512) → UInt8 → (Nat → UInt32) → Option (UInt8 × (Nat → UInt32))
  | [], count, buf => some (count, buf)
  | i :: is, count, buf =>
      if count < required then
        if fatTable i = fat32FatEmptyEntry then
          -- buf[count++] = i
          if count.toNat < size then
            scanInto fatTable required size is (count + 1)
              (Function.update buf count.toNat (UInt32.ofNat i))
          else none
        else scanInto fatTable required size is count buf
      else some (count, buf)

/-- `count_empty_fat_slots` with its array: the result and the array afterwards. -/
def countEmptyFatSlotsInto
    (fatTable : FAT32FileAllocationTable)
    (required : UInt8)
    (size : Nat)
    (buf : Nat → UInt32) :
    Option (UInt8 × (Nat → UInt32)) :=
  scanInto fatTable required size (List.finRange 512) 0 buf

/-- The first `n` entries are free clusters in increasing order, and no other free cluster comes
before them. -/
structure SmallestFree
    (fatTable : FAT32FileAllocationTable)
    (n : Nat)
    (buf : Nat → UInt32) : Prop where
  increasing : ∀ j k, j < k → k < n → buf j < buf k
  free : ∀ k, k < n → ∃ i : Fin 512, buf k = UInt32.ofNat i ∧ fatTable i = fat32FatEmptyEntry
  smallest : ∀ i : Fin 512, fatTable i = fat32FatEmptyEntry →
    (∃ k, k < n ∧ buf k = UInt32.ofNat i) ∨ ∀ k, k < n → buf k < UInt32.ofNat i

section Slots

variable {fatTable : FAT32FileAllocationTable} {required : UInt8} {size : Nat}
  {buf buf' : Nat → UInt32} {count : UInt8} {slots : List UInt32}

/-- The first `count` entries of the array are these. -/
structure Lists (buf : Nat → UInt32) (count : UInt8) (slots : List UInt32) : Prop where
  length : slots.length = count.toNat
  entries : ∀ k (h : k < slots.length), buf k = slots[k]

theorem count_succ
    (hroom : count < required) :
    (count + 1).toNat = count.toNat + 1 := by
  have hone : (1 : UInt8).toNat = 1 := rfl
  have hlt := UInt8.lt_iff_toNat_lt.mp hroom
  have hrequired := required.toNat_lt
  rw [UInt8.toNat_add, hone]
  omega

theorem Lists.push
    (h : Lists buf count slots)
    (hroom : count < required)
    (c : UInt32) :
    Lists (Function.update buf count.toNat c) (count + 1) (slots ++ [c]) := by
  refine ⟨by rw [List.length_append, List.length_singleton, h.length, count_succ hroom],
    fun k hk => ?_⟩
  have hk' : k < slots.length + 1 := by rwa [List.length_append] at hk
  rcases Nat.lt_succ_iff_lt_or_eq.mp hk' with hold | hnew
  · rw [Function.update_of_ne (h.length ▸ Nat.ne_of_lt hold), List.getElem_append_left hold]
    exact h.entries k hold
  · rw [List.getElem_concat_length hnew, hnew, h.length, Function.update_self]

/-- **The array follows the list of the scan.**  Nothing is stored behind its entries. -/
theorem scanInto_lists
    (fatTable : FAT32FileAllocationTable)
    (hsize : required.toNat ≤ size)
    (is : List (Fin 512))
    (h : Lists buf count slots) :
    ∃ count' buf', scanInto fatTable required size is count buf = some (count', buf') ∧
      Lists buf' count' (countEmptyFatSlotsLoop fatTable required is slots) ∧
      count.toNat ≤ count'.toNat ∧ ∀ k, count'.toNat ≤ k → buf' k = buf k := by
  induction is generalizing buf count slots with
  | nil => exact ⟨count, buf, rfl, h, le_rfl, fun _ _ => rfl⟩
  | cons i is ih =>
      have hiff : slots.length < required.toNat ↔ count < required := by
        rw [h.length, UInt8.lt_iff_toNat_lt]
      rw [scanInto, countEmptyFatSlotsLoop]
      by_cases hroom : count < required
      · rw [if_pos hroom, if_pos (hiff.mpr hroom)]
        by_cases hi : fatTable i = fat32FatEmptyEntry
        · have hlt := UInt8.lt_iff_toNat_lt.mp hroom
          obtain ⟨count', buf', hrun, hlists, hle, hframe⟩ :=
            ih (h.push hroom (UInt32.ofNat i))
          rw [count_succ hroom] at hle
          rw [if_pos hi, if_pos hi, if_pos (hlt.trans_le hsize)]
          refine ⟨count', buf', hrun, hlists, Nat.le_of_succ_le hle, fun k hk => ?_⟩
          rw [hframe k hk, Function.update_of_ne (by omega)]
        · rw [if_neg hi, if_neg hi]
          exact ih h
      · rw [if_neg hroom, if_neg (hiff.not.mpr hroom)]
        exact ⟨count, buf, rfl, h, le_rfl, fun _ _ => rfl⟩

/-- The free clusters are listed in increasing order. -/
theorem sorted_freeClusters
    (fatTable : FAT32FileAllocationTable) :
    (freeClusters fatTable).Pairwise (· < ·) := by
  refine List.Pairwise.map _ (fun i j hij => ?_) ((List.pairwise_lt_finRange 512).filter _)
  rw [UInt32.lt_iff_toNat_lt, toNat_ofNat_index, toNat_ofNat_index]
  exact hij

theorem ofNat_mem_freeClusters
    {i : Fin 512} :
    UInt32.ofNat i ∈ freeClusters fatTable ↔ fatTable i = fat32FatEmptyEntry := by
  have hlt : (UInt32.ofNat i).toNat < 512 := by
    rw [toNat_ofNat_index]
    exact i.isLt
  rw [mem_freeClusters, FAT32FileAllocationTable.get_of_lt fatTable hlt]
  simp only [toNat_ofNat_index, Fin.isLt, true_and]
  rfl

/-- The first entries of a list in increasing order are its smallest ones. -/
theorem Lists.smallestFree
    (h : Lists buf count ((freeClusters fatTable).take required.toNat)) :
    SmallestFree fatTable count.toNat buf := by
  have hsorted := sorted_freeClusters fatTable
  have hlength := h.length
  refine ⟨fun j k hjk hk => ?_, fun k hk => ?_, fun i hi => ?_⟩
  · rw [← hlength] at hk
    rw [h.entries j (hjk.trans hk), h.entries k hk]
    exact List.pairwise_iff_getElem.mp (hsorted.sublist (List.take_sublist _ _)) j k _ _ hjk
  · rw [← hlength] at hk
    have hmem : buf k ∈ freeClusters fatTable := by
      rw [h.entries k hk]
      exact List.mem_of_mem_take (List.getElem_mem hk)
    obtain ⟨hlt, hfree⟩ := mem_freeClusters.mp hmem
    rw [FAT32FileAllocationTable.get_of_lt fatTable hlt] at hfree
    exact ⟨⟨(buf k).toNat, hlt⟩, by simp, hfree⟩
  · have hmem := ofNat_mem_freeClusters.mpr hi
    rw [← List.take_append_drop required.toNat (freeClusters fatTable)] at hmem hsorted
    rcases List.mem_append.mp hmem with hfirst | hrest
    · obtain ⟨k, hk, hget⟩ := List.getElem_of_mem hfirst
      exact Or.inl ⟨k, hlength ▸ hk, (h.entries k hk).trans hget⟩
    · refine Or.inr fun k hk => ?_
      rw [← hlength] at hk
      rw [h.entries k hk]
      exact (List.pairwise_append.mp hsorted).2.2 _ (List.getElem_mem hk) _ hrest

/-- **`count_empty_fat_slots` stores the free clusters with the smallest indices,** as many as are
required if there are so many, and nothing else. -/
theorem countEmptyFatSlots_fills
    (fatTable : FAT32FileAllocationTable)
    (required : UInt8)
    (buf : Nat → UInt32) :
    ∃ count buf',
      countEmptyFatSlotsInto fatTable required required.toNat buf = some (count, buf') ∧
      count.toNat =
        min required.toNat (Finset.univ.filter fun i => fatTable i = fat32FatEmptyEntry).card ∧
      SmallestFree fatTable count.toNat buf' ∧ ∀ k, count.toNat ≤ k → buf' k = buf k := by
  have hempty : Lists buf 0 [] := ⟨rfl, fun k hk => absurd hk (Nat.not_lt_zero k)⟩
  obtain ⟨count, buf', hrun, hlists, -, hframe⟩ :=
    scanInto_lists fatTable le_rfl (List.finRange 512) hempty
  have hslots := countEmptyFatSlots_eq fatTable required
  rw [countEmptyFatSlots] at hslots
  rw [hslots] at hlists
  refine ⟨count, buf', hrun, ?_, hlists.smallestFree, hframe⟩
  rw [← hlists.length, List.length_take, length_freeClusters]

end Slots

end Fat32
end OS2024
