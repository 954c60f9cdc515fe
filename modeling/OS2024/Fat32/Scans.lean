import OS2024.Fat32.Primitives

/-!
# The scans of the driver

What the four requests look for before they act: a slot with the requested key, the
first empty slot, free entries of the allocation table, and the number of clusters of a
file.

**Results.**
* `keyMatches_iff`: the two `memcmp` calls compare the key of an entry.
* `writeScan_eq`: the scan of `write` in closed form.
* `countEmptyFatSlots_eq`: the free entries with the smallest indices.
* `ceil_floatClusters`: below 2^24 bytes the float computation is exact.
-/

namespace OS2024
namespace Fat32

open Stdlib

/-- Name and extension, by which entries are looked up. -/
abbrev Key := (Fin 8 → UInt8) × (Fin 3 → UInt8)

/-- The key of eleven NULs. -/
def Key.blank : Key := (fun _ => 0, fun _ => 0)

namespace FAT32DirectoryEntry

def key (e : FAT32DirectoryEntry) : Key := (e.name, e.ext)

/-- The entry is in use. -/
def Live (e : FAT32DirectoryEntry) : Prop := e.userAttribute = uattrNotEmpty

/-- The entry describes a directory. -/
def IsDir (e : FAT32DirectoryEntry) : Prop := e.attr = attrSubdirectory

instance (e : FAT32DirectoryEntry) : Decidable e.Live := inferInstanceAs (Decidable (_ = _))

instance (e : FAT32DirectoryEntry) : Decidable e.IsDir := inferInstanceAs (Decidable (_ = _))

theorem not_live_zero : ¬ zero.Live := by decide

@[simp] theorem key_zero : zero.key = Key.blank := rfl

@[simp] theorem cluster_zero : zero.cluster = 0 := rfl

end FAT32DirectoryEntry

def FAT32DriverRequest.key (r : FAT32DriverRequest) : Key := (r.name, r.ext)

theorem keyMatches_iff (e : FAT32DirectoryEntry) (r : FAT32DriverRequest) :
    keyMatches e r = true ↔ e.key = r.key := by
  simp [keyMatches, memcmp_eq_zero_iff, FAT32DirectoryEntry.key, FAT32DriverRequest.key,
    Prod.ext_iff]

theorem keyMatches_eq_false_iff (e : FAT32DirectoryEntry) (r : FAT32DriverRequest) :
    keyMatches e r = false ↔ e.key ≠ r.key := by
  rw [← Bool.not_eq_true, keyMatches_iff]

/-! ## Looking up a key -/

/-- Slot `i` is the first one of `t` with key `k`. -/
def FirstMatch (t : FAT32DirectoryTable) (k : Key) (i : Fin 64) : Prop :=
  (t i).key = k ∧ ∀ j, j < i → (t j).key ≠ k

/-- No slot of `t` has key `k`. -/
def NoMatch (t : FAT32DirectoryTable) (k : Key) : Prop := ∀ i, (t i).key ≠ k

instance (t : FAT32DirectoryTable) (k : Key) (i : Fin 64) : Decidable (FirstMatch t k i) :=
  inferInstanceAs (Decidable (_ ∧ _))

instance (t : FAT32DirectoryTable) (k : Key) : Decidable (NoMatch t k) :=
  inferInstanceAs (Decidable (∀ _, _))

theorem find_keyMatches_eq_some {t : FAT32DirectoryTable} {r : FAT32DriverRequest}
    {i : Fin 64} :
    (Fin.find? fun i => keyMatches (t i) r) = some i ↔ FirstMatch t r.key i := by
  rw [Fin.find?_eq_some_iff]
  simp only [keyMatches_iff, keyMatches_eq_false_iff, FirstMatch]

theorem find_keyMatches_eq_none {t : FAT32DirectoryTable} {r : FAT32DriverRequest} :
    (Fin.find? fun i => keyMatches (t i) r) = none ↔ NoMatch t r.key := by
  rw [Fin.find?_eq_none_iff]
  simp only [keyMatches_eq_false_iff, NoMatch]

/-- A key is in the table, at a first slot, or it is not. -/
theorem firstMatch_or_noMatch (t : FAT32DirectoryTable) (k : Key) :
    (∃ i, FirstMatch t k i) ∨ NoMatch t k := by
  let r : FAT32DriverRequest := ⟨fun _ => 0, k.1, k.2, 0, 0⟩
  cases hf : Fin.find? fun i => keyMatches (t i) r with
  | none => exact Or.inr (find_keyMatches_eq_none.mp hf)
  | some i => exact Or.inl ⟨i, find_keyMatches_eq_some.mp hf⟩

theorem FirstMatch.unique {t : FAT32DirectoryTable} {k : Key} {i j : Fin 64}
    (hi : FirstMatch t k i) (hj : FirstMatch t k j) : i = j := by
  rcases lt_trichotomy i j with h | h | h
  · exact absurd hi.1 (hj.2 i h)
  · exact h
  · exact absurd hj.1 (hi.2 j h)

/-! ## The scan of `write` -/

/-- Slot `i` is the empty slot that `write` fills: the first one after slot 0. -/
def FirstEmpty (t : FAT32DirectoryTable) (i : Fin 64) : Prop :=
  i ≠ 0 ∧ ¬ (t i).Live ∧ ∀ j, j < i → j ≠ 0 → (t j).Live

/-- Every slot after slot 0 is in use. -/
def Full (t : FAT32DirectoryTable) : Prop := ∀ i, i ≠ 0 → (t i).Live

theorem writeScan_eq (t : FAT32DirectoryTable) (r : FAT32DriverRequest)
    (is : List (Fin 64)) (e : Fin 64) :
    writeScan t r is e =
      if ∃ i, i ∈ is ∧ (t i).key = r.key then none
      else if e ≠ 0 then some e
      else some ((is.find? fun i => decide (¬ (t i).Live ∧ i ≠ 0)).getD 0) := by
  induction is generalizing e with
  | nil => by_cases he : e = 0 <;> simp [writeScan, he]
  | cons i is ih =>
      rw [writeScan]
      by_cases hm : (t i).key = r.key
      · have hex : ∃ j, j ∈ i :: is ∧ (t j).key = r.key := ⟨i, List.mem_cons_self, hm⟩
        rw [if_pos ((keyMatches_iff (t i) r).mpr hm), if_pos hex]
      · have hk : ¬ keyMatches (t i) r = true := fun h => hm ((keyMatches_iff _ _).mp h)
        have hex : (∃ j, j ∈ i :: is ∧ (t j).key = r.key) ↔
            ∃ j, j ∈ is ∧ (t j).key = r.key := by
          simp [hm]
        simp only [if_neg hk, ih, hex]
        by_cases hrest : ∃ j, j ∈ is ∧ (t j).key = r.key
        · rw [if_pos hrest, if_pos hrest]
        · rw [if_neg hrest, if_neg hrest]
          by_cases he : e = 0
          · subst he
            by_cases hl : (t i).Live
            · have hl' : (t i).userAttribute = uattrNotEmpty := hl
              simp [hl, hl']
            · have hl' : ¬ (t i).userAttribute = uattrNotEmpty := hl
              by_cases hi : i = 0
              · subst hi
                simp [hl']
              · simp [hl, hl', hi]
          · simp [he]

/-- The scan of `write` reports a key that is already present. -/
theorem writeScan_eq_none_iff (t : FAT32DirectoryTable) (r : FAT32DriverRequest) :
    writeScan t r (List.finRange 64) 0 = none ↔ ¬ NoMatch t r.key := by
  rw [writeScan_eq]
  simp [NoMatch]

theorem writeScan_of_noMatch {t : FAT32DirectoryTable} {r : FAT32DriverRequest}
    (h : NoMatch t r.key) :
    writeScan t r (List.finRange 64) 0 =
      some ((Fin.find? fun i => decide (¬ (t i).Live ∧ i ≠ 0)).getD 0) := by
  have hex : ¬ ∃ i, i ∈ List.finRange 64 ∧ (t i).key = r.key := fun ⟨i, _, hi⟩ => h i hi
  rw [writeScan_eq, if_neg hex, Fin.find?_eq_find?_finRange]
  rfl

theorem find_empty_eq_some {t : FAT32DirectoryTable} {i : Fin 64} :
    (Fin.find? fun i => decide (¬ (t i).Live ∧ i ≠ 0)) = some i ↔ FirstEmpty t i := by
  rw [Fin.find?_eq_some_iff]
  simp only [decide_eq_true_eq, decide_eq_false_iff_not, FirstEmpty]
  constructor
  · rintro ⟨⟨hl, hi⟩, hj⟩
    exact ⟨hi, hl, fun j hlt hne => by_contra fun hd => hj j hlt ⟨hd, hne⟩⟩
  · rintro ⟨hi, hl, hj⟩
    exact ⟨⟨hl, hi⟩, fun j hlt hd => hd.1 (hj j hlt hd.2)⟩

theorem find_empty_eq_none {t : FAT32DirectoryTable} :
    (Fin.find? fun i => decide (¬ (t i).Live ∧ i ≠ 0)) = none ↔ Full t := by
  rw [Fin.find?_eq_none_iff]
  simp only [decide_eq_false_iff_not, Full]
  constructor
  · exact fun h i hi => by_contra fun hd => h i ⟨hd, hi⟩
  · exact fun h i hd => hd.1 (h i hd.2)

/-- A directory has a slot that `write` can fill, or it is full. -/
theorem firstEmpty_or_full (t : FAT32DirectoryTable) : (∃ i, FirstEmpty t i) ∨ Full t := by
  cases hf : Fin.find? fun i => decide (¬ (t i).Live ∧ i ≠ 0) with
  | none => exact Or.inr (find_empty_eq_none.mp hf)
  | some i => exact Or.inl ⟨i, find_empty_eq_some.mp hf⟩

theorem writeScan_firstEmpty {t : FAT32DirectoryTable} {r : FAT32DriverRequest} {i : Fin 64}
    (h : NoMatch t r.key) (hi : FirstEmpty t i) :
    writeScan t r (List.finRange 64) 0 = some i := by
  rw [writeScan_of_noMatch h, find_empty_eq_some.mpr hi]
  rfl

theorem writeScan_full {t : FAT32DirectoryTable} {r : FAT32DriverRequest}
    (h : NoMatch t r.key) (hf : Full t) :
    writeScan t r (List.finRange 64) 0 = some 0 := by
  rw [writeScan_of_noMatch h, find_empty_eq_none.mpr hf]
  rfl

/-! ## Free entries of the allocation table -/

/-- The free clusters of a table, in increasing order. -/
def freeClusters (f : FAT32FileAllocationTable) : List UInt32 :=
  ((List.finRange 512).filter fun i => f i = fat32FatEmptyEntry).map
    fun i : Fin 512 => UInt32.ofNat i

theorem toNat_ofNat_index (i : Fin 512) : (UInt32.ofNat i).toNat = i := by
  rw [UInt32.toNat_ofNat']
  omega

theorem mem_freeClusters {f : FAT32FileAllocationTable} {c : UInt32} :
    c ∈ freeClusters f ↔ c.toNat < 512 ∧ FAT32FileAllocationTable.get f c = 0 := by
  simp only [freeClusters, List.mem_map, List.mem_filter, List.mem_finRange, true_and,
    decide_eq_true_eq]
  constructor
  · rintro ⟨i, hi, rfl⟩
    have hlt : (UInt32.ofNat i).toNat < 512 := by rw [toNat_ofNat_index]; exact i.isLt
    refine ⟨hlt, ?_⟩
    rw [FAT32FileAllocationTable.get_of_lt f hlt]
    simp only [toNat_ofNat_index]
    exact hi
  · rintro ⟨hlt, hf⟩
    rw [FAT32FileAllocationTable.get_of_lt f hlt] at hf
    exact ⟨⟨c.toNat, hlt⟩, hf, by simp⟩

theorem nodup_freeClusters (f : FAT32FileAllocationTable) : (freeClusters f).Nodup := by
  refine List.Nodup.map ?_ ((List.nodup_finRange 512).filter _)
  intro i j hij
  have := congrArg UInt32.toNat hij
  simp only [toNat_ofNat_index] at this
  exact Fin.ext this

/-- The number of free clusters is the number of empty entries. -/
theorem length_freeClusters (f : FAT32FileAllocationTable) :
    (freeClusters f).length =
      (Finset.univ.filter fun i : Fin 512 => f i = fat32FatEmptyEntry).card := by
  rw [freeClusters, List.length_map, Finset.card_def, Finset.filter_val]
  have hval : (Finset.univ : Finset (Fin 512)).val = (List.finRange 512 : Multiset (Fin 512)) :=
    rfl
  rw [hval, Multiset.filter_coe, Multiset.coe_card]

theorem countEmptyFatSlotsLoop_eq (f : FAT32FileAllocationTable) (required : UInt8)
    (is : List (Fin 512)) (buf : List UInt32) (hbuf : buf.length ≤ required.toNat) :
    countEmptyFatSlotsLoop f required is buf =
      buf ++ ((is.filter fun i => f i = fat32FatEmptyEntry).map fun i : Fin 512 =>
        UInt32.ofNat i).take (required.toNat - buf.length) := by
  induction is generalizing buf with
  | nil => simp [countEmptyFatSlotsLoop]
  | cons i is ih =>
      rw [countEmptyFatSlotsLoop]
      by_cases hlt : buf.length < required.toNat
      · rw [if_pos hlt]
        by_cases hi : f i = fat32FatEmptyEntry
        · obtain ⟨m, hm⟩ : ∃ m, required.toNat - buf.length = m + 1 :=
            ⟨required.toNat - buf.length - 1, by omega⟩
          have hm' : required.toNat - (buf ++ [UInt32.ofNat i]).length = m := by
            rw [List.length_append, List.length_singleton]
            omega
          rw [if_pos hi, ih _ (by rw [List.length_append, List.length_singleton]; omega), hm',
            List.filter_cons_of_pos (by simpa using hi), hm, List.map_cons, List.take_succ_cons,
            List.append_assoc]
          rfl
        · rw [if_neg hi, ih buf hbuf, List.filter_cons_of_neg (by simpa using hi)]
      · have hzero : required.toNat - buf.length = 0 := by omega
        rw [if_neg hlt, hzero, List.take_zero, List.append_nil]

/-- `count_empty_fat_slots` yields the free clusters with the smallest indices. -/
theorem countEmptyFatSlots_eq (f : FAT32FileAllocationTable) (required : UInt8) :
    countEmptyFatSlots f required = (freeClusters f).take required.toNat :=
  countEmptyFatSlotsLoop_eq f required _ [] (Nat.zero_le _)

/-! ## The number of clusters of a file -/

/-- `ceil(n / 2048)` over the integers. -/
def clusterCount (n : UInt32) : Nat := (n.toNat + 2047) / 2048

theorem ceil_div (m : Nat) : ceil ((m : ℚ) / 2048) = UInt8.ofNat ((m + 2047) / 2048) := by
  have hfloor : ⌊(m : ℚ) / 2048⌋ = ((m / 2048 : Nat) : Int) := by
    have h := Rat.floor_natCast_div_natCast m 2048
    exact_mod_cast h
  have hofInt : ∀ k : Nat, UInt8.ofInt (k : Int) = UInt8.ofNat k := fun k => by
    apply UInt8.toNat_inj.mp
    simp only [UInt8.ofInt, UInt8.toNat_ofNat']
    omega
  rw [ceil, hfloor]
  by_cases hdvd : m % 2048 = 0
  · have hexact : (((m / 2048 : Nat) : Int) : ℚ) = (m : ℚ) / 2048 := by
      have hm : (m : ℚ) = ((m / 2048 : Nat) : ℚ) * 2048 := by
        exact_mod_cast (by omega : m = m / 2048 * 2048)
      rw [eq_div_iff (by norm_num), Int.cast_natCast]
      exact hm.symm
    rw [if_pos hexact, hofInt]
    congr 1
    omega
  · have hround : ¬ (((m / 2048 : Nat) : Int) : ℚ) = (m : ℚ) / 2048 := by
      intro h
      have hm : ((m / 2048 : Nat) : ℚ) * 2048 = (m : ℚ) := by
        have h' : ((m / 2048 : Nat) : ℚ) = (m : ℚ) / 2048 := by exact_mod_cast h
        rw [h']
        norm_num
      have hnat : m / 2048 * 2048 = m := by exact_mod_cast hm
      omega
    rw [if_neg hround, show ((m / 2048 : Nat) : Int) + 1 = ((m / 2048 + 1 : Nat) : Int) by rfl,
      hofInt]
    congr 1
    omega

/-- Sizes below 2^24 are exact in `float`, so `ceil` counts clusters modulo 256. -/
theorem ceil_floatClusters {n : UInt32} (h : n.toNat < 2 ^ 24) :
    ceil (floatClusters n) = UInt8.ofNat (clusterCount n) := by
  rw [floatClusters, Rounding.roundToEven_of_lt h, ceil_div, clusterCount]

end Fat32
end OS2024
