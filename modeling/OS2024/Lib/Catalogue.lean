import Mathlib.Data.Prod.Basic
import Mathlib.Logic.Function.Basic
import Mathlib.Tactic.Common

/-!
# Catalogues with limited room

A catalogue holds values under keys in several directories.  Every directory has room for
a number of further entries, and all entries share the free space.  It forgets in which
order the entries came and where they are stored.

**Results.**
* `insert_comm`: entries under different keys can be inserted in either order.
* `Admits.swap`: if the catalogue admits one entry after the other, it also admits them in
  the other order.
-/

namespace OS2024

/-- What the directories `D` hold under the keys `K`, and what they can still take. -/
@[ext]
structure Catalogue (D K V : Type) where
  look : D → K → Option V
  room : D → Nat
  free : Nat

namespace Catalogue

/-- A value to be inserted and the space that it takes. -/
structure Entry (D K V : Type) where
  dir : D
  key : K
  value : V
  cost : Nat

variable {D K V : Type}

/-- The catalogue can take the entry. -/
structure Admits (c : Catalogue D K V) (e : Entry D K V) : Prop where
  fresh : c.look e.dir e.key = none
  room : 0 < c.room e.dir
  space : e.cost ≤ c.free

/-- The entries are about different places. -/
def Apart (e e' : Entry D K V) : Prop := ¬(e.dir = e'.dir ∧ e.key = e'.key)

theorem Apart.symm {e e' : Entry D K V} (h : Apart e e') : Apart e' e :=
  fun he => h ⟨he.1.symm, he.2.symm⟩

variable [DecidableEq D] [DecidableEq K]

/-- The catalogue with one more entry. -/
def insert (c : Catalogue D K V) (e : Entry D K V) : Catalogue D K V where
  look d k := if d = e.dir ∧ k = e.key then some e.value else c.look d k
  room := Function.update c.room e.dir (c.room e.dir - 1)
  free := c.free - e.cost

variable {c : Catalogue D K V} {e e' : Entry D K V}

@[simp] theorem look_insert_self : (c.insert e).look e.dir e.key = some e.value := by
  simp [insert]

theorem look_insert_of_ne {d : D} {k : K} (h : ¬(d = e.dir ∧ k = e.key)) :
    (c.insert e).look d k = c.look d k := by
  simp [insert, h]

@[simp] theorem room_insert_self : (c.insert e).room e.dir = c.room e.dir - 1 := by
  simp [insert]

theorem room_insert_of_ne {d : D} (h : d ≠ e.dir) : (c.insert e).room d = c.room d := by
  simp [insert, h]

@[simp] theorem free_insert : (c.insert e).free = c.free - e.cost := rfl

/-- An insertion leaves no more room than there was. -/
theorem room_insert_le (d : D) : (c.insert e).room d ≤ c.room d := by
  by_cases h : d = e.dir
  · subst h
    simp
  · simp [room_insert_of_ne h]

/-- Insertions under different keys commute. -/
theorem insert_comm (h : Apart e e') : (c.insert e).insert e' = (c.insert e').insert e := by
  ext1
  · funext d k
    by_cases he : d = e.dir ∧ k = e.key
    · obtain ⟨rfl, rfl⟩ := he
      rw [look_insert_of_ne h, look_insert_self, look_insert_self]
    · by_cases he' : d = e'.dir ∧ k = e'.key
      · obtain ⟨rfl, rfl⟩ := he'
        rw [look_insert_of_ne he, look_insert_self, look_insert_self]
      · simp [look_insert_of_ne, he, he']
  · funext d
    by_cases hd : d = e.dir
    · by_cases hd' : d = e'.dir
      · simp [insert, ← hd, ← hd']
      · subst hd
        simp [room_insert_of_ne, hd']
    · by_cases hd' : d = e'.dir
      · subst hd'
        simp [room_insert_of_ne, hd]
      · simp [room_insert_of_ne, hd, hd']
  · simp [Nat.sub_right_comm]

/-- What is admitted in one order is admitted in the other. -/
theorem Admits.swap (h : Apart e e') (he : c.Admits e) (he' : (c.insert e).Admits e') :
    c.Admits e' ∧ (c.insert e').Admits e := by
  have hfresh := he'.fresh
  have hspace := he'.space
  rw [look_insert_of_ne fun hk => h ⟨hk.1.symm, hk.2.symm⟩] at hfresh
  rw [free_insert] at hspace
  have hroom : 0 < c.room e'.dir := Nat.lt_of_lt_of_le he'.room (room_insert_le _)
  have hcost := he.space
  refine ⟨⟨hfresh, hroom, by omega⟩, ?_, ?_, ?_⟩
  · rw [look_insert_of_ne h, he.fresh]
  · -- both entries may go to the same directory
    by_cases hd : e.dir = e'.dir
    · have htwo := he'.room
      rw [← hd, room_insert_self] at htwo
      rw [hd, room_insert_self, ← hd]
      exact htwo
    · rw [room_insert_of_ne hd]
      exact he.room
  · rw [free_insert]
    omega

end Catalogue
end OS2024
