import Mathlib.Data.Set.Basic
import Mathlib.Logic.Function.Basic
import Mathlib.Tactic.Common

/-!
# Cabinets

A cabinet has drawers, and a drawer holds papers and further drawers under keys.  Two keys of a
drawer are taken by its own labels.  A drawer has room for a number of further items, and all items
share the free space.

An edit puts one item into a drawer or takes one out.  Only an empty drawer can be taken out.

**Results.**
* `Admits.keeps`: an item stays in its place unless the edit takes it out.
-/

namespace OS2024

/-- What is found under a key. -/
inductive Item (D V : Type)
  | drawer (d : D)
  | paper (v : V)

@[ext]
structure Drawer (D K V : Type) where
  label : K
  above : K
  room : Nat
  look : K → Option (Item D V)

@[ext]
structure Cabinet (D K V : Type) where
  drawer : D → Option (Drawer D K V)
  free : Nat

variable {D K V : Type}

namespace Drawer

/-- The keys that the labels take. -/
def Labelled (w : Drawer D K V) (k : K) : Prop := k = w.label ∨ k = w.above

def Empty (w : Drawer D K V) : Prop := ∀ k, w.look k = none

variable [DecidableEq K]

def put (w : Drawer D K V) (k : K) (item : Item D V) : Drawer D K V :=
  { w with room := w.room - 1, look := Function.update w.look k (some item) }

def take (w : Drawer D K V) (k : K) : Drawer D K V :=
  { w with room := w.room + 1, look := Function.update w.look k none }

end Drawer

namespace Cabinet

/-- What the drawer `d` has under the key `k`. -/
def look (c : Cabinet D K V) (d : D) (k : K) : Option (Item D V) :=
  (c.drawer d).bind fun w => w.look k

/-- A change of the cabinet; a new drawer comes with its labels. -/
inductive Edit (D K V : Type)
  | putPaper (d : D) (k : K) (v : V)
  | putDrawer (d : D) (k : K) (new : D) (label above : K)
  | take (d : D) (k : K)

section Looking

variable {c : Cabinet D K V} {d : D} {k : K}

theorem look_of_drawer
    {w : Drawer D K V}
    (h : c.drawer d = some w) :
    c.look d k = w.look k := by
  rw [look, h, Option.bind_some]

theorem look_of_no_drawer
    (h : c.drawer d = none) :
    c.look d k = none := by
  rw [look, h, Option.bind_none]

/-- The free space has no part in what is found. -/
@[simp] theorem look_withFree (c : Cabinet D K V) (n : Nat) :
    ({ c with free := n } : Cabinet D K V).look = c.look := rfl

end Looking

section Operations

variable [DecidableEq D] [DecidableEq K]

/-- The drawer `d` changed by `f`. -/
def change (c : Cabinet D K V) (d : D) (f : Drawer D K V → Drawer D K V) : Cabinet D K V :=
  { c with drawer := Function.update c.drawer d ((c.drawer d).map f) }

/-- The cabinet with a drawer more, or with one less. -/
def withDrawer (c : Cabinet D K V) (d : D) (w : Option (Drawer D K V)) : Cabinet D K V :=
  { c with drawer := Function.update c.drawer d w }

variable (size : V → Nat) (capacity : Nat)

/-- The space that an item takes. -/
def cost : Item D V → Nat
  | .drawer _ => 1
  | .paper v => size v

/-- A drawer is thrown away together with its item. -/
def dispose (c : Cabinet D K V) : Item D V → Cabinet D K V
  | .drawer d => c.withDrawer d none
  | .paper _ => c

/-- The cabinet without the item under a key. -/
def remove (c : Cabinet D K V) (d : D) (k : K) (item : Item D V) : Cabinet D K V :=
  { (c.dispose item).change d (·.take k) with free := c.free + cost size item }

def apply (c : Cabinet D K V) : Edit D K V → Cabinet D K V
  | .putPaper d k v => { c.change d (·.put k (.paper v)) with free := c.free - size v }
  | .putDrawer d k new label above =>
      { (c.change d (·.put k (.drawer new))).withDrawer new
          (some ⟨label, above, capacity, fun _ => none⟩) with free := c.free - 1 }
  | .take d k => (c.look d k).elim c (c.remove size d k)

/-- The cabinet allows the edit. -/
inductive Admits (c : Cabinet D K V) : Edit D K V → Prop
  | putPaper {d : D} {k : K} {v : V} (w : Drawer D K V) (drawer : c.drawer d = some w)
      (fresh : w.look k = none) (room : 0 < w.room) (space : size v ≤ c.free) :
      Admits c (.putPaper d k v)
  | putDrawer {d : D} {k : K} {new : D} {label above : K} (w : Drawer D K V)
      (drawer : c.drawer d = some w) (fresh : w.look k = none) (room : 0 < w.room)
      (space : 1 ≤ c.free) (newDrawer : c.drawer new = none) :
      Admits c (.putDrawer d k new label above)
  | takePaper {d : D} {k : K} {v : V} (look : c.look d k = some (.paper v)) :
      Admits c (.take d k)
  | takeDrawer {d : D} {k : K} {x : D} (w : Drawer D K V)
      (look : c.look d k = some (.drawer x)) (drawer : c.drawer x = some w) (empty : w.Empty)
      (other : x ≠ d) : Admits c (.take d k)

variable {size capacity} {c : Cabinet D K V} {d : D} {k : K} {item : Item D V}

omit [DecidableEq K] in
@[simp] theorem drawer_change
    (c : Cabinet D K V)
    (d x : D)
    (f : Drawer D K V → Drawer D K V) :
    (c.change d f).drawer x = if x = d then (c.drawer d).map f else c.drawer x :=
  Function.update_apply ..

omit [DecidableEq K] in
@[simp] theorem drawer_withDrawer
    (c : Cabinet D K V)
    (d x : D)
    (w : Option (Drawer D K V)) :
    (c.withDrawer d w).drawer x = if x = d then w else c.drawer x :=
  Function.update_apply ..

theorem look_put
    (c : Cabinet D K V)
    (d : D)
    (k : K)
    (item : Item D V)
    (x : D)
    (y : K) :
    (c.change d (·.put k item)).look x y =
      if x = d ∧ y = k ∧ (c.drawer d).isSome then some item else c.look x y := by
  rw [look, drawer_change]
  by_cases hx : x = d
  · subst hx
    cases hw : c.drawer x with
    | none => simp [look, hw]
    | some w =>
        by_cases hy : y = k
        · simp [hy, Drawer.put]
        · simp [hy, look, hw, Drawer.put]
  · simp [hx, look]

theorem look_take
    (c : Cabinet D K V)
    (d : D)
    (k : K)
    (x : D)
    (y : K) :
    (c.change d (·.take k)).look x y = if x = d ∧ y = k then none else c.look x y := by
  rw [look, drawer_change]
  by_cases hx : x = d
  · subst hx
    cases hw : c.drawer x with
    | none => simp [look, hw]
    | some w =>
        by_cases hy : y = k
        · simp [hy, Drawer.take]
        · simp [hy, look, hw, Drawer.take]
  · simp [hx, look]

omit [DecidableEq K] in
theorem look_withDrawer
    (c : Cabinet D K V)
    (d : D)
    (w : Option (Drawer D K V))
    (x : D)
    (y : K) :
    (c.withDrawer d w).look x y = if x = d then w.bind (·.look y) else c.look x y := by
  rw [look, drawer_withDrawer]
  split_ifs
  · rfl
  · rfl

/-- **An item stays in its place unless the edit takes it out.** -/
theorem Admits.keeps
    {e : Edit D K V}
    (h : Admits size c e)
    (hlook : c.look d k = some item)
    (hne : e ≠ .take d k) :
    (c.apply size capacity e).look d k = some item := by
  cases h with
  | @putPaper p key v w drawer fresh room space =>
      rw [apply, look_withFree, look_put, if_neg, hlook]
      rintro ⟨rfl, rfl, -⟩
      rw [look_of_drawer drawer, fresh] at hlook
      cases hlook
  | @putDrawer p key new label above w drawer fresh room space newDrawer =>
      have hnew : d ≠ new := by
        rintro rfl
        rw [look_of_no_drawer newDrawer] at hlook
        cases hlook
      rw [apply, look_withFree, look_withDrawer, if_neg hnew, look_put, if_neg, hlook]
      rintro ⟨rfl, rfl, -⟩
      rw [look_of_drawer drawer, fresh] at hlook
      cases hlook
  | @takePaper p key v look =>
      rw [apply, look, Option.elim_some, remove, look_withFree, look_take, if_neg]
      · exact hlook
      · rintro ⟨rfl, rfl⟩
        exact hne rfl
  | @takeDrawer p key x w look drawer empty other =>
      have hx : d ≠ x := by
        rintro rfl
        rw [look_of_drawer drawer, empty] at hlook
        cases hlook
      rw [apply, look, Option.elim_some, remove, look_withFree, look_take, if_neg]
      · rw [dispose, look_withDrawer, if_neg hx, hlook]
      · rintro ⟨rfl, rfl⟩
        exact hne rfl

end Operations

end Cabinet
end OS2024
