import Mathlib.Tactic.Common

/-!
# Runs of a guarded deterministic system

A system in state `s` may take the step labelled `a` when the guard `admits s a`
holds, and is then in state `after s a`.  `Reached` collects the states of all
finite runs from an initial state.

**Results.**
* `Reached.invariant`: the induction rule for invariants.
* `Reached.mono`: a weaker guard reaches at least as many states.
* `Reached.trans`: runs go on where others end.
* `Along.keeps`: an invariant holds to the end of a run of admitted steps.
* `prefixes_iff_along`: what an admitted step keeps and any other violates holds all along
  a run exactly if all its steps were admitted.
* `along_or_broken`: what every admitted step keeps, and any other step breaks for good,
  holds after a run exactly if all its steps were admitted.
-/

namespace OS2024
namespace Runs

universe u v

variable {σ : Type u} {α : Type v}

/-- States reached from `init` by finitely many admitted steps. -/
inductive Reached (init : σ → Prop) (admits : σ → α → Prop) (after : σ → α → σ) : σ → Prop
  | start {s : σ} : init s → Reached init admits after s
  | step {s : σ} {a : α} :
      Reached init admits after s → admits s a → Reached init admits after (after s a)

variable {init : σ → Prop} {admits admits' : σ → α → Prop} {after : σ → α → σ}

/-- What holds initially and is kept by every admitted step holds in every run. -/
theorem Reached.invariant {P : σ → Prop} {s : σ}
    (h : Reached init admits after s)
    (hinit : ∀ s, init s → P s)
    (hstep : ∀ s a, P s → admits s a → P (after s a)) :
    P s := by
  induction h with
  | start hs => exact hinit _ hs
  | step _ ha ih => exact hstep _ _ ih ha

/-- Weakening the guard, if need be only on reached states, keeps every run. -/
theorem Reached.mono {s : σ}
    (h : Reached init admits after s)
    (hle : ∀ s a, Reached init admits after s → admits s a → admits' s a) :
    Reached init admits' after s := by
  induction h with
  | start hs => exact Reached.start hs
  | step hs ha ih => exact Reached.step ih (hle _ _ hs ha)

/-- A run that starts where another one ends goes on with it. -/
theorem Reached.trans {s s' : σ}
    (h : Reached init admits after s)
    (h' : Reached (fun x => x = s) admits after s') :
    Reached init admits after s' := by
  induction h' with
  | start hs => rwa [hs]
  | step _ ha ih => exact Reached.step ih ha

/-- Every step of the run `as` from `s` is admitted. -/
def Along (admits : σ → α → Prop) (after : σ → α → σ) : σ → List α → Prop
  | _, [] => True
  | s, a :: as => admits s a ∧ Along admits after (after s a) as

/-- Whether all steps of a run are admitted can be decided step by step. -/
instance Along.decidable [∀ s a, Decidable (admits s a)] (s : σ) (as : List α) :
    Decidable (Along admits after s as) :=
  match as with
  | [] => isTrue trivial
  | a :: as =>
      have := Along.decidable (after s a) as
      inferInstanceAs (Decidable (admits s a ∧ Along admits after (after s a) as))

/-- A run of steps that are admitted is one of steps that are admitted under less. -/
theorem Along.mono {admits' : σ → α → Prop} {s : σ} {as : List α}
    (h : Along admits after s as)
    (hle : ∀ s a, admits s a → admits' s a) :
    Along admits' after s as := by
  induction as generalizing s with
  | nil => trivial
  | cons a as ih => exact ⟨hle s a h.1, ih h.2⟩

section Prefixes

variable {P Q : σ → Prop}

theorem along_append {s : σ} {as bs : List α} :
    Along admits after s (as ++ bs) ↔
      Along admits after s as ∧ Along admits after (as.foldl after s) bs := by
  induction as generalizing s with
  | nil => simp [Along]
  | cons a as ih => simp [Along, ih, and_assoc]

/-- An invariant of the admitted steps holds to the end of a run of them. -/
theorem Along.keeps {s : σ} {as : List α}
    (hgood : ∀ s a, P s → admits s a → P (after s a))
    (hs : P s)
    (h : Along admits after s as) :
    P (as.foldl after s) := by
  induction as generalizing s with
  | nil => exact hs
  | cons a as ih => exact ih (hgood s a hs h.1) h.2

/-- A run of admitted steps from a state that is reached leads to one. -/
theorem Reached.along {s : σ} {as : List α}
    (h : Reached init admits after s)
    (has : Along admits after s as) :
    Reached init admits after (as.foldl after s) :=
  has.keeps (fun _ _ hs ha => Reached.step hs ha) h

/-- What holds wherever the invariant does, and is violated by every step that is not
admitted, holds all along a run exactly if all its steps were admitted. -/
theorem prefixes_iff_along {s : σ} {as : List α}
    (hgood : ∀ s a, P s → admits s a → P (after s a))
    (hbad : ∀ s a, P s → ¬ admits s a → ¬ Q (after s a))
    (hPQ : ∀ s, P s → Q s)
    (hs : P s) :
    (∀ bs, bs <+: as → Q (bs.foldl after s)) ↔ Along admits after s as := by
  constructor
  · intro h
    induction as generalizing s with
    | nil => trivial
    | cons a as ih =>
        have ha : admits s a := by
          by_contra hno
          exact hbad s a hs hno (h [a] ⟨as, rfl⟩)
        refine ⟨ha, ih (hgood s a hs ha) fun bs hbs => ?_⟩
        exact h (a :: bs) (List.cons_prefix_cons.mpr ⟨rfl, hbs⟩)
  · rintro h bs ⟨cs, rfl⟩
    exact hPQ _ (Along.keeps hgood hs (along_append.mp h).1)

end Prefixes

section Irreparable

variable {P B : σ → Prop}

/-- What is broken stays broken to the end of the run. -/
theorem broken_foldl {s : σ} {as : List α}
    (hbroken : ∀ s a, B s → B (after s a))
    (hs : B s) :
    B (as.foldl after s) := by
  induction as generalizing s with
  | nil => exact hs
  | cons a as ih => exact ih (hbroken s a hs)

/-- A run of admitted steps keeps the invariant; any other run breaks it for good. -/
theorem along_or_broken {s : σ} {as : List α}
    (hgood : ∀ s a, P s → admits s a → P (after s a))
    (hbad : ∀ s a, P s → ¬ admits s a → B (after s a))
    (hbroken : ∀ s a, B s → B (after s a))
    (hs : P s) :
    (Along admits after s as ∧ P (as.foldl after s)) ∨
      (¬ Along admits after s as ∧ B (as.foldl after s)) := by
  induction as generalizing s with
  | nil => exact Or.inl ⟨trivial, hs⟩
  | cons a as ih =>
      by_cases ha : admits s a
      · rcases ih (hgood s a hs ha) with ⟨halong, hP⟩ | ⟨halong, hB⟩
        · exact Or.inl ⟨⟨ha, halong⟩, hP⟩
        · exact Or.inr ⟨fun h => halong h.2, hB⟩
      · have hB : B (as.foldl after (after s a)) := broken_foldl hbroken (hbad s a hs ha)
        exact Or.inr ⟨fun h => ha h.1, hB⟩

/-- The same for a property that holds where the invariant does and fails where it is
broken. -/
theorem foldl_iff_along {Q : σ → Prop} {s : σ} {as : List α}
    (hgood : ∀ s a, P s → admits s a → P (after s a))
    (hbad : ∀ s a, P s → ¬ admits s a → B (after s a))
    (hbroken : ∀ s a, B s → B (after s a))
    (hPQ : ∀ s, P s → Q s)
    (hBQ : ∀ s, B s → ¬ Q s)
    (hs : P s) :
    Q (as.foldl after s) ↔ Along admits after s as := by
  rcases along_or_broken hgood hbad hbroken hs with ⟨halong, hP⟩ | ⟨halong, hB⟩
  · exact ⟨fun _ => halong, fun _ => hPQ _ hP⟩
  · exact ⟨fun hQ => absurd hQ (hBQ _ hB), fun h => absurd h halong⟩

end Irreparable

end Runs
end OS2024
