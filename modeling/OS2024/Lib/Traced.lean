import Mathlib.Tactic.Common

/-!
# Fallible state transformers with a trace of events

A computation of `Traced ε σ ω α` runs from a state, ends with a result or a fault, and
issues a list of events.  A fault keeps the state and the events issued before it, so
that the damage done by a faulting run can still be inspected.

**Results.**
* `bind_apply`: running a sequence, in a form that `simp` evaluates.
* `Keeps.bind`: computations that leave a part of the state alone compose.
* `Observes.bind`: computations that only look at the state compose.
* `Emits.bind`: so do computations all of whose events have a property.
* `Ensures.bind`: the rule for pre- and postconditions.
* `Ends.bind`: the rule for how a run ends, whatever its events.
* `Effected.bind`, `Effected.of_trace_nil`: the rules for computations whose events
  account for all that they do to a component of the state.
* `Commits.bind`, `Returns.commits`: the rules for computations that change something only
  when they succeed.
* `each_concat`: a loop over a list, unrolled at its end.
* `each_range_states`: a loop that goes from state to state.
-/

namespace OS2024
namespace TracedState

universe u

/-- How a run ended: its result or fault, its final state, the events it issued. -/
structure Outcome (ε σ ω : Type) (α : Type) where
  result : Except ε α
  state : σ
  trace : List ω

/-- Computations on states `σ` with faults `ε` and events `ω`. -/
def Traced (ε σ ω : Type) (α : Type) : Type := σ → Outcome ε σ ω α

variable {ε σ ω α β : Type}

/-- Put events that were issued earlier in front of a trace. -/
def Outcome.prepend (w : List ω) (o : Outcome ε σ ω α) : Outcome ε σ ω α :=
  { o with trace := w ++ o.trace }

@[simp] theorem Outcome.prepend_result (w : List ω) (o : Outcome ε σ ω α) :
    (o.prepend w).result = o.result := rfl

@[simp] theorem Outcome.prepend_state (w : List ω) (o : Outcome ε σ ω α) :
    (o.prepend w).state = o.state := rfl

@[simp] theorem Outcome.prepend_trace (w : List ω) (o : Outcome ε σ ω α) :
    (o.prepend w).trace = w ++ o.trace := rfl

instance : Monad (Traced ε σ ω) where
  pure a := fun s => ⟨.ok a, s, []⟩
  bind x f := fun s =>
    match x s with
    | ⟨.ok a, s', w⟩ => (f a s').prepend w
    | ⟨.error e, s', w⟩ => ⟨.error e, s', w⟩

/-- The current state. -/
def getState : Traced ε σ ω σ := fun s => ⟨.ok s, s, []⟩

/-- Change the state. -/
def modifyState (f : σ → σ) : Traced ε σ ω Unit := fun s => ⟨.ok (), f s, []⟩

/-- Stop with a fault. -/
def fault (e : ε) : Traced ε σ ω α := fun s => ⟨.error e, s, []⟩

@[simp] theorem pure_apply (a : α) (s : σ) :
    (pure a : Traced ε σ ω α) s = ⟨.ok a, s, []⟩ := rfl

theorem bind_apply (x : Traced ε σ ω α) (f : α → Traced ε σ ω β) (s : σ) :
    (x >>= f) s =
      match x s with
      | ⟨.ok a, s', w⟩ => (f a s').prepend w
      | ⟨.error e, s', w⟩ => ⟨.error e, s', w⟩ := rfl

theorem bind_of_ok {x : Traced ε σ ω α} {f : α → Traced ε σ ω β} {s s' : σ} {a : α} {w : List ω}
    (h : x s = ⟨.ok a, s', w⟩) : (x >>= f) s = (f a s').prepend w := by
  rw [bind_apply, h]

theorem bind_result_error {x : Traced ε σ ω α} {f : α → Traced ε σ ω β} {s : σ} {e : ε}
    (h : (x s).result = .error e) : ((x >>= f) s).result = .error e := by
  rw [bind_apply]
  rcases hrun : x s with ⟨e' | a, s', w⟩ <;> rw [hrun] at h
  · exact congrArg Except.error (Except.error.inj h)
  · cases h

theorem map_apply (x : Traced ε σ ω α) (f : α → β) (s : σ) :
    (f <$> x) s =
      match x s with
      | ⟨.ok a, s', w⟩ => ⟨.ok (f a), s', w⟩
      | ⟨.error e, s', w⟩ => ⟨.error e, s', w⟩ := by
  show (x >>= fun a => pure (f a)) s = _
  rw [bind_apply]
  rcases x s with ⟨_ | a, s', w⟩
  · rfl
  · simp [Outcome.prepend]

@[simp] theorem getState_apply (s : σ) :
    (getState : Traced ε σ ω σ) s = ⟨.ok s, s, []⟩ := rfl

/-- A computation that first looks at the state. -/
theorem getState_bind (f : σ → Traced ε σ ω α) (s : σ) : (getState >>= f) s = f s s := rfl

@[simp] theorem modifyState_apply (f : σ → σ) (s : σ) :
    (modifyState f : Traced ε σ ω Unit) s = ⟨.ok (), f s, []⟩ := rfl

@[simp] theorem fault_apply (e : ε) (s : σ) :
    (fault e : Traced ε σ ω α) s = ⟨.error e, s, []⟩ := rfl

@[simp] theorem map_state (x : Traced ε σ ω α) (f : α → β) (s : σ) :
    ((f <$> x) s).state = (x s).state := by
  rw [map_apply]
  rcases x s with ⟨_ | a, s', w⟩ <;> rfl

theorem map_result_ok {x : Traced ε σ ω α} {f : α → β} {s : σ} {a : α}
    (h : (x s).result = .ok a) : ((f <$> x) s).result = .ok (f a) := by
  rw [map_apply]
  rcases hrun : x s with ⟨_ | b, s', w⟩ <;> rw [hrun] at h
  · cases h
  · cases h
    rfl

@[simp] theorem map_trace (x : Traced ε σ ω α) (f : α → β) (s : σ) :
    ((f <$> x) s).trace = (x s).trace := by
  rw [map_apply]
  rcases x s with ⟨_ | a, s', w⟩ <;> rfl

section Keepers

variable {δ : Type} {part : σ → δ}

/-- The computation leaves a part of the state alone, also when it faults. -/
def Keeps (part : σ → δ) (x : Traced ε σ ω α) : Prop := ∀ s, part (x s).state = part s

theorem Keeps.pure (a : α) : Keeps part (Pure.pure a : Traced ε σ ω α) := fun _ => rfl

theorem Keeps.bind {x : Traced ε σ ω α} {f : α → Traced ε σ ω β} (hx : Keeps part x)
    (hf : ∀ a, Keeps part (f a)) : Keeps part (x >>= f) := by
  intro s
  have hs := hx s
  rw [bind_apply]
  rcases hrun : x s with ⟨_ | a, s', w⟩ <;> rw [hrun] at hs
  · exact hs
  · exact (hf a s').trans hs

end Keepers

section Observers

/-- The computation leaves the state alone, also when it faults, and issues only events
that satisfy `P`. -/
def Observes (P : ω → Prop) (x : Traced ε σ ω α) : Prop :=
  ∀ s, (x s).state = s ∧ ∀ e, e ∈ (x s).trace → P e

variable {P : ω → Prop}

theorem Observes.of_trace_nil {x : Traced ε σ ω α}
    (h : ∀ s, (x s).state = s ∧ (x s).trace = []) : Observes P x := by
  intro s
  refine ⟨(h s).1, fun e he => ?_⟩
  rw [(h s).2] at he
  cases he

theorem Observes.pure (a : α) : Observes P (Pure.pure a : Traced ε σ ω α) :=
  Observes.of_trace_nil fun _ => ⟨rfl, rfl⟩

theorem Observes.fault (e : ε) : Observes P (fault e : Traced ε σ ω α) :=
  Observes.of_trace_nil fun _ => ⟨rfl, rfl⟩

theorem Observes.bind {x : Traced ε σ ω α} {f : α → Traced ε σ ω β}
    (hx : Observes P x) (hf : ∀ a, Observes P (f a)) : Observes P (x >>= f) := by
  intro s
  have h := hx s
  rw [bind_apply]
  rcases hrun : x s with ⟨_ | a, s', w⟩
  · rwa [hrun] at h
  · rw [hrun] at h
    obtain ⟨hstate, htrace⟩ := hf a s'
    refine ⟨hstate.trans h.1, fun e he => ?_⟩
    rcases List.mem_append.mp he with he | he
    · exact h.2 e he
    · exact htrace e he

end Observers

section Emissions

/-- The computation issues only events that satisfy `P`, whatever it does to the state. -/
def Emits (P : ω → Prop) (x : Traced ε σ ω α) : Prop :=
  ∀ s e, e ∈ (x s).trace → P e

variable {P : ω → Prop}

theorem Emits.of_trace_nil {x : Traced ε σ ω α}
    (h : ∀ s, (x s).trace = []) : Emits P x := by
  intro s e he
  rw [h s] at he
  cases he

theorem Emits.bind {x : Traced ε σ ω α} {f : α → Traced ε σ ω β}
    (hx : Emits P x) (hf : ∀ a, Emits P (f a)) : Emits P (x >>= f) := by
  intro s e he
  have h := hx s e
  rw [bind_apply] at he
  rcases hrun : x s with ⟨_ | a, s', w⟩ <;> rw [hrun] at h he
  · exact h he
  · rcases List.mem_append.mp he with he | he
    · exact h he
    · exact hf a s' e he

end Emissions

section Conditions

/-- From a state with `pre` the computation ends without a fault, issues only events that
satisfy `P`, and its result and final state have `post`. -/
def Ensures (P : ω → Prop) (pre : σ → Prop) (x : Traced ε σ ω α) (post : α → σ → Prop) : Prop :=
  ∀ s, pre s → ∃ a s' w, x s = ⟨.ok a, s', w⟩ ∧ post a s' ∧ ∀ e, e ∈ w → P e

variable {P : ω → Prop} {pre : σ → Prop}

theorem Ensures.bind {mid : α → σ → Prop} {post : β → σ → Prop}
    {x : Traced ε σ ω α} {f : α → Traced ε σ ω β}
    (hx : Ensures P pre x mid) (hf : ∀ a, Ensures P (mid a) (f a) post) :
    Ensures P pre (x >>= f) post := by
  intro s hs
  obtain ⟨a, s₁, w₁, hrun₁, hmid, hw₁⟩ := hx s hs
  obtain ⟨b, s₂, w₂, hrun₂, hpost, hw₂⟩ := hf a s₁ hmid
  refine ⟨b, s₂, w₁ ++ w₂, ?_, hpost, fun e he => ?_⟩
  · rw [bind_apply, hrun₁]
    exact congrArg (Outcome.prepend w₁) hrun₂
  · rcases List.mem_append.mp he with he | he
    · exact hw₁ e he
    · exact hw₂ e he

theorem Ensures.pure {post : α → σ → Prop} (a : α) (h : ∀ s, pre s → post a s) :
    Ensures P pre (Pure.pure a : Traced ε σ ω α) post :=
  fun s hs => ⟨a, s, [], rfl, h s hs, fun _ he => by cases he⟩

theorem Ensures.modifyState {post : Unit → σ → Prop} {g : σ → σ}
    (h : ∀ s, pre s → post () (g s)) :
    Ensures P pre (modifyState g : Traced ε σ ω Unit) post :=
  fun s hs => ⟨(), g s, [], rfl, h s hs, fun _ he => by cases he⟩

/-- Reading the state makes it known. -/
theorem Ensures.getState :
    Ensures P pre (getState : Traced ε σ ω σ) fun a s => a = s ∧ pre s :=
  fun s hs => ⟨s, s, [], rfl, ⟨rfl, hs⟩, fun _ he => by cases he⟩

end Conditions

section Endings

/-- The computation ends in the state `s'` with the result `a`. -/
def Ends (x : Traced ε σ ω α) (s : σ) (a : α) (s' : σ) : Prop :=
  (x s).result = .ok a ∧ (x s).state = s'

/-- The computation ends with a fault. -/
def Faults (x : Traced ε σ ω α) (s : σ) : Prop := ∃ e, (x s).result = .error e

variable {x : Traced ε σ ω α} {f : α → Traced ε σ ω β} {s s' s'' : σ} {a : α} {b : β}

theorem Ends.of_apply {w : List ω} (h : x s = ⟨.ok a, s', w⟩) : Ends x s a s' := by
  rw [Ends, h]
  exact ⟨rfl, rfl⟩

theorem Ends.pure (a : α) (s : σ) : Ends (Pure.pure a : Traced ε σ ω α) s a s := ⟨rfl, rfl⟩

theorem Ends.apply (h : Ends x s a s') : ∃ w, x s = ⟨.ok a, s', w⟩ := by
  obtain ⟨hres, hstate⟩ := h
  rcases hx : x s with ⟨r, s₁, w⟩
  rw [hx] at hres hstate
  exact ⟨w, by rw [show r = .ok a from hres, show s₁ = s' from hstate]⟩

theorem Ends.bind (hx : Ends x s a s') (hf : Ends (f a) s' b s'') : Ends (x >>= f) s b s'' := by
  obtain ⟨w, hw⟩ := hx.apply
  rw [Ends, bind_apply, hw]
  exact hf

theorem Ends.unique {a' : α} (h : Ends x s a s') (h' : Ends x s a' s'') : a = a' ∧ s' = s'' :=
  ⟨Except.ok.inj (h.1.symm.trans h'.1), h.2.symm.trans h'.2⟩

theorem Faults.not_ends (h : Faults x s) : ¬ Ends x s a s' := by
  obtain ⟨e, h⟩ := h
  rintro ⟨hok, -⟩
  rw [h] at hok
  cases hok

theorem Faults.bind (h : Faults x s) : Faults (x >>= f) s := by
  obtain ⟨e, h⟩ := h
  exact ⟨e, bind_result_error h⟩

theorem Ends.of_bind (h : Ends (x >>= f) s b s'') :
    ∃ a s', Ends x s a s' ∧ Ends (f a) s' b s'' := by
  cases hx : (x s).result with
  | ok a =>
      have hends : Ends x s a (x s).state := ⟨hx, rfl⟩
      obtain ⟨w, hw⟩ := hends.apply
      rw [Ends, bind_apply, hw] at h
      exact ⟨a, _, hends, h⟩
  | error e =>
      have hfaults : Faults (x >>= f) s := Faults.bind ⟨e, hx⟩
      exact absurd h hfaults.not_ends

/-- What follows a computation that ends runs behind its events. -/
theorem Ends.prepend {P : ω → Prop} (h : Ends x s a s') (hP : Emits P x)
    (f : α → Traced ε σ ω β) :
    ∃ w, (∀ e, e ∈ w → P e) ∧ (x >>= f) s = (f a s').prepend w := by
  obtain ⟨w, hw⟩ := h.apply
  refine ⟨w, fun e he => hP s e (by rw [hw]; exact he), ?_⟩
  rw [bind_apply, hw]

end Endings

section Effects

variable {δ : Type}

/-- The events of `x` account for all that it does to the component `proj`. -/
def Effected (proj : σ → δ) (act : δ → List ω → δ) (x : Traced ε σ ω α) : Prop :=
  ∀ s, proj (x s).state = act (proj s) (x s).trace

variable {proj : σ → δ} {act : δ → List ω → δ}

theorem Effected.of_trace_nil {x : Traced ε σ ω α} (hnil : ∀ d, act d [] = d)
    (hx : ∀ s, proj (x s).state = proj s ∧ (x s).trace = []) : Effected proj act x := by
  intro s
  rw [(hx s).1, (hx s).2, hnil]

theorem Effected.bind {x : Traced ε σ ω α} {f : α → Traced ε σ ω β}
    (happ : ∀ d w v, act d (w ++ v) = act (act d w) v)
    (hx : Effected proj act x) (hf : ∀ a, Effected proj act (f a)) :
    Effected proj act (x >>= f) := by
  intro s
  have h := hx s
  rw [bind_apply]
  rcases hrun : x s with ⟨_ | a, s', w⟩
  · rw [hrun] at h
    exact h
  · rw [hrun] at h
    show proj (f a s').state = act (proj s) (w ++ (f a s').trace)
    rw [happ, hf a s']
    exact congrArg (fun d => act d (f a s').trace) h

end Effects

section Commitments

variable {P : ω → Prop} {good : α → Prop} {x : Traced ε σ ω α}

/-- Every result of the computation is `good`. -/
def Returns (good : α → Prop) (x : Traced ε σ ω α) : Prop :=
  ∀ s a, (x s).result = .ok a → good a

theorem Returns.pure {a : α} (h : good a) : Returns good (Pure.pure a : Traced ε σ ω α) := by
  intro s b hb
  cases hb
  exact h

/-- The result of a sequence is that of its last part. -/
theorem Returns.bind {good : β → Prop} {f : α → Traced ε σ ω β}
    (hf : ∀ a, Returns good (f a)) : Returns good (x >>= f) := by
  intro s b hb
  rw [bind_apply] at hb
  rcases hrun : x s with ⟨_ | a, s', w⟩ <;> rw [hrun] at hb
  · cases hb
  · exact hf a s' b hb

/-- A run whose result is not `good` leaves the state alone and issues only events that
satisfy `P`. -/
def Commits (P : ω → Prop) (good : α → Prop) (x : Traced ε σ ω α) : Prop :=
  ∀ s a, (x s).result = .ok a → ¬ good a → (x s).state = s ∧ ∀ e, e ∈ (x s).trace → P e

theorem Observes.commits (hx : Observes P x) : Commits P good x := fun s _ _ _ => hx s

theorem Returns.commits (hx : Returns good x) : Commits P good x :=
  fun s a ha hbad => absurd (hx s a ha) hbad

/-- What only looks may come before the part that commits. -/
theorem Commits.bind {good : β → Prop} {f : α → Traced ε σ ω β}
    (hx : Observes P x) (hf : ∀ a, Commits P good (f a)) : Commits P good (x >>= f) := by
  intro s b hb hbad
  have h := hx s
  rw [bind_apply] at hb ⊢
  rcases hrun : x s with ⟨_ | a, s', w⟩ <;> rw [hrun] at h hb
  · cases hb
  · obtain ⟨hstate, htrace⟩ := hf a s' b hb hbad
    refine ⟨hstate.trans h.1, fun e he => ?_⟩
    rcases List.mem_append.mp he with he | he
    · exact h.2 e he
    · exact htrace e he

end Commitments

section Rounds

variable {f : α → Traced ε σ ω Unit} {s : σ}

/-- One round for each entry of a list. -/
def each (f : α → Traced ε σ ω Unit) : List α → Traced ε σ ω Unit
  | [] => pure ()
  | a :: as => do
      f a
      each f as

@[simp] theorem each_nil : each f [] s = ⟨.ok (), s, []⟩ := rfl

/-- The last round comes behind all the others. -/
theorem each_concat (as : List α) (a : α) (s : σ) :
    each f (as ++ [a]) s = (each f as >>= fun _ => f a) s := by
  induction as generalizing s with
  | nil =>
      simp only [List.nil_append, each, bind_apply, pure_apply, Outcome.prepend]
      rcases f a s with ⟨_ | _, s', w⟩ <;> simp
  | cons b as ih =>
      simp only [List.cons_append, each, bind_apply]
      rcases f b s with ⟨_ | _, s', w⟩
      · rfl
      · simp only [ih s', bind_apply]
        rcases each f as s' with ⟨_ | _, s'', w'⟩ <;> simp [Outcome.prepend]

/-- Rounds that go from state to state, without events. -/
theorem each_range_states {g : Nat → Traced ε σ ω Unit} {S : Nat → σ} {n : Nat}
    (h : ∀ i, i < n → g i (S i) = ⟨.ok (), S (i + 1), []⟩) :
    each g (List.range n) (S 0) = ⟨.ok (), S n, []⟩ := by
  induction n with
  | zero => rfl
  | succ n ih =>
      rw [List.range_succ, each_concat, bind_apply, ih fun i hi => h i (Nat.lt_succ_of_lt hi)]
      exact congrArg (Outcome.prepend []) (h n (Nat.lt_succ_self n))

end Rounds

end TracedState
end OS2024
