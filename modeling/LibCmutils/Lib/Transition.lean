import Mathlib.Data.List.Induction
import Mathlib.Logic.Relation

/-!
Transition systems with a partial step function.

* `TransitionSystem`: the start states and the step function; a step that is not
  enabled is `none`.
* `ReachableBy`: the states reached by runs all of whose steps meet a condition,
  and `Reachable`, the states reached by any run.
* `ReachableBy.invariant`: what holds at the start and is kept by every step of
  that kind holds in every state reached.
* `run`: the state after a list of actions; `Reachable.run` says that it is
  reached. `run_induction`: the invariant rule for what a run has done so far.
* `Throughout`, `Meets`: a property of every state of a run, a condition on every step.
  `throughout_iff_meets`: the two say the same when the condition is exact.
-/

namespace LibCmutils

universe u v

/-- A transition system: start states, and what a step does to a state. -/
structure TransitionSystem (State : Type u) (Action : Type v) where
  init : State → Prop
  step : State → Action → Option State

namespace TransitionSystem

variable {State : Type u} {Action : Type v} (sys : TransitionSystem State Action)

/-- The states reached by a run from a start state, every step of which meets
the condition `C` in the state it is taken from. -/
inductive ReachableBy (C : State → Action → Prop) : State → Prop where
  | init {s : State} : sys.init s → ReachableBy C s
  | step {s s' : State} (a : Action) :
      ReachableBy C s → C s a → sys.step s a = some s' → ReachableBy C s'

/-- The states reached by a run from a start state. -/
def Reachable : State → Prop := sys.ReachableBy fun _ _ => True

/-- The state after a list of actions, `none` if one of them is not enabled. -/
def run : State → List Action → Option State
  | s, [] => some s
  | s, a :: actions => (sys.step s a).bind fun s' => run s' actions

variable {sys} {C : State → Action → Prop} {P : State → Prop} {s s' : State}

/-- The invariant rule for runs under a condition. -/
theorem ReachableBy.invariant (h : sys.ReachableBy C s) (hinit : ∀ s, sys.init s → P s)
    (hstep : ∀ s a s', P s → C s a → sys.step s a = some s' → P s') : P s := by
  induction h with
  | init hs => exact hinit _ hs
  | step a _ hc hs ih => exact hstep _ a _ ih hc hs

/-- The invariant rule. -/
theorem Reachable.invariant (h : sys.Reachable s) (hinit : ∀ s, sys.init s → P s)
    (hstep : ∀ s a s', P s → sys.step s a = some s' → P s') : P s :=
  ReachableBy.invariant h hinit fun s a s' hp _ hs => hstep s a s' hp hs

/-- A run under a condition is a run. -/
lemma ReachableBy.reachable (h : sys.ReachableBy C s) : sys.Reachable s := by
  induction h with
  | init hs => exact .init hs
  | step a _ _ hs ih => exact .step a ih trivial hs

lemma Reachable.start (h : sys.init s) : sys.Reachable s := ReachableBy.init h

lemma Reachable.next (a : Action) (h : sys.Reachable s) (hs : sys.step s a = some s') :
    sys.Reachable s' := ReachableBy.step a h trivial hs

lemma Reachable.run {actions : List Action} (h : sys.Reachable s)
    (hrun : sys.run s actions = some s') : sys.Reachable s' := by
  induction actions generalizing s with
  | nil =>
      obtain rfl : s = s' := Option.some.inj hrun
      exact h
  | cons a actions ih =>
      obtain ⟨s₁, hs, hrest⟩ := Option.bind_eq_some_iff.mp hrun
      exact ih (h.next a hs) hrest

/-- What is left of a run is reached, also when one of its actions is not enabled. -/
lemma Reachable.run_getD (actions : List Action) (h : sys.Reachable s) :
    sys.Reachable ((sys.run s actions).getD s) := by
  cases hrun : sys.run s actions with
  | none => exact h
  | some s' => exact h.run hrun

lemma run_append (s : State) (as bs : List Action) :
    sys.run s (as ++ bs) = (sys.run s as).bind fun s' => sys.run s' bs := by
  induction as generalizing s with
  | nil => rfl
  | cons a as ih =>
      rw [List.cons_append, TransitionSystem.run, TransitionSystem.run, Option.bind_assoc]
      exact congrArg _ (funext ih)

lemma run_concat (s : State) (as : List Action) (a : Action) :
    sys.run s (as ++ [a]) = (sys.run s as).bind fun s' => sys.step s' a := by
  rw [run_append]
  congr 1
  funext s'
  simp [TransitionSystem.run]

/-- The invariant rule for a relation between the actions so far and the state. -/
theorem run_induction {R : List Action → State → Prop} {s₀ : State} {actions : List Action}
    (hrun : sys.run s₀ actions = some s) (hinit : R [] s₀)
    (hstep : ∀ as s a s', R as s → sys.step s a = some s' → R (as ++ [a]) s') : R actions s := by
  induction actions using List.reverseRecOn generalizing s with
  | nil =>
      obtain rfl : s₀ = s := Option.some.inj hrun
      exact hinit
  | append_singleton as a ih =>
      rw [run_concat] at hrun
      obtain ⟨s₁, hs₁, hs⟩ := Option.bind_eq_some_iff.mp hrun
      exact hstep as s₁ a s (ih hs₁) hs

/-! ### Properties of a run -/

variable (sys)

/-- Every state of the run has the property. -/
def Throughout (P : State → Prop) (s₀ : State) (actions : List Action) : Prop :=
  ∀ pre s, pre <+: actions → sys.run s₀ pre = some s → P s

/-- Every step of the run meets the condition. -/
def Meets (C : State → Action → Prop) (s₀ : State) (actions : List Action) : Prop :=
  ∀ pre a s, pre ++ [a] <+: actions → sys.run s₀ pre = some s → C s a

variable {sys} {s₀ : State} {actions : List Action}

lemma Throughout.of_prefix {pre : List Action} (h : sys.Throughout P s₀ actions)
    (hpre : pre <+: actions) : sys.Throughout P s₀ pre :=
  fun pre' s hpre' => h pre' s (hpre'.trans hpre)

lemma Meets.of_prefix {pre : List Action} (h : sys.Meets C s₀ actions) (hpre : pre <+: actions) :
    sys.Meets C s₀ pre :=
  fun pre' a s hpre' => h pre' a s (hpre'.trans hpre)

/-- The condition on a run that is one step longer. -/
lemma meets_concat {a : Action} (hrun : sys.run s₀ actions = some s) :
    sys.Meets C s₀ (actions ++ [a]) ↔ sys.Meets C s₀ actions ∧ C s a := by
  constructor
  · exact fun h => ⟨h.of_prefix (List.prefix_append _ _), h actions a s List.prefix_rfl hrun⟩
  · rintro ⟨h, hc⟩ pre a' t hpre ht
    rcases List.prefix_concat_iff.mp hpre with heq | hpre
    · obtain ⟨rfl, hcons⟩ := List.append_inj' heq rfl
      obtain rfl := List.head_eq_of_cons_eq hcons
      obtain rfl : s = t := Option.some.inj (hrun.symm.trans ht)
      exact hc
    · exact h pre a' t hpre ht

/-- The state after a run whose steps meet the condition. -/
lemma Meets.reachableBy (h : sys.Meets C s₀ actions) (hinit : sys.init s₀)
    (hrun : sys.run s₀ actions = some s) : sys.ReachableBy C s := by
  induction actions using List.reverseRecOn generalizing s with
  | nil =>
      obtain rfl : s₀ = s := Option.some.inj hrun
      exact .init hinit
  | append_singleton as a ih =>
      rw [run_concat] at hrun
      obtain ⟨s₁, hs₁, hs⟩ := Option.bind_eq_some_iff.mp hrun
      exact .step a (ih (h.of_prefix (List.prefix_append _ _)) hs₁)
        (h as a s₁ List.prefix_rfl hs₁) hs

/-- **An exact condition.** If runs whose steps meet the condition have the property, and
the first step that does not meet it loses the property, then a run has the property
throughout exactly when its steps meet the condition. -/
theorem throughout_iff_meets (hinit : sys.init s₀) (hgood : ∀ s, sys.ReachableBy C s → P s)
    (hbad : ∀ s a s', sys.ReachableBy C s → sys.step s a = some s' → ¬ C s a → ¬ P s')
    (hrun : sys.run s₀ actions = some s) :
    sys.Throughout P s₀ actions ↔ sys.Meets C s₀ actions := by
  constructor
  · intro h
    induction actions using List.reverseRecOn generalizing s with
    | nil =>
        intro pre a s hpre
        exact absurd (List.prefix_nil.mp hpre) (by simp)
    | append_singleton as a ih =>
        rw [run_concat] at hrun
        obtain ⟨s₁, hs₁, hs⟩ := Option.bind_eq_some_iff.mp hrun
        have has := ih hs₁ (h.of_prefix (List.prefix_append _ _))
        refine (meets_concat hs₁).mpr ⟨has, ?_⟩
        by_contra hc
        refine hbad s₁ a s (has.reachableBy hinit hs₁) hs hc (h _ s List.prefix_rfl ?_)
        rw [run_concat, hs₁, Option.bind_some, hs]
  · intro h pre t hpre ht
    exact hgood t ((h.of_prefix hpre).reachableBy hinit ht)

end TransitionSystem

end LibCmutils
