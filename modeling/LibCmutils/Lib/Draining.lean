import LibCmutils.Lib.Transition

/-!
Transition systems that run down: a phase in which every step leaves less to do.

* `TransitionSystem.RunsDown`: in the states of the phase, every step of some kind keeps the
  phase and makes the measure smaller.
* `RunsDown.length_le`: a run of the phase has no more steps than there is to do.
* `RunsDown.keeps_bound`: what no step of the phase makes greater is bounded by what it was.
* `RunsDown.ends`: when a step is possible until the end, every run can be brought to the end.
-/

namespace LibCmutils

universe u v

namespace TransitionSystem

variable {State : Type u} {Action : Type v} {sys : TransitionSystem State Action}
  {P : State → Prop} {C : Action → Prop} {left : State → ℕ} {s s' : State}

/-- In the phase `P` every step with an action in `C` leaves less to do. -/
def RunsDown (sys : TransitionSystem State Action) (P : State → Prop) (C : Action → Prop)
    (left : State → ℕ) : Prop :=
  ∀ s a s', P s → C a → sys.step s a = some s' → P s' ∧ left s' < left s

namespace RunsDown

/-- A run of the phase has no more steps than there is to do. -/
lemma length_le (h : sys.RunsDown P C left) {actions : List Action} (hs : P s)
    (hactions : ∀ a ∈ actions, C a) (hrun : sys.run s actions = some s') :
    P s' ∧ actions.length + left s' ≤ left s := by
  induction actions generalizing s with
  | nil =>
      obtain rfl : s = s' := Option.some.inj hrun
      exact ⟨hs, by simp⟩
  | cons a actions ih =>
      obtain ⟨s₁, hstep, hrest⟩ := Option.bind_eq_some_iff.mp hrun
      obtain ⟨hs₁, hlt⟩ := h s a s₁ hs (hactions a (by simp)) hstep
      obtain ⟨hs', hle⟩ := ih hs₁ (fun b hb => hactions b (List.mem_cons_of_mem _ hb)) hrest
      refine ⟨hs', ?_⟩
      rw [List.length_cons]
      omega

/-- What no step of the phase makes greater is bounded by what it was. -/
lemma keeps_bound (h : sys.RunsDown P C left) {f : State → ℕ}
    (hf : ∀ s a s', P s → C a → sys.step s a = some s' → f s' ≤ f s) {actions : List Action}
    (hs : P s) (hactions : ∀ a ∈ actions, C a) (hrun : sys.run s actions = some s') :
    f s' ≤ f s := by
  induction actions generalizing s with
  | nil =>
      obtain rfl : s = s' := Option.some.inj hrun
      exact Nat.le_refl _
  | cons a actions ih =>
      obtain ⟨s₁, hstep, hrest⟩ := Option.bind_eq_some_iff.mp hrun
      have ha := hactions a (by simp)
      exact Nat.le_trans (ih (h s a s₁ hs ha hstep).1
        (fun b hb => hactions b (List.mem_cons_of_mem _ hb)) hrest) (hf s a s₁ hs ha hstep)

/-- When a step is possible until the end, every run can be brought to the end. -/
lemma ends (h : sys.RunsDown P C left) (final : State → Prop)
    (hprogress : ∀ s, P s → ¬ final s → ∃ a s', C a ∧ sys.step s a = some s') (hs : P s) :
    ∃ actions s', (∀ a ∈ actions, C a) ∧ sys.run s actions = some s' ∧ final s' := by
  induction hn : left s using Nat.strongRecOn generalizing s with
  | ind n ih =>
      by_cases hfinal : final s
      · exact ⟨[], s, by simp, rfl, hfinal⟩
      · obtain ⟨a, s₁, ha, hstep⟩ := hprogress s hs hfinal
        obtain ⟨hs₁, hlt⟩ := h s a s₁ hs ha hstep
        obtain ⟨actions, s', hactions, hrun, hfinal'⟩ := ih (left s₁) (hn ▸ hlt) hs₁ rfl
        refine ⟨a :: actions, s', ?_, ?_, hfinal'⟩
        · intro b hb
          rcases List.mem_cons.mp hb with rfl | hb
          · exact ha
          · exact hactions b hb
        · rw [TransitionSystem.run, hstep, Option.bind_some]
          exact hrun

end RunsDown

end TransitionSystem

end LibCmutils
