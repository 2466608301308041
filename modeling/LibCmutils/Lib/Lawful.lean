import Mathlib.Data.List.Basic

/-!
Histories in which every act is right after the acts before it.

* `Lawful`: a law that says which act may come after which history holds at every act.
* `lawful_concat`: one act more.
-/

namespace LibCmutils

universe u
variable {α : Type u} {P Q : List α → α → Prop} {acts : List α}

/-- Every act is right after those before it. -/
def Lawful (P : List α → α → Prop) (acts : List α) : Prop :=
  ∀ pre a, pre ++ [a] <+: acts → P pre a

@[simp] lemma lawful_nil : Lawful P ([] : List α) := fun pre a h => by simp at h

lemma lawful_concat {a : α} : Lawful P (acts ++ [a]) ↔ Lawful P acts ∧ P acts a := by
  constructor
  · intro h
    exact ⟨fun pre b hpre => h pre b (hpre.trans (List.prefix_append _ _)),
      h acts a (List.prefix_refl _)⟩
  · rintro ⟨hacts, ha⟩ pre b hpre
    rcases List.prefix_concat_iff.mp hpre with heq | hpre
    · obtain ⟨rfl, hb⟩ := List.append_inj' heq rfl
      rwa [List.cons.inj hb |>.1]
    · exact hacts pre b hpre

lemma Lawful.concat (h : Lawful P acts) {a : α} (ha : P acts a) : Lawful P (acts ++ [a]) :=
  lawful_concat.mpr ⟨h, ha⟩

end LibCmutils
