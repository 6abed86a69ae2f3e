import PiAgentWeb.Library.Runs
import Mathlib.Data.List.Induction

/-!
# Since

Some actions of a system establish a fact, some withdraw it, and all others leave it alone. In the
state a run ends in the fact holds exactly if an action has established it and no later one has
withdrawn it. The run is read from its end: the last action decides, or else the run before it.
-/

namespace PiAgentWeb

variable {S A : Type*} {step : S → A → S} {P : S → Prop} {establishes withdraws : A → Prop}

/-- An action of the run establishes the fact, and no later one withdraws it. -/
def Since (establishes withdraws : A → Prop) (actions : List A) : Prop :=
  ∃ before a after, actions = before ++ a :: after ∧ establishes a ∧ ∀ b ∈ after, ¬ withdraws b

theorem not_since_nil : ¬ Since establishes withdraws [] := by
  rintro ⟨before, a, after, h, -⟩
  simp at h

theorem since_concat {actions : List A} {a : A} :
    Since establishes withdraws (actions ++ [a]) ↔
      establishes a ∨ Since establishes withdraws actions ∧ ¬ withdraws a := by
  constructor
  · rintro ⟨before, b, after, hcut, hb, hafter⟩
    rcases List.eq_nil_or_concat after with rfl | ⟨after, c, rfl⟩
    · obtain ⟨-, hlast⟩ := List.append_inj' hcut rfl
      obtain rfl : a = b := by simpa using hlast
      exact .inl hb
    · have hcut : actions ++ [a] = (before ++ b :: after) ++ [c] := by simpa using hcut
      obtain ⟨rfl, hlast⟩ := List.append_inj' hcut rfl
      obtain rfl : a = c := by simpa using hlast
      refine .inr ⟨⟨before, b, after, rfl, hb, fun d hd => hafter d ?_⟩, hafter a ?_⟩
      all_goals simp_all
  · rintro (ha | ⟨⟨before, b, after, rfl, hb, hafter⟩, ha⟩)
    · exact ⟨actions, a, [], rfl, ha, by simp⟩
    · refine ⟨before, b, after ++ [a], by simp, hb, fun d hd => ?_⟩
      rcases List.mem_append.mp hd with hd | hd
      · exact hafter d hd
      · obtain rfl : d = a := by simpa using hd
        exact ha

/-- A fact that each action establishes, withdraws or leaves alone, in the states of an invariant,
holds after a run exactly if it was established and not withdrawn since. -/
theorem holds_iff_since {I : S → Prop} {s : S} (hI : I s) (hstepI : ∀ s a, I s → I (step s a))
    (hs : ¬ P s) (hstep : ∀ s a, I s → (P (step s a) ↔ establishes a ∨ P s ∧ ¬ withdraws a))
    (actions : List A) : P (runFrom step s actions) ↔ Since establishes withdraws actions := by
  induction actions using List.reverseRecOn with
  | nil => exact iff_of_false hs not_since_nil
  | append_singleton actions a ih =>
    rw [runFrom_append, runFrom_cons, runFrom_nil, hstep _ _ (runFrom_invariant hstepI actions hI),
      since_concat, ih]

end PiAgentWeb
