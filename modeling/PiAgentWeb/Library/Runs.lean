import Mathlib.Data.List.Basic

/-!
# Runs of a transition function

A system is a state type with a total transition function; a run takes the actions of a list one
after another. A condition on single steps is lifted to a whole run, and an invariant that every
step under the condition preserves holds in the state a conditioned run ends in.
-/

namespace PiAgentWeb

universe u v

variable {S : Type u} {A : Type v}

/-- The state after the actions of a run. -/
def runFrom (step : S → A → S) (s : S) (actions : List A) : S := actions.foldl step s

@[simp] theorem runFrom_nil (step : S → A → S) (s : S) : runFrom step s [] = s := rfl

@[simp] theorem runFrom_cons (step : S → A → S) (s : S) (a : A) (actions : List A) :
    runFrom step s (a :: actions) = runFrom step (step s a) actions := rfl

theorem runFrom_append (step : S → A → S) (s : S) (before after : List A) :
    runFrom step s (before ++ after) = runFrom step (runFrom step s before) after :=
  List.foldl_append

theorem runFrom_invariant {step : S → A → S} {I : S → Prop}
    (hstep : ∀ s a, I s → I (step s a)) {s : S} (actions : List A) (hs : I s) :
    I (runFrom step s actions) := by
  induction actions generalizing s with
  | nil => exact hs
  | cons a rest ih => exact ih (hstep s a hs)

/-- Every action of the run meets the condition in the state it is taken in. -/
def RunMeets (step : S → A → S) (C : S → A → Prop) : S → List A → Prop
  | _, [] => True
  | s, a :: rest => C s a ∧ RunMeets step C (step s a) rest

instance decidableRunMeets (step : S → A → S) (C : S → A → Prop) [∀ s a, Decidable (C s a)] :
    ∀ s actions, Decidable (RunMeets step C s actions)
  | _, [] => .isTrue trivial
  | s, a :: rest =>
    haveI := decidableRunMeets step C (step s a) rest
    inferInstanceAs (Decidable (C s a ∧ RunMeets step C (step s a) rest))

namespace RunMeets

variable {step : S → A → S} {C : S → A → Prop}

theorem append_iff {s : S} {before after : List A} :
    RunMeets step C s (before ++ after) ↔
      RunMeets step C s before ∧ RunMeets step C (runFrom step s before) after := by
  induction before generalizing s with
  | nil => simp [RunMeets]
  | cons a rest ih => simp only [List.cons_append, RunMeets, runFrom_cons, ih, and_assoc]

theorem invariant {I : S → Prop} (hstep : ∀ s a, C s a → I s → I (step s a)) {s : S}
    {actions : List A} (h : RunMeets step C s actions) (hs : I s) :
    I (runFrom step s actions) := by
  induction actions generalizing s with
  | nil => exact hs
  | cons a rest ih => exact ih h.2 (hstep s a h.1 hs)

theorem mono {D : S → A → Prop} {I : S → Prop} (hstep : ∀ s a, C s a → I s → I (step s a))
    (himp : ∀ s a, I s → C s a → D s a) {s : S} {actions : List A}
    (h : RunMeets step C s actions) (hs : I s) : RunMeets step D s actions := by
  induction actions generalizing s with
  | nil => trivial
  | cons a rest ih => exact ⟨himp s a hs h.1, ih h.2 (hstep s a h.1 hs)⟩

end RunMeets

end PiAgentWeb
