import Mathlib.Algebra.GroupWithZero.Nat
import Mathlib.Data.List.Basic

/-!
# A budget for every window of time

What is granted at some times stays within a budget for every window of a given length. The
grantor keeps the recent times only: those that still share a window with the present. It may
record more than it grants.
-/

namespace PiAgentWeb

namespace WindowBudget

variable (window limit : ℕ)

/-- The times that share a window with the present. -/
def recent (now : ℕ) (times : List ℕ) : List ℕ := times.filter (now < · + window)

/-- The times of a window. -/
def during (start : ℕ) (times : List ℕ) : List ℕ :=
  times.filter fun time => start ≤ time && time < start + window

/-- No window has more than the limit. -/
def Within (granted : List ℕ) : Prop := ∀ start, (during window start granted).length ≤ limit

/-- What was granted recently is recorded. -/
structure Tracks (now : ℕ) (granted recorded : List ℕ) : Prop where
  recorded : (recent window now granted).Sublist recorded
  past : ∀ time ∈ granted, time ≤ now

variable {window limit} {now now' : ℕ} {granted recorded : List ℕ}

theorem recent_recent (now : ℕ) (times : List ℕ) :
    recent window now (recent window now times) = recent window now times := by
  simp [recent, List.filter_filter]

theorem Tracks.nil (recorded : List ℕ) : Tracks window now [] recorded :=
  ⟨List.nil_sublist _, nofun⟩

theorem Tracks.advance (h : Tracks window now granted recorded) (hnow : now ≤ now') :
    Tracks window now' granted recorded where
  recorded := by
    refine List.Sublist.trans ?_ h.recorded
    refine List.monotone_filter_right granted fun time htime => ?_
    simp only [decide_eq_true_eq] at htime ⊢
    omega
  past time htime := Nat.le_trans (h.past time htime) hnow

theorem Tracks.record (h : Tracks window now granted recorded) :
    Tracks window now granted (recent window now recorded ++ [now]) where
  recorded := by
    rw [← recent_recent]
    exact (h.recorded.filter _).trans (List.sublist_append_left _ _)
  past := h.past

theorem Tracks.grant (h : Tracks window now granted recorded) :
    Tracks window now (granted ++ [now]) (recent window now recorded ++ [now]) where
  recorded := by
    rw [recent, List.filter_append, ← recent, ← recent_recent]
    exact (h.recorded.filter _).append List.filter_sublist
  past := by
    intro time htime
    rcases List.mem_append.mp htime with hmem | hmem
    · exact h.past time hmem
    · exact Nat.le_of_eq (List.mem_singleton.mp hmem)

theorem Within.grant (h : Within window limit granted)
    (htracks : Tracks window now granted recorded)
    (hroom : (recent window now recorded ++ [now]).length ≤ limit) :
    Within window limit (granted ++ [now]) := by
  intro start
  by_cases hin : start ≤ now ∧ now < start + window
  · -- all granted times of the window are recent
    refine Nat.le_trans (List.Sublist.length_le ?_) hroom
    refine List.Sublist.trans ?_ htracks.grant.recorded
    refine List.monotone_filter_right _ fun time htime => ?_
    simp only [Bool.and_eq_true, decide_eq_true_eq] at htime ⊢
    omega
  · have hout : during window start [now] = [] := by
      rw [during, List.filter_cons_of_neg, List.filter_nil]
      simpa using hin
    rw [during, List.filter_append, ← during, ← during, hout, List.append_nil]
    exact h start

end WindowBudget

end PiAgentWeb
