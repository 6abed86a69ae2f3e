import PiAgentWeb.Library.Tally
import Mathlib.Data.List.Infix

/-!
# The newest items within two limits

A list of items, the oldest first, may hold so many items of so much weight. The oldest items are
given up until the rest is within both limits. What stays is a suffix of the list, it is within the
limits, and the newest item stays if it is within the limits by itself.
-/

namespace PiAgentWeb

variable {α : Type*} (w : α → ℕ) (limit maxWeight : ℕ)

/-- The list is within the limits. -/
def WithinLimits (items : List α) : Prop :=
  items.length ≤ limit ∧ tally w items ≤ maxWeight

instance (items : List α) : Decidable (WithinLimits w limit maxWeight items) :=
  inferInstanceAs (Decidable (_ ∧ _))

/-- The newest items that are within the limits. -/
def newestWithin : List α → List α
  | [] => []
  | oldest :: rest =>
    if WithinLimits w limit maxWeight (oldest :: rest) then oldest :: rest else newestWithin rest

/-- The oldest items, that the newest ones leave no room for. -/
def oldestBeyond : List α → List α
  | [] => []
  | oldest :: rest =>
    if WithinLimits w limit maxWeight (oldest :: rest) then [] else oldest :: oldestBeyond rest

variable {w limit maxWeight}

theorem oldestBeyond_append_newestWithin (items : List α) :
    oldestBeyond w limit maxWeight items ++ newestWithin w limit maxWeight items = items := by
  induction items with
  | nil => rfl
  | cons oldest rest ih =>
    unfold oldestBeyond newestWithin
    split
    · rfl
    · rw [List.cons_append, ih]

theorem newestWithin_suffix (items : List α) :
    newestWithin w limit maxWeight items <:+ items :=
  ⟨_, oldestBeyond_append_newestWithin items⟩

theorem newestWithin_of_within {items : List α} (h : WithinLimits w limit maxWeight items) :
    oldestBeyond w limit maxWeight items = [] ∧ newestWithin w limit maxWeight items = items := by
  cases items with
  | nil => exact ⟨rfl, rfl⟩
  | cons oldest rest =>
    rw [oldestBeyond, newestWithin, if_pos h, if_pos h]
    exact ⟨rfl, rfl⟩

theorem newestWithin_within (items : List α) :
    WithinLimits w limit maxWeight (newestWithin w limit maxWeight items) := by
  induction items with
  | nil => exact ⟨Nat.zero_le _, Nat.zero_le _⟩
  | cons oldest rest ih =>
    unfold newestWithin
    split
    · assumption
    · exact ih

theorem WithinLimits.of_sublist {items sublist : List α}
    (h : WithinLimits w limit maxWeight items) (hsublist : sublist.Sublist items) :
    WithinLimits w limit maxWeight sublist := by
  have hlength := hsublist.length_le
  have hweight : tally w sublist ≤ tally w items := by
    clear h hlength
    induction hsublist with
    | slnil => exact Nat.le_refl _
    | cons item _ ih =>
      rw [tally_cons]
      omega
    | cons_cons item _ ih =>
      rw [tally_cons, tally_cons]
      omega
  exact ⟨hlength.trans h.1, hweight.trans h.2⟩

theorem newestWithin_concat (items : List α) {newest : α}
    (h : WithinLimits w limit maxWeight [newest]) :
    ∃ kept, kept <:+ items ∧
      newestWithin w limit maxWeight (items ++ [newest]) = kept ++ [newest] := by
  induction items with
  | nil => exact ⟨[], List.suffix_rfl, by rw [List.nil_append, newestWithin, if_pos h]⟩
  | cons oldest rest ih =>
    rw [List.cons_append, newestWithin]
    split
    · exact ⟨oldest :: rest, List.suffix_rfl, rfl⟩
    · obtain ⟨kept, hkept, heq⟩ := ih
      exact ⟨kept, hkept.trans (List.suffix_cons oldest rest), heq⟩

end PiAgentWeb
