import Mathlib.Algebra.GroupWithZero.Nat
import Mathlib.Data.List.Perm.Basic
import Mathlib.Data.List.Nodup

/-!
# Custody of unique items

A custodian takes items over, keeps them, and gives them away one at a time. Nothing is lost and
nothing is given twice: what was ever taken is, up to order, what is kept together with what is
gone, and no item was taken twice.
-/

namespace PiAgentWeb

variable {α : Type*}

/-- The items ever taken are the kept ones and the gone ones, each of them once. -/
structure Custody (taken kept gone : List α) : Prop where
  conserved : taken.Perm (kept ++ gone)
  nodup : taken.Nodup

namespace Custody

variable {taken kept gone : List α}

theorem nil : Custody ([] : List α) [] [] := ⟨.refl _, List.nodup_nil⟩

theorem nodup_append (h : Custody taken kept gone) : (kept ++ gone).Nodup :=
  h.conserved.nodup_iff.mp h.nodup

theorem gone_nodup (h : Custody taken kept gone) : gone.Nodup :=
  h.nodup_append.of_append_right

theorem kept_nodup (h : Custody taken kept gone) : kept.Nodup :=
  h.nodup_append.of_append_left

theorem not_mem_gone (h : Custody taken kept gone) {a : α} (ha : a ∈ kept) : a ∉ gone :=
  fun hgone => List.disjoint_of_nodup_append h.nodup_append ha hgone

theorem mem_iff (h : Custody taken kept gone) {a : α} : a ∈ taken ↔ a ∈ kept ∨ a ∈ gone := by
  rw [h.conserved.mem_iff, List.mem_append]

theorem take (h : Custody taken kept gone) {items : List α} (hitems : items.Nodup)
    (hnew : ∀ a ∈ items, a ∉ taken) : Custody (taken ++ items) (kept ++ items) gone where
  conserved := by
    have hswap : (gone ++ items).Perm (items ++ gone) := List.perm_append_comm
    calc taken ++ items
      _ |>.Perm ((kept ++ gone) ++ items) := h.conserved.append_right items
      _ |>.Perm ((kept ++ items) ++ gone) := by
        simpa only [List.append_assoc] using hswap.append_left kept
  nodup := List.nodup_append.mpr
    ⟨h.nodup, hitems, fun a ha b hb heq => hnew b hb (heq ▸ ha)⟩

theorem give [DecidableEq α] (h : Custody taken kept gone) {a : α} (ha : a ∈ kept) :
    Custody taken (kept.filter (· != a)) (gone ++ [a]) where
  conserved := by
    have hfilter : kept.filter (· != a) = kept.erase a := (h.kept_nodup.erase_eq_filter a).symm
    have hperm : kept.Perm (kept.filter (· != a) ++ [a]) := by
      rw [hfilter]
      exact (List.perm_cons_erase ha).trans (List.perm_append_singleton a _).symm
    refine h.conserved.trans ?_
    have hmove : ([a] ++ gone).Perm (gone ++ [a]) := List.perm_append_comm
    simpa only [List.append_assoc] using
      (hperm.append_right gone).trans
        (by simpa only [List.append_assoc] using hmove.append_left (kept.filter (· != a)))
  nodup := h.nodup

theorem perm_of_kept_nil (h : Custody taken [] gone) : taken.Perm gone := by
  simpa using h.conserved

end Custody

end PiAgentWeb
