import Mathlib.Logic.Relation

/-!
# Ancestors under a partial map

Every element has at most one parent. The lineage of an element is the list of its ancestors up to
one without a parent. An element has a lineage only if no ancestor of it is an ancestor of itself.
-/

namespace PiAgentWeb

/-- The element and its ancestors, the nearest first, up to one without a parent. -/
inductive Lineage {A : Type*} (parent : A → Option A) : Option A → List A → Prop
  | nil : Lineage parent none []
  | cons {a : A} {ancestors : List A} (h : Lineage parent (parent a) ancestors) :
      Lineage parent (some a) (a :: ancestors)

namespace Lineage

variable {A : Type*} {parent : A → Option A}

/-- The second element is the parent of the first one. -/
def IsParent (parent : A → Option A) (a b : A) : Prop := parent a = some b

theorem unique {start : Option A} {path path' : List A} (h : Lineage parent start path)
    (h' : Lineage parent start path') : path = path' := by
  induction h generalizing path' with
  | nil =>
    cases h'
    rfl
  | cons _ ih =>
    cases h' with
    | cons hrest => rw [ih hrest]

theorem of_ancestor {a b : A} {path : List A} (h : Lineage parent (some a) path)
    (hab : Relation.TransGen (IsParent parent) a b) :
    ∃ path', Lineage parent (some b) path' ∧ path'.length < path.length := by
  induction hab with
  | single hparent =>
    cases h with
    | cons hrest =>
      rw [hparent] at hrest
      exact ⟨_, hrest, Nat.lt_succ_self _⟩
  | tail _ hparent ih =>
    obtain ⟨path', hpath', hlength⟩ := ih
    cases hpath' with
    | cons hrest =>
      rw [hparent] at hrest
      exact ⟨_, hrest, Nat.lt_of_succ_lt hlength⟩

theorem acyclic {a b : A} {path : List A} (h : Lineage parent (some a) path)
    (hab : Relation.ReflTransGen (IsParent parent) a b) :
    ¬Relation.TransGen (IsParent parent) b b := by
  intro hcycle
  have hb : ∃ path', Lineage parent (some b) path' := by
    rcases Relation.reflTransGen_iff_eq_or_transGen.mp hab with rfl | hab
    · exact ⟨path, h⟩
    · obtain ⟨path', hpath', -⟩ := h.of_ancestor hab
      exact ⟨path', hpath'⟩
  obtain ⟨path', hpath'⟩ := hb
  obtain ⟨path'', hpath'', hlength⟩ := hpath'.of_ancestor hcycle
  rw [hpath'.unique hpath''] at hlength
  exact Nat.lt_irrefl _ hlength

end Lineage

end PiAgentWeb
