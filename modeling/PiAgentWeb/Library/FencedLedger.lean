import Mathlib.Algebra.GroupWithZero.Nat
import Mathlib.Data.List.Chain
import Mathlib.Data.List.Nodup

/-!
# Fenced ledgers

A ledger records the commits of several incarnations of a resource, newest first. A commit
belongs to one incarnation, has a revision, and may grant a fencing token. In a well-formed ledger
a commit takes the revision after the latest one of its incarnation, and the token it grants is
either new or the one its incarnation already holds. Revisions are then counted without gap or
repetition inside an incarnation, a token belongs to one incarnation, and a token that was
superseded is never granted again.
-/

namespace PiAgentWeb

universe u v w

/-- How the entries of a ledger are read. -/
structure Fencing (E : Type u) (I : Type v) (T : Type w) where
  /-- The incarnation a commit belongs to. -/
  incarnation : E → I
  /-- The revision a commit establishes. -/
  revision : E → ℕ
  /-- The token a commit grants. -/
  token : E → Option T

namespace Fencing

variable {E : Type u} {I : Type v} {T : Type w} [DecidableEq I] (F : Fencing E I T)

/-- The latest commit of an incarnation. -/
def latest (log : List E) (i : I) : Option E := log.find? fun e => F.incarnation e = i

theorem latest_cons (e : E) (log : List E) (i : I) :
    F.latest (e :: log) i = if F.incarnation e = i then some e else F.latest log i := by
  by_cases h : F.incarnation e = i <;> simp [latest, h]

variable {F} {log : List E}

theorem mem_of_latest {i : I} {e : E} (h : F.latest log i = some e) :
    e ∈ log ∧ F.incarnation e = i :=
  ⟨List.mem_of_find?_eq_some h, by simpa using List.find?_some h⟩

theorem exists_latest {e : E} (h : e ∈ log) :
    ∃ p, F.latest log (F.incarnation e) = some p := by
  rw [← Option.isSome_iff_exists, latest, List.find?_isSome]
  exact ⟨e, h, by simp⟩

variable (F)

/-- A commit that continues the ledger of its incarnation. -/
structure Continues (log : List E) (e : E) : Prop where
  /-- It takes the next revision. -/
  next_revision : ∀ p, F.latest log (F.incarnation e) = some p →
    F.revision e = F.revision p + 1
  /-- It grants a new token, or the one the incarnation holds. -/
  token_fresh : ∀ t, F.token e = some t →
    (∀ e' ∈ log, F.token e' ≠ some t) ∨
      ∃ p, F.latest log (F.incarnation e) = some p ∧ F.token p = some t

/-- A ledger in which every commit continues the ones before it. -/
inductive WellFormed : List E → Prop
  | nil : WellFormed []
  | cons {log : List E} {e : E} (h : WellFormed log) (he : F.Continues log e) :
    WellFormed (e :: log)

/-- The token was granted, and its incarnation has since committed something else. -/
def Superseded (log : List E) (t : T) : Prop :=
  ∃ e ∈ log, F.token e = some t ∧
    ∀ p, F.latest log (F.incarnation e) = some p → F.token p ≠ some t

variable {F}

theorem WellFormed.revision_le (h : F.WellFormed log) {e p : E} (he : e ∈ log)
    (hp : F.latest log (F.incarnation e) = some p) : F.revision e ≤ F.revision p := by
  induction h generalizing p with
  | nil => cases he
  | @cons log e₀ _ hcont ih =>
    rw [latest_cons] at hp
    rcases List.mem_cons.mp he with rfl | hmem
    · rw [if_pos rfl] at hp
      cases hp
      exact le_rfl
    · by_cases hinc : F.incarnation e₀ = F.incarnation e
      · rw [if_pos hinc] at hp
        cases hp
        obtain ⟨q, hq⟩ := F.exists_latest hmem
        have hle := ih hmem hq
        have hnext := hcont.next_revision q (hinc ▸ hq)
        omega
      · rw [if_neg hinc] at hp
        exact ih hmem hp

theorem WellFormed.isChain (h : F.WellFormed log) (i : I) :
    ((log.filter fun e => F.incarnation e = i).map F.revision).IsChain
      fun newer older => newer = older + 1 := by
  induction h with
  | nil => simp
  | @cons log e _ hcont ih =>
    by_cases hinc : F.incarnation e = i
    · rw [List.filter_cons_of_pos (by simpa using hinc), List.map_cons]
      cases hlog : log.filter fun e => F.incarnation e = i with
      | nil => simp
      | cons p rest =>
        have hlatest : F.latest log (F.incarnation e) = some p := by
          rw [hinc, latest, ← List.head?_filter, hlog, List.head?_cons]
        rw [List.map_cons, List.isChain_cons_cons]
        refine ⟨hcont.next_revision p hlatest, ?_⟩
        rw [hlog, List.map_cons] at ih
        exact ih
    · rwa [List.filter_cons_of_neg (by simpa using hinc)]

theorem WellFormed.nodup (h : F.WellFormed log) :
    (log.map fun e => (F.incarnation e, F.revision e)).Nodup := by
  induction h with
  | nil => simp
  | @cons log e hlog hcont ih =>
    rw [List.map_cons, List.nodup_cons]
    refine ⟨?_, ih⟩
    intro hmem
    obtain ⟨e', he', heq⟩ := List.mem_map.mp hmem
    have hinc : F.incarnation e' = F.incarnation e := congrArg Prod.fst heq
    have hrev : F.revision e' = F.revision e := congrArg Prod.snd heq
    obtain ⟨p, hp⟩ := F.exists_latest he'
    have hle := hlog.revision_le he' hp
    have hnext := hcont.next_revision p (hinc ▸ hp)
    omega

theorem WellFormed.token_incarnation (h : F.WellFormed log) {e e' : E} {t : T}
    (he : e ∈ log) (he' : e' ∈ log) (ht : F.token e = some t) (ht' : F.token e' = some t) :
    F.incarnation e = F.incarnation e' := by
  induction h generalizing e e' with
  | nil => cases he
  | @cons log e₀ _ hcont ih =>
    -- a token granted again is the one the incarnation of the new commit holds
    have hagain : ∀ {a}, a ∈ log → F.token e₀ = some t → F.token a = some t →
        F.incarnation a = F.incarnation e₀ := by
      intro a ha h₀ hat
      rcases hcont.token_fresh t h₀ with hfresh | ⟨p, hp, hpt⟩
      · exact absurd hat (hfresh a ha)
      · obtain ⟨hpmem, hpinc⟩ := F.mem_of_latest hp
        exact (ih ha hpmem hat hpt).trans hpinc
    rcases List.mem_cons.mp he with rfl | hmem <;> rcases List.mem_cons.mp he' with rfl | hmem'
    · rfl
    · exact (hagain hmem' ht ht').symm
    · exact hagain hmem ht' ht
    · exact ih hmem hmem' ht ht'

theorem Superseded.cons {e : E} {t : T} (hcont : F.Continues log e)
    (h : F.Superseded log t) : F.Superseded (e :: log) t := by
  obtain ⟨g, hg, htoken, hlatest⟩ := h
  refine ⟨g, List.mem_cons_of_mem _ hg, htoken, ?_⟩
  intro p hp
  rw [latest_cons] at hp
  by_cases hinc : F.incarnation e = F.incarnation g
  · rw [if_pos hinc] at hp
    cases hp
    intro ht
    rcases hcont.token_fresh t ht with hfresh | ⟨p, hp, hpt⟩
    · exact hfresh g hg htoken
    · exact hlatest p (hinc ▸ hp) hpt
  · rw [if_neg hinc] at hp
    exact hlatest p hp

end Fencing

end PiAgentWeb
