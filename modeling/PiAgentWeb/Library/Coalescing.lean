import Mathlib.Algebra.GroupWithZero.Nat
import Mathlib.Data.List.Induction

/-!
# Coalescing a stream of events

A buffer may replace neighbouring events of a stream by one merged event. `Coalesces merge
inputs outputs` says that `outputs` arises from `inputs` by replacing consecutive nonempty
blocks, in order, by their left-nested merges, so that no event is lost, repeated or moved.
When merging two events has the effect of applying them one after the other, folding a state
machine over the outputs is folding it over the inputs.
-/

namespace PiAgentWeb.Coalescing

variable {E S : Type*} (merge : E → E → Option E)

/-- One output event that stands for a nonempty block of consecutive input events. -/
inductive Block : List E → E → Prop
  | single (e : E) : Block [e] e
  | extend {block : List E} {out next merged : E} : Block block out →
      merge out next = some merged → Block (block ++ [next]) merged

/-- The outputs are the merges of consecutive blocks whose concatenation is the inputs. -/
inductive Coalesces : List E → List E → Prop
  | nil : Coalesces [] []
  | snoc {inputs outputs block : List E} {out : E} : Coalesces inputs outputs →
      Block merge block out → Coalesces (inputs ++ block) (outputs ++ [out])

variable {merge} {inputs outputs : List E}

theorem Coalesces.push (h : Coalesces merge inputs outputs) (e : E) :
    Coalesces merge (inputs ++ [e]) (outputs ++ [e]) :=
  h.snoc (Block.single e)

theorem Coalesces.mergeLast {last next merged : E}
    (h : Coalesces merge inputs (outputs ++ [last])) (hm : merge last next = some merged) :
    Coalesces merge (inputs ++ [next]) (outputs ++ [merged]) := by
  generalize ho : outputs ++ [last] = all at h
  cases h with
  | nil => simp at ho
  | snoc hprefix hblock =>
    obtain ⟨rfl, hlast⟩ := List.append_inj' ho rfl
    obtain rfl : last = _ := by simpa using hlast
    rw [List.append_assoc]
    exact hprefix.snoc (hblock.extend hm)

/-- A buffer takes one event: at its end, or merged into its last event. -/
def Extends (merge : E → E → Option E) (before after : List E) (event : E) : Prop :=
  after = before ++ [event] ∨
    ∃ rest last merged, before = rest ++ [last] ∧ merge last event = some merged ∧
      after = rest ++ [merged]

theorem Extends.prepend {before after : List E} {event : E} (h : Extends merge before after event)
    (front : List E) : Extends merge (front ++ before) (front ++ after) event := by
  rcases h with rfl | ⟨rest, last, merged, rfl, hm, rfl⟩
  · exact Or.inl (List.append_assoc front before [event]).symm
  · exact Or.inr ⟨front ++ rest, last, merged, (List.append_assoc _ _ _).symm, hm,
      (List.append_assoc _ _ _).symm⟩

theorem Coalesces.extend {inputs before after : List E} {event : E}
    (h : Coalesces merge inputs before) (hext : Extends merge before after event) :
    Coalesces merge (inputs ++ [event]) after := by
  rcases hext with rfl | ⟨rest, last, merged, rfl, hm, rfl⟩
  · exact h.push event
  · exact h.mergeLast hm

theorem Coalesces.split {inputs front back : List E} (h : Coalesces merge inputs (front ++ back)) :
    ∃ done waiting, inputs = done ++ waiting ∧ Coalesces merge done front ∧
      Coalesces merge waiting back := by
  induction back using List.reverseRecOn generalizing inputs with
  | nil => exact ⟨inputs, [], by simp, by simpa using h, Coalesces.nil⟩
  | append_singleton back out ih =>
    rw [← List.append_assoc] at h
    generalize hall : front ++ back ++ [out] = all at h
    cases h with
    | nil => simp at hall
    | snoc hprefix hblock =>
      obtain ⟨rfl, hout⟩ := List.append_inj' hall rfl
      obtain rfl : out = _ := by simpa using hout
      obtain ⟨done, waiting, rfl, hdone, hwaiting⟩ := ih hprefix
      exact ⟨done, waiting ++ _, List.append_assoc _ _ _, hdone, hwaiting.snoc hblock⟩

theorem Coalesces.inputs_eq_nil {inputs : List E} (h : Coalesces merge inputs []) :
    inputs = [] := by
  generalize ho : ([] : List E) = outputs at h
  cases h with
  | nil => rfl
  | snoc => simp at ho

theorem Coalesces.map {F : Type*} {merge' : F → F → Option F} (f : E → F)
    (hmerge : ∀ first next merged, merge first next = some merged →
      merge' (f first) (f next) = some (f merged))
    (h : Coalesces merge inputs outputs) :
    Coalesces merge' (inputs.map f) (outputs.map f) := by
  have hblock : ∀ {block : List E} {out : E}, Block merge block out →
      Block merge' (block.map f) (f out) := by
    intro block out hb
    induction hb with
    | single e => exact Block.single (f e)
    | extend _ hm ih =>
      rw [List.map_append]
      exact ih.extend (hmerge _ _ _ hm)
  induction h with
  | nil => exact Coalesces.nil
  | snoc _ hb ih =>
    rw [List.map_append, List.map_append]
    exact ih.snoc (hblock hb)

/-- Merging has the effect of applying both events in order. -/
def MergeLaw (merge : E → E → Option E) (step : S → E → S) : Prop :=
  ∀ s first next merged, merge first next = some merged →
    step s merged = step (step s first) next

theorem Block.foldl_eq {step : S → E → S} (law : MergeLaw merge step) {block : List E} {out : E}
    (h : Block merge block out) (s : S) : block.foldl step s = step s out := by
  induction h with
  | single e => rfl
  | extend _ hm ih =>
    rw [List.foldl_append, ih]
    exact (law s _ _ _ hm).symm

theorem Coalesces.foldl_eq {step : S → E → S} (law : MergeLaw merge step)
    (h : Coalesces merge inputs outputs) (s : S) :
    inputs.foldl step s = outputs.foldl step s := by
  induction h with
  | nil => rfl
  | snoc _ hblock ih =>
    rw [List.foldl_append, List.foldl_append, ih]
    exact hblock.foldl_eq law _

end PiAgentWeb.Coalescing
