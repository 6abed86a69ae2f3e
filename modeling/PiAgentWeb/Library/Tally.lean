import PiAgentWeb.Library.InsertionMap
import Mathlib.Algebra.BigOperators.Group.List.Basic

/-!
# Tallies

What the tasks of a system hold between them, the units of a quota or the turns in a section, is
the total weight of a list. One task that moves on replaces one element, and the total changes by
the difference of the two weights; two tasks that both weigh something make the total large.
-/

namespace PiAgentWeb

variable {α : Type*} {w : α → ℕ} {l : List α} {i j : ℕ} {a b : α}

/-- The total weight of a list. -/
def tally (w : α → ℕ) (l : List α) : ℕ := (l.map w).sum

@[simp] theorem tally_nil : tally w ([] : List α) = 0 := rfl

@[simp] theorem tally_cons (a : α) (l : List α) : tally w (a :: l) = w a + tally w l := by
  simp [tally]

@[simp] theorem tally_append (l l' : List α) : tally w (l ++ l') = tally w l + tally w l' := by
  simp [tally]

theorem tally_set (h : l[i]? = some a) (b : α) :
    tally w (l.set i b) + w a = tally w l + w b := by
  induction l generalizing i with
  | nil => simp at h
  | cons head rest ih =>
    cases i with
    | zero =>
      obtain rfl : head = a := by simpa using h
      simp only [List.set_cons_zero, tally_cons]
      omega
    | succ i =>
      have := ih (i := i) (by simpa using h)
      simp only [List.set_cons_succ, tally_cons]
      omega

theorem le_tally (h : l[i]? = some a) : w a ≤ tally w l := by
  induction l generalizing i with
  | nil => simp at h
  | cons head rest ih =>
    rw [tally_cons]
    cases i with
    | zero =>
      obtain rfl : head = a := by simpa using h
      omega
    | succ i =>
      have := ih (i := i) (by simpa using h)
      omega

theorem add_le_tally (hij : i ≠ j) (hi : l[i]? = some a) (hj : l[j]? = some b) :
    w a + w b ≤ tally w l := by
  induction l generalizing i j with
  | nil => simp at hi
  | cons head rest ih =>
    rw [tally_cons]
    cases i with
    | zero =>
      obtain rfl : head = a := by simpa using hi
      cases j with
      | zero => exact absurd rfl hij
      | succ j =>
        have : w b ≤ tally w rest := le_tally (i := j) (by simpa using hj)
        omega
    | succ i =>
      cases j with
      | zero =>
        obtain rfl : head = b := by simpa using hj
        have : w a ≤ tally w rest := le_tally (i := i) (by simpa using hi)
        omega
      | succ j =>
        have := ih (i := i) (j := j) (by omega) (by simpa using hi) (by simpa using hj)
        omega

theorem tally_eq_zero (h : ∀ a ∈ l, w a = 0) : tally w l = 0 := by
  induction l with
  | nil => rfl
  | cons head rest ih =>
    rw [tally_cons, h head List.mem_cons_self, ih fun a ha => h a (List.mem_cons_of_mem _ ha)]

theorem eq_zero_of_tally (h : tally w l = 0) : ∀ a ∈ l, w a = 0 := by
  intro a ha
  obtain ⟨i, hi⟩ := List.mem_iff_getElem?.mp ha
  have : w a ≤ tally w l := le_tally hi
  omega

theorem tally_congr {w' : α → ℕ} (h : ∀ a ∈ l, w a = w' a) : tally w l = tally w' l := by
  rw [tally, tally, List.map_congr_left h]

theorem tally_ite (p : α → Bool) (l : List α) :
    tally (fun a => if p a then 1 else 0) l = (l.filter p).length := by
  induction l with
  | nil => rfl
  | cons head rest ih =>
    rw [tally_cons, ih, List.filter_cons]
    split
    · rw [List.length_cons, Nat.add_comm]
    · rw [Nat.zero_add]

namespace InsertionMap

variable {K V : Type*} [DecidableEq K] {m : InsertionMap K V} {k : K} {v : V} {f : V → ℕ}

/-- The total weight of the values of a map. -/
def total (f : V → ℕ) (m : InsertionMap K V) : ℕ := tally (fun entry => f entry.2) m.entries

omit [DecidableEq K] in
@[simp] theorem total_empty : (empty : InsertionMap K V).total f = 0 := rfl

theorem total_insert (h : m.get? k = none) (v : V) : (m.insert k v).total f = m.total f + f v := by
  rw [total, entries_insert_of_get?_eq_none h]
  simp [total]

theorem total_erase (h : m.get? k = some v) : (m.erase k).total f + f v = m.total f := by
  obtain ⟨entries, hnodup⟩ := m
  have hmem := mem_of_get? h
  simp only [total, erase] at hmem ⊢
  clear h
  induction entries with
  | nil => simp at hmem
  | cons entry rest ih =>
    rw [List.map_cons, List.nodup_cons] at hnodup
    rcases List.mem_cons.mp hmem with rfl | hrest
    · have hkeep : rest.filter (fun e => e.1 != k) = rest := by
        refine List.filter_eq_self.mpr fun e he => ?_
        have hne : e.1 ≠ k := fun heq => hnodup.1 (List.mem_map.mpr ⟨e, he, heq⟩)
        simpa using hne
      simp only [List.filter_cons, bne_self_eq_false, Bool.false_eq_true, if_false, hkeep,
        tally_cons]
      omega
    · have hne : entry.1 ≠ k := by
        rintro rfl
        exact hnodup.1 (List.mem_map.mpr ⟨_, hrest, rfl⟩)
      have := ih hnodup.2 hrest
      simp only [List.filter_cons, bne_iff_ne, ne_eq, hne, not_false_eq_true, if_true, tally_cons]
      omega

theorem total_congr {g : V → ℕ} (h : ∀ k v, m.get? k = some v → f v = g v) :
    m.total f = m.total g :=
  tally_congr fun entry hentry => h entry.1 entry.2 (get?_of_mem hentry)

end InsertionMap

end PiAgentWeb
