import Mathlib.Algebra.GroupWithZero.Nat
import Mathlib.Data.List.Nodup

/-!
# Insertion-ordered maps

A JavaScript `Map` iterates over its keys in the order of their first insertion. The entries of
an `InsertionMap` are listed in that order and carry the fact that no key occurs twice, so a
lookup and a membership in the list are the same thing.
-/

namespace PiAgentWeb

/-- A finite map with its keys in insertion order. -/
structure InsertionMap (K V : Type*) where
  /-- The entries, oldest key first. -/
  entries : List (K × V)
  /-- No key occurs twice. -/
  nodup : (entries.map Prod.fst).Nodup
  deriving DecidableEq

namespace InsertionMap

variable {K V : Type*} [DecidableEq K]

/-- The map without entries. -/
def empty : InsertionMap K V := { entries := [], nodup := List.nodup_nil }

/-- `Map.prototype.get`. -/
def get? (m : InsertionMap K V) (k : K) : Option V :=
  (m.entries.find? fun entry => entry.1 == k).map (·.2)

/-- The entries after an assignment: a known key keeps its place, a new one comes last. -/
def assign (entries : List (K × V)) (k : K) (v : V) : List (K × V) :=
  match entries with
  | [] => [(k, v)]
  | entry :: rest => if entry.1 = k then (k, v) :: rest else entry :: assign rest k v

theorem mem_keys_assign {entries : List (K × V)} {k k' : K} {v : V} :
    k' ∈ (assign entries k v).map Prod.fst ↔ k' = k ∨ k' ∈ entries.map Prod.fst := by
  induction entries with
  | nil => simp [assign]
  | cons entry rest ih =>
    simp only [assign]
    split
    · rename_i hkey
      simp [hkey]
    · simp only [List.map_cons, List.mem_cons, ih]
      tauto

theorem nodup_assign {entries : List (K × V)} (h : (entries.map Prod.fst).Nodup) (k : K) (v : V) :
    ((assign entries k v).map Prod.fst).Nodup := by
  induction entries with
  | nil => simp [assign]
  | cons entry rest ih =>
    rw [List.map_cons, List.nodup_cons] at h
    simp only [assign]
    split
    · rename_i hkey
      simpa [hkey] using ⟨by simpa [hkey] using h.1, h.2⟩
    · rename_i hkey
      rw [List.map_cons, List.nodup_cons, mem_keys_assign]
      exact ⟨by rintro (h' | h'); exacts [hkey h', h.1 h'], ih h.2⟩

/-- `Map.prototype.set`. -/
def insert (m : InsertionMap K V) (k : K) (v : V) : InsertionMap K V where
  entries := assign m.entries k v
  nodup := nodup_assign m.nodup k v

/-- `Map.prototype.delete`. -/
def erase (m : InsertionMap K V) (k : K) : InsertionMap K V where
  entries := m.entries.filter fun entry => entry.1 != k
  nodup := m.nodup.sublist (List.filter_sublist.map _)

/-- The map with every value replaced. -/
def mapValues {W : Type*} (m : InsertionMap K V) (f : V → W) : InsertionMap K W where
  entries := m.entries.map fun entry => (entry.1, f entry.2)
  nodup := by simpa [List.map_map, Function.comp_def] using m.nodup

@[simp] theorem get?_empty (k : K) : (empty : InsertionMap K V).get? k = none := rfl

variable {m : InsertionMap K V}

theorem get?_eq_some_iff {k : K} {v : V} :
    m.get? k = some v ↔ (k, v) ∈ m.entries := by
  obtain ⟨entries, hnodup⟩ := m
  induction entries with
  | nil => simp [get?]
  | cons entry rest ih =>
    rw [List.map_cons, List.nodup_cons] at hnodup
    have hrest := ih hnodup.2
    simp only [get?] at hrest ⊢
    rw [List.find?_cons]
    by_cases hkey : entry.1 = k
    · subst hkey
      have hfresh : (entry.1, v) ∉ rest := fun hmem =>
        hnodup.1 (List.mem_map.mpr ⟨_, hmem, rfl⟩)
      simp only [beq_self_eq_true, Option.map_some, Option.some.injEq, List.mem_cons]
      constructor
      · rintro rfl
        exact Or.inl rfl
      · rintro (heq | hmem)
        · exact (congrArg Prod.snd heq).symm
        · exact absurd hmem hfresh
    · have hbeq : (entry.1 == k) = false := by simpa using hkey
      have hne : (k, v) ≠ entry := by
        rintro rfl
        exact hkey rfl
      simp only [hbeq, List.mem_cons, hne, false_or]
      exact hrest

theorem mem_of_get? {k : K} {v : V} (h : m.get? k = some v) :
    (k, v) ∈ m.entries :=
  get?_eq_some_iff.mp h

theorem get?_of_mem {entry : K × V} (h : entry ∈ m.entries) :
    m.get? entry.1 = some entry.2 :=
  get?_eq_some_iff.mpr h

@[simp] theorem get?_insert_self (m : InsertionMap K V) (k : K) (v : V) :
    (m.insert k v).get? k = some v := by
  obtain ⟨entries, hnodup⟩ := m
  simp only [insert, get?]
  clear hnodup
  induction entries with
  | nil => simp [assign]
  | cons entry rest ih =>
    simp only [assign]
    split
    · simp
    · rename_i hkey
      simpa [List.find?_cons, hkey] using ih

theorem get?_insert_of_ne (m : InsertionMap K V) {k k' : K} (h : k' ≠ k) (v : V) :
    (m.insert k v).get? k' = m.get? k' := by
  obtain ⟨entries, hnodup⟩ := m
  simp only [insert, get?]
  clear hnodup
  induction entries with
  | nil => simp [assign, h.symm]
  | cons entry rest ih =>
    simp only [assign]
    split
    · rename_i hkey
      simp [h.symm, hkey]
    · by_cases hentry : entry.1 = k'
      · simp [hentry]
      · simpa [List.find?_cons, hentry] using ih

theorem get?_insert (m : InsertionMap K V) (k k' : K) (v : V) :
    (m.insert k v).get? k' = if k' = k then some v else m.get? k' := by
  split
  · rename_i h
    rw [h, get?_insert_self]
  · rename_i h
    exact get?_insert_of_ne m h v

@[simp] theorem insert_insert (m : InsertionMap K V) (k : K) (v v' : V) :
    (m.insert k v).insert k v' = m.insert k v' := by
  have hassign : ∀ entries : List (K × V),
      assign (assign entries k v) k v' = assign entries k v' := by
    intro entries
    induction entries with
    | nil => simp [assign]
    | cons entry rest ih =>
      by_cases hkey : entry.1 = k
      · simp [assign, hkey]
      · simp [assign, hkey, ih]
  simp only [insert, hassign]

@[simp] theorem get?_erase_self (m : InsertionMap K V) (k : K) : (m.erase k).get? k = none := by
  cases h : (m.erase k).get? k with
  | none => rfl
  | some v =>
    have hmem := mem_of_get? h
    simp [erase] at hmem

theorem get?_erase_of_ne (m : InsertionMap K V) {k k' : K} (h : k' ≠ k) :
    (m.erase k).get? k' = m.get? k' := by
  apply Option.ext
  intro v
  simp [get?_eq_some_iff, erase, h]

theorem get?_erase (m : InsertionMap K V) (k k' : K) :
    (m.erase k).get? k' = if k' = k then none else m.get? k' := by
  split
  · rename_i h
    rw [h, get?_erase_self]
  · rename_i h
    exact get?_erase_of_ne m h

theorem get?_eq_none_iff {k : K} :
    m.get? k = none ↔ ∀ v, (k, v) ∉ m.entries := by
  rw [Option.eq_none_iff_forall_ne_some]
  exact forall_congr' fun v => not_congr get?_eq_some_iff

theorem entries_insert_of_get?_eq_none {k : K} (h : m.get? k = none)
    (v : V) : (m.insert k v).entries = m.entries ++ [(k, v)] := by
  obtain ⟨entries, hnodup⟩ := m
  rw [get?_eq_none_iff] at h
  simp only [insert] at h ⊢
  clear hnodup
  induction entries with
  | nil => rfl
  | cons entry rest ih =>
    have hkey : entry.1 ≠ k := by
      rintro rfl
      exact h entry.2 List.mem_cons_self
    simp only [assign, hkey, if_false, List.cons_append]
    rw [ih fun v hmem => h v (List.mem_cons_of_mem _ hmem)]

theorem flatMap_entries {A : Type*} (m : InsertionMap K V) (k : K) (f : V → List A) :
    (m.entries.flatMap fun entry => if entry.1 = k then f entry.2 else []) =
      ((m.get? k).map f).getD [] := by
  obtain ⟨entries, hnodup⟩ := m
  induction entries with
  | nil => simp [get?]
  | cons entry rest ih =>
    rw [List.map_cons, List.nodup_cons] at hnodup
    have hrest := ih hnodup.2
    simp only [get?] at hrest ⊢
    rw [List.flatMap_cons, hrest, List.find?_cons]
    by_cases hkey : entry.1 = k
    · subst hkey
      have hnone : rest.find? (fun e => e.1 == entry.1) = none := by
        rw [List.find?_eq_none]
        intro e he heq
        exact hnodup.1 (List.mem_map.mpr ⟨e, he, by simpa using heq⟩)
      simp [hnone]
    · have hbeq : (entry.1 == k) = false := by simpa using hkey
      simp [hkey, hbeq]

/-! ## Keys, sizes and filters -/

section Filters

/-- The keys, oldest first. -/
def keys (m : InsertionMap K V) : List K := m.entries.map Prod.fst

/-- `Map.prototype.size`. -/
def size (m : InsertionMap K V) : Nat := m.entries.length

/-- The map after deleting every key that fails a test. -/
def filterKeys (m : InsertionMap K V) (p : K → Bool) : InsertionMap K V where
  entries := m.entries.filter fun entry => p entry.1
  nodup := m.nodup.sublist (List.filter_sublist.map _)

/-- The map after deleting every key whose value fails a test. -/
def filterValues (m : InsertionMap K V) (p : V → Bool) : InsertionMap K V where
  entries := m.entries.filter fun entry => p entry.2
  nodup := m.nodup.sublist (List.filter_sublist.map _)

omit [DecidableEq K] in
theorem nodup_keys (m : InsertionMap K V) : m.keys.Nodup := m.nodup

omit [DecidableEq K] in
theorem length_keys (m : InsertionMap K V) : m.keys.length = m.size := List.length_map _

theorem mem_keys_iff {m : InsertionMap K V} {k : K} : k ∈ m.keys ↔ ∃ v, m.get? k = some v := by
  simp [keys, get?_eq_some_iff]

theorem get?_filterKeys (m : InsertionMap K V) (p : K → Bool) (k : K) :
    (m.filterKeys p).get? k = if p k then m.get? k else none := by
  apply Option.ext
  intro v
  split <;> simp_all [get?_eq_some_iff, filterKeys]

theorem get?_filterValues (m : InsertionMap K V) (p : V → Bool) (k : K) :
    (m.filterValues p).get? k = (m.get? k).filter p := by
  apply Option.ext
  intro v
  rw [Option.filter_eq_some_iff]
  simp [get?_eq_some_iff, filterValues]

theorem erase_of_get?_eq_none {m : InsertionMap K V} {k : K} (h : m.get? k = none) :
    m.erase k = m := by
  rw [get?_eq_none_iff] at h
  obtain ⟨entries, hnodup⟩ := m
  simp only [erase, mk.injEq, List.filter_eq_self]
  rintro ⟨k', v⟩ hmem
  simpa using fun heq : k' = k => h v (heq ▸ hmem)

theorem size_insert_of_get?_eq_none {m : InsertionMap K V} {k : K} (h : m.get? k = none) (v : V) :
    (m.insert k v).size = m.size + 1 := by
  simp [size, entries_insert_of_get?_eq_none h]

theorem size_erase_le (m : InsertionMap K V) (k : K) : (m.erase k).size ≤ m.size :=
  List.length_filter_le _ _

theorem size_erase_of_get? {m : InsertionMap K V} {k : K} {v : V} (h : m.get? k = some v) :
    (m.erase k).size + 1 = m.size := by
  obtain ⟨entries, hnodup⟩ := m
  rw [get?_eq_some_iff] at h
  simp only [erase, size] at h ⊢
  induction entries with
  | nil => simp at h
  | cons entry rest ih =>
    rw [List.map_cons, List.nodup_cons] at hnodup
    rcases List.mem_cons.mp h with rfl | hmem
    · have hkeep : rest.filter (fun entry => entry.1 != k) = rest := by
        rw [List.filter_eq_self]
        rintro ⟨k', v'⟩ hmem
        have hne : k' ≠ k := by
          rintro rfl
          exact hnodup.1 (List.mem_map.mpr ⟨_, hmem, rfl⟩)
        simpa using hne
      simp [hkeep]
    · have hne : entry.1 ≠ k := by
        rintro rfl
        exact hnodup.1 (List.mem_map.mpr ⟨_, hmem, rfl⟩)
      have hrest := ih hnodup.2 hmem
      simp only [List.filter_cons, bne_iff_ne, ne_eq, hne, not_false_eq_true, if_true,
        List.length_cons]
      omega

theorem erase_insert (m : InsertionMap K V) (k : K) (v : V) :
    (m.insert k v).erase k = m.erase k := by
  have hassign : ∀ entries : List (K × V),
      (assign entries k v).filter (fun entry => entry.1 != k) =
        entries.filter fun entry => entry.1 != k := by
    intro entries
    induction entries with
    | nil => simp [assign]
    | cons entry rest ih =>
      by_cases hkey : entry.1 = k
      · simp [assign, hkey]
      · simp [assign, hkey, ih]
  simp only [insert, erase, hassign]

end Filters

end InsertionMap

end PiAgentWeb
