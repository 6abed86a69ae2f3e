import PiAgentWeb.Library.Tally

/-!
# Retained amounts

A total that amounts are added to when they are retained and taken from when they are released.
Each item remembers whether it is retained, so a second release does nothing. The total is then the
sum of what is retained, and every item is released at most once; an item that is no longer retained
was released exactly once.
-/

namespace PiAgentWeb

/-- An amount that was retained. -/
structure RetainedItem where
  amount : ℕ
  retained : Bool
  /-- How often the amount was taken from the total (history). -/
  releases : ℕ
  deriving DecidableEq

/-- What an item contributes to the total. -/
def RetainedItem.weight (item : RetainedItem) : ℕ := if item.retained then item.amount else 0

/-- A total and the items that were ever retained, by the number they got. -/
structure Retention where
  total : ℕ
  items : List RetainedItem
  deriving DecidableEq

namespace Retention

/-- Nothing was retained. -/
def empty : Retention := ⟨0, []⟩

/-- The number of the next item. -/
def next (account : Retention) : ℕ := account.items.length

/-- Retain an amount as the next item. -/
def retain (account : Retention) (amount : ℕ) : Retention where
  total := account.total + amount
  items := account.items ++ [⟨amount, true, 0⟩]

/-- Release an item, unless it was released before. -/
def release (account : Retention) (i : ℕ) : Retention :=
  match account.items[i]? with
  | none => account
  | some item =>
    if item.retained then
      { total := account.total - item.amount
        items := account.items.set i
          { item with retained := false, releases := item.releases + 1 } }
    else account

/-- Release several items, one after another. -/
def releaseAll (account : Retention) (released : List ℕ) : Retention :=
  released.foldl release account

/-- The item is retained. -/
def Holds (account : Retention) (i : ℕ) : Prop :=
  ∃ item, account.items[i]? = some item ∧ item.retained = true

/-- The item was retained with the amount. -/
def AmountOf (account : Retention) (i amount : ℕ) : Prop :=
  (account.items[i]?).map RetainedItem.amount = some amount

/-- The total is what is retained, within the cap, and every item is either retained or was released
once. -/
structure Sound (cap : ℕ) (account : Retention) : Prop where
  total : account.total = tally RetainedItem.weight account.items
  bounded : account.total ≤ cap
  once : ∀ item ∈ account.items, item.releases = if item.retained then 0 else 1

variable {account : Retention} {cap i j : ℕ}

@[simp] theorem not_holds_empty : ¬empty.Holds i := by
  rintro ⟨item, hitem, -⟩
  simp [empty] at hitem

theorem Sound.empty : Retention.empty.Sound cap where
  total := rfl
  bounded := Nat.zero_le _
  once := by simp [Retention.empty]

theorem holds_release : (account.release i).Holds j ↔ account.Holds j ∧ j ≠ i := by
  unfold release
  split
  · rename_i hnone
    refine ⟨fun hheld => ⟨hheld, ?_⟩, fun h => h.1⟩
    rintro rfl
    obtain ⟨item, hitem, -⟩ := hheld
    rw [hnone] at hitem
    cases hitem
  · rename_i item hitem
    split
    · by_cases hji : j = i
      · subst hji
        have hlength : j < account.items.length := (List.getElem?_eq_some_iff.mp hitem).1
        constructor
        · rintro ⟨found, hfound, hretained⟩
          rw [List.getElem?_set_self hlength] at hfound
          obtain rfl := Option.some.inj hfound
          cases hretained
        · exact fun h => absurd rfl h.2
      · simp [Holds, List.getElem?_set_ne (Ne.symm hji), hji]
    · rename_i hretained
      refine ⟨fun hheld => ⟨hheld, ?_⟩, fun h => h.1⟩
      rintro rfl
      obtain ⟨found, hfound, hheld⟩ := hheld
      rw [hitem] at hfound
      obtain rfl := Option.some.inj hfound
      exact hretained hheld

theorem holds_retain {amount : ℕ} :
    (account.retain amount).Holds j ↔ account.Holds j ∨ j = account.next := by
  unfold Holds retain next
  dsimp only
  rcases Nat.lt_trichotomy j account.items.length with hlt | rfl | hgt
  · rw [List.getElem?_append_left hlt]
    constructor
    · exact .inl
    · rintro (h | rfl)
      · exact h
      · omega
  · simp
  · rw [List.getElem?_eq_none (by simp; omega), List.getElem?_eq_none (by omega)]
    constructor
    · rintro ⟨_, hitem, -⟩
      cases hitem
    · rintro (⟨_, hitem, -⟩ | rfl)
      · cases hitem
      · omega

@[simp] theorem next_retain {amount : ℕ} : (account.retain amount).next = account.next + 1 := by
  simp [next, retain]

@[simp] theorem next_release : (account.release i).next = account.next := by
  unfold release next
  split
  · rfl
  · split <;> simp

theorem Sound.retain (h : account.Sound cap) {amount : ℕ} (hfits : account.total + amount ≤ cap) :
    (account.retain amount).Sound cap where
  total := by
    have := h.total
    simp only [Retention.retain, tally_append, tally_cons, tally_nil, RetainedItem.weight, if_true]
    omega
  bounded := hfits
  once := by
    intro item hitem
    rcases List.mem_append.mp hitem with hold | hnew
    · exact h.once item hold
    · obtain rfl := List.mem_singleton.mp hnew
      rfl

theorem Sound.release (h : account.Sound cap) (i : ℕ) : (account.release i).Sound cap := by
  unfold Retention.release
  split
  · exact h
  · rename_i item hitem
    split
    · rename_i hretained
      have hset := tally_set (w := RetainedItem.weight) hitem
        { item with retained := false, releases := item.releases + 1 }
      have hweight : item.weight = item.amount := by rw [RetainedItem.weight, if_pos hretained]
      have hgone : ({ item with retained := false, releases := item.releases + 1 } :
          RetainedItem).weight = 0 := rfl
      have htotal := h.total
      have hbounded := h.bounded
      rw [hweight, hgone] at hset
      refine ⟨?_, ?_, ?_⟩
      · change account.total - item.amount = tally RetainedItem.weight (account.items.set i _)
        omega
      · change account.total - item.amount ≤ cap
        omega
      · intro found hfound
        rcases List.mem_or_eq_of_mem_set hfound with hold | rfl
        · exact h.once found hold
        · have hzero := h.once item (List.mem_of_getElem? hitem)
          rw [if_pos hretained] at hzero
          simp [hzero]
    · exact h

theorem Sound.settled (h : account.Sound cap) (hnone : ∀ i, ¬account.Holds i) :
    account.total = 0 ∧ ∀ item ∈ account.items, item.releases = 1 := by
  have hitems : ∀ item ∈ account.items, item.retained = false := by
    intro item hitem
    obtain ⟨i, hi⟩ := List.mem_iff_getElem?.mp hitem
    by_contra hretained
    exact hnone i ⟨item, hi, by simpa using hretained⟩
  constructor
  · rw [h.total]
    exact tally_eq_zero fun item hitem => by simp [RetainedItem.weight, hitems item hitem]
  · intro item hitem
    rw [h.once item hitem, hitems item hitem]
    rfl

theorem amountOf_next (account : Retention) (amount : ℕ) :
    (account.retain amount).AmountOf account.next amount := by
  simp [AmountOf, retain, next]

/-- What is retained later does not change an amount. -/
theorem AmountOf.retain {amount : ℕ} (h : account.AmountOf i amount) (later : ℕ) :
    (account.retain later).AmountOf i amount := by
  obtain ⟨item, hitem, hamount⟩ := Option.map_eq_some_iff.mp h
  have hlength : i < account.items.length := (List.getElem?_eq_some_iff.mp hitem).1
  rw [AmountOf, Retention.retain, List.getElem?_append_left hlength, hitem, Option.map_some,
    hamount]

/-- A release does not change an amount. -/
theorem AmountOf.release {amount : ℕ} (h : account.AmountOf i amount) (j : ℕ) :
    (account.release j).AmountOf i amount := by
  unfold Retention.release
  split
  · exact h
  · rename_i item hitem
    split
    · rw [AmountOf, List.getElem?_set]
      split
      · rename_i hij
        subst hij
        rw [if_pos (List.getElem?_eq_some_iff.mp hitem).1]
        rw [AmountOf, hitem] at h
        exact h
      · exact h
    · exact h

/-- A change of an account and of the numbers a part of the system owns: the account stays sound,
and what is retained afterwards is owned, or it was retained and owned by nobody here before. -/
structure Keeps (cap : ℕ) (before after : Retention) (owned owned' : List ℕ) : Prop where
  sound : before.Sound cap → after.Sound cap
  next : before.next ≤ after.next
  held : ∀ i, after.Holds i → i ∈ owned' ∨ before.Holds i ∧ i ∉ owned

namespace Keeps

variable {before after last : Retention} {owned owned' owned'' : List ℕ}

theorem refl (account : Retention) (hsubset : owned ⊆ owned') :
    Keeps cap account account owned owned' where
  sound := id
  next := Nat.le_refl _
  held i hi := by
    by_cases howned : i ∈ owned
    · exact .inl (hsubset howned)
    · exact .inr ⟨hi, howned⟩

theorem trans (h : Keeps cap before after owned owned') (h' : Keeps cap after last owned' owned'') :
    Keeps cap before last owned owned'' where
  sound hsound := h'.sound (h.sound hsound)
  next := Nat.le_trans h.next h'.next
  held i hi := by
    rcases h'.held i hi with howned | ⟨hheld, hnot⟩
    · exact .inl howned
    · rcases h.held i hheld with howned | hbefore
      · exact absurd howned hnot
      · exact .inr hbefore

theorem frame (h : Keeps cap before after owned owned') (extra : List ℕ) :
    Keeps cap before after (extra ++ owned) (extra ++ owned') where
  sound := h.sound
  next := h.next
  held i hi := by
    by_cases hextra : i ∈ extra
    · exact .inl (List.mem_append_left _ hextra)
    · rcases h.held i hi with howned | ⟨hheld, hnot⟩
      · exact .inl (List.mem_append_right _ howned)
      · exact .inr ⟨hheld, fun hmem => (List.mem_append.mp hmem).elim hextra hnot⟩

theorem mono (h : Keeps cap before after owned owned') (hsubset : owned'' ⊆ owned) :
    Keeps cap before after owned'' owned' where
  sound := h.sound
  next := h.next
  held i hi := (h.held i hi).imp_right fun hbefore =>
    ⟨hbefore.1, fun howned => hbefore.2 (hsubset howned)⟩

theorem release (account : Retention) (i : ℕ) (hsubset : ∀ j ∈ owned, j = i ∨ j ∈ owned') :
    Keeps cap account (account.release i) owned owned' where
  sound hsound := hsound.release i
  next := Nat.le_of_eq next_release.symm
  held j hj := by
    obtain ⟨hheld, hne⟩ := holds_release.mp hj
    by_cases howned : j ∈ owned
    · exact .inl ((hsubset j howned).resolve_left hne)
    · exact .inr ⟨hheld, howned⟩

theorem releaseAll (account : Retention) (released : List ℕ)
    (hsubset : ∀ j ∈ owned, j ∈ released ∨ j ∈ owned') :
    Keeps cap account (account.releaseAll released) owned owned' := by
  induction released generalizing account owned with
  | nil => exact .refl account fun j hj => (hsubset j hj).resolve_left List.not_mem_nil
  | cons i rest ih =>
    refine Keeps.trans (.release account i fun j hj => ?_)
      (@ih (rest ++ owned') (account.release i) fun j hj => List.mem_append.mp hj)
    rcases hsubset j hj with hreleased | hkept
    · rcases List.mem_cons.mp hreleased with rfl | hrest
      · exact .inl rfl
      · exact .inr (List.mem_append_left _ hrest)
    · exact .inr (List.mem_append_right _ hkept)

theorem retain (account : Retention) {amount : ℕ} (hfits : account.total + amount ≤ cap)
    (hnext : account.next ∈ owned') (hsubset : owned ⊆ owned') :
    Keeps cap account (account.retain amount) owned owned' where
  sound hsound := hsound.retain hfits
  next := by simp
  held j hj := by
    rcases holds_retain.mp hj with hheld | rfl
    · by_cases howned : j ∈ owned
      · exact .inl (hsubset howned)
      · exact .inr ⟨hheld, howned⟩
    · exact .inl hnext

end Keeps

end Retention

end PiAgentWeb
