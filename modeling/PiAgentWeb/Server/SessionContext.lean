import PiAgentWeb.Library.Lineage
import PiAgentWeb.Server.SessionHistoryPages

/-!
# The active context of a native Session

The walk from the last record through the parents ends on every list of records: at a record
without a parent among them, with the lineage of the last record, or at a record that is its own
ancestor. The context is the lineage, oldest record first, cut at its last compaction.
-/

namespace PiAgentWeb

/-- The record that the parent id of a record leads to. -/
def parentRecord (records : List SessionHistoryRecord) (record : SessionHistoryRecord) :
    Option SessionHistoryRecord :=
  record.parentId.bind (recordsById records).get?

variable {records : List SessionHistoryRecord}

theorem id_of_recordsById {id : JsString}
    {record : SessionHistoryRecord} (h : (recordsById records).get? id = some record) :
    record.id = id := by
  induction records using List.reverseRecOn with
  | nil => simp [recordsById] at h
  | append_singleton records last ih =>
    simp only [recordsById, List.foldl_append, List.foldl_cons, List.foldl_nil] at ih h
    rw [InsertionMap.get?_insert] at h
    by_cases hid : id = last.id
    · rw [if_pos hid] at h
      rw [← Option.some.inj h, hid]
    · rw [if_neg hid] at h
      exact ih h

variable {leaf : SessionHistoryRecord}

theorem recordsById_getLast?
    (h : records.getLast? = some leaf) : (recordsById records).get? leaf.id = some leaf := by
  induction records using List.reverseRecOn with
  | nil => cases h
  | append_singleton records last _ =>
    rw [List.getLast?_concat, Option.some.injEq] at h
    rw [recordsById, List.foldl_append, List.foldl_cons, List.foldl_nil, h,
      InsertionMap.get?_insert_self]

/-! ## The walk -/

/-- Where the walk has come to: the records it has seen are ancestors of the last one, and with
the lineage of the record it goes on with they make up its lineage. -/
structure WalkedTo (records : List SessionHistoryRecord) (leaf : SessionHistoryRecord)
    (path : List SessionHistoryRecord) (current : Option SessionHistoryRecord) : Prop where
  indexed : ∀ record ∈ path, (recordsById records).get? record.id = some record
  currentIndexed : ∀ record ∈ current, (recordsById records).get? record.id = some record
  reached : ∀ record ∈ current,
    Relation.ReflTransGen (Lineage.IsParent (parentRecord records)) leaf record
  ahead : ∀ record ∈ current, ∀ seen ∈ path,
    Relation.TransGen (Lineage.IsParent (parentRecord records)) seen record
  lineage : ∀ ancestors, Lineage (parentRecord records) current ancestors →
    Lineage (parentRecord records) (some leaf) (path.reverse ++ ancestors)

theorem walkedTo_leaf
    (h : records.getLast? = some leaf) : WalkedTo records leaf [] (some leaf) where
  indexed := by simp
  currentIndexed := by
    rintro record ⟨⟩
    exact recordsById_getLast? h
  reached := by
    rintro record ⟨⟩
    exact .refl
  ahead := by simp
  lineage := fun ancestors hancestors => hancestors

theorem WalkedTo.next {records path : List SessionHistoryRecord}
    {leaf record : SessionHistoryRecord} (h : WalkedTo records leaf path (some record)) :
    WalkedTo records leaf (record :: path) (parentRecord records record) := by
  refine ⟨?_, ?_, ?_, ?_, ?_⟩
  · intro seen hseen
    rcases List.mem_cons.mp hseen with rfl | hold
    · exact h.currentIndexed _ rfl
    · exact h.indexed seen hold
  · intro parent hparent
    obtain ⟨parentId, -, hfound⟩ := Option.bind_eq_some_iff.mp hparent
    rwa [id_of_recordsById hfound]
  · intro parent hparent
    exact (h.reached record rfl).tail hparent
  · intro parent hparent seen hseen
    rcases List.mem_cons.mp hseen with rfl | hold
    · exact .single hparent
    · exact (h.ahead record rfl seen hold).tail hparent
  · intro ancestors hancestors
    rw [List.reverse_cons, List.append_assoc, List.singleton_append]
    exact h.lineage _ hancestors.cons

theorem WalkedTo.cycle {records path : List SessionHistoryRecord}
    {leaf record : SessionHistoryRecord} (h : WalkedTo records leaf path (some record))
    (hseen : path.any (·.id == record.id) = true) :
    Relation.TransGen (Lineage.IsParent (parentRecord records)) record record := by
  obtain ⟨seen, hmem, hid⟩ := List.any_eq_true.mp hseen
  have heq : seen = record := by
    have hseen' := h.indexed seen hmem
    rw [eq_of_beq hid, h.currentIndexed record rfl] at hseen'
    exact (Option.some.inj hseen').symm
  exact heq ▸ h.ahead record rfl seen hmem

/-- How the walk ends: with the lineage of the last record, or at an ancestor of it that is its
own ancestor. -/
def WalkEnds (records : List SessionHistoryRecord) (leaf : SessionHistoryRecord) :
    Except SessionHistoryFailure (List SessionHistoryRecord) → Prop
  | .ok path => Lineage (parentRecord records) (some leaf) path.reverse
  | .error failure => failure = .history .invalidEntry ∧
      ∃ record, Relation.ReflTransGen (Lineage.IsParent (parentRecord records)) leaf record ∧
        Relation.TransGen (Lineage.IsParent (parentRecord records)) record record

theorem WalkedTo.ends {records path : List SessionHistoryRecord}
    {current : Option SessionHistoryRecord} {steps : ℕ} (h : WalkedTo records leaf path current)
    (hwalk : ParentWalk records path current) (hsteps : records.length < steps + path.length) :
    WalkEnds records leaf (parentPath (recordsById records) steps path current) := by
  induction steps generalizing path current with
  | zero =>
    have hsubset : path.map (·.id) ⊆ records.map (·.id) := by
      intro id hid
      obtain ⟨other, hother, rfl⟩ := List.mem_map.mp hid
      exact List.mem_map_of_mem (hwalk.mem other hother)
    have hlength : path.length ≤ records.length := by
      simpa using (hwalk.nodup.subperm hsubset).length_le
    omega
  | succ steps ih =>
    cases current with
    | none =>
      have hlineage := h.lineage [] .nil
      rwa [List.append_nil] at hlineage
    | some record =>
      rw [parentPath]
      split
      · rename_i hseen
        exact ⟨rfl, record, h.reached record rfl, h.cycle hseen⟩
      · rename_i hfresh
        exact ih h.next (hwalk.cons hfresh) (by rw [List.length_cons]; omega)

theorem parentPath_ends (h : records.getLast? = some leaf) :
    WalkEnds records leaf
      (parentPath (recordsById records) records.length [] records.getLast?) := by
  have hwalk : ParentWalk records [] (some leaf) :=
    ⟨List.nodup_nil, by simp, fun record hrecord => List.mem_of_getLast? (h.trans hrecord)⟩
  have hends : WalkEnds records leaf
      (parentPath (recordsById records) (records.length + 1) [] (some leaf)) :=
    (walkedTo_leaf h).ends hwalk (Nat.lt_succ_self _)
  rw [parentPath_steps 1 hwalk (Nat.le_refl _)] at hends
  rwa [h]

/-! ## The cut at the last compaction -/

/-- What a compaction keeps of the records before it: those from the first kept entry on, or none
if there is no such entry. -/
def keptBefore (compaction : SessionHistoryRecord) (before : List SessionHistoryRecord) :
    List SessionHistoryRecord :=
  match compaction.firstKeptEntryId with
  | none => []
  | some firstKeptEntryId =>
    if firstKeptEntryId = [] then [] else before.dropWhile (·.id ≠ firstKeptEntryId)

/-- The context of a path, oldest record first: the whole path if nothing was compacted, or the
last compaction, what it keeps and what came after it; of these only what holds a message. -/
def IsContextOf (path context : List SessionHistoryRecord) : Prop :=
  ((∀ record ∈ path, record.type ≠ js "compaction") ∧
      context = path.filter (0 < ·.messageCount)) ∨
    ∃ before compaction after, path = before ++ compaction :: after ∧
      compaction.type = js "compaction" ∧ (∀ record ∈ after, record.type ≠ js "compaction") ∧
      context = (compaction :: keptBefore compaction before ++ after).filter (0 < ·.messageCount)

theorem compactionIndex?_spec (path : List SessionHistoryRecord) :
    (compactionIndex? path = none ∧ ∀ record ∈ path, record.type ≠ js "compaction") ∨
      ∃ before compaction after, path = before ++ compaction :: after ∧
        compaction.type = js "compaction" ∧ (∀ record ∈ after, record.type ≠ js "compaction") ∧
        compactionIndex? path = some before.length := by
  induction path using List.reverseRecOn with
  | nil => exact .inl ⟨rfl, by simp⟩
  | append_singleton path last ih =>
    have hstep : compactionIndex? (path ++ [last]) =
        if last.type = js "compaction" then some path.length else compactionIndex? path := by
      simp [compactionIndex?, List.zipIdx_append]
    rw [hstep]
    by_cases hlast : last.type = js "compaction"
    · exact .inr ⟨path, last, [], rfl, hlast, by simp, if_pos hlast⟩
    · rw [if_neg hlast]
      rcases ih with ⟨hnone, hpath⟩ | ⟨before, compaction, after, rfl, htype, hafter, hindex⟩
      · refine .inl ⟨hnone, fun record hrecord => ?_⟩
        rcases List.mem_append.mp hrecord with hold | hnew
        · exact hpath record hold
        · rw [List.mem_singleton.mp hnew]
          exact hlast
      · refine .inr ⟨before, compaction, after ++ [last], by simp, htype, fun record hrecord => ?_,
          hindex⟩
        rcases List.mem_append.mp hrecord with hold | hnew
        · exact hafter record hold
        · rw [List.mem_singleton.mp hnew]
          exact hlast

theorem drop_findIdx? (before : List SessionHistoryRecord) (id : JsString) :
    (match before.findIdx? (·.id == id) with
      | none => []
      | some firstKept => before.drop firstKept) = before.dropWhile (·.id ≠ id) := by
  induction before with
  | nil => rfl
  | cons record rest ih =>
    rw [List.findIdx?_cons, List.dropWhile_cons]
    by_cases hid : record.id = id
    · simp [hid]
    · rw [← ih]
      cases hfound : rest.findIdx? (·.id == id) with
      | none => simp [hid]
      | some firstKept => simp [hid]

theorem keptRecords_spec (path : List SessionHistoryRecord) :
    IsContextOf path ((keptRecords path).filter (0 < ·.messageCount)) := by
  rcases compactionIndex?_spec path with
    ⟨hnone, hpath⟩ | ⟨before, compaction, after, rfl, htype, hafter, hindex⟩
  · refine .inl ⟨hpath, ?_⟩
    rw [keptRecords, hnone]
  · refine .inr ⟨before, compaction, after, rfl, htype, hafter, ?_⟩
    have hkept : keptRecords (before ++ compaction :: after) =
        compaction :: keptBefore compaction before ++ after := by
      have hget : (before ++ compaction :: after)[before.length]? = some compaction := by simp
      have htake : (before ++ compaction :: after).take before.length = before := by simp
      have hdrop : (before ++ compaction :: after).drop (before.length + 1) = after := by simp
      rw [keptRecords, hindex]
      dsimp only
      rw [hget, htake, hdrop, keptBefore]
      dsimp only
      cases compaction.firstKeptEntryId with
      | none => rfl
      | some firstKeptEntryId =>
        dsimp only
        by_cases hempty : firstKeptEntryId = []
        · rw [if_pos hempty, if_pos hempty]
          rfl
        · rw [if_neg hempty, if_neg hempty, ← drop_findIdx?]
          cases before.findIdx? (·.id == firstKeptEntryId) <;> rfl
    rw [hkept]

/-- On every list of records, also on one with duplicate ids, the active context is that of the
lineage of the last record; if that record has no lineage, an ancestor of it is its own ancestor
and there is no context. -/
theorem activeContextRecords_spec (records : List SessionHistoryRecord) :
    (∃ path context, Lineage (parentRecord records) records.getLast? path ∧
        activeContextRecords records = .ok context ∧ IsContextOf path.reverse context) ∨
      (∃ leaf record, records.getLast? = some leaf ∧
          Relation.ReflTransGen (Lineage.IsParent (parentRecord records)) leaf record ∧
          Relation.TransGen (Lineage.IsParent (parentRecord records)) record record) ∧
        (¬∃ path, Lineage (parentRecord records) records.getLast? path) ∧
        activeContextRecords records = .error (.history .invalidEntry) := by
  cases hlast : records.getLast? with
  | none =>
    rw [List.getLast?_eq_none_iff] at hlast
    subst hlast
    exact .inl ⟨[], [], .nil, rfl, keptRecords_spec []⟩
  | some leaf =>
    have hends := parentPath_ends hlast
    rw [activeContextRecords]
    split
    · rename_i failure hwalk
      rw [hwalk] at hends
      obtain ⟨rfl, record, hreached, hcycle⟩ := hends
      refine .inr ⟨⟨leaf, record, rfl, hreached, hcycle⟩, ?_, rfl⟩
      rintro ⟨path, hlineage⟩
      exact hlineage.acyclic hreached hcycle
    · rename_i path hwalk
      rw [hwalk] at hends
      refine .inl ⟨path.reverse, _, hends, rfl, ?_⟩
      rw [List.reverse_reverse]
      exact keptRecords_spec path

end PiAgentWeb
