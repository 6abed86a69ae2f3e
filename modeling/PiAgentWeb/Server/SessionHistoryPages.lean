import Mathlib.Data.List.Induction
import Mathlib.Data.List.Perm.Subperm
import Mathlib.Tactic.Linarith
import PiAgentWeb.Server.SessionHistory

/-!
# History pages partition the active context

The records of a scan have distinct ids, so have those of the active context. Every range is
chosen by the same two loops: it is a suffix of the records before its end, it is not empty, and
only a record above the byte limit makes the choice fail. A reader that follows the cursors thus
sees consecutive slices of the context, newest first, until the start is reached.
-/

namespace PiAgentWeb

/-! ## The active context -/

variable {records : List SessionHistoryRecord}

theorem recordsById_isSome {id : JsString} :
    ((recordsById records).get? id).isSome = true ↔ id ∈ records.map (·.id) := by
  induction records using List.reverseRecOn with
  | nil => simp [recordsById]
  | append_singleton records record ih =>
    simp only [recordsById, List.foldl_append, List.foldl_cons, List.foldl_nil] at ih ⊢
    rw [InsertionMap.get?_insert]
    by_cases hid : id = record.id
    · simp [hid]
    · simp [hid, ih]

theorem mem_of_recordsById {id : JsString}
    {record : SessionHistoryRecord} (h : (recordsById records).get? id = some record) :
    record ∈ records := by
  induction records using List.reverseRecOn with
  | nil => simp [recordsById] at h
  | append_singleton records last ih =>
    simp only [recordsById, List.foldl_append, List.foldl_cons, List.foldl_nil] at ih h
    rw [InsertionMap.get?_insert] at h
    by_cases hid : id = last.id
    · rw [if_pos hid] at h
      simp [Option.some.inj h]
    · rw [if_neg hid] at h
      exact List.mem_append_left _ (ih h)

variable {options : NativeSessionHistoryScanOptions} {canonicalizePath : JsString → JsString}

/-- What one line can do to the scan: nothing to the records, or one record with a new id and at
most one message, within the index limit. -/
theorem processLine_records {scan next : SessionScan} {line : SessionLine}
    (h : processLine canonicalizePath options scan line = .ok next) :
    next.records = scan.records ∨
      ∃ record, next.records = scan.records ++ [record] ∧
        record.id ∉ scan.records.map (·.id) ∧ record.messageCount ≤ 1 ∧
        record.byteLength = line.length ∧ scan.records.length < options.maxIndexedRecords := by
  unfold processLine at h
  split at h
  · exact .inl (by cases h; rfl)
  · split at h
    · left
      split at h
      · cases h
      · split at h
        · cases h
        · split at h
          · cases h
          · cases h; rfl
    · right
      split at h
      · cases h
      · rename_i entry _
        split at h
        · cases h
        · rename_i hfresh
          split at h
          · cases h
          · rename_i hroom
            split at h
            · cases h
            · refine ⟨_, by cases h; rfl, ?_, ?_, rfl, by omega⟩
              · rwa [recordsById_isSome] at hfresh
              · dsimp only [sessionEntryMessageCount]
                repeat' split
                all_goals omega

/-- The records that reading keeps: their ids are distinct, each counts at most one message and
fits the line limit, and there are no more of them than the index may hold. -/
structure IndexedRecords (options : NativeSessionHistoryScanOptions)
    (records : List SessionHistoryRecord) : Prop where
  nodup : (records.map (·.id)).Nodup
  messageCount : ∀ record ∈ records, record.messageCount ≤ 1
  byteLength : ∀ record ∈ records, record.byteLength ≤ options.maxLineBytes
  length : records.length ≤ options.maxIndexedRecords

theorem IndexedRecords.processLine {scan next : SessionScan} {line : SessionLine}
    (hscan : IndexedRecords options scan.records) (hline : line.length ≤ options.maxLineBytes)
    (h : PiAgentWeb.processLine canonicalizePath options scan line = .ok next) :
    IndexedRecords options next.records := by
  rcases processLine_records h with heq | ⟨record, heq, hfresh, hcount, hbytes, hroom⟩
  · exact heq ▸ hscan
  · rw [heq]
    refine ⟨?_, ?_, ?_, by rw [List.length_append, List.length_singleton]; omega⟩
    · rw [List.map_append, List.nodup_append_comm]
      simpa using ⟨by simpa using hfresh, hscan.nodup⟩
    · intro other hother
      rcases List.mem_append.mp hother with hold | hnew
      · exact hscan.messageCount other hold
      · rw [List.mem_singleton.mp hnew]; exact hcount
    · intro other hother
      rcases List.mem_append.mp hother with hold | hnew
      · exact hscan.byteLength other hold
      · rw [List.mem_singleton.mp hnew, hbytes]; exact hline

theorem IndexedRecords.readLines {lines : List SessionLine} {scan next : SessionScan}
    (hscan : IndexedRecords options scan.records)
    (h : PiAgentWeb.readLines canonicalizePath options scan lines = .ok next) :
    IndexedRecords options next.records := by
  induction lines generalizing scan with
  | nil =>
    cases h
    exact hscan
  | cons line rest ih =>
    simp only [PiAgentWeb.readLines] at h
    split at h
    · cases h
    · rename_i hline
      split at h
      · cases h
      · rename_i hstep
        exact ih (hscan.processLine (by omega) hstep) h

theorem readSessionRecords_indexed {size : ℕ} {lines : List SessionLine}
    (h : readSessionRecords canonicalizePath options size lines = .ok records) :
    options.valid = true ∧ IndexedRecords options records := by
  unfold readSessionRecords at h
  split at h
  · cases h
  · rename_i hvalid
    split at h
    · cases h
    · split at h
      · cases h
      · rename_i hread
        split at h
        · cases h
          refine ⟨by simpa using hvalid, IndexedRecords.readLines ?_ hread⟩
          exact ⟨List.nodup_nil, by simp, by simp, Nat.zero_le _⟩
        · cases h

/-- What the parent walk has at each step: a path through the records that repeats no id, and the
record it goes on with. -/
structure ParentWalk (records path : List SessionHistoryRecord)
    (current : Option SessionHistoryRecord) : Prop where
  nodup : (path.map (·.id)).Nodup
  mem : ∀ record ∈ path, record ∈ records
  current : ∀ record ∈ current, record ∈ records

theorem ParentWalk.cons {records path : List SessionHistoryRecord} {record : SessionHistoryRecord}
    (h : ParentWalk records path (some record)) (hfresh : ¬path.any (·.id == record.id)) :
    ParentWalk records (record :: path) (record.parentId.bind (recordsById records).get?) := by
  refine ⟨?_, ?_, ?_⟩
  · rw [List.map_cons, List.nodup_cons]
    exact ⟨by simpa using hfresh, h.nodup⟩
  · intro other hother
    rcases List.mem_cons.mp hother with rfl | hold
    · exact h.current _ rfl
    · exact h.mem other hold
  · intro other hother
    obtain ⟨parentId, _, hparent⟩ := Option.bind_eq_some_iff.mp hother
    exact mem_of_recordsById hparent

theorem ParentWalk.result {records path result : List SessionHistoryRecord} {steps : ℕ}
    {current : Option SessionHistoryRecord} (hwalk : ParentWalk records path current)
    (h : parentPath (recordsById records) steps path current = .ok result) :
    ParentWalk records result none := by
  induction steps generalizing path current with
  | zero =>
    cases current with
    | none =>
      cases h
      exact hwalk
    | some record => cases h
  | succ steps ih =>
    cases current with
    | none =>
      cases h
      exact hwalk
    | some record =>
      simp only [parentPath] at h
      split at h
      · cases h
      · rename_i hfresh
        exact ih (hwalk.cons hfresh) h

/-- The bound on the steps is never what ends the parent walk: with more steps it does the same,
since a path through all records can only go on to one it has seen. -/
theorem parentPath_steps {records path : List SessionHistoryRecord} {steps : ℕ}
    {current : Option SessionHistoryRecord} (more : ℕ) (hwalk : ParentWalk records path current)
    (hsteps : records.length ≤ steps + path.length) :
    parentPath (recordsById records) (steps + more) path current =
      parentPath (recordsById records) steps path current := by
  induction steps generalizing path current with
  | zero =>
    cases current with
    | none => cases more <;> rfl
    | some record =>
      cases more with
      | zero => rfl
      | succ more =>
        have hsubset : path.map (·.id) ⊆ records.map (·.id) := by
          intro id hid
          obtain ⟨other, hother, rfl⟩ := List.mem_map.mp hid
          exact List.mem_map_of_mem (hwalk.mem other hother)
        have hperm := (hwalk.nodup.subperm hsubset).perm_of_length_le (by simpa using hsteps)
        have hseen : record.id ∈ path.map (·.id) :=
          hperm.mem_iff.mpr (List.mem_map_of_mem (hwalk.current record rfl))
        have hany : path.any (·.id == record.id) = true := by
          simpa using hseen
        rw [Nat.zero_add]
        simp only [parentPath, hany, if_true]
  | succ steps ih =>
    rw [show steps + 1 + more = (steps + more) + 1 by omega]
    cases current with
    | none => rfl
    | some record =>
      simp only [parentPath]
      split
      · rfl
      · rename_i hfresh
        exact ih (hwalk.cons hfresh) (by simp only [List.length_cons]; omega)

/-- What the context keeps of a path: all of it, or the last compaction, a part of what precedes
it, and what follows it. -/
theorem keptRecords_cases (path : List SessionHistoryRecord) :
    keptRecords path = path ∨
      ∃ before kept compaction after, path = before ++ compaction :: after ∧
        kept.Sublist before ∧ keptRecords path = compaction :: (kept ++ after) := by
  unfold keptRecords
  split
  · exact .inl rfl
  · rename_i index _
    split
    · exact .inl rfl
    · rename_i compaction hcompaction
      right
      obtain ⟨hindex, heq⟩ := List.getElem?_eq_some_iff.mp hcompaction
      have hpath : path = path.take index ++ compaction :: path.drop (index + 1) := by
        rw [← heq, ← List.drop_eq_getElem_cons hindex, List.take_append_drop]
      split
      · exact ⟨_, [], _, _, hpath, List.nil_sublist _, rfl⟩
      · split
        · exact ⟨_, [], _, _, hpath, List.nil_sublist _, rfl⟩
        · split
          · exact ⟨_, [], _, _, hpath, List.nil_sublist _, rfl⟩
          · exact ⟨_, _, _, _, hpath, List.drop_sublist _ _, rfl⟩

theorem ParentWalk.keptRecords {records path : List SessionHistoryRecord}
    (h : ParentWalk records path none) : ParentWalk records (keptRecords path) none := by
  rcases keptRecords_cases path with heq | ⟨before, kept, compaction, after, hpath, hkept, heq⟩
  · rw [heq]
    exact h
  · have hsub : (compaction :: (kept ++ after)).Subperm path := by
      rw [hpath]
      exact ((hkept.append_right after).cons_cons compaction).subperm.trans
        List.perm_middle.symm.subperm
    obtain ⟨part, hperm, hpart⟩ := hsub
    rw [heq]
    exact ⟨(hperm.map _).nodup_iff.mp (h.nodup.sublist (hpart.map _)),
      fun record hrecord => h.mem record (hpart.subset (hperm.mem_iff.mpr hrecord)), h.current⟩

/-- The records of an active context are records of the scan, each at most once. -/
theorem activeContextRecords_walk {records context : List SessionHistoryRecord}
    (h : activeContextRecords records = .ok context) : ParentWalk records context none := by
  unfold activeContextRecords at h
  split at h
  · cases h
  · rename_i path hpath
    cases h
    have hwalk : ParentWalk records [] records.getLast? :=
      ⟨List.nodup_nil, by simp, fun record hrecord => List.mem_of_getLast? hrecord⟩
    have hkept := (hwalk.result hpath).keptRecords
    exact ⟨hkept.nodup.sublist (List.filter_sublist.map _),
      fun record hrecord => hkept.mem record (List.mem_of_mem_filter hrecord), hkept.current⟩

/-- An active context never holds too many messages: each record counts at most one, and the index
limit bounds the records. -/
theorem activeContextRecords_messages
    {records context : List SessionHistoryRecord} (hvalid : options.valid = true)
    (hindexed : IndexedRecords options records) (h : activeContextRecords records = .ok context) :
    (context.map (·.messageCount)).sum ≤ SESSION_HISTORY_MAX_MESSAGES := by
  have hwalk := activeContextRecords_walk h
  have hsubset : context.map (·.id) ⊆ records.map (·.id) := by
    intro id hid
    obtain ⟨record, hrecord, rfl⟩ := List.mem_map.mp hid
    exact List.mem_map_of_mem (hwalk.mem record hrecord)
  have hlength : context.length ≤ records.length := by
    simpa using (hwalk.nodup.subperm hsubset).length_le
  have hsum : (context.map (·.messageCount)).sum ≤ context.length := by
    have hone : ∀ record ∈ context, record.messageCount ≤ 1 := fun record hrecord =>
      hindexed.messageCount record (hwalk.mem record hrecord)
    simpa using List.sum_le_card_nsmul (context.map (·.messageCount)) 1 (by simpa using hone)
  have hmax : options.maxIndexedRecords ≤ SESSION_HISTORY_MAX_MESSAGES := by
    simp only [NativeSessionHistoryScanOptions.valid, Bool.and_eq_true, decide_eq_true_eq] at hvalid
    exact hvalid.2
  have := hindexed.length
  omega

/-! ## Ranges -/

theorem slice_append_drop (records : List SessionHistoryRecord) {start stop : ℕ}
    (h : start ≤ stop) (hstop : stop ≤ records.length) :
    (records.take stop).drop start ++ records.drop stop = records.drop start := by
  have hsplit := congrArg (List.drop start) (List.take_append_drop stop records)
  rwa [List.drop_append_of_le_length (by simp; omega)] at hsplit

theorem slice_append_slice (records : List SessionHistoryRecord) {start middle stop : ℕ}
    (h : start ≤ middle) (hmiddle : middle ≤ stop) (hstop : stop ≤ records.length) :
    (records.take middle).drop start ++ (records.take stop).drop middle =
      (records.take stop).drop start := by
  have hslice := slice_append_drop (records.take stop) h (by simp; omega)
  rwa [List.take_take, min_eq_left hmiddle] at hslice

/-- The first loop stops at or before its start, within the byte limit; it fails only at a record
above the limit. -/
theorem takeMessages_spec (records : List SessionHistoryRecord) (byteLimit : ℕ) {start : ℕ}
    (hstart : start ≤ records.length) (remaining : ℤ) (sourceBytes : ℕ) :
    match takeMessages records byteLimit start remaining sourceBytes with
    | .error failure => failure = .history .tooLarge ∧
        ∃ record ∈ records.take start, byteLimit < record.byteLength
    | .ok (stop, bytes) => stop ≤ start ∧
        bytes = sourceBytes + (((records.take start).drop stop).map (·.byteLength)).sum ∧
        (sourceBytes ≤ byteLimit → bytes ≤ byteLimit) := by
  induction start generalizing remaining sourceBytes with
  | zero => simp [takeMessages]
  | succ start ih =>
    have hget : records[start]? = some records[start] := List.getElem?_eq_getElem (by omega)
    have htake : records.take (start + 1) = records.take start ++ [records[start]] := by
      rw [List.take_add_one, hget]; rfl
    simp only [takeMessages, hget]
    split
    · rename_i heq
      split at heq
      · cases heq
      · split at heq
        · split at heq
          · rename_i hlarge hzero
            cases heq
            refine ⟨rfl, records[start], ?_, by omega⟩
            rw [htake]
            exact List.mem_append_right _ (List.mem_singleton.mpr rfl)
          · cases heq
        · have hrec := ih (by omega) (remaining - records[start].messageCount)
            (sourceBytes + records[start].byteLength)
          rw [heq] at hrec
          obtain ⟨hfailure, record, hrecord, hlarge⟩ := hrec
          exact ⟨hfailure, record, by rw [htake]; exact List.mem_append_left _ hrecord, hlarge⟩
    · rename_i stop bytes heq
      split at heq
      · cases heq
        simp
      · split at heq
        · split at heq
          · cases heq
          · cases heq
            simp
        · have hrec := ih (by omega) (remaining - records[start].messageCount)
            (sourceBytes + records[start].byteLength)
          rw [heq] at hrec
          obtain ⟨hle, hbytes, hlimit⟩ := hrec
          refine ⟨by omega, ?_, fun _ => hlimit (by omega)⟩
          rw [htake, List.drop_append_of_le_length (by simp; omega)]
          simp only [List.map_append, List.sum_append, List.map_cons, List.map_nil, List.sum_cons,
            List.sum_nil]
          omega

theorem takeMessages_lt {byteLimit start stop bytes : ℕ}
    {remaining : ℤ} (hstart : start ≤ records.length) (hpos : 0 < start)
    (hremaining : 0 < remaining)
    (h : takeMessages records byteLimit start remaining 0 = .ok (stop, bytes)) : stop < start := by
  obtain ⟨start, rfl⟩ : ∃ start', start = start' + 1 := ⟨start - 1, by omega⟩
  have hget : records[start]? = some records[start] := List.getElem?_eq_getElem (by omega)
  simp only [takeMessages, hget, if_neg (show ¬remaining ≤ 0 by omega)] at h
  split at h
  · simp at h
  · have hrec := takeMessages_spec records byteLimit (show start ≤ records.length by omega)
      (remaining - records[start].messageCount) (0 + records[start].byteLength)
    rw [h] at hrec
    have := hrec.1
    omega

theorem alignTurn_spec (records : List SessionHistoryRecord) (byteLimit : ℕ) {start : ℕ}
    (hstart : start = 0 ∨ start < records.length) (sourceBytes : ℕ) :
    ∃ stop bytes, alignTurn records byteLimit start sourceBytes = .ok (stop, bytes) ∧
      stop ≤ start ∧
      bytes = sourceBytes + (((records.take start).drop stop).map (·.byteLength)).sum ∧
      (sourceBytes ≤ byteLimit → bytes ≤ byteLimit) := by
  induction start generalizing sourceBytes with
  | zero => exact ⟨0, sourceBytes, rfl, le_refl 0, by simp, id⟩
  | succ start ih =>
    have hlt : start + 1 < records.length := by omega
    have hfirst : records[start + 1]? = some records[start + 1] := List.getElem?_eq_getElem hlt
    have hget : records[start]? = some records[start] := List.getElem?_eq_getElem (by omega)
    simp only [alignTurn, hfirst, hget]
    split
    · exact ⟨_, _, rfl, le_refl _, by simp, id⟩
    · split
      · exact ⟨_, _, rfl, le_refl _, by simp, id⟩
      · obtain ⟨stop, bytes, heq, hle, hbytes, hlimit⟩ :=
          ih (.inr (by omega)) (sourceBytes + records[start].byteLength)
        refine ⟨stop, bytes, heq, by omega, ?_, fun _ => hlimit (by omega)⟩
        have htake : records.take (start + 1) = records.take start ++ [records[start]] := by
          rw [List.take_add_one, hget]; rfl
        rw [htake, List.drop_append_of_le_length (by simp; omega)]
        simp only [List.map_append, List.sum_append, List.map_cons, List.map_nil, List.sum_cons,
          List.sum_nil]
        omega

/-- Both loops together: a range before `stop` that takes at least one record, with its exact
source bytes within the limit, unless some record alone is above the limit. -/
theorem selectRange_spec (byteLimit : ℕ) {stop limit : ℕ}
    (hstop : stop ≤ records.length) (hlimit : 0 < limit) :
    match selectRange records byteLimit stop limit with
    | .error failure => failure = .history .tooLarge ∧
        ∃ record ∈ records, byteLimit < record.byteLength
    | .ok (start, bytes) => start ≤ stop ∧ (0 < stop → start < stop) ∧
        bytes = (((records.take stop).drop start).map (·.byteLength)).sum ∧ bytes ≤ byteLimit := by
  have htake := takeMessages_spec records byteLimit hstop limit 0
  unfold selectRange
  cases hmessages : takeMessages records byteLimit stop limit 0 with
  | error failure =>
    rw [hmessages] at htake
    obtain ⟨hfailure, record, hrecord, hlarge⟩ := htake
    exact ⟨hfailure, record, List.mem_of_mem_take hrecord, hlarge⟩
  | ok taken =>
    obtain ⟨middle, taken⟩ := taken
    rw [hmessages] at htake
    obtain ⟨hle, htaken, hbytes⟩ := htake
    have hlt : 0 < stop → middle < stop := fun hpos =>
      takeMessages_lt hstop hpos (by omega) hmessages
    obtain ⟨start, bytes, halign, hstart, haligned, hwithin⟩ :=
      alignTurn_spec records byteLimit
        (show middle = 0 ∨ middle < records.length by omega) taken
    dsimp only
    rw [halign]
    refine ⟨by omega, by omega, ?_, hwithin (hbytes (Nat.zero_le _))⟩
    rw [← slice_append_slice records hstart hle hstop, List.map_append, List.sum_append]
    omega

/-! ## Pages -/

namespace NativeSessionHistoryPlan

/-- The record position that a cursor points to; no cursor is the start of the records. -/
def position : Option HistoryCursor → ℕ
  | none => 0
  | some cursor => cursor.start.toNat

@[simp] theorem position_encodeCursor (plan : NativeSessionHistoryPlan) (start : ℕ) :
    position (plan.encodeCursor start) = start := by
  unfold encodeCursor
  split
  · rename_i hzero
    exact hzero.symm
  · rfl

theorem readRange_eq (plan : NativeSessionHistoryPlan) {start stop : ℕ} (hstart : start ≤ stop)
    (hstop : stop ≤ plan.records.length) :
    ∃ slice, plan.readRange start stop = .ok slice ∧
      slice.entries = (plan.records.take stop).drop start ∧
      slice.nextCursor = plan.encodeCursor start := by
  unfold readRange
  rw [if_neg (by omega)]
  exact ⟨_, rfl, rfl, rfl⟩

theorem decodeCursor_encodeCursor {plan : NativeSessionHistoryPlan} {start : ℕ}
    {cursor : HistoryCursor} (hstart : start ≤ plan.records.length)
    (h : plan.encodeCursor start = some cursor) : plan.decodeCursor cursor = .ok start := by
  unfold encodeCursor at h
  split at h
  · cases h
  · cases h
    unfold decodeCursor
    rw [if_neg (by simp only [ne_eq, not_true, false_or]; omega), Int.toNat_natCast]

/-- A page under a valid limit and a cursor of the plan: the nonempty slice that ends at the
cursor, with a cursor to its start, unless some record alone is above the chunk limit. -/
theorem readPage_spec {plan : NativeSessionHistoryPlan} {stop limit : ℕ} {cursor : HistoryCursor}
    (hstop : stop ≤ plan.records.length) (hcursor : plan.encodeCursor stop = some cursor)
    (hlimit : 0 < limit ∧ limit ≤ SESSION_HISTORY_MAX_CHUNK_MESSAGES) :
    match plan.readPage cursor limit with
    | .error failure => failure = .history .tooLarge ∧
        ∃ record ∈ plan.records, SESSION_HISTORY_MAX_CHUNK_BYTES < record.byteLength
    | .ok page => ∃ start < stop, page.entries = (plan.records.take stop).drop start ∧
        page.nextCursor = plan.encodeCursor start := by
  have hpos : 0 < stop := by
    by_contra hzero
    simp [encodeCursor, show stop = 0 by omega] at hcursor
  have hrange := selectRange_spec SESSION_HISTORY_MAX_CHUNK_BYTES hstop hlimit.1
  simp only [readPage, pageRange, if_neg (show ¬(limit = 0 ∨
    SESSION_HISTORY_MAX_CHUNK_MESSAGES < limit) by omega), decodeCursor_encodeCursor hstop hcursor]
  cases hselect : selectRange plan.records SESSION_HISTORY_MAX_CHUNK_BYTES stop limit with
  | error failure =>
    rw [hselect] at hrange
    exact hrange
  | ok range =>
    obtain ⟨start, bytes⟩ := range
    rw [hselect] at hrange
    obtain ⟨hle, hlt, -, -⟩ := hrange
    obtain ⟨slice, hread, hentries, hnext⟩ := readRange_eq plan hle hstop
    dsimp only
    rw [hread]
    exact ⟨start, hlt hpos, hentries, hnext⟩

/-- Following the cursors from a position: the pages are consecutive nonempty slices that lead
from the position of the cursor left over up to the start, and as many limits as there are records
before the start reach the end. -/
theorem followCursors_spec (plan : NativeSessionHistoryPlan) {limits : List ℕ}
    (hlimits : ∀ limit ∈ limits, 0 < limit ∧ limit ≤ SESSION_HISTORY_MAX_CHUNK_MESSAGES)
    {stop : ℕ} (hstop : stop ≤ plan.records.length) :
    match plan.followCursors (plan.encodeCursor stop) limits with
    | .error failure => failure = .history .tooLarge ∧
        ∃ record ∈ plan.records, SESSION_HISTORY_MAX_CHUNK_BYTES < record.byteLength
    | .ok (pages, next) => position next ≤ stop ∧
        (pages.reverse.map (·.entries)).flatten ++ plan.records.drop stop =
          plan.records.drop (position next) ∧
        (∀ page ∈ pages, page.entries ≠ []) ∧ (stop ≤ limits.length → next = none) := by
  induction limits generalizing stop with
  | nil =>
    cases hcursor : plan.encodeCursor stop with
    | none =>
      have hposition := plan.position_encodeCursor stop
      rw [hcursor] at hposition
      simp [followCursors, ← hposition, position]
    | some cursor =>
      have hposition := plan.position_encodeCursor stop
      rw [hcursor] at hposition
      simp only [followCursors, hposition, List.reverse_nil, List.map_nil, List.flatten_nil,
        List.nil_append, List.not_mem_nil, false_imp_iff, implies_true, List.length_nil,
        true_and, le_refl]
      intro hzero
      simp [encodeCursor, show stop = 0 by omega] at hcursor
  | cons limit limits ih =>
    cases hcursor : plan.encodeCursor stop with
    | none =>
      have hposition := plan.position_encodeCursor stop
      rw [hcursor] at hposition
      simp [followCursors, ← hposition, position]
    | some cursor =>
      have hpage := readPage_spec hstop hcursor (hlimits limit (List.mem_cons_self ..))
      simp only [followCursors]
      cases hread : plan.readPage cursor limit with
      | error failure =>
        rw [hread] at hpage
        exact hpage
      | ok page =>
        rw [hread] at hpage
        obtain ⟨start, hlt, hentries, hnext⟩ := hpage
        have hrest := ih (fun l hl => hlimits l (List.mem_cons_of_mem _ hl))
          (show start ≤ plan.records.length by omega)
        dsimp only
        rw [hnext]
        cases hfollow : plan.followCursors (plan.encodeCursor start) limits with
        | error failure =>
          rw [hfollow] at hrest
          exact hrest
        | ok result =>
          obtain ⟨pages, next⟩ := result
          rw [hfollow] at hrest
          obtain ⟨hposition, hflatten, hnonempty, hend⟩ := hrest
          refine ⟨by omega, ?_, ?_, fun hlength => hend ?_⟩
          · rw [List.reverse_cons, List.map_append, List.flatten_append, List.map_cons,
              List.map_nil, List.flatten_singleton, hentries, List.append_assoc,
              slice_append_drop _ (by omega) hstop, hflatten]
          · intro other hother
            rcases List.mem_cons.mp hother with rfl | hold
            · rw [hentries, Ne, ← List.length_eq_zero_iff, List.length_drop, List.length_take]
              omega
            · exact hnonempty other hold
          · rw [List.length_cons] at hlength
            omega

end NativeSessionHistoryPlan

/-- Following the cursors of a plan from the initial slice on, under any page limits: pages and
initial slice are together the part of the context after the cursor that is left, hence the whole
context when none is left. Every page holds a record, so that as many pages as the context has
records reach the end of the walk; a page fails only at a record that alone is above the chunk
limit. -/
def PagesPartition (plan : NativeSessionHistoryPlan) (initial : NativeSessionHistorySlice)
    (context : List SessionHistoryRecord) : Prop :=
  ∀ limits : List ℕ,
    (∀ limit ∈ limits, 0 < limit ∧ limit ≤ SESSION_HISTORY_MAX_CHUNK_MESSAGES) →
    match plan.followCursors initial.nextCursor limits with
    | .error failure => failure = .history .tooLarge ∧
        ∃ record ∈ context, SESSION_HISTORY_MAX_CHUNK_BYTES < record.byteLength
    | .ok (pages, next) =>
        (pages.reverse.map (·.entries)).flatten ++ initial.entries =
          context.drop (NativeSessionHistoryPlan.position next) ∧
        (next = none → (pages.reverse.map (·.entries)).flatten ++ initial.entries = context) ∧
        (∀ page ∈ pages, page.entries ≠ []) ∧
        (context.length ≤ limits.length → next = none)

/-- For every file that is read and has an active context, the scan either finds a record that
alone is above the limit of the initial slice, or makes a plan of that context, whose records are
distinct, with an initial slice that the pages complete to a partition. -/
theorem history_pagination_partition {canonicalizePath : JsString → JsString}
    {options : NativeSessionHistoryScanOptions} {planId size : ℕ} {lines : List SessionLine}
    {records context : List SessionHistoryRecord}
    (hread : readSessionRecords canonicalizePath options size lines = .ok records)
    (hcontext : activeContextRecords records = .ok context) :
    match scanNativeSessionHistory canonicalizePath options planId size lines with
    | .error failure => failure = .history .tooLarge ∧
        ∃ record ∈ context, options.initialSourceByteLimit < record.byteLength
    | .ok plan => plan.records = context ∧ (context.map (·.id)).Nodup ∧
        ∃ initial, plan.readInitial = .ok initial ∧ (context ≠ [] → initial.entries ≠ []) ∧
          PagesPartition plan initial context := by
  obtain ⟨hvalid, hindexed⟩ := readSessionRecords_indexed hread
  have hmessages := activeContextRecords_messages hvalid hindexed hcontext
  have hlimit : 0 < options.initialMessageLimit := by
    simp only [NativeSessionHistoryScanOptions.valid, Bool.and_eq_true, decide_eq_true_eq] at hvalid
    omega
  have hrange := selectRange_spec options.initialSourceByteLimit (le_refl context.length) hlimit
  simp only [scanNativeSessionHistory, hread, hcontext, planHistory,
    if_neg (show ¬SESSION_HISTORY_MAX_MESSAGES < (context.map (·.messageCount)).sum by omega)]
  cases hselect : selectRange context options.initialSourceByteLimit context.length
      options.initialMessageLimit with
  | error failure =>
    rw [hselect] at hrange
    exact hrange
  | ok range =>
    obtain ⟨initialStart, bytes⟩ := range
    rw [hselect] at hrange
    obtain ⟨hle, hlt, -, -⟩ := hrange
    dsimp only
    refine ⟨rfl, (activeContextRecords_walk hcontext).nodup, ?_⟩
    obtain ⟨initial, hinitial, hentries, hnext⟩ := NativeSessionHistoryPlan.readRange_eq
      ⟨planId, context, initialStart, (context.map (·.messageCount)).sum, size⟩ hle
      (le_refl _)
    rw [List.take_length] at hentries
    refine ⟨initial, hinitial, fun hne => ?_, fun limits hlimits => ?_⟩
    · have := hlt (List.length_pos_iff.mpr hne)
      rw [hentries, Ne, List.drop_eq_nil_iff]
      omega
    · have hfollow := NativeSessionHistoryPlan.followCursors_spec
        ⟨planId, context, initialStart, (context.map (·.messageCount)).sum, size⟩ hlimits hle
      rw [hnext, hentries]
      split
      · rename_i heq
        rw [heq] at hfollow
        exact hfollow
      · rename_i pages next heq
        rw [heq] at hfollow
        obtain ⟨hposition, hflatten, hnonempty, hend⟩ := hfollow
        refine ⟨hflatten, ?_, hnonempty, fun hlength => hend (by omega)⟩
        rintro rfl
        exact hflatten

/-- An entry line of the sample file. -/
def sampleEntryLine (type id : String) (parentId : Json) (more : List (JsString × Json)) :
    SessionLine where
  length := 100
  value := some (.obj ([(js "type", .str (js type)), (js "id", .str (js id)),
    (js "parentId", parentId)] ++ more))

/-- A file with a compaction that keeps the second message. -/
def sampleHistoryLines : List SessionLine :=
  [{ length := 80, value := some (.obj [(js "type", .str (js "session")),
      (js "id", .str (js "native")), (js "cwd", .str (js "/workspace"))]) },
    sampleEntryLine "message" "a" .null [(js "message", .obj [(js "role", .str (js "user"))])],
    sampleEntryLine "message" "b" (.str (js "a")) [(js "message", .obj [])],
    sampleEntryLine "compaction" "c" (.str (js "b")) [(js "firstKeptEntryId", .str (js "b"))],
    sampleEntryLine "message" "d" (.str (js "c"))
      [(js "message", .obj [(js "role", .str (js "user"))])]]

/-- A record of the sample file. -/
def sampleRecord (type id : String) (parentId : Option JsString) (startsTurn : Bool)
    (firstKeptEntryId : Option JsString) : SessionHistoryRecord where
  id := js id
  parentId := parentId
  type := js type
  messageCount := 1
  byteLength := 100
  startsTurn := startsTurn
  firstKeptEntryId := firstKeptEntryId

/-- The sample file is read into four records, of which the context keeps three. -/
theorem history_pagination_partition_compacted :
    let a := sampleRecord "message" "a" none true none
    let b := sampleRecord "message" "b" (some (js "a")) false none
    let c := sampleRecord "compaction" "c" (some (js "b")) false (some (js "b"))
    let d := sampleRecord "message" "d" (some (js "c")) true none
    readSessionRecords id { initialMessageLimit := 1 } 480 sampleHistoryLines = .ok [a, b, c, d] ∧
      activeContextRecords [a, b, c, d] = .ok [c, b, d] ∧
      match scanNativeSessionHistory id { initialMessageLimit := 1 } 7 480 sampleHistoryLines with
      | .error failure => failure = .history .tooLarge ∧
          ∃ record ∈ [c, b, d], DEFAULT_INITIAL_SOURCE_BYTE_LIMIT < record.byteLength
      | .ok plan => plan.records = [c, b, d] ∧ ([c, b, d].map (·.id)).Nodup ∧
          ∃ initial, plan.readInitial = .ok initial ∧ ([c, b, d] ≠ [] → initial.entries ≠ []) ∧
            PagesPartition plan initial [c, b, d] := by
  intro a b c d
  have hread : readSessionRecords id { initialMessageLimit := 1 } 480 sampleHistoryLines =
      .ok [a, b, c, d] := by decide +kernel
  have hcontext : activeContextRecords [a, b, c, d] = .ok [c, b, d] := by decide +kernel
  exact ⟨hread, hcontext, history_pagination_partition hread hcontext⟩

end PiAgentWeb
