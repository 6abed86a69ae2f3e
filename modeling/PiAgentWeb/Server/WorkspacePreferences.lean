import PiAgentWeb.Library.InsertionMap
import PiAgentWeb.UI.UserMessagePresentation
import Mathlib.Data.List.TakeWhile
import Mathlib.Data.Rat.Init

/-!
# Workspace preferences

`WorkspacePreferences` keeps its records in memory and writes all of them to a file, which a fresh
instance loads; before the first write it loads the hints of a legacy file instead. Memory is
updated before the file is written. The canonicalization of paths and the hash are parameters, a
file is what parsing it gives, and the steps of a write fail as the run says.
-/

namespace PiAgentWeb

/-! ## Records and files -/

/-- A number of the language, as a time in milliseconds. -/
inductive OpenedAt where
  | finite (value : ℚ)
  | nan
  | infinite (negative : Bool)
  deriving DecidableEq

/-- `Number.isFinite`. -/
def OpenedAt.isFinite : OpenedAt → Bool
  | .finite _ => true
  | _ => false

/-- `WorkspacePreference`. -/
structure WorkspacePreference where
  workspaceHandle : JsString
  pathHint : JsString
  pinned : Bool
  displayName : Option JsString
  lastOpenedAt : Option OpenedAt
  deriving DecidableEq

/-- `WorkspacePreferenceInput`. A field that is left out is `none`. -/
structure WorkspacePreferenceInput where
  pathHint : JsString
  pinned : Option Bool
  displayName : Option (Option JsString)
  lastOpenedAt : Option (Option OpenedAt)

/-- What `normalizePreference` reads of a stored value: the fields of the types it expects. -/
structure StoredPreference where
  pathHint : Option JsString
  pinned : Bool
  displayName : Option JsString
  lastOpenedAt : Option OpenedAt
  deriving DecidableEq

/-- The content of the file. What does not parse as a version 1 document is malformed. -/
inductive PreferencesFile where
  | blank
  | malformed
  | document (preferences : List StoredPreference)
  deriving DecidableEq

/-- What `loadLegacyHints` reads of a legacy workspace. -/
structure LegacyHint where
  cwdRealpath : Option JsString
  path : Option JsString
  displayName : Option JsString
  lastOpenedAt : Option OpenedAt

/-- The data directory: the file, and the hints of the legacy file, if it has any. -/
structure PreferencesDirectory where
  file : PreferencesFile
  legacy : List LegacyHint

/-- The records by handle. -/
abbrev PreferenceRecords := InsertionMap JsString WorkspacePreference

/-- `WorkspacePreferences`, with its data directory. -/
structure WorkspacePreferences where
  directory : PreferencesDirectory
  records : PreferenceRecords
  /-- `loadError` is set. -/
  loadError : Bool

/-- The fallible steps of `persist`, in order. -/
inductive PersistStep where
  | open | write | fsync | close | rename | chmod | openDirectory | fsyncDirectory | closeDirectory
  | unlink
  deriving DecidableEq

/-- A call that may write the file. -/
inductive PreferenceCall where
  | upsert (input : WorkspacePreferenceInput)
  | touch (workspaceHandle : JsString) (openedAt : OpenedAt)
  | remove (workspaceHandle : JsString)

namespace WorkspacePreferences

/-! ## Loading -/

/-- `canonicalizePathAllowMissing`, which reads the disk, and `hashIdentity`. -/
structure WorkspacePaths where
  canonicalize : JsString → JsString
  hashIdentity : JsString → JsString

variable (paths : WorkspacePaths)

/-- `workspaceHandleForPath`. -/
def workspaceHandleForPath (path : JsString) : JsString :=
  js "workspace_" ++ paths.hashIdentity (paths.canonicalize path)

/-- `normalizePreference`. -/
def normalizePreference (value : StoredPreference) : Option WorkspacePreference :=
  match value.pathHint with
  | none => none
  | some pathHint =>
    if (jsTrim pathHint).isEmpty then none
    else
      some {
        workspaceHandle := workspaceHandleForPath paths (paths.canonicalize pathHint)
        pathHint := paths.canonicalize pathHint
        pinned := value.pinned
        displayName := value.displayName
        lastOpenedAt := value.lastOpenedAt.filter OpenedAt.isFinite }

/-- The record of a legacy hint in `loadLegacyHints`. -/
def legacyPreference (hint : LegacyHint) : Option WorkspacePreference :=
  match (hint.cwdRealpath.or hint.path).filter (!·.isEmpty) with
  | none => none
  | some candidate =>
    some {
      workspaceHandle := workspaceHandleForPath paths (paths.canonicalize candidate)
      pathHint := paths.canonicalize candidate
      pinned := false
      displayName := hint.displayName
      lastOpenedAt := hint.lastOpenedAt }

/-- `this.records.set(record.workspaceHandle, record)`. -/
def setRecord (records : PreferenceRecords) (record : WorkspacePreference) : PreferenceRecords :=
  records.insert record.workspaceHandle record

/-- The constructor of a fresh instance: the records it loads, and whether it fails to. -/
def load (directory : PreferencesDirectory) : PreferenceRecords × Bool :=
  match directory.file with
  | .blank =>
    ((directory.legacy.filterMap (legacyPreference paths)).foldl setRecord .empty,
      false)
  | .malformed => (.empty, true)
  | .document preferences =>
    ((preferences.filterMap (normalizePreference paths)).foldl setRecord .empty,
      false)

/-- An instance that was just created. -/
def create (directory : PreferencesDirectory) : WorkspacePreferences where
  directory := directory
  records := (load paths directory).1
  loadError := (load paths directory).2

/-! ## Calls -/

/-- `JSON.stringify` of a record: a number that is not finite is written as `null`. -/
def stringify (record : WorkspacePreference) : StoredPreference where
  pathHint := some record.pathHint
  pinned := record.pinned
  displayName := record.displayName
  lastOpenedAt := record.lastOpenedAt.filter OpenedAt.isFinite

/-- The file that `persist` writes. -/
def document (records : PreferenceRecords) : PreferencesFile :=
  .document (records.entries.map fun entry => stringify entry.2)

/-- A step up to the renaming of the temporary file fails. -/
def failsToReplace (fails : PersistStep → Bool) : Bool :=
  fails .open || fails .write || fails .fsync || fails .close || fails .rename

/-- `persist`, and whether it throws. Only a failure up to `chmod` is not ignored. -/
def persist (fails : PersistStep → Bool) (s : WorkspacePreferences) :
    WorkspacePreferences × Bool :=
  if failsToReplace fails then (s, true)
  else
    let replaced := { s with directory := { s.directory with file := document s.records } }
    if fails .chmod then (replaced, true) else ({ replaced with loadError := false }, false)

/-- The record that `upsert` sets. -/
def upsertRecord (records : PreferenceRecords) (input : WorkspacePreferenceInput) :
    WorkspacePreference :=
  let pathHint := paths.canonicalize input.pathHint
  let workspaceHandle := workspaceHandleForPath paths pathHint
  let existing := records.get? workspaceHandle
  { workspaceHandle := workspaceHandle
    pathHint := pathHint
    pinned := (input.pinned.or (existing.map (·.pinned))).getD false
    displayName := input.displayName.getD (existing.bind (·.displayName))
    lastOpenedAt := input.lastOpenedAt.getD (existing.bind (·.lastOpenedAt)) }

/-- `upsert`, `touch` and `remove`, and whether the call throws. -/
def step (s : WorkspacePreferences) (call : PreferenceCall) (fails : PersistStep → Bool) :
    WorkspacePreferences × Bool :=
  match call with
  | .upsert input =>
    if (jsTrim input.pathHint).isEmpty then (s, true)
    else
      persist fails
        { s with
          records := setRecord s.records (upsertRecord paths s.records input) }
  | .touch workspaceHandle openedAt =>
    match s.records.get? workspaceHandle with
    | none => (s, false)
    | some existing =>
      persist fails
        { s with
          records := s.records.insert workspaceHandle { existing with lastOpenedAt := openedAt } }
  | .remove workspaceHandle =>
    if (s.records.get? workspaceHandle).isSome then
      persist fails { s with records := s.records.erase workspaceHandle }
    else (s, false)

/-- Calls one after another, each with the steps that fail. -/
def run (s : WorkspacePreferences) (calls : List (PreferenceCall × (PersistStep → Bool))) :
    WorkspacePreferences :=
  calls.foldl (fun s call => (step paths s call.1 call.2).1) s

/-- The pinned records first, then the ones opened last, then by path. -/
def precedes (localeCompare : JsString → JsString → ℤ) (a b : WorkspacePreference) : Bool :=
  if a.pinned ≠ b.pinned then a.pinned
  else
    match a.lastOpenedAt.getD (.finite 0), b.lastOpenedAt.getD (.finite 0) with
    | .finite x, .finite y => if x = y then localeCompare a.pathHint b.pathHint ≤ 0 else y < x
    | .infinite negative, .finite _ => !negative
    | .finite _, .infinite negative => negative
    | .infinite x, .infinite y => if x = y then localeCompare a.pathHint b.pathHint ≤ 0 else y
    | _, _ => localeCompare a.pathHint b.pathHint ≤ 0

/-- `list`. -/
def list (localeCompare : JsString → JsString → ℤ) (s : WorkspacePreferences) :
    List WorkspacePreference :=
  (s.records.entries.map (·.2)).mergeSort (precedes localeCompare)

/-! ## Records that load again -/

/-- A record under the handle of its canonical path. -/
def Canonical (workspaceHandle : JsString) (record : WorkspacePreference) : Prop :=
  record.workspaceHandle = workspaceHandle ∧ paths.canonicalize record.pathHint = record.pathHint ∧
    jsTrim record.pathHint ≠ [] ∧
    workspaceHandleForPath paths record.pathHint = workspaceHandle

/-- Every record is under the handle of its canonical path. -/
def AllCanonical (records : PreferenceRecords) : Prop :=
  ∀ workspaceHandle record, records.get? workspaceHandle = some record →
    Canonical paths workspaceHandle record

/-- The times of all records are finite. -/
def AllFinite (records : PreferenceRecords) : Prop :=
  ∀ workspaceHandle record, records.get? workspaceHandle = some record →
    record.lastOpenedAt.all OpenedAt.isFinite = true

variable {paths}

theorem eq_of_entries_eq {K V : Type*} {m m' : InsertionMap K V} (h : m.entries = m'.entries) :
    m = m' := by
  obtain ⟨entries, hnodup⟩ := m
  obtain ⟨entries', hnodup'⟩ := m'
  cases h
  rfl

theorem foldl_insert_entries {K V : Type*} [DecidableEq K] (later : List (K × V)) :
    ∀ m : InsertionMap K V, (m.entries ++ later).map Prod.fst |>.Nodup →
      (later.foldl (fun t entry => t.insert entry.1 entry.2) m).entries = m.entries ++ later := by
  induction later with
  | nil => exact fun m _ => (List.append_nil _).symm
  | cons entry rest ih =>
    intro m hnodup
    have hnew : m.get? entry.1 = none := by
      rw [InsertionMap.get?_eq_none_iff]
      intro v hmem
      rw [List.map_append, List.nodup_append] at hnodup
      exact hnodup.2.2 _ (List.mem_map_of_mem hmem) _ (List.mem_map_of_mem List.mem_cons_self) rfl
    have hentries := InsertionMap.entries_insert_of_get?_eq_none hnew entry.2
    rw [List.foldl_cons, ih, hentries, List.append_assoc]
    · rfl
    · rw [hentries, List.append_assoc]
      exact hnodup

theorem normalizePreference_stringify {workspaceHandle : JsString} {record : WorkspacePreference}
    (h : Canonical paths workspaceHandle record)
    (hfinite : record.lastOpenedAt.all OpenedAt.isFinite = true) :
    normalizePreference paths (stringify record) = some record := by
  obtain ⟨hkey, hcanonical, htrim, hhandle⟩ := h
  have htime : (record.lastOpenedAt.filter OpenedAt.isFinite).filter OpenedAt.isFinite =
      record.lastOpenedAt := by
    cases htime : record.lastOpenedAt with
    | none => rfl
    | some time =>
      have : time.isFinite = true := by simpa [htime] using hfinite
      simp [Option.filter, this]
  simp only [normalizePreference, stringify, List.isEmpty_iff, htrim, if_false, htime, hcanonical,
    hhandle, ← hkey]

theorem load_document {records : PreferenceRecords} (legacy : List LegacyHint)
    (h : AllCanonical paths records) (hfinite : AllFinite records) :
    (load paths ⟨document records, legacy⟩).1 = records := by
  have hread : ∀ entry ∈ records.entries,
      Canonical paths entry.1 entry.2 ∧
        normalizePreference paths (stringify entry.2) = some entry.2 := by
    intro entry hentry
    have hget := InsertionMap.get?_of_mem hentry
    exact ⟨h _ _ hget, normalizePreference_stringify (h _ _ hget) (hfinite _ _ hget)⟩
  have hvalues : (records.entries.map fun entry => stringify entry.2).filterMap
      (normalizePreference paths) = records.entries.map (·.2) := by
    rw [List.filterMap_map]
    refine (List.filterMap_congr (g := fun entry => some entry.2)
      fun entry hentry => (hread entry hentry).2).trans ?_
    simp
  have hset : (records.entries.map (·.2)).foldl setRecord .empty =
      records.entries.foldl (fun t entry => t.insert entry.1 entry.2) .empty := by
    rw [List.foldl_map]
    refine List.foldl_ext _ _ _ fun t entry hentry => ?_
    rw [setRecord, (hread entry hentry).1.1]
  simp only [load, document, hvalues, hset]
  exact eq_of_entries_eq (foldl_insert_entries records.entries .empty records.nodup)

/-! ## Canonical records -/

/-- Canonicalization is idempotent, and a canonical path is not blank. -/
structure CanonicalPaths (paths : WorkspacePaths) : Prop where
  idempotent : ∀ path, paths.canonicalize (paths.canonicalize path) = paths.canonicalize path
  not_blank : ∀ path, jsTrim (paths.canonicalize path) ≠ []

theorem CanonicalPaths.canonical (h : CanonicalPaths paths) (path : JsString)
    {record : WorkspacePreference} (hpath : record.pathHint = paths.canonicalize path)
    (hhandle : record.workspaceHandle =
      workspaceHandleForPath paths (paths.canonicalize path)) :
    Canonical paths record.workspaceHandle record := by
  refine ⟨rfl, ?_, ?_, ?_⟩
  · rw [hpath, h.idempotent]
  · rw [hpath]
    exact h.not_blank path
  · rw [hpath, hhandle]

theorem AllCanonical.insert {records : PreferenceRecords} {workspaceHandle : JsString}
    {record : WorkspacePreference} (h : AllCanonical paths records)
    (hrecord : Canonical paths workspaceHandle record) :
    AllCanonical paths (records.insert workspaceHandle record) := by
  intro key value hget
  rw [InsertionMap.get?_insert] at hget
  split at hget
  · rename_i heq
    cases hget
    exact heq ▸ hrecord
  · exact h key value hget

theorem AllCanonical.foldl_setRecord {later : List WorkspacePreference} :
    ∀ {records : PreferenceRecords}, AllCanonical paths records →
      (∀ record ∈ later, Canonical paths record.workspaceHandle record) →
      AllCanonical paths (later.foldl setRecord records) := by
  induction later with
  | nil => exact fun h _ => h
  | cons record rest ih =>
    intro records h hlater
    obtain ⟨hrecord, hrest⟩ := List.forall_mem_cons.mp hlater
    exact ih (h.insert hrecord) hrest

theorem CanonicalPaths.load (h : CanonicalPaths paths) (directory : PreferencesDirectory) :
    AllCanonical paths (load paths directory).1 := by
  have hempty : AllCanonical paths .empty := fun _ _ hget => by cases hget
  unfold WorkspacePreferences.load
  cases directory.file with
  | malformed => exact hempty
  | blank =>
    refine hempty.foldl_setRecord fun record hrecord => ?_
    obtain ⟨hint, _, hhint⟩ := List.mem_filterMap.mp hrecord
    unfold legacyPreference at hhint
    split at hhint
    · cases hhint
    · cases hhint
      exact h.canonical _ rfl rfl
  | document preferences =>
    refine hempty.foldl_setRecord fun record hrecord => ?_
    obtain ⟨value, _, hvalue⟩ := List.mem_filterMap.mp hrecord
    unfold normalizePreference at hvalue
    split at hvalue
    · cases hvalue
    · split at hvalue
      · cases hvalue
      · cases hvalue
        exact h.canonical _ rfl rfl

/-! ## Calls that keep memory and file together -/

variable (paths)

/-- The handle that a call is about. -/
def callHandle : PreferenceCall → JsString
  | .upsert input => workspaceHandleForPath paths (paths.canonicalize input.pathHint)
  | .touch workspaceHandle _ | .remove workspaceHandle => workspaceHandle

/-- The call writes the file. -/
def Writes (records : PreferenceRecords) : PreferenceCall → Prop
  | .upsert input => jsTrim input.pathHint ≠ []
  | .touch workspaceHandle _ | .remove workspaceHandle =>
    (records.get? workspaceHandle).isSome = true

/-- The record already has the values that the call gives it. -/
def Repeats (records : PreferenceRecords) : PreferenceCall → Prop
  | .upsert input => ∃ existing,
    records.get? (callHandle paths (.upsert input)) = some existing ∧
      existing.pathHint = paths.canonicalize input.pathHint ∧
      input.pinned.getD existing.pinned = existing.pinned ∧
      input.displayName.getD existing.displayName = existing.displayName ∧
      input.lastOpenedAt.getD existing.lastOpenedAt = existing.lastOpenedAt
  | .touch workspaceHandle openedAt => ∃ existing,
    records.get? workspaceHandle = some existing ∧ existing.lastOpenedAt = some openedAt
  | .remove _ => False

/-- The time that the record of the call ends up with, if it has one. -/
def callTime (records : PreferenceRecords) : PreferenceCall → Option OpenedAt
  | .upsert input => input.lastOpenedAt.getD
    ((records.get? (callHandle paths (.upsert input))).bind (·.lastOpenedAt))
  | .touch _ openedAt => some openedAt
  | .remove _ => none

/-- The time of the call and the times of all other records are finite. -/
def FiniteTimes (records : PreferenceRecords) (call : PreferenceCall) : Prop :=
  (callTime paths records call).all OpenedAt.isFinite = true ∧
    ∀ workspaceHandle record, records.get? workspaceHandle = some record →
      workspaceHandle ≠ callHandle paths call →
      record.lastOpenedAt.all OpenedAt.isFinite = true

/-- A call that writes the file changes nothing if the file cannot be replaced, and otherwise all
times are finite, and it changes nothing if the mode of the file cannot be set. -/
def Sound (s : WorkspacePreferences) (call : PreferenceCall) (fails : PersistStep → Bool) : Prop :=
  Writes s.records call →
    if failsToReplace fails then Repeats paths s.records call
    else
      FiniteTimes paths s.records call ∧
        (fails .chmod = true → Repeats paths s.records call)

/-- Every call of a run is sound. -/
def SoundRun : WorkspacePreferences → List (PreferenceCall × (PersistStep → Bool)) → Prop
  | _, [] => True
  | s, call :: rest =>
    Sound paths s call.1 call.2 ∧
      SoundRun (step paths s call.1 call.2).1 rest

/-- The records that a call sets before it writes the file. -/
def written (records : PreferenceRecords) : PreferenceCall → PreferenceRecords
  | .upsert input => setRecord records (upsertRecord paths records input)
  | .touch workspaceHandle openedAt =>
    match records.get? workspaceHandle with
    | none => records
    | some existing => records.insert workspaceHandle { existing with lastOpenedAt := openedAt }
  | .remove workspaceHandle => records.erase workspaceHandle

variable {paths} {s : WorkspacePreferences} {call : PreferenceCall}
variable {fails : PersistStep → Bool}

theorem step_of_not_writes (h : ¬Writes s.records call) :
    (step paths s call fails).1 = s := by
  cases call with
  | upsert input =>
    have hblank : (jsTrim input.pathHint).isEmpty = true := by
      simpa [Writes, List.isEmpty_iff] using h
    rw [step, if_pos hblank]
  | touch workspaceHandle openedAt =>
    have hnone : s.records.get? workspaceHandle = none := by
      simpa [Writes] using h
    simp only [step, hnone]
  | remove workspaceHandle =>
    rw [step, if_neg (show ¬(s.records.get? workspaceHandle).isSome = true from h)]

theorem step_of_writes (h : Writes s.records call) :
    step paths s call fails =
      persist fails { s with records := written paths s.records call } := by
  cases call with
  | upsert input =>
    have hfilled : (jsTrim input.pathHint).isEmpty = false := by
      simpa [Writes, List.isEmpty_eq_false_iff] using h
    rw [step, hfilled]
    rfl
  | touch workspaceHandle openedAt =>
    obtain ⟨existing, hexisting⟩ := Option.isSome_iff_exists.mp h
    simp only [step, written, hexisting]
  | remove workspaceHandle =>
    rw [step, if_pos (show (s.records.get? workspaceHandle).isSome = true from h)]
    rfl

theorem CanonicalPaths.written (hpaths : CanonicalPaths paths) {records : PreferenceRecords}
    (h : AllCanonical paths records) (call : PreferenceCall) :
    AllCanonical paths
      (written paths records call) := by
  cases call with
  | upsert input => exact h.insert (hpaths.canonical input.pathHint rfl rfl)
  | touch workspaceHandle openedAt =>
    simp only [WorkspacePreferences.written]
    cases hexisting : records.get? workspaceHandle with
    | none => exact h
    | some existing =>
      have hrecord := h _ _ hexisting
      exact h.insert hrecord
  | remove workspaceHandle =>
    intro key value hget
    simp only [WorkspacePreferences.written, InsertionMap.get?_erase] at hget
    split at hget
    · cases hget
    · exact h key value hget

theorem FiniteTimes.written {records : PreferenceRecords} (h : FiniteTimes paths records call) :
    AllFinite (written paths records call) := by
  obtain ⟨hown, hothers⟩ := h
  intro key value hget
  cases call with
  | upsert input =>
    simp only [WorkspacePreferences.written, setRecord, InsertionMap.get?_insert] at hget
    split at hget
    · cases hget
      exact hown
    · exact hothers key value hget ‹_›
  | touch workspaceHandle openedAt =>
    unfold WorkspacePreferences.written at hget
    cases hexisting : records.get? workspaceHandle with
    | none =>
      simp only [hexisting] at hget
      exact hothers key value hget fun heq => by
        rw [heq, show callHandle _ _ = workspaceHandle from rfl, hexisting] at hget
        cases hget
    | some existing =>
      simp only [hexisting, InsertionMap.get?_insert] at hget
      split at hget
      · cases hget
        exact hown
      · exact hothers key value hget ‹_›
  | remove workspaceHandle =>
    simp only [WorkspacePreferences.written, InsertionMap.get?_erase] at hget
    split at hget
    · cases hget
    · exact hothers key value hget ‹_›

theorem insert_of_get? {K V : Type*} [DecidableEq K] {m : InsertionMap K V} {k : K} {v : V}
    (h : m.get? k = some v) : m.insert k v = m := by
  refine eq_of_entries_eq ?_
  obtain ⟨entries, hnodup⟩ := m
  have hmem := InsertionMap.mem_of_get? h
  clear h
  simp only [InsertionMap.insert] at hmem ⊢
  induction entries with
  | nil => cases hmem
  | cons entry rest ih =>
    rw [InsertionMap.assign]
    rcases List.mem_cons.mp hmem with rfl | hrest
    · rw [if_pos rfl]
    · rw [List.map_cons, List.nodup_cons] at hnodup
      have hne : entry.1 ≠ k := by
        rintro rfl
        exact hnodup.1 (List.mem_map.mpr ⟨_, hrest, rfl⟩)
      rw [if_neg hne, ih hnodup.2 hrest]

theorem Repeats.written {records : PreferenceRecords} (h : Repeats paths records call)
    (hcanonical : AllCanonical paths records) :
    written paths records call = records := by
  cases call with
  | upsert input =>
    obtain ⟨existing, hget, hpath, hpinned, hname, htime⟩ := h
    have hhandle := (hcanonical _ _ hget).1
    simp only [callHandle] at hget hhandle
    have hpinned' : (input.pinned.or (some existing.pinned)).getD false = existing.pinned := by
      cases hinput : input.pinned with
      | none => rfl
      | some pinned => simpa [hinput] using hpinned
    have hrecord : upsertRecord paths records input = existing := by
      simp only [upsertRecord, hget, Option.map_some, Option.bind_some, htime, hname, hpinned']
      rw [← hhandle, ← hpath]
    rw [WorkspacePreferences.written, setRecord, hrecord]
    exact insert_of_get? (hhandle ▸ hget)
  | touch workspaceHandle openedAt =>
    obtain ⟨existing, hget, htime⟩ := h
    simp only [WorkspacePreferences.written, hget, ← htime]
    exact insert_of_get? hget
  | remove workspaceHandle => exact h.elim

/-! ## Runs -/

theorem persist_directory (h : ¬failsToReplace fails = true) :
    (persist fails s).1.records = s.records ∧
      (persist fails s).1.directory = ⟨document s.records, s.directory.legacy⟩ ∧
      (persist fails s).2 = fails .chmod := by
  rw [persist, if_neg h]
  cases fails .chmod <;> exact ⟨rfl, rfl, rfl⟩

theorem Sound.step (hpaths : CanonicalPaths paths) (h : Sound paths s call fails)
    (hsame : s.records = (load paths s.directory).1) :
    (step paths s call fails).1.records =
        (load paths
          (step paths s call fails).1.directory).1 ∧
      ((step paths s call fails).2 = true →
        (step paths s call fails).1.records = s.records) := by
  have hcanonical : AllCanonical paths s.records :=
    hsame ▸ hpaths.load s.directory
  by_cases hwrites : Writes s.records call
  · have hsound := h hwrites
    rw [step_of_writes hwrites]
    by_cases hreplace : failsToReplace fails = true
    · rw [if_pos hreplace] at hsound
      rw [persist, if_pos hreplace, hsound.written hcanonical]
      exact ⟨hsame, fun _ => rfl⟩
    · rw [if_neg hreplace] at hsound
      obtain ⟨hrecords, hdirectory, hthrows⟩ := persist_directory
        (s := { s with records := written paths s.records call }) hreplace
      rw [hrecords, hdirectory, hthrows]
      refine ⟨(load_document _ (hpaths.written hcanonical call) hsound.1.written).symm, ?_⟩
      exact fun hchmod => (hsound.2 hchmod).written hcanonical
  · rw [step_of_not_writes hwrites]
    exact ⟨hsame, fun _ => rfl⟩

theorem load_step (h : (load paths s.directory).2 = false) :
    (load paths
      (step paths s call fails).1.directory).2 = false := by
  by_cases hwrites : Writes s.records call
  · rw [step_of_writes hwrites]
    by_cases hreplace : failsToReplace fails = true
    · rw [persist, if_pos hreplace]
      exact h
    · rw [(persist_directory hreplace).2.1]
      rfl
  · rw [step_of_not_writes hwrites]
    exact h

theorem SoundRun.run (hpaths : CanonicalPaths paths)
    (calls : List (PreferenceCall × (PersistStep → Bool))) :
    ∀ {s : WorkspacePreferences}, SoundRun paths s calls →
      s.records = (load paths s.directory).1 →
      (run paths s calls).records =
        (load paths (run paths s calls).directory).1 := by
  induction calls with
  | nil => exact fun _ h => h
  | cons call rest ih => exact fun hrun h => ih hrun.2 (hrun.1.step hpaths h).1

theorem soundRun_concat (calls : List (PreferenceCall × (PersistStep → Bool))) :
    ∀ s : WorkspacePreferences,
      SoundRun paths s (calls ++ [(call, fails)]) ↔
        SoundRun paths s calls ∧
          Sound paths (run paths s calls) call fails := by
  induction calls with
  | nil => exact fun s => and_comm
  | cons call rest ih =>
    intro s
    rw [List.cons_append, SoundRun, SoundRun, ih, and_assoc]
    rfl

/-- After every call of a sound run, a fresh instance loads the records in memory, and a call that
throws leaves the list and the records as they were. In no run a call leaves a file that cannot be
loaded. -/
theorem preferences_equal_file (hpaths : CanonicalPaths paths)
    (localeCompare : JsString → JsString → Int) (directory : PreferencesDirectory)
    (calls : List (PreferenceCall × (PersistStep → Bool))) (call : PreferenceCall)
    (fails : PersistStep → Bool) :
    let before := run paths (create paths directory) calls
    let after := step paths before call fails
    (SoundRun paths (create paths directory)
        (calls ++ [(call, fails)]) →
      after.1.records = (load paths after.1.directory).1 ∧
      (after.2 = true → after.1.records = before.records ∧
        list localeCompare after.1 = list localeCompare before)) ∧
    ((load paths before.directory).2 = false →
      (load paths after.1.directory).2 = false) := by
  intro before after
  refine ⟨fun hrun => ?_, load_step⟩
  obtain ⟨hcalls, hcall⟩ := (soundRun_concat calls _).mp hrun
  obtain ⟨hsame, hthrows⟩ := hcall.step hpaths (hcalls.run hpaths calls rfl)
  refine ⟨hsame, fun hthrew => ⟨hthrows hthrew, ?_⟩⟩
  rw [list, list, hthrows hthrew]

/-- Paths are made absolute. -/
def rootedPath (path : JsString) : JsString :=
  if path.head? = some 0x2F then path else 0x2F :: path

/-- Absolute paths, whose handles are the paths. -/
def rootedPaths : WorkspacePaths := ⟨rootedPath, id⟩

theorem canonicalPaths_rooted : CanonicalPaths rootedPaths := by
  have hroot : ∀ path, ∃ rest, rootedPaths.canonicalize path = 0x2F :: rest := by
    intro path
    simp only [rootedPaths, rootedPath]
    split
    · rename_i hhead
      exact ⟨path.tail, (List.cons_head?_tail hhead).symm⟩
    · exact ⟨path, rfl⟩
  refine ⟨fun path => ?_, fun path htrim => ?_⟩
  · obtain ⟨rest, hrest⟩ := hroot path
    rw [hrest]
    rfl
  · obtain ⟨rest, hrest⟩ := hroot path
    have hslash : isJsSpace 0x2F = false := by decide
    rw [hrest, jsTrim, List.dropWhile_cons_of_neg (by simp [hslash]), List.reverse_eq_nil_iff,
      List.dropWhile_eq_nil_iff] at htrim
    exact absurd (htrim 0x2F (by simp)) (by simp [hslash])

/-- A call for a new record in an empty directory. -/
def openWorkspace : PreferenceCall := .upsert ⟨js "/w", none, none, some (some (.finite 1))⟩

/-- A temporary file that cannot be removed is ignored. -/
theorem preferences_equal_file_unlink :
    let before := run rootedPaths (create rootedPaths ⟨.blank, []⟩) []
    let after := step rootedPaths before openWorkspace (· = .unlink)
    after.1.records = (load rootedPaths after.1.directory).1 ∧
      (after.2 = true → after.1.records = before.records ∧
        list (fun _ _ => 0) after.1 = list (fun _ _ => 0) before) :=
  (preferences_equal_file canonicalPaths_rooted (fun _ _ => 0) ⟨.blank, []⟩ [] openWorkspace
    (· = .unlink)).1
    ⟨fun _ => ⟨⟨rfl, fun _ _ hget => by cases hget⟩, fun h => by cases h⟩, trivial⟩

/-- A record whose removal cannot be written is gone from memory and still in the file. Removing it
again writes nothing and does not throw, so that a fresh instance has the record again. -/
theorem removal_notWritten :
    let s := (step rootedPaths (create rootedPaths ⟨.blank, []⟩) openWorkspace fun _ => false).1
    let removal := PreferenceCall.remove (workspaceHandleForPath rootedPaths (js "/w"))
    let failed := step rootedPaths s removal (· = .rename)
    let retried := step rootedPaths failed.1 removal fun _ => false
    s.records = (load rootedPaths s.directory).1 ∧ failed.2 = true ∧
      failed.1.records ≠ s.records ∧
      failed.1.records ≠ (load rootedPaths failed.1.directory).1 ∧ retried.2 = false ∧
      retried.1.records ≠ (load rootedPaths retried.1.directory).1 := by
  decide +kernel

end WorkspacePreferences

end PiAgentWeb
