import Mathlib.Data.Rat.Init
import PiAgentWeb.Library.JsValue
import PiAgentWeb.Library.Runs

/-!
# The recoverable trash

`recoverable-session-trash.ts`: a Session file is renamed into an entry of the trash, looked at
before and after, and linked back when it turns out to be another file. The move proceeds by one
file-system call at a time, each of which may fail; between two calls others may replace, create or
remove what is at the source path and change files.
-/

namespace PiAgentWeb

/-- A file, whatever its names. -/
structure Inode where
  dev : ℕ
  ino : ℕ
  deriving DecidableEq

/-- The members of a Session header that are read. -/
structure SessionFileHeader where
  id : JsString
  cwd : JsString
  deriving DecidableEq

/-- What a file is, with what `readSessionHeader` reads of it. -/
structure FileAttributes where
  regular : Bool
  size : ℕ
  mtimeMs : ℚ
  header : Option SessionFileHeader
  deriving DecidableEq

/-- What `stat` tells of a file. -/
structure FileStats where
  inode : Inode
  regular : Bool
  size : ℕ
  mtimeMs : ℚ
  deriving DecidableEq

/-- `sameStableFile`. -/
def sameStableFile (left right : FileStats) : Bool :=
  left.regular && right.regular && left.inode.dev = right.inode.dev &&
    left.inode.ino = right.inode.ino && left.size = right.size && left.mtimeMs = right.mtimeMs

/-- `RecoverableSessionTrashTarget`. -/
structure RecoverableSessionTrashTarget where
  sessionHandle : JsString
  workspaceHandle : JsString
  nativeSessionId : JsString
  sessionFile : JsString

/-- The handles of files and directories. -/
structure TrashHandles where
  sessionHandleForCanonicalFile : JsString → JsString
  workspaceHandleForPath : JsString → JsString

/-- Why a move fails. -/
inductive TrashFailure where
  | notCanonical
  | uninspected
  | noReservation
  | changedBeforeMove
  | otherFileSystem
  | changedDuringMove
  | headerMismatch
  | fileSystem (code : JsString)
  deriving DecidableEq

/-- The open source, and its stats when it was opened. -/
structure OpenedSource where
  descriptor : Inode
  stat : FileStats
  deriving DecidableEq

/-- The call that the move makes next. -/
inductive TrashPoint where
  | lstatSource
  | realpathSource (pathStat : FileStats)
  | openSource (pathStat : FileStats)
  | statDescriptor (pathStat : FileStats) (descriptor : Inode)
  | readHeader (opened : OpenedSource)
  | makeRoot (opened : OpenedSource)
  | protectRoot (opened : OpenedSource)
  | reserveEntry (opened : OpenedSource) (attempt : ℕ)
  | writeMetadata (opened : OpenedSource)
  | lstatAgain (opened : OpenedSource)
  | renameSource (opened : OpenedSource)
  | lstatMoved (opened : OpenedSource)
  | readHeaderAgain (opened : OpenedSource)
  | linkBack (failure : TrashFailure)
  | unlinkStored (failure : TrashFailure)
  | writeQuarantine (failure : TrashFailure)
  | removeEntry (result : Except TrashFailure Unit)
  | settled (result : Except TrashFailure Unit)

/-- How a call is answered. -/
inductive FileAnswer where
  | done
  | failed (code : JsString)
  | path (canonical : JsString)
  deriving DecidableEq

/-- What happens: the move proceeds, or others change what is at the source path or a file. -/
inductive TrashAction where
  | proceed (answer : FileAnswer)
  | replaceSource (file : Option Inode)
  | changeFile (file : Inode) (attributes : FileAttributes)

/-- A move and the files it is about: what is linked at the source path and in the entry of the
trash. The file that the rename moved, whether it was linked back, whether others have changed the
source path since, and the file that was verified are history variables. -/
structure SessionTrashMove where
  source : Option Inode
  stored : Option Inode
  entry : Bool
  attributes : Inode → FileAttributes
  keepEntry : Bool
  point : TrashPoint
  moved : Option Inode
  linkedBack : Bool
  replaced : Bool
  verified : Option Inode

/-- `TRASH_ENTRY_RESERVATION_ATTEMPTS`. -/
def TRASH_ENTRY_RESERVATION_ATTEMPTS : ℕ := 8

/-- The identity that `assertNativeHeaderIdentity` asserts of a header, the directory of which is at
a path. -/
def TrashHandles.matchesHeader (handles : TrashHandles) (target : RecoverableSessionTrashTarget)
    (header : Option SessionFileHeader) (canonicalCwd : JsString) : Bool :=
  header.any (·.id = target.nativeSessionId) &&
    handles.workspaceHandleForPath canonicalCwd = target.workspaceHandle

namespace SessionTrashMove

/-- A move begins. -/
def create (source : Option Inode) (attributes : Inode → FileAttributes) : SessionTrashMove where
  source := source
  stored := none
  entry := false
  attributes := attributes
  keepEntry := false
  point := .lstatSource
  moved := none
  linkedBack := false
  replaced := false
  verified := none

variable (s : SessionTrashMove)

/-- What `stat` tells of a file now. -/
def statOf (file : Inode) : FileStats where
  inode := file
  regular := (s.attributes file).regular
  size := (s.attributes file).size
  mtimeMs := (s.attributes file).mtimeMs

/-- The move goes on with another call. -/
def goTo (point : TrashPoint) : SessionTrashMove := { s with point := point }

/-- The `finally` block of a move that has an entry. -/
def leave (result : Except TrashFailure Unit) : SessionTrashMove :=
  if s.keepEntry then s.goTo (.settled result) else s.goTo (.removeEntry result)

/-- The rename. -/
def renamed (file : Inode) (opened : OpenedSource) : SessionTrashMove :=
  { s with
    source := none
    stored := some file
    moved := some file
    keepEntry := true
    point := .lstatMoved opened }

/-- The code of an answer. -/
def failureOf : FileAnswer → TrashFailure
  | .failed code => .fileSystem code
  | _ => .fileSystem (js "ENOENT")

/-- The calls up to the entry of the trash. -/
def inspect (handles : TrashHandles) (target : RecoverableSessionTrashTarget)
    (answer : FileAnswer) : SessionTrashMove :=
  match s.point with
  | .lstatSource =>
    match answer, s.source with
    | .done, some file => s.goTo (.realpathSource (s.statOf file))
    | _, _ => s.goTo (.settled (.error .uninspected))
  | .realpathSource pathStat =>
    match answer with
    | .path canonical =>
      if !pathStat.regular || canonical ≠ target.sessionFile then
        s.goTo (.settled (.error .notCanonical))
      else if handles.sessionHandleForCanonicalFile canonical ≠ target.sessionHandle then
        s.goTo (.settled (.error .uninspected))
      else s.goTo (.openSource pathStat)
    | _ => s.goTo (.settled (.error .uninspected))
  | .openSource pathStat =>
    match answer, s.source with
    | .done, some file => s.goTo (.statDescriptor pathStat file)
    | _, _ => s.goTo (.settled (.error .uninspected))
  | .statDescriptor pathStat descriptor =>
    if answer = .done && sameStableFile pathStat (s.statOf descriptor) then
      s.goTo (.readHeader ⟨descriptor, s.statOf descriptor⟩)
    else s.goTo (.settled (.error .uninspected))
  | .readHeader opened =>
    match answer with
    | .path canonicalCwd =>
      if handles.matchesHeader target (s.attributes opened.descriptor).header canonicalCwd then
        s.goTo (.makeRoot opened)
      else s.goTo (.settled (.error .uninspected))
    | _ => s.goTo (.settled (.error .uninspected))
  | .makeRoot opened =>
    if answer = .done then s.goTo (.protectRoot opened)
    else s.goTo (.settled (.error (failureOf answer)))
  | .protectRoot opened =>
    if answer = .done then s.goTo (.reserveEntry opened 0)
    else s.goTo (.settled (.error (failureOf answer)))
  | .reserveEntry opened attempt =>
    if answer = .done then { s with entry := true }.goTo (.writeMetadata opened)
    else if answer ≠ .failed (js "EEXIST") then s.goTo (.settled (.error (failureOf answer)))
    else if attempt + 1 < TRASH_ENTRY_RESERVATION_ATTEMPTS then
      s.goTo (.reserveEntry opened (attempt + 1))
    else s.goTo (.settled (.error .noReservation))
  | _ => s

/-- The calls of a move that has an entry: `move` from `writeExclusiveJson` on, and
`restoreWithoutOverwrite`. -/
def proceed (handles : TrashHandles) (target : RecoverableSessionTrashTarget)
    (answer : FileAnswer) : SessionTrashMove :=
  match s.point with
  | .writeMetadata opened =>
    if answer = .done then s.goTo (.lstatAgain opened) else s.leave (.error (failureOf answer))
  | .lstatAgain opened =>
    match answer, s.source with
    | .done, some file =>
      if sameStableFile opened.stat (s.statOf file) then s.goTo (.renameSource opened)
      else s.leave (.error .changedBeforeMove)
    | _, _ => s.leave (.error (failureOf answer))
  | .renameSource opened =>
    match answer, s.source with
    | .done, some file => s.renamed file opened
    | _, _ =>
      if answer = .failed (js "EXDEV") then s.leave (.error .otherFileSystem)
      else s.leave (.error (failureOf answer))
  | .lstatMoved opened =>
    match answer, s.stored with
    | .done, some file =>
      if sameStableFile opened.stat (s.statOf file) then s.goTo (.readHeaderAgain opened)
      else s.goTo (.linkBack .changedDuringMove)
    | _, _ => s.leave (.error (failureOf answer))
  | .readHeaderAgain opened =>
    match answer with
    | .path canonicalCwd =>
      if handles.matchesHeader target (s.attributes opened.descriptor).header canonicalCwd then
        { s with verified := some opened.descriptor }.leave (.ok ())
      else s.goTo (.linkBack .headerMismatch)
    | _ => s.goTo (.linkBack .headerMismatch)
  | .linkBack failure =>
    if answer = .done && s.source.isNone then
      { s with
        source := s.stored
        linkedBack := true }.goTo (.unlinkStored failure)
    else s.goTo (.writeQuarantine failure)
  | .unlinkStored failure =>
    if answer = .done then
      { s with
        stored := none
        keepEntry := false }.leave (.error failure)
    else s.goTo (.writeQuarantine failure)
  | .writeQuarantine failure => s.leave (.error failure)
  -- a removal that fails may have removed what was in the entry
  | .removeEntry result =>
    { s with
      entry := s.entry && decide (answer ≠ FileAnswer.done)
      stored := none }.goTo (.settled result)
  | _ => s.inspect handles target answer

/-- One action. -/
def step (handles : TrashHandles) (target : RecoverableSessionTrashTarget)
    (s : SessionTrashMove) : TrashAction → SessionTrashMove
  | .proceed answer => s.proceed handles target answer
  | .replaceSource file =>
    { s with
      source := file
      replaced := s.replaced || s.linkedBack }
  | .changeFile file attributes =>
    { s with attributes := fun other => if other = file then attributes else s.attributes other }

/-! ## The invariant -/

/-- The entry holds the moved file and is kept. -/
def Holds : Prop :=
  ∃ file, s.moved = some file ∧ s.stored = some file ∧ s.entry = true ∧ s.keepEntry = true

/-- The moved file was linked at the source path, where only others can have replaced it. -/
def HandedBack : Prop :=
  s.linkedBack = true ∧ ∀ file, s.moved = some file → s.source = some file ∨ s.replaced = true

/-- Nothing has been moved. -/
def Unmoved : Prop :=
  s.moved = none ∧ s.stored = none ∧ s.keepEntry = false ∧ s.linkedBack = false

/-- The entry does not hold the moved file, which was handed back. -/
def Emptied : Prop := s.stored = none ∧ (s.moved = none ∨ s.HandedBack)

/-- Where the moved file is, at each point of the move. -/
def Placed : Prop :=
  match s.point with
  | .lstatSource => s.Unmoved
  | .realpathSource _ => s.Unmoved
  | .openSource _ => s.Unmoved
  | .statDescriptor _ _ => s.Unmoved
  | .readHeader opened => s.Unmoved ∧ opened.stat.inode = opened.descriptor
  | .makeRoot opened => s.Unmoved ∧ opened.stat.inode = opened.descriptor
  | .protectRoot opened => s.Unmoved ∧ opened.stat.inode = opened.descriptor
  | .reserveEntry opened _ => s.Unmoved ∧ opened.stat.inode = opened.descriptor
  | .writeMetadata opened => s.Unmoved ∧ s.entry = true ∧ opened.stat.inode = opened.descriptor
  | .lstatAgain opened => s.Unmoved ∧ s.entry = true ∧ opened.stat.inode = opened.descriptor
  | .renameSource opened => s.Unmoved ∧ s.entry = true ∧ opened.stat.inode = opened.descriptor
  | .lstatMoved opened =>
    s.Holds ∧ s.linkedBack = false ∧ opened.stat.inode = opened.descriptor
  | .readHeaderAgain opened =>
    s.Holds ∧ s.linkedBack = false ∧ s.stored = some opened.descriptor
  | .linkBack _ => s.Holds ∧ s.linkedBack = false
  | .unlinkStored _ => s.Holds ∧ s.HandedBack
  | .writeQuarantine _ => s.Holds
  | .removeEntry result => s.Emptied ∧ s.keepEntry = false ∧ result ≠ .ok ()
  | .settled (.ok _) => s.Holds ∧ s.verified = s.stored
  | .settled (.error _) => s.Holds ∨ s.Emptied

variable {s} {s' : SessionTrashMove} {handles : TrashHandles}
  {target : RecoverableSessionTrashTarget} {answer : FileAnswer}

/-- Others do not touch what the entry holds, nor the state of the move. -/
theorem Placed.congr (h : s.Placed) (hpoint : s'.point = s.point) (hmoved : s'.moved = s.moved)
    (hstored : s'.stored = s.stored) (hentry : s'.entry = s.entry)
    (hkeep : s'.keepEntry = s.keepEntry) (hlinked : s'.linkedBack = s.linkedBack)
    (hverified : s'.verified = s.verified) (hback : s.HandedBack → s'.HandedBack) :
    s'.Placed := by
  unfold Placed at h ⊢
  rw [hpoint]
  simp only [Unmoved, Holds, Emptied, hmoved, hstored, hentry, hkeep, hlinked, hverified] at h ⊢
  split <;> rename_i heq <;> simp only [heq] at h
  case h_15 => exact ⟨h.1, hback h.2⟩
  case h_17 => exact ⟨⟨h.1.1, h.1.2.imp id hback⟩, h.2⟩
  case h_19 => exact h.imp id fun hempty => ⟨hempty.1, hempty.2.imp id hback⟩
  all_goals exact h

theorem inode_eq_of_sameStableFile {left right : FileStats}
    (h : sameStableFile left right = true) : left.inode = right.inode := by
  simp only [sameStableFile, Bool.and_eq_true, decide_eq_true_eq] at h
  obtain ⟨⟨⟨⟨⟨_, _⟩, hdev⟩, hino⟩, _⟩, _⟩ := h
  cases hleft : left.inode
  cases hright : right.inode
  simp_all

theorem Unmoved.emptied (h : s.Unmoved) : s.Emptied := ⟨h.2.1, .inl h.1⟩

theorem Unmoved.placed_leave (h : s.Unmoved) (failure : TrashFailure) :
    (s.leave (.error failure)).Placed := by
  unfold leave
  rw [if_neg (by rw [h.2.2.1]; decide)]
  exact ⟨h.emptied, h.2.2.1, nofun⟩

theorem Holds.placed_leave (h : s.Holds) (failure : TrashFailure) :
    (s.leave (.error failure)).Placed := by
  have hkeep : s.keepEntry = true := by
    obtain ⟨_, _, _, _, hkeep⟩ := h
    exact hkeep
  unfold leave
  rw [if_pos hkeep]
  exact .inl h

theorem Placed.inspect (h : s.Placed) : (s.inspect handles target answer).Placed := by
  unfold SessionTrashMove.inspect
  split <;> rename_i hpoint <;> simp only [Placed, hpoint] at h
  · split
    · exact h
    · exact .inr h.emptied
  · split
    · split
      · exact .inr h.emptied
      · split
        · exact .inr h.emptied
        · exact h
    · exact .inr h.emptied
  · split
    · exact h
    · exact .inr h.emptied
  · split
    · exact ⟨h, rfl⟩
    · exact .inr h.emptied
  · split
    · split
      · exact h
      · exact .inr h.1.emptied
    · exact .inr h.1.emptied
  · split
    · exact h
    · exact .inr h.1.emptied
  · split
    · exact h
    · exact .inr h.1.emptied
  · split
    · exact ⟨h.1, rfl, h.2⟩
    · split
      · exact .inr h.1.emptied
      · split
        · exact h
        · exact .inr h.1.emptied
  · unfold Placed
    exact h

theorem Placed.proceed (h : s.Placed) : (s.proceed handles target answer).Placed := by
  have hplaced := h
  unfold SessionTrashMove.proceed
  split <;> rename_i hpoint <;> simp only [Placed, hpoint] at h
  · -- the metadata
    split
    · exact h
    · exact h.1.placed_leave _
  · -- the last look before the move
    split
    · split
      · exact h
      · exact h.1.placed_leave _
    · exact h.1.placed_leave _
  · -- the rename
    split
    · rename_i file hsource
      exact ⟨⟨file, rfl, rfl, h.2.1, rfl⟩, h.1.2.2.2, h.2.2⟩
    · split
      · exact h.1.placed_leave _
      · exact h.1.placed_leave _
  · -- the first look after the move
    split
    · rename_i file hstored
      split
      · rename_i hsame
        have hinode : file = _ := (inode_eq_of_sameStableFile hsame).symm.trans h.2.2
        exact ⟨h.1, h.2.1, hstored.trans (congrArg some hinode)⟩
      · exact ⟨h.1, h.2.1⟩
    · exact h.1.placed_leave _
  · -- the header of the moved file
    split
    · split
      · obtain ⟨file, hmoved, hstored, hentry, hkeep⟩ := h.1
        unfold leave
        rw [if_pos (by exact hkeep)]
        exact ⟨⟨file, hmoved, hstored, hentry, hkeep⟩, h.2.2.symm⟩
      · exact ⟨h.1, h.2.1⟩
    · exact ⟨h.1, h.2.1⟩
  · -- the link back, at a path where nothing is
    split
    · obtain ⟨file, hmoved, hstored, hentry, hkeep⟩ := h.1
      refine ⟨⟨file, hmoved, hstored, hentry, hkeep⟩, rfl, fun other hother => .inl ?_⟩
      exact hstored.trans (hmoved.symm.trans hother)
    · exact h.1
  · -- the name in the entry goes
    split
    · exact ⟨⟨rfl, .inr h.2⟩, rfl, nofun⟩
    · exact h.1
  · exact h.placed_leave _
  · -- the entry goes
    rename_i result
    cases result with
    | ok _ => exact absurd rfl h.2.2
    | error _ => exact .inr ⟨rfl, h.1.2⟩
  · exact hplaced.inspect

theorem Placed.step (h : s.Placed) (action : TrashAction) :
    (step handles target s action).Placed := by
  cases action with
  | proceed answer => exact h.proceed
  | replaceSource file =>
    refine h.congr rfl rfl rfl rfl rfl rfl rfl fun hback => ⟨hback.1, fun _ _ => .inr ?_⟩
    simp [SessionTrashMove.step, hback.1]
  | changeFile file attributes => exact h.congr rfl rfl rfl rfl rfl rfl rfl id

theorem Placed.run (source : Option Inode) (attributes : Inode → FileAttributes)
    (actions : List TrashAction) :
    (runFrom (SessionTrashMove.step handles target) (create source attributes) actions).Placed :=
  runFrom_invariant (fun _ action h => h.step action) actions ⟨rfl, rfl, rfl, rfl⟩

/-! ## What a move guarantees -/

theorem Placed.kept (h : s.Placed) {file : Inode} (hmoved : s.moved = some file) :
    (s.stored = some file ∧ s.entry = true) ∨
      (s.linkedBack = true ∧ (s.source = some file ∨ s.replaced = true)) := by
  have hholds : s.Holds → s.stored = some file ∧ s.entry = true := by
    rintro ⟨other, hother, hstored, hentry, _⟩
    obtain rfl : file = other := Option.some.inj (hmoved.symm.trans hother)
    exact ⟨hstored, hentry⟩
  have hback : s.HandedBack → s.linkedBack = true ∧ (s.source = some file ∨ s.replaced = true) :=
    fun hhanded => ⟨hhanded.1, hhanded.2 file hmoved⟩
  have hunmoved : ¬ s.Unmoved := fun hunmoved => by
    rw [hunmoved.1] at hmoved
    cases hmoved
  have hemptied : s.Emptied →
      s.linkedBack = true ∧ (s.source = some file ∨ s.replaced = true) := by
    rintro ⟨_, hnone | hhanded⟩
    · rw [hnone] at hmoved
      cases hmoved
    · exact hback hhanded
  unfold Placed at h
  split at h
  case h_1 => exact absurd h hunmoved
  case h_2 => exact absurd h hunmoved
  case h_3 => exact absurd h hunmoved
  case h_4 => exact absurd h hunmoved
  case h_17 => exact .inr (hemptied h.1)
  case h_16 => exact .inl (hholds h)
  case h_19 => exact h.imp hholds hemptied
  case h_18 => exact .inl (hholds h.1)
  case h_12 => exact .inl (hholds h.1)
  case h_13 => exact .inl (hholds h.1)
  case h_14 => exact .inl (hholds h.1)
  case h_15 => exact .inl (hholds h.1)
  all_goals exact absurd h.1 hunmoved

/-- A call of the move leaves the source path alone, links the stored file where nothing is, or
moves the file from there into the entry. -/
theorem source_proceed (s : SessionTrashMove) (handles : TrashHandles)
    (target : RecoverableSessionTrashTarget) (answer : FileAnswer) :
    (s.proceed handles target answer).source = s.source ∨ s.source = none ∨
      ((s.proceed handles target answer).source = none ∧
        (s.proceed handles target answer).moved = s.source ∧
          (s.proceed handles target answer).stored = s.source) := by
  have hleave : ∀ (other : SessionTrashMove) result, (other.leave result).source = other.source :=
    fun other result => by
      unfold leave
      split <;> rfl
  unfold SessionTrashMove.proceed
  split
  · left; split
    · rfl
    · exact hleave _ _
  · left; split
    · split
      · rfl
      · exact hleave _ _
    · exact hleave _ _
  · split
    · rename_i file hsource
      exact .inr (.inr ⟨rfl, hsource.symm, hsource.symm⟩)
    · left; split
      · exact hleave _ _
      · exact hleave _ _
  · left; split
    · split <;> rfl
    · exact hleave _ _
  · left; split
    · split
      · exact hleave _ _
      · rfl
    · rfl
  · split
    · rename_i hcondition
      simp only [Bool.and_eq_true, Option.isNone_iff_eq_none] at hcondition
      exact .inr (.inl hcondition.2)
    · exact .inl rfl
  · left; split
    · exact hleave _ _
    · rfl
  · exact .inl (hleave _ _)
  · exact .inl rfl
  · left
    unfold SessionTrashMove.inspect
    repeat' split
    all_goals rfl

theorem leave_keeps (s : SessionTrashMove) (result : Except TrashFailure Unit) :
    (s.leave result).entry = s.entry ∧ (s.leave result).verified = s.verified := by
  unfold leave
  split <;> exact ⟨rfl, rfl⟩

theorem inspect_keeps (s : SessionTrashMove) (hentry : s.entry = true) :
    (s.inspect handles target answer).entry = true := by
  unfold SessionTrashMove.inspect
  repeat' split
  all_goals first | exact hentry | rfl

theorem inspect_verified (s : SessionTrashMove) :
    (s.inspect handles target answer).verified = s.verified := by
  unfold SessionTrashMove.inspect
  repeat' split
  all_goals rfl

theorem Placed.entry_removed (h : s.Placed) (hentry : s.entry = true)
    (hremoved : (s.proceed handles target answer).entry = false) : s.stored = none := by
  by_cases hpoint : ∃ result, s.point = .removeEntry result
  · obtain ⟨result, hpoint⟩ := hpoint
    simp only [Placed, hpoint] at h
    exact h.1.1
  · suffices hkept : (s.proceed handles target answer).entry = true from
      absurd (hremoved.symm.trans hkept) (by decide)
    unfold SessionTrashMove.proceed
    split
    case h_9 result heq => exact absurd ⟨result, heq⟩ hpoint
    case h_10 => exact inspect_keeps s hentry
    case h_3 =>
      split
      · exact hentry
      · split <;> exact (leave_keeps s _).1.trans hentry
    case h_5 =>
      split
      · split
        · exact (leave_keeps _ _).1.trans hentry
        · exact hentry
      · exact hentry
    case h_6 => split <;> exact hentry
    case h_7 =>
      split
      · exact (leave_keeps _ _).1.trans hentry
      · exact hentry
    case h_8 => exact (leave_keeps s _).1.trans hentry
    case h_1 =>
      split
      · exact hentry
      · exact (leave_keeps s _).1.trans hentry
    all_goals
      split
      · split
        · exact hentry
        · first | exact hentry | exact (leave_keeps s _).1.trans hentry
      · exact (leave_keeps s _).1.trans hentry

theorem Placed.verifies (h : s.Placed)
    (hchanged : (s.proceed handles target answer).verified ≠ s.verified) :
    ∃ opened canonicalCwd, s.point = .readHeaderAgain opened ∧ answer = .path canonicalCwd ∧
      handles.matchesHeader target (s.attributes opened.descriptor).header canonicalCwd = true ∧
      s.stored = some opened.descriptor ∧
      (s.proceed handles target answer).verified = some opened.descriptor := by
  unfold SessionTrashMove.proceed at hchanged ⊢
  split at hchanged
  case h_5 opened hpoint =>
    simp only [Placed, hpoint] at h
    split at hchanged
    · rename_i canonicalCwd
      split at hchanged
      · rename_i hmatches
        refine ⟨opened, canonicalCwd, hpoint, rfl, hmatches, h.2.2, ?_⟩
        simp only [if_pos hmatches]
        exact (leave_keeps _ _).2
      · exact absurd rfl hchanged
    · exact absurd rfl hchanged
  case h_10 => exact absurd (inspect_verified s) hchanged
  case h_9 => exact absurd rfl hchanged
  case h_8 => exact absurd (leave_keeps s _).2 hchanged
  case h_7 =>
    split at hchanged
    · exact absurd (leave_keeps _ _).2 hchanged
    · exact absurd rfl hchanged
  case h_6 => split at hchanged <;> exact absurd rfl hchanged
  case h_3 =>
    split at hchanged
    · exact absurd rfl hchanged
    · split at hchanged <;> exact absurd (leave_keeps s _).2 hchanged
  case h_1 =>
    split at hchanged
    · exact absurd rfl hchanged
    · exact absurd (leave_keeps s _).2 hchanged
  all_goals
    split at hchanged
    · split at hchanged
      · exact absurd rfl hchanged
      · first | exact absurd rfl hchanged | exact absurd (leave_keeps s _).2 hchanged
    · exact absurd (leave_keeps s _).2 hchanged

/-- Over every run of a move and of those who change the source path and the files: the moved file
is in the entry, or was linked back where only others can have replaced it; the move overwrites
nothing at the source path; an entry is removed only when it is empty; and a move that is fulfilled
stored the file that was verified, by its identity and its header. -/
theorem trash_move_keeps_file (handles : TrashHandles) (target : RecoverableSessionTrashTarget)
    (source : Option Inode) (attributes : Inode → FileAttributes) (actions : List TrashAction) :
    let s := runFrom (step handles target) (create source attributes) actions
    (∀ file, s.moved = some file → (s.stored = some file ∧ s.entry = true) ∨
      (s.linkedBack = true ∧ (s.source = some file ∨ s.replaced = true))) ∧
    (∀ answer, (s.proceed handles target answer).source = s.source ∨ s.source = none ∨
      ((s.proceed handles target answer).source = none ∧
        (s.proceed handles target answer).moved = s.source ∧
          (s.proceed handles target answer).stored = s.source)) ∧
    (∀ answer, s.entry = true → (s.proceed handles target answer).entry = false →
      s.stored = none) ∧
    (s.point = .settled (.ok ()) →
      ∃ file, s.moved = some file ∧ s.stored = some file ∧ s.verified = some file) ∧
    ∀ answer, (s.proceed handles target answer).verified ≠ s.verified →
      ∃ opened canonicalCwd, s.point = .readHeaderAgain opened ∧ answer = .path canonicalCwd ∧
        handles.matchesHeader target (s.attributes opened.descriptor).header canonicalCwd = true ∧
        s.stored = some opened.descriptor ∧
        (s.proceed handles target answer).verified = some opened.descriptor := by
  intro s
  have h : s.Placed := Placed.run source attributes actions
  refine ⟨fun file => h.kept, fun answer => source_proceed s handles target answer,
    fun answer => h.entry_removed, fun hpoint => ?_, fun answer => h.verifies⟩
  simp only [Placed, hpoint] at h
  obtain ⟨⟨file, hmoved, hstored, _, _⟩, hverified⟩ := h
  exact ⟨file, hmoved, hstored, hverified.trans hstored⟩

/-! ## A file that others replace -/

/-- The files of the sample: all of them are Session files. -/
def sampleFiles (_ : Inode) : FileAttributes where
  regular := true
  size := 1
  mtimeMs := 0
  header := some ⟨[], []⟩

/-- Another file is at the source path when it is moved, it is linked back, and a third one takes
its place before its name in the entry goes. -/
def sampleReplacement : List TrashAction :=
  [.proceed .done, .proceed (.path []), .proceed .done, .proceed .done, .proceed (.path []),
    .proceed .done, .proceed .done, .proceed .done, .proceed .done, .proceed .done,
    .replaceSource (some ⟨0, 2⟩), .proceed .done, .proceed .done, .proceed .done,
    .replaceSource (some ⟨0, 3⟩), .proceed .done]

/-- The moved file is not always at the source path or in an entry. -/
theorem moved_file_replaced :
    ¬ ∀ (handles : TrashHandles) (target : RecoverableSessionTrashTarget) source attributes actions
      file, (runFrom (step handles target) (create source attributes) actions).moved = some file →
        (runFrom (step handles target) (create source attributes) actions).source = some file ∨
          ((runFrom (step handles target) (create source attributes) actions).stored = some file ∧
            (runFrom (step handles target) (create source attributes) actions).entry = true) := by
  intro h
  have hmoved := h ⟨fun _ => [], fun _ => []⟩ ⟨[], [], [], []⟩ (some ⟨0, 1⟩) sampleFiles
    sampleReplacement ⟨0, 2⟩ (by decide +kernel)
  revert hmoved
  decide +kernel

end SessionTrashMove

end PiAgentWeb
