import PiAgentWeb.Library.Tally
import PiAgentWeb.Library.Runs
import PiAgentWeb.Protocol.ContentRefs

/-!
# The content store

`epoch-content-store.ts` once its epoch was scanned. An operation is a task that runs from one
`await` to the next; `resume` continues a task with the outcome of the file operation it waits for,
so that a list of actions is an interleaving of all operations with any failures. A file operation
takes effect in the step that resumes its caller. Several awaited operations in a row that touch
nothing the store keeps in memory are one wait, and a section gives its lock back in its last step:
before that nobody else could enter it. What a verification reads is part of its outcome.
-/

namespace PiAgentWeb

/-- `#entryKey`: the namespace and the digest. -/
abbrev ContentKey := ContentNamespace × JsString

/-- The codes of `EpochContentStoreErrorCode` that the operations throw. -/
inductive EpochContentStoreErrorCode where
  | aborted
  | blobTooLarge
  | cacheBytesExhausted
  | cacheItemsExhausted
  | closed
  | declaredDigestMismatch
  | declaredLengthMismatch
  | digestCollision
  | emptyBlob
  | epochMismatch
  | invalidHandle
  | invalidRef
  | ioFailure
  | manifestMismatch
  | notFound
  | notPublished
  | unsafeLayout
  | unsafePath
  deriving DecidableEq

/-- `EpochContentStoreLimits`. -/
structure EpochContentStoreLimits where
  maxBlobBytes : ℕ
  maxContentBlobBytes : ℕ
  maxCacheBytes : ℕ
  maxCacheItems : ℕ
  deriving DecidableEq

/-- The kinds of handles. -/
inductive TokenKind where
  | hold
  | pin
  deriving DecidableEq

/-- `Entry`; its namespace is that of its reference. -/
structure ContentEntry where
  ref : EpochStoredContentRef
  published : Bool := false
  holds : ℕ := 0
  pins : ℕ := 0
  deleting : Bool := false
  deriving DecidableEq

/-- The count of an entry for the handles of one kind. -/
def ContentEntry.count (entry : ContentEntry) : TokenKind → ℕ
  | .hold => entry.holds
  | .pin => entry.pins

/-- A count is increased. -/
def ContentEntry.increment (entry : ContentEntry) : TokenKind → ContentEntry
  | .hold => { entry with holds := entry.holds + 1 }
  | .pin => { entry with pins := entry.pins + 1 }

/-- `Math.max(0, count - 1)`. -/
def ContentEntry.decrement (entry : ContentEntry) : TokenKind → ContentEntry
  | .hold => { entry with holds := entry.holds - 1 }
  | .pin => { entry with pins := entry.pins - 1 }

/-- A handle with its `TokenState`. The source finds the entry again by the key; `entry` is the one
that the handle was handed out for. -/
structure TokenState where
  kind : TokenKind
  key : ContentKey
  ref : EpochStoredContentRef
  entry : ℕ
  active : Bool := true
  deriving DecidableEq

/-- `Reservation`. -/
structure Reservation where
  bytes : ℕ
  active : Bool := true
  deriving DecidableEq

/-- How a reservation ends. -/
inductive Settlement where
  | committed
  | rolledBack
  deriving DecidableEq

/-- `EpochContentPutInput` or `EpochUtf8ContentPutInput`, with the length and the digest of what the
source delivers. -/
structure EpochContentPutInput where
  contentNamespace : ContentNamespace
  mediaType : JsString := []
  expectedSha256 : Option JsString := none
  expectedByteLength : Option ℕ := none
  sha256 : JsString
  byteLength : ℕ
  deriving DecidableEq

/-- `StagedEpochContent`: the hold, and whether the stage committed a new directory. -/
structure StagedEpochContent where
  hold : ℕ
  created : Bool
  deriving DecidableEq

/-- The outcome of a file operation. A recursive removal that fails may have removed the directory
all the same. -/
inductive FileOutcome where
  | ok
  | failed (code : EpochContentStoreErrorCode) (removed : Bool)
  deriving DecidableEq

/-- A removal with this outcome has removed the directory. -/
def FileOutcome.removes : FileOutcome → Bool
  | ok => true
  | failed _ removed => removed

/-! ## Tasks -/

/-- Where `#deleteEntry` waits: for the tombstone lock, the rename, or the removal. -/
inductive DeleteStep where
  | queued (ticket : ℕ)
  | moving
  | removing (tombstone : ℕ)
  deriving DecidableEq

/-- Where `#stageInternal` waits. -/
inductive StageStep where
  | reading
  | queued (ref : EpochStoredContentRef) (ticket : ℕ)
  | verifying (ref : EpochStoredContentRef) (entry : ℕ)
  | probing (ref : EpochStoredContentRef)
  | makingDirectory (ref : EpochStoredContentRef)
  | writing (ref : EpochStoredContentRef)
  | removingDirectory (ref : EpochStoredContentRef) (code : EpochContentStoreErrorCode)
  | settling (result : Except EpochContentStoreErrorCode StagedEpochContent)
  | settled (result : Except EpochContentStoreErrorCode StagedEpochContent)

/-- Where `#publishInternal` waits. -/
inductive PublishStep where
  | queued (ticket : ℕ)
  | writing (entry : ℕ)
  | settled (result : Except EpochContentStoreErrorCode Unit)

/-- Where `#pinInternal` waits. -/
inductive PinStep where
  | verifying (entry : ℕ)
  | settled (result : Except EpochContentStoreErrorCode ℕ)

/-- Where `#holdPublishedInternal` waits. -/
inductive HoldStep where
  | queued (ticket : ℕ)
  | verifying (entry : ℕ)
  | settled (result : Except EpochContentStoreErrorCode ℕ)

/-- Where `#releaseInternal` waits; `recovering` is before its catch clause. -/
inductive ReleaseStep where
  | queued (ticket : ℕ)
  | deleting (entry : ℕ) (step : DeleteStep)
  | recovering (entry : ℕ) (code : EpochContentStoreErrorCode)
  | settled (result : Except EpochContentStoreErrorCode Unit)

/-- What `gc` reports: the bytes and items it gave back. -/
structure FreedContent where
  bytes : ℕ := 0
  items : ℕ := 0
  deriving DecidableEq

/-- The sum of two reports. -/
def FreedContent.add (freed more : FreedContent) : FreedContent :=
  { bytes := freed.bytes + more.bytes, items := freed.items + more.items }

/-- Where `#gcInternal` waits: for the tombstone lock, in `#cleanupBlobTombstones` with the roots to
list and the names to remove, between two sections, for the lock of a candidate, in its deletion,
and before the catch clause. -/
inductive GcStep where
  | queued (ticket : ℕ)
  | cleaning (roots : List ContentNamespace) (names : List ℕ)
  | next
  | awaiting (key : ContentKey) (entry : ℕ) (ticket : ℕ)
  | deleting (key : ContentKey) (entry : ℕ) (step : DeleteStep)
  | recovering (key : ContentKey) (entry : ℕ) (code : EpochContentStoreErrorCode)
  | settled (result : Except EpochContentStoreErrorCode FreedContent)

/-- Where `#shutdownInternal` waits: for the active operations, in the deletion of an entry, and
for the removal of the temporary files. -/
inductive ShutdownStep where
  | waiting
  | deleting (key : ContentKey) (entry : ℕ) (step : DeleteStep) (rest : List (ContentKey × ℕ))
  | unlinking
  | settled

/-- An operation of the store. A `rejected` one failed before it waited for anything. -/
inductive StoreTask where
  | rejected (code : EpochContentStoreErrorCode)
  | stage (input : EpochContentPutInput) (reservation : Reservation) (step : StageStep)
  | publish (handle : ℕ) (token : TokenState) (step : PublishStep)
  | pin (ref : EpochStoredContentRef) (step : PinStep)
  | holdPublished (ref : EpochStoredContentRef) (step : HoldStep)
  | release (handle : ℕ) (token : TokenState) (step : ReleaseStep)
  | gc (candidates : List (ContentKey × ℕ)) (freed : FreedContent) (step : GcStep)
  | shutdown (step : ShutdownStep)

namespace StoreTask

/-- The operation has ended. -/
def isSettled : StoreTask → Bool
  | rejected _ => true
  | stage _ _ (.settled _) => true
  | publish _ _ (.settled _) => true
  | pin _ (.settled _) => true
  | holdPublished _ (.settled _) => true
  | release _ _ (.settled _) => true
  | gc _ _ (.settled _) => true
  | shutdown .settled => true
  | _ => false

/-- The ticket with which the task waits for the lock of a digest. -/
def digestTicket? : StoreTask → Option (ContentKey × ℕ)
  | stage _ _ (.queued ref ticket) => some (contentKey ref, ticket)
  | publish _ token (.queued ticket) => some (token.key, ticket)
  | holdPublished ref (.queued ticket) => some (contentKey ref, ticket)
  | release _ token (.queued ticket) => some (token.key, ticket)
  | gc _ _ (.awaiting key _ ticket) => some (key, ticket)
  | _ => none

/-- The digest whose lock the task has. -/
def digestSection? : StoreTask → Option ContentKey
  | stage _ _ (.verifying ref _) => some (contentKey ref)
  | stage _ _ (.probing ref) => some (contentKey ref)
  | stage _ _ (.makingDirectory ref) => some (contentKey ref)
  | stage _ _ (.writing ref) => some (contentKey ref)
  | stage _ _ (.removingDirectory ref _) => some (contentKey ref)
  | publish _ token (.writing _) => some token.key
  | holdPublished ref (.verifying _) => some (contentKey ref)
  | release _ token (.deleting _ _) => some token.key
  | gc _ _ (.deleting key _ _) => some key
  | _ => none

/-- The deletion that the task is in, with its key and its entry. -/
def deletion? : StoreTask → Option (ContentKey × ℕ × DeleteStep)
  | release _ token (.deleting entry step) => some (token.key, entry, step)
  | gc _ _ (.deleting key entry step) => some (key, entry, step)
  | shutdown (.deleting key entry step _) => some (key, entry, step)
  | _ => none

/-- The ticket with which the task waits for the tombstone lock. -/
def tombstoneTicket? (task : StoreTask) : Option ℕ :=
  match task.deletion?, task with
  | some (_, _, .queued ticket), _ => some ticket
  | _, gc _ _ (.queued ticket) => some ticket
  | _, _ => none

/-- The task has the tombstone lock. -/
def inTombstoneSection (task : StoreTask) : Bool :=
  match task.deletion?, task with
  | some (_, _, .moving), _ => true
  | some (_, _, .removing _), _ => true
  | _, gc _ _ (.cleaning _ _) => true
  | _, _ => false

end StoreTask

/-! ## The store -/

/-- The store in memory and on disk. An entry object is named by its place in the `heap`, a handle
by its place among the `tokens`, a tombstone by a number; `nextEntry`, `nextTombstone` and
`nextTicket` are the next free ones. `tombstones` has the bytes of every `TombstoneEntry`, whose
items are always one. `directories` and `tombstoneDirectories` are on disk. `settlements` is the
history of the reservations, named by their tasks. -/
structure EpochContentStore where
  serverEpoch : JsString
  limits : EpochContentStoreLimits
  closed : Bool := false
  heap : ℕ → ContentEntry := fun _ => { ref := .contentRef [] [] 0 }
  nextEntry : ℕ := 0
  entries : InsertionMap ContentKey ℕ := .empty
  tombstones : InsertionMap ℕ ℕ := .empty
  nextTombstone : ℕ := 0
  tokens : List TokenState := []
  bytes : ℤ := 0
  items : ℤ := 0
  reservedBytes : ℤ := 0
  reservedItems : ℤ := 0
  nextTicket : ℕ := 0
  directories : List ContentKey := []
  tombstoneDirectories : List (ContentNamespace × ℕ) := []
  tasks : List StoreTask := []
  settlements : List (ℕ × Settlement) := []

namespace EpochContentStore

variable (s : EpochContentStore)

/-- `#blobLimit`. -/
def blobLimit : ContentNamespace → ℕ
  | .attachment => s.limits.maxBlobBytes
  | .utf8 => s.limits.maxContentBlobBytes

/-- A task that starts. -/
def spawn (task : StoreTask) : EpochContentStore := { s with tasks := s.tasks ++ [task] }

/-- A task that goes on. -/
def withTask (me : ℕ) (task : StoreTask) : EpochContentStore :=
  { s with tasks := s.tasks.set me task }

/-- A place in the queue of a lock. -/
def takeTicket : EpochContentStore := { s with nextTicket := s.nextTicket + 1 }

/-- A change of an entry object. -/
def setEntry (entry : ℕ) (object : ContentEntry) : EpochContentStore :=
  { s with heap := Function.update s.heap entry object }

/-- `#withDigestLock`: `previous` has settled once every earlier caller has left its section. -/
def digestTurn (key : ContentKey) (ticket : ℕ) : Bool :=
  s.tasks.all fun task => task.digestSection? != some key &&
    task.digestTicket?.all fun waiting => waiting.1 != key || ticket ≤ waiting.2

/-- `#withTombstoneLock`, likewise. -/
def tombstoneTurn (ticket : ℕ) : Bool :=
  s.tasks.all fun task => !task.inTombstoneSection && task.tombstoneTicket?.all (ticket ≤ ·)

/-! ## Reservations and holds -/

/-- `#reserve`. -/
def reserve (bytes : ℕ) : Except EpochContentStoreErrorCode EpochContentStore :=
  if s.limits.maxCacheBytes < s.bytes + s.reservedBytes + bytes then .error .cacheBytesExhausted
  else if s.limits.maxCacheItems < s.items + s.reservedItems + 1 then .error .cacheItemsExhausted
  else
    .ok { s with
      reservedBytes := s.reservedBytes + bytes
      reservedItems := s.reservedItems + 1 }

/-- `#commitReservation` of a task. -/
def commitReservation (me : ℕ) (reservation : Reservation) (actualBytes : ℕ) :
    Except EpochContentStoreErrorCode EpochContentStore :=
  if !reservation.active then .error .unsafeLayout
  else
    .ok { s with
      reservedBytes := s.reservedBytes - reservation.bytes
      reservedItems := s.reservedItems - 1
      bytes := s.bytes + actualBytes
      items := s.items + 1
      settlements := s.settlements ++ [(me, .committed)] }

/-- `#rollbackReservation` of a task. -/
def rollbackReservation (me : ℕ) (reservation : Reservation) : EpochContentStore :=
  if !reservation.active then s
  else
    { s with
      reservedBytes := s.reservedBytes - reservation.bytes
      reservedItems := s.reservedItems - 1
      settlements := s.settlements ++ [(me, .rolledBack)] }

/-- `#createHold`; the new hold has the next free name. -/
def createHold (entry : ℕ) : EpochContentStore :=
  let object := s.heap entry
  { s.setEntry entry (object.increment .hold) with
    tokens := s.tokens ++
      [{ kind := .hold, key := contentKey object.ref, ref := object.ref, entry }] }

/-- A new entry object in the index. -/
def addEntry (object : ContentEntry) : EpochContentStore :=
  { s.setEntry s.nextEntry object with
    nextEntry := s.nextEntry + 1
    entries := s.entries.insert (contentKey object.ref) s.nextEntry }

/-! ## Deletion -/

/-- The directory of a tombstone is gone from disk. -/
def removeTombstoneDirectory (tombstone : ℕ) : EpochContentStore :=
  { s with
    tombstoneDirectories := s.tombstoneDirectories.filter fun entry => entry.2 != tombstone }

/-- A tombstone of this size is no longer retained. -/
def forgetTombstone (tombstone bytes : ℕ) : EpochContentStore :=
  { s with
    tombstones := s.tombstones.erase tombstone
    bytes := s.bytes - bytes
    items := s.items - 1 }

/-- `#removeTrackedTombstone`. -/
def removeTrackedTombstone (tombstone : ℕ) (outcome : FileOutcome) :
    EpochContentStore × Except EpochContentStoreErrorCode FreedContent :=
  match outcome with
  | .failed code removed =>
    (if removed then s.removeTombstoneDirectory tombstone else s, .error code)
  | .ok =>
    match s.tombstones.get? tombstone with
    | none => (s.removeTombstoneDirectory tombstone, .ok {})
    | some bytes =>
      ((s.removeTombstoneDirectory tombstone).forgetTombstone tombstone bytes,
        .ok { bytes, items := 1 })

/-- The directory of an entry becomes a tombstone, and the entry leaves the index. -/
def moveToTombstone (key : ContentKey) (entry : ℕ) : EpochContentStore :=
  let ref := (s.heap entry).ref
  { s with
    directories := s.directories.filter (· != contentKey ref)
    entries := s.entries.erase key
    tombstones := s.tombstones.insert s.nextTombstone ref.byteLength
    tombstoneDirectories := s.tombstoneDirectories ++ [(ref.namespaceOf, s.nextTombstone)]
    nextTombstone := s.nextTombstone + 1 }

/-- How far `#deleteEntry` got in one step. -/
inductive DeleteProgress where
  | waiting (step : DeleteStep)
  | done (freed : FreedContent)
  | failed (code : EpochContentStoreErrorCode)

/-- `#deleteEntry` of an entry under a key. -/
def resumeDelete (key : ContentKey) (entry : ℕ) :
    DeleteStep → FileOutcome → EpochContentStore × DeleteProgress
  | .queued ticket, _ =>
    if s.tombstoneTurn ticket then
      if s.entries.get? key = some entry then (s, .waiting .moving) else (s, .done {})
    else (s, .waiting (.queued ticket))
  | .moving, .failed code _ => (s, .failed code)
  | .moving, .ok => (s.moveToTombstone key entry, .waiting (.removing s.nextTombstone))
  | .removing tombstone, outcome =>
    match s.removeTrackedTombstone tombstone outcome with
    | (after, .ok freed) => (after, .done freed)
    | (after, .error code) => (after, .failed code)

/-! ## Staging -/

/-- `#validateInput`. -/
def validInput (input : EpochContentPutInput) : Bool :=
  isStoredContentRef (match input.contentNamespace with
    | .attachment => .attachmentRef s.serverEpoch (List.replicate 64 0x30) input.mediaType 1
    | .utf8 => .contentRef s.serverEpoch (List.replicate 64 0x30) 1) &&
  input.expectedSha256.all isSha256 &&
  input.expectedByteLength.all fun length =>
    isSafeInteger length && 0 < length && length ≤ s.blobLimit input.contentNamespace

/-- `#stage`, up to the first wait of `#stageInternal`. -/
def stage (input : EpochContentPutInput) : EpochContentStore :=
  if s.closed then s.spawn (.rejected .closed)
  else if !s.validInput input then s.spawn (.rejected .invalidRef)
  else
    let bytes := input.expectedByteLength.getD (s.blobLimit input.contentNamespace)
    match s.reserve bytes with
    | .error code => s.spawn (.rejected code)
    | .ok reserved => reserved.spawn (.stage input { bytes } .reading)

/-- The reference of the content that a source delivered. -/
def stagedRef (input : EpochContentPutInput) : EpochStoredContentRef :=
  match input.contentNamespace with
  | .attachment =>
    .attachmentRef s.serverEpoch input.sha256 input.mediaType input.byteLength
  | .utf8 => .contentRef s.serverEpoch input.sha256 input.byteLength

/-- Reading the source into the temporary file, with the checks on the way. -/
def readSource (input : EpochContentPutInput) (outcome : FileOutcome) :
    Except EpochContentStoreErrorCode EpochStoredContentRef :=
  match outcome with
  | .failed code _ => .error code
  | .ok =>
    if input.expectedByteLength.any (· < input.byteLength) then .error .declaredLengthMismatch
    else if s.blobLimit input.contentNamespace < input.byteLength then .error .blobTooLarge
    else if input.byteLength = 0 then .error .emptyBlob
    else if input.expectedByteLength.any (· != input.byteLength) then
      .error .declaredLengthMismatch
    else if input.expectedSha256.any (· != input.sha256) then .error .declaredDigestMismatch
    else .ok (s.stagedRef input)

/-- The beginning of `#commitStage`: an entry that is there is verified, and otherwise its place on
disk is looked at. The outcome tells of an abort. -/
def enterCommit (ref : EpochStoredContentRef) (outcome : FileOutcome) : StageStep :=
  match outcome with
  | .failed code _ => .settling (.error code)
  | .ok =>
    match s.entries.get? (contentKey ref) with
    | none => .probing ref
    | some entry =>
      if (s.heap entry).deleting || !refsEqual (s.heap entry).ref ref then
        .settling (.error .manifestMismatch)
      else .verifying ref entry

/-- The end of `#commitStage` for a new entry. -/
def commitEntry (me : ℕ) (input : EpochContentPutInput) (reservation : Reservation)
    (ref : EpochStoredContentRef) : EpochContentStore :=
  let added := s.addEntry { ref }
  match added.commitReservation me reservation ref.byteLength with
  | .error code => added.withTask me (.stage input reservation (.removingDirectory ref code))
  | .ok committed =>
    (committed.createHold s.nextEntry).withTask me
      (.stage input { reservation with active := false }
        (.settling (.ok { hold := s.tokens.length, created := true })))

/-- `#stageInternal` and `#commitStage`. -/
def resumeStage (me : ℕ) (input : EpochContentPutInput) (reservation : Reservation)
    (step : StageStep) (outcome : FileOutcome) : EpochContentStore :=
  let goOn (s : EpochContentStore) (step : StageStep) :=
    s.withTask me (.stage input reservation step)
  match step, outcome with
  | .reading, outcome =>
    match s.readSource input outcome with
    | .error code => goOn s (.settling (.error code))
    | .ok ref => goOn s.takeTicket (.queued ref s.nextTicket)
  | .queued ref ticket, outcome =>
    if s.digestTurn (contentKey ref) ticket then goOn s (s.enterCommit ref outcome) else s
  | .verifying _ _, .failed code _ => goOn s (.settling (.error code))
  | .verifying _ entry, .ok =>
    ((s.rollbackReservation me reservation).createHold entry).withTask me
      (.stage input { reservation with active := false }
        (.settling (.ok { hold := s.tokens.length, created := false })))
  | .probing _, .failed code _ => goOn s (.settling (.error code))
  | .probing ref, .ok =>
    if contentKey ref ∈ s.directories then goOn s (.settling (.error .digestCollision))
    else goOn s (.makingDirectory ref)
  | .makingDirectory _, .failed code _ => goOn s (.settling (.error code))
  | .makingDirectory ref, .ok =>
    goOn { s with directories := s.directories ++ [contentKey ref] } (.writing ref)
  | .writing ref, .failed code _ => goOn s (.removingDirectory ref code)
  | .writing ref, .ok => s.commitEntry me input reservation ref
  | .removingDirectory ref code, outcome =>
    if outcome.removes then
      goOn { s with directories := s.directories.filter (· != contentKey ref) }
        (.settling (.error code))
    else goOn s (.settling (.error code))
  | .settling result, _ =>
    (s.rollbackReservation me reservation).withTask me
      (.stage input { reservation with active := false } (.settled result))
  | .settled _, _ => s

/-! ## Handles -/

/-- `#validateRef`. -/
def validateRef (ref : EpochStoredContentRef) : Option EpochContentStoreErrorCode :=
  if !(isStoredContentRef ref && ref.byteLength ≤ s.blobLimit ref.namespaceOf) then
    some .invalidRef
  else if ref.serverEpoch ≠ s.serverEpoch then some .epochMismatch
  else none

/-- The published entry that a reference names. -/
def publishedEntry (ref : EpochStoredContentRef) : Except EpochContentStoreErrorCode ℕ :=
  match s.entries.get? (contentKey ref) with
  | none => .error .notFound
  | some entry =>
    if (s.heap entry).deleting then .error .notFound
    else if !refsEqual (s.heap entry).ref ref then .error .manifestMismatch
    else if !(s.heap entry).published then .error .notPublished
    else .ok entry

/-- `publish`, up to the first wait of `#publishInternal`. -/
def publish (handle : ℕ) : EpochContentStore :=
  if s.closed then s.spawn (.rejected .closed)
  else
    match s.tokens[handle]? with
    | none => s.spawn (.rejected .invalidHandle)
    | some token =>
      if token.active && token.kind == .hold then
        s.takeTicket.spawn (.publish handle token (.queued s.nextTicket))
      else s.spawn (.rejected .invalidHandle)

/-- The checks of `#publishInternal`. -/
def enterPublish (handle : ℕ) (token : TokenState) : PublishStep :=
  if !s.tokens[handle]?.any (·.active) then .settled (.error .invalidHandle)
  else
    match s.entries.get? token.key with
    | none => .settled (.error .invalidHandle)
    | some entry =>
      if (s.heap entry).deleting || !refsEqual (s.heap entry).ref token.ref then
        .settled (.error .invalidHandle)
      else if (s.heap entry).published then .settled (.ok ())
      else .writing entry

/-- `#publishInternal`. -/
def resumePublish (me handle : ℕ) (token : TokenState) (step : PublishStep)
    (outcome : FileOutcome) : EpochContentStore :=
  match step, outcome with
  | .queued ticket, _ =>
    if s.digestTurn token.key ticket then
      s.withTask me (.publish handle token (s.enterPublish handle token))
    else s
  | .writing _, .failed code _ =>
    s.withTask me (.publish handle token (.settled (.error code)))
  | .writing entry, .ok =>
    (s.setEntry entry { s.heap entry with published := true }).withTask me
      (.publish handle token (.settled (.ok ())))
  | .settled _, _ => s

/-- `#pinInternal` up to its first wait. -/
def beginPin (ref : EpochStoredContentRef) : EpochContentStore :=
  match s.publishedEntry ref with
  | .error code => s.spawn (.rejected code)
  | .ok entry =>
    (s.setEntry entry ((s.heap entry).increment .pin)).spawn (.pin ref (.verifying entry))

/-- `#pin`. -/
def pin (ref : EpochStoredContentRef) : EpochContentStore :=
  if s.closed then s.spawn (.rejected .closed)
  else
    match s.validateRef ref with
    | some code => s.spawn (.rejected code)
    | none => s.beginPin ref

/-- `#pinByDigest`. -/
def pinByDigest (contentNamespace : ContentNamespace) (digest : JsString) : EpochContentStore :=
  if s.closed then s.spawn (.rejected .closed)
  else if !isSha256 digest then s.spawn (.rejected .invalidRef)
  else
    match s.entries.get? (contentNamespace, digest) with
    | none => s.spawn (.rejected .notFound)
    | some entry =>
      if (s.heap entry).deleting then s.spawn (.rejected .notFound)
      else s.beginPin (s.heap entry).ref

/-- The pin that `#pinInternal` hands out. -/
def createPin (ref : EpochStoredContentRef) (entry : ℕ) : EpochContentStore :=
  { s with
    tokens := s.tokens ++
      [{ kind := .pin, key := contentKey ref, ref := (s.heap entry).ref, entry }] }

/-- `#pinInternal` from its first wait on. -/
def resumePin (me : ℕ) (ref : EpochStoredContentRef) (step : PinStep) (outcome : FileOutcome) :
    EpochContentStore :=
  match step, outcome with
  | .verifying entry, .failed code _ =>
    (s.setEntry entry ((s.heap entry).decrement .pin)).withTask me
      (.pin ref (.settled (.error code)))
  | .verifying entry, .ok =>
    (s.createPin ref entry).withTask me (.pin ref (.settled (.ok s.tokens.length)))
  | .settled _, _ => s

/-- `#holdPublished`, up to the first wait of `#holdPublishedInternal`. -/
def holdPublished (ref : EpochStoredContentRef) : EpochContentStore :=
  if s.closed then s.spawn (.rejected .closed)
  else
    match s.validateRef ref with
    | some code => s.spawn (.rejected code)
    | none => s.takeTicket.spawn (.holdPublished ref (.queued s.nextTicket))

/-- `#holdPublishedInternal`. -/
def resumeHold (me : ℕ) (ref : EpochStoredContentRef) (step : HoldStep) (outcome : FileOutcome) :
    EpochContentStore :=
  match step, outcome with
  | .queued ticket, _ =>
    if s.digestTurn (contentKey ref) ticket then
      match s.publishedEntry ref with
      | .error code => s.withTask me (.holdPublished ref (.settled (.error code)))
      | .ok entry => s.withTask me (.holdPublished ref (.verifying entry))
    else s
  | .verifying _, .failed code _ => s.withTask me (.holdPublished ref (.settled (.error code)))
  | .verifying entry, .ok =>
    if s.closed then s.withTask me (.holdPublished ref (.settled (.error .closed)))
    else
      (s.createHold entry).withTask me (.holdPublished ref (.settled (.ok s.tokens.length)))
  | .settled _, _ => s

/-- `release`, up to the first wait of `#releaseInternal`. -/
def release (handle : ℕ) : EpochContentStore :=
  match s.tokens[handle]? with
  | none => s
  | some token =>
    if !token.active then s
    else
      { s.takeTicket with tokens := s.tokens.set handle { token with active := false } }.spawn
        (.release handle token (.queued s.nextTicket))

/-- `#releaseInternal` from its first wait on. -/
def resumeRelease (me handle : ℕ) (token : TokenState) (step : ReleaseStep)
    (outcome : FileOutcome) : EpochContentStore :=
  let goOn (s : EpochContentStore) (step : ReleaseStep) :=
    s.withTask me (.release handle token step)
  match step with
  | .queued ticket =>
    if s.digestTurn token.key ticket then
      match s.entries.get? token.key with
      | none => goOn s (.settled (.ok ()))
      | some entry =>
        let object := (s.heap entry).decrement token.kind
        if !object.published && object.holds == 0 && object.pins == 0 && !object.deleting then
          goOn (s.setEntry entry { object with deleting := true }).takeTicket
            (.deleting entry (.queued s.nextTicket))
        else goOn (s.setEntry entry object) (.settled (.ok ()))
    else s
  | .deleting entry step =>
    match s.resumeDelete token.key entry step outcome with
    | (after, .waiting step) => goOn after (.deleting entry step)
    | (after, .done _) => goOn after (.settled (.ok ()))
    | (after, .failed code) => goOn after (.recovering entry code)
  | .recovering entry code =>
    if s.entries.get? token.key = some entry then
      goOn
        { s.setEntry entry { (s.heap entry).increment token.kind with deleting := false } with
          tokens := s.tokens.modify handle fun token => { token with active := true } }
        (.settled (.error code))
    else goOn s (.settled (.error code))
  | .settled _ => s

/-! ## Collection and shutdown -/

/-- An entry that `gc` deletes. -/
def collectable (entry : ℕ) : Bool :=
  let object := s.heap entry
  object.published && object.holds == 0 && object.pins == 0 && !object.deleting

/-- `gc`, up to the first wait of `#gcInternal`. -/
def gc : EpochContentStore :=
  if s.closed then s.spawn (.rejected .closed)
  else
    s.takeTicket.spawn
      (.gc (s.entries.entries.filter fun entry => s.collectable entry.2) {} (.queued s.nextTicket))

/-- `#cleanupBlobTombstones` goes on while there are names to remove or roots to list. -/
def cleaningStep (roots : List ContentNamespace) (names : List ℕ) : GcStep :=
  if roots = [] ∧ names = [] then .next else .cleaning roots names

/-- `#gcInternal`. -/
def resumeGc (me : ℕ) (candidates : List (ContentKey × ℕ)) (freed : FreedContent)
    (step : GcStep) (outcome : FileOutcome) : EpochContentStore :=
  let goOn (s : EpochContentStore) (freed : FreedContent) (step : GcStep) :=
    s.withTask me (.gc candidates freed step)
  match step with
  | .queued ticket =>
    if s.tombstoneTurn ticket then goOn s freed (.cleaning [.attachment, .utf8] []) else s
  | .cleaning roots (name :: names) =>
    match s.removeTrackedTombstone name outcome with
    | (after, .ok removed) => goOn after (freed.add removed) (cleaningStep roots names)
    | (after, .error code) => goOn after freed (.settled (.error code))
  | .cleaning (root :: roots) [] =>
    match outcome with
    | .failed code _ => goOn s freed (.settled (.error code))
    | .ok =>
      goOn s freed (cleaningStep roots
        ((s.tombstoneDirectories.filter fun entry => entry.1 == root).map (·.2)))
  | .cleaning [] [] => goOn s freed .next
  | .next =>
    match candidates with
    | [] => goOn s freed (.settled (.ok freed))
    | (key, entry) :: rest =>
      s.takeTicket.withTask me (.gc rest freed (.awaiting key entry s.nextTicket))
  | .awaiting key entry ticket =>
    if s.digestTurn key ticket then
      if s.collectable entry then
        goOn (s.setEntry entry { s.heap entry with deleting := true }).takeTicket freed
          (.deleting key entry (.queued s.nextTicket))
      else goOn s freed .next
    else s
  | .deleting key entry step =>
    match s.resumeDelete key entry step outcome with
    | (after, .waiting step) => goOn after freed (.deleting key entry step)
    | (after, .done removed) => goOn after (freed.add removed) .next
    | (after, .failed code) => goOn after freed (.recovering key entry code)
  | .recovering key entry code =>
    if s.entries.get? key = some entry then
      goOn (s.setEntry entry { s.heap entry with deleting := false }) freed
        (.settled (.error code))
    else goOn s freed (.settled (.error code))
  | .settled _ => s

/-- One handle of the loop of `#shutdownInternal` gives its count back. -/
def closeToken (token : TokenState) : EpochContentStore :=
  if !token.active then s
  else
    match s.entries.get? token.key with
    | none => s
    | some entry => s.setEntry entry ((s.heap entry).decrement token.kind)

/-- The handles of a closed store are inactive, and their counts are given back. -/
def closeTokens : EpochContentStore :=
  { s.tokens.foldl closeToken s with
    closed := true
    tokens := s.tokens.map fun token => { token with active := false } }

/-- `shutdown`, up to the first wait of `#shutdownInternal`. -/
def shutdown : EpochContentStore :=
  if s.closed then s else s.closeTokens.spawn (.shutdown .waiting)

/-- The loop of `#shutdownInternal` over the entries that are still there. -/
def nextUnpublished (me : ℕ) (rest : List (ContentKey × ℕ)) : EpochContentStore :=
  match rest.dropWhile fun entry =>
      s.entries.get? entry.1 != some entry.2 || (s.heap entry.2).published with
  | [] => s.withTask me (.shutdown .unlinking)
  | (key, entry) :: rest =>
    s.takeTicket.withTask me (.shutdown (.deleting key entry (.queued s.nextTicket) rest))

/-- `#shutdownInternal` from its first wait on: for the operations that were active. -/
def resumeShutdown (me : ℕ) (step : ShutdownStep) (outcome : FileOutcome) : EpochContentStore :=
  match step with
  | .waiting =>
    if (s.tasks.take me).all (·.isSettled) then s.nextUnpublished me s.entries.entries else s
  | .deleting key entry step rest =>
    match s.resumeDelete key entry step outcome with
    | (after, .waiting step) => after.withTask me (.shutdown (.deleting key entry step rest))
    | (after, .done _) => after.nextUnpublished me rest
    | (after, .failed _) => after.nextUnpublished me rest
  | .unlinking =>
    { s with reservedBytes := 0, reservedItems := 0 }.withTask me (.shutdown .settled)
  | .settled => s

end EpochContentStore

/-! ## Runs -/

/-- A call of the store, or the outcome of the file operation that a task waits for. -/
inductive StoreAction where
  | stage (input : EpochContentPutInput)
  | publish (handle : ℕ)
  | pin (ref : EpochStoredContentRef)
  | pinByDigest (contentNamespace : ContentNamespace) (digest : JsString)
  | holdPublished (ref : EpochStoredContentRef)
  | release (handle : ℕ)
  | gc
  | shutdown
  | resume (task : ℕ) (outcome : FileOutcome)
  deriving DecidableEq

namespace EpochContentStore

/-- A task goes on. -/
def resume (s : EpochContentStore) (me : ℕ) (outcome : FileOutcome) : EpochContentStore :=
  match s.tasks[me]? with
  | none => s
  | some (.rejected _) => s
  | some (.stage input reservation step) => s.resumeStage me input reservation step outcome
  | some (.publish handle token step) => s.resumePublish me handle token step outcome
  | some (.pin ref step) => s.resumePin me ref step outcome
  | some (.holdPublished ref step) => s.resumeHold me ref step outcome
  | some (.release handle token step) => s.resumeRelease me handle token step outcome
  | some (.gc candidates freed step) => s.resumeGc me candidates freed step outcome
  | some (.shutdown step) => s.resumeShutdown me step outcome

/-- One step. -/
def step (s : EpochContentStore) : StoreAction → EpochContentStore
  | .stage input => s.stage input
  | .publish handle => s.publish handle
  | .pin ref => s.pin ref
  | .pinByDigest contentNamespace digest => s.pinByDigest contentNamespace digest
  | .holdPublished ref => s.holdPublished ref
  | .release handle => s.release handle
  | .gc => s.gc
  | .shutdown => s.shutdown
  | .resume task outcome => s.resume task outcome

/-- One published directory of `#scanCurrentEpoch`, with its name and the reference in its manifest;
`#readManifest` compares the two. -/
def scanDirectory (s : EpochContentStore) (directory : ContentKey × EpochStoredContentRef) :
    Except EpochContentStoreErrorCode EpochContentStore :=
  let (key, ref) := directory
  let bytes := s.bytes + ref.byteLength
  let items := s.items + 1
  if ref.serverEpoch ≠ s.serverEpoch ∨ contentKey ref ≠ key then .error .unsafeLayout
  else if s.limits.maxCacheBytes < bytes ∨ s.limits.maxCacheItems < items then
    .error .unsafeLayout
  else
    .ok { s.addEntry { ref, published := true } with
      bytes, items, directories := s.directories ++ [key] }

/-- `#scanCurrentEpoch` over the published directories on disk. -/
def scanCurrentEpoch (serverEpoch : JsString) (limits : EpochContentStoreLimits)
    (published : InsertionMap ContentKey EpochStoredContentRef) :
    Except EpochContentStoreErrorCode EpochContentStore :=
  published.entries.foldlM scanDirectory { serverEpoch, limits }

/-- The operations that are in progress. -/
def inFlight (s : EpochContentStore) : List StoreTask := s.tasks.filter (!·.isSettled)

end EpochContentStore

end PiAgentWeb
