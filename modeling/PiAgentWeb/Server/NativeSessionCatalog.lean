import PiAgentWeb.Library.Runs
import PiAgentWeb.Server.NativeSessionScan

/-!
# The native Session catalog

The catalog keeps what it read of every Session directory: the revision of the directory, and for
every file its revision and what a scan of it gave. A directory with the same revision is not read
again, a file with the same revision is not scanned again, and a file that grew is scanned from
where the last scan ended.

The metadata of a file stand for its version: a change of the content alters them. The entries of
a directory are in the order of their names, in which a listing is taken to give them. A digest of
revisions is represented by the revisions. While a directory is scanned it does not change; a scan
that saw it change leaves the cache alone.
-/

namespace PiAgentWeb

/-- `NativeSessionFileMetadata`. -/
structure NativeSessionFileMetadata where
  canonicalFile : JsString
  symlink : Bool
  dev : ℕ
  ino : ℕ
  size : ℕ
  mtimeNs : ℕ
  ctimeNs : ℕ
  deriving DecidableEq

/-- `identity`. -/
def NativeSessionFileMetadata.identity (metadata : NativeSessionFileMetadata) :
    JsString × Bool × ℕ × ℕ :=
  (metadata.canonicalFile, metadata.symlink, metadata.dev, metadata.ino)

/-- A version of a file. -/
structure SessionFileVersion where
  /-- A regular file, or a link. -/
  listed : Bool
  /-- What a reader gets; `none` if it cannot be read. -/
  content : Option (List UInt8)
  birthtimeMs : Rat
  mtimeMs : Rat

/-- `NativeSessionSummary`. -/
structure NativeSessionSummary where
  path : JsString
  id : JsString
  cwd : JsString
  name : Option JsString
  parentSessionPath : Option JsString
  created : Rat
  modified : Rat
  messageCount : ℕ
  firstMessage : JsString
  deriving DecidableEq

/-- `CachedSessionFileSummary`. The identity and the size are parts of the revision. -/
structure CachedSessionFileSummary (Digest : Type) where
  revision : NativeSessionFileMetadata
  scanOffset : ℕ
  appendSafe : Bool
  appendCheckpoint : Option (NativeSession.NativeSessionAppendCheckpoint Digest)
  scanState : Option NativeSessionScanState
  summary : Option NativeSessionSummary
  deriving DecidableEq

/-- How a stream cuts what it reads into chunks. -/
structure StreamCut where
  chunks : List UInt8 → List (List UInt8)
  flatten_chunks : ∀ bytes, (chunks bytes).flatten = bytes

/-- A stream of one chunk. -/
def StreamCut.whole : StreamCut where
  chunks := fun bytes => [bytes]
  flatten_chunks := fun _ => List.flatten_singleton

/-- A stream of two chunks, of which the first has that many bytes. -/
def StreamCut.once (count : ℕ) : StreamCut where
  chunks := fun bytes => [bytes.take count, bytes.drop count]
  flatten_chunks := fun bytes => by simp

/-- What the catalog learns of an entry of a directory. -/
inductive EntryStatus where
  | found (metadata : NativeSessionFileMetadata)
  | missing (canonicalFile : JsString)
  /-- It cannot be inspected for now. -/
  | unavailable (canonicalFile : JsString)
  /-- It cannot be inspected. -/
  | unreadable

/-- An entry of a directory. -/
structure DirectoryEntry where
  name : JsString
  status : EntryStatus

/-- A directory that may be missing. -/
abbrev SessionDirectory := Option (List DirectoryEntry)

/-- `sessionFileRevision`. -/
inductive FileRevision where
  | found (metadata : NativeSessionFileMetadata)
  | missing
  | unreadable
  deriving DecidableEq

/-- The revision of an entry. -/
def EntryStatus.revision : EntryStatus → FileRevision
  | .found metadata => .found metadata
  | .missing _ => .missing
  | .unavailable _ | .unreadable => .unreadable

/-- `CachedDirectorySummary`. -/
structure CachedDirectorySummary (Digest : Type) where
  revision : Option (List (JsString × FileRevision))
  sessions : List NativeSessionSummary
  files : InsertionMap JsString (CachedSessionFileSummary Digest)
  retryable : Bool

/-- `directoryCache`. -/
abbrev DirectoryCache (Digest : Type) := InsertionMap JsString (CachedDirectorySummary Digest)

namespace NativeSession

variable {Digest : Type} [DecidableEq Digest] (host : SessionScanHost Digest)
variable (files : NativeSessionFileMetadata → SessionFileVersion)

/-- `canIncrementallyScan`: the checkpoint and the state that a scan goes on from. -/
def canIncrementallyScan (metadata : NativeSessionFileMetadata) (content : List UInt8)
    (cached : CachedSessionFileSummary Digest) :
    Option (CheckpointParts × NativeSessionScanState) :=
  match cached.scanState, cached.scanState.bind (·.header), cached.appendCheckpoint with
  | some state, some header, some checkpoint =>
    if cached.appendSafe && cached.revision.identity = metadata.identity &&
        cached.scanOffset = cached.revision.size && cached.scanOffset < metadata.size &&
        isSafeInteger cached.scanOffset then
      (readAppendCheckpoint content cached.revision.size).bind fun parts =>
        if parts.checkpoint host = checkpoint ∧ readSessionHeader host content = some header then
          some (parts, state)
        else none
    else none
  | _, _, _ => none

/-- The summary of a scanned file, if it has a header. -/
def summaryOf (metadata : NativeSessionFileMetadata) (state : NativeSessionScanState) :
    Option NativeSessionSummary :=
  state.header.map fun header =>
    let file := files metadata
    let headerTime := header.timestamp.bind host.parseDateMillis
    { path := metadata.canonicalFile
      id := header.id
      cwd := header.cwd
      name := state.name
      parentSessionPath := header.parentSessionPath
      created := headerTime.getD (if 0 < file.birthtimeMs then file.birthtimeMs else file.mtimeMs)
      modified := (state.lastActivityTime.filter (0 < ·)).getD (headerTime.getD file.mtimeMs)
      messageCount := state.messageCount
      firstMessage := state.firstMessage.getD [] }

/-- What is kept of a file whose scan failed for good. -/
def unscanned (metadata : NativeSessionFileMetadata) : CachedSessionFileSummary Digest where
  revision := metadata
  scanOffset := metadata.size
  appendSafe := false
  appendCheckpoint := none
  scanState := none
  summary := none

/-- What is kept of a file after a scan from a state. -/
def scanFrom (metadata : NativeSessionFileMetadata) (state : NativeSessionScanState)
    (parts : CheckpointParts) (chunks : List (List UInt8)) : CachedSessionFileSummary Digest :=
  match scanStream host state chunks with
  | none => unscanned metadata
  | some (state, appendSafe) =>
    { revision := metadata
      scanOffset := metadata.size
      appendSafe := appendSafe
      appendCheckpoint :=
        if state.header.isSome then
          some ((chunks.foldl CheckpointParts.consume parts).checkpoint host)
        else none
      scanState := some state
      summary := summaryOf host files metadata state }

/-- `scanNativeSessionFile`, when it is neither interrupted nor to be tried again, and what is
kept of it. -/
def scanNativeSessionFile (cut : StreamCut) (metadata : NativeSessionFileMetadata)
    (cached : Option (CachedSessionFileSummary Digest)) : CachedSessionFileSummary Digest :=
  match (files metadata).content with
  | none => unscanned metadata
  | some content =>
    if metadata.size = 0 then unscanned metadata
    else
      match cached.bind (canIncrementallyScan host metadata content),
          cached.map (·.scanOffset) with
      | some (parts, state), some scanOffset =>
        scanFrom host files metadata state parts (cut.chunks (content.drop scanOffset))
      | _, _ => scanFrom host files metadata .initial .empty (cut.chunks content)

/-- `endsWith(".jsonl")`. -/
def isSessionName (name : JsString) : Bool := (js ".jsonl").isSuffixOf name

/-- `directoryRevision`. -/
def directoryRevision (directory : SessionDirectory) : Option (List (JsString × FileRevision)) :=
  directory.map fun entries =>
    (entries.filter fun entry => isSessionName entry.name).map fun entry =>
      (entry.name, entry.status.revision)

/-- The metadata of the Session files of a listing under their canonical paths; a later entry of
the same path takes the place of an earlier one. -/
def sessionFiles (revisions : List (JsString × FileRevision)) :
    InsertionMap JsString NativeSessionFileMetadata :=
  revisions.foldl (fun found entry =>
    match entry.2 with
    | .found metadata =>
      if (files metadata).listed then found.insert metadata.canonicalFile metadata else found
    | _ => found) .empty

/-- The entries that may be inspected later. Each has a path of its own. -/
def unsettledFiles (entries : List DirectoryEntry) : List JsString :=
  (entries.filter fun entry => isSessionName entry.name).filterMap fun entry =>
    match entry.status with
    | .missing canonicalFile | .unavailable canonicalFile => some canonicalFile
    | .found _ | .unreadable => none

/-- A file of `scanSessionDirectory` that was found: what is kept of it, and whether it has to be
read again. It is interrupted by the budget or by an error that is to be tried again. -/
def scanEntry (cut : StreamCut) (interrupted : NativeSessionFileMetadata → Bool)
    (cached : Option (CachedSessionFileSummary Digest)) (metadata : NativeSessionFileMetadata) :
    Option (CachedSessionFileSummary Digest) × Bool :=
  if interrupted metadata then (cached, true)
  else if cached.any (·.revision = metadata) then (cached, false)
  else (some (scanNativeSessionFile host files cut metadata cached), false)

/-- What is kept of the files, under their paths. -/
def keptFiles (scannedFiles : List (JsString × Option (CachedSessionFileSummary Digest))) :
    InsertionMap JsString (CachedSessionFileSummary Digest) :=
  scannedFiles.foldl (fun kept entry =>
    match entry.2 with
    | none => kept
    | some cached => kept.insert entry.1 cached) .empty

/-- `scanSessionDirectory`. -/
def scanSessionDirectory (cut : StreamCut) (interrupted : NativeSessionFileMetadata → Bool)
    (directory : SessionDirectory)
    (cachedFiles : InsertionMap JsString (CachedSessionFileSummary Digest)) :
    CachedDirectorySummary Digest :=
  match directory with
  | none => { revision := none, sessions := [], files := .empty, retryable := true }
  | some entries =>
    let scanned :=
      (sessionFiles files ((directoryRevision directory).getD [])).entries.map fun entry =>
        (entry.1,
          scanEntry host files cut interrupted (cachedFiles.get? entry.1) entry.2)
    let scannedFiles := scanned.map (fun entry => (entry.1, entry.2.1)) ++
      (unsettledFiles entries).map fun canonicalFile =>
        (canonicalFile, cachedFiles.get? canonicalFile)
    { revision := directoryRevision directory
      sessions := scannedFiles.filterMap fun entry => entry.2.bind (·.summary)
      files := keptFiles scannedFiles
      retryable := (scanned.any fun entry => entry.2.2) || !(unsettledFiles entries).isEmpty }

/-- `scanDirectDirectory`: the sessions of a directory, and the cache. -/
def scanDirectDirectory (cut : StreamCut) (interrupted : NativeSessionFileMetadata → Bool)
    (cache : DirectoryCache Digest) (cacheKey : JsString) (directory : SessionDirectory) :
    List NativeSessionSummary × DirectoryCache Digest :=
  match (cache.get? cacheKey).filter fun cached =>
      !cached.retryable && cached.revision = directoryRevision directory with
  | some cached => (cached.sessions, cache)
  | none =>
    let scanned := scanSessionDirectory host files cut interrupted directory
      ((cache.get? cacheKey).elim .empty (·.files))
    (scanned.sessions, cache.insert cacheKey scanned)

/-- A directory whose listing was interrupted keeps what is known of its files, to be read
again. -/
def interruptListing (cache : DirectoryCache Digest) (cacheKey : JsString)
    (directory : SessionDirectory) : DirectoryCache Digest :=
  let cachedFiles := (cache.get? cacheKey).elim .empty (·.files)
  cache.insert cacheKey
    { revision := directoryRevision directory
      sessions := cachedFiles.entries.filterMap fun entry => entry.2.summary
      files := cachedFiles
      retryable := true }

end NativeSession

/-- What earlier refreshes do to the cache. -/
inductive CatalogAction where
  | scan (cut : StreamCut) (interrupted : NativeSessionFileMetadata → Bool) (cacheKey : JsString)
    (directory : SessionDirectory)
  | interruptListing (cacheKey : JsString) (directory : SessionDirectory)
  | pruneDirectoryCache (cacheKey : JsString)

/-- What a refresh reads: the layout, and the directories as they are. -/
structure SessionLayout (Source : Type) where
  /-- `discoveryPlan`. -/
  discoveryPlan : List JsString → List Source
  /-- The directories of a source, under their cache keys. -/
  directories : Source → List (JsString × SessionDirectory)
  /-- `canonicalizePathAllowMissing`. -/
  canonicalizePath : JsString → JsString

namespace NativeSession

variable {Digest : Type} [DecidableEq Digest] (host : SessionScanHost Digest)
variable (files : NativeSessionFileMetadata → SessionFileVersion)

/-- The cache after an action. -/
def catalogStep (cache : DirectoryCache Digest) : CatalogAction → DirectoryCache Digest
  | .scan cut interrupted cacheKey directory =>
    (scanDirectDirectory host files cut interrupted cache cacheKey directory).2
  | .interruptListing cacheKey directory => interruptListing cache cacheKey directory
  | .pruneDirectoryCache cacheKey => cache.erase cacheKey

/-- The directories of the new sources, one after another. -/
def scanSources (cut : StreamCut) (cache : DirectoryCache Digest) :
    List (JsString × SessionDirectory) → List NativeSessionSummary × DirectoryCache Digest
  | [] => ([], cache)
  | (cacheKey, directory) :: rest =>
    let scanned := scanDirectDirectory host files cut (fun _ => false) cache cacheKey directory
    let later := scanSources cut scanned.2 rest
    (scanned.1 ++ later.1, later.2)

section Discover

variable {Source : Type} [DecidableEq Source] (layout : SessionLayout Source)

/-- The first summary of a file counts. -/
def addSummaries (infoByFile : InsertionMap JsString NativeSessionSummary)
    (sessions : List NativeSessionSummary) : InsertionMap JsString NativeSessionSummary :=
  sessions.foldl (fun infoByFile info =>
    if (infoByFile.get? info.path).isSome then infoByFile else infoByFile.insert info.path info)
    infoByFile

/-- The workspaces that the headers of the sessions name. -/
def addWorkspaces (knownWorkspaces : List JsString) (sessions : List NativeSessionSummary) :
    List JsString :=
  sessions.foldl (fun known info =>
    let workspacePath := layout.canonicalizePath info.cwd
    if info.cwd = [] ∨ workspacePath ∈ known then known else known ++ [workspacePath])
    knownWorkspaces

/-- The loop of `discover`: sources are scanned until no new source is planned. The fuel bounds
the number of rounds. -/
def discover (cut : StreamCut) :
    ℕ → List JsString → List Source → InsertionMap JsString NativeSessionSummary →
      DirectoryCache Digest → Option (InsertionMap JsString NativeSessionSummary)
  | 0, _, _, _, _ => none
  | fuel + 1, knownWorkspaces, scannedSources, infoByFile, cache =>
    let pendingSources :=
      ((layout.discoveryPlan knownWorkspaces).filter (· ∉ scannedSources)).eraseDups
    if pendingSources = [] then some infoByFile
    else
      let scanned := scanSources host files cut cache (pendingSources.flatMap layout.directories)
      let infoByFile := addSummaries infoByFile scanned.1
      let discovered := addWorkspaces layout knownWorkspaces scanned.1
      let scannedSources := scannedSources ++ pendingSources
      if discovered = knownWorkspaces ∧ ∀ source ∈ layout.discoveryPlan discovered,
          source ∈ scannedSources then some infoByFile
      else discover cut fuel discovered scannedSources infoByFile scanned.2

/-- The Session records of a refresh: `toRecord` looks at the workspace of a summary, and the
records are sorted. -/
def refreshSessions {Record : Type} (toRecord : NativeSessionSummary → Record)
    (le : Record → Record → Bool) (cut : StreamCut) (fuel : ℕ) (knownWorkspaces : List JsString)
    (cache : DirectoryCache Digest) : Option (List Record) :=
  (discover host files layout cut fuel knownWorkspaces [] .empty cache).map fun infoByFile =>
    (infoByFile.entries.map fun entry => toRecord entry.2).mergeSort le

end Discover

end NativeSession

end PiAgentWeb
