import PiAgentWeb.Library.JsData
import PiAgentWeb.Server.NativeSessionCatalog

/-!
# Warm and cold discovery

What the catalog keeps of a file is what a full scan of that version of the file gives, however
the scan was resumed and however the stream was cut, as long as no line is too long for the buffer
only because of its carriage return. So a refresh finds the same Sessions whatever the cache holds.
-/

namespace PiAgentWeb

namespace NativeSession

variable {Digest : Type} {host : SessionScanHost Digest}
variable {files : NativeSessionFileMetadata → SessionFileVersion}

/-- What is assumed of the files. A file that grew under the same identity, with the same header
and the same first and last bytes, extends its old content. -/
structure FilesExtend (host : SessionScanHost Digest)
    (files : NativeSessionFileMetadata → SessionFileVersion) : Prop where
  size : ∀ metadata content, (files metadata).content = some content →
    content.length = metadata.size
  grown : ∀ before after old new, (files before).content = some old →
    (files after).content = some new → before.identity = after.identity →
    before.size < after.size →
    (checkpointParts (new.take before.size)).checkpoint host =
      (checkpointParts old).checkpoint host →
    readSessionHeader host new = (scanBytes host .initial old).bind (·.1.header) → old <+: new

/-- Every version of a file has clean lines. -/
def FilesClean (files : NativeSessionFileMetadata → SessionFileVersion) : Prop :=
  ∀ metadata content, (files metadata).content = some content → CleanLines content

/-! ## The scan of a file -/

/-- What is kept of a file after a scan with that result. -/
def keptOf (host : SessionScanHost Digest) (files : NativeSessionFileMetadata → SessionFileVersion)
    (metadata : NativeSessionFileMetadata) (content : List UInt8) :
    Option (NativeSessionScanState × Bool) → CachedSessionFileSummary Digest
  | none => unscanned metadata
  | some (state, appendSafe) =>
    { revision := metadata
      scanOffset := metadata.size
      appendSafe := appendSafe
      appendCheckpoint :=
        if state.header.isSome then some ((checkpointParts content).checkpoint host) else none
      scanState := some state
      summary := summaryOf host files metadata state }

theorem scanFrom_eq (metadata : NativeSessionFileMetadata) (state : NativeSessionScanState)
    (seen : List UInt8) {chunks : List (List UInt8)} (hclean : CleanLines chunks.flatten) :
    scanFrom host files metadata state (checkpointParts seen) chunks =
      keptOf host files metadata (seen ++ chunks.flatten)
        (scanBytes host state chunks.flatten) := by
  rw [scanFrom, scanStream_eq hclean, checkpointParts_foldl]
  cases scanBytes host state chunks.flatten with
  | none => rfl
  | some result => rfl

/-- What a full scan keeps of a version of a file. -/
def coldScan (host : SessionScanHost Digest)
    (files : NativeSessionFileMetadata → SessionFileVersion)
    (metadata : NativeSessionFileMetadata) : CachedSessionFileSummary Digest :=
  match (files metadata).content with
  | none => unscanned metadata
  | some content =>
    if metadata.size = 0 then unscanned metadata
    else keptOf host files metadata content (scanBytes host .initial content)

/-! ## Sound caches -/

/-- Every kept entry is what a full scan of its version gives. -/
def FilesSound (host : SessionScanHost Digest)
    (files : NativeSessionFileMetadata → SessionFileVersion)
    (kept : InsertionMap JsString (CachedSessionFileSummary Digest)) : Prop :=
  ∀ path entry, kept.get? path = some entry → entry = coldScan host files entry.revision

/-- The sessions that a full scan of a directory finds. -/
def coldSessions (host : SessionScanHost Digest)
    (files : NativeSessionFileMetadata → SessionFileVersion)
    (revision : Option (List (JsString × FileRevision))) : List NativeSessionSummary :=
  revision.elim [] fun revisions => (sessionFiles files revisions).entries.filterMap fun entry =>
    (coldScan host files entry.2).summary

/-- The cache is sound: what is not to be read again is what a full scan finds. -/
def CacheSound (host : SessionScanHost Digest)
    (files : NativeSessionFileMetadata → SessionFileVersion) (cache : DirectoryCache Digest) :
    Prop :=
  ∀ cacheKey cached, cache.get? cacheKey = some cached →
    FilesSound host files cached.files ∧
      (cached.retryable = false → cached.sessions = coldSessions host files cached.revision)

theorem keptFiles_sound {scannedFiles : List (JsString × Option (CachedSessionFileSummary Digest))}
    (h : ∀ path entry, (path, some entry) ∈ scannedFiles →
      entry = coldScan host files entry.revision) :
    FilesSound host files (keptFiles scannedFiles) := by
  have hempty : FilesSound host files
      (InsertionMap.empty : InsertionMap JsString (CachedSessionFileSummary Digest)) :=
    fun _ _ hget => by cases hget
  unfold keptFiles
  revert hempty
  generalize (InsertionMap.empty : InsertionMap JsString (CachedSessionFileSummary Digest)) = kept
  induction scannedFiles generalizing kept with
  | nil => exact fun hkept => hkept
  | cons scanned rest ih =>
    intro hkept
    refine ih (fun path entry hmem => h path entry (List.mem_cons_of_mem _ hmem)) _ ?_
    obtain ⟨path, cached⟩ := scanned
    cases cached with
    | none => exact hkept
    | some cached =>
      intro path' entry hget
      simp only [InsertionMap.get?_insert] at hget
      split at hget
      · cases hget
        exact h _ _ List.mem_cons_self
      · exact hkept path' entry hget

variable {cache : DirectoryCache Digest}

theorem cacheSound_insert (h : CacheSound host files cache)
    {cacheKey : JsString} {cached : CachedDirectorySummary Digest}
    (hcached : FilesSound host files cached.files ∧
      (cached.retryable = false → cached.sessions = coldSessions host files cached.revision)) :
    CacheSound host files (cache.insert cacheKey cached) := by
  intro cacheKey' cached' hget
  rw [InsertionMap.get?_insert] at hget
  split at hget
  · cases hget
    exact hcached
  · exact h cacheKey' cached' hget

theorem CacheSound.cachedFiles (h : CacheSound host files cache) (cacheKey : JsString) :
    FilesSound host files ((cache.get? cacheKey).elim .empty (·.files)) := by
  cases hget : cache.get? cacheKey with
  | none => exact fun _ _ hempty => nomatch hempty
  | some cached => exact (h cacheKey cached hget).1

variable [DecidableEq Digest]

/-! ## Scans that go on -/

theorem scanNativeSessionFile_none (hclean : FilesClean files) (cut : StreamCut)
    (metadata : NativeSessionFileMetadata) :
    scanNativeSessionFile host files cut metadata none = coldScan host files metadata := by
  unfold scanNativeSessionFile coldScan
  cases hcontent : (files metadata).content with
  | none => rfl
  | some content =>
    have hcut := cut.flatten_chunks content
    simp only [Option.bind_none, Option.map_none]
    split
    · rfl
    · rw [show CheckpointParts.empty = checkpointParts [] from rfl,
        scanFrom_eq metadata .initial [] (hcut.symm ▸ hclean metadata content hcontent), hcut,
        List.nil_append]

theorem resumes (hfiles : FilesExtend host files) {metadata before : NativeSessionFileMetadata}
    {content : List UInt8} (hcontent : (files metadata).content = some content)
    {parts : CheckpointParts} {state : NativeSessionScanState}
    (hresume : canIncrementallyScan host metadata content (coldScan host files before) =
      some (parts, state)) :
    ∃ old new, content = old ++ new ∧ old.length = before.size ∧
      (coldScan host files before).scanOffset = before.size ∧ parts = checkpointParts old ∧
      scanBytes host .initial old = some (state, true) := by
  cases hold : (files before).content with
  | none => simp [canIncrementallyScan, coldScan, hold, unscanned] at hresume
  | some old =>
    by_cases hzero : before.size = 0
    · simp [canIncrementallyScan, coldScan, hold, hzero, unscanned] at hresume
    · have hcold : coldScan host files before =
          keptOf host files before old (scanBytes host .initial old) := by
        simp [coldScan, hold, hzero]
      rw [hcold] at hresume ⊢
      cases hscan : scanBytes host .initial old with
      | none => simp [canIncrementallyScan, hscan, keptOf, unscanned] at hresume
      | some result =>
        obtain ⟨state₁, appendSafe⟩ := result
        cases hheader : state₁.header with
        | none => simp [canIncrementallyScan, hscan, keptOf, hheader] at hresume
        | some header =>
          simp only [canIncrementallyScan, hscan, keptOf, Option.bind_some, hheader,
            Option.isSome_some, if_true] at hresume
          split at hresume
          · rename_i hconditions
            simp only [Bool.and_eq_true, decide_eq_true_eq] at hconditions
            obtain ⟨⟨⟨⟨hsafe, hidentity⟩, -⟩, hgrown⟩, hinteger⟩ := hconditions
            have hread : readAppendCheckpoint content before.size =
                some (checkpointParts (content.take before.size)) := by
              rw [readAppendCheckpoint, if_pos]
              rw [hfiles.size metadata content hcontent, hinteger, Bool.true_and,
                decide_eq_true_eq]
              omega
            rw [hread, Option.bind_some] at hresume
            split at hresume
            · rename_i hsame
              have hextends : old <+: content := by
                refine hfiles.grown before metadata old content hold hcontent hidentity hgrown
                  hsame.1 ?_
                rw [hsame.2, hscan, Option.bind_some, hheader]
              obtain ⟨new, rfl⟩ := hextends
              have hlength := hfiles.size before old hold
              rw [Option.some.injEq, Prod.mk.injEq] at hresume
              refine ⟨old, new, rfl, hlength, rfl, ?_, ?_⟩
              · rw [← hresume.1, ← hlength, List.take_left]
              · rw [← hresume.2, hscan, hsafe]
            · cases hresume
          · cases hresume

/-- A scan that goes on from what a full scan of another version left gives what a full scan
gives. -/
theorem scanNativeSessionFile_eq (hfiles : FilesExtend host files) (hclean : FilesClean files)
    (cut : StreamCut) (metadata : NativeSessionFileMetadata)
    {cached : Option (CachedSessionFileSummary Digest)}
    (hcached : ∀ entry, cached = some entry → entry = coldScan host files entry.revision) :
    scanNativeSessionFile host files cut metadata cached = coldScan host files metadata := by
  cases cached with
  | none => exact scanNativeSessionFile_none hclean cut metadata
  | some entry =>
    have hcold : scanNativeSessionFile host files cut metadata none =
        coldScan host files metadata := scanNativeSessionFile_none hclean cut metadata
    unfold scanNativeSessionFile at hcold ⊢
    cases hcontent : (files metadata).content with
    | none => simpa [hcontent] using hcold
    | some content =>
      simp only [hcontent] at hcold ⊢
      by_cases hzero : metadata.size = 0
      · simpa [hzero] using hcold
      · simp only [if_neg hzero, Option.bind_some, Option.map_some] at hcold ⊢
        cases hresume : canIncrementallyScan host metadata content entry with
        | none => exact hcold
        | some resumed =>
          obtain ⟨parts, state⟩ := resumed
          have hentry := hcached entry rfl
          rw [hentry] at hresume
          obtain ⟨old, new, rfl, hlength, hoffset, rfl, hscan⟩ := resumes hfiles hcontent hresume
          rw [← hentry] at hoffset
          have hcut := cut.flatten_chunks new
          have hcleanNew : CleanLines new :=
            cleanLines_append hscan (hclean metadata _ hcontent)
          simp only
          rw [hoffset, ← hlength, List.drop_left,
            scanFrom_eq metadata state old (hcut.symm ▸ hcleanNew), hcut,
            ← scanBytes_append hscan]
          simp [coldScan, hcontent, hzero]

/-! ## Directories -/

theorem scanEntry_sound (hfiles : FilesExtend host files) (hclean : FilesClean files)
    (cut : StreamCut) (interrupted : NativeSessionFileMetadata → Bool)
    {cached : Option (CachedSessionFileSummary Digest)}
    (hcached : ∀ entry, cached = some entry → entry = coldScan host files entry.revision)
    (metadata : NativeSessionFileMetadata) :
    (∀ entry, (scanEntry host files cut interrupted cached metadata).1 = some entry →
        entry = coldScan host files entry.revision) ∧
      (interrupted metadata = false → scanEntry host files cut interrupted cached metadata =
        (some (coldScan host files metadata), false)) ∧
      (interrupted metadata = true →
        (scanEntry host files cut interrupted cached metadata).2 = true) := by
  have hscan := scanNativeSessionFile_eq hfiles hclean cut metadata hcached
  have hrevision : (coldScan host files metadata).revision = metadata := by
    unfold coldScan keptOf unscanned
    split
    · rfl
    · split
      · rfl
      · split <;> rfl
  unfold scanEntry
  by_cases hinterrupted : interrupted metadata = true
  · simp only [hinterrupted, if_true]
    exact ⟨hcached, (fun h => nomatch h), fun _ => trivial⟩
  · rw [Bool.not_eq_true] at hinterrupted
    simp only [hinterrupted, Bool.false_eq_true, if_false, hscan]
    by_cases hhit : cached.any (·.revision = metadata) = true
    · cases cached with
      | none => cases hhit
      | some entry =>
        have hsame : entry.revision = metadata := by simpa using hhit
        have hentry := hcached entry rfl
        rw [hsame] at hentry
        simp only [hhit, if_true]
        exact ⟨hcached, fun _ => by rw [← hentry], fun h => nomatch h⟩
    · simp only [if_neg hhit]
      refine ⟨?_, fun _ => trivial, fun h => nomatch h⟩
      rintro _ ⟨⟩
      rw [hrevision]

theorem scanSessionDirectory_sound (hfiles : FilesExtend host files) (hclean : FilesClean files)
    (cut : StreamCut) (interrupted : NativeSessionFileMetadata → Bool)
    (directory : SessionDirectory)
    {cachedFiles : InsertionMap JsString (CachedSessionFileSummary Digest)}
    (hcached : FilesSound host files cachedFiles) :
    FilesSound host files
        (scanSessionDirectory host files cut interrupted directory cachedFiles).files ∧
      ((scanSessionDirectory host files cut interrupted directory cachedFiles).retryable = false →
        (scanSessionDirectory host files cut interrupted directory cachedFiles).sessions =
          coldSessions host files (directoryRevision directory)) := by
  cases directory with
  | none => exact ⟨fun _ _ hget => (nomatch hget), fun h => nomatch h⟩
  | some entries =>
    have hentry := fun path metadata => scanEntry_sound hfiles hclean cut interrupted
      (fun entry hget => hcached path entry hget) metadata
    simp only [scanSessionDirectory]
    constructor
    · refine keptFiles_sound ?_
      intro path entry hmem
      rcases List.mem_append.mp hmem with hmem | hmem
      · simp only [List.map_map, List.mem_map, Function.comp_apply, Prod.mk.injEq] at hmem
        obtain ⟨found, -, -, hkept⟩ := hmem
        exact (hentry found.1 found.2).1 entry hkept
      · simp only [List.mem_map, Prod.mk.injEq] at hmem
        obtain ⟨path', -, -, hkept⟩ := hmem
        exact hcached path' entry hkept
    · intro hretryable
      rw [Bool.or_eq_false_iff] at hretryable
      obtain ⟨hscanned, hunsettled⟩ := hretryable
      rw [Bool.not_eq_false', List.isEmpty_iff] at hunsettled
      rw [hunsettled, List.map_nil, List.append_nil, coldSessions]
      simp only [directoryRevision, Option.map_some, Option.getD_some, Option.elim_some,
        List.filterMap_map] at hscanned ⊢
      refine List.filterMap_congr ?_
      intro found hfound
      have hflag := List.any_eq_false.mp hscanned _ (List.mem_map_of_mem hfound)
      have hnot : interrupted found.2 = false := by
        rw [Bool.eq_false_iff]
        intro htrue
        exact hflag ((hentry found.1 found.2).2.2 htrue)
      simp only [Function.comp_apply, (hentry found.1 found.2).2.1 hnot, Option.bind_some]

/-! ## Refreshes -/

theorem CacheSound.scan (hfiles : FilesExtend host files) (hclean : FilesClean files)
    (h : CacheSound host files cache) (cut : StreamCut)
    (interrupted : NativeSessionFileMetadata → Bool) (cacheKey : JsString)
    (directory : SessionDirectory) :
    CacheSound host files
      (scanDirectDirectory host files cut interrupted cache cacheKey directory).2 := by
  unfold scanDirectDirectory
  split
  · exact h
  · refine cacheSound_insert h ?_
    have hscanned := scanSessionDirectory_sound hfiles hclean cut interrupted directory
      (h.cachedFiles cacheKey)
    refine ⟨hscanned.1, fun hretryable => ?_⟩
    rw [hscanned.2 hretryable]
    cases directory <;> rfl

theorem CacheSound.step (hfiles : FilesExtend host files) (hclean : FilesClean files)
    (cache : DirectoryCache Digest) (action : CatalogAction) (h : CacheSound host files cache) :
    CacheSound host files (catalogStep host files cache action) := by
  cases action with
  | scan cut interrupted cacheKey directory => exact h.scan hfiles hclean cut interrupted _ _
  | interruptListing cacheKey directory =>
    exact cacheSound_insert h ⟨h.cachedFiles cacheKey, fun hretryable => nomatch hretryable⟩
  | pruneDirectoryCache cacheKey =>
    intro cacheKey' cached hget
    rw [catalogStep, InsertionMap.get?_erase] at hget
    split at hget
    · cases hget
    · exact h cacheKey' cached hget

/-- Every entry that belongs to a Session file can be inspected, or never will be. -/
def Settled (directory : SessionDirectory) : Prop :=
  ∀ entries, directory = some entries → unsettledFiles entries = []

theorem scanDirectDirectory_sessions (hfiles : FilesExtend host files)
    (hclean : FilesClean files) (h : CacheSound host files cache)
    (cut : StreamCut) (cacheKey : JsString) {directory : SessionDirectory}
    (hsettled : Settled directory) :
    (scanDirectDirectory host files cut (fun _ => false) cache cacheKey directory).1 =
      coldSessions host files (directoryRevision directory) := by
  unfold scanDirectDirectory
  split
  · rename_i cached hhit
    obtain ⟨hget, hsame⟩ := Option.filter_eq_some_iff.mp hhit
    simp only [Bool.and_eq_true, Bool.not_eq_true', decide_eq_true_eq] at hsame
    rw [← hsame.2]
    exact (h cacheKey cached hget).2 hsame.1
  · cases directory with
    | none => rfl
    | some entries =>
      refine (scanSessionDirectory_sound hfiles hclean cut _ (some entries)
        (h.cachedFiles cacheKey)).2 ?_
      rw [scanSessionDirectory]
      simp only [hsettled entries rfl, List.isEmpty_nil, Bool.not_true, Bool.or_false]
      rw [List.any_eq_false]
      intro scanned hmem
      obtain ⟨found, -, rfl⟩ := List.mem_map.mp hmem
      have hentry := (scanEntry_sound hfiles hclean cut (fun _ => false)
        (fun entry hget => h.cachedFiles cacheKey found.1 entry hget) found.2).2.1 rfl
      rw [hentry]
      exact Bool.false_ne_true

theorem scanSources_eq (hfiles : FilesExtend host files) (hclean : FilesClean files)
    (cut : StreamCut) (directories : List (JsString × SessionDirectory))
    (hsettled : ∀ entry ∈ directories, Settled entry.2) (h : CacheSound host files cache) :
    (scanSources host files cut cache directories).1 =
        directories.flatMap (fun entry => coldSessions host files (directoryRevision entry.2)) ∧
      CacheSound host files (scanSources host files cut cache directories).2 := by
  induction directories generalizing cache with
  | nil => exact ⟨rfl, h⟩
  | cons entry rest ih =>
    obtain ⟨cacheKey, directory⟩ := entry
    have hscan := h.scan hfiles hclean cut (fun _ => false) cacheKey directory
    obtain ⟨hrest, hsound⟩ := ih (fun entry hmem => hsettled entry (List.mem_cons_of_mem _ hmem))
      hscan
    refine ⟨?_, hsound⟩
    simp only [scanSources, List.flatMap_cons]
    rw [hrest, scanDirectDirectory_sessions hfiles hclean h cut cacheKey
      (hsettled _ List.mem_cons_self)]

theorem scan_singleton {name : JsString} {metadata : NativeSessionFileMetadata}
    (hname : isSessionName name = true) (hlisted : (files metadata).listed = true)
    (cut : StreamCut) (cacheKey : JsString) :
    ∃ directory,
      (catalogStep host files .empty (.scan cut (fun _ => false) cacheKey
        (some [{ name := name, status := .found metadata }]))).get? cacheKey = some directory ∧
      directory.files.get? metadata.canonicalFile =
        some (scanNativeSessionFile host files cut metadata none) := by
  have hfound : (sessionFiles files [(name, .found metadata)]).entries =
      [(metadata.canonicalFile, metadata)] := by
    simp only [sessionFiles, List.foldl_cons, List.foldl_nil, hlisted, if_true]
    rfl
  refine ⟨_, InsertionMap.get?_insert_self _ _ _, ?_⟩
  simp only [scanSessionDirectory, directoryRevision, Option.map_some, List.filter_cons, hname,
    if_true, List.filter_nil, List.map_cons, List.map_nil, EntryStatus.revision, Option.getD_some,
    hfound, unsettledFiles, List.filterMap_cons_none, List.filterMap_nil, List.append_nil,
    scanEntry, Bool.false_eq_true, if_false, keptFiles, List.foldl_cons, List.foldl_nil]
  exact InsertionMap.get?_insert_self _ _ _

section Discover

variable {Source : Type} [DecidableEq Source] {layout : SessionLayout Source}

/-- Every directory of the layout is settled. -/
def LayoutSettled (layout : SessionLayout Source) : Prop :=
  ∀ source, ∀ entry ∈ layout.directories source, Settled entry.2

theorem discover_eq (hfiles : FilesExtend host files) (hclean : FilesClean files)
    (hsettled : LayoutSettled layout) (cut cut' : StreamCut) (fuel : ℕ)
    (knownWorkspaces : List JsString) (scannedSources : List Source)
    (infoByFile : InsertionMap JsString NativeSessionSummary)
    {cache cache' : DirectoryCache Digest} (h : CacheSound host files cache)
    (h' : CacheSound host files cache') :
    discover host files layout cut fuel knownWorkspaces scannedSources infoByFile cache =
      discover host files layout cut' fuel knownWorkspaces scannedSources infoByFile cache' := by
  induction fuel generalizing knownWorkspaces scannedSources infoByFile cache cache' with
  | zero => rfl
  | succ fuel ih =>
    simp only [discover]
    split
    · rfl
    · have hdirectories : ∀ entry ∈ (((layout.discoveryPlan knownWorkspaces).filter
          (· ∉ scannedSources)).eraseDups).flatMap layout.directories, Settled entry.2 := by
        intro entry hmem
        obtain ⟨source, -, hentry⟩ := List.mem_flatMap.mp hmem
        exact hsettled source entry hentry
      obtain ⟨hsame, hsound⟩ := scanSources_eq hfiles hclean cut _ hdirectories h
      obtain ⟨hsame', hsound'⟩ := scanSources_eq hfiles hclean cut' _ hdirectories h'
      rw [hsame, hsame']
      split
      · rfl
      · exact ih _ _ _ hsound hsound'

/-- With clean lines, a refresh finds the same Session records whatever earlier refreshes left in
the cache, and a scan that goes on from an earlier one keeps what a full scan keeps, however the
streams are cut. -/
theorem warm_discovery_equals_cold {Record : Type} (hfiles : FilesExtend host files)
    (hclean : FilesClean files) (earlier : List CatalogAction)
    (layout : SessionLayout Source) (hsettled : LayoutSettled layout)
    (toRecord : NativeSessionSummary → Record) (le : Record → Record → Bool)
    (cut cut' : StreamCut) (fuel : ℕ) (knownWorkspaces : List JsString) :
    refreshSessions host files layout toRecord le cut fuel knownWorkspaces
        (runFrom (catalogStep host files) .empty earlier) =
      refreshSessions host files layout toRecord le cut' fuel knownWorkspaces .empty ∧
    ∀ cacheKey directory path kept metadata,
      (runFrom (catalogStep host files) .empty earlier).get? cacheKey = some directory →
      directory.files.get? path = some kept →
      scanNativeSessionFile host files cut metadata (some kept) =
        scanNativeSessionFile host files cut' metadata none := by
  have hempty : CacheSound host files (.empty : DirectoryCache Digest) :=
    fun _ _ hget => nomatch hget
  have hsound : CacheSound host files (runFrom (catalogStep host files) .empty earlier) :=
    runFrom_invariant (fun cache action => CacheSound.step hfiles hclean cache action) earlier
      hempty
  constructor
  · rw [refreshSessions, refreshSessions,
      discover_eq hfiles hclean hsettled cut cut' fuel knownWorkspaces [] .empty hsound hempty]
  · intro cacheKey directory path kept metadata hget hkept
    rw [scanNativeSessionFile_none hclean]
    refine scanNativeSessionFile_eq hfiles hclean cut metadata ?_
    rintro _ ⟨⟩
    exact (hsound cacheKey directory hget).1 path kept hkept

end Discover

/-- A host without dates. -/
def plainHost : SessionScanHost (List UInt8) where
  numbers := Json.JsNumbers.exact
  finiteNumber := fun _ => none
  parseDateMillis := fun _ => none
  digest := id

/-- A file that has two parts, the second of which is appended later. -/
def growingFile (first second : List UInt8) (metadata : NativeSessionFileMetadata) :
    SessionFileVersion where
  listed := true
  content :=
    if metadata.size = first.length then some first
    else if metadata.size = first.length + second.length then some (first ++ second)
    else none
  birthtimeMs := 0
  mtimeMs := 0

/-- The metadata of such a file. -/
def growingMetadata (size : ℕ) : NativeSessionFileMetadata where
  canonicalFile := js "/sessions/one.jsonl"
  symlink := false
  dev := 1
  ino := 1
  size := size
  mtimeNs := size
  ctimeNs := size

theorem filesExtend_growingFile (host : SessionScanHost (List UInt8)) (first second : List UInt8) :
    FilesExtend host (growingFile first second) := by
  constructor
  · intro metadata content hcontent
    simp only [growingFile] at hcontent
    split at hcontent
    · cases hcontent
      omega
    · split at hcontent
      · cases hcontent
        rw [List.length_append]
        omega
      · cases hcontent
  · intro before after old new hold hnew _ hgrown _ _
    simp only [growingFile] at hold hnew
    split at hold
    · cases hold
      split at hnew
      · cases hnew
        exact List.prefix_rfl
      · split at hnew
        · cases hnew
          exact List.prefix_append _ _
        · cases hnew
    · split at hold
      · split at hnew
        · omega
        · split at hnew
          · omega
          · cases hnew
      · cases hold

/-- The line of a header. -/
def headerLine : List UInt8 :=
  utf8Encode (js "\x7b\"type\":\"session\",\"id\":\"s\"\x7d\n")

/-- The line of a message. -/
def messageLine : List UInt8 :=
  utf8Encode (js "\x7b\"type\":\"message\"\x7d\n")

/-- A listing of the growing file. -/
def growingListing (size : ℕ) : SessionDirectory :=
  some [{ name := js "one.jsonl", status := .found (growingMetadata size) }]

/-- One directory. -/
def growingLayout (size : ℕ) : SessionLayout Unit where
  discoveryPlan := fun _ => [()]
  directories := fun _ => [(js "/sessions", growingListing size)]
  canonicalizePath := id

theorem layoutSettled_growingLayout (size : ℕ) : LayoutSettled (growingLayout size) := by
  intro source entry hmem entries hentries
  simp only [growingLayout, List.mem_singleton] at hmem
  rw [hmem, growingListing, Option.some.injEq] at hentries
  rw [← hentries]
  rfl

theorem filesClean_messageLine : FilesClean (growingFile headerLine messageLine) := by
  intro metadata content hcontent line hline hlimit
  have hcases : content = headerLine ∨ content = headerLine ++ messageLine := by
    simp only [growingFile] at hcontent
    split at hcontent
    · cases hcontent
      exact .inl rfl
    · split at hcontent
      · cases hcontent
        exact .inr rfl
      · cases hcontent
  have hnone : ∀ bytes ∈ [headerLine, headerLine ++ messageLine],
      ∀ line ∈ (ChunkedLines.splitLines (0x0A : UInt16) (StringDecoder.decode bytes)).1,
        line.getLast? ≠ some 0x0D := by decide +kernel
  refine hnone content ?_ line hline hlimit.1
  simpa using hcases

/-- A message is appended to a Session file. -/
theorem warm_discovery_of_message :
    refreshSessions plainHost (growingFile headerLine messageLine) (growingLayout 47) id
        (fun _ _ => true) .whole 3 []
        (runFrom (catalogStep plainHost (growingFile headerLine messageLine)) .empty
          [.scan .whole (fun _ => false) (js "/sessions") (growingListing 28)]) =
      refreshSessions plainHost (growingFile headerLine messageLine) (growingLayout 47) id
        (fun _ _ => true) (.once 30) 3 [] .empty ∧
    (discover plainHost (growingFile headerLine messageLine) (growingLayout 47) .whole 3 [] []
      .empty .empty).map (·.entries.length) = some 1 :=
  ⟨(warm_discovery_equals_cold (filesExtend_growingFile plainHost headerLine messageLine)
    filesClean_messageLine _ (growingLayout 47) (layoutSettled_growingLayout 47) id
    (fun _ _ => true) .whole (.once 30) 3 []).1, by decide +kernel⟩

/-! ## A line at the limit -/

/-- A line of letters, with a carriage return. -/
def lettersLine (count : ℕ) : List UInt8 := List.replicate count 0x61 ++ [0x0D, 0x0A]

/-- A file of a header to which a line of letters is appended. -/
def lettersFile (count : ℕ) : NativeSessionFileMetadata → SessionFileVersion :=
  growingFile headerLine (lettersLine count)

/-- The state after the header. -/
def headerState : NativeSessionScanState :=
  { NativeSessionScanState.initial with
    header := some { id := js "s", cwd := [], timestamp := none, parentSessionPath := none }
    lineNumber := 1 }

theorem scan_header (count : ℕ) :
    scanNativeSessionFile plainHost (lettersFile count) .whole (growingMetadata 28) none =
      { revision := growingMetadata 28
        scanOffset := 28
        appendSafe := true
        appendCheckpoint := some ((checkpointParts headerLine).checkpoint plainHost)
        scanState := some headerState
        summary := summaryOf plainHost (lettersFile count) (growingMetadata 28) headerState } := by
  have hscan : scanStream plainHost .initial [headerLine] = some (headerState, true) := by
    decide +kernel
  have hparts : CheckpointParts.empty.consume headerLine = checkpointParts headerLine := by
    decide +kernel
  have hlength : headerLine.length = 28 := by decide +kernel
  simp only [scanNativeSessionFile, lettersFile, growingFile, growingMetadata, hlength,
    StreamCut.whole, scanFrom, if_true, Option.bind_none, hscan, List.foldl_cons, List.foldl_nil,
    hparts]
  rfl

/-- The text of a line of letters, without its newline. -/
def lettersText (count : ℕ) : JsString := List.replicate count 0x61 ++ [0x0D]

theorem write_letters (count : ℕ) :
    (StringDecoder.idle).write (List.replicate count 0x61 ++ [0x0D]) =
      (lettersText count, .idle) := by
  rw [StringDecoder.write_ascii, List.map_append, List.map_replicate]
  · rfl
  · intro byte hbyte
    rcases List.mem_append.mp hbyte with hbyte | hbyte
    · rw [List.eq_of_mem_replicate hbyte]
      decide
    · rw [List.mem_singleton.mp hbyte]
      decide

theorem newline_not_mem_lettersText (count : ℕ) : (0x0A : UInt16) ∉ lettersText count := by
  intro hmem
  rcases List.mem_append.mp hmem with hmem | hmem
  · exact absurd (List.eq_of_mem_replicate hmem) (by decide)
  · exact absurd (List.mem_singleton.mp hmem) (by decide)

theorem utf8ByteLength_letters (count : ℕ) :
    utf8ByteLength (List.replicate count 0x61) = count := by
  rw [utf8ByteLength_ascii, List.length_replicate]
  intro u hu
  rw [List.eq_of_mem_replicate hu]
  decide

theorem scanStream_letters {count : ℕ} (hcount : count ≤ sessionScanMaxLineBytes) :
    ∃ next, scanStream plainHost headerState [lettersLine count] = some (next, true) ∧
      next.header = headerState.header := by
  have hstrip : stripCarriageReturn (lettersText count) = List.replicate count 0x61 := by
    simp [stripCarriageReturn, lettersText]
  have hfits : utf8ByteLength (stripCarriageReturn (lettersText count)) ≤
      sessionScanMaxLineBytes := by
    rw [hstrip, utf8ByteLength_letters]
    exact hcount
  have hline : headerState.lineNumber ≠ 0 := by decide
  obtain ⟨next, hnext, hheader⟩ := @parseNativeSessionLine_header _ plainHost _ hline _ hfits
  refine ⟨next, ?_, hheader⟩
  have hwrite : (StringDecoder.idle).write (lettersLine count) =
      (lettersText count ++ [0x0A], .idle) := by
    rw [lettersLine, show ([0x0D, 0x0A] : List UInt8) = [0x0D] ++ [0x0A] from rfl,
      ← List.append_assoc, StringDecoder.write_append, write_letters]
    rfl
  rw [scanStream, List.foldlM_cons, scanChunk, hwrite, ChunkedLines.readChunk, List.nil_append,
    ChunkedLines.splitLines_line (newline_not_mem_lettersText count)]
  simp only [ChunkedLines.splitLines, List.foldlM_cons, List.foldlM_nil, hnext, Option.bind_eq_bind,
    Option.bind_some, Option.pure_def, show fitsBuffer [] = true from by decide, if_true,
    Option.map_some, StringDecoder.finish, List.append_nil, ChunkedLines.finish]

/-- A scan with a cut between the carriage return and the newline measures both. -/
theorem scanStream_cut {count : ℕ} (hcount : sessionScanMaxLineBytes ≤ count) :
    scanStream plainHost .initial [headerLine ++ (List.replicate count 0x61 ++ [0x0D]), [0x0A]] =
      none := by
  obtain ⟨text, hheader, hline, hparse⟩ : ∃ text : JsString,
      (StringDecoder.idle).write headerLine = (text ++ [0x0A], .idle) ∧ (0x0A : UInt16) ∉ text ∧
        parseNativeSessionLine plainHost .initial text = some headerState :=
    ⟨js "\x7b\"type\":\"session\",\"id\":\"s\"\x7d", by decide +kernel, by decide +kernel,
      by decide +kernel⟩
  have hlong : fitsBuffer (lettersText count) = false := by
    rw [fitsBuffer, lettersText, utf8ByteLength_carriageReturn, utf8ByteLength_letters,
      decide_eq_false_iff_not]
    omega
  rw [scanStream, List.foldlM_cons, scanChunk, StringDecoder.write_append, hheader, write_letters,
    ChunkedLines.readChunk, List.nil_append, List.append_assoc, List.singleton_append,
    ChunkedLines.splitLines_line hline,
    ChunkedLines.splitLines_of_not_mem (newline_not_mem_lettersText count)]
  simp only [List.foldlM_cons, List.foldlM_nil, hparse, Option.bind_eq_bind, Option.bind_some,
    Option.pure_def, hlong, Bool.false_eq_true, if_false, Option.map_none, Option.bind_none]

theorem canIncrementallyScan_letters (count : ℕ) {metadata : NativeSessionFileMetadata}
    (hidentity : (growingMetadata 28).identity = metadata.identity) (hsize : 28 < metadata.size) :
    canIncrementallyScan plainHost metadata (headerLine ++ lettersLine count)
        (scanNativeSessionFile plainHost (lettersFile count) .whole (growingMetadata 28) none) =
      some (checkpointParts headerLine, headerState) := by
  have hlength : headerLine.length = 28 := by decide +kernel
  obtain ⟨line, hsplit, hline⟩ : ∃ line, headerLine = line ++ [0x0A] ∧ (0x0A : UInt8) ∉ line ∧
      line.length = 27 ∧ (Json.parse plainHost.numbers (StringDecoder.decode line)).bind
        parseNativeSessionHeader = headerState.header :=
    ⟨headerLine.dropLast, by decide +kernel, by decide +kernel, by decide +kernel,
      by decide +kernel⟩
  have hheader : readSessionHeader plainHost (headerLine ++ lettersLine count) =
      headerState.header := by
    rw [hsplit, List.append_assoc, List.singleton_append,
      readSessionHeader_line hline.1 (by rw [hline.2.1]; decide), hline.2.2]
  have hread : readAppendCheckpoint (headerLine ++ lettersLine count) 28 =
      some (checkpointParts headerLine) := by
    rw [readAppendCheckpoint, ← hlength, List.take_left, if_pos]
    rw [hlength, List.length_append, hlength]
    simp [isSafeInteger]
  rw [scan_header]
  simp only [canIncrementallyScan, headerState, Option.bind_some]
  rw [if_pos]
  · simp only [growingMetadata, hread, Option.bind_some, hheader, headerState, and_self, if_true]
  · simp only [hidentity, decide_true, Bool.true_and, Bool.and_true, Bool.and_eq_true,
      decide_eq_true_eq]
    exact ⟨⟨rfl, hsize⟩, rfl⟩

/-- A line at the limit is accepted by the scan that goes on, and not by the one that starts
anew. -/
theorem differs_at_limit {count : ℕ} (hcount : sessionScanMaxLineBytes = count) :
    FilesExtend plainHost (lettersFile count) ∧ ∃ directory kept,
      (runFrom (catalogStep plainHost (lettersFile count)) .empty
        [.scan .whole (fun _ => false) (js "/sessions") (growingListing 28)]).get?
          (js "/sessions") = some directory ∧
      directory.files.get? (growingMetadata 28).canonicalFile = some kept ∧
      (scanNativeSessionFile plainHost (lettersFile count) .whole
        (growingMetadata (28 + (count + 2))) (some kept)).summary.isSome ∧
      (scanNativeSessionFile plainHost (lettersFile count) (.once (28 + (count + 1)))
        (growingMetadata (28 + (count + 2))) none).summary.isNone := by
  have hlength : headerLine.length = 28 := by decide +kernel
  have hletters : (lettersLine count).length = count + 2 := by
    simp [lettersLine]
  have hcontent : (lettersFile count (growingMetadata (28 + (count + 2)))).content =
      some (headerLine ++ lettersLine count) := by
    simp only [lettersFile, growingFile, growingMetadata, hlength, hletters, if_true]
    rw [if_neg (by omega)]
  have hname : isSessionName (js "one.jsonl") = true := by decide +kernel
  have hlisted : (lettersFile count (growingMetadata 28)).listed = true := rfl
  obtain ⟨directory, hdirectory, hkept⟩ :=
    @scan_singleton _ plainHost _ _ _ _ hname hlisted .whole (js "/sessions")
  refine ⟨filesExtend_growingFile plainHost _ _, directory, _, hdirectory, hkept, ?_, ?_⟩
  · have hgrown : 28 < (growingMetadata (28 + (count + 2))).size := by
      simp [growingMetadata]
    have hidentity : (growingMetadata 28).identity =
        (growingMetadata (28 + (count + 2))).identity := rfl
    obtain ⟨next, hscan, hheader⟩ := scanStream_letters (Nat.le_of_eq hcount.symm)
    rw [scanNativeSessionFile, hcontent]
    simp only
    rw [if_neg (by omega), Option.bind_some, canIncrementallyScan_letters count hidentity hgrown,
      scan_header]
    simp only [Option.map_some, ← hlength, List.drop_left, StreamCut.whole, scanFrom, hscan,
      summaryOf, Option.isSome_map, hheader]
    rfl
  · have hsplit : headerLine ++ lettersLine count =
        (headerLine ++ (List.replicate count 0x61 ++ [0x0D])) ++ [0x0A] := by
      simp only [lettersLine, List.append_assoc, List.cons_append, List.nil_append]
    have hat : 28 + (count + 1) =
        (headerLine ++ (List.replicate count 0x61 ++ [0x0D])).length := by
      simp only [List.length_append, hlength, List.length_replicate, List.length_singleton]
    have hchunks : (headerLine ++ lettersLine count).take (28 + (count + 1)) =
        headerLine ++ (List.replicate count 0x61 ++ [0x0D]) := by
      rw [hsplit, hat, List.take_left]
    have hrest : (headerLine ++ lettersLine count).drop (28 + (count + 1)) = [0x0A] := by
      rw [hsplit, hat, List.drop_left]
    rw [scanNativeSessionFile, hcontent]
    simp only
    rw [if_neg (by simp [growingMetadata])]
    simp only [Option.bind_none, StreamCut.once, hchunks, hrest, scanFrom,
      scanStream_cut (Nat.le_of_eq hcount), unscanned, Option.isNone_none]

/-- A line of letters at the limit is appended to a Session file. -/
theorem warm_discovery_differs :
    FilesExtend plainHost (lettersFile sessionScanMaxLineBytes) ∧ ∃ directory kept,
      (runFrom (catalogStep plainHost (lettersFile sessionScanMaxLineBytes)) .empty
        [.scan .whole (fun _ => false) (js "/sessions") (growingListing 28)]).get?
          (js "/sessions") = some directory ∧
      directory.files.get? (growingMetadata 28).canonicalFile = some kept ∧
      (scanNativeSessionFile plainHost (lettersFile sessionScanMaxLineBytes) .whole
        (growingMetadata (28 + (sessionScanMaxLineBytes + 2))) (some kept)).summary.isSome ∧
      (scanNativeSessionFile plainHost (lettersFile sessionScanMaxLineBytes)
        (.once (28 + (sessionScanMaxLineBytes + 1)))
        (growingMetadata (28 + (sessionScanMaxLineBytes + 2))) none).summary.isNone :=
  differs_at_limit rfl

end NativeSession

end PiAgentWeb
