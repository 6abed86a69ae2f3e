import PiAgentWeb.Server.EpochContentStoreQuota

/-!
# The safety of the content store

While the store is open, the count of an entry is the number of active handles of its key and of
the tasks that still owe a decrement. An entry is marked for deletion by exactly one task, which
found no handle on it, and while the mark is there no handle can be added: a hold needs the digest
lock that the task has, or finds the mark, and a pin finds the mark. So a deletion takes away no
entry with a handle, and a deletion that fails gives the entry back.
-/

namespace PiAgentWeb

/-- An active handle of a kind under a key. -/
def TokenState.outstanding (kind : TokenKind) (key : ContentKey) (token : TokenState) : ℕ :=
  if token.active = true ∧ token.kind = kind ∧ token.key = key then 1 else 0

namespace StoreTask

/-- A count that the task will still lower: a release before its section, and a pin that is being
verified. -/
def owes (kind : TokenKind) (key : ContentKey) : StoreTask → ℕ
  | release _ token (.queued _) => if token.kind = kind ∧ token.key = key then 1 else 0
  | pin ref (.verifying _) => if kind = .pin ∧ contentKey ref = key then 1 else 0
  | _ => 0

/-- The entry that the task has marked for deletion, until it leaves the index or the mark is taken
back. -/
def marked? : StoreTask → Option (ContentKey × ℕ)
  | release _ _ (.deleting _ (.removing _)) => none
  | release _ token (.deleting entry _) => some (token.key, entry)
  | release _ token (.recovering entry _) => some (token.key, entry)
  | gc _ _ (.deleting _ _ (.removing _)) => none
  | gc _ _ (.deleting key entry _) => some (key, entry)
  | gc _ _ (.recovering key entry _) => some (key, entry)
  | _ => none

/-- The entry that the task has taken out of the index. -/
def moved? : StoreTask → Option (ContentKey × ℕ)
  | release _ token (.deleting entry (.removing _)) => some (token.key, entry)
  | gc _ _ (.deleting key entry (.removing _)) => some (key, entry)
  | _ => none

/-- The task has marked the entry. -/
def marks (key : ContentKey) (entry : ℕ) (task : StoreTask) : ℕ :=
  if task.marked? = some (key, entry) then 1 else 0

/-- The task releases the handle. -/
def releases (handle : ℕ) : StoreTask → ℕ
  | release _ _ (.settled _) => 0
  | release handle' _ _ => if handle' = handle then 1 else 0
  | _ => 0

/-- The entry that the task verifies in the section of its digest. -/
def watched? : StoreTask → Option (ContentKey × ℕ)
  | stage _ _ (.verifying ref entry) => some (contentKey ref, entry)
  | publish _ token (.writing entry) => some (token.key, entry)
  | holdPublished ref (.verifying entry) => some (contentKey ref, entry)
  | _ => none

/-- The entry that the task has pinned. -/
def pinned? : StoreTask → Option (ContentKey × ℕ)
  | pin ref (.verifying entry) => some (contentKey ref, entry)
  | _ => none

/-- The digest whose new directory the task fills. -/
def written? : StoreTask → Option ContentKey
  | stage _ _ (.writing ref) => some (contentKey ref)
  | _ => none

/-- The entries that a collection found to be without handles. -/
def candidates : StoreTask → List (ContentKey × ℕ)
  | gc candidates _ (.awaiting key entry _) => (key, entry) :: candidates
  | gc candidates _ _ => candidates
  | _ => []

theorem digestSection?_of_watched? {task : StoreTask} {key : ContentKey} {entry : ℕ}
    (h : task.watched? = some (key, entry)) : task.digestSection? = some key := by
  unfold watched? at h
  split at h <;> simp_all [digestSection?]

theorem inserting?_of_written? {task : StoreTask} {key : ContentKey}
    (h : task.written? = some key) : task.inserting? = some key := by
  unfold written? at h
  split at h <;> simp_all [inserting?]

end StoreTask

namespace EpochContentStore

/-- The count of the entry under a key, zero without one. -/
def countOf (s : EpochContentStore) (kind : TokenKind) (key : ContentKey) : ℕ :=
  match s.entries.get? key with
  | none => 0
  | some entry => (s.heap entry).count kind

/-- What a release knows of its handle and its entry. -/
def ReleaseFacts (s : EpochContentStore) (token : TokenState) : ReleaseStep → Prop
  | .queued _ => s.entries.get? token.key = some token.entry
  | .deleting entry _ | .recovering entry _ => entry = token.entry ∧ token.kind = .hold
  | .settled _ => True

/-- What a task knows of the entries. -/
structure SafetyFacts (s : EpochContentStore) (task : StoreTask) : Prop where
  watched : ∀ key entry, task.watched? = some (key, entry) →
    s.entries.get? key = some entry ∧ (s.heap entry).deleting = false
  pinned : ∀ key entry, task.pinned? = some (key, entry) → s.entries.get? key = some entry
  written : ∀ key, task.written? = some key → key ∈ s.directories
  marked : ∀ key entry, task.marked? = some (key, entry) → entry < s.nextEntry ∧
    (s.entries.get? key = some entry → (s.heap entry).holds = 0 ∧ (s.heap entry).pins = 0)
  moved : ∀ key entry, task.moved? = some (key, entry) → entry < s.nextEntry ∧
    s.entries.get? key ≠ some entry
  released : ∀ handle token step, task = .release handle token step →
    (∃ current, s.tokens[handle]? = some current ∧ current.kind = token.kind ∧
      current.key = token.key ∧ current.entry = token.entry) ∧ s.ReleaseFacts token step
  collected : ∀ candidates freed step key entry, task = .gc candidates freed step →
    task.marked? = some (key, entry) → s.entries.get? key = some entry →
    (s.heap entry).published = true
  candidates : ∀ key entry, (key, entry) ∈ task.candidates → entry < s.nextEntry ∧
    contentKey (s.heap entry).ref = key ∧
      (s.entries.get? key = some entry ∨ (s.heap entry).deleting = true)

/-- The invariant of the entries and the handles. -/
structure Safety (s : EpochContentStore) : Prop where
  opened : s.closed = false
  counts : ∀ kind key, s.countOf kind key =
    tally (TokenState.outstanding kind key) s.tokens + tally (StoreTask.owes kind key) s.tasks
  named : ∀ key entry, s.entries.get? key = some entry → contentKey (s.heap entry).ref = key
  stored : ∀ key entry, s.entries.get? key = some entry → key ∈ s.directories
  unpublished : ∀ key entry, s.entries.get? key = some entry → (s.heap entry).published = false →
    (s.heap entry).pins = 0 ∧ ((s.heap entry).holds = 0 → (s.heap entry).deleting = true)
  marked : ∀ key entry, s.entries.get? key = some entry →
    tally (StoreTask.marks key entry) s.tasks = if (s.heap entry).deleting then 1 else 0
  held : ∀ token ∈ s.tokens, token.active = true → s.entries.get? token.key = some token.entry
  refs : ∀ token ∈ s.tokens, token.entry < s.nextEntry ∧
    (s.heap token.entry).ref = token.ref ∧ contentKey token.ref = token.key
  released : ∀ (handle : ℕ) (token : TokenState), s.tokens[handle]? = some token →
    (if token.active then 1 else 0) + tally (StoreTask.releases handle) s.tasks ≤ 1
  facts : ∀ (i : ℕ) (task : StoreTask), s.tasks[i]? = some task → s.SafetyFacts task

variable {s after : EpochContentStore} {limits : EpochContentStoreLimits} {me : ℕ}
  {task task' : StoreTask}

theorem Safety.key_unique (h : s.Safety) {key key' : ContentKey} {entry : ℕ}
    (hkey : s.entries.get? key = some entry) (hkey' : s.entries.get? key' = some entry) :
    key = key' :=
  (h.named key entry hkey).symm.trans (h.named key' entry hkey')

theorem Safety.marked_unique (h : s.Safety) {key : ContentKey} {entry i j : ℕ} (hij : i ≠ j)
    (hget : s.entries.get? key = some entry) (hi : s.tasks[i]? = some task)
    (hj : s.tasks[j]? = some task') (hmarked : task.marked? = some (key, entry)) :
    task'.marked? ≠ some (key, entry) := by
  intro hmarked'
  have hle := add_le_tally (w := StoreTask.marks key entry) hij hi hj
  have htally := h.marked key entry hget
  simp only [StoreTask.marks, hmarked, hmarked', if_true] at hle
  split at htally <;> omega

theorem Safety.deleting_of_marked (h : s.Safety) {key : ContentKey} {entry : ℕ}
    (hget : s.entries.get? key = some entry) (hme : s.tasks[me]? = some task)
    (hmarked : task.marked? = some (key, entry)) : (s.heap entry).deleting = true := by
  have hle := le_tally (w := StoreTask.marks key entry) hme
  have htally := h.marked key entry hget
  simp only [StoreTask.marks, hmarked, if_true] at hle
  split at htally
  · assumption
  · omega

theorem Safety.count_of_deleting (h : s.Safety) {key : ContentKey} {entry : ℕ}
    (hget : s.entries.get? key = some entry) (hdeleting : (s.heap entry).deleting = true)
    (kind : TokenKind) : (s.heap entry).count kind = 0 := by
  have htally := h.marked key entry hget
  rw [hdeleting, if_pos rfl] at htally
  have hpositive : ∃ task ∈ s.tasks, StoreTask.marks key entry task ≠ 0 := by
    by_contra hnone
    have hzero : tally (StoreTask.marks key entry) s.tasks = 0 := tally_eq_zero fun task htask => by
      by_contra hne
      exact hnone ⟨task, htask, hne⟩
    omega
  obtain ⟨task, htask, hmarks⟩ := hpositive
  obtain ⟨i, hi⟩ := List.mem_iff_getElem?.mp htask
  have hmarked : task.marked? = some (key, entry) := by
    by_contra hne
    exact hmarks (by simp [StoreTask.marks, hne])
  obtain ⟨hholds, hpins⟩ := ((h.facts i task hi).marked key entry hmarked).2 hget
  cases kind
  · exact hholds
  · exact hpins

theorem Safety.deleting_of_owes (h : s.Safety) {key : ContentKey} {entry : ℕ} (kind : TokenKind)
    (hget : s.entries.get? key = some entry) (hme : s.tasks[me]? = some task)
    (howes : task.owes kind key = 1) :
    0 < (s.heap entry).count kind ∧ (s.heap entry).deleting = false := by
  have hle := le_tally (w := StoreTask.owes kind key) hme
  have hcounts := h.counts kind key
  simp only [countOf, hget] at hcounts
  have hpositive : 0 < (s.heap entry).count kind := by omega
  refine ⟨hpositive, ?_⟩
  rw [Bool.eq_false_iff]
  intro hdeleting
  have := h.count_of_deleting hget hdeleting kind
  omega

/-! ## One task goes on -/

/-- What the step of one task does to the entries and the handles: from `task` to `task'`, with the
store `after` before the task is replaced. -/
structure SafetyStep (s after : EpochContentStore) (me : ℕ) (task task' : StoreTask) : Prop where
  tasks : after.tasks = s.tasks
  opened : after.closed = s.closed
  counts : ∀ kind key,
    after.countOf kind key + tally (TokenState.outstanding kind key) s.tokens +
        task.owes kind key =
      s.countOf kind key + tally (TokenState.outstanding kind key) after.tokens +
        task'.owes kind key
  named : ∀ key entry, after.entries.get? key = some entry →
    contentKey (after.heap entry).ref = key
  stored : ∀ key entry, after.entries.get? key = some entry → key ∈ after.directories
  unpublished : ∀ key entry, after.entries.get? key = some entry →
    (after.heap entry).published = false →
      (after.heap entry).pins = 0 ∧
        ((after.heap entry).holds = 0 → (after.heap entry).deleting = true)
  marked : ∀ key entry, after.entries.get? key = some entry →
    tally (StoreTask.marks key entry) s.tasks + task'.marks key entry =
      (if (after.heap entry).deleting then 1 else 0) + task.marks key entry
  held : ∀ token ∈ after.tokens, token.active = true →
    after.entries.get? token.key = some token.entry
  refs : ∀ token ∈ after.tokens, token.entry < after.nextEntry ∧
    (after.heap token.entry).ref = token.ref ∧ contentKey token.ref = token.key
  released : ∀ (handle : ℕ) (token : TokenState), after.tokens[handle]? = some token →
    (if token.active then 1 else 0) + tally (StoreTask.releases handle) s.tasks +
      task'.releases handle ≤ 1 + task.releases handle
  frame : ∀ (j : ℕ) (other : StoreTask), j ≠ me → s.tasks[j]? = some other →
    after.SafetyFacts other
  facts : after.SafetyFacts task'

theorem Safety.goOn (hs : s.Safety) (hme : s.tasks[me]? = some task)
    (h : SafetyStep s after me task task') : (after.withTask me task').Safety := by
  have hlt : me < s.tasks.length := (List.getElem?_eq_some_iff.mp hme).1
  have htally : ∀ w : StoreTask → ℕ, tally w (after.tasks.set me task') + w task =
      tally w s.tasks + w task' := fun w => by
    rw [h.tasks]
    exact tally_set hme task'
  refine ⟨h.opened.trans hs.opened, fun kind key => ?_, h.named, h.stored, h.unpublished,
    fun key entry hget => ?_, h.held, h.refs, fun handle token hhandle => ?_,
    fun j other hother => ?_⟩
  · have hcounts := h.counts kind key
    have hbefore := hs.counts kind key
    have howes := htally (StoreTask.owes kind key)
    change after.countOf kind key = tally (TokenState.outstanding kind key) after.tokens +
      tally (StoreTask.owes kind key) (after.tasks.set me task')
    omega
  · have hmarked := h.marked key entry hget
    have hmarks := htally (StoreTask.marks key entry)
    change tally (StoreTask.marks key entry) (after.tasks.set me task') =
      if (after.heap entry).deleting then 1 else 0
    omega
  · have hreleased := h.released handle token hhandle
    have hreleases := htally (StoreTask.releases handle)
    change (if token.active then 1 else 0) +
      tally (StoreTask.releases handle) (after.tasks.set me task') ≤ 1
    omega
  · simp only [withTask, h.tasks] at hother
    have hfacts : after.SafetyFacts other := by
      by_cases hj : j = me
      · rw [hj, List.getElem?_set_self hlt] at hother
        cases hother
        exact h.facts
      · rw [List.getElem?_set_ne (Ne.symm hj)] at hother
        exact h.frame j other hj hother
    exact ⟨hfacts.watched, hfacts.pinned, hfacts.written, hfacts.marked, hfacts.moved,
      hfacts.released, hfacts.collected, hfacts.candidates⟩

/-- A change of the store that leaves the entries and the handles alone. -/
structure SameMemory (s after : EpochContentStore) : Prop where
  tasks : after.tasks = s.tasks
  closed : after.closed = s.closed
  heap : after.heap = s.heap
  nextEntry : after.nextEntry = s.nextEntry
  entries : after.entries = s.entries
  tokens : after.tokens = s.tokens
  directories : after.directories = s.directories

namespace SameMemory

@[refl] theorem refl (s : EpochContentStore) : SameMemory s s :=
  ⟨rfl, rfl, rfl, rfl, rfl, rfl, rfl⟩

theorem facts (h : SameMemory s after) (hfacts : s.SafetyFacts task) : after.SafetyFacts task := by
  obtain ⟨hwatched, hpinned, hwritten, hmarked, hmoved, hreleased, hcollected, hcandidates⟩ :=
    hfacts
  refine ⟨?_, ?_, ?_, ?_, ?_, fun handle token step heq => ?_, ?_, ?_⟩
  · rwa [h.entries, h.heap]
  · rwa [h.entries]
  · rwa [h.directories]
  · rwa [h.entries, h.heap, h.nextEntry]
  · rwa [h.entries, h.nextEntry]
  · obtain ⟨hcurrent, hstep⟩ := hreleased handle token step heq
    refine ⟨h.tokens ▸ hcurrent, ?_⟩
    unfold ReleaseFacts at hstep ⊢
    rwa [h.entries]
  · rwa [h.entries, h.heap]
  · rwa [h.entries, h.heap, h.nextEntry]

theorem step (h : SameMemory s after) (hs : s.Safety)
    (howes : ∀ kind key, task'.owes kind key = task.owes kind key)
    (hmarks : ∀ key entry, s.entries.get? key = some entry →
      task'.marks key entry = task.marks key entry)
    (hreleases : ∀ handle, task'.releases handle ≤ task.releases handle)
    (hfacts : s.SafetyFacts task') : SafetyStep s after me task task' where
  tasks := h.tasks
  opened := h.closed
  counts := fun kind key => by simp only [countOf, h.entries, h.heap, h.tokens, howes]
  named := by
    rw [h.entries, h.heap]
    exact hs.named
  stored := by
    rw [h.entries, h.directories]
    exact hs.stored
  unpublished := by
    rw [h.entries, h.heap]
    exact hs.unpublished
  marked := fun key entry hget => by
    rw [h.entries] at hget
    rw [h.heap, hs.marked key entry hget, hmarks key entry hget]
  held := by
    rw [h.entries, h.tokens]
    exact hs.held
  refs := by
    rw [h.heap, h.tokens, h.nextEntry]
    exact hs.refs
  released := fun handle token hhandle => by
    have := hs.released handle token (h.tokens ▸ hhandle)
    have := hreleases handle
    omega
  frame := fun j other _ hother => h.facts (hs.facts j other hother)
  facts := h.facts hfacts

end SameMemory

theorem SafetyStep.trans {after' : EpochContentStore} (h : SafetyStep s after me task task')
    (h' : SameMemory after after') : SafetyStep s after' me task task' where
  tasks := h'.tasks.trans h.tasks
  opened := h'.closed.trans h.opened
  counts := fun kind key => by
    have := h.counts kind key
    simp only [countOf, h'.entries, h'.heap, h'.tokens] at this ⊢
    exact this
  named := by
    rw [h'.entries, h'.heap]
    exact h.named
  stored := by
    rw [h'.entries, h'.directories]
    exact h.stored
  unpublished := by
    rw [h'.entries, h'.heap]
    exact h.unpublished
  marked := by
    rw [h'.entries, h'.heap]
    exact h.marked
  held := by
    rw [h'.entries, h'.tokens]
    exact h.held
  refs := by
    rw [h'.heap, h'.tokens, h'.nextEntry]
    exact h.refs
  released := by
    rw [h'.tokens]
    exact h.released
  frame := fun j other hj hother => h'.facts (h.frame j other hj hother)
  facts := h'.facts h.facts

/-! ## Changes of one entry -/

/-- The same handle, active or not. -/
def SameToken (token token' : TokenState) : Prop :=
  token'.kind = token.kind ∧ token'.key = token.key ∧ token'.entry = token.entry

/-- What a change of the handles keeps, when `task` becomes `task'`. -/
structure TokensKept (s : EpochContentStore) (tokens : List TokenState)
    (task task' : StoreTask) : Prop where
  held : ∀ token ∈ tokens, token.active = true → s.entries.get? token.key = some token.entry
  refs : ∀ token ∈ tokens, token.entry < s.nextEntry ∧
    (s.heap token.entry).ref = token.ref ∧ contentKey token.ref = token.key
  released : ∀ (handle : ℕ) (token : TokenState), tokens[handle]? = some token →
    (if token.active then 1 else 0) + tally (StoreTask.releases handle) s.tasks +
      task'.releases handle ≤ 1 + task.releases handle
  kept : ∀ (handle : ℕ) (token : TokenState), s.tokens[handle]? = some token →
    ∃ token', tokens[handle]? = some token' ∧ SameToken token token'

theorem Safety.tokensKept (hs : s.Safety)
    (hreleases : ∀ handle, task'.releases handle ≤ task.releases handle) :
    TokensKept s s.tokens task task' where
  held := hs.held
  refs := hs.refs
  released := fun handle token hhandle => by
    have := hs.released handle token hhandle
    have := hreleases handle
    omega
  kept := fun handle token hhandle => ⟨token, hhandle, rfl, rfl, rfl⟩

theorem Safety.released_append (hs : s.Safety) {token : TokenState}
    (hreleases : ∀ handle, task'.releases handle ≤ task.releases handle) {handle : ℕ}
    {current : TokenState} (hhandle : (s.tokens ++ [token])[handle]? = some current) :
    (if current.active then 1 else 0) + tally (StoreTask.releases handle) s.tasks +
      task'.releases handle ≤ 1 + task.releases handle := by
  have hle := hreleases handle
  rw [List.getElem?_append] at hhandle
  split at hhandle
  · have := hs.released handle current hhandle
    omega
  · rename_i hge
    have hzero : tally (StoreTask.releases handle) s.tasks = 0 := by
      refine tally_eq_zero fun other hother => ?_
      obtain ⟨i, hi⟩ := List.mem_iff_getElem?.mp hother
      cases other with
      | release handle' token' step =>
        obtain ⟨⟨current, hcurrent, -⟩, -⟩ := (hs.facts i _ hi).released handle' token' step rfl
        have hlt' := (List.getElem?_eq_some_iff.mp hcurrent).1
        have hne : handle' ≠ handle := by omega
        cases step <;> simp [StoreTask.releases, hne]
      | _ => rfl
    split <;> omega

theorem Safety.tokensKept_append (hs : s.Safety) {kind : TokenKind} {key : ContentKey} {entry : ℕ}
    (hlt : entry < s.nextEntry) (hget : s.entries.get? key = some entry)
    (hreleases : ∀ handle, task'.releases handle ≤ task.releases handle) :
    TokensKept s (s.tokens ++ [{ kind, key, ref := (s.heap entry).ref, entry }]) task task' := by
  refine ⟨fun token htoken hactive => ?_, fun token htoken => ?_, fun handle token hhandle => ?_,
    fun handle token hhandle => ⟨token, ?_, rfl, rfl, rfl⟩⟩
  · rcases List.mem_append.mp htoken with hold | hnew
    · exact hs.held token hold hactive
    · obtain rfl := List.mem_singleton.mp hnew
      exact hget
  · rcases List.mem_append.mp htoken with hold | hnew
    · exact hs.refs token hold
    · obtain rfl := List.mem_singleton.mp hnew
      exact ⟨hlt, rfl, hs.named key entry hget⟩
  · exact hs.released_append hreleases hhandle
  · rw [List.getElem?_append_left (List.getElem?_eq_some_iff.mp hhandle).1]
    exact hhandle

/-- The step of one task that changes an indexed entry and the handles of its key. Nobody else has
marked the entry, and a new mark is set in the section of the digest. -/
theorem Safety.touch (hs : s.Safety) (hme : s.tasks[me]? = some task)
    {key : ContentKey} {entry : ℕ} (object : ContentEntry) (tokens : List TokenState)
    (hget : s.entries.get? key = some entry) (href : object.ref = (s.heap entry).ref)
    (hquiet : (s.heap entry).deleting = false ∨ task.marked? = some (key, entry))
    (hwatch : object.deleting = true → ∃ ticket, s.digestTurn key ticket = true) (hcounts : ∀ kind,
      object.count kind + tally (TokenState.outstanding kind key) s.tokens + task.owes kind key =
        (s.heap entry).count kind + tally (TokenState.outstanding kind key) tokens +
          task'.owes kind key)
    (hothers : ∀ kind key', key' ≠ key →
      tally (TokenState.outstanding kind key') tokens + task'.owes kind key' =
        tally (TokenState.outstanding kind key') s.tokens + task.owes kind key')
    (hunpublished : object.published = false →
      object.pins = 0 ∧ (object.holds = 0 → object.deleting = true))
    (hmarks : (if (s.heap entry).deleting then 1 else 0) + task'.marks key entry =
      (if object.deleting then 1 else 0) + task.marks key entry)
    (hmarks' : ∀ key' entry', entry' ≠ entry →
      task'.marks key' entry' = task.marks key' entry')
    (htokens : TokensKept s tokens task task')
    (hfacts : SafetyFacts { s.setEntry entry object with tokens } task') :
    SafetyStep s { s.setEntry entry object with tokens } me task task' := by
  have hother : ∀ {key' entry'}, s.entries.get? key' = some entry' → key' ≠ key →
      entry' ≠ entry := fun hkey' hne heq => hne (hs.key_unique hkey' (heq ▸ hget))
  have hheap : ∀ {entry'}, entry' ≠ entry →
      (s.setEntry entry object).heap entry' = s.heap entry' := fun hne =>
    Function.update_of_ne hne ..
  have hself : (s.setEntry entry object).heap entry = object := Function.update_self ..
  refine ⟨rfl, rfl, fun kind key' => ?_, fun key' entry' hkey' => ?_, hs.stored,
    fun key' entry' hkey' => ?_, fun key' entry' hkey' => ?_, htokens.held,
    fun token htoken => ?_, htokens.released, fun j other hj hjth => ?_, hfacts⟩
  · by_cases hkey : key' = key
    · subst hkey
      have := hcounts kind
      simp only [countOf, setEntry, hget, Function.update_self] at this ⊢
      omega
    · have hsame : countOf { s.setEntry entry object with tokens } kind key' =
          s.countOf kind key' := by
        simp only [countOf, setEntry]
        cases hkey' : s.entries.get? key' with
        | none => rfl
        | some entry' =>
          simp only [Function.update_of_ne (hother hkey' hkey)]
      have := hothers kind key' hkey
      rw [hsame]
      dsimp only
      omega
  · change contentKey ((s.setEntry entry object).heap entry').ref = key'
    by_cases heq : entry' = entry
    · rw [heq, hself, href, ← heq]
      exact hs.named key' entry' hkey'
    · rw [hheap heq]
      exact hs.named key' entry' hkey'
  · change ((s.setEntry entry object).heap entry').published = false →
      ((s.setEntry entry object).heap entry').pins = 0 ∧
        (((s.setEntry entry object).heap entry').holds = 0 →
          ((s.setEntry entry object).heap entry').deleting = true)
    by_cases heq : entry' = entry
    · rw [heq, hself]
      exact hunpublished
    · rw [hheap heq]
      exact hs.unpublished key' entry' hkey'
  · change tally (StoreTask.marks key' entry') s.tasks + task'.marks key' entry' =
      (if ((s.setEntry entry object).heap entry').deleting then 1 else 0) +
        task.marks key' entry'
    have hbefore := hs.marked key' entry' hkey'
    by_cases heq : entry' = entry
    · subst heq
      obtain rfl := hs.key_unique hkey' hget
      rw [hself]
      omega
    · rw [hheap heq, hmarks' key' entry' heq, hbefore]
  · obtain ⟨hlt, htokenRef, hkey⟩ := htokens.refs token htoken
    refine ⟨hlt, ?_, hkey⟩
    change ((s.setEntry entry object).heap token.entry).ref = token.ref
    by_cases heq : token.entry = entry
    · rw [heq, hself, href, ← heq]
      exact htokenRef
    · rw [hheap heq]
      exact htokenRef
  · -- the other tasks know of this entry at most that it is indexed and not marked
    obtain ⟨hwatched, hpinned, hwritten, hmarked, hmoved, hreleased, hcollected, hcandidates⟩ :=
      hs.facts j other hjth
    have hnobody : other.marked? ≠ some (key, entry) := by
      rcases hquiet with hclear | hmine
      · intro hmarked'
        have := hs.deleting_of_marked hget hjth hmarked'
        rw [hclear] at this
        cases this
      · exact hs.marked_unique hj.symm hget hme hjth hmine
    have hunmarked : ∀ {key' entry'}, other.marked? = some (key', entry') →
        s.entries.get? key' = some entry' → entry' ≠ entry := by
      rintro key' entry' hmarked' hkey' rfl
      obtain rfl := hs.key_unique hkey' hget
      exact hnobody hmarked'
    refine ⟨fun key' entry' hw => ?_, hpinned, hwritten, fun key' entry' hm => ?_, hmoved,
      fun handle token step heq => ?_, fun cs freed step key' entry' heq hm hkey' => ?_,
      fun key' entry' hc => ?_⟩
    · obtain ⟨hkey', hclear⟩ := hwatched key' entry' hw
      refine ⟨hkey', ?_⟩
      change ((s.setEntry entry object).heap entry').deleting = false
      by_cases heq : entry' = entry
      · subst heq
        obtain rfl := hs.key_unique hkey' hget
        rw [hself, Bool.eq_false_iff]
        intro hdeleting
        obtain ⟨ticket, hturn⟩ := hwatch hdeleting
        have hle := le_tally (w := StoreTask.digestWeight key') hjth
        rw [digestWeight_of_digestTurn hturn] at hle
        simp [StoreTask.digestWeight, StoreTask.digestSection?_of_watched? hw] at hle
      · rw [hheap heq]
        exact hclear
    · obtain ⟨hlt, hzero⟩ := hmarked key' entry' hm
      refine ⟨hlt, fun hkey' => ?_⟩
      change ((s.setEntry entry object).heap entry').holds = 0 ∧
        ((s.setEntry entry object).heap entry').pins = 0
      rw [hheap (hunmarked hm hkey')]
      exact hzero hkey'
    · obtain ⟨⟨current, hcurrent, hkind, hcurrentKey, hcurrentEntry⟩, hstep⟩ :=
        hreleased handle token step heq
      obtain ⟨token', htoken', hkind', hkey', hentry'⟩ := htokens.kept handle current hcurrent
      exact ⟨⟨token', htoken', hkind'.trans hkind, hkey'.trans hcurrentKey,
        hentry'.trans hcurrentEntry⟩, hstep⟩
    · change ((s.setEntry entry object).heap entry').published = true
      rw [hheap (hunmarked hm hkey')]
      exact hcollected cs freed step key' entry' heq hm hkey'
    · obtain ⟨hlt, hname, hknown⟩ := hcandidates key' entry' hc
      refine ⟨hlt, ?_⟩
      change contentKey ((s.setEntry entry object).heap entry').ref = key' ∧
        (s.entries.get? key' = some entry' ∨
          ((s.setEntry entry object).heap entry').deleting = true)
      by_cases heq : entry' = entry
      · subst heq
        obtain rfl : key' = key := hname.symm.trans (hs.named key entry' hget)
        exact ⟨by rw [hself, href, hname], .inl hget⟩
      · rw [hheap heq]
        exact ⟨hname, hknown⟩

/-! ## Changes of the index and of the disk -/

theorem Safety.nobody (hs : s.Safety) {kind : TokenKind} {key : ContentKey}
    (hzero : s.countOf kind key = 0) :
    (∀ token ∈ s.tokens, token.active = true → token.kind = kind → token.key ≠ key) ∧
      ∀ task ∈ s.tasks, task.owes kind key = 0 := by
  have hcounts := hs.counts kind key
  refine ⟨fun token htoken hactive hkind hkey => ?_, eq_zero_of_tally (by omega)⟩
  have := eq_zero_of_tally (w := TokenState.outstanding kind key) (by omega) token htoken
  simp [TokenState.outstanding, hactive, hkind, hkey] at this

/-- The rename takes a marked entry out of the index: there is no handle on it, and no other task
relies on it. -/
theorem Safety.moveToTombstone (hs : s.Safety) (hq : s.Quota limits)
    (hme : s.tasks[me]? = some task) {key : ContentKey} {entry : ℕ}
    (hget : s.entries.get? key = some entry) (hmarked : task.marked? = some (key, entry))
    (hsection : task.digestSection? = some key)
    (howes : ∀ kind key, task.owes kind key = 0 ∧ task'.owes kind key = 0)
    (hunmarked : task'.marked? = none)
    (hreleases : ∀ handle, task'.releases handle ≤ task.releases handle)
    (hfacts : (s.moveToTombstone key entry).SafetyFacts task') :
    SafetyStep s (s.moveToTombstone key entry) me task task' := by
  have hdeleting := hs.deleting_of_marked hget hme hmarked
  have hzero : ∀ kind, s.countOf kind key = 0 := fun kind => by
    rw [countOf, hget]
    exact hs.count_of_deleting hget hdeleting kind
  have hname := hs.named key entry hget
  have herase : ∀ {key' entry'}, (s.moveToTombstone key entry).entries.get? key' = some entry' →
      key' ≠ key ∧ s.entries.get? key' = some entry' := by
    intro key' entry' h
    simp only [EpochContentStore.moveToTombstone, InsertionMap.get?_erase] at h
    split at h
    · cases h
    · exact ⟨by assumption, h⟩
  have hkeep : ∀ {key' entry'}, key' ≠ key → s.entries.get? key' = some entry' →
      (s.moveToTombstone key entry).entries.get? key' = some entry' := by
    intro key' entry' hne h
    simpa only [EpochContentStore.moveToTombstone, InsertionMap.get?_erase, if_neg hne] using h
  have hdirectories : ∀ {key'}, key' ≠ key → key' ∈ s.directories →
      key' ∈ (s.moveToTombstone key entry).directories := by
    intro key' hne h
    refine List.mem_filter.mpr ⟨h, ?_⟩
    rw [hname]
    simpa using hne
  refine ⟨rfl, rfl, fun kind key' => ?_, fun key' entry' h => hs.named key' entry' (herase h).2,
    fun key' entry' h => hdirectories (herase h).1 (hs.stored key' entry' (herase h).2),
    fun key' entry' h => hs.unpublished key' entry' (herase h).2, fun key' entry' h => ?_,
    fun token htoken hactive => ?_, hs.refs, fun handle token hhandle => ?_,
    fun j other hj hjth => ?_, hfacts⟩
  · have hcount : (s.moveToTombstone key entry).countOf kind key' = s.countOf kind key' := by
      by_cases hkey : key' = key
      · rw [hkey, hzero kind]
        simp [countOf, EpochContentStore.moveToTombstone]
      · simp only [countOf, EpochContentStore.moveToTombstone, InsertionMap.get?_erase,
          if_neg hkey]
    rw [hcount, (howes kind key').1, (howes kind key').2]
    rfl
  · obtain ⟨hne, hbefore⟩ := herase h
    have := hs.marked key' entry' hbefore
    have hmine : task.marks key' entry' = 0 := by
      simp [StoreTask.marks, hmarked, hne.symm]
    have hafter : task'.marks key' entry' = 0 := by simp [StoreTask.marks, hunmarked]
    change _ = (if (s.heap entry').deleting then 1 else 0) + _
    omega
  · refine hkeep (fun hkey => ?_) (hs.held token htoken hactive)
    exact (hs.nobody (hzero token.kind)).1 token htoken hactive rfl hkey
  · have := hs.released handle token hhandle
    have := hreleases handle
    omega
  · obtain ⟨hwatched, hpinned, hwritten, hmarks, hmoved, hreleased, hcollected, hcandidates⟩ :=
      hs.facts j other hjth
    have hmem := List.mem_of_getElem? hjth
    refine ⟨fun key' entry' hw => ?_, fun key' entry' hp => ?_, fun key' hw => ?_,
      fun key' entry' hm => ?_, fun key' entry' hm => ?_, fun handle token step heq => ?_,
      fun cs freed step key' entry' heq hm h => ?_, fun key' entry' hc => ?_⟩
    · obtain ⟨hbefore, hclear⟩ := hwatched key' entry' hw
      refine ⟨hkeep (fun hkey => ?_) hbefore, hclear⟩
      exact hq.digest_unique hj.symm hme hjth hsection
        (hkey ▸ StoreTask.digestSection?_of_watched? hw)
    · refine hkeep (fun hkey => ?_) (hpinned key' entry' hp)
      have hnone := (hs.nobody (hzero .pin)).2 other hmem
      cases other with
      | pin ref step => cases step <;> simp_all [StoreTask.pinned?, StoreTask.owes]
      | _ => cases hp
    · refine hdirectories (fun hkey => ?_) (hwritten key' hw)
      have hnone := (hq.facts j other hjth).inserting key' (StoreTask.inserting?_of_written? hw)
      rw [hkey, hget] at hnone
      cases hnone
    · obtain ⟨hlt, hempty⟩ := hmarks key' entry' hm
      exact ⟨hlt, fun h => hempty (herase h).2⟩
    · obtain ⟨hlt, hgone⟩ := hmoved key' entry' hm
      exact ⟨hlt, fun h => hgone (herase h).2⟩
    · obtain ⟨hcurrent, hstep⟩ := hreleased handle token step heq
      refine ⟨hcurrent, ?_⟩
      cases step with
      | queued ticket =>
        refine hkeep (fun hkey => ?_) hstep
        have hnone := (hs.nobody (hzero token.kind)).2 other hmem
        simp [heq, StoreTask.owes, hkey] at hnone
      | _ => exact hstep
    · exact hcollected cs freed step key' entry' heq hm (herase h).2
    · obtain ⟨hlt, hcandidate, hknown⟩ := hcandidates key' entry' hc
      refine ⟨hlt, hcandidate, ?_⟩
      rcases hknown with hbefore | hmark
      · by_cases hkey : key' = key
        · rw [hkey, hget] at hbefore
          cases hbefore
          exact .inr hdeleting
        · exact .inl (hkeep hkey hbefore)
      · exact .inr hmark

theorem Safety.addEntry (hs : s.Safety) (hq : s.Quota limits) {ref : EpochStoredContentRef}
    (hget : s.entries.get? (contentKey ref) = none) (hstored : contentKey ref ∈ s.directories)
    (howes : ∀ kind key, task'.owes kind key = task.owes kind key)
    (hmarks : ∀ key entry, task'.marks key entry = task.marks key entry)
    (hreleases : ∀ handle, task'.releases handle ≤ task.releases handle)
    (hfacts : ((s.addEntry { ref }).createHold s.nextEntry).SafetyFacts task') :
    SafetyStep s ((s.addEntry { ref }).createHold s.nextEntry) me task task' := by
  have hheap : ∀ {entry}, entry < s.nextEntry →
      ((s.addEntry { ref }).createHold s.nextEntry).heap entry = s.heap entry := by
    intro entry hlt
    have hne : entry ≠ s.nextEntry := by omega
    simp [EpochContentStore.addEntry, createHold, setEntry, hne]
  have hnew : ((s.addEntry { ref }).createHold s.nextEntry).heap s.nextEntry =
      { ref, holds := 1 } := by
    simp [EpochContentStore.addEntry, createHold, setEntry, ContentEntry.increment]
  have htokens : ((s.addEntry { ref }).createHold s.nextEntry).tokens =
      s.tokens ++ [{ kind := .hold, key := contentKey ref, ref, entry := s.nextEntry }] := by
    simp [EpochContentStore.addEntry, createHold, setEntry]
  have hentries : ((s.addEntry { ref }).createHold s.nextEntry).entries =
      s.entries.insert (contentKey ref) s.nextEntry := rfl
  have hcases : ∀ {key entry},
      ((s.addEntry { ref }).createHold s.nextEntry).entries.get? key = some entry →
        (key = contentKey ref ∧ entry = s.nextEntry) ∨
          (s.entries.get? key = some entry ∧ entry < s.nextEntry) := by
    intro key entry h
    rw [hentries, InsertionMap.get?_insert] at h
    split at h
    · cases h
      exact .inl ⟨by assumption, rfl⟩
    · exact .inr ⟨h, hq.entry_lt key entry h⟩
  have hkeep : ∀ {key entry}, s.entries.get? key = some entry →
      ((s.addEntry { ref }).createHold s.nextEntry).entries.get? key = some entry := by
    intro key entry h
    have hne : key ≠ contentKey ref := by
      rintro rfl
      rw [hget] at h
      cases h
    rwa [hentries, InsertionMap.get?_insert, if_neg hne]
  generalize hstore : (s.addEntry { ref }).createHold s.nextEntry = after at *
  have htasks : after.tasks = s.tasks := hstore ▸ rfl
  have hnext : after.nextEntry = s.nextEntry + 1 := hstore ▸ rfl
  have hdirectories : after.directories = s.directories := hstore ▸ rfl
  refine ⟨htasks, hstore ▸ rfl, fun kind key => ?_, fun key entry h => ?_, fun key entry h => ?_,
    fun key entry h => ?_, fun key entry h => ?_, fun token htoken hactive => ?_,
    fun token htoken => ?_, fun handle token hhandle => ?_, fun j other hj hjth => ?_, hfacts⟩
  · rw [howes]
    simp only [countOf, htokens, hentries, InsertionMap.get?_insert, tally_append, tally_cons,
      tally_nil]
    by_cases hkey : key = contentKey ref
    · rw [if_pos hkey, hkey, hget]
      dsimp only
      rw [hnew]
      cases kind <;> simp [ContentEntry.count, TokenState.outstanding]
      omega
    · rw [if_neg hkey]
      cases h : s.entries.get? key with
      | none => simp [TokenState.outstanding, Ne.symm hkey]
      | some entry =>
        simp only [hheap (hq.entry_lt key entry h), TokenState.outstanding, Ne.symm hkey,
          and_false, if_false]
        omega
  · rcases hcases h with ⟨rfl, rfl⟩ | ⟨hbefore, hlt⟩
    · rw [hnew]
    · rw [hheap hlt]
      exact hs.named key entry hbefore
  · rw [hdirectories]
    rcases hcases h with ⟨rfl, -⟩ | ⟨hbefore, -⟩
    · exact hstored
    · exact hs.stored key entry hbefore
  · rcases hcases h with ⟨rfl, rfl⟩ | ⟨hbefore, hlt⟩
    · rw [hnew]
      simp
    · rw [hheap hlt]
      exact hs.unpublished key entry hbefore
  · rw [hmarks]
    rcases hcases h with ⟨rfl, rfl⟩ | ⟨hbefore, hlt⟩
    · rw [hnew]
      have hzero : tally (StoreTask.marks (contentKey ref) s.nextEntry) s.tasks = 0 := by
        refine tally_eq_zero fun other hother => ?_
        obtain ⟨i, hi⟩ := List.mem_iff_getElem?.mp hother
        by_cases hmarked : other.marked? = some (contentKey ref, s.nextEntry)
        · have := ((hs.facts i other hi).marked _ _ hmarked).1
          omega
        · simp [StoreTask.marks, hmarked]
      simp [hzero]
    · rw [hheap hlt, hs.marked key entry hbefore]
  · rw [htokens] at htoken
    rcases List.mem_append.mp htoken with hold | hlast
    · exact hkeep (hs.held token hold hactive)
    · obtain rfl := List.mem_singleton.mp hlast
      rw [hentries, InsertionMap.get?_insert_self]
  · rw [htokens] at htoken
    rcases List.mem_append.mp htoken with hold | hlast
    · obtain ⟨hlt, href, hkey⟩ := hs.refs token hold
      exact ⟨by omega, by rw [hheap hlt, href], hkey⟩
    · obtain rfl := List.mem_singleton.mp hlast
      exact ⟨by simp [hnext], by rw [hnew], rfl⟩
  · exact hs.released_append hreleases (htokens ▸ hhandle)
  · obtain ⟨hwatched, hpinned, hwritten, hmarked, hmoved, hreleased, hcollected, hcandidates⟩ :=
      hs.facts j other hjth
    refine ⟨fun key entry hw => ?_, fun key entry hp => hkeep (hpinned key entry hp),
      fun key hw => ?_, fun key entry hm => ?_, fun key entry hm => ?_,
        fun handle token step heq => ?_,
      fun cs freed step key entry heq hm h => ?_, fun key entry hc => ?_⟩
    · obtain ⟨hbefore, hclear⟩ := hwatched key entry hw
      rw [hheap (hq.entry_lt key entry hbefore)]
      exact ⟨hkeep hbefore, hclear⟩
    · rw [hdirectories]
      exact hwritten key hw
    · obtain ⟨hlt, hempty⟩ := hmarked key entry hm
      refine ⟨by omega, fun h => ?_⟩
      rcases hcases h with ⟨-, rfl⟩ | ⟨hbefore, -⟩
      · omega
      · rw [hheap hlt]
        exact hempty hbefore
    · obtain ⟨hlt, hgone⟩ := hmoved key entry hm
      refine ⟨by omega, fun h => ?_⟩
      rcases hcases h with ⟨-, rfl⟩ | ⟨hbefore, -⟩
      · omega
      · exact hgone hbefore
    · obtain ⟨⟨current, hcurrent, hsame⟩, hstep⟩ := hreleased handle token step heq
      refine ⟨⟨current, ?_, hsame⟩, ?_⟩
      · rw [htokens, List.getElem?_append_left (List.getElem?_eq_some_iff.mp hcurrent).1]
        exact hcurrent
      · cases step with
        | queued ticket => exact hkeep hstep
        | _ => exact hstep
    · have hlt := (hmarked key entry hm).1
      rcases hcases h with ⟨-, rfl⟩ | ⟨hbefore, -⟩
      · omega
      · rw [hheap hlt]
        exact hcollected cs freed step key entry heq hm hbefore
    · obtain ⟨hlt, hname, hknown⟩ := hcandidates key entry hc
      rw [hheap hlt]
      exact ⟨by omega, hname, hknown.imp hkeep id⟩

theorem Safety.onDisk (hs : s.Safety) {directories : List ContentKey}
    (hstored : ∀ key entry, s.entries.get? key = some entry → key ∈ directories)
    (hwritten : ∀ (j : ℕ) (other : StoreTask) (key : ContentKey), j ≠ me →
      s.tasks[j]? = some other → other.written? = some key → key ∈ directories)
    (howes : ∀ kind key, task'.owes kind key = task.owes kind key)
    (hmarks : ∀ key entry, task'.marks key entry = task.marks key entry)
    (hreleases : ∀ handle, task'.releases handle ≤ task.releases handle)
    (hfacts : SafetyFacts { s with directories } task') :
    SafetyStep s { s with directories } me task task' := by
  refine ⟨rfl, rfl, fun kind key => ?_, hs.named, hstored, hs.unpublished, fun key entry h => ?_,
    hs.held, hs.refs, fun handle token hhandle => ?_, fun j other hj hjth => ?_, hfacts⟩
  · rw [howes]
    rfl
  · rw [hmarks, hs.marked key entry h]
  · have := hs.released handle token hhandle
    have := hreleases handle
    omega
  · have hother := hs.facts j other hjth
    exact ⟨hother.watched, hother.pinned, fun key => hwritten j other key hj hjth, hother.marked,
      hother.moved, hother.released, hother.collected, hother.candidates⟩

theorem SafetyFacts.of_plain (hwatched : task.watched? = none) (hpinned : task.pinned? = none)
    (hwritten : task.written? = none) (hmarked : task.marked? = none) (hmoved : task.moved? = none)
    (hreleased : ∀ handle token step, task ≠ .release handle token step)
    (hcandidates : task.candidates = []) : s.SafetyFacts task where
  watched := fun key entry h => by simp [hwatched] at h
  pinned := fun key entry h => by simp [hpinned] at h
  written := fun key h => by simp [hwritten] at h
  marked := fun key entry h => by simp [hmarked] at h
  moved := fun key entry h => by simp [hmoved] at h
  released := fun handle token step heq => absurd heq (hreleased handle token step)
  collected := fun _ _ _ key entry _ h => by simp [hmarked] at h
  candidates := fun key entry h => by simp [hcandidates] at h

/-- What a task knows that watches an entry or fills a directory. -/
theorem SafetyFacts.of_watched (hwatched : ∀ key entry, task.watched? = some (key, entry) →
      s.entries.get? key = some entry ∧ (s.heap entry).deleting = false)
    (hwritten : ∀ key, task.written? = some key → key ∈ s.directories)
    (hpinned : task.pinned? = none) (hmarked : task.marked? = none) (hmoved : task.moved? = none)
    (hreleased : ∀ handle token step, task ≠ .release handle token step)
    (hcandidates : task.candidates = []) : s.SafetyFacts task where
  watched := hwatched
  pinned := fun key entry h => by simp [hpinned] at h
  written := hwritten
  marked := fun key entry h => by simp [hmarked] at h
  moved := fun key entry h => by simp [hmoved] at h
  released := fun handle token step heq => absurd heq (hreleased handle token step)
  collected := fun _ _ _ key entry _ h => by simp [hmarked] at h
  candidates := fun key entry h => by simp [hcandidates] at h

end EpochContentStore

end PiAgentWeb
