import PiAgentWeb.Library.Runs
import PiAgentWeb.Library.Tally
import PiAgentWeb.Protocol.SessionEvents

/-!
# The Session content resolver

One fetch of a digest is shared by all who ask for it while it is in the table, and its text is
cached within limits in which a fetch reserves its place. Fetches and consumers are numbered; a
fetched text is stored in one continuation, the entry leaves the table in the next one, and every
consumer hears of it in one of its own.
-/

namespace PiAgentWeb

/-- `#key`. -/
def SessionContentRef.key (ref : SessionContentRef) : JsString :=
  ref.serverEpoch ++ js ":" ++ ref.sha256

/-- What a promise of a text settles with: an `abortError` or any other error is kept apart. -/
inductive ContentOutcome where
  | text (text : JsString)
  | aborted
  | failed
  deriving DecidableEq

/-- How far a shared promise is: the request, the `then` callback, the `finally` callback. -/
inductive ContentFetchStage where
  | pending
  | fetched (outcome : ContentOutcome)
  | stored (text : JsString)
  | settled (outcome : ContentOutcome)
  deriving DecidableEq

/-- `InflightEntry`, with the signal of its controller. -/
structure ContentFetch where
  ref : SessionContentRef
  aborted : Bool
  consumers : List ℕ
  stage : ContentFetchStage
  deriving DecidableEq

/-- One call of `#resolveRef`: the fetch it consumes, its own signal, the flag of `#consume`, and
all that `resolve` and `reject` were called with. -/
structure ContentConsumer where
  fetch : Option ℕ
  signalAborted : Bool
  settled : Bool
  outcomes : List ContentOutcome
  deriving DecidableEq

/-- `CacheEntry`. -/
structure CachedContent where
  ref : SessionContentRef
  text : JsString
  deriving DecidableEq

/-- The state of a resolver. -/
structure SessionContentResolver where
  maxCacheBytes : ℕ
  maxCacheItems : ℕ
  cache : InsertionMap JsString CachedContent
  inflight : InsertionMap JsString ℕ
  cacheBytes : ℤ
  reservedBytes : ℤ
  reservedItems : ℤ
  disposed : Bool
  fetches : List ContentFetch
  consumers : List ContentConsumer
  deriving DecidableEq

/-- What happens to a resolver. -/
inductive ContentAction where
  /-- `#resolveRef` with a signal that is aborted or not. -/
  | resolve (ref : SessionContentRef) (signalAborted : Bool)
  /-- `#fetchText` is fulfilled with a text or throws. -/
  | fetched (fetch : ℕ) (text : Option JsString)
  /-- The `then` callback of a fetch. -/
  | store (fetch : ℕ)
  /-- The `finally` callback of a fetch. -/
  | conclude (fetch : ℕ)
  /-- The callback of a consumer at the shared promise. -/
  | react (consumer : ℕ)
  /-- The signal of a consumer is aborted. -/
  | abort (consumer : ℕ)
  /-- `dispose`. -/
  | dispose
  deriving DecidableEq

namespace ContentFetch

/-- A fetch with one consumer more. -/
def add (fetch : ContentFetch) (consumer : ℕ) : ContentFetch :=
  { fetch with consumers := fetch.consumers ++ [consumer] }

/-- A fetch without a consumer. -/
def remove (fetch : ContentFetch) (consumer : ℕ) : ContentFetch :=
  { fetch with consumers := fetch.consumers.filter (· ≠ consumer) }

/-- `leave` of `#consume`: the last consumer aborts the fetch. -/
def leave (fetch : ContentFetch) (consumer : ℕ) : ContentFetch :=
  let fetch := fetch.remove consumer
  if fetch.consumers.isEmpty then { fetch with aborted := true } else fetch

/-- The fetch holds a reservation: it has neither stored its text nor settled. -/
def reserves (fetch : ContentFetch) : Bool :=
  match fetch.stage with
  | .pending => true
  | .fetched _ => true
  | _ => false

/-- The fetch settles with an `abortError` unless its text comes all the same. -/
def Doomed (fetch : ContentFetch) : Prop :=
  match fetch.stage with
  | .pending => fetch.aborted = true
  | .fetched outcome => outcome = .aborted
  | .stored _ => False
  | .settled outcome => outcome = .aborted

end ContentFetch

namespace SessionContentResolver

/-- A new resolver. -/
def create (maxCacheBytes maxCacheItems : ℕ) : SessionContentResolver where
  maxCacheBytes := maxCacheBytes
  maxCacheItems := maxCacheItems
  cache := .empty
  inflight := .empty
  cacheBytes := 0
  reservedBytes := 0
  reservedItems := 0
  disposed := false
  fetches := []
  consumers := []

/-- There is no room for the bytes and one more item. -/
def exceeds (r : SessionContentResolver) (byteLength : ℕ) : Bool :=
  r.cacheBytes + r.reservedBytes + byteLength > r.maxCacheBytes ||
    (r.cache.size : ℤ) + r.reservedItems + 1 > r.maxCacheItems

theorem size_erase_oldest {cache : InsertionMap JsString CachedContent}
    {oldest : JsString × CachedContent} (h : cache.entries.head? = some oldest) :
    (cache.erase oldest.1).size < cache.size := by
  have hmem := InsertionMap.get?_of_mem (List.mem_of_head? h)
  exact Nat.lt_of_succ_le (Nat.le_of_eq (InsertionMap.size_erase_of_get? hmem))

/-- `#evictFor`. -/
def evictFor (r : SessionContentResolver) (byteLength : ℕ) : SessionContentResolver :=
  if r.exceeds byteLength then
    match _h : r.cache.entries.head? with
    | some oldest =>
      evictFor
        { r with
          cache := r.cache.erase oldest.1
          cacheBytes := r.cacheBytes - oldest.2.ref.byteLength } byteLength
    | none => r
  else r
termination_by r.cache.size
decreasing_by exact size_erase_oldest _h

/-- `#reserve`: the room, and whether the reservation was made. -/
def reserve (r : SessionContentResolver) (ref : SessionContentRef) :
    SessionContentResolver × Bool :=
  let r := r.evictFor ref.byteLength
  if ref.byteLength > r.maxCacheBytes || r.exceeds ref.byteLength then (r, false)
  else
    ({ r with
      reservedBytes := r.reservedBytes + ref.byteLength
      reservedItems := r.reservedItems + 1 }, true)

/-- A call that is answered at once. -/
def answer (r : SessionContentResolver) (signalAborted : Bool) (outcome : ContentOutcome) :
    SessionContentResolver :=
  { r with
    consumers := r.consumers ++
      [{ fetch := none, signalAborted := signalAborted, settled := true, outcomes := [outcome] }] }

/-- `#consume`. -/
def consume (r : SessionContentResolver) (number : ℕ) (fetch : ContentFetch) :
    SessionContentResolver :=
  { r with
    fetches := r.fetches.set number (fetch.add r.consumers.length)
    consumers := r.consumers ++
      [{ fetch := some number, signalAborted := false, settled := false, outcomes := [] }] }

/-- `#startInflight` behind the reservation, and the `#consume` of its caller. -/
def startInflight (r : SessionContentResolver) (ref : SessionContentRef) :
    SessionContentResolver :=
  let fetch : ContentFetch := { ref := ref, aborted := false, consumers := [], stage := .pending }
  { r with
    fetches := r.fetches ++ [fetch]
    inflight := r.inflight.insert ref.key r.fetches.length }.consume r.fetches.length fetch

/-- `#resolveRef`. -/
def resolveRef (r : SessionContentResolver) (ref : SessionContentRef) (signalAborted : Bool) :
    SessionContentResolver :=
  if r.disposed then r.answer signalAborted .failed
  else if signalAborted then r.answer signalAborted .aborted
  else
    match r.cache.get? ref.key with
    | some cached =>
      if cached.ref = ref then
        { r with cache := (r.cache.erase ref.key).insert ref.key cached }.answer signalAborted
          (.text cached.text)
      else r.answer signalAborted .failed
    | none =>
      match r.inflight.get? ref.key with
      | some number =>
        match r.fetches[number]? with
        | some fetch =>
          if fetch.ref = ref then r.consume number fetch else r.answer signalAborted .failed
        | none => r
      | none =>
        match r.reserve ref with
        | (r, true) => r.startInflight ref
        | (r, false) => r.answer signalAborted .failed

/-- A fetch has come to its next stage. -/
def setStage (r : SessionContentResolver) (number : ℕ) (fetch : ContentFetch)
    (stage : ContentFetchStage) : SessionContentResolver :=
  { r with fetches := r.fetches.set number { fetch with stage := stage } }

/-- The reservation of a fetch is given back. -/
def release (r : SessionContentResolver) (fetch : ContentFetch) : SessionContentResolver :=
  { r with
    reservedBytes := r.reservedBytes - fetch.ref.byteLength
    reservedItems := r.reservedItems - 1 }

/-- The entry of a fetch leaves the table. -/
def leaveTable (r : SessionContentResolver) (number : ℕ) (fetch : ContentFetch) :
    SessionContentResolver :=
  { r with
    inflight := if r.inflight.get? fetch.ref.key = some number then r.inflight.erase fetch.ref.key
      else r.inflight }

/-- The text of a fetch is cached. -/
def putCache (r : SessionContentResolver) (fetch : ContentFetch) (text : JsString) :
    SessionContentResolver :=
  if r.disposed then r
  else
    { r with
      cache := r.cache.insert fetch.ref.key { ref := fetch.ref, text := text }
      cacheBytes := r.cacheBytes + fetch.ref.byteLength }

/-- The `then` callback of a fetch. -/
def store (r : SessionContentResolver) (number : ℕ) : SessionContentResolver :=
  match r.fetches[number]? with
  | some fetch =>
    match fetch.stage with
    | .fetched (.text text) =>
      ((r.release fetch).putCache fetch text).setStage number fetch (.stored text)
    | _ => r
  | none => r

/-- The `finally` callback of a fetch. -/
def conclude (r : SessionContentResolver) (number : ℕ) : SessionContentResolver :=
  match r.fetches[number]? with
  | some fetch =>
    match fetch.stage with
    | .stored text => (r.leaveTable number fetch).setStage number fetch (.settled (.text text))
    | .fetched .aborted =>
      ((r.release fetch).leaveTable number fetch).setStage number fetch (.settled .aborted)
    | .fetched .failed =>
      ((r.release fetch).leaveTable number fetch).setStage number fetch (.settled .failed)
    | _ => r
  | none => r

/-- `#fetchText` ends: an error is an `abortError` if the signal of the controller is aborted. -/
def endFetch (r : SessionContentResolver) (number : ℕ) (text : Option JsString) :
    SessionContentResolver :=
  match r.fetches[number]? with
  | some fetch =>
    if fetch.stage = .pending then
      r.setStage number fetch (.fetched (match text with
        | some text => .text text
        | none => if fetch.aborted then .aborted else .failed))
    else r
  | none => r

/-- A consumer settles, and its fetch is left behind as it says. -/
def settle (r : SessionContentResolver) (number : ℕ) (consumer : ContentConsumer) (fetch : ℕ)
    (left : ContentFetch) (outcome : ContentOutcome) : SessionContentResolver :=
  { r with
    fetches := r.fetches.set fetch left
    consumers := r.consumers.set number
      { consumer with settled := true, outcomes := consumer.outcomes ++ [outcome] } }

/-- The callback of a consumer at the shared promise. -/
def react (r : SessionContentResolver) (number : ℕ) : SessionContentResolver :=
  match r.consumers[number]? with
  | some consumer =>
    match consumer.fetch with
    | some n =>
      match r.fetches[n]? with
      | some fetch =>
        match fetch.stage with
        | .settled outcome =>
          if consumer.settled then r
          else r.settle number consumer n (fetch.remove number) outcome
        | _ => r
      | none => r
    | none => r
  | none => r

/-- The signal of a consumer is aborted: `onAbort`. -/
def abort (r : SessionContentResolver) (number : ℕ) : SessionContentResolver :=
  match r.consumers[number]? with
  | some consumer =>
    if consumer.signalAborted then r
    else
      let consumer := { consumer with signalAborted := true }
      let r := { r with consumers := r.consumers.set number consumer }
      if consumer.settled then r
      else
        match consumer.fetch with
        | some n =>
          match r.fetches[n]? with
          | some fetch => r.settle number consumer n (fetch.leave number) .aborted
          | none => r
        | none => r
  | none => r

/-- `dispose`. -/
def dispose (r : SessionContentResolver) : SessionContentResolver :=
  if r.disposed then r
  else
    { r with
      disposed := true
      fetches := r.fetches.mapIdx fun number fetch =>
        if r.inflight.entries.any (·.2 == number) then { fetch with aborted := true } else fetch
      inflight := .empty
      cache := .empty
      cacheBytes := 0
      reservedBytes := 0
      reservedItems := 0 }

/-- One step. -/
def step (r : SessionContentResolver) : ContentAction → SessionContentResolver
  | .resolve ref signalAborted => r.resolveRef ref signalAborted
  | .fetched fetch text => r.endFetch fetch text
  | .store fetch => r.store fetch
  | .conclude fetch => r.conclude fetch
  | .react consumer => r.react consumer
  | .abort consumer => r.abort consumer
  | .dispose => r.dispose

/-- What is owed to the consumers: every request ends, as the environment has it, and the
continuations behind it run. -/
def Owed (outcome : ℕ → Option JsString) : ContentAction → Prop
  | .fetched fetch text => text = outcome fetch
  | .store _ => True
  | .conclude _ => True
  | .react _ => True
  | _ => False

/-- No call joins a fetch of the table that settles with an `abortError` unless its text comes all
the same. -/
def InTime (r : SessionContentResolver) : ContentAction → Prop
  | .resolve ref false => r.disposed = false → r.cache.get? ref.key = none →
      ∀ number, r.inflight.get? ref.key = some number →
        ∀ fetch, r.fetches[number]? = some fetch → fetch.ref = ref → ¬ fetch.Doomed
  | _ => True

end SessionContentResolver

end PiAgentWeb
