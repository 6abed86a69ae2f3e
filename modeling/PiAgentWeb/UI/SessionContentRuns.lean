import PiAgentWeb.UI.SessionContentResolver

/-!
# Runs of the Session content resolver

The table names just the fetches that have not settled, at most one for a digest. Those that still
reserve their place are counted by the reservations, which the limits bound together with the cache.
A consumer that has not settled is one of its fetch, so a fetch is aborted only when all have left
it.
-/

namespace PiAgentWeb

/-- The fetch has settled. -/
def ContentFetch.Settled (fetch : ContentFetch) : Prop := ∃ outcome, fetch.stage = .settled outcome

/-- The bytes that a fetch reserves. -/
def ContentFetch.reservedBytes (fetch : ContentFetch) : ℕ :=
  if fetch.reserves then fetch.ref.byteLength else 0

/-- The items that a fetch reserves. -/
def ContentFetch.reservedItems (fetch : ContentFetch) : ℕ := if fetch.reserves then 1 else 0

namespace SessionContentResolver

variable {r : SessionContentResolver}

/-- The bytes of the cached texts. -/
def cachedBytes (r : SessionContentResolver) : ℕ :=
  r.cache.total fun cached => cached.ref.byteLength

/-- What holds of the cache and of the reservations before the resolver is disposed. -/
structure Accounted (r : SessionContentResolver) : Prop where
  cacheBytes : r.cacheBytes = r.cachedBytes
  reservedBytes : r.reservedBytes = tally ContentFetch.reservedBytes r.fetches
  reservedItems : r.reservedItems = tally ContentFetch.reservedItems r.fetches
  bytes : r.cacheBytes + r.reservedBytes ≤ r.maxCacheBytes
  items : (r.cache.size : ℤ) + r.reservedItems ≤ r.maxCacheItems

/-- What holds of the table before the resolver is disposed. -/
structure Tabled (r : SessionContentResolver) : Prop where
  entries : ∀ key number, r.inflight.get? key = some number ↔
    ∃ fetch, r.fetches[number]? = some fetch ∧ fetch.ref.key = key ∧ ¬ fetch.Settled
  apart : ∀ (number : ℕ) (fetch : ContentFetch), r.fetches[number]? = some fetch →
    fetch.reserves = true → r.cache.get? fetch.ref.key = none

/-- What holds of consumers and of the fetches that they share. -/
structure Shared (r : SessionContentResolver) : Prop where
  members : ∀ (number : ℕ) (fetch : ContentFetch), r.fetches[number]? = some fetch → ∀ c,
    c ∈ fetch.consumers ↔ ∃ consumer, r.consumers[c]? = some consumer ∧
      consumer.fetch = some number ∧ consumer.settled = false
  waits : ∀ consumer ∈ r.consumers, consumer.settled = false →
    ∃ number fetch, consumer.fetch = some number ∧ r.fetches[number]? = some fetch
  once : ∀ consumer ∈ r.consumers, consumer.outcomes.length = if consumer.settled then 1 else 0

/-- The invariant of every run. -/
structure Sound (r : SessionContentResolver) : Prop where
  accounted : r.disposed = false → r.Accounted
  tabled : r.disposed = false → r.Tabled
  shared : r.Shared

theorem sound_create (maxCacheBytes maxCacheItems : ℕ) :
    Sound (create maxCacheBytes maxCacheItems) := by
  refine ⟨fun _ => ⟨rfl, rfl, rfl, ?_, ?_⟩, fun _ => ⟨fun key number => ⟨nofun, ?_⟩, ?_⟩,
    ⟨?_, nofun, nofun⟩⟩
  · exact Int.natCast_nonneg _
  · exact Int.natCast_nonneg _
  · rintro ⟨fetch, hfetch, -⟩
    cases hfetch
  · intro number fetch hfetch
    cases hfetch
  · intro number fetch hfetch
    cases hfetch

/-! ## Changes of one fetch or consumer -/

theorem getElem?_set_some {α : Type*} {l : List α} {i j : ℕ} {a b : α} (h : l[i]? = some a) :
    (l.set i b)[j]? = if j = i then some b else l[j]? := by
  have hlt := (List.getElem?_eq_some_iff.mp h).1
  simp only [List.getElem?_set, hlt, if_true]
  by_cases hj : j = i
  · rw [if_pos hj.symm, if_pos hj]
  · rw [if_neg fun heq => hj heq.symm, if_neg hj]

theorem tally_set_eq {α : Type*} {w : α → ℕ} {l : List α} {i : ℕ} {a b : α}
    (h : l[i]? = some a) (hw : w b = w a) : tally w (l.set i b) = tally w l := by
  have := tally_set (w := w) h b
  omega

/-- A fetch that keeps its reference and its reservation, and has settled as much. -/
structure Alike (fetch next : ContentFetch) : Prop where
  ref : next.ref = fetch.ref
  reserves : next.reserves = fetch.reserves
  settled : next.Settled ↔ fetch.Settled

theorem alike_add (fetch : ContentFetch) (c : ℕ) : Alike fetch (fetch.add c) :=
  ⟨rfl, rfl, Iff.rfl⟩

theorem alike_remove (fetch : ContentFetch) (c : ℕ) : Alike fetch (fetch.remove c) :=
  ⟨rfl, rfl, Iff.rfl⟩

theorem alike_leave (fetch : ContentFetch) (c : ℕ) : Alike fetch (fetch.leave c) := by
  rw [ContentFetch.leave]
  split
  · exact ⟨rfl, rfl, Iff.rfl⟩
  · exact ⟨rfl, rfl, Iff.rfl⟩

variable {number : ℕ}

theorem Accounted.set (h : Accounted r) {fetch next : ContentFetch}
    (hfetch : r.fetches[number]? = some fetch) (hnext : Alike fetch next)
    (consumers : List ContentConsumer) :
    Accounted { r with
      fetches := r.fetches.set number next
      consumers := consumers } := by
  have hbytes : next.reservedBytes = fetch.reservedBytes := by
    rw [ContentFetch.reservedBytes, ContentFetch.reservedBytes, hnext.reserves, hnext.ref]
  have hitems : next.reservedItems = fetch.reservedItems := by
    rw [ContentFetch.reservedItems, ContentFetch.reservedItems, hnext.reserves]
  refine ⟨h.cacheBytes, ?_, ?_, h.bytes, h.items⟩
  · exact h.reservedBytes.trans (congrArg _ (tally_set_eq hfetch hbytes).symm)
  · exact h.reservedItems.trans (congrArg _ (tally_set_eq hfetch hitems).symm)

theorem Tabled.set (h : Tabled r) {fetch next : ContentFetch}
    (hfetch : r.fetches[number]? = some fetch) (hnext : Alike fetch next)
    (consumers : List ContentConsumer) :
    Tabled { r with
      fetches := r.fetches.set number next
      consumers := consumers } := by
  refine ⟨fun key other => (h.entries key other).trans ?_, fun other found hfound hreserves => ?_⟩
  · dsimp only
    rw [getElem?_set_some hfetch]
    by_cases hother : other = number
    · rw [if_pos hother, hother, hfetch]
      simp only [Option.some.injEq, exists_eq_left', hnext.ref, hnext.settled]
    · rw [if_neg hother]
  · dsimp only at hfound
    rw [getElem?_set_some hfetch] at hfound
    split at hfound
    · cases hfound
      rw [hnext.ref]
      exact h.apart number fetch hfetch (hnext.reserves.symm.trans hreserves)
    · exact h.apart other found hfound hreserves

theorem Shared.settle (h : Shared r) {c number : ℕ} {consumer : ContentConsumer}
    {fetch left : ContentFetch} (hconsumer : r.consumers[c]? = some consumer)
    (hof : consumer.fetch = some number) (hunsettled : consumer.settled = false)
    (hfetch : r.fetches[number]? = some fetch)
    (hleft : ∀ d, d ∈ left.consumers ↔ d ∈ fetch.consumers ∧ d ≠ c) (outcome : ContentOutcome) :
    Shared (r.settle c consumer number left outcome) := by
  have hget : ∀ d, (r.settle c consumer number left outcome).consumers[d]? =
      if d = c then some { consumer with
        settled := true
        outcomes := consumer.outcomes ++ [outcome] } else r.consumers[d]? :=
    fun d => getElem?_set_some hconsumer
  have hmem : ∀ found ∈ (r.settle c consumer number left outcome).consumers,
      found ∈ r.consumers ∨ found = { consumer with
        settled := true
        outcomes := consumer.outcomes ++ [outcome] } := fun found hfound =>
    List.mem_or_eq_of_mem_set hfound
  refine ⟨fun other found hfound d => ?_, fun found hfound hwaiting => ?_, fun found hfound => ?_⟩
  · rw [hget]
    have hfound := (getElem?_set_some hfetch).symm.trans hfound
    by_cases hd : d = c
    · rw [if_pos hd]
      simp only [Option.some.injEq, exists_eq_left', Bool.true_eq_false, and_false, iff_false]
      split at hfound
      · cases hfound
        rw [hleft]
        exact fun hin => hin.2 hd
      · rename_i hne
        rw [h.members other found hfound, hd]
        rintro ⟨same, hsame, hsameOf, -⟩
        rw [hconsumer, Option.some.injEq] at hsame
        rw [← hsame, hof, Option.some.injEq] at hsameOf
        exact hne hsameOf.symm
    · rw [if_neg hd]
      split at hfound
      · rename_i heq
        cases hfound
        rw [hleft, heq, ← h.members number fetch hfetch d]
        exact and_iff_left hd
      · exact h.members other found hfound d
  · rcases hmem found hfound with hold | rfl
    · obtain ⟨n, other, hfetchOf, hother⟩ := h.waits found hold hwaiting
      refine ⟨n, if n = number then left else other, hfetchOf, ?_⟩
      refine (getElem?_set_some hfetch).trans ?_
      split
      · rfl
      · exact hother
    · cases hwaiting
  · rcases hmem found hfound with hold | rfl
    · exact h.once found hold
    · have hnone := h.once consumer (List.mem_of_getElem? hconsumer)
      rw [hunsettled, if_neg Bool.false_ne_true] at hnone
      simp [hnone]

variable {s : SessionContentResolver}

theorem Shared.of_consumers (h : Shared r) (hconsumers : s.consumers = r.consumers)
    (hfetches : ∀ n : ℕ, (s.fetches[n]?).map (·.consumers) = (r.fetches[n]?).map (·.consumers)) :
    Shared s := by
  refine ⟨fun number fetch hfetch c => ?_, fun consumer hconsumer hwaiting => ?_,
    fun consumer hconsumer => ?_⟩
  · have hold := hfetches number
    rw [hfetch, Option.map_some, eq_comm, Option.map_eq_some_iff] at hold
    obtain ⟨old, hold, hsame⟩ := hold
    rw [← hsame, hconsumers]
    exact h.members number old hold c
  · obtain ⟨number, fetch, hof, hfetch⟩ := h.waits consumer (hconsumers ▸ hconsumer) hwaiting
    have hnew := hfetches number
    rw [hfetch, Option.map_some, Option.map_eq_some_iff] at hnew
    obtain ⟨next, hnext, -⟩ := hnew
    exact ⟨number, next, hof, hnext⟩
  · exact h.once consumer (hconsumers ▸ hconsumer)

variable {fetch : ContentFetch}

theorem Shared.withStage (h : Shared r)
    (hfetch : r.fetches[number]? = some fetch) (stage : ContentFetchStage)
    (hconsumers : s.consumers = r.consumers)
    (hfetches : s.fetches = r.fetches.set number { fetch with stage := stage }) : Shared s := by
  refine h.of_consumers hconsumers fun n => ?_
  rw [hfetches, getElem?_set_some hfetch]
  split
  · rename_i heq
    rw [heq, hfetch]
    rfl
  · rfl

theorem Shared.signal (h : Shared r) {c : ℕ} {consumer : ContentConsumer}
    (hconsumer : r.consumers[c]? = some consumer) :
    Shared { r with consumers := r.consumers.set c { consumer with signalAborted := true } } := by
  refine ⟨fun number fetch hfetch d => ?_, fun found hfound hwaiting => ?_,
    fun found hfound => ?_⟩
  · rw [h.members number fetch hfetch d, getElem?_set_some hconsumer]
    by_cases hd : d = c
    · rw [if_pos hd, hd, hconsumer]
      simp only [Option.some.injEq, exists_eq_left']
    · rw [if_neg hd]
  · rcases List.mem_or_eq_of_mem_set hfound with hold | rfl
    · exact h.waits found hold hwaiting
    · exact h.waits consumer (List.mem_of_getElem? hconsumer) hwaiting
  · rcases List.mem_or_eq_of_mem_set hfound with hold | rfl
    · exact h.once found hold
    · exact h.once consumer (List.mem_of_getElem? hconsumer)

theorem Shared.answer (h : Shared r) (signalAborted : Bool) (outcome : ContentOutcome) :
    Shared (r.answer signalAborted outcome) := by
  refine ⟨fun number fetch hfetch c => ?_, fun found hfound hwaiting => ?_,
    fun found hfound => ?_⟩
  · rw [h.members number fetch hfetch c]
    refine exists_congr fun found => ?_
    dsimp only [SessionContentResolver.answer]
    rw [List.getElem?_append]
    split
    · rfl
    · rename_i hge
      have hnone : r.consumers[c]? = none := List.getElem?_eq_none (Nat.le_of_not_lt hge)
      rw [hnone]
      refine ⟨fun hfound => absurd hfound.1 nofun, fun hfound => ?_⟩
      have hmem := List.mem_of_getElem? hfound.1
      rw [List.mem_singleton] at hmem
      rw [hmem] at hfound
      exact absurd hfound.2.1 nofun
  · rcases List.mem_append.mp hfound with hold | hnew
    · exact h.waits found hold hwaiting
    · rw [List.mem_singleton.mp hnew] at hwaiting
      cases hwaiting
  · rcases List.mem_append.mp hfound with hold | hnew
    · exact h.once found hold
    · rw [List.mem_singleton.mp hnew]
      rfl

theorem Shared.fresh (h : Shared r)
    (hfetch : r.fetches[number]? = some fetch) : r.consumers.length ∉ fetch.consumers := by
  intro hmem
  obtain ⟨consumer, hconsumer, -⟩ := (h.members number fetch hfetch _).mp hmem
  rw [List.getElem?_eq_none (Nat.le_refl _)] at hconsumer
  cases hconsumer

theorem Shared.consume (h : Shared r)
    (hfetch : r.fetches[number]? = some fetch) : Shared (r.consume number fetch) := by
  have hget : ∀ c, (r.consume number fetch).consumers[c]? =
      if c = r.consumers.length then
        some { fetch := some number, signalAborted := false, settled := false, outcomes := [] }
      else r.consumers[c]? := by
    intro c
    dsimp only [SessionContentResolver.consume]
    rw [List.getElem?_append]
    split
    · rename_i hlt
      rw [if_neg (Nat.ne_of_lt hlt)]
    · rename_i hge
      by_cases heq : c = r.consumers.length
      · rw [if_pos heq, heq, Nat.sub_self]
        rfl
      · rw [if_neg heq, List.getElem?_eq_none (by rw [List.length_singleton]; omega),
          List.getElem?_eq_none (by omega)]
  refine ⟨fun other found hfound c => ?_, fun found hfound hwaiting => ?_, fun found hfound => ?_⟩
  · have hfound := (getElem?_set_some hfetch).symm.trans hfound
    rw [hget]
    by_cases hc : c = r.consumers.length
    · rw [if_pos hc]
      simp only [Option.some.injEq, exists_eq_left', and_true]
      split at hfound
      · rename_i heq
        cases hfound
        rw [heq]
        exact ⟨fun _ => rfl, fun _ => List.mem_append_right _ (List.mem_singleton.mpr hc)⟩
      · rename_i hne
        refine ⟨fun hin => absurd (hc ▸ hin) (h.fresh hfound), fun heq => ?_⟩
        exact absurd heq.symm hne
    · rw [if_neg hc]
      split at hfound
      · rename_i heq
        cases hfound
        rw [heq, ← h.members number fetch hfetch c]
        dsimp only [ContentFetch.add]
        rw [List.mem_append, List.mem_singleton]
        exact or_iff_left hc
      · exact h.members other found hfound c
  · have hnext : ∀ (n : ℕ) (old : ContentFetch), r.fetches[n]? = some old →
        ∃ next, (r.consume number fetch).fetches[n]? = some next := by
      intro n old hold
      refine ⟨if n = number then fetch.add r.consumers.length else old, ?_⟩
      refine (getElem?_set_some hfetch).trans ?_
      split
      · rfl
      · exact hold
    rcases List.mem_append.mp hfound with hold | hnew
    · obtain ⟨n, old, hof, hn⟩ := h.waits found hold hwaiting
      obtain ⟨next, hnew⟩ := hnext n old hn
      exact ⟨n, next, hof, hnew⟩
    · obtain ⟨next, hnew'⟩ := hnext number fetch hfetch
      rw [List.mem_singleton.mp hnew]
      exact ⟨number, next, rfl, hnew'⟩
  · rcases List.mem_append.mp hfound with hold | hnew
    · exact h.once found hold
    · rw [List.mem_singleton.mp hnew]
      rfl

/-! ## Reservations -/

/-- What eviction leaves alone, and what is gone from the cache stays gone. -/
structure Evicted (r s : SessionContentResolver) : Prop where
  fetches : s.fetches = r.fetches
  consumers : s.consumers = r.consumers
  inflight : s.inflight = r.inflight
  disposed : s.disposed = r.disposed
  bytes : s.maxCacheBytes = r.maxCacheBytes
  items : s.maxCacheItems = r.maxCacheItems
  reservedBytes : s.reservedBytes = r.reservedBytes
  reservedItems : s.reservedItems = r.reservedItems
  gone : ∀ key, r.cache.get? key = none → s.cache.get? key = none

theorem evictFor_spec (r : SessionContentResolver) (byteLength : ℕ) :
    Evicted r (r.evictFor byteLength) ∧ (r.Accounted → (r.evictFor byteLength).Accounted) := by
  induction r using evictFor.induct byteLength with
  | case1 r hexceeds oldest holdest ih =>
    rw [evictFor, if_pos hexceeds]
    split
    · rename_i other hother
      rw [holdest, Option.some.injEq] at hother
      subst hother
      obtain ⟨hkept, haccounted⟩ := ih
      have hget : r.cache.get? oldest.1 = some oldest.2 :=
        InsertionMap.get?_of_mem (List.mem_of_head? holdest)
      refine ⟨⟨hkept.fetches, hkept.consumers, hkept.inflight, hkept.disposed, hkept.bytes,
        hkept.items, hkept.reservedBytes, hkept.reservedItems, fun key hkey => ?_⟩, fun h => ?_⟩
      · refine hkept.gone key ?_
        dsimp only
        rw [InsertionMap.get?_erase]
        split
        · rfl
        · exact hkey
      · refine haccounted ⟨?_, h.reservedBytes, h.reservedItems, ?_, ?_⟩
        · have htotal := InsertionMap.total_erase
            (f := fun cached : CachedContent => cached.ref.byteLength) hget
          have hcache := h.cacheBytes
          simp only [cachedBytes] at hcache ⊢
          omega
        · have hbytes := h.bytes
          dsimp only
          omega
        · have hsize := InsertionMap.size_erase_le r.cache oldest.1
          have hitems := h.items
          dsimp only
          omega
    · rename_i hnone
      rw [holdest] at hnone
      cases hnone
  | case2 r hexceeds hempty =>
    rw [evictFor, if_pos hexceeds]
    split
    · rename_i other hother
      rw [hempty] at hother
      cases hother
    · exact ⟨⟨rfl, rfl, rfl, rfl, rfl, rfl, rfl, rfl, fun _ h => h⟩, id⟩
  | case3 r hfits =>
    rw [evictFor, if_neg hfits]
    exact ⟨⟨rfl, rfl, rfl, rfl, rfl, rfl, rfl, rfl, fun _ h => h⟩, id⟩

theorem reserve_cases (r : SessionContentResolver) (ref : SessionContentRef) :
    r.reserve ref = (r.evictFor ref.byteLength, false) ∨
      (r.evictFor ref.byteLength).exceeds ref.byteLength = false ∧
        r.reserve ref = ({ r.evictFor ref.byteLength with
          reservedBytes := (r.evictFor ref.byteLength).reservedBytes + ref.byteLength
          reservedItems := (r.evictFor ref.byteLength).reservedItems + 1 }, true) := by
  simp only [reserve]
  split
  · exact .inl rfl
  · rename_i hfits
    simp only [Bool.or_eq_true, not_or, Bool.not_eq_true] at hfits
    exact .inr ⟨hfits.2, rfl⟩

theorem Evicted.tabled (h : Evicted r s) (htabled : r.Tabled) :
    s.Tabled := by
  refine ⟨fun key number => ?_, fun number fetch hfetch hreserves => ?_⟩
  · rw [h.inflight, h.fetches]
    exact htabled.entries key number
  · exact h.gone _ (htabled.apart number fetch (h.fetches ▸ hfetch) hreserves)

theorem Evicted.shared (h : Evicted r s) (hshared : r.Shared) :
    s.Shared :=
  hshared.of_consumers h.consumers fun n => by rw [h.fetches]

theorem Sound.answer (h : Sound r) (signalAborted : Bool) (outcome : ContentOutcome) :
    Sound (r.answer signalAborted outcome) := by
  refine ⟨fun hlive => ?_, fun hlive => ?_, h.shared.answer signalAborted outcome⟩
  · obtain ⟨hcache, hbytes, hitems, hroom, hplaces⟩ := h.accounted hlive
    exact ⟨hcache, hbytes, hitems, hroom, hplaces⟩
  · obtain ⟨hentries, hapart⟩ := h.tabled hlive
    exact ⟨hentries, hapart⟩

theorem Sound.consume (h : Sound r)
    (hfetch : r.fetches[number]? = some fetch) : Sound (r.consume number fetch) :=
  ⟨fun hlive => (h.accounted hlive).set hfetch (alike_add fetch _) _,
    fun hlive => (h.tabled hlive).set hfetch (alike_add fetch _) _, h.shared.consume hfetch⟩

theorem Sound.touch (h : Sound r) {key : JsString} {cached : CachedContent}
    (hcached : r.cache.get? key = some cached) :
    Sound { r with cache := (r.cache.erase key).insert key cached } := by
  have hnone : (r.cache.erase key).get? key = none := InsertionMap.get?_erase_self _ _
  refine ⟨fun hlive => ?_, fun hlive => ?_, h.shared.of_consumers rfl fun _ => rfl⟩
  · obtain ⟨hcache, hbytes, hitems, hroom, hplaces⟩ := h.accounted hlive
    refine ⟨?_, hbytes, hitems, hroom, ?_⟩
    · have herase := InsertionMap.total_erase
        (f := fun cached : CachedContent => cached.ref.byteLength) hcached
      have hinsert := InsertionMap.total_insert
        (f := fun cached : CachedContent => cached.ref.byteLength) hnone cached
      simp only [cachedBytes] at hcache ⊢
      omega
    · have herase := InsertionMap.size_erase_of_get? hcached
      have hinsert := InsertionMap.size_insert_of_get?_eq_none hnone cached
      dsimp only
      omega
  · obtain ⟨hentries, hapart⟩ := h.tabled hlive
    refine ⟨hentries, fun number fetch hfetch hreserves => ?_⟩
    have hgone := hapart number fetch hfetch hreserves
    dsimp only
    rw [InsertionMap.get?_insert, InsertionMap.get?_erase]
    by_cases hkey : fetch.ref.key = key
    · rw [hkey, hcached] at hgone
      cases hgone
    · rw [if_neg hkey, if_neg hkey]
      exact hgone

theorem getElem?_concat {α : Type*} {l : List α} {a : α} {i : ℕ} :
    (l ++ [a])[i]? = if i = l.length then some a else l[i]? := by
  rw [List.getElem?_append]
  split
  · rename_i hlt
    rw [if_neg (Nat.ne_of_lt hlt)]
  · rename_i hge
    by_cases heq : i = l.length
    · rw [if_pos heq, heq, Nat.sub_self]
      rfl
    · rw [if_neg heq, List.getElem?_eq_none (by rw [List.length_singleton]; omega),
        List.getElem?_eq_none (by omega)]

theorem Shared.concat (h : Shared r) (hnone : fetch.consumers = [])
    (inflight : InsertionMap JsString ℕ) :
    Shared { r with
      fetches := r.fetches ++ [fetch]
      inflight := inflight } := by
  have hold : ∀ (n : ℕ) (old : ContentFetch), r.fetches[n]? = some old →
      (r.fetches ++ [fetch])[n]? = some old := fun n old hn =>
    (List.getElem?_append_left (List.getElem?_eq_some_iff.mp hn).1).trans hn
  refine ⟨fun number found hfound c => ?_, fun consumer hconsumer hwaiting => ?_, h.once⟩
  · dsimp only at hfound
    rw [getElem?_concat] at hfound
    split at hfound
    · rename_i heq
      cases hfound
      rw [hnone]
      refine ⟨fun hin => absurd hin List.not_mem_nil, ?_⟩
      rintro ⟨consumer, hconsumer, hof, hunsettled⟩
      obtain ⟨n, other, hn, hother⟩ :=
        h.waits consumer (List.mem_of_getElem? hconsumer) hunsettled
      rw [hof, Option.some.injEq] at hn
      rw [← hn, heq, List.getElem?_eq_none (Nat.le_refl _)] at hother
      cases hother
    · exact h.members number found hfound c
  · obtain ⟨n, other, hn, hother⟩ := h.waits consumer hconsumer hwaiting
    exact ⟨n, other, hn, hold n other hother⟩

theorem Sound.startInflight (h : Sound r) (hlive : r.disposed = false) {ref : SessionContentRef}
    (hcache : r.cache.get? ref.key = none) (hinflight : r.inflight.get? ref.key = none)
    (hroom : r.exceeds ref.byteLength = false) :
    Sound ({ r with
      reservedBytes := r.reservedBytes + ref.byteLength
      reservedItems := r.reservedItems + 1 }.startInflight ref) := by
  have haccounted := h.accounted hlive
  have htabled := h.tabled hlive
  simp only [exceeds, Bool.or_eq_false_iff, decide_eq_false_iff_not] at hroom
  let fetch : ContentFetch := { ref := ref, aborted := false, consumers := [], stage := .pending }
  have hstarted : Sound { r with
      reservedBytes := r.reservedBytes + ref.byteLength
      reservedItems := r.reservedItems + 1
      fetches := r.fetches ++ [fetch]
      inflight := r.inflight.insert ref.key r.fetches.length } := by
    refine ⟨fun _ => ⟨haccounted.cacheBytes, ?_, ?_, ?_, ?_⟩, fun _ => ⟨fun key number => ?_,
      fun number found hfound hreserves => ?_⟩, ?_⟩
    · have hreserved := haccounted.reservedBytes
      dsimp only
      rw [tally_append, tally_cons, tally_nil, hreserved]
      rfl
    · have hreserved := haccounted.reservedItems
      dsimp only
      rw [tally_append, tally_cons, tally_nil, hreserved]
      rfl
    · dsimp only
      omega
    · dsimp only
      omega
    · dsimp only
      rw [InsertionMap.get?_insert, getElem?_concat]
      by_cases hnumber : number = r.fetches.length
      · rw [if_pos hnumber]
        simp only [Option.some.injEq, exists_eq_left']
        have hunsettled : ¬ fetch.Settled := by
          rintro ⟨outcome, houtcome⟩
          cases houtcome
        by_cases hkey : key = ref.key
        · rw [if_pos hkey]
          exact ⟨fun _ => ⟨hkey.symm, hunsettled⟩, fun _ => congrArg some hnumber.symm⟩
        · rw [if_neg hkey]
          refine ⟨fun hget => ?_, fun hfetch => absurd hfetch.1.symm hkey⟩
          obtain ⟨old, hold, -⟩ := (htabled.entries key number).mp hget
          rw [hnumber, List.getElem?_eq_none (Nat.le_refl _)] at hold
          cases hold
      · rw [if_neg hnumber, ← htabled.entries key number]
        by_cases hkey : key = ref.key
        · rw [if_pos hkey, hkey, hinflight]
          exact ⟨fun heq => absurd (Option.some.inj heq).symm hnumber,
            fun h => by cases h⟩
        · rw [if_neg hkey]
    · dsimp only at hfound
      rw [getElem?_concat] at hfound
      split at hfound
      · cases hfound
        exact hcache
      · exact htabled.apart number found hfound hreserves
    · have hcounters : Shared { r with
          reservedBytes := r.reservedBytes + ref.byteLength
          reservedItems := r.reservedItems + 1 } := h.shared.of_consumers rfl fun _ => rfl
      exact hcounters.concat (rfl : fetch.consumers = []) _
  exact hstarted.consume List.getElem?_concat_length

theorem Sound.resolveRef (h : Sound r) (ref : SessionContentRef) (signalAborted : Bool) :
    Sound (r.resolveRef ref signalAborted) := by
  rw [SessionContentResolver.resolveRef]
  split
  · exact h.answer _ _
  rename_i hlive
  split
  · exact h.answer _ _
  split
  · rename_i cached hcached
    split
    · exact (h.touch hcached).answer _ _
    · exact h.answer _ _
  rename_i hcache
  split
  · split
    · rename_i fetch hfetch
      split
      · exact h.consume hfetch
      · exact h.answer _ _
    · exact h
  rename_i hinflight
  obtain ⟨hevicted, haccounted⟩ := evictFor_spec r ref.byteLength
  have hkept : Sound (r.evictFor ref.byteLength) :=
    ⟨fun hlive' => haccounted (h.accounted (hevicted.disposed ▸ hlive')),
      fun hlive' => hevicted.tabled (h.tabled (hevicted.disposed ▸ hlive')),
      hevicted.shared h.shared⟩
  rcases reserve_cases r ref with hrefused | ⟨hfits, hreserved⟩
  · rw [hrefused]
    exact hkept.answer _ _
  · rw [hreserved]
    refine hkept.startInflight ?_ (hevicted.gone _ hcache) ?_ hfits
    · rw [hevicted.disposed]
      exact Bool.eq_false_iff.mpr hlive
    · rw [hevicted.inflight, hinflight]

/-! ## The stages of a fetch -/

theorem Accounted.release (h : Accounted r) {fetch next : ContentFetch}
    (hfetch : r.fetches[number]? = some fetch) (hreserves : fetch.reserves = true)
    (hnext : next.reserves = false) :
    Accounted { r.release fetch with fetches := r.fetches.set number next } := by
  have hbytes := tally_set (w := ContentFetch.reservedBytes) hfetch next
  have hitems := tally_set (w := ContentFetch.reservedItems) hfetch next
  have hfrom : fetch.reservedBytes = fetch.ref.byteLength ∧ next.reservedBytes = 0 := by
    simp only [ContentFetch.reservedBytes, hreserves, hnext]
    exact ⟨rfl, rfl⟩
  have hone : fetch.reservedItems = 1 ∧ next.reservedItems = 0 := by
    simp only [ContentFetch.reservedItems, hreserves, hnext]
    exact ⟨rfl, rfl⟩
  obtain ⟨hcache, hreservedBytes, hreservedItems, hroom, hplaces⟩ := h
  refine ⟨hcache, ?_, ?_, ?_, ?_⟩
  · dsimp only [SessionContentResolver.release]
    omega
  · dsimp only [SessionContentResolver.release]
    omega
  · dsimp only [SessionContentResolver.release]
    omega
  · dsimp only [SessionContentResolver.release]
    omega

theorem Accounted.putCache (h : Accounted r) {fetch next : ContentFetch}
    (hfetch : r.fetches[number]? = some fetch) (hreserves : fetch.reserves = true)
    (hnext : next.reserves = false) (hapart : r.cache.get? fetch.ref.key = none) (text : JsString) :
    Accounted { r.release fetch with
      cache := r.cache.insert fetch.ref.key { ref := fetch.ref, text := text }
      cacheBytes := r.cacheBytes + fetch.ref.byteLength
      fetches := r.fetches.set number next } := by
  have hreleased := h.release hfetch hreserves hnext
  have htotal := InsertionMap.total_insert
    (f := fun cached : CachedContent => cached.ref.byteLength) hapart
    { ref := fetch.ref, text := text }
  have hsize := InsertionMap.size_insert_of_get?_eq_none hapart
    ({ ref := fetch.ref, text := text } : CachedContent)
  obtain ⟨hcache, -, -, hroom, hplaces⟩ := h
  refine ⟨?_, hreleased.reservedBytes, hreleased.reservedItems, ?_, ?_⟩
  · simp only [cachedBytes] at hcache htotal ⊢
    omega
  · dsimp only [SessionContentResolver.release]
    omega
  · dsimp only [SessionContentResolver.release]
    omega

theorem Tabled.unique (h : Tabled r) {first second : ℕ} {one other : ContentFetch}
    (hfirst : r.fetches[first]? = some one) (hsecond : r.fetches[second]? = some other)
    (hone : ¬ one.Settled) (hother : ¬ other.Settled) (hkey : one.ref.key = other.ref.key) :
    first = second := by
  have hget := (h.entries other.ref.key first).mpr ⟨one, hfirst, hkey, hone⟩
  have hget' := (h.entries other.ref.key second).mpr ⟨other, hsecond, rfl, hother⟩
  rw [hget, Option.some.injEq] at hget'
  exact hget'

theorem not_settled_of_reserves (h : fetch.reserves = true) :
    ¬ fetch.Settled := by
  rintro ⟨outcome, hsettled⟩
  rw [ContentFetch.reserves, hsettled] at h
  cases h

theorem Tabled.leave (h : Tabled r) {fetch next : ContentFetch}
    (hfetch : r.fetches[number]? = some fetch) (hunsettled : ¬ fetch.Settled)
    (hnext : next.Settled) :
    Tabled { r.leaveTable number fetch with fetches := r.fetches.set number next } := by
  have hentry := (h.entries fetch.ref.key number).mpr ⟨fetch, hfetch, rfl, hunsettled⟩
  refine ⟨fun key other => ?_, fun other found hfound hreserves => ?_⟩
  · dsimp only [SessionContentResolver.leaveTable]
    rw [if_pos hentry, InsertionMap.get?_erase, getElem?_set_some hfetch]
    by_cases hother : other = number
    · rw [if_pos hother]
      simp only [Option.some.injEq, exists_eq_left', hnext, not_true_eq_false, and_false,
        iff_false]
      split
      · intro h
        cases h
      · rename_i hkey
        intro hget
        obtain ⟨same, hsame, hsameKey, -⟩ := (h.entries key other).mp hget
        rw [hother, hfetch, Option.some.injEq] at hsame
        exact hkey (hsame ▸ hsameKey.symm)
    · rw [if_neg hother, ← h.entries key other]
      split
      · rename_i hkey
        rw [hkey, hentry]
        exact ⟨(fun h => by cases h), fun heq => absurd (Option.some.inj heq).symm hother⟩
      · rfl
  · have hfound := (getElem?_set_some hfetch).symm.trans hfound
    split at hfound
    · cases hfound
      exact absurd hnext (not_settled_of_reserves hreserves)
    · exact h.apart other found hfound hreserves

theorem Sound.endFetch (h : Sound r) (number : ℕ) (text : Option JsString) :
    Sound (r.endFetch number text) := by
  rw [SessionContentResolver.endFetch]
  split
  · rename_i fetch hfetch
    split
    · rename_i hpending
      have halike : ∀ outcome, Alike fetch { fetch with stage := .fetched outcome } := by
        intro outcome
        refine ⟨rfl, ?_, ?_⟩
        · rw [ContentFetch.reserves, ContentFetch.reserves, hpending]
        · rw [ContentFetch.Settled, ContentFetch.Settled, hpending]
          exact ⟨nofun, nofun⟩
      exact ⟨fun hlive => (h.accounted hlive).set hfetch (halike _) _,
        fun hlive => (h.tabled hlive).set hfetch (halike _) _, h.shared.withStage hfetch _ rfl rfl⟩
    · exact h
  · exact h

theorem Sound.store (h : Sound r) (number : ℕ) : Sound (r.store number) := by
  rw [SessionContentResolver.store]
  split
  · rename_i fetch hfetch
    split
    · rename_i text hstage
      have hreserves : fetch.reserves = true := by
        rw [ContentFetch.reserves, hstage]
      have hunsettled := not_settled_of_reserves hreserves
      have hnext : ({ fetch with stage := .stored text } : ContentFetch).reserves = false := rfl
      cases hdisposed : r.disposed with
      | true =>
        have heq : (r.release fetch).putCache fetch text = r.release fetch := by
          rw [SessionContentResolver.putCache]
          exact if_pos hdisposed
        rw [heq]
        refine ⟨fun hlive => ?_, fun hlive => ?_,
          h.shared.withStage hfetch _ rfl rfl⟩
        · exact absurd (hdisposed.symm.trans hlive) Bool.noConfusion
        · exact absurd (hdisposed.symm.trans hlive) Bool.noConfusion
      | false =>
        have htabled := h.tabled hdisposed
        have hapart := htabled.apart number fetch hfetch hreserves
        have heq : (r.release fetch).putCache fetch text =
            { r.release fetch with
              cache := r.cache.insert fetch.ref.key { ref := fetch.ref, text := text }
              cacheBytes := r.cacheBytes + fetch.ref.byteLength } := by
          rw [SessionContentResolver.putCache]
          refine (if_neg ?_).trans rfl
          exact Bool.eq_false_iff.mp hdisposed
        rw [heq]
        refine ⟨fun _ => (h.accounted hdisposed).putCache hfetch hreserves hnext hapart text,
          fun _ => ⟨fun key other => (htabled.entries key other).trans ?_,
            fun other found hfound hfoundReserves => ?_⟩,
          h.shared.withStage hfetch _ rfl rfl⟩
        · dsimp only [SessionContentResolver.setStage, SessionContentResolver.release]
          rw [getElem?_set_some hfetch]
          by_cases hother : other = number
          · rw [if_pos hother, hother, hfetch]
            simp only [Option.some.injEq, exists_eq_left', hunsettled, not_false_eq_true, and_true]
            refine (and_iff_left ?_).symm
            rintro ⟨outcome, houtcome⟩
            cases houtcome
          · rw [if_neg hother]
        · dsimp only [SessionContentResolver.setStage, SessionContentResolver.release] at hfound ⊢
          rw [getElem?_set_some hfetch] at hfound
          split at hfound
          · cases hfound
            cases hfoundReserves
          · rename_i hne
            rw [InsertionMap.get?_insert]
            split
            · rename_i hkey
              exact absurd (htabled.unique hfound hfetch (not_settled_of_reserves hfoundReserves)
                hunsettled hkey) hne
            · exact htabled.apart other found hfound hfoundReserves
    · exact h
  · exact h

theorem Sound.settleFetch (h : Sound r)
    (hfetch : r.fetches[number]? = some fetch) (hunsettled : ¬ fetch.Settled)
    (outcome : ContentOutcome) :
    (fetch.reserves = true → Sound (((r.release fetch).leaveTable number fetch).setStage number
        fetch (.settled outcome))) ∧
      (fetch.reserves = false →
        Sound ((r.leaveTable number fetch).setStage number fetch (.settled outcome))) := by
  have hsettled : ({ fetch with stage := .settled outcome } : ContentFetch).Settled :=
    ⟨outcome, rfl⟩
  have hnext : ({ fetch with stage := .settled outcome } : ContentFetch).reserves = false := rfl
  constructor
  · intro hreserves
    refine ⟨fun hlive => ?_, fun hlive => ?_,
      h.shared.withStage hfetch _ rfl rfl⟩
    · obtain ⟨hcache, hbytes, hitems, hroom, hplaces⟩ :=
        (h.accounted hlive).release hfetch hreserves hnext
      exact ⟨hcache, hbytes, hitems, hroom, hplaces⟩
    · obtain ⟨hentries, hapart⟩ := (h.tabled hlive).leave hfetch hunsettled hsettled
      exact ⟨hentries, hapart⟩
  · intro hreserves
    refine ⟨fun hlive => ?_, fun hlive => (h.tabled hlive).leave hfetch hunsettled hsettled,
      h.shared.withStage hfetch _ rfl rfl⟩
    obtain ⟨hcache, hbytes, hitems, hroom, hplaces⟩ := h.accounted hlive
    refine ⟨hcache, hbytes.trans (congrArg _ (tally_set_eq hfetch ?_).symm),
      hitems.trans (congrArg _ (tally_set_eq hfetch ?_).symm), hroom, hplaces⟩
    · rw [ContentFetch.reservedBytes, ContentFetch.reservedBytes, hreserves, hnext]
    · rw [ContentFetch.reservedItems, ContentFetch.reservedItems, hreserves, hnext]

theorem Sound.conclude (h : Sound r) (number : ℕ) : Sound (r.conclude number) := by
  rw [SessionContentResolver.conclude]
  split
  · rename_i fetch hfetch
    split
    · rename_i text hstage
      refine (h.settleFetch hfetch ?_ _).2 ?_
      · rintro ⟨outcome, houtcome⟩
        rw [hstage] at houtcome
        cases houtcome
      · rw [ContentFetch.reserves, hstage]
    · rename_i hstage
      have hreserves : fetch.reserves = true := by rw [ContentFetch.reserves, hstage]
      exact (h.settleFetch hfetch (not_settled_of_reserves hreserves) _).1 hreserves
    · rename_i hstage
      have hreserves : fetch.reserves = true := by rw [ContentFetch.reserves, hstage]
      exact (h.settleFetch hfetch (not_settled_of_reserves hreserves) _).1 hreserves
    · exact h
  · exact h

/-! ## Consumers -/

theorem Sound.settle (h : Sound r) {c number : ℕ} {consumer : ContentConsumer}
    {fetch left : ContentFetch} (hconsumer : r.consumers[c]? = some consumer)
    (hof : consumer.fetch = some number) (hunsettled : consumer.settled = false)
    (hfetch : r.fetches[number]? = some fetch) (halike : Alike fetch left)
    (hleft : ∀ d, d ∈ left.consumers ↔ d ∈ fetch.consumers ∧ d ≠ c) (outcome : ContentOutcome) :
    Sound (r.settle c consumer number left outcome) :=
  ⟨fun hlive => (h.accounted hlive).set hfetch halike _,
    fun hlive => (h.tabled hlive).set hfetch halike _,
    h.shared.settle hconsumer hof hunsettled hfetch hleft outcome⟩

theorem mem_remove (fetch : ContentFetch) (c d : ℕ) :
    d ∈ (fetch.remove c).consumers ↔ d ∈ fetch.consumers ∧ d ≠ c := by
  rw [ContentFetch.remove, List.mem_filter, decide_eq_true_eq]

theorem mem_leave (fetch : ContentFetch) (c d : ℕ) :
    d ∈ (fetch.leave c).consumers ↔ d ∈ fetch.consumers ∧ d ≠ c := by
  rw [← mem_remove, ContentFetch.leave]
  split <;> rfl

theorem Sound.react (h : Sound r) (number : ℕ) : Sound (r.react number) := by
  rw [SessionContentResolver.react]
  split
  · rename_i consumer hconsumer
    split
    · rename_i n hof
      split
      · rename_i fetch hfetch
        split
        · split
          · exact h
          · rename_i hunsettled
            exact h.settle hconsumer hof (Bool.eq_false_iff.mpr hunsettled) hfetch
              (alike_remove fetch number) (mem_remove fetch number) _
        · exact h
      · exact h
    · exact h
  · exact h

theorem Sound.abort (h : Sound r) (number : ℕ) : Sound (r.abort number) := by
  rw [SessionContentResolver.abort]
  split
  · rename_i consumer hconsumer
    have hsignal : Sound { r with
        consumers := r.consumers.set number { consumer with signalAborted := true } } := by
      refine ⟨fun hlive => ?_, fun hlive => ?_, h.shared.signal hconsumer⟩
      · obtain ⟨hcache, hbytes, hitems, hroom, hplaces⟩ := h.accounted hlive
        exact ⟨hcache, hbytes, hitems, hroom, hplaces⟩
      · obtain ⟨hentries, hapart⟩ := h.tabled hlive
        exact ⟨hentries, hapart⟩
    split
    · exact h
    dsimp only
    split
    · exact hsignal
    · rename_i hunsettled
      split
      · rename_i n hof
        split
        · rename_i fetch hfetch
          have hget : (r.consumers.set number { consumer with signalAborted := true })[number]? =
              some { consumer with signalAborted := true } :=
            (getElem?_set_some hconsumer).trans (if_pos rfl)
          exact hsignal.settle hget hof (Bool.eq_false_iff.mpr hunsettled) hfetch
            (alike_leave fetch number) (mem_leave fetch number) _
        · exact hsignal
      · exact hsignal
  · exact h

theorem Sound.dispose (h : Sound r) : Sound r.dispose := by
  rw [SessionContentResolver.dispose]
  split
  · exact h
  · refine ⟨nofun, nofun, h.shared.of_consumers rfl fun n => ?_⟩
    dsimp only
    rw [List.getElem?_mapIdx, Option.map_map]
    congr 1
    funext fetch
    simp only [Function.comp_apply]
    split <;> rfl

theorem Sound.step (r : SessionContentResolver) (a : ContentAction) (h : Sound r) :
    Sound (r.step a) := by
  cases a with
  | resolve ref signalAborted => exact h.resolveRef ref signalAborted
  | fetched fetch text => exact h.endFetch fetch text
  | store fetch => exact h.store fetch
  | conclude fetch => exact h.conclude fetch
  | react consumer => exact h.react consumer
  | abort consumer => exact h.abort consumer
  | dispose => exact h.dispose

/-! ## Aborts -/

/-- What holds if no call joins a fetch that settles with an `abortError`: such a fetch has lost its
consumers, or the resolver was disposed, and no consumer hears of an abort that is not its own. -/
structure OwnAborts (r : SessionContentResolver) : Prop where
  sound : Sound r
  doomed : r.disposed = false → ∀ (number : ℕ) (fetch : ContentFetch),
    r.fetches[number]? = some fetch → fetch.Doomed → fetch.consumers = []
  aborted : ∀ consumer ∈ r.consumers, .aborted ∈ consumer.outcomes →
    consumer.signalAborted = true ∨ r.disposed = true

/-- The fetch is aborted by a step. -/
def AbortedBy (r s : SessionContentResolver) (number : ℕ) : Prop :=
  (∃ fetch, r.fetches[number]? = some fetch ∧ fetch.aborted = false) ∧
    ∃ fetch, s.fetches[number]? = some fetch ∧ fetch.aborted = true

theorem not_abortedBy_set {n number : ℕ} {fetch next : ContentFetch}
    (hfetch : r.fetches[n]? = some fetch) (hfetches : s.fetches = r.fetches.set n next)
    (hsame : next.aborted = true → fetch.aborted = true) : ¬ AbortedBy r s number := by
  rintro ⟨⟨before, hbefore, hnot⟩, after, hafter, haborted⟩
  rw [hfetches, getElem?_set_some hfetch] at hafter
  split at hafter
  · rename_i heq
    cases hafter
    rw [heq, hfetch, Option.some.injEq] at hbefore
    rw [← hbefore, hsame haborted] at hnot
    cases hnot
  · rw [hbefore, Option.some.injEq] at hafter
    rw [← hafter, hnot] at haborted
    cases haborted

theorem not_abortedBy_of_eq (hfetches : s.fetches = r.fetches) : ¬ AbortedBy r s number := by
  rintro ⟨⟨before, hbefore, hnot⟩, after, hafter, haborted⟩
  rw [hfetches, hbefore, Option.some.injEq] at hafter
  rw [← hafter, hnot] at haborted
  cases haborted

theorem fetches_putCache (fetch : ContentFetch) (text : JsString) :
    ((r.release fetch).putCache fetch text).fetches = r.fetches := by
  rw [SessionContentResolver.putCache]
  split <;> rfl

theorem resolveRef_cases (r : SessionContentResolver) (ref : SessionContentRef)
    (signalAborted : Bool) :
    (∃ (s : SessionContentResolver) (outcome : ContentOutcome), s.fetches = r.fetches ∧
        s.consumers = r.consumers ∧ s.disposed = r.disposed ∧
        (outcome = .aborted → signalAborted = true) ∧
        r.resolveRef ref signalAborted = s.answer signalAborted outcome) ∨
      (∃ number fetch, r.disposed = false ∧ signalAborted = false ∧
        r.cache.get? ref.key = none ∧ r.inflight.get? ref.key = some number ∧
        r.fetches[number]? = some fetch ∧ fetch.ref = ref ∧
        r.resolveRef ref signalAborted = r.consume number fetch) ∨
      (∃ (s : SessionContentResolver) (fetch : ContentFetch),
        s.fetches = r.fetches ++ [fetch] ∧ s.consumers = r.consumers ∧
        s.disposed = r.disposed ∧ fetch.aborted = false ∧ fetch.stage = .pending ∧
        r.resolveRef ref signalAborted = s.consume r.fetches.length fetch) ∨
      r.resolveRef ref signalAborted = r := by
  rw [SessionContentResolver.resolveRef]
  split
  · exact .inl ⟨r, .failed, rfl, rfl, rfl, (fun h => by cases h), rfl⟩
  rename_i hlive
  split
  · rename_i hsignal
    exact .inl ⟨r, .aborted, rfl, rfl, rfl, fun _ => hsignal, rfl⟩
  rename_i hsignal
  split
  · rename_i cached hcached
    split
    · exact .inl ⟨{ r with cache := (r.cache.erase ref.key).insert ref.key cached },
        .text cached.text, rfl, rfl, rfl, (fun h => by cases h), rfl⟩
    · exact .inl ⟨r, .failed, rfl, rfl, rfl, (fun h => by cases h), rfl⟩
  rename_i hcache
  split
  · rename_i number hnumber
    split
    · rename_i fetch hfetch
      split
      · rename_i href
        exact .inr (.inl ⟨number, fetch, Bool.eq_false_iff.mpr hlive,
          Bool.eq_false_iff.mpr hsignal, hcache, hnumber, hfetch, href, rfl⟩)
      · exact .inl ⟨r, .failed, rfl, rfl, rfl, (fun h => by cases h), rfl⟩
    · exact .inr (.inr (.inr rfl))
  · have hevicted := (evictFor_spec r ref.byteLength).1
    rcases reserve_cases r ref with hrefused | ⟨-, hreserved⟩
    · rw [hrefused]
      exact .inl ⟨_, .failed, hevicted.fetches, hevicted.consumers, hevicted.disposed,
        (fun h => by cases h), rfl⟩
    · rw [hreserved]
      refine .inr (.inr (.inl ⟨{ r.evictFor ref.byteLength with
          reservedBytes := (r.evictFor ref.byteLength).reservedBytes + ref.byteLength
          reservedItems := (r.evictFor ref.byteLength).reservedItems + 1
          fetches := r.fetches ++
            [{ ref := ref, aborted := false, consumers := [], stage := .pending }]
          inflight := r.inflight.insert ref.key r.fetches.length }, _, rfl, hevicted.consumers,
        hevicted.disposed, rfl, rfl, ?_⟩))
      simp only [SessionContentResolver.startInflight, hevicted.fetches, hevicted.inflight]

theorem not_abortedBy_resolveRef (ref : SessionContentRef) (signalAborted : Bool) (number : ℕ) :
    ¬ AbortedBy r (r.resolveRef ref signalAborted) number := by
  rcases resolveRef_cases r ref signalAborted with ⟨s, outcome, hfetches, -, -, -, heq⟩ |
    ⟨n, fetch, -, -, -, -, hfetch, -, heq⟩ | ⟨s, fetch, hfetches, -, -, hnew, -, heq⟩ | heq
  · rw [heq]
    exact not_abortedBy_of_eq hfetches
  · rw [heq]
    exact not_abortedBy_set hfetch rfl id
  · rw [heq]
    rintro ⟨⟨before, hbefore, hnot⟩, after, hafter, haborted⟩
    have hne : number ≠ r.fetches.length := fun hlast => by
      rw [hlast, List.getElem?_eq_none (Nat.le_refl _)] at hbefore
      cases hbefore
    have hafter : (s.fetches.set r.fetches.length (fetch.add s.consumers.length))[number]? =
        some after := hafter
    rw [hfetches, List.getElem?_set_ne (Ne.symm hne), getElem?_concat, if_neg hne, hbefore,
      Option.some.injEq] at hafter
    rw [← hafter, hnot] at haborted
    cases haborted
  · rw [heq]
    exact not_abortedBy_of_eq rfl

theorem react_cases (r : SessionContentResolver) (c : ℕ) :
    r.react c = r ∨ ∃ consumer number fetch outcome, r.consumers[c]? = some consumer ∧
      consumer.fetch = some number ∧ consumer.settled = false ∧
      r.fetches[number]? = some fetch ∧ fetch.stage = .settled outcome ∧
      r.react c = r.settle c consumer number (fetch.remove c) outcome := by
  rw [SessionContentResolver.react]
  split
  · rename_i consumer hconsumer
    split
    · rename_i number hof
      split
      · rename_i fetch hfetch
        split
        · rename_i outcome hstage
          split
          · exact .inl rfl
          · rename_i hunsettled
            exact .inr ⟨consumer, number, fetch, outcome, hconsumer, hof,
              Bool.eq_false_iff.mpr hunsettled, hfetch, hstage, rfl⟩
        · exact .inl rfl
      · exact .inl rfl
    · exact .inl rfl
  · exact .inl rfl

/-- The consumer after its signal has been aborted. -/
def signaled (r : SessionContentResolver) (c : ℕ) (consumer : ContentConsumer) :
    SessionContentResolver :=
  { r with consumers := r.consumers.set c { consumer with signalAborted := true } }

theorem abort_cases (r : SessionContentResolver) (c : ℕ) :
    r.abort c = r ∨ (∃ consumer, r.consumers[c]? = some consumer ∧
        r.abort c = r.signaled c consumer) ∨
      ∃ consumer number fetch, r.consumers[c]? = some consumer ∧
        consumer.fetch = some number ∧ consumer.settled = false ∧
        r.fetches[number]? = some fetch ∧
        r.abort c = (r.signaled c consumer).settle c { consumer with signalAborted := true } number
          (fetch.leave c) .aborted := by
  rw [SessionContentResolver.abort]
  split
  · rename_i consumer hconsumer
    split
    · exact .inl rfl
    dsimp only
    split
    · exact .inr (.inl ⟨consumer, hconsumer, rfl⟩)
    · rename_i hunsettled
      split
      · rename_i number hof
        split
        · rename_i fetch hfetch
          exact .inr (.inr ⟨consumer, number, fetch, hconsumer, hof,
            Bool.eq_false_iff.mpr hunsettled, hfetch, rfl⟩)
        · exact .inr (.inl ⟨consumer, hconsumer, rfl⟩)
      · exact .inr (.inl ⟨consumer, hconsumer, rfl⟩)
  · exact .inl rfl

theorem consumers_of_leave {c : ℕ} (hbefore : fetch.aborted = false)
    (hafter : (fetch.leave c).aborted = true) : (fetch.leave c).consumers = [] := by
  rw [ContentFetch.leave] at hafter ⊢
  split
  · rename_i hempty
    exact List.isEmpty_iff.mp hempty
  · rename_i hmore
    rw [if_neg hmore] at hafter
    exact absurd (hbefore.symm.trans hafter) Bool.noConfusion

theorem abortedBy_step (h : Sound r) {a : ContentAction}
    (haborted : AbortedBy r (r.step a) number) :
    (r.step a).disposed = true ∨
      ∀ consumer ∈ (r.step a).consumers, consumer.fetch = some number →
        consumer.settled = true := by
  have hnext : Sound (r.step a) := Sound.step r a h
  -- Apart from a leave and a disposal no step aborts anything.
  cases a with
  | resolve ref signalAborted =>
    exact absurd haborted (not_abortedBy_resolveRef ref signalAborted number)
  | fetched n text =>
    refine absurd haborted ?_
    simp only [SessionContentResolver.step, SessionContentResolver.endFetch]
    split
    · rename_i fetch hfetch
      split
      · exact not_abortedBy_set hfetch rfl id
      · exact not_abortedBy_of_eq rfl
    · exact not_abortedBy_of_eq rfl
  | store n =>
    refine absurd haborted ?_
    simp only [SessionContentResolver.step, SessionContentResolver.store]
    split
    · rename_i fetch hfetch
      split
      · rename_i text hstage
        have hstored : (((r.release fetch).putCache fetch text).setStage n fetch
            (.stored text)).fetches = r.fetches.set n { fetch with stage := .stored text } :=
          congrArg (·.set n { fetch with stage := .stored text }) (fetches_putCache fetch text)
        exact not_abortedBy_set hfetch hstored id
      · exact not_abortedBy_of_eq rfl
    · exact not_abortedBy_of_eq rfl
  | conclude n =>
    refine absurd haborted ?_
    simp only [SessionContentResolver.step, SessionContentResolver.conclude]
    split
    · rename_i fetch hfetch
      split
      · exact not_abortedBy_set hfetch rfl id
      · exact not_abortedBy_set hfetch rfl id
      · exact not_abortedBy_set hfetch rfl id
      · exact not_abortedBy_of_eq rfl
    · exact not_abortedBy_of_eq rfl
  | react c =>
    refine absurd haborted ?_
    simp only [SessionContentResolver.step, SessionContentResolver.react]
    split
    · split
      · split
        · rename_i fetch hfetch
          split
          · split
            · exact not_abortedBy_of_eq rfl
            · exact not_abortedBy_set hfetch rfl id
          · exact not_abortedBy_of_eq rfl
        · exact not_abortedBy_of_eq rfl
      · exact not_abortedBy_of_eq rfl
    · exact not_abortedBy_of_eq rfl
  | abort c =>
    refine .inr fun found hfound hofFound => ?_
    simp only [SessionContentResolver.step] at haborted hnext hfound
    rcases abort_cases r c with heq | ⟨consumer, -, heq⟩ |
      ⟨consumer, n, fetch, hconsumer, hof, hunsettled, hfetch, heq⟩
    · rw [heq] at haborted
      exact absurd haborted (not_abortedBy_of_eq rfl)
    · rw [heq] at haborted
      exact absurd haborted (not_abortedBy_of_eq rfl)
    · rw [heq] at haborted hnext hfound
      obtain ⟨⟨before, hbefore, hnot⟩, after, hafter, hyes⟩ := haborted
      have hget := (getElem?_set_some (j := number) (b := fetch.leave c) hfetch).symm.trans hafter
      split at hget
      · rename_i hnumber
        cases hget
        rw [hnumber, hfetch, Option.some.injEq] at hbefore
        have hnone := consumers_of_leave (hbefore ▸ hnot) hyes
        obtain ⟨k, hk⟩ := List.getElem?_of_mem hfound
        by_contra hwaiting
        have hmember := (hnext.shared.members number _ hafter k).mpr
          ⟨found, hk, hofFound, Bool.eq_false_iff.mpr hwaiting⟩
        rw [hnone] at hmember
        exact absurd hmember List.not_mem_nil
      · rw [hbefore, Option.some.injEq] at hget
        rw [← hget, hnot] at hyes
        cases hyes
  | dispose =>
    left
    simp only [SessionContentResolver.step, SessionContentResolver.dispose]
    split
    · assumption
    · rfl

theorem doomed_set {n : ℕ} {fetch next : ContentFetch} (hfetch : r.fetches[n]? = some fetch)
    (h : ∀ (number : ℕ) (found : ContentFetch), r.fetches[number]? = some found →
      found.Doomed → found.consumers = [])
    (hnext : next.Doomed → next.consumers = []) (number : ℕ) (found : ContentFetch)
    (hfound : (r.fetches.set n next)[number]? = some found) (hdoomed : found.Doomed) :
    found.consumers = [] := by
  rw [getElem?_set_some hfetch] at hfound
  split at hfound
  · cases hfound
    exact hnext hdoomed
  · exact h number found hfound hdoomed

/-- A step that changes the stage of one fetch, and no other fetch and no consumer; the fetch is
doomed behind it only if it was. -/
structure Staged (r s : SessionContentResolver) (number : ℕ) (fetch : ContentFetch)
    (stage : ContentFetchStage) : Prop where
  current : r.fetches[number]? = some fetch
  fetches : s.fetches = r.fetches.set number { fetch with stage := stage }
  consumers : s.consumers = r.consumers
  disposed : s.disposed = r.disposed
  doomed : ({ fetch with stage := stage } : ContentFetch).Doomed → fetch.Doomed

theorem endFetch_cases (r : SessionContentResolver) (number : ℕ) (text : Option JsString) :
    r.endFetch number text = r ∨
      ∃ fetch stage, Staged r (r.endFetch number text) number fetch stage := by
  rw [SessionContentResolver.endFetch]
  split
  · rename_i fetch hfetch
    split
    · rename_i hpending
      refine .inr ⟨fetch, _, hfetch, rfl, rfl, rfl, fun hdoomed => ?_⟩
      rw [ContentFetch.Doomed, hpending]
      simp only [ContentFetch.Doomed] at hdoomed
      cases text with
      | some text => cases hdoomed
      | none =>
        by_contra hnot
        rw [if_neg hnot] at hdoomed
        cases hdoomed
    · exact .inl rfl
  · exact .inl rfl

theorem store_cases (r : SessionContentResolver) (number : ℕ) :
    r.store number = r ∨ ∃ fetch stage, Staged r (r.store number) number fetch stage := by
  rw [SessionContentResolver.store]
  split
  · rename_i fetch hfetch
    split
    · rename_i text hstage
      refine .inr ⟨fetch, .stored text, hfetch, ?_, ?_, ?_, False.elim⟩
      · exact congrArg (·.set number { fetch with stage := .stored text })
          (fetches_putCache fetch text)
      · simp only [SessionContentResolver.setStage, SessionContentResolver.putCache]
        split <;> rfl
      · simp only [SessionContentResolver.setStage, SessionContentResolver.putCache]
        split <;> rfl
    · exact .inl rfl
  · exact .inl rfl

theorem conclude_cases (r : SessionContentResolver) (number : ℕ) :
    r.conclude number = r ∨ ∃ fetch stage, Staged r (r.conclude number) number fetch stage := by
  rw [SessionContentResolver.conclude]
  split
  · rename_i fetch hfetch
    split
    · exact .inr ⟨fetch, _, hfetch, rfl, rfl, rfl, nofun⟩
    · rename_i hstage
      refine .inr ⟨fetch, _, hfetch, rfl, rfl, rfl, fun _ => ?_⟩
      rw [ContentFetch.Doomed, hstage]
    · exact .inr ⟨fetch, _, hfetch, rfl, rfl, rfl, nofun⟩
    · exact .inl rfl
  · exact .inl rfl

theorem OwnAborts.staged (h : OwnAborts r) (hsound : Sound s) {stage : ContentFetchStage}
    (hstaged : Staged r s number fetch stage) : OwnAborts s := by
  refine ⟨hsound, fun hlive n found hfound hdoomed => ?_, fun consumer hconsumer haborted => ?_⟩
  · have hdoomed' := h.doomed (hstaged.disposed ▸ hlive)
    have hnext : ({ fetch with stage := stage } : ContentFetch).Doomed → fetch.consumers = [] :=
      fun hnext => hdoomed' number fetch hstaged.current (hstaged.doomed hnext)
    rw [hstaged.fetches] at hfound
    exact doomed_set hstaged.current hdoomed' hnext n found hfound hdoomed
  · rw [hstaged.disposed]
    exact h.aborted consumer (hstaged.consumers ▸ hconsumer) haborted

theorem OwnAborts.resolveRef (h : OwnAborts r) {ref : SessionContentRef} {signalAborted : Bool}
    (htime : r.InTime (.resolve ref signalAborted)) :
    OwnAborts (r.resolveRef ref signalAborted) := by
  have hsound := h.sound.resolveRef ref signalAborted
  rcases resolveRef_cases r ref signalAborted with
    ⟨s, outcome, hfetches, hconsumers, hdisposed, hsignal, heq⟩ |
    ⟨n, fetch, hlive, rfl, hcache, hinflight, hfetch, href, heq⟩ |
    ⟨s, fetch, hfetches, hconsumers, hdisposed, hnot, hpending, heq⟩ | heq
  · rw [heq] at hsound ⊢
    refine ⟨hsound, fun hlive n found hfound => ?_, fun consumer hconsumer haborted => ?_⟩
    · exact h.doomed (hdisposed ▸ hlive) n found (hfetches ▸ hfound)
    · change _ ∨ s.disposed = true
      rw [hdisposed]
      rcases List.mem_append.mp hconsumer with hold | hnew
      · exact h.aborted consumer (hconsumers ▸ hold) haborted
      · rw [List.mem_singleton.mp hnew] at haborted ⊢
        exact .inl (hsignal (List.mem_singleton.mp haborted).symm)
  · have hfine := htime hlive hcache n hinflight fetch hfetch href
    rw [heq] at hsound ⊢
    refine ⟨hsound, fun hlive number found hfound hdoomed => ?_,
      fun consumer hconsumer haborted => ?_⟩
    · have hjoined : (fetch.add r.consumers.length).Doomed →
          (fetch.add r.consumers.length).consumers = [] := fun hadd => absurd hadd hfine
      exact doomed_set hfetch (h.doomed hlive) hjoined number found hfound hdoomed
    · rcases List.mem_append.mp hconsumer with hold | hnew
      · exact h.aborted consumer hold haborted
      · rw [List.mem_singleton.mp hnew] at haborted
        cases haborted
  · rw [heq] at hsound ⊢
    have hfine : ∀ c, ¬ (fetch.add c).Doomed := by
      intro c
      rw [ContentFetch.Doomed, ContentFetch.add, hpending]
      exact Bool.eq_false_iff.mp hnot
    refine ⟨hsound, fun hlive number found hfound hdoomed => ?_,
      fun consumer hconsumer haborted => ?_⟩
    · have hfound : (s.fetches.set r.fetches.length (fetch.add s.consumers.length))[number]? =
          some found := hfound
      have hlast : s.fetches[r.fetches.length]? = some fetch :=
        hfetches ▸ List.getElem?_concat_length
      rw [getElem?_set_some hlast] at hfound
      split at hfound
      · cases hfound
        exact absurd hdoomed (hfine _)
      · rename_i hne
        rw [hfetches, getElem?_concat, if_neg hne] at hfound
        exact h.doomed (hdisposed ▸ hlive) number found hfound hdoomed
    · change _ ∨ s.disposed = true
      rw [hdisposed]
      rcases List.mem_append.mp hconsumer with hold | hnew
      · exact h.aborted consumer (hconsumers ▸ hold) haborted
      · rw [List.mem_singleton.mp hnew] at haborted
        cases haborted
  · rw [heq]
    exact h

theorem OwnAborts.react (h : OwnAborts r) (c : ℕ) : OwnAborts (r.react c) := by
  have hsound := h.sound.react c
  rcases react_cases r c with heq |
    ⟨consumer, n, fetch, outcome, hconsumer, hof, hunsettled, hfetch, hstage, heq⟩
  · rw [heq]
    exact h
  · rw [heq] at hsound ⊢
    refine ⟨hsound, fun hlive number found hfound hdoomed => ?_, fun found hfound haborted => ?_⟩
    · refine doomed_set hfetch (h.doomed hlive) (fun hremoved => ?_) number found hfound hdoomed
      have hnone := h.doomed hlive n fetch hfetch hremoved
      simp only [ContentFetch.remove, hnone, List.filter_nil]
    · rcases List.mem_or_eq_of_mem_set hfound with hold | rfl
      · exact h.aborted found hold haborted
      · rcases List.mem_append.mp haborted with hbefore | hnow
        · exact h.aborted consumer (List.mem_of_getElem? hconsumer) hbefore
        · right
          by_contra hlive
          have hdoomed : fetch.Doomed := by
            rw [ContentFetch.Doomed, hstage]
            exact (List.mem_singleton.mp hnow).symm
          have hmember := (h.sound.shared.members n fetch hfetch c).mpr
            ⟨consumer, hconsumer, hof, hunsettled⟩
          rw [h.doomed (Bool.eq_false_iff.mpr hlive) n fetch hfetch hdoomed] at hmember
          exact absurd hmember List.not_mem_nil

theorem OwnAborts.abort (h : OwnAborts r) (c : ℕ) : OwnAborts (r.abort c) := by
  have hsound := h.sound.abort c
  rcases abort_cases r c with heq | ⟨consumer, hconsumer, heq⟩ |
    ⟨consumer, n, fetch, hconsumer, hof, hunsettled, hfetch, heq⟩
  · rw [heq]
    exact h
  · rw [heq] at hsound ⊢
    refine ⟨hsound, h.doomed, fun found hfound haborted => ?_⟩
    rcases List.mem_or_eq_of_mem_set hfound with hold | rfl
    · exact h.aborted found hold haborted
    · exact .inl rfl
  · rw [heq] at hsound ⊢
    refine ⟨hsound, fun hlive number found hfound hdoomed => ?_, fun found hfound haborted => ?_⟩
    · refine doomed_set hfetch (h.doomed hlive) (fun hleft => ?_) number found hfound hdoomed
      by_contra hmore
      rw [ContentFetch.leave] at hleft hmore
      split at hleft
      · rename_i hempty
        rw [if_pos hempty] at hmore
        exact hmore (List.isEmpty_iff.mp hempty)
      · rename_i hremains
        rw [if_neg hremains] at hmore
        have hnone := h.doomed hlive n fetch hfetch hleft
        exact hmore (by simp only [ContentFetch.remove, hnone, List.filter_nil])
    · rcases List.mem_or_eq_of_mem_set hfound with hold | rfl
      · rcases List.mem_or_eq_of_mem_set hold with hold | rfl
        · exact h.aborted found hold haborted
        · exact .inl rfl
      · exact .inl rfl

theorem OwnAborts.step (r : SessionContentResolver) (a : ContentAction) (htime : r.InTime a)
    (h : OwnAborts r) : OwnAborts (r.step a) := by
  have hsound := Sound.step r a h.sound
  cases a with
  | resolve ref signalAborted => exact h.resolveRef htime
  | fetched n text =>
    rcases endFetch_cases r n text with heq | ⟨fetch, stage, hstaged⟩
    · change OwnAborts (r.endFetch n text)
      rw [heq]
      exact h
    · exact h.staged hsound hstaged
  | store n =>
    rcases store_cases r n with heq | ⟨fetch, stage, hstaged⟩
    · change OwnAborts (r.store n)
      rw [heq]
      exact h
    · exact h.staged hsound hstaged
  | conclude n =>
    rcases conclude_cases r n with heq | ⟨fetch, stage, hstaged⟩
    · change OwnAborts (r.conclude n)
      rw [heq]
      exact h
    · exact h.staged hsound hstaged
  | react c => exact h.react c
  | abort c => exact h.abort c
  | dispose =>
    have hdisposed : r.dispose.disposed = true := by
      rw [SessionContentResolver.dispose]
      split
      · assumption
      · rfl
    exact ⟨hsound, fun hlive => absurd (hdisposed.symm.trans hlive) Bool.noConfusion,
      fun _ _ _ => .inr hdisposed⟩

/-! ## Settlement -/

/-- The consumer has settled. -/
def HasSettled (r : SessionContentResolver) (c : ℕ) : Prop :=
  ∃ consumer, r.consumers[c]? = some consumer ∧ consumer.settled = true

/-- The consumer waits for the fetch. -/
structure WaitsFor (r : SessionContentResolver) (c number : ℕ) (fetch : ContentFetch) : Prop where
  consumer : ∃ consumer, r.consumers[c]? = some consumer ∧ consumer.fetch = some number ∧
    consumer.settled = false
  fetch : r.fetches[number]? = some fetch

theorem WaitsFor.react {c number : ℕ} {outcome : ContentOutcome}
    (h : WaitsFor r c number fetch) (hstage : fetch.stage = .settled outcome) :
    HasSettled (r.react c) c := by
  obtain ⟨consumer, hconsumer, hof, hunsettled⟩ := h.consumer
  simp only [SessionContentResolver.react, hconsumer, hof, h.fetch, hstage, hunsettled]
  exact ⟨_, (getElem?_set_some hconsumer).trans (if_pos rfl), rfl⟩

theorem WaitsFor.staged {c number : ℕ} {stage : ContentFetchStage} (h : WaitsFor r c number fetch)
    (hconsumers : s.consumers = r.consumers)
    (hfetches : s.fetches = r.fetches.set number { fetch with stage := stage }) :
    WaitsFor s c number { fetch with stage := stage } :=
  ⟨hconsumers ▸ h.consumer, hfetches ▸ (getElem?_set_some h.fetch).trans (if_pos rfl)⟩

/-- Owed steps, and no others, settle the consumer. -/
def Settles (outcome : ℕ → Option JsString) (r : SessionContentResolver) (c : ℕ) : Prop :=
  ∃ rest, (∀ a ∈ rest, Owed outcome a) ∧ HasSettled (runFrom step r rest) c

variable {outcome : ℕ → Option JsString}

theorem Settles.head {c : ℕ} (a : ContentAction) (howed : Owed outcome a)
    (h : Settles outcome (r.step a) c) : Settles outcome r c := by
  obtain ⟨rest, hrest, hsettled⟩ := h
  exact ⟨a :: rest, List.forall_mem_cons.mpr ⟨howed, hrest⟩, hsettled⟩

/-- A consumer hears of a fetch that has settled. -/
theorem WaitsFor.settles_of_settled {c number : ℕ} {ended : ContentOutcome}
    (h : WaitsFor r c number fetch) (hstage : fetch.stage = .settled ended) :
    Settles outcome r c :=
  .head (.react c) trivial ⟨[], nofun, h.react hstage⟩

/-- The `finally` callback is the last one before the consumer. -/
theorem WaitsFor.settles_of_stored {c number : ℕ} (h : WaitsFor r c number fetch)
    (hstage : (∃ text, fetch.stage = .stored text) ∨ fetch.stage = .fetched .aborted ∨
      fetch.stage = .fetched .failed) : Settles outcome r c := by
  have hnext : ∃ ended, WaitsFor (r.conclude number) c number
      { fetch with stage := .settled ended } := by
    rcases hstage with ⟨text, hstage⟩ | hstage | hstage
    · refine ⟨.text text, h.staged ?_ ?_⟩
      all_goals
        simp only [SessionContentResolver.conclude, h.fetch, hstage]
        rfl
    · refine ⟨.aborted, h.staged ?_ ?_⟩
      all_goals
        simp only [SessionContentResolver.conclude, h.fetch, hstage]
        rfl
    · refine ⟨.failed, h.staged ?_ ?_⟩
      all_goals
        simp only [SessionContentResolver.conclude, h.fetch, hstage]
        rfl
  obtain ⟨ended, hnext⟩ := hnext
  exact .head (.conclude number) trivial (hnext.settles_of_settled rfl)

/-- A text passes the `then` callback first, an error does not. -/
theorem WaitsFor.settles_of_fetched {c number : ℕ}
    (h : WaitsFor r c number fetch) {ended : ContentOutcome}
    (hstage : fetch.stage = .fetched ended) : Settles outcome r c := by
  cases ended with
  | text text =>
    have hnext : WaitsFor (r.store number) c number { fetch with stage := .stored text } := by
      refine h.staged ?_ ?_
      · simp only [SessionContentResolver.store, h.fetch, hstage,
          SessionContentResolver.setStage, SessionContentResolver.putCache]
        split <;> rfl
      · simp only [SessionContentResolver.store, h.fetch, hstage,
          SessionContentResolver.setStage, fetches_putCache]
    exact .head (.store number) trivial (hnext.settles_of_stored (.inl ⟨text, rfl⟩))
  | aborted => exact h.settles_of_stored (.inr (.inl hstage))
  | failed => exact h.settles_of_stored (.inr (.inr hstage))

/-- The request ends as the environment has it, and its continuations reach the consumer. -/
theorem WaitsFor.settles {c number : ℕ} (h : WaitsFor r c number fetch) :
    Settles outcome r c := by
  cases hstage : fetch.stage with
  | pending =>
    have hnext : ∃ ended, WaitsFor (r.endFetch number (outcome number)) c number
        { fetch with stage := .fetched ended } := by
      cases outcome number with
      | some text =>
        refine ⟨.text text, h.staged ?_ ?_⟩
        all_goals
          simp only [SessionContentResolver.endFetch, h.fetch, hstage]
          rfl
      | none =>
        refine ⟨if fetch.aborted then .aborted else .failed, h.staged ?_ ?_⟩
        all_goals
          simp only [SessionContentResolver.endFetch, h.fetch, hstage]
          rfl
    obtain ⟨ended, hnext⟩ := hnext
    exact .head (.fetched number (outcome number)) rfl (hnext.settles_of_fetched rfl)
  | fetched ended => exact h.settles_of_fetched hstage
  | stored text => exact h.settles_of_stored (.inl ⟨text, hstage⟩)
  | settled ended => exact h.settles_of_settled hstage

/-- Every consumer that has not settled is settled by what its fetch still owes. -/
theorem Sound.settles (h : Sound r) {c : ℕ} (hc : c < r.consumers.length) :
    Settles outcome r c := by
  have hconsumer : r.consumers[c]? = some r.consumers[c] := List.getElem?_eq_getElem hc
  cases hsettled : r.consumers[c].settled with
  | true => exact ⟨[], nofun, _, hconsumer, hsettled⟩
  | false =>
    obtain ⟨number, fetch, hof, hfetch⟩ :=
      h.shared.waits _ (List.getElem_mem hc) hsettled
    exact WaitsFor.settles ⟨⟨_, hconsumer, hof, hsettled⟩, hfetch⟩

/-- The limits of a resolver are those it was created with. -/
def HasLimits (maxCacheBytes maxCacheItems : ℕ) (r : SessionContentResolver) : Prop :=
  r.maxCacheBytes = maxCacheBytes ∧ r.maxCacheItems = maxCacheItems

theorem HasLimits.resolveRef {maxCacheBytes maxCacheItems : ℕ}
    (h : HasLimits maxCacheBytes maxCacheItems r) (ref : SessionContentRef) (signalAborted : Bool) :
    HasLimits maxCacheBytes maxCacheItems (r.resolveRef ref signalAborted) := by
  rw [SessionContentResolver.resolveRef]
  split
  · exact h
  split
  · exact h
  split
  · split
    · exact h
    · exact h
  split
  · split
    · split
      · exact h
      · exact h
    · exact h
  · have hevicted := (evictFor_spec r ref.byteLength).1
    have hkept : HasLimits maxCacheBytes maxCacheItems (r.evictFor ref.byteLength) :=
      ⟨hevicted.bytes.trans h.1, hevicted.items.trans h.2⟩
    rcases reserve_cases r ref with hrefused | ⟨-, hreserved⟩
    · rw [hrefused]
      exact hkept
    · rw [hreserved]
      exact hkept

theorem HasLimits.step {maxCacheBytes maxCacheItems : ℕ} (r : SessionContentResolver)
    (a : ContentAction) (h : HasLimits maxCacheBytes maxCacheItems r) :
    HasLimits maxCacheBytes maxCacheItems (r.step a) := by
  cases a with
  | resolve ref signalAborted => exact h.resolveRef ref signalAborted
  | fetched n text =>
    simp only [SessionContentResolver.step, SessionContentResolver.endFetch]
    split
    · split <;> exact h
    · exact h
  | store n =>
    simp only [SessionContentResolver.step, SessionContentResolver.store,
      SessionContentResolver.putCache]
    split
    · split
      · split <;> exact h
      · exact h
    · exact h
  | conclude n =>
    simp only [SessionContentResolver.step, SessionContentResolver.conclude]
    split
    · split <;> exact h
    · exact h
  | react c =>
    change HasLimits maxCacheBytes maxCacheItems (r.react c)
    rcases react_cases r c with heq | ⟨_, _, _, _, -, -, -, -, -, heq⟩ <;> rw [heq] <;> exact h
  | abort c =>
    change HasLimits maxCacheBytes maxCacheItems (r.abort c)
    rcases abort_cases r c with heq | ⟨_, -, heq⟩ | ⟨_, _, _, -, -, -, -, heq⟩ <;> rw [heq] <;>
      exact h
  | dispose =>
    simp only [SessionContentResolver.step, SessionContentResolver.dispose]
    split <;> exact h

/-- In every run of a resolver a consumer settles once: never twice, and if it has not, the end of
its request, whatever it is, and the continuations behind it settle it. A step aborts a fetch only
when all its consumers have settled, or when it disposes the resolver, before which the counters are
exact and within the limits. If no call of the run joins a fetch that settles with an `abortError`,
a consumer is rejected with one only if its own signal was aborted or the resolver was disposed. -/
theorem shared_content_runs (maxCacheBytes maxCacheItems : ℕ) (actions : List ContentAction) :
    let r := runFrom step (create maxCacheBytes maxCacheItems) actions
    (∀ consumer ∈ r.consumers,
        consumer.outcomes.length = if consumer.settled then 1 else 0) ∧
      (∀ c < r.consumers.length, ∀ outcome : ℕ → Option JsString, Settles outcome r c) ∧
      (∀ a number, AbortedBy r (r.step a) number → (r.step a).disposed = true ∨
        ∀ consumer ∈ (r.step a).consumers, consumer.fetch = some number →
          consumer.settled = true) ∧
      (HasLimits maxCacheBytes maxCacheItems r ∧ (r.disposed = false → Accounted r)) ∧
      (RunMeets step InTime (create maxCacheBytes maxCacheItems) actions →
        ∀ consumer ∈ r.consumers, .aborted ∈ consumer.outcomes →
          consumer.signalAborted = true ∨ r.disposed = true) := by
  have hcreate := sound_create maxCacheBytes maxCacheItems
  have hsound : Sound (runFrom step (create maxCacheBytes maxCacheItems) actions) :=
    runFrom_invariant Sound.step actions hcreate
  refine ⟨hsound.shared.once, fun c hc outcome => hsound.settles hc,
    fun a number haborted => abortedBy_step hsound haborted,
    ⟨runFrom_invariant HasLimits.step actions ⟨rfl, rfl⟩, hsound.accounted⟩, fun hmeets => ?_⟩
  have hown : OwnAborts (create maxCacheBytes maxCacheItems) := by
    refine ⟨hcreate, fun _ number fetch hfetch => ?_, nofun⟩
    cases hfetch
  exact (RunMeets.invariant OwnAborts.step hmeets hown).aborted

/-- The second call joins the fetch that the first one has left, and is rejected with an
`abortError` although its signal is not aborted. -/
theorem foreign_abort : ¬ ∀ (maxCacheBytes maxCacheItems : ℕ) (actions : List ContentAction),
    ∀ consumer ∈ (runFrom step (create maxCacheBytes maxCacheItems) actions).consumers,
      .aborted ∈ consumer.outcomes → consumer.signalAborted = true ∨
        (runFrom step (create maxCacheBytes maxCacheItems) actions).disposed = true := by
  intro h
  let ref : SessionContentRef := { serverEpoch := js "e", sha256 := js "d", byteLength := 1 }
  have hsecond := h 8 2 [.resolve ref false, .abort 0, .resolve ref false, .fetched 0 none,
    .conclude 0, .react 1]
    { fetch := some 0, signalAborted := false, settled := true, outcomes := [.aborted] }
    (by decide +kernel) (by decide)
  exact absurd hsecond (by decide +kernel)

end SessionContentResolver

end PiAgentWeb
