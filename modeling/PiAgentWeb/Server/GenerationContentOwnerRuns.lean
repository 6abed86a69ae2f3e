import PiAgentWeb.Library.Custody
import PiAgentWeb.Server.GenerationContentOwner

/-!
# Every adopted hold is accounted for

An owner keeps its holds apart: at most one primary hold for each content key, and the duplicates,
which wait for their clean-up. A hold leaves the owner only when its release succeeds, and a hold
has at most one release in flight, so that nothing is lost and nothing is released twice. A close
reports success only after the owner has let go of every hold.
-/

namespace PiAgentWeb

namespace GenerationContentOwner

/-- The map of an open owner files each primary hold under its content key. -/
def Filed (byContentKey : InsertionMap (ContentNamespace × JsString) OwnedContent)
    (primaryHolds : List EpochContentHold) : Prop :=
  ∀ key, byContentKey.get? key =
    (primaryHolds.find? fun hold => contentKey hold.ref == key).map
      fun hold => { ref := hold.ref, hold }

variable {hold : EpochContentHold}

theorem Filed.insert {byContentKey : InsertionMap (ContentNamespace × JsString) OwnedContent}
    {primaryHolds : List EpochContentHold} (h : Filed byContentKey primaryHolds)
    (hnew : byContentKey.get? (contentKey hold.ref) = none) :
    Filed (byContentKey.insert (contentKey hold.ref) { ref := hold.ref, hold })
      (primaryHolds ++ [hold]) := by
  intro key
  have hfind := h (contentKey hold.ref)
  rw [hnew] at hfind
  rw [InsertionMap.get?_insert, List.find?_append]
  by_cases hkey : key = contentKey hold.ref
  · subst hkey
    have hnone := Option.map_eq_none_iff.mp hfind.symm
    simp [hnone]
  · rw [if_neg hkey, h key]
    have hbeq : (contentKey hold.ref == key) = false := by simpa using Ne.symm hkey
    simp [hbeq]

theorem Filed.not_mem {byContentKey : InsertionMap (ContentNamespace × JsString) OwnedContent}
    {primaryHolds : List EpochContentHold} (h : Filed byContentKey primaryHolds)
    {key : ContentNamespace × JsString} (hnew : byContentKey.get? key = none) :
    key ∉ primaryHolds.map fun hold => contentKey hold.ref := by
  have hfind := h key
  rw [hnew] at hfind
  have hnone := List.find?_eq_none.mp (Option.map_eq_none_iff.mp hfind.symm)
  intro hmem
  obtain ⟨hold, hhold, rfl⟩ := List.mem_map.mp hmem
  exact hnone hold hhold (by simp)

/-- What the preflight of an adoption has established for the pairs it has seen. -/
structure Prepared (owner : GenerationContentOwner) (seen : List EpochContentHold)
    (prepared : PreparedAdoption) : Prop where
  seenHolds : prepared.seenHolds = seen
  nodup : seen.Nodup
  fresh : ∀ hold ∈ seen, hold ∉ owner.ownedHolds
  perm : (prepared.additions.map (·.hold) ++ prepared.duplicates).Perm seen
  exact : ∀ entry ∈ prepared.additions, entry.ref = entry.hold.ref
  staged : Filed prepared.stagedByContentKey (prepared.additions.map (·.hold))
  keys : (prepared.additions.map fun entry => contentKey entry.hold.ref).Nodup
  unfiled : ∀ entry ∈ prepared.additions,
    owner.byContentKey.get? (contentKey entry.hold.ref) = none

theorem Prepared.entry {owner : GenerationContentOwner} {seen : List EpochContentHold}
    {prepared next : PreparedAdoption} (h : owner.Prepared seen prepared)
    {ref : EpochStoredContentRef} (hnext : owner.prepareEntry prepared ref hold = some next) :
    owner.Prepared (seen ++ [hold]) next := by
  unfold prepareEntry at hnext
  split at hnext
  · cases hnext
  · rename_i hexact
    have href : ref = hold.ref := by
      have := (Bool.or_eq_false_iff.mp (Bool.not_eq_true _ ▸ hexact)).2
      simpa using this
    subst href
    split at hnext
    · cases hnext
    · rename_i hfresh
      rw [not_or, h.seenHolds] at hfresh
      have hnodup : (seen ++ [hold]).Nodup := by
        rw [List.nodup_append_comm]
        exact List.nodup_cons.mpr ⟨hfresh.1, h.nodup⟩
      have howned : ∀ other ∈ seen ++ [hold], other ∉ owner.ownedHolds := by
        intro other hother
        rcases List.mem_append.mp hother with hold' | hnew
        · exact h.fresh other hold'
        · rw [List.mem_singleton.mp hnew]; exact hfresh.2
      dsimp only at hnext
      split at hnext
      · split at hnext
        · cases hnext
        · cases hnext
          refine ⟨by rw [h.seenHolds], hnodup, howned, ?_, h.exact, h.staged, h.keys, h.unfiled⟩
          simpa only [List.append_assoc] using h.perm.append_right [hold]
      · rename_i hlookup
        cases hnext
        obtain ⟨hfiled, hstaged⟩ := Option.or_eq_none_iff.mp hlookup
        refine ⟨by rw [h.seenHolds], hnodup, howned, ?_, ?_, ?_, ?_, ?_⟩
        · rw [List.map_append, List.append_assoc]
          have hswap : ([hold] ++ prepared.duplicates).Perm (prepared.duplicates ++ [hold]) :=
            List.perm_append_comm
          refine (hswap.append_left _).trans ?_
          simpa only [List.append_assoc] using h.perm.append_right [hold]
        · intro entry hentry
          rcases List.mem_append.mp hentry with hold' | hnew
          · exact h.exact entry hold'
          · rw [List.mem_singleton.mp hnew]
        · rw [List.map_append]
          exact h.staged.insert hstaged
        · rw [List.map_append, List.nodup_append_comm]
          have hunused := h.staged.not_mem hstaged
          rw [List.map_map] at hunused
          exact List.nodup_cons.mpr ⟨hunused, h.keys⟩
        · intro entry hentry
          rcases List.mem_append.mp hentry with hold' | hnew
          · exact h.unfiled entry hold'
          · rw [List.mem_singleton.mp hnew]; exact hfiled

theorem Prepared.entries {owner : GenerationContentOwner}
    {pairs : List (EpochStoredContentRef × EpochContentHold)}
    {seen : List EpochContentHold} {prepared next : PreparedAdoption}
    (h : owner.Prepared seen prepared) (hnext : owner.prepareEntries prepared pairs = some next) :
    owner.Prepared (seen ++ pairs.map (·.2)) next := by
  induction pairs generalizing seen prepared with
  | nil =>
    cases hnext
    simpa using h
  | cons pair rest ih =>
    obtain ⟨ref, hold⟩ := pair
    simp only [prepareEntries] at hnext
    cases hentry : owner.prepareEntry prepared ref hold with
    | none => rw [hentry] at hnext; cases hnext
    | some middle =>
      rw [hentry] at hnext
      simpa only [List.map_cons, List.append_assoc, List.singleton_append] using
        ih (h.entry hentry) hnext

theorem prepareAdoption_prepared {owner : GenerationContentOwner} {lease : PiPayloadLease}
    {prepared : PreparedAdoption}
    (h : owner.prepareAdoption lease.refs lease.holds = some prepared) :
    owner.Prepared lease.holds prepared := by
  have hempty : owner.Prepared [] {} :=
    ⟨rfl, List.nodup_nil, by simp, .refl _, by simp, fun key => rfl, List.nodup_nil, by simp⟩
  unfold prepareAdoption at h
  split at h
  · cases h
  · have hall := hempty.entries h
    rwa [List.nil_append, List.map_snd_zip (by simp [PiPayloadLease.refs])] at hall

/-- No clean-up of a duplicate is in flight. -/
def CleanupsSettled (owner : GenerationContentOwner) : Prop :=
  ∀ hold, (hold, false) ∉ owner.duplicateCleanupInFlight

/-- What a release attempt has reached: an attempt without failures has let go of everything that
is behind it. -/
def AttemptKeeps (owner : GenerationContentOwner) : Option ReleaseAttempt → Prop
  | none => True
  | some (.awaitingDuplicates cleanups) => owner.state = .closing ∧
      ∀ hold, (hold, false) ∈ owner.duplicateCleanupInFlight → hold ∈ cleanups
  | some (.retryingDuplicates inFlight failures) => owner.state = .closing ∧
      owner.CleanupsSettled ∧ (∀ hold ∈ inFlight, hold ∈ owner.duplicateHolds) ∧
      (failures = 0 → ∀ hold ∈ owner.duplicateHolds, hold ∈ inFlight)
  | some (.releasingPrimary index failures) => owner.state = .closing ∧
      owner.CleanupsSettled ∧
      (∃ hold, owner.primaryHolds[index]? = some hold ∧ hold ∈ owner.ownedHolds) ∧
      (failures = 0 → owner.duplicateHolds = [] ∧
        ∀ i hold, index < i → owner.primaryHolds[i]? = some hold → hold ∉ owner.ownedHolds)
  | some (.settled true) => owner.state = .closed
  | some (.settled false) => owner.state = .closing ∧ owner.CleanupsSettled

theorem AttemptKeeps.mono (owner owner' : GenerationContentOwner)
    (hstate : owner'.state = owner.state) (hprimary : owner'.primaryHolds = owner.primaryHolds)
    (hduplicates : owner'.duplicateHolds = owner.duplicateHolds)
    (howned : owner'.ownedHolds = owner.ownedHolds)
    (hsub : ∀ hold, (hold, false) ∈ owner'.duplicateCleanupInFlight →
      (hold, false) ∈ owner.duplicateCleanupInFlight) :
    ∀ {promise : Option ReleaseAttempt}, owner.AttemptKeeps promise → owner'.AttemptKeeps promise
  | none, _ => trivial
  | some (.awaitingDuplicates _), h => ⟨hstate.trans h.1, fun hold hhold =>
    h.2 hold (hsub hold hhold)⟩
  | some (.retryingDuplicates _ _), h =>
    ⟨hstate.trans h.1, fun hold hhold => h.2.1 hold (hsub hold hhold), hduplicates ▸ h.2.2⟩
  | some (.releasingPrimary _ _), h =>
    ⟨hstate.trans h.1, fun hold hhold => h.2.1 hold (hsub hold hhold),
      by rw [hprimary, howned]; exact h.2.2.1,
      by rw [hprimary, howned, hduplicates]; exact h.2.2.2⟩
  | some (.settled true), h => hstate.trans h
  | some (.settled false), h => ⟨hstate.trans h.1, fun hold hhold => h.2 hold (hsub hold hhold)⟩

theorem poison_state (owner : GenerationContentOwner) :
    owner.poison.state = .poisoned ∨
      owner.poison.state = owner.state ∧ owner.state ≠ .active ∧ owner.state ≠ .sealed := by
  dsimp only [poison]
  split
  · exact .inl rfl
  · rename_i hstate
    exact .inr ⟨rfl, not_or.mp hstate⟩

/-- The account of an owner: which holds it owns and in which role. -/
structure Held (owner : GenerationContentOwner) (adopted released : List EpochContentHold)
    (closeRequested : Bool) : Prop where
  custody : Custody adopted owner.ownedHolds released
  keys : (owner.primaryHolds.map fun hold => contentKey hold.ref).Nodup
  apart : ∀ hold ∈ owner.primaryHolds, hold ∉ owner.duplicateHolds
  duplicates : ∀ hold ∈ owner.duplicateHolds, hold ∈ owner.ownedHolds
  owned : ∀ hold ∈ owner.ownedHolds, hold ∈ owner.primaryHolds ∨ hold ∈ owner.duplicateHolds
  cleanups : ∀ hold, (hold, false) ∈ owner.duplicateCleanupInFlight → hold ∈ owner.duplicateHolds
  filed : closeRequested = false → Filed owner.byContentKey owner.primaryHolds ∧
    ∀ hold ∈ owner.primaryHolds, hold ∈ owner.ownedHolds
  admitting : owner.state = .active ∨ owner.state = .sealed → closeRequested = false
  notAdopting : owner.state ≠ .adopting
  unrequested : closeRequested = false → owner.releasePromise = none
  closed : owner.state = .closed → owner.ownedHolds = []

/-- The account of an owner together with how far its close has come. -/
structure Keeps (owner : GenerationContentOwner) (adopted released : List EpochContentHold)
    (closeRequested : Bool) : Prop extends owner.Held adopted released closeRequested where
  attempt : owner.AttemptKeeps owner.releasePromise

variable {owner : GenerationContentOwner} {adopted released : List EpochContentHold}
  {closeRequested : Bool}

namespace Keeps

theorem new (serverEpoch : JsString) :
    Keeps { serverEpoch } [] [] false where
  custody := .nil
  keys := List.nodup_nil
  apart := by simp
  duplicates := by simp
  owned := by simp
  cleanups := by simp
  filed := fun _ => ⟨fun _ => rfl, by simp⟩
  admitting := fun _ => rfl
  notAdopting := by simp
  unrequested := fun _ => rfl
  closed := by simp
  attempt := trivial

theorem filed_additions {additions : List OwnedContent}
    {byContentKey : InsertionMap (ContentNamespace × JsString) OwnedContent}
    {primaryHolds : List EpochContentHold} (h : Filed byContentKey primaryHolds)
    (hexact : ∀ entry ∈ additions, entry.ref = entry.hold.ref)
    (hkeys : (additions.map fun entry => contentKey entry.hold.ref).Nodup)
    (hunfiled : ∀ entry ∈ additions, byContentKey.get? (contentKey entry.hold.ref) = none) :
    Filed (additions.foldl (fun byContentKey entry =>
        byContentKey.insert (contentKey entry.ref) entry) byContentKey)
      (primaryHolds ++ additions.map (·.hold)) := by
  induction additions generalizing byContentKey primaryHolds with
  | nil => simpa using h
  | cons entry rest ih =>
    have hentry : entry = { ref := entry.hold.ref, hold := entry.hold } := by
      rw [← hexact entry (List.mem_cons_self ..)]
    rw [List.map_cons, List.nodup_cons] at hkeys
    have hnext := h.insert (hunfiled entry (List.mem_cons_self ..))
    rw [← hentry] at hnext
    have hrest := ih hnext (fun other hother => hexact other (List.mem_cons_of_mem _ hother))
      hkeys.2 fun other hother => by
        rw [InsertionMap.get?_insert, if_neg, hunfiled other (List.mem_cons_of_mem _ hother)]
        intro heq
        exact hkeys.1 (heq ▸ List.mem_map_of_mem hother)
    rw [List.foldl_cons, hexact entry (List.mem_cons_self ..), List.map_cons]
    simpa only [List.append_assoc, List.singleton_append] using hrest

theorem adopt (h : owner.Keeps adopted released closeRequested) {lease next : PiPayloadLease}
    {owner' : GenerationContentOwner}
    (hnew : lease.adoptable = true → ∀ hold ∈ lease.holds, hold ∉ adopted)
    (hadopt : owner.adopt lease = (next, some owner')) :
    owner'.Keeps (adopted ++ lease.holds) released closeRequested ∧ lease.adoptable = true ∧
      next = { lease with transfer := .adopted } := by
  unfold GenerationContentOwner.adopt at hadopt
  split at hadopt
  · cases hadopt
  · rename_i hactive
    rw [not_not] at hactive
    have hopen := h.admitting (.inl hactive)
    obtain ⟨hfiled, howned⟩ := h.filed hopen
    unfold PiPayloadLease.adopt at hadopt
    split at hadopt
    · rename_i hadoptable
      replace hnew := hnew hadoptable
      cases hprepare : owner.prepareAdoption lease.refs lease.holds with
      | none => rw [hprepare] at hadopt; cases hadopt
      | some prepared =>
        rw [hprepare] at hadopt
        cases hadopt
        have hp := prepareAdoption_prepared hprepare
        have hsub : ∀ hold, hold ∈ prepared.additions.map (·.hold) ∨ hold ∈ prepared.duplicates ↔
            hold ∈ lease.holds := fun hold => by
          rw [← hp.perm.mem_iff, List.mem_append]
        have hnodup' := hp.perm.nodup_iff.mpr hp.nodup
        refine ⟨?_, hadoptable, rfl⟩
        -- the lease's holds are new to the owner, so no role changes for those it had
        have hfreshOwned : ∀ hold ∈ lease.holds, hold ∉ owner.ownedHolds := fun hold hhold hmem =>
          hnew hold hhold (h.custody.mem_iff.mpr (.inl hmem))
        refine {
          custody := ?_, keys := ?_, apart := ?_, duplicates := ?_, owned := ?_, cleanups := ?_,
          filed := ?_, admitting := fun _ => hopen, notAdopting := nofun,
          unrequested := fun _ => h.unrequested hopen, closed := nofun, attempt := ?_ }
        · have htake := h.custody.take hp.nodup hnew
          refine ⟨htake.conserved.trans ?_, htake.nodup⟩
          have hsorted := (hp.perm.symm.append_left owner.ownedHolds).append_right released
          simpa only [commitAdoption, enqueueDuplicateCleanup, List.append_assoc] using hsorted
        · simp only [commitAdoption, enqueueDuplicateCleanup, List.map_append, List.map_map]
          refine List.nodup_append.mpr ⟨h.keys, hp.keys, ?_⟩
          intro key hkey key' hkey' heq
          obtain ⟨entry, hentry, rfl⟩ := List.mem_map.mp hkey'
          rw [heq] at hkey
          exact hfiled.not_mem (hp.unfiled entry hentry) hkey
        · intro hold hhold hdup
          simp only [commitAdoption, enqueueDuplicateCleanup, List.mem_append] at hhold hdup
          rcases hhold with hhold | hhold <;> rcases hdup with hdup | hdup
          · exact h.apart hold hhold hdup
          · exact hfreshOwned hold ((hsub hold).mp (.inr hdup)) (howned hold hhold)
          · exact hfreshOwned hold ((hsub hold).mp (.inl hhold)) (h.duplicates hold hdup)
          · exact List.disjoint_of_nodup_append hnodup' hhold hdup
        · intro hold hhold
          simp only [commitAdoption, enqueueDuplicateCleanup, List.mem_append] at hhold ⊢
          exact hhold.imp (fun hold' => .inl (h.duplicates hold hold')) id
        · intro hold hhold
          simp only [commitAdoption, enqueueDuplicateCleanup, List.mem_append] at hhold ⊢
          rcases hhold with (hhold | hhold) | hhold
          · exact (h.owned hold hhold).imp .inl .inl
          · exact .inl (.inr hhold)
          · exact .inr (.inr hhold)
        · intro hold hhold
          simp only [commitAdoption, enqueueDuplicateCleanup, List.mem_append, List.mem_map,
            List.mem_reverse, Prod.mk.injEq, and_true, exists_eq_right] at hhold ⊢
          exact hhold.imp (h.cleanups hold) id
        · intro _
          refine ⟨filed_additions hfiled hp.exact hp.keys hp.unfiled, ?_⟩
          intro hold hhold
          simp only [commitAdoption, enqueueDuplicateCleanup, List.mem_append] at hhold ⊢
          exact .inl (hhold.imp (howned hold) id)
        · rw [show (owner.commitAdoption prepared).releasePromise = owner.releasePromise from rfl,
            h.unrequested hopen]
          trivial
    · cases hadopt

theorem sealOwner (h : owner.Keeps adopted released closeRequested) :
    owner.sealOwner.Keeps adopted released closeRequested := by
  unfold GenerationContentOwner.sealOwner
  split
  · rename_i hactive
    have hopen := h.admitting (.inl hactive)
    exact ⟨⟨h.custody, h.keys, h.apart, h.duplicates, h.owned, h.cleanups, h.filed, fun _ => hopen,
      nofun, h.unrequested, nofun⟩, by
        dsimp only
        rw [h.unrequested hopen]
        trivial⟩
  · exact h

theorem release (h : owner.Keeps adopted released closeRequested) :
    owner.release.Keeps adopted released true := by
  unfold GenerationContentOwner.release
  split
  · rename_i hguard
    refine ⟨⟨h.custody, h.keys, h.apart, h.duplicates, h.owned, h.cleanups, nofun, ?_,
      h.notAdopting, nofun, h.closed⟩, h.attempt⟩
    intro hadmitting
    have hopen := h.admitting hadmitting
    rcases hguard with hstate | hpromise | hstate
    · exact absurd hstate h.notAdopting
    · rw [h.unrequested hopen] at hpromise
      cases hpromise
    · rw [hstate] at hadmitting
      simp at hadmitting
  · exact ⟨⟨h.custody, h.keys, h.apart, h.duplicates, h.owned, h.cleanups, nofun, by simp, nofun,
      nofun, nofun⟩, rfl, fun hold hhold => List.mem_map_of_mem hhold⟩

theorem awaiting_of_cleanup (h : owner.Keeps adopted released closeRequested)
    {hold : EpochContentHold} (hcleanup : (hold, false) ∈ owner.duplicateCleanupInFlight) :
    owner.state ≠ .closed ∧ (owner.releasePromise = none ∨
      ∃ cleanups, owner.releasePromise = some (.awaitingDuplicates cleanups) ∧
        owner.state = .closing ∧
        ∀ hold, (hold, false) ∈ owner.duplicateCleanupInFlight → hold ∈ cleanups) := by
  have howned := h.duplicates hold (h.cleanups hold hcleanup)
  have hopen : owner.state ≠ .closed := fun hclosed => by
    rw [h.closed hclosed] at howned
    cases howned
  refine ⟨hopen, ?_⟩
  have hattempt := h.attempt
  unfold AttemptKeeps at hattempt
  split at hattempt
  · exact .inl (by assumption)
  · exact .inr ⟨_, by assumption, hattempt⟩
  · exact absurd hcleanup (hattempt.2.1 hold)
  · exact absurd hcleanup (hattempt.2.1 hold)
  · exact absurd hattempt hopen
  · exact absurd hcleanup (hattempt.2 hold)

/-- A clean-up in flight is settled: a success takes the duplicate away, a failure leaves it for
the close. -/
theorem settleDuplicate (h : owner.Keeps adopted released closeRequested)
    {hold : EpochContentHold} (hcleanup : (hold, false) ∈ owner.duplicateCleanupInFlight)
    (succeeded : Bool) :
    (owner.settleDuplicate hold succeeded).Keeps adopted
      (if succeeded then released ++ [hold] else released) closeRequested := by
  have hdup := h.cleanups hold hcleanup
  have howned := h.duplicates hold hdup
  obtain ⟨hopen, hattempt⟩ := h.awaiting_of_cleanup hcleanup
  have hunsettled : ∀ other, (other, false) ∈ owner.duplicateCleanupInFlight.map (fun cleanup =>
      if cleanup.1 = hold then (hold, true) else cleanup) →
      other ≠ hold ∧ (other, false) ∈ owner.duplicateCleanupInFlight := by
    intro other hother
    obtain ⟨cleanup, hmem, heq⟩ := List.mem_map.mp hother
    split at heq
    · cases heq
    · rename_i hne
      subst heq
      exact ⟨hne, hmem⟩
  cases succeeded with
  | true =>
    refine ⟨⟨h.custody.give howned, h.keys, ?_, ?_, ?_, ?_, ?_, h.admitting, h.notAdopting,
      h.unrequested, fun hclosed => absurd hclosed hopen⟩, ?_⟩
    · exact fun other hother hmem => h.apart other hother (List.mem_of_mem_filter hmem)
    · intro other hother
      obtain ⟨hmem, hne⟩ := List.mem_filter.mp hother
      exact List.mem_filter.mpr ⟨h.duplicates other hmem, hne⟩
    · intro other hother
      obtain ⟨hmem, hne⟩ := List.mem_filter.mp hother
      exact (h.owned other hmem).imp id fun hdup' => List.mem_filter.mpr ⟨hdup', hne⟩
    · intro other hother
      obtain ⟨hne, hmem⟩ := hunsettled other hother
      exact List.mem_filter.mpr ⟨h.cleanups other hmem, by simpa using hne⟩
    · intro hopen'
      obtain ⟨hfiled, hprimary⟩ := h.filed hopen'
      refine ⟨hfiled, fun other hother => List.mem_filter.mpr ⟨hprimary other hother, ?_⟩⟩
      have hne : other ≠ hold := fun heq => h.apart other hother (heq ▸ hdup)
      simpa using hne
    · rcases hattempt with hnone | ⟨cleanups, hsome, hclosing, hwait⟩
      · rw [show (owner.settleDuplicate hold true).releasePromise = none from hnone]
        trivial
      · rw [show (owner.settleDuplicate hold true).releasePromise =
          some (.awaitingDuplicates cleanups) from hsome]
        exact ⟨hclosing, fun other hother => hwait other (hunsettled other hother).2⟩
  | false =>
    have hstate := poison_state { owner with
      duplicateCleanupInFlight := owner.duplicateCleanupInFlight.map fun cleanup =>
        if cleanup.1 = hold then (hold, true) else cleanup }
    change (owner.settleDuplicate hold false).state = .poisoned ∨
      (owner.settleDuplicate hold false).state = owner.state ∧ owner.state ≠ .active ∧
        owner.state ≠ .sealed at hstate
    refine ⟨⟨h.custody, h.keys, h.apart, h.duplicates, h.owned, ?_, h.filed, ?_, ?_, h.unrequested,
      ?_⟩, ?_⟩
    · exact fun other hother => h.cleanups other (hunsettled other hother).2
    · intro hadmitting
      rcases hstate with hstate | ⟨hstate, hactive, hsealed⟩ <;> rw [hstate] at hadmitting
      · simp at hadmitting
      · exact absurd hadmitting (not_or.mpr ⟨hactive, hsealed⟩)
    · rcases hstate with hstate | ⟨hstate, -, -⟩ <;> rw [hstate]
      · exact nofun
      · exact h.notAdopting
    · intro hclosed
      rcases hstate with hstate | ⟨hstate, -, -⟩ <;> rw [hstate] at hclosed
      · cases hclosed
      · exact absurd hclosed hopen
    · rcases hattempt with hnone | ⟨cleanups, hsome, hclosing, hwait⟩
      · rw [show (owner.settleDuplicate hold false).releasePromise = none from hnone]
        trivial
      · rw [show (owner.settleDuplicate hold false).releasePromise =
          some (.awaitingDuplicates cleanups) from hsome]
        refine ⟨?_, fun other hother => hwait other (hunsettled other hother).2⟩
        dsimp only [GenerationContentOwner.settleDuplicate, poison]
        rw [hclosing]
        simp

theorem forgetCleanup (h : owner.Keeps adopted released closeRequested) (hold : EpochContentHold) :
    (owner.forgetCleanup hold).Keeps adopted released closeRequested := by
  have hsub : ∀ other, (other, false) ∈ (owner.forgetCleanup hold).duplicateCleanupInFlight →
      (other, false) ∈ owner.duplicateCleanupInFlight :=
    fun other hother => List.mem_of_mem_filter hother
  have hattempt : (owner.forgetCleanup hold).AttemptKeeps owner.releasePromise :=
    AttemptKeeps.mono owner (owner.forgetCleanup hold) rfl rfl rfl rfl hsub h.attempt
  exact ⟨⟨h.custody, h.keys, h.apart, h.duplicates, h.owned,
    fun other hother => h.cleanups other (hsub other hother), h.filed, h.admitting, h.notAdopting,
    h.unrequested, h.closed⟩, hattempt⟩

end Keeps

theorem nextPrimary_spec (owner : GenerationContentOwner) (below : ℕ) :
    match owner.nextPrimary below with
    | some index => index < below ∧
        (∃ hold, owner.primaryHolds[index]? = some hold ∧ hold ∈ owner.ownedHolds) ∧
        ∀ i hold, index < i → i < below → owner.primaryHolds[i]? = some hold →
          hold ∉ owner.ownedHolds
    | none => ∀ i hold, i < below → owner.primaryHolds[i]? = some hold →
      hold ∉ owner.ownedHolds := by
  induction below with
  | zero => simp [nextPrimary]
  | succ below ih =>
    -- the entry just below the bound is skipped: what the rest finds is unchanged by it
    have hskip : (∀ hold, owner.primaryHolds[below]? = some hold → hold ∉ owner.ownedHolds) →
        owner.nextPrimary (below + 1) = owner.nextPrimary below := by
      intro hnone
      rw [nextPrimary]
      split
      · rfl
      · rename_i hold hhold
        rw [if_neg (hnone hold hhold)]
    by_cases hfound : ∃ hold, owner.primaryHolds[below]? = some hold ∧ hold ∈ owner.ownedHolds
    · obtain ⟨hold, hhold, howned⟩ := hfound
      have hnext : owner.nextPrimary (below + 1) = some below := by
        simp only [nextPrimary, hhold, if_pos howned]
      rw [hnext]
      exact ⟨by omega, ⟨hold, hhold, howned⟩, fun i _ hlt hle => by omega⟩
    · have hnone : ∀ hold, owner.primaryHolds[below]? = some hold → hold ∉ owner.ownedHolds :=
        fun hold hhold howned => hfound ⟨hold, hhold, howned⟩
      rw [hskip hnone]
      cases hnext : owner.nextPrimary below with
      | none =>
        rw [hnext] at ih
        intro i hold hlt hhold
        rcases Nat.lt_succ_iff_lt_or_eq.mp hlt with hlt' | rfl
        · exact ih i hold hlt' hhold
        · exact hnone hold hhold
      | some index =>
        rw [hnext] at ih
        obtain ⟨hindex, hfound', hpassed⟩ := ih
        refine ⟨by omega, hfound', fun i hold hi hlt hhold => ?_⟩
        rcases Nat.lt_succ_iff_lt_or_eq.mp hlt with hlt' | rfl
        · exact hpassed i hold hi hlt' hhold
        · exact hnone hold hhold

/-- The loop over the primary holds goes on to the next one that is owned, or ends: without a
failure it ends with nothing left. -/
theorem Held.releasePrimaries (h : owner.Held adopted released closeRequested)
    (hpromise : owner.releasePromise ≠ none) (hclosing : owner.state = .closing)
    (hsettled : owner.CleanupsSettled) {below failures : ℕ}
    (hbehind : failures = 0 → owner.duplicateHolds = [] ∧
      ∀ i hold, below ≤ i → owner.primaryHolds[i]? = some hold → hold ∉ owner.ownedHolds) :
    (owner.releasePrimaries below failures).Keeps adopted released closeRequested := by
  have hrequested : closeRequested ≠ false := fun hopen => hpromise (h.unrequested hopen)
  have hspec := nextPrimary_spec owner below
  unfold GenerationContentOwner.releasePrimaries
  cases hnext : owner.nextPrimary below with
  | some index =>
    rw [hnext] at hspec
    obtain ⟨hindex, hfound, hpassed⟩ := hspec
    refine ⟨⟨h.custody, h.keys, h.apart, h.duplicates, h.owned, h.cleanups, h.filed, h.admitting,
      h.notAdopting, fun hopen => absurd hopen hrequested, h.closed⟩, hclosing, hsettled, hfound,
      fun hzero => ⟨(hbehind hzero).1, fun i hold hi hhold => ?_⟩⟩
    rcases Nat.lt_or_ge i below with hlt | hge
    · exact hpassed i hold hi hlt hhold
    · exact (hbehind hzero).2 i hold hge hhold
  | none =>
    rw [hnext] at hspec
    dsimp only
    split
    · exact ⟨⟨h.custody, h.keys, h.apart, h.duplicates, h.owned, h.cleanups, h.filed, h.admitting,
        h.notAdopting, fun hopen => absurd hopen hrequested, h.closed⟩, hclosing, hsettled⟩
    · rename_i hfailures
      obtain ⟨hnodup, hpast⟩ := hbehind (by omega)
      have hempty : owner.ownedHolds = [] := by
        refine List.eq_nil_iff_forall_not_mem.mpr fun hold howned => ?_
        rcases h.owned hold howned with hprimary | hdup
        · obtain ⟨i, hi⟩ := List.getElem?_of_mem hprimary
          rcases Nat.lt_or_ge i below with hlt | hge
          · exact hspec i hold hlt hi howned
          · exact hpast i hold hge hi howned
        · rw [hnodup] at hdup
          cases hdup
      refine ⟨⟨h.custody, List.nodup_nil, nofun, h.duplicates, ?_, h.cleanups,
        fun hopen => absurd hopen hrequested, by simp, nofun, fun hopen => absurd hopen hrequested,
        fun _ => hempty⟩, rfl⟩
      rw [hempty]
      exact nofun

namespace Keeps

theorem resumeRelease (h : owner.Keeps adopted released closeRequested) :
    owner.resumeRelease.Keeps adopted released closeRequested := by
  have hattempt := h.attempt
  unfold GenerationContentOwner.resumeRelease
  split
  · rename_i cleanups hpromise
    rw [hpromise] at hattempt
    obtain ⟨hclosing, hwait⟩ := hattempt
    split
    · exact h
    · rename_i hdone
      have hsettled : owner.CleanupsSettled := by
        intro hold hhold
        refine hdone (List.any_eq_true.mpr ⟨hold, hwait hold hhold, ?_⟩)
        simpa using hhold
      exact ⟨⟨h.custody, h.keys, h.apart, h.duplicates, h.owned, h.cleanups, h.filed, h.admitting,
        h.notAdopting, fun hopen => absurd (h.unrequested hopen) (by rw [hpromise]; simp),
        h.closed⟩, hclosing, hsettled, fun hold hhold => List.mem_reverse.mp hhold,
        fun _ hold hhold => List.mem_reverse.mpr hhold⟩
  · rename_i failures hpromise
    rw [hpromise] at hattempt
    obtain ⟨hclosing, hsettled, -, hall⟩ := hattempt
    refine h.toHeld.releasePrimaries (by rw [hpromise]; simp) hclosing hsettled fun hzero =>
      ⟨?_, ?_⟩
    · exact List.eq_nil_iff_forall_not_mem.mpr fun hold hhold => by
        have := hall hzero hold hhold
        cases this
    · intro i hold hi hhold
      rw [List.getElem?_eq_none hi] at hhold
      cases hhold
  · exact h

theorem settleRetry (h : owner.Keeps adopted released closeRequested)
    {inFlight : List EpochContentHold} {failures : ℕ}
    (hpromise : owner.releasePromise = some (.retryingDuplicates inFlight failures))
    {hold : EpochContentHold} (hhold : hold ∈ inFlight) (succeeded : Bool) :
    (owner.settleRetry hold succeeded).Keeps adopted
      (if succeeded then released ++ [hold] else released) closeRequested := by
  have hattempt := h.attempt
  rw [hpromise] at hattempt
  obtain ⟨hclosing, hsettled, hinFlight, hall⟩ := hattempt
  have hdup := hinFlight hold hhold
  have hrequested : closeRequested ≠ false := fun hopen => by
    have := h.unrequested hopen
    rw [hpromise] at this
    cases this
  simp only [GenerationContentOwner.settleRetry, hpromise]
  cases succeeded with
  | true =>
    refine ⟨⟨h.custody.give (h.duplicates hold hdup), h.keys, ?_, ?_, ?_, ?_,
      fun hopen => absurd hopen hrequested, h.admitting, h.notAdopting,
      fun hopen => absurd hopen hrequested, ?_⟩, hclosing, hsettled, ?_, ?_⟩
    · exact fun other hother hmem => h.apart other hother (List.mem_of_mem_filter hmem)
    · intro other hother
      obtain ⟨hmem, hne⟩ := List.mem_filter.mp hother
      exact List.mem_filter.mpr ⟨h.duplicates other hmem, hne⟩
    · intro other hother
      obtain ⟨hmem, hne⟩ := List.mem_filter.mp hother
      exact (h.owned other hmem).imp id fun hdup' => List.mem_filter.mpr ⟨hdup', hne⟩
    · exact fun other hother => absurd hother (hsettled other)
    · intro hclosed
      rw [show owner.state = .closed from hclosed] at hclosing
      cases hclosing
    · intro other hother
      obtain ⟨hmem, hne⟩ := List.mem_filter.mp hother
      exact List.mem_filter.mpr ⟨hinFlight other hmem, hne⟩
    · intro hzero other hother
      obtain ⟨hmem, hne⟩ := List.mem_filter.mp hother
      exact List.mem_filter.mpr ⟨hall hzero other hmem, hne⟩
  | false =>
    exact ⟨⟨h.custody, h.keys, h.apart, h.duplicates, h.owned, h.cleanups, h.filed, h.admitting,
      h.notAdopting, fun hopen => absurd hopen hrequested, h.closed⟩, hclosing, hsettled,
      fun other hother => hinFlight other (List.mem_of_mem_filter hother), by simp⟩

theorem settlePrimary (h : owner.Keeps adopted released closeRequested) {index failures : ℕ}
    (hpromise : owner.releasePromise = some (.releasingPrimary index failures))
    {hold : EpochContentHold} (hhold : owner.primaryHolds[index]? = some hold) (succeeded : Bool) :
    (owner.settlePrimary hold succeeded).Keeps adopted
      (if succeeded then released ++ [hold] else released) closeRequested := by
  have hattempt := h.attempt
  rw [hpromise] at hattempt
  obtain ⟨hclosing, hsettled, ⟨hold', hhold', howned⟩, hbehind⟩ := hattempt
  obtain rfl : hold = hold' := Option.some.inj (hhold.symm.trans hhold')
  have hmem : hold ∈ owner.primaryHolds := List.mem_of_getElem? hhold
  have hrequested : closeRequested ≠ false := fun hopen => by
    have := h.unrequested hopen
    rw [hpromise] at this
    cases this
  have hsettle : ∀ succeeded, owner.settlePrimary hold succeeded =
      if succeeded then
        GenerationContentOwner.releasePrimaries
          { owner with ownedHolds := owner.ownedHolds.filter (· != hold) } index failures
      else owner.releasePrimaries index (failures + 1) := by
    intro succeeded
    unfold GenerationContentOwner.settlePrimary
    split
    · rename_i heq
      rw [hpromise] at heq
      cases heq
      rfl
    · rename_i hne
      exact absurd hpromise (hne _ _)
  rw [hsettle]
  cases succeeded with
  | true =>
    have hgiven : Held { owner with ownedHolds := owner.ownedHolds.filter (· != hold) } adopted
        (released ++ [hold]) closeRequested := by
      refine ⟨h.custody.give howned, h.keys, h.apart, ?_, ?_, h.cleanups,
        fun hopen => absurd hopen hrequested, h.admitting, h.notAdopting, h.unrequested, ?_⟩
      · intro other hother
        have hne : other ≠ hold := fun heq => h.apart hold hmem (heq ▸ hother)
        exact List.mem_filter.mpr ⟨h.duplicates other hother, by simpa using hne⟩
      · exact fun other hother => h.owned other (List.mem_of_mem_filter hother)
      · intro hclosed
        rw [show owner.state = .closed from hclosed] at hclosing
        cases hclosing
    refine hgiven.releasePrimaries (by rw [hpromise]; simp) hclosing hsettled fun hzero => ?_
    refine ⟨(hbehind hzero).1, fun i other hi hother hmem' => ?_⟩
    obtain ⟨howned', hne⟩ := List.mem_filter.mp hmem'
    rcases Nat.lt_or_eq_of_le hi with hlt | rfl
    · exact (hbehind hzero).2 i other hlt hother howned'
    · rw [show other = hold from Option.some.inj (hother.symm.trans hhold)] at hne
      simp at hne
  | false =>
    exact h.toHeld.releasePrimaries (by rw [hpromise]; simp) hclosing hsettled (by simp)

theorem finishRelease (h : owner.Keeps adopted released closeRequested) :
    owner.finishRelease.Keeps adopted released closeRequested := by
  unfold GenerationContentOwner.finishRelease
  split
  · rename_i succeeded hpromise
    refine ⟨⟨h.custody, h.keys, h.apart, h.duplicates, h.owned, h.cleanups, h.filed, ?_, ?_,
      fun _ => rfl, ?_⟩, trivial⟩
    · dsimp only
      split <;> simp
    · dsimp only
      split <;> simp
    · intro hclosed
      refine h.closed ?_
      by_contra hne
      simp [hne] at hclosed
  · exact h

end Keeps

theorem Keeps.owned_of_inFlight (h : owner.Keeps adopted released closeRequested)
    (hhold : hold ∈ owner.releasesInFlight) :
    hold ∈ owner.ownedHolds := by
  have hattempt := h.attempt
  rcases List.mem_append.mp hhold with hcleanup | hawaited
  · obtain ⟨⟨hold', settled⟩, hmem, rfl⟩ := List.mem_map.mp hcleanup
    obtain ⟨hmem, hunsettled⟩ := List.mem_filter.mp hmem
    obtain rfl : settled = false := by simpa using hunsettled
    exact h.duplicates _ (h.cleanups _ hmem)
  · split at hawaited
    · rename_i hpromise
      rw [hpromise] at hattempt
      exact h.duplicates hold (hattempt.2.2.1 hold hawaited)
    · rename_i index failures hpromise
      rw [hpromise] at hattempt
      obtain ⟨hold', hhold', howned⟩ := hattempt.2.2.1
      rw [hhold', Option.toList_some, List.mem_singleton] at hawaited
      exact hawaited ▸ howned
    · cases hawaited

theorem Keeps.duplicate_of_inFlight (h : owner.Keeps adopted released closeRequested)
    (hopen : closeRequested = false)
    (hhold : hold ∈ owner.releasesInFlight) : hold ∈ owner.duplicateHolds := by
  unfold releasesInFlight at hhold
  rw [h.unrequested hopen, List.append_nil] at hhold
  obtain ⟨⟨hold', settled⟩, hmem, rfl⟩ := List.mem_map.mp hhold
  obtain ⟨hmem, hunsettled⟩ := List.mem_filter.mp hmem
  obtain rfl : settled = false := by simpa using hunsettled
  exact h.cleanups _ hmem

theorem Held.single (h : owner.Held adopted released closeRequested) {hold other : EpochContentHold}
    (hhold : hold ∈ owner.primaryHolds) (hother : other ∈ owner.primaryHolds)
    (hkey : contentKey other.ref = contentKey hold.ref) : other = hold :=
  List.inj_on_of_nodup_map h.keys hother hhold hkey

end GenerationContentOwner

namespace OwnedGeneration

/-- What holds of every generation: its owner's account, holds that belong to one lease each, and
adopted holds that come from adopted leases. -/
structure Sound (g : OwnedGeneration) : Prop where
  keeps : g.owner.Keeps g.adopted g.released g.closeRequested
  distinct : (PayloadPool.holds g.pool).Nodup
  adoptedFrom : ∀ hold ∈ g.adopted,
    ∃ lease ∈ g.pool, lease.transfer = .adopted ∧ hold ∈ lease.holds

theorem adopted_set {pool : PayloadPool} {index : ℕ} {lease next : PiPayloadLease}
    (hlease : pool[index]? = some lease) (hholds : next.holds = lease.holds)
    (hadopted : lease.transfer = .adopted → next.transfer = .adopted) {hold : EpochContentHold}
    (h : ∃ lease ∈ pool, lease.transfer = .adopted ∧ hold ∈ lease.holds) :
    ∃ lease ∈ pool.set index next, lease.transfer = .adopted ∧ hold ∈ lease.holds := by
  obtain ⟨other, hother, htransfer, hhold⟩ := h
  obtain ⟨hlt, rfl⟩ := List.getElem?_eq_some_iff.mp hlease
  obtain ⟨i, hi, rfl⟩ := List.mem_iff_getElem.mp hother
  by_cases hindex : index = i
  · subst hindex
    exact ⟨next, List.mem_set hlt _, hadopted htransfer, hholds ▸ hhold⟩
  · refine ⟨pool[i], List.mem_iff_getElem.mpr ⟨i, by simpa using hi, ?_⟩, htransfer, hhold⟩
    exact List.getElem_set_ne hindex _

theorem Sound.onLease {g : OwnedGeneration} (h : g.Sound) (index : ℕ)
    {f : PiPayloadLease → PiPayloadLease} (hholds : ∀ lease, (f lease).holds = lease.holds)
    (hadopted : ∀ lease, lease.transfer = .adopted → (f lease).transfer = .adopted) :
    (g.onLease index f).Sound := by
  unfold OwnedGeneration.onLease
  split
  · exact h
  · rename_i lease hlease
    refine ⟨h.keeps, ?_, fun hold hhold => ?_⟩
    · rw [PayloadPool.holds_set hlease (hholds lease)]
      exact h.distinct
    · exact adopted_set hlease (hholds lease) (hadopted lease) (h.adoptedFrom hold hhold)

theorem Sound.withOwner {g : OwnedGeneration} (h : g.Sound) {owner : GenerationContentOwner}
    {released : List EpochContentHold} {closeRequested : Bool}
    (hkeeps : owner.Keeps g.adopted released closeRequested) :
    Sound { g with owner, released, closeRequested } :=
  ⟨hkeeps, h.distinct, h.adoptedFrom⟩

theorem Sound.step {g : OwnedGeneration} (h : g.Sound) (action : OwnerAction) :
    (g.step action).Sound := by
  cases action with
  | createLease holds =>
    refine ⟨h.keeps, PayloadPool.nodup_create h.distinct holds, fun hold hhold => ?_⟩
    obtain ⟨lease, hlease, hadopted⟩ := h.adoptedFrom hold hhold
    refine ⟨lease, ?_, hadopted⟩
    dsimp only [OwnedGeneration.step, PayloadPool.create]
    split
    · exact List.mem_append_left _ hlease
    · exact hlease
  | transfer index =>
    refine h.onLease index (fun lease => ?_) (fun lease hadopted => ?_)
    · unfold PiPayloadLease.toTransfer
      split <;> rfl
    · unfold PiPayloadLease.toTransfer
      split <;> exact hadopted
  | releaseTransfer index =>
    refine h.onLease index (fun lease => ?_) (fun lease hadopted => ?_)
    · unfold PiPayloadLease.releaseTransfer
      split <;> rfl
    · unfold PiPayloadLease.releaseTransfer
      rw [if_neg (by simp [PiPayloadLease.adoptable, hadopted])]
      exact hadopted
  | adopt index =>
    dsimp only [OwnedGeneration.step]
    split
    · exact h
    · rename_i lease hlease
      have hmem : lease ∈ g.pool := List.mem_of_getElem? hlease
      split
      · rename_i next hadopt
        have hnext : next = lease := by
          unfold GenerationContentOwner.adopt PiPayloadLease.adopt at hadopt
          repeat' split at hadopt
          all_goals first | cases hadopt; rfl | cases hadopt
        obtain ⟨hlt, hget⟩ := List.getElem?_eq_some_iff.mp hlease
        rw [hnext, ← hget, List.set_getElem_self hlt]
        exact h
      · rename_i next owner hadopt
        -- an adoptable lease shares no hold with the leases that were adopted
        have hfresh : lease.adoptable = true → ∀ hold ∈ lease.holds, hold ∉ g.adopted := by
          intro hadoptable hold hhold hadopted
          obtain ⟨other, hother, htransfer, hhold'⟩ := h.adoptedFrom hold hadopted
          obtain ⟨i, hi⟩ := List.getElem?_of_mem hother
          obtain rfl := PayloadPool.index_unique h.distinct hlease hi hhold hhold'
          obtain rfl : lease = other := Option.some.inj (hlease.symm.trans hi)
          simp [PiPayloadLease.adoptable, htransfer] at hadoptable
        obtain ⟨hkeeps, -, rfl⟩ := h.keeps.adopt hfresh hadopt
        refine ⟨hkeeps, ?_, fun hold hhold => ?_⟩
        · dsimp only
          rw [PayloadPool.holds_set hlease]
          exacts [h.distinct, rfl]
        · dsimp only
          rcases List.mem_append.mp hhold with hold' | hnew
          · refine adopted_set hlease ?_ ?_ (h.adoptedFrom hold hold')
            exacts [rfl, fun _ => rfl]
          · obtain ⟨hlt, -⟩ := List.getElem?_eq_some_iff.mp hlease
            exact ⟨{ lease with transfer := .adopted }, List.mem_set hlt _, rfl, hnew⟩
  | sealOwner => exact h.withOwner h.keeps.sealOwner
  | release => exact h.withOwner h.keeps.release
  | settleDuplicate hold succeeded =>
    dsimp only [OwnedGeneration.step]
    split
    · rename_i hcleanup
      exact h.withOwner (h.keeps.settleDuplicate hcleanup succeeded)
    · exact h
  | forgetCleanup hold => exact h.withOwner (h.keeps.forgetCleanup hold)
  | resumeRelease => exact h.withOwner h.keeps.resumeRelease
  | settleRetry hold succeeded =>
    dsimp only [OwnedGeneration.step]
    split
    · rename_i hpromise
      split
      · rename_i hhold
        exact h.withOwner (h.keeps.settleRetry hpromise hhold succeeded)
      · exact h
    · exact h
  | settlePrimary hold succeeded =>
    dsimp only [OwnedGeneration.step]
    split
    · rename_i hpromise
      split
      · rename_i hhold
        exact h.withOwner (h.keeps.settlePrimary hpromise hhold succeeded)
      · exact h
    · exact h
  | finishRelease => exact h.withOwner h.keeps.finishRelease

theorem run_sound (serverEpoch : JsString) (actions : List OwnerAction) :
    (run serverEpoch actions).Sound := by
  unfold run
  have hstart : (initial serverEpoch).Sound :=
    ⟨GenerationContentOwner.Keeps.new serverEpoch, List.nodup_nil, by simp [initial]⟩
  generalize initial serverEpoch = g at hstart
  induction actions generalizing g with
  | nil => exact hstart
  | cons action rest ih => exact ih _ (hstart.step action)

/-- Conservation of the holds of a generation, after every run of adoptions, clean-ups and closes
with any outcome of any hold release. Each adopted hold is kept as the single primary hold of its
content key, or waits as a duplicate, or was released, and only one of these. No hold is released
twice, and none that is released has a release in flight. Until a close is requested every primary
hold is owned and none is being released. A close that reports success has released exactly the
holds that were ever adopted. -/
theorem holds_accounted (serverEpoch : JsString) (actions : List OwnerAction) :
    let g := run serverEpoch actions
    (∀ hold ∈ g.adopted,
      (hold ∈ g.owner.primaryHolds ∧ hold ∈ g.owner.ownedHolds ∧ hold ∉ g.owner.duplicateHolds ∧
        hold ∉ g.released ∧
        ∀ other ∈ g.owner.primaryHolds, contentKey other.ref = contentKey hold.ref →
          other = hold) ∨
      (hold ∈ g.owner.duplicateHolds ∧ hold ∈ g.owner.ownedHolds ∧ hold ∉ g.owner.primaryHolds ∧
        hold ∉ g.released) ∨
      (hold ∈ g.released ∧ hold ∉ g.owner.ownedHolds)) ∧
    g.released.Nodup ∧
    (∀ hold ∈ g.owner.releasesInFlight, hold ∈ g.owner.ownedHolds ∧ hold ∉ g.released) ∧
    (g.closeRequested = false → ∀ hold ∈ g.owner.primaryHolds, hold ∈ g.owner.ownedHolds ∧
      hold ∉ g.owner.releasesInFlight ∧ hold ∉ g.released) ∧
    (g.owner.releasePromise = some (.settled true) →
      g.adopted.Nodup ∧ g.adopted.Perm g.released) := by
  intro g
  have h : g.Sound := run_sound serverEpoch actions
  have hkeeps := h.keeps
  have hcustody := hkeeps.custody
  refine ⟨fun hold hhold => ?_, hcustody.gone_nodup, fun hold hhold => ?_,
    fun hopen hold hhold => ?_,
    fun hpromise => ⟨hcustody.nodup, ?_⟩⟩
  · rcases hcustody.mem_iff.mp hhold with howned | hreleased
    · have hkept := hcustody.not_mem_gone howned
      rcases hkeeps.owned hold howned with hprimary | hduplicate
      · exact .inl ⟨hprimary, howned, hkeeps.apart hold hprimary, hkept,
          fun other hother hkey => hkeeps.single hprimary hother hkey⟩
      · exact .inr (.inl ⟨hduplicate, howned, fun hprimary => hkeeps.apart hold hprimary hduplicate,
          hkept⟩)
    · exact .inr (.inr ⟨hreleased, fun howned => hcustody.not_mem_gone howned hreleased⟩)
  · have howned := hkeeps.owned_of_inFlight hhold
    exact ⟨howned, hcustody.not_mem_gone howned⟩
  · have howned := (hkeeps.filed hopen).2 hold hhold
    exact ⟨howned, fun hinFlight =>
      hkeeps.apart hold hhold (hkeeps.duplicate_of_inFlight hopen hinFlight),
      hcustody.not_mem_gone howned⟩
  · have hattempt := hkeeps.attempt
    rw [hpromise] at hattempt
    rw [hkeeps.closed hattempt] at hcustody
    exact hcustody.perm_of_kept_nil

/-- A hold of an attachment. -/
def attachmentHold (identity : ℕ) : EpochContentHold where
  identity := identity
  ref := .attachmentRef (js "epoch")
    (js "0123456789abcdef0123456789abcdef0123456789abcdef0123456789abcdef") (js "image/png") 10

/-- Two holds of one content are adopted, the second of them as a duplicate, and the close that
follows releases what is left. -/
def closedRun : List OwnerAction :=
  [.createLease [attachmentHold 0], .transfer 0, .adopt 0, .createLease [attachmentHold 1],
    .transfer 1, .adopt 1, .settleDuplicate (attachmentHold 1) true,
    .forgetCleanup (attachmentHold 1), .release, .resumeRelease, .resumeRelease,
    .settlePrimary (attachmentHold 0) true]

/-- The close reports success, and the two holds that were adopted are the released ones. -/
theorem holds_accounted_closed :
    (run (js "epoch") closedRun).owner.releasePromise = some (.settled true) ∧
      (run (js "epoch") closedRun).adopted = [attachmentHold 0, attachmentHold 1] ∧
      (run (js "epoch") closedRun).adopted.Perm (run (js "epoch") closedRun).released := by
  have hsettled : (run (js "epoch") closedRun).owner.releasePromise = some (.settled true) := by
    decide +kernel
  obtain ⟨-, -, -, -, hclosed⟩ := holds_accounted (js "epoch") closedRun
  exact ⟨hsettled, by decide +kernel, (hclosed hsettled).2⟩

end OwnedGeneration

end PiAgentWeb
