import PiAgentWeb.Server.SessionHistoryPages
import PiAgentWeb.UI.HistoryTurns

/-!
# Paged history of a Session

The server hands out the active context of a Session in slices, newest first, and the UI rebuilds
each slice on its own and puts the older ones in front. Slices begin with a turn as far as the byte
limit of a slice allows. Where it does not, the slice begins with messages that continue a turn of
the slice before it, and the UI drops these.
-/

namespace PiAgentWeb

variable {J T : Type}

/-- The messages of a slice; how an entry becomes messages is left to Pi. -/
def sliceMessages (messagesOf : SessionHistoryRecord → List (SettledMessage J T))
    (slice : NativeSessionHistorySlice) : List (SettledMessage J T) :=
  slice.entries.flatMap messagesOf

theorem flatten_slices {plan : NativeSessionHistoryPlan} {initial : NativeSessionHistorySlice}
    {limits : List ℕ} {pages : List NativeSessionHistorySlice}
    (hlimits : ∀ limit ∈ limits, 0 < limit ∧ limit ≤ SESSION_HISTORY_MAX_CHUNK_MESSAGES)
    (hinitial : plan.readInitial = .ok initial)
    (hpages : plan.followCursors initial.nextCursor limits = .ok (pages, none)) :
    (pages.reverse.map (·.entries)).flatten ++ initial.entries = plan.records := by
  have hstart : plan.initialStart ≤ plan.records.length := by
    by_contra hlt
    rw [NativeSessionHistoryPlan.readInitial, NativeSessionHistoryPlan.readRange,
      if_pos (by omega)] at hinitial
    cases hinitial
  obtain ⟨slice, hread, hentries, hnext⟩ := plan.readRange_eq hstart (Nat.le_refl _)
  rw [NativeSessionHistoryPlan.readInitial, hread] at hinitial
  obtain rfl := Except.ok.inj hinitial
  have hfollow := plan.followCursors_spec hlimits hstart
  rw [← hnext, hpages] at hfollow
  rw [hentries, List.take_length]
  exact hfollow.2.1

/-- **Paged history.** For every history plan and every reader that has followed its cursors to the
end, the initial slice with the pages put in front of it shows the turns, steps, blocks and tool
results of the whole context exactly when no slice begins with messages that continue a turn of an
older slice and add an assistant message or another tool result to it. -/
theorem paged_history_shows_transcript_iff (representation : PayloadRepresentation J T)
    (sessionId : JsString) (messagesOf : SessionHistoryRecord → List (SettledMessage J T))
    (plan : NativeSessionHistoryPlan) (initial : NativeSessionHistorySlice) (limits : List ℕ)
    (pages : List NativeSessionHistorySlice)
    (hlimits : ∀ limit ∈ limits, 0 < limit ∧ limit ≤ SESSION_HISTORY_MAX_CHUNK_MESSAGES)
    (hinitial : plan.readInitial = .ok initial)
    (hpages : plan.followCursors initial.nextCursor limits = .ok (pages, none)) :
    SameTranscript
        (showPages representation sessionId (sliceMessages messagesOf initial)
          (pages.map (sliceMessages messagesOf))).projection
        (rebuildProjectionFromMessages representation sessionId
          (plan.records.flatMap messagesOf)) ↔
      KeepsTurns representation
        (pages.reverse.map (sliceMessages messagesOf) ++ [sliceMessages messagesOf initial]) := by
  have hrecords := flatten_slices hlimits hinitial hpages
  have hmessages : ((pages.map (sliceMessages messagesOf)).reverse ++
      [sliceMessages messagesOf initial]).flatten = plan.records.flatMap messagesOf := by
    have hslices : ∀ slices : List NativeSessionHistorySlice,
        (slices.map (sliceMessages messagesOf)).flatten =
          ((slices.map (·.entries)).flatten).flatMap messagesOf := by
      intro slices
      induction slices with
      | nil => rfl
      | cons slice rest ih =>
        rw [List.map_cons, List.flatten_cons, ih, List.map_cons, List.flatten_cons,
          List.flatMap_append, sliceMessages]
    rw [← hrecords, List.flatten_append, ← List.map_reverse, hslices, List.flatMap_append,
      List.flatten_singleton, sliceMessages]
  have hiff := showPages_sameTranscript_iff representation sessionId
    (sliceMessages messagesOf initial) (pages.map (sliceMessages messagesOf))
  rw [hmessages, ← List.map_reverse] at hiff
  exact hiff

/-- An entry line with a message. -/
def messageLine (length : ℕ) (id : String) (parentId : Json) (role : String) : SessionLine where
  length := length
  value := some (.obj [(js "type", .str (js "message")), (js "id", .str (js id)),
    (js "parentId", parentId), (js "message", .obj [(js "role", .str (js role))])])

/-- A file with one turn of two assistant messages, of 40 MiB each. -/
def largeTurnLines : List SessionLine :=
  [{ length := 80, value := some (.obj [(js "type", .str (js "session")),
      (js "id", .str (js "native")), (js "cwd", .str (js "/workspace"))]) },
    messageLine 100 "a" .null "user",
    messageLine (40 * 1024 * 1024) "b" (.str (js "a")) "assistant",
    messageLine (40 * 1024 * 1024) "c" (.str (js "b")) "assistant"]

/-- A record of the file. -/
def largeTurnRecord (id : String) (parentId : Option JsString) (byteLength : ℕ)
    (startsTurn : Bool) : SessionHistoryRecord where
  id := js id
  parentId := parentId
  type := js "message"
  messageCount := 1
  byteLength := byteLength
  startsTurn := startsTurn
  firstKeptEntryId := none

/-- The records of the file. -/
def largeTurnRecords : List SessionHistoryRecord :=
  [largeTurnRecord "a" none 100 true,
    largeTurnRecord "b" (some (js "a")) (40 * 1024 * 1024) false,
    largeTurnRecord "c" (some (js "b")) (40 * 1024 * 1024) false]

/-- The plan of the file: the initial slice holds the last record. -/
def largeTurnPlan : NativeSessionHistoryPlan where
  planId := 7
  records := largeTurnRecords
  initialStart := 2
  totalMessages := 3
  totalBytes := 80 * 1024 * 1024 + 183

/-- The initial slice of the file. -/
def largeTurnInitial : NativeSessionHistorySlice where
  entries := largeTurnRecords.drop 2
  itemCount := 1
  nextCursor := some { planId := 7, start := 2 }

/-- The only page of the file. -/
def largeTurnPage : NativeSessionHistorySlice where
  entries := largeTurnRecords.take 2
  itemCount := 2
  nextCursor := none

/-- The messages of the file, without their texts. -/
def largeTurnMessage (record : SessionHistoryRecord) : List (SettledMessage Json Json) :=
  if record.startsTurn then [{ message := .user (.string (js "go")) [], timestamp := some 1 }]
  else
    [{ message := .assistant
        { content := [.text record.id]
          usage := { input := 1, output := 1, cacheRead := 0, cacheWrite := 0, totalTokens := 2,
                     costTotal := 0 }
          stopReason := .stop, errorMessage := none }
       timestamp := some 2 }]

/-- The iff of the large turn. -/
theorem paged_history_shows_transcript_iff_largeTurn :
    SameTranscript
        (showPages wireRepresentation (js "s") (sliceMessages largeTurnMessage largeTurnInitial)
          ([largeTurnPage].map (sliceMessages largeTurnMessage))).projection
        (rebuildProjectionFromMessages wireRepresentation (js "s")
          (largeTurnPlan.records.flatMap largeTurnMessage)) ↔
      KeepsTurns wireRepresentation
        ([largeTurnPage].reverse.map (sliceMessages largeTurnMessage) ++
          [sliceMessages largeTurnMessage largeTurnInitial]) :=
  paged_history_shows_transcript_iff wireRepresentation (js "s") largeTurnMessage largeTurnPlan
    largeTurnInitial [128] [largeTurnPage] (by decide) (by decide +kernel) (by decide +kernel)

/-- The server reads the file in two slices, of which the second one begins inside the turn, and the
UI shows the turn without its last assistant message. -/
theorem not_paged_history_shows_transcript_largeTurn :
    scanNativeSessionHistory id {} 7 (80 * 1024 * 1024 + 183) largeTurnLines =
        .ok largeTurnPlan ∧
      largeTurnPlan.readInitial = .ok largeTurnInitial ∧
      largeTurnPlan.followCursors largeTurnInitial.nextCursor [128] =
        .ok ([largeTurnPage], none) ∧
      ¬SameTranscript
        (showPages wireRepresentation (js "s") (sliceMessages largeTurnMessage largeTurnInitial)
          ([largeTurnPage].map (sliceMessages largeTurnMessage))).projection
        (rebuildProjectionFromMessages wireRepresentation (js "s")
          (largeTurnPlan.records.flatMap largeTurnMessage)) := by
  refine ⟨by decide +kernel, by decide +kernel, by decide +kernel, fun hsame => ?_⟩
  have hsteps := congrArg (List.map fun turn : ProductTurn => turn.steps.length) hsame
  exact absurd hsteps (by decide +kernel)

end PiAgentWeb
