import PiAgentWeb.Library.ChunkedLines
import PiAgentWeb.Library.Runs
import PiAgentWeb.Library.Utf8Stream

/-!
# The JSONL line reader

`attachJsonlLineReader` splits the output of a process into lines. The chunks wait on a chain of
promises, and a line is given to its consumer only when the consumer of the line before has
resolved. The lines and the error do not depend on how the bytes are cut into chunks, nor on when
the chunks come and the consumers resolve.
-/

namespace PiAgentWeb

/-- A line feed. -/
def lineFeed : UInt16 := 0x0A

/-- A carriage return. -/
def carriageReturn : UInt16 := 0x0D

/-- The errors of the reader. -/
inductive JsonlError where
  | lineTooLong (maxBytes : ℕ)
  | stream (message : JsString)
  deriving DecidableEq

/-- A callback that waits on `tail`. -/
inductive ReaderJob where
  | consume (chunk : List UInt8)
  | finish
  deriving DecidableEq

/-- What goes on when the consumer of a line resolves. -/
inductive Awaiting where
  | nextLine
  | finished
  deriving DecidableEq

/-- The state of the reader, with the lines given out, the consumers resolved and the errors
reported so far (history). -/
structure JsonlLineReader where
  decoder : StringDecoder
  buffer : JsString
  failed : Bool
  detached : Bool
  ended : Bool
  jobs : List ReaderJob
  awaiting : Option Awaiting
  rejected : Option JsonlError
  lines : List JsString
  resolved : ℕ
  errors : List JsonlError
  deriving DecidableEq

/-- What can happen to the reader. -/
inductive ReaderAction where
  | data (chunk : List UInt8)
  | ended
  | turn
  | resolved
  | settle
  | streamError (message : JsString)
  | detach
  deriving DecidableEq

/-- `line.endsWith("\\r") ? line.slice(0, -1) : line`. -/
def trimReturn (line : JsString) : JsString :=
  if line.getLast? = some carriageReturn then line.dropLast else line

namespace JsonlLineReader

variable (maxLineBytes : ℕ)

/-- The reader that was just attached. -/
def attached : JsonlLineReader where
  decoder := .idle
  buffer := []
  failed := false
  detached := false
  ended := false
  jobs := []
  awaiting := none
  rejected := none
  lines := []
  resolved := 0
  errors := []

/-- `fail`. -/
def fail (r : JsonlLineReader) (error : JsonlError) : JsonlLineReader :=
  if r.failed || r.detached then r
  else { r with failed := true, buffer := [], errors := r.errors ++ [error] }

/-- `emitLine`. -/
def emitLine (r : JsonlLineReader) (line : JsString) (next : Awaiting) : JsonlLineReader :=
  if utf8ByteLength line > maxLineBytes then { r with rejected := some (.lineTooLong maxLineBytes) }
  else { r with lines := r.lines ++ [trimReturn line], awaiting := some next }

/-- One iteration of the loop of `consume`. -/
def readLine (r : JsonlLineReader) : JsonlLineReader :=
  if lineFeed ∈ r.buffer then
    { r with buffer := (r.buffer.dropWhile (· ≠ lineFeed)).tail }.emitLine maxLineBytes
      (r.buffer.takeWhile (· ≠ lineFeed)) .nextLine
  else if utf8ByteLength r.buffer > maxLineBytes then
    { r with rejected := some (.lineTooLong maxLineBytes) }
  else r

/-- A job begins. -/
def begin (r : JsonlLineReader) : ReaderJob → JsonlLineReader
  | .consume chunk =>
    if r.failed || r.detached then r
    else
      { r with
        decoder := (r.decoder.write chunk).2
        buffer := r.buffer ++ (r.decoder.write chunk).1 }.readLine maxLineBytes
  | .finish =>
    if r.failed || r.detached then r
    else
      let line := r.buffer ++ r.decoder.finish
      if line = [] then { r with decoder := .idle, buffer := [] }
      else { r with decoder := .idle, buffer := [] }.emitLine maxLineBytes line .finished

/-- One action. A stream has no data after its end. -/
def step (r : JsonlLineReader) : ReaderAction → JsonlLineReader
  | .data chunk =>
    if r.failed || r.detached || r.ended then r
    else { r with jobs := r.jobs ++ [.consume chunk] }
  | .ended =>
    if r.failed || r.detached || r.ended then r
    else { r with ended := true, jobs := r.jobs ++ [.finish] }
  | .turn =>
    if r.awaiting.isSome || r.rejected.isSome then r
    else
      match r.jobs with
      | [] => r
      | job :: rest => { r with jobs := rest }.begin maxLineBytes job
  | .resolved =>
    match r.awaiting with
    | none => r
    | some .nextLine =>
      let r : JsonlLineReader := { r with awaiting := none, resolved := r.resolved + 1 }
      if r.failed || r.detached then r else r.readLine maxLineBytes
    | some .finished => { r with awaiting := none, resolved := r.resolved + 1 }
  | .settle =>
    match r.rejected with
    | none => r
    | some error => r.fail error
  | .streamError message => r.fail (.stream message)
  | .detach => { r with detached := true, buffer := [] }

/-- Nothing is left to do. -/
def Quiescent (r : JsonlLineReader) : Prop :=
  r.awaiting = none ∧ (r.rejected = none → r.jobs = []) ∧
    (r.rejected ≠ none → r.failed = true ∨ r.detached = true)

instance (r : JsonlLineReader) : Decidable r.Quiescent := inferInstanceAs (Decidable (_ ∧ _))

/-! ## The lines of a text -/

/-- The lines of a text: those that end with a line feed, and an unterminated one if it is not
empty. -/
def linesOf (text : JsString) : List JsString :=
  (ChunkedLines.splitLines lineFeed text).1 ++
    if (ChunkedLines.splitLines lineFeed text).2 = [] then []
    else [(ChunkedLines.splitLines lineFeed text).2]

/-- The lines are given out until one is too long. -/
def framed : List JsString → List JsString × Option JsonlError
  | [] => ([], none)
  | line :: rest =>
    if utf8ByteLength line > maxLineBytes then ([], some (.lineTooLong maxLineBytes))
    else (trimReturn line :: (framed rest).1, (framed rest).2)

theorem framed_eq (lines : List JsString) :
    framed maxLineBytes lines =
      ((lines.takeWhile (utf8ByteLength · ≤ maxLineBytes)).map trimReturn,
        if ∃ line ∈ lines, maxLineBytes < utf8ByteLength line then
          some (.lineTooLong maxLineBytes) else none) := by
  induction lines with
  | nil => simp [framed]
  | cons line rest ih =>
    by_cases hlong : utf8ByteLength line > maxLineBytes
    · simp [framed, hlong, Nat.not_le.mpr hlong]
    · have hfits : utf8ByteLength line ≤ maxLineBytes := Nat.le_of_not_lt hlong
      simp [framed, hlong, hfits, ih]

variable {maxLineBytes}

theorem linesOf_line {line : JsString} (h : lineFeed ∉ line) (rest : JsString) :
    linesOf (line ++ lineFeed :: rest) = line :: linesOf rest := by
  rw [linesOf, ChunkedLines.splitLines_line h]
  rfl

theorem linesOf_unterminated {text : JsString} (h : lineFeed ∉ text) :
    linesOf text = if text = [] then [] else [text] := by
  rw [linesOf, ChunkedLines.splitLines_of_not_mem h]
  rfl

theorem line_append (text : JsString) (h : lineFeed ∈ text) :
    text = text.takeWhile (· ≠ lineFeed) ++ lineFeed :: (text.dropWhile (· ≠ lineFeed)).tail ∧
      lineFeed ∉ text.takeWhile (· ≠ lineFeed) := by
  constructor
  · induction text with
    | nil => cases h
    | cons u rest ih =>
      by_cases hu : u = lineFeed
      · subst hu
        simp
      · have hmem : lineFeed ∈ rest := (List.mem_cons.mp h).resolve_left (Ne.symm hu)
        rw [List.takeWhile_cons_of_pos (by simpa using hu),
          List.dropWhile_cons_of_pos (by simpa using hu), List.cons_append, ← ih hmem]
  · intro hmem
    have hne := List.all_eq_true.mp List.all_takeWhile _ hmem
    simp at hne

theorem framed_of_long_beginning {start : JsString} (h : lineFeed ∉ start)
    (hlong : utf8ByteLength start > maxLineBytes) (rest : JsString) :
    framed maxLineBytes (linesOf (start ++ rest)) = ([], some (.lineTooLong maxLineBytes)) := by
  obtain ⟨line, lines, tail, hlines, rfl⟩ :
      ∃ line lines tail, linesOf (start ++ rest) = line :: lines ∧ start ++ tail = line := by
    rcases ChunkedLines.prefix_of_splitLines h rest with
      ⟨line, lines, hsplit, tail, htail⟩ | ⟨hsplit, tail, htail⟩
    · exact ⟨line, _, tail, by rw [linesOf, hsplit]; rfl, htail⟩
    · refine ⟨_, [], tail, ?_, htail⟩
      rw [linesOf, hsplit, if_neg]
      · rfl
      · rintro hnil
        rw [hnil, List.append_eq_nil_iff] at htail
        rw [htail.1] at hlong
        exact absurd hlong (Nat.not_lt_zero _)
  have hsize := utf8ByteLength_le_append start tail
  rw [hlines, framed, if_pos (by omega)]

/-! ## What the reader will have done -/

/-- The bytes of the waiting chunks. -/
def waitingBytes : List ReaderJob → List UInt8
  | [] => []
  | .consume chunk :: rest => chunk ++ waitingBytes rest
  | .finish :: rest => waitingBytes rest

theorem waitingBytes_append (first second : List ReaderJob) :
    waitingBytes (first ++ second) = waitingBytes first ++ waitingBytes second := by
  induction first with
  | nil => rfl
  | cons job rest ih =>
    cases job with
    | consume chunk => rw [List.cons_append, waitingBytes, ih, waitingBytes, List.append_assoc]
    | finish => exact ih

variable (maxLineBytes)

/-- The lines and the error that the reader ends with if the bytes still come. -/
def eventual (r : JsonlLineReader) (coming : List UInt8) : List JsString × Option JsonlError :=
  match r.rejected with
  | some error => (r.lines, some error)
  | none =>
    let tail := r.decoder.write (waitingBytes r.jobs ++ coming)
    let outcome := framed maxLineBytes (linesOf (r.buffer ++ (tail.1 ++ tail.2.finish)))
    (r.lines ++ outcome.1, outcome.2)

variable {maxLineBytes} {r : JsonlLineReader}

theorem emitLine_eventual {line : JsString} {next : Awaiting} (hrejected : r.rejected = none)
    (coming : List UInt8) :
    (r.emitLine maxLineBytes line next).eventual maxLineBytes coming =
      let tail := r.decoder.write (waitingBytes r.jobs ++ coming)
      let outcome := framed maxLineBytes (line :: linesOf (r.buffer ++ (tail.1 ++ tail.2.finish)))
      (r.lines ++ outcome.1, outcome.2) := by
  unfold emitLine
  by_cases hlong : utf8ByteLength line > maxLineBytes
  · simp only [if_pos hlong, eventual, framed, List.append_nil]
  · simp only [if_neg hlong, eventual, hrejected, framed, List.append_assoc,
      List.singleton_append]

theorem readLine_eventual (hrejected : r.rejected = none) (coming : List UInt8) :
    (r.readLine maxLineBytes).eventual maxLineBytes coming = r.eventual maxLineBytes coming := by
  unfold readLine
  by_cases hline : lineFeed ∈ r.buffer
  · obtain ⟨hbuffer, hnone⟩ := line_append r.buffer hline
    rw [if_pos hline, emitLine_eventual (by exact hrejected)]
    conv_rhs => rw [eventual, hrejected]
    dsimp only
    generalize (r.decoder.write (waitingBytes r.jobs ++ coming)).1 ++
      (r.decoder.write (waitingBytes r.jobs ++ coming)).2.finish = text
    conv_rhs => rw [hbuffer, List.append_assoc, List.cons_append, linesOf_line hnone]
  · rw [if_neg hline]
    by_cases hlong : utf8ByteLength r.buffer > maxLineBytes
    · rw [if_pos hlong]
      simp only [eventual, hrejected, framed_of_long_beginning hline hlong, List.append_nil]
    · rw [if_neg hlong]

/-- The invariant of a stream that is neither detached nor in error. -/
structure Sound (r : JsonlLineReader) : Prop where
  attached : r.detached = false
  errors : r.errors = if r.failed then r.rejected.toList else []
  failed : r.failed = true → r.rejected ≠ none
  awaiting : r.awaiting ≠ none → r.rejected = none
  buffer : r.awaiting ≠ some .nextLine → r.rejected = none → lineFeed ∉ r.buffer
  jobs : r.ended = false → ReaderJob.finish ∉ r.jobs
  ended : r.ended = true →
    (∃ waiting, r.jobs = waiting ++ [.finish] ∧ ReaderJob.finish ∉ waiting) ∨
      (r.jobs = [] ∧ (r.rejected = none → r.buffer = [] ∧ r.decoder = .idle))

theorem attached_sound : attached.Sound where
  attached := rfl
  errors := rfl
  failed := nofun
  awaiting := nofun
  buffer := fun _ _ => List.not_mem_nil
  jobs := fun _ => List.not_mem_nil
  ended := nofun

/-- The bytes that come before the end of the stream. -/
def incoming : Bool → List ReaderAction → List UInt8
  | true, _ => []
  | false, [] => []
  | false, .data chunk :: rest => chunk ++ incoming false rest
  | false, .ended :: _ => []
  | false, _ :: rest => incoming false rest


/-- The actions of a stream without errors whose reader stays attached. -/
def Ordinary : ReaderAction → Prop
  | .streamError _ => False
  | .detach => False
  | _ => True

/-- The reader while one of its callbacks runs. -/
structure Running (r : JsonlLineReader) : Prop where
  attached : r.detached = false
  failed : r.failed = false
  errors : r.errors = []
  rejected : r.rejected = none
  awaiting : r.awaiting = none
  jobs : r.ended = false → ReaderJob.finish ∉ r.jobs
  ended : r.ended = true →
    (∃ waiting, r.jobs = waiting ++ [.finish] ∧ ReaderJob.finish ∉ waiting) ∨
      (r.jobs = [] ∧ r.buffer = [] ∧ r.decoder = .idle)

theorem Sound.running (h : r.Sound) (hrejected : r.rejected = none) :
    Running { r with awaiting := none, resolved := r.resolved + 1 } ∧
      (r.awaiting = none → r.Running) := by
  have hfailed : r.failed = false := by
    cases hf : r.failed with
    | false => rfl
    | true => exact absurd hrejected (h.failed hf)
  have herrors : r.errors = [] := by
    rw [h.errors, hfailed]
    rfl
  have hended : r.ended = true →
      (∃ waiting, r.jobs = waiting ++ [.finish] ∧ ReaderJob.finish ∉ waiting) ∨
        (r.jobs = [] ∧ r.buffer = [] ∧ r.decoder = .idle) :=
    fun hended => (h.ended hended).imp_right fun hdone => ⟨hdone.1, hdone.2 hrejected⟩
  exact ⟨⟨h.attached, hfailed, herrors, hrejected, rfl, h.jobs, hended⟩,
    fun hawaiting => ⟨h.attached, hfailed, herrors, hrejected, hawaiting, h.jobs, hended⟩⟩

theorem Running.throw (h : r.Running) (error : JsonlError) :
    Sound { r with rejected := some error } where
  attached := h.attached
  errors := by simp [h.failed, h.errors]
  failed := by simp
  awaiting := by simp [h.awaiting]
  buffer := nofun
  jobs := h.jobs
  ended := fun hended => (h.ended hended).imp_right fun hdone => ⟨hdone.1, nofun⟩

theorem Running.emitLine (h : r.Running) (line : JsString) {next : Awaiting}
    (hnext : next = .finished → r.buffer = []) : (r.emitLine maxLineBytes line next).Sound := by
  unfold JsonlLineReader.emitLine
  split
  · exact h.throw _
  · refine ⟨h.attached, by simp [h.failed, h.errors], by simp [h.failed], fun _ => h.rejected,
      fun hawaiting _ => ?_, h.jobs,
      fun hended => (h.ended hended).imp_right fun hdone => ⟨hdone.1, fun _ => hdone.2⟩⟩
    cases next with
    | nextLine => exact absurd rfl hawaiting
    | finished =>
      rw [hnext rfl]
      exact List.not_mem_nil

theorem Running.readLine (h : r.Running) : (r.readLine maxLineBytes).Sound := by
  unfold JsonlLineReader.readLine
  split
  · rename_i hline
    have hnext : Running { r with buffer := (r.buffer.dropWhile (· ≠ lineFeed)).tail } := by
      refine ⟨h.attached, h.failed, h.errors, h.rejected, h.awaiting, h.jobs, fun hended => ?_⟩
      rcases h.ended hended with hwaiting | ⟨-, hbuffer, -⟩
      · exact .inl hwaiting
      · rw [hbuffer] at hline
        cases hline
    exact hnext.emitLine _ nofun
  · rename_i hline
    split
    · exact h.throw _
    · exact ⟨h.attached, by simp [h.failed, h.errors], by simp [h.failed], fun _ => h.rejected,
        fun _ _ => hline, h.jobs,
        fun hended => (h.ended hended).imp_right fun hdone => ⟨hdone.1, fun _ => hdone.2⟩⟩

theorem begin_sound_eventual {job : ReaderJob} {jobs : List ReaderJob} (h : r.Running)
    (hbuffer : lineFeed ∉ r.buffer) (hjobs : r.jobs = job :: jobs) (coming : List UInt8)
    (hcoming : r.ended = true → coming = []) :
    (begin maxLineBytes { r with jobs := jobs } job).Sound ∧
      (begin maxLineBytes { r with jobs := jobs } job).eventual maxLineBytes coming =
        r.eventual maxLineBytes coming := by
  cases job with
  | consume chunk =>
    have hnext : Running
        { r with
          jobs := jobs
          decoder := (r.decoder.write chunk).2
          buffer := r.buffer ++ (r.decoder.write chunk).1 } := by
      refine ⟨h.attached, h.failed, h.errors, h.rejected, h.awaiting, fun hended => ?_,
        fun hended => ?_⟩
      · have hfinish := h.jobs hended
        rw [hjobs, List.mem_cons, not_or] at hfinish
        exact hfinish.2
      · rcases h.ended hended with ⟨waiting, hwaiting, hfinish⟩ | ⟨hnone, -⟩
        · rw [hjobs] at hwaiting
          cases waiting with
          | nil => cases hwaiting
          | cons first waiting =>
            cases hwaiting
            rw [List.mem_cons, not_or] at hfinish
            exact .inl ⟨waiting, rfl, hfinish.2⟩
        · rw [hjobs] at hnone
          cases hnone
    have hbegin : begin maxLineBytes { r with jobs := jobs } (.consume chunk) =
        readLine maxLineBytes
          { r with
            jobs := jobs
            decoder := (r.decoder.write chunk).2
            buffer := r.buffer ++ (r.decoder.write chunk).1 } :=
      if_neg (by simp [h.failed, h.attached])
    rw [hbegin]
    refine ⟨hnext.readLine, ?_⟩
    rw [readLine_eventual (by exact h.rejected)]
    simp only [eventual, h.rejected, hjobs, waitingBytes, List.append_assoc,
      StringDecoder.write_append]
  | finish =>
    -- nothing waits behind the end of the stream, and nothing comes after it
    obtain ⟨hended, rfl⟩ : r.ended = true ∧ jobs = [] := by
      cases hended : r.ended with
      | false =>
        have hfinish := h.jobs hended
        rw [hjobs] at hfinish
        exact absurd List.mem_cons_self hfinish
      | true =>
        refine ⟨rfl, ?_⟩
        rcases h.ended hended with ⟨waiting, hwaiting, hfinish⟩ | ⟨hnone, -⟩
        · rw [hjobs] at hwaiting
          cases waiting with
          | nil =>
            cases hwaiting
            rfl
          | cons first waiting =>
            cases hwaiting
            exact absurd List.mem_cons_self hfinish
        · rw [hjobs] at hnone
          cases hnone
    have hnext : Running { r with jobs := [], decoder := .idle, buffer := [] } :=
      ⟨h.attached, h.failed, h.errors, h.rejected, h.awaiting, fun _ => List.not_mem_nil,
        fun _ => .inr ⟨rfl, rfl, rfl⟩⟩
    have hline : lineFeed ∉ r.buffer ++ r.decoder.finish := by
      rw [List.mem_append, not_or]
      exact ⟨hbuffer, r.decoder.newline_not_mem_finish⟩
    have heventual : r.eventual maxLineBytes coming =
        (r.lines ++ (framed maxLineBytes (linesOf (r.buffer ++ r.decoder.finish))).1,
          (framed maxLineBytes (linesOf (r.buffer ++ r.decoder.finish))).2) := by
      simp only [eventual, h.rejected, hjobs, waitingBytes, hcoming hended, List.append_nil,
        StringDecoder.write, List.nil_append]
    have hfinished : ∀ q : JsonlLineReader, q.rejected = none → q.jobs = [] → q.buffer = [] →
        q.decoder = .idle → q.eventual maxLineBytes coming = (q.lines, none) := by
      intro q hrejected hjobs hbuffer hdecoder
      simp only [eventual, hrejected, hjobs, hbuffer, hdecoder, waitingBytes, hcoming hended,
        List.append_nil, StringDecoder.write, StringDecoder.finish, linesOf,
        ChunkedLines.splitLines, if_true, framed]
    rw [heventual, linesOf_unterminated hline]
    have hbegin : begin maxLineBytes { r with jobs := [] } .finish =
        if r.buffer ++ r.decoder.finish = [] then
          { r with jobs := [], decoder := .idle, buffer := [] }
        else
          emitLine maxLineBytes { r with jobs := [], decoder := .idle, buffer := [] }
            (r.buffer ++ r.decoder.finish) .finished :=
      if_neg (by simp [h.failed, h.attached])
    rw [hbegin]
    by_cases hempty : r.buffer ++ r.decoder.finish = []
    · rw [if_pos hempty, if_pos hempty]
      refine ⟨⟨h.attached, by simp [h.failed, h.errors], by simp [h.failed], fun _ => h.rejected,
        fun _ _ => List.not_mem_nil, fun _ => List.not_mem_nil,
        fun _ => .inr ⟨rfl, fun _ => ⟨rfl, rfl⟩⟩⟩, ?_⟩
      rw [hfinished _ (by exact h.rejected) rfl rfl rfl, framed, List.append_nil]
    · rw [if_neg hempty, if_neg hempty]
      refine ⟨hnext.emitLine _ fun _ => rfl, ?_⟩
      rw [emitLine_eventual (by exact h.rejected)]
      simp only [waitingBytes, hcoming hended, List.append_nil, StringDecoder.write,
        StringDecoder.finish]
      rfl

theorem eventual_of_rejected (h : r.rejected ≠ none) (coming coming' : List UInt8) :
    r.eventual maxLineBytes coming = r.eventual maxLineBytes coming' := by
  unfold eventual
  cases hrejected : r.rejected with
  | none => exact absurd hrejected h
  | some error => rfl

theorem incoming_of_ended {ended : Bool} (h : ended = true) (actions : List ReaderAction) :
    incoming ended actions = [] := by
  subst h
  cases actions <;> rfl

theorem eventual_of_closed (h : r.Sound) (hclosed : (r.failed || r.detached || r.ended) = true)
    (action : ReaderAction) (rest : List ReaderAction) :
    r.eventual maxLineBytes (incoming r.ended rest) =
      r.eventual maxLineBytes (incoming r.ended (action :: rest)) := by
  cases hended : r.ended with
  | true => rw [incoming_of_ended rfl, incoming_of_ended rfl]
  | false =>
    have hfailed : r.failed = true := by simpa [h.attached, hended] using hclosed
    exact eventual_of_rejected (h.failed hfailed) _ _

/-- The end of the stream and the waiting jobs are the same. -/
def SameStream (r q : JsonlLineReader) : Prop := q.ended = r.ended ∧ q.jobs = r.jobs

theorem emitLine_sameStream {line : JsString} {next : Awaiting} :
    r.SameStream (r.emitLine maxLineBytes line next) := by
  unfold emitLine
  split <;> exact ⟨rfl, rfl⟩

theorem readLine_sameStream : r.SameStream (r.readLine maxLineBytes) := by
  unfold readLine
  split
  · exact emitLine_sameStream
  · split <;> exact ⟨rfl, rfl⟩

theorem begin_sameStream {job : ReaderJob} : r.SameStream (r.begin maxLineBytes job) := by
  cases job with
  | consume chunk =>
    unfold begin
    dsimp only
    split
    · exact ⟨rfl, rfl⟩
    · exact readLine_sameStream
  | finish =>
    unfold begin
    dsimp only
    split
    · exact ⟨rfl, rfl⟩
    · split
      · exact ⟨rfl, rfl⟩
      · exact emitLine_sameStream

variable (maxLineBytes) in
theorem step_sound_eventual (h : r.Sound) {action : ReaderAction} (hordinary : Ordinary action)
    (rest : List ReaderAction) :
    (r.step maxLineBytes action).Sound ∧
      (r.step maxLineBytes action).eventual maxLineBytes
          (incoming (r.step maxLineBytes action).ended rest) =
        r.eventual maxLineBytes (incoming r.ended (action :: rest)) := by
  cases action with
  | data chunk =>
    by_cases hclosed : (r.failed || r.detached || r.ended) = true
    · have hstep : r.step maxLineBytes (.data chunk) = r := if_pos hclosed
      rw [hstep]
      exact ⟨h, eventual_of_closed h hclosed (.data chunk) rest⟩
    · have hstep : r.step maxLineBytes (.data chunk) =
          { r with jobs := r.jobs ++ [.consume chunk] } := if_neg hclosed
      rw [hstep]
      simp only [Bool.or_eq_true, not_or, Bool.not_eq_true] at hclosed
      refine ⟨⟨h.attached, h.errors, h.failed, h.awaiting, h.buffer, fun hended => ?_,
        fun hended => absurd hended (by simp [hclosed.2])⟩, ?_⟩
      · simp only [List.mem_append, List.mem_singleton, reduceCtorEq, or_false]
        exact h.jobs hended
      · simp only [hclosed.2, incoming, eventual, waitingBytes_append, waitingBytes,
          List.append_nil, List.append_assoc]
  | ended =>
    by_cases hclosed : (r.failed || r.detached || r.ended) = true
    · have hstep : r.step maxLineBytes .ended = r := if_pos hclosed
      rw [hstep]
      exact ⟨h, eventual_of_closed h hclosed .ended rest⟩
    · have hstep : r.step maxLineBytes .ended =
          { r with ended := true, jobs := r.jobs ++ [.finish] } := if_neg hclosed
      rw [hstep]
      simp only [Bool.or_eq_true, not_or, Bool.not_eq_true] at hclosed
      refine ⟨⟨h.attached, h.errors, h.failed, h.awaiting, h.buffer, nofun,
        fun _ => .inl ⟨r.jobs, rfl, h.jobs hclosed.2⟩⟩, ?_⟩
      rw [incoming_of_ended rfl, hclosed.2]
      simp only [eventual, incoming, waitingBytes_append, waitingBytes, List.append_nil]
  | turn =>
    have hincoming : ∀ ended, incoming ended (.turn :: rest) = incoming ended rest := by
      rintro (_ | _)
      · rfl
      · rw [incoming_of_ended rfl, incoming_of_ended rfl]
    by_cases hbusy : (r.awaiting.isSome || r.rejected.isSome) = true
    · have hstep : r.step maxLineBytes .turn = r := if_pos hbusy
      rw [hstep, hincoming]
      exact ⟨h, rfl⟩
    simp only [Bool.or_eq_true, not_or, Option.isSome_iff_ne_none, ne_eq, not_not] at hbusy
    have hrunning := (h.running hbusy.2).2 hbusy.1
    cases hjobs : r.jobs with
    | nil =>
      have hstep : r.step maxLineBytes .turn = r := by
        simp only [step, hbusy, hjobs, Option.isSome_none, Bool.or_self, Bool.false_eq_true,
          if_false]
      rw [hstep, hincoming]
      exact ⟨h, rfl⟩
    | cons job jobs =>
      have hstep : r.step maxLineBytes .turn = begin maxLineBytes { r with jobs := jobs } job := by
        simp only [step, hbusy, hjobs, Option.isSome_none, Bool.or_self, Bool.false_eq_true,
          if_false]
      have hended : (begin maxLineBytes { r with jobs := jobs } job).ended = r.ended :=
        begin_sameStream.1
      rw [hstep, hended, hincoming]
      exact begin_sound_eventual hrunning (h.buffer (by simp [hbusy.1]) hbusy.2) hjobs _
        fun hended => incoming_of_ended hended rest
  | resolved =>
    have hincoming : ∀ ended, incoming ended (.resolved :: rest) = incoming ended rest := by
      rintro (_ | _)
      · rfl
      · rw [incoming_of_ended rfl, incoming_of_ended rfl]
    cases hawaiting : r.awaiting with
    | none =>
      have hstep : r.step maxLineBytes .resolved = r := by
        simp only [step, hawaiting]
      rw [hstep, hincoming]
      exact ⟨h, rfl⟩
    | some next =>
      have hrejected : r.rejected = none := h.awaiting (by simp [hawaiting])
      have hrunning := (h.running hrejected).1
      cases next with
      | nextLine =>
        have hstep : r.step maxLineBytes .resolved =
            readLine maxLineBytes { r with awaiting := none, resolved := r.resolved + 1 } := by
          simp only [step, hawaiting]
          have hfailed : r.failed = false := hrunning.failed
          exact if_neg (by simp [hfailed, h.attached])
        have hended : (readLine maxLineBytes
            { r with awaiting := none, resolved := r.resolved + 1 }).ended = r.ended :=
          readLine_sameStream.1
        rw [hstep, hended, hincoming]
        refine ⟨hrunning.readLine, ?_⟩
        rw [readLine_eventual (by exact hrejected)]
        rfl
      | finished =>
        have hstep : r.step maxLineBytes .resolved =
            { r with awaiting := none, resolved := r.resolved + 1 } := by
          simp only [step, hawaiting]
        rw [hstep, hincoming]
        refine ⟨⟨h.attached, h.errors, h.failed, nofun, fun _ => h.buffer (by simp [hawaiting]),
          h.jobs, h.ended⟩, rfl⟩
  | settle =>
    have hincoming : ∀ ended, incoming ended (.settle :: rest) = incoming ended rest := by
      rintro (_ | _)
      · rfl
      · rw [incoming_of_ended rfl, incoming_of_ended rfl]
    cases hrejected : r.rejected with
    | none =>
      have hstep : r.step maxLineBytes .settle = r := by
        simp only [step, hrejected]
      rw [hstep, hincoming]
      exact ⟨h, rfl⟩
    | some error =>
      have hstep : r.step maxLineBytes .settle = r.fail error := by
        simp only [step, hrejected]
      rw [hstep]
      unfold fail
      cases hfailed : r.failed with
      | true =>
        rw [if_pos (by simp), hincoming]
        exact ⟨h, rfl⟩
      | false =>
        rw [if_neg (by simp [h.attached]), hincoming]
        refine ⟨⟨h.attached, ?_, ?_, h.awaiting, fun _ hnone => ?_, h.jobs, fun hended => ?_⟩, ?_⟩
        · simp [h.errors, hfailed, hrejected]
        · simp [hrejected]
        · exact List.not_mem_nil
        · exact (h.ended hended).imp_right fun hdone =>
            ⟨hdone.1, fun hnone => ⟨rfl, (hdone.2 hnone).2⟩⟩
        · simp only [eventual, hrejected]
  | streamError message => cases hordinary
  | detach => cases hordinary

variable (maxLineBytes) in
theorem run_sound_eventual (h : r.Sound) {actions : List ReaderAction}
    (hordinary : ∀ action ∈ actions, Ordinary action) :
    (runFrom (step maxLineBytes) r actions).Sound ∧
      (runFrom (step maxLineBytes) r actions).eventual maxLineBytes [] =
        r.eventual maxLineBytes (incoming r.ended actions) := by
  induction actions generalizing r with
  | nil => exact ⟨h, by cases r.ended <;> rfl⟩
  | cons action rest ih =>
    obtain ⟨hsound, heventual⟩ :=
      step_sound_eventual maxLineBytes h (hordinary action List.mem_cons_self) rest
    obtain ⟨hlast, hrest⟩ := ih hsound fun action hmem => hordinary action (.tail _ hmem)
    exact ⟨hlast, hrest.trans heventual⟩

variable (maxLineBytes) in
theorem Sound.eventual_of_quiescent (h : r.Sound)
    (hended : r.rejected = none → r.ended = true) (hquiescent : r.Quiescent) :
    r.eventual maxLineBytes [] = (r.lines, r.rejected) ∧ r.errors = r.rejected.toList := by
  obtain ⟨hawaiting, hjobs, hfailed⟩ := hquiescent
  cases hrejected : r.rejected with
  | some error =>
    refine ⟨by simp only [eventual, hrejected], ?_⟩
    have hreported := (hfailed (by simp [hrejected])).resolve_right (by simp [h.attached])
    rw [h.errors, hreported, hrejected]
    rfl
  | none =>
    have hnone := hjobs hrejected
    obtain ⟨hbuffer, hdecoder⟩ : r.buffer = [] ∧ r.decoder = .idle := by
      rcases h.ended (hended hrejected) with ⟨waiting, hwaiting, -⟩ | ⟨-, hdone⟩
      · rw [hnone] at hwaiting
        exact absurd hwaiting.symm (by simp)
      · exact hdone hrejected
    refine ⟨?_, ?_⟩
    · simp only [eventual, hrejected, hnone, hbuffer, hdecoder, waitingBytes, List.append_nil,
        StringDecoder.write, StringDecoder.finish, linesOf, ChunkedLines.splitLines, if_true,
        framed]
    · rw [h.errors, hrejected]
      cases r.failed <;> rfl

/-! ## One consumer at a time -/

/-- All consumers but the one that is awaited have resolved. -/
def OneAtATime (r : JsonlLineReader) : Prop :=
  r.lines.length = r.resolved + if r.awaiting.isSome then 1 else 0

theorem emitLine_oneAtATime {line : JsString} {next : Awaiting} (h : r.OneAtATime)
    (hawaiting : r.awaiting = none) : (r.emitLine maxLineBytes line next).OneAtATime := by
  unfold OneAtATime at h ⊢
  rw [hawaiting] at h
  unfold emitLine
  split
  · rw [hawaiting]
    exact h
  · simpa using h

theorem readLine_oneAtATime (h : r.OneAtATime) (hawaiting : r.awaiting = none) :
    (r.readLine maxLineBytes).OneAtATime := by
  unfold readLine
  split
  · exact emitLine_oneAtATime (by exact h) hawaiting
  · split
    · exact h
    · exact h

theorem fail_oneAtATime (h : r.OneAtATime) (error : JsonlError) : (r.fail error).OneAtATime := by
  unfold fail
  split
  · exact h
  · exact h

theorem step_oneAtATime (h : r.OneAtATime) (action : ReaderAction) :
    (r.step maxLineBytes action).OneAtATime := by
  cases action with
  | data chunk =>
    simp only [step]
    split
    · exact h
    · exact h
  | ended =>
    simp only [step]
    split
    · exact h
    · exact h
  | turn =>
    simp only [step]
    split
    · exact h
    rename_i hidle
    simp only [Bool.or_eq_true, not_or, Option.isSome_iff_ne_none, ne_eq, not_not] at hidle
    split
    · exact h
    rename_i job rest hjobs
    cases job with
    | consume chunk =>
      unfold begin
      dsimp only
      split
      · exact h
      · exact readLine_oneAtATime (by exact h) hidle.1
    | finish =>
      unfold begin
      dsimp only
      split
      · exact h
      · split
        · exact h
        · exact emitLine_oneAtATime (by exact h) hidle.1
  | resolved =>
    simp only [step]
    split
    · exact h
    · rename_i hawaiting
      have hnext : OneAtATime { r with awaiting := none, resolved := r.resolved + 1 } := by
        unfold OneAtATime at h ⊢
        rw [hawaiting] at h
        simpa using h
      split
      · exact hnext
      · exact readLine_oneAtATime hnext rfl
    · rename_i hawaiting
      unfold OneAtATime at h ⊢
      rw [hawaiting] at h
      simpa using h
  | settle =>
    simp only [step]
    split
    · exact h
    · exact fail_oneAtATime h _
  | streamError message => exact fail_oneAtATime h _
  | detach => exact h

/-! ## Progress -/

/-- What the reader does by itself when its consumers resolve. -/
def Internal : ReaderAction → Prop
  | .turn => True
  | .resolved => True
  | .settle => True
  | _ => False

variable (maxLineBytes) in
theorem resolved_buffer (hawaiting : r.awaiting ≠ none) :
    (r.step maxLineBytes .resolved).jobs = r.jobs ∧
      ((r.step maxLineBytes .resolved).awaiting = none ∨
        (r.step maxLineBytes .resolved).buffer.length < r.buffer.length) := by
  simp only [step]
  split
  · exact absurd ‹_› hawaiting
  · split
    · exact ⟨rfl, .inl rfl⟩
    · refine ⟨readLine_sameStream.2, ?_⟩
      unfold readLine
      split
      · rename_i hline
        right
        obtain ⟨hsplit, -⟩ := line_append r.buffer hline
        have hlength := congrArg List.length hsplit
        rw [List.length_append, List.length_cons] at hlength
        unfold emitLine
        split
        · dsimp only
          omega
        · dsimp only
          omega
      · split
        · exact .inl rfl
        · exact .inl rfl
  · exact ⟨rfl, .inl rfl⟩

variable (maxLineBytes) in
theorem exists_resolved (n : ℕ) (hbuffer : r.buffer.length ≤ n) :
    ∃ actions, (∀ action ∈ actions, Internal action) ∧
      (runFrom (step maxLineBytes) r actions).awaiting = none ∧
      (runFrom (step maxLineBytes) r actions).jobs = r.jobs := by
  induction n generalizing r with
  | zero =>
    by_cases hawaiting : r.awaiting = none
    · exact ⟨[], nofun, hawaiting, rfl⟩
    · obtain ⟨hjobs, hnone | hshorter⟩ := resolved_buffer maxLineBytes hawaiting
      · exact ⟨[.resolved], by simp [Internal], hnone, hjobs⟩
      · omega
  | succ n ih =>
    by_cases hawaiting : r.awaiting = none
    · exact ⟨[], nofun, hawaiting, rfl⟩
    · obtain ⟨hjobs, hnone | hshorter⟩ := resolved_buffer maxLineBytes hawaiting
      · exact ⟨[.resolved], by simp [Internal], hnone, hjobs⟩
      · obtain ⟨actions, hinternal, hlast, hsame⟩ :=
          ih (r := r.step maxLineBytes .resolved) (by omega)
        refine ⟨.resolved :: actions, ?_, hlast, hsame.trans hjobs⟩
        rintro action (_ | ⟨_, hmem⟩)
        · trivial
        · exact hinternal action hmem

variable (maxLineBytes) in
theorem settle_quiescent (hawaiting : r.awaiting = none) (hjobs : r.rejected = none → r.jobs = []) :
    (r.step maxLineBytes .settle).Quiescent := by
  simp only [step]
  split
  · rename_i hrejected
    exact ⟨hawaiting, hjobs, fun h => absurd hrejected h⟩
  · unfold fail
    split
    · rename_i hclosed
      exact ⟨hawaiting, hjobs, fun _ => by simpa using hclosed⟩
    · exact ⟨hawaiting, hjobs, fun _ => .inl rfl⟩

variable (maxLineBytes) in
theorem exists_quiescent (r : JsonlLineReader) :
    ∃ actions, (∀ action ∈ actions, Internal action) ∧
      (runFrom (step maxLineBytes) r actions).Quiescent := by
  generalize hn : r.jobs.length = n
  induction n generalizing r with
  | zero =>
    obtain ⟨actions, hinternal, hawaiting, hjobs⟩ :=
      exists_resolved maxLineBytes (r := r) _ (Nat.le_refl _)
    refine ⟨actions ++ [.settle], ?_, ?_⟩
    · intro action hmem
      rcases List.mem_append.mp hmem with hmem | hmem
      · exact hinternal action hmem
      · rw [List.mem_singleton.mp hmem]
        trivial
    · rw [runFrom_append]
      exact settle_quiescent maxLineBytes hawaiting fun _ =>
        hjobs.trans (List.length_eq_zero_iff.mp hn)
  | succ n ih =>
    obtain ⟨actions, hinternal, hawaiting, hjobs⟩ :=
      exists_resolved maxLineBytes (r := r) _ (Nat.le_refl _)
    generalize hq : runFrom (step maxLineBytes) r actions = q at hawaiting hjobs
    cases hrejected : q.rejected with
    | some error =>
      refine ⟨actions ++ [.settle], ?_, ?_⟩
      · intro action hmem
        rcases List.mem_append.mp hmem with hmem | hmem
        · exact hinternal action hmem
        · rw [List.mem_singleton.mp hmem]
          trivial
      · rw [runFrom_append, hq]
        exact settle_quiescent maxLineBytes hawaiting fun hnone => by simp [hrejected] at hnone
    | none =>
      rw [← hjobs] at hn
      obtain ⟨job, rest, hcons⟩ := List.exists_cons_of_length_eq_add_one hn
      have hturn : q.step maxLineBytes .turn = begin maxLineBytes { q with jobs := rest } job := by
        simp only [step, hawaiting, hrejected, hcons, Option.isSome_none, Bool.or_self,
          Bool.false_eq_true, if_false]
      have hlength : (q.step maxLineBytes .turn).jobs.length = n := by
        rw [hturn, begin_sameStream.2]
        rw [hcons, List.length_cons] at hn
        exact Nat.succ.inj hn
      obtain ⟨later, hlater, hquiescent⟩ := ih _ hlength
      refine ⟨actions ++ .turn :: later, ?_, ?_⟩
      · intro action hmem
        rcases List.mem_append.mp hmem with hmem | _ | ⟨_, hmem⟩
        · exact hinternal action hmem
        · trivial
        · exact hlater action hmem
      · rw [runFrom_append, hq]
        exact hquiescent

/-- The bytes that came before the end of the stream. -/
def received (actions : List ReaderAction) : List UInt8 := incoming false actions

/-- The stream has ended, or the reader was rejected. -/
def Closed (r : JsonlLineReader) : Prop := r.rejected = none → r.ended = true

theorem step_closed (h : r.Sound) (hclosed : r.Closed) (action : ReaderAction) :
    (r.step maxLineBytes action).Closed := by
  cases action with
  | data chunk =>
    simp only [step]
    split
    · exact hclosed
    · exact hclosed
  | ended =>
    simp only [step]
    split
    · exact hclosed
    · exact fun _ => rfl
  | turn =>
    simp only [step]
    split
    · exact hclosed
    · rename_i hidle
      simp only [Bool.or_eq_true, not_or, Option.isSome_iff_ne_none, ne_eq, not_not] at hidle
      split
      · exact hclosed
      · exact fun _ => begin_sameStream.1.trans (hclosed hidle.2)
  | resolved =>
    simp only [step]
    split
    · exact hclosed
    · rename_i hawaiting
      have hended := hclosed (h.awaiting (by simp [hawaiting]))
      split
      · exact hclosed
      · exact fun _ => readLine_sameStream.1.trans hended
    · exact hclosed
  | settle =>
    simp only [step]
    split
    · exact hclosed
    · unfold fail
      split
      · exact hclosed
      · exact hclosed
  | streamError message =>
    simp only [step, fail]
    split
    · exact hclosed
    · exact hclosed
  | detach => exact hclosed

theorem ended_closed (h : r.Sound) : (r.step maxLineBytes .ended).Closed := by
  simp only [step]
  split
  · rename_i hclosed
    intro hrejected
    simp only [h.attached, Bool.or_false, Bool.or_eq_true] at hclosed
    exact hclosed.resolve_left fun hfailed => h.failed hfailed hrejected
  · exact fun _ => rfl

variable (maxLineBytes) in
theorem run_closed (h : r.Sound) {actions : List ReaderAction}
    (hordinary : ∀ action ∈ actions, Ordinary action)
    (hended : ReaderAction.ended ∈ actions ∨ r.Closed) :
    (runFrom (step maxLineBytes) r actions).Closed := by
  induction actions generalizing r with
  | nil => exact hended.resolve_left List.not_mem_nil
  | cons action rest ih =>
    have hnext := (step_sound_eventual maxLineBytes h (hordinary action List.mem_cons_self) rest).1
    refine ih hnext (fun action hmem => hordinary action (.tail _ hmem)) ?_
    rcases hended with hmem | hclosed
    · rcases List.mem_cons.mp hmem with rfl | hmem
      · exact .inr (ended_closed h)
      · exact .inl hmem
    · exact .inr (step_closed h hclosed action)

variable (maxLineBytes) in
/-- However the bytes are cut and however the chunks and the consumers interleave: a reader at rest
after the end of its stream has given out the lines before the first that is too long, and has
reported an error if there is one; no two consumers are awaited at once, and the reader comes to
rest. -/
theorem jsonl_framing_chunk_invariant (actions : List ReaderAction) :
    let r := runFrom (step maxLineBytes) attached actions
    let lines := linesOf (StringDecoder.decode (received actions))
    ((∀ action ∈ actions, Ordinary action) → ReaderAction.ended ∈ actions → r.Quiescent →
        r.lines = (lines.takeWhile (utf8ByteLength · ≤ maxLineBytes)).map trimReturn ∧
        r.errors =
          if ∃ line ∈ lines, maxLineBytes < utf8ByteLength line then
            [.lineTooLong maxLineBytes] else []) ∧
      (r.lines.length = r.resolved ∨ r.lines.length = r.resolved + 1) ∧
      ∃ later, (∀ action ∈ later, Internal action) ∧
        (runFrom (step maxLineBytes) attached (actions ++ later)).Quiescent := by
  refine ⟨fun hordinary hended hquiescent => ?_, ?_, ?_⟩
  · obtain ⟨hsound, heventual⟩ :=
      run_sound_eventual maxLineBytes attached_sound hordinary
    have hclosed := run_closed maxLineBytes attached_sound hordinary (.inl hended)
    obtain ⟨houtcome, herrors⟩ :=
      hsound.eventual_of_quiescent maxLineBytes hclosed hquiescent
    rw [houtcome] at heventual
    have hframed : attached.eventual maxLineBytes (incoming attached.ended actions) =
        framed maxLineBytes (linesOf (StringDecoder.decode (received actions))) := by
      simp only [eventual, attached, waitingBytes, List.nil_append]
      rfl
    rw [hframed, framed_eq] at heventual
    obtain ⟨hlines, hrejected⟩ := Prod.mk.inj heventual
    refine ⟨hlines, ?_⟩
    rw [herrors, hrejected]
    split <;> rfl
  · have hone : (runFrom (step maxLineBytes) attached actions).OneAtATime :=
      runFrom_invariant (I := OneAtATime) (fun _ action h => step_oneAtATime h action) actions rfl
    unfold OneAtATime at hone
    split at hone
    · exact .inr hone
    · exact .inl hone
  · obtain ⟨later, hlater, hquiescent⟩ :=
      exists_quiescent maxLineBytes (runFrom (step maxLineBytes) attached actions)
    exact ⟨later, hlater, by rw [runFrom_append]; exact hquiescent⟩

/-- A carriage return at the end of a chunk, and a line that waits for its consumer. -/
def splitReturnActions : List ReaderAction :=
  [.data [0x61, 0x0D], .turn, .data [0x0A, 0x62], .turn, .ended, .resolved, .turn, .resolved]

/-- The two lines are given out as they stand in the bytes. -/
theorem jsonl_framing_chunk_invariant_split_return :
    (runFrom (step 8) attached splitReturnActions).lines = [[0x61], [0x62]] ∧
      (runFrom (step 8) attached splitReturnActions).lines =
        ((linesOf (StringDecoder.decode (received splitReturnActions))).takeWhile
          (utf8ByteLength · ≤ 8)).map trimReturn := by
  have hordinary : ∀ action ∈ splitReturnActions, Ordinary action := by
    simp [splitReturnActions, Ordinary]
  obtain ⟨hrest, -⟩ := jsonl_framing_chunk_invariant 8 splitReturnActions
  exact ⟨by decide, (hrest hordinary (by decide) (by decide)).1⟩

end JsonlLineReader

end PiAgentWeb
