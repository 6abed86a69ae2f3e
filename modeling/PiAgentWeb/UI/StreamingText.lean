import PiAgentWeb.UI.AnsiText
import Mathlib.Data.List.Chain
import Mathlib.Data.Rat.Floor

/-!
# Streaming text

`streaming-text.tsx` shows a text that grows as a list of segments. An appended piece first fills
the last segment, then completes a surrogate pair whose first half ends the last segment, and what
is left is split into new segments. The displayed text is rescanned for control characters only
where it has grown.
-/

namespace PiAgentWeb

/-! ## Segments -/

/-- The first unit is the first half and the second one the second half of a surrogate pair. -/
def isSurrogatePair (u v : UInt16) : Bool := isHighSurrogate u && isLowSurrogate v

/-- `takeStreamingText` from the start of a text: the value and its end. -/
def takeStreamingText (text : JsString) (maxLength : ℕ) : JsString × ℕ :=
  let requestedEnd := min text.length (max 1 maxLength)
  let shortened :=
    if requestedEnd < text.length && isSurrogatePair (text.getD (requestedEnd - 1) 0)
      (text.getD requestedEnd 0) then requestedEnd - 1 else requestedEnd
  let taken := if shortened = 0 then min text.length 2 else shortened
  (text.take taken, taken)

theorem takeStreamingText_pos (u : UInt16) (rest : JsString) (maxLength : ℕ) :
    0 < (takeStreamingText (u :: rest) maxLength).2 := by
  unfold takeStreamingText
  simp only [List.length_cons]
  split_ifs <;> omega

/-- `Math.max(1, Math.floor(segmentSize))`. -/
def safeSegmentSize (segmentSize : ℚ) : ℕ := max 1 ⌊segmentSize⌋.toNat

/-- `splitStreamingText` with a safe segment size. -/
def splitStreamingText (size : ℕ) : JsString → List JsString
  | [] => []
  | u :: rest =>
    (takeStreamingText (u :: rest) size).1 ::
      splitStreamingText size ((u :: rest).drop (takeStreamingText (u :: rest) size).2)
  termination_by text => text.length
  decreasing_by
    have := takeStreamingText_pos u rest size
    simp only [List.length_drop, List.length_cons]
    omega

/-- The last segment takes what it has room for; the end of what it took. -/
def fillLast (segments : List JsString) (appendedText : JsString) (size : ℕ) :
    List JsString × ℕ :=
  match segments.getLast? with
  | some last =>
    if last.length < size then
      let addition := takeStreamingText appendedText (size - last.length)
      (segments.dropLast ++ [last ++ addition.1], addition.2)
    else (segments, 0)
  | none => (segments, 0)

/-- A surrogate pair that was divided by the append is put together. -/
def joinLast (next : List JsString) (offset : ℕ) (appendedText : JsString) :
    List JsString × ℕ :=
  match next.getLast?, appendedText with
  | some joinedLast, u :: _ =>
    if offset = 0 && joinedLast.getLast?.any fun last => isSurrogatePair last u then
      (next.dropLast ++ [joinedLast ++ [u]], 1)
    else (next, offset)
  | _, _ => (next, offset)

/-- `appendStreamingTextSegments` with a safe segment size. -/
def appendStreamingTextSegments (size : ℕ) (segments : List JsString) (appendedText : JsString) :
    List JsString :=
  if appendedText.isEmpty then segments
  else
    let filled := fillLast segments appendedText size
    let joined := joinLast filled.1 filled.2 appendedText
    joined.1 ++ splitStreamingText size (appendedText.drop joined.2)

/-! ## What is taken -/

/-- A surrogate pair lies across the end of one text and the start of the next one. -/
def Divides (before after : JsString) : Prop :=
  ∃ u ∈ before.getLast?, ∃ v ∈ after.head?, isSurrogatePair u v = true

/-- A segment is not empty and at most one unit too long, and then it ends with a low surrogate. -/
structure Bounded (size : ℕ) (segment : JsString) : Prop where
  nonempty : segment ≠ []
  length : segment.length ≤ size ∨
    segment.length = size + 1 ∧ ∃ u ∈ segment.getLast?, isLowSurrogate u = true

theorem getD_eq {text : JsString} {i : ℕ} (h : i < text.length) : text.getD i 0 = text[i] := by
  rw [List.getD_eq_getElem?_getD, List.getElem?_eq_getElem h, Option.getD_some]

theorem divides_take_drop {text : JsString} {k : ℕ} (hpos : 0 < k) (hle : k ≤ text.length)
    (h : Divides (text.take k) (text.drop k)) :
    k < text.length ∧ isSurrogatePair (text.getD (k - 1) 0) (text.getD k 0) = true := by
  obtain ⟨u, hu, v, hv, hpair⟩ := h
  rw [List.getLast?_take, if_neg (by omega), List.getElem?_eq_getElem (by omega),
    Option.some_or, Option.mem_def, Option.some.injEq] at hu
  rw [List.head?_drop, Option.mem_def, List.getElem?_eq_some_iff] at hv
  obtain ⟨hlt, rfl⟩ := hv
  subst hu
  refine ⟨hlt, ?_⟩
  rwa [getD_eq (by omega), getD_eq hlt]

theorem takeStreamingText_spec {text : JsString} (hne : text ≠ []) {maxLength : ℕ}
    (hmax : 0 < maxLength) :
    0 < (takeStreamingText text maxLength).2 ∧
      (takeStreamingText text maxLength).1 = text.take (takeStreamingText text maxLength).2 ∧
      Bounded maxLength (takeStreamingText text maxLength).1 ∧
      ¬Divides (takeStreamingText text maxLength).1
        (text.drop (takeStreamingText text maxLength).2) := by
  have hlength := List.length_pos_of_ne_nil hne
  have hbounded (k : ℕ) (hpos : 0 < k) (hle : k ≤ maxLength) : Bounded maxLength (text.take k) := by
    refine ⟨fun hnil => ?_, .inl ?_⟩
    · have := congrArg List.length hnil
      simp only [List.length_take, List.length_nil] at this
      omega
    · simp only [List.length_take]
      omega
  generalize hend : min text.length (max 1 maxLength) = requestedEnd
  unfold takeStreamingText
  simp only [hend, Bool.and_eq_true, decide_eq_true_eq]
  by_cases hpair : requestedEnd < text.length ∧
      isSurrogatePair (text.getD (requestedEnd - 1) 0) (text.getD requestedEnd 0) = true
  · have hhigh := hpair.2
    simp only [isSurrogatePair, Bool.and_eq_true] at hhigh
    by_cases hfirst : requestedEnd - 1 = 0
    · -- The pair is at the start and fits nowhere: both halves are taken.
      obtain rfl : requestedEnd = 1 := by omega
      have htwo : min text.length 2 = 2 := by omega
      simp only [if_pos hpair, Nat.sub_self, if_true, htwo]
      have hlast : (text.take 2).getLast? = some (text.getD 1 0) := by
        rw [List.getLast?_take, if_neg (by omega), getD_eq (by omega)]
        simp [List.getElem?_eq_getElem (show 1 < text.length by omega)]
      refine ⟨by omega, trivial, ⟨fun hnil => ?_, .inr ⟨?_, _, hlast, hhigh.2⟩⟩, fun hdivides => ?_⟩
      · have := congrArg List.length hnil
        simp only [List.length_take, List.length_nil] at this
        omega
      · simp only [List.length_take]
        omega
      · have := (divides_take_drop (by omega) (by omega) hdivides).2
        simp only [isSurrogatePair, Bool.and_eq_true] at this
        have hnot := not_low_of_high this.1
        rw [hhigh.2] at hnot
        cases hnot
    · simp only [if_pos hpair, if_neg hfirst]
      refine ⟨by omega, trivial, hbounded _ (by omega) (by omega), fun hdivides => ?_⟩
      have := (divides_take_drop (by omega) (by omega) hdivides).2
      simp only [isSurrogatePair, Bool.and_eq_true] at this
      have hnot := not_low_of_high hhigh.1
      rw [this.2] at hnot
      cases hnot
  · simp only [if_neg hpair, if_neg (show ¬requestedEnd = 0 by omega)]
    refine ⟨by omega, trivial, hbounded _ (by omega) (by omega), fun hdivides => ?_⟩
    exact hpair (divides_take_drop (by omega) (by omega) hdivides)

/-! ## What the segments render -/

/-- Bounded segments of a text, with no pair between two of them. -/
structure Renders (size : ℕ) (segments : List JsString) (text : JsString) : Prop where
  flatten : segments.flatten = text
  bounded : ∀ segment ∈ segments, Bounded size segment
  whole : segments.IsChain fun before after => ¬Divides before after

variable {size : ℕ} {segments others : List JsString} {text text' piece : JsString}

theorem Renders.singleton {segment : JsString} (h : Bounded size segment) :
    Renders size [segment] segment :=
  ⟨by simp, by simpa using h, List.isChain_singleton _⟩

theorem Renders.append (h : Renders size segments text) (h' : Renders size others text')
    (hwhole : ∀ last ∈ segments.getLast?, ¬Divides last text') :
    Renders size (segments ++ others) (text ++ text') := by
  refine ⟨by rw [List.flatten_append, h.flatten, h'.flatten], fun segment hsegment => ?_, ?_⟩
  · rcases List.mem_append.mp hsegment with hmem | hmem
    · exact h.bounded segment hmem
    · exact h'.bounded segment hmem
  · refine List.isChain_append.mpr ⟨h.whole, h'.whole, fun last hlast first hfirst hdivides => ?_⟩
    obtain ⟨rest, rfl⟩ := List.head?_eq_some_iff.mp hfirst
    have hnonempty := (h'.bounded first (List.mem_cons_self ..)).nonempty
    obtain ⟨u, hu, v, hv, hpair⟩ := hdivides
    refine hwhole last hlast ⟨u, hu, v, ?_, hpair⟩
    rw [← h'.flatten, List.flatten_cons, List.head?_append_of_ne_nil _ hnonempty]
    exact hv

theorem renders_splitStreamingText (hsize : 0 < size) (text : JsString) :
    Renders size (splitStreamingText size text) text := by
  fun_induction splitStreamingText size text with
  | case1 => exact ⟨rfl, by simp, List.IsChain.nil⟩
  | case2 u rest ih =>
    obtain ⟨-, htaken, hbounded, hwhole⟩ :=
      takeStreamingText_spec (List.cons_ne_nil u rest) hsize
    have h := (Renders.singleton hbounded).append ih (by simpa using hwhole)
    rw [htaken, List.take_append_drop] at h
    rwa [htaken]

theorem Renders.lengthen {last added : JsString} (h : Renders size segments text)
    (hlast : segments.getLast? = some last) (hbounded : Bounded size (last ++ added)) :
    Renders size (segments.dropLast ++ [last ++ added]) (text ++ added) := by
  obtain ⟨init, rfl⟩ := List.getLast?_eq_some_iff.mp hlast
  rw [List.dropLast_concat]
  obtain ⟨hinit, -, hbefore⟩ := List.isChain_append.mp h.whole
  have hrendered : Renders size init init.flatten :=
    ⟨rfl, fun segment hsegment => h.bounded segment (List.mem_append_left _ hsegment), hinit⟩
  have hnonempty := (h.bounded last (by simp)).nonempty
  have htext : text ++ added = init.flatten ++ (last ++ added) := by
    rw [← h.flatten]
    simp
  rw [htext]
  refine hrendered.append (.singleton hbounded) fun before hmem hdivides => ?_
  obtain ⟨u, hu, v, hv, hpair⟩ := hdivides
  rw [List.head?_append_of_ne_nil _ hnonempty] at hv
  exact hbefore before hmem last (by simp) ⟨u, hu, v, hv, hpair⟩

/-! ## Appending -/

/-- Part of a piece is in the segments, and the rest can be split by itself. -/
structure Ready (size : ℕ) (text piece : JsString) (next : List JsString × ℕ) : Prop where
  renders : Renders size next.1 (text ++ piece.take next.2)
  whole : ∀ last ∈ next.1.getLast?, ¬Divides last (piece.drop next.2)

theorem fillLast_spec (h : Renders size segments text) (hpiece : piece ≠ []) :
    fillLast segments piece size = (segments, 0) ∨
      0 < (fillLast segments piece size).2 ∧ Ready size text piece (fillLast segments piece size) ∧
      ∃ last, (fillLast segments piece size).1 = segments.dropLast ++ [last] := by
  unfold fillLast
  cases hlast : segments.getLast? with
  | none => exact .inl rfl
  | some last =>
    dsimp only
    split
    · rename_i hroom
      have hmax : 0 < size - last.length := by omega
      obtain ⟨hpos, htaken, hbounded, hwhole⟩ := takeStreamingText_spec hpiece hmax
      have hlonger : Bounded size (last ++ (takeStreamingText piece (size - last.length)).1) := by
        refine ⟨by simp [hbounded.nonempty], ?_⟩
        rw [List.length_append, List.getLast?_append_of_ne_nil _ hbounded.nonempty]
        rcases hbounded.length with hle | ⟨heq, hlow⟩
        · exact .inl (by omega)
        · exact .inr ⟨by omega, hlow⟩
      refine .inr ⟨hpos, ⟨?_, ?_⟩, _, rfl⟩
      · have := h.lengthen hlast hlonger
        dsimp only
        rwa [← htaken]
      · intro found hfound hdivides
        rw [List.getLast?_concat, Option.mem_def, Option.some.injEq] at hfound
        subst hfound
        obtain ⟨u, hu, v, hv, hpair⟩ := hdivides
        rw [List.getLast?_append_of_ne_nil _ hbounded.nonempty] at hu
        exact hwhole ⟨u, hu, v, hv, hpair⟩
    · exact .inl rfl

theorem joinLast_spec (h : Renders size segments text) (u : UInt16) (rest : JsString) :
    Ready size text (u :: rest) (joinLast segments 0 (u :: rest)) ∧
      ((joinLast segments 0 (u :: rest)).1 = segments ∨
        ∃ last, (joinLast segments 0 (u :: rest)).1 = segments.dropLast ++ [last]) := by
  have hstay (hnot : ∀ last ∈ segments.getLast?, ¬Divides last (u :: rest)) :
      Ready size text (u :: rest) (segments, 0) :=
    ⟨by simpa using h, by simpa using hnot⟩
  unfold joinLast
  cases hlast : segments.getLast? with
  | none => exact ⟨hstay (by simp [hlast]), .inl rfl⟩
  | some last =>
    dsimp only
    split
    · rename_i hdivided
      simp only [decide_true, Bool.true_and, Option.any_eq_true] at hdivided
      obtain ⟨high, hhigh, hpair⟩ := hdivided
      simp only [isSurrogatePair, Bool.and_eq_true] at hpair
      have hbounded := h.bounded last (List.mem_of_getLast? hlast)
      have hlonger : Bounded size (last ++ [u]) := by
        refine ⟨by simp, ?_⟩
        rw [List.length_append, List.length_singleton, List.getLast?_concat]
        rcases hbounded.length with hle | ⟨-, low, hlow, hislow⟩
        · by_cases hfull : last.length = size
          · exact .inr ⟨by omega, u, rfl, hpair.2⟩
          · exact .inl (by omega)
        · rw [hhigh, Option.mem_def, Option.some.injEq] at hlow
          subst hlow
          rw [not_low_of_high hpair.1] at hislow
          cases hislow
      refine ⟨⟨h.lengthen hlast hlonger, fun found hfound hdivides => ?_⟩, .inr ⟨_, rfl⟩⟩
      rw [List.getLast?_concat, Option.mem_def, Option.some.injEq] at hfound
      subst hfound
      obtain ⟨last', hlast', v, -, hsplit⟩ := hdivides
      rw [List.getLast?_concat, Option.mem_def, Option.some.injEq] at hlast'
      subst hlast'
      simp only [isSurrogatePair, Bool.and_eq_true] at hsplit
      have := not_low_of_high hsplit.1
      rw [hpair.2] at this
      cases this
    · rename_i hnot
      refine ⟨hstay fun found hfound hdivides => hnot ?_, .inl rfl⟩
      rw [hlast, Option.mem_def, Option.some.injEq] at hfound
      subst hfound
      obtain ⟨high, hhigh, v, hv, hpair⟩ := hdivides
      obtain rfl : u = v := Option.some.inj hv
      simp only [decide_true, Bool.true_and]
      exact Option.any_eq_true _ _ |>.mpr ⟨high, hhigh, hpair⟩

theorem appendStreamingTextSegments_spec (hsize : 0 < size) (h : Renders size segments text)
    (piece : JsString) :
    Renders size (appendStreamingTextSegments size segments piece) (text ++ piece) ∧
      segments.dropLast <+: appendStreamingTextSegments size segments piece := by
  cases piece with
  | nil => exact ⟨by simpa [appendStreamingTextSegments] using h, List.dropLast_prefix segments⟩
  | cons u rest =>
    obtain ⟨hready, hsame⟩ : Ready size text (u :: rest)
          (joinLast (fillLast segments (u :: rest) size).1 (fillLast segments (u :: rest) size).2
            (u :: rest)) ∧
        ((joinLast (fillLast segments (u :: rest) size).1 (fillLast segments (u :: rest) size).2
            (u :: rest)).1 = segments ∨
          ∃ last, (joinLast (fillLast segments (u :: rest) size).1
            (fillLast segments (u :: rest) size).2 (u :: rest)).1 =
              segments.dropLast ++ [last]) := by
      rcases fillLast_spec h (List.cons_ne_nil u rest) with hfull | ⟨hpos, hready, hlast⟩
      · rw [hfull]
        exact joinLast_spec h u rest
      · have hstay : joinLast (fillLast segments (u :: rest) size).1
            (fillLast segments (u :: rest) size).2 (u :: rest) =
            fillLast segments (u :: rest) size := by
          unfold joinLast
          split
          · rw [decide_eq_false (by omega), Bool.false_and]
            rfl
          · rfl
        rw [hstay]
        exact ⟨hready, .inr hlast⟩
    have hrendered := hready.renders.append (renders_splitStreamingText hsize _) hready.whole
    rw [List.append_assoc, List.take_append_drop] at hrendered
    refine ⟨hrendered, ?_⟩
    refine List.IsPrefix.trans ?_ (List.prefix_append _ _)
    rcases hsame with hsame | ⟨last, hsame⟩
    · rw [hsame]
      exact List.dropLast_prefix segments
    · rw [hsame]
      exact List.prefix_append _ _

theorem renders_append_pieces (hsize : 0 < size) (h : Renders size segments text)
    (pieces : List JsString) :
    Renders size (pieces.foldl (appendStreamingTextSegments size) segments)
      (text ++ pieces.flatten) := by
  induction pieces generalizing segments text with
  | nil => simpa using h
  | cons piece rest ih =>
    rw [List.foldl_cons, List.flatten_cons, ← List.append_assoc]
    exact ih (appendStreamingTextSegments_spec hsize h piece).1

/-! ## The displayed text -/

/-- `StreamingDisplayState`. -/
structure StreamingDisplayState where
  rawLength : ℕ
  displayText : JsString
  hasControls : Bool

/-- The reference before the first render. -/
def StreamingDisplayState.initial : StreamingDisplayState := ⟨0, [], false⟩

/-- `useStreamingDisplayText`: the state that is kept and the text that is returned. -/
def useStreamingDisplayText (state : StreamingDisplayState) (text : JsString) (streaming : Bool) :
    StreamingDisplayState × JsString :=
  if !streaming then (⟨text.length, stripAnsi text, stripAnsi text != text⟩, stripAnsi text)
  else if text.length = state.rawLength && !state.hasControls && state.displayText == text then
    (state, state.displayText)
  else if state.rawLength < text.length && !state.hasControls &&
      !hasAnsiControlCharacters (text.drop state.rawLength) then
    (⟨text.length, text, false⟩, text)
  else (⟨text.length, stripAnsi text, hasAnsiControlCharacters text⟩, stripAnsi text)

/-- The texts that are returned by renders, each with its text and whether it is streaming. -/
def displayedTexts : StreamingDisplayState → List (JsString × Bool) → List JsString
  | _, [] => []
  | state, (text, streaming) :: rest =>
    (useStreamingDisplayText state text streaming).2 ::
      displayedTexts (useStreamingDisplayText state text streaming).1 rest

/-- The state remembers the text of the last render. -/
structure Remembers (state : StreamingDisplayState) (text : JsString) : Prop where
  length : state.rawLength = text.length
  plain : state.hasControls = false →
    state.displayText = text ∧ hasAnsiControlCharacters text = false

theorem Remembers.render {state : StreamingDisplayState} {shown : JsString}
    (h : Remembers state shown) (hgrown : shown <+: text) (streaming : Bool) :
    Remembers (useStreamingDisplayText state text streaming).1 text ∧
      (useStreamingDisplayText state text streaming).2 = stripAnsi text := by
  unfold useStreamingDisplayText
  split_ifs with hstatic hsame hgrows
  · refine ⟨⟨rfl, fun hplain => ?_⟩, rfl⟩
    have heq : stripAnsi text = text := by simpa using hplain
    exact ⟨heq, stripAnsi_eq_self_iff.mp heq⟩
  · simp only [Bool.and_eq_true, decide_eq_true_eq, Bool.not_eq_true', beq_iff_eq] at hsame
    obtain ⟨⟨hlength, hplain⟩, hdisplay⟩ := hsame
    obtain ⟨hshown, hcontrols⟩ := h.plain hplain
    rw [hdisplay] at hshown
    subst hshown
    exact ⟨h, hdisplay.trans (stripAnsi_of_plain hcontrols).symm⟩
  · simp only [Bool.and_eq_true, decide_eq_true_eq, Bool.not_eq_true'] at hgrows
    obtain ⟨⟨-, hplain⟩, hsuffix⟩ := hgrows
    obtain ⟨suffix, rfl⟩ := hgrown
    rw [h.length, List.drop_left] at hsuffix
    have hcontrols : hasAnsiControlCharacters (shown ++ suffix) = false := by
      rw [hasAnsiControlCharacters, List.any_append, Bool.or_eq_false_iff]
      exact ⟨(h.plain hplain).2, hsuffix⟩
    exact ⟨⟨rfl, fun _ => ⟨rfl, hcontrols⟩⟩, (stripAnsi_of_plain hcontrols).symm⟩
  · exact ⟨⟨rfl, fun hplain => ⟨stripAnsi_of_plain hplain, hplain⟩⟩, rfl⟩

theorem Remembers.displayedTexts {state : StreamingDisplayState} {shown : JsString}
    (h : Remembers state shown) {renders : List (JsString × Bool)}
    (hgrowing : (shown :: renders.map Prod.fst).IsChain (· <+: ·)) :
    PiAgentWeb.displayedTexts state renders = renders.map fun render => stripAnsi render.1 := by
  induction renders generalizing state shown with
  | nil => rfl
  | cons render rest ih =>
    obtain ⟨text, streaming⟩ := render
    obtain ⟨hgrown, hrest⟩ := List.isChain_cons_cons.mp hgrowing
    obtain ⟨hremembers, hreturned⟩ := h.render hgrown streaming
    rw [PiAgentWeb.displayedTexts, hreturned, ih hremembers hrest]
    rfl

/-- Appending pieces renders the same text as splitting it, in bounded segments that divide no pair
and that are kept but for the last one; and the displayed text is always the stripped current
text. -/
theorem streaming_text_exact :
    (∀ (text : JsString) (segmentSize : ℚ) (pieces : List JsString),
      let size := safeSegmentSize segmentSize
      let segments :=
        pieces.foldl (appendStreamingTextSegments size) (splitStreamingText size text)
      segments.flatten = text ++ pieces.flatten ∧
        (∀ segment ∈ segments,
          segment ≠ [] ∧ (segment.length : ℚ) ≤ max 1 segmentSize + 1) ∧
        (segments.IsChain fun before after => ¬Divides before after) ∧
        ∀ piece, segments.dropLast <+: appendStreamingTextSegments size segments piece) ∧
      ∀ renders : List (JsString × Bool), (renders.map Prod.fst).IsChain (· <+: ·) →
        displayedTexts .initial renders = renders.map fun render => stripAnsi render.1 := by
  constructor
  · intro text segmentSize pieces size segments
    have hsize : 0 < size := by
      simp only [size, safeSegmentSize]
      omega
    have hrenders : Renders size segments (text ++ pieces.flatten) :=
      renders_append_pieces hsize (renders_splitStreamingText hsize text) pieces
    refine ⟨hrenders.flatten, fun segment hsegment => ?_, hrenders.whole, fun piece =>
      (appendStreamingTextSegments_spec hsize hrenders piece).2⟩
    have hbounded := hrenders.bounded segment hsegment
    have hle : segment.length ≤ size + 1 := by
      rcases hbounded.length with hle | ⟨heq, -⟩ <;> omega
    refine ⟨hbounded.nonempty, ?_⟩
    have hsafe : (size : ℚ) ≤ max 1 segmentSize := by
      simp only [size, safeSegmentSize, Nat.cast_max, Nat.cast_one]
      refine max_le (le_max_left _ _) ?_
      rcases le_total 0 ⌊segmentSize⌋ with hpos | hneg
      · have hcast : ((⌊segmentSize⌋.toNat : ℤ) : ℚ) = (⌊segmentSize⌋ : ℚ) := by
          rw [Int.toNat_of_nonneg hpos]
        rw [← Int.cast_natCast, hcast]
        exact (Int.floor_le segmentSize).trans (le_max_right _ _)
      · rw [Int.toNat_of_nonpos hneg]
        simp
    have : (segment.length : ℚ) ≤ (size + 1 : ℕ) := Nat.cast_le.mpr hle
    push_cast at this
    linarith
  · intro renders hgrowing
    have hstart : Remembers .initial [] := ⟨rfl, fun _ => ⟨rfl, rfl⟩⟩
    refine hstart.displayedTexts ?_
    cases renders with
    | nil => exact List.isChain_singleton _
    | cons render rest => exact List.isChain_cons_cons.mpr ⟨List.nil_prefix, hgrowing⟩

/-- A segment size below 1 counts as 1: with size 0 a surrogate pair is a segment of two. -/
theorem segment_longer_than_size :
    splitStreamingText (safeSegmentSize 0) [0xD83D, 0xDE00] = [[0xD83D, 0xDE00]] ∧
      ¬(([0xD83D, 0xDE00] : JsString).length : ℚ) ≤ 0 + 1 := by
  refine ⟨by decide +kernel, by norm_num⟩

end PiAgentWeb
