import Atlas.Cli.LogStream

/-!
# The lines of a log stream

A text is split into lines alike whether it comes at once or what is left of its beginning is put
before the rest (`splitLines_append`). What is cut off a long remainder is not missed in the line
it becomes, except where the remainder ends in a carriage return that the next chunk makes part of
the line's end: then one unit of the line is missing in front (`framed_iff`).
-/

namespace Atlas.Cli.Logs

open CodeUnits

section Split

/-- Units before a text that do not end a line. -/
def prepend (line : Text) : List Text × Text → List Text × Text
  | ([], remainder) => ([], line ++ remainder)
  | (l :: lines, remainder) => ((line ++ l) :: lines, remainder)

theorem prepend_prepend (a b : Text) (s : List Text × Text) :
    prepend a (prepend b s) = prepend (a ++ b) s := by
  rcases s with ⟨_ | ⟨l, lines⟩, remainder⟩ <;> simp [prepend]

theorem lineFeed_ne : lineFeed ≠ carriageReturn := by decide

theorem splitLines_lineFeed (s : Text) :
    splitLines (lineFeed :: s) = ([] :: (splitLines s).1, (splitLines s).2) := by
  cases s with
  | nil => rfl
  | cons d rest => simp [splitLines]

theorem splitLines_cons {c : UInt16} (hc : c ≠ lineFeed) (s : Text) :
    splitLines (c :: s) =
      if c = carriageReturn ∧ s.head? = some lineFeed then splitLines s
      else prepend [c] (splitLines s) := by
  cases s with
  | nil => simp [splitLines, hc, prepend]
  | cons d rest =>
    rw [splitLines, if_neg hc]
    simp only [List.head?_cons, Option.some.injEq]
    by_cases h : c = carriageReturn ∧ d = lineFeed
    · rw [if_pos h, if_pos h, h.2, splitLines_lineFeed]
    · rw [if_neg h, if_neg h]
      rcases splitLines (d :: rest) with ⟨_ | ⟨l, lines⟩, remainder⟩ <;> rfl

/-- A line's end whose carriage return has come before. -/
def EndsWithin (before chunk : Text) : Prop :=
  before.getLast? = some carriageReturn ∧ chunk.head? = some lineFeed

theorem splitLines_of_endsWithin {line : Text} (hline : lineFeed ∉ line) (chunk : Text) :
    splitLines (line ++ carriageReturn :: lineFeed :: chunk) =
      (line :: (splitLines chunk).1, (splitLines chunk).2) := by
  induction line with
  | nil =>
    rw [List.nil_append, splitLines_cons lineFeed_ne.symm, if_pos ⟨rfl, rfl⟩, splitLines_lineFeed]
  | cons c line ih =>
    obtain ⟨hc, hline⟩ := not_or.1 (List.mem_cons.not.1 hline)
    have hhead : (line ++ carriageReturn :: lineFeed :: chunk).head? ≠ some lineFeed := by
      cases line with
      | nil => simpa using lineFeed_ne.symm
      | cons d line => simpa using fun h => (not_or.1 (List.mem_cons.not.1 hline)).1 h.symm
    rw [List.cons_append, splitLines_cons (Ne.symm hc), if_neg fun h => hhead h.2, ih hline]
    rfl

theorem splitLines_of_not_endsWithin {before chunk : Text} (hbefore : lineFeed ∉ before)
    (h : ¬EndsWithin before chunk) :
    splitLines (before ++ chunk) = prepend before (splitLines chunk) := by
  induction before with
  | nil => rcases hs : splitLines chunk with ⟨_ | ⟨l, lines⟩, remainder⟩ <;> simp [prepend, hs]
  | cons c before ih =>
    obtain ⟨hc, hnone⟩ := not_or.1 (List.mem_cons.not.1 hbefore)
    have hhead : ¬(c = carriageReturn ∧ (before ++ chunk).head? = some lineFeed) := by
      rintro ⟨rfl, hhead⟩
      cases before with
      | nil => exact h ⟨rfl, hhead⟩
      | cons d before =>
        have hd : d = lineFeed := by simpa using hhead
        exact hnone (hd.symm ▸ List.mem_cons_self)
    have hrest : ¬EndsWithin before chunk := fun hends => h ⟨by
      rw [List.getLast?_cons, hends.1]
      rfl, hends.2⟩
    rw [List.cons_append, splitLines_cons (Ne.symm hc), if_neg hhead, ih hnone hrest,
      prepend_prepend]
    rfl

/-- A remainder has no end of a line in it. -/
theorem lineFeed_not_mem_remainder (s : Text) : lineFeed ∉ (splitLines s).2 := by
  induction s with
  | nil => simp [splitLines]
  | cons c s ih =>
    by_cases hc : c = lineFeed
    · rw [hc, splitLines_lineFeed]
      exact ih
    · rw [splitLines_cons hc]
      split_ifs
      · exact ih
      · rcases hs : splitLines s with ⟨_ | ⟨l, lines⟩, remainder⟩ <;> rw [hs] at ih
        · exact List.not_mem_cons_of_ne_of_not_mem (Ne.symm hc) ih
        · exact ih

theorem remainder_eq_self (s : Text) (h : (splitLines s).1 = []) : (splitLines s).2 = s := by
  induction s with
  | nil => rfl
  | cons c s ih =>
    by_cases hc : c = lineFeed
    · rw [hc, splitLines_lineFeed] at h
      exact nomatch h
    · rw [splitLines_cons hc] at h ⊢
      split_ifs at h ⊢ with hends
      · obtain ⟨s', rfl⟩ : ∃ s', s = lineFeed :: s' := List.head?_eq_some_iff.1 hends.2
        rw [splitLines_lineFeed] at h
        exact nomatch h
      · rcases hs : splitLines s with ⟨_ | ⟨l, lines⟩, remainder⟩ <;> rw [hs] at h ih
        · exact congrArg (c :: ·) (ih rfl)
        · exact nomatch h

theorem splitLines_of_not_mem {s : Text} (hs : lineFeed ∉ s) : splitLines s = ([], s) := by
  have hends : ¬EndsWithin s [] := fun h => nomatch h.2
  have h := splitLines_of_not_endsWithin hs hends
  rw [List.append_nil] at h
  simpa [splitLines, prepend] using h

/-- What is left of a text is all that matters for what comes after it. -/
theorem splitLines_append (s t : Text) :
    splitLines (s ++ t) =
      ((splitLines s).1 ++ (splitLines ((splitLines s).2 ++ t)).1,
        (splitLines ((splitLines s).2 ++ t)).2) := by
  induction s with
  | nil => rfl
  | cons c s ih =>
    by_cases hc : c = lineFeed
    · rw [hc, List.cons_append, splitLines_lineFeed, ih, splitLines_lineFeed]
      rfl
    rcases s with _ | ⟨d, s⟩
    · simp [splitLines, hc]
    rw [splitLines_cons hc, List.cons_append, splitLines_cons hc, ih]
    have hhead : (d :: s ++ t).head? = (d :: s).head? := rfl
    by_cases hends : c = carriageReturn ∧ (d :: s).head? = some lineFeed
    · rw [if_pos (hhead ▸ hends), if_pos hends]
    rw [if_neg (hhead ▸ hends), if_neg hends]
    rcases hs : splitLines (d :: s) with ⟨_ | ⟨l, lines⟩, remainder⟩
    · have hremainder : remainder = d :: s := by
        have := remainder_eq_self (d :: s) (by rw [hs])
        rwa [hs] at this
      rw [hremainder]
      show _ = splitLines (c :: (d :: s ++ t))
      rw [splitLines_cons hc, if_neg (hhead ▸ hends)]
      rfl
    · rfl

end Split

section Framing

theorem boundedLogLineTail_eq (line : Text) :
    boundedLogLineTail line = lastUnits maxLogLineLength line := by
  unfold boundedLogLineTail
  split_ifs with h
  · rfl
  · exact (lastUnits_of_le (not_lt.1 h)).symm

/-- The lines of a text: those that are ended, and the rest where there is one, each cut to its
last units. -/
def logLines (s : Text) : List Text :=
  (splitLines s).1.map boundedLogLineTail ++
    if (splitLines s).2 = [] then [] else [boundedLogLineTail (splitLines s).2]

/-- The lines that come of chunks after what is pending. -/
def framed (pending : Text) : List Text → List Text
  | [] => if pending = [] then [] else [pending]
  | chunk :: rest =>
    (splitLines (pending ++ chunk)).1.map boundedLogLineTail ++
      framed (boundedLogLineTail (splitLines (pending ++ chunk)).2) rest

/-- A cut between the carriage return and the line feed of a line that fills the limit. -/
def CutsLongLine (before : Text) (chunks : List Text) : Prop :=
  ∃ earlier chunk later line, chunks = earlier ++ (lineFeed :: chunk) :: later ∧
    (splitLines (before ++ earlier.flatten)).2 = line ++ [carriageReturn] ∧
    maxLogLineLength ≤ line.length

/-- The same for the first cut alone. -/
def EndsLongLine (before chunk : Text) : Prop :=
  ∃ line rest, before = line ++ [carriageReturn] ∧ chunk = lineFeed :: rest ∧
    maxLogLineLength ≤ line.length

theorem maxLogLineLength_pos : 0 < maxLogLineLength := by decide

theorem prepend_remainder (a : Text) (s : List Text × Text) :
    boundedLogLineTail (prepend (boundedLogLineTail a) s).2 =
      boundedLogLineTail (prepend a s).2 := by
  rcases s with ⟨_ | ⟨l, lines⟩, remainder⟩
  · simp only [prepend, boundedLogLineTail_eq, lastUnits_lastUnits_append]
  · rfl

theorem prepend_lines (a : Text) (s : List Text × Text) :
    (prepend (boundedLogLineTail a) s).1.map boundedLogLineTail =
      (prepend a s).1.map boundedLogLineTail := by
  rcases s with ⟨_ | ⟨l, lines⟩, remainder⟩
  · rfl
  · simp only [prepend, List.map_cons, boundedLogLineTail_eq, lastUnits_lastUnits_append]

/-- A line that fills the limit is one unit short where its carriage return has taken a place. -/
theorem tail_snoc (line : Text) (c : UInt16) :
    boundedLogLineTail (line ++ [c]) = lastUnits (maxLogLineLength - 1) line ++ [c] := by
  rw [boundedLogLineTail_eq, lastUnits_append_of_le _ maxLogLineLength_pos]
  rfl

theorem tail_shorter {line : Text} :
    boundedLogLineTail (lastUnits (maxLogLineLength - 1) line) = boundedLogLineTail line ↔
      line.length < maxLogLineLength := by
  have hpos := maxLogLineLength_pos
  constructor
  · intro h
    have hlength := congrArg List.length h
    rw [boundedLogLineTail_eq, boundedLogLineTail_eq] at hlength
    simp only [length_lastUnits] at hlength
    omega
  · intro h
    rw [lastUnits_of_le (n := maxLogLineLength - 1) (by omega)]

theorem endsWithin_iff {before chunk : Text} : EndsWithin before chunk ↔
    ∃ line rest, before = line ++ [carriageReturn] ∧ chunk = lineFeed :: rest := by
  constructor
  · rintro ⟨hlast, hhead⟩
    obtain ⟨line, rfl⟩ := List.getLast?_eq_some_iff.1 hlast
    obtain ⟨rest, rfl⟩ := List.head?_eq_some_iff.1 hhead
    exact ⟨line, rest, rfl, rfl⟩
  · rintro ⟨line, rest, rfl, rfl⟩
    exact ⟨List.getLast?_concat, rfl⟩

/-- One chunk after a remainder that has been cut: as many lines, the same remainder, and the same
lines but where a long one ends within. -/
theorem splitLines_tail {before : Text} (hbefore : lineFeed ∉ before) (chunk : Text) :
    boundedLogLineTail (splitLines (boundedLogLineTail before ++ chunk)).2 =
        boundedLogLineTail (splitLines (before ++ chunk)).2 ∧
      (splitLines (boundedLogLineTail before ++ chunk)).1.length =
        (splitLines (before ++ chunk)).1.length ∧
      ((splitLines (boundedLogLineTail before ++ chunk)).1.map boundedLogLineTail =
          (splitLines (before ++ chunk)).1.map boundedLogLineTail ↔
        ¬EndsLongLine before chunk) := by
  have htail : lineFeed ∉ boundedLogLineTail before := fun h => by
    rw [boundedLogLineTail_eq] at h
    exact hbefore (List.mem_of_mem_drop h)
  by_cases hends : EndsWithin before chunk
  · obtain ⟨line, rest, rfl, rfl⟩ := endsWithin_iff.1 hends
    have hline : lineFeed ∉ line := fun h => hbefore (List.mem_append_left _ h)
    have hcut : lineFeed ∉ lastUnits (maxLogLineLength - 1) line :=
      fun h => hline (List.mem_of_mem_drop h)
    rw [tail_snoc, List.append_assoc, List.append_assoc, List.singleton_append,
      splitLines_of_endsWithin hcut, splitLines_of_endsWithin hline]
    refine ⟨rfl, by rw [List.length_cons, List.length_cons], ?_⟩
    rw [List.map_cons, List.map_cons, List.cons.injEq, and_iff_left rfl, tail_shorter, ← not_le]
    refine not_congr ⟨fun h => ⟨line, rest, rfl, rfl, h⟩, ?_⟩
    rintro ⟨line', rest', heq, -, h⟩
    exact (List.append_inj_left' heq rfl).symm ▸ h
  · have hkept : ¬EndsWithin (boundedLogLineTail before) chunk := by
      rintro ⟨hlast, hhead⟩
      refine hends ⟨?_, hhead⟩
      rw [boundedLogLineTail_eq, lastUnits, List.getLast?_drop] at hlast
      split_ifs at hlast
      exact hlast
    rw [splitLines_of_not_endsWithin htail hkept, splitLines_of_not_endsWithin hbefore hends]
    refine ⟨prepend_remainder _ _, ?_, iff_of_true (prepend_lines _ _) ?_⟩
    · rcases splitLines chunk with ⟨_ | ⟨l, lines⟩, remainder⟩ <;> rfl
    · rintro ⟨line, rest, hline, hrest, -⟩
      exact hends (endsWithin_iff.2 ⟨line, rest, hline, hrest⟩)

theorem cutsLongLine_cons {before chunk : Text} {rest : List Text} (hbefore : lineFeed ∉ before) :
    CutsLongLine before (chunk :: rest) ↔
      EndsLongLine before chunk ∨ CutsLongLine (splitLines (before ++ chunk)).2 rest := by
  have hself : (splitLines (before ++ [])).2 = before := by
    rw [List.append_nil, splitLines_of_not_mem hbefore]
  constructor
  · rintro ⟨_ | ⟨first, earlier⟩, units, later, line, heq, hline, hlong⟩
    · obtain ⟨rfl, rfl⟩ := List.cons.inj heq
      exact .inl ⟨line, units, hself ▸ hline, rfl, hlong⟩
    · obtain ⟨rfl, rfl⟩ := List.cons.inj heq
      refine .inr ⟨earlier, units, later, line, rfl, ?_, hlong⟩
      rw [List.flatten_cons, ← List.append_assoc, splitLines_append] at hline
      exact hline
  · rintro (⟨line, units, hline, rfl, hlong⟩ | ⟨earlier, units, later, line, rfl, hline, hlong⟩)
    · exact ⟨[], units, rest, line, rfl, hself.trans hline, hlong⟩
    · refine ⟨chunk :: earlier, units, later, line, rfl, ?_, hlong⟩
      rw [List.flatten_cons, ← List.append_assoc, splitLines_append]
      exact hline

theorem boundedLogLineTail_eq_nil {line : Text} : boundedLogLineTail line = [] ↔ line = [] := by
  rw [boundedLogLineTail_eq, ← List.length_eq_zero_iff, length_lastUnits, ← List.length_eq_zero_iff]
  have := maxLogLineLength_pos
  omega

/-- The lines are those of the whole text exactly where no cut ends a long line within. -/
theorem framed_iff (chunks : List Text) : ∀ {before : Text}, lineFeed ∉ before →
    (framed (boundedLogLineTail before) chunks = logLines (before ++ chunks.flatten) ↔
      ¬CutsLongLine before chunks) := by
  induction chunks with
  | nil =>
    intro before hbefore
    refine iff_of_true ?_ ?_
    · simp only [framed, logLines, List.flatten_nil, List.append_nil, splitLines_of_not_mem hbefore,
        boundedLogLineTail_eq_nil]
      rfl
    · rintro ⟨earlier, units, later, line, heq, -⟩
      simp at heq
  | cons chunk rest ih =>
    intro before hbefore
    obtain ⟨hremainder, hlength, hlines⟩ := splitLines_tail hbefore chunk
    have htext : logLines (before ++ (chunk :: rest).flatten) =
        (splitLines (before ++ chunk)).1.map boundedLogLineTail ++
          logLines ((splitLines (before ++ chunk)).2 ++ rest.flatten) := by
      rw [List.flatten_cons, ← List.append_assoc, logLines, splitLines_append, List.map_append,
        List.append_assoc]
      rfl
    rw [framed, hremainder, htext, cutsLongLine_cons hbefore, not_or, ← hlines,
      ← ih (lineFeed_not_mem_remainder _)]
    refine ⟨fun h => List.append_inj h (by simpa using hlength), fun h => ?_⟩
    rw [h.1, h.2]

theorem framed_text_iff (chunks : List Text) :
    framed [] chunks = logLines chunks.flatten ↔ ¬CutsLongLine [] chunks := by
  have h := framed_iff chunks (List.not_mem_nil (a := lineFeed))
  rwa [boundedLogLineTail_eq_nil.2 rfl] at h

end Framing

section Runs

theorem chunks_linesOf (stream source : Stream) (lines : List Text) : ∀ s : LogStream,
    (lines.foldl (LogStream.emitLine source) s).linesOf stream =
      s.linesOf stream ++ if source = stream then lines else [] := by
  induction lines with
  | nil => simp
  | cons line lines ih =>
    intro s
    rw [List.foldl_cons, ih]
    unfold LogStream.linesOf LogStream.emitLine
    by_cases h : source = stream
    · simp [h]
    · simp [h]

theorem foldl_emitLine (source : Stream) (lines : List Text) : ∀ s : LogStream,
    (lines.foldl (LogStream.emitLine source) s).pending = s.pending ∧
      (lines.foldl (LogStream.emitLine source) s).closed = s.closed := by
  induction lines with
  | nil => exact fun s => ⟨rfl, rfl⟩
  | cons line lines ih => exact fun s => ih _

theorem emitPending_linesOf (s : LogStream) (stream source : Stream) :
    (s.emitPending source).linesOf stream =
      s.linesOf stream ++ if source = stream then framed (s.pending stream) [] else [] := by
  unfold LogStream.emitPending framed
  by_cases hpending : s.pending source = []
  · rw [if_pos hpending]
    split_ifs with hsource hnone
    · exact (List.append_nil _).symm
    · exact absurd (hsource ▸ hpending) hnone
    · exact (List.append_nil _).symm
  · rw [if_neg hpending]
    refine (chunks_linesOf stream source [s.pending source] s).trans ?_
    split_ifs with hsource hnone
    · exact absurd (hsource ▸ hnone) hpending
    · rw [hsource]
    · rfl

theorem emitPending_pending (s : LogStream) (source : Stream) :
    (s.emitPending source).pending = s.pending := by
  unfold LogStream.emitPending
  split_ifs <;> rfl

theorem finish_linesOf {s : LogStream} (hs : s.closed = false) (error : Option CommandResult)
    (stream : Stream) :
    (s.finish error).linesOf stream = s.linesOf stream ++ framed (s.pending stream) [] := by
  unfold LogStream.finish
  rw [if_neg (by simp [hs])]
  show ((s.emitPending .stdout).emitPending .stderr).linesOf stream = _
  rw [emitPending_linesOf, emitPending_linesOf, emitPending_pending]
  cases stream <;> simp

theorem finish_closed (s : LogStream) (error : Option CommandResult) :
    (s.finish error).closed = true := by
  unfold LogStream.finish
  split_ifs with h
  · exact h
  · rfl

/-- A stream that is closed hands no line over. -/
theorem step_of_closed {s : LogStream} (hs : s.closed = true) (event : LogEvent) (stream : Stream) :
    (s.step event).closed = true ∧ (s.step event).linesOf stream = s.linesOf stream := by
  cases event with
  | chunk source text => simp [LogStream.step, hs]
  | close result => simp [LogStream.step, LogStream.finish, hs]
  | onLine listener => exact ⟨hs, rfl⟩
  | offLine listener => exact ⟨hs, rfl⟩

theorem foldl_of_closed (stream : Stream) (events : List LogEvent) : ∀ {s : LogStream},
    s.closed = true → (events.foldl LogStream.step s).linesOf stream = s.linesOf stream := by
  induction events with
  | nil => exact fun _ => rfl
  | cons event events ih =>
    intro s hs
    obtain ⟨hclosed, hlines⟩ := step_of_closed hs event stream
    exact (ih hclosed).trans hlines

theorem setPending_pending (s : LogStream) (source stream : Stream) (pending : Text) :
    (s.setPending source pending).pending stream =
      if source = stream then pending else s.pending stream := by
  cases source <;> cases stream <;> rfl

theorem setPending_other (s : LogStream) (source stream : Stream) (pending : Text) :
    (s.setPending source pending).linesOf stream = s.linesOf stream ∧
      (s.setPending source pending).closed = s.closed := by
  cases source <;> exact ⟨rfl, rfl⟩

/-- What a stream hands over until its command has ended is framed chunk by chunk. -/
theorem run_linesOf (result : CommandResult) (stream : Stream) (events : List LogEvent) :
    ∀ {s : LogStream}, s.closed = false →
      ((events ++ [LogEvent.close result]).foldl LogStream.step s).linesOf stream =
        s.linesOf stream ++ framed (s.pending stream) (chunksOf stream events) := by
  induction events with
  | nil => exact fun hs => finish_linesOf hs _ stream
  | cons event events ih =>
    intro s hs
    rw [List.cons_append, List.foldl_cons]
    cases event with
    | close result' =>
      exact (foldl_of_closed stream _ (finish_closed s _)).trans (finish_linesOf hs _ stream)
    | onLine listener => exact ih hs
    | offLine listener => exact ih hs
    | chunk source text =>
      have hstep : s.step (.chunk source text) = s.frameChunk source text := by
        simp [LogStream.step, hs]
      set lines := (splitLines (s.pending source ++ text)).1.map boundedLogLineTail with hlines
      obtain ⟨hpending, hclosed⟩ := foldl_emitLine source lines s
      obtain ⟨hlinesOf, hstill⟩ := setPending_other (lines.foldl (LogStream.emitLine source) s)
        source stream (boundedLogLineTail (splitLines (s.pending source ++ text)).2)
      have hframe : s.frameChunk source text =
          (lines.foldl (LogStream.emitLine source) s).setPending source
            (boundedLogLineTail (splitLines (s.pending source ++ text)).2) := rfl
      rw [hstep, hframe, ih (hstill.trans (hclosed.trans hs)), hlinesOf, chunks_linesOf,
        setPending_pending, hpending, chunksOf]
      split_ifs with hsource
      · rw [framed, ← hsource, List.append_assoc]
      · rw [List.append_nil]

theorem framed_whole (s : Text) : framed [] [s] = logLines s := by
  simp only [framed, logLines, List.nil_append, boundedLogLineTail_eq_nil]

/-- The lines of a stream are those of its text, however it was cut, exactly where no cut parts the
end of a line that fills the limit. -/
theorem log_lines_of_text (events : List LogEvent) (result : CommandResult) (stream : Stream) :
    (LogStream.run (events ++ [.close result])).linesOf stream =
        logLines (chunksOf stream events).flatten ↔
      ¬CutsLongLine [] (chunksOf stream events) := by
  rw [LogStream.run, run_linesOf result stream events (s := .new) rfl]
  cases stream <;> exact framed_text_iff _

/-- A line that fills the limit comes otherwise where it is cut before its line feed. -/
theorem framed_cut {line : Text} (hline : lineFeed ∉ line)
    (hlong : maxLogLineLength ≤ line.length) :
    framed [] [line ++ [carriageReturn], [lineFeed]] ≠
      framed [] [line ++ [carriageReturn, lineFeed]] := by
  have hcuts : CutsLongLine [] [line ++ [carriageReturn], [lineFeed]] := by
    refine ⟨[line ++ [carriageReturn]], [], [], line, rfl, ?_, hlong⟩
    rw [List.flatten_singleton, List.nil_append, splitLines_of_not_mem]
    intro h
    rcases List.mem_append.1 h with h | h
    · exact hline h
    · exact lineFeed_ne (List.mem_singleton.1 h)
  have htext : [line ++ [carriageReturn], [lineFeed]].flatten =
      line ++ [carriageReturn, lineFeed] := by simp
  have hlost := (framed_text_iff _).not_left.2 hcuts
  rwa [htext, ← framed_whole] at hlost

theorem run_cut {line : Text} (hline : lineFeed ∉ line) (hlong : maxLogLineLength ≤ line.length)
    (result : CommandResult) :
    (LogStream.run [.chunk .stdout (line ++ [carriageReturn]), .chunk .stdout [lineFeed],
        .close result]).linesOf .stdout ≠
      (LogStream.run [.chunk .stdout (line ++ [carriageReturn, lineFeed]),
        .close result]).linesOf .stdout := by
  have hcut := run_linesOf result .stdout [.chunk .stdout (line ++ [carriageReturn]),
    .chunk .stdout [lineFeed]] (s := .new) rfl
  have hwhole := run_linesOf result .stdout
    [.chunk .stdout (line ++ [carriageReturn, lineFeed])] (s := .new) rfl
  exact fun h => framed_cut hline hlong (hcut.symm.trans (h.trans hwhole))

def fullLine : Text := List.replicate maxLogLineLength (unit 'a')

def resultOk : CommandResult := ⟨false, 0, []⟩

/-- The text of a full line, whole and cut. -/
theorem log_lines_depend_on_cut :
    (chunksOf .stdout [.chunk .stdout (fullLine ++ [carriageReturn]),
        .chunk .stdout [lineFeed]]).flatten =
      (chunksOf .stdout [.chunk .stdout (fullLine ++ [carriageReturn, lineFeed])]).flatten ∧
    (LogStream.run [.chunk .stdout (fullLine ++ [carriageReturn]), .chunk .stdout [lineFeed],
        .close resultOk]).linesOf .stdout ≠
      (LogStream.run [.chunk .stdout (fullLine ++ [carriageReturn, lineFeed]),
        .close resultOk]).linesOf .stdout := by
  have hline : lineFeed ∉ fullLine := fun h => absurd (List.mem_replicate.1 h).2 (by decide)
  have hlong : maxLogLineLength ≤ fullLine.length := by rw [fullLine, List.length_replicate]
  exact ⟨by simp [chunksOf], run_cut hline hlong resultOk⟩

end Runs

end Atlas.Cli.Logs
