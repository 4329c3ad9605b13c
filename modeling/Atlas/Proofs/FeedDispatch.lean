import Atlas.Feed.Dispatcher
import Atlas.Proofs.FeedHub

/-!
# What the dispatcher publishes

At any time the dispatcher has published the committed events between its start and its cursor, and
once a call returns without an error, all up to the watermark it has read.
-/

namespace Atlas.Feed

open Atlas.Core (ChangeRow FeedEvent)

variable {payloadBytes : ChangeRow → ℕ}

section Pages

variable (payloadBytes) in
/-- A page is the first rows, and all of them unless there are more. -/
theorem readRows_spec (limit : ℕ) : ∀ (rows records : List ChangeRow) (totalBytes : ℕ),
    ∃ page, (readRows payloadBytes limit rows records totalBytes).1 = records ++ page ∧
      page <+: rows ∧ ((readRows payloadBytes limit rows records totalBytes).2 = false →
        page = rows ∧ (rows ≠ [] → records.length + rows.length ≤ limit))
  | [], records, _ => ⟨[], (List.append_nil _).symm, List.prefix_rfl, fun _ =>
      ⟨rfl, fun hne => absurd rfl hne⟩⟩
  | row :: rows, records, totalBytes => by
    unfold readRows
    split_ifs with hfull
    · exact ⟨[], (List.append_nil _).symm, List.nil_prefix, nofun⟩
    · obtain ⟨page, heq, hfirst, hall⟩ :=
        readRows_spec limit rows (records ++ [row]) (totalBytes + payloadBytes row)
      refine ⟨row :: page, ?_, (List.prefix_cons_inj row).2 hfirst, fun hmore => ?_⟩
      · rw [heq, List.append_assoc]
        rfl
      · obtain ⟨hpage, hlength⟩ := hall hmore
        refine ⟨congrArg _ hpage, fun _ => ?_⟩
        rw [not_or, Nat.not_le] at hfull
        rcases rows with - | ⟨next, rows⟩
        · exact hfull.1
        · have := hlength (List.cons_ne_nil _ _)
          rw [List.length_append, List.length_singleton] at this
          rw [List.length_cons]
          omega

variable (payloadBytes) in
theorem readChangeRecords_spec (events : List ChangeRow) (afterVersion throughVersion limit : ℕ) :
    (readChangeRecords payloadBytes events afterVersion throughVersion limit).1 <+:
        between afterVersion throughVersion events ∧
      ((readChangeRecords payloadBytes events afterVersion throughVersion limit).2 = false →
        (readChangeRecords payloadBytes events afterVersion throughVersion limit).1 =
          between afterVersion throughVersion events) := by
  obtain ⟨page, heq, hfirst, hall⟩ := readRows_spec payloadBytes limit
    ((between afterVersion throughVersion events).take (limit + 1)) [] 0
  unfold readChangeRecords
  rw [heq, List.nil_append]
  refine ⟨hfirst.trans (List.take_prefix _ _), fun hmore => ?_⟩
  obtain ⟨hpage, hlength⟩ := hall hmore
  rw [hpage]
  refine List.take_of_length_le ?_
  by_contra hlong
  rw [Nat.not_le] at hlong
  have hlen : ((between afterVersion throughVersion events).take (limit + 1)).length = limit + 1 :=
    by rw [List.length_take]; omega
  have hne : (between afterVersion throughVersion events).take (limit + 1) ≠ [] := fun hnil => by
    rw [hnil] at hlen
    cases hlen
  have := hlength hne
  rw [hlen] at this
  simp at this

end Pages

section Dispatching

open Dispatcher

variable {d : Dispatcher}

/-- What a call of `drain` is about to publish. -/
def Drain.Follows (committed : List ChangeRow) (cursor upperVersion : ℕ) : Drain → Prop
  | .returned done => done = true → between cursor upperVersion committed = []
  | .watermark upper => upper = upperVersion
  | .publishing records hasMore => records <+: between cursor upperVersion committed ∧
    (hasMore = false → records = between cursor upperVersion committed)

/-- The dispatcher is in step with the log. -/
structure InStep (d : Dispatcher) : Prop where
  log : LogInOrder d.clock d.committed
  retained : (d.changeEvents.filter fun row => d.cursor < row.version) =
    d.committed.filter fun row => d.cursor < row.version
  start : d.start ≤ d.cursor
  cursor : d.cursor ≤ d.upperVersion
  upper : d.upperVersion ≤ d.clock
  drain : d.drain.Follows d.committed d.cursor d.upperVersion
  published : d.published = (between d.start d.cursor d.committed).map routed

theorem between_eq_filter (afterVersion throughVersion : ℕ) (rows : List ChangeRow) :
    between afterVersion throughVersion rows =
      (rows.filter fun row => afterVersion < row.version).filter
        fun row => row.version ≤ throughVersion := by
  unfold between
  rw [List.filter_filter]
  exact List.filter_congr fun row _ => Bool.and_comm _ _

/-- What commits later is above every watermark that has been read. -/
theorem between_append {rows : List ChangeRow} {afterVersion throughVersion clock : ℕ}
    (committed : List ChangeRow) (hthrough : throughVersion ≤ clock)
    (hrows : ∀ row ∈ rows, clock < row.version) :
    between afterVersion throughVersion (committed ++ rows) =
      between afterVersion throughVersion committed := by
  have hnone : (rows.filter fun row => decide (afterVersion < row.version) &&
      decide (row.version ≤ throughVersion)) = [] := by
    refine List.filter_eq_nil_iff.2 fun row hmem => ?_
    have := hrows row hmem
    simp only [Bool.and_eq_true, decide_eq_true_eq, not_and, Nat.not_le]
    omega
  unfold between
  rw [List.filter_append, hnone, List.append_nil]

theorem Drain.Follows.commit {committed rows : List ChangeRow} {cursor upperVersion clock : ℕ}
    {drain : Drain} (h : drain.Follows committed cursor upperVersion)
    (hupper : upperVersion ≤ clock)
    (hrows : ∀ row ∈ rows, clock < row.version) :
    drain.Follows (committed ++ rows) cursor upperVersion := by
  unfold Drain.Follows at h ⊢
  rw [between_append committed hupper hrows]
  exact h

/-- The first of what is left of an ordered log is the next to be published. -/
theorem between_cons {committed records : List ChangeRow} {record : ChangeRow} {start cursor
    upperVersion : ℕ}
    (hlog : committed.Pairwise fun earlier later => earlier.version < later.version)
    (hstart : start ≤ cursor)
    (h : between cursor upperVersion committed = record :: records) :
    cursor < record.version ∧ record.version ≤ upperVersion ∧
      between record.version upperVersion committed = records ∧
      between start record.version committed = between start cursor committed ++ [record] := by
  unfold between at h
  obtain ⟨earlier, later, hcommitted, hout, hin, hrest⟩ := List.filter_eq_cons_iff.1 h
  rw [Bool.and_eq_true, decide_eq_true_eq, decide_eq_true_eq] at hin
  rw [hcommitted] at hlog
  obtain ⟨-, hlater, hbefore⟩ := List.pairwise_append.1 hlog
  have hearlier : ∀ row ∈ earlier, row.version ≤ cursor := by
    intro row hmem
    have hlt := hbefore row hmem record List.mem_cons_self
    have hnot := hout row hmem
    simp only [Bool.and_eq_true, decide_eq_true_eq, not_and, Nat.not_le] at hnot
    omega
  have hafter : ∀ row ∈ later, record.version < row.version := (List.pairwise_cons.1 hlater).1
  refine ⟨hin.1, hin.2, ?_, ?_⟩
  · unfold between
    rw [hcommitted, List.filter_append, List.filter_cons_of_neg (by simp), ← hrest,
      List.filter_eq_nil_iff.2, List.nil_append]
    · refine List.filter_congr fun row hmem => ?_
      have := hafter row hmem
      congr 1
      simp only [decide_eq_decide]
      omega
    · intro row hmem
      have := hearlier row hmem
      simp only [Bool.and_eq_true, decide_eq_true_eq, not_and, Nat.not_le]
      omega
  · unfold between
    have hnone : ∀ through ≤ record.version, (later.filter fun row =>
        decide (start < row.version) && decide (row.version ≤ through)) = [] := by
      intro through hle
      refine List.filter_eq_nil_iff.2 fun row hmem => ?_
      have := hafter row hmem
      simp only [Bool.and_eq_true, decide_eq_true_eq, not_and, Nat.not_le]
      omega
    rw [hcommitted, List.filter_append, List.filter_append,
      List.filter_cons_of_pos (by simp; omega), List.filter_cons_of_neg (by simp; omega),
      hnone _ le_rfl, hnone _ hin.1.le, List.append_nil]
    congr 1
    refine List.filter_congr fun row hmem => ?_
    have := hearlier row hmem
    congr 1
    simp only [decide_eq_decide]
    omega

theorem between_self (version : ℕ) (rows : List ChangeRow) : between version version rows = [] := by
  refine List.filter_eq_nil_iff.2 fun row _ => ?_
  simp

theorem InStep.commit (h : InStep d) {rows : List ChangeRow} {clock : ℕ}
    (hallowed : d.Allowed (.commit rows clock)) :
    InStep (d.step payloadBytes (.commit rows clock)) := by
  obtain ⟨hclock, hrows, hordered⟩ := hallowed
  have habove : ∀ row ∈ rows, d.clock < row.version := fun row hmem => (hrows row hmem).1
  refine ⟨⟨?_, fun row hmem => ?_⟩, ?_, h.start, h.cursor, h.upper.trans hclock,
    h.drain.commit h.upper habove, ?_⟩
  · refine List.pairwise_append.2 ⟨h.log.increasing, hordered, ?_⟩
    intro earlier hearlier later hlater
    exact (h.log.version earlier hearlier).1.trans_lt (habove later hlater)
  · rcases List.mem_append.1 hmem with hmem | hmem
    · exact ⟨(h.log.version row hmem).1.trans hclock, (h.log.version row hmem).2⟩
    · exact ⟨(hrows row hmem).2.1, (hrows row hmem).2.2⟩
  · show ((d.changeEvents ++ rows).filter _) = (d.committed ++ rows).filter _
    rw [List.filter_append, List.filter_append]
    exact congrArg (· ++ _) h.retained
  · show d.published = (between d.start d.cursor (d.committed ++ rows)).map routed
    rw [between_append _ (h.cursor.trans h.upper) habove]
    exact h.published

theorem InStep.prune (h : InStep d) {through : ℕ} (hallowed : through ≤ d.cursor) :
    InStep (d.step payloadBytes (.prune through)) := by
  refine ⟨h.log, ?_, h.start, h.cursor, h.upper, h.drain, h.published⟩
  show ((d.changeEvents.filter _).filter fun row => d.cursor < row.version) =
    d.committed.filter fun row => d.cursor < row.version
  rw [← h.retained, List.filter_filter]
  refine List.filter_congr fun row _ => ?_
  simp only [Bool.and_eq_left_iff_imp, decide_eq_true_eq]
  exact fun hlt => lt_of_le_of_lt hallowed hlt

theorem InStep.readWatermark (h : InStep d) : InStep d.readWatermark :=
  ⟨h.log, h.retained, h.start, h.cursor.trans h.upper, le_rfl, rfl, h.published⟩

theorem InStep.readRecords (h : InStep d) {upperVersion : ℕ}
    (hdrain : d.drain = .watermark upperVersion) :
    InStep (d.readRecords payloadBytes upperVersion) := by
  have hupper : upperVersion = d.upperVersion := by
    have := h.drain
    rw [hdrain] at this
    exact this
  have hspec := readChangeRecords_spec payloadBytes d.changeEvents d.cursor upperVersion
    changeDispatchBatchSize
  rw [between_eq_filter, h.retained, ← between_eq_filter, hupper] at hspec
  refine ⟨h.log, h.retained, h.start, h.cursor, h.upper, ?_, h.published⟩
  show Drain.Follows d.committed d.cursor d.upperVersion (.publishing _ _)
  rw [hupper]
  exact hspec

theorem InStep.publish (h : InStep d) {records : List ChangeRow} {hasMore : Bool}
    (hdrain : d.drain = .publishing records hasMore) : InStep (d.publish records hasMore) := by
  have hfollows := h.drain
  rw [hdrain] at hfollows
  obtain ⟨⟨rest, hrest⟩, hall⟩ := hfollows
  unfold Dispatcher.publish
  split
  · rename_i record records
    obtain ⟨hcursor, hupper, hnext, hpublished⟩ :=
      between_cons h.log.increasing h.start hrest.symm
    have hnew : record ∈ between d.cursor d.upperVersion d.committed := by
      rw [← hrest]
      exact List.mem_cons_self
    have hmem : record ∈ d.committed := List.mem_of_mem_filter hnew
    have hversion := (h.log.version record hmem).2
    refine ⟨h.log, ?_, ?_, ?_, h.upper, ?_, ?_⟩
    · show (d.changeEvents.filter fun row => record.event.version < row.version) =
        d.committed.filter fun row => record.event.version < row.version
      have hfilter : ∀ rows : List ChangeRow,
          (rows.filter fun row => record.event.version < row.version) =
            (rows.filter fun row => d.cursor < row.version).filter
              fun row => record.event.version < row.version := by
        intro rows
        rw [List.filter_filter]
        refine List.filter_congr fun row _ => ?_
        simp only [hversion]
        by_cases hlt : record.version < row.version
        · simp [hlt, hcursor.trans hlt]
        · simp [hlt]
      rw [hfilter, h.retained, ← hfilter]
    · show d.start ≤ record.event.version
      rw [hversion]
      exact h.start.trans hcursor.le
    · show record.event.version ≤ d.upperVersion
      rw [hversion]
      exact hupper
    · show Drain.Follows d.committed record.event.version d.upperVersion
        (.publishing records hasMore)
      rw [hversion]
      refine ⟨hnext.symm ▸ List.prefix_append records rest, fun hmore => ?_⟩
      have heq := hall hmore
      rw [← hrest] at heq
      have hnil : rest = [] := by simpa using heq
      rw [hnil] at hnext
      exact (hnext.trans (List.append_nil _)).symm
    · show d.published ++ [routed record] = (between d.start record.event.version d.committed).map _
      rw [hversion, hpublished, List.map_append, ← h.published]
      rfl
  · split_ifs with hmore
    · exact h.readWatermark
    · refine ⟨h.log, h.retained, h.start, h.cursor, h.upper, fun _ => ?_, h.published⟩
      exact (hall (Bool.not_eq_true _ ▸ hmore)).symm

theorem InStep.step (h : InStep d) {step : DispatcherStep} (hallowed : d.Allowed step) :
    InStep (d.step payloadBytes step) := by
  cases step with
  | commit rows clock => exact h.commit hallowed
  | prune through => exact h.prune hallowed
  | readWatermark =>
    simp only [Dispatcher.step]
    split
    · exact h.readWatermark
    · exact h
  | readRecords =>
    simp only [Dispatcher.step]
    split
    · rename_i upperVersion hdrain
      exact h.readRecords hdrain
    · exact h
  | publish =>
    simp only [Dispatcher.step]
    split
    · rename_i records hasMore hdrain
      exact h.publish hdrain
    · exact h
  | fail => exact ⟨h.log, h.retained, h.start, h.cursor, h.upper, (fun heq => by cases heq), h.published⟩

theorem DispatcherRun.inStep (run : DispatcherRun payloadBytes d) : InStep d := by
  induction run with
  | @new clock changeEvents startAfterVersion hlog hstart =>
    refine ⟨hlog, rfl, le_rfl, le_rfl, hstart, nofun, ?_⟩
    show [] = (between startAfterVersion startAfterVersion changeEvents).map routed
    rw [between_self]
    rfl
  | step step _ hallowed ih => exact ih.step hallowed

theorem InStep.increasing (h : InStep d) : d.published.Pairwise fun earlier later =>
    earlier.event.version < later.event.version := by
  rw [h.published, List.pairwise_map]
  refine List.Pairwise.imp_of_mem ?_ (h.log.increasing.sublist List.filter_sublist)
  intro earlier later hearlier hlater hlt
  show earlier.event.version < later.event.version
  rw [(h.log.version earlier (List.mem_of_mem_filter hearlier)).2,
    (h.log.version later (List.mem_of_mem_filter hlater)).2]
  exact hlt

theorem InStep.complete (h : InStep d) (hdone : d.drain = .returned true) :
    d.published = (between d.start d.upperVersion d.committed).map routed := by
  have hnone := h.drain
  rw [hdone] at hnone
  have hnone := List.filter_eq_nil_iff.1 (hnone rfl)
  rw [h.published]
  congr 1
  refine List.filter_congr fun row hmem => ?_
  have := hnone row hmem
  simp only [Bool.and_eq_true, decide_eq_true_eq, not_and, Nat.not_le] at this
  have hcursor := h.cursor
  congr 1
  simp only [decide_eq_decide]
  omega

end Dispatching

/-- Clients receive all they want up to where they are closed, and the dispatcher publishes all
there is up to its cursor, which a call without an error brings up to its last watermark. -/
theorem feed_has_no_holes :
    (∀ clientBuffer h, HubRun clientBuffer h → ∀ c ∈ h.pool, Received h c) ∧
      ∀ payloadBytes d, DispatcherRun payloadBytes d →
        (d.published.Pairwise fun earlier later => earlier.event.version < later.event.version) ∧
          d.published = (between d.start d.cursor d.committed).map Dispatcher.routed ∧
          d.cursor ≤ d.upperVersion ∧
          (d.drain = .returned true →
            d.published = (between d.start d.upperVersion d.committed).map Dispatcher.routed) :=
  ⟨fun _ _ run _ hmem => run.fair.received hmem, fun _ _ run =>
    ⟨run.inStep.increasing, run.inStep.published, run.inStep.cursor, run.inStep.complete⟩⟩

def firstRow : ChangeRow := ⟨1, ⟨.create, .entity, "asset", 1, false, none⟩, none, 0⟩

theorem logInOrder_firstRow : LogInOrder 1 [firstRow] :=
  ⟨List.pairwise_singleton _ _, fun row hmem => by
    rw [List.mem_singleton.1 hmem]
    exact ⟨le_rfl, rfl⟩⟩

/-- The log's one event is published, and received by a client that wants everything. -/
theorem feed_has_no_holes_firstRow :
    (∃ c, ((((((((Hub.new 1).step .newClient).step (.subscribe 0 ⟨.all, none, "", ""⟩)).step
        (.publish (Dispatcher.routed firstRow))).step (.deliver 0)).step .delivered).step
          .unlock).step (.receive 0)).pool[0]? = some c ∧ c.read ++ c.send =
            (c.offered.filter Offer.sent).map Offer.event ∧ c.read.length = 1) ∧
      (((((Dispatcher.new 1 [firstRow] 0).step (fun _ => 1) .readWatermark).step (fun _ => 1)
        .readRecords).step (fun _ => 1) .publish).step (fun _ => 1) .publish).published =
          [Dispatcher.routed firstRow] := by
  have hrun : HubRun 1 ((((((((Hub.new 1).step .newClient).step
      (.subscribe 0 ⟨.all, none, "", ""⟩)).step (.publish (Dispatcher.routed firstRow))).step
        (.deliver 0)).step .delivered).step .unlock).step (.receive 0)) := by
    refine .step _ (.step _ (.step _ (.step _ (.step _ (.step _ (.step _ .new ?_) ?_) ?_) ?_) ?_)
      ?_) ?_
    all_goals intro event heq earlier hmem
    all_goals first | exact absurd hmem List.not_mem_nil | cases heq
  have hdispatch : DispatcherRun (fun _ => 1)
      (((((Dispatcher.new 1 [firstRow] 0).step (fun _ => 1) .readWatermark).step (fun _ => 1)
        .readRecords).step (fun _ => 1) .publish).step (fun _ => 1) .publish) :=
    .step _ (.step _ (.step _ (.step _ (.new logInOrder_firstRow (Nat.zero_le 1)) trivial) trivial)
      trivial) trivial
  refine ⟨⟨_, rfl,
    (feed_has_no_holes.1 _ _ hrun _ (List.mem_of_getElem? (i := 0) rfl)).sent, rfl⟩, ?_⟩
  exact ((feed_has_no_holes.2 _ _ hdispatch).2.2.2 (by decide +kernel)).trans (by decide +kernel)

/-- A call that fails between its two reads has read a watermark that it has published nothing up
to. -/
theorem drain_interrupted_after_watermark :
    ¬ ∀ payloadBytes d, DispatcherRun payloadBytes d →
      d.published = (between d.start d.upperVersion d.committed).map Dispatcher.routed := by
  intro hall
  have hrun : DispatcherRun (fun _ => 1) (((Dispatcher.new 1 [firstRow] 0).step (fun _ => 1)
      .readWatermark).step (fun _ => 1) .fail) :=
    .step _ (.step _ (.new logInOrder_firstRow (Nat.zero_le 1)) trivial) trivial
  exact absurd (hall _ _ hrun) (by decide +kernel)

end Atlas.Feed
