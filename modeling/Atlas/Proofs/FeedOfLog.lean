import Atlas.Proofs.FeedDispatch

/-!
# The feed is the log's

Beside each other, the dispatcher and the hub run as each does by itself (`FeedRun.dispatched`,
`FeedRun.hubbed`): the records come from the log in the order of their versions, which is the order
the hub asks for. A hub that is open has published what the dispatcher has.
-/

namespace Atlas.Feed

open Atlas.Core (ChangeRow)

variable {payloadBytes : ChangeRow → ℕ} {clientBuffer : ℕ} {d : Dispatcher} {h : Hub}

theorem FeedRun.dispatched (run : FeedRun payloadBytes clientBuffer d h) :
    DispatcherRun payloadBytes d := by
  induction run with
  | new hlog hstart => exact .new hlog hstart
  | dispatcher step _ hallowed _ ih => exact ih.step step hallowed
  | hub _ _ _ ih => exact ih
  | publish _ _ _ ih => exact ih.step .publish trivial

theorem step_publish {record : ChangeRow} {records : List ChangeRow} {hasMore : Bool}
    (hdrain : d.drain = .publishing (record :: records) hasMore) :
    (d.step payloadBytes .publish).published = d.published ++ [Dispatcher.routed record] := by
  simp only [Dispatcher.step, hdrain]
  rfl

/-- What is published is so in a step of the dispatcher's, and a hub stays closed. -/
theorem Hub.step_other {step : HubStep} (hnot : ∀ event, step ≠ .publish event) :
    (h.step step).published = h.published ∧ (h.closed = true → (h.step step).closed = true) := by
  cases step with
  | publish event => exact absurd rfl (hnot event)
  | _ =>
    simp only [Hub.step, Hub.newClient, Hub.closeClientLocked, Hub.close, Hub.deliver]
    repeat' split
    all_goals simp

theorem FeedRun.published (run : FeedRun payloadBytes clientBuffer d h) :
    h.published <+: d.published ∧ (h.closed = false → h.published = d.published) := by
  induction run with
  | new hlog hstart => exact ⟨List.prefix_rfl, fun _ => rfl⟩
  | dispatcher step _ _ hsame ih =>
    rw [hsame]
    exact ih
  | @hub d h step _ hnot ih =>
    obtain ⟨hpublished, hclosed⟩ := Hub.step_other (h := h) hnot
    rw [hpublished]
    refine ⟨ih.1, fun hopen => ih.2 ?_⟩
    by_contra hne
    rw [hclosed (by simpa using hne)] at hopen
    cases hopen
  | @publish d h record records hasMore _ hdrain hidle ih =>
    rw [step_publish hdrain]
    simp only [Hub.step, hidle, Hub.publish]
    split_ifs with hclosed
    · exact ⟨ih.1.trans (List.prefix_append _ _), fun hopen => absurd (hclosed ▸ hopen) (by simp)⟩
    · rw [ih.2 (by simpa using hclosed)]
      exact ⟨List.prefix_rfl, fun _ => rfl⟩

theorem FeedRun.hubbed (run : FeedRun payloadBytes clientBuffer d h) : HubRun clientBuffer h := by
  induction run with
  | new _ _ => exact .new
  | dispatcher _ _ _ _ ih => exact ih
  | hub step _ hnot ih => exact ih.step step fun event heq => absurd heq (hnot event)
  | @publish d h record records hasMore run hdrain hidle ih =>
    refine ih.step _ fun event heq earlier hmem => ?_
    obtain rfl := HubStep.publish.inj heq
    have hincreasing := (run.publish hdrain hidle).dispatched.inStep.increasing
    rw [step_publish hdrain, List.pairwise_append] at hincreasing
    exact hincreasing.2.2 earlier (run.published.1.subset hmem) _ (List.mem_singleton_self _)

/-- From the log to a client: it is offered committed events only, in their order and without a gap
from where it came on, and what it receives is those its subscriptions matched; and once the
dispatcher has drained the log, an open client of an idle hub has been offered them all. -/
theorem feed_follows_log (run : FeedRun payloadBytes clientBuffer d h) {c : Client}
    (hmem : c ∈ h.pool) :
    c.offered.map Offer.event <+:
        ((between d.start d.cursor d.committed).map Dispatcher.routed).drop c.since ∧
      c.read ++ c.send = (c.offered.filter Offer.sent).map Offer.event ∧
      (d.drain = .returned true → h.work = .idle → h.closed = false → c.closed = false →
        c.offered.map Offer.event =
            ((between d.start d.upperVersion d.committed).map Dispatcher.routed).drop c.since ∧
          c.read ++ c.send = (c.offered.filter Offer.wanted).map Offer.event) := by
  have hreceived := run.hubbed.fair.received hmem
  have hstep := run.dispatched.inStep
  obtain ⟨hfront, hsame⟩ := run.published
  refine ⟨?_, hreceived.sent, fun hdrained hidle hopen hclient => ?_⟩
  · rw [← hstep.published]
    exact hreceived.published.trans (hfront.drop c.since)
  · obtain ⟨hall, hwanted⟩ := hreceived.all hidle hclient
    rw [hreceived.sent, hall, hsame hopen, hstep.complete hdrained]
    refine ⟨rfl, ?_⟩
    rw [List.filter_congr hwanted]

def drained : Dispatcher :=
  [.readWatermark, .readRecords, .publish, .publish].foldl (Dispatcher.step fun _ => 1)
    (.new 1 [firstRow] 0)

def watched : Hub :=
  [.newClient, .subscribe 0 ⟨.all, none, "", ""⟩, .publish (Dispatcher.routed firstRow),
    .deliver 0, .delivered, .unlock].foldl Hub.step (.new 1)

/-- A client that wants everything has the log's one event. -/
theorem feed_follows_log_firstRow :
    ∃ c, watched.pool[0]? = some c ∧ c.read ++ c.send = [Dispatcher.routed firstRow] := by
  have hready : FeedRun (fun _ => 1) 1
      ([.readWatermark, .readRecords].foldl (Dispatcher.step fun _ => 1) (.new 1 [firstRow] 0))
      ([.newClient, .subscribe 0 ⟨.all, none, "", ""⟩].foldl Hub.step (.new 1)) :=
    .dispatcher .readRecords (.dispatcher .readWatermark (.hub (.subscribe 0 _) (.hub .newClient
      (.new logInOrder_firstRow (Nat.zero_le 1)) (by simp)) (by simp)) trivial rfl) trivial rfl
  have hpublished := @FeedRun.publish _ _ _ _ firstRow [] false hready rfl rfl
  have hrun : FeedRun (fun _ => 1) 1 drained watched :=
    .dispatcher .publish (.hub .unlock (.hub .delivered (.hub (.deliver 0) hpublished (by simp))
      (by simp)) (by simp)) trivial rfl
  refine ⟨_, rfl, ?_⟩
  exact ((feed_follows_log hrun (List.mem_of_getElem? (i := 0) rfl)).2.2 rfl rfl rfl rfl).2.trans
    (by decide +kernel)

end Atlas.Feed
