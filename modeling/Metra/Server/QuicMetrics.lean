import Mathlib.Algebra.BigOperators.Group.List.Basic
import Mathlib.Algebra.Ring.Int.Defs
import Mathlib.Data.Finset.Lattice.Lemmas
import Metra.Proto

/-!
# The metrics of lane streams

What the server counts when a lane stream starts and when it ends, and the guard that
counts the end of a stream whichever way it ends.  The histograms of durations, which are
read from the clock, are left out.

* `finish_then_drop` — the end of a stream is counted once;
* `active_eq` — every series of the gauge, from the streams of the run;
* `active_total` — the series of one kind of stream add up to the live ones;
* `gauge_balanced_iff` — but the series do not say how many are live once a stream has
  ended, since the end is counted in another series than the start.
-/

namespace Metra.Server

/-! ## Attributes -/

/-- The value of an attribute. -/
inductive AttrValue
  | i64 (value : Int)
  | bool (value : Bool)
  | str (value : String)
  deriving DecidableEq, Repr

/-- An attribute of a measurement. -/
structure KeyValue where
  key : String
  value : AttrValue
  deriving DecidableEq, Repr

/-- The status of a stream as an attribute. -/
def statusLabel : TransferStatus → String
  | .queued => "queued"
  | .running => "running"
  | .completed => "completed"
  | .failed => "failed"

/-- The attributes of a lane. -/
def laneAttrs (laneIndex totalLanes : Nat) (striped noDisk : Bool) : List KeyValue :=
  [⟨"lane.index", .i64 laneIndex⟩,
    ⟨"lane.total", .i64 totalLanes⟩,
    ⟨"transfer.striped", .bool striped⟩,
    ⟨"transfer.no_disk", .bool noDisk⟩]

/-- The attributes of a lane that has ended, its status among them. -/
def laneFinishAttrs (laneIndex totalLanes : Nat) (striped noDisk : Bool) (status : String) :
    List KeyValue :=
  laneAttrs laneIndex totalLanes striped noDisk ++ [⟨"transfer.status", .str status⟩]

/-- The attributes under which the start of a stream is counted in the gauge. -/
def streamAttrs (totalLanes : Nat) (striped noDisk : Bool) : List KeyValue :=
  [⟨"lane.total", .i64 totalLanes⟩,
    ⟨"transfer.striped", .bool striped⟩,
    ⟨"transfer.no_disk", .bool noDisk⟩]

/-- The attributes under which its end is counted: the same and the status. -/
def streamFinishAttrs (totalLanes : Nat) (striped noDisk : Bool) (status : String) :
    List KeyValue :=
  streamAttrs totalLanes striped noDisk ++ [⟨"transfer.status", .str status⟩]

/-! ## Instruments -/

/-- What a counter has counted: one sum for every set of attributes. -/
def Series (V : Type) : Type := Finset KeyValue → V

namespace Series

variable {V : Type} [Add V]

/-- Count under a set of attributes. -/
def add (series : Series V) (delta : V) (attrs : List KeyValue) : Series V :=
  Function.update series attrs.toFinset (series attrs.toFinset + delta)

theorem add_apply (series : Series V) (delta : V) (attrs : List KeyValue)
    (key : Finset KeyValue) :
    series.add delta attrs key =
      if attrs.toFinset = key then series key + delta else series key := by
  by_cases h : attrs.toFinset = key
  · subst h
    rw [if_pos rfl]
    exact Function.update_self _ _ _
  · rw [if_neg h]
    exact Function.update_of_ne (Ne.symm h) _ _

end Series

/-- The instruments: three counters and the gauge of active streams. -/
structure QuicMetrics where
  laneStreamsStartedTotal : Series Nat
  laneStreamsFinishedTotal : Series Nat
  laneBytesReceivedTotal : Series Nat
  activeLaneStreams : Series Int

/-- Nothing has been counted. -/
def QuicMetrics.empty : QuicMetrics := ⟨fun _ => 0, fun _ => 0, fun _ => 0, fun _ => 0⟩

/-- A stream starts: one is added to the gauge. -/
def recordLaneStreamStarted (laneIndex totalLanes : Nat) (striped noDisk : Bool)
    (metrics : QuicMetrics) : QuicMetrics :=
  let laneAttrs := laneAttrs laneIndex totalLanes striped noDisk
  let streamAttrs := streamAttrs totalLanes striped noDisk
  { metrics with
    laneStreamsStartedTotal := metrics.laneStreamsStartedTotal.add 1 laneAttrs
    activeLaneStreams := metrics.activeLaneStreams.add 1 streamAttrs }

/-- A stream ends: one is taken off the gauge, under the attributes of its end. -/
def recordLaneStreamFinished (laneIndex totalLanes : Nat) (striped noDisk : Bool)
    (status : TransferStatus) (bytesReceived : Nat) (metrics : QuicMetrics) : QuicMetrics :=
  let statusText := statusLabel status
  let laneAttrs := laneFinishAttrs laneIndex totalLanes striped noDisk statusText
  let streamAttrs := streamFinishAttrs totalLanes striped noDisk statusText
  { metrics with
    laneStreamsFinishedTotal := metrics.laneStreamsFinishedTotal.add 1 laneAttrs
    activeLaneStreams := metrics.activeLaneStreams.add (-1) streamAttrs
    laneBytesReceivedTotal := metrics.laneBytesReceivedTotal.add bytesReceived laneAttrs }

/-! ## The guard of a lane stream -/

/-- The guard that a handler holds for as long as its stream lives. -/
structure LaneStreamMetricGuard where
  laneIndex : Nat
  totalLanes : Nat
  striped : Bool
  noDisk : Bool
  bytesReceived : Nat
  finished : Bool
  deriving DecidableEq

namespace LaneStreamMetricGuard

/-- A guard counts the start of its stream. -/
def new (laneIndex totalLanes : Nat) (striped noDisk : Bool) (metrics : QuicMetrics) :
    LaneStreamMetricGuard × QuicMetrics :=
  ({ laneIndex, totalLanes, striped, noDisk, bytesReceived := 0, finished := false },
    recordLaneStreamStarted laneIndex totalLanes striped noDisk metrics)

/-- The sum saturates. -/
def addBytes (guard : LaneStreamMetricGuard) (bytes : Nat) : LaneStreamMetricGuard :=
  { guard with bytesReceived := min (guard.bytesReceived + bytes) (2 ^ 64 - 1) }

/-- A guard is told the status of its stream, and counts the end; the second time nothing happens.
-/
def finish (guard : LaneStreamMetricGuard) (status : TransferStatus) (metrics : QuicMetrics) :
    LaneStreamMetricGuard × QuicMetrics :=
  if guard.finished then (guard, metrics)
  else
    ({ guard with finished := true },
      recordLaneStreamFinished guard.laneIndex guard.totalLanes guard.striped guard.noDisk
        status guard.bytesReceived metrics)

/-- A guard that goes without having been told counts the stream as failed. -/
def drop (guard : LaneStreamMetricGuard) (metrics : QuicMetrics) : QuicMetrics :=
  if !guard.finished then
    recordLaneStreamFinished guard.laneIndex guard.totalLanes guard.striped guard.noDisk
      .failed guard.bytesReceived metrics
  else metrics

/-- **The end of a stream is counted once**, by the first of `finish` and `drop`. -/
theorem finish_then_drop (guard : LaneStreamMetricGuard) (status : TransferStatus)
    (metrics : QuicMetrics) :
    (guard.finish status metrics).1.drop (guard.finish status metrics).2 =
      (guard.finish status metrics).2 := by
  by_cases h : guard.finished = true <;> simp [finish, drop, h]

/-- The attributes under which the start is counted. -/
def startKey (guard : LaneStreamMetricGuard) : Finset KeyValue :=
  (streamAttrs guard.totalLanes guard.striped guard.noDisk).toFinset

/-- The attributes under which an end with `status` is counted. -/
def finishKey (guard : LaneStreamMetricGuard) (status : TransferStatus) : Finset KeyValue :=
  (streamFinishAttrs guard.totalLanes guard.striped guard.noDisk (statusLabel status)).toFinset

end LaneStreamMetricGuard

/-! ## The streams of a server -/

/-- A lane stream that was started: its guard, whether that is dropped, and (for the proofs)
the status its end was counted with. -/
structure StartedStream where
  guard : LaneStreamMetricGuard
  dropped : Bool
  endedAs : Option TransferStatus

/-- The stream has neither finished nor failed. -/
def StartedStream.live (stream : StartedStream) : Bool :=
  !stream.guard.finished && !stream.dropped

/-- The instruments, and all the streams there have been. -/
structure MetricState where
  metrics : QuicMetrics
  streams : List StartedStream

/-- A server that has just been started. -/
def MetricState.init : MetricState := ⟨.empty, []⟩

/-- What the tasks of the server do with their guards; a stream has the number of its start. -/
inductive MetricEvent
  | start (laneIndex totalLanes : Nat) (striped noDisk : Bool)
  | addBytes (stream bytes : Nat)
  | finish (stream : Nat) (status : TransferStatus)
  | drop (stream : Nat)
  deriving DecidableEq

/-- The event is about the end of a stream. -/
def MetricEvent.ends : MetricEvent → Bool
  | .finish _ _ | .drop _ => true
  | .start .. | .addBytes _ _ => false

namespace MetricState

/-- A guard that is not dropped yet. -/
def held? (s : MetricState) (i : Nat) : Option StartedStream :=
  s.streams[i]?.filter fun stream => !stream.dropped

/-- What an event does; the guard of a stream that has been dropped takes no more. -/
def step (s : MetricState) : MetricEvent → Option MetricState
  | .start laneIndex totalLanes striped noDisk =>
    let (guard, metrics) := LaneStreamMetricGuard.new laneIndex totalLanes striped noDisk s.metrics
    some ⟨metrics, s.streams ++ [⟨guard, false, none⟩]⟩
  | .addBytes i bytes =>
    (s.held? i).map fun stream =>
      { s with streams := s.streams.set i { stream with guard := stream.guard.addBytes bytes } }
  | .finish i status =>
    (s.held? i).map fun stream =>
      let (guard, metrics) := stream.guard.finish status s.metrics
      ⟨metrics, s.streams.set i { stream with
        guard
        endedAs := if stream.guard.finished then stream.endedAs else some status }⟩
  | .drop i =>
    (s.held? i).map fun stream =>
      ⟨stream.guard.drop s.metrics, s.streams.set i { stream with
        dropped := true
        endedAs := if stream.guard.finished then stream.endedAs else some .failed }⟩

/-- One event after another. -/
def run : MetricState → List MetricEvent → Option MetricState
  | s, [] => some s
  | s, event :: events => (s.step event).bind fun s' => s'.run events

/-- How many streams with these attributes are live. -/
def liveStreams (s : MetricState) (key : Finset KeyValue) : Nat :=
  s.streams.countP fun stream => stream.live && stream.guard.startKey = key

/-- The gauge says of every set of attributes how many of its streams are live. -/
def Balanced (s : MetricState) : Prop :=
  ∀ key, s.metrics.activeLaneStreams key = s.liveStreams key

end MetricState

/-! ## One step -/

namespace StartedStream

/-- The attributes under which the end of the stream was counted. -/
def endKey (stream : StartedStream) : Option (Finset KeyValue) :=
  stream.endedAs.map stream.guard.finishKey

/-- Both are the same lane stream. -/
def Same (stream stream' : StartedStream) : Prop :=
  stream'.guard.totalLanes = stream.guard.totalLanes ∧
    stream'.guard.striped = stream.guard.striped ∧ stream'.guard.noDisk = stream.guard.noDisk

theorem Same.startKey {stream stream' : StartedStream} (h : stream.Same stream') :
    stream'.guard.startKey = stream.guard.startKey := by
  obtain ⟨hlanes, hstriped, hdisk⟩ := h
  simp only [LaneStreamMetricGuard.startKey, hlanes, hstriped, hdisk]

theorem Same.finishKey {stream stream' : StartedStream} (h : stream.Same stream')
    (status : TransferStatus) : stream'.guard.finishKey status = stream.guard.finishKey status := by
  obtain ⟨hlanes, hstriped, hdisk⟩ := h
  simp only [LaneStreamMetricGuard.finishKey, hlanes, hstriped, hdisk]

theorem Same.endKey {stream stream' : StartedStream} (h : stream.Same stream')
    (hended : stream'.endedAs = stream.endedAs) : stream'.endKey = stream.endKey := by
  rw [StartedStream.endKey, StartedStream.endKey, hended, funext h.finishKey]

/-- The mark says whether the stream has ended. -/
def Marked (stream : StartedStream) : Prop := stream.endedAs.isSome = !stream.live

end StartedStream

namespace MetricState

variable {s s' : MetricState} {event : MetricEvent} {events : List MetricEvent}

/-- The gauge after the end of a stream was counted. -/
def endOf (stream : StartedStream) (status : TransferStatus) (metrics : QuicMetrics) :
    QuicMetrics :=
  recordLaneStreamFinished stream.guard.laneIndex stream.guard.totalLanes stream.guard.striped
    stream.guard.noDisk status stream.guard.bytesReceived metrics

theorem held?_eq_some {i : Nat} {stream : StartedStream} (h : s.held? i = some stream) :
    s.streams[i]? = some stream ∧ stream.dropped = false := by
  obtain ⟨hget, hdropped⟩ := Option.filter_eq_some_iff.1 h
  exact ⟨hget, by simpa using hdropped⟩

/-- **What a step does**: a stream starts, or a live one ends and that is counted, or nothing
is counted. -/
theorem step_cases (h : s.step event = some s') :
    (∃ laneIndex totalLanes striped noDisk,
      event = .start laneIndex totalLanes striped noDisk ∧
      s' = ⟨recordLaneStreamStarted laneIndex totalLanes striped noDisk s.metrics,
        s.streams ++ [⟨⟨laneIndex, totalLanes, striped, noDisk, 0, false⟩, false, none⟩]⟩) ∨
    (∃ i stream stream', s.streams[i]? = some stream ∧ stream.Same stream' ∧
      stream'.endedAs = stream.endedAs ∧ stream'.live = stream.live ∧
      (event.ends = true → stream.live = false) ∧
      s' = ⟨s.metrics, s.streams.set i stream'⟩) ∨
    ∃ i stream stream' status, s.streams[i]? = some stream ∧ stream.Same stream' ∧
      stream.live = true ∧ stream'.live = false ∧ stream'.endedAs = some status ∧
      event.ends = true ∧
      s' = ⟨endOf stream status s.metrics, s.streams.set i stream'⟩ := by
  cases event with
  | start laneIndex totalLanes striped noDisk =>
    cases h
    exact .inl ⟨laneIndex, totalLanes, striped, noDisk, rfl, rfl⟩
  | addBytes i bytes =>
    obtain ⟨stream, hheld, rfl⟩ := Option.map_eq_some_iff.1 h
    have hget := (held?_eq_some hheld).1
    exact .inr (.inl ⟨i, stream, { stream with guard := stream.guard.addBytes bytes }, hget,
      ⟨rfl, rfl, rfl⟩, rfl, rfl, nofun, rfl⟩)
  | finish i status =>
    obtain ⟨stream, hheld, rfl⟩ := Option.map_eq_some_iff.1 h
    obtain ⟨hget, hdropped⟩ := held?_eq_some hheld
    by_cases hfin : stream.guard.finished = true
    · refine .inr (.inl ⟨i, stream, stream, hget, ⟨rfl, rfl, rfl⟩, rfl, rfl, ?_, ?_⟩)
      · simp [StartedStream.live, hfin]
      · simp [LaneStreamMetricGuard.finish, hfin]
    · refine .inr (.inr ⟨i, stream, { stream with
        guard := { stream.guard with finished := true }, endedAs := some status }, status,
        hget, ⟨rfl, rfl, rfl⟩, ?_, rfl, rfl, rfl, ?_⟩)
      · simp [StartedStream.live, hfin, hdropped]
      · simp [LaneStreamMetricGuard.finish, hfin, endOf]
  | drop i =>
    obtain ⟨stream, hheld, rfl⟩ := Option.map_eq_some_iff.1 h
    obtain ⟨hget, hdropped⟩ := held?_eq_some hheld
    by_cases hfin : stream.guard.finished = true
    · refine .inr (.inl ⟨i, stream, { stream with dropped := true }, hget, ⟨rfl, rfl, rfl⟩, rfl,
        ?_, ?_, ?_⟩)
      · simp [StartedStream.live, hfin]
      · simp [StartedStream.live, hfin]
      · simp [LaneStreamMetricGuard.drop, hfin]
    · refine .inr (.inr ⟨i, stream, { stream with dropped := true, endedAs := some .failed },
        .failed, hget, ⟨rfl, rfl, rfl⟩, ?_, ?_, rfl, rfl, ?_⟩)
      · simp [StartedStream.live, hfin, hdropped]
      · simp [StartedStream.live]
      · simp [LaneStreamMetricGuard.drop, hfin, endOf]

/-! ## Counting streams -/

section

variable {α : Type} {p : α → Bool} {l : List α} {i : Nat} {a b : α}

theorem countP_set_of_eq (h : l[i]? = some a) (hp : p b = p a) :
    (l.set i b).countP p = l.countP p := by
  obtain ⟨hi, rfl⟩ := List.getElem?_eq_some_iff.1 h
  rw [List.countP_set hi, hp]
  by_cases hpa : p l[i] = true
  · have hpos : 0 < l.countP p := List.countP_pos_iff.2 ⟨l[i], List.getElem_mem hi, hpa⟩
    simp only [hpa, if_true]
    omega
  · simp [hpa]

theorem countP_set_of_not (h : l[i]? = some a) (ha : p a = false) :
    (l.set i b).countP p = l.countP p + if p b then 1 else 0 := by
  obtain ⟨hi, rfl⟩ := List.getElem?_eq_some_iff.1 h
  simp [List.countP_set hi, ha]

end

/-- The invariant: the marks are right, and each series is what was started under its
attributes less what ended under them. -/
structure Tallied (s : MetricState) : Prop where
  marked : ∀ stream ∈ s.streams, stream.Marked
  active : ∀ key, s.metrics.activeLaneStreams key =
    (s.streams.countP fun stream => stream.guard.startKey = key : Nat) -
      (s.streams.countP fun stream => stream.endKey = some key : Nat)

theorem tallied_init : Tallied .init := ⟨nofun, fun _ => rfl⟩

/-- Each step keeps the invariant. -/
theorem Tallied.step (hs : s.Tallied) (h : s.step event = some s') : s'.Tallied := by
  rcases step_cases h with ⟨laneIndex, totalLanes, striped, noDisk, -, rfl⟩ |
    ⟨i, stream, stream', hget, hsame, hended, hlive, -, rfl⟩ |
    ⟨i, stream, stream', status, hget, hsame, hlive, hlive', hended, -, rfl⟩
  · constructor
    · intro stream hmem
      rcases List.mem_append.1 hmem with hold | hnew
      · exact hs.marked stream hold
      · rw [List.mem_singleton.1 hnew]
        rfl
    · intro key
      have hadd := Series.add_apply s.metrics.activeLaneStreams 1
        (streamAttrs totalLanes striped noDisk) key
      simp only [recordLaneStreamStarted, hadd, hs.active key, List.countP_append,
        List.countP_singleton, LaneStreamMetricGuard.startKey, StartedStream.endKey]
      by_cases hkey : (streamAttrs totalLanes striped noDisk).toFinset = key
      · simp only [hkey]
        simp
        omega
      · simp [hkey]
  · have hmem := List.mem_of_getElem? hget
    constructor
    · intro other hother
      rcases List.mem_or_eq_of_mem_set hother with hold | rfl
      · exact hs.marked other hold
      · rw [StartedStream.Marked, hended, hlive]
        exact hs.marked stream hmem
    · intro key
      rw [countP_set_of_eq hget (by rw [hsame.startKey]),
        countP_set_of_eq hget (by rw [hsame.endKey hended])]
      exact hs.active key
  · have hmem := List.mem_of_getElem? hget
    have hnone : stream.endedAs = none := by
      have := hs.marked stream hmem
      rwa [StartedStream.Marked, hlive, Bool.not_true, Option.isSome_eq_false_iff,
        Option.isNone_iff_eq_none] at this
    constructor
    · intro other hother
      rcases List.mem_or_eq_of_mem_set hother with hold | rfl
      · exact hs.marked other hold
      · rw [StartedStream.Marked, hended, hlive']
        rfl
    · intro key
      have hadd := Series.add_apply s.metrics.activeLaneStreams (-1)
        (streamFinishAttrs stream.guard.totalLanes stream.guard.striped stream.guard.noDisk
          (statusLabel status)) key
      have hkey' : stream'.endKey = some (stream.guard.finishKey status) := by
        rw [StartedStream.endKey, hended, Option.map_some, hsame.finishKey]
      rw [countP_set_of_eq hget (by rw [hsame.startKey]),
        countP_set_of_not hget (by simp [StartedStream.endKey, hnone]), hkey']
      simp only [endOf, recordLaneStreamFinished, hadd, hs.active key,
        LaneStreamMetricGuard.finishKey, Option.some.injEq, decide_eq_true_eq]
      split_ifs <;> omega

theorem Tallied.run (hs : s.Tallied) (h : s.run events = some s') : s'.Tallied := by
  induction events generalizing s with
  | nil =>
    cases h
    exact hs
  | cons event events ih =>
    obtain ⟨mid, hstep, hrun⟩ := Option.bind_eq_some_iff.1 h
    exact ih (hs.step hstep) hrun

/-! ## The gauge -/

/-- **Every series of the gauge**, after any run. -/
theorem active_eq (h : MetricState.init.run events = some s) (key : Finset KeyValue) :
    s.metrics.activeLaneStreams key =
      (s.streams.countP fun stream => stream.guard.startKey = key : Nat) -
        (s.streams.countP fun stream => stream.endKey = some key : Nat) :=
  (tallied_init.run h).active key

/-- An end is never counted in the series of a start: it carries the status. -/
theorem startKey_ne_finishKey (guard guard' : LaneStreamMetricGuard) (status : TransferStatus) :
    guard.startKey ≠ guard'.finishKey status := by
  intro h
  have hmem : (⟨"transfer.status", .str (statusLabel status)⟩ : KeyValue) ∈ guard.startKey := by
    rw [h]
    simp [LaneStreamMetricGuard.finishKey, streamFinishAttrs]
  simp [LaneStreamMetricGuard.startKey, streamAttrs] at hmem

theorem countP_endKey_startKey (s : MetricState) (guard : LaneStreamMetricGuard) :
    (s.streams.countP fun stream => stream.endKey = some guard.startKey) = 0 := by
  rw [List.countP_eq_zero]
  intro stream _ hkey
  obtain ⟨status, -, hfin⟩ := Option.map_eq_some_iff.1 (of_decide_eq_true hkey)
  exact startKey_ne_finishKey guard stream.guard status hfin.symm

/-- The streams of a kind are the live ones and the ended ones. -/
theorem countP_startKey (s : MetricState) (key : Finset KeyValue) :
    (s.streams.countP fun stream => stream.guard.startKey = key) =
      s.liveStreams key +
        s.streams.countP fun stream => !stream.live && stream.guard.startKey = key := by
  rw [List.countP_eq_countP_filter_add _ _ StartedStream.live, List.countP_filter,
    List.countP_filter]
  simp only [liveStreams, Bool.and_comm]

/-- The gauge is right exactly as long as every stream that was started is live. -/
theorem Tallied.balanced_iff (hs : s.Tallied) :
    s.Balanced ↔ ∀ stream ∈ s.streams, stream.live = true := by
  constructor
  · intro hbal stream hmem
    by_contra hdead
    -- the series of its start counts it, and none of the ends
    have hcount := hs.active stream.guard.startKey
    rw [hbal, countP_startKey] at hcount
    have hended : 0 < s.streams.countP fun other =>
        !other.live && other.guard.startKey = stream.guard.startKey :=
      List.countP_pos_iff.2 ⟨stream, hmem, by simp [hdead]⟩
    have hnone := s.countP_endKey_startKey stream.guard
    omega
  · intro hlive key
    have hended : ∀ stream ∈ s.streams, stream.endedAs = none := by
      intro stream hmem
      have := hs.marked stream hmem
      rwa [StartedStream.Marked, hlive stream hmem, Bool.not_true, Option.isSome_eq_false_iff,
        Option.isNone_iff_eq_none] at this
    have hnone : (s.streams.countP fun stream => stream.endKey = some key) = 0 := by
      rw [List.countP_eq_zero]
      intro stream hmem
      simp [StartedStream.endKey, hended stream hmem]
    have hdead : (s.streams.countP fun stream =>
        !stream.live && stream.guard.startKey = key) = 0 := by
      rw [List.countP_eq_zero]
      intro stream hmem
      simp [hlive stream hmem]
    rw [hs.active key, countP_startKey, hnone, hdead]
    simp

/-! ## Whole runs -/

theorem run_append (s : MetricState) (before after : List MetricEvent) :
    s.run (before ++ after) = (s.run before).bind fun mid => mid.run after := by
  induction before generalizing s with
  | nil => rfl
  | cons event before ih =>
    simp only [List.cons_append, run, Option.bind_assoc]
    exact congrArg _ (funext ih)

/-- As long as nothing ends, everything is live. -/
theorem live_of_run (hends : ∀ event ∈ events, event.ends = false)
    (hs : ∀ stream ∈ s.streams, stream.live = true) (h : s.run events = some s') :
    ∀ stream ∈ s'.streams, stream.live = true := by
  induction events generalizing s with
  | nil =>
    cases h
    exact hs
  | cons event events ih =>
    obtain ⟨mid, hstep, hrun⟩ := Option.bind_eq_some_iff.1 h
    have hend := hends event List.mem_cons_self
    refine ih (fun e he => hends e (List.mem_cons_of_mem _ he)) ?_ hrun
    rcases step_cases hstep with ⟨_, _, _, _, -, rfl⟩ |
      ⟨i, stream, stream', hget, -, -, hlive, -, rfl⟩ | ⟨_, _, _, _, -, -, -, -, -, hev, -⟩
    · intro other hother
      rcases List.mem_append.1 hother with hold | hnew
      · exact hs other hold
      · rw [List.mem_singleton.1 hnew]
        rfl
    · intro other hother
      rcases List.mem_or_eq_of_mem_set hother with hold | rfl
      · exact hs other hold
      · rw [hlive]
        exact hs stream (List.mem_of_getElem? hget)
    · rw [hend] at hev
      cases hev

/-- After an event about its end a stream is not live. -/
theorem exists_ended_of_step (h : s.step event = some s') (hends : event.ends = true) :
    ∃ stream ∈ s'.streams, stream.live = false := by
  rcases step_cases h with ⟨_, _, _, _, rfl, -⟩ |
    ⟨i, stream, stream', hget, -, -, hlive, hdead, rfl⟩ |
    ⟨i, stream, stream', status, hget, -, -, hlive', -, -, rfl⟩
  · cases hends
  · have hi := (List.getElem?_eq_some_iff.1 hget).1
    exact ⟨stream', List.mem_set hi _, hlive.trans (hdead hends)⟩
  · have hi := (List.getElem?_eq_some_iff.1 hget).1
    exact ⟨stream', List.mem_set hi _, hlive'⟩

/-- **The gauge is balanced at every moment of a run exactly when no lane stream ends in
it.** -/
theorem gauge_balanced_iff (events : List MetricEvent) (s : MetricState)
    (h : MetricState.init.run events = some s) :
    (∀ before mid, before <+: events → MetricState.init.run before = some mid → mid.Balanced) ↔
      ∀ event ∈ events, event.ends = false := by
  constructor
  · intro hbal event hmem
    by_contra hend
    obtain ⟨before, after, rfl⟩ := List.append_of_mem hmem
    have hsplit : before ++ event :: after = (before ++ [event]) ++ after := by simp
    rw [hsplit, run_append] at h
    obtain ⟨mid, hmid, -⟩ := Option.bind_eq_some_iff.1 h
    have hlive := ((tallied_init.run hmid).balanced_iff.1
      (hbal _ mid (hsplit ▸ List.prefix_append _ _) hmid))
    -- the event is the last one before `mid`
    rw [run_append] at hmid
    obtain ⟨prior, -, hlast⟩ := Option.bind_eq_some_iff.1 hmid
    obtain ⟨mid', hstep, hmid'⟩ := Option.bind_eq_some_iff.1 hlast
    cases hmid'
    obtain ⟨stream, hstream, hdead⟩ := exists_ended_of_step hstep (by simpa using hend)
    rw [hlive stream hstream] at hdead
    cases hdead
  · intro hends before mid hbefore hmid
    have hgoes : ∀ e ∈ before, e.ends = false := fun e he => hends e (hbefore.subset he)
    have hlive := live_of_run hgoes (fun _ hmem => absurd hmem List.not_mem_nil) hmid
    exact (tallied_init.run hmid).balanced_iff.2 hlive

/-- A run in which the gauge is balanced: two streams of one kind, both live. -/
theorem gauge_balanced_iff_two_live :
    (∀ before mid, before <+: [MetricEvent.start 0 2 true false, .addBytes 0 9,
        .start 1 2 true false] → MetricState.init.run before = some mid → mid.Balanced) ↔
      ∀ event ∈ [MetricEvent.start 0 2 true false, .addBytes 0 9, .start 1 2 true false],
        event.ends = false :=
  gauge_balanced_iff [.start 0 2 true false, .addBytes 0 9, .start 1 2 true false] _ rfl

/-- A stream that completes stays in the series of its start, and the series of its end is
negative. -/
theorem gauge_after_finish :
    ((MetricState.init.run [.start 0 4 true false, .finish 0 .completed, .drop 0]).map
      fun s => (s.metrics.activeLaneStreams (streamAttrs 4 true false).toFinset,
        s.liveStreams (streamAttrs 4 true false).toFinset,
        s.metrics.activeLaneStreams (streamFinishAttrs 4 true false "completed").toFinset,
        s.liveStreams (streamFinishAttrs 4 true false "completed").toFinset)) =
      some (1, 0, -1, 0) := by
  decide

/-! ## In total -/

theorem statusLabel_injective : Function.Injective statusLabel := by
  intro status status' h
  cases status <;> cases status' <;> first | rfl | exact absurd h (by decide)

/-- The attributes of an end say the kind of the stream and the status. -/
theorem finishKey_eq_iff (guard guard' : LaneStreamMetricGuard) (status status' : TransferStatus) :
    guard.finishKey status = guard'.finishKey status' ↔
      guard.startKey = guard'.startKey ∧ status = status' := by
  constructor
  · intro h
    have hmem : ∀ kv, kv ∈ guard.finishKey status ↔ kv ∈ guard'.finishKey status' := by
      intro kv
      rw [h]
    simp only [LaneStreamMetricGuard.finishKey, streamFinishAttrs, streamAttrs,
      List.mem_toFinset, List.mem_append, List.mem_cons, List.not_mem_nil, or_false] at hmem
    have hlanes := (hmem ⟨"lane.total", .i64 guard.totalLanes⟩).1 (by simp)
    have hstriped := (hmem ⟨"transfer.striped", .bool guard.striped⟩).1 (by simp)
    have hdisk := (hmem ⟨"transfer.no_disk", .bool guard.noDisk⟩).1 (by simp)
    have hstatus := (hmem ⟨"transfer.status", .str (statusLabel status)⟩).1 (by simp)
    simp at hlanes hstriped hdisk hstatus
    refine ⟨?_, statusLabel_injective hstatus⟩
    have htotal : guard.totalLanes = guard'.totalLanes := by omega
    simp only [LaneStreamMetricGuard.startKey, htotal, hstriped, hdisk]
  · rintro ⟨h, rfl⟩
    rw [LaneStreamMetricGuard.finishKey, LaneStreamMetricGuard.finishKey, streamFinishAttrs,
      streamFinishAttrs, List.toFinset_append, List.toFinset_append]
    exact congrArg (· ∪ _) h

/-- A stream that has ended was counted under exactly one status. -/
theorem countP_ended (guard : LaneStreamMetricGuard) {streams : List StartedStream}
    (hmarked : ∀ stream ∈ streams, stream.Marked) :
    (streams.countP fun stream => !stream.live && stream.guard.startKey = guard.startKey) =
      ([.queued, .running, .completed, .failed].map fun status =>
        streams.countP fun stream => stream.endKey = some (guard.finishKey status)).sum := by
  induction streams with
  | nil => rfl
  | cons stream streams ih =>
    have hlive := hmarked stream List.mem_cons_self
    specialize ih fun other hother => hmarked other (List.mem_cons_of_mem _ hother)
    rw [StartedStream.Marked] at hlive
    simp only [List.map_cons, List.map_nil, List.sum_cons, List.sum_nil, List.countP_cons] at ih ⊢
    rw [ih]
    cases hended : stream.endedAs with
    | none =>
      rw [hended] at hlive
      simp [StartedStream.endKey, hended, ← hlive]
    | some status =>
      rw [hended] at hlive
      simp only [StartedStream.endKey, hended, Option.map_some, Option.some.injEq,
        finishKey_eq_iff, ← hlive, Option.isSome_some, Bool.true_and, decide_eq_true_eq]
      by_cases hkey : stream.guard.startKey = guard.startKey
      · cases status <;> simp [hkey] <;> omega
      · simp [hkey]

/-- **In total the gauge is balanced**: the series of one kind of stream, that of its starts
and those of its ends, add up to the live streams of the kind. -/
theorem active_total (h : MetricState.init.run events = some s) (guard : LaneStreamMetricGuard) :
    s.metrics.activeLaneStreams guard.startKey +
        ([TransferStatus.queued, .running, .completed, .failed].map fun status =>
          s.metrics.activeLaneStreams (guard.finishKey status)).sum =
      s.liveStreams guard.startKey := by
  have hnostart : ∀ status, (s.streams.countP fun stream =>
      stream.guard.startKey = guard.finishKey status) = 0 := by
    intro status
    rw [List.countP_eq_zero]
    intro stream _
    simpa using startKey_ne_finishKey stream.guard guard status
  have hnoend := s.countP_endKey_startKey guard
  have hended := countP_ended guard (tallied_init.run h).marked
  simp only [List.map_cons, List.map_nil, List.sum_cons, List.sum_nil] at hended ⊢
  simp only [active_eq h, hnostart, hnoend, countP_startKey, hended]
  omega

/-- One of two streams has failed: the series of the starts says two, and all of them say one. -/
theorem active_total_failed :
    ∃ s, MetricState.init.run [.start 0 2 true false, .start 1 2 true false, .finish 0 .failed,
        .drop 0] = some s ∧
      s.metrics.activeLaneStreams (streamAttrs 2 true false).toFinset = 2 ∧
      s.metrics.activeLaneStreams (streamAttrs 2 true false).toFinset +
        ([TransferStatus.queued, .running, .completed, .failed].map fun status =>
          s.metrics.activeLaneStreams
            (streamFinishAttrs 2 true false (statusLabel status)).toFinset).sum = 1 := by
  have hrun : (MetricState.init.run [.start 0 2 true false, .start 1 2 true false,
      .finish 0 .failed, .drop 0]).any (fun s =>
        decide (s.metrics.activeLaneStreams (streamAttrs 2 true false).toFinset = 2) &&
          decide (s.liveStreams (streamAttrs 2 true false).toFinset = 1)) = true := by
    decide
  obtain ⟨s, hs, htest⟩ := (Option.any_eq_true _ _).1 hrun
  simp only [Bool.and_eq_true, decide_eq_true_eq] at htest
  have htotal := active_total hs ⟨0, 2, true, false, 0, false⟩
  refine ⟨s, hs, htest.1, htotal.trans ?_⟩
  exact congrArg Nat.cast htest.2

end MetricState

end Metra.Server
