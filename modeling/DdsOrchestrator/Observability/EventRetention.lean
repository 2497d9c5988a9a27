import DdsOrchestrator.Lib.Lines
import DdsOrchestrator.Observability.TraceCollector

/-!
What the sink and the collector keep. A flush that breaks off within a line leaves a rest in
the file, and the next one goes on behind it: its first event is then on no line of its own,
and it leaves memory all the same when that flush succeeds. Only an event that an earlier
flush has written to the end of its line can stand there.
-/

namespace DdsOrchestrator.Observability

open TornLines (content lines output)

/-- The sink and the collector keep every event, all along a run, exactly if every flush that
succeeds finds the last line ended or begins with an event that can be spared. Where no flush
fails the events are there once and in their order. -/
theorem sinks_keep_events {E : Type} (serde : Serde E) {parses : List UInt8 → Bool}
    (hparses : ∀ e : TraceEvent, parses e.line = true) (file : List UInt8) (flushInterval : ℕ)
    (calls : List (SinkCall E)) (steps : List CollectorStep) :
    ((∀ before after, calls = before ++ after →
        (before.foldl (SinkRun.step serde) (SinkRun.init file flushInterval)).NoLoss serde) ↔
      Machine.Along (SinkRun.step serde) (SinkRun.CallSafe serde)
        (SinkRun.init file flushInterval) calls) ∧
    ((∀ before after, steps = before ++ after →
        (before.foldl CollectorRun.step (.init file)).collector.flush = .idle →
        (before.foldl CollectorRun.step (.init file)).NoLoss parses) ↔
      Machine.Along CollectorRun.step CollectorRun.StepSafe (.init file) steps) ∧
    ((content newline file).rest = [] →
      ((∀ call ∈ calls, call.Succeeds) →
        (calls.foldl (SinkRun.step serde) (SinkRun.init file flushInterval)).InOrder serde
          (lines newline file)) ∧
      ((∀ s ∈ steps, s.Succeeds) →
        (steps.foldl CollectorRun.step (.init file)).collector.flush = .idle →
        (steps.foldl CollectorRun.step (.init file)).InOrder (lines newline file))) :=
  ⟨sink_keeps_iff serde file flushInterval calls, collector_keeps_iff hparses file steps,
    fun hfile => ⟨sink_orders serde hfile flushInterval calls, collector_orders hfile steps⟩⟩

/-! ### Two runs -/

/-- The line is one closed object. -/
def closedLine (line : List UInt8) : Bool :=
  (String.fromUTF8? ⟨line.toArray⟩).any fun text =>
    decide (Json.Scan.start.run text.toList = .done)

theorem closedLine_asBytes {text : String} (h : Json.Closed text) :
    closedLine (Utf8.asBytes text) = true := by
  have hread : String.fromUTF8? ⟨(Utf8.asBytes text).toArray⟩ = some text :=
    Lines.fromUTF8?_eq_some_iff.mpr rfl
  rw [closedLine, hread, Option.any_some]
  exact decide_eq_true h

/-- Events whose JSON is flat. -/
def objectSerde : Serde ((String × Json.Scalar) × List (String × Json.Scalar)) where
  toLine e := Utf8.asBytes (Json.object (e.1 :: e.2))
  parses := closedLine
  newline_notMem e h :=
    Json.newline_notMem_object e.1 e.2
      (Utf8.mem_toList_of_mem_asBytes (c := '\n') h (by decide) (by decide))
  parses_toLine e := closedLine_asBytes (Json.closed_object e.1 e.2)

def sampleEvent : ExecutionTraceEvent where
  traceId := "t1"
  seqNum := 0
  eventType := 1
  taskId := "task-1"
  requestId := "r1"
  agentId := "a1"
  componentId := "c1"
  componentType := 0
  payloadJson := "\x7b\x7d"
  timestampNs := 1000

/-- A flush whose writes break off behind `n` bytes, and one that succeeds. -/
def retriedFlush (n : ℕ) : List CollectorStep :=
  [.ingest sampleEvent, .begin, .drain "t1", .retain, .write (.torn n), .reinsert, .reinsert,
    .begin, .drain "t1", .retain, .write .written]

/-- The file cannot be opened once, and nothing is lost; or it is open at once. -/
theorem sinks_keep_events_retried :
    ([.emit (("event_id", .str "e1"), []) (.torn 0), .flush .written].foldl
      (SinkRun.step objectSerde) (SinkRun.init [] 1)).NoLoss objectSerde ∧
    ((retriedFlush 0).foldl CollectorRun.step (.init [])).NoLoss closedLine ∧
    ([.emit (("event_id", .str "e1"), []) .written].foldl
      (SinkRun.step objectSerde) (SinkRun.init [] 1)).InOrder objectSerde [] ∧
    ([.ingest sampleEvent, .begin, .drain "t1", .retain, .write .written].foldl
      CollectorRun.step (.init [])).InOrder [] := by
  have hparses : ∀ e : TraceEvent, closedLine e.line = true := fun e =>
    closedLine_asBytes (Json.closed_object _ _)
  have hnone : ∀ s : CollectorStep, s ≠ .write .written → ∀ r : CollectorRun, r.StepSafe s :=
    fun s hs r h => absurd h hs
  obtain ⟨hsink, hcollector, -⟩ := sinks_keep_events objectSerde hparses [] 1
    [.emit (("event_id", .str "e1"), []) (.torn 0), .flush .written] (retriedFlush 0)
  obtain ⟨-, -, horder⟩ := sinks_keep_events objectSerde hparses [] 1
    [.emit (("event_id", .str "e1"), []) .written]
    [.ingest sampleEvent, .begin, .drain "t1", .retain, .write .written]
  refine ⟨hsink.mpr ⟨fun _ h => ?_, fun _ => .inl rfl, trivial⟩ _ [] rfl,
    hcollector.mpr ?_ _ [] rfl (by decide), (horder rfl).1 ?_, (horder rfl).2 ?_ (by decide)⟩
  · cases h
  · refine ⟨hnone _ ?_ _, hnone _ ?_ _, hnone _ ?_ _, hnone _ ?_ _, hnone _ ?_ _, hnone _ ?_ _,
      hnone _ ?_ _, hnone _ ?_ _, hnone _ ?_ _, hnone _ ?_ _, fun _ => .inl (by decide), trivial⟩
    all_goals
      intro h
      cases h
  · simp [SinkCall.Succeeds]
  · simp [CollectorStep.Succeeds]

/-- The writes break off behind the first byte: the event is then in memory no more, and on no
line of its own. -/
theorem torn_flush_loses :
    ((retriedFlush 1).foldl CollectorRun.step (.init [])).collector.flush = .idle ∧
    ∀ parses, ¬ ((retriedFlush 1).foldl CollectorRun.step (.init [])).NoLoss parses := by
  refine ⟨by decide, fun parses h => ?_⟩
  have hfile : ((retriedFlush 1).foldl CollectorRun.step (.init [])).collector.file =
      append (append [] (output newline TraceEvent.line [sampleEvent.traceEvent]) (.torn 1))
        (output newline TraceEvent.line [sampleEvent.traceEvent]) .written := rfl
  have hlength : 1 ≤ sampleEvent.traceEvent.line.length := by decide
  have htorn := TornLines.content_append_take_output newline_notMem_line []
    sampleEvent.traceEvent [] hlength
  have hrest : (content newline ([] ++
      (output newline TraceEvent.line [sampleEvent.traceEvent]).take 1)).rest ≠ [] := by
    rw [htorn]
    decide
  have hwhole : (content newline ([] ++
      (output newline TraceEvent.line [sampleEvent.traceEvent]).take 1)).whole = [] := by
    rw [htorn]
    rfl
  have haccepted : ((retriedFlush 1).foldl CollectorRun.step (.init [])).accepted =
      [sampleEvent.traceEvent] := rfl
  have hmemory : ((retriedFlush 1).foldl CollectorRun.step (.init [])).collector.getTrace
      sampleEvent.traceEvent.traceId = [] := by decide
  have hkept := h sampleEvent.traceEvent
  have hread := TornLines.count_lines_append_output newline_notMem_line hrest
    sampleEvent.traceEvent [] parses
  rw [hwhole, List.map_nil, List.count_nil] at hread
  rw [haccepted, hmemory, hfile, append, append, List.count_singleton_self, List.count_nil]
    at hkept
  omega

end DdsOrchestrator.Observability
