import DdsOrchestrator.Lib.Assoc
import DdsOrchestrator.Lib.JsonText
import DdsOrchestrator.Lib.Utf8
import DdsOrchestrator.Observability.Sink

/-!
The collector of traces. Its events are kept by their trace, and a flush takes them out, one
trace after the other, before it appends them to the file; where that fails they are put back,
one event after the other. Events come in between any two of these steps, so those put back
stand behind newer ones, and the next flush may begin with another event.
-/

namespace DdsOrchestrator.Observability

open TornLines (content lines output)

/-- The event as it comes in. -/
structure ExecutionTraceEvent where
  traceId : String
  seqNum : ℕ
  eventType : ℤ
  taskId : String
  requestId : String
  agentId : String
  componentId : String
  componentType : ℤ
  payloadJson : String
  timestampNs : ℕ

structure TraceEvent where
  traceId : String
  seqNum : ℕ
  eventType : ℤ
  taskId : String
  agentId : String
  payloadJson : String
  timestampNs : ℕ
  deriving DecidableEq

def ExecutionTraceEvent.traceEvent (event : ExecutionTraceEvent) : TraceEvent where
  traceId := event.traceId
  seqNum := event.seqNum
  eventType := event.eventType
  taskId := event.taskId
  agentId := event.agentId
  payloadJson := event.payloadJson
  timestampNs := event.timestampNs

/-- The members in the order of their keys, in which `serde_json` keeps them. -/
def TraceEvent.json (event : TraceEvent) : String :=
  Json.object [("agent_id", .str event.agentId), ("event_type", .int event.eventType),
    ("payload_json", .str event.payloadJson), ("seq_num", .int event.seqNum),
    ("task_id", .str event.taskId), ("timestamp_ns", .int event.timestampNs),
    ("trace_id", .str event.traceId)]

def TraceEvent.line (event : TraceEvent) : List UInt8 := Utf8.asBytes event.json

/-- How far a flush has come. While it drains, `todo` are the traces that were there at its
beginning and that it has not come to; one that came in since may be met as well. -/
inductive Flush where
  | idle
  | draining (todo visited : List String) (drained : List TraceEvent)
  | writing (drained : List TraceEvent)
  | reinserting (rest : List TraceEvent)
  deriving DecidableEq

/-- The collector, its file, and the flush that is under way. -/
structure TraceCollector where
  events : Map String (List TraceEvent)
  totalCount : ℕ
  file : List UInt8
  flush : Flush

inductive CollectorStep where
  | ingest (event : ExecutionTraceEvent)
  | begin
  | drain (traceId : String)
  | retain
  | write (io : Io)
  | reinsert

/-- `entry(..).or_default().push(..)`. -/
def pushEvent (events : Map String (List TraceEvent)) (event : TraceEvent) :
    Map String (List TraceEvent) :=
  events.insert event.traceId ((events.lookup event.traceId).getD [] ++ [event])

namespace TraceCollector

def new (file : List UInt8) : TraceCollector := ⟨∅, 0, file, .idle⟩

def getTrace (c : TraceCollector) (traceId : String) : List TraceEvent :=
  (c.events.lookup traceId).getD []

/-- One section under a lock, or the writes of a flush. A step that is not due does nothing. -/
def step (c : TraceCollector) : CollectorStep → TraceCollector
  | .ingest event =>
      { c with
        events := pushEvent c.events event.traceEvent
        totalCount := c.totalCount + 1 }
  | .begin =>
      match c.flush with
      | .idle => { c with flush := .draining c.events.keys [] [] }
      | _ => c
  | .drain traceId =>
      match c.flush with
      | .draining todo visited drained =>
          if traceId ∈ visited ∨ traceId ∉ c.events then c
          else
            { c with
              events := c.events.insert traceId []
              flush := .draining (todo.erase traceId) (traceId :: visited)
                (drained ++ c.getTrace traceId) }
      | _ => c
  | .retain =>
      match c.flush with
      | .draining [] _ drained =>
          { c with
            events := Map.retain (fun _ events => !events.isEmpty) c.events
            flush := if drained = [] then .idle else .writing drained }
      | _ => c
  | .write io =>
      match c.flush with
      | .writing drained =>
          { c with
            file := append c.file (output newline TraceEvent.line drained) io
            flush := if io = .written then .idle else .reinserting drained }
      | _ => c
  | .reinsert =>
      match c.flush with
      | .reinserting (event :: rest) =>
          { c with events := pushEvent c.events event, flush := .reinserting rest }
      | .reinserting [] => { c with flush := .idle }
      | _ => c

end TraceCollector

/-- The events that the flush has in its hands. -/
def Flush.held : Flush → List TraceEvent
  | .idle => []
  | .draining _ _ drained => drained
  | .writing drained => drained
  | .reinserting rest => rest

/-! ### Runs -/

/-- A collector with the events that it has taken in. -/
structure CollectorRun where
  accepted : List TraceEvent
  collector : TraceCollector

namespace CollectorRun

def init (file : List UInt8) : CollectorRun := ⟨[], .new file⟩

def step (r : CollectorRun) (s : CollectorStep) : CollectorRun where
  accepted :=
    match s with
    | .ingest event => r.accepted ++ [event.traceEvent]
    | _ => r.accepted
  collector := r.collector.step s

/-- Writes that succeed begin on a file whose last line has ended, or their first event can be
spared. -/
def StepSafe (r : CollectorRun) (s : CollectorStep) : Prop :=
  s = .write .written → (content newline r.collector.file).rest = [] ∨
    ∀ drained, r.collector.flush = .writing drained → ∀ e ∈ drained.head?,
      r.accepted.count e < (r.collector.getTrace e.traceId).count e + drained.count e +
        (content newline r.collector.file).whole.count e.line

/-- Every event is kept under its trace or stands on a line that is its JSON. -/
def NoLoss (parses : List UInt8 → Bool) (r : CollectorRun) : Prop :=
  ∀ e, r.accepted.count e ≤ (r.collector.getTrace e.traceId).count e +
    ((lines newline r.collector.file).filter parses).count e.line

/-- Behind the lines that were there, the events of each trace stand in their order and each
once, in the file or in memory. -/
def InOrder (old : List (List UInt8)) (r : CollectorRun) : Prop :=
  ∃ written : List TraceEvent,
    lines newline r.collector.file = old ++ written.map TraceEvent.line ∧
    ∀ traceId, written.filter (·.traceId = traceId) ++ r.collector.getTrace traceId =
      r.accepted.filter (·.traceId = traceId)

end CollectorRun

def CollectorStep.Succeeds (s : CollectorStep) : Prop := ∀ io, s = .write io → io = .written

/-! ### The lines -/

theorem newline_notMem_line (event : TraceEvent) : newline ∉ event.line := by
  intro h
  have hmem := Utf8.mem_toList_of_mem_asBytes h (by decide) (c := '\n') (by decide)
  exact Json.newline_notMem_object _ _ hmem

theorem line_injective : Function.Injective TraceEvent.line := by
  intro e e' h
  have hmembers := Json.object_injective (Utf8.asBytes_inj.mp h)
  simp only [List.cons.injEq, Prod.mk.injEq, Json.Scalar.str.injEq, Json.Scalar.int.injEq,
    Int.natCast_inj, true_and, and_true] at hmembers
  obtain ⟨hagent, htype, hpayload, hseq, htask, htime, htrace⟩ := hmembers
  cases e
  cases e'
  simp only at hagent htype hpayload hseq htask htime htrace
  rw [hagent, htype, hpayload, hseq, htask, htime, htrace]

/-! ### Memory -/

theorem lookup_pushEvent (events : Map String (List TraceEvent)) (event : TraceEvent)
    (traceId : String) : ((pushEvent events event).lookup traceId).getD [] =
      (events.lookup traceId).getD [] ++ [event].filter (·.traceId = traceId) := by
  rw [pushEvent, Map.lookup_insert_if]
  by_cases h : traceId = event.traceId
  · subst h
    simp
  · simp [h, Ne.symm h]

theorem lookup_insert_nil (events : Map String (List TraceEvent)) (key traceId : String) :
    ((events.insert key []).lookup traceId).getD [] =
      if traceId = key then [] else (events.lookup traceId).getD [] := by
  rw [Map.lookup_insert_if]
  split
  · rfl
  · rfl

theorem lookup_retain_nonempty (events : Map String (List TraceEvent)) (traceId : String) :
    ((Map.retain (fun _ events => !events.isEmpty) events).lookup traceId).getD [] =
      (events.lookup traceId).getD [] := by
  have hlookup : ∀ es, (Map.retain (fun _ events => !events.isEmpty) events).lookup traceId =
      some es ↔ events.lookup traceId = some es ∧ es ≠ [] := by
    intro es
    rw [Map.lookup_retain]
    simp
  cases hretain : (Map.retain (fun _ events => !events.isEmpty) events).lookup traceId with
  | some es => rw [((hlookup es).mp hretain).1]
  | none =>
      cases hes : events.lookup traceId with
      | none => rfl
      | some es =>
          by_cases hnil : es = []
          · rw [hnil]
            rfl
          · rw [(hlookup es).mpr ⟨hes, hnil⟩] at hretain
            cases hretain

/-! ### One step -/

def Flush.Reinserts (f : Flush) : Prop := ∃ rest, f = .reinserting rest

namespace CollectorRun

/-- What a step does to the events taken in, to memory, to those in the hands of the flush and
to the file. -/
inductive Change (r r' : CollectorRun) (s : CollectorStep) : Prop where
  | unseen (haccepted : r'.accepted = r.accepted)
      (hmemory : ∀ traceId, r'.collector.getTrace traceId = r.collector.getTrace traceId)
      (hheld : r'.collector.flush.held = r.collector.flush.held)
      (hfile : r'.collector.file = r.collector.file)
      (hflush : r'.collector.flush.Reinserts → r.collector.flush.Reinserts)
  | ingested (event : TraceEvent) (haccepted : r'.accepted = r.accepted ++ [event])
      (hmemory : ∀ traceId, r'.collector.getTrace traceId =
        r.collector.getTrace traceId ++ [event].filter (·.traceId = traceId))
      (hflush : r'.collector.flush = r.collector.flush)
      (hfile : r'.collector.file = r.collector.file)
  | drained (key : String) (haccepted : r'.accepted = r.accepted)
      (hmemory : ∀ traceId, r'.collector.getTrace traceId =
        if traceId = key then [] else r.collector.getTrace traceId)
      (hheld : r'.collector.flush.held =
        r.collector.flush.held ++ r.collector.getTrace key)
      (hfile : r'.collector.file = r.collector.file)
      (hflush : ¬ r'.collector.flush.Reinserts)
  | written (hs : s = .write .written) (haccepted : r'.accepted = r.accepted)
      (hmemory : ∀ traceId, r'.collector.getTrace traceId = r.collector.getTrace traceId)
      (hwriting : r.collector.flush = .writing r.collector.flush.held)
      (hflush : r'.collector.flush = .idle)
      (hfile : r'.collector.file =
        r.collector.file ++ output newline TraceEvent.line r.collector.flush.held)
  | torn (io : Io) (hs : s = .write io) (hio : io ≠ .written) (more : List UInt8)
      (haccepted : r'.accepted = r.accepted)
      (hmemory : ∀ traceId, r'.collector.getTrace traceId = r.collector.getTrace traceId)
      (hheld : r'.collector.flush.held = r.collector.flush.held)
      (hfile : r'.collector.file = r.collector.file ++ more)
  | reinserted (event : TraceEvent) (haccepted : r'.accepted = r.accepted)
      (hmemory : ∀ traceId, r'.collector.getTrace traceId =
        r.collector.getTrace traceId ++ [event].filter (·.traceId = traceId))
      (hheld : r.collector.flush.held = event :: r'.collector.flush.held)
      (hfile : r'.collector.file = r.collector.file)
      (hflush : r.collector.flush.Reinserts)

theorem change_refl (r : CollectorRun) (s : CollectorStep) : r.Change r s :=
  .unseen rfl (fun _ => rfl) rfl rfl id

theorem change_step (r : CollectorRun) (s : CollectorStep) : r.Change (r.step s) s := by
  obtain ⟨accepted, ⟨events, totalCount, file, flush⟩⟩ := r
  cases s with
  | ingest event =>
      exact .ingested event.traceEvent rfl (fun t => lookup_pushEvent events _ t) rfl rfl
  | begin =>
      cases flush with
      | idle =>
          refine .unseen rfl (fun _ => rfl) rfl rfl ?_
          rintro ⟨rest, hrest⟩
          cases hrest
      | draining todo visited drained => exact change_refl _ _
      | writing drained => exact change_refl _ _
      | reinserting rest => exact change_refl _ _
  | drain key =>
      cases flush with
      | idle => exact change_refl _ _
      | draining todo visited drained =>
          by_cases h : key ∈ visited ∨ key ∉ events
          · simp only [step, TraceCollector.step, if_pos h]
            exact change_refl _ _
          · simp only [step, TraceCollector.step, if_neg h]
            refine .drained key rfl (fun t => lookup_insert_nil events key t) rfl rfl ?_
            rintro ⟨rest, hrest⟩
            cases hrest
      | writing drained => exact change_refl _ _
      | reinserting rest => exact change_refl _ _
  | retain =>
      cases flush with
      | idle => exact change_refl _ _
      | draining todo visited drained =>
          cases todo with
          | nil =>
              refine .unseen rfl (fun t => lookup_retain_nonempty events t) ?_ rfl ?_
              · simp only [step, TraceCollector.step]
                split
                · next h => exact h.symm
                · rfl
              · simp only [step, TraceCollector.step]
                rintro ⟨rest, hrest⟩
                split at hrest
                · cases hrest
                · cases hrest
          | cons key todo => exact change_refl _ _
      | writing drained => exact change_refl _ _
      | reinserting rest => exact change_refl _ _
  | write io =>
      cases flush with
      | idle => exact change_refl _ _
      | draining todo visited drained => exact change_refl _ _
      | writing drained =>
          cases io with
          | written => exact .written rfl rfl (fun _ => rfl) rfl rfl rfl
          | torn n =>
              exact .torn _ rfl (fun h => by cases h) _ rfl (fun _ => rfl) rfl rfl
      | reinserting rest => exact change_refl _ _
  | reinsert =>
      cases flush with
      | idle => exact change_refl _ _
      | draining todo visited drained => exact change_refl _ _
      | writing drained => exact change_refl _ _
      | reinserting rest =>
          cases rest with
          | nil => exact .unseen rfl (fun _ => rfl) rfl rfl (fun _ => ⟨[], rfl⟩)
          | cons event rest =>
              exact .reinserted event rfl (fun t => lookup_pushEvent events event t) rfl rfl
                ⟨_, rfl⟩

/-! ### No loss -/

/-- Every event is in memory, in the hands of the flush or on a line that has ended. -/
def Kept (r : CollectorRun) : Prop :=
  ∀ e, r.accepted.count e ≤ (r.collector.getTrace e.traceId).count e +
    r.collector.flush.held.count e + (content newline r.collector.file).whole.count e.line

theorem count_filter_trace (events : List TraceEvent) (e : TraceEvent) :
    (events.filter (·.traceId = e.traceId)).count e = events.count e :=
  List.count_filter (by simp)

variable {r r' : CollectorRun} {s : CollectorStep}

theorem Kept.change (h : r.Kept) (hsafe : r.StepSafe s) (hchange : r.Change r' s) : r'.Kept := by
  intro e
  have hkept := h e
  cases hchange with
  | unseen haccepted hmemory hheld hfile hflush => rwa [haccepted, hmemory, hheld, hfile]
  | ingested event haccepted hmemory hflush hfile =>
      rw [haccepted, hmemory, hflush, hfile, List.count_append, List.count_append,
        count_filter_trace]
      omega
  | drained key haccepted hmemory hheld hfile hflush =>
      rw [haccepted, hmemory, hheld, hfile, List.count_append]
      by_cases hkey : e.traceId = key
      · rw [if_pos hkey, ← hkey, List.count_nil]
        omega
      · rw [if_neg hkey]
        omega
  | written hs haccepted hmemory hwriting hflush hfile =>
      rw [haccepted, hmemory, hflush, hfile]
      have htext := List.count_map_of_injective r.collector.flush.held TraceEvent.line
        line_injective e
      rw [← htext] at hkept
      refine TornLines.le_count_append_output newline_notMem_line hkept ?_
      refine (hsafe hs).imp_right fun hspare first hfirst hline => ?_
      obtain rfl := line_injective hline
      rw [htext]
      exact hspare _ hwriting first hfirst
  | torn io hs hio more haccepted hmemory hheld hfile =>
      have hwhole := TornLines.count_whole_le_append newline r.collector.file more e.line
      rw [haccepted, hmemory, hheld, hfile]
      omega
  | reinserted event haccepted hmemory hheld hfile hflush =>
      rw [hheld, ← List.singleton_append, List.count_append] at hkept
      rw [haccepted, hmemory, hfile, List.count_append, count_filter_trace]
      omega

/-- Writes that are not safe end the flush and lose the first event. -/
theorem stepSafe_of_noLoss {parses : List UInt8 → Bool}
    (h : (r.step s).collector.flush = .idle → (r.step s).NoLoss parses) : r.StepSafe s := by
  rintro rfl
  by_contra hunsafe
  rw [not_or] at hunsafe
  obtain ⟨hrest, hspare⟩ := hunsafe
  refine hspare fun drained hwriting => ?_
  cases drained with
  | nil => simp
  | cons e es =>
      intro e' he'
      obtain rfl : e = e' := by simpa using he'
      have hstep : (r.step (.write .written)).collector =
          { r.collector with
            file := r.collector.file ++ output newline TraceEvent.line (e :: es)
            flush := .idle } := by
        simp only [step, TraceCollector.step, hwriting]
        rfl
      have hkept : r.accepted.count e ≤ (r.collector.getTrace e.traceId).count e +
          ((lines newline (r.collector.file ++ output newline TraceEvent.line (e :: es))).filter
            parses).count e.line := by
        have hloss := h (by rw [hstep]) e
        rwa [hstep] at hloss
      have hread := TornLines.count_lines_append_output newline_notMem_line hrest e es parses
      have htext := List.count_map_of_injective es TraceEvent.line line_injective e
      rw [htext] at hread
      rw [List.count_cons_self]
      omega

theorem kept_init (file : List UInt8) : (init file).Kept := fun _ => Nat.zero_le _

/-- Outside of a flush nothing is in its hands. -/
theorem Kept.noLoss (h : r.Kept) (hidle : r.collector.flush = .idle) {parses : List UInt8 → Bool}
    (hparses : ∀ e : TraceEvent, parses e.line = true) : r.NoLoss parses := by
  intro e
  have hkept := h e
  have hlines := TornLines.count_whole_le_lines newline r.collector.file e.line
  rw [hidle, Flush.held, List.count_nil] at hkept
  rw [List.count_filter (hparses e)]
  omega

/-! ### Flushes that succeed -/

/-- The file has ended lines only, and what follows them is what the flush has and memory. -/
def Ordered (old : List (List UInt8)) (r : CollectorRun) : Prop :=
  ¬ r.collector.flush.Reinserts ∧ ∃ written : List TraceEvent,
    content newline r.collector.file = ⟨old ++ written.map TraceEvent.line, []⟩ ∧
    ∀ traceId, written.filter (·.traceId = traceId) ++
      (r.collector.flush.held.filter (·.traceId = traceId) ++ r.collector.getTrace traceId) =
        r.accepted.filter (·.traceId = traceId)

variable {old : List (List UInt8)}

theorem Ordered.change (h : r.Ordered old) (hio : s.Succeeds) (hchange : r.Change r' s) :
    r'.Ordered old := by
  obtain ⟨hflush', written, hcontent, horder⟩ := h
  cases hchange with
  | unseen haccepted hmemory hheld hfile hflush =>
      refine ⟨fun hfailed => hflush' (hflush hfailed), written, by rw [hfile, hcontent], ?_⟩
      intro traceId
      rw [hheld, hmemory, haccepted, horder]
  | ingested event haccepted hmemory hflush hfile =>
      refine ⟨by rwa [hflush], written, by rw [hfile, hcontent], ?_⟩
      intro traceId
      rw [hflush, hmemory, haccepted, List.filter_append, ← horder traceId, List.append_assoc,
        List.append_assoc]
  | drained key haccepted hmemory hheld hfile hflush =>
      refine ⟨hflush, written, by rw [hfile, hcontent], ?_⟩
      intro traceId
      -- what is in memory under a trace came in with it
      have hkeyed : ∀ e ∈ r.collector.getTrace key, e.traceId = key := by
        intro e he
        have hmem : e ∈ r.accepted.filter (·.traceId = key) := by
          rw [← horder key]
          exact List.mem_append_right _ (List.mem_append_right _ he)
        simpa using (List.mem_filter.mp hmem).2
      rw [hheld, hmemory, haccepted, ← horder traceId, List.filter_append]
      by_cases hkey : traceId = key
      · subst hkey
        have hall : (r.collector.getTrace traceId).filter (·.traceId = traceId) =
            r.collector.getTrace traceId := by
          rw [List.filter_eq_self]
          simpa using hkeyed
        rw [if_pos rfl, List.append_nil, hall]
      · have hnone : (r.collector.getTrace key).filter (·.traceId = traceId) = [] := by
          rw [List.filter_eq_nil_iff]
          intro e he
          simpa [hkeyed e he] using Ne.symm hkey
        rw [if_neg hkey, hnone, List.append_nil]
  | written hs haccepted hmemory hwriting hflush hfile =>
      refine ⟨?_, written ++ r.collector.flush.held, ?_, ?_⟩
      · rintro ⟨rest, hrest⟩
        rw [hflush] at hrest
        cases hrest
      · rw [hfile, TornLines.content_append_output_of_rest_nil newline_notMem_line
          (by rw [hcontent]), hcontent, List.map_append, List.append_assoc]
      · intro traceId
        rw [hflush, hmemory, haccepted, ← horder traceId, List.filter_append, List.append_assoc]
        rfl
  | torn io hs hne more haccepted hmemory hheld hfile => exact absurd (hio io hs) hne
  | reinserted event haccepted hmemory hheld hfile hflush => exact absurd hflush hflush'

theorem ordered_init {file : List UInt8} (hfile : (content newline file).rest = []) :
    (init file).Ordered (lines newline file) := by
  refine ⟨?_, [], ?_, fun traceId => rfl⟩
  · rintro ⟨rest, hrest⟩
    cases hrest
  · rw [TornLines.lines_of_rest_nil hfile, List.map_nil, List.append_nil, ← hfile]
    rfl

theorem Ordered.inOrder (h : r.Ordered old) (hidle : r.collector.flush = .idle) :
    r.InOrder old := by
  obtain ⟨-, written, hcontent, horder⟩ := h
  refine ⟨written, ?_, fun traceId => ?_⟩
  · rw [TornLines.lines_of_rest_nil (by rw [hcontent]), hcontent]
  · have htrace := horder traceId
    rwa [hidle] at htrace

end CollectorRun

/-- The collector keeps every event all along a run, outside of the flushes, exactly if no
writes succeed behind a torn line with an event that cannot be spared. -/
theorem collector_keeps_iff {parses : List UInt8 → Bool}
    (hparses : ∀ e : TraceEvent, parses e.line = true) (file : List UInt8)
    (steps : List CollectorStep) :
    (∀ before after, steps = before ++ after →
      (before.foldl CollectorRun.step (.init file)).collector.flush = .idle →
      (before.foldl CollectorRun.step (.init file)).NoLoss parses) ↔
      Machine.Along CollectorRun.step CollectorRun.StepSafe (.init file) steps := by
  constructor
  · intro h
    exact Machine.along_of_prefixes (I := CollectorRun.Kept)
      (P := fun r => r.collector.flush = .idle → r.NoLoss parses)
      (CollectorRun.kept_init file) h
      (fun _ _ _ hkept => CollectorRun.stepSafe_of_noLoss hkept)
      fun r s hkept hsafe => hkept.change hsafe (r.change_step s)
  · rintro hrun before after rfl hidle
    rw [Machine.along_append] at hrun
    exact (hrun.1.invariant (CollectorRun.kept_init file)
      fun r s h hsafe => h.change hsafe (r.change_step s)).noLoss hidle hparses

/-- Without a failure each event is there once, and those of a trace in their order. -/
theorem collector_orders {file : List UInt8} (hfile : (content newline file).rest = [])
    (steps : List CollectorStep) (hio : ∀ s ∈ steps, s.Succeeds)
    (hidle : (steps.foldl CollectorRun.step (.init file)).collector.flush = .idle) :
    (steps.foldl CollectorRun.step (.init file)).InOrder (lines newline file) := by
  have hrun : Machine.Along CollectorRun.step (fun _ s => CollectorStep.Succeeds s)
      (.init file) steps := by
    rw [Machine.along_iff_forall]
    rintro before s after rfl
    exact hio s (by simp)
  exact (hrun.invariant (CollectorRun.ordered_init hfile)
    fun r s h hs => h.change hs (r.change_step s)).inOrder hidle

end DdsOrchestrator.Observability
