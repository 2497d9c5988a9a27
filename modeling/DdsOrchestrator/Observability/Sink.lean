import DdsOrchestrator.Lib.Machine
import DdsOrchestrator.Lib.TornLines

/-!
The sink of events. They are held in a buffer and appended to a file of lines, at every so
many of them or on demand. A flush that fails leaves the buffer as it is and the file with
whatever was written; the one after it goes on behind that. A query begins with a flush and
changes nothing else.
-/

namespace DdsOrchestrator.Observability

open TornLines (content lines output)

abbrev newline : UInt8 := 10

/-- What becomes of the writes of a flush: all of them are made, or they break off behind some
of the bytes. Where the file cannot be opened this is no byte. -/
inductive Io where
  | written
  | torn (n : ℕ)
  deriving DecidableEq

def append (file out : List UInt8) : Io → List UInt8
  | .written => file ++ out
  | .torn n => file ++ out.take n

/-- The JSON of the events, as `serde_json` writes it: one line, which it reads again. -/
structure Serde (E : Type) where
  toLine : E → List UInt8
  parses : List UInt8 → Bool
  newline_notMem : ∀ e, newline ∉ toLine e
  parses_toLine : ∀ e, parses (toLine e) = true

inductive SinkError where
  | io

variable {E : Type} (serde : Serde E)

/-- The sink and its file. -/
structure FileEventSink (E : Type) where
  file : List UInt8
  buffer : List E
  flushInterval : ℕ
  emitted : ℕ
  flushed : ℕ
  writeErrors : ℕ

namespace FileEventSink

def withFlushInterval (file : List UInt8) (flushInterval : ℕ) : FileEventSink E :=
  ⟨file, [], flushInterval, 0, 0, 0⟩

def flushLocked (s : FileEventSink E) (io : Io) : Except SinkError Unit × FileEventSink E :=
  match s.buffer with
  | [] => (.ok (), s)
  | e :: es =>
      let s := { s with file := append s.file (output newline serde.toLine (e :: es)) io }
      match io with
      | .written => (.ok (), { s with buffer := [], flushed := s.flushed + (e :: es).length })
      | .torn _ => (.error .io, { s with writeErrors := s.writeErrors + 1 })

def push (s : FileEventSink E) (event : E) : FileEventSink E :=
  { s with emitted := s.emitted + 1, buffer := s.buffer ++ [event] }

def emit (s : FileEventSink E) (event : E) (io : Io) : Except SinkError Unit × FileEventSink E :=
  let s := s.push event
  if s.flushInterval ≤ s.buffer.length then s.flushLocked serde io else (.ok (), s)

def flush (s : FileEventSink E) (io : Io) : Except SinkError Unit × FileEventSink E :=
  s.flushLocked serde io

end FileEventSink

/-! ### Runs -/

inductive SinkCall (E : Type) where
  | emit (event : E) (io : Io)
  | flush (io : Io)

/-- A sink with the events it has accepted, the ones for which the flush failed as well. -/
structure SinkRun (E : Type) where
  accepted : List E
  sink : FileEventSink E

namespace SinkRun

def init (file : List UInt8) (flushInterval : ℕ) : SinkRun E :=
  ⟨[], .withFlushInterval file flushInterval⟩

def accept (r : SinkRun E) (event : E) : SinkRun E :=
  ⟨r.accepted ++ [event], r.sink.push event⟩

def flush (r : SinkRun E) (io : Io) : SinkRun E := ⟨r.accepted, (r.sink.flush serde io).2⟩

def step (r : SinkRun E) : SinkCall E → SinkRun E
  | .emit event io => ⟨r.accepted ++ [event], (r.sink.emit serde event io).2⟩
  | .flush io => r.flush serde io

/-- A flush that succeeds begins on a file whose last line has ended, or its first event can
be spared: it is held and written more often than it was accepted. -/
def FlushSafe (r : SinkRun E) (io : Io) : Prop :=
  io = .written → (content newline r.sink.file).rest = [] ∨ ∀ e ∈ r.sink.buffer.head?,
    (r.accepted.map serde.toLine).count (serde.toLine e) <
      (r.sink.buffer.map serde.toLine).count (serde.toLine e) +
        (content newline r.sink.file).whole.count (serde.toLine e)

/-- So it is for the flush that the call makes, if it makes one. -/
def CallSafe (r : SinkRun E) : SinkCall E → Prop
  | .emit event io => r.sink.flushInterval ≤ (r.accept event).sink.buffer.length →
      (r.accept event).FlushSafe serde io
  | .flush io => r.FlushSafe serde io

/-- Every event is held, or stands on a line that is its JSON. Events with the same JSON are
counted. -/
def NoLoss (r : SinkRun E) : Prop :=
  ∀ e, (r.accepted.map serde.toLine).count (serde.toLine e) ≤
    (r.sink.buffer.map serde.toLine).count (serde.toLine e) +
      ((lines newline r.sink.file).filter serde.parses).count (serde.toLine e)

/-- Behind the lines that were there, the events stand in their order and each once, in the
file or in the buffer. -/
def InOrder (old : List (List UInt8)) (r : SinkRun E) : Prop :=
  ∃ written, lines newline r.sink.file = old ++ written.map serde.toLine ∧
    written ++ r.sink.buffer = r.accepted

end SinkRun

def SinkCall.Succeeds : SinkCall E → Prop
  | .emit _ io => io = .written
  | .flush io => io = .written

/-! ### One call -/

section

variable {serde} {r : SinkRun E} {io : Io}

theorem step_emit (r : SinkRun E) (event : E) (io : Io) : r.step serde (.emit event io) =
    if r.sink.flushInterval ≤ (r.accept event).sink.buffer.length then
      (r.accept event).flush serde io
    else r.accept event := by
  by_cases h : r.sink.flushInterval ≤ (r.accept event).sink.buffer.length
  · have hfull : (r.sink.push event).flushInterval ≤ (r.sink.push event).buffer.length := h
    rw [if_pos h, SinkRun.step, FileEventSink.emit, if_pos hfull]
    rfl
  · have hroom : ¬ (r.sink.push event).flushInterval ≤ (r.sink.push event).buffer.length := h
    rw [if_neg h, SinkRun.step, FileEventSink.emit, if_neg hroom]
    rfl

/-- What a flush does to the file and to the buffer. -/
theorem flush_cases (serde : Serde E) (r : SinkRun E) (io : Io) :
    (r.sink.buffer = [] ∧ r.flush serde io = r) ∨
    (io = .written ∧ (r.flush serde io).accepted = r.accepted ∧
      (r.flush serde io).sink.file =
        r.sink.file ++ output newline serde.toLine r.sink.buffer ∧
      (r.flush serde io).sink.buffer = []) ∨
    (∃ more, io ≠ .written ∧ (r.flush serde io).accepted = r.accepted ∧
      (r.flush serde io).sink.file = r.sink.file ++ more ∧
      (r.flush serde io).sink.buffer = r.sink.buffer) := by
  rw [SinkRun.flush, FileEventSink.flush, FileEventSink.flushLocked]
  cases hbuffer : r.sink.buffer with
  | nil => exact .inl ⟨rfl, rfl⟩
  | cons e es =>
      cases io with
      | written => exact .inr (.inl ⟨rfl, rfl, rfl, rfl⟩)
      | torn n => exact .inr (.inr ⟨_, (fun h => by cases h), rfl, rfl, rfl⟩)

/-! ### No loss -/

/-- Every event is held or stands on a line that has ended. -/
def SinkRun.Kept (serde : Serde E) (r : SinkRun E) : Prop :=
  ∀ l, (r.accepted.map serde.toLine).count l ≤ (r.sink.buffer.map serde.toLine).count l +
    (content newline r.sink.file).whole.count l

theorem SinkRun.Kept.noLoss (h : r.Kept serde) : r.NoLoss serde := by
  intro e
  have hkept := h (serde.toLine e)
  have hlines := TornLines.count_whole_le_lines newline r.sink.file (serde.toLine e)
  rw [List.count_filter (serde.parses_toLine e)]
  omega

theorem SinkRun.Kept.accept (h : r.Kept serde) (event : E) : (r.accept event).Kept serde := by
  intro l
  have hkept := h l
  simp only [SinkRun.accept, FileEventSink.push, List.map_append, List.count_append]
  omega

theorem SinkRun.Kept.flush (h : r.Kept serde) (hsafe : r.FlushSafe serde io) :
    (r.flush serde io).Kept serde := by
  rcases flush_cases serde r io with
    ⟨-, heq⟩ | ⟨hio, haccepted, hfile, hbuffer⟩ | ⟨more, -, haccepted, hfile, hbuffer⟩
  · rwa [heq]
  · intro l
    rw [haccepted, hfile, hbuffer]
    refine TornLines.le_count_append_output serde.newline_notMem ?_ ?_
    · simpa using h l
    · refine (hsafe hio).imp_right fun hspare e he hl => ?_
      simpa [hl] using hspare e he
  · intro l
    have hkept := h l
    have hwhole := TornLines.count_whole_le_append newline r.sink.file more l
    rw [haccepted, hfile, hbuffer]
    omega

theorem SinkRun.Kept.step (h : r.Kept serde) {call : SinkCall E}
    (hsafe : r.CallSafe serde call) : (r.step serde call).Kept serde := by
  cases call with
  | emit event io =>
      rw [step_emit]
      by_cases hfull : r.sink.flushInterval ≤ (r.accept event).sink.buffer.length
      · rw [if_pos hfull]
        exact (h.accept event).flush (hsafe hfull)
      · rw [if_neg hfull]
        exact h.accept event
  | flush io => exact h.flush hsafe

/-- A flush that is not safe loses its first event. -/
theorem SinkRun.flushSafe_of_noLoss (h : (r.flush serde io).NoLoss serde) :
    r.FlushSafe serde io := by
  intro hio
  by_contra hunsafe
  rw [not_or] at hunsafe
  obtain ⟨hrest, hspare⟩ := hunsafe
  rcases flush_cases serde r io with
    ⟨hnil, -⟩ | ⟨-, haccepted, hfile, hbuffer⟩ | ⟨more, hne, -⟩
  · exact hspare (by simp [hnil])
  · cases hcons : r.sink.buffer with
    | nil => exact hspare (by simp [hcons])
    | cons e es =>
        refine hspare fun e' he' => ?_
        obtain rfl : e = e' := by simpa [hcons] using he'
        have hkept := h e
        have hread := TornLines.count_lines_append_output serde.newline_notMem hrest e es
          serde.parses
        rw [haccepted, hbuffer, hfile, hcons, List.map_nil, List.count_nil] at hkept
        rw [hcons, List.map_cons, List.count_cons_self]
        omega
  · exact hne hio

theorem SinkRun.callSafe_of_noLoss {call : SinkCall E} (h : (r.step serde call).NoLoss serde) :
    r.CallSafe serde call := by
  cases call with
  | emit event io =>
      intro hfull
      rw [step_emit, if_pos hfull] at h
      exact flushSafe_of_noLoss h
  | flush io => exact flushSafe_of_noLoss h

theorem SinkRun.kept_init (file : List UInt8) (flushInterval : ℕ) :
    (SinkRun.init file flushInterval).Kept serde := fun _ => Nat.zero_le _

/-! ### Flushes that succeed -/

/-- The file has ended lines only. -/
def SinkRun.Ordered (serde : Serde E) (old : List (List UInt8)) (r : SinkRun E) : Prop :=
  ∃ written, content newline r.sink.file = ⟨old ++ written.map serde.toLine, []⟩ ∧
    written ++ r.sink.buffer = r.accepted

variable {old : List (List UInt8)}

theorem SinkRun.Ordered.inOrder (h : r.Ordered serde old) : r.InOrder serde old := by
  obtain ⟨written, hcontent, haccepted⟩ := h
  refine ⟨written, ?_, haccepted⟩
  rw [TornLines.lines_of_rest_nil (by rw [hcontent]), hcontent]

theorem SinkRun.Ordered.accept (h : r.Ordered serde old) (event : E) :
    (r.accept event).Ordered serde old := by
  obtain ⟨written, hcontent, haccepted⟩ := h
  refine ⟨written, hcontent, ?_⟩
  rw [SinkRun.accept, FileEventSink.push, ← haccepted, List.append_assoc]

theorem SinkRun.Ordered.flush (h : r.Ordered serde old) (hio : io = .written) :
    (r.flush serde io).Ordered serde old := by
  obtain ⟨written, hcontent, haccepted⟩ := h
  rcases flush_cases serde r io with
    ⟨-, heq⟩ | ⟨-, hsame, hfile, hbuffer⟩ | ⟨more, hne, -, -, -⟩
  · rw [heq]
    exact ⟨written, hcontent, haccepted⟩
  · refine ⟨written ++ r.sink.buffer, ?_, ?_⟩
    · rw [hfile, TornLines.content_append_output_of_rest_nil serde.newline_notMem
        (by rw [hcontent]), hcontent, List.map_append, List.append_assoc]
    · rw [hbuffer, hsame, haccepted, List.append_nil]
  · exact absurd hio hne

theorem SinkRun.Ordered.step (h : r.Ordered serde old) {call : SinkCall E}
    (hio : call.Succeeds) : (r.step serde call).Ordered serde old := by
  cases call with
  | emit event io =>
      rw [step_emit]
      split
      · exact (h.accept event).flush hio
      · exact h.accept event
  | flush io => exact h.flush hio

theorem SinkRun.ordered_init {file : List UInt8} (hfile : (content newline file).rest = [])
    (flushInterval : ℕ) :
    (SinkRun.init file flushInterval).Ordered serde (lines newline file) := by
  refine ⟨[], ?_, rfl⟩
  rw [TornLines.lines_of_rest_nil hfile, List.map_nil, List.append_nil, ← hfile]
  rfl

end

/-- The sink keeps every event all along a run exactly if no flush succeeds behind a torn
line with an event that cannot be spared. -/
theorem sink_keeps_iff (file : List UInt8) (flushInterval : ℕ) (calls : List (SinkCall E)) :
    (∀ before after, calls = before ++ after →
      (before.foldl (SinkRun.step serde) (SinkRun.init file flushInterval)).NoLoss serde) ↔
      Machine.Along (SinkRun.step serde) (SinkRun.CallSafe serde)
        (SinkRun.init file flushInterval) calls := by
  constructor
  · intro h
    exact Machine.along_of_prefixes (I := SinkRun.Kept serde) (P := SinkRun.NoLoss serde)
      (SinkRun.kept_init file flushInterval) h
      (fun _ _ _ hkept => SinkRun.callSafe_of_noLoss hkept) fun _ _ hkept hsafe => hkept.step hsafe
  · rintro hrun before after rfl
    rw [Machine.along_append] at hrun
    exact (hrun.1.invariant (SinkRun.kept_init file flushInterval)
      fun _ _ h hsafe => h.step hsafe).noLoss

/-- Without a failure each event is there once and in its place. -/
theorem sink_orders {file : List UInt8} (hfile : (content newline file).rest = [])
    (flushInterval : ℕ) (calls : List (SinkCall E)) (hio : ∀ call ∈ calls, call.Succeeds) :
    (calls.foldl (SinkRun.step serde) (SinkRun.init file flushInterval)).InOrder serde
      (lines newline file) := by
  have hrun : Machine.Along (SinkRun.step serde) (fun _ call => SinkCall.Succeeds call)
      (SinkRun.init file flushInterval) calls := by
    rw [Machine.along_iff_forall]
    rintro before call after rfl
    exact hio call (by simp)
  exact (hrun.invariant (SinkRun.ordered_init hfile flushInterval)
    fun _ _ h hcall => h.step hcall).inOrder

end DdsOrchestrator.Observability
