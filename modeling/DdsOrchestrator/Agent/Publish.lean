import DdsOrchestrator.Lib.Machine
import DdsOrchestrator.Dataspace.WriterPool

/-!
How an agent works on a task it has claimed. It publishes that the task is running, hands the
chunks of the engine to the pool of writers, and publishes how the task ended. The pool tells
it of the final chunk only how the write went, so that is all that DONE waits for.

The workers of the pool go on at any time, as do others that submit to it.
-/

namespace DdsOrchestrator.Agent

open Dataspace (Task TaskOutput DataSpaceError WriterPool WriteRequest)

inductive EngineError where
  | timeout (ms : UInt64)
  | modelUnavailable (text : String)
  | inferenceFailed (text : String)
  | ddsError (text : String)
  deriving DecidableEq

def EngineError.text : EngineError → String
  | timeout ms => "timeout após " ++ toString ms.toNat ++ "ms"
  | modelUnavailable text => "modelo não disponível: " ++ text
  | inferenceFailed text => "inferência falhou: " ++ text
  | ddsError text => "DDS error: " ++ text

structure Chunk where
  content : String
  seqNum : UInt32
  isFinal : Bool
  tokensPrompt : UInt32
  tokensCompletion : UInt32
  deriving DecidableEq

/-- Finish reasons are none and completion. -/
def chunkOutput (taskId agentId : String) (nowNs : UInt64) (c : Chunk) : TaskOutput :=
  { taskId, seqNum := c.seqNum, content := c.content, isFinal := c.isFinal
    finishReason := if c.isFinal then 1 else 0, agentId, tokenCount := c.tokensCompletion
    emittedAtNs := nowNs }

/-- How the wait for the ack ends. -/
inductive Wait where
  | received (result : Except DataSpaceError Unit)
  | closed
  | elapsed

def Wait.failure : Wait → Option String
  | received (.ok _) => none
  | received (.error e) => some ("write final DDS falhou: " ++ e.text)
  | closed => some "writer pool encerrou sem confirmar o write final"
  | elapsed => some "timeout (10s) aguardando ack do write final"

/-- Where the work on the task stands. -/
inductive Stage where
  | starting
  /-- RUNNING could not be published. -/
  | aborting (cause : String)
  /-- The chunks before `position` are with the pool. `finalAck` is the last final one. -/
  | streaming (position : Nat) (finalAck : Option Nat)
  | awaiting (position : Nat) (final : Task)
  | closing (failed : Option String) (final : Task)
  /-- The last task is published again until it is seen. -/
  | ensuring (final : Task)
  | finished

/-- What reaches the data space: the output at a position, and the task. Of RUNNING it is also
on record how its write went. -/
inductive Entry where
  | accepted (position : Nat)
  | wrote (position : Nat) (ok : Bool)
  | attempted (t : Task)
  | ran (ok : Bool)
  deriving DecidableEq

structure Publisher where
  pool : WriterPool
  stage : Stage
  tAgentQueueNs : UInt64
  log : List Entry

/-- The claimed task, what the engine gives, and whether a last task is published until it is
seen. -/
structure Job where
  task : Task
  agentId : String
  stream : List (Except EngineError Chunk)
  ensureTerminal : Bool

inductive Move where
  | running (nowNs : UInt64) (result : Except DataSpaceError Unit)
  | abort (nowNs : UInt64)
  /-- The next item of the stream, or its end. -/
  | next (nowNs elapsedNs : UInt64) (connected : Bool)
  | wait (elapsed : Bool)
  | close (result : Except DataSpaceError Unit)
  | ensure (again : Bool)
  | submitOther (connected : Bool)
  | take (k : Nat)
  | write (k : Nat) (result : Except DataSpaceError Unit)
  | ack (k : Nat)
  | crash (k : Nat)

namespace Publisher

def start (capacity : Nat) : Publisher :=
  { pool := .new capacity, stage := .starting, tAgentQueueNs := 0, log := [] }

def record (entries : List Entry) (p : Publisher) : Publisher := { p with log := p.log ++ entries }

/-- The task as it ends, without its status. -/
def finalTask (j : Job) (p : Publisher) (nowNs elapsedNs : UInt64) : Task :=
  { j.task with
    completedAtNs := nowNs, tAgentQueueNs := p.tAgentQueueNs, tInferenceNs := elapsedNs }

def doneTask (final : Task) : Task := { final with status := 3, finishReason := "COMPLETION" }

def failedTask (cause : String) (final : Task) : Task :=
  { final with status := 4, finishReason := cause }

/-- The chunk at `position` goes to the pool. -/
def submitChunk (j : Job) (position : Nat) (finalAck : Option Nat) (c : Chunk)
    (nowNs elapsedNs : UInt64) (connected : Bool) (p : Publisher) : Publisher :=
  let out := chunkOutput j.task.taskId j.agentId nowNs c
  let request := if c.isFinal then WriteRequest.outputAck position out
    else WriteRequest.output position out
  match p.pool.submit connected request with
  | (.ok _, pool) =>
    { p with
      pool, log := p.log ++ [.accepted position]
      stage := .streaming (position + 1) (if c.isFinal then some position else finalAck) }
  | (.error e, pool) =>
    let cause := (if c.isFinal then "falha ao enfileirar output final DDS: "
      else "falha ao enfileirar output DDS: ") ++ e.text
    { p with pool, stage := .closing (some cause) (finalTask j p nowNs elapsedNs) }

/-- The stream is at its end. -/
def endStream (j : Job) (finalAck : Option Nat) (nowNs elapsedNs : UInt64) (p : Publisher) :
    Publisher :=
  let final := finalTask j p nowNs elapsedNs
  match finalAck with
  | some position => { p with stage := .awaiting position final }
  | none =>
    { p with stage := .closing (some "inferência terminou sem output final publicado") final }

/-- The end of the wait, which can be the time's as long as nothing has come. -/
def wait? (elapsed : Bool) (position : Nat) (p : Publisher) : Option Wait :=
  match p.pool.acks position with
  | .sent result => some (.received result)
  | .closed => some .closed
  | .waiting => if elapsed then some .elapsed else none

/-- After the last task is published. A DONE that fails is not seen to any further. -/
def afterClose (j : Job) (done : Bool) (result : Except DataSpaceError Unit) (t : Task) : Stage :=
  match done, result with
  | true, .error _ => .finished
  | _, _ => if j.ensureTerminal then .ensuring t else .finished

def step (j : Job) (p : Publisher) : Move → Publisher
  | .running nowNs result =>
    match p.stage with
    | .starting =>
      let running : Task := { j.task with status := 2, startedAtNs := nowNs }
      match result with
      | .ok _ => { p.record [.attempted running, .ran true] with
          stage := .streaming 0 none, tAgentQueueNs := nowNs - min nowNs j.task.assignedAtNs }
      | .error e => { p.record [.attempted running, .ran false] with
          stage := .aborting ("falha ao publicar RUNNING: " ++ e.text) }
    | _ => p
  | .abort nowNs =>
    match p.stage with
    | .aborting cause =>
      { p.record [.attempted { failedTask cause j.task with completedAtNs := nowNs }] with
        stage := .finished }
    | _ => p
  | .next nowNs elapsedNs connected =>
    match p.stage with
    | .streaming position finalAck =>
      match j.stream[position]? with
      | some (.ok c) => p.submitChunk j position finalAck c nowNs elapsedNs connected
      | some (.error e) =>
        { p with stage := .closing (some e.text) (finalTask j p nowNs elapsedNs) }
      | none => p.endStream j finalAck nowNs elapsedNs
    | _ => p
  | .wait elapsed =>
    match p.stage with
    | .awaiting position final =>
      match p.wait? elapsed position with
      | some w => { p with stage := .closing w.failure final }
      | none => p
    | _ => p
  | .close result =>
    match p.stage with
    | .closing none final => { p.record [.attempted (doneTask final)] with
        stage := afterClose j true result (doneTask final) }
    | .closing (some cause) final => { p.record [.attempted (failedTask cause final)] with
        stage := afterClose j false result (failedTask cause final) }
    | _ => p
  | .ensure again =>
    match p.stage with
    | .ensuring t => if again then p.record [.attempted t] else { p with stage := .finished }
    | _ => p
  | .submitOther connected => { p with pool := (p.pool.submit connected .other).2 }
  | .take k => { p with pool := p.pool.take k }
  | .write k result =>
    match p.pool.inHand k with
    | some i => { p.record [.wrote i result.isOk] with pool := p.pool.write k result }
    | none => { p with pool := p.pool.write k result }
  | .ack k => { p with pool := p.pool.ack k }
  | .crash k => { p with pool := p.pool.crash k }

/-! ### What stands behind DONE -/

/-- The position is that of the last final chunk, if there is one. -/
def LastFinal (items : List (Except EngineError Chunk)) : Option Nat → Prop
  | none => ∀ (i : Nat) c, items[i]? = some (.ok c) → c.isFinal = false
  | some p => (∃ c, items[p]? = some (.ok c) ∧ c.isFinal = true) ∧
      ∀ (i : Nat) c, p < i → items[i]? = some (.ok c) → c.isFinal = false

/-- RUNNING has been written, the first items are chunks, and the pool has accepted them. -/
structure HandedOver (j : Job) (log : List Entry) (position : Nat) (finalAck : Option Nat) :
    Prop where
  ran : .ran true ∈ log
  chunks : ∀ i < position, ∃ c, j.stream[i]? = some (.ok c)
  accepted : ∀ i < position, .accepted i ∈ log
  last : LastFinal (j.stream.take position) finalAck

/-- RUNNING has been written, the pool has accepted the whole stream, and the last final chunk
has been written. -/
structure Backed (j : Job) (log : List Entry) : Prop where
  ran : .ran true ∈ log
  chunks : ∀ i < j.stream.length, ∃ c, j.stream[i]? = some (.ok c)
  accepted : ∀ i < j.stream.length, .accepted i ∈ log
  final : ∃ i, LastFinal j.stream (some i) ∧ .wrote i true ∈ log

/-- Only RUNNING has been published. -/
def Unfinished (log : List Entry) : Prop := ∀ t, .attempted t ∈ log → t.status = 2

/-- The end that has been published is that of `t`. -/
structure EndedAs (log : List Entry) (t : Task) : Prop where
  terminal : t.status = 3 ∨ t.status = 4
  attempted : .attempted t ∈ log
  others : ∀ t', .attempted t' ∈ log → t'.status = 2 ∨ t'.status = t.status

/-- What the log says at a stage. -/
def Fits (j : Job) (log : List Entry) : Stage → Prop
  | .starting | .aborting _ | .closing (some _) _ => Unfinished log
  | .streaming position finalAck => Unfinished log ∧ HandedOver j log position finalAck
  | .awaiting position _ => Unfinished log ∧ HandedOver j log j.stream.length (some position)
  | .closing none _ => Unfinished log ∧ Backed j log
  | .ensuring t => EndedAs log t ∧ (t.status = 3 → Backed j log)
  | .finished => ∃ t, EndedAs log t

/-- Every DONE in the log has all behind it that it has to have. -/
def DonesBacked (j : Job) (log : List Entry) : Prop :=
  ∀ (n : Nat) t, log[n]? = some (.attempted t) → t.status = 3 → Backed j (log.take n)

structure Kept (j : Job) (p : Publisher) : Prop where
  honest : p.pool.Honest fun i => .wrote i true ∈ p.log
  fits : Fits j p.log p.stage
  dones : DonesBacked j p.log

variable {j : Job} {p : Publisher} {log : List Entry} {e : Entry}

theorem HandedOver.append (h : HandedOver j log n fa) (more : List Entry) :
    HandedOver j (log ++ more) n fa :=
  ⟨List.mem_append_left _ h.ran, h.chunks, fun i hi => List.mem_append_left _ (h.accepted i hi),
    h.last⟩

theorem Backed.append (h : Backed j log) (more : List Entry) : Backed j (log ++ more) where
  ran := List.mem_append_left _ h.ran
  chunks := h.chunks
  accepted := fun i hi => List.mem_append_left _ (h.accepted i hi)
  final := by
    obtain ⟨i, hlast, hwrote⟩ := h.final
    exact ⟨i, hlast, List.mem_append_left _ hwrote⟩

theorem Unfinished.append (h : Unfinished log) (he : ∀ t, e = .attempted t → t.status = 2) :
    Unfinished (log ++ [e]) := by
  intro t ht
  rcases List.mem_append.mp ht with ht | ht
  · exact h t ht
  · exact he t (List.mem_singleton.mp ht).symm

theorem EndedAs.append (h : EndedAs log t) (he : ∀ t', e = .attempted t' → t'.status = t.status) :
    EndedAs (log ++ [e]) t where
  terminal := h.terminal
  attempted := List.mem_append_left _ h.attempted
  others := by
    intro t' ht
    rcases List.mem_append.mp ht with ht | ht
    · exact h.others t' ht
    · exact .inr (he t' (List.mem_singleton.mp ht).symm)

/-- The first end that is published. -/
theorem Unfinished.endedAs (h : Unfinished log) {t : Task} (ht : t.status = 3 ∨ t.status = 4) :
    EndedAs (log ++ [.attempted t]) t where
  terminal := ht
  attempted := by simp
  others := by
    intro t' ht'
    rcases List.mem_append.mp ht' with ht' | ht'
    · exact .inl (h t' ht')
    · obtain rfl : t' = t := by simpa using ht'
      exact .inr rfl

/-- What the pool does leaves the stage where it is. -/
theorem Fits.append {s : Stage} (h : Fits j log s) (he : ∀ t, e ≠ .attempted t) :
    Fits j (log ++ [e]) s := by
  have hnone : ∀ t, e = .attempted t → t.status = 2 := fun t ht => absurd ht (he t)
  cases s with
  | starting => exact Unfinished.append h hnone
  | aborting cause => exact Unfinished.append h hnone
  | streaming position finalAck => exact ⟨h.1.append hnone, h.2.append _⟩
  | awaiting position final => exact ⟨h.1.append hnone, h.2.append _⟩
  | closing failed final =>
      cases failed with
      | none => exact ⟨h.1.append hnone, h.2.append _⟩
      | some cause => exact Unfinished.append h hnone
  | ensuring t => exact ⟨h.1.append fun t' ht => absurd ht (he t'), fun h3 => (h.2 h3).append _⟩
  | finished =>
      obtain ⟨t, ht⟩ := h
      exact ⟨t, ht.append fun t' ht => absurd ht (he t')⟩

theorem DonesBacked.append (h : DonesBacked j log)
    (he : ∀ t, e = .attempted t → t.status = 3 → Backed j log) : DonesBacked j (log ++ [e]) := by
  intro n t hn hdone
  rcases Nat.lt_trichotomy n log.length with hlt | heq | hgt
  · rw [List.getElem?_append_left hlt] at hn
    rw [List.take_append_of_le_length (Nat.le_of_lt hlt)]
    exact h n t hn hdone
  · subst heq
    rw [List.getElem?_append_right (Nat.le_refl _)] at hn
    rw [List.take_left]
    exact he t (by simpa using hn) hdone
  · rw [List.getElem?_eq_none (by simp; omega)] at hn
    cases hn

theorem honest_append {pool : WriterPool} (h : pool.Honest fun i => .wrote i true ∈ log)
    (e : Entry) : pool.Honest fun i => .wrote i true ∈ log ++ [e] :=
  h.mono fun _ hi => List.mem_append_left _ hi

/-! ### One move -/

theorem LastFinal.push {items : List (Except EngineError Chunk)} {finalAck : Option Nat}
    (h : LastFinal items finalAck) (c : Chunk) :
    LastFinal (items ++ [.ok c]) (if c.isFinal then some items.length else finalAck) := by
  -- A chunk of the longer list is the new one or one of the old.
  have hitem : ∀ (i : Nat) c', (items ++ [.ok c])[i]? = some (.ok c') →
      (i = items.length ∧ c' = c) ∨ (i < items.length ∧ items[i]? = some (.ok c')) := by
    intro i c' hi
    rcases Nat.lt_trichotomy i items.length with hlt | rfl | hgt
    · rw [List.getElem?_append_left hlt] at hi
      exact .inr ⟨hlt, hi⟩
    · exact .inl ⟨rfl, by simpa [eq_comm] using hi⟩
    · rw [List.getElem?_eq_none (by simp; omega)] at hi
      cases hi
  cases hfinal : c.isFinal with
  | true =>
      refine ⟨⟨c, by simp, hfinal⟩, fun i c' hlt hi => ?_⟩
      rcases hitem i c' hi with ⟨rfl, -⟩ | ⟨hold, -⟩
      · exact absurd hlt (Nat.lt_irrefl _)
      · omega
  | false =>
      cases finalAck with
      | none =>
          intro i c' hi
          rcases hitem i c' hi with ⟨-, rfl⟩ | ⟨-, hold⟩
          · exact hfinal
          · exact h i c' hold
      | some p =>
          obtain ⟨⟨c', hp, hc'⟩, hlater⟩ := h
          have hlt := (List.getElem?_eq_some_iff.mp hp).1
          refine ⟨⟨c', by rw [List.getElem?_append_left hlt]; exact hp, hc'⟩,
            fun i c'' hpi hi => ?_⟩
          rcases hitem i c'' hi with ⟨-, rfl⟩ | ⟨-, hold⟩
          · exact hfinal
          · exact hlater i c'' hpi hold

/-- One more chunk that the pool has accepted. -/
theorem HandedOver.push {position : Nat} {finalAck : Option Nat}
    (h : HandedOver j log position finalAck) {c : Chunk}
    (hc : j.stream[position]? = some (.ok c)) :
    HandedOver j (log ++ [.accepted position]) (position + 1)
      (if c.isFinal then some position else finalAck) where
  ran := List.mem_append_left _ h.ran
  chunks := by
    intro i hi
    rcases Nat.lt_succ_iff_lt_or_eq.mp hi with hlt | rfl
    · exact h.chunks i hlt
    · exact ⟨c, hc⟩
  accepted := by
    intro i hi
    rcases Nat.lt_succ_iff_lt_or_eq.mp hi with hlt | rfl
    · exact List.mem_append_left _ (h.accepted i hlt)
    · simp
  last := by
    have hlt := (List.getElem?_eq_some_iff.mp hc).1
    have htake : j.stream.take (position + 1) = j.stream.take position ++ [.ok c] := by
      rw [List.take_add_one, hc]
      rfl
    have hlength : (j.stream.take position).length = position := by simp; omega
    have hpush := h.last.push c
    rw [hlength] at hpush
    rw [htake]
    exact hpush

theorem Kept.submitChunk (h : Kept j p) {position : Nat} {finalAck : Option Nat}
    (hstage : p.stage = .streaming position finalAck) {c : Chunk}
    (hc : j.stream[position]? = some (.ok c)) (nowNs elapsedNs : UInt64) (connected : Bool) :
    Kept j (p.submitChunk j position finalAck c nowNs elapsedNs connected) := by
  have hfits := h.fits
  rw [hstage] at hfits
  unfold Publisher.submitChunk
  dsimp only
  generalize (if c.isFinal = true then
    WriteRequest.outputAck position (chunkOutput j.task.taskId j.agentId nowNs c)
    else WriteRequest.output position (chunkOutput j.task.taskId j.agentId nowNs c)) = request
  have hhonest := h.honest.submit connected request
  split
  next u pool hpool =>
    rw [hpool] at hhonest
    exact ⟨honest_append hhonest _, ⟨hfits.1.append (by simp), hfits.2.push hc⟩,
      h.dones.append (by simp)⟩
  next e pool hpool =>
    rw [hpool] at hhonest
    exact ⟨hhonest, hfits.1, h.dones⟩

theorem Kept.endStream (h : Kept j p) {position : Nat} {finalAck : Option Nat}
    (hstage : p.stage = .streaming position finalAck) (hend : j.stream[position]? = none)
    (nowNs elapsedNs : UInt64) : Kept j (p.endStream j finalAck nowNs elapsedNs) := by
  have hfits := h.fits
  rw [hstage] at hfits
  have hlength : j.stream.length ≤ position := List.getElem?_eq_none_iff.mp hend
  unfold Publisher.endStream
  cases finalAck with
  | none => exact ⟨h.honest, hfits.1, h.dones⟩
  | some i =>
      refine ⟨h.honest, ⟨hfits.1, hfits.2.ran, fun k hk => ?_, fun k hk => ?_, ?_⟩, h.dones⟩
      · exact hfits.2.chunks k (by omega)
      · exact hfits.2.accepted k (by omega)
      -- The stream is at its end, so its last final chunk is the one that was handed over last.
      · have hlast := hfits.2.last
        rw [List.take_of_length_le hlength] at hlast
        rwa [List.take_length]

/-- An ack that tells of a success makes the stream backed. -/
theorem Kept.wait (h : Kept j p) {position : Nat} {final : Task}
    (hstage : p.stage = .awaiting position final) {elapsed : Bool} {w : Wait}
    (hw : p.wait? elapsed position = some w) :
    Kept j { p with stage := .closing w.failure final } := by
  have hfits := h.fits
  rw [hstage] at hfits
  refine ⟨h.honest, ?_, h.dones⟩
  cases hfailure : w.failure with
  | some cause => exact hfits.1
  | none =>
      refine ⟨hfits.1, hfits.2.ran, hfits.2.chunks, hfits.2.accepted, position, ?_, ?_⟩
      · have hlast := hfits.2.last
        rwa [List.take_length] at hlast
      · refine h.honest.sent position ?_
        -- Of the ways in which the wait ends only an ack of success leaves no failure.
        unfold wait? at hw
        split at hw
        next result hsent =>
          obtain rfl : Wait.received result = w := by simpa using hw
          cases result with
          | ok u => exact hsent
          | error e => cases hfailure
        next =>
          obtain rfl : Wait.closed = w := by simpa using hw
          cases hfailure
        next =>
          split_ifs at hw
          obtain rfl : Wait.elapsed = w := by simpa using hw
          cases hfailure

/-- The end is published for the first time. -/
theorem Kept.publish (h : Kept j p) (hunfinished : Unfinished p.log) {t : Task}
    (ht : t.status = 3 ∨ t.status = 4) (hback : t.status = 3 → Backed j p.log) {s : Stage}
    (hs : s = .finished ∨ s = .ensuring t) :
    Kept j { p.record [.attempted t] with stage := s } := by
  have hended := hunfinished.endedAs ht
  refine ⟨honest_append h.honest _, ?_, h.dones.append fun t' heq h3 => ?_⟩
  · rcases hs with rfl | rfl
    · exact ⟨t, hended⟩
    · exact ⟨hended, fun h3 => (hback h3).append _⟩
  · obtain rfl : t = t' := by simpa using heq
    exact hback h3

theorem afterClose_cases (done : Bool) (result : Except DataSpaceError Unit) (t : Task) :
    afterClose j done result t = .finished ∨ afterClose j done result t = .ensuring t := by
  unfold afterClose
  split
  · exact .inl rfl
  · split_ifs
    · exact .inr rfl
    · exact .inl rfl

theorem Kept.running (h : Kept j p) (hstage : p.stage = .starting) (nowNs : UInt64)
    (result : Except DataSpaceError Unit) : Kept j (p.step j (.running nowNs result)) := by
  have hfits := h.fits
  rw [hstage] at hfits
  have hrunning := Unfinished.append (e := .attempted { j.task with
    status := 2, startedAtNs := nowNs }) hfits (by rintro t ⟨rfl⟩; rfl)
  have hdones := h.dones.append (e := .attempted { j.task with
    status := 2, startedAtNs := nowNs }) (by rintro t ⟨rfl⟩ h3; simp at h3)
  have hrecord : ∀ ok, (p.record [.attempted { j.task with status := 2, startedAtNs := nowNs },
      .ran ok]).log = p.log ++ [.attempted { j.task with status := 2, startedAtNs := nowNs }] ++
        [.ran ok] := by
    simp [record]
  have hhonest := honest_append (honest_append h.honest (.attempted { j.task with
    status := 2, startedAtNs := nowNs }))
  simp only [Publisher.step, hstage]
  cases result with
  | error e =>
      refine ⟨?_, ?_, ?_⟩ <;> dsimp only <;> rw [hrecord]
      · exact hhonest _
      · exact hrunning.append (by simp)
      · exact hdones.append (by simp)
  | ok u =>
      refine ⟨?_, ?_, ?_⟩ <;> dsimp only <;> rw [hrecord]
      · exact hhonest _
      swap
      · exact hdones.append (by simp)
      -- Nothing has been handed over yet.
      refine ⟨hrunning.append (by simp), by simp, ?_, ?_, ?_⟩
      · exact fun i hi => absurd hi (Nat.not_lt_zero i)
      · exact fun i hi => absurd hi (Nat.not_lt_zero i)
      · intro i c hi
        simp at hi

/-- The task that is published again is the one that has been published as the end. -/
theorem Kept.again (h : Kept j p) {t : Task} (hstage : p.stage = .ensuring t) :
    Kept j (p.record [.attempted t]) := by
  have hfits := h.fits
  rw [hstage] at hfits
  refine ⟨honest_append h.honest _, ?_, h.dones.append ?_⟩
  · show Fits j _ p.stage
    rw [hstage]
    exact ⟨hfits.1.append (by rintro t' ⟨rfl⟩; rfl), fun h3 => (hfits.2 h3).append _⟩
  · rintro t' ⟨rfl⟩ h3
    exact hfits.2 h3

theorem Kept.write (h : Kept j p) (k : Nat) (result : Except DataSpaceError Unit) :
    Kept j (p.step j (.write k result)) := by
  simp only [Publisher.step]
  split
  next i hhand =>
    refine ⟨(honest_append h.honest _).write k result fun i' hi' hok => ?_,
      h.fits.append (by simp), h.dones.append (by simp)⟩
    obtain rfl : i = i' := by simpa [hhand] using hi'
    simp [hok, Except.isOk, Except.toBool]
  next hhand =>
    exact ⟨h.honest.write k result fun i hi => by simp [hhand] at hi, h.fits, h.dones⟩

theorem Kept.step (h : Kept j p) (m : Move) : Kept j (p.step j m) := by
  have hfits := h.fits
  cases m with
  | running nowNs result =>
      by_cases hstage : p.stage = .starting
      · exact h.running hstage nowNs result
      · rw [Publisher.step]
        split
        next hstarting => exact absurd hstarting hstage
        next => exact h
  | abort nowNs =>
      rw [Publisher.step]
      split
      next cause hstage =>
        rw [hstage] at hfits
        exact h.publish hfits (.inr rfl) (by simp [failedTask]) (.inl rfl)
      next => exact h
  | next nowNs elapsedNs connected =>
      rw [Publisher.step]
      split
      next position finalAck hstage =>
        split
        next c hc => exact h.submitChunk hstage hc nowNs elapsedNs connected
        next e hc =>
          rw [hstage] at hfits
          exact ⟨h.honest, hfits.1, h.dones⟩
        next hend => exact h.endStream hstage hend nowNs elapsedNs
      next => exact h
  | wait elapsed =>
      rw [Publisher.step]
      split
      next position final hstage =>
        split
        next w hw => exact h.wait hstage hw
        next => exact h
      next => exact h
  | close result =>
      rw [Publisher.step]
      split
      next final hstage =>
        rw [hstage] at hfits
        exact h.publish hfits.1 (.inl rfl) (fun _ => hfits.2) (afterClose_cases _ _ _)
      next cause final hstage =>
        rw [hstage] at hfits
        exact h.publish hfits (.inr rfl) (by simp [failedTask]) (afterClose_cases _ _ _)
      next => exact h
  | ensure again =>
      rw [Publisher.step]
      split
      next t hstage =>
        split_ifs
        · exact h.again hstage
        · rw [hstage] at hfits
          exact ⟨h.honest, ⟨t, hfits.1⟩, h.dones⟩
      next => exact h
  | submitOther connected => exact ⟨h.honest.submit _ _, h.fits, h.dones⟩
  | take k => exact ⟨h.honest.take k, h.fits, h.dones⟩
  | write k result => exact h.write k result
  | ack k => exact ⟨h.honest.ack k, h.fits, h.dones⟩
  | crash k => exact ⟨h.honest.crash k, h.fits, h.dones⟩

theorem kept_start (j : Job) (capacity : Nat) : Kept j (start capacity) where
  honest := WriterPool.honest_new capacity
  fits := by simp [Fits, start, Unfinished]
  dones := by simp [DonesBacked, start]

theorem EndedAs.not_both {t t₁ t₂ : Task} (h : EndedAs log t) (h₁ : .attempted t₁ ∈ log)
    (h₂ : .attempted t₂ ∈ log) (hdone : t₁.status = 3) : t₂.status ≠ 4 := by
  rcases h.others t₁ h₁ with hrunning | hsame
  · omega
  · rcases h.others t₂ h₂ with hrunning | hsame' <;> omega

theorem Fits.not_both {s : Stage} (h : Fits j log s) {t₁ t₂ : Task} (h₁ : .attempted t₁ ∈ log)
    (h₂ : .attempted t₂ ∈ log) (hdone : t₁.status = 3) : t₂.status ≠ 4 := by
  have hnone : ∀ _ : Unfinished log, t₂.status ≠ 4 := by
    intro hunfinished
    have hrunning := hunfinished t₂ h₂
    omega
  cases s with
  | starting => exact hnone h
  | aborting cause => exact hnone h
  | streaming position finalAck => exact hnone h.1
  | awaiting position final => exact hnone h.1
  | closing failed final =>
      cases failed with
      | none => exact hnone h.1
      | some cause => exact hnone h
  | ensuring t => exact h.1.not_both h₁ h₂ hdone
  | finished =>
      obtain ⟨t, ht⟩ := h
      exact ht.not_both h₁ h₂ hdone

theorem done_after_final_ack (j : Job) (capacity : Nat) (moves : List Move) :
    let p := moves.foldl (step j) (start capacity)
    DonesBacked j p.log ∧
    (∀ t t', .attempted t ∈ p.log → .attempted t' ∈ p.log → t.status = 3 → t'.status ≠ 4) ∧
    (p.stage = .finished →
      ∃ t, .attempted t ∈ p.log ∧ (t.status = 3 ∨ t.status = 4)) := by
  intro p
  have hkept : Kept j p :=
    Machine.foldl_invariant moves (kept_start j capacity) fun p m h => h.step m
  refine ⟨hkept.dones, fun t t' ht ht' hdone => hkept.fits.not_both ht ht' hdone, fun hend => ?_⟩
  have hfits := hkept.fits
  rw [hend] at hfits
  obtain ⟨t, ht⟩ := hfits
  exact ⟨t, ht.attempted, ht.terminal⟩

/-- DONE comes after all chunks have been written. -/
def DonesDelivered (j : Job) (log : List Entry) : Prop :=
  ∀ (n : Nat) t, log[n]? = some (.attempted t) → t.status = 3 →
    ∀ i < j.stream.length, .wrote i true ∈ log.take n

/-- A stream of two chunks. -/
def twoChunks : Job where
  task :=
    { taskId := "t", clientId := "c", assignedAgent := "a", targetAgent := "", modelRequired := 0
      modelName := "qwen", messagesJson := "[]", temperature := 0, maxTokens := 16
      stream := true, status := 1, priority := 0, createdAtNs := 1, assignedAtNs := 2
      startedAtNs := 0, completedAtNs := 0, deadlineNs := 0, retryCount := 0, finishReason := ""
      tSerializationNs := 0, tTransportSendNs := 0, tAgentQueueNs := 0, tInferenceNs := 0
      tTransportReturnNs := 0, tDeserializationNs := 0 }
  agentId := "a"
  stream := [.ok ⟨"Hello ", 0, false, 3, 1⟩, .ok ⟨"world", 1, true, 3, 2⟩]
  ensureTerminal := false

/-- One worker holds the first chunk while the other one writes the second and tells of it,
so that DONE is published. Then the write of the first chunk fails. -/
theorem done_before_delivery :
    let moves : List Move :=
      [.running 3 (.ok ()), .next 4 1 true, .next 5 2 true, .next 6 3 true, .take 0, .take 1,
        .write 1 (.ok ()), .ack 1, .wait false, .close (.ok ()),
        .write 0 (.error (.writeFailed "dds_write"))]
    let log := (moves.foldl (step twoChunks) (start 4096)).log
    ¬ DonesDelivered twoChunks log ∧ .wrote 0 false ∈ log := by
  intro moves log
  refine ⟨fun h => ?_, by decide +kernel⟩
  have hdone : ∃ t, log[5]? = some (.attempted t) ∧ t.status = 3 :=
    ⟨doneTask (finalTask twoChunks ((moves.take 1).foldl (step twoChunks) (start 4096)) 6 3),
      by decide +kernel, rfl⟩
  obtain ⟨t, ht, hstatus⟩ := hdone
  exact absurd (h 5 t ht hstatus 0 (by decide)) (by decide +kernel)

end Publisher

end DdsOrchestrator.Agent
