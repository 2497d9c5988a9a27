import DdsOrchestrator.Client.Submit

/-!
The client that shows the chunks as they come. It judges the sequence numbers at the same
moment as the one that waits for all of them, and to the same end, so what is said of one of
them holds of the other.

Of a completed attempt every chunk may still be on its way, or come once more, when that
moment is there. A gap then is no loss.
-/

namespace DdsOrchestrator.Client

open Dataspace (Task TaskOutput DataSpaceError)

/-- What `submit_stream` holds, and the items it has shown. -/
structure Showing where
  items : List (Except ClientError TaskOutput)
  done : Bool
  finalChunkReceived : Bool
  seqNums : List UInt32
  ended : Bool

namespace Showing

def start : Showing :=
  { items := [], done := false, finalChunkReceived := false, seqNums := [], ended := false }

def fail (e : ClientError) (s : Showing) : Showing :=
  { s with items := s.items ++ [.error e], ended := true }

/-- The error is the last item. -/
def close (taskId : String) (s : Showing) : Showing :=
  match seqGap s.seqNums with
  | some (expected, got) => s.fail (.incompleteStream taskId expected got)
  | none => { s with ended := true }

def push (o : TaskOutput) (s : Showing) : Showing :=
  { s with items := s.items ++ [.ok o], seqNums := s.seqNums ++ [o.seqNum] }

/-- One round of the loop. -/
def receive (taskId : String) (s : Showing) (a : Arrival) : Showing :=
  if s.ended then s
  else
    match a.event with
    | .output (.ok o) =>
      if o.taskId = taskId then
        let s := s.push o
        if o.isFinal then
          let s := { s with finalChunkReceived := true }
          if s.done then s.close taskId else s
        else s
      else s
    | .output (.error e) => s.fail (channelError "TaskOutput" e)
    | .status (.ok t) =>
      if t.taskId = taskId then
        if t.status = 3 then
          let s := { s with done := true }
          if s.finalChunkReceived then s.close taskId else s
        else if t.status = 4 then s.fail (.taskFailed t.finishReason)
        else s
      else s
    | .status (.error e) => s.fail (channelError "Tasks" e)

def run (taskId : String) (arrivals : List Arrival) : Showing :=
  arrivals.foldl (receive taskId) start

end Showing

def submitStream (taskId : String) (write : Except DataSpaceError Unit) (arrivals : List Arrival) :
    List (Except ClientError TaskOutput) :=
  match write with
  | .error e => [.error (.ddsError e.text)]
  | .ok () =>
    let s := Showing.run taskId arrivals
    if s.ended then s.items else s.items ++ [.error (.timeout taskId)]

/-! ### The two clients side by side -/

/-- They have seen the same, and have no answer yet. -/
structure Alike (s : Submission) (t : Showing) : Prop where
  answer : s.answer = none
  ended : t.ended = false
  done : t.done = s.done
  final : t.finalChunkReceived = s.chunks.any (·.isFinal)
  seqNums : t.seqNums = s.chunks.map (·.seqNum)
  items : ∀ e, .error e ∉ t.items

inductive Tracks (s : Submission) (t : Showing) : Prop where
  | waiting (alike : Alike s t) (unready : s.ready = false)
  | ended (answer : s.answer ≠ none) (ended : t.ended = true)
      (errors : ∀ e, .error e ∈ t.items ↔ s.answer = some (.error e))

variable {taskId : String} {s : Submission} {t : Showing}

theorem Alike.ready (h : Alike s t) : s.ready = (t.done && t.finalChunkReceived) := by
  rw [Submission.ready, h.done, h.final]

theorem Alike.fail (h : Alike s t) (e : ClientError) :
    Tracks { s with answer := some (.error e) } (t.fail e) := by
  apply Tracks.ended
  · simp
  · rfl
  · intro e'
    simp [Showing.fail, h.items e', eq_comm]

theorem Alike.close (h : Alike s t) (elapsedMs : UInt64) :
    Tracks (s.finish taskId elapsedMs) (t.close taskId) := by
  have hfinish := Submission.finish_answer taskId elapsedMs s
  rw [Submission.conclude, Submission.seqGap_insertionSort, ← h.seqNums] at hfinish
  cases hgap : seqGap t.seqNums with
  | none =>
    rw [hgap] at hfinish
    rw [Showing.close, hgap]
    apply Tracks.ended
    · simp [hfinish]
    · rfl
    · intro e
      simp [hfinish, h.items e]
  | some gap =>
    rw [hgap] at hfinish
    rw [Showing.close, hgap]
    apply Tracks.ended
    · simp [hfinish]
    · rfl
    · intro e
      simp [Showing.fail, hfinish, h.items e, eq_comm]

/-- Both look whether the two signals are there. -/
theorem Alike.settle (h : Alike s t) (taskId : String) (elapsedMs : UInt64) :
    Tracks (if s.answer.isNone && s.ready then s.finish taskId elapsedMs else s)
      (if t.done && t.finalChunkReceived then t.close taskId else t) := by
  rw [← h.ready, h.answer, Option.isNone_none, Bool.true_and]
  cases hready : s.ready with
  | true => exact h.close elapsedMs
  | false => exact .waiting h hready

theorem Alike.push (h : Alike s t) (o : TaskOutput) (firstChunkMs : Option UInt64) :
    Alike { s with firstChunkMs, chunks := s.chunks ++ [o] }
      { t.push o with finalChunkReceived := t.finalChunkReceived || o.isFinal } where
  answer := h.answer
  ended := h.ended
  done := h.done
  final := by simp [h.final]
  seqNums := by simp [Showing.push, h.seqNums]
  items := by simp [Showing.push, h.items]

theorem Alike.setDone (h : Alike s t) : Alike { s with done := true } { t with done := true } where
  answer := h.answer
  ended := h.ended
  done := rfl
  final := h.final
  seqNums := h.seqNums
  items := h.items

/-- The stream looks at the signals only where one of them may be new. -/
theorem Tracks.receive (h : Tracks s t) (a : Arrival) :
    Tracks (s.receive taskId a) (t.receive taskId a) := by
  cases h with
  | ended hanswer hended herrors =>
    rw [Submission.receive_of_answered hanswer, Showing.receive, if_pos hended]
    exact .ended hanswer hended herrors
  | waiting h hready =>
    have hsame : Tracks s t := .waiting h hready
    have hboth : (t.done && t.finalChunkReceived) = false := by rw [← h.ready, hready]
    rw [Submission.receive_of_waiting h.answer]
    simp only [Showing.receive, h.ended, Bool.false_eq_true, if_false]
    rcases a with ⟨elapsedMs, (e | o) | (e | u)⟩
    · exact h.fail _
    · by_cases hid : o.taskId = taskId
      · have hpush := (h.push o (some (s.firstChunkMs.getD elapsedMs))).settle taskId elapsedMs
        cases hfinal : o.isFinal with
        | true =>
          simp only [hfinal, Bool.or_true, Bool.and_true] at hpush
          simp only [Submission.take, hid, hfinal, if_true]
          exact hpush
        | false =>
          -- No new signal: the stream does not look, the other client finds one missing.
          have hboth' : ¬ (t.done = true ∧ t.finalChunkReceived = true) := by simpa using hboth
          simpa [Submission.take, hid, hfinal, Showing.push, hboth'] using hpush
      · simpa [Submission.take, hid, h.answer, hready] using hsame
    · exact h.fail _
    · by_cases hid : u.taskId = taskId
      · by_cases hdone : u.status = 3
        · have hset := h.setDone.settle taskId elapsedMs
          simpa [Submission.take, hid, hdone, h.ended] using hset
        · by_cases hfailed : u.status = 4
          · simpa [Submission.take, hid, hfailed] using h.fail (.taskFailed u.finishReason)
          · simpa [Submission.take, hid, hdone, hfailed, h.answer, hready] using hsame
      · simpa [Submission.take, hid, h.answer, hready] using hsame

theorem tracks_run (taskId : String) (arrivals : List Arrival) :
    Tracks (Submission.run taskId arrivals) (Showing.run taskId arrivals) := by
  induction arrivals using List.reverseRecOn with
  | nil => exact .waiting ⟨rfl, rfl, rfl, rfl, rfl, by simp [Showing.run, Showing.start]⟩ rfl
  | append_singleton arrivals a ih =>
    rw [Submission.run_concat, Showing.run, List.foldl_concat]
    exact ih.receive a

/-- Every error of the one is the error of the other. -/
theorem error_mem_submitStream (taskId : String) (write : Except DataSpaceError Unit)
    (arrivals : List Arrival) (e : ClientError) :
    .error e ∈ submitStream taskId write arrivals ↔ submit taskId write arrivals = .error e := by
  cases write with
  | error cause => simp [submitStream, submit, eq_comm]
  | ok _ =>
    simp only [submitStream, submit]
    cases tracks_run taskId arrivals with
    | waiting h _ => simp [h.ended, h.items e, h.answer, eq_comm]
    | ended hanswer hended herrors =>
      obtain ⟨answer, hsome⟩ := Option.ne_none_iff_exists'.mp hanswer
      simp [hended, herrors e, hsome]

/-! ### A completed attempt -/

/-- What an agent emits for the task before DONE. -/
structure Attempt where
  taskId : String
  agentId : String
  chunks : List TaskOutput
  own : ∀ c ∈ chunks, c.taskId = taskId ∧ c.agentId = agentId
  numbered : chunks.map seqNat = List.range chunks.length
  finalLast : ∀ c ∈ chunks, c.isFinal = true ↔ seqNat c + 1 = chunks.length
  nonempty : chunks ≠ []

/-- Some chunk does not arrive before the deadline, also not after an answer. -/
def Attempt.Lost (attempt : Attempt) (arrivals : List Arrival) : Prop :=
  ∃ c ∈ attempt.chunks, c ∉ received attempt.taskId arrivals

/-- When both signals are there, each number has come, and has come once. -/
def NumberedAtCut (taskId : String) (arrivals : List Arrival) : Prop :=
  ∀ before a after, arrivals = before ++ a :: after → Completes taskId before a →
    Numbered seqNat (received taskId (before ++ [a]))

/-- Only a lost chunk is reported as one. -/
def Attempt.Honest (attempt : Attempt) (arrivals : List Arrival)
    (reports : ClientError → Prop) : Prop :=
  ∀ expected got, reports (.incompleteStream attempt.taskId expected got) → attempt.Lost arrivals

theorem not_incomplete_iff (taskId : String) (arrivals : List Arrival) :
    (∀ expected got,
        submit taskId (.ok ()) arrivals ≠ .error (.incompleteStream taskId expected got)) ↔
      NumberedAtCut taskId arrivals := by
  have hiff := not_congr (Submission.incomplete_iff taskId arrivals)
  have hanswer : ∀ expected got,
      submit taskId (.ok ()) arrivals = .error (.incompleteStream taskId expected got) ↔
        (Submission.run taskId arrivals).answer =
          some (.error (.incompleteStream taskId expected got)) := by
    intro expected got
    rw [submit]
    cases (Submission.run taskId arrivals).answer <;> simp
  simp only [not_exists, not_and, not_not] at hiff
  simp only [ne_eq, hanswer, NumberedAtCut]
  exact hiff

/-- Both clients report a lost chunk only where one is lost, exactly if one is or if nothing
is out of place when both signals are there. -/
theorem incomplete_means_lost (attempt : Attempt) (arrivals : List Arrival) :
    (attempt.Honest arrivals (submit attempt.taskId (.ok ()) arrivals = .error ·) ↔
      attempt.Lost arrivals ∨ NumberedAtCut attempt.taskId arrivals) ∧
    (attempt.Honest arrivals (.error · ∈ submitStream attempt.taskId (.ok ()) arrivals) ↔
      attempt.Lost arrivals ∨ NumberedAtCut attempt.taskId arrivals) := by
  have hsubmit : attempt.Honest arrivals (submit attempt.taskId (.ok ()) arrivals = .error ·) ↔
      attempt.Lost arrivals ∨ NumberedAtCut attempt.taskId arrivals := by
    rw [← not_incomplete_iff]
    by_cases hlost : attempt.Lost arrivals
    · simp [Attempt.Honest, hlost]
    · simp [Attempt.Honest, hlost]
  refine ⟨hsubmit, ?_⟩
  simp only [error_mem_submitStream]
  exact hsubmit

def chunk (agentId : String) (seqNum : UInt32) (content : String) (isFinal : Bool) : TaskOutput :=
  { taskId := "t1", seqNum, content, isFinal, finishReason := if isFinal then 1 else 0, agentId
    tokenCount := 1, emittedAtNs := 0 }

def doneSample : Task :=
  { taskId := "t1", clientId := "c1", assignedAgent := "a2", targetAgent := "", modelRequired := 0
    modelName := "m", messagesJson := "[]", temperature := 0, maxTokens := 256, stream := true
    status := 3, priority := 0, createdAtNs := 0, assignedAtNs := 0, startedAtNs := 0
    completedAtNs := 0, deadlineNs := 0, retryCount := 0, finishReason := "COMPLETION"
    tSerializationNs := 0, tTransportSendNs := 0, tAgentQueueNs := 0, tInferenceNs := 0
    tTransportReturnNs := 0, tDeserializationNs := 0 }

def threeChunks : Attempt where
  taskId := "t1"
  agentId := "a2"
  chunks := [chunk "a2" 0 "x" false, chunk "a2" 1 "y" false, chunk "a2" 2 "z" true]
  own := by decide
  numbered := by decide
  finalLast := by decide
  nonempty := by decide

/-- One worker of the pool is slow with chunk 1, while the other writes the final chunk. -/
def lateChunk : List Arrival :=
  [⟨10, .output (.ok (chunk "a2" 0 "x" false))⟩, ⟨12, .output (.ok (chunk "a2" 2 "z" true))⟩,
    ⟨13, .status (.ok doneSample)⟩, ⟨14, .output (.ok (chunk "a2" 1 "y" false))⟩]

/-- All chunks come, none of them twice, and chunk 1 is reported as lost. -/
theorem late_chunk_reported_lost :
    ¬ threeChunks.Honest lateChunk (submit "t1" (.ok ()) lateChunk = .error ·) ∧
      ¬ threeChunks.Honest lateChunk (.error · ∈ submitStream "t1" (.ok ()) lateChunk) := by
  have hnotLost : ¬ threeChunks.Lost lateChunk := by
    rintro ⟨c, hc, hlost⟩
    revert c
    decide
  constructor
  · intro h
    exact hnotLost (h 1 2 rfl)
  · intro h
    exact hnotLost (h 1 2 (by decide))

/-- So is one that comes twice. -/
example : submit "t1" (.ok ())
    [⟨10, .output (.ok (chunk "a2" 0 "x" false))⟩, ⟨11, .output (.ok (chunk "a2" 0 "x" false))⟩,
      ⟨12, .output (.ok (chunk "a2" 1 "y" true))⟩, ⟨13, .status (.ok doneSample)⟩] =
    .error (.incompleteStream "t1" 1 0) := rfl

end DdsOrchestrator.Client
