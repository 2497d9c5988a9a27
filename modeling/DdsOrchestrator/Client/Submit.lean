import Mathlib.Data.List.Induction
import DdsOrchestrator.Lib.Machine
import DdsOrchestrator.Lib.Numbered
import DdsOrchestrator.Dataspace.WriterPool

/-!
How a client waits for the answer to a task it has submitted. The outputs and the states of
the task come over two channels, of which nothing says how they are interleaved, so the
client goes on until it has seen both DONE and a final output. Whether the outputs it has
by then are all there are it reads off their sequence numbers.
-/

namespace DdsOrchestrator.Client

open Dataspace (Task TaskOutput DataSpaceError)

inductive RecvError where
  | lagged (skipped : UInt64)
  | closed
  deriving DecidableEq

inductive ClientError where
  | timeout (taskId : String)
  | taskFailed (reason : String)
  | ddsError (text : String)
  | eventLagged (topic : String) (skipped : UInt64)
  | eventChannelClosed (topic : String)
  /-- A chunk of the stream is lost. -/
  | incompleteStream (taskId : String) (expected got : UInt32)
  deriving DecidableEq

structure TaskResult where
  taskId : String
  content : String
  success : Bool
  latencyMs : UInt64
  ttfcMs : UInt64
  tokensPrompt : UInt32
  tokensCompletion : UInt32
  deriving DecidableEq

def channelError (topic : String) : RecvError → ClientError
  | .lagged skipped => .eventLagged topic skipped
  | .closed => .eventChannelClosed topic

/-! ### The sequence numbers -/

/-- The first position from `idx` on at which the number is another one. -/
def gapFrom : ℕ → List UInt32 → Option (UInt32 × UInt32)
  | _, [] => none
  | idx, seq :: rest =>
    if seq ≠ UInt32.ofNat idx then some (UInt32.ofNat idx, seq) else gapFrom (idx + 1) rest

def seqGap (seqNums : List UInt32) : Option (UInt32 × UInt32) :=
  gapFrom 0 (seqNums.insertionSort (· ≤ ·))

example : seqGap [2, 0, 3, 1] = none := by decide
example : seqGap [0, 1, 3, 4] = some (2, 3) := by decide
example : seqGap [0, 1, 1] = some (2, 1) := by decide

/-- No position beyond the 32 bits of an index can pass: the numbers do not wrap. -/
theorem gapFrom_eq_none {idx : ℕ} {seqs : List UInt32} (hsorted : seqs.Pairwise (· ≤ ·))
    (hidx : idx ≤ UInt32.size) (hlow : ∀ s ∈ seqs, idx ≤ s.toNat + 1) :
    gapFrom idx seqs = none ↔ seqs.map UInt32.toNat = List.range' idx seqs.length := by
  induction seqs generalizing idx with
  | nil => simp [gapFrom]
  | cons seq rest ih =>
    obtain ⟨hhead, htail⟩ := List.pairwise_cons.mp hsorted
    have hseq := hlow seq List.mem_cons_self
    rw [gapFrom, List.map_cons, List.length_cons, List.range'_succ, List.cons.injEq]
    by_cases heq : seq = UInt32.ofNat idx
    -- At 2 ^ 32 the index wraps to zero, which no number from there on can be.
    · have hlt : idx < UInt32.size := by
        apply Nat.lt_of_le_of_ne hidx
        rintro rfl
        rw [heq] at hseq
        exact absurd hseq (by decide)
      have htoNat : seq.toNat = idx := by
        rw [heq, UInt32.toNat_ofNat']
        exact Nat.mod_eq_of_lt hlt
      -- The list is sorted, so the rest does not fall below.
      have hlow' : ∀ s ∈ rest, idx + 1 ≤ s.toNat + 1 := by
        intro s hs
        have hle := UInt32.le_iff_toNat_le.mp (hhead s hs)
        omega
      rw [if_neg (not_not.mpr heq), ih htail (by omega) hlow']
      simp [htoNat]
    · rw [if_pos heq]
      constructor
      · intro h
        cases h
      · rintro ⟨htoNat, -⟩
        exact absurd (by rw [← htoNat, UInt32.ofNat_toNat]) heq

theorem seqGap_eq_none {seqNums : List UInt32} :
    seqGap seqNums = none ↔ Numbered UInt32.toNat seqNums := by
  have hsorted := seqNums.pairwise_insertionSort (· ≤ ·)
  have hmap : ((seqNums.insertionSort (· ≤ ·)).map UInt32.toNat).Pairwise (· ≤ ·) := by
    rw [List.pairwise_map]
    exact hsorted.imp fun h => UInt32.le_iff_toNat_le.mp h
  rw [← numbered_congr (seqNums.perm_insertionSort (· ≤ ·)), numbered_iff_of_sorted hmap,
    List.range_eq_range']
  exact gapFrom_eq_none hsorted (Nat.zero_le _) fun s _ => Nat.zero_le _

theorem seqGap_perm {seqs seqs' : List UInt32} (h : seqs.Perm seqs') :
    seqGap seqs = seqGap seqs' := by
  have hsort : seqs.insertionSort (· ≤ ·) = seqs'.insertionSort (· ≤ ·) := by
    apply List.Perm.eq_of_pairwise (fun _ _ _ _ => UInt32.le_antisymm)
      (seqs.pairwise_insertionSort _) (seqs'.pairwise_insertionSort _)
    exact (seqs.perm_insertionSort _).trans (h.trans (seqs'.perm_insertionSort _).symm)
  rw [seqGap, hsort, seqGap]

abbrev seqNat (o : TaskOutput) : ℕ := o.seqNum.toNat

theorem seqGap_map_eq_none {chunks : List TaskOutput} :
    seqGap (chunks.map (·.seqNum)) = none ↔ Numbered seqNat chunks := by
  rw [seqGap_eq_none, Numbered, Numbered, List.map_map, List.length_map]
  rfl

/-! ### What arrives -/

inductive Event where
  | output (received : Except RecvError TaskOutput)
  | status (received : Except RecvError Task)

/-- What one of the channels gives, and how long after the start. -/
structure Arrival where
  elapsedMs : UInt64
  event : Event

def ownOutput (taskId : String) (a : Arrival) : Option TaskOutput :=
  match a.event with
  | .output (.ok o) => if o.taskId = taskId then some o else none
  | _ => none

def saysDone (taskId : String) (a : Arrival) : Bool :=
  match a.event with
  | .status (.ok t) => t.taskId = taskId ∧ t.status = 3
  | _ => false

/-- The task has failed, or a channel has. -/
def halts (taskId : String) (a : Arrival) : Bool :=
  match a.event with
  | .output (.ok _) => false
  | .status (.ok t) => t.taskId = taskId ∧ t.status = 4
  | _ => true

/-- The outputs of the task, in the order in which they have come. -/
def received (taskId : String) (arrivals : List Arrival) : List TaskOutput :=
  arrivals.filterMap (ownOutput taskId)

def Ready (taskId : String) (arrivals : List Arrival) : Prop :=
  (∃ a ∈ arrivals, saysDone taskId a) ∧ ∃ o ∈ received taskId arrivals, o.isFinal

/-- With `a` both signals are there for the first time, and nothing has failed before. -/
structure Completes (taskId : String) (before : List Arrival) (a : Arrival) : Prop where
  unbroken : ∀ b ∈ before ++ [a], halts taskId b = false
  ready : Ready taskId (before ++ [a])
  first : ¬ Ready taskId before

section
variable {taskId : String} {before arrivals : List Arrival} {a : Arrival}

@[simp] theorem received_nil : received taskId [] = [] := rfl

@[simp] theorem received_concat : received taskId (arrivals ++ [a]) =
    received taskId arrivals ++ (ownOutput taskId a).toList := by
  rw [received, received, List.filterMap_append, List.append_cancel_left_eq]
  cases h : ownOutput taskId a <;> simp [h]

theorem Ready.mono (h : Ready taskId before) : Ready taskId (before ++ [a]) := by
  obtain ⟨⟨b, hb, hdone⟩, o, ho, hfinal⟩ := h
  refine ⟨⟨b, List.mem_append_left _ hb, hdone⟩, o, ?_, hfinal⟩
  rw [received_concat]
  exact List.mem_append_left _ ho

end

/-! ### One answer -/

/-- What `submit` holds while it waits, and its answer. -/
structure Submission where
  chunks : List TaskOutput
  firstChunkMs : Option UInt64
  done : Bool
  answer : Option (Except ClientError TaskResult)

namespace Submission

def start : Submission :=
  { chunks := [], firstChunkMs := none, done := false, answer := none }

def take (taskId : String) (a : Arrival) (s : Submission) : Submission :=
  match a.event with
  | .output (.ok o) =>
    if o.taskId = taskId then
      { s with firstChunkMs := some (s.firstChunkMs.getD a.elapsedMs), chunks := s.chunks ++ [o] }
    else s
  | .output (.error e) => { s with answer := some (.error (channelError "TaskOutput" e)) }
  | .status (.ok t) =>
    if t.taskId = taskId then
      if t.status = 3 then { s with done := true }
      else if t.status = 4 then { s with answer := some (.error (.taskFailed t.finishReason)) }
      else s
    else s
  | .status (.error e) => { s with answer := some (.error (channelError "Tasks" e)) }

def ready (s : Submission) : Bool := s.done && s.chunks.any (·.isFinal)

/-- The gap check comes before any success is reported. -/
def conclude (taskId : String) (s : Submission) (elapsedMs : UInt64) (chunks : List TaskOutput) :
    Except ClientError TaskResult :=
  match seqGap (chunks.map (·.seqNum)) with
  | some (expected, got) => .error (.incompleteStream taskId expected got)
  | none =>
    .ok
      { taskId
        content := String.join (chunks.map (·.content))
        success := true
        latencyMs := elapsedMs
        ttfcMs := s.firstChunkMs.getD 0
        tokensPrompt := 0
        tokensCompletion := (chunks.getLast?.map (·.tokenCount)).getD 0 }

def finish (taskId : String) (elapsedMs : UInt64) (s : Submission) : Submission :=
  let chunks := s.chunks.insertionSort (·.seqNum ≤ ·.seqNum)
  { s with chunks, answer := some (conclude taskId s elapsedMs chunks) }

/-- One round of the loop. -/
def receive (taskId : String) (s : Submission) (a : Arrival) : Submission :=
  if s.answer.isSome then s
  else
    let s := s.take taskId a
    if s.answer.isNone && s.ready then s.finish taskId a.elapsedMs else s

def run (taskId : String) (arrivals : List Arrival) : Submission :=
  arrivals.foldl (receive taskId) start

variable {taskId : String} {arrivals before after : List Arrival} {a : Arrival} {s : Submission}

theorem take_answer (h : s.answer = none) :
    (s.take taskId a).answer = none ↔ halts taskId a = false := by
  rcases a with ⟨_, (e | o) | (e | t)⟩
  · simp [take, halts]
  · simp only [take, halts]
    split_ifs <;> simp [h]
  · simp [take, halts]
  · simp only [take, halts]
    split_ifs <;> simp [*]

theorem take_chunks : (s.take taskId a).chunks = s.chunks ++ (ownOutput taskId a).toList := by
  rcases a with ⟨_, (e | o) | (e | t)⟩
  · simp [take, ownOutput]
  · simp only [take, ownOutput]
    split_ifs <;> simp
  · simp [take, ownOutput]
  · simp only [take, ownOutput]
    split_ifs <;> simp

theorem take_done : (s.take taskId a).done = (s.done || saysDone taskId a) := by
  rcases a with ⟨_, (e | o) | (e | t)⟩
  · simp [take, saysDone]
  · simp only [take, saysDone]
    split_ifs <;> simp
  · simp [take, saysDone]
  · simp only [take, saysDone]
    split_ifs <;> simp [*]

/-- What an answer that has not been given yet says about the arrivals. -/
structure Waiting (taskId : String) (arrivals : List Arrival) (s : Submission) : Prop where
  answer : s.answer = none
  chunks : s.chunks = received taskId arrivals
  done : s.done = true ↔ ∃ a ∈ arrivals, saysDone taskId a

theorem Waiting.take (h : Waiting taskId arrivals s) (hhalts : halts taskId a = false) :
    Waiting taskId (arrivals ++ [a]) (s.take taskId a) where
  answer := (take_answer h.answer).mpr hhalts
  chunks := by rw [take_chunks, h.chunks, received_concat]
  done := by
    rw [take_done, Bool.or_eq_true, h.done]
    simp [or_and_right, exists_or]

theorem Waiting.ready_iff (h : Waiting taskId arrivals s) :
    s.ready = true ↔ Ready taskId arrivals := by
  rw [ready, Bool.and_eq_true, h.done, h.chunks, List.any_eq_true]
  rfl

@[simp] theorem run_concat :
    run taskId (arrivals ++ [a]) = (run taskId arrivals).receive taskId a := by
  simp [run]

theorem receive_of_answered (h : s.answer ≠ none) : s.receive taskId a = s := by
  rw [receive, if_pos (Option.isSome_iff_ne_none.mpr h)]

theorem receive_of_waiting (h : s.answer = none) :
    s.receive taskId a =
      if (s.take taskId a).answer.isNone && (s.take taskId a).ready then
        (s.take taskId a).finish taskId a.elapsedMs
      else s.take taskId a := by
  rw [receive, if_neg (by simp [h])]

/-- `submit` waits as long as nothing has failed and one of the signals is not there. -/
theorem waiting_of (hunbroken : ∀ b ∈ arrivals, halts taskId b = false)
    (hready : ¬ Ready taskId arrivals) : Waiting taskId arrivals (run taskId arrivals) := by
  induction arrivals using List.reverseRecOn with
  | nil =>
    constructor
    · rfl
    · rfl
    · simp [run, start]
  | append_singleton arrivals a ih =>
    have hbefore := ih (fun b hb => hunbroken b (List.mem_append_left _ hb))
      fun h => hready h.mono
    have htake := hbefore.take (hunbroken a (by simp))
    rw [run_concat, receive_of_waiting hbefore.answer, if_neg]
    · exact htake
    · rw [Bool.and_eq_true, htake.ready_iff]
      exact fun h => hready h.2

theorem foldl_of_answered (h : s.answer ≠ none) : after.foldl (receive taskId) s = s := by
  induction after with
  | nil => rfl
  | cons a after ih => rw [List.foldl_cons, receive_of_answered h, ih]

/-- The answer is given on what has come when both signals are there, whatever comes later. -/
theorem run_of_completes (h : Completes taskId before a) (after : List Arrival) :
    ∃ s, Waiting taskId (before ++ [a]) s ∧
      run taskId (before ++ a :: after) = s.finish taskId a.elapsedMs := by
  have hbefore := waiting_of (fun b hb => h.unbroken b (List.mem_append_left _ hb)) h.first
  have htake := hbefore.take (h.unbroken a (by simp))
  refine ⟨_, htake, ?_⟩
  have hreceive : (run taskId before).receive taskId a =
      ((run taskId before).take taskId a).finish taskId a.elapsedMs := by
    rw [receive_of_waiting hbefore.answer]
    apply if_pos
    rw [Bool.and_eq_true, htake.ready_iff]
    exact ⟨by simp [htake.answer], h.ready⟩
  rw [run, List.foldl_append, List.foldl_cons]
  show after.foldl (receive taskId) ((run taskId before).receive taskId a) = _
  rw [hreceive]
  exact foldl_of_answered (by simp [finish])

theorem take_of_halts (h : halts taskId a = true) :
    ∃ e, (s.take taskId a).answer = some (.error e) ∧
      ∀ id expected got, e ≠ .incompleteStream id expected got := by
  have hchannel : ∀ topic e id expected got,
      channelError topic e ≠ .incompleteStream id expected got := by
    intro topic e id expected got
    cases e <;> simp [channelError]
  rcases a with ⟨_, (e | o) | (e | t)⟩
  · exact ⟨_, rfl, hchannel _ e⟩
  · cases h
  · exact ⟨_, rfl, hchannel _ e⟩
  · simp only [halts, Bool.decide_and, Bool.and_eq_true, decide_eq_true_eq] at h
    refine ⟨.taskFailed t.finishReason, ?_, fun _ _ _ => ClientError.noConfusion⟩
    simp [take, h.1, h.2]

/-- Any answer but the two that look at the sequence numbers is the failure of something. -/
theorem run_cases (taskId : String) (arrivals : List Arrival) :
    (∃ before a after, arrivals = before ++ a :: after ∧ Completes taskId before a) ∨
      ((∀ b ∈ arrivals, halts taskId b = false) ∧ ¬ Ready taskId arrivals) ∨
      ∃ e, (run taskId arrivals).answer = some (.error e) ∧
        ∀ id expected got, e ≠ .incompleteStream id expected got := by
  induction arrivals using List.reverseRecOn with
  | nil =>
    refine .inr (.inl ⟨by simp, ?_⟩)
    rintro ⟨⟨a, ha, -⟩, -⟩
    cases ha
  | append_singleton arrivals a ih =>
    obtain ⟨before, b, after, rfl, hc⟩ | ⟨hunbroken, hready⟩ | ⟨e, he, hne⟩ := ih
    · exact .inl ⟨before, b, after ++ [a], by simp, hc⟩
    -- Still waiting: what `a` is decides how it goes on.
    · have hwaiting := waiting_of hunbroken hready
      cases hhalts : halts taskId a with
      | true =>
        obtain ⟨e, he, hne⟩ := take_of_halts (s := run taskId arrivals) hhalts
        refine .inr (.inr ⟨e, ?_, hne⟩)
        rw [run_concat, receive_of_waiting hwaiting.answer, if_neg (by simp [he]), he]
      | false =>
        have hunbroken' : ∀ b ∈ arrivals ++ [a], halts taskId b = false := by
          simpa [or_imp, forall_and, hhalts] using hunbroken
        by_cases hready' : Ready taskId (arrivals ++ [a])
        · exact .inl ⟨arrivals, a, [], rfl, hunbroken', hready', hready⟩
        · exact .inr (.inl ⟨hunbroken', hready'⟩)
    · refine .inr (.inr ⟨e, ?_, hne⟩)
      rw [run_concat, receive_of_answered (by simp [he]), he]

theorem sorted_chunks (chunks : List TaskOutput) :
    ((chunks.insertionSort (·.seqNum ≤ ·.seqNum)).map seqNat).Pairwise (· ≤ ·) := by
  have : Std.Total fun a b : TaskOutput => a.seqNum ≤ b.seqNum := ⟨fun _ _ => UInt32.le_total _ _⟩
  have : IsTrans TaskOutput fun a b => a.seqNum ≤ b.seqNum := ⟨fun _ _ _ => UInt32.le_trans⟩
  rw [List.pairwise_map]
  exact (chunks.pairwise_insertionSort _).imp fun h => UInt32.le_iff_toNat_le.mp h

theorem seqGap_insertionSort (chunks : List TaskOutput) :
    seqGap ((chunks.insertionSort (·.seqNum ≤ ·.seqNum)).map (·.seqNum)) =
      seqGap (chunks.map (·.seqNum)) :=
  seqGap_perm ((chunks.perm_insertionSort _).map _)

/-- Both answers are read off the sequence numbers of what has come. -/
theorem finish_answer (taskId : String) (elapsedMs : UInt64) (s : Submission) :
    (s.finish taskId elapsedMs).answer =
      some (conclude taskId s elapsedMs (s.chunks.insertionSort (·.seqNum ≤ ·.seqNum))) := rfl

theorem conclude_incomplete_iff {elapsedMs : UInt64} {expected got : UInt32}
    {chunks : List TaskOutput} :
    conclude taskId s elapsedMs chunks = .error (.incompleteStream taskId expected got) ↔
      seqGap (chunks.map (·.seqNum)) = some (expected, got) := by
  rw [conclude]
  cases hgap : seqGap (chunks.map (·.seqNum)) with
  | none => simp
  | some gap => simp [Prod.ext_iff]

theorem incomplete_iff (taskId : String) (arrivals : List Arrival) :
    (∃ expected got, (run taskId arrivals).answer =
        some (.error (.incompleteStream taskId expected got))) ↔
      ∃ before a after, arrivals = before ++ a :: after ∧ Completes taskId before a ∧
        ¬ Numbered seqNat (received taskId (before ++ [a])) := by
  have hcut : ∀ {before a after}, Completes taskId before a →
      ((∃ expected got, (run taskId (before ++ a :: after)).answer =
          some (.error (.incompleteStream taskId expected got))) ↔
        ¬ Numbered seqNat (received taskId (before ++ [a]))) := by
    intro before a after hc
    obtain ⟨s, hs, hrun⟩ := run_of_completes hc after
    rw [hrun, finish_answer, ← hs.chunks, ← seqGap_map_eq_none]
    simp only [Option.some_inj, conclude_incomplete_iff, seqGap_insertionSort]
    rw [Option.eq_none_iff_forall_ne_some]
    simp
  constructor
  · rintro ⟨expected, got, hanswer⟩
    obtain ⟨before, a, after, rfl, hc⟩ | ⟨hunbroken, hready⟩ | ⟨e, he, hne⟩ :=
      run_cases taskId arrivals
    · exact ⟨before, a, after, rfl, hc, (hcut hc).mp ⟨expected, got, hanswer⟩⟩
    · rw [(waiting_of hunbroken hready).answer] at hanswer
      cases hanswer
    · rw [he] at hanswer
      cases hanswer
      exact absurd rfl (hne taskId expected got)
  · rintro ⟨before, a, after, rfl, hc, hgap⟩
    exact (hcut hc).mpr hgap

/-- Success means no gap in what had come when both signals were there. -/
theorem ok_cases {r : TaskResult} (h : (run taskId arrivals).answer = some (.ok r)) :
    ∃ before a after s, arrivals = before ++ a :: after ∧ Completes taskId before a ∧
      Waiting taskId (before ++ [a]) s ∧ run taskId arrivals = s.finish taskId a.elapsedMs ∧
      Numbered seqNat s.chunks ∧
      r.content = String.join ((run taskId arrivals).chunks.map (·.content)) := by
  obtain ⟨before, a, after, rfl, hc⟩ | ⟨hunbroken, hready⟩ | ⟨e, he, -⟩ :=
    run_cases taskId arrivals
  · obtain ⟨s, hs, hrun⟩ := run_of_completes hc after
    rw [hrun, finish_answer, Option.some_inj, conclude, seqGap_insertionSort] at h
    cases hgap : seqGap (s.chunks.map (·.seqNum)) with
    | some gap =>
      rw [hgap] at h
      cases h
    | none =>
      rw [hgap] at h
      cases h
      exact ⟨before, a, after, s, rfl, hc, hs, hrun, seqGap_map_eq_none.mp hgap, by rw [hrun]; rfl⟩
  · rw [(waiting_of hunbroken hready).answer] at h
    cases h
  · rw [he] at h
    cases h

end Submission

/-- All that arrives before the deadline is in the list, also what comes after the answer. -/
def submit (taskId : String) (write : Except DataSpaceError Unit) (arrivals : List Arrival) :
    Except ClientError TaskResult :=
  match write with
  | .error e => .error (.ddsError e.text)
  | .ok () => ((Submission.run taskId arrivals).answer).getD (.error (.timeout taskId))

end DdsOrchestrator.Client
