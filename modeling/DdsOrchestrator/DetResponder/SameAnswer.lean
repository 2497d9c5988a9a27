import DdsOrchestrator.Lib.JsonText
import DdsOrchestrator.Agent.EngineStream
import DdsOrchestrator.Client.Answer
import DdsOrchestrator.DetResponder.Answers
import DdsOrchestrator.DetResponder.Pipeline

/-!
A task has one answer. Every output that any attempt publishes for a task is one of the two
halves of the text that its messages give, and its number says which. So however often a task
is attempted, and however what the attempts publish is interleaved, lost or delivered twice, a
client that gets a success gets this text.
-/

namespace DdsOrchestrator.DetResponder

open Agent (Chunk DdsEngine EngineError InferRequest Publisher Move chunkOutput)
open Agent.DdsEngine (Inference chunkOf)
open Client (Arrival RecvError TaskResult received seqNat submit)
open Dataspace (Task TaskOutput LLMInferenceRequest LLMInferenceResult WriteRequest WriterPool)

/-! ### Request ids -/

/-- The task can be read off the id, whatever is in its own one. -/
theorem taskId_eq_of_requestId {t t' : Task} (h : requestId t = requestId t') :
    t.taskId = t'.taskId := by
  have hlist := congrArg (List.reverse ∘ String.toList) h
  simp only [requestId, Function.comp_apply, String.toList_append, List.reverse_append,
    String.reduceToList, List.reverse_cons, List.reverse_nil, List.nil_append,
    List.singleton_append] at hlist
  have hdigits : ∀ n : ℕ, ∀ ch ∈ (toString n).toList.reverse, ch.isDigit := fun n ch hch =>
    Json.isDigit_of_mem_toString (List.mem_reverse.mp hch)
  obtain ⟨-, hrest⟩ := Json.digits_append_inj (by decide) (by decide) (hdigits _) (hdigits _) hlist
  exact String.toList_inj.mp (List.reverse_inj.mp (List.cons.inj hrest).2)

/-! ### Halves -/

/-- One half of the answer to the task. -/
def Half (c : Config) (t : Task) (seqNum : UInt32) (content : String) (isFinal : Bool) : Prop :=
  ∃ p, parse c.fromStr t.messagesJson = .ok p ∧ seqNum = (if isFinal then 1 else 0) ∧
    content = if isFinal then secondHalf p.content else firstHalf p.content

variable {c : Config} {submitted : String → Task} {w : World} {n : ℕ}

/-- The request is that of an attempt at a task. -/
def Asked (submitted : String → Task) (request : LLMInferenceRequest) : Prop :=
  ∃ t : Task, request.requestId = requestId t ∧
    request.messagesJson = (submitted t.taskId).messagesJson

def ResultRight (c : Config) (submitted : String → Task) (r : LLMInferenceResult) : Prop :=
  ∃ t : Task, r.requestId = requestId t ∧
    Half c (submitted t.taskId) r.seqNum r.content r.isFinal

def OutputRight (c : Config) (submitted : String → Task) (o : TaskOutput) : Prop :=
  Half c (submitted o.taskId) o.seqNum o.content o.isFinal

/-- The results of the responder are halves. -/
theorem resultRight_of_published {s : Responder} (h : Responder.Inv c s)
    (hasked : ∀ j ∈ s.jobs, Asked submitted j.request) {r : LLMInferenceResult}
    (hr : r ∈ s.results) : ResultRight c submitted r := by
  obtain ⟨⟨i, p⟩, hp, hresult⟩ := List.mem_filterMap.mp hr
  cases p with
  | error e => cases hresult
  | result r' =>
      obtain rfl : r' = r := Option.some.inj hresult
      have hlt : i < s.jobs.length := h.stories.fresh _ hp
      obtain ⟨j, hj⟩ : ∃ j, s.jobs[i]? = some j := ⟨_, List.getElem?_eq_getElem hlt⟩
      have hmem : Publication.result r' ∈ publicationsOf i s.published :=
        List.mem_map.mpr ⟨(i, .result r'), List.mem_filter.mpr ⟨hp, by simp⟩, rfl⟩
      obtain ⟨q, emittedNs, first, hadmitted, rfl⟩ := Story.result (h.stories.story i j hj) hmem
      obtain ⟨t, hid, hmessages⟩ := hasked j (List.mem_of_getElem? hj)
      refine ⟨t, hid, q, hmessages ▸ hadmitted.parsed, ?_⟩
      cases first <;> exact ⟨rfl, rfl⟩

/-! ### The engine -/

/-- The results that the stream may still come to. -/
def ahead (s : Inference) : List LLMInferenceResult := s.batch ++ s.results

/-- A step of the engine: what is ahead of the stream was so before or has arrived, a chunk that
is new was ahead of it and is of the request, and a request that is sent is that of the step. -/
structure Goes (engine : DdsEngine) (req : InferRequest) (e : DdsEngine.Event)
    (s s' : Inference) : Prop where
  ahead : ∀ r ∈ ahead s', r ∈ ahead s ∨ e = .result r
  items : ∀ ch, .ok ch ∈ s'.items → .ok ch ∈ s.items ∨
    ∃ r ∈ DetResponder.ahead s, r.requestId = req.requestId ∧ ch = chunkOf r
  sent : ∀ q, s'.sent = some q → s.sent = some q ∨ ∃ nowNs, q = engine.request nowNs req

variable {engine : DdsEngine} {req : InferRequest} {e : DdsEngine.Event} {s s' : Inference}

theorem goes_of_same (hahead : ∀ r ∈ ahead s', r ∈ ahead s) (hitems : s'.items = s.items)
    (hsent : s'.sent = s.sent) : Goes engine req e s s' :=
  ⟨fun r hr => .inl (hahead r hr), fun _ hch => .inl (hitems ▸ hch), fun _ hq => .inl (hsent ▸ hq)⟩

theorem goes_fail (err : EngineError) : Goes engine req e s (s.fail err) where
  ahead := fun r hr => .inl (List.mem_append_right _ hr)
  items := by
    intro ch hch
    rcases List.mem_append.mp hch with hold | hnew
    · exact .inl hold
    · cases List.mem_singleton.mp hnew
  sent := fun q hq => .inl hq

theorem goes_next : Goes engine req .next s (s.step engine req .next) := by
  dsimp only [Inference.step]
  split
  next hstage =>
    exact goes_of_same (fun r hr => List.mem_append_right _ hr) rfl rfl
  next r more hstage =>
    have hbatch : s.batch = r :: more := by rw [Inference.batch, hstage]
    have hmem : r ∈ ahead s := by
      rw [ahead, hbatch]
      exact List.mem_append_left _ List.mem_cons_self
    have hmore : ∀ q ∈ more ++ s.results, q ∈ ahead s := by
      intro q hq
      rw [ahead, hbatch, List.cons_append]
      exact List.mem_cons_of_mem r hq
    split
    next hmine =>
      refine ⟨fun q hq => .inl ?_, fun ch hch => ?_, fun q hq => .inl hq⟩
      · cases hr : r.isFinal with
        | true =>
            simp only [ahead, Inference.batch, hr, if_true, List.nil_append] at hq
            exact List.mem_append_right _ hq
        | false =>
            simp only [ahead, Inference.batch, hr, Bool.false_eq_true, if_false] at hq
            exact hmore q hq
      · rcases List.mem_append.mp hch with hold | hnew
        · exact .inl hold
        · obtain rfl : ch = chunkOf r := Except.ok.inj (List.mem_singleton.mp hnew)
          exact .inr ⟨r, hmem, hmine, rfl⟩
    next => exact goes_of_same hmore rfl rfl
  next => exact goes_of_same (fun r hr => hr) rfl rfl

theorem goes_step (engine : DdsEngine) (req : InferRequest) (e : DdsEngine.Event) (s : Inference) :
    Goes engine req e s (s.step engine req e) := by
  have hsame : Goes engine req e s s := goes_of_same (fun r hr => hr) rfl rfl
  cases e with
  | next => exact goes_next
  | opened fault =>
      dsimp only [Inference.step]
      split
      · exact goes_of_same (fun r hr => List.mem_append_right _ hr) rfl rfl
      · exact goes_fail _
      · exact hsame
  | send nowNs fault =>
      dsimp only [Inference.step]
      split
      · refine ⟨fun r hr => .inl (List.mem_append_right _ hr), fun ch hch => .inl hch,
          fun q hq => .inr ⟨nowNs, (Option.some.inj hq).symm⟩⟩
      · exact goes_fail _
      · exact hsame
  | result r =>
      dsimp only [Inference.step]
      split
      · refine ⟨fun q hq => ?_, fun ch hch => .inl hch, fun q hq => .inl hq⟩
        have hlast : (Retained.lastOf DdsEngine.llmResultHistoryDepth (s.results ++ [r])).Sublist
            (s.results ++ [r]) := List.drop_sublist _ _
        simp only [ahead, Inference.batch] at hq ⊢
        rcases List.mem_append.mp hq with hbatch | hresults
        · exact .inl (List.mem_append_left _ hbatch)
        · rcases List.mem_append.mp (hlast.subset hresults) with hold | hnew
          · exact .inl (List.mem_append_right _ hold)
          · rw [List.mem_singleton.mp hnew]
            exact .inr rfl
      · exact hsame
  | error err =>
      dsimp only [Inference.step]
      split
      · exact goes_of_same (fun r hr => hr) rfl rfl
      · exact hsame
  | takeResults k =>
      dsimp only [Inference.step]
      split
      · refine goes_of_same (fun r hr => List.mem_append_right _ ?_) rfl rfl
        rcases List.mem_append.mp hr with htaken | hleft
        · exact List.mem_of_mem_take htaken
        · exact List.mem_of_mem_drop hleft
      · exact hsame
  | takeErrors k =>
      dsimp only [Inference.step]
      split
      · split
        next err _ =>
          have hfail : Goes engine req (.takeErrors k) { s with errors := s.errors.drop k }
              (({ s with errors := s.errors.drop k } : Inference).fail (DdsEngine.failure err)) :=
            goes_fail _
          exact ⟨hfail.ahead, hfail.items, hfail.sent⟩
        · exact goes_of_same (fun r hr => hr) rfl rfl
      · exact hsame
  | resultsFail text | errorsFail text =>
      dsimp only [Inference.step]
      split
      · exact goes_fail _
      · exact hsame
  | resultsEnd =>
      dsimp only [Inference.step]
      split
      · exact goes_of_same (fun r hr => List.mem_append_right _ hr) rfl rfl
      · exact hsame
  | timeout =>
      dsimp only [Inference.step]
      split
      · exact goes_fail _
      · exact hsame

/-! ### The publisher -/

/-- The output waits in the pool or is in the hands of a worker. -/
def Pooled (pool : WriterPool) (o : TaskOutput) : Prop :=
  (∃ r ∈ pool.queue, outputOf r = some o) ∨
    ∃ k r, pool.workers k = .writing r ∧ outputOf r = some o

variable {pool : WriterPool} {o : TaskOutput}

theorem pooled_submit {connected : Bool} {r : WriteRequest}
    (h : Pooled (pool.submit connected r).2 o) : Pooled pool o ∨ outputOf r = some o := by
  unfold WriterPool.submit at h
  dsimp only at h
  split_ifs at h
  · rcases h with ⟨q, hq, ho⟩ | hworker
    · rcases List.mem_append.mp hq with hold | hnew
      · exact .inl (.inl ⟨q, hold, ho⟩)
      · rw [List.mem_singleton.mp hnew] at ho
        exact .inr ho
    · exact .inl (.inr hworker)
  · exact .inl h
  · exact .inl h

/-- A worker that does not write afterwards. -/
theorem pooled_setWorker {k : ℕ} {worker : Dataspace.Worker} (hnot : ∀ r, worker ≠ .writing r)
    (h : Pooled (pool.setWorker k worker) o) : Pooled pool o := by
  rcases h with hqueue | ⟨m, r, hm, ho⟩
  · exact .inl hqueue
  · dsimp only [WriterPool.setWorker] at hm
    by_cases hmk : m = k
    · rw [hmk, Function.update_self] at hm
      exact absurd hm (hnot r)
    · rw [Function.update_of_ne hmk] at hm
      exact .inr ⟨m, r, hm, ho⟩

theorem pooled_take {k : ℕ} (h : Pooled (pool.take k) o) : Pooled pool o := by
  unfold WriterPool.take at h
  split at h
  next r rest _ hqueue =>
    rcases h with ⟨q, hq, ho⟩ | ⟨m, q, hm, ho⟩
    · exact .inl ⟨q, hqueue ▸ List.mem_cons_of_mem r hq, ho⟩
    · dsimp only [WriterPool.setWorker] at hm
      by_cases hmk : m = k
      · rw [hmk, Function.update_self] at hm
        rw [← Dataspace.Worker.writing.inj hm] at ho
        exact .inl ⟨r, hqueue ▸ List.mem_cons_self, ho⟩
      · rw [Function.update_of_ne hmk] at hm
        exact .inr ⟨m, q, hm, ho⟩
  next => exact h

theorem pooled_count {result : Except Dataspace.DataSpaceError Unit}
    (h : Pooled (pool.count result) o) : Pooled pool o := by
  cases result <;> exact h

theorem pooled_write {k : ℕ} {result : Except Dataspace.DataSpaceError Unit}
    (h : Pooled (pool.write k result) o) : Pooled pool o := by
  unfold WriterPool.write at h
  split at h
  · exact pooled_setWorker (fun r hr => (by cases hr)) h
  · exact pooled_count (pooled_setWorker (fun r hr => (by cases hr)) h)
  · exact h

theorem pooled_ack {k : ℕ} (h : Pooled (pool.ack k) o) : Pooled pool o := by
  unfold WriterPool.ack at h
  split at h
  next result _ =>
    have hidle : Pooled ((pool.count result).setWorker k .idle) o := h
    exact pooled_count (pooled_setWorker (fun r hr => (by cases hr)) hidle)
  next => exact h

theorem pooled_crash {k : ℕ} (h : Pooled (pool.crash k) o) : Pooled pool o := by
  have hcrashed : Pooled (pool.setWorker k .crashed) o := by
    unfold WriterPool.crash at h
    split at h <;> exact h
  exact pooled_setWorker (fun r hr => (by cases hr)) hcrashed

theorem pooled_submitChunk {j : Agent.Job} {p : Publisher} {position : ℕ} {finalAck : Option ℕ}
    {ch : Chunk} {nowNs elapsedNs : UInt64} {connected : Bool}
    (h : Pooled (p.submitChunk j position finalAck ch nowNs elapsedNs connected).pool o) :
    Pooled p.pool o ∨ o = chunkOutput j.task.taskId j.agentId nowNs ch := by
  have hsubmit : ∀ request, outputOf request = some (chunkOutput j.task.taskId j.agentId nowNs ch) →
      Pooled (p.pool.submit connected request).2 o →
      Pooled p.pool o ∨ o = chunkOutput j.task.taskId j.agentId nowNs ch := by
    intro request hrequest hpooled
    rcases pooled_submit hpooled with hold | hnew
    · exact .inl hold
    · exact .inr (Option.some.inj (hnew.symm.trans hrequest))
  unfold Publisher.submitChunk at h
  dsimp only at h
  cases hfinal : ch.isFinal with
  | true =>
      simp only [hfinal, if_true] at h
      refine hsubmit (.outputAck position _) rfl ?_
      split at h <;> rwa [‹p.pool.submit connected _ = _›]
  | false =>
      simp only [hfinal, Bool.false_eq_true, if_false] at h
      refine hsubmit (.output position _) rfl ?_
      split at h <;> rwa [‹p.pool.submit connected _ = _›]

/-- What the publisher hands to the pool is of a chunk of its stream. -/
theorem pooled_step {j : Agent.Job} {p : Publisher} {m : Move} (h : Pooled (p.step j m).pool o) :
    Pooled p.pool o ∨ ∃ ch nowNs, .ok ch ∈ j.stream ∧
      o = chunkOutput j.task.taskId j.agentId nowNs ch := by
  cases m with
  | running nowNs result =>
      dsimp only [Publisher.step] at h
      split at h
      · split at h <;> exact .inl h
      · exact .inl h
  | abort nowNs =>
      dsimp only [Publisher.step] at h
      split at h <;> exact .inl h
  | next nowNs elapsedNs connected =>
      dsimp only [Publisher.step] at h
      split at h
      next position finalAck _ =>
        split at h
        next ch hch =>
          rcases pooled_submitChunk h with hold | hnew
          · exact .inl hold
          · exact .inr ⟨ch, nowNs, List.mem_of_getElem? hch, hnew⟩
        · exact .inl h
        · unfold Publisher.endStream at h
          dsimp only at h
          split at h <;> exact .inl h
      · exact .inl h
  | wait elapsed =>
      dsimp only [Publisher.step] at h
      split at h
      · split at h <;> exact .inl h
      · exact .inl h
  | close result =>
      dsimp only [Publisher.step] at h
      split at h <;> exact .inl h
  | ensure again =>
      dsimp only [Publisher.step] at h
      split at h
      · split at h <;> exact .inl h
      · exact .inl h
  | submitOther connected =>
      rcases pooled_submit h with hold | hnew
      · exact .inl hold
      · cases hnew
  | take k => exact .inl (pooled_take h)
  | write k result =>
      dsimp only [Publisher.step] at h
      split at h <;> exact .inl (pooled_write h)
  | ack k => exact .inl (pooled_ack h)
  | crash k => exact .inl (pooled_crash h)

theorem pooled_of_written {p : Publisher} {m : Move} (h : written p m = some o) :
    Pooled p.pool o := by
  unfold written at h
  split at h
  · split at h
    next r hk => exact .inr ⟨_, r, hk, h⟩
    next => cases h
  · cases h

/-! ### The whole way -/

/-- A request of the responder has been there before, or it is the one that arrives. -/
theorem request_of_step {s : Responder} {event : Event} {j : Job} (hj : j ∈ (s.step c event).jobs) :
    (∃ j' ∈ s.jobs, j.request = j'.request) ∨
      ∃ request arrivalNs, event = .receive request arrivalNs ∧ j.request = request := by
  have hset : ∀ {i : ℕ} {b : Job} {stage : Stage}, s.jobs[i]? = some b →
      j ∈ s.jobs.set i { b with stage } → ∃ j' ∈ s.jobs, j.request = j'.request := by
    intro i b stage hi hmem
    rcases List.mem_or_eq_of_mem_set hmem with hold | rfl
    · exact ⟨j, hold, rfl⟩
    · exact ⟨b, List.mem_of_getElem? hi, rfl⟩
  have hsame : j ∈ s.jobs → ∃ j' ∈ s.jobs, j.request = j'.request := fun hold => ⟨j, hold, rfl⟩
  cases event with
  | receive request arrivalNs =>
      have hconcat : ∀ d : Job, d.request = request → j ∈ s.jobs ++ [d] →
          (∃ j' ∈ s.jobs, j.request = j'.request) ∨ j.request = request := by
        intro d hrequest hmem
        rcases List.mem_append.mp hmem with hold | hnew
        · exact .inl ⟨j, hold, rfl⟩
        · exact .inr (by rw [List.mem_singleton.mp hnew, hrequest])
      dsimp only [Responder.step] at hj
      have hcase : (∃ j' ∈ s.jobs, j.request = j'.request) ∨ j.request = request := by
        split_ifs at hj
        · unfold Responder.receive at hj
          dsimp only at hj
          split_ifs at hj
          · exact hconcat _ rfl hj
          · exact hconcat _ rfl hj
        · exact .inl (hsame hj)
      exact hcase.imp id fun hrequest => ⟨request, arrivalNs, rfl, hrequest⟩
  | take =>
      left
      dsimp only [Responder.step, Responder.take] at hj
      split at hj
      · exact hsame hj
      · split at hj
        next hi _ => exact hset hi hj
        next => exact hsame hj
  | work i io =>
      left
      dsimp only [Responder.step] at hj
      split at hj
      next b hi =>
        obtain ⟨stage, hjobs, -⟩ := Responder.jobs_advance (c := c) hi io
        rw [hjobs] at hj
        exact hset hi hj
      next => exact hsame hj
  | stop =>
      left
      dsimp only [Responder.step] at hj
      split_ifs at hj <;> exact hsame hj

/-- All that is on the way in an attempt are halves. -/
structure Attempt.Right (c : Config) (submitted : String → Task) (a : Attempt) : Prop where
  task : a.task.messagesJson = (submitted a.task.taskId).messagesJson
  sent : ∀ q, a.inference.sent = some q → Asked submitted q
  ahead : ∀ r ∈ ahead a.inference, ResultRight c submitted r
  items : ∀ ch, .ok ch ∈ a.inference.items →
    Half c (submitted a.task.taskId) ch.seqNum ch.content ch.isFinal
  pool : ∀ o, Pooled a.publisher.pool o → OutputRight c submitted o

theorem Attempt.Right.infer {a : Attempt} (h : a.Right c submitted) {event : DdsEngine.Event}
    (hresult : ∀ r, event = .result r → ResultRight c submitted r) :
    Right c submitted { a with inference := a.inference.step a.engine a.inferRequest event } := by
  have hgoes := goes_step a.engine a.inferRequest event a.inference
  refine ⟨h.task, fun q hq => ?_, fun r hr => ?_, fun ch hch => ?_, h.pool⟩
  · rcases hgoes.sent q hq with hold | ⟨nowNs, rfl⟩
    · exact h.sent q hold
    · exact ⟨a.task, rfl, h.task⟩
  · exact (hgoes.ahead r hr).elim (h.ahead r) (hresult r)
  · rcases hgoes.items ch hch with hold | ⟨r, hr, hmine, rfl⟩
    · exact h.items ch hold
    · obtain ⟨t, hid, hhalf⟩ := h.ahead r hr
      have htask : t.taskId = a.task.taskId := taskId_eq_of_requestId (hid.symm.trans hmine)
      rw [htask] at hhalf
      exact hhalf

theorem Attempt.Right.publish {a : Attempt} (h : a.Right c submitted) (m : Move) :
    Right c submitted { a with publisher := a.publisher.step a.job m } := by
  refine ⟨h.task, h.sent, h.ahead, h.items, fun o ho => ?_⟩
  rcases pooled_step ho with hold | ⟨ch, nowNs, hch, rfl⟩
  · exact h.pool o hold
  · exact h.items ch hch

/-- All that is on the way of any task are halves. -/
structure World.Right (c : Config) (submitted : String → Task) (w : World) : Prop where
  responder : Responder.Inv c w.responder
  asked : ∀ j ∈ w.responder.jobs, Asked submitted j.request
  attempts : ∀ a ∈ w.attempts, a.Right c submitted
  outputs : ∀ o ∈ w.outputs, OutputRight c submitted o
  arrivals : ∀ a ∈ w.arrivals, ∀ o, a.event = .output (.ok o) → OutputRight c submitted o

namespace World

theorem right_start (c : Config) (submitted : String → Task) : (start c).Right c submitted where
  responder := Responder.inv_start c
  asked := fun j hj => (by cases hj)
  attempts := fun a ha => (by cases ha)
  outputs := fun o ho => (by cases ho)
  arrivals := fun a ha => (by cases ha)

theorem mem_set_right {attempts : List Attempt} {P : Attempt → Prop} (h : ∀ a ∈ attempts, P a)
    {b : Attempt} (hb : P b) : ∀ a ∈ attempts.set n b, P a := by
  intro a ha
  rcases List.mem_or_eq_of_mem_set ha with hold | rfl
  · exact h a hold
  · exact hb

theorem Right.infer (h : w.Right c submitted) (n : ℕ) {event : DdsEngine.Event}
    (hresult : ∀ r, event = .result r → ResultRight c submitted r) :
    (w.infer n event).Right c submitted := by
  unfold World.infer
  split
  next a ha =>
    have hright := (h.attempts a (List.mem_of_getElem? ha)).infer hresult
    exact ⟨h.responder, h.asked, mem_set_right h.attempts hright, h.outputs, h.arrivals⟩
  next => exact h

theorem Right.publish (h : w.Right c submitted) (n : ℕ) (m : Move) :
    (w.publish n m).Right c submitted := by
  unfold World.publish
  split
  next a ha =>
    split_ifs
    · have hright := h.attempts a (List.mem_of_getElem? ha)
      refine ⟨h.responder, h.asked, mem_set_right h.attempts (hright.publish m), fun o ho => ?_,
        h.arrivals⟩
      rcases List.mem_append.mp ho with hold | hnew
      · exact h.outputs o hold
      · exact hright.pool o (pooled_of_written (Option.mem_toList.mp hnew))
    · exact h
  next => exact h

theorem Right.serve (h : w.Right c submitted) {event : Event}
    (hasked : ∀ request arrivalNs, event = .receive request arrivalNs → Asked submitted request) :
    Right c submitted { w with responder := w.responder.step c event } := by
  refine ⟨h.responder.step event, fun j hj => ?_, h.attempts, h.outputs, h.arrivals⟩
  rcases request_of_step hj with ⟨j', hj', hrequest⟩ | ⟨request, arrivalNs, heq, hrequest⟩
  · rw [hrequest]
    exact h.asked j' hj'
  · rw [hrequest]
    exact hasked request arrivalNs heq

theorem Right.arrive (h : w.Right c submitted) (elapsedMs : UInt64) {event : Client.Event}
    (hevent : ∀ o, event = .output (.ok o) → OutputRight c submitted o) :
    (w.arrive elapsedMs event).Right c submitted := by
  refine ⟨h.responder, h.asked, h.attempts, h.outputs, fun a ha o ho => ?_⟩
  rcases List.mem_append.mp ha with hold | hnew
  · exact h.arrivals a hold o ho
  · rw [List.mem_singleton.mp hnew] at ho
    exact hevent o ho

theorem Right.step (h : w.Right c submitted) (happening : Happening) :
    (w.step c submitted happening).Right c submitted := by
  cases happening with
  | attempt engine taskId retryCount assignedAtNs timeoutMs capacity ensureTerminal =>
      refine ⟨h.responder, h.asked, fun a ha => ?_, h.outputs, h.arrivals⟩
      rcases List.mem_append.mp ha with hold | hnew
      · exact h.attempts a hold
      · rw [List.mem_singleton.mp hnew]
        refine ⟨rfl, fun q hq => (by cases hq), fun r hr => (by cases hr),
          fun ch hch => (by cases hch), fun o ho => ?_⟩
        rcases ho with ⟨r, hr, -⟩ | ⟨k, r, hk, -⟩
        · cases hr
        · cases hk
  | infer n event =>
      dsimp only [World.step]
      split
      · exact h
      · exact h
      next hresult _ => exact h.infer n fun r heq => absurd heq (hresult r)
  | resultArrives n k =>
      dsimp only [World.step]
      split
      next r hr =>
        refine h.infer n fun q hq => ?_
        rw [← DdsEngine.Event.result.inj hq]
        exact resultRight_of_published h.responder h.asked (List.mem_of_getElem? hr)
      next => exact h
  | errorArrives n k =>
      dsimp only [World.step]
      split
      · exact h.infer n fun r hr => (by cases hr)
      · exact h
  | publish n m => exact h.publish n m
  | request n arrivalNs =>
      dsimp only [World.step]
      split
      next a ha =>
        split
        next request hsent =>
          refine h.serve fun q arrivalNs' heq => ?_
          rw [← (Event.receive.inj heq).1]
          exact (h.attempts a (List.mem_of_getElem? ha)).sent request hsent
        next => exact h
      next => exact h
  | serve event =>
      dsimp only [World.step]
      split
      · exact h
      next hreceive =>
        exact h.serve fun request arrivalNs heq => absurd heq (hreceive request arrivalNs)
  | output elapsedMs k =>
      dsimp only [World.step]
      split
      next o ho =>
        refine h.arrive elapsedMs fun q hq => ?_
        rw [← Except.ok.inj (Client.Event.output.inj hq)]
        exact h.outputs o (List.mem_of_getElem? ho)
      next => exact h
  | lost elapsedMs e => exact h.arrive elapsedMs fun o ho => (by cases ho)
  | status elapsedMs received => exact h.arrive elapsedMs fun o ho => (by cases ho)

theorem Right.received (h : w.Right c submitted) {taskId : String} {o : TaskOutput}
    (ho : o ∈ received taskId w.arrivals) :
    Half c (submitted taskId) o.seqNum o.content o.isFinal := by
  obtain ⟨a, ha, hown⟩ := List.mem_filterMap.mp ho
  unfold Client.ownOutput at hown
  split at hown
  next o' hevent =>
    split_ifs at hown with hid
    obtain rfl := Option.some.inj hown
    rw [← hid]
    exact h.arrivals a ha o' hevent
  next => cases hown

end World

/-- Halves that are numbered and among which there is the final one are the whole text. -/
theorem join_halves {t : Task} {chunks : List TaskOutput}
    (hmap : chunks.map seqNat = List.range chunks.length)
    (hhalf : ∀ o ∈ chunks, Half c t o.seqNum o.content o.isFinal)
    (hfinal : ∃ o ∈ chunks, o.isFinal = true) :
    ∃ p, parse c.fromStr t.messagesJson = .ok p ∧
      String.join (chunks.map (·.content)) = p.content := by
  have hnumbered : Numbered seqNat chunks := by
    show (chunks.map seqNat).Perm _
    rw [hmap]
  have hseq : ∀ o ∈ chunks, seqNat o = if o.isFinal then 1 else 0 := by
    intro o ho
    obtain ⟨-, -, hseq, -⟩ := hhalf o ho
    rw [seqNat, hseq]
    split_ifs <;> rfl
  obtain ⟨last, hlast, hlastfinal⟩ := hfinal
  have hlow : 2 ≤ chunks.length := by
    have hlt := hnumbered.key_lt hlast
    rw [hseq last hlast, if_pos hlastfinal] at hlt
    exact hlt
  have hhigh : chunks.length ≤ 2 := by
    by_contra hmore
    have hmem : 2 ∈ chunks.map seqNat := by
      rw [hmap]
      exact List.mem_range.mpr (Nat.not_le.mp hmore)
    obtain ⟨o, ho, htwo⟩ := List.mem_map.mp hmem
    rw [hseq o ho] at htwo
    split_ifs at htwo; omega
  have hlength : chunks.length = 2 := Nat.le_antisymm hhigh hlow
  obtain ⟨x, y, rfl⟩ := List.length_eq_two.mp hlength
  have hkeys : seqNat x = 0 ∧ seqNat y = 1 := by
    have hlist : [seqNat x, seqNat y] = [0, 1] := hmap
    simpa using hlist
  have hx : x.isFinal = false := by
    have := hseq x (by simp)
    cases hxf : x.isFinal with
    | false => rfl
    | true =>
        rw [hkeys.1, hxf] at this
        cases this
  have hy : y.isFinal = true := by
    have := hseq y (by simp)
    cases hyf : y.isFinal with
    | true => rfl
    | false =>
        rw [hkeys.2, hyf] at this
        cases this
  obtain ⟨p, hp, -, hxcontent⟩ := hhalf x (by simp)
  obtain ⟨q, hq, -, hycontent⟩ := hhalf y (by simp)
  obtain rfl : p = q := Except.ok.inj (hp.symm.trans hq)
  refine ⟨p, hp, ?_⟩
  rw [hx] at hxcontent
  rw [hy] at hycontent
  have hjoin : String.join ([x, y].map (·.content)) = x.content ++ y.content := by
    simp [String.join]
  rw [hjoin, hxcontent, hycontent]
  exact (slice?_halves p.content).2.2

/-- What a client gets for its task is the text that the messages of the task give, whichever
attempts there were at it and at other tasks, and however all of their samples have come. -/
theorem every_success_is_the_fixture (c : Config) (submitted : String → Task)
    (happenings : List Happening) (taskId : String) (r : TaskResult)
    (hr : submit taskId (.ok ())
      (happenings.foldl (World.step c submitted) (World.start c)).arrivals = .ok r) :
    ∃ p, parse c.fromStr (submitted taskId).messagesJson = .ok p ∧
      r.content = fixtureText p.stage (contentHash p.normalized) p.messages.length := by
  generalize hw : happenings.foldl (World.step c submitted) (World.start c) = w at hr
  have h : w.Right c submitted := hw ▸ Machine.foldl_invariant happenings
    (World.right_start c submitted) fun _ e h => h.step e
  obtain ⟨before, a, after, s, harrivals, hcompletes, hwaiting, hrun, hn, hcontent⟩ :=
    Client.Submission.ok_cases (Client.submit_ok_iff.mp hr)
  have hchunks : (Client.Submission.run taskId w.arrivals).chunks =
      s.chunks.insertionSort (·.seqNum ≤ ·.seqNum) := by
    rw [hrun]
    rfl
  have hperm := s.chunks.perm_insertionSort (·.seqNum ≤ ·.seqNum)
  have hmap := (numbered_iff_of_sorted (Client.Submission.sorted_chunks _)).mp (hn.perm hperm.symm)
  have hmem : ∀ o ∈ s.chunks, o ∈ received taskId w.arrivals := by
    intro o ho
    rw [hwaiting.chunks] at ho
    rw [harrivals, List.append_cons, received, List.filterMap_append]
    exact List.mem_append_left _ ho
  obtain ⟨-, o, ho, hofinal⟩ := hcompletes.ready
  rw [hcontent, hchunks]
  refine join_halves hmap (fun o ho => h.received (hmem o (hperm.mem_iff.mp ho))) ⟨o, ?_, hofinal⟩
  rw [hperm.mem_iff, hwaiting.chunks]
  exact ho

/-- One worker, and messages that give the first stage of the sequence. -/
def oneWorker : Config :=
  { delayMs := 0, capacity := 1, queue := 4, modelOnly := none
    fromStr := fun _ => some (.arr (.ofList [.obj (.ofList
      [("role", .str "system"), ("content", .str "PROMPT_VERSION: seq_analyst_v1")])])) }

/-- Two attempts at a task, of which both ask the responder. -/
def bothAsk : List Happening :=
  [.attempt ⟨"a1", .any⟩ "t1" 0 0 1000 4 false, .attempt ⟨"a2", .any⟩ "t1" 1 0 1000 4 false,
    .infer 0 (.opened none), .infer 0 (.send 0 none), .request 0 0,
    .infer 1 (.opened none), .infer 1 (.send 0 none), .request 1 0]

def served (i : ℕ) : List Happening :=
  .serve .take ::
    List.replicate 6 (.serve (.work i { nowNs := 0, elapsedNs := 0, fault := none }))

/-- The client gets the second half from the second attempt, and then the first half from the
first one, which has died after it. -/
def mixed : List Happening :=
  [.resultArrives 0 0, .infer 0 (.takeResults 1), .infer 0 .next, .publish 0 (.running 0 (.ok ())),
    .publish 0 (.next 0 0 true), .publish 0 (.take 0), .publish 0 (.write 0 (.ok ())),
    .resultArrives 1 2, .resultArrives 1 3, .infer 1 (.takeResults 2), .infer 1 .next,
    .infer 1 .next, .publish 1 (.running 0 (.ok ())), .publish 1 (.next 0 0 true),
    .publish 1 (.next 0 0 true), .publish 1 (.take 0), .publish 1 (.write 0 (.ok ())),
    .publish 1 (.take 0), .publish 1 (.write 0 (.ok ())),
    .output 5 2, .output 6 0, .status 7 (.ok Client.doneSample)]

/-- The world after them. -/
def mixedWorld : World :=
  (bothAsk ++ served 0 ++ served 1 ++ mixed).foldl
    (World.step oneWorker fun _ => Client.doneSample) (World.start oneWorker)

theorem every_success_is_the_fixture_mixed :
    ∃ r p, submit "t1" (.ok ()) mixedWorld.arrivals = .ok r ∧
      parse oneWorker.fromStr Client.doneSample.messagesJson = .ok p ∧
      r.content = fixtureText p.stage (contentHash p.normalized) p.messages.length := by
  have hok : (submit "t1" (.ok ()) mixedWorld.arrivals).isOk = true := by decide +kernel
  cases hr : submit "t1" (.ok ()) mixedWorld.arrivals with
  | error e =>
      rw [hr] at hok
      cases hok
  | ok r =>
      obtain ⟨p, hp, hcontent⟩ := every_success_is_the_fixture oneWorker
        (fun _ => Client.doneSample) (bothAsk ++ served 0 ++ served 1 ++ mixed) "t1" r hr
      exact ⟨r, p, rfl, hp, hcontent⟩

end DdsOrchestrator.DetResponder
