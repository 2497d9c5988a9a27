import DdsOrchestrator.Agent.EngineDds

/-!
What an agent gets of an answer. The chunks come from the results of its own request, in the
order in which these have reached its reader, and the stream ends with the final one or with
one error. Only where the reader has no more results to give does it end without a word. As
long as the reader does not run over, no chunk is left out, and a stream that comes to its
final chunk is the whole answer.
-/

namespace DdsOrchestrator.Agent.DdsEngine.Inference

open Dataspace (LLMInferenceResult LLMInferenceError)

variable {engine : DdsEngine} {req : InferRequest} {s : Inference}
  {done rest bs : List LLMInferenceResult}

/-- The results of the request. -/
def ofRequest (req : InferRequest) (rs : List LLMInferenceResult) : List LLMInferenceResult :=
  rs.filter fun r => r.requestId = req.requestId

def oks (req : InferRequest) (rs : List LLMInferenceResult) : List (Except EngineError Chunk) :=
  (ofRequest req rs).map fun r => .ok (chunkOf r)

@[simp] theorem ofRequest_append (rs rs' : List LLMInferenceResult) :
    ofRequest req (rs ++ rs') = ofRequest req rs ++ ofRequest req rs' := List.filter_append ..

theorem ofRequest_of_eq {r : LLMInferenceResult} (h : r.requestId = req.requestId) :
    ofRequest req [r] = [r] := by
  simp [ofRequest, h]

theorem ofRequest_of_ne {r : LLMInferenceResult} (h : r.requestId ≠ req.requestId) :
    ofRequest req [r] = [] := by
  simp [ofRequest, h]

/-! ### What ends the stream -/

/-- The events that end the stream before it has come to a final chunk, and the error with
which they end it. -/
inductive Closes (req : InferRequest) : Inference → Event → Option EngineError → Prop where
  | opened {s : Inference} (text : String) (hstage : s.stage = .opening) :
      Closes req s (.opened (some text)) (some (.ddsError text))
  | send {s : Inference} (nowNs : UInt64) (text : String) (hstage : s.stage = .sending) :
      Closes req s (.send nowNs (some text)) (some (.ddsError text))
  | resultsFail {s : Inference} (text : String) (hstage : s.stage = .waiting) :
      Closes req s (.resultsFail text) (some (.ddsError text))
  | errorsFail {s : Inference} (text : String) (hstage : s.stage = .waiting) :
      Closes req s (.errorsFail text) (some (.ddsError text))
  | failed {s : Inference} {k : Nat} {e : LLMInferenceError} (hstage : s.stage = .waiting)
      (hfind : ((s.errors.take k).find? fun e => e.requestId = req.requestId) = some e) :
      Closes req s (.takeErrors k) (some (failure e))
  | timeout {s : Inference} (hstage : s.stage = .waiting) :
      Closes req s .timeout (some (.timeout req.timeoutMs))
  /-- The one end that nobody is told of. -/
  | resultsEnd {s : Inference} (hstage : s.stage = .waiting) : Closes req s .resultsEnd none

/-- One of the events has closed the stream. -/
def Closed (engine : DdsEngine) (req : InferRequest) (events : List Event)
    (err : Option EngineError) : Prop :=
  ∃ before e after, events = before ++ e :: after ∧
    Closes req (before.foldl (step engine req) start) e err

variable {e : Event} {err : Option EngineError}

theorem Closes.going (h : Closes req s e err) : s.stage ≠ .ended := by
  cases h with
  | opened text hstage => simp [hstage]
  | send nowNs text hstage => simp [hstage]
  | resultsFail text hstage => simp [hstage]
  | errorsFail text hstage => simp [hstage]
  | failed hstage hfind => simp [hstage]
  | timeout hstage => simp [hstage]
  | resultsEnd hstage => simp [hstage]

theorem Closes.step_eq (engine : DdsEngine) (h : Closes req s e err) :
    (s.step engine req e).stage = .ended ∧
      (s.step engine req e).items = s.items ++ err.toList.map .error := by
  cases h with
  | opened text hstage => simp [step, hstage, fail]
  | send nowNs text hstage => simp [step, hstage, fail]
  | resultsFail text hstage => simp [step, hstage, fail]
  | errorsFail text hstage => simp [step, hstage, fail]
  | failed hstage hfind => simp [step, hstage, hfind, fail]
  | timeout hstage => simp [step, hstage, fail]
  | resultsEnd hstage => simp [step, hstage]

theorem Closes.arrival_eq (h : Closes req s e err) : s.arrival e = [] := by
  cases h <;> rfl

/-- A stream that has ended yields nothing more. -/
theorem step_of_ended (h : s.stage = .ended) (e : Event) : s.step engine req e = s := by
  cases e <;> simp [step, h, listening]

theorem foldl_of_ended (h : s.stage = .ended) (events : List Event) :
    events.foldl (step engine req) s = s :=
  List.foldl_fixed' (step_of_ended h) events

theorem arrival_of_ended (h : s.stage = .ended) (e : Event) : s.arrival e = [] := by
  cases e <;> simp [arrival, h, listening]

/-- The results that have been taken and are still to be gone through. -/
def batch (s : Inference) : List LLMInferenceResult :=
  match s.stage with
  | .yielding batch => batch
  | _ => []

/-- What an event can do to a stream that goes on: it closes it, it brings it the next result
of the batch or a new one, or it yields nothing and loses nothing. -/
theorem step_cases (engine : DdsEngine) (req : InferRequest) (hgoing : s.stage ≠ .ended)
    (e : Event) :
    (∃ err, Closes req s e err) ∨ e = .next ∨ (∃ r, e = .result r) ∨
      ((s.step engine req e).stage ≠ .ended ∧ (s.step engine req e).items = s.items ∧
        (s.step engine req e).batch ++ (s.step engine req e).results = s.batch ++ s.results ∧
        s.arrival e = []) := by
  cases e with
  | next => exact .inr (.inl rfl)
  | result r => exact .inr (.inr (.inl ⟨r, rfl⟩))
  | error e =>
      refine .inr (.inr (.inr ?_))
      dsimp only [step]
      split
      · exact ⟨hgoing, rfl, rfl, rfl⟩
      · exact ⟨hgoing, rfl, rfl, rfl⟩
  | opened fault =>
      dsimp only [step]
      split
      next hstage => exact .inr (.inr (.inr (by simp [batch, hstage, arrival])))
      next text hstage => exact .inl ⟨_, .opened text hstage⟩
      next => exact .inr (.inr (.inr ⟨hgoing, rfl, rfl, rfl⟩))
  | send nowNs fault =>
      dsimp only [step]
      split
      next hstage => exact .inr (.inr (.inr (by simp [batch, hstage, arrival])))
      next text hstage => exact .inl ⟨_, .send nowNs text hstage⟩
      next => exact .inr (.inr (.inr ⟨hgoing, rfl, rfl, rfl⟩))
  | takeResults k =>
      refine .inr (.inr (.inr ?_))
      dsimp only [step]
      split
      next hstage => simp [batch, hstage, arrival, List.take_append_drop]
      next => exact ⟨hgoing, rfl, rfl, rfl⟩
  | takeErrors k =>
      dsimp only [step]
      split
      next hstage =>
        split
        next err hfind => exact .inl ⟨_, .failed hstage hfind⟩
        next => exact .inr (.inr (.inr (by simp [batch, hstage, arrival])))
      next => exact .inr (.inr (.inr ⟨hgoing, rfl, rfl, rfl⟩))
  | resultsFail text =>
      dsimp only [step]
      split
      next hstage => exact .inl ⟨_, .resultsFail text hstage⟩
      next => exact .inr (.inr (.inr ⟨hgoing, rfl, rfl, rfl⟩))
  | errorsFail text =>
      dsimp only [step]
      split
      next hstage => exact .inl ⟨_, .errorsFail text hstage⟩
      next => exact .inr (.inr (.inr ⟨hgoing, rfl, rfl, rfl⟩))
  | resultsEnd =>
      dsimp only [step]
      split
      next hstage => exact .inl ⟨_, .resultsEnd hstage⟩
      next => exact .inr (.inr (.inr ⟨hgoing, rfl, rfl, rfl⟩))
  | timeout =>
      dsimp only [step]
      split
      next hstage => exact .inl ⟨_, .timeout hstage⟩
      next => exact .inr (.inr (.inr ⟨hgoing, rfl, rfl, rfl⟩))

/-- The batch ends the stream with a final chunk only. -/
theorem final_of_next (hgoing : s.stage ≠ .ended)
    (hended : (s.step engine req .next).stage = .ended) :
    ∃ c : Chunk, c.isFinal = true ∧ .ok c ∈ (s.step engine req .next).items := by
  dsimp only [step] at hended ⊢
  split at hended
  next => cases hended
  next r batch hstage =>
    split at hended
    next hmine =>
      cases hr : r.isFinal with
      | true => exact ⟨chunkOf r, hr, by simp [hmine]⟩
      | false => simp [hr] at hended
    next => cases hended
  next => exact absurd hended hgoing

/-! ### What the stream tells -/

def NoFinal (req : InferRequest) (rs : List LLMInferenceResult) : Prop :=
  ∀ r ∈ ofRequest req rs, r.isFinal = false

/-- What has been yielded once the results `done` have been gone through. -/
inductive Told (req : InferRequest) (s : Inference) : List LLMInferenceResult → Prop where
  | going {done : List LLMInferenceResult} (hstage : s.stage ≠ .ended)
      (hitems : s.items = oks req done) (hfinal : NoFinal req done) : Told req s done
  | closed {done : List LLMInferenceResult} (err : Option EngineError)
      (hstage : s.stage = .ended) (hitems : s.items = oks req done ++ err.toList.map .error)
      (hfinal : NoFinal req done) : Told req s done
  | complete {done : List LLMInferenceResult} (r : LLMInferenceResult) (hstage : s.stage = .ended)
      (hitems : s.items = oks req (done ++ [r])) (hmine : r.requestId = req.requestId)
      (hr : r.isFinal = true) (hfinal : NoFinal req done) : Told req s (done ++ [r])

/-- `K` says how the results that are still to come to the stream relate to all that have
reached the reader. -/
structure Inv (K : List LLMInferenceResult → List LLMInferenceResult → Prop) (req : InferRequest)
    (bs : List LLMInferenceResult) (s : Inference) (done rest : List LLMInferenceResult) :
    Prop where
  kept : K (done ++ rest) bs
  untaken : s.stage ≠ .ended → rest = s.batch ++ s.results
  told : Told req s done

/-- There is a way to split what the stream has seen and what it has not. -/
def Follows (K : List LLMInferenceResult → List LLMInferenceResult → Prop) (req : InferRequest)
    (bs : List LLMInferenceResult) (s : Inference) : Prop :=
  ∃ done rest, Inv K req bs s done rest

variable {K : List LLMInferenceResult → List LLMInferenceResult → Prop} {s' : Inference}

/-- The stream goes on with what it has told so far. -/
theorem Told.keep (h : Told req s done) (hstage : s.stage ≠ .ended) (hitems : s'.items = s.items)
    (hstage' : s'.stage ≠ .ended) : Told req s' done := by
  cases h with
  | going _ hold hfinal => exact .going hstage' (hitems.trans hold) hfinal
  | closed _ hended => exact absurd hended hstage
  | complete _ hended => exact absurd hended hstage

theorem Told.items_of_going (h : Told req s done) (hstage : s.stage ≠ .ended) :
    s.items = oks req done ∧ NoFinal req done := by
  cases h with
  | going _ hold hfinal => exact ⟨hold, hfinal⟩
  | closed _ hended => exact absurd hended hstage
  | complete _ hended => exact absurd hended hstage

theorem Inv.close (h : Inv K req bs s done rest) (hclose : Closes req s e err) :
    Inv K req bs (s.step engine req e) done rest := by
  obtain ⟨hitems, hfinal⟩ := h.told.items_of_going hclose.going
  obtain ⟨hended, hlast⟩ := hclose.step_eq engine
  rw [hitems] at hlast
  exact ⟨h.kept, fun hgoing => absurd hended hgoing, .closed err hended hlast hfinal⟩

/-- The stream goes on, and what it has not seen stays the same. -/
theorem Inv.keep (h : Inv K req bs s done rest) (hstage : s.stage ≠ .ended)
    (hitems : s'.items = s.items) (hstage' : s'.stage ≠ .ended)
    (huntaken : s'.batch ++ s'.results = s.batch ++ s.results) : Inv K req bs s' done rest :=
  ⟨h.kept, fun _ => (h.untaken hstage).trans huntaken.symm, h.told.keep hstage hitems hstage'⟩

theorem ofRequest_cons_eq {r : LLMInferenceResult} :
    oks req (done ++ [r]) =
      oks req done ++ if r.requestId = req.requestId then [.ok (chunkOf r)] else [] := by
  rw [oks, ofRequest_append, List.map_append]
  by_cases hr : r.requestId = req.requestId
  · rw [ofRequest_of_eq hr, if_pos hr]
    rfl
  · rw [ofRequest_of_ne hr, if_neg hr]
    rfl

theorem NoFinal.concat (h : NoFinal req done) {r : LLMInferenceResult}
    (hr : r.requestId = req.requestId → r.isFinal = false) : NoFinal req (done ++ [r]) := by
  intro q hq
  rw [ofRequest_append] at hq
  rcases List.mem_append.mp hq with hold | hnew
  · exact h q hold
  · by_cases hmine : r.requestId = req.requestId
    · rw [ofRequest_of_eq hmine, List.mem_singleton] at hnew
      rw [hnew, hr hmine]
    · rw [ofRequest_of_ne hmine] at hnew
      cases hnew

/-- The next result of the batch is gone through. -/
theorem Inv.next (h : Inv K req bs s done rest) : Follows K req bs (s.step engine req .next) := by
  dsimp only [step]
  split
  next hstage =>
    exact ⟨done, rest, h.keep (by simp [hstage]) rfl (by simp) (by simp [batch, hstage])⟩
  next r more hstage =>
    have hgoing : s.stage ≠ .ended := by simp [hstage]
    obtain ⟨hitems, hfinal⟩ := h.told.items_of_going hgoing
    have hrest : rest = r :: (more ++ s.results) := by
      rw [h.untaken hgoing, batch, hstage]
      rfl
    have hkept : K ((done ++ [r]) ++ (more ++ s.results)) bs := by
      have hold := h.kept
      rwa [hrest, List.append_cons] at hold
    refine ⟨done ++ [r], more ++ s.results, ?_⟩
    split
    next hmine =>
      have hitems' : s.items ++ [.ok (chunkOf r)] = oks req (done ++ [r]) := by
        rw [ofRequest_cons_eq, if_pos hmine, hitems]
      cases hr : r.isFinal with
      | true =>
          exact ⟨hkept, fun hended => absurd rfl hended, .complete r rfl hitems' hmine hr hfinal⟩
      | false =>
          exact ⟨hkept, fun _ => rfl, .going (by simp) hitems' (hfinal.concat fun _ => hr)⟩
    next hother =>
      have hitems' : s.items = oks req (done ++ [r]) := by
        rw [ofRequest_cons_eq, if_neg hother, List.append_nil, hitems]
      exact ⟨hkept, fun _ => rfl,
        .going (by simp) hitems' (hfinal.concat fun hmine => absurd hmine hother)⟩
  next => exact ⟨done, rest, h⟩

/-- A result reaches the reader. -/
theorem Inv.result (h : Inv K req bs s done rest) (r : LLMInferenceResult)
    (hlistening : s.listening = true)
    (hK : ∀ seen, K (seen ++ s.results) bs →
      K (seen ++ Retained.lastOf llmResultHistoryDepth (s.results ++ [r])) (bs ++ [r])) :
    Follows K req (bs ++ [r])
      { s with results := Retained.lastOf llmResultHistoryDepth (s.results ++ [r]) } := by
  have hgoing : s.stage ≠ .ended := by
    intro hended
    simp [listening, hended] at hlistening
  refine ⟨done, s.batch ++ Retained.lastOf llmResultHistoryDepth (s.results ++ [r]), ?_,
    fun _ => by simp only [batch], h.told.keep hgoing rfl hgoing⟩
  have hkept := h.kept
  rw [h.untaken hgoing, ← List.append_assoc] at hkept
  rw [← List.append_assoc]
  exact hK _ hkept

theorem Follows.step (h : Follows K req bs s) (e : Event)
    (hK : ∀ r, e = .result r → s.listening = true → ∀ seen, K (seen ++ s.results) bs →
      K (seen ++ Retained.lastOf llmResultHistoryDepth (s.results ++ [r])) (bs ++ [r])) :
    Follows K req (bs ++ s.arrival e) (s.step engine req e) := by
  by_cases hended : s.stage = .ended
  · rw [step_of_ended hended, arrival_of_ended hended, List.append_nil]
    exact h
  obtain ⟨done, rest, h⟩ := h
  rcases step_cases engine req hended e with
    ⟨err, hclose⟩ | rfl | ⟨r, rfl⟩ | ⟨hstage, hitems, huntaken, harrival⟩
  · rw [hclose.arrival_eq, List.append_nil]
    exact ⟨done, rest, h.close hclose⟩
  · simp only [arrival, List.append_nil]
    exact h.next
  · dsimp only [Inference.step, arrival]
    split
    next hlistening => exact h.result r hlistening (hK r rfl hlistening)
    next =>
      rw [List.append_nil]
      exact ⟨done, rest, h⟩
  · rw [harrival, List.append_nil]
    exact ⟨done, rest, h.keep hended hitems hstage huntaken⟩

/-! ### Results -/

theorem told_start : Told req start [] :=
  .going (by simp [start]) rfl fun r hr => by cases hr

/-- No result reaches a reader that is full. -/
def HasRoom (s : Inference) : Event → Prop
  | .result _ => s.listening = true → s.results.length < llmResultHistoryDepth
  | _ => True

theorem follows (engine : DdsEngine) (req : InferRequest) (events : List Event) :
    Follows (fun rs bs => rs.Sublist bs ∧
        (Machine.Along (step engine req) HasRoom start events → rs = bs)) req
      (Machine.trace (step engine req) arrival start events)
      (events.foldl (step engine req) start) := by
  generalize hroom : Machine.Along (step engine req) HasRoom start events = room
  have hall : Machine.Along (step engine req) (fun s e => room → HasRoom s e) start events := by
    refine Machine.along_iff_forall.mpr fun before e after heq hr => ?_
    rw [← hroom] at hr
    exact Machine.along_iff_forall.mp hr before e after heq
  refine hall.trace_invariant_nil
    (I := Follows (fun rs bs => rs.Sublist bs ∧ (room → rs = bs)) req)
    ⟨[], [], ⟨.slnil, fun _ => rfl⟩, fun _ => rfl, told_start⟩ fun bs s e h hC => h.step e ?_
  rintro r rfl hlistening seen ⟨hsublist, heq⟩
  refine ⟨?_, fun hr => ?_⟩
  · have hlast : (Retained.lastOf llmResultHistoryDepth (s.results ++ [r])).Sublist
        (s.results ++ [r]) := List.drop_sublist _ _
    have hmore := (List.Sublist.refl seen).append hlast
    rw [← List.append_assoc] at hmore
    exact hmore.trans (hsublist.append_right [r])
  · have hlen : (s.results ++ [r]).length ≤ llmResultHistoryDepth := by
      rw [List.length_append]
      exact hC hr hlistening
    rw [Retained.lastOf_eq_self hlen, ← List.append_assoc, heq hr]

/-- The chunks that have been yielded, and the error if there is one. -/
theorem Told.split (h : Told req s done) :
    ∃ last : Option EngineError,
      s.items = ((ofRequest req done).map chunkOf).map .ok ++ last.toList.map .error ∧
      (last ≠ none → s.stage = .ended ∧ NoFinal req done) ∧
      (s.stage ≠ .ended → NoFinal req done) ∧
      untilFirst LLMInferenceResult.isFinal (ofRequest req done) = ofRequest req done := by
  have hoks : ∀ rs, ((ofRequest req rs).map chunkOf).map Except.ok = oks req rs := fun rs => by
    rw [oks, List.map_map]
    rfl
  simp only [hoks]
  cases h with
  | going hstage hitems hfinal =>
      exact ⟨none, by simpa using hitems, fun hne => absurd rfl hne, fun _ => hfinal,
        untilFirst_of_none hfinal⟩
  | closed err hstage hitems hfinal =>
      exact ⟨err, hitems, fun _ => ⟨hstage, hfinal⟩, fun _ => hfinal,
        untilFirst_of_none hfinal⟩
  | complete r hstage hitems hmine hr hfinal =>
      refine ⟨none, by simpa using hitems, fun hne => absurd rfl hne,
        fun hne => absurd hstage hne, ?_⟩
      rw [ofRequest_append, ofRequest_of_eq hmine, untilFirst_append_of_none hfinal,
        untilFirst_cons_of hr]

/-- A stream that has been closed has yielded chunks that are not final, and then the error
it has been closed with. -/
theorem Closed.items {events : List Event} (h : Closed engine req events err) :
    (events.foldl (step engine req) start).stage = .ended ∧
      ∃ done, NoFinal req done ∧
        (events.foldl (step engine req) start).items = oks req done ++ err.toList.map .error := by
  obtain ⟨before, e, after, rfl, hclose⟩ := h
  obtain ⟨done, rest, hbefore⟩ := follows engine req before
  obtain ⟨hitems, hfinal⟩ := hbefore.told.items_of_going hclose.going
  obtain ⟨hended, hlast⟩ := hclose.step_eq engine
  rw [List.foldl_append, List.foldl_cons, foldl_of_ended hended]
  exact ⟨hended, done, hfinal, hitems ▸ hlast⟩

/-- Whichever way it is taken apart, its chunks are not final and its end is that error. -/
theorem Closed.last_eq {events : List Event} {chunks : List Chunk} {last : Option EngineError}
    (h : Closed engine req events err)
    (hitems : (events.foldl (step engine req) start).items =
      chunks.map .ok ++ last.toList.map .error) :
    last = err ∧ ∀ c ∈ chunks, c.isFinal = false := by
  obtain ⟨-, done, hno, hold⟩ := h.items
  have hsame := hitems.symm.trans hold
  constructor
  · have herror : ∀ e, last = some e ↔ err = some e := fun e => by
      have hmem := congrArg (fun items => Except.error e ∈ items) hsame
      simpa [oks] using hmem
    exact Option.ext herror
  · intro c hc
    have hmem : Except.ok c ∈ oks req done ++ err.toList.map .error := by
      rw [← hsame]
      exact List.mem_append_left _ (List.mem_map_of_mem hc)
    have hdone : ∃ r ∈ ofRequest req done, chunkOf r = c := by simpa [oks] using hmem
    obtain ⟨r, hr, rfl⟩ := hdone
    exact hno r hr

/-- A stream that has ended has been closed or has come to its final chunk. -/
theorem closed_or_final {events : List Event}
    (h : (events.foldl (step engine req) start).stage = .ended) :
    (∃ err, Closed engine req events err) ∨
      ∃ c : Chunk, c.isFinal = true ∧ .ok c ∈ (events.foldl (step engine req) start).items := by
  obtain ⟨before, e, after, rfl, hgoing, hended⟩ :=
    Machine.exists_step_of_not (Q := fun s : Inference => s.stage = .ended) (by simp [start]) h
  rcases step_cases engine req hgoing e with ⟨err, hclose⟩ | rfl | ⟨r, rfl⟩ | ⟨hstage, -⟩
  · exact .inl ⟨err, before, e, after, rfl, hclose⟩
  · rw [List.foldl_append, List.foldl_cons, foldl_of_ended hended]
    exact .inr (final_of_next hgoing hended)
  · refine absurd hended ?_
    dsimp only [step]
    split
    · exact hgoing
    · exact hgoing
  · exact absurd hended hstage

/-- The stream yields chunks of the answer to the request, in the order in which they have
come, up to the final one. It ends exactly with that or when it is closed, and then chunks that
are not final are followed by the error that has closed it, if there is one. As long as the
reader has room none is left out, and with the final chunk the answer is complete. -/
theorem answers_in_order (engine : DdsEngine) (req : InferRequest) (events : List Event) :
    let s := events.foldl (step engine req) start
    let answer := (ofRequest req (Machine.trace (step engine req) arrival start events)).map chunkOf
    ∃ (chunks : List Chunk) (last : Option EngineError),
      s.items = chunks.map .ok ++ last.toList.map .error ∧
      (s.stage = .ended ↔
        (∃ c ∈ chunks, c.isFinal = true) ∨ ∃ err, Closed engine req events err) ∧
      (∀ err, Closed engine req events err → last = err ∧ ∀ c ∈ chunks, c.isFinal = false) ∧
      (last ≠ none → Closed engine req events last) ∧
      untilFirst Chunk.isFinal chunks = chunks ∧ chunks.Sublist answer ∧
      (Machine.Along (step engine req) HasRoom start events →
        chunks <+: untilFirst Chunk.isFinal answer ∧
          ((∃ c ∈ chunks, c.isFinal = true) → chunks = untilFirst Chunk.isFinal answer)) := by
  intro s answer
  obtain ⟨done, rest, hkept, -, htold⟩ := follows engine req events
  obtain ⟨last, hitems, hlast, hgoing, huntil⟩ := htold.split
  have hfinal : ∀ rs : List LLMInferenceResult,
      untilFirst Chunk.isFinal (rs.map chunkOf) =
        (untilFirst LLMInferenceResult.isFinal rs).map chunkOf := untilFirst_map chunkOf
  have hnone : NoFinal req done → ∀ c ∈ (ofRequest req done).map chunkOf, c.isFinal = false := by
    intro hno c hc
    obtain ⟨r, hr, rfl⟩ := List.mem_map.mp hc
    exact hno r hr
  have hchunk : ∀ c, .ok c ∈ s.items → c ∈ (ofRequest req done).map chunkOf := by
    intro c hc
    rw [hitems] at hc
    simpa using hc
  refine ⟨(ofRequest req done).map chunkOf, last, hitems, ⟨?_, ?_⟩,
    fun err herr => herr.last_eq hitems, ?_, ?_, ?_, ?_⟩
  · intro hended
    rcases closed_or_final hended with herr | ⟨c, hc, hmem⟩
    · exact .inr herr
    · exact .inl ⟨c, hchunk c hmem, hc⟩
  · rintro (⟨c, hc, hcfinal⟩ | ⟨err, herr⟩)
    · by_contra hnot
      rw [hnone (hgoing hnot) c hc] at hcfinal
      cases hcfinal
    · exact herr.items.1
  · intro hne
    obtain ⟨hended, hno⟩ := hlast hne
    rcases closed_or_final hended with ⟨err, herr⟩ | ⟨c, hc, hmem⟩
    · rwa [(herr.last_eq hitems).1]
    · rw [hnone hno c (hchunk c hmem)] at hc
      cases hc
  · rw [hfinal, huntil]
  · have hdone : done.Sublist (done ++ rest) := List.sublist_append_left done rest
    exact ((hdone.trans hkept.1).filter _).map chunkOf
  · intro hroom
    have hanswer : answer =
        (ofRequest req done).map chunkOf ++ (ofRequest req rest).map chunkOf := by
      rw [← List.map_append, ← ofRequest_append, hkept.2 hroom]
    have hself : untilFirst Chunk.isFinal ((ofRequest req done).map chunkOf) =
        (ofRequest req done).map chunkOf := by rw [hfinal, huntil]
    rw [hanswer]
    refine ⟨?_, ?_⟩
    · have hprefix : untilFirst Chunk.isFinal ((ofRequest req done).map chunkOf) <+:
          untilFirst Chunk.isFinal
            ((ofRequest req done).map chunkOf ++ (ofRequest req rest).map chunkOf) :=
        untilFirst_prefix_append _ _
      rwa [hself] at hprefix
    · rintro ⟨c, hc, hcfinal⟩
      rw [untilFirst_append_of_mem hc hcfinal, hself]

end DdsOrchestrator.Agent.DdsEngine.Inference
