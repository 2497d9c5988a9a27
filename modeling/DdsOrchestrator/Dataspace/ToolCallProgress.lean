import DdsOrchestrator.Dataspace.TopicCaches

/-!
The progress of a tool call in the caches. The rule for two samples of one call asks four
questions in order; what it lets through is one relation, which is a preorder, and so the
sample that is held can only move along it, in whatever order samples are delivered.
-/

namespace DdsOrchestrator.Dataspace

namespace ToolCallRequest

def Terminal (s : ToolCallRequest) : Prop := ToolCallStatus.isTerminalI32 s.status = true

instance (s : ToolCallRequest) : Decidable s.Terminal :=
  inferInstanceAs (Decidable (_ = _))

/-- A terminal sample stays, the status does not fall unless it becomes terminal, and the
time of creation does not go back. -/
structure LeadsTo (cur new : ToolCallRequest) : Prop where
  terminal : cur.Terminal → new = cur
  status : ¬ new.Terminal → cur.status ≤ new.status
  createdAtNs : cur.createdAtNs ≤ new.createdAtNs

variable {cur new s : ToolCallRequest}

theorem LeadsTo.refl (s : ToolCallRequest) : s.LeadsTo s :=
  ⟨fun _ => rfl, fun _ => le_rfl, UInt64.le_refl _⟩

theorem LeadsTo.trans (h : cur.LeadsTo new) (h' : new.LeadsTo s) : cur.LeadsTo s := by
  refine ⟨fun hcur => ?_, fun hs => ?_, UInt64.le_trans h.createdAtNs h'.createdAtNs⟩
  · have hnew : new = cur := h.terminal hcur
    have hs : s = new := h'.terminal (hnew ▸ hcur)
    exact hs.trans hnew
  · -- a terminal sample in between would have stayed
    have hnew : ¬ new.Terminal := fun hnew => hs (h'.terminal hnew ▸ hnew)
    exact (h.status hnew).trans (h'.status hs)

end ToolCallRequest

/-- The rule lets through what a call that is not terminal can lead to. -/
theorem callSupersedesToolCall_iff {new cur : ToolCallRequest} :
    callSupersedesToolCall new cur = true ↔ ¬ cur.Terminal ∧ cur.LeadsTo new := by
  show (if new.createdAtNs < cur.createdAtNs then false
    else if cur.Terminal then false else if new.Terminal then true
    else if new.status < cur.status then false else true) = true ↔ _
  split_ifs with hearlier hcur hnew hlower
  · refine iff_of_false id fun h => ?_
    exact UInt64.not_lt.mpr h.2.createdAtNs hearlier
  · exact iff_of_false id fun h => h.1 hcur
  · exact iff_of_true rfl ⟨hcur, fun h => absurd h hcur, fun h => absurd hnew h,
      UInt64.not_lt.mp hearlier⟩
  · exact iff_of_false id fun h => not_lt.mpr (h.2.status hnew) hlower
  · exact iff_of_true rfl ⟨hcur, fun h => absurd h hcur, fun _ => not_lt.mp hlower,
      UInt64.not_lt.mp hearlier⟩

theorem leadsTo_winner (cur new : ToolCallRequest) :
    cur.LeadsTo (Capped.winner callSupersedesToolCall (some cur) new) := by
  rw [Capped.winner_some]
  split
  · next hwins => exact (callSupersedesToolCall_iff.mp hwins).2
  · exact .refl cur

namespace TopicCaches

variable {c : TopicCaches} {cur : ToolCallRequest} {callId : String}

/-- A sample of whatever call leaves it or moves it on. -/
theorem leadsTo_upsertToolCall (s : ToolCallRequest)
    (hcur : c.toolCalls.lookup callId = some cur) :
    ∃ new, (c.upsertToolCall s).2.toolCalls.lookup callId = some new ∧ cur.LeadsTo new := by
  have hheld : (c.held .toolCall).lookup callId = some cur := hcur
  show ∃ new, ((c.upsertKeyed .toolCall maxTasksInCache s.callId callSupersedesToolCall s).2.held
    .toolCall).lookup callId = some new ∧ _
  unfold upsertKeyed
  split
  · rw [held_hold_self, Capped.lookup_upsert]
    split
    · next hkey =>
        rw [← hkey, hheld]
        exact ⟨_, rfl, leadsTo_winner cur s⟩
    · exact ⟨cur, hheld, .refl cur⟩
  · exact ⟨cur, hheld, .refl cur⟩

/-- No other call takes it away, as long as the caches are not cleared. -/
theorem leadsTo_step {call : Call} (hcall : call ≠ .clear)
    (hcur : c.toolCalls.lookup callId = some cur) :
    ∃ new, (c.step call).toolCalls.lookup callId = some new ∧ cur.LeadsTo new := by
  have hsame : (c.step call).held .toolCall = c.held .toolCall →
      ∃ new, (c.step call).toolCalls.lookup callId = some new ∧ cur.LeadsTo new :=
    fun h => ⟨cur, (congrArg (AList.lookup callId) h).trans hcur, .refl cur⟩
  cases call with
  | task nowNs s =>
      apply hsame
      show (c.upsertTask nowNs s).2.held .toolCall = c.held .toolCall
      have houtcome := upsertTask_outcome c nowNs s
      generalize c.upsertTask nowNs s = r at houtcome
      have hroom : (c.roomFor nowNs s).toolCalls = c.toolCalls := by
        unfold roomFor
        split <;> rfl
      cases houtcome with
      | rejected => exact hroom
      | kept => rfl
      | stored => exact hroom
  | keyed t s =>
      by_cases ht : KeyedTopic.toolCall = t
      · subst ht
        exact leadsTo_upsertToolCall s hcur
      · apply hsame
        show (upsert t s c).2.held .toolCall = c.held .toolCall
        rw [upsert_eq, upsertKeyed]
        split
        · exact held_hold_of_ne ht _
        · exact held_reject _
  | listed t s =>
      apply hsame
      show (push t s c).2.held .toolCall = c.held .toolCall
      rw [push_eq, pushListed]
      split
      · exact held_enlist _ _ _
      · exact held_reject _
  | evict nowNs maxAgeNs => exact hsame rfl
  | clear => exact absurd rfl hcall

theorem leadsTo_run {calls : List Call} (hcalls : .clear ∉ calls)
    (hcur : c.toolCalls.lookup callId = some cur) :
    ∃ new, (c.run calls).toolCalls.lookup callId = some new ∧ cur.LeadsTo new := by
  induction calls generalizing c cur with
  | nil => exact ⟨cur, hcur, .refl cur⟩
  | cons call calls ih =>
      rw [List.mem_cons, not_or] at hcalls
      obtain ⟨next, hnext, hstep⟩ := leadsTo_step (Ne.symm hcalls.1) hcur
      obtain ⟨new, hnew, hrun⟩ := ih hcalls.2 hnext
      exact ⟨new, hnew, hstep.trans hrun⟩

def upsertToolCalls (c : TopicCaches) (samples : List ToolCallRequest) : TopicCaches :=
  samples.foldl (fun c s => (c.upsertToolCall s).2) c

theorem upsertToolCalls_eq_run (samples : List ToolCallRequest) :
    c.upsertToolCalls samples = c.run (samples.map (.keyed .toolCall)) := by
  rw [run, List.foldl_map]
  rfl

/-- Whatever is delivered in whatever order, what is held of a call only moves on. -/
theorem toolCall_moves_on (c : TopicCaches) (before after : List ToolCallRequest)
    (callId : String) (cur : ToolCallRequest)
    (hcur : (c.upsertToolCalls before).toolCalls.lookup callId = some cur) :
    ∃ new, (c.upsertToolCalls (before ++ after)).toolCalls.lookup callId = some new ∧
      cur.LeadsTo new := by
  have happend : c.upsertToolCalls (before ++ after) =
      (c.upsertToolCalls before).upsertToolCalls after := List.foldl_append
  rw [happend, upsertToolCalls_eq_run after]
  refine leadsTo_run (fun hclear => ?_) hcur
  obtain ⟨s, -, hs⟩ := List.mem_map.mp hclear
  cases hs

/-! ### A denial that comes late -/

def toolCallSample (status : Int) (createdAtNs : UInt64) : ToolCallRequest :=
  { callId := "call-1", requestId := "req-1", requesterId := "agent-1", toolName := "search"
    argumentsJson := "\x7b\x7d", securityLevel := 0, status := status, resultJson := ""
    errorMessage := "", createdAtNs := createdAtNs, completedAtNs := 0 }

/-- The denial has a lower status than the running call and still ends it; what comes after
it changes nothing. -/
theorem toolCall_moves_on_denied : ∃ last,
    (new.upsertToolCalls ([toolCallSample 0 5, toolCallSample 3 5] ++
      [toolCallSample 2 6, toolCallSample 4 7])).toolCalls.lookup "call-1" = some last ∧
      (toolCallSample 3 5).LeadsTo last :=
  toolCall_moves_on new [toolCallSample 0 5, toolCallSample 3 5]
    [toolCallSample 2 6, toolCallSample 4 7] "call-1" (toolCallSample 3 5) (by decide)

end TopicCaches

end DdsOrchestrator.Dataspace
