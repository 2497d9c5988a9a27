import DdsOrchestrator.Lib.Assoc
import DdsOrchestrator.Lib.Machine

/-!
The limit on the calls of one agent, over a window that slides. The first call of an agent
primes its entry, and the later ones are recorded there. The call that finds every record
older than the window takes the entry away, and the one after it primes it again. Neither of
these two is recorded.
-/

namespace DdsOrchestrator.PolicyEngine

def rateLimitWindowMs : Nat := 60000

structure LocalPolicyEngine where
  maxCallsPerMinute : Nat
  /-- The times of the recorded calls of each agent. -/
  callHistory : Map String (List Nat)

namespace LocalPolicyEngine

def new (maxCallsPerMinute : Nat) : LocalPolicyEngine :=
  { maxCallsPerMinute, callHistory := ∅ }

def checkRateLimitAt (agentId : String) (now : Nat) (e : LocalPolicyEngine) :
    Bool × LocalPolicyEngine :=
  let windowStart := now - rateLimitWindowMs
  match e.callHistory.lookup agentId with
  | none => (true, { e with callHistory := e.callHistory.insert agentId [] })
  | some history =>
    let hadRecords := !history.isEmpty
    let history := history.filter (windowStart < ·)
    if history.isEmpty then
      if hadRecords then (true, { e with callHistory := e.callHistory.erase agentId })
      else (true, { e with callHistory := e.callHistory.insert agentId (history ++ [now]) })
    else if e.maxCallsPerMinute ≤ history.length then
      (false, { e with callHistory := e.callHistory.insert agentId history })
    else (true, { e with callHistory := e.callHistory.insert agentId (history ++ [now]) })

end LocalPolicyEngine

structure RateCall where
  agentId : String
  nowMs : Nat
  deriving DecidableEq

namespace LocalPolicyEngine

def call (e : LocalPolicyEngine) (c : RateCall) : LocalPolicyEngine :=
  (e.checkRateLimitAt c.agentId c.nowMs).2

/-- The calls with their answers. -/
def answers (e : LocalPolicyEngine) (calls : List RateCall) : List (RateCall × Bool) :=
  Machine.trace call (fun e c => [(c, (e.checkRateLimitAt c.agentId c.nowMs).1)]) e calls

def answersTo (agentId : String) (e : LocalPolicyEngine) (calls : List RateCall) :
    List (RateCall × Bool) :=
  (e.answers calls).filter fun x => x.1.agentId = agentId

end LocalPolicyEngine

/-- The call was allowed in the window from `start` on, and not at the time zero. -/
def AllowedWithin (start : Nat) (x : RateCall × Bool) : Prop :=
  x.2 = true ∧ 0 < x.1.nowMs ∧ start ≤ x.1.nowMs ∧ x.1.nowMs < start + rateLimitWindowMs

instance (start : Nat) : DecidablePred (AllowedWithin start) := fun x =>
  inferInstanceAs (Decidable (x.2 = true ∧ 0 < x.1.nowMs ∧ start ≤ x.1.nowMs ∧
    x.1.nowMs < start + rateLimitWindowMs))

/-! ### One agent -/

/-- The records that are not older than the window. -/
def recent (now : Nat) (history : List Nat) : List Nat :=
  history.filter (now - rateLimitWindowMs < ·)

/-- What a call makes of the entry of its agent. -/
def askEntry (maxCalls : Nat) (entry : Option (List Nat)) (now : Nat) : Bool × Option (List Nat) :=
  match entry with
  | none => (true, some [])
  | some history =>
    if recent now history = [] then (true, if history = [] then some [now] else none)
    else if maxCalls ≤ (recent now history).length then (false, some (recent now history))
    else (true, some (recent now history ++ [now]))

def entryAfter (maxCalls : Nat) (entry : Option (List Nat)) (now : Nat) : Option (List Nat) :=
  (askEntry maxCalls entry now).2

def entryAnswers (maxCalls : Nat) (entry : Option (List Nat)) (times : List Nat) :
    List (Nat × Bool) :=
  Machine.trace (entryAfter maxCalls) (fun entry now => [(now, (askEntry maxCalls entry now).1)])
    entry times

theorem entryAnswers_cons (maxCalls : Nat) (entry : Option (List Nat)) (now : Nat)
    (times : List Nat) : entryAnswers maxCalls entry (now :: times) =
      (now, (askEntry maxCalls entry now).1) ::
        entryAnswers maxCalls (entryAfter maxCalls entry now) times :=
  rfl

theorem entryAnswers_append (maxCalls : Nat) (entry : Option (List Nat)) (before after : List Nat) :
    entryAnswers maxCalls entry (before ++ after) = entryAnswers maxCalls entry before ++
      entryAnswers maxCalls (before.foldl (entryAfter maxCalls) entry) after :=
  Machine.trace_append

/-- The ways a call can go: what it finds, the answer, and what it leaves. -/
inductive Ask (maxCalls now : Nat) : Option (List Nat) → Bool → Option (List Nat) → Prop
  | primed : Ask maxCalls now none true (some [])
  | first : Ask maxCalls now (some []) true (some [now])
  | expired {history : List Nat} (hrecords : history ≠ []) (hexpired : recent now history = []) :
      Ask maxCalls now (some history) true none
  | refused {history : List Nat} (hexpired : recent now history ≠ [])
      (hfull : maxCalls ≤ (recent now history).length) :
      Ask maxCalls now (some history) false (some (recent now history))
  | recorded {history : List Nat} (hexpired : recent now history ≠ [])
      (hfree : (recent now history).length < maxCalls) :
      Ask maxCalls now (some history) true (some (recent now history ++ [now]))

theorem ask_cases (maxCalls now : Nat) (entry : Option (List Nat)) :
    Ask maxCalls now entry (askEntry maxCalls entry now).1 (entryAfter maxCalls entry now) := by
  cases entry with
  | none => exact .primed
  | some history =>
      simp only [entryAfter, askEntry]
      split_ifs with hexpired hempty hfull
      · rw [hempty]
        exact .first
      · exact .expired hempty hexpired
      · exact .refused hexpired hfull
      · exact .recorded hexpired (Nat.lt_of_not_le hfull)

theorem checkRateLimitAt_spec (agentId : String) (now : Nat) (e : LocalPolicyEngine) :
    (e.checkRateLimitAt agentId now).1 =
        (askEntry e.maxCallsPerMinute (e.callHistory.lookup agentId) now).1 ∧
      (e.checkRateLimitAt agentId now).2.maxCallsPerMinute = e.maxCallsPerMinute ∧
      ∀ agentId', (e.checkRateLimitAt agentId now).2.callHistory.lookup agentId' =
        if agentId' = agentId then
          entryAfter e.maxCallsPerMinute (e.callHistory.lookup agentId) now
        else e.callHistory.lookup agentId' := by
  cases hlookup : e.callHistory.lookup agentId with
  | none =>
      simp only [LocalPolicyEngine.checkRateLimitAt, entryAfter, askEntry, hlookup,
        Map.lookup_insert_if, true_and, implies_true]
  | some history =>
      have hrecent : history.filter (now - rateLimitWindowMs < ·) = recent now history := rfl
      simp only [LocalPolicyEngine.checkRateLimitAt, entryAfter, askEntry, hlookup, hrecent,
        List.isEmpty_iff]
      split_ifs with hexpired hrecords hempty hempty hfull
      · exact absurd hempty (by simpa using hrecords)
      · exact ⟨rfl, rfl, fun agentId' => Map.lookup_erase_if _ _ _⟩
      · rw [hexpired]
        exact ⟨rfl, rfl, fun agentId' => Map.lookup_insert_if _ _ _ _⟩
      · exact absurd hrecords (by simpa using hempty)
      · exact ⟨rfl, rfl, fun agentId' => Map.lookup_insert_if _ _ _ _⟩
      · exact ⟨rfl, rfl, fun agentId' => Map.lookup_insert_if _ _ _ _⟩

/-- What an agent is answered depends on its own entry and its own calls. -/
theorem answersTo_eq (agentId : String) (e : LocalPolicyEngine) (calls : List RateCall) :
    e.answersTo agentId calls =
      (entryAnswers e.maxCallsPerMinute (e.callHistory.lookup agentId)
        ((calls.filter fun c => c.agentId = agentId).map RateCall.nowMs)).map
          fun x => (⟨agentId, x.1⟩, x.2) := by
  induction calls generalizing e with
  | nil => rfl
  | cons c calls ih =>
      obtain ⟨hanswer, hmax, hlookup⟩ := checkRateLimitAt_spec c.agentId c.nowMs e
      have hrest := ih (e.call c)
      rw [LocalPolicyEngine.answersTo] at hrest ⊢
      rw [LocalPolicyEngine.answers, Machine.trace, List.filter_append]
      show _ ++ ((e.call c).answers calls).filter _ = _
      rw [hrest, LocalPolicyEngine.call, hmax, hlookup agentId]
      by_cases hsame : c.agentId = agentId
      · subst hsame
        rw [if_pos rfl, List.filter_cons_of_pos (by simp), List.filter_cons_of_pos (by simp),
          hanswer]
        rfl
      · rw [if_neg (Ne.symm hsame), List.filter_cons_of_neg (by simpa using hsame),
          List.filter_cons_of_neg (by simpa using hsame)]
        rfl

theorem answersTo_filter (agentId : String) (e : LocalPolicyEngine) (calls : List RateCall) :
    e.answersTo agentId calls =
      e.answersTo agentId (calls.filter fun c => c.agentId = agentId) := by
  rw [answersTo_eq, answersTo_eq, List.filter_filter]
  simp only [Bool.and_self]

/-! ### A window -/

section Window

variable {maxCalls start count now : Nat} {entry : Option (List Nat)} {times : List Nat}

/-- How many of the times are in the window, or after it. -/
def recordsFrom (start : Nat) (history : List Nat) : Nat :=
  history.countP fun t => decide (start ≤ t)

/-- The entry of an agent that was allowed `count` calls in the window. Where there are records
and none of them is in the window, none was allowed. -/
def Within (maxCalls start count : Nat) : Option (List Nat) → Prop
  | none => count ≤ 1
  | some history =>
    count ≤ recordsFrom start history + 2 ∧ recordsFrom start history ≤ maxCalls ∧
      (history ≠ [] → recordsFrom start history = 0 → count = 0)

theorem Within.count_le (h : Within maxCalls start count entry) : count ≤ maxCalls + 2 := by
  cases entry with
  | none =>
      have hcount : count ≤ 1 := h
      omega
  | some history =>
      obtain ⟨hcount, hrecords, -⟩ := h
      omega

/-- A record of the window stays as long as the window lasts. -/
theorem recordsFrom_recent (hstart : 0 < start) (hend : now < start + rateLimitWindowMs)
    (history : List Nat) :
    recordsFrom start (history.filter (now - rateLimitWindowMs < ·)) =
      recordsFrom start history := by
  rw [recordsFrom, recordsFrom, List.countP_filter]
  refine List.countP_congr fun t _ => ?_
  simp only [Bool.and_eq_true, decide_eq_true_eq]
  omega

theorem recordsFrom_concat (hnow : start ≤ now) (history : List Nat) :
    recordsFrom start (history ++ [now]) = recordsFrom start history + 1 := by
  rw [recordsFrom, recordsFrom, List.countP_append, List.countP_singleton,
    if_pos (decide_eq_true hnow)]

theorem Within.step (h : Within maxCalls start count entry) (hmax : 1 ≤ maxCalls)
    (hstart : 0 < start) (hnow : start ≤ now) (hend : now < start + rateLimitWindowMs) :
    Within maxCalls start (count + if (askEntry maxCalls entry now).1 then 1 else 0)
      (entryAfter maxCalls entry now) := by
  have hcases := ask_cases maxCalls now entry
  generalize (askEntry maxCalls entry now).1 = answer at hcases ⊢
  generalize entryAfter maxCalls entry now = after at hcases ⊢
  cases hcases with
  | primed =>
      have hcount : count ≤ 1 := h
      show count + 1 ≤ 0 + 2 ∧ 0 ≤ maxCalls ∧ _
      exact ⟨by omega, by omega, fun hne => absurd rfl hne⟩
  | first =>
      obtain ⟨hcount, -, -⟩ := h
      have hrecords : recordsFrom start [now] = 1 := recordsFrom_concat hnow []
      have hcount' : count ≤ 0 + 2 := hcount
      show count + 1 ≤ recordsFrom start [now] + 2 ∧ recordsFrom start [now] ≤ maxCalls ∧ _
      exact ⟨by omega, by omega, fun _ hnone => by omega⟩
  | @expired history hrecords hexpired =>
      -- no record is in the window, so no call was allowed in it before this one
      obtain ⟨-, -, hnone⟩ := h
      have hrecent := recordsFrom_recent hstart hend history
      rw [recent] at hexpired
      rw [hexpired] at hrecent
      have hcount : count = 0 := hnone hrecords hrecent.symm
      show count + 1 ≤ 1
      omega
  | @refused history hexpired hfull =>
      obtain ⟨hcount, hrecords, hnone⟩ := h
      have hrecent := recordsFrom_recent hstart hend history
      refine ⟨by rwa [recent, hrecent], by rwa [recent, hrecent], fun _ hzero => ?_⟩
      rw [recent, hrecent] at hzero
      refine hnone ?_ hzero
      rintro rfl
      exact hexpired rfl
  | @recorded history hexpired hfree =>
      obtain ⟨hcount, hrecords, hnone⟩ := h
      have hrecent := recordsFrom_recent hstart hend history
      have hle : recordsFrom start (recent now history) ≤ (recent now history).length :=
        List.countP_le_length
      have hconcat := recordsFrom_concat hnow (recent now history)
      rw [← recent] at hrecent
      show count + 1 ≤ recordsFrom start (recent now history ++ [now]) + 2 ∧
        recordsFrom start (recent now history ++ [now]) ≤ maxCalls ∧ _
      exact ⟨by omega, by omega, fun _ hzero => by omega⟩

theorem Within.run (hmax : 1 ≤ maxCalls) (hstart : 0 < start)
    (hduring : ∀ t ∈ times, start ≤ t ∧ t < start + rateLimitWindowMs)
    (h : Within maxCalls start count entry) :
    count + (entryAnswers maxCalls entry times).countP (·.2) ≤ maxCalls + 2 := by
  induction times generalizing count entry with
  | nil => exact h.count_le
  | cons now times ih =>
      obtain ⟨hnow, hend⟩ := hduring now List.mem_cons_self
      have hrest := ih (fun t ht => hduring t (.tail _ ht)) (h.step hmax hstart hnow hend)
      rw [entryAnswers_cons, List.countP_cons]
      dsimp only
      omega

/-- Every record is older than the window. -/
def Before (start : Nat) (entry : Option (List Nat)) : Prop :=
  ∀ history, entry = some history → ∀ t ∈ history, t < start

theorem Before.step (h : Before start entry) (hnow : now < start) :
    Before start (entryAfter maxCalls entry now) := by
  have hcases := ask_cases maxCalls now entry
  generalize (askEntry maxCalls entry now).1 = answer at hcases
  generalize entryAfter maxCalls entry now = after at hcases ⊢
  cases hcases with
  | primed =>
      rintro _ ⟨rfl⟩ t ht
      cases ht
  | first =>
      rintro _ ⟨rfl⟩ t ht
      rwa [List.mem_singleton.mp ht]
  | expired =>
      rintro _ ⟨⟩
  | refused =>
      rintro _ ⟨rfl⟩ t ht
      exact h _ rfl t (List.mem_of_mem_filter ht)
  | recorded =>
      rintro _ ⟨rfl⟩ t ht
      rcases List.mem_append.mp ht with hold | hnew
      · exact h _ rfl t (List.mem_of_mem_filter hold)
      · rwa [List.mem_singleton.mp hnew]

theorem Before.within (h : Before start entry) : Within maxCalls start 0 entry := by
  cases entry with
  | none => exact Nat.zero_le 1
  | some history =>
      have hrecords : recordsFrom start history = 0 := by
        rw [recordsFrom, List.countP_eq_zero]
        intro t ht
        have hlt : t < start := h history rfl t ht
        simpa using hlt
      exact ⟨Nat.zero_le _, by omega, fun _ _ => rfl⟩

/-- Times in order are cut at any time. -/
theorem exists_cut (hsorted : times.Pairwise (· ≤ ·)) (start : Nat) :
    ∃ before after, times = before ++ after ∧ (∀ t ∈ before, t < start) ∧
      ∀ t ∈ after, start ≤ t := by
  induction times with
  | nil => exact ⟨[], [], rfl, by simp, by simp⟩
  | cons now times ih =>
      obtain ⟨hfirst, hrest⟩ := List.pairwise_cons.mp hsorted
      by_cases hnow : now < start
      · obtain ⟨before, after, rfl, hbefore, hafter⟩ := ih hrest
        exact ⟨now :: before, after, rfl, List.forall_mem_cons.mpr ⟨hnow, hbefore⟩, hafter⟩
      · refine ⟨[], now :: times, rfl, by simp, fun t ht => ?_⟩
        rcases List.mem_cons.mp ht with rfl | hlater
        · omega
        · have hle := hfirst t hlater
          omega

theorem time_of_entryAnswers {x : Nat × Bool} (hx : x ∈ entryAnswers maxCalls entry times) :
    x.1 ∈ times := by
  obtain ⟨before, now, after, rfl, hnow⟩ := Machine.mem_trace.mp hx
  rw [List.mem_singleton.mp hnow]
  simp

/-- No window that starts after the time zero holds more than the recorded calls, the one that
primes, and the one that finds the records too old. -/
theorem entryAnswers_window (hmax : 1 ≤ maxCalls) (hstart : 0 < start)
    (hsorted : times.Pairwise (· ≤ ·)) :
    (entryAnswers maxCalls none times).countP
      (fun x => x.2 && decide (start ≤ x.1 ∧ x.1 < start + rateLimitWindowMs)) ≤ maxCalls + 2 := by
  obtain ⟨before, rest, rfl, hbefore, hrest⟩ := exists_cut hsorted start
  obtain ⟨during, after, rfl, hduring, hafter⟩ :=
    exists_cut (List.pairwise_append.mp hsorted).2.1 (start + rateLimitWindowMs)
  have hentry : Before start (before.foldl (entryAfter maxCalls) none) := by
    have hrun : Machine.Along (entryAfter maxCalls) (fun _ now => now < start) none before := by
      rw [Machine.along_iff_forall]
      rintro first now later rfl
      exact hbefore now (by simp)
    exact hrun.invariant (fun _ h => by cases h) fun entry now h hnow => h.step hnow
  have hwithin : Within maxCalls start 0 (before.foldl (entryAfter maxCalls) none) := hentry.within
  have hrun := hwithin.run hmax hstart fun t ht => ⟨hrest t (by simp [ht]), hduring t ht⟩
  have hnever : ∀ (entry : Option (List Nat)) (ts : List Nat),
      (∀ t ∈ ts, ¬ (start ≤ t ∧ t < start + rateLimitWindowMs)) →
        (entryAnswers maxCalls entry ts).countP
          (fun x => x.2 && decide (start ≤ x.1 ∧ x.1 < start + rateLimitWindowMs)) = 0 := by
    intro entry ts hout
    rw [List.countP_eq_zero]
    intro x hx hcounted
    obtain ⟨-, hin⟩ := Bool.and_eq_true_iff.mp hcounted
    exact hout x.1 (time_of_entryAnswers hx) (of_decide_eq_true hin)
  have hearly := hnever none before fun t ht hin => by
    have hlt := hbefore t ht
    omega
  have hlate := hnever
    (during.foldl (entryAfter maxCalls) (before.foldl (entryAfter maxCalls) none)) after
    fun t ht hin => by
      have hle := hafter t ht
      omega
  have hall : (entryAnswers maxCalls (before.foldl (entryAfter maxCalls) none) during).countP
        (fun x => x.2 && decide (start ≤ x.1 ∧ x.1 < start + rateLimitWindowMs)) ≤
      (entryAnswers maxCalls (before.foldl (entryAfter maxCalls) none) during).countP (·.2) :=
    List.countP_mono_left fun x _ hx => (Bool.and_eq_true_iff.mp hx).1
  rw [entryAnswers_append, entryAnswers_append, List.countP_append, List.countP_append]
  omega

end Window

/-- Of the calls of one agent, in order of time, at most the recorded ones and two more are
allowed in a window, calls at the time zero not counted, and the answers do not depend on the
calls of the other agents. -/
theorem rateLimit_bound (maxCalls : Nat) (hmax : 1 ≤ maxCalls) (agentId : String)
    (calls : List RateCall)
    (hsorted : (calls.filter fun c => c.agentId = agentId).Pairwise
      fun c c' => c.nowMs ≤ c'.nowMs) :
    (∀ start, ((LocalPolicyEngine.new maxCalls).answersTo agentId calls).countP
      (AllowedWithin start) ≤ maxCalls + 2) ∧
    (LocalPolicyEngine.new maxCalls).answersTo agentId calls =
      (LocalPolicyEngine.new maxCalls).answersTo agentId
        (calls.filter fun c => c.agentId = agentId) := by
  refine ⟨fun start => ?_, answersTo_filter _ _ _⟩
  -- the calls at the time zero are not counted, so the window may as well start after it
  have hwindow := entryAnswers_window hmax (show 0 < max start 1 by omega)
    (List.pairwise_map.mpr hsorted)
  refine Nat.le_trans ?_ hwindow
  rw [answersTo_eq, List.countP_map]
  refine List.countP_mono_left fun x _ hx => ?_
  obtain ⟨hallowed, hpos, hnow, hend⟩ := of_decide_eq_true hx
  refine Bool.and_eq_true_iff.mpr ⟨hallowed, decide_eq_true ?_⟩
  show max start 1 ≤ x.1 ∧ x.1 < max start 1 + rateLimitWindowMs
  have hpos' : 0 < x.1 := hpos
  have hnow' : start ≤ x.1 := hnow
  have hend' : x.1 < start + rateLimitWindowMs := hend
  omega

theorem rateLimit_bound_one :
    (∀ start, ((LocalPolicyEngine.new 1).answersTo "a"
      [⟨"a", 1⟩, ⟨"b", 1⟩, ⟨"a", 2⟩, ⟨"a", 3⟩]).countP (AllowedWithin start) ≤ 3) ∧
    (LocalPolicyEngine.new 1).answersTo "a" [⟨"a", 1⟩, ⟨"b", 1⟩, ⟨"a", 2⟩, ⟨"a", 3⟩] =
      (LocalPolicyEngine.new 1).answersTo "a" [⟨"a", 1⟩, ⟨"a", 2⟩, ⟨"a", 3⟩] :=
  rateLimit_bound 1 (Nat.le_refl 1) "a" [⟨"a", 1⟩, ⟨"b", 1⟩, ⟨"a", 2⟩, ⟨"a", 3⟩] (by decide)

/-- The call at 60002 finds the only record too old and takes the entry away, the next one
primes it again, and the third one is recorded. At the time zero a record is too old at
once. -/
theorem expired_window_allows_three :
    let calls := [⟨"a", 1⟩, ⟨"a", 2⟩, ⟨"a", 60002⟩, ⟨"a", 60003⟩, ⟨"a", 60004⟩]
    let zeros := List.replicate 6 ⟨"a", 0⟩
    calls.Pairwise (fun c c' => c.nowMs ≤ c'.nowMs) ∧
      1 + 1 < ((LocalPolicyEngine.new 1).answersTo "a" calls).countP (AllowedWithin 60002) ∧
      ((LocalPolicyEngine.new 1).answersTo "a" zeros).countP (·.2) = 6 := by
  decide

end DdsOrchestrator.PolicyEngine
