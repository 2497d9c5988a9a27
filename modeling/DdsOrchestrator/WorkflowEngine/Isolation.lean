import DdsOrchestrator.Lib.Joined
import DdsOrchestrator.WorkflowEngine.Atomicity

/-!
What one materialisation can mean for another one. Two attempts share the
journal: the reservations under their keys, the unique task ids, and, within
one workflow, its budget. Keys and task ids join the identifiers with a
separator that the identifiers may contain, so two attempts can share a row of
the journal without being the same attempt.
-/

namespace DdsOrchestrator.WorkflowEngine

open EngineState

/-! ### Placements -/

/-- One materialisation: a node of the accepted plan of a workflow, and the
memory from which it is made. -/
structure Placement where
  workflowId : String
  plan : PlanCandidate
  node : String
  microunits : UInt64
  state : EngineState

namespace Placement

def graph (a : Placement) : PlanGraph := PlanGraph.fromCandidate a.workflowId 1 a.plan

def attempt (a : Placement) : Nat := (a.state.started a.node).activeAttempt

def triple (a : Placement) : AttemptKey := (a.workflowId, a.node, a.attempt)

/-- The idempotency key of its reservation. -/
def key (a : Placement) : String := reservationKey a.workflowId a.node a.attempt

/-- The text that is hashed into its task id. -/
def preimage (a : Placement) : String :=
  a.workflowId ++ "|" ++ toString 1 ++ "|" ++ a.node ++ "|" ++ toString a.attempt

def taskId (a : Placement) : String := taskIdOf a.graph a.node a.attempt

def run (io : JournalCall → Bool) (a : Placement) (j : Journal) :
    Except EngineError String × EngineState × Journal :=
  a.state.materialize io a.graph a.node a.microunits j

/-- Materialising `a` first changes neither the result nor the memory that
materialising `b` gives. -/
def Undisturbed (io : JournalCall → Bool) (a b : Placement) (j : Journal) : Prop :=
  (b.run io (a.run io j).2.2).1 = (b.run io j).1 ∧
    (b.run io (a.run io j).2.2).2.1 = (b.run io j).2.1

/-- The two share no reservation and no task id, and the first does not disturb
the second. -/
def Isolated (io : JournalCall → Bool) (a b : Placement) (j : Journal) : Prop :=
  a.key ≠ b.key ∧ a.taskId ≠ b.taskId ∧ Undisturbed io a b j

/-! ### When the two are isolated -/

/-- The workflow id of `b` is that of `a` continued past a separator, and the
node id of `a` holds the rest. -/
def Cut (sep : String) (a b : Placement) : Prop :=
  ∃ v, b.workflowId = a.workflowId ++ sep ++ v ∧ a.node = v ++ sep ++ b.node

/-- The reservation keys are the same text. -/
def KeysMeet (a b : Placement) : Prop :=
  a.attempt = b.attempt ∧ (Cut ":" a b ∨ Cut ":" b a)

/-- Here two separators `|1|` share a bar. -/
def Straddle (a b : Placement) : Prop :=
  b.workflowId = a.workflowId ++ "|1" ∧ a.node = "1|" ++ b.node

/-- The hashed texts are the same. -/
def IdsMeet (a b : Placement) : Prop :=
  a.attempt = b.attempt ∧
    ((Cut "|1|" a b ∨ Straddle a b) ∨ Cut "|1|" b a ∨ Straddle b a)

/-- What the budget of a workflow answers to a request: nothing if it is granted,
else the refusal. -/
def answer (w : WorkflowRow) (purpose : String) (microunits : UInt64) : Option JournalError :=
  match w.remaining with
  | .real _ => some remainingNotInteger
  | .integer budget =>
      if budget < asI64 microunits then
        some (.insufficientBudget purpose microunits budget.natAbs)
      else if (w.reserve microunits).Check then none
      else some (.sqlite (.constraint budgetCheckFailed))

/-- The materialisation comes to ask for a new reservation. -/
def Asks (io : JournalCall → Bool) (a : Placement) (j : Journal) : Prop :=
  Accepts a.graph (a.state, j) (.materialize a.node a.microunits) ∧
    io (.reserve a.key) = false ∧ j.reservations.lookup a.key = none

/-- Two attempts of one workflow that both ask its budget: what the first is
granted does not change the answer to the second. -/
def BudgetKeeps (io : JournalCall → Bool) (a b : Placement) (j : Journal) : Prop :=
  a.workflowId = b.workflowId → Asks io a j → Asks io b j →
    ∀ w, j.workflows.lookup a.workflowId = some w → Journal.Grants w a.microunits →
      answer (w.reserve a.microunits) b.key b.microunits = answer w b.key b.microunits

/-! ### Texts -/

theorem later_iff_cut {sep : String} {a b : Placement} :
    Joined.Later sep.toList a.workflowId.toList a.node.toList b.workflowId.toList b.node.toList ↔
      Cut sep a b := by
  constructor
  · rintro ⟨v, hworkflow, hnode⟩
    refine ⟨String.ofList v, ?_, ?_⟩
    · rw [← String.toList_inj]
      simp [hworkflow]
    · rw [← String.toList_inj]
      simp [hnode]
  · rintro ⟨v, hworkflow, hnode⟩
    exact ⟨v.toList, by simp [hworkflow], by simp [hnode]⟩

theorem straddles_iff_straddle {a b : Placement} :
    Joined.Straddles '|' '1' a.workflowId.toList a.node.toList b.workflowId.toList b.node.toList ↔
      Straddle a b := by
  unfold Joined.Straddles Straddle
  rw [← String.toList_inj, ← String.toList_inj]
  simp

section Texts

variable {a b : Placement}

theorem triple_eq (hworkflow : a.workflowId.toList = b.workflowId.toList)
    (hnode : a.node.toList = b.node.toList) (hattempt : a.attempt = b.attempt) :
    a.triple = b.triple := by
  rw [triple, triple, String.toList_inj.mp hworkflow, String.toList_inj.mp hnode, hattempt]

/-- Different attempts have the same key exactly when their keys meet. -/
theorem key_eq_iff (hne : a.triple ≠ b.triple) : a.key = b.key ↔ KeysMeet a b := by
  have hjoin : "attempt:" ++ a.workflowId ++ ":" ++ a.node =
      "attempt:" ++ b.workflowId ++ ":" ++ b.node ↔
      (a.workflowId.toList = b.workflowId.toList ∧ a.node.toList = b.node.toList) ∨
        Cut ":" a b ∨ Cut ":" b a := by
    rw [← later_iff_cut, ← later_iff_cut]
    show _ ↔ _ ∨ Joined.Later [':'] _ _ _ _ ∨ Joined.Later [':'] _ _ _ _
    rw [← Joined.join_singleton_eq_iff, ← String.toList_inj]
    simp
  refine (Joined.numbered_inj (c := ':') rfl).trans ?_
  rw [hjoin]
  constructor
  · rintro ⟨hsame | hmeet, hattempt⟩
    · exact absurd (triple_eq hsame.1 hsame.2 hattempt) hne
    · exact ⟨hattempt, hmeet⟩
  · rintro ⟨hattempt, hmeet⟩
    exact ⟨.inr hmeet, hattempt⟩

/-- Different attempts hash the same text exactly when their ids meet. -/
theorem preimage_eq_iff (hne : a.triple ≠ b.triple) : a.preimage = b.preimage ↔ IdsMeet a b := by
  have hjoin : a.workflowId ++ "|" ++ toString 1 ++ "|" ++ a.node =
      b.workflowId ++ "|" ++ toString 1 ++ "|" ++ b.node ↔
      (a.workflowId.toList = b.workflowId.toList ∧ a.node.toList = b.node.toList) ∨
        (Cut "|1|" a b ∨ Straddle a b) ∨ Cut "|1|" b a ∨ Straddle b a := by
    rw [← later_iff_cut, ← later_iff_cut, ← straddles_iff_straddle, ← straddles_iff_straddle]
    show _ ↔ _ ∨ (Joined.Later ['|', '1', '|'] _ _ _ _ ∨ _) ∨
      Joined.Later ['|', '1', '|'] _ _ _ _ ∨ _
    rw [← Joined.join_triple_eq_iff (by decide), ← String.toList_inj]
    have hone : Nat.toDigits 10 1 = ['1'] := by decide
    simp [hone]
  refine (Joined.numbered_inj (c := '|') rfl).trans ?_
  rw [hjoin]
  constructor
  · rintro ⟨hsame | hmeet, hattempt⟩
    · exact absurd (triple_eq hsame.1 hsame.2 hattempt) hne
    · exact ⟨hattempt, hmeet⟩
  · rintro ⟨hattempt, hmeet⟩
    exact ⟨.inr hmeet, hattempt⟩

theorem taskId_eq_iff (hne : a.triple ≠ b.triple)
    (hsha : sha256Hex a.preimage = sha256Hex b.preimage → a.preimage = b.preimage) :
    a.taskId = b.taskId ↔ IdsMeet a b := by
  rw [← preimage_eq_iff hne]
  constructor
  · intro h
    exact hsha ((String.append_right_inj _).mp h)
  · intro h
    show "laya1-" ++ sha256Hex a.preimage = "laya1-" ++ sha256Hex b.preimage
    rw [h]

end Texts

/-! ### What a placement sees of the journal -/

theorem answer_eq_none {w : WorkflowRow} {purpose : String} {microunits : UInt64} :
    answer w purpose microunits = none ↔ Journal.Grants w microunits := by
  unfold answer
  split
  · rename_i r hleft
    refine iff_of_false (by simp) ?_
    rintro ⟨⟨budget, hbudget, -⟩, -⟩
    rw [hleft] at hbudget
    cases hbudget
  · rename_i budget hleft
    split
    · rename_i hshort
      refine iff_of_false (by simp) ?_
      rintro ⟨⟨budget', hbudget, hfits⟩, -⟩
      rw [hleft] at hbudget
      cases hbudget
      exact absurd hshort (not_lt.mpr hfits)
    · rename_i hfits
      split
      · rename_i hcheck
        exact iff_of_true rfl ⟨⟨budget, hleft, not_lt.mp hfits⟩, hcheck⟩
      · rename_i hcheck
        exact iff_of_false (by simp) fun h => hcheck h.check

theorem reserveTx_of_answer {workflowId key purpose : String} {tokens microunits : UInt64}
    {j : Journal} {w : WorkflowRow} {e : JournalError} (hw : j.workflows.lookup workflowId = some w)
    (hanswer : answer w purpose microunits = some e) :
    j.reserveTx workflowId key purpose tokens microunits = .error e := by
  unfold answer at hanswer
  unfold Journal.reserveTx
  rw [hw]
  dsimp only
  obtain ⟨left, hleft⟩ : ∃ left, w.remaining = left := ⟨_, rfl⟩
  rw [hleft] at hanswer ⊢
  cases left with
  | real r => exact congrArg Except.error (Option.some.inj hanswer)
  | integer budget =>
      dsimp only at hanswer ⊢
      by_cases hshort : budget < asI64 microunits
      · rw [if_pos hshort] at hanswer ⊢
        exact congrArg Except.error (Option.some.inj hanswer)
      · rw [if_neg hshort] at hanswer ⊢
        by_cases hcheck : (w.reserve microunits).Check
        · rw [if_pos hcheck] at hanswer
          cases hanswer
        · rw [if_neg hcheck] at hanswer
          injection hanswer with he
          simp only [Journal.updateWorkflow, hw, hcheck, not_false_eq_true, if_true, ← he]
          rfl

/-- A reservation, with its transaction written out: the budget is the only
thing that can refuse a new one. -/
theorem reserve_eq (io : JournalCall → Bool) (workflowId key purpose : String)
    (tokens microunits : UInt64) (j : Journal) :
    j.reserve io workflowId key purpose tokens microunits =
      if io (.reserve key) then (.error ioFailure, j)
      else match j.reservations.lookup key with
      | some row =>
          (.ok (if row.state = .reserved then .replayed (asU64 row.tokensReserved)
            else .alreadyConsumed), j)
      | none =>
          match j.workflows.lookup workflowId with
          | none => (.error (.sqlite .queryReturnedNoRows), j)
          | some w =>
              match answer w purpose microunits with
              | some e => (.error e, j)
              | none => (.ok (.reserved tokens microunits), { j with
                  workflows := j.workflows.insert workflowId (w.reserve microunits)
                  reservations := j.reservations.insert key
                    ⟨workflowId, purpose, asI64 tokens, asI64 microunits, .reserved⟩ }) := by
  cases hio : io (.reserve key) with
  | true => rw [Journal.reserve, hio, if_pos rfl, if_pos rfl]
  | false =>
      rw [if_neg (by simp)]
      cases hkey : j.reservations.lookup key with
      | some row => simp only [Journal.reserve, hio, hkey, Bool.false_eq_true, if_false]
      | none =>
          dsimp only
          cases hw : j.workflows.lookup workflowId with
          | none =>
              simp only [Journal.reserve, hio, hkey, Bool.false_eq_true, if_false]
              refine Loop.atomically_of_error ?_
              simp only [Journal.reserveTx, hw]
          | some w =>
              dsimp only
              cases hanswer : answer w purpose microunits with
              | some e =>
                  simp only [Journal.reserve, hio, hkey, Bool.false_eq_true, if_false]
                  exact Loop.atomically_of_error (reserveTx_of_answer hw hanswer)
              | none =>
                  exact Journal.reserve_of_grants purpose tokens hio hkey hw
                    (answer_eq_none.mp hanswer)

/-- Two journals that a placement cannot tell apart, but for the budget. -/
structure Alike (b : Placement) (j j' : Journal) : Prop where
  row : j'.attempts.lookup b.triple = j.attempts.lookup b.triple
  taken : j'.taskIdTaken b.taskId = j.taskIdTaken b.taskId
  known : b.workflowId ∈ j'.workflows ↔ b.workflowId ∈ j.workflows
  reservation : j'.reservations.lookup b.key = j.reservations.lookup b.key

section Outcome

variable {io : JournalCall → Bool} {a b : Placement} {j j' : Journal} {spec : NodeSpec}

/-- The writes of a materialisation that passes its checks. -/
theorem run_eq (hspec : b.graph.node b.node = some spec)
    (hdone : (b.state.progress b.node).done = false)
    (hdoubt : (b.state.progress b.node).inDoubt = false) :
    b.run io j =
      match j.reserve io b.workflowId b.key b.key spec.maxTokens b.microunits with
      | (.error e, j) => (.error (.journal e), b.state.set b.node (b.state.started b.node), j)
      | (.ok .alreadyConsumed, j) =>
          (.error (.reservationConsumed b.node b.attempt),
            b.state.set b.node { b.state.started b.node with inDoubt := true }, j)
      | (.ok _, j) =>
          match j.recordAttempt io b.triple b.taskId .published with
          | (.error e, j) => (.error (.journal e), b.state.set b.node (b.state.started b.node), j)
          | (.ok (), j) =>
              match j.outboxAppend io b.workflowId "publish_task"
                  (publishTaskPayload b.taskId b.node b.attempt) with
              | (.error e, j) =>
                  (.error (.journal e), b.state.set b.node (b.state.started b.node), j)
              | (.ok (), j) => (.ok b.taskId, b.state.set b.node (b.state.started b.node), j) :=
  materialize_eq b.microunits j hspec hdone hdoubt

/-- Result and memory of a materialisation that passes its checks, from what
its three writes return. -/
def outcome (b : Placement) (reserved : Except JournalError Journal.ReserveOutcome)
    (recorded appended : Except JournalError Unit) : Except EngineError String × EngineState :=
  match reserved, recorded, appended with
  | .error e, _, _ => (.error (.journal e), b.state.set b.node (b.state.started b.node))
  | .ok .alreadyConsumed, _, _ =>
      (.error (.reservationConsumed b.node b.attempt),
        b.state.set b.node { b.state.started b.node with inDoubt := true })
  | .ok _, .error e, _ => (.error (.journal e), b.state.set b.node (b.state.started b.node))
  | .ok _, .ok (), .error e => (.error (.journal e), b.state.set b.node (b.state.started b.node))
  | .ok _, .ok (), .ok () => (.ok b.taskId, b.state.set b.node (b.state.started b.node))

theorem run_outcome (io : JournalCall → Bool) (j : Journal)
    (hspec : b.graph.node b.node = some spec)
    (hdone : (b.state.progress b.node).done = false)
    (hdoubt : (b.state.progress b.node).inDoubt = false) :
    ((b.run io j).1, (b.run io j).2.1) =
      b.outcome (j.reserve io b.workflowId b.key b.key spec.maxTokens b.microunits).1
        ((j.reserve io b.workflowId b.key b.key spec.maxTokens b.microunits).2.recordAttempt io
          b.triple b.taskId .published).1
        (if io (.outboxAppend b.workflowId "publish_task"
          (publishTaskPayload b.taskId b.node b.attempt)) then .error ioFailure else .ok ()) := by
  rw [run_eq hspec hdone hdoubt]
  generalize j.reserve io b.workflowId b.key b.key spec.maxTokens b.microunits = out
  obtain ⟨result, k⟩ := out
  cases result with
  | error e => rfl
  | ok granted =>
      cases granted with
      | alreadyConsumed => rfl
      | reserved | replayed =>
          dsimp only
          generalize k.recordAttempt io b.triple b.taskId .published = out
          obtain ⟨recorded, k⟩ := out
          cases recorded with
          | error e => rfl
          | ok _ =>
              dsimp only
              unfold Journal.outboxAppend
              cases io (.outboxAppend b.workflowId "publish_task"
                (publishTaskPayload b.taskId b.node b.attempt)) with
              | true | false => rfl

theorem mem_reserve_workflows (io : JournalCall → Bool) (workflowId key purpose : String)
    (tokens microunits : UInt64) (j : Journal) (id : String) :
    id ∈ (j.reserve io workflowId key purpose tokens microunits).2.workflows ↔
      id ∈ j.workflows := by
  have hstep := Journal.reserve_step io workflowId key purpose tokens microunits j
  generalize j.reserve io workflowId key purpose tokens microunits = out at hstep ⊢
  obtain ⟨result, j'⟩ := out
  cases hstep with
  | failed | replayed | consumed => exact Iff.rfl
  | reserved row hkey hrow =>
      have hmem : workflowId ∈ j.workflows := Map.mem_iff_lookup.mpr ⟨row, hrow⟩
      simp only [AList.mem_insert]
      exact ⟨fun h => h.elim (fun heq => heq ▸ hmem) fun h => h, .inr⟩

theorem recordAttempt_congr {key : AttemptKey} {taskId : String} {state : AttemptState}
    (hrow : j'.attempts.lookup key = j.attempts.lookup key)
    (htaken : j'.taskIdTaken taskId = j.taskIdTaken taskId)
    (hknown : key.1 ∈ j'.workflows ↔ key.1 ∈ j.workflows) :
    (j'.recordAttempt io key taskId state).1 = (j.recordAttempt io key taskId state).1 := by
  unfold Journal.recordAttempt
  rw [hrow, htaken]
  simp only [hknown]
  split
  · rfl
  cases j.attempts.lookup key with
  | some row => by_cases hsame : row.taskId = taskId <;> simp [hsame]
  | none =>
      by_cases hfree : j.taskIdTaken taskId = true
      · simp [hfree]
      · by_cases hmem : key.1 ∈ j.workflows <;> simp [hfree, hmem]

/-- The same answer to the reservation gives the same outcome. -/
theorem Alike.outcome (h : Alike b j j') (hspec : b.graph.node b.node = some spec)
    (hdone : (b.state.progress b.node).done = false)
    (hdoubt : (b.state.progress b.node).inDoubt = false)
    (hreserve : (j'.reserve io b.workflowId b.key b.key spec.maxTokens b.microunits).1 =
      (j.reserve io b.workflowId b.key b.key spec.maxTokens b.microunits).1) :
    (b.run io j').1 = (b.run io j).1 ∧ (b.run io j').2.1 = (b.run io j).2.1 := by
  have hattempts := (Journal.reserve_step io b.workflowId b.key b.key spec.maxTokens b.microunits
    j).attempts_eq
  have hattempts' := (Journal.reserve_step io b.workflowId b.key b.key spec.maxTokens b.microunits
    j').attempts_eq
  have hrecord : ((j'.reserve io b.workflowId b.key b.key spec.maxTokens
      b.microunits).2.recordAttempt io b.triple b.taskId .published).1 =
      ((j.reserve io b.workflowId b.key b.key spec.maxTokens b.microunits).2.recordAttempt io
        b.triple b.taskId .published).1 := by
    refine recordAttempt_congr ?_ ?_ ?_
    · rw [hattempts', hattempts, h.row]
    · have htaken := h.taken
      unfold Journal.taskIdTaken at htaken ⊢
      rw [hattempts', hattempts, htaken]
    · rw [mem_reserve_workflows, mem_reserve_workflows]
      exact h.known
  rw [← Prod.mk.injEq, run_outcome io j' hspec hdone hdoubt, run_outcome io j hspec hdone hdoubt,
    hreserve, hrecord]

theorem run_refused (h : ¬ Accepts b.graph (b.state, j) (.materialize b.node b.microunits)) :
    ∃ e, ∀ k, b.run io k = (.error e, b.state, k) := by
  unfold run materialize
  cases hspec : b.graph.node b.node with
  | none => exact ⟨_, fun _ => rfl⟩
  | some spec =>
      dsimp only
      by_cases hdone : (b.state.progress b.node).done = true
      · exact ⟨.alreadyDone b.node, fun _ => by rw [if_pos hdone]⟩
      · by_cases hdoubt : (b.state.progress b.node).inDoubt = true
        · exact ⟨.reservationConsumed b.node (b.state.progress b.node).activeAttempt, fun _ => by
            rw [if_neg hdone, if_pos hdoubt]⟩
        · exact absurd ⟨spec, hspec, by simpa using hdone, by simpa using hdoubt⟩ h

/-! ### What a placement leaves for another -/

theorem Alike.refl (b : Placement) (j : Journal) : Alike b j j := ⟨rfl, rfl, Iff.rfl, rfl⟩

theorem Alike.trans {j'' : Journal} (h : Alike b j j') (h' : Alike b j' j'') : Alike b j j'' :=
  ⟨h'.row.trans h.row, h'.taken.trans h.taken, h'.known.trans h.known,
    h'.reservation.trans h.reservation⟩

theorem alike_of_reserves {tokens microunits : UInt64} (hkey : a.key ≠ b.key)
    (h : Reserves a.workflowId a.key tokens microunits j j') : Alike b j j' := by
  obtain ⟨out, -, hstep⟩ := h
  cases hstep with
  | replayed | consumed => exact .refl b j
  | reserved row hfree hrow =>
      refine ⟨rfl, rfl, ?_, ?_⟩
      · have hmem : a.workflowId ∈ j.workflows := Map.mem_iff_lookup.mpr ⟨row, hrow⟩
        simp only [AList.mem_insert]
        exact ⟨fun h => h.elim (fun heq => heq ▸ hmem) fun h => h, .inr⟩
      · rw [Map.lookup_insert_if, if_neg (Ne.symm hkey)]

theorem alike_of_record {result : Except JournalError Unit} (hne : a.triple ≠ b.triple)
    (hid : a.taskId ≠ b.taskId)
    (h : Journal.RecordStep a.triple a.taskId .published j result j') : Alike b j j' := by
  cases h with
  | failed | ignored => exact .refl b j
  | written hsame =>
      refine ⟨?_, ?_, Iff.rfl, rfl⟩
      · rw [Map.lookup_insert_if, if_neg (Ne.symm hne)]
      · -- The row written and the row it replaces both carry the other task id.
        rw [Bool.eq_iff_iff, ← not_iff_not, Bool.not_eq_true, Bool.not_eq_true,
          Journal.taskIdTaken_eq_false, Journal.taskIdTaken_eq_false]
        constructor
        · intro hfree k row hrow
          by_cases hk : k = a.triple
          · subst hk
            rw [hsame row hrow]
            exact hid
          · exact hfree k row (Map.lookup_insert_eq_some.mpr (.inr ⟨hk, hrow⟩))
        · intro hfree k row hrow
          rcases Map.lookup_insert_eq_some.mp hrow with ⟨-, rfl⟩ | ⟨-, hrow⟩
          · exact hid
          · exact hfree k row hrow

/-- Placements with different keys and task ids leave each other's rows as they
are. -/
theorem run_alike (io : JournalCall → Bool) (j : Journal) (hne : a.triple ≠ b.triple)
    (hkey : a.key ≠ b.key) (hid : a.taskId ≠ b.taskId) : Alike b j (a.run io j).2.2 := by
  have hstep := EngineState.materialize_step io a.graph a.node a.microunits a.state j
  unfold run
  generalize a.state.materialize io a.graph a.node a.microunits j = out at hstep ⊢
  obtain ⟨result, s, j'⟩ := out
  dsimp only at hstep ⊢
  cases hstep with
  | unknown | done | doubtful | unreserved | consumed => exact .refl b j
  | unrecorded _ _ spec _ _ hreserve => exact alike_of_reserves hkey hreserve
  | recorded _ _ spec _ j₁ j₂ hreserve hrecord rows =>
      have halike := (alike_of_reserves hkey hreserve).trans (alike_of_record hne hid hrecord)
      exact ⟨halike.row, halike.taken, halike.known, halike.reservation⟩

/-- After the reservation no write touches the budgets. -/
theorem run_workflows_eq (hspec : a.graph.node a.node = some spec)
    (hdone : (a.state.progress a.node).done = false)
    (hdoubt : (a.state.progress a.node).inDoubt = false) :
    (a.run io j).2.2.workflows =
      (j.reserve io a.workflowId a.key a.key spec.maxTokens a.microunits).2.workflows := by
  rw [run_eq hspec hdone hdoubt]
  generalize j.reserve io a.workflowId a.key a.key spec.maxTokens a.microunits = out
  obtain ⟨result, k⟩ := out
  cases result with
  | error e => rfl
  | ok granted =>
      cases granted with
      | alreadyConsumed => rfl
      | reserved | replayed =>
          dsimp only
          have hrecord := Journal.recordAttempt_step io a.triple a.taskId .published k
          generalize k.recordAttempt io a.triple a.taskId .published = out at hrecord ⊢
          obtain ⟨recorded, k'⟩ := out
          have hkept : k'.workflows = k.workflows := by cases hrecord <;> rfl
          cases recorded with
          | error e => exact hkept
          | ok _ =>
              dsimp only
              unfold Journal.outboxAppend
              cases io (.outboxAppend a.workflowId "publish_task"
                (publishTaskPayload a.taskId a.node a.attempt)) with
              | true | false => exact hkept

/-- The budget after a placement: it is charged exactly when the placement asks
for a reservation and there is enough. -/
theorem run_workflows (io : JournalCall → Bool) (a : Placement) (j : Journal) :
    (Asks io a j ∧ ∃ w, j.workflows.lookup a.workflowId = some w ∧
        Journal.Grants w a.microunits ∧
        (a.run io j).2.2.workflows =
          j.workflows.insert a.workflowId (w.reserve a.microunits)) ∨
      ((a.run io j).2.2.workflows = j.workflows ∧
        (Asks io a j → ∀ w, j.workflows.lookup a.workflowId = some w →
          ¬ Journal.Grants w a.microunits)) := by
  by_cases haccepts : Accepts a.graph (a.state, j) (.materialize a.node a.microunits)
  swap
  · obtain ⟨e, hrun⟩ := run_refused haccepts
    exact .inr ⟨by rw [hrun], fun hasks => absurd hasks.1 haccepts⟩
  obtain ⟨spec, hspec, hdone, hdoubt⟩ := haccepts
  rw [run_workflows_eq hspec hdone hdoubt, reserve_eq]
  cases hio : io (.reserve a.key) with
  | true => exact .inr ⟨rfl, fun hasks => absurd (hio.symm.trans hasks.2.1) (by simp)⟩
  | false =>
      rw [if_neg (by simp)]
      cases hkey : j.reservations.lookup a.key with
      | some row => exact .inr ⟨rfl, fun hasks => absurd (hkey.symm.trans hasks.2.2) (by simp)⟩
      | none =>
          cases hw : j.workflows.lookup a.workflowId with
          | none => exact .inr ⟨rfl, fun _ w hsome => by cases hsome⟩
          | some w =>
              dsimp only
              cases hanswer : answer w a.key a.microunits with
              | some e =>
                  refine .inr ⟨rfl, fun _ w' hsome hgrants => ?_⟩
                  cases hsome
                  rw [answer_eq_none.mpr hgrants] at hanswer
                  cases hanswer
              | none =>
                  exact .inl ⟨⟨⟨spec, hspec, hdone, hdoubt⟩, hio, hkey⟩, w, rfl,
                    answer_eq_none.mp hanswer, rfl⟩

/-! ### The budget of a shared workflow -/

/-- The refusals of a budget. -/
def OfBudget : JournalError → Prop
  | .insufficientBudget _ _ _ => True
  | e => e = remainingNotInteger ∨ e = .sqlite (.constraint budgetCheckFailed)

instance : DecidablePred OfBudget
  | .insufficientBudget _ _ _ => .isTrue trivial
  | .sqlite _ => inferInstanceAs (Decidable (_ ∨ _))
  | .corrupted _ => inferInstanceAs (Decidable (_ ∨ _))

/-- The refusal of the budget, where a materialisation failed for it. -/
def reported : Except EngineError String → Option JournalError
  | .error (.journal e) => if OfBudget e then some e else none
  | _ => none

theorem answer_ofBudget {w : WorkflowRow} {purpose : String} {microunits : UInt64}
    {e : JournalError} (h : answer w purpose microunits = some e) : OfBudget e := by
  unfold answer at h
  split at h
  · injection h with h
    exact h ▸ .inl rfl
  split at h
  · injection h with h
    exact h ▸ trivial
  split at h
  · cases h
  · injection h with h
    exact h ▸ .inr rfl

theorem recordAttempt_error {key : AttemptKey} {taskId : String} {state : AttemptState}
    {e : JournalError} (h : (j.recordAttempt io key taskId state).1 = .error e) :
    ¬ OfBudget e := by
  unfold Journal.recordAttempt at h
  split at h
  · injection h with h
    exact h ▸ by decide
  split at h
  · split at h <;> cases h
  split at h
  · injection h with h
    exact h ▸ by decide
  split at h
  · injection h with h
    exact h ▸ by decide
  · cases h

/-- A placement that asks for a reservation reports what the budget answers. -/
theorem Asks.reported_eq (h : Asks io b j) {w : WorkflowRow}
    (hw : j.workflows.lookup b.workflowId = some w) :
    reported (b.run io j).1 = answer w b.key b.microunits := by
  obtain ⟨⟨spec, hspec, hdone, hdoubt⟩, hio, hkey⟩ := h
  have houtcome := congrArg Prod.fst (run_outcome io j hspec hdone hdoubt)
  dsimp only at houtcome
  rw [houtcome, reserve_eq, hio, hkey, hw]
  cases hanswer : answer w b.key b.microunits with
  | some e =>
      simp only [Bool.false_eq_true, if_false, hanswer]
      exact if_pos (answer_ofBudget hanswer)
  | none =>
      -- The writes that follow fail for other reasons only.
      simp only [Bool.false_eq_true, if_false, hanswer]
      generalize hrecord : Journal.recordAttempt io b.triple b.taskId .published _ = out
      obtain ⟨recorded, k⟩ := out
      cases recorded with
      | error e =>
          exact if_neg (recordAttempt_error (congrArg Prod.fst hrecord))
      | ok _ =>
          cases io (.outboxAppend b.workflowId "publish_task"
            (publishTaskPayload b.taskId b.node b.attempt)) with
          | true | false => rfl

/-- The reservation of a placement gets the same answer wherever the row under
its key, or else the budget, is the same. -/
theorem Alike.reserve (h : Alike b j j') (tokens : UInt64)
    (hbudget : Asks io b j → ((j'.workflows.lookup b.workflowId).map fun w =>
        answer w b.key b.microunits) =
      (j.workflows.lookup b.workflowId).map fun w => answer w b.key b.microunits)
    (haccepts : Accepts b.graph (b.state, j) (.materialize b.node b.microunits)) :
    (j'.reserve io b.workflowId b.key b.key tokens b.microunits).1 =
      (j.reserve io b.workflowId b.key b.key tokens b.microunits).1 := by
  rw [reserve_eq, reserve_eq, h.reservation]
  cases hio : io (.reserve b.key) with
  | true => rfl
  | false =>
      rw [if_neg (by simp), if_neg (by simp)]
      cases hkey : j.reservations.lookup b.key with
      | some row => rfl
      | none =>
          have hsame := hbudget ⟨haccepts, hio, hkey⟩
          dsimp only
          generalize j.workflows.lookup b.workflowId = row at hsame ⊢
          generalize j'.workflows.lookup b.workflowId = row' at hsame ⊢
          cases row with
          | none =>
              cases row' with
              | none => rfl
              | some w' => cases hsame
          | some w =>
              cases row' with
              | none => cases hsame
              | some w' =>
                  simp only [Option.map_some, Option.some.injEq] at hsame
                  dsimp only
                  rw [hsame]
                  cases answer w b.key b.microunits <;> rfl

/-- Placements that share no row disturb each other through a common budget
only. -/
theorem undisturbed_iff (hne : a.triple ≠ b.triple) (hkey : a.key ≠ b.key)
    (hid : a.taskId ≠ b.taskId) : Undisturbed io a b j ↔ BudgetKeeps io a b j := by
  have halike := run_alike io j hne hkey hid
  by_cases haccepts : Accepts b.graph (b.state, j) (.materialize b.node b.microunits)
  swap
  · obtain ⟨e, hrun⟩ := run_refused haccepts
    refine ⟨fun _ _ _ hasks => absurd hasks.1 haccepts, fun _ => ?_⟩
    rw [Undisturbed, hrun, hrun]
    exact ⟨rfl, rfl⟩
  have hundisturbed : (Asks io b j → (((a.run io j).2.2.workflows.lookup b.workflowId).map fun w =>
        answer w b.key b.microunits) =
      (j.workflows.lookup b.workflowId).map fun w => answer w b.key b.microunits) →
      Undisturbed io a b j := by
    intro hbudget
    obtain ⟨spec, hspec, hdone, hdoubt⟩ := id haccepts
    exact halike.outcome hspec hdone hdoubt (halike.reserve spec.maxTokens hbudget haccepts)
  rcases run_workflows io a j with ⟨hasks, w, hw, hgrants, hafter⟩ | ⟨hsame, hnone⟩
  · by_cases hwf : a.workflowId = b.workflowId
    · have hcharged : (a.run io j).2.2.workflows.lookup b.workflowId =
          some (w.reserve a.microunits) := by
        rw [hafter, hwf, AList.lookup_insert]
      rw [hwf] at hw
      constructor
      · intro hund _ _ hasks' w' hw' _
        rw [hwf] at hw'
        cases hw.symm.trans hw'
        have hbefore := hasks'.reported_eq hw
        have hasks'' : Asks io b (a.run io j).2.2 :=
          ⟨haccepts, hasks'.2.1, halike.reservation.trans hasks'.2.2⟩
        have hthen := hasks''.reported_eq hcharged
        rw [← hthen, ← hbefore, hund.1]
      · intro hkeep
        refine hundisturbed fun hasks' => ?_
        rw [hcharged, hw, Option.map_some, Option.map_some,
          hkeep hwf hasks hasks' w (hwf ▸ hw) hgrants]
    · refine ⟨fun _ heq => absurd heq hwf, fun _ => hundisturbed fun _ => ?_⟩
      rw [hafter, AList.lookup_insert_ne (Ne.symm hwf)]
  · refine ⟨fun _ _ hasks _ w hw hgrants => absurd hgrants (hnone hasks w hw), fun _ => ?_⟩
    exact hundisturbed fun _ => by rw [hsame]

end Outcome

end Placement

open Placement in
/-- Two attempts are isolated exactly when neither their reservation keys nor
the texts of their task ids meet, and a budget they share answers the second as
it would have without the first. -/
theorem isolated_iff (io : JournalCall → Bool) (a b : Placement) (j : Journal)
    (hne : a.triple ≠ b.triple)
    (hsha : sha256Hex a.preimage = sha256Hex b.preimage → a.preimage = b.preimage) :
    Isolated io a b j ↔ ¬ KeysMeet a b ∧ ¬ IdsMeet a b ∧ BudgetKeeps io a b j := by
  unfold Isolated
  rw [← key_eq_iff hne, ← taskId_eq_iff hne hsha]
  constructor
  · rintro ⟨hkey, hid, hund⟩
    exact ⟨hkey, hid, (undisturbed_iff hne hkey hid).mp hund⟩
  · rintro ⟨hkey, hid, hkeep⟩
    exact ⟨hkey, hid, (undisturbed_iff hne hkey hid).mpr hkeep⟩

namespace Deployment

/-- The direct template with another node id. -/
def templateFor (node : String) : PlanCandidate :=
  { template with nodes := template.nodes.map fun n => { n with nodeId := node } }

def intentOf (workflowId requestId : String) (budget : UInt64) : WorkflowIntent :=
  { intent with
    workflowId := toS workflowId
    requestId := toS requestId
    maxCostMicrounits := budget }

/-- The admission of an accepted decision for this intent. -/
def admissionOf (intent : WorkflowIntent) : Journal.Admission :=
  EngineRuntime.admission decision intent (.accept [] qiFailover 5 false false)

/-- The workflows `a` and `a:b` are both admitted, the second without a budget. -/
def neighbours : Journal :=
  ((Journal.empty.admitWorkflow healthy (admissionOf (intentOf "a" "req-1" 1000))).2.admitWorkflow
    healthy (admissionOf (intentOf "a:b" "req-2" 0))).2

def placement (workflowId node : String) : Placement :=
  ⟨workflowId, templateFor node, node, 1, default⟩

end Deployment

open Deployment Placement in
/-- Two nodes that share nothing are isolated. -/
theorem isolated_nodes :
    (placement "a" "c").triple ≠ (placement "a:b" "d").triple ∧
      Isolated healthy (placement "a" "c") (placement "a:b" "d") neighbours := by
  have hne : (placement "a" "c").triple ≠ (placement "a:b" "d").triple := by decide +kernel
  refine ⟨hne, (isolated_iff healthy _ _ neighbours hne ?_).mpr ⟨?_, ?_, ?_⟩⟩
  · intro hsame
    exact absurd hsame (by decide +kernel)
  · rw [← key_eq_iff hne]
    decide +kernel
  · rw [← preimage_eq_iff hne]
    decide +kernel
  · intro hwf
    exact absurd hwf (by decide)

open Deployment Placement in
/-- The node `b:c` of `a` and the node `c` of `a:b` have one reservation key. On
its own the second is refused, for it has no budget; after the first it is
materialised on the reservation of the first. -/
theorem neighbours_share_reservation :
    validateCandidate (templateFor "b:c") (intentOf "a" "req-1" 1000) 10 = .ok () ∧
      validateCandidate (templateFor "c") (intentOf "a:b" "req-2" 0) 10 = .ok () ∧
      "a" ∈ neighbours.workflows ∧ "a:b" ∈ neighbours.workflows ∧
      (placement "a" "b:c").triple ≠ (placement "a:b" "c").triple ∧
      (placement "a" "b:c").key = (placement "a:b" "c").key ∧
      ((placement "a:b" "c").run healthy neighbours).1 =
        .error (.journal (.insufficientBudget (placement "a:b" "c").key 1 0)) ∧
      ((placement "a:b" "c").run healthy
        ((placement "a" "b:c").run healthy neighbours).2.2).1 =
        .ok (placement "a:b" "c").taskId ∧
      ¬ Isolated healthy (placement "a" "b:c") (placement "a:b" "c") neighbours := by
  have hkey : (placement "a" "b:c").key = (placement "a:b" "c").key := by decide +kernel
  exact ⟨by decide +kernel, by decide +kernel, by decide +kernel, by decide +kernel,
    by decide +kernel, hkey, by decide +kernel, by decide +kernel, fun h => h.1 hkey⟩

end DdsOrchestrator.WorkflowEngine
