import Mathlib.Logic.Function.Basic
import DdsOrchestrator.Studio.Operations

/-!
Requests that start and stop services, side by side. A request logs what it wants, waits for
its turn, looks whether it is still the last to want something of its service, and brings
the service there if it has to. The order of the turns need not be the order of the log;
whoever logged last for a service either has its turn still to come or has left the service
as it wanted it.

A section under the lock of the log is one step, a probe is one and a call of the actuator
is one. Nothing else changes the services.
-/

namespace DdsOrchestrator.Studio

structure ActuateRequest where
  operationId : OperationId
  service : String
  action : String
  deriving DecidableEq

/-- The state that an action asks for. -/
def wantedOf (action : String) : Option Bool :=
  if action = "start" then some true else if action = "stop" then some false else none

structure ApiError where
  status : ℕ
  code : String
  message : String
  deriving DecidableEq

def domainError (e : NodeError) : ApiError :=
  match e with
  | .operationIdConflict => ⟨409, "operation_id_conflict", e.message⟩
  | .outOfScope service => ⟨403, "out_of_scope", "servico fora do escopo do no: " ++ service⟩
  | .storage detail => ⟨500, "storage_error", "falha de persistencia: " ++ detail⟩

structure ActuateOut where
  service : String
  wanted : Bool
  active : Bool
  acted : Bool
  deriving DecidableEq

/-- Where a request is: the section it comes to next, with what it knows by then. -/
inductive ActuatePhase where
  | arrived
  | logged (wanted : Bool)
  | locked (wanted : Bool)
  | probing (wanted : Bool) (latestIsMine : Bool)
  | acting (wanted : Bool)
  | reprobing (wanted : Bool)
  | unlocking (wanted active acted : Bool)
  | saving (wanted active acted : Bool)
  | done (out : ActuateOut)
  | failed (err : ApiError)
  deriving DecidableEq

/-- What becomes of a probe, of a call of the actuator or of a save. A call that fails
leaves the service in some state. -/
inductive ActuateIo where
  | ok
  | dispatchFails (err : String) (left : Bool)
  | fails (detail : String) (left : Bool)
  deriving DecidableEq

structure ActuateWorld where
  log : OperationLog
  /-- Which services are running. -/
  effective : String → Bool
  /-- The request that holds `actuate_lock`. -/
  holder : Option ℕ
  phase : ℕ → ActuatePhase
  /-- How often a request has called the actuator. -/
  calls : ℕ → ℕ

namespace ActuateWorld

def init (log : OperationLog) (effective : String → Bool) : ActuateWorld :=
  ⟨log, effective, none, fun _ => .arrived, fun _ => 0⟩

def goto (w : ActuateWorld) (i : ℕ) (p : ActuatePhase) : ActuateWorld :=
  { w with phase := Function.update w.phase i p }

/-- The guard is dropped with the error that is returned. -/
def abort (w : ActuateWorld) (i : ℕ) (e : ApiError) : ActuateWorld :=
  { w.goto i (.failed e) with holder := none }

def probeError (err : String) : ApiError := ⟨500, "internal_error", "sonda falhou: " ++ err⟩

variable (requests : ℕ → ActuateRequest)

/-- The next step of the request `i`. -/
def step (w : ActuateWorld) (e : ℕ × ActuateIo) : ActuateWorld :=
  let i := e.1
  let r := requests i
  match w.phase i with
  | .arrived =>
      match wantedOf r.action with
      | none =>
          w.goto i (.failed ⟨404, "unknown_action",
            "ação desconhecida: " ++ r.action ++ " (use start|stop)"⟩)
      | some wanted =>
          match w.log.apply r.operationId (.setService r.service wanted) with
          | (.error err, log) => { w with log := log }.goto i (.failed (domainError err))
          | (.ok _, log) => { w with log := log }.goto i (.logged wanted)
  | .logged wanted =>
      match w.holder with
      | none => { w with holder := some i }.goto i (.locked wanted)
      | some _ => w
  | .locked wanted => w.goto i (.probing wanted (w.log.wanted r.service == some wanted))
  | .probing wanted latestIsMine =>
      match e.2 with
      | .ok =>
          let active := w.effective r.service
          if latestIsMine ∧ active ≠ wanted then w.goto i (.acting wanted)
          else w.goto i (.unlocking wanted active false)
      | .dispatchFails err _ | .fails err _ => w.abort i (probeError err)
  | .acting wanted =>
      let called : ActuateWorld :=
        { w with calls := Function.update w.calls i (w.calls i + 1) }
      match e.2 with
      | .ok =>
          { called with effective := Function.update w.effective r.service wanted }.goto i
            (.reprobing wanted)
      | .dispatchFails err left =>
          { called with effective := Function.update w.effective r.service left }.abort i
            ⟨500, "internal_error", "atuador despachou falha: " ++ err⟩
      | .fails detail left =>
          { called with effective := Function.update w.effective r.service left }.abort i
            ⟨502, "actuator_failed", "atuador falhou em " ++ r.service ++ ": " ++ detail⟩
  | .reprobing wanted =>
      match e.2 with
      | .ok => w.goto i (.unlocking wanted (w.effective r.service) true)
      | .dispatchFails err _ | .fails err _ => w.abort i (probeError err)
  | .unlocking wanted active acted =>
      { w with holder := none }.goto i (.saving wanted active acted)
  | .saving wanted active acted =>
      match e.2 with
      | .ok => w.goto i (.done ⟨r.service, wanted, active, acted⟩)
      | .dispatchFails err _ | .fails err _ => w.goto i (.failed (domainError (.storage err)))
  | .done _ | .failed _ => w

/-- Any requests with any number of steps each, in any order. -/
def run (log : OperationLog) (effective : String → Bool) (steps : List (ℕ × ActuateIo)) :
    ActuateWorld :=
  steps.foldl (step requests) (init log effective)

/-- Every request that came is done. -/
def Finished (w : ActuateWorld) : Prop :=
  ∀ i, w.phase i = .arrived ∨ ∃ out, w.phase i = .done out

end ActuateWorld

namespace ActuatePhase

/-- The request holds the lock. -/
def inside : ActuatePhase → Bool
  | locked _ | probing _ _ | acting _ | reprobing _ | unlocking _ _ _ => true
  | _ => false

/-- The request will still bring its service to the state, unless another one logs. -/
def Pending (p : ActuatePhase) (v : Bool) : Prop :=
  p = logged v ∨ p = locked v ∨ p = probing v true ∨ p = acting v

/-- The request is about to bring its service to another state. -/
def Threat (p : ActuatePhase) (v : Bool) : Prop :=
  p = probing (!v) true ∨ p = acting (!v)

def isFailed : ActuatePhase → Bool
  | failed _ => true
  | _ => false

@[simp] theorem pending_logged {wanted v : Bool} : (logged wanted).Pending v ↔ wanted = v := by
  simp [Pending]

@[simp] theorem pending_locked {wanted v : Bool} : (locked wanted).Pending v ↔ wanted = v := by
  simp [Pending]

@[simp] theorem pending_probing {wanted mine v : Bool} :
    (probing wanted mine).Pending v ↔ wanted = v ∧ mine = true := by
  simp [Pending]

@[simp] theorem pending_acting {wanted v : Bool} : (acting wanted).Pending v ↔ wanted = v := by
  simp [Pending]

theorem not_pending_arrived {v : Bool} : ¬ arrived.Pending v := by
  simp [Pending]

theorem not_pending_done {out : ActuateOut} {v : Bool} : ¬ (done out).Pending v := by
  simp [Pending]

theorem not_threat_of_pending {p : ActuatePhase} {v : Bool} (hp : p.Pending v) :
    ¬ p.Threat v := by
  rcases hp with rfl | rfl | rfl | rfl <;> cases v <;> simp [Threat]

theorem inside_of_threat {p : ActuatePhase} {v : Bool} (hp : p.Threat v) : p.inside = true := by
  rcases hp with rfl | rfl <;> rfl

end ActuatePhase

/-! ### Whoever logged last -/

section

variable {requests : ℕ → ActuateRequest} {phase : ℕ → ActuatePhase} {effective : String → Bool}
  {service : String} {v : Bool} {i : ℕ} {p : ActuatePhase}

/-- A request is to bring the service to the state, or it is there and no request is about
to take it away. -/
def Served (requests : ℕ → ActuateRequest) (phase : ℕ → ActuatePhase)
    (effective : String → Bool) (service : String) (v : Bool) : Prop :=
  (∃ i, (requests i).service = service ∧ (phase i).Pending v) ∨
    effective service = v ∧ ∀ i, (requests i).service = service → ¬ (phase i).Threat v

/-- The rule for a step of one request. Where it was the one to bring the service to the
state, it still is, or the service is there and it was alone inside. -/
theorem Served.update (h : Served requests phase effective service v)
    (hpending : (requests i).service = service → (phase i).Pending v →
      p.Pending v ∨ effective service = v ∧ ∀ j, j ≠ i → (phase j).inside = false)
    (hthreat : (requests i).service = service → p.Threat v → (phase i).Threat v) :
    Served requests (Function.update phase i p) effective service v := by
  have hself : Function.update phase i p i = p := Function.update_self ..
  have hother : ∀ j, j ≠ i → Function.update phase i p j = phase j :=
    fun j hj => Function.update_of_ne hj ..
  obtain ⟨j, hservice, hj⟩ | ⟨heffective, hnone⟩ := h
  · by_cases hji : j = i
    · subst hji
      obtain hstill | ⟨hthere, halone⟩ := hpending hservice hj
      · refine .inl ⟨j, hservice, ?_⟩
        rw [hself]
        exact hstill
      · refine .inr ⟨hthere, fun k hk hkt => ?_⟩
        by_cases hkj : k = j
        · subst hkj
          rw [hself] at hkt
          exact ActuatePhase.not_threat_of_pending hj (hthreat hk hkt)
        · rw [hother k hkj] at hkt
          exact absurd (ActuatePhase.inside_of_threat hkt) (by simp [halone k hkj])
    · refine .inl ⟨j, hservice, ?_⟩
      rw [hother j hji]
      exact hj
  · refine .inr ⟨heffective, fun k hk hkt => ?_⟩
    by_cases hki : k = i
    · subst hki
      rw [hself] at hkt
      exact hnone k hk (hthreat hk hkt)
    · rw [hother k hki] at hkt
      exact hnone k hk hkt

/-- A step of a request that is not the one to bring the service anywhere, before or after. -/
theorem Served.bystander (h : Served requests phase effective service v)
    (hi : ¬ (phase i).Pending v) (hp : ¬ p.Threat v) :
    Served requests (Function.update phase i p) effective service v :=
  h.update (fun _ hpending => absurd hpending hi) fun _ hthreat => absurd hthreat hp

/-- A call of the actuator on the request's own service. -/
theorem Served.act (h : Served requests phase effective service v) {wanted : Bool}
    (hacting : phase i = .acting wanted) (halone : ∀ j, j ≠ i → (phase j).inside = false) :
    Served requests (Function.update phase i (.reprobing wanted))
      (Function.update effective (requests i).service wanted) service v := by
  by_cases hservice : service = (requests i).service
  · subst hservice
    by_cases hv : wanted = v
    · subst hv
      refine .inr ⟨Function.update_self .., fun k _ hkt => ?_⟩
      by_cases hki : k = i
      · subst hki
        rw [Function.update_self] at hkt
        rcases hkt with hkt | hkt <;> cases hkt
      · rw [Function.update_of_ne hki] at hkt
        exact absurd (ActuatePhase.inside_of_threat hkt) (by simp [halone k hki])
    · -- the request was to take the service away, so another one is to bring it there
      have hwanted : wanted = !v := by
        cases wanted <;> cases v <;> simp_all
      obtain ⟨j, hj, hpending⟩ | ⟨-, hnone⟩ := h
      · have hji : j ≠ i := by
          rintro rfl
          rw [hacting, ActuatePhase.pending_acting] at hpending
          exact hv hpending
        refine .inl ⟨j, hj, ?_⟩
        rw [Function.update_of_ne hji]
        exact hpending
      · exact absurd (.inr (hacting.trans (by rw [hwanted]))) (hnone i rfl)
  · have hsame : Function.update effective (requests i).service wanted service =
        effective service := Function.update_of_ne hservice ..
    have hstep := h.update (i := i) (p := .reprobing wanted)
      (fun hi => absurd hi.symm hservice) (fun hi => absurd hi.symm hservice)
    rw [Served, hsame]
    exact hstep

end

namespace ActuateWorld

variable {requests : ℕ → ActuateRequest} {w : ActuateWorld} {i : ℕ} {p : ActuatePhase}
  {log : OperationLog} {effective : String → Bool} {service : String}

@[simp] theorem goto_phase_self : (w.goto i p).phase i = p := Function.update_self ..

@[simp] theorem abort_phase_self {e : ApiError} : (w.abort i e).phase i = .failed e :=
  Function.update_self ..

theorem goto_phase_of_ne {j : ℕ} (h : j ≠ i) : (w.goto i p).phase j = w.phase j :=
  Function.update_of_ne h ..

/-- Whoever is inside holds the lock. -/
def Alone (w : ActuateWorld) : Prop :=
  ∀ i, (w.phase i).inside = true → w.holder = some i

theorem Alone.others (h : Alone w) (hi : (w.phase i).inside = true) :
    ∀ j, j ≠ i → (w.phase j).inside = false := by
  intro j hji
  by_contra hj
  rw [Bool.not_eq_false] at hj
  have hsame : some i = some j := (h i hi).symm.trans (h j hj)
  exact hji (Option.some.inj hsame).symm

theorem Alone.goto (h : Alone w) (hp : p.inside = true → w.holder = some i) :
    Alone (w.goto i p) := by
  intro j hj
  by_cases hji : j = i
  · subst hji
    rw [goto_phase_self] at hj
    exact hp hj
  · rw [goto_phase_of_ne hji] at hj
    exact h j hj

/-- Whoever gives the lock back was the only one inside. -/
theorem Alone.release (h : Alone w) (hi : (w.phase i).inside = true) (hp : p.inside = false) :
    Alone ({ w with holder := none }.goto i p) := by
  intro j hj
  by_cases hji : j = i
  · subst hji
    rw [goto_phase_self, hp] at hj
    cases hj
  · rw [goto_phase_of_ne hji, h.others hi j hji] at hj
    cases hj

theorem Alone.take (h : Alone w) (hfree : w.holder = none) :
    Alone ({ w with holder := some i }.goto i p) := by
  intro j hj
  by_cases hji : j = i
  · rw [hji]
    rfl
  · rw [goto_phase_of_ne hji] at hj
    have hheld := h j hj
    rw [hfree] at hheld
    cases hheld

/-- What a step of the request `i` can be. -/
inductive Moves (requests : ℕ → ActuateRequest) (w : ActuateWorld) (i : ℕ) :
    ActuateWorld → Prop
  | refused {err : ApiError} (hat : w.phase i = .arrived) :
      Moves requests w i (w.goto i (.failed err))
  | known {wanted : Bool} {record : OpRecord} (hat : w.phase i = .arrived)
      (hrecord : w.log.records.lookup (requests i).operationId = some record)
      (hop : record.op = .setService (requests i).service wanted) :
      Moves requests w i (w.goto i (.logged wanted))
  | recorded {wanted : Bool} (hat : w.phase i = .arrived)
      (hnew : w.log.records.lookup (requests i).operationId = none) :
      Moves requests w i
        ({ w with
            log := w.log.recorded (requests i).operationId
              (.setService (requests i).service wanted) }.goto i (.logged wanted))
  | took {wanted : Bool} (hat : w.phase i = .logged wanted) (hfree : w.holder = none) :
      Moves requests w i ({ w with holder := some i }.goto i (.locked wanted))
  | stayed : Moves requests w i w
  | read {wanted : Bool} (hat : w.phase i = .locked wanted) :
      Moves requests w i
        (w.goto i (.probing wanted (w.log.wanted (requests i).service == some wanted)))
  | chose {wanted : Bool} (hat : w.phase i = .probing wanted true)
      (haway : w.effective (requests i).service ≠ wanted) :
      Moves requests w i (w.goto i (.acting wanted))
  | left {wanted latestIsMine active : Bool} (hat : w.phase i = .probing wanted latestIsMine)
      (hthere : latestIsMine = true → w.effective (requests i).service = wanted) :
      Moves requests w i (w.goto i (.unlocking wanted active false))
  | acted {wanted : Bool} (hat : w.phase i = .acting wanted) :
      Moves requests w i
        ({ w with
            calls := Function.update w.calls i (w.calls i + 1)
            effective := Function.update w.effective (requests i).service wanted }.goto i
          (.reprobing wanted))
  | reprobed {wanted active : Bool} (hat : w.phase i = .reprobing wanted) :
      Moves requests w i (w.goto i (.unlocking wanted active true))
  | unlocked {wanted active acted : Bool} (hat : w.phase i = .unlocking wanted active acted) :
      Moves requests w i ({ w with holder := none }.goto i (.saving wanted active acted))
  | saved {wanted active acted : Bool} {out : ActuateOut}
      (hat : w.phase i = .saving wanted active acted) : Moves requests w i (w.goto i (.done out))
  | unsaved {wanted active acted : Bool} {err : ApiError}
      (hat : w.phase i = .saving wanted active acted) : Moves requests w i (w.goto i (.failed err))
  | aborted {err : ApiError} (hin : (w.phase i).inside = true) : Moves requests w i (w.abort i err)
  | actFailed {wanted running : Bool} {err : ApiError} (hat : w.phase i = .acting wanted) :
      Moves requests w i
        ({ w with
            calls := Function.update w.calls i (w.calls i + 1)
            effective := Function.update w.effective (requests i).service running }.abort i err)

theorem moves_step (w : ActuateWorld) (e : ℕ × ActuateIo) :
    Moves requests w e.1 (step requests w e) := by
  obtain ⟨i, io⟩ := e
  have hinside : ∀ q, w.phase i = q → q.inside = true → (w.phase i).inside = true :=
    fun q hq hin => hq ▸ hin
  cases hat : w.phase i with
  | arrived =>
      cases hwanted : wantedOf (requests i).action with
      | none =>
          simp only [step, hat, hwanted]
          exact .refused hat
      | some wanted =>
          obtain ⟨err, happly⟩ | ⟨record, hrecord, hop, -, happly⟩ | ⟨hnew, -, happly⟩ :=
            w.log.apply_cases (requests i).operationId
              (.setService (requests i).service wanted)
          · simp only [step, hat, hwanted, happly]
            exact .refused hat
          · simp only [step, hat, hwanted, happly]
            exact .known hat hrecord hop
          · simp only [step, hat, hwanted, happly]
            exact .recorded hat hnew
  | logged wanted =>
      cases hholder : w.holder with
      | none =>
          simp only [step, hat, hholder]
          exact .took hat hholder
      | some j =>
          simp only [step, hat, hholder]
          exact .stayed
  | locked wanted =>
      simp only [step, hat]
      exact .read hat
  | probing wanted latestIsMine =>
      cases io with
      | ok =>
          simp only [step, hat]
          split
          · next hact =>
              obtain ⟨rfl, haway⟩ := hact
              exact .chose hat haway
          · next hstay => exact .left hat fun hmine => by_contra fun haway => hstay ⟨hmine, haway⟩
      | dispatchFails err _ =>
          simp only [step, hat]
          exact .aborted (hinside _ hat rfl)
      | fails detail _ =>
          simp only [step, hat]
          exact .aborted (hinside _ hat rfl)
  | acting wanted =>
      cases io with
      | ok =>
          simp only [step, hat]
          exact .acted hat
      | dispatchFails err running =>
          simp only [step, hat]
          exact .actFailed hat
      | fails detail running =>
          simp only [step, hat]
          exact .actFailed hat
  | reprobing wanted =>
      cases io with
      | ok =>
          simp only [step, hat]
          exact .reprobed hat
      | dispatchFails err _ =>
          simp only [step, hat]
          exact .aborted (hinside _ hat rfl)
      | fails detail _ =>
          simp only [step, hat]
          exact .aborted (hinside _ hat rfl)
  | unlocking wanted active acted =>
      simp only [step, hat]
      exact .unlocked hat
  | saving wanted active acted =>
      cases io with
      | ok =>
          simp only [step, hat]
          exact .saved hat
      | dispatchFails err _ =>
          simp only [step, hat]
          exact .unsaved hat
      | fails detail _ =>
          simp only [step, hat]
          exact .unsaved hat
  | done out =>
      simp only [step, hat]
      exact .stayed
  | failed err =>
      simp only [step, hat]
      exact .stayed

/-- A step of one request leaves the others where they are. -/
theorem Moves.phase_of_ne {w' : ActuateWorld} (h : Moves requests w i w') {j : ℕ} (hj : j ≠ i) :
    w'.phase j = w.phase j := by
  cases h with
  | stayed => rfl
  | aborted | actFailed => exact Function.update_of_ne hj ..
  | _ => exact goto_phase_of_ne hj

theorem Moves.calls_of_ne {w' : ActuateWorld} (h : Moves requests w i w') {j : ℕ} (hj : j ≠ i) :
    w'.calls j = w.calls j := by
  cases h with
  | acted | actFailed => exact Function.update_of_ne hj ..
  | _ => rfl

/-- Only a request inside changes a service. -/
theorem Moves.effective_eq {w' : ActuateWorld} (h : Moves requests w i w')
    (hi : (w.phase i).inside = false) : w'.effective = w.effective := by
  cases h with
  | acted hat | actFailed hat =>
      rw [hat] at hi
      cases hi
  | _ => rfl

theorem Alone.moves {w' : ActuateWorld} (h : Alone w) (hmoves : Moves requests w i w') :
    Alone w' := by
  have hholder : ∀ q, w.phase i = q → q.inside = true → w.holder = some i :=
    fun q hq hin => h i (hq ▸ hin)
  cases hmoves with
  | stayed => exact h
  | refused | unsaved | saved | known => exact h.goto (by simp [ActuatePhase.inside])
  | recorded => exact Alone.goto (w := { w with log := _ }) h (by simp [ActuatePhase.inside])
  | took hat hfree => exact h.take hfree
  | read hat => exact h.goto fun _ => hholder _ hat rfl
  | chose hat => exact h.goto fun _ => hholder _ hat rfl
  | left hat => exact h.goto fun _ => hholder _ hat rfl
  | reprobed hat => exact h.goto fun _ => hholder _ hat rfl
  | acted hat =>
      exact Alone.goto (w := { w with calls := _, effective := _ }) h fun _ => hholder _ hat rfl
  | unlocked hat => exact h.release (by rw [hat]; rfl) rfl
  | aborted hin => exact h.release hin rfl
  | actFailed hat =>
      exact Alone.release (w := { w with calls := _, effective := _ }) h (by rw [hat]; rfl) rfl

/-! ### What the run has done about a service -/

/-- A request with an operation that the log did not have has been for the service. -/
def Touched (requests : ℕ → ActuateRequest) (log : OperationLog) (service : String)
    (w : ActuateWorld) : Prop :=
  ∃ i, (requests i).service = service ∧ (requests i).operationId ∉ log.records ∧
    w.phase i ≠ .arrived

/-- A run from `log`, with `agrees` if the service was as that log wants it. -/
structure Converging (requests : ℕ → ActuateRequest) (log : OperationLog) (agrees : Prop)
    (service : String) (w : ActuateWorld) : Prop where
  sound : w.log.Sound
  origin : ∀ id record, w.log.records.lookup id = some record →
    log.records.lookup id = some record ∨
      ∃ j running, (requests j).operationId = id ∧
        record.op = .setService (requests j).service running ∧ w.phase j ≠ .arrived
  served : agrees ∨ Touched requests log service w → ∀ v, w.log.wanted service = some v →
    Served requests w.phase w.effective service v

variable {agrees : Prop} {w' : ActuateWorld}

/-- A step behind the first section leaves the log and touches nothing new. -/
theorem Converging.behind (h : Converging requests log agrees service w)
    (hat : w.phase i ≠ .arrived) (hlog : w'.log = w.log)
    (hphase : w'.phase = Function.update w.phase i p)
    (hserved : ∀ v, w.log.wanted service = some v →
      Served requests w.phase w.effective service v →
        Served requests (Function.update w.phase i p) w'.effective service v)
    (hp : p ≠ .arrived) : Converging requests log agrees service w' := by
  have harrived : ∀ j, w'.phase j ≠ .arrived ↔ w.phase j ≠ .arrived := by
    intro j
    rw [hphase]
    by_cases hji : j = i
    · subst hji
      rw [Function.update_self]
      exact iff_of_true hp hat
    · rw [Function.update_of_ne hji]
  refine ⟨hlog ▸ h.sound, ?_, ?_⟩
  · intro id record hrecord
    rw [hlog] at hrecord
    obtain hold | ⟨j, running, hid, hop, hj⟩ := h.origin id record hrecord
    · exact .inl hold
    · exact .inr ⟨j, running, hid, hop, (harrived j).mpr hj⟩
  · intro hstart v hv
    rw [hlog] at hv
    have hbefore : agrees ∨ Touched requests log service w := by
      refine hstart.imp_right ?_
      rintro ⟨j, hservice, hnew, hj⟩
      exact ⟨j, hservice, hnew, (harrived j).mp hj⟩
    rw [hphase]
    exact hserved v hv (h.served hbefore v hv)

/-- The first section of a request with an operation that the log has. -/
theorem Converging.known (h : Converging requests log agrees service w)
    (hat : w.phase i = .arrived) {wanted : Bool} {record : OpRecord}
    (hrecord : w.log.records.lookup (requests i).operationId = some record)
    (hop : record.op = .setService (requests i).service wanted) :
    Converging requests log agrees service (w.goto i (.logged wanted)) := by
  refine ⟨h.sound, ?_, ?_⟩
  · intro id record hrecord
    obtain hold | ⟨j, running, hid, hop, hj⟩ := h.origin id record hrecord
    · exact .inl hold
    · have hji : j ≠ i := fun hji => hj (hji ▸ hat)
      exact .inr ⟨j, running, hid, hop, by rwa [goto_phase_of_ne hji]⟩
  · intro hstart v hv
    have hbefore : agrees ∨ Touched requests log service w := by
      refine hstart.imp_right ?_
      rintro ⟨j, hservice, hnew, hj⟩
      by_cases hji : j = i
      · -- the operation is not from before the run, so a request has brought it
        subst hji
        obtain hold | ⟨k, running, hid, hopk, hk⟩ := h.origin _ _ hrecord
        · rw [AList.lookup_eq_none.mpr hnew] at hold
          cases hold
        · rw [hop] at hopk
          injection hopk with hsame
          exact ⟨k, hsame ▸ hservice, hid ▸ hnew, hk⟩
      · rw [goto_phase_of_ne hji] at hj
        exact ⟨j, hservice, hnew, hj⟩
    apply (h.served hbefore v hv).bystander
    · simp [hat, ActuatePhase.Pending]
    · simp [ActuatePhase.Threat]

/-- The first section of a request with an operation that the log does not have. -/
theorem Converging.recorded (h : Converging requests log agrees service w)
    (hat : w.phase i = .arrived) {wanted : Bool}
    (hnew : w.log.records.lookup (requests i).operationId = none) :
    Converging requests log agrees service
      ({ w with
          log := w.log.recorded (requests i).operationId
            (.setService (requests i).service wanted) }.goto i (.logged wanted)) := by
  refine ⟨h.sound.recorded hnew _, ?_, ?_⟩
  · intro id record hrecord
    obtain ⟨rfl, rfl⟩ | hold := h.sound.lookup_recorded hnew hrecord
    · exact .inr ⟨i, wanted, rfl, rfl, by simp⟩
    · obtain hold | ⟨j, running, hid, hop, hj⟩ := h.origin id record hold
      · exact .inl hold
      · have hji : j ≠ i := fun hji => hj (hji ▸ hat)
        exact .inr ⟨j, running, hid, hop, by rwa [goto_phase_of_ne hji]⟩
  · intro hstart v hv
    by_cases hservice : (requests i).service = service
    · -- the request itself is now the last to want something of the service
      have hop : AdminOp.wants service (.setService (requests i).service wanted) = some wanted :=
        if_pos hservice
      have hlast := h.sound.wanted_recorded_self hnew hop
      have hwanted : wanted = v := Option.some.inj (hlast.symm.trans hv)
      exact .inl ⟨i, hservice, .inl (by rw [goto_phase_self, hwanted])⟩
    · have hbefore : agrees ∨ Touched requests log service w := by
        refine hstart.imp_right ?_
        rintro ⟨j, hj, hnotMem, hphase⟩
        have hji : j ≠ i := fun hji => hservice (hji ▸ hj)
        rw [goto_phase_of_ne hji] at hphase
        exact ⟨j, hj, hnotMem, hphase⟩
      have hop : AdminOp.wants service (.setService (requests i).service wanted) = none :=
        if_neg hservice
      have hold := h.sound.wanted_recorded_other hnew hop hv
      exact (h.served hbefore v hold).update (fun hi => absurd hi hservice)
        fun hi => absurd hi hservice

/-- A step that does not fail keeps the account. -/
theorem Converging.moves (h : Converging requests log agrees service w) (halone : Alone w)
    (hmoves : Moves requests w i w') :
    (∃ j, (w'.phase j).isFailed = true) ∨ Converging requests log agrees service w' := by
  have hothers : ∀ {q}, w.phase i = q → q.inside = true →
      ∀ j, j ≠ i → (w.phase j).inside = false := by
    rintro q rfl hin
    exact halone.others hin
  cases hmoves with
  | refused hat => exact .inl ⟨i, by rw [goto_phase_self]; rfl⟩
  | unsaved hat => exact .inl ⟨i, by rw [goto_phase_self]; rfl⟩
  | aborted hin => exact .inl ⟨i, by rw [abort_phase_self]; rfl⟩
  | actFailed hat => exact .inl ⟨i, by rw [abort_phase_self]; rfl⟩
  | stayed => exact .inr h
  | known hat hrecord hop => exact .inr (h.known hat hrecord hop)
  | recorded hat hnew => exact .inr (h.recorded hat hnew)
  | took hat hfree =>
      refine .inr (h.behind (by rw [hat]; simp) rfl rfl (fun v hv hserved => ?_) (by simp))
      apply hserved.update
      · rintro - hpending
        rw [hat, ActuatePhase.pending_logged] at hpending
        exact .inl (ActuatePhase.pending_locked.mpr hpending)
      · rintro - (hp | hp) <;> cases hp
  | read hat =>
      refine .inr (h.behind (by rw [hat]; simp) rfl rfl (fun v hv hserved => ?_) (by simp))
      apply hserved.update
      · rintro rfl hpending
        rw [hat, ActuatePhase.pending_locked] at hpending
        subst hpending
        exact .inl (ActuatePhase.pending_probing.mpr ⟨rfl, by simp [hv]⟩)
      · -- it goes on only with what the log wants
        rintro rfl (hp | hp)
        · injection hp with hwanted hmine
          simp [hv, hwanted] at hmine
        · cases hp
  | chose hat haway =>
      refine .inr (h.behind (by rw [hat]; simp) rfl rfl (fun v hv hserved => ?_) (by simp))
      apply hserved.update
      · rintro - hpending
        rw [hat, ActuatePhase.pending_probing] at hpending
        exact .inl (ActuatePhase.pending_acting.mpr hpending.1)
      · rintro - (hp | hp) <;> cases hp
        exact .inl hat
  | left hat hthere =>
      refine .inr (h.behind (by rw [hat]; simp) rfl rfl (fun v hv hserved => ?_) (by simp))
      apply hserved.update
      · rintro rfl hpending
        rw [hat, ActuatePhase.pending_probing] at hpending
        obtain ⟨rfl, hmine⟩ := hpending
        exact .inr ⟨hthere hmine, hothers hat rfl⟩
      · rintro - (hp | hp) <;> cases hp
  | acted hat =>
      exact .inr (h.behind (by rw [hat]; simp) rfl rfl
        (fun v hv hserved => hserved.act hat (hothers hat rfl)) (by simp))
  | reprobed hat | unlocked hat | saved hat =>
      -- after the call, the request only reports
      refine .inr (h.behind (by rw [hat]; simp) rfl rfl (fun v hv hserved => ?_) (by simp))
      apply hserved.bystander
      · simp [hat, ActuatePhase.Pending]
      · simp [ActuatePhase.Threat]

theorem failed_of_moves (hfailed : ∃ j, (w.phase j).isFailed = true)
    (hmoves : Moves requests w i w') : ∃ j, (w'.phase j).isFailed = true := by
  obtain ⟨j, hj⟩ := hfailed
  refine ⟨j, ?_⟩
  by_cases hji : j = i
  · subst hji
    cases hmoves with
    | stayed => exact hj
    | refused hat | known hat | recorded hat | took hat | read hat | chose hat | left hat
    | acted hat | reprobed hat | unlocked hat | saved hat | unsaved hat | actFailed hat =>
        rw [hat] at hj
        cases hj
    | aborted hin =>
        rw [abort_phase_self]
        rfl
  · rwa [hmoves.phase_of_ne hji]

/-- As long as no request has failed, every service is brought to where the log wants it. -/
theorem converging_run (requests : ℕ → ActuateRequest) (hlog : log.Sound)
    (effective : String → Bool) (service : String) (steps : List (ℕ × ActuateIo)) :
    (∃ j, ((run requests log effective steps).phase j).isFailed = true) ∨
      Converging requests log (∀ v, log.wanted service = some v → effective service = v) service
        (run requests log effective steps) := by
  have hinit : Converging requests log (∀ v, log.wanted service = some v → effective service = v)
      service (init log effective) := by
    refine ⟨hlog, fun id record h => .inl h, ?_⟩
    rintro (hagrees | ⟨j, -, -, hj⟩) v hv
    · exact .inr ⟨hagrees v hv, fun k _ hthreat => by rcases hthreat with h | h <;> cases h⟩
    · exact absurd rfl hj
  have hkeep : ∀ w e, (Alone w ∧ ((∃ j, (w.phase j).isFailed = true) ∨
      Converging requests log (∀ v, log.wanted service = some v → effective service = v)
        service w)) →
      Alone (step requests w e) ∧ ((∃ j, ((step requests w e).phase j).isFailed = true) ∨
        Converging requests log (∀ v, log.wanted service = some v → effective service = v)
          service (step requests w e)) := by
    rintro w e ⟨halone, hfailed | hconverging⟩
    · exact ⟨halone.moves (moves_step w e), .inl (failed_of_moves hfailed (moves_step w e))⟩
    · exact ⟨halone.moves (moves_step w e), hconverging.moves halone (moves_step w e)⟩
  exact (Machine.foldl_invariant steps ⟨fun _ hin => (by cases hin), .inr hinit⟩ hkeep).2

/-- A request that found its service as it wanted it, or that was not the last one to want
something of it. -/
structure Spared (requests : ℕ → ActuateRequest) (i : ℕ) (w : ActuateWorld) : Prop where
  calls_eq : w.calls i = 0
  there : ∀ wanted, w.phase i = .probing wanted true → w.effective (requests i).service = wanted
  not_acting : ∀ wanted, w.phase i ≠ .acting wanted

theorem Spared.moves {j : ℕ} (h : Spared requests i w) (halone : Alone w)
    (hread : j = i → ∀ wanted, w.phase i = .locked wanted →
      w.effective (requests i).service = wanted ∨
        w.log.wanted (requests i).service = some (w.effective (requests i).service))
    (hmoves : Moves requests w j w') : Spared requests i w' := by
  by_cases hji : j = i
  · subst hji
    cases hmoves with
    | stayed => exact h
    | acted hat => exact absurd hat (h.not_acting _)
    | actFailed hat => exact absurd hat (h.not_acting _)
    | chose hat haway => exact absurd (h.there _ hat) haway
    | read hat =>
        refine ⟨h.calls_eq, ?_, by simp⟩
        intro wanted hp
        rw [goto_phase_self] at hp
        injection hp with hwanted hmine
        subst hwanted
        rw [beq_iff_eq] at hmine
        obtain hthere | hlast := hread rfl _ hat
        · exact hthere
        · exact Option.some.inj (hlast.symm.trans hmine)
    | aborted => exact ⟨h.calls_eq, by simp, by simp⟩
    | refused | known | recorded | took | left | reprobed | unlocked | saved | unsaved =>
        exact ⟨h.calls_eq, by simp, by simp⟩
  · have hphase := hmoves.phase_of_ne (Ne.symm hji)
    refine ⟨(hmoves.calls_of_ne (Ne.symm hji)).trans h.calls_eq, ?_, ?_⟩
    · intro wanted hp
      rw [hphase] at hp
      have hin : (w.phase i).inside = true := by
        rw [hp]
        rfl
      rw [hmoves.effective_eq (halone.others hin j hji)]
      exact h.there wanted hp
    · intro wanted
      rw [hphase]
      exact h.not_acting wanted

/-- Whatever the order of the turns, when every request that came is done, a service is as
the log wants it: every service that was so before, and every service that was given a new
operation. And a request never calls the actuator if, when its turn comes, its service is
as it wants it or as the log wants it. -/
theorem actuation_converges (hlog : log.Sound) (steps : List (ℕ × ActuateIo)) :
    (Finished (run requests log effective steps) → ∀ service,
      (∀ v, log.wanted service = some v → effective service = v) ∨
          Touched requests log service (run requests log effective steps) →
        ∀ v, (run requests log effective steps).log.wanted service = some v →
          (run requests log effective steps).effective service = v) ∧
    ∀ i,
      Machine.Along (step requests)
        (fun w e => e.1 = i → ∀ wanted, w.phase i = .locked wanted →
          w.effective (requests i).service = wanted ∨
            w.log.wanted (requests i).service = some (w.effective (requests i).service))
        (init log effective) steps →
      (run requests log effective steps).calls i = 0 := by
  constructor
  · intro hfinished service hstart v hv
    obtain ⟨j, hj⟩ | hconverging := converging_run requests hlog effective service steps
    · obtain harrived | ⟨out, hdone⟩ := hfinished j
      · rw [harrived] at hj
        cases hj
      · rw [hdone] at hj
        cases hj
    · obtain ⟨i, -, hpending⟩ | ⟨hthere, -⟩ := hconverging.served hstart v hv
      · -- a request that is done has nothing left to do
        exfalso
        obtain harrived | ⟨out, hdone⟩ := hfinished i
        · rw [harrived] at hpending
          exact ActuatePhase.not_pending_arrived hpending
        · rw [hdone] at hpending
          exact ActuatePhase.not_pending_done hpending
      · exact hthere
  · intro i hturn
    have hspared := hturn.invariant (I := fun w => Alone w ∧ Spared requests i w)
      ⟨fun _ hin => (by cases hin), rfl, fun _ hp => (by cases hp), fun _ hp => (by cases hp)⟩
      fun w e h hread =>
        ⟨h.1.moves (moves_step w e), h.2.moves h.1 hread (moves_step w e)⟩
    exact hspared.2.calls_eq

theorem phase_of_idle {steps : List (ℕ × ActuateIo)} (h : ∀ e ∈ steps, e.1 ≠ i) :
    (run requests log effective steps).phase i = .arrived := by
  have hfold : ∀ w : ActuateWorld, (steps.foldl (step requests) w).phase i = w.phase i := by
    induction steps with
    | nil => exact fun w => rfl
    | cons e steps ih =>
        intro w
        rw [List.foldl_cons, ih fun f hf => h f (List.mem_cons_of_mem _ hf)]
        exact (moves_step w e).phase_of_ne (Ne.symm (h e List.mem_cons_self))
  exact hfold _

/-- A stop and a start are logged, and the start has its turn first. -/
def crossed : List (ℕ × ActuateIo) :=
  [(0, .ok), (1, .ok), (1, .ok), (1, .ok), (0, .ok), (1, .ok), (1, .ok), (1, .ok), (1, .ok),
    (0, .ok), (0, .ok), (0, .ok), (0, .ok), (1, .ok), (0, .ok)]

def crossedRequests (i : ℕ) : ActuateRequest :=
  if i = 0 then ⟨"a", "gateway", "stop"⟩ else ⟨"b", "gateway", "start"⟩

theorem finished_crossed :
    Finished (run crossedRequests (.new ["gateway"]) (fun _ => false) crossed) := by
  intro i
  by_cases hi : i < 2
  · obtain rfl | rfl : i = 0 ∨ i = 1 := by omega
    · exact .inr ⟨⟨"gateway", false, true, false⟩, by decide⟩
    · exact .inr ⟨⟨"gateway", true, true, true⟩, by decide⟩
  · refine .inl (phase_of_idle fun e he => ?_)
    have hsmall : e.1 < 2 := by
      revert e
      decide
    omega

theorem crossed_converges :
    (run crossedRequests (.new ["gateway"]) (fun _ => false) crossed).effective "gateway" = true ∧
      (run crossedRequests (.new ["gateway"]) (fun _ => false) crossed).calls 0 = 0 :=
  ⟨(actuation_converges (OperationLog.sound_new ["gateway"]) crossed).1 finished_crossed "gateway"
      (.inr ⟨0, rfl, by decide, by decide⟩) true (by decide),
    (actuation_converges (OperationLog.sound_new ["gateway"]) crossed).2 0 (by decide)⟩

end ActuateWorld

end DdsOrchestrator.Studio
