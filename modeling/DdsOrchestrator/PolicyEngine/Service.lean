import DdsOrchestrator.Lib.Assoc
import DdsOrchestrator.Lib.Machine
import DdsOrchestrator.PolicyEngine.Rules

/-!
The service that publishes the policies. It holds a version and a document for
each policy, which come from a file that is read again and again and from updates
that are applied to what is held, and it writes a snapshot of what it took up.

The file, the clock and the result of the write are given with each call; `parse`
and `render` are the reader and the writer of JSON. The cache the service fills on
the way is never read by it and is left out.
-/

namespace DdsOrchestrator.PolicyEngine

open Dataspace

structure PolicyState where
  version : Int32
  document : PolicyDocument
  deriving DecidableEq

def PolicyDocument.empty : PolicyDocument := ⟨.obj .nil⟩

/-- The state of the service, with the snapshots it has written so far. -/
structure PolicyEngineService where
  policyId : String
  publishedBy : String
  states : Map String PolicyState
  published : List SecurityPolicySnapshot

/-- How a call ends: whether it published, its error, or a panic. -/
inductive Outcome where
  | ok (published : Bool)
  | error (e : PolicyError)
  | panicked
  deriving DecidableEq

/-- What is outside the model in a call: the clock, and what the write answers. -/
structure Surroundings where
  nowNs : UInt64
  write : Except DataSpaceError Unit

namespace PolicyEngineService

def new (policyId publishedBy : String) : PolicyEngineService := ⟨policyId, publishedBy, ∅, []⟩

def currentState (svc : PolicyEngineService) (policyId : String) : Option PolicyState :=
  svc.states.lookup policyId

def setState (svc : PolicyEngineService) (policyId : String) (state : PolicyState) :
    PolicyEngineService :=
  { svc with states := svc.states.insert policyId state }

section

variable (render : Json → String)

def snapshot (svc : PolicyEngineService) (policyId : String) (state : PolicyState)
    (nowNs : UInt64) : SecurityPolicySnapshot :=
  ⟨policyId, state.version, render state.document.raw, svc.publishedBy, nowNs⟩

/-- The state is published; an error of the write is the error of the call. -/
def publishSnapshot (svc : PolicyEngineService) (policyId : String) (state : PolicyState)
    (env : Surroundings) : Outcome × PolicyEngineService :=
  match env.write with
  | .ok _ =>
      (.ok true, { svc with
        published := svc.published ++ [svc.snapshot render policyId state env.nowNs] })
  | .error e => (.error (.dataSpace e), svc)

variable (parse : String → Except String Json)

/-- A file that cannot be read or parsed, or that is behind what is held, changes
nothing; neither does one that says what is held already, unless `force`. -/
def loadAndPublishInner (force : Bool) (file : Except String String) (env : Surroundings)
    (svc : PolicyEngineService) : Outcome × PolicyEngineService :=
  match file with
  | .error _ => (.ok false, svc)
  | .ok content =>
      match PolicyDocument.fromJsonStr parse content with
      | .error _ => (.ok false, svc)
      | .ok doc =>
          if ∃ cur ∈ svc.states.lookup svc.policyId, doc.version < cur.version then
            (.ok false, svc)
          else if ∃ cur ∈ svc.states.lookup svc.policyId,
              ¬ force ∧ cur.version = doc.version ∧ cur.document = doc then (.ok false, svc)
          else
            let state : PolicyState := ⟨doc.version, doc⟩
            (svc.setState svc.policyId state).publishSnapshot render svc.policyId state env

/-- The state an update starts from; a policy that is not known gets an empty one. -/
def entry (svc : PolicyEngineService) (policyId : String) : PolicyState :=
  (svc.states.lookup policyId).getD ⟨0, .empty⟩

/-- The entry is made before anything is checked. The version is on record before
it is set in the document, where that can panic. -/
def handleUpdate (update : SecurityPolicyUpdate) (env : Surroundings)
    (svc : PolicyEngineService) : Outcome × PolicyEngineService :=
  match parse update.ruleDeltaJson with
  | .error text => (.error (.json text), svc)
  | .ok delta =>
      let entry := svc.entry update.policyId
      let entered := svc.setState update.policyId entry
      if update.newVersion ≤ entry.version then (.error .staleVersion, entered)
      else match entry.document.applyDelta update.operation delta with
      | .error e => (.error e, entered)
      | .ok document =>
          match document.setVersion update.newVersion with
          | none => (.panicked, svc.setState update.policyId ⟨update.newVersion, document⟩)
          | some document =>
              let state : PolicyState := ⟨update.newVersion, document⟩
              (svc.setState update.policyId state).publishSnapshot render update.policyId state env

/-- A call of the service. -/
inductive Call where
  | loadAndPublish (file : Except String String) (env : Surroundings)
  | republish (file : Except String String) (env : Surroundings)
  | handleUpdate (update : SecurityPolicyUpdate) (env : Surroundings)

def Call.env : Call → Surroundings
  | loadAndPublish _ env => env
  | republish _ env => env
  | handleUpdate _ env => env

/-- What the call finds as the policy file. -/
def Call.file? : Call → Option (Except String String)
  | loadAndPublish file _ => some file
  | republish file _ => some file
  | handleUpdate _ _ => none

def call (svc : PolicyEngineService) : Call → Outcome × PolicyEngineService
  | .loadAndPublish file env => svc.loadAndPublishInner render parse false file env
  | .republish file env => svc.loadAndPublishInner render parse true file env
  | .handleUpdate update env => svc.handleUpdate render parse update env

def step (svc : PolicyEngineService) (c : Call) : PolicyEngineService :=
  (svc.call render parse c).2

end

/-! ### What a call can do -/

section Cases

variable {render : Json → String} {parse : String → Except String Json}
  {svc : PolicyEngineService} {policyId : String} {state : PolicyState}

@[simp] theorem lookup_setState (id : String) : (svc.setState policyId state).states.lookup id =
    if id = policyId then some state else svc.states.lookup id :=
  Map.lookup_insert_if ..

@[simp] theorem setState_published : (svc.setState policyId state).published = svc.published := rfl

/-- The file has a document that is not behind what is held. -/
structure Offers (parse : String → Except String Json) (svc : PolicyEngineService)
    (file : Except String String) (doc : PolicyDocument) : Prop where
  parsed : ∃ content, file = .ok content ∧ parse content = .ok doc.raw
  current : ∀ cur ∈ svc.states.lookup svc.policyId, cur.version ≤ doc.version

variable (render parse svc) in
/-- A file is taken up, or nothing happens. The second is always so where the file
offers nothing, and is so otherwise only if it says what is held already. -/
theorem loadAndPublishInner_cases (force : Bool) (file : Except String String)
    (env : Surroundings) :
    (∃ doc, Offers parse svc file doc ∧ svc.loadAndPublishInner render parse force file env =
      (svc.setState svc.policyId ⟨doc.version, doc⟩).publishSnapshot render svc.policyId
        ⟨doc.version, doc⟩ env) ∨
    (svc.loadAndPublishInner render parse force file env = (.ok false, svc) ∧
      ((∀ doc, ¬ Offers parse svc file doc) ∨ force = false)) := by
  unfold loadAndPublishInner
  cases file with
  | error text =>
      refine .inr ⟨rfl, .inl ?_⟩
      rintro doc ⟨⟨content, hcontent, -⟩, -⟩
      cases hcontent
  | ok content =>
      cases hparse : parse content with
      | error text =>
          refine .inr ⟨by simp [PolicyDocument.fromJsonStr, hparse], .inl ?_⟩
          rintro doc ⟨⟨content', hcontent, hparse'⟩, -⟩
          cases hcontent
          rw [hparse] at hparse'
          cases hparse'
      | ok raw =>
          simp only [PolicyDocument.fromJsonStr, hparse]
          split
          · next hbehind =>
              refine .inr ⟨rfl, .inl ?_⟩
              rintro doc ⟨⟨content', hcontent, hparse'⟩, hcurrent⟩
              cases hcontent
              rw [hparse] at hparse'
              cases hparse'
              obtain ⟨cur, hcur, hlt⟩ := hbehind
              exact Int32.not_lt.mpr (hcurrent cur hcur) hlt
          · next hbehind =>
              have hoffers : Offers parse svc (.ok content) ⟨raw⟩ := by
                refine ⟨⟨content, rfl, hparse⟩, fun cur hcur => Int32.not_lt.mp fun hlt => ?_⟩
                exact hbehind ⟨cur, hcur, hlt⟩
              split
              · next hsame =>
                  obtain ⟨cur, hcur, hforce, -⟩ := hsame
                  exact .inr ⟨rfl, .inr (by simpa using hforce)⟩
              · exact .inl ⟨_, hoffers, rfl⟩

/-- A document that is offered is taken up, unless the call is not forced and the
document is held already. -/
theorem Offers.load_eq {file : Except String String} {doc : PolicyDocument}
    (h : Offers parse svc file doc) (env : Surroundings) {force : Bool}
    (hchange : force = true ∨ svc.states.lookup svc.policyId ≠ some ⟨doc.version, doc⟩) :
    svc.loadAndPublishInner render parse force file env =
      (svc.setState svc.policyId ⟨doc.version, doc⟩).publishSnapshot render svc.policyId
        ⟨doc.version, doc⟩ env := by
  obtain ⟨⟨content, rfl, hparse⟩, hcurrent⟩ := h
  have hbehind : ¬ ∃ cur ∈ svc.states.lookup svc.policyId, doc.version < cur.version := by
    rintro ⟨cur, hcur, hlt⟩
    exact Int32.not_lt.mpr (hcurrent cur hcur) hlt
  have hheld : ¬ ∃ cur ∈ svc.states.lookup svc.policyId,
      ¬ force ∧ cur.version = doc.version ∧ cur.document = doc := by
    rintro ⟨cur, hcur, hforce, hversion, hdocument⟩
    obtain hforced | hother := hchange
    · exact hforce hforced
    · refine hother ((Option.mem_def.mp hcur).trans (congrArg some ?_))
      rw [← hversion, ← hdocument]
  have hdoc : PolicyDocument.mk doc.raw = doc := rfl
  simp only [loadAndPublishInner, PolicyDocument.fromJsonStr, hparse, hdoc, hbehind, hheld,
    if_false]

/-- The update moves on from what is held, and its delta can be applied. -/
structure Applies (svc : PolicyEngineService) (update : SecurityPolicyUpdate) (delta : Json) :
    Prop where
  newer : (svc.entry update.policyId).version < update.newVersion
  object : delta.isObject
  known : update.operation = "ADD_RULE" ∨ update.operation = "UPDATE_RULE" ∨
    update.operation = "REMOVE_RULE"

theorem Applies.notBehind {update : SecurityPolicyUpdate} {delta : Json}
    (h : Applies svc update delta) :
    ∀ cur ∈ svc.states.lookup update.policyId, cur.version ≤ update.newVersion := by
  intro cur hcur
  have hnewer := h.newer
  simp only [entry, Option.mem_def.mp hcur, Option.getD_some] at hnewer
  exact Int32.le_of_lt hnewer

/-- Keys are to be taken out of a document that has none, such as a number. -/
def Stripping (svc : PolicyEngineService) (update : SecurityPolicyUpdate) : Prop :=
  update.operation = "REMOVE_RULE" ∧
    ¬ ((svc.entry update.policyId).document.raw.isObject ∨
      (svc.entry update.policyId).document.raw.isNull)

variable (render parse svc) in
/-- An update is refused, panics or is taken up; where its delta could be parsed,
there is an entry for its policy in all three cases. -/
theorem handleUpdate_cases (update : SecurityPolicyUpdate) (env : Surroundings) :
    (∃ text, parse update.ruleDeltaJson = .error text ∧
      svc.handleUpdate render parse update env = (.error (.json text), svc)) ∨
    ∃ delta, parse update.ruleDeltaJson = .ok delta ∧
      ((¬ Applies svc update delta ∧ ∃ e, svc.handleUpdate render parse update env =
          (.error e, svc.setState update.policyId (svc.entry update.policyId))) ∨
        (Applies svc update delta ∧ Stripping svc update ∧ ∃ document,
          svc.handleUpdate render parse update env =
            (.panicked, svc.setState update.policyId ⟨update.newVersion, document⟩)) ∨
        (Applies svc update delta ∧ ¬ Stripping svc update ∧ ∃ document,
          document.version = update.newVersion ∧ document.isEmpty = false ∧
          svc.handleUpdate render parse update env =
            (svc.setState update.policyId ⟨update.newVersion, document⟩).publishSnapshot render
              update.policyId ⟨update.newVersion, document⟩ env)) := by
  unfold handleUpdate
  cases hparse : parse update.ruleDeltaJson with
  | error text => exact .inl ⟨text, rfl, rfl⟩
  | ok delta =>
      refine .inr ⟨delta, rfl, ?_⟩
      dsimp only
      by_cases hstale : update.newVersion ≤ (svc.entry update.policyId).version
      · refine .inl ⟨fun happlies => ?_, .staleVersion, by rw [if_pos hstale]⟩
        exact Int32.not_le.mpr happlies.newer hstale
      rw [if_neg hstale]
      cases hdelta : (svc.entry update.policyId).document.applyDelta update.operation delta with
      | error e =>
          refine .inl ⟨fun happlies => ?_, e, rfl⟩
          obtain ⟨document, hok⟩ := PolicyDocument.applyDelta_ok_iff.mpr
            ⟨happlies.object, happlies.known⟩
          rw [hdelta] at hok
          cases hok
      | ok document =>
          obtain ⟨hobject, hknown⟩ := PolicyDocument.applyDelta_ok_iff.mp ⟨document, hdelta⟩
          have happlies : Applies svc update delta := ⟨Int32.not_le.mp hstale, hobject, hknown⟩
          have hnone := PolicyDocument.setVersion_applyDelta update.newVersion hdelta
          dsimp only
          cases hset : document.setVersion update.newVersion with
          | none => exact .inr (.inl ⟨happlies, hnone.mp hset, document, rfl⟩)
          | some document' =>
              refine .inr (.inr ⟨happlies, fun hstrip => ?_, document', ?_, ?_, rfl⟩)
              · rw [hnone.mpr hstrip] at hset
                cases hset
              · exact (PolicyDocument.setVersion_eq_some hset).1
              · exact (PolicyDocument.setVersion_eq_some hset).2

/-- The state goes on from the one that is held. -/
structure Follows (svc : PolicyEngineService) (policyId : String) (state : PolicyState) :
    Prop where
  version : state.document.version = state.version
  notBehind : ∀ cur ∈ svc.states.lookup policyId, cur.version ≤ state.version

/-- Everything a call can do. -/
inductive Moves (render : Json → String) (parse : String → Except String Json)
    (svc : PolicyEngineService) : Call → Outcome × PolicyEngineService → Prop where
  /-- Nothing happens. -/
  | rests (c : Call) (o : Outcome) (ho : o ≠ .panicked)
      (hparse : ∀ update env delta, c = .handleUpdate update env →
        parse update.ruleDeltaJson ≠ .ok delta) : Moves render parse svc c (o, svc)
  /-- An update is refused after its entry is made. -/
  | enters (update : SecurityPolicyUpdate) (env : Surroundings) (delta : Json) (e : PolicyError)
      (hparse : parse update.ruleDeltaJson = .ok delta) (happlies : ¬ Applies svc update delta) :
      Moves render parse svc (.handleUpdate update env)
        (.error e, svc.setState update.policyId (svc.entry update.policyId))
  /-- An update panics when its version is set. -/
  | panics (update : SecurityPolicyUpdate) (env : Surroundings) (delta : Json)
      (document : PolicyDocument) (hparse : parse update.ruleDeltaJson = .ok delta)
      (happlies : Applies svc update delta) (hstrip : Stripping svc update) :
      Moves render parse svc (.handleUpdate update env)
        (.panicked, svc.setState update.policyId ⟨update.newVersion, document⟩)
  /-- The document of the file is taken up. -/
  | loads (c : Call) (doc : PolicyDocument) (hfollows : Follows svc svc.policyId ⟨doc.version, doc⟩)
      (hcall : ∀ update env, c ≠ .handleUpdate update env) :
      Moves render parse svc c ((svc.setState svc.policyId ⟨doc.version, doc⟩).publishSnapshot
        render svc.policyId ⟨doc.version, doc⟩ c.env)
  /-- An update is applied. -/
  | updates (update : SecurityPolicyUpdate) (env : Surroundings) (delta : Json)
      (document : PolicyDocument) (hparse : parse update.ruleDeltaJson = .ok delta)
      (happlies : Applies svc update delta) (hstrip : ¬ Stripping svc update)
      (hfollows : Follows svc update.policyId ⟨update.newVersion, document⟩) :
      Moves render parse svc (.handleUpdate update env)
        ((svc.setState update.policyId ⟨update.newVersion, document⟩).publishSnapshot render
          update.policyId ⟨update.newVersion, document⟩ env)

theorem moves_load (force : Bool) (file : Except String String) (c : Call)
    (hcall : ∀ update env, c ≠ .handleUpdate update env) :
    Moves render parse svc c (svc.loadAndPublishInner render parse force file c.env) := by
  obtain ⟨doc, hoffers, heq⟩ | ⟨heq, -⟩ := loadAndPublishInner_cases render
    parse svc force file c.env
  · rw [heq]
    exact .loads c doc ⟨rfl, hoffers.current⟩ hcall
  · rw [heq]
    exact .rests c _ (by simp) fun update env delta hc => absurd hc (hcall update env)

variable (render parse svc) in
theorem moves_call (c : Call) : Moves render parse svc c (svc.call render parse c) := by
  cases c with
  | loadAndPublish file env => exact moves_load false file _ (by simp)
  | republish file env => exact moves_load true file _ (by simp)
  | handleUpdate update env =>
      obtain ⟨text, hparse, heq⟩ | ⟨delta, hparse, hcases⟩ := handleUpdate_cases render parse
        svc update env
      · simp only [call, heq]
        refine .rests _ _ (by simp) ?_
        rintro update' env' delta ⟨⟩ hparse'
        rw [hparse] at hparse'
        cases hparse'
      · obtain ⟨happlies, e, heq⟩ | ⟨happlies, hstrip, document, heq⟩ |
          ⟨happlies, hstrip, document, hversion, hempty, heq⟩ := hcases
        · simp only [call, heq]
          exact .enters update env delta e hparse happlies
        · simp only [call, heq]
          exact .panics update env delta document hparse happlies hstrip
        · simp only [call, heq]
          exact .updates update env delta document hparse happlies hstrip
            ⟨hversion, happlies.notBehind⟩

variable (render svc policyId state) in
/-- What is taken up is published, or the write fails. -/
theorem publishSnapshot_cases (env : Surroundings) :
    (env.write = .ok () ∧ svc.publishSnapshot render policyId state env =
      (.ok true, { svc with
        published := svc.published ++ [svc.snapshot render policyId state env.nowNs] })) ∨
    (∃ e, env.write = .error e ∧
      svc.publishSnapshot render policyId state env = (.error (.dataSpace e), svc)) := by
  unfold publishSnapshot
  cases env.write with
  | ok _ => exact .inl ⟨rfl, rfl⟩
  | error e => exact .inr ⟨e, rfl, rfl⟩

/-- The settings of the service stay. -/
theorem Moves.settings {c : Call} {result : Outcome × PolicyEngineService}
    (h : Moves render parse svc c result) :
    result.2.policyId = svc.policyId ∧ result.2.publishedBy = svc.publishedBy := by
  cases h with
  | rests => exact ⟨rfl, rfl⟩
  | enters => exact ⟨rfl, rfl⟩
  | panics => exact ⟨rfl, rfl⟩
  | loads c doc hfollows hcall =>
      obtain ⟨-, heq⟩ | ⟨e, -, heq⟩ := publishSnapshot_cases render
        (svc.setState svc.policyId ⟨doc.version, doc⟩) svc.policyId ⟨doc.version, doc⟩ c.env <;>
        exact heq ▸ ⟨rfl, rfl⟩
  | updates update env delta document hparse happlies hstrip hfollows =>
      obtain ⟨-, heq⟩ | ⟨e, -, heq⟩ := publishSnapshot_cases render
        (svc.setState update.policyId ⟨update.newVersion, document⟩) update.policyId
        ⟨update.newVersion, document⟩ env <;>
        exact heq ▸ ⟨rfl, rfl⟩

/-- A call publishes nothing, or the state it has taken up. -/
theorem Moves.published {c : Call} {result : Outcome × PolicyEngineService}
    (h : Moves render parse svc c result) :
    result.2.published = svc.published ∨ ∃ id state, result.2.states.lookup id = some state ∧
      Follows svc id state ∧
      result.2.published = svc.published ++ [svc.snapshot render id state c.env.nowNs] := by
  have htaken : ∀ (id : String) (state : PolicyState) (env : Surroundings),
      Follows svc id state → env = c.env →
      result = (svc.setState id state).publishSnapshot render id state env →
      result.2.published = svc.published ∨ ∃ id state, result.2.states.lookup id = some state ∧
        Follows svc id state ∧
        result.2.published = svc.published ++ [svc.snapshot render id state c.env.nowNs] := by
    rintro id state env hfollows rfl rfl
    obtain ⟨-, heq⟩ | ⟨e, -, heq⟩ :=
      publishSnapshot_cases render (svc.setState id state) id state c.env
    · rw [heq]
      exact .inr ⟨id, state, by simp, hfollows, rfl⟩
    · rw [heq]
      exact .inl rfl
  cases h with
  | rests => exact .inl rfl
  | enters => exact .inl rfl
  | panics => exact .inl rfl
  | loads c doc hfollows hcall => exact htaken _ _ _ hfollows rfl rfl
  | updates update env delta document hparse happlies hstrip hfollows =>
      exact htaken _ _ _ hfollows rfl rfl

end Cases

end PolicyEngineService

end DdsOrchestrator.PolicyEngine
