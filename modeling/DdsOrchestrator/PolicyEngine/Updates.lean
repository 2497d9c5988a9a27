import DdsOrchestrator.PolicyEngine.Service

/-!
What the service keeps through its calls. Versions on record never go back and
neither do those that are published. An update that fails, on the other hand, can
leave something behind: an entry for a policy that was not known, a state that
nobody was told of, or a version without its document. And the tick that is meant
to renew the snapshot does so only while the file has what is held, or a later
version.
-/

namespace DdsOrchestrator.PolicyEngine

open Dataspace Machine

namespace PolicyEngineService

variable {render : Json → String} {parse : String → Except String Json}
  {svc : PolicyEngineService} {c : Call}

/-! ### Versions -/

/-- The version on record is the one of the document. -/
def Versioned (svc : PolicyEngineService) : Prop :=
  ∀ id state, svc.states.lookup id = some state → state.document.version = state.version

/-- What is published is in the order of its versions and not ahead of what is
held. -/
structure Ordered (svc : PolicyEngineService) : Prop where
  sorted : svc.published.Pairwise fun a b => a.policyId = b.policyId → a.version ≤ b.version
  held : ∀ s ∈ svc.published, ∃ state, svc.states.lookup s.policyId = some state ∧
    s.version ≤ state.version

/-- The version of each policy is not behind the one before. -/
def NotBehind (svc svc' : PolicyEngineService) : Prop :=
  ∀ id cur, svc.states.lookup id = some cur →
    ∃ state, svc'.states.lookup id = some state ∧ cur.version ≤ state.version

theorem NotBehind.refl (svc : PolicyEngineService) : NotBehind svc svc :=
  fun _ cur hcur => ⟨cur, hcur, Int32.le_refl _⟩

theorem notBehind_setState {id : String} {state : PolicyState}
    (h : ∀ cur ∈ svc.states.lookup id, cur.version ≤ state.version) :
    NotBehind svc (svc.setState id state) := by
  intro id' cur hcur
  rw [lookup_setState]
  split
  · next heq =>
      subst heq
      exact ⟨state, rfl, h cur hcur⟩
  · exact ⟨cur, hcur, Int32.le_refl _⟩

theorem publishSnapshot_states {id : String} {state : PolicyState} (env : Surroundings) :
    (svc.publishSnapshot render id state env).2.states = svc.states := by
  obtain ⟨-, heq⟩ | ⟨e, -, heq⟩ := publishSnapshot_cases render svc id state env <;> rw [heq]

theorem Moves.notBehind {result : Outcome × PolicyEngineService}
    (h : Moves render parse svc c result) : NotBehind svc result.2 := by
  cases h with
  | rests => exact .refl svc
  | enters update env delta e hparse happlies =>
      refine notBehind_setState fun cur hcur => ?_
      simp [entry, Option.mem_def.mp hcur]
  | panics update env delta document hparse happlies hstrip =>
      exact notBehind_setState happlies.notBehind
  | loads c doc hfollows hcall =>
      have hset := notBehind_setState hfollows.notBehind
      unfold NotBehind
      rw [publishSnapshot_states]
      exact hset
  | updates update env delta document hparse happlies hstrip hfollows =>
      have hset := notBehind_setState hfollows.notBehind
      unfold NotBehind
      rw [publishSnapshot_states]
      exact hset

theorem Ordered.setState {id : String} {state : PolicyState} (h : svc.Ordered)
    (hbehind : ∀ cur ∈ svc.states.lookup id, cur.version ≤ state.version) :
    (svc.setState id state).Ordered := by
  refine ⟨h.sorted, fun s hs => ?_⟩
  obtain ⟨cur, hcur, hle⟩ := h.held s hs
  obtain ⟨st, hst, hle'⟩ := notBehind_setState hbehind s.policyId cur hcur
  exact ⟨st, hst, Int32.le_trans hle hle'⟩

/-- What is published is the state that is held. -/
theorem Ordered.publishSnapshot {id : String} {state : PolicyState} (h : svc.Ordered)
    (hstate : svc.states.lookup id = some state) (env : Surroundings) :
    (svc.publishSnapshot render id state env).2.Ordered := by
  obtain ⟨-, heq⟩ | ⟨e, -, heq⟩ := publishSnapshot_cases render svc id state env
  · rw [heq]
    refine ⟨List.pairwise_append.mpr ⟨h.sorted, List.pairwise_singleton _ _, ?_⟩, ?_⟩
    · intro a ha b hb hid
      obtain rfl := List.mem_singleton.mp hb
      obtain ⟨st, hst, hle⟩ := h.held a ha
      have hsame : svc.states.lookup a.policyId = some state := by
        rw [hid]
        exact hstate
      rw [hsame] at hst
      cases hst
      exact hle
    · intro s hs
      obtain hs | hs := List.mem_append.mp hs
      · exact h.held s hs
      · obtain rfl := List.mem_singleton.mp hs
        exact ⟨state, hstate, Int32.le_refl _⟩
  · rw [heq]
    exact h

theorem Moves.ordered {result : Outcome × PolicyEngineService}
    (h : Moves render parse svc c result) (hordered : svc.Ordered) : result.2.Ordered := by
  cases h with
  | rests => exact hordered
  | enters update env delta e hparse happlies =>
      refine hordered.setState fun cur hcur => ?_
      simp [entry, Option.mem_def.mp hcur]
  | panics update env delta document hparse happlies hstrip =>
      exact hordered.setState happlies.notBehind
  | loads c doc hfollows hcall =>
      exact (hordered.setState hfollows.notBehind).publishSnapshot (by simp) _
  | updates update env delta document hparse happlies hstrip hfollows =>
      exact (hordered.setState hfollows.notBehind).publishSnapshot (by simp) _

/-- Only a panic parts the version on record from the document. -/
theorem Moves.versioned {result : Outcome × PolicyEngineService}
    (h : Moves render parse svc c result) (hversioned : svc.Versioned)
    (hpanic : result.1 ≠ .panicked) : result.2.Versioned := by
  have hset : ∀ {id : String} {state : PolicyState}, state.document.version = state.version →
      (svc.setState id state).Versioned := by
    intro id state hstate id' state' hlookup
    rw [lookup_setState] at hlookup
    split at hlookup
    · cases hlookup
      exact hstate
    · exact hversioned id' state' hlookup
  cases h with
  | rests => exact hversioned
  | enters update env delta e hparse happlies =>
      refine hset ?_
      cases hlookup : svc.states.lookup update.policyId with
      | none => simp [entry, hlookup, PolicyDocument.version, PolicyDocument.empty, Json.get?,
          Json.asObject, Json.Fields.get?]
      | some cur => simpa [entry, hlookup] using hversioned _ cur hlookup
  | panics => exact absurd rfl hpanic
  | loads c doc hfollows hcall =>
      unfold Versioned
      rw [publishSnapshot_states]
      exact hset hfollows.version
  | updates update env delta document hparse happlies hstrip hfollows =>
      unfold Versioned
      rw [publishSnapshot_states]
      exact hset hfollows.version

/-! ### Failed updates -/

/-- An update is sound to handle: one that is applied is published and does not
take keys out of a value that has none, and one that is refused is of a policy
that is known. One whose delta cannot be parsed always is. -/
def Handles (parse : String → Except String Json) (svc : PolicyEngineService) : Call → Prop
  | .loadAndPublish .. => True
  | .republish .. => True
  | .handleUpdate update env => ∀ delta, parse update.ruleDeltaJson = .ok delta →
      (Applies svc update delta → env.write = .ok () ∧ ¬ Stripping svc update) ∧
      (¬ Applies svc update delta → (svc.currentState update.policyId).isSome)

/-- The call does not panic, keeps the versions in order and, if it is an update
that fails, leaves every state as it was. -/
structure Kept (render : Json → String) (parse : String → Except String Json)
    (svc : PolicyEngineService) (c : Call) : Prop where
  noPanic : (svc.call render parse c).1 ≠ .panicked
  notBehind : NotBehind svc (svc.step render parse c)
  versioned : (svc.step render parse c).Versioned
  sorted : (svc.step render parse c).published.Pairwise fun a b =>
    a.policyId = b.policyId → a.version ≤ b.version
  retriable : ∀ update env e, c = .handleUpdate update env →
    (svc.call render parse c).1 = .error e →
    ∀ id, (svc.step render parse c).currentState id = svc.currentState id

variable (render) in
/-- For a single call, from any state. -/
theorem handles_iff :
    ((svc.call render parse c).1 ≠ .panicked ∧ ∀ update env e, c = .handleUpdate update env →
      (svc.call render parse c).1 = .error e →
      ∀ id, (svc.step render parse c).currentState id = svc.currentState id) ↔
    Handles parse svc c := by
  have hmoves := moves_call render parse svc c
  unfold step
  generalize svc.call render parse c = result at hmoves
  cases hmoves with
  | rests c o ho hparse =>
      refine iff_of_true ⟨ho, fun _ _ _ _ _ _ => rfl⟩ ?_
      cases c with
      | loadAndPublish => trivial
      | republish => trivial
      | handleUpdate update env =>
          intro delta hdelta
          exact absurd hdelta (hparse update env delta rfl)
  | enters update env delta e hparse happlies =>
      constructor
      · rintro ⟨-, hkept⟩ delta' hparse'
        rw [hparse] at hparse'
        cases hparse'
        refine ⟨fun h => absurd h happlies, fun _ => ?_⟩
        have hid := hkept update env e rfl rfl update.policyId
        simp only [currentState, lookup_setState, if_true] at hid
        rw [currentState, ← hid]
        rfl
      · intro hhandles
        refine ⟨by simp, fun _ _ _ _ _ id => ?_⟩
        have hknown := (hhandles delta hparse).2 happlies
        obtain ⟨cur, hcur⟩ := Option.isSome_iff_exists.mp hknown
        simp only [currentState] at hcur
        simp only [currentState, lookup_setState]
        split
        · next heq =>
            subst heq
            simp [entry, hcur]
        · rfl
  | panics update env delta document hparse happlies hstrip =>
      refine iff_of_false (fun h => h.1 rfl) fun hhandles => ?_
      exact ((hhandles delta hparse).1 happlies).2 hstrip
  | loads c doc hfollows hcall =>
      refine iff_of_true ⟨?_, fun update env _ hc => absurd hc (hcall update env)⟩ ?_
      · obtain ⟨-, heq⟩ | ⟨e, -, heq⟩ := publishSnapshot_cases render
          (svc.setState svc.policyId ⟨doc.version, doc⟩) svc.policyId ⟨doc.version, doc⟩ c.env <;>
          simp [heq]
      · cases c with
        | loadAndPublish => trivial
        | republish => trivial
        | handleUpdate update env => exact absurd rfl (hcall update env)
  | updates update env delta document hparse happlies hstrip hfollows =>
      obtain ⟨hwrite, heq⟩ | ⟨e, hwrite, heq⟩ := publishSnapshot_cases render
        (svc.setState update.policyId ⟨update.newVersion, document⟩) update.policyId
        ⟨update.newVersion, document⟩ env
      · rw [heq]
        refine iff_of_true ⟨by simp, fun _ _ _ _ he => by cases he⟩ fun delta' hparse' => ?_
        rw [hparse] at hparse'
        cases hparse'
        exact ⟨fun _ => ⟨hwrite, hstrip⟩, fun h => absurd happlies h⟩
      · rw [heq]
        refine iff_of_false (fun hkept => ?_) fun hhandles => ?_
        · -- the state has moved on, so that it is not what it was
          have hid := hkept.2 update env _ rfl rfl update.policyId
          simp only [currentState, lookup_setState, if_true] at hid
          have hnewer := happlies.newer
          rw [entry, ← hid, Option.getD_some] at hnewer
          exact Int32.lt_irrefl hnewer
        · rw [((hhandles delta hparse).1 happlies).1] at hwrite
          cases hwrite

end PolicyEngineService

open PolicyEngineService

/-- The calls of a run keep what they should exactly when each of them is sound to
handle in the state in which it comes. -/
theorem updates_kept_iff (render : Json → String) (parse : String → Except String Json)
    (policyId publishedBy : String) (calls : List Call) :
    Along (step render parse) (Kept render parse) (new policyId publishedBy) calls ↔
      Along (step render parse) (Handles parse) (new policyId publishedBy) calls := by
  constructor
  · intro h
    exact h.mono fun svc c hkept => (handles_iff render).mp ⟨hkept.noPanic, hkept.retriable⟩
  · intro h
    have hnew : (new policyId publishedBy).Versioned ∧ (new policyId publishedBy).Ordered := by
      refine ⟨?_, .nil, ?_⟩
      · intro id state hlookup
        cases hlookup
      · intro s hs
        cases hs
    have hstep : ∀ svc c, svc.Versioned ∧ svc.Ordered → Handles parse svc c →
        (svc.step render parse c).Versioned ∧ (svc.step render parse c).Ordered := by
      intro svc c hinv hhandles
      have hmoves := moves_call render parse svc c
      exact ⟨hmoves.versioned hinv.1 ((handles_iff render).mpr hhandles).1, hmoves.ordered hinv.2⟩
    refine h.of_invariant hnew hstep fun svc c hinv hhandles => ?_
    have hkept := (handles_iff render).mpr hhandles
    have hnext := hstep svc c hinv hhandles
    exact ⟨hkept.1, (moves_call render parse svc c).notBehind, hnext.1, hnext.2.sorted, hkept.2⟩

/-! ### Renewal -/

/-- The call publishes, with its own time, what was in force before it, or a later
version that has taken its place. -/
structure Renews (render : Json → String) (svc : PolicyEngineService) (cur : PolicyState)
    (env : Surroundings) (result : Outcome × PolicyEngineService) : Prop where
  ok : result.1 = .ok true
  published : ∃ state, result.2.currentState svc.policyId = some state ∧
    (state = cur ∨ cur.version < state.version) ∧
    result.2.published = svc.published ++ [svc.snapshot render svc.policyId state env.nowNs]

/-- The file has what is in force, or a later version. -/
def Confirms (parse : String → Except String Json) (file : Except String String)
    (cur : PolicyState) : Prop :=
  ∃ content raw, file = .ok content ∧ parse content = .ok raw ∧
    (cur = ⟨PolicyDocument.version ⟨raw⟩, ⟨raw⟩⟩ ∨ cur.version < PolicyDocument.version ⟨raw⟩)

section Renewal

variable {parse : String → Except String Json} {svc : PolicyEngineService}
  {file : Except String String} {cur : PolicyState}

theorem PolicyEngineService.Offers.confirms_iff {doc : PolicyDocument}
    (h : Offers parse svc file doc) :
    Confirms parse file cur ↔ cur = ⟨doc.version, doc⟩ ∨ cur.version < doc.version := by
  obtain ⟨content, rfl, hparse⟩ := h.parsed
  constructor
  · rintro ⟨content', raw, hcontent, hparse', hconfirms⟩
    cases hcontent
    rw [hparse] at hparse'
    cases hparse'
    exact hconfirms
  · exact fun hconfirms => ⟨content, doc.raw, rfl, hparse, hconfirms⟩

theorem Confirms.offers (h : Confirms parse file cur)
    (hcur : svc.currentState svc.policyId = some cur) : ∃ doc, Offers parse svc file doc := by
  obtain ⟨content, raw, rfl, hparse, hconfirms⟩ := h
  refine ⟨⟨raw⟩, ⟨content, rfl, hparse⟩, fun held hheld => ?_⟩
  obtain rfl : held = cur := Option.some.inj (hheld.symm.trans hcur)
  obtain hsame | hlater := hconfirms
  · rw [hsame]
    exact Int32.le_refl _
  · exact Int32.le_of_lt hlater

/-- A tick whose write succeeds renews the policy exactly when the file confirms what
is in force. -/
theorem PolicyEngineService.renews_iff (render : Json → String)
    (parse : String → Except String Json) (env : Surroundings)
    (hcur : svc.currentState svc.policyId = some cur) (hwrite : env.write = .ok ()) :
    Renews render svc cur env (svc.call render parse (.republish file env)) ↔
      Confirms parse file cur := by
  obtain ⟨doc, hoffers, heq⟩ | ⟨heq, hnone⟩ :=
    loadAndPublishInner_cases render parse svc true file env
  · obtain ⟨-, hpub⟩ | ⟨e, herror, -⟩ := publishSnapshot_cases render
      (svc.setState svc.policyId ⟨doc.version, doc⟩) svc.policyId ⟨doc.version, doc⟩ env
    swap
    · rw [hwrite] at herror
      cases herror
    rw [hoffers.confirms_iff, call, heq, hpub]
    have hafter : (svc.setState svc.policyId ⟨doc.version, doc⟩).currentState svc.policyId =
        some ⟨doc.version, doc⟩ := by
      simp [currentState]
    constructor
    · rintro ⟨-, state, hstate, hrenews, -⟩
      obtain rfl : _ = state := Option.some.inj (hafter.symm.trans hstate)
      exact hrenews.imp Eq.symm id
    · intro hconfirms
      exact ⟨rfl, _, hafter, hconfirms.imp Eq.symm id, rfl⟩
  · obtain hnone | hforce := hnone
    · refine iff_of_false ?_ fun hconfirms => ?_
      · rw [call, heq]
        rintro ⟨hok, -⟩
        cases hok
      · obtain ⟨doc, hoffers⟩ := hconfirms.offers hcur
        exact hnone doc hoffers
    · cases hforce

end Renewal

/-! ### Runs in which something is left behind -/

namespace Example

/-- Three texts: a policy of version 1, a number, and a delta without rules. -/
def parse (s : String) : Except String Json :=
  if s = "policy" then .ok (.obj (.ofList [("version", .ofInt 1)]))
  else if s = "number" then .ok (.ofInt 5)
  else if s = "delta" then .ok (.obj .nil)
  else .error "expected value"

def render (_ : Json) : String := "snapshot"

def sound (nowNs : UInt64) : Surroundings := ⟨nowNs, .ok ()⟩

def update (policyId operation : String) (newVersion : Int32) : SecurityPolicyUpdate :=
  ⟨policyId, newVersion - 1, newVersion, operation, "delta", "operator", 100⟩

def run (calls : List Call) : PolicyEngineService :=
  calls.foldl (step render parse) (new "default" "policy-engine-v1")

def outcome (calls : List Call) (c : Call) : Outcome := ((run calls).call render parse c).1

/-- The service with a policy of version 1. -/
def loaded : List Call := [.loadAndPublish (.ok "policy") (sound 100)]

/-- A delta has moved the version past the one of the file. -/
def updated : List Call := loaded ++ [.handleUpdate (update "default" "ADD_RULE" 2) (sound 110)]

/-- The write fails. -/
def down : Surroundings := ⟨110, .error (.writeFailed "timeout")⟩

end Example

open Example in
/-- A refused update makes an entry for a policy nobody knows, an update whose
write fails cannot be tried again, and one that takes keys out of a number
panics. -/
theorem failed_update_leaves_state :
    (outcome loaded (.handleUpdate (update "other" "ADD_RULE" 0) (sound 110)) =
        .error .staleVersion ∧
      (run loaded).currentState "other" = none ∧
      (run (loaded ++ [.handleUpdate (update "other" "ADD_RULE" 0) (sound 110)])).currentState
        "other" = some ⟨0, .empty⟩) ∧
    (outcome loaded (.handleUpdate (update "default" "ADD_RULE" 2) down) =
        .error (.dataSpace (.writeFailed "timeout")) ∧
      outcome (loaded ++ [.handleUpdate (update "default" "ADD_RULE" 2) down])
        (.handleUpdate (update "default" "ADD_RULE" 2) (sound 120)) = .error .staleVersion) ∧
    outcome [.loadAndPublish (.ok "number") (sound 100)]
      (.handleUpdate (update "default" "REMOVE_RULE" 1) (sound 110)) = .panicked := by
  decide +kernel

open Example in
/-- After an update, the ticks publish nothing while the file stays as it is. -/
theorem republish_skips_updated :
    (run updated).published.length = 2 ∧
      outcome updated (.republish (.ok "policy") (sound 200)) = .ok false ∧
      (run (updated ++ [.republish (.ok "policy") (sound 200)])).published =
        (run updated).published := by
  decide +kernel

end DdsOrchestrator.PolicyEngine
