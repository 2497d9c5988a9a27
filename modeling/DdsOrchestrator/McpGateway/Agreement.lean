import DdsOrchestrator.McpGateway.FailClosed
import DdsOrchestrator.PolicyEngine.Updates

/-!
The policy engine and a gateway that hears everything it publishes. The engine
publishes a changed document also when its version stays the same; the gateway
takes the first content of a version and refuses any other. Everything else that
is fit to be in force is taken, and the two then hold the same document.

What a gateway has in force expires unless the ticks of the engine renew it. A tick
does so exactly when the file has what is in force, or a later version.
-/

namespace DdsOrchestrator.McpGateway

open Dataspace Machine PolicyEngine PolicyEngineService DistributedPolicy

/-! ### When a snapshot is taken -/

namespace DistributedPolicy

variable {parse : String → Except String Json} {p : DistributedPolicy}
  {s : SecurityPolicySnapshot} {nowNs : UInt64}

theorem Takes.ingest_eq {document : PolicyDocument} (h : Takes parse p s nowNs document) :
    p.ingestSnapshotAt parse s nowNs = (.ok, p.activate (ofSnapshot s document)) := by
  have hstale : ¬ ∃ current ∈ p.active, isStale s ⟨document.raw⟩ current := by
    rintro ⟨current, hcurrent, hstale⟩
    exact h.fresh current hcurrent hstale
  have hempty : PolicyDocument.isEmpty ⟨document.raw⟩ = false := h.nonempty
  have hversion : PolicyDocument.version ⟨document.raw⟩ = s.version := h.version
  simp only [ingestSnapshotAt, validateEnvelope_ok_iff.mpr h.enveloped,
    PolicyDocument.fromJsonStr, h.parsed, hempty, hversion, hstale, if_false, ne_eq,
    not_true_eq_false, Bool.false_eq_true]
  rfl

theorem ingest_ok_iff :
    (p.ingestSnapshotAt parse s nowNs).1 = .ok ↔ ∃ document, Takes parse p s nowNs document := by
  constructor
  · intro hok
    obtain ⟨document, htakes, -⟩ | ⟨e, heq⟩ := ingestSnapshotAt_cases parse p s nowNs
    · exact ⟨document, htakes⟩
    · rw [heq] at hok
      cases hok
  · rintro ⟨document, htakes⟩
    rw [htakes.ingest_eq]

end DistributedPolicy

/-! ### The two together -/

/-- An engine and a gateway, with the time of the last call. -/
structure Link where
  engine : PolicyEngineService
  gateway : DistributedPolicy
  clock : UInt64

/-- A call of the engine, and when the gateway hears what it publishes. -/
structure Exchange where
  call : Call
  heardNs : UInt64

namespace Link

def start (policyId publishedBy : String) (maxAgeNs : UInt64) : Link :=
  ⟨.new policyId publishedBy, .new policyId maxAgeNs, 0⟩

section Step

variable (render : Json → String) (parse : String → Except String Json)

/-- What the call adds to what is published. -/
def news (l : Link) (x : Exchange) : List SecurityPolicySnapshot :=
  (l.engine.step render parse x.call).published.drop l.engine.published.length

def step (l : Link) (x : Exchange) : Link where
  engine := l.engine.step render parse x.call
  gateway := (l.news render parse x).foldl
    (fun gateway s => (gateway.ingestSnapshotAt parse s x.heardNs).2) l.gateway
  clock := x.call.env.nowNs

/-- The clock of the engine goes on, the gateway hears in time, and what the engine
holds is read back from what it writes. -/
structure Timely (l : Link) (x : Exchange) : Prop where
  later : l.clock < x.call.env.nowNs
  notFuture : x.call.env.nowNs.toNat - x.heardNs.toNat ≤ l.gateway.futureSkewNs.toNat
  notOld : x.heardNs.toNat - x.call.env.nowNs.toNat ≤ l.gateway.maxAgeNs.toNat
  readBack : ∀ id state, (l.engine.step render parse x.call).currentState id = some state →
    parse (render state.document.raw) = .ok state.document.raw

/-- The gateway has other content for the version. -/
def Conflicts (gateway : DistributedPolicy) (state : PolicyState) : Prop :=
  ∃ current ∈ gateway.active,
    current.version = state.version ∧ current.document ≠ state.document

/-- The gateway takes what is published of its policy exactly when it is fit to be
in force and does not conflict, and then has the document of the engine. -/
def Agrees (l : Link) (x : Exchange) : Prop :=
  ∀ s ∈ l.news render parse x, s.policyId = l.gateway.policyId →
    ∃ state, (l.engine.step render parse x.call).currentState s.policyId = some state ∧
      ((l.gateway.ingestSnapshotAt parse s x.heardNs).1 = .ok ↔
        l.engine.publishedBy ≠ "" ∧ state.document.isEmpty = false ∧ 0 < state.version ∧
          ¬ Conflicts l.gateway state) ∧
      ((l.gateway.ingestSnapshotAt parse s x.heardNs).1 = .ok →
        (l.step render parse x).gateway.active.map ActivePolicy.document = some state.document)

end Step

variable {render : Json → String} {parse : String → Except String Json} {l : Link}
  {x : Exchange}

/-- What the gateway has in force is sound, came from the engine and is not ahead of
it. -/
structure Heard (l : Link) : Prop where
  sound : l.gateway.Guarded
  named : ∀ current ∈ l.gateway.active, current.publisher ≠ ""
  policyId : l.gateway.policyId = l.engine.policyId
  publisher : ∀ current ∈ l.gateway.active, current.publisher = l.engine.publishedBy
  stamped : ∀ current ∈ l.gateway.active, current.timestampNs ≤ l.clock
  held : ∀ current ∈ l.gateway.active, ∃ state,
    l.engine.states.lookup l.engine.policyId = some state ∧ current.version ≤ state.version

/-- What the gateway makes of a snapshot of the engine that is heard in time. -/
theorem Heard.takes_iff (h : l.Heard) (htimely : Timely render parse l x) {state : PolicyState}
    (hstate : (l.engine.step render parse x.call).currentState l.engine.policyId = some state)
    (hfollows : Follows l.engine l.engine.policyId state) (document : PolicyDocument) :
    Takes parse l.gateway (l.engine.snapshot render l.engine.policyId state x.call.env.nowNs)
        x.heardNs document ↔
      document = state.document ∧ l.engine.publishedBy ≠ "" ∧
        state.document.isEmpty = false ∧ 0 < state.version ∧ ¬ Conflicts l.gateway state := by
  have hread := htimely.readBack _ state hstate
  constructor
  · intro htakes
    have hdoc : document = state.document := by
      have hparsed := htakes.parsed
      simp only [snapshot, hread, Except.ok.injEq] at hparsed
      cases document
      cases hraw : state.document
      simp_all
    subst hdoc
    refine ⟨rfl, htakes.enveloped.publisher, htakes.nonempty, htakes.enveloped.version, ?_⟩
    rintro ⟨current, hcurrent, hversion, hdocument⟩
    exact htakes.fresh current hcurrent
      (.inr (.inr ⟨hversion.symm, .inl (Ne.symm hdocument)⟩))
  · rintro ⟨rfl, hpublisher, hempty, hpositive, hconflict⟩
    refine ⟨⟨h.policyId.symm, hpositive, hpublisher, ?_, htimely.notFuture, htimely.notOld⟩, hread,
      hempty, hfollows.version, fun current hcurrent hstale => ?_⟩
    · intro hzero
      have hlater := htimely.later
      simp only [snapshot] at hzero
      rw [hzero] at hlater
      exact absurd hlater (UInt64.not_lt.mpr (UInt64.zero_le))
    · obtain ⟨held, hheld, hle⟩ := h.held current hcurrent
      obtain hbehind | hearlier | ⟨hversion, hdocument | hpublisher⟩ := hstale
      · exact Int32.not_lt.mpr (Int32.le_trans hle (hfollows.notBehind held hheld)) hbehind
      · exact UInt64.not_lt.mpr (UInt64.le_trans hearlier (h.stamped current hcurrent))
          htimely.later
      · exact hconflict ⟨current, hcurrent, hversion.symm, Ne.symm hdocument⟩
      · exact hpublisher (h.publisher current hcurrent).symm

/-- A snapshot of another policy is refused. -/
theorem ingest_other {p : DistributedPolicy} {s : SecurityPolicySnapshot} {nowNs : UInt64}
    (hid : s.policyId ≠ p.policyId) : (p.ingestSnapshotAt parse s nowNs).2 = p := by
  obtain ⟨document, htakes, -⟩ | ⟨e, heq⟩ := ingestSnapshotAt_cases parse p s nowNs
  · exact absurd htakes.enveloped.policyId hid
  · rw [heq]

theorem news_cases (render : Json → String) (parse : String → Except String Json) (l : Link)
    (x : Exchange) : l.news render parse x = [] ∨ ∃ id state,
      (l.engine.step render parse x.call).currentState id = some state ∧
      Follows l.engine id state ∧
      l.news render parse x = [l.engine.snapshot render id state x.call.env.nowNs] := by
  obtain hnone | ⟨id, state, hstate, hfollows, hsome⟩ :=
    (moves_call render parse l.engine x.call).published
  · left
    rw [news, PolicyEngineService.step, hnone, List.drop_length]
  · right
    refine ⟨id, state, hstate, hfollows, ?_⟩
    rw [news, PolicyEngineService.step, hsome, List.drop_left]

theorem Heard.agrees (h : l.Heard) (htimely : Timely render parse l x) :
    Agrees render parse l x := by
  intro s hs hid
  obtain hnone | ⟨id, state, hstate, hfollows, hnews⟩ := news_cases render parse l x
  · rw [hnone] at hs
    cases hs
  · rw [hnews] at hs
    obtain rfl := List.mem_singleton.mp hs
    have hid' : id = l.engine.policyId := hid.trans h.policyId
    subst hid'
    have htakes := h.takes_iff htimely hstate hfollows
    have hok := @ingest_ok_iff parse l.gateway
      (l.engine.snapshot render l.engine.policyId state x.call.env.nowNs) x.heardNs
    refine ⟨state, hstate, ?_, fun htaken => ?_⟩
    · rw [hok]
      simp [htakes]
    · obtain ⟨document, hdocument⟩ := hok.mp htaken
      obtain ⟨rfl, -⟩ := (htakes document).mp hdocument
      rw [step, hnews]
      simp [hdocument.ingest_eq, activate, ofSnapshot]

/-- What the gateway has in force stays the engine's. -/
theorem Heard.step (h : l.Heard) (htimely : Timely render parse l x) :
    (l.step render parse x).Heard := by
  have hmoves := moves_call render parse l.engine x.call
  obtain ⟨hid, hby⟩ := hmoves.settings
  have hheld : ∀ current ∈ l.gateway.active, ∃ state,
      (l.engine.step render parse x.call).states.lookup l.engine.policyId = some state ∧
        current.version ≤ state.version := by
    intro current hcurrent
    obtain ⟨state, hstate, hle⟩ := h.held current hcurrent
    obtain ⟨state', hstate', hle'⟩ := hmoves.notBehind _ state hstate
    exact ⟨state', hstate', Int32.le_trans hle hle'⟩
  have hsound : (l.step render parse x).gateway.Guarded :=
    foldl_invariant _ h.sound fun _ s hs => hs.ingest (.snapshot s x.heardNs)
  -- the gateway has what it had, or has taken up the news
  have hgateway : (l.step render parse x).gateway = l.gateway ∨ ∃ state,
      (l.engine.step render parse x.call).currentState l.engine.policyId = some state ∧
      l.engine.publishedBy ≠ "" ∧
      (l.step render parse x).gateway = l.gateway.activate (ofSnapshot
        (l.engine.snapshot render l.engine.policyId state x.call.env.nowNs) state.document) := by
    obtain hnone | ⟨id, state, hstate, hfollows, hnews⟩ := news_cases render parse l x
    · left
      rw [Link.step, hnone]
      rfl
    · by_cases hown : id = l.engine.policyId
      · subst hown
        obtain ⟨document, htakes, heq⟩ | ⟨e, heq⟩ := ingestSnapshotAt_cases parse l.gateway
          (l.engine.snapshot render l.engine.policyId state x.call.env.nowNs) x.heardNs
        · right
          obtain ⟨rfl, hname, -⟩ := (h.takes_iff htimely hstate hfollows document).mp htakes
          exact ⟨state, hstate, hname, by rw [Link.step, hnews]; simp [heq]⟩
        · left
          rw [Link.step, hnews]
          simp [heq]
      · left
        have hother : (l.engine.snapshot render id state x.call.env.nowNs).policyId ≠
            l.gateway.policyId := fun heq => hown (heq.trans h.policyId)
        rw [Link.step, hnews]
        exact ingest_other hother
  have hclock : (l.step render parse x).clock = x.call.env.nowNs := rfl
  have hengine : (l.step render parse x).engine = l.engine.step render parse x.call := rfl
  have hpolicy : (l.step render parse x).engine.policyId = l.engine.policyId := hid
  obtain hsame | ⟨state, hstate, hname, hnew⟩ := hgateway
  · refine ⟨hsound, ?_, ?_, ?_, ?_, ?_⟩
    · rw [hsame]
      exact h.named
    · rw [hsame, hpolicy]
      exact h.policyId
    · rw [hsame]
      exact fun current hcurrent => (h.publisher current hcurrent).trans hby.symm
    · rw [hsame, hclock]
      exact fun current hcurrent =>
        UInt64.le_trans (h.stamped current hcurrent) (UInt64.le_of_lt htimely.later)
    · rw [hsame, hpolicy]
      exact hheld
  · refine ⟨hsound, ?_, ?_, ?_, ?_, ?_⟩
    · rw [hnew]
      rintro current ⟨⟩
      exact hname
    · rw [hnew, hpolicy]
      exact h.policyId
    · rw [hnew]
      rintro current ⟨⟩
      exact hby.symm
    · rw [hnew, hclock]
      rintro current ⟨⟩
      exact UInt64.le_refl _
    · rw [hnew, hpolicy]
      rintro current ⟨⟩
      exact ⟨state, hstate, Int32.le_refl _⟩

theorem heard_start (policyId publishedBy : String) (maxAgeNs : UInt64) :
    (start policyId publishedBy maxAgeNs).Heard := by
  refine ⟨?_, ?_, rfl, ?_, ?_, ?_⟩ <;> (intro current hcurrent; cases hcurrent)

/-! ### A file that is taken up -/

/-- The engine publishes a document of its file with the time of the call. -/
structure Loads (render : Json → String) (parse : String → Except String Json) (l : Link)
    (x : Exchange) (doc : PolicyDocument) : Prop where
  state : (l.engine.step render parse x.call).currentState l.engine.policyId =
    some ⟨doc.version, doc⟩
  follows : Follows l.engine l.engine.policyId ⟨doc.version, doc⟩
  news : l.news render parse x =
    [l.engine.snapshot render l.engine.policyId ⟨doc.version, doc⟩ x.call.env.nowNs]

theorem loads_of_offers {file : Except String String} {doc : PolicyDocument}
    (h : Offers parse l.engine file doc) (hwrite : x.call.env.write = .ok ()) (force : Bool)
    (hcall : l.engine.call render parse x.call =
      l.engine.loadAndPublishInner render parse force file x.call.env)
    (hchange : force = true ∨
      l.engine.states.lookup l.engine.policyId ≠ some ⟨doc.version, doc⟩) :
    Loads render parse l x doc := by
  have hstep : l.engine.step render parse x.call =
      { l.engine.setState l.engine.policyId ⟨doc.version, doc⟩ with
        published := l.engine.published ++
          [l.engine.snapshot render l.engine.policyId ⟨doc.version, doc⟩ x.call.env.nowNs] } := by
    rw [PolicyEngineService.step, hcall, h.load_eq x.call.env hchange, publishSnapshot, hwrite]
    rfl
  refine ⟨?_, ⟨rfl, h.current⟩, ?_⟩
  · rw [hstep]
    simp [currentState, setState]
  · rw [news, hstep, List.drop_left]

/-- The gateway has this state of the engine in force. -/
def InForce (gateway : DistributedPolicy) (cur : PolicyState) : Prop :=
  ∃ current ∈ gateway.active, current.version = cur.version ∧ current.document = cur.document

/-- A document edited under the version in force is published, and a gateway that has
the first content of the version keeps it. -/
def KeepsFirst (render : Json → String) (parse : String → Except String Json) (l : Link)
    (x : Exchange) : Prop :=
  ∀ file doc cur, x.call.file? = some file → Offers parse l.engine file doc →
    x.call.env.write = .ok () → l.engine.currentState l.engine.policyId = some cur →
    cur.version = doc.version → cur.document ≠ doc →
      l.news render parse x =
          [l.engine.snapshot render l.engine.policyId ⟨doc.version, doc⟩ x.call.env.nowNs] ∧
        (InForce l.gateway cur → (l.step render parse x).gateway = l.gateway)

/-- What a gateway makes of the file that the engine has taken up. -/
theorem Heard.step_loads (h : l.Heard) (htimely : Timely render parse l x) {doc : PolicyDocument}
    (hloads : Loads render parse l x doc) :
    (Conflicts l.gateway ⟨doc.version, doc⟩ → (l.step render parse x).gateway = l.gateway) ∧
      (l.engine.publishedBy ≠ "" → doc.isEmpty = false → 0 < doc.version →
        ¬ Conflicts l.gateway ⟨doc.version, doc⟩ →
          (l.step render parse x).gateway.active.map ActivePolicy.timestampNs =
            some x.call.env.nowNs) := by
  have htakes := h.takes_iff htimely hloads.state hloads.follows
  rw [Link.step, hloads.news]
  obtain ⟨document, hdocument, heq⟩ | ⟨e, heq⟩ := ingestSnapshotAt_cases parse l.gateway
    (l.engine.snapshot render l.engine.policyId ⟨doc.version, doc⟩ x.call.env.nowNs) x.heardNs
  · obtain ⟨rfl, -, -, -, hfree⟩ := (htakes document).mp hdocument
    refine ⟨fun hconflict => absurd hconflict hfree, fun _ _ _ _ => ?_⟩
    rw [List.foldl_cons, List.foldl_nil, heq]
    rfl
  · refine ⟨fun _ => by rw [List.foldl_cons, List.foldl_nil, heq],
      fun hname hempty hpositive hfree => ?_⟩
    have hdocument := (htakes doc).mpr ⟨rfl, hname, hempty, hpositive, hfree⟩
    rw [hdocument.ingest_eq] at heq
    cases heq

theorem Heard.keepsFirst (h : l.Heard) (htimely : Timely render parse l x) :
    KeepsFirst render parse l x := by
  intro file doc cur hfile hoffers hwrite hcur hversion hdiffers
  have hchange : l.engine.states.lookup l.engine.policyId ≠ some ⟨doc.version, doc⟩ := by
    intro hheld
    have hsame := Option.some.inj (hcur.symm.trans hheld)
    exact hdiffers (congrArg PolicyState.document hsame)
  have hloads : Loads render parse l x doc := by
    obtain ⟨c, heardNs⟩ := x
    cases c with
    | loadAndPublish file' env =>
        cases hfile
        exact loads_of_offers hoffers hwrite false rfl (.inr hchange)
    | republish file' env =>
        cases hfile
        exact loads_of_offers hoffers hwrite true rfl (.inl rfl)
    | handleUpdate update env => cases hfile
  refine ⟨hloads.news, ?_⟩
  rintro ⟨current, hcurrent, hsame, hdocument⟩
  exact (h.step_loads htimely hloads).1
    ⟨current, hcurrent, hsame.trans hversion, hdocument ▸ hdiffers⟩

/-- A tick gives what the gateway has in force a new time exactly when the file
confirms it. -/
theorem Heard.renewed_iff (h : l.Heard) {file : Except String String} {env : Surroundings}
    {heardNs : UInt64} (htimely : Timely render parse l ⟨.republish file env, heardNs⟩)
    (hwrite : env.write = .ok ()) {cur : PolicyState}
    (hcur : l.engine.currentState l.engine.policyId = some cur) (hforce : InForce l.gateway cur) :
    (l.step render parse ⟨.republish file env, heardNs⟩).gateway.active.map
        ActivePolicy.timestampNs = some env.nowNs ↔ Confirms parse file cur := by
  obtain ⟨current, hcurrent, hversion, hdocument⟩ := hforce
  have hsound := h.sound current hcurrent
  have hname : l.engine.publishedBy ≠ "" :=
    h.publisher current hcurrent ▸ h.named current hcurrent
  -- what the gateway had is older than the tick
  have hold : ∀ gateway : DistributedPolicy, gateway = l.gateway →
      gateway.active.map ActivePolicy.timestampNs ≠ some env.nowNs := by
    rintro gateway rfl hstamp
    rw [Option.mem_def.mp hcurrent, Option.map_some, Option.some.injEq] at hstamp
    have hle := h.stamped current hcurrent
    rw [hstamp] at hle
    exact UInt64.not_lt.mpr hle htimely.later
  by_cases hoffers : ∃ doc, Offers parse l.engine file doc
  swap
  · refine iff_of_false (hold _ ?_) fun hconfirms => hoffers (hconfirms.offers hcur)
    obtain ⟨doc, hdoc, -⟩ | ⟨heq, -⟩ :=
      loadAndPublishInner_cases render parse l.engine true file env
    · exact absurd ⟨doc, hdoc⟩ hoffers
    · rw [Link.step, news, PolicyEngineService.step, call, heq, List.drop_length]
      rfl
  obtain ⟨doc, hdoc⟩ := hoffers
  have hloads : Loads render parse l ⟨.republish file env, heardNs⟩ doc :=
    loads_of_offers hdoc hwrite true rfl (.inl rfl)
  obtain ⟨hkeeps, hrenews⟩ := h.step_loads htimely hloads
  rw [hdoc.confirms_iff]
  by_cases hconfirms : cur = ⟨doc.version, doc⟩ ∨ cur.version < doc.version
  · refine iff_of_true (hrenews hname ?_ ?_ ?_) hconfirms
    all_goals have hpositive := hversion ▸ hsound.positive
    · obtain rfl | hlater := hconfirms
      · have hempty := hsound.isEmpty
        rwa [hdocument] at hempty
      · refine PolicyDocument.isEmpty_of_version fun hzero => ?_
        rw [hzero] at hlater
        exact Int32.lt_irrefl (Int32.lt_trans hpositive hlater)
    · obtain rfl | hlater := hconfirms
      · exact hpositive
      · exact Int32.lt_trans hpositive hlater
    · rintro ⟨other, hother, hsame, hdiffers⟩
      obtain rfl : other = current := Option.some.inj (hother.symm.trans hcurrent)
      obtain rfl | hlater := hconfirms
      · exact hdiffers hdocument
      · rw [← hversion, hsame] at hlater
        exact Int32.lt_irrefl hlater
  · -- the file has other content for the version in force
    refine iff_of_false (hold _ (hkeeps ⟨current, hcurrent, ?_, ?_⟩)) hconfirms
    · refine hversion.trans (Int32.le_antisymm (hdoc.current cur hcur) ?_)
      exact Int32.not_lt.mp fun hlater => hconfirms (.inr hlater)
    · rintro hsame
      refine hconfirms (.inl ?_)
      have hle := hdoc.current cur hcur
      have hge : doc.version ≤ cur.version :=
        Int32.not_lt.mp fun hlater => hconfirms (.inr hlater)
      have hcurVersion := Int32.le_antisymm hle hge
      obtain ⟨version, document⟩ := cur
      dsimp only at hcurVersion hdocument
      rw [hcurVersion, ← hdocument, hsame]

end Link

/-- In every run of the engine whose snapshots are heard in order and in time, each
is taken exactly when it is fit to be in force and the gateway has no other content
for its version, and the gateway then has the document of the engine. A document
edited under its version is published, and the gateway keeps the first one. -/
theorem publisher_agrees (render : Json → String) (parse : String → Except String Json)
    (policyId publishedBy : String) (maxAgeNs : UInt64) (exchanges : List Exchange)
    (htimely : Along (Link.step render parse) (Link.Timely render parse)
      (Link.start policyId publishedBy maxAgeNs) exchanges) :
    Along (Link.step render parse)
      (fun l x => Link.Agrees render parse l x ∧ Link.KeepsFirst render parse l x)
      (Link.start policyId publishedBy maxAgeNs) exchanges :=
  htimely.of_invariant (Link.heard_start policyId publishedBy maxAgeNs)
    (fun _ _ hheard htime => hheard.step htime) fun _ _ hheard htime =>
      ⟨hheard.agrees htime, hheard.keepsFirst htime⟩

/-- A tick whose write succeeds publishes what is in force with its own time, or a
later version in its place, exactly when the file has one of the two; and exactly
then a gateway that has heard every snapshot in time, and has what is in force, has
it with the time of the tick. -/
theorem republish_renews_iff (render : Json → String) (parse : String → Except String Json)
    (svc : PolicyEngineService) (file : Except String String) (env : Surroundings)
    (cur : PolicyState) (hcur : svc.currentState svc.policyId = some cur)
    (hwrite : env.write = .ok ()) :
    (Renews render svc cur env (svc.call render parse (.republish file env)) ↔
      Confirms parse file cur) ∧
    ∀ policyId publishedBy maxAgeNs exchanges heardNs l,
      l = exchanges.foldl (Link.step render parse) (.start policyId publishedBy maxAgeNs) →
      l.engine = svc →
      Along (Link.step render parse) (Link.Timely render parse)
        (.start policyId publishedBy maxAgeNs)
        (exchanges ++ [⟨.republish file env, heardNs⟩]) →
      Link.InForce l.gateway cur →
      ((l.step render parse ⟨.republish file env, heardNs⟩).gateway.active.map
          ActivePolicy.timestampNs = some env.nowNs ↔
        Confirms parse file cur) := by
  refine ⟨renews_iff render parse env hcur hwrite, ?_⟩
  rintro policyId publishedBy maxAgeNs exchanges heardNs l rfl rfl htimely hforce
  rw [along_append] at htimely
  obtain ⟨hbefore, htick, -⟩ := htimely
  have hheard : (exchanges.foldl (Link.step render parse)
      (.start policyId publishedBy maxAgeNs)).Heard :=
    hbefore.invariant (Link.heard_start policyId publishedBy maxAgeNs)
      fun _ _ hheard htime => hheard.step htime
  exact hheard.renewed_iff htick hwrite hcur hforce

/-! ### Changed content of one version -/

namespace Conflict

def content (agent : String) : Json :=
  .obj (.ofList [("version", .ofInt 1), ("rules", .str agent)])

/-- Two files of the same version, each written and read as its own text. -/
def parse (s : String) : Except String Json :=
  if s = "a" then .ok (content "agent-a")
  else if s = "b" then .ok (content "agent-b")
  else .error "expected value"

def render (v : Json) : String := if v = content "agent-a" then "a" else "b"

def exchange (file : String) (nowNs heardNs : UInt64) : Exchange :=
  ⟨.loadAndPublish (.ok file) ⟨nowNs, .ok ()⟩, heardNs⟩

/-- The file is edited, and its version stays. -/
def exchanges : List Exchange := [exchange "a" 100 105, exchange "b" 200 205]

def start : Link := .start "default" "policy-engine-v1" 300

def final : Link := exchanges.foldl (Link.step render parse) start

/-- Both contents are read back. -/
theorem readBack {agent : String} (h : agent = "agent-a" ∨ agent = "agent-b") :
    parse (render (content agent)) = .ok (content agent) := by
  obtain rfl | rfl := h <;> decide +kernel

theorem timely {l : Link} {x : Exchange} {agent : String}
    (hagent : agent = "agent-a" ∨ agent = "agent-b") (hlater : l.clock < x.call.env.nowNs)
    (hfuture : x.call.env.nowNs.toNat - x.heardNs.toNat ≤ l.gateway.futureSkewNs.toNat)
    (hold : x.heardNs.toNat - x.call.env.nowNs.toNat ≤ l.gateway.maxAgeNs.toNat)
    (hstates : (l.engine.step render parse x.call).states.entries =
      [⟨"default", ⟨1, ⟨content agent⟩⟩⟩]) :
    Link.Timely render parse l x := by
  refine ⟨hlater, hfuture, hold, fun id state hstate => ?_⟩
  have hmem := Map.mem_entries.mpr hstate
  rw [hstates, List.mem_singleton] at hmem
  cases hmem
  exact readBack hagent

/-- The first file is in force. -/
def opened : Link := [exchange "a" 100 105].foldl (Link.step render parse) start

/-- A tick in time. -/
def tick (file : String) : Exchange := ⟨.republish (.ok file) ⟨200, .ok ()⟩, 205⟩

/-- What the engine holds by then. -/
def held : PolicyState := ⟨1, ⟨content "agent-a"⟩⟩

theorem timely_tick (file : String) {agent : String}
    (hagent : agent = "agent-a" ∨ agent = "agent-b")
    (hstates : (opened.engine.step render parse (tick file).call).states.entries =
      [⟨"default", ⟨1, ⟨content agent⟩⟩⟩]) :
    Along (Link.step render parse) (Link.Timely render parse) start
      ([exchange "a" 100 105] ++ [tick file]) := by
  refine ⟨timely (.inl rfl) (by decide +kernel) (by decide +kernel) (by decide +kernel)
    (by decide +kernel), timely hagent ?_ ?_ ?_ hstates, trivial⟩
  · show opened.clock < 200
    decide +kernel
  · show (200 : UInt64).toNat - (205 : UInt64).toNat ≤ opened.gateway.futureSkewNs.toNat
    decide +kernel
  · show (205 : UInt64).toNat - (200 : UInt64).toNat ≤ opened.gateway.maxAgeNs.toNat
    decide +kernel

end Conflict

open Conflict in
/-- A tick renews the policy while the file stays as it is. Once the file is edited,
the tick publishes other content and the gateway keeps what it has, with its time. -/
theorem republish_renews_loaded :
    (Renews render opened.engine held ⟨200, .ok ()⟩
        (opened.engine.call render parse (tick "a").call) ∧
      (opened.step render parse (tick "a")).gateway.active.map ActivePolicy.timestampNs =
        some 200) ∧
    ¬ Renews render opened.engine held ⟨200, .ok ()⟩
        (opened.engine.call render parse (tick "b").call) ∧
      (opened.step render parse (tick "b")).gateway.active.map ActivePolicy.timestampNs ≠
        some 200 := by
  have hheld : opened.engine.currentState opened.engine.policyId = some held := by
    decide +kernel
  have hforce : Link.InForce opened.gateway held := by
    refine ⟨⟨1, ⟨content "agent-a"⟩, "policy-engine-v1", 100⟩, ?_, rfl, rfl⟩
    decide +kernel
  have hconfirms : Confirms parse (.ok "a") held := by
    refine ⟨"a", content "agent-a", rfl, rfl, .inl ?_⟩
    decide +kernel
  have hdiffers : ¬ Confirms parse (.ok "b") held := by
    rintro ⟨content', raw, hfile, hraw, hsame⟩
    cases hfile
    cases hraw
    revert hsame
    decide +kernel
  obtain ⟨hrenews, hgateway⟩ := republish_renews_iff render parse opened.engine (.ok "a")
    ⟨200, .ok ()⟩ held hheld rfl
  obtain ⟨hrenews', hkept⟩ := republish_renews_iff render parse opened.engine (.ok "b")
    ⟨200, .ok ()⟩ held hheld rfl
  have htimely := timely_tick "a" (.inl rfl) (by decide +kernel)
  have htimely' := timely_tick "b" (.inr rfl) (by decide +kernel)
  exact ⟨⟨hrenews.mpr hconfirms, (hgateway "default" "policy-engine-v1" 300 _ 205 opened rfl rfl
      htimely hforce).mpr hconfirms⟩, fun h => hdiffers (hrenews'.mp h), fun h =>
    hdiffers ((hkept "default" "policy-engine-v1" 300 _ 205 opened rfl rfl htimely'
      hforce).mp h)⟩

open Conflict in
/-- The engine publishes the edited file, and the gateway keeps the first one. -/
theorem edited_policy_refused :
    final.engine.published.length = 2 ∧
      (final.engine.currentState "default").map PolicyState.document =
        some ⟨content "agent-b"⟩ ∧
      final.gateway.active.map ActivePolicy.document = some ⟨content "agent-a"⟩ := by
  decide +kernel

open Conflict in
/-- The same run, as the theorem has it. -/
theorem edited_policy_agrees :
    Along (Link.step render parse)
      (fun l x => Link.Agrees render parse l x ∧ Link.KeepsFirst render parse l x)
      start exchanges := by
  refine publisher_agrees render parse "default" "policy-engine-v1" 300 exchanges
    ⟨timely (.inl rfl) ?_ ?_ ?_ ?_, timely (.inr rfl) ?_ ?_ ?_ ?_, trivial⟩ <;> decide +kernel

end DdsOrchestrator.McpGateway
