import DdsOrchestrator.Lib.UntilFirst
import DdsOrchestrator.LlmGateway.Gateway

/-!
The order of a failover. The targets are tried as they stand in the chain, and the chain is
found by the constraint of the request and not by the provider that has failed. The chains
are built from configurations, whose targets keep their order.
-/

namespace DdsOrchestrator.LlmGateway

/-! ### The chains -/

structure CircuitBreakerConfig where
  failureThreshold : UInt32
  recoveryTimeoutMs : Nat

structure FailoverTargetConfig where
  provider : String
  model : String
  circuitBreaker : CircuitBreakerConfig
  priority : UInt32

structure FailoverConfig where
  primaryProvider : String
  targets : List FailoverTargetConfig

/-- The targets whose provider there is. -/
def FailoverConfig.build (providerFactory : String → Option LlmProvider) (config : FailoverConfig) :
    List FailoverTarget :=
  config.targets.filterMap fun ft => (providerFactory ft.provider).map fun provider =>
    { provider, model := ft.model, priority := ft.priority
      circuitBreaker := .new ft.circuitBreaker.failureThreshold
        ft.circuitBreaker.recoveryTimeoutMs }

def buildFailoverChains (configs : List FailoverConfig)
    (providerFactory : String → Option LlmProvider) (providers : GatewayProviders) :
    GatewayProviders :=
  configs.foldl (fun p config =>
    let targets := config.build providerFactory
    if targets.isEmpty then p else p.registerFailover config.primaryProvider targets) providers

/-! ### Whom a call tries -/

/-- A target, by the chain it stands in and its place there. -/
structure Attempt where
  chain : String
  place : Nat
  target : FailoverTarget

namespace Attempt

def answers (request : Dataspace.LLMInferenceRequest) (a : Attempt) : Bool :=
  match a.target.provider.infer (a.target.request request) with
  | .ok _ => true
  | .error _ => false

def exchange (request : Dataspace.LLMInferenceRequest) (a : Attempt) : Exchange :=
  a.target.provider.exchange (a.target.request request)

def priority (a : Attempt) : Nat := a.target.priority.toNat

end Attempt

instance (constraint : ProviderConstraint) (askedAt : Nat) (t : FailoverTarget) :
    Decidable (t.Asked constraint askedAt) :=
  decidable_of_iff (0 < t.priority ∧ constraint.allows t.provider.kind = true ∧
      (t.circuitBreaker.isAvailable askedAt).1 = true)
    ⟨fun h => ⟨h.1, h.2.1, h.2.2⟩, fun h => ⟨h.enabled, h.allows, h.available⟩⟩

/-- The targets that are enabled, allowed and available, from the place `first` on. -/
def eligibleFrom (constraint : ProviderConstraint) (clock : Nat → Nat) (chain : String)
    (first : Nat) (targets : List FailoverTarget) : List Attempt :=
  ((targets.zipIdx first).filter fun x => x.1.Asked constraint (clock (2 * x.2))).map
    fun x => ⟨chain, x.2, x.1⟩

def Call.eligible (c : Call) (constraint : ProviderConstraint) (chain : String) : List Attempt :=
  eligibleFrom constraint c.clock chain 0 (c.providers.getFailoverTargets chain)

/-- The targets that are called once the provider has failed. -/
def Call.attempts (c : Call) (constraint : ProviderConstraint) : List Attempt :=
  untilFirst (Attempt.answers c.request)
    (c.eligible constraint (GatewayProviders.providerNameFromConstraint constraint))

/-- The name of the provider a request is routed to. -/
def GatewayProviders.servedName (constraint : ProviderConstraint) (p : GatewayProviders) :
    String :=
  match constraint with
  | .localOnly => "local"
  | .cloudOnly => "cloud"
  | .any => if p.onPremises.isSome then "local" else "cloud"

/-- The eligible targets of the chain of the provider that has failed are tried in ascending
order of priority, each at most once, and the call fails only once all of them have failed. -/
structure CascadesInOrder (c : Call) (g : Gateway) (constraint : ProviderConstraint) : Prop where
  order : ∃ order : List Attempt,
    order.Perm (c.eligible constraint (c.providers.servedName constraint)) ∧
      (order.Pairwise fun a b => a.priority ≤ b.priority) ∧
      c.attempts constraint <+: order
  once : (c.attempts constraint).Pairwise fun a b => a.place ≠ b.place
  exhausted : ∀ e, (g.processRouted c).1.answer = .error e →
    ∀ a ∈ c.eligible constraint (c.providers.servedName constraint),
      a ∈ c.attempts constraint ∧ a.answers c.request = false

/-- Where a request for any provider is routed to the cloud, there is nobody to try in either
chain. -/
def OwnChain (c : Call) (constraint : ProviderConstraint) : Prop :=
  constraint = .any → c.providers.onPremises = none →
    c.eligible constraint "local" = [] ∧ c.eligible constraint "cloud" = []

section Attempts

variable {constraint : ProviderConstraint} {clock : Nat → Nat} {chain : String} {first : Nat}
  {t : FailoverTarget} {ts : List FailoverTarget} {request : Dataspace.LLMInferenceRequest}

theorem eligibleFrom_cons_of (h : t.Asked constraint (clock (2 * first))) :
    eligibleFrom constraint clock chain first (t :: ts) =
      ⟨chain, first, t⟩ :: eligibleFrom constraint clock chain (first + 1) ts := by
  rw [eligibleFrom, List.zipIdx_cons, List.filter_cons, if_pos (decide_eq_true h)]
  rfl

theorem eligibleFrom_cons_of_not (h : ¬ t.Asked constraint (clock (2 * first))) :
    eligibleFrom constraint clock chain first (t :: ts) =
      eligibleFrom constraint clock chain (first + 1) ts := by
  rw [eligibleFrom, List.zipIdx_cons, List.filter_cons, if_neg (by simpa using h)]
  rfl

/-- The loop calls the eligible targets until one answers. -/
theorem sent_cascade (first : Nat) (lastErr : GatewayError) :
    (cascade constraint request (fun i => clock (i + 2 * first)) lastErr ts).sent =
      (untilFirst (Attempt.answers request)
        (eligibleFrom constraint clock chain first ts)).map (Attempt.exchange request) := by
  induction ts generalizing first lastErr with
  | nil => rfl
  | cons t ts ih =>
      have hlater : (fun i => clock (i + 2 + 2 * first)) =
          fun i => clock (i + 2 * (first + 1)) := by
        funext i
        exact congrArg clock (by omega)
      have hnow : clock (0 + 2 * first) = clock (2 * first) := congrArg clock (by omega)
      by_cases hasked : t.Asked constraint (clock (2 * first))
      · rw [eligibleFrom_cons_of hasked]
        rw [← hnow] at hasked
        cases hinfer : t.provider.infer (t.request request) with
        | ok result =>
            have hanswers : Attempt.answers request ⟨chain, first, t⟩ = true := by
              rw [Attempt.answers, hinfer]
            rw [(cascade_answered constraint request _ lastErr t ts hasked hinfer).1,
              untilFirst_cons_of hanswers]
            rfl
        | error e =>
            have hanswers : Attempt.answers request ⟨chain, first, t⟩ = false := by
              rw [Attempt.answers, hinfer]
            rw [(cascade_failed constraint request _ lastErr t ts hasked hinfer).1, hlater, ih,
              untilFirst_cons_of_not hanswers]
            rfl
      · rw [eligibleFrom_cons_of_not hasked]
        rw [← hnow] at hasked
        rw [(cascade_passed constraint request _ lastErr t ts hasked).1, hlater, ih]

theorem mem_eligibleFrom {a : Attempt} :
    a ∈ eligibleFrom constraint clock chain 0 ts ↔
      a.chain = chain ∧ ts[a.place]? = some a.target ∧
        a.target.Asked constraint (clock (2 * a.place)) := by
  rw [eligibleFrom, List.mem_map]
  constructor
  · rintro ⟨⟨t, i⟩, hmem, rfl⟩
    obtain ⟨hmem, hasked⟩ := List.mem_filter.mp hmem
    exact ⟨rfl, List.mk_mem_zipIdx_iff_getElem?.mp hmem, of_decide_eq_true hasked⟩
  · rintro ⟨rfl, hget, hasked⟩
    exact ⟨(a.target, a.place), List.mem_filter.mpr
      ⟨List.mk_mem_zipIdx_iff_getElem?.mpr hget, decide_eq_true hasked⟩, rfl⟩

theorem places_eligibleFrom : (eligibleFrom constraint clock chain first ts).Pairwise
    fun a b => a.place ≠ b.place := by
  rw [eligibleFrom, List.pairwise_map]
  apply List.Pairwise.filter
  have hplaces : (ts.zipIdx first).map Prod.snd = List.range' first ts.length :=
    List.zipIdx_map_snd first ts
  have hnodup : ((ts.zipIdx first).map Prod.snd).Nodup := by
    rw [hplaces]
    exact List.nodup_range'
  exact List.pairwise_map.mp hnodup

end Attempts

/-! ### When the order is kept -/

section Order

variable {c : Call} {g : Gateway} {constraint : ProviderConstraint} {provider : LlmProvider}
  {e : GatewayError}

theorem sent_of_failed (hrouted : Routed c g constraint provider)
    (hinfer : provider.infer c.request = .error e) :
    (g.processRouted c).1.sent = provider.exchange c.request ::
      (c.attempts constraint).map (Attempt.exchange c.request) := by
  rw [(shows_of_failed hrouted hinfer).1]
  exact congrArg _ (sent_cascade 0 e)

/-- The call fails exactly if every eligible target of the chain it takes does. -/
theorem fails_iff (hrouted : Routed c g constraint provider)
    (hinfer : provider.infer c.request = .error e) :
    (∃ e, (g.processRouted c).1.answer = .error e) ↔
      ∀ a ∈ c.eligible constraint (GatewayProviders.providerNameFromConstraint constraint),
        a.answers c.request = false := by
  rw [answer_of_failed hrouted hinfer, cascade_fails_iff]
  have hanswers : ∀ a : Attempt, a.answers c.request = false ↔
      ∃ e, a.target.provider.infer (a.target.request c.request) = .error e := by
    intro a
    rw [Attempt.answers]
    cases a.target.provider.infer (a.target.request c.request) <;> simp
  constructor
  · intro h a ha
    obtain ⟨-, hget, hasked⟩ := mem_eligibleFrom.mp ha
    exact (hanswers a).mpr ((silent_iff constraint c.request).mp (h a.place a.target hget) hasked)
  · intro h i t hget
    rw [silent_iff]
    intro hasked
    exact (hanswers ⟨_, i, t⟩).mp (h ⟨_, i, t⟩ (mem_eligibleFrom.mpr ⟨rfl, hget, hasked⟩))

theorem attempts_begin : c.attempts constraint <+:
    c.eligible constraint (GatewayProviders.providerNameFromConstraint constraint) :=
  untilFirst_prefix _

theorem chain_of_mem_eligible {chain : String} {a : Attempt}
    (h : a ∈ c.eligible constraint chain) : a.chain = chain :=
  (mem_eligibleFrom.mp h).1

/-- The chain that is taken is another one only for a request for any provider where there is
none on the premises. -/
theorem servedName_cases (p : GatewayProviders) (constraint : ProviderConstraint) :
    p.servedName constraint = GatewayProviders.providerNameFromConstraint constraint ∨
      constraint = .any ∧ p.onPremises = none := by
  cases constraint with
  | localOnly => exact .inl rfl
  | cloudOnly => exact .inl rfl
  | any =>
      cases hlocal : p.onPremises with
      | none => exact .inr ⟨rfl, rfl⟩
      | some q =>
          rw [GatewayProviders.servedName, hlocal]
          exact .inl rfl

/-- Where the order is kept, a request that the cloud has failed finds nobody in either chain. -/
theorem CascadesInOrder.ownChain (h : CascadesInOrder c g constraint)
    (hrouted : Routed c g constraint provider)
    (hinfer : provider.infer c.request = .error e) : OwnChain c constraint := by
  rintro rfl hnone
  have hserved : c.providers.servedName .any = "cloud" := by
    rw [GatewayProviders.servedName, hnone]
    rfl
  have hlocal : c.eligible .any "local" = [] := by
    by_contra hne
    obtain ⟨a, rest, hsplit⟩ := List.exists_cons_of_ne_nil hne
    have ha : a ∈ c.attempts .any := by
      have hused : c.eligible .any (GatewayProviders.providerNameFromConstraint .any) =
          a :: rest := hsplit
      rw [Call.attempts, hused]
      exact List.mem_cons_self
    -- It is tried, so it would have to be of the chain of the cloud.
    obtain ⟨order, hperm, -, hbegins⟩ := h.order
    have hmem := hperm.mem_iff.mp (hbegins.subset ha)
    rw [hserved] at hmem
    have hcloud : a.chain = "cloud" := chain_of_mem_eligible hmem
    have hchain : a.chain = "local" := chain_of_mem_eligible (attempts_begin.subset ha)
    rw [hchain] at hcloud
    exact absurd hcloud (by decide)
  have hattempts : c.attempts .any = [] := List.prefix_nil.mp (hlocal ▸ attempts_begin)
  -- Nobody is tried, the call fails, and the targets of the cloud should have been tried.
  refine ⟨hlocal, List.eq_nil_iff_forall_not_mem.mpr fun a ha => ?_⟩
  have hfails : ∀ a ∈ c.eligible .any (GatewayProviders.providerNameFromConstraint .any),
      a.answers c.request = false := by
    intro a ha
    have hnobody : a ∈ c.eligible .any "local" := ha
    rw [hlocal] at hnobody
    cases hnobody
  obtain ⟨last, hlast⟩ := (fails_iff hrouted hinfer).mpr hfails
  have htried := (h.exhausted last hlast a (hserved ▸ ha)).1
  rw [hattempts] at htried
  cases htried

theorem cascadesInOrder_of (hrouted : Routed c g constraint provider)
    (hinfer : provider.infer c.request = .error e) (hown : OwnChain c constraint)
    (htried : TriedInOrder (Attempt.answers c.request) Attempt.priority
      (c.eligible constraint (GatewayProviders.providerNameFromConstraint constraint))) :
    CascadesInOrder c g constraint := by
  have honce : (c.attempts constraint).Pairwise fun a b => a.place ≠ b.place :=
    places_eligibleFrom.sublist attempts_begin.sublist
  rcases servedName_cases c.providers constraint with hsame | ⟨rfl, hnone⟩
  · refine ⟨?_, honce, fun last hlast => ?_⟩
    · rw [hsame]
      exact exists_ordered_prefix_iff.mpr htried
    · have hfailed := (fails_iff hrouted hinfer).mp ⟨last, hlast⟩
      rw [hsame, Call.attempts, untilFirst_of_none hfailed]
      exact fun a ha => ⟨ha, hfailed a ha⟩
  · obtain ⟨hlocal, hcloud⟩ := hown rfl hnone
    have hserved : c.eligible .any (c.providers.servedName .any) = [] := by
      rw [GatewayProviders.servedName, hnone]
      exact hcloud
    have hattempts : c.attempts .any = [] := List.prefix_nil.mp (hlocal ▸ attempts_begin)
    refine ⟨⟨[], ?_, .nil, ?_⟩, honce, fun last hlast a ha => ?_⟩
    · rw [hserved]
    · rw [hattempts]
    · rw [hserved] at ha
      cases ha

theorem cascadesInOrder_iff_of (hrouted : Routed c g constraint provider)
    (hinfer : provider.infer c.request = .error e) :
    CascadesInOrder c g constraint ↔ OwnChain c constraint ∧
      TriedInOrder (Attempt.answers c.request) Attempt.priority
        (c.eligible constraint (GatewayProviders.providerNameFromConstraint constraint)) := by
  refine ⟨fun h => ?_, fun h => cascadesInOrder_of hrouted hinfer h.1 h.2⟩
  have hown := h.ownChain hrouted hinfer
  refine ⟨hown, ?_⟩
  rcases servedName_cases c.providers constraint with hsame | ⟨rfl, hnone⟩
  · have horder := h.order
    rw [hsame] at horder
    exact exists_ordered_prefix_iff.mp horder
  · have hempty : c.eligible .any (GatewayProviders.providerNameFromConstraint .any) = [] :=
      (hown rfl hnone).1
    rw [hempty]
    trivial

end Order

/-! ### Chains in the order of priorities -/

/-- The targets stand in ascending order of priority. -/
def Ascending (ts : List FailoverTarget) : Prop :=
  ts.Pairwise fun t u => t.priority.toNat ≤ u.priority.toNat

theorem ascending_build {config : FailoverConfig} {providerFactory : String → Option LlmProvider}
    (h : config.targets.Pairwise fun t u => t.priority.toNat ≤ u.priority.toNat) :
    Ascending (config.build providerFactory) := by
  refine h.filterMap _ fun ft ft' hle t ht u hu => ?_
  obtain ⟨q, -, rfl⟩ := Option.map_eq_some_iff.mp ht
  obtain ⟨q', -, rfl⟩ := Option.map_eq_some_iff.mp hu
  exact hle

theorem ascending_buildFailoverChains {configs : List FailoverConfig}
    {providerFactory : String → Option LlmProvider} {p : GatewayProviders}
    (hconfigs : ∀ config ∈ configs,
      config.targets.Pairwise fun t u => t.priority.toNat ≤ u.priority.toNat)
    (hp : ∀ name, Ascending (p.getFailoverTargets name)) (name : String) :
    Ascending ((buildFailoverChains configs providerFactory p).getFailoverTargets name) := by
  induction configs generalizing p with
  | nil => exact hp name
  | cons config configs ih =>
      obtain ⟨hconfig, hrest⟩ := List.forall_mem_cons.mp hconfigs
      refine ih hrest fun name' => ?_
      dsimp only
      split_ifs with hempty
      · exact hp name'
      · rw [GatewayProviders.getFailoverTargets_registerFailover]
        split_ifs with hsame
        · exact ascending_build hconfig
        · exact hp name'

theorem triedInOrder_of_ascending {c : Call} {constraint : ProviderConstraint} {chain : String}
    (h : Ascending (c.providers.getFailoverTargets chain)) :
    TriedInOrder (Attempt.answers c.request) Attempt.priority (c.eligible constraint chain) := by
  apply TriedInOrder.of_pairwise
  rw [Call.eligible, eligibleFrom, List.pairwise_map]
  apply List.Pairwise.filter
  have hfirst : ((c.providers.getFailoverTargets chain).zipIdx 0).map Prod.fst =
      c.providers.getFailoverTargets chain := List.zipIdx_map_fst 0 _
  have hascending : ((c.providers.getFailoverTargets chain).zipIdx 0).Pairwise
      fun x y => x.1.priority.toNat ≤ y.1.priority.toNat := by
    rw [← hfirst, Ascending, List.pairwise_map] at h
    exact h
  exact hascending

/-- Chains built from configurations in ascending order keep the order of every call but those
for any provider that the cloud has failed. -/
theorem cascadesInOrder_built {c : Call} {g : Gateway} {constraint : ProviderConstraint}
    {provider : LlmProvider} {e : GatewayError} {configs : List FailoverConfig}
    {providerFactory : String → Option LlmProvider} {p : GatewayProviders}
    (hconfigs : ∀ config ∈ configs,
      config.targets.Pairwise fun t u => t.priority.toNat ≤ u.priority.toNat)
    (hp : ∀ name, Ascending (p.getFailoverTargets name))
    (hc : c.providers = buildFailoverChains configs providerFactory p)
    (hrouted : Routed c g constraint provider) (hinfer : provider.infer c.request = .error e)
    (hown : OwnChain c constraint) : CascadesInOrder c g constraint := by
  refine cascadesInOrder_of hrouted hinfer hown (triedInOrder_of_ascending ?_)
  rw [hc]
  exact ascending_buildFailoverChains hconfigs hp _

/-- The targets called after the provider has failed are the eligible ones of the chain the
constraint names, until one answers. This keeps the order and the chain exactly if the chain is
the one of the provider that has failed, or nobody is eligible in either, and no target that is
called stands before an eligible one of a smaller number. -/
theorem cascadesInOrder_iff (c : Call) (g : Gateway) (constraint : ProviderConstraint)
    (provider : LlmProvider) (e : GatewayError) (hrouted : Routed c g constraint provider)
    (hinfer : provider.infer c.request = .error e) :
    (g.processRouted c).1.sent = provider.exchange c.request ::
        (c.attempts constraint).map (Attempt.exchange c.request) ∧
      (CascadesInOrder c g constraint ↔ OwnChain c constraint ∧
        TriedInOrder (Attempt.answers c.request) Attempt.priority
          (c.eligible constraint (GatewayProviders.providerNameFromConstraint constraint))) :=
  ⟨sent_of_failed hrouted hinfer, cascadesInOrder_iff_of hrouted hinfer⟩

theorem mockCall_routed (fail : Bool) : Routed (mockCall "r1" "ANY" "m" fail) (.new 1 1) .any
    (mockProvider .localServer fail) :=
  ⟨rfl, rfl, rfl, rfl, rfl⟩

theorem cascadesInOrder_iff_mock :
    ((Gateway.new 1 1).processRouted (mockCall "r1" "ANY" "m" true)).1.sent =
        (mockProvider .localServer true).exchange (mockCall "r1" "ANY" "m" true).request ::
          ((mockCall "r1" "ANY" "m" true).attempts .any).map
            (Attempt.exchange (mockCall "r1" "ANY" "m" true).request) ∧
      (CascadesInOrder (mockCall "r1" "ANY" "m" true) (.new 1 1) .any ↔
        OwnChain (mockCall "r1" "ANY" "m" true) .any ∧
          TriedInOrder (Attempt.answers (mockCall "r1" "ANY" "m" true).request)
            Attempt.priority ((mockCall "r1" "ANY" "m" true).eligible .any "local")) :=
  cascadesInOrder_iff (mockCall "r1" "ANY" "m" true) (.new 1 1) .any
    (mockProvider .localServer true) (.inferenceFailed "mock failure") (mockCall_routed true) rfl

/-- The first chain has a target of priority 2 before one of priority 1. In the second call
there is no provider on the premises, the cloud fails, and its chain has a target. -/
theorem failover_out_of_order :
    let config (primary : String) (priorities : List UInt32) : FailoverConfig :=
      ⟨primary, priorities.map fun n => ⟨"cloud", "backup", ⟨3, 20⟩, n⟩⟩
    let factory := fun name => if name = "cloud" then some (mockProvider .cloud false) else none
    let call (onPremises cloud : Option LlmProvider) (config : FailoverConfig) : Call :=
      { mockCall "r1" "ANY" "m" true with
        providers := buildFailoverChains [config] factory ⟨onPremises, cloud, ∅⟩ }
    let first := call (some (mockProvider .localServer true)) none (config "local" [2, 1])
    let second := call none (some (mockProvider .cloud true)) (config "cloud" [1])
    (Routed first (.new 1 1) .any (mockProvider .localServer true) ∧
      ¬ CascadesInOrder first (.new 1 1) .any) ∧
    (Routed second (.new 1 1) .any (mockProvider .cloud true) ∧
      ¬ CascadesInOrder second (.new 1 1) .any ∧
      ∃ e, ((Gateway.new 1 1).processRouted second).1.answer = .error e) := by
  intro config factory call first second
  have hfirst : Routed first (.new 1 1) .any (mockProvider .localServer true) :=
    ⟨rfl, rfl, rfl, rfl, rfl⟩
  have hsecond : Routed second (.new 1 1) .any (mockProvider .cloud true) :=
    ⟨rfl, rfl, rfl, rfl, rfl⟩
  refine ⟨⟨hfirst, fun h => ?_⟩, hsecond, fun h => ?_, ⟨_, rfl⟩⟩
  · obtain ⟨hhead, -⟩ := ((cascadesInOrder_iff_of hfirst rfl).mp h).2
    exact absurd (hhead _ List.mem_cons_self) (by decide)
  · have hown := h.ownChain hsecond rfl
    exact absurd (hown rfl rfl).2 (List.cons_ne_nil _ _)

end DdsOrchestrator.LlmGateway
