import DdsOrchestrator.LlmGateway.Constraint

/-!
Whose answer a caller gets. The provider that a request is routed to answers under the id
and the model of the request. A failover target is asked under another model and a marked
id, both of which come back to the caller, and its answer is cached for the model that was
asked for. So ids and models agree exactly as long as no failover target answers.
-/

namespace DdsOrchestrator.LlmGateway

open Dataspace (LLMInferenceRequest LLMInferenceResult)

/-- Answers come under the id and the model of the request. -/
def LlmProvider.Echoes (p : LlmProvider) : Prop :=
  ∀ request result, p.infer request = .ok result →
    result.requestId = request.requestId ∧ result.modelUsed = request.modelName

structure Call.Echoes (c : Call) : Prop where
  route : ∀ k p, c.providers.route k = .ok p → p.Echoes
  chain : ∀ k, ∀ t ∈ c.chain k, t.provider.Echoes

/-- An answer has the id of the request, and one from the cache its model. -/
def Correlated (g : Gateway) (c : Call) : Prop :=
  ∀ result, (g.processRouted c).1.answer = .ok result →
    result.requestId = c.request.requestId ∧
    ((g.processRouted c).1.hit = true → result.modelUsed = c.request.modelName)

/-- When the provider that the call is routed to fails, no failover target answers. -/
def PrimaryOnly (g : Gateway) (c : Call) : Prop :=
  ∀ k p e, Routed c g k p → p.infer c.request = .error e →
    ∀ (i : Nat) (t : FailoverTarget), (c.chain k)[i]? = some t →
      t.Silent k c.request (c.clock (2 * i))

/-- Requests with the same key are for the same model. -/
def KeysTellModels (calls : List Call) : Prop :=
  ∀ c ∈ calls, ∀ c' ∈ calls, ∀ k k',
    ProviderConstraint.ofLiteral c.request.providerConstraint = .ok k →
    ProviderConstraint.ofLiteral c'.request.providerConstraint = .ok k' →
    cacheKey c.request k = cacheKey c'.request k' → c.request.modelName = c'.request.modelName

/-- What is cached was answered to one of the calls by the model it asked for. -/
def ModelsKept (calls : List Call) (g : Gateway) : Prop :=
  ∀ key result, g.cache.get key = some result → ∃ c ∈ calls, ∃ k,
    ProviderConstraint.ofLiteral c.request.providerConstraint = .ok k ∧
    key = cacheKey c.request k ∧ result.modelUsed = c.request.modelName

/-- An id with the mark of failover is another id. -/
theorem marked_ne (id : String) : id ++ "-fo" ≠ id := by
  intro h
  have hlen := congrArg String.length h
  rw [String.length_append] at hlen
  exact absurd hlen (by simp [show "-fo".length = 3 from rfl])

theorem not_answered {c : Call} {g : Gateway} {k : ProviderConstraint} {p : LlmProvider}
    {e : GatewayError} {result : LLMInferenceResult} (h : PrimaryOnly g c)
    (hrouted : Routed c g k p) (hinfer : p.infer c.request = .error e) :
    (cascade k c.request c.clock e (c.chain k)).answer ≠ .ok result := by
  have hfails : ∃ e', (cascade k c.request c.clock e (c.chain k)).answer = .error e' :=
    (cascade_fails_iff k c.request).mpr (h k p e hrouted hinfer)
  obtain ⟨e', he'⟩ := hfails
  rw [he']
  exact nofun

variable {calls : List Call} {g : Gateway} {c : Call}

theorem ModelsKept.step (h : ModelsKept calls g) (hmem : c ∈ calls) (hecho : c.Echoes)
    (honly : PrimaryOnly g c) : ModelsKept calls (g.step c) := by
  intro key result hget
  have houtcome := processRouted_outcome c g
  change (g.processRouted c).2.cache.get key = some result at hget
  generalize (g.processRouted c).1 = report at houtcome
  generalize (g.processRouted c).2.cache = cache at houtcome hget
  cases houtcome with
  | refused e => exact h key result hget
  | hit hparsed hcached => exact h key result hget
  | exhausted hrouted hinfer hrest hanswer => exact h key result hget
  | answered hrouted hinfer hrest hanswer =>
      subst hrest
      exact absurd hanswer (not_answered honly hrouted hinfer)
  -- The one path on which something new is kept.
  | @primary k p answer hrouted hinfer =>
      rcases LlmCache.get_keep hget with ⟨rfl, rfl⟩ | hold
      · exact ⟨c, hmem, k, hrouted.parsed, rfl, (hecho.route k p hrouted.route _ _ hinfer).2⟩
      · exact h key result hold

theorem ModelsKept.correlated (h : ModelsKept calls g) (hmem : c ∈ calls) (hecho : c.Echoes)
    (honly : PrimaryOnly g c) (hkeys : KeysTellModels calls) : Correlated g c := by
  intro result hanswer
  have houtcome := processRouted_outcome c g
  generalize (g.processRouted c).1 = report at houtcome hanswer ⊢
  generalize (g.processRouted c).2.cache = cache at houtcome
  refine ⟨?_, fun hhit => ?_⟩
  · cases houtcome with
    | refused e => cases hanswer
    | hit hparsed hcached =>
        cases hanswer
        rfl
    | @primary k p answer hrouted hinfer =>
        cases hanswer
        exact (hecho.route k p hrouted.route _ _ hinfer).1
    | answered hrouted hinfer hrest hanswer' =>
        subst hrest
        exact absurd hanswer' (not_answered honly hrouted hinfer)
    | exhausted hrouted hinfer hrest hanswer' =>
        rw [hanswer'] at hanswer
        cases hanswer
  · obtain ⟨k, cached, hparsed, hget, hanswer'⟩ := houtcome.cached hhit
    obtain rfl : { cached with requestId := c.request.requestId } = result := by
      simpa [hanswer'] using hanswer
    -- The entry was written for a call with the same key, so for the same model.
    obtain ⟨c', hc', k', hparsed', hkey, hmodel⟩ := h _ _ hget
    show cached.modelUsed = c.request.modelName
    rw [hmodel]
    exact (hkeys c hmem c' hc' k k' hparsed hparsed' hkey).symm

/-- A target that answers brings its marked id to the caller. -/
theorem Correlated.primaryOnly (h : Correlated g c) (hecho : c.Echoes) : PrimaryOnly g c := by
  intro k p e hrouted hinfer
  suffices hfails : ∃ e', (cascade k c.request c.clock e (c.chain k)).answer = .error e' from
    (cascade_fails_iff k c.request).mp hfails
  cases hanswer : (cascade k c.request c.clock e (c.chain k)).answer with
  | error e' => exact ⟨e', rfl⟩
  | ok result =>
      exfalso
      -- The target echoes the marked id, and the caller gets it unchanged.
      obtain ⟨t, ht, hinfer', -⟩ := answer_of_cascade k c.request hanswer
      have hid := (h result (by rw [answer_of_failed hrouted hinfer, hanswer])).1
      rw [(hecho.chain k t ht _ _ hinfer').1] at hid
      exact marked_ne c.request.requestId hid

theorem correlated_iff (rateLimit : UInt32) (cacheSize : Nat) (calls : List Call)
    (hecho : ∀ c ∈ calls, c.Echoes) :
    (Machine.Along Gateway.step PrimaryOnly (.new rateLimit cacheSize) calls →
      KeysTellModels calls →
      Machine.Along Gateway.step Correlated (.new rateLimit cacheSize) calls) ∧
    (Machine.Along Gateway.step Correlated (.new rateLimit cacheSize) calls →
      Machine.Along Gateway.step PrimaryOnly (.new rateLimit cacheSize) calls) := by
  have hmem : Machine.Along Gateway.step (fun _ c => c ∈ calls) (.new rateLimit cacheSize)
      calls := by
    rw [Machine.along_iff_forall]
    rintro before c after rfl
    simp
  constructor
  · intro honly hkeys
    have hstart : ModelsKept calls (.new rateLimit cacheSize) := by
      intro key result hget
      simp [Gateway.new, LlmCache.new, LlmCache.get] at hget
    exact (honly.and hmem).of_invariant hstart
      (fun g c h hc => h.step hc.2 (hecho c hc.2) hc.1)
      (fun g c h hc => h.correlated hc.2 (hecho c hc.2) hc.1 hkeys)
  · intro hcorrelated
    exact (hcorrelated.and hmem).mono fun g c hc => hc.1.primaryOnly (hecho c hc.2)

theorem mockProvider_echoes (kind : Provider) (fail : Bool) : (mockProvider kind fail).Echoes := by
  intro request result h
  cases fail with
  | true => simp [mockProvider] at h
  | false =>
      simp only [mockProvider, Bool.false_eq_true, if_false, Except.ok.injEq] at h
      subst h
      exact ⟨rfl, rfl⟩

theorem route_mockCall {id constraint model : String} {fail : Bool} {k : ProviderConstraint}
    {p : LlmProvider} (h : (mockCall id constraint model fail).providers.route k = .ok p) :
    p = mockProvider .localServer fail ∨ p = mockProvider .cloud false := by
  cases k with
  | cloudOnly =>
      right
      simpa [mockCall, GatewayProviders.route, eq_comm] using h
  | any | localOnly =>
      left
      simpa [mockCall, GatewayProviders.route, eq_comm] using h

theorem mockCall_echoes (id constraint model : String) (fail : Bool) :
    (mockCall id constraint model fail).Echoes where
  route := by
    intro k p h
    rcases route_mockCall h with rfl | rfl <;> exact mockProvider_echoes _ _
  chain := by
    intro k t ht
    have htargets : (mockCall id constraint model fail).chain k =
        [⟨mockProvider .localServer false, "backup", .new 3 20, 1⟩] ∨
        (mockCall id constraint model fail).chain k = [] := by
      cases k with
      | cloudOnly => exact .inr rfl
      | any | localOnly => exact .inl rfl
    rcases htargets with htargets | htargets <;> rw [htargets] at ht
    · obtain rfl := List.mem_singleton.mp ht
      exact mockProvider_echoes _ _
    · cases ht

/-- The second of two calls with the same content is served from the cache. -/
theorem correlated_iff_cached :
    let calls := [mockCall "a" "LOCAL_ONLY" "qwen" false, mockCall "b" "LOCAL_ONLY" "qwen" false]
    Machine.Along Gateway.step Correlated (.new 8 16) calls ∧
      (((Gateway.new 8 16).step (mockCall "a" "LOCAL_ONLY" "qwen" false)).processRouted
        (mockCall "b" "LOCAL_ONLY" "qwen" false)).1.hit = true := by
  refine ⟨(correlated_iff 8 16 _ ?_).1 ?_ ?_, by decide +kernel⟩
  · simp [mockCall_echoes]
  · rw [Machine.along_iff_forall]
    rintro before c after hsplit k p e hrouted hinfer
    have hc : c ∈ [mockCall "a" "LOCAL_ONLY" "qwen" false,
        mockCall "b" "LOCAL_ONLY" "qwen" false] := by simp [hsplit]
    have hanswers : ∀ q, c.providers.route k = .ok q → ∃ r, q.infer c.request = .ok r := by
      intro q hq
      simp only [List.mem_cons, List.not_mem_nil, or_false] at hc
      rcases hc with rfl | rfl <;> rcases route_mockCall hq with rfl | rfl <;> exact ⟨_, rfl⟩
    obtain ⟨r, hr⟩ := hanswers p hrouted.route
    rw [hr] at hinfer
    cases hinfer
  · simp [KeysTellModels, mockCall]

/-- The provider fails and the target answers. The caller gets an id that is not its own,
and the next caller gets the answer of another model out of the cache. -/
theorem failover_answers_astray :
    let first := mockCall "r1" "LOCAL_ONLY" "qwen" true
    let second := mockCall "r2" "LOCAL_ONLY" "qwen" true
    let answer : LLMInferenceResult :=
      { requestId := "r1-fo", seqNum := 0, content := "mock-r1-fo", isFinal := true
        finishReason := 1, modelUsed := "backup", tokensPrompt := 10, tokensCompletion := 4
        emittedAtNs := 0 }
    (first.Echoes ∧ second.Echoes) ∧
    (((Gateway.new 8 16).processRouted first).1.answer = .ok answer ∧
      ¬ Correlated (.new 8 16) first) ∧
    (((Gateway.new 8 16).step first).processRouted second).1.answer =
        .ok { answer with requestId := "r2" } ∧
      (((Gateway.new 8 16).step first).processRouted second).1.hit = true ∧
      ¬ Correlated ((Gateway.new 8 16).step first) second := by
  intro first second answer
  have hfirst : ((Gateway.new 8 16).processRouted first).1.answer = .ok answer := by
    decide +kernel
  have hsecond : (((Gateway.new 8 16).step first).processRouted second).1.answer =
      .ok { answer with requestId := "r2" } := by
    decide +kernel
  have hhit : (((Gateway.new 8 16).step first).processRouted second).1.hit = true := by
    decide +kernel
  refine ⟨⟨mockCall_echoes _ _ _ _, mockCall_echoes _ _ _ _⟩, ⟨hfirst, fun h => ?_⟩, hsecond,
    hhit, fun h => ?_⟩
  · exact absurd (h _ hfirst).1 (by decide)
  · exact absurd ((h _ hsecond).2 hhit) (by decide)

end DdsOrchestrator.LlmGateway
