import DdsOrchestrator.Lib.Assoc
import DdsOrchestrator.Dataspace.TopicSamples
import DdsOrchestrator.LlmGateway.Breaker

/-!
The gateway to the providers of inference. A request is answered from the cache, by the
provider its constraint routes it to, or, when that one fails, by the first target of its
failover chain that is let through and answers. What a provider has answered is cached
under the constraint, the model and the messages of the request.

A call brings what it finds around it: the providers and how they answer, the tokens the
rate limiter has gained, and the clock of the breakers. Log lines are left out.
-/

namespace DdsOrchestrator.LlmGateway

open Dataspace (LLMInferenceRequest LLMInferenceResult)

inductive Provider where
  /-- The llama server. -/
  | localServer
  | cloud
  deriving DecidableEq

inductive GatewayError where
  | rateLimited (message : String)
  | providerUnavailable (message : String)
  | inferenceFailed (message : String)
  | timeout (message : String)
  | invalidProviderConstraint (literal : String)
  deriving DecidableEq

inductive ProviderConstraint where
  | any
  | localOnly
  | cloudOnly
  deriving DecidableEq

namespace ProviderConstraint

def allows : ProviderConstraint → Provider → Bool
  | any, _ => true
  | localOnly, p => p = .localServer
  | cloudOnly, p => p = .cloud

def asLiteral : ProviderConstraint → String
  | any => "ANY"
  | localOnly => "LOCAL_ONLY"
  | cloudOnly => "CLOUD_ONLY"

def ofLiteral (value : String) : Except GatewayError ProviderConstraint :=
  if value = "ANY" then .ok any
  else if value = "LOCAL_ONLY" then .ok localOnly
  else if value = "CLOUD_ONLY" then .ok cloudOnly
  else .error (.invalidProviderConstraint value)

end ProviderConstraint

/-! ### The cache -/

/-- The bytes of a `u64`, the lowest first. -/
def toLeBytes (n : Nat) : List UInt8 := (List.range 8).map fun i => UInt8.ofNat (n / 256 ^ i)

def asBytes (s : String) : List UInt8 := s.toByteArray.data.toList

def pushLenPrefixed (bytes field : List UInt8) : List UInt8 :=
  bytes ++ toLeBytes field.length ++ field

def fnv1a64 (bytes : List UInt8) : UInt64 :=
  bytes.foldl (fun hash byte => (hash ^^^ byte.toUInt64) * 0x100000001b3) 0xcbf29ce484222325

/-- Sixteen hexadecimal digits. -/
def hex16 (n : UInt64) : String :=
  String.ofList ((List.range 16).reverse.map fun i => Nat.digitChar (n.toNat / 16 ^ i % 16))

/-- What of a request goes into its key. -/
def keyBytes (request : LLMInferenceRequest) (constraint : ProviderConstraint) : List UInt8 :=
  pushLenPrefixed (pushLenPrefixed (pushLenPrefixed [] (asBytes constraint.asLiteral))
    (asBytes request.modelName)) (asBytes request.messagesJson)

def cacheKey (request : LLMInferenceRequest) (constraint : ProviderConstraint) : String :=
  "llm-" ++ hex16 (fnv1a64 (keyBytes request constraint))

structure CacheEntry where
  seq : UInt64
  result : LLMInferenceResult
  deriving DecidableEq

structure LlmCache where
  cache : Map String CacheEntry
  clock : UInt64
  maxSize : Nat

namespace LlmCache

def new (maxSize : Nat) : LlmCache := { cache := ∅, clock := 0, maxSize }

def get (key : String) (c : LlmCache) : Option LLMInferenceResult :=
  (c.cache.lookup key).map CacheEntry.result

/-- The key of the entry that went in first. -/
def oldestKey (entries : List (Sigma fun _ : String => CacheEntry)) : Option String :=
  (entries.argmin fun e => e.2.seq.toNat).map Sigma.fst

def evict (c : LlmCache) : LlmCache :=
  if c.cache.entries.length < c.maxSize then c
  else match oldestKey c.cache.entries with
    | some key => { c with cache := c.cache.erase key }
    | none => c

def insert (key : String) (result : LLMInferenceResult) (c : LlmCache) : LlmCache :=
  { c.evict with cache := c.evict.cache.insert key ⟨c.clock, result⟩, clock := c.clock + 1 }

/-- A request that streams has no key. -/
def keep (request : LLMInferenceRequest) (constraint : ProviderConstraint)
    (result : LLMInferenceResult) (c : LlmCache) : LlmCache :=
  if request.stream then c else c.insert (cacheKey request constraint) result

def cached (request : LLMInferenceRequest) (constraint : ProviderConstraint) (c : LlmCache) :
    Option LLMInferenceResult :=
  if request.stream then none else c.get (cacheKey request constraint)

theorem get_evict {c : LlmCache} {key : String} {r : LLMInferenceResult}
    (h : c.evict.get key = some r) : c.get key = some r := by
  unfold evict at h
  split_ifs at h
  · exact h
  · split at h
    · simp only [get, Option.map_eq_some_iff] at h ⊢
      obtain ⟨e, he, hr⟩ := h
      exact ⟨e, Map.lookup_of_lookup_erase he, hr⟩
    · exact h

/-- What is found after an insertion was inserted just now or was there before. -/
theorem get_insert {c : LlmCache} {key k : String} {r result : LLMInferenceResult}
    (h : (c.insert key result).get k = some r) :
    (k = key ∧ r = result) ∨ (k ≠ key ∧ c.get k = some r) := by
  simp only [insert, get, Option.map_eq_some_iff, Map.lookup_insert_eq_some] at h
  obtain ⟨e, ⟨rfl, rfl⟩ | ⟨hne, he⟩, rfl⟩ := h
  · exact .inl ⟨rfl, rfl⟩
  · refine .inr ⟨hne, get_evict ?_⟩
    simp [get, he]

theorem get_keep {c : LlmCache} {request : LLMInferenceRequest} {constraint : ProviderConstraint}
    {key : String} {r result : LLMInferenceResult}
    (h : (c.keep request constraint result).get key = some r) :
    (key = cacheKey request constraint ∧ r = result) ∨ c.get key = some r := by
  unfold keep at h
  split_ifs at h
  · exact .inr h
  · exact (get_insert h).imp_right And.right

end LlmCache

/-! ### Providers and failover chains -/

structure LlmProvider where
  kind : Provider
  infer : LLMInferenceRequest → Except GatewayError LLMInferenceResult

/-- The provider of the tests of the source. -/
def mockProvider (kind : Provider) (fail : Bool) : LlmProvider where
  kind := kind
  infer := fun request =>
    if fail then .error (.inferenceFailed "mock failure")
    else .ok
      { requestId := request.requestId, seqNum := 0, content := "mock-" ++ request.requestId
        isFinal := true, finishReason := 1, modelUsed := request.modelName, tokensPrompt := 10
        tokensCompletion := 4, emittedAtNs := 0 }

structure FailoverTarget where
  provider : LlmProvider
  model : String
  /-- As the call finds it. -/
  circuitBreaker : CircuitBreaker
  priority : UInt32

structure GatewayProviders where
  onPremises : Option LlmProvider
  cloud : Option LlmProvider
  failoverConfigs : Map String (List FailoverTarget)

namespace GatewayProviders

def registerFailover (provider : String) (targets : List FailoverTarget) (p : GatewayProviders) :
    GatewayProviders :=
  { p with failoverConfigs := p.failoverConfigs.insert provider targets }

def getFailoverTargets (provider : String) (p : GatewayProviders) : List FailoverTarget :=
  (p.failoverConfigs.lookup provider).getD []

theorem getFailoverTargets_registerFailover (p : GatewayProviders) (provider : String)
    (targets : List FailoverTarget) (name : String) :
    (p.registerFailover provider targets).getFailoverTargets name =
      if name = provider then targets else p.getFailoverTargets name := by
  rw [getFailoverTargets, registerFailover, Map.lookup_insert_if]
  split_ifs
  · rfl
  · rfl

def route (constraint : ProviderConstraint) (p : GatewayProviders) :
    Except GatewayError LlmProvider :=
  match constraint with
  | .localOnly => p.onPremises.elim
      (.error (.providerUnavailable "provider local indisponível")) .ok
  | .cloudOnly => p.cloud.elim
      (.error (.providerUnavailable "provider cloud indisponível")) .ok
  | .any => (p.onPremises.or p.cloud).elim
      (.error (.providerUnavailable "nenhum provider configurado")) .ok

def providerNameFromConstraint : ProviderConstraint → String
  | .localOnly | .any => "local"
  | .cloudOnly => "cloud"

/-- The two providers are of the kind their places stand for. -/
structure KindsKept (p : GatewayProviders) : Prop where
  onPremises : ∀ q, p.onPremises = some q → q.kind = .localServer
  cloud : ∀ q, p.cloud = some q → q.kind = .cloud

theorem allows_route {p : GatewayProviders} (h : p.KindsKept) {constraint : ProviderConstraint}
    {q : LlmProvider} (hroute : p.route constraint = .ok q) : constraint.allows q.kind := by
  cases constraint with
  | any => rfl
  | localOnly =>
      cases hp : p.onPremises with
      | none => simp [route, hp] at hroute
      | some q' =>
          obtain rfl : q' = q := by simpa [route, hp] using hroute
          simp [ProviderConstraint.allows, h.onPremises q' hp]
  | cloudOnly =>
      cases hp : p.cloud with
      | none => simp [route, hp] at hroute
      | some q' =>
          obtain rfl : q' = q := by simpa [route, hp] using hroute
          simp [ProviderConstraint.allows, h.cloud q' hp]

end GatewayProviders

/-! ### A call -/

structure RateLimiter where
  tokens : UInt32
  maxTokens : UInt32
  deriving DecidableEq

namespace RateLimiter

/-- `newTokens` is what the time since the last refill is worth. -/
def refill (newTokens : UInt32) (l : RateLimiter) : RateLimiter :=
  if 0 < newTokens then
    { l with tokens := UInt32.ofNat (min (l.tokens.toNat + newTokens.toNat) l.maxTokens.toNat) }
  else l

def tryAcquire (newTokens : UInt32) (l : RateLimiter) : Bool × RateLimiter :=
  let l := l.refill newTokens
  if l.tokens = 0 then (false, l) else (true, { l with tokens := l.tokens - 1 })

end RateLimiter

structure GatewayMetrics where
  totalRequests : UInt64
  cacheHits : UInt64
  rateLimited : UInt64
  errors : UInt64
  failoverSuccesses : UInt64
  failoverFailures : UInt64
  deriving DecidableEq

structure Gateway where
  rateLimiter : RateLimiter
  cache : LlmCache
  metrics : GatewayMetrics

def Gateway.new (rateLimit : UInt32) (cacheSize : Nat) : Gateway :=
  { rateLimiter := ⟨rateLimit, rateLimit⟩, cache := .new cacheSize
    metrics := ⟨0, 0, 0, 0, 0, 0⟩ }

structure Call where
  providers : GatewayProviders
  request : LLMInferenceRequest
  newTokens : UInt32
  /-- How the wait for a worker ends. -/
  permit : Except String Unit
  /-- The breaker of the target at place `i` is asked at `clock (2 * i)`, and a failure of
  the target is recorded at `clock (2 * i + 1)`. -/
  clock : Nat → Nat

/-- A request that went out, and how it was answered. -/
structure Exchange where
  kind : Provider
  request : LLMInferenceRequest
  outcome : Except GatewayError LLMInferenceResult

def LlmProvider.exchange (p : LlmProvider) (request : LLMInferenceRequest) : Exchange :=
  ⟨p.kind, request, p.infer request⟩

/-- What a call shows: the requests it sent, in order, whether the answer is from the cache,
the answer, and the failover chain with its breakers as they are left. -/
structure Report where
  sent : List Exchange
  hit : Bool
  answer : Except GatewayError LLMInferenceResult
  targets : List FailoverTarget

def Call.chain (c : Call) (constraint : ProviderConstraint) : List FailoverTarget :=
  c.providers.getFailoverTargets (GatewayProviders.providerNameFromConstraint constraint)

def FailoverTarget.request (t : FailoverTarget) (request : LLMInferenceRequest) :
    LLMInferenceRequest :=
  { request with modelName := t.model, requestId := request.requestId ++ "-fo" }

/-- The targets one after the other, until one answers. -/
def cascade (constraint : ProviderConstraint) (request : LLMInferenceRequest) :
    (Nat → Nat) → GatewayError → List FailoverTarget → Report
  | _, lastErr, [] => ⟨[], false, .error lastErr, []⟩
  | clock, lastErr, t :: ts =>
    let later := fun i => clock (i + 2)
    -- Whoever is passed over here keeps its breaker as it is.
    if 0 < t.priority ∧ constraint.allows t.provider.kind then
      let (available, breaker) := t.circuitBreaker.isAvailable (clock 0)
      if available then
        let exchange := t.provider.exchange (t.request request)
        match exchange.outcome with
        | .ok result =>
          ⟨[exchange], false, .ok result,
            { t with circuitBreaker := breaker.recordSuccess } :: ts⟩
        | .error e =>
          let rest := cascade constraint request later e ts
          { rest with
            sent := exchange :: rest.sent
            targets := { t with circuitBreaker := breaker.recordFailure (clock 1) } ::
              rest.targets }
      else
        -- Being asked may have moved the breaker from open to half-open.
        let rest := cascade constraint request later lastErr ts
        { rest with targets := { t with circuitBreaker := breaker } :: rest.targets }
    else
      let rest := cascade constraint request later lastErr ts
      { rest with targets := t :: rest.targets }

section Cascade

variable (constraint : ProviderConstraint) (request : LLMInferenceRequest)

/-- The loop asks the target. -/
structure FailoverTarget.Asked (askedAt : Nat) (t : FailoverTarget) : Prop where
  enabled : 0 < t.priority
  allows : constraint.allows t.provider.kind = true
  available : (t.circuitBreaker.isAvailable askedAt).1 = true

/-- What the loop makes of a target: it passes it over, or the target answers and is the last
one, or it fails. -/
inductive Visit (clock : Nat → Nat) (lastErr : GatewayError) (t : FailoverTarget)
    (ts : List FailoverTarget) : Report → Prop
  | passed {targets : List FailoverTarget} (hpassed : ¬ t.Asked constraint (clock 0)) :
      Visit clock lastErr t ts
        { cascade constraint request (fun i => clock (i + 2)) lastErr ts with targets }
  | answered {result : LLMInferenceResult} {targets : List FailoverTarget}
      (hasked : t.Asked constraint (clock 0))
      (hinfer : t.provider.infer (t.request request) = .ok result) :
      Visit clock lastErr t ts
        ⟨[t.provider.exchange (t.request request)], false, .ok result, targets⟩
  | failed {e : GatewayError} {targets : List FailoverTarget} {rest : Report}
      (hasked : t.Asked constraint (clock 0))
      (hinfer : t.provider.infer (t.request request) = .error e)
      (hrest : cascade constraint request (fun i => clock (i + 2)) e ts = rest) :
      Visit clock lastErr t ts
        { rest with sent := t.provider.exchange (t.request request) :: rest.sent, targets }

theorem cascade_cons (clock : Nat → Nat) (lastErr : GatewayError) (t : FailoverTarget)
    (ts : List FailoverTarget) :
    Visit constraint request clock lastErr t ts
      (cascade constraint request clock lastErr (t :: ts)) := by
  rw [cascade]
  split_ifs with htried
  · cases hfree : (t.circuitBreaker.isAvailable (clock 0)).1 with
    | false =>
        have hpassed : ¬ t.Asked constraint (clock 0) :=
          fun h => absurd h.available (by simp [hfree])
        simpa [hfree] using Visit.passed hpassed
    | true =>
        have hasked : t.Asked constraint (clock 0) := ⟨htried.1, htried.2, hfree⟩
        cases hinfer : t.provider.infer (t.request request) with
        | ok result =>
            simpa [hfree, LlmProvider.exchange, hinfer] using Visit.answered hasked hinfer
        | error e =>
            simpa [hfree, LlmProvider.exchange, hinfer] using Visit.failed hasked hinfer rfl
  · exact .passed fun h => htried ⟨h.enabled, h.allows⟩

section Shows

variable (clock : Nat → Nat) (lastErr : GatewayError) (t : FailoverTarget)
  (ts : List FailoverTarget)

/-- What a call sends and answers where the first target is passed over. -/
theorem cascade_passed (hpassed : ¬ t.Asked constraint (clock 0)) :
    (cascade constraint request clock lastErr (t :: ts)).sent =
        (cascade constraint request (fun i => clock (i + 2)) lastErr ts).sent ∧
      (cascade constraint request clock lastErr (t :: ts)).answer =
        (cascade constraint request (fun i => clock (i + 2)) lastErr ts).answer := by
  have hvisit := cascade_cons constraint request clock lastErr t ts
  generalize cascade constraint request clock lastErr (t :: ts) = report at hvisit ⊢
  cases hvisit with
  | passed _ => exact ⟨rfl, rfl⟩
  | answered hasked _ => exact absurd hasked hpassed
  | failed hasked _ _ => exact absurd hasked hpassed

theorem cascade_answered {result : LLMInferenceResult} (hasked : t.Asked constraint (clock 0))
    (hinfer : t.provider.infer (t.request request) = .ok result) :
    (cascade constraint request clock lastErr (t :: ts)).sent =
        [t.provider.exchange (t.request request)] ∧
      (cascade constraint request clock lastErr (t :: ts)).answer = .ok result := by
  have hvisit := cascade_cons constraint request clock lastErr t ts
  generalize cascade constraint request clock lastErr (t :: ts) = report at hvisit ⊢
  cases hvisit with
  | passed hpassed => exact absurd hasked hpassed
  | answered _ hinfer' =>
      rw [hinfer] at hinfer'
      exact ⟨rfl, hinfer'.symm⟩
  | failed _ hinfer' _ =>
      rw [hinfer] at hinfer'
      cases hinfer'

theorem cascade_failed {e : GatewayError} (hasked : t.Asked constraint (clock 0))
    (hinfer : t.provider.infer (t.request request) = .error e) :
    (cascade constraint request clock lastErr (t :: ts)).sent =
        t.provider.exchange (t.request request) ::
          (cascade constraint request (fun i => clock (i + 2)) e ts).sent ∧
      (cascade constraint request clock lastErr (t :: ts)).answer =
        (cascade constraint request (fun i => clock (i + 2)) e ts).answer := by
  have hvisit := cascade_cons constraint request clock lastErr t ts
  generalize cascade constraint request clock lastErr (t :: ts) = report at hvisit ⊢
  cases hvisit with
  | passed hpassed => exact absurd hasked hpassed
  | answered _ hinfer' =>
      rw [hinfer] at hinfer'
      cases hinfer'
  | failed _ hinfer' hrest =>
      obtain rfl := Except.error.inj (hinfer.symm.trans hinfer')
      rw [← hrest]
      exact ⟨rfl, rfl⟩

end Shows

@[simp] theorem hit_cascade (clock : Nat → Nat) (lastErr : GatewayError)
    (ts : List FailoverTarget) :
    (cascade constraint request clock lastErr ts).hit = false := by
  induction ts generalizing clock lastErr with
  | nil => rfl
  | cons t ts ih =>
      have hvisit := cascade_cons constraint request clock lastErr t ts
      generalize cascade constraint request clock lastErr (t :: ts) = report at hvisit ⊢
      cases hvisit with
      | passed hpassed => exact ih _ _
      | answered hasked hinfer => rfl
      | failed hasked hinfer hrest =>
          subst hrest
          exact ih _ _

/-- Whoever is asked is of a kind the constraint allows. -/
theorem allows_of_cascade {clock : Nat → Nat} {lastErr : GatewayError}
    {ts : List FailoverTarget} {x : Exchange}
    (hx : x ∈ (cascade constraint request clock lastErr ts).sent) :
    constraint.allows x.kind := by
  induction ts generalizing clock lastErr with
  | nil => simp [cascade] at hx
  | cons t ts ih =>
      have hvisit := cascade_cons constraint request clock lastErr t ts
      generalize cascade constraint request clock lastErr (t :: ts) = report at hvisit hx
      cases hvisit with
      | passed hpassed => exact ih hx
      | answered hasked hinfer =>
          obtain rfl := List.mem_singleton.mp hx
          exact hasked.allows
      | failed hasked hinfer hrest =>
          subst hrest
          rcases List.mem_cons.mp hx with rfl | hlater
          · exact hasked.allows
          · exact ih hlater

/-- An answer is what the last of those that were asked has said to a request under the
target's model and the marked id. -/
theorem answer_of_cascade {clock : Nat → Nat} {lastErr : GatewayError}
    {ts : List FailoverTarget} {result : LLMInferenceResult}
    (hanswer : (cascade constraint request clock lastErr ts).answer = .ok result) :
    ∃ t ∈ ts, t.provider.infer (t.request request) = .ok result ∧
      (cascade constraint request clock lastErr ts).sent.getLast? =
        some (t.provider.exchange (t.request request)) := by
  induction ts generalizing clock lastErr with
  | nil => simp [cascade] at hanswer
  | cons t ts ih =>
      have hvisit := cascade_cons constraint request clock lastErr t ts
      generalize cascade constraint request clock lastErr (t :: ts) = report at hvisit hanswer ⊢
      cases hvisit with
      | passed hpassed =>
          obtain ⟨t', ht', hinfer, hlast⟩ := ih hanswer
          exact ⟨t', List.mem_cons_of_mem _ ht', hinfer, hlast⟩
      | answered hasked hinfer =>
          cases hanswer
          exact ⟨t, List.mem_cons_self, hinfer, rfl⟩
      | failed hasked hinfer hrest =>
          subst hrest
          obtain ⟨t', ht', hinfer', hlast⟩ := ih hanswer
          refine ⟨t', List.mem_cons_of_mem _ ht', hinfer', ?_⟩
          rw [List.getLast?_cons, hlast]
          rfl

/-- A target that the loop may come to does not answer: it is passed over, or it fails. -/
def FailoverTarget.Silent (askedAt : Nat) (t : FailoverTarget) : Prop :=
  0 < t.priority → constraint.allows t.provider.kind →
    (t.circuitBreaker.isAvailable askedAt).1 = true →
    ∃ e, t.provider.infer (t.request request) = .error e

theorem silent_iff {askedAt : Nat} {t : FailoverTarget} :
    t.Silent constraint request askedAt ↔
      (t.Asked constraint askedAt → ∃ e, t.provider.infer (t.request request) = .error e) :=
  ⟨fun h hasked => h hasked.enabled hasked.allows hasked.available,
    fun h henabled hallows havailable => h ⟨henabled, hallows, havailable⟩⟩

theorem cascade_fails_iff {clock : Nat → Nat} {lastErr : GatewayError}
    {ts : List FailoverTarget} :
    (∃ e, (cascade constraint request clock lastErr ts).answer = .error e) ↔
      ∀ (i : Nat) (t : FailoverTarget), ts[i]? = some t →
        t.Silent constraint request (clock (2 * i)) := by
  induction ts generalizing clock lastErr with
  | nil => simp [cascade]
  | cons t ts ih =>
      -- The tail of the list starts one place, and so two readings of the clock, later.
      have hsplit : (∀ (i : Nat) (t' : FailoverTarget), (t :: ts)[i]? = some t' →
            t'.Silent constraint request (clock (2 * i))) ↔
          t.Silent constraint request (clock 0) ∧ ∀ (i : Nat) (t' : FailoverTarget),
            ts[i]? = some t' → t'.Silent constraint request (clock (2 * i + 2)) := by
        constructor
        · exact fun h => ⟨h 0 t rfl, fun i t' ht' => h (i + 1) t' ht'⟩
        · rintro ⟨h0, hs⟩ (_ | i) t' ht'
          · obtain rfl : t = t' := by simpa using ht'
            exact h0
          · exact hs i t' ht'
      rw [hsplit, silent_iff]
      have hvisit := cascade_cons constraint request clock lastErr t ts
      generalize cascade constraint request clock lastErr (t :: ts) = report at hvisit ⊢
      cases hvisit with
      | passed hpassed =>
          rw [and_iff_right fun hasked => absurd hasked hpassed]
          exact ih
      | answered hasked hinfer => simp [hasked, hinfer]
      | failed hasked hinfer hrest =>
          subst hrest
          rw [and_iff_right fun _ => ⟨_, hinfer⟩]
          exact ih

end Cascade

namespace Gateway

def count (f : GatewayMetrics → GatewayMetrics) (g : Gateway) : Gateway :=
  { g with metrics := f g.metrics }

def keep (request : LLMInferenceRequest) (constraint : ProviderConstraint)
    (result : LLMInferenceResult) (g : Gateway) : Gateway :=
  { g with cache := g.cache.keep request constraint result }

/-- The primary provider has failed. -/
def failover (c : Call) (constraint : ProviderConstraint) (primary : Exchange)
    (primaryErr : GatewayError) (g : Gateway) : Report × Gateway :=
  let rest := cascade constraint c.request c.clock primaryErr (c.chain constraint)
  let failures := rest.sent.countP fun x => match x.outcome with
    | .ok _ => false
    | .error _ => true
  let g := g.count fun m => { m with
    errors := m.errors + 1, failoverFailures := m.failoverFailures + UInt64.ofNat failures }
  -- The answer of a target is kept under the key of the request it stands in for.
  match rest.answer with
  | .ok result => ({ rest with sent := primary :: rest.sent },
      (g.count fun m => { m with failoverSuccesses := m.failoverSuccesses + 1 }).keep
        c.request constraint result)
  | .error _ => ({ rest with sent := primary :: rest.sent }, g)

def processRouted (c : Call) (g : Gateway) : Report × Gateway :=
  let g := g.count fun m => { m with totalRequests := m.totalRequests + 1 }
  match ProviderConstraint.ofLiteral c.request.providerConstraint with
  | .error e => (⟨[], false, .error e, []⟩, g)
  | .ok constraint =>
    match g.cache.cached c.request constraint with
    | some result =>
      -- The caller's id is put back, the model stays that of the entry.
      (⟨[], true, .ok { result with requestId := c.request.requestId }, []⟩,
        g.count fun m => { m with cacheHits := m.cacheHits + 1 })
    | none =>
      let (acquired, limiter) := g.rateLimiter.tryAcquire c.newTokens
      let g := { g with rateLimiter := limiter }
      if acquired then
        match c.providers.route constraint, c.permit with
        | .error e, _ => (⟨[], false, .error e, []⟩, g)
        | .ok _, .error e => (⟨[], false, .error (.providerUnavailable e), []⟩, g)
        | .ok provider, .ok _ =>
          let primary := provider.exchange c.request
          match primary.outcome with
          | .ok result => (⟨[primary], false, .ok result, []⟩, g.keep c.request constraint result)
          | .error e => g.failover c constraint primary e
      else
        (⟨[], false, .error (.rateLimited "gateway saturado, tente novamente"), []⟩,
          g.count fun m => { m with rateLimited := m.rateLimited + 1 })

end Gateway

/-- The call comes to the provider it is routed to. -/
structure Routed (c : Call) (g : Gateway) (constraint : ProviderConstraint)
    (provider : LlmProvider) : Prop where
  parsed : ProviderConstraint.ofLiteral c.request.providerConstraint = .ok constraint
  missed : g.cache.cached c.request constraint = none
  acquired : (g.rateLimiter.tryAcquire c.newTokens).1 = true
  route : c.providers.route constraint = .ok provider
  permit : c.permit = .ok ()

/-- The ways a call can go: what it shows, and the cache it leaves. -/
inductive Outcome (c : Call) (g : Gateway) : Report → LlmCache → Prop
  | refused (e : GatewayError) : Outcome c g ⟨[], false, .error e, []⟩ g.cache
  | hit {constraint : ProviderConstraint} {result : LLMInferenceResult}
      (hparsed : ProviderConstraint.ofLiteral c.request.providerConstraint = .ok constraint)
      (hcached : g.cache.cached c.request constraint = some result) :
      Outcome c g ⟨[], true, .ok { result with requestId := c.request.requestId }, []⟩ g.cache
  | primary {constraint : ProviderConstraint} {provider : LlmProvider}
      {result : LLMInferenceResult} (hrouted : Routed c g constraint provider)
      (hinfer : provider.infer c.request = .ok result) :
      Outcome c g ⟨[provider.exchange c.request], false, .ok result, []⟩
        (g.cache.keep c.request constraint result)
  | answered {constraint : ProviderConstraint} {provider : LlmProvider} {e : GatewayError}
      {rest : Report} {result : LLMInferenceResult} (hrouted : Routed c g constraint provider)
      (hinfer : provider.infer c.request = .error e)
      (hrest : cascade constraint c.request c.clock e (c.chain constraint) = rest)
      (hanswer : rest.answer = .ok result) :
      Outcome c g { rest with sent := provider.exchange c.request :: rest.sent }
        (g.cache.keep c.request constraint result)
  | exhausted {constraint : ProviderConstraint} {provider : LlmProvider} {e last : GatewayError}
      {rest : Report} (hrouted : Routed c g constraint provider)
      (hinfer : provider.infer c.request = .error e)
      (hrest : cascade constraint c.request c.clock e (c.chain constraint) = rest)
      (hanswer : rest.answer = .error last) :
      Outcome c g { rest with sent := provider.exchange c.request :: rest.sent } g.cache

theorem failover_outcome {c : Call} {g : Gateway} {constraint : ProviderConstraint}
    {provider : LlmProvider} {e : GatewayError} (hrouted : Routed c g constraint provider)
    (hinfer : provider.infer c.request = .error e) {h : Gateway} (hcache : h.cache = g.cache) :
    Outcome c g (h.failover c constraint (provider.exchange c.request) e).1
      (h.failover c constraint (provider.exchange c.request) e).2.cache := by
  unfold Gateway.failover Gateway.keep Gateway.count
  dsimp only
  rw [hcache]
  split
  next result hanswer => exact .answered hrouted hinfer rfl hanswer
  next last hanswer => exact .exhausted hrouted hinfer rfl hanswer

theorem processRouted_outcome (c : Call) (g : Gateway) :
    Outcome c g (g.processRouted c).1 (g.processRouted c).2.cache := by
  unfold Gateway.processRouted Gateway.keep Gateway.count
  dsimp only
  split
  next e hparsed => exact .refused e
  next constraint hparsed =>
    split
    next result hcached => exact .hit hparsed hcached
    next hmissed =>
      split_ifs with hacquired
      · split
        next e hroute => exact .refused e
        next provider e hroute hpermit => exact .refused _
        next provider u hroute hpermit =>
          have hrouted : Routed c g constraint provider :=
            ⟨hparsed, hmissed, hacquired, hroute, hpermit⟩
          split
          next result hinfer => exact .primary hrouted hinfer
          next e hinfer => exact failover_outcome hrouted hinfer rfl
      · exact .refused _

theorem failover_shows (c : Call) (constraint : ProviderConstraint) (primary : Exchange)
    (e : GatewayError) (g : Gateway) :
    (g.failover c constraint primary e).1.sent =
        primary :: (cascade constraint c.request c.clock e (c.chain constraint)).sent ∧
      (g.failover c constraint primary e).1.answer =
        (cascade constraint c.request c.clock e (c.chain constraint)).answer := by
  rw [Gateway.failover]
  split
  · exact ⟨rfl, rfl⟩
  · exact ⟨rfl, rfl⟩

/-- Once the provider it is routed to has failed, a call is answered as by the chain, and the
chain is asked behind that provider. -/
theorem shows_of_failed {c : Call} {g : Gateway} {constraint : ProviderConstraint}
    {provider : LlmProvider} {e : GatewayError} (hrouted : Routed c g constraint provider)
    (hinfer : provider.infer c.request = .error e) :
    (g.processRouted c).1.sent = provider.exchange c.request ::
        (cascade constraint c.request c.clock e (c.chain constraint)).sent ∧
      (g.processRouted c).1.answer =
        (cascade constraint c.request c.clock e (c.chain constraint)).answer := by
  simp [Gateway.processRouted, Gateway.count, LlmProvider.exchange, hrouted.parsed,
    hrouted.missed, hrouted.acquired, hrouted.route, hrouted.permit, hinfer, failover_shows]

theorem answer_of_failed {c : Call} {g : Gateway} {constraint : ProviderConstraint}
    {provider : LlmProvider} {e : GatewayError} (hrouted : Routed c g constraint provider)
    (hinfer : provider.infer c.request = .error e) :
    (g.processRouted c).1.answer =
      (cascade constraint c.request c.clock e (c.chain constraint)).answer :=
  (shows_of_failed hrouted hinfer).2

/-- A call with the request of the tests of the source, to providers that do not fail but
for the local one where `fail` is set, with one target of failover behind it. -/
def mockCall (id constraint model : String) (fail : Bool) : Call where
  providers :=
    { onPremises := some (mockProvider .localServer fail)
      cloud := some (mockProvider .cloud false)
      failoverConfigs := (∅ : Map String (List FailoverTarget)).insert "local"
        [⟨mockProvider .localServer false, "backup", .new 3 20, 1⟩] }
  request :=
    { requestId := id, taskId := id, agentId := "tester", modelName := model
      messagesJson := "[]", temperature := 0x3f333333, maxTokens := 16, stream := false
      securityLevel := 0, providerConstraint := constraint, createdAtNs := 0 }
  newTokens := 0
  permit := .ok ()
  clock := fun _ => 0

theorem mockCall_kinds (id constraint model : String) (fail : Bool) :
    (mockCall id constraint model fail).providers.KindsKept where
  onPremises := by rintro q ⟨rfl⟩; rfl
  cloud := by rintro q ⟨rfl⟩; rfl

end DdsOrchestrator.LlmGateway
