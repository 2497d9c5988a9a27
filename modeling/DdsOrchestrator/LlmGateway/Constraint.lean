import DdsOrchestrator.LlmGateway.Gateway

/-!
A request with a constraint stays with the providers it allows. Those a call asks are of an
allowed kind. An answer from the cache comes from an earlier call, and the calls that share
its key share the constraint, which is the first of the length-prefixed fields of the key.
-/

namespace DdsOrchestrator.LlmGateway

open Dataspace (LLMInferenceRequest LLMInferenceResult)

def Gateway.step (g : Gateway) (c : Call) : Gateway := (g.processRouted c).2

/-- A call with what it has shown. -/
structure Served where
  call : Call
  report : Report

def Gateway.serve (g : Gateway) (c : Call) : List Served := [⟨c, (g.processRouted c).1⟩]

/-- What the calls have shown, in order. -/
abbrev Gateway.history (g : Gateway) (calls : List Call) : List Served :=
  Machine.trace Gateway.step Gateway.serve g calls

namespace Served

/-- The exchange whose result the call has cached, and the key it is cached under. -/
def stored (s : Served) : Option (String × Exchange) :=
  match ProviderConstraint.ofLiteral s.call.request.providerConstraint, s.report.answer,
      s.report.sent.getLast? with
  | .ok constraint, .ok _, some x =>
    if s.call.request.stream then none else some (cacheKey s.call.request constraint, x)
  | _, _, _ => none

theorem stored_eq_some {s : Served} {key : String} {x : Exchange}
    (h : s.stored = some (key, x)) :
    ∃ constraint, ProviderConstraint.ofLiteral s.call.request.providerConstraint =
      .ok constraint ∧ key = cacheKey s.call.request constraint ∧ x ∈ s.report.sent := by
  unfold stored at h
  split at h
  next constraint r y hparsed hanswer hlast =>
    split_ifs at h
    obtain ⟨rfl, rfl⟩ : cacheKey s.call.request constraint = key ∧ y = x := by simpa using h
    exact ⟨constraint, hparsed, rfl, List.mem_of_getLast? hlast⟩
  next => cases h

/-- The exchange whose result stands in the cache under a key: the last one stored there. -/
def producer (history : List Served) (key : String) : Option Exchange :=
  (((history.filterMap stored).filter fun p => p.1 = key).getLast?).map Prod.snd

theorem producer_concat_of_stored {history : List Served} {s : Served} {key : String}
    {x : Exchange} (h : s.stored = some (key, x)) :
    producer (history ++ [s]) key = some x := by
  simp [producer, h]

theorem producer_concat_of_ne {history : List Served} {s : Served} {key : String}
    (h : ∀ x, s.stored ≠ some (key, x)) :
    producer (history ++ [s]) key = producer history key := by
  cases hs : s.stored with
  | none => simp [producer, hs]
  | some p =>
      have hne : p.1 ≠ key := fun hkey => h p.2 (by rw [hs, ← hkey])
      simp [producer, hs, hne]

theorem exists_of_producer {history : List Served} {key : String} {x : Exchange}
    (h : producer history key = some x) : ∃ s ∈ history, s.stored = some (key, x) := by
  simp only [producer, Option.map_eq_some_iff] at h
  obtain ⟨⟨k, y⟩, hlast, rfl⟩ := h
  have hmem := List.mem_of_getLast? hlast
  simp only [List.mem_filter, List.mem_filterMap, decide_eq_true_eq] at hmem
  obtain ⟨⟨s, hs, hstored⟩, rfl⟩ := hmem
  exact ⟨s, hs, hstored⟩

end Served

/-! ### What stands in the cache -/

theorem stored_of_keep {c : Call} {report : Report} {constraint : ProviderConstraint}
    {x : Exchange} {result : LLMInferenceResult} {cache : LlmCache}
    (hparsed : ProviderConstraint.ofLiteral c.request.providerConstraint = .ok constraint)
    (hanswer : report.answer = .ok result) (hlast : report.sent.getLast? = some x)
    (houtcome : x.outcome = .ok result) {key : String} {r : LLMInferenceResult}
    (hget : (cache.keep c.request constraint result).get key = some r) :
    (∃ y, (⟨c, report⟩ : Served).stored = some (key, y) ∧ y.outcome = .ok r) ∨
      ((∀ y, (⟨c, report⟩ : Served).stored ≠ some (key, y)) ∧ cache.get key = some r) := by
  unfold LlmCache.keep at hget
  cases hstream : c.request.stream with
  | true =>
      refine .inr ⟨fun y => ?_, by simpa [hstream] using hget⟩
      simp [Served.stored, hparsed, hanswer, hlast, hstream]
  | false =>
      rw [hstream, if_neg (by simp)] at hget
      have hstored : (⟨c, report⟩ : Served).stored = some (cacheKey c.request constraint, x) := by
        simp [Served.stored, hparsed, hanswer, hlast, hstream]
      rcases LlmCache.get_insert hget with ⟨rfl, rfl⟩ | ⟨hne, hold⟩
      · exact .inl ⟨x, hstored, houtcome⟩
      · refine .inr ⟨fun y hy => ?_, hold⟩
        rw [hstored] at hy
        exact hne (by simp_all)

/-- What is found after a call was stored by it or was there before. -/
theorem Outcome.stored_or_old {c : Call} {g : Gateway} {report : Report} {cache : LlmCache}
    (h : Outcome c g report cache) {key : String} {r : LLMInferenceResult}
    (hget : cache.get key = some r) :
    (∃ y, (⟨c, report⟩ : Served).stored = some (key, y) ∧ y.outcome = .ok r) ∨
      ((∀ y, (⟨c, report⟩ : Served).stored ≠ some (key, y)) ∧ g.cache.get key = some r) := by
  cases h with
  | refused e =>
      refine .inr ⟨fun y => ?_, hget⟩
      cases hparsed : ProviderConstraint.ofLiteral c.request.providerConstraint <;>
        simp [Served.stored, hparsed]
  | hit hparsed hcached =>
      refine .inr ⟨fun y => ?_, hget⟩
      simp [Served.stored, hparsed]
  | @primary constraint provider result hrouted hinfer =>
      exact stored_of_keep (x := provider.exchange c.request) hrouted.parsed rfl rfl hinfer hget
  | @answered constraint provider e rest result hrouted hinfer hrest hanswer =>
      subst hrest
      obtain ⟨t, -, houtcome, hlast⟩ := answer_of_cascade _ _ hanswer
      refine stored_of_keep (x := t.provider.exchange (t.request c.request)) hrouted.parsed
        ?_ ?_ houtcome hget
      · exact hanswer
      · rw [List.getLast?_cons, hlast]
        rfl
  | @exhausted constraint provider e last rest hrouted hinfer hrest hanswer =>
      refine .inr ⟨fun y => ?_, hget⟩
      simp [Served.stored, hrouted.parsed, hanswer]

theorem cached_was_produced (cacheSize : Nat) (rateLimit : UInt32) (calls : List Call)
    {key : String} {r : LLMInferenceResult}
    (hget : (calls.foldl Gateway.step (.new rateLimit cacheSize)).cache.get key = some r) :
    ∃ x, Served.producer ((Gateway.new rateLimit cacheSize).history calls) key = some x ∧
      x.outcome = .ok r := by
  let kept : List Served → Gateway → Prop := fun history g => ∀ key r,
    g.cache.get key = some r → ∃ x, Served.producer history key = some x ∧ x.outcome = .ok r
  have hstart : kept [] (.new rateLimit cacheSize) := by
    intro key r hget
    simp [Gateway.new, LlmCache.new, LlmCache.get] at hget
  have hstep : ∀ history g c, kept history g → True →
      kept (history ++ g.serve c) (g.step c) := by
    intro history g c hkept _ key r hget
    -- What is found after the call was stored by it, or the call has left the entry alone.
    rcases (processRouted_outcome c g).stored_or_old hget with ⟨y, hy, hout⟩ | ⟨hnew, hold⟩
    · exact ⟨y, Served.producer_concat_of_stored hy, hout⟩
    · obtain ⟨x, hx, hout⟩ := hkept key r hold
      exact ⟨x, (Served.producer_concat_of_ne hnew).trans hx, hout⟩
  have hrun : Machine.Along Gateway.step (fun _ _ => True) (.new rateLimit cacheSize) calls :=
    Machine.along_iff_forall.mpr fun _ _ _ _ => trivial
  exact hrun.trace_invariant hstart hstep key r hget

/-! ### The constraint of a key -/

/-- Requests with the same bytes have the same constraint. -/
theorem constraint_of_keyBytes {r r' : LLMInferenceRequest} {k k' : ProviderConstraint}
    (h : keyBytes r k = keyBytes r' k') : k = k' := by
  have hhead : ∀ (r : LLMInferenceRequest) (k : ProviderConstraint), (keyBytes r k).take 11 =
      (toLeBytes (asBytes k.asLiteral).length ++ asBytes k.asLiteral).take 11 := by
    intro r k
    -- Eight bytes of length and three of the shortest literal.
    have hlong : 11 ≤ (toLeBytes (asBytes k.asLiteral).length ++ asBytes k.asLiteral).length := by
      cases k <;> decide +kernel
    rw [keyBytes, pushLenPrefixed, pushLenPrefixed, pushLenPrefixed, List.nil_append,
      List.append_assoc, List.append_assoc, List.append_assoc, List.take_append_of_le_length hlong]
  have heads := congrArg (List.take 11) h
  rw [hhead, hhead] at heads
  revert heads
  cases k <;> cases k' <;> decide +kernel

theorem Outcome.allows {c : Call} {g : Gateway} {report : Report} {cache : LlmCache}
    (h : Outcome c g report cache) (hkinds : c.providers.KindsKept) {k : ProviderConstraint}
    (hparsed : ProviderConstraint.ofLiteral c.request.providerConstraint = .ok k)
    {x : Exchange} (hx : x ∈ report.sent) : k.allows x.kind := by
  have hprimary : ∀ {constraint provider}, Routed c g constraint provider →
      k.allows (provider.exchange c.request).kind := by
    intro constraint provider hrouted
    obtain rfl : constraint = k := by simpa [hrouted.parsed] using hparsed
    exact GatewayProviders.allows_route hkinds hrouted.route
  have hlater : ∀ {constraint provider e}, Routed c g constraint provider →
      x ∈ (cascade constraint c.request c.clock e (c.chain constraint)).sent →
      k.allows x.kind := by
    intro constraint provider e hrouted hx
    obtain rfl : constraint = k := by simpa [hrouted.parsed] using hparsed
    exact allows_of_cascade _ _ hx
  cases h with
  | refused e => cases hx
  | hit _ _ => cases hx
  | primary hrouted hinfer =>
      obtain rfl := List.mem_singleton.mp hx
      exact hprimary hrouted
  | answered hrouted hinfer hrest hanswer =>
      subst hrest
      rcases List.mem_cons.mp hx with rfl | hx
      · exact hprimary hrouted
      · exact hlater hrouted hx
  | exhausted hrouted hinfer hrest hanswer =>
      subst hrest
      rcases List.mem_cons.mp hx with rfl | hx
      · exact hprimary hrouted
      · exact hlater hrouted hx

/-- An answer from the cache is the entry under the key of the request. -/
theorem Outcome.cached {c : Call} {g : Gateway} {report : Report} {cache : LlmCache}
    (h : Outcome c g report cache) (hhit : report.hit = true) :
    ∃ k result, ProviderConstraint.ofLiteral c.request.providerConstraint = .ok k ∧
      g.cache.get (cacheKey c.request k) = some result ∧
      report.answer = .ok { result with requestId := c.request.requestId } := by
  cases h with
  | refused e => cases hhit
  | primary hrouted hinfer => cases hhit
  | answered hrouted hinfer hrest hanswer =>
      subst hrest
      exact absurd hhit (by simp)
  | exhausted hrouted hinfer hrest hanswer =>
      subst hrest
      exact absurd hhit (by simp)
  | @hit constraint result hparsed hcached =>
      refine ⟨constraint, result, hparsed, ?_, rfl⟩
      unfold LlmCache.cached at hcached
      split_ifs at hcached
      exact hcached

/-- What stands under a key was answered to a call with that key, by a provider its
constraint allows. -/
theorem allows_producer {calls : List Call} {g : Gateway}
    (hkinds : ∀ c ∈ calls, c.providers.KindsKept) {key : String} {x : Exchange}
    (h : Served.producer (g.history calls) key = some x) :
    ∃ c ∈ calls, ∃ k, ProviderConstraint.ofLiteral c.request.providerConstraint = .ok k ∧
      key = cacheKey c.request k ∧ k.allows x.kind := by
  obtain ⟨s, hs, hstored⟩ := Served.exists_of_producer h
  obtain ⟨k, hparsed, hkey, hsent⟩ := Served.stored_eq_some hstored
  obtain ⟨before, c, after, rfl, hserve⟩ := Machine.mem_trace.mp hs
  obtain rfl := List.mem_singleton.mp hserve
  refine ⟨c, by simp, k, hparsed, hkey, ?_⟩
  exact (processRouted_outcome c _).allows (hkinds c (by simp)) hparsed hsent

/-- The key of a request beside the bytes it is the hash of. -/
def Call.keyed (c : Call) : Option (String × List UInt8) :=
  match ProviderConstraint.ofLiteral c.request.providerConstraint with
  | .ok k => some (cacheKey c.request k, keyBytes c.request k)
  | .error _ => none

/-- The keys of different bytes differ. -/
def KeysApart (calls : List Call) : Prop :=
  ∀ p ∈ calls.filterMap Call.keyed, ∀ q ∈ calls.filterMap Call.keyed, p.1 = q.1 → p.2 = q.2

theorem KeysApart.keyBytes_eq {calls : List Call} (h : KeysApart calls) {c c' : Call}
    (hc : c ∈ calls) (hc' : c' ∈ calls) {k k' : ProviderConstraint}
    (hk : ProviderConstraint.ofLiteral c.request.providerConstraint = .ok k)
    (hk' : ProviderConstraint.ofLiteral c'.request.providerConstraint = .ok k')
    (hkey : cacheKey c.request k = cacheKey c'.request k') :
    keyBytes c.request k = keyBytes c'.request k' := by
  refine h (cacheKey c.request k, keyBytes c.request k) ?_
    (cacheKey c'.request k', keyBytes c'.request k') ?_ hkey
  · exact List.mem_filterMap.mpr ⟨c, hc, by simp [Call.keyed, hk]⟩
  · exact List.mem_filterMap.mpr ⟨c', hc', by simp [Call.keyed, hk']⟩

/-- The call asks nobody its constraint does not allow, and what it takes from the cache is
the answer of a provider that it allows. -/
def KeepsConstraint (history : List Served) (c : Call) (report : Report) : Prop :=
  ∀ k, ProviderConstraint.ofLiteral c.request.providerConstraint = .ok k →
    (∀ x ∈ report.sent, k.allows x.kind = true) ∧
    (report.hit = true → ∃ x result,
      Served.producer history (cacheKey c.request k) = some x ∧ x.outcome = .ok result ∧
      report.answer = .ok { result with requestId := c.request.requestId } ∧
      k.allows x.kind = true)

theorem constraint_kept (rateLimit : UInt32) (cacheSize : Nat) (calls : List Call)
    (hkinds : ∀ c ∈ calls, c.providers.KindsKept) (hkeys : KeysApart calls) :
    ∀ before c after, calls = before ++ c :: after →
      KeepsConstraint ((Gateway.new rateLimit cacheSize).history before) c
        ((before.foldl Gateway.step (.new rateLimit cacheSize)).processRouted c).1 := by
  rintro before c after rfl k hparsed
  have hmem : c ∈ before ++ c :: after := by simp
  have houtcome := processRouted_outcome c (before.foldl Gateway.step (.new rateLimit cacheSize))
  refine ⟨fun x hx => houtcome.allows (hkinds c hmem) hparsed hx, fun hhit => ?_⟩
  obtain ⟨k', result, hparsed', hget, hanswer⟩ := houtcome.cached hhit
  obtain rfl : k' = k := by simpa [hparsed'] using hparsed
  obtain ⟨x, hproducer, hresult⟩ := cached_was_produced cacheSize rateLimit before hget
  refine ⟨x, result, hproducer, hresult, hanswer, ?_⟩
  -- The entry was asked for under the same key, so under the same constraint.
  obtain ⟨c', hc', k', hparsed', hkey, hallows⟩ :=
    allows_producer (fun c hc => hkinds c (by simp [hc])) hproducer
  have hbytes := hkeys.keyBytes_eq hmem (by simp [hc']) hparsed hparsed' hkey
  rw [constraint_of_keyBytes hbytes]
  exact hallows

/-- Two agents ask locally and a third one the cloud in between, all for the same model and
messages. The last of them is served from the cache. -/
theorem constraint_kept_local_cloud_local :
    let calls := [mockCall "a" "LOCAL_ONLY" "qwen" false, mockCall "b" "CLOUD_ONLY" "qwen" false,
      mockCall "c" "LOCAL_ONLY" "qwen" false]
    (∀ before c after, calls = before ++ c :: after →
      KeepsConstraint ((Gateway.new 8 16).history before) c
        ((before.foldl Gateway.step (.new 8 16)).processRouted c).1) ∧
    (((calls.take 2).foldl Gateway.step (.new 8 16)).processRouted
      (mockCall "c" "LOCAL_ONLY" "qwen" false)).1.hit = true := by
  refine ⟨constraint_kept 8 16 _ ?_ ?_, by decide +kernel⟩
  · simp [mockCall_kinds]
  · unfold KeysApart
    decide +kernel

end DdsOrchestrator.LlmGateway
