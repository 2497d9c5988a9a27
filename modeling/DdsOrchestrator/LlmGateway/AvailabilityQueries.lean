import Mathlib.Data.List.Forall2
import DdsOrchestrator.LlmGateway.Gateway

/-!
The question whether a chain has a target that is available. It goes down the chain and asks
each breaker until one says yes, by the same call by which a request is let through. A closed
breaker says yes and stays as it is. Any other one that says yes has given its probe to the
question, which makes no call and so never gives it back.
-/

namespace DdsOrchestrator.LlmGateway

namespace FailoverTarget

/-- The breaker says yes. -/
def Available (nowMs : Nat) (t : FailoverTarget) : Prop :=
  (t.circuitBreaker.isAvailable nowMs).1 = true

instance (nowMs : Nat) (t : FailoverTarget) : Decidable (t.Available nowMs) :=
  inferInstanceAs (Decidable (_ = true))

/-- The target after its breaker was asked. -/
def asked (nowMs : Nat) (t : FailoverTarget) : FailoverTarget :=
  { t with circuitBreaker := (t.circuitBreaker.isAvailable nowMs).2 }

end FailoverTarget

/-- The breaker at place `i` is asked at `clock i`, if the search comes there. -/
def anyAvailable : (Nat → Nat) → List FailoverTarget → Bool × List FailoverTarget
  | _, [] => (false, [])
  | clock, t :: ts =>
    let (available, breaker) := t.circuitBreaker.isAvailable (clock 0)
    if available then (true, { t with circuitBreaker := breaker } :: ts)
    else
      let (any, ts) := anyAvailable (fun i => clock (i + 1)) ts
      (any, { t with circuitBreaker := breaker } :: ts)

namespace GatewayProviders

/-- The breakers of the chain are left as the search has left them. -/
def anyFailoverAvailable (provider : String) (clock : Nat → Nat) (p : GatewayProviders) :
    Bool × GatewayProviders :=
  match p.failoverConfigs.lookup provider with
  | none => (false, p)
  | some targets =>
    let (any, targets) := anyAvailable clock targets
    (any, p.registerFailover provider targets)

end GatewayProviders

structure Query where
  provider : String
  clock : Nat → Nat

namespace GatewayProviders

def query (p : GatewayProviders) (q : Query) : GatewayProviders :=
  (p.anyFailoverAvailable q.provider q.clock).2

/-- The providers after these queries and nothing else. -/
def afterQueries (p : GatewayProviders) (queries : List Query) : GatewayProviders :=
  queries.foldl query p

end GatewayProviders

/-- The time is not before any of the queries. -/
def Later (queries : List Query) (nowMs : Nat) : Prop :=
  ∀ q ∈ queries, ∀ i, q.clock i ≤ nowMs

/-- The same target, of as much use at these times. -/
structure AsUseful (times : Nat → Prop) (t t' : FailoverTarget) : Prop where
  provider : t'.provider = t.provider
  model : t'.model = t.model
  priority : t'.priority = t.priority
  probe : t'.circuitBreaker.probeInFlight = t.circuitBreaker.probeInFlight
  available : ∀ nowMs, times nowMs → (t'.Available nowMs ↔ t.Available nowMs)

/-- The queries have set no probe, every target is available when it would have been, and
every later call goes as it would have gone. -/
structure Undisturbed (p : GatewayProviders) (queries : List Query) : Prop where
  targets : ∀ provider, List.Forall₂ (AsUseful (Later queries)) (p.getFailoverTargets provider)
    ((p.afterQueries queries).getFailoverTargets provider)
  calls : ∀ (c : Call) (g : Gateway), c.providers = p → (∀ i, Later queries (c.clock i)) →
    (g.processRouted { c with providers := p.afterQueries queries }).1.sent =
        (g.processRouted c).1.sent ∧
      (g.processRouted { c with providers := p.afterQueries queries }).1.answer =
        (g.processRouted c).1.answer

/-- They all say no at their times. -/
def AllRefuse (clock : Nat → Nat) (ts : List FailoverTarget) : Prop :=
  ∀ (i : Nat) (u : FailoverTarget), ts[i]? = some u → ¬ u.Available (clock i)

/-- The first target of the chain that is available, if there is one, has a closed breaker. -/
def FirstIsClosed (p : GatewayProviders) (q : Query) : Prop :=
  ∀ before t after, p.getFailoverTargets q.provider = before ++ t :: after →
    AllRefuse q.clock before → t.Available (q.clock before.length) →
      t.circuitBreaker.state = .closed

/-! ### One breaker -/

namespace CircuitBreaker

variable {b : CircuitBreaker} {nowMs laterMs : Nat}

/-- A breaker that says no says no later exactly where it would have said no, and it gives no
probe. -/
theorem isAvailable_refused (h : (b.isAvailable nowMs).1 = false) (hle : nowMs ≤ laterMs) :
    (b.isAvailable nowMs).2.probeInFlight = b.probeInFlight ∧
      ((b.isAvailable nowMs).2.isAvailable laterMs).1 = (b.isAvailable laterMs).1 := by
  cases hstate : b.state with
  | closed => simp [isAvailable, hstate] at h
  | halfOpen =>
      have hprobe : b.probeInFlight = true := by
        by_contra hprobe
        simp [isAvailable, hstate, tryAcquireProbe, hprobe] at h
      simp [isAvailable, hstate, tryAcquireProbe, hprobe]
  | opened =>
      by_cases hearly : nowMs - b.openedAtMs < b.resetAfterMs
      · simp [isAvailable, hstate, hearly]
      · -- It is half-open now, where without the query it would still be open.
        have hprobe : b.probeInFlight = true := by
          by_contra hprobe
          simp [isAvailable, hstate, hearly, tryAcquireProbe, hprobe] at h
        have hlate : ¬ laterMs - b.openedAtMs < b.resetAfterMs := by omega
        simp [isAvailable, hstate, hearly, hlate, tryAcquireProbe, hprobe]

theorem isAvailable_closed (h : b.state = .closed) : (b.isAvailable nowMs).2 = b := by
  simp [isAvailable, h]

/-- Any other breaker that says yes gives its probe. -/
theorem isAvailable_granted (h : (b.isAvailable nowMs).1 = true) (hopen : b.state ≠ .closed) :
    b.probeInFlight = false ∧ (b.isAvailable nowMs).2.probeInFlight = true := by
  cases hstate : b.state with
  | closed => exact absurd hstate hopen
  | halfOpen =>
      cases hprobe : b.probeInFlight with
      | false => simp [isAvailable, hstate, tryAcquireProbe, hprobe]
      | true => simp [isAvailable, hstate, tryAcquireProbe, hprobe] at h
  | opened =>
      have hlate : ¬ nowMs - b.openedAtMs < b.resetAfterMs := by
        intro hearly
        simp [isAvailable, hstate, hearly] at h
      cases hprobe : b.probeInFlight with
      | false => simp [isAvailable, hstate, hlate, tryAcquireProbe, hprobe]
      | true => simp [isAvailable, hstate, hlate, tryAcquireProbe, hprobe] at h

end CircuitBreaker

/-! ### One query of a chain -/

section Chain

variable {times : Nat → Prop} {t t' t'' : FailoverTarget} {ts before after : List FailoverTarget}

theorem AsUseful.refl (t : FailoverTarget) : AsUseful times t t :=
  ⟨rfl, rfl, rfl, rfl, fun _ _ => Iff.rfl⟩

theorem AsUseful.trans (h : AsUseful times t t') (h' : AsUseful times t' t'') :
    AsUseful times t t'' :=
  ⟨h'.provider.trans h.provider, h'.model.trans h.model, h'.priority.trans h.priority,
    h'.probe.trans h.probe,
    fun nowMs hnow => (h'.available nowMs hnow).trans (h.available nowMs hnow)⟩

theorem asUseful_list_trans {ts' ts'' : List FailoverTarget}
    (h : List.Forall₂ (AsUseful times) ts ts') (h' : List.Forall₂ (AsUseful times) ts' ts'') :
    List.Forall₂ (AsUseful times) ts ts'' := by
  induction h generalizing ts'' with
  | nil => exact h'
  | cons hhead _ ih =>
      cases h' with
      | cons hhead' htail' => exact .cons (hhead.trans hhead') (ih htail')

theorem asUseful_asked {nowMs : Nat} (hle : ∀ later, times later → nowMs ≤ later)
    (hrefused : ¬ t.Available nowMs) : AsUseful times t (t.asked nowMs) := by
  have hrefused : (t.circuitBreaker.isAvailable nowMs).1 = false := Bool.not_eq_true _ ▸ hrefused
  refine ⟨rfl, rfl, rfl, ?_, fun later hlater => ?_⟩
  · exact (CircuitBreaker.isAvailable_refused hrefused (Nat.le_refl nowMs)).1
  · exact iff_of_eq (congrArg (· = true)
      (CircuitBreaker.isAvailable_refused hrefused (hle later hlater)).2)

/-- The targets after all their breakers were asked. -/
def askedAll : (Nat → Nat) → List FailoverTarget → List FailoverTarget
  | _, [] => []
  | clock, t :: ts => t.asked (clock 0) :: askedAll (fun i => clock (i + 1)) ts

theorem allRefuse_cons {clock : Nat → Nat} : AllRefuse clock (t :: ts) ↔
    ¬ t.Available (clock 0) ∧ AllRefuse (fun i => clock (i + 1)) ts := by
  constructor
  · exact fun h => ⟨h 0 t rfl, fun i u hu => h (i + 1) u hu⟩
  · rintro ⟨hhead, htail⟩ (_ | i) u hu
    · obtain rfl : t = u := Option.some.inj hu
      exact hhead
    · exact htail i u hu

theorem anyAvailable_cons_of_not {clock : Nat → Nat} (h : ¬ t.Available (clock 0)) :
    (anyAvailable clock (t :: ts)).2 =
      t.asked (clock 0) :: (anyAvailable (fun i => clock (i + 1)) ts).2 := by
  rw [anyAvailable]
  exact congrArg Prod.snd (if_neg h)

theorem anyAvailable_cons_of {clock : Nat → Nat} (h : t.Available (clock 0)) :
    (anyAvailable clock (t :: ts)).2 = t.asked (clock 0) :: ts := by
  rw [anyAvailable]
  exact congrArg Prod.snd (if_pos h)

/-- The search ends at the first target that says yes. -/
theorem anyAvailable_of_first {clock : Nat → Nat} (hbefore : AllRefuse clock before)
    (ht : t.Available (clock before.length)) :
    (anyAvailable clock (before ++ t :: after)).2 =
      askedAll clock before ++ t.asked (clock before.length) :: after := by
  induction before generalizing clock with
  | nil => exact anyAvailable_cons_of ht
  | cons u before ih =>
      obtain ⟨hu, hbefore⟩ := allRefuse_cons.mp hbefore
      rw [List.cons_append, anyAvailable_cons_of_not hu, ih hbefore ht]
      rfl

theorem anyAvailable_of_none {clock : Nat → Nat} (hall : AllRefuse clock ts) :
    (anyAvailable clock ts).2 = askedAll clock ts := by
  induction ts generalizing clock with
  | nil => rfl
  | cons t ts ih =>
      obtain ⟨ht, hall⟩ := allRefuse_cons.mp hall
      rw [anyAvailable_cons_of_not ht, ih hall]
      rfl

theorem exists_first_or_none (clock : Nat → Nat) (ts : List FailoverTarget) :
    AllRefuse clock ts ∨ ∃ before t after, ts = before ++ t :: after ∧
      AllRefuse clock before ∧ t.Available (clock before.length) := by
  induction ts generalizing clock with
  | nil => exact .inl fun i u hu => by cases hu
  | cons t ts ih =>
      by_cases ht : t.Available (clock 0)
      · exact .inr ⟨[], t, ts, rfl, (fun i u hu => by cases hu), ht⟩
      · rcases ih fun i => clock (i + 1) with hall | ⟨before, u, after, rfl, hbefore, hu⟩
        · exact .inl (allRefuse_cons.mpr ⟨ht, hall⟩)
        · exact .inr ⟨t :: before, u, after, rfl, allRefuse_cons.mpr ⟨ht, hbefore⟩, hu⟩

theorem asUseful_askedAll {clock : Nat → Nat} (hle : ∀ later, times later → ∀ i, clock i ≤ later)
    (hall : AllRefuse clock ts) : List.Forall₂ (AsUseful times) ts (askedAll clock ts) := by
  induction ts generalizing clock with
  | nil => exact .nil
  | cons t ts ih =>
      obtain ⟨ht, hall⟩ := allRefuse_cons.mp hall
      exact .cons (asUseful_asked (fun later hlater => hle later hlater 0) ht)
        (ih (fun later hlater i => hle later hlater (i + 1)) hall)

/-- A search that ends at a closed breaker, or nowhere, leaves the chain of as much use. -/
theorem asUseful_anyAvailable {clock : Nat → Nat}
    (hle : ∀ later, times later → ∀ i, clock i ≤ later)
    (hclosed : ∀ before t after, ts = before ++ t :: after → AllRefuse clock before →
      t.Available (clock before.length) → t.circuitBreaker.state = .closed) :
    List.Forall₂ (AsUseful times) ts (anyAvailable clock ts).2 := by
  rcases exists_first_or_none clock ts with hall | ⟨before, t, after, rfl, hbefore, ht⟩
  · rw [anyAvailable_of_none hall]
    exact asUseful_askedAll hle hall
  · have hsame : t.asked (clock before.length) = t := by
      rw [FailoverTarget.asked, CircuitBreaker.isAvailable_closed (hclosed _ t _ rfl hbefore ht)]
    rw [anyAvailable_of_first hbefore ht, hsame]
    exact List.rel_append (asUseful_askedAll hle hbefore)
      (.cons (.refl t) (List.forall₂_same.mpr fun u _ => .refl u))

/-! ### Probes that are given away -/

/-- How many probes of the chain are marked as in flight. -/
def probes (ts : List FailoverTarget) : Nat := ts.countP fun t => t.circuitBreaker.probeInFlight

theorem probes_of_asUseful (h : List.Forall₂ (AsUseful times) ts before) :
    probes before = probes ts := by
  induction h with
  | nil => rfl
  | cons hhead _ ih =>
      rw [probes, probes, List.countP_cons, List.countP_cons, hhead.probe]
      exact congrArg (· + _) ih

/-- A search that ends at a breaker which is not closed marks one more. -/
theorem probes_anyAvailable_of_first {clock : Nat → Nat} (hbefore : AllRefuse clock before)
    (ht : t.Available (clock before.length)) (hopen : t.circuitBreaker.state ≠ .closed) :
    probes (anyAvailable clock (before ++ t :: after)).2 = probes (before ++ t :: after) + 1 := by
  obtain ⟨hdown, hup⟩ := CircuitBreaker.isAvailable_granted ht hopen
  have hasked : List.Forall₂ (AsUseful fun later => ∀ i, clock i ≤ later) before
      (askedAll clock before) := asUseful_askedAll (fun _ h => h) hbefore
  have hsame : probes (askedAll clock before) = probes before := probes_of_asUseful hasked
  rw [anyAvailable_of_first hbefore ht, probes, probes, List.countP_append, List.countP_append,
    List.countP_cons, List.countP_cons]
  have hdown' : t.circuitBreaker.probeInFlight = false := hdown
  have hup' : (t.asked (clock before.length)).circuitBreaker.probeInFlight = true := hup
  rw [probes, probes] at hsame
  rw [hsame, if_pos hup', if_neg (by rw [hdown']; exact Bool.false_ne_true)]
  omega

theorem probes_le_anyAvailable (clock : Nat → Nat) (ts : List FailoverTarget) :
    probes ts ≤ probes (anyAvailable clock ts).2 := by
  by_cases hopen : ∃ before t after, ts = before ++ t :: after ∧ AllRefuse clock before ∧
      t.Available (clock before.length) ∧ t.circuitBreaker.state ≠ .closed
  · obtain ⟨before, t, after, rfl, hbefore, ht, hstate⟩ := hopen
    rw [probes_anyAvailable_of_first hbefore ht hstate]
    omega
  · have hsame : List.Forall₂ (AsUseful fun later => ∀ i, clock i ≤ later) ts
        (anyAvailable clock ts).2 := by
      apply asUseful_anyAvailable fun _ h => h
      intro before t after hsplit hbefore ht
      by_contra hstate
      exact hopen ⟨before, t, after, hsplit, hbefore, ht, hstate⟩
    rw [probes_of_asUseful hsame]

end Chain

/-! ### One query of the providers -/

section Providers

variable {p : GatewayProviders} {q : Query} {queries : List Query}

theorem getFailoverTargets_query (p : GatewayProviders) (q : Query) (provider : String) :
    (p.query q).getFailoverTargets provider =
      if provider = q.provider then
        (anyAvailable q.clock (p.getFailoverTargets q.provider)).2
      else p.getFailoverTargets provider := by
  rw [GatewayProviders.query, GatewayProviders.anyFailoverAvailable]
  cases hlookup : p.failoverConfigs.lookup q.provider with
  | none =>
      have hempty : p.getFailoverTargets q.provider = [] := by
        rw [GatewayProviders.getFailoverTargets, hlookup]
        rfl
      split_ifs with hsame
      · rw [hsame, hempty]
        rfl
      · rfl
  | some targets =>
      have htargets : p.getFailoverTargets q.provider = targets := by
        rw [GatewayProviders.getFailoverTargets, hlookup]
        rfl
      rw [htargets]
      exact p.getFailoverTargets_registerFailover q.provider
        (anyAvailable q.clock targets).2 provider

theorem route_query (p : GatewayProviders) (q : Query) (constraint : ProviderConstraint) :
    (p.query q).route constraint = p.route constraint := by
  rw [GatewayProviders.query, GatewayProviders.anyFailoverAvailable]
  cases p.failoverConfigs.lookup q.provider <;> rfl

theorem afterQueries_append_cons (p : GatewayProviders) (before : List Query) (q : Query)
    (after : List Query) : p.afterQueries (before ++ q :: after) =
      ((p.afterQueries before).query q).afterQueries after :=
  List.foldl_append

theorem probes_le_query (p : GatewayProviders) (q : Query) (provider : String) :
    probes (p.getFailoverTargets provider) ≤
      probes ((p.query q).getFailoverTargets provider) := by
  rw [getFailoverTargets_query]
  split_ifs with hsame
  · rw [hsame]
    exact probes_le_anyAvailable _ _
  · exact Nat.le_refl _

theorem probes_le_afterQueries (p : GatewayProviders) (queries : List Query)
    (provider : String) : probes (p.getFailoverTargets provider) ≤
      probes ((p.afterQueries queries).getFailoverTargets provider) :=
  Machine.foldl_invariant
    (I := fun p' => probes (p.getFailoverTargets provider) ≤
      probes (p'.getFailoverTargets provider)) queries (Nat.le_refl _)
    fun p' q hle => hle.trans (probes_le_query p' q provider)

/-- A query that meets a breaker which is not closed marks a probe. -/
theorem probes_lt_query (h : ¬ FirstIsClosed p q) :
    probes (p.getFailoverTargets q.provider) <
      probes ((p.query q).getFailoverTargets q.provider) := by
  simp only [FirstIsClosed, not_forall] at h
  obtain ⟨before, t, after, hsplit, hbefore, ht, hopen⟩ := h
  rw [getFailoverTargets_query, if_pos rfl, hsplit,
    probes_anyAvailable_of_first hbefore ht hopen]
  omega

theorem asUseful_query {times : Nat → Prop} (h : FirstIsClosed p q)
    (hlater : ∀ later, times later → ∀ i, q.clock i ≤ later) (provider : String) :
    List.Forall₂ (AsUseful times) (p.getFailoverTargets provider)
      ((p.query q).getFailoverTargets provider) := by
  rw [getFailoverTargets_query]
  split_ifs with hsame
  · rw [hsame]
    exact asUseful_anyAvailable hlater h
  · exact List.forall₂_same.mpr fun u _ => .refl u

theorem asUseful_afterQueries {times : Nat → Prop}
    (hrun : Machine.Along GatewayProviders.query FirstIsClosed p queries)
    (hlater : ∀ later, times later → Later queries later) (provider : String) :
    List.Forall₂ (AsUseful times) (p.getFailoverTargets provider)
      ((p.afterQueries queries).getFailoverTargets provider) := by
  induction queries generalizing p with
  | nil => exact List.forall₂_same.mpr fun u _ => .refl u
  | cons q queries ih =>
      obtain ⟨hfirst, hrest⟩ := hrun
      have hquery := asUseful_query hfirst
        (fun later ht i => hlater later ht q List.mem_cons_self i) provider
      have hqueries := ih hrest fun later ht q' hq' => hlater later ht q' (.tail _ hq')
      exact asUseful_list_trans hquery hqueries

/-! ### A later call -/

theorem route_afterQueries (p : GatewayProviders) (queries : List Query)
    (constraint : ProviderConstraint) :
    (p.afterQueries queries).route constraint = p.route constraint :=
  Machine.foldl_invariant
    (I := fun p' => p'.route constraint = p.route constraint) queries rfl
    fun p' q hsame => (route_query p' q constraint).trans hsame

theorem AsUseful.asked_iff {times : Nat → Prop} {t t' : FailoverTarget} {askedAt : Nat}
    (h : AsUseful times t t') (constraint : ProviderConstraint) (hlater : times askedAt) :
    t'.Asked constraint askedAt ↔ t.Asked constraint askedAt := by
  constructor
  · rintro ⟨henabled, hallows, havailable⟩
    exact ⟨h.priority ▸ henabled, h.provider ▸ hallows,
      (h.available askedAt hlater).mp havailable⟩
  · rintro ⟨henabled, hallows, havailable⟩
    exact ⟨h.priority.symm ▸ henabled, h.provider.symm ▸ hallows,
      (h.available askedAt hlater).mpr havailable⟩

/-- Targets of as much use answer as the others would have answered. -/
theorem cascade_of_asUseful {times : Nat → Prop} {ts ts' : List FailoverTarget}
    (constraint : ProviderConstraint) (request : Dataspace.LLMInferenceRequest)
    (clock : Nat → Nat) (lastErr : GatewayError) (h : List.Forall₂ (AsUseful times) ts ts')
    (hlater : ∀ i, times (clock i)) :
    (cascade constraint request clock lastErr ts').sent =
        (cascade constraint request clock lastErr ts).sent ∧
      (cascade constraint request clock lastErr ts').answer =
        (cascade constraint request clock lastErr ts).answer := by
  induction h generalizing clock lastErr with
  | nil => exact ⟨rfl, rfl⟩
  | @cons t t' ts ts' hhead _ ih =>
      have hasked_iff := hhead.asked_iff constraint (hlater 0)
      have hrequest : t'.request request = t.request request := by
        rw [FailoverTarget.request, FailoverTarget.request, hhead.model]
      by_cases hasked : t.Asked constraint (clock 0)
      · have hasked' := hasked_iff.mpr hasked
        cases hinfer : t.provider.infer (t.request request) with
        | ok result =>
            obtain ⟨hsent, hanswer⟩ := cascade_answered constraint request clock lastErr t ts
              hasked hinfer
            obtain ⟨hsent', hanswer'⟩ := cascade_answered constraint request clock lastErr t' ts'
              hasked' (by rw [hhead.provider, hrequest, hinfer])
            rw [hsent, hsent', hanswer, hanswer', hhead.provider, hrequest]
            exact ⟨rfl, rfl⟩
        | error e =>
            obtain ⟨hsent, hanswer⟩ := cascade_failed constraint request clock lastErr t ts
              hasked hinfer
            obtain ⟨hsent', hanswer'⟩ := cascade_failed constraint request clock lastErr t' ts'
              hasked' (by rw [hhead.provider, hrequest, hinfer])
            obtain ⟨hsame, hsame'⟩ := ih (fun i => clock (i + 2)) e fun i => hlater (i + 2)
            rw [hsent, hsent', hanswer, hanswer', hhead.provider, hrequest, hsame, hsame']
            exact ⟨rfl, rfl⟩
      · obtain ⟨hsent, hanswer⟩ := cascade_passed constraint request clock lastErr t ts hasked
        obtain ⟨hsent', hanswer'⟩ := cascade_passed constraint request clock lastErr t' ts'
          (mt hasked_iff.mp hasked)
        rw [hsent, hsent', hanswer, hanswer']
        exact ih (fun i => clock (i + 2)) lastErr fun i => hlater (i + 2)

theorem processRouted_of_asUseful {times : Nat → Prop} {c : Call} (g : Gateway)
    (p' : GatewayProviders)
    (htargets : ∀ provider, List.Forall₂ (AsUseful times)
      (c.providers.getFailoverTargets provider) (p'.getFailoverTargets provider))
    (hroute : ∀ constraint, p'.route constraint = c.providers.route constraint)
    (hlater : ∀ i, times (c.clock i)) :
    (g.processRouted { c with providers := p' }).1.sent = (g.processRouted c).1.sent ∧
      (g.processRouted { c with providers := p' }).1.answer = (g.processRouted c).1.answer := by
  rw [Gateway.processRouted, Gateway.processRouted]
  dsimp only
  split
  next => exact ⟨rfl, rfl⟩
  next constraint _ =>
    split
    next => exact ⟨rfl, rfl⟩
    next =>
      split_ifs
      · rw [hroute]
        split
        next => exact ⟨rfl, rfl⟩
        next => exact ⟨rfl, rfl⟩
        next =>
          split
          next => exact ⟨rfl, rfl⟩
          -- Only here does the call come to the chain.
          next e _ =>
            obtain ⟨hsent, hanswer⟩ :=
              cascade_of_asUseful constraint c.request c.clock e (htargets _) hlater
            rw [(failover_shows _ _ _ _ _).1, (failover_shows _ _ _ _ _).1,
              (failover_shows _ _ _ _ _).2, (failover_shows _ _ _ _ _).2]
            exact ⟨congrArg _ hsent, hanswer⟩
      · exact ⟨rfl, rfl⟩

/-- Queries disturb nothing exactly if each of them finds a closed breaker first, or none that
says yes. -/
theorem queriesUndisturbed_iff (p : GatewayProviders) (queries : List Query) :
    Undisturbed p queries ↔
      Machine.Along GatewayProviders.query FirstIsClosed p queries := by
  constructor
  · intro h
    rw [Machine.along_iff_forall]
    rintro before q after rfl
    by_contra hopen
    -- The number of probes in flight never falls, and this query has raised it.
    have hbefore := probes_le_afterQueries p before q.provider
    have hquery : probes ((p.afterQueries before).getFailoverTargets q.provider) <
        probes (((p.afterQueries before).query q).getFailoverTargets q.provider) :=
      probes_lt_query hopen
    have hafter := probes_le_afterQueries ((p.afterQueries before).query q) after q.provider
    have hsame := probes_of_asUseful (h.targets q.provider)
    rw [afterQueries_append_cons] at hsame
    exact absurd hsame (by omega)
  · intro hrun
    refine ⟨asUseful_afterQueries hrun fun _ h => h, ?_⟩
    rintro c g rfl hlater
    exact processRouted_of_asUseful g (c.providers.afterQueries queries)
      (asUseful_afterQueries hrun fun _ h => h) (route_afterQueries c.providers queries) hlater

/-- The target has failed and its pause is over. The query takes its probe, and the call after
it fails, though it would have been answered. -/
theorem query_takes_probe :
    let targets : List FailoverTarget :=
      [⟨mockProvider .cloud false, "backup", (CircuitBreaker.new 1 10).recordFailure 5, 1⟩]
    let c := { mockCall "r1" "ANY" "m" true with
      clock := fun _ => 20
      providers := (mockCall "r1" "ANY" "m" true).providers.registerFailover "local" targets }
    let queries := [⟨"local", fun _ => 20⟩]
    ¬ Undisturbed c.providers queries ∧
      (∃ result, ((Gateway.new 1 1).processRouted c).1.answer = .ok result) ∧
      (∃ e, ((Gateway.new 1 1).processRouted
        { c with providers := c.providers.afterQueries queries }).1.answer = .error e) := by
  intro targets c queries
  have hwithout : ∃ result, ((Gateway.new 1 1).processRouted c).1.answer = .ok result := ⟨_, rfl⟩
  have hafter : ∃ e, ((Gateway.new 1 1).processRouted
      { c with providers := c.providers.afterQueries queries }).1.answer = .error e := ⟨_, rfl⟩
  refine ⟨fun h => ?_, hwithout, hafter⟩
  obtain ⟨result, hresult⟩ := hwithout
  obtain ⟨e, he⟩ := hafter
  have hlater : ∀ i, Later queries (c.clock i) := by
    intro i q hq j
    obtain rfl := List.mem_singleton.mp hq
    exact Nat.le_refl 20
  have hsame := (h.calls c (Gateway.new 1 1) rfl hlater).2
  rw [hresult, he] at hsame
  cases hsame

end Providers

end DdsOrchestrator.LlmGateway
