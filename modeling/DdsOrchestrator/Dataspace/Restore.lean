import DdsOrchestrator.Dataspace.ImmutableTopics

/-!
Snapshot and restore of the workflow caches. A restore admits the samples of the snapshot
again, one by one, into caches that are empty. Of caches that writes have reached, no
sample can be refused, in whichever order the lists are: every key is new, the instances
are within their limits, and what is stored is within the budget even where the count of
bytes has run ahead of it.
-/

namespace DdsOrchestrator.Dataspace

open Loop (andThen)
open Wire (WorkflowIntent RoutingDecision AgentCapabilities WorkflowPlan WorkflowState)

/-- What is held of the five topics. -/
structure WorkflowSnapshot where
  intents : List WorkflowIntent
  decisions : List RoutingDecision
  capabilities : List AgentCapabilities
  plans : List WorkflowPlan
  states : List WorkflowState

/-- The same samples, each list in an order of its own. -/
structure WorkflowSnapshot.Reorders (snap snap' : WorkflowSnapshot) : Prop where
  intents : snap.intents.Perm snap'.intents
  decisions : snap.decisions.Perm snap'.decisions
  capabilities : snap.capabilities.Perm snap'.capabilities
  plans : snap.plans.Perm snap'.plans
  states : snap.states.Perm snap'.states

/-- The samples of a topic. -/
def WorkflowSnapshot.of (snap : WorkflowSnapshot) : (t : Topic) → List t.Sample
  | .intent => snap.intents
  | .decision => snap.decisions
  | .capabilities => snap.capabilities
  | .plan => snap.plans
  | .state => snap.states

theorem WorkflowSnapshot.Reorders.of {snap snap' : WorkflowSnapshot} (h : snap.Reorders snap') :
    ∀ t : Topic, (snap.of t).Perm (snap'.of t)
  | .intent => h.intents
  | .decision => h.decisions
  | .capabilities => h.capabilities
  | .plan => h.plans
  | .state => h.states

namespace WorkflowCaches

def snapshot (c : WorkflowCaches) : WorkflowSnapshot where
  intents := c.intents.entries.map (·.2)
  decisions := c.decisions.entries.map (·.2)
  capabilities := c.capabilities.entries.map (·.2)
  plans := c.plans.entries.map (·.2)
  states := c.states.entries.map (·.2)

section

variable (sizes : StructSizes)

/-- Admits the samples of one list; the first error ends it. -/
def admitEach (t : Topic) : List t.Sample → WorkflowCaches →
    Except WorkflowSpaceError Unit × WorkflowCaches
  | [], c => (.ok (), c)
  | s :: ss, c => andThen (admitSample sizes t s c) fun _ c => admitEach t ss c

def restore (snap : WorkflowSnapshot) (c : WorkflowCaches) :
    Except WorkflowSpaceError Unit × WorkflowCaches :=
  andThen (admitEach sizes .intent snap.intents c) fun _ c =>
    andThen (admitEach sizes .decision snap.decisions c) fun _ c =>
      andThen (admitEach sizes .capabilities snap.capabilities c) fun _ c =>
        andThen (admitEach sizes .plan snap.plans c) fun _ c =>
          admitEach sizes .state snap.states c

end

/-- No more bytes than this are in memory at one time. -/
def isizeMax : Nat := 9223372036854775807

/-- The samples held and the one that comes are in memory at the same time. -/
def InMemory (sizes : StructSizes) (c : WorkflowCaches) (call : Sigma Topic.Sample) : Prop :=
  c.heldBytes sizes + call.1.bytes sizes call.2 ≤ isizeMax

instance (sizes : StructSizes) (c : WorkflowCaches) (call : Sigma Topic.Sample) :
    Decidable (InMemory sizes c call) :=
  inferInstanceAs (Decidable (_ ≤ _))

/-! ### What is held after any writes -/

/-- The samples are held under their keys, are of the right version and fit within the
limits. -/
structure Restorable (sizes : StructSizes) (c : WorkflowCaches) : Prop where
  keyed : ∀ (t : Topic) key s, (c.held t).lookup key = some s → t.key s = key
  schema : ∀ (t : Topic) key s, (c.held t).lookup key = some s →
    t.schemaVersion s = schemaVersionV1
  memory : c.heldBytes sizes ≤ isizeMax
  counted : c.limits.cacheByteBudget ≤ isizeMax → c.heldBytes sizes ≤ c.bytesUsed
  within : c.WithinLimits

variable {sizes : StructSizes} {c d : WorkflowCaches} {t : Topic} {s : t.Sample}

/-- Within the budget is what is stored, since it is within the count, or else the budget
is larger than the memory. -/
theorem Restorable.budget (h : Restorable sizes c) :
    c.heldBytes sizes ≤ c.limits.cacheByteBudget := by
  have hmemory := h.memory
  have hbytes := h.within.bytes
  by_cases hsmall : c.limits.cacheByteBudget ≤ isizeMax
  · have hcounted := h.counted hsmall
    omega
  · omega

theorem limits_book {oldBytes : Nat} : (book sizes t s c oldBytes).limits = c.limits :=
  limits_store _ _ _ _

/-- Each sample held is an old one or the one that is booked, under its key. -/
theorem lookup_book {oldBytes : Nat} {u : Topic} {key : String} {v : u.Sample}
    (h : ((book sizes t s c oldBytes).held u).lookup key = some v) :
    (c.held u).lookup key = some v ∨ ∃ hu : u = t, key = t.key s ∧ v = hu ▸ s := by
  unfold book at h
  by_cases hu : u = t
  · subst hu
    rw [held_store, held_bytesUsed] at h
    rcases Map.lookup_insert_eq_some.mp h with ⟨hkey, hv⟩ | ⟨-, hold⟩
    · exact .inr ⟨rfl, hkey, hv⟩
    · exact .inl hold
  · rw [held_store_of_ne hu, held_bytesUsed] at h
    exact .inl h

theorem heldBytes_nonneg : 0 ≤ c.heldBytes sizes := by
  have htopic : ∀ t : Topic, 0 ≤ c.topicBytes sizes t := fun t =>
    Map.sumOf_nonneg _ _ fun _ s _ => Int.natCast_nonneg _
  have hi := htopic .intent
  have hd := htopic .decision
  have hc := htopic .capabilities
  have hp := htopic .plan
  have hs := htopic .state
  unfold heldBytes
  omega

theorem Restorable.step {call : Sigma Topic.Sample} (h : Restorable sizes c)
    (hmem : InMemory sizes c call) : Restorable sizes (c.step sizes call) := by
  have hwithin := (admit_change sizes call.1 call.2 c).withinLimits h.within
  obtain ⟨t, s⟩ := call
  unfold InMemory at hmem
  unfold WorkflowCaches.step
  have houtcome := admitSample_outcome sizes t s c
  generalize admitSample sizes t s c = r at houtcome hwithin
  cases houtcome with
  | refused e => exact h
  | repeated cur hcur hschema hrepeats =>
      refine ⟨fun u key v hv => h.keyed u key v ?_, fun u key v hv => h.schema u key v ?_, ?_, ?_,
        hwithin⟩
      · rwa [held_send] at hv
      · rwa [held_send] at hv
      · rw [heldBytes_send]
        exact h.memory
      · rw [heldBytes_send]
        exact h.counted
  | booked oldBytes hbooks =>
      refine ⟨fun u key v hv => ?_, fun u key v hv => ?_, ?_, fun hsmall => ?_, hwithin⟩
      · rcases lookup_book hv with hold | ⟨rfl, rfl, rfl⟩
        · exact h.keyed u key v hold
        · rfl
      · rcases lookup_book hv with hold | ⟨rfl, rfl, rfl⟩
        · exact h.schema u key v hold
        · exact hbooks.schema
      · rw [heldBytes_book hbooks.place]
        dsimp only at hmem
        omega
      · -- the count is small here, and the sum does not wrap
        rw [limits_book] at hsmall
        have hcounted := h.counted hsmall
        have hbytes := h.within.bytes
        have hnonneg : 0 ≤ c.heldBytes sizes := heldBytes_nonneg
        have hlarge : isizeMax + isizeMax < UInt64.size := by decide
        dsimp only at hmem
        rw [heldBytes_book hbooks.place, bytesUsed_book, projected,
          Nat.mod_eq_of_lt (by omega)]
        omega

theorem restorable_new (limits : SpaceLimits) : Restorable sizes (new limits) := by
  have hnone : ∀ (t : Topic) key s, ((new limits).held t).lookup key ≠ some s := by
    intro t key s h
    cases t <;> cases h
  refine ⟨fun t key s h => absurd h (hnone t key s), fun t key s h => absurd h (hnone t key s),
    ?_, fun _ => ?_, withinLimits_new limits⟩
  · have hzero : (new limits).heldBytes sizes = 0 := by
      simp [new, heldBytes, topicBytes, held, Map.sumOf_empty]
    rw [hzero]
    exact Int.natCast_nonneg _
  · simp [new, heldBytes, topicBytes, held, Map.sumOf_empty]

/-! ### The restore -/

/-- The state `d` of a restore of `c` with these samples to come. -/
structure Restoring (sizes : StructSizes) (c d : WorkflowCaches)
    (rest : List (Sigma Topic.Sample)) : Prop where
  limits : d.limits = c.limits
  exact : Exact sizes d
  held : ∀ (t : Topic) key s, (d.held t).lookup key = some s → (c.held t).lookup key = some s
  complete : ∀ (t : Topic) key s, (c.held t).lookup key = some s →
    (d.held t).lookup key = some s ∨ ⟨t, s⟩ ∈ rest
  come : ∀ b ∈ rest, (c.held b.1).lookup (b.1.key b.2) = some b.2 ∧
    (d.held b.1).lookup (b.1.key b.2) = none
  distinct : rest.Nodup

theorem heldBytes_le (h : ∀ (t : Topic) key s, (d.held t).lookup key = some s →
    (c.held t).lookup key = some s) : d.heldBytes sizes ≤ c.heldBytes sizes := by
  have htopic : ∀ t : Topic, d.topicBytes sizes t ≤ c.topicBytes sizes t := fun t =>
    Map.sumOf_le_of_lookup _ (h t) fun _ s _ => Int.natCast_nonneg _
  have hi := htopic .intent
  have hd := htopic .decision
  have hc := htopic .capabilities
  have hp := htopic .plan
  have hs := htopic .state
  unfold heldBytes
  omega

/-- A sample to come has a new key, room and budget. -/
theorem Restoring.admitSample {rest : List (Sigma Topic.Sample)} (hc : Restorable sizes c)
    (h : Restoring sizes c d (⟨t, s⟩ :: rest)) :
    ∃ d', admitSample sizes t s d = (.ok s, d') ∧ Restoring sizes c d' rest := by
  obtain ⟨hheld, hfresh⟩ := h.come _ (List.mem_cons_self ..)
  dsimp only at hheld hfresh
  have hsub : ∀ (u : Topic) key v, ((book sizes t s d 0).held u).lookup key = some v →
      (c.held u).lookup key = some v := by
    intro u key v hv
    rcases lookup_book hv with hold | ⟨rfl, rfl, rfl⟩
    · exact h.held u key v hold
    · exact hheld
  have hplace : Place sizes t s d 0 := .fresh hfresh
  have hbytes : (book sizes t s d 0).heldBytes sizes ≤ c.heldBytes sizes := heldBytes_le hsub
  rw [heldBytes_book hplace, ← h.exact] at hbytes
  have hmemory := hc.memory
  have hbudget := hc.budget
  have hlarge : isizeMax < UInt64.size := by decide
  have hprojected : d.projected 0 (t.bytes sizes s) = d.bytesUsed + t.bytes sizes s := by
    rw [projected, Nat.sub_zero, Nat.mod_eq_of_lt (by omega)]
  have hbooks : Books sizes t s d 0 := by
    refine ⟨hc.schema t _ s hheld, hplace, fun _ => ?_, ?_⟩
    · have hkeys := Map.length_keys_le (hsub t)
      rw [book, held_store, held_bytesUsed, AList.keys_insert, List.length_cons,
        List.erase_of_not_mem (AList.lookup_eq_none.mp hfresh)] at hkeys
      have hlimit := hc.within.instances t
      rw [h.limits]
      unfold instances at hlimit ⊢
      omega
    · rw [hprojected, h.limits]
      omega
  have houtcome := admitSample_outcome sizes t s d
  generalize WorkflowCaches.admitSample sizes t s d = r at houtcome
  cases houtcome with
  | refused e hnot => exact absurd hbooks (hnot 0)
  | repeated cur hcur => simp [hfresh] at hcur
  | booked oldBytes hbooks' =>
      obtain rfl := hbooks'.place.unique hplace
      refine ⟨_, rfl, limits_book.trans h.limits, ?_, hsub, ?_, ?_, h.distinct.of_cons⟩
      · rw [Exact, bytesUsed_book, hprojected, heldBytes_book hplace, ← h.exact]
        omega
      · intro u key v hv
        rcases h.complete u key v hv with hold | hcome
        · by_cases hu : u = t
          · subst hu
            refine .inl ?_
            rw [book, held_store, held_bytesUsed, Map.lookup_insert_if]
            split
            · next hkey =>
                rw [hkey, hfresh] at hold
                cases hold
            · exact hold
          · refine .inl ?_
            rw [book, held_store_of_ne hu, held_bytesUsed]
            exact hold
        · rcases List.mem_cons.mp hcome with heq | hcome
          · cases heq
            refine .inl ?_
            rw [← hc.keyed t key s hv]
            exact held_book
          · exact .inr hcome
      · intro b hb
        obtain ⟨hheld', hfresh'⟩ := h.come b (List.mem_cons_of_mem _ hb)
        refine ⟨hheld', ?_⟩
        rw [Option.eq_none_iff_forall_ne_some]
        intro v hv
        rcases lookup_book hv with hold | ⟨hu, hkey, rfl⟩
        · simp [hfresh'] at hold
        · -- the same key would make it the same sample
          obtain ⟨u, w⟩ := b
          dsimp only at hu hkey hheld'
          subst hu
          rw [hkey, hheld, Option.some.injEq] at hheld'
          subst hheld'
          exact (List.nodup_cons.mp h.distinct).1 hb

theorem Restoring.admitEach {rest : List (Sigma Topic.Sample)} (hc : Restorable sizes c)
    (ss : List t.Sample) (h : Restoring sizes c d (ss.map (Sigma.mk t) ++ rest)) :
    ∃ d', admitEach sizes t ss d = (.ok (), d') ∧ Restoring sizes c d' rest := by
  induction ss generalizing d with
  | nil => exact ⟨d, rfl, h⟩
  | cons s ss ih =>
      obtain ⟨d', hd', hnext⟩ := Restoring.admitSample hc h
      obtain ⟨d'', hd'', hlast⟩ := ih hnext
      refine ⟨d'', ?_, hlast⟩
      rw [WorkflowCaches.admitEach, hd']
      exact hd''

theorem snapshot_of (c : WorkflowCaches) (t : Topic) :
    c.snapshot.of t = (c.held t).entries.map (·.2) := by
  cases t <;> rfl

/-- The topics in the order in which they are restored. -/
def restoreOrder : List Topic := [.intent, .decision, .capabilities, .plan, .state]

theorem mem_restoreOrder (t : Topic) : t ∈ restoreOrder := by
  cases t <;> decide

def comingSamples (snap : WorkflowSnapshot) (topics : List Topic) : List (Sigma Topic.Sample) :=
  topics.flatMap fun t => (snap.of t).map (Sigma.mk t)

/-- At first everything is to come. -/
theorem restoring_new {snap : WorkflowSnapshot} (hc : Restorable sizes c)
    (hsnap : snap.Reorders c.snapshot) :
    Restoring sizes c (new c.limits) (comingSamples snap restoreOrder) := by
  have hmem : ∀ {t : Topic} {s : t.Sample},
      s ∈ snap.of t ↔ (c.held t).lookup (t.key s) = some s := by
    intro t s
    rw [(hsnap.of t).mem_iff, snapshot_of]
    constructor
    · intro hs
      obtain ⟨⟨key, v⟩, he, rfl⟩ := List.mem_map.mp hs
      have hlookup := Map.mem_entries.mp he
      rw [← hc.keyed t key v hlookup] at hlookup
      exact hlookup
    · intro hs
      exact List.mem_map.mpr ⟨_, Map.mem_entries.mpr hs, rfl⟩
  have hnone : ∀ (t : Topic) key, ((new c.limits).held t).lookup key = none := by
    intro t key
    cases t <;> rfl
  refine ⟨rfl, ?_, fun t key s hs => ?_, fun t key s hs => ?_, fun b hb => ?_, ?_⟩
  · simp [Exact, new, heldBytes, topicBytes, WorkflowCaches.held, Map.sumOf_empty]
  · rw [hnone] at hs
    cases hs
  · refine .inr (List.mem_flatMap.mpr ⟨t, mem_restoreOrder t, ?_⟩)
    refine List.mem_map.mpr ⟨s, hmem.mpr ?_, rfl⟩
    rw [hc.keyed t key s hs]
    exact hs
  · obtain ⟨t, -, hb⟩ := List.mem_flatMap.mp hb
    obtain ⟨s, hs, rfl⟩ := List.mem_map.mp hb
    exact ⟨hmem.mp hs, hnone _ _⟩
  · refine List.nodup_flatMap.mpr ⟨fun t _ => ?_, ?_⟩
    · -- two entries with one sample would be under the same key
      refine List.Nodup.map sigma_mk_injective ((hsnap.of t).nodup_iff.mpr ?_)
      rw [snapshot_of]
      refine List.Nodup.map_on (fun e he e' he' hsame => ?_) (c.held t).nodupKeys.nodup
      have hkey := hc.keyed t e.1 e.2 (Map.mem_entries.mp he)
      have hkey' := hc.keyed t e'.1 e'.2 (Map.mem_entries.mp he')
      rw [← hsame, hkey] at hkey'
      exact Sigma.ext hkey' (heq_of_eq hsame)
    · refine List.Pairwise.imp (fun {t u} hne => ?_) (by decide : restoreOrder.Pairwise (· ≠ ·))
      intro b hb hb'
      obtain ⟨s, -, rfl⟩ := List.mem_map.mp hb
      obtain ⟨s', -, hs'⟩ := List.mem_map.mp hb'
      exact hne (congrArg Sigma.fst hs').symm

theorem Restoring.restore {snap : WorkflowSnapshot} (hc : Restorable sizes c)
    (h : Restoring sizes c d (comingSamples snap restoreOrder)) :
    ∃ d', restore sizes snap d = (.ok (), d') ∧ Restoring sizes c d' [] := by
  simp only [comingSamples, restoreOrder, List.flatMap_cons, List.flatMap_nil] at h
  obtain ⟨d₁, h₁, hnext⟩ := Restoring.admitEach (t := .intent) hc snap.intents h
  obtain ⟨d₂, h₂, hnext⟩ := Restoring.admitEach (t := .decision) hc snap.decisions hnext
  obtain ⟨d₃, h₃, hnext⟩ := Restoring.admitEach (t := .capabilities) hc snap.capabilities hnext
  obtain ⟨d₄, h₄, hnext⟩ := Restoring.admitEach (t := .plan) hc snap.plans hnext
  obtain ⟨d₅, h₅, hnext⟩ := Restoring.admitEach (t := .state) hc snap.states hnext
  refine ⟨d₅, ?_, hnext⟩
  unfold WorkflowCaches.restore
  rw [h₁]
  dsimp only [andThen]
  rw [h₂]
  dsimp only [andThen]
  rw [h₃]
  dsimp only [andThen]
  rw [h₄]
  exact h₅

/-- The same samples under the same keys, and a count that is their sum. -/
structure Restored (sizes : StructSizes) (c d : WorkflowCaches) : Prop where
  held : ∀ (t : Topic) key, (d.held t).lookup key = (c.held t).lookup key
  instances : ∀ t : Topic, d.instances t = c.instances t
  bytes : Exact sizes d

theorem Restoring.restored (h : Restoring sizes c d []) : Restored sizes c d := by
  have hback : ∀ (t : Topic) key s, (c.held t).lookup key = some s →
      (d.held t).lookup key = some s := by
    intro t key s hs
    rcases h.complete t key s hs with hheld | hcome
    · exact hheld
    · cases hcome
  refine ⟨fun t key => Option.ext fun s => ⟨h.held t key s, hback t key s⟩, fun t => ?_, h.exact⟩
  exact le_antisymm (Map.length_keys_le (h.held t)) (Map.length_keys_le (hback t))

/-- A snapshot of what writes have stored, in any order, is restored into empty caches of
the same limits. -/
theorem snapshot_restored (limits : SpaceLimits) (calls : List (Sigma Topic.Sample))
    (hmem : Machine.Along (step sizes) (InMemory sizes) (new limits) calls)
    {snap : WorkflowSnapshot} (hsnap : snap.Reorders ((new limits).run sizes calls).snapshot) :
    ∃ d, restore sizes snap (new limits) = (.ok (), d) ∧
      Restored sizes ((new limits).run sizes calls) d := by
  have hlimits : ((new limits).run sizes calls).limits = limits :=
    Machine.foldl_invariant (I := fun c : WorkflowCaches => c.limits = limits) calls rfl
      fun c call h => (admit_change sizes call.1 call.2 c).limits_eq.trans h
  have hc : Restorable sizes ((new limits).run sizes calls) :=
    hmem.invariant (I := Restorable sizes) (restorable_new limits)
      fun c call h hcall => h.step hcall
  have hstart := restoring_new hc hsnap
  rw [hlimits] at hstart
  obtain ⟨d, hd, hend⟩ := hstart.restore hc
  exact ⟨d, hd, hend.restored⟩

/-- Two plans and a state that has shrunk, with the plans in the other order. -/
theorem snapshot_restored_swapped :
    ∃ d, restore sampleSizes
        ⟨[], [], [], [publishedPlan 1, { publishedPlan 2 with planRevision := 2 }], [stateOf 2 ""]⟩
        (new SpaceLimits.default) = (.ok (), d) ∧
      Restored sampleSizes ((new SpaceLimits.default).run sampleSizes
        [⟨.plan, publishedPlan 1⟩, ⟨.plan, { publishedPlan 2 with planRevision := 2 }⟩,
          ⟨.state, stateOf 1 "cancel-request"⟩, ⟨.state, stateOf 2 ""⟩]) d :=
  snapshot_restored SpaceLimits.default
    [⟨.plan, publishedPlan 1⟩, ⟨.plan, { publishedPlan 2 with planRevision := 2 }⟩,
      ⟨.state, stateOf 1 "cancel-request"⟩, ⟨.state, stateOf 2 ""⟩]
    ⟨by decide +kernel, by decide +kernel, by decide +kernel, by decide +kernel, trivial⟩
    ⟨.refl _, .refl _, .refl _, .swap _ _ _, .refl _⟩

end WorkflowCaches

end DdsOrchestrator.Dataspace
