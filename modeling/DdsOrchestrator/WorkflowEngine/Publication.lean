import DdsOrchestrator.WorkflowEngine.Moves

/-!
The published plan against the validated one. `publish_plan` copies each node
through bounded sequences that fall back to the empty one, strings that fall
back to the empty one, and narrowing casts. The validator bounds the integers
and the dependencies, but neither the capabilities nor the output names, and
it admits NUL in identifiers.
-/

namespace DdsOrchestrator.WorkflowEngine

open EngineRuntime

/-- The published node carries the scheduling data of the candidate node. -/
structure SameNode (n : CandidateNode) (p : PlanNode) : Prop where
  capabilities : p.requiredCapabilities.items.map (·.val) = n.requiredCapabilities
  dependencies : p.dependencies.items.map (·.val) = n.dependencies
  outputNames : p.outputNames.items.map (·.val) = n.outputNames
  maxAttempts : p.maxAttempts.toNat = n.maxAttempts.toNat
  maxTokens : p.maxTokens.toNat = n.maxTokens.toNat
  maxOutputBytes : p.maxOutputBytes.toNat = n.maxOutputBytes.toNat

/-- Node by node, the published plan is the candidate. -/
def SamePlan (cand : PlanCandidate) (plan : WorkflowPlan) : Prop :=
  List.Forall₂ SameNode cand.nodes plan.nodes.items

/-- A string that travels unchanged. -/
def NulFree (s : String) : Prop := '\x00' ∉ s.toList

instance (s : String) : Decidable (NulFree s) := inferInstanceAs (Decidable (¬ _))

/-- The lists of a node fit the bounded sequences and its names are C strings. -/
structure Publishable (n : CandidateNode) : Prop where
  capabilities : n.requiredCapabilities.length ≤ 16
  outputCount : n.outputNames.length ≤ 8
  outputNames : ∀ o ∈ n.outputNames, NulFree o
  dependencies : ∀ d ∈ n.dependencies, NulFree d

/-! ### The three lossy copies -/

theorem toS_val_eq_iff {v : String} : (toS v).val = v ↔ NulFree v := by
  constructor
  · intro h hnul
    rw [toS_val_of_nul hnul] at h
    rw [← h] at hnul
    simp at hnul
  · exact toS_val

theorem map_toS_val_eq_iff {l : List String} :
    (l.map toS).map (·.val) = l ↔ ∀ v ∈ l, NulFree v := by
  have hid : (l.map toS).map (·.val) = l ↔ l.map ((·.val) ∘ toS) = l.map id := by
    rw [List.map_map, List.map_id]
  rw [hid, List.map_inj_left]
  exact forall₂_congr fun v _ => toS_val_eq_iff

/-- A list of names survives a bounded sequence when it fits and its names are
C strings, and otherwise is changed. -/
theorem seqN_toS_eq_iff {k : Nat} {l : List String} :
    (seqN k (l.map toS)).items.map (·.val) = l ↔ l.length ≤ k ∧ ∀ v ∈ l, NulFree v := by
  by_cases hlen : l.length ≤ k
  · rw [seqN_items (by simpa using hlen), map_toS_val_eq_iff]
    simp [hlen]
  · rw [seqN_items_of_lt (by simpa using hlen)]
    have hne : l ≠ [] := by
      rintro rfl
      simp at hlen
    simp [hlen, hne.symm]

theorem catalog_nulFree : ∀ label ∈ catalogV1.labels, NulFree label := by
  decide +kernel

/-! ### Nodes and plans -/

theorem sameNode_planNode_iff {cand : PlanCandidate} {intent : WorkflowIntent}
    (hplan : ValidPlan cand intent) {n : CandidateNode} (hn : n ∈ cand.nodes) :
    SameNode n (planNode n) ↔ Publishable n := by
  obtain ⟨hcaps, hattempts, hbytes, hfan, htokens⟩ := hplan.limits n hn
  have hnames : ∀ c ∈ n.requiredCapabilities, NulFree c :=
    fun c hc => catalog_nulFree c (hcaps c hc)
  constructor
  · rintro ⟨hc, hd, ho, -, -, -⟩
    exact ⟨(seqN_toS_eq_iff.mp hc).1, (seqN_toS_eq_iff.mp ho).1, (seqN_toS_eq_iff.mp ho).2,
      (seqN_toS_eq_iff.mp hd).2⟩
  · rintro ⟨hc, hcount, ho, hd⟩
    have hmaxTokens := intent.maxTokens.toNat_lt
    have hfan' : n.dependencies.length ≤ 32 := hfan.trans (by decide)
    unfold maxOutputBytesLimit at hbytes
    refine ⟨seqN_toS_eq_iff.mpr ⟨hc, hnames⟩, seqN_toS_eq_iff.mpr ⟨hfan', hd⟩,
      seqN_toS_eq_iff.mpr ⟨hcount, ho⟩, ?_, ?_, ?_⟩
    · simp only [planNode, UInt16.toNat_ofNat']
      omega
    · simp only [planNode, UInt32.toNat_ofNat']
      omega
    · simp only [planNode, UInt32.toNat_ofNat']
      omega

theorem samePlan_planSample_iff {cand : PlanCandidate} {intent : WorkflowIntent}
    (hplan : ValidPlan cand intent) (wf : String) (published : WorkflowIntent) (t : UInt64) :
    SamePlan cand (planSample wf published cand t) ↔ ∀ n ∈ cand.nodes, Publishable n := by
  have hitems : (planSample wf published cand t).nodes.items = cand.nodes.map planNode :=
    seqN_items (by simpa [maxNodes] using hplan.length_le)
  rw [SamePlan, hitems, List.forall₂_map_right_iff, List.forall₂_same]
  exact forall₂_congr fun n hn => sameNode_planNode_iff hplan hn

/-- The plan that `publish_plan` writes for an accepted candidate is that
candidate exactly when every node's lists fit and its names are C strings. -/
theorem publishPlan_same_iff (env : Env) (r : EngineRuntime) (wf : String) (wfr : WfRuntime)
    (cand : PlanCandidate) (intent : WorkflowIntent) (now : UInt64)
    (hwf : r.workflows.lookup wf = some wfr)
    (hvalid : validateCandidate cand intent now = .ok ())
    (hok : (publishPlan env wf cand r).1 = .ok ()) :
    ∃ plan, (publishPlan env wf cand r).2.log = r.log ++ [.plan wf plan] ∧
      (SamePlan cand plan ↔ ∀ n ∈ cand.nodes, Publishable n) := by
  simp only [publishPlan, hwf] at hok ⊢
  refine ⟨_, ?_, samePlan_planSample_iff (validateCandidate_ok hvalid) wf wfr.intent
    (env.stamp (2 * r.log.length))⟩
  rcases write_eq env (r := r)
    (.plan wf (planSample wf wfr.intent cand (env.stamp (2 * r.log.length)))) with
    ⟨-, h⟩ | ⟨⟨e, he⟩, -⟩
  · rw [h]
  · rw [he] at hok
    cases hok

/-- The runtime with the intent of the small deployment registered. -/
def registered : EngineRuntime :=
  (initial Deployment.config).setWf "wf-1" (awaiting Deployment.config Deployment.intent)

/-- A one-node plan is published unchanged. -/
theorem publishPlan_same_direct :
    validateCandidate (directTemplatePlan ⟨"wf-1", "resuma"⟩) Deployment.intent 10 = .ok () ∧
      ∃ plan, (publishPlan Deployment.env "wf-1" (directTemplatePlan ⟨"wf-1", "resuma"⟩)
        registered).2.log = [.plan "wf-1" plan] ∧
        SamePlan (directTemplatePlan ⟨"wf-1", "resuma"⟩) plan := by
  have hvalid : validateCandidate (directTemplatePlan ⟨"wf-1", "resuma"⟩) Deployment.intent 10 =
      .ok () := by decide +kernel
  obtain ⟨plan, hlog, hsame⟩ := publishPlan_same_iff Deployment.env registered "wf-1" _
    (directTemplatePlan ⟨"wf-1", "resuma"⟩) Deployment.intent 10
    (lookup_setWf _ _ _ _ |>.trans (if_pos rfl)) hvalid (by decide +kernel)
  refine ⟨hvalid, plan, hlog, hsame.mpr ?_⟩
  simp only [directTemplatePlan, List.mem_singleton, forall_eq]
  exact ⟨by decide, by decide, by decide +kernel, by simp⟩

/-- A node that lists one catalog label seventeen times. -/
def wideCandidate : PlanCandidate :=
  { directTemplatePlan ⟨"wf-1", "resuma"⟩ with
    nodes := (directTemplatePlan ⟨"wf-1", "resuma"⟩).nodes.map fun n =>
      { n with requiredCapabilities := List.replicate 17 "summarization" } }

/-- The validator accepts it, and the plan is published without any required
capability. -/
theorem publishPlan_empties_capabilities :
    validateCandidate wideCandidate Deployment.intent 10 = .ok () ∧
      ∃ plan, (publishPlan Deployment.env "wf-1" wideCandidate registered).2.log =
          [.plan "wf-1" plan] ∧
        plan.nodes.items.map (·.requiredCapabilities.items) = [[]] ∧
        ¬ SamePlan wideCandidate plan := by
  refine ⟨by decide +kernel, planSample "wf-1" Deployment.intent wideCandidate 10,
    by decide +kernel, by decide +kernel, ?_⟩
  intro hsame
  have hlong : ∀ n ∈ wideCandidate.nodes, Publishable n :=
    (samePlan_planSample_iff (validateCandidate_ok
      (by decide +kernel : validateCandidate wideCandidate Deployment.intent 10 = .ok ()))
      "wf-1" Deployment.intent 10).mp hsame
  have hcount := (hlong _ (List.mem_map.mpr ⟨_, List.mem_singleton.mpr rfl, rfl⟩)).capabilities
  exact absurd hcount (by decide)

end DdsOrchestrator.WorkflowEngine
