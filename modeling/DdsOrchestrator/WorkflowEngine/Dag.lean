import DdsOrchestrator.Lib.Loop
import DdsOrchestrator.WorkflowEngine.Contract

/-!
The validator of candidate plans. No task is published for a plan it refuses:
limits, capabilities, deadlines, dependencies, inputs, the aggregate token
budget, and a depth-first search that finds cycles and measures depth.

The search carries a map of colours (1 while a node is on the stack, 2 when it
is finished) and a memo of finished depths. Its recursion is on a fuel that
starts at one more than the number of nodes; the colours already end the
source's recursion before that.
-/

namespace DdsOrchestrator.WorkflowEngine

open Loop

def maxNodes : Nat := 32

def maxDepth : Nat := 16

def maxFanout : Nat := 8

/-- 1 MiB. -/
def maxOutputBytesLimit : Nat := 1048576

inductive NodeKindCand where
  | inference
  | tool
  deriving DecidableEq

structure CandidateNode where
  nodeId : String
  kind : NodeKindCand
  requiredCapabilities : List String
  modelId : String
  targetAgentId : String
  promptTemplate : String
  dependencies : List String
  outputNames : List String
  /-- `(producer_node_id, output_name)`. -/
  inputs : List (String × String)
  maxAttempts : UInt32
  maxTokens : UInt64
  maxOutputBytes : UInt64
  deadlineNs : UInt64
  priority : Int
  sideEffectKey : String
  deriving DecidableEq

structure PlanCandidate where
  plannerId : String
  plannerRevision : String
  plannerTokens : UInt64
  nodes : List CandidateNode
  deriving DecidableEq

inductive DagError where
  | empty
  | duplicateId (id : String)
  | unknownDependency (id : String)
  | duplicateDependency (node : String)
  | cycle (id : String)
  | unknownCapability (label : String)
  | limitViolation (message : String)
  | deadlinePassed (node : String)
  | toolRejected (node : String)
  | badPriority (node : String) (priority : Int)
  | badAttempts (node : String) (attempts : UInt32)
  | invalidInput (producer output : String)
  | aggregateBudget (planner nodes budget : Nat)
  deriving DecidableEq

/-- The index of the nodes by id. -/
def indexNodes : List CandidateNode → Map String CandidateNode →
    Except DagError (Map String CandidateNode)
  | [], m => .ok m
  | n :: rest, m =>
      if n.nodeId ∈ m then .error (.duplicateId n.nodeId)
      else indexNodes rest (m.insert n.nodeId n)

/-- The dependencies exist and are listed once. -/
def checkDependencies (byId : Map String CandidateNode) (node : String) :
    List String → List String → Except DagError Unit
  | [], _ => .ok ()
  | d :: rest, seen =>
      if d ∉ byId then .error (.unknownDependency d)
      else if d ∈ seen then .error (.duplicateDependency node)
      else checkDependencies byId node rest (d :: seen)

/-- The inputs name declared outputs of declared dependencies. -/
def checkInputs (byId : Map String CandidateNode) (n : CandidateNode) :
    List (String × String) → Except DagError Unit
  | [] => .ok ()
  | (producer, output) :: rest =>
      match byId.lookup producer with
      | none => .error (.invalidInput producer output)
      | some p =>
          if output ∉ p.outputNames then .error (.invalidInput producer output)
          else if producer ∉ n.dependencies then
            .error (.invalidInput producer (output ++ " (não é dependência declarada)"))
          else checkInputs byId n rest

/-- The checks on one node, in the order of the source. -/
def checkNode (byId : Map String CandidateNode) (intent : WorkflowIntent) (now : UInt64)
    (n : CandidateNode) : Except DagError Unit := do
  ensure (catalogV1.unknown n.requiredCapabilities = [])
    (.unknownCapability ((catalogV1.unknown n.requiredCapabilities).headD ""))
  ensure (n.priority = 1 ∨ n.priority = 5 ∨ n.priority = 10) (.badPriority n.nodeId n.priority)
  ensure (1 ≤ n.maxAttempts.toNat ∧ n.maxAttempts.toNat ≤ 3) (.badAttempts n.nodeId n.maxAttempts)
  ensure (n.maxOutputBytes.toNat ≤ maxOutputBytesLimit)
    (.limitViolation
      ("max_output_bytes " ++ toString n.maxOutputBytes ++ " > 1 MiB em " ++ n.nodeId))
  ensure (n.kind ≠ .tool) (.toolRejected n.nodeId)
  ensure (¬ (0 < n.deadlineNs ∧ n.deadlineNs ≤ now)) (.deadlinePassed n.nodeId)
  ensure (¬ (0 < n.deadlineNs ∧ 0 < intent.deadlineNs ∧ intent.deadlineNs < n.deadlineNs))
    (.limitViolation ("prazo do nó " ++ n.nodeId ++ " > prazo do workflow"))
  checkDependencies byId n.nodeId n.dependencies []
  ensure (n.dependencies.length ≤ maxFanout)
    (.limitViolation ("fan-out " ++ toString n.dependencies.length ++ " > 8 em " ++ n.nodeId))
  checkInputs byId n n.inputs

def u64Max : Nat := 2 ^ 64 - 1

/-- `total.saturating_add(max_tokens.saturating_mul(max_attempts))`. -/
def addTokens (total : Nat) (n : CandidateNode) : Nat :=
  min (total + min (n.maxTokens.toNat * n.maxAttempts.toNat) u64Max) u64Max

/-- The loop over the nodes; its value is the total of tokens. -/
def checkNodes (byId : Map String CandidateNode) (intent : WorkflowIntent) (now : UInt64) :
    List CandidateNode → Nat → Except DagError Nat
  | [], total => .ok total
  | n :: rest, total => do
      checkNode byId intent now n
      checkNodes byId intent now rest (addTokens total n)

/-- Colours and finished depths of the search. -/
structure Search where
  state : Map String Nat
  memo : Map String Nat
  deriving DecidableEq

/-- The loop over the dependencies of a node: the largest depth among them. -/
def visitDependencies (visit : String → Search → Except DagError (Nat × Search)) :
    List String → Nat → Search → Except DagError (Nat × Search)
  | [], maxChild, s => .ok (maxChild, s)
  | d :: rest, maxChild, s =>
      match visit d s with
      | .error e => .error e
      | .ok (depth, s') => visitDependencies visit rest (max maxChild depth) s'

/-- Declared dependencies; every id the search meets has been validated. -/
def dependenciesOf (byId : Map String CandidateNode) (id : String) : List String :=
  ((byId.lookup id).map (·.dependencies)).getD []

def depthFirst (byId : Map String CandidateNode) :
    Nat → String → Search → Except DagError (Nat × Search)
  | 0, id, _ => .error (.cycle id)
  | fuel + 1, id, s =>
      match s.memo.lookup id with
      | some d => .ok (d, s)
      | none =>
          if s.state.lookup id = some 1 then .error (.cycle id)
          else
            match visitDependencies (depthFirst byId fuel) (dependenciesOf byId id) 0
                { s with state := s.state.insert id 1 } with
            | .error e => .error e
            | .ok (maxChild, s') =>
                .ok (maxChild + 1, { state := s'.state.insert id 2,
                                     memo := s'.memo.insert id (maxChild + 1) })

/-- The loop that starts the search at every node. -/
def checkDepths (byId : Map String CandidateNode) (fuel : Nat) :
    List CandidateNode → Search → Except DagError Search
  | [], s => .ok s
  | n :: rest, s =>
      match depthFirst byId fuel n.nodeId s with
      | .error e => .error e
      | .ok (d, s') =>
          if maxDepth < d then
            .error (.limitViolation ("profundidade " ++ toString d ++ " > 16 via " ++ n.nodeId))
          else checkDepths byId fuel rest s'

def validateCandidate (cand : PlanCandidate) (intent : WorkflowIntent) (now : UInt64) :
    Except DagError Unit := do
  ensure (cand.nodes ≠ []) .empty
  ensure (cand.nodes.length ≤ maxNodes)
    (.limitViolation (toString cand.nodes.length ++ " nós > 32"))
  let byId ← indexNodes cand.nodes ∅
  let total ← checkNodes byId intent now cand.nodes cand.plannerTokens.toNat
  ensure (total ≤ intent.maxTokens.toNat)
    (.aggregateBudget cand.plannerTokens.toNat (total - cand.plannerTokens.toNat)
      intent.maxTokens.toNat)
  let _ ← checkDepths byId (cand.nodes.length + 1) cand.nodes ⟨∅, ∅⟩

/-! ### The depth-first search

A finished search is a ranking: every memoised node has its dependencies
memoised at smaller depths. What keeps the memo from being overwritten is that
a node on the stack is coloured 1 and not yet memoised. -/

variable {byId : Map String CandidateNode}

/-- The memo ranks each of its nodes above its dependencies, and no node on
the stack is in it. -/
structure Search.Ranked (byId : Map String CandidateNode) (s : Search) : Prop where
  below : ∀ id d, s.memo.lookup id = some d → ∀ dep ∈ dependenciesOf byId id,
    ∃ d', s.memo.lookup dep = some d' ∧ d' < d
  stacked : ∀ id, s.state.lookup id = some 1 → s.memo.lookup id = none

/-- What a visit keeps: finished depths stay, and the stack stays coloured. -/
structure Search.Extends (s s' : Search) : Prop where
  memo : ∀ id d, s.memo.lookup id = some d → s'.memo.lookup id = some d
  stack : ∀ id, s.state.lookup id = some 1 → s'.state.lookup id = some 1

theorem Search.Extends.refl (s : Search) : s.Extends s :=
  ⟨fun _ _ h => h, fun _ h => h⟩

theorem Search.Extends.trans {s t u : Search} (h : s.Extends t) (h' : t.Extends u) :
    s.Extends u :=
  ⟨fun id d hd => h'.memo id d (h.memo id d hd), fun id hid => h'.stack id (h.stack id hid)⟩

theorem visitDependencies_ranked
    {visit : String → Search → Except DagError (Nat × Search)}
    (hvisit : ∀ id s d s', s.Ranked byId → visit id s = .ok (d, s') →
      s'.Ranked byId ∧ s.Extends s' ∧ s'.memo.lookup id = some d)
    {deps : List String} {maxChild : Nat} {s s' : Search} {depth : Nat} (hs : s.Ranked byId)
    (h : visitDependencies visit deps maxChild s = .ok (depth, s')) :
    s'.Ranked byId ∧ s.Extends s' ∧ maxChild ≤ depth ∧
      ∀ dep ∈ deps, ∃ d, s'.memo.lookup dep = some d ∧ d ≤ depth := by
  induction deps generalizing maxChild s with
  | nil =>
      simp only [visitDependencies, Except.ok.injEq, Prod.mk.injEq] at h
      obtain ⟨rfl, rfl⟩ := h
      exact ⟨hs, .refl s, le_rfl, by simp⟩
  | cons dep deps ih =>
      simp only [visitDependencies] at h
      split at h
      · cases h
      · rename_i d s₁ hd
        obtain ⟨hs₁, hext₁, hmemo⟩ := hvisit dep s d s₁ hs hd
        obtain ⟨hs', hext, hle, hdeps⟩ := ih hs₁ h
        refine ⟨hs', hext₁.trans hext, (le_max_left _ _).trans hle, ?_⟩
        intro dep' hdep'
        rcases List.mem_cons.mp hdep' with rfl | hmem
        · exact ⟨d, hext.memo _ _ hmemo, (le_max_right _ _).trans hle⟩
        · exact hdeps dep' hmem

theorem depthFirst_ranked (fuel : Nat) : ∀ id s d s', s.Ranked byId →
    depthFirst byId fuel id s = .ok (d, s') →
    s'.Ranked byId ∧ s.Extends s' ∧ s'.memo.lookup id = some d := by
  induction fuel with
  | zero => intro id s d s' _ h; cases h
  | succ fuel ih =>
      intro id s d s' hs h
      simp only [depthFirst] at h
      split at h
      · rename_i d₀ hmemo
        simp only [Except.ok.injEq, Prod.mk.injEq] at h
        obtain ⟨rfl, rfl⟩ := h
        exact ⟨hs, .refl s, hmemo⟩
      · rename_i hnone
        split at h
        · cases h
        · rename_i hcolour
          split at h
          · cases h
          · rename_i maxChild s₂ hdeps
            simp only [Except.ok.injEq, Prod.mk.injEq] at h
            obtain ⟨rfl, rfl⟩ := h
            -- `id` goes on the stack before its dependencies are visited.
            have hpush : Search.Ranked byId { s with state := s.state.insert id 1 } := by
              refine ⟨hs.below, ?_⟩
              intro k hk
              by_cases hkid : k = id
              · exact hkid ▸ hnone
              · rw [AList.lookup_insert_ne hkid] at hk
                exact hs.stacked k hk
            obtain ⟨hs₂, hext, -, hbelow⟩ := visitDependencies_ranked ih hpush hdeps
            have hfree : s₂.memo.lookup id = none :=
              hs₂.stacked id (hext.stack id (by simp))
            have hkeep : ∀ k v, s₂.memo.lookup k = some v →
                (s₂.memo.insert id (maxChild + 1)).lookup k = some v := by
              intro k v hk
              have hne : k ≠ id := by
                rintro rfl
                simp [hfree] at hk
              rw [AList.lookup_insert_ne hne]
              exact hk
            refine ⟨⟨?_, ?_⟩, ⟨?_, ?_⟩, by simp⟩
            · intro k v hk dep hdep
              by_cases hkid : k = id
              · subst hkid
                rw [AList.lookup_insert, Option.some.injEq] at hk
                obtain ⟨v', hv', hle⟩ := hbelow dep hdep
                exact ⟨v', hkeep dep v' hv', by omega⟩
              · rw [AList.lookup_insert_ne hkid] at hk
                obtain ⟨v', hv', hlt⟩ := hs₂.below k v hk dep hdep
                exact ⟨v', hkeep dep v' hv', hlt⟩
            · intro k hk
              have hkid : k ≠ id := by
                rintro rfl
                simp at hk
              rw [AList.lookup_insert_ne hkid] at hk ⊢
              exact hs₂.stacked k hk
            · intro k v hk
              exact hkeep k v (hext.memo k v hk)
            · intro k hk
              have hkid : k ≠ id := by
                rintro rfl
                exact hcolour hk
              rw [AList.lookup_insert_ne hkid]
              exact hext.stack k (by rw [AList.lookup_insert_ne hkid]; exact hk)

theorem checkDepths_ranked {fuel : Nat} {nodes : List CandidateNode} {s s' : Search}
    (hs : s.Ranked byId) (h : checkDepths byId fuel nodes s = .ok s') :
    s'.Ranked byId ∧ s.Extends s' ∧ ∀ n ∈ nodes, ∃ d, s'.memo.lookup n.nodeId = some d := by
  induction nodes generalizing s with
  | nil =>
      simp only [checkDepths, Except.ok.injEq] at h
      subst h
      exact ⟨hs, .refl s, by simp⟩
  | cons n nodes ih =>
      simp only [checkDepths] at h
      split at h
      · cases h
      · rename_i d s₁ hd
        obtain ⟨hs₁, hext₁, hmemo⟩ := depthFirst_ranked fuel _ _ _ _ hs hd
        split at h
        · cases h
        · obtain ⟨hs', hext, hrest⟩ := ih hs₁ h
          refine ⟨hs', hext₁.trans hext, ?_⟩
          intro m hm
          rcases List.mem_cons.mp hm with rfl | hm
          · exact ⟨d, hext.memo _ _ hmemo⟩
          · exact hrest m hm

/-! ### The index and the loop over the nodes -/

theorem indexNodes_ok {nodes : List CandidateNode} {m m' : Map String CandidateNode}
    (h : indexNodes nodes m = .ok m') :
    (nodes.map (·.nodeId)).Nodup ∧ (∀ n ∈ nodes, n.nodeId ∉ m) ∧
      (∀ n ∈ nodes, m'.lookup n.nodeId = some n) ∧
      (∀ id, id ∉ nodes.map (·.nodeId) → m'.lookup id = m.lookup id) := by
  induction nodes generalizing m with
  | nil =>
      simp only [indexNodes, Except.ok.injEq] at h
      subst h
      simp
  | cons n nodes ih =>
      simp only [indexNodes] at h
      split at h
      · cases h
      · rename_i hfresh
        obtain ⟨hnodup, hout, hin, hother⟩ := ih h
        have hn : n.nodeId ∉ nodes.map (·.nodeId) := by
          intro hmem
          obtain ⟨k, hk, hid⟩ := List.mem_map.mp hmem
          exact hout k hk (by rw [hid]; simp)
        refine ⟨by simpa using ⟨by simpa using hn, hnodup⟩, ?_, ?_, ?_⟩
        · intro k hk
          rcases List.mem_cons.mp hk with rfl | hk
          · exact hfresh
          · exact fun hmem => hout k hk (by simp [hmem])
        · intro k hk
          rcases List.mem_cons.mp hk with rfl | hk
          · rw [hother _ hn]; simp
          · exact hin k hk
        · intro id hid
          simp only [List.map_cons, List.mem_cons, not_or] at hid
          rw [hother id hid.2, AList.lookup_insert_ne hid.1]

/-- The limits that hold of every node of an accepted plan. -/
structure NodeLimits (byId : Map String CandidateNode) (n : CandidateNode) : Prop where
  capabilities : ∀ c ∈ n.requiredCapabilities, c ∈ catalogV1.labels
  attempts : 1 ≤ n.maxAttempts.toNat ∧ n.maxAttempts.toNat ≤ 3
  outputBytes : n.maxOutputBytes.toNat ≤ maxOutputBytesLimit
  fanout : n.dependencies.length ≤ maxFanout
  known : ∀ d ∈ n.dependencies, d ∈ byId

theorem checkDependencies_ok {node : String} {deps seen : List String}
    (h : checkDependencies byId node deps seen = .ok ()) : ∀ d ∈ deps, d ∈ byId := by
  induction deps generalizing seen with
  | nil => simp
  | cons d deps ih =>
      simp only [checkDependencies] at h
      split at h
      · cases h
      · rename_i hd
        split at h
        · cases h
        · intro d' hd'
          rcases List.mem_cons.mp hd' with rfl | hd'
          · exact not_not.mp hd
          · exact ih h d' hd'

theorem checkNode_ok {intent : WorkflowIntent} {now : UInt64} {n : CandidateNode}
    (h : checkNode byId intent now n = .ok ()) : NodeLimits byId n := by
  simp only [checkNode, bind_eq_ok, ensure_eq_ok, Unique.exists_iff] at h
  obtain ⟨hcaps, -, hattempts, hbytes, -, -, -, hdeps, hfan, -⟩ := h
  exact ⟨Catalog.unknown_eq_nil.mp hcaps, hattempts, hbytes, hfan, checkDependencies_ok hdeps⟩

theorem le_addTokens_left (total : Nat) (n : CandidateNode) :
    min total u64Max ≤ addTokens total n := by
  unfold addTokens; omega

theorem le_addTokens_right (total : Nat) (n : CandidateNode) :
    min (n.maxTokens.toNat * n.maxAttempts.toNat) u64Max ≤ addTokens total n := by
  unfold addTokens; omega

/-- Every node passed its checks, and the total has counted all its attempts
unless it is saturated. -/
theorem checkNodes_ok {intent : WorkflowIntent} {now : UInt64} {nodes : List CandidateNode}
    {total total' : Nat} (h : checkNodes byId intent now nodes total = .ok total') :
    min total u64Max ≤ total' ∧ ∀ n ∈ nodes, NodeLimits byId n ∧
      min (n.maxTokens.toNat * n.maxAttempts.toNat) u64Max ≤ total' := by
  induction nodes generalizing total with
  | nil =>
      simp only [checkNodes, Except.ok.injEq] at h
      subst h
      simp
  | cons n nodes ih =>
      simp only [checkNodes, bind_eq_ok, Unique.exists_iff] at h
      obtain ⟨hn, hrest⟩ := h
      obtain ⟨htotal, hnodes⟩ := ih hrest
      have hleft := le_addTokens_left total n
      have hright := le_addTokens_right total n
      refine ⟨by omega, ?_⟩
      intro k hk
      rcases List.mem_cons.mp hk with rfl | hk
      · exact ⟨checkNode_ok hn, by omega⟩
      · exact hnodes k hk

/-- A total that is not saturated is the exact sum. -/
theorem checkNodes_total {intent : WorkflowIntent} {now : UInt64} {nodes : List CandidateNode}
    {total total' : Nat} (h : checkNodes byId intent now nodes total = .ok total')
    (hlt : total' < u64Max) :
    total' = total + (nodes.map fun n => n.maxTokens.toNat * n.maxAttempts.toNat).sum := by
  induction nodes generalizing total with
  | nil =>
      simp only [checkNodes, Except.ok.injEq] at h
      simp [h]
  | cons n nodes ih =>
      simp only [checkNodes, bind_eq_ok, Unique.exists_iff] at h
      obtain ⟨-, hrest⟩ := h
      have hle := (checkNodes_ok hrest).1
      have hadd : addTokens total n = total + n.maxTokens.toNat * n.maxAttempts.toNat := by
        unfold addTokens at hle ⊢
        omega
      rw [ih hrest, hadd, List.map_cons, List.sum_cons, Nat.add_assoc]

/-! ### Accepted plans -/

/-- What acceptance gives the rest of the engine. -/
structure ValidPlan (cand : PlanCandidate) (intent : WorkflowIntent) : Prop where
  nonempty : cand.nodes ≠ []
  length_le : cand.nodes.length ≤ maxNodes
  nodup : (cand.nodes.map (·.nodeId)).Nodup
  limits : ∀ n ∈ cand.nodes, (∀ c ∈ n.requiredCapabilities, c ∈ catalogV1.labels) ∧
    (1 ≤ n.maxAttempts.toNat ∧ n.maxAttempts.toNat ≤ 3) ∧
    n.maxOutputBytes.toNat ≤ maxOutputBytesLimit ∧ n.dependencies.length ≤ maxFanout ∧
    n.maxTokens.toNat ≤ intent.maxTokens.toNat
  known : ∀ n ∈ cand.nodes, ∀ d ∈ n.dependencies, ∃ k ∈ cand.nodes, k.nodeId = d
  ranked : ∃ rank : String → Nat, ∀ n ∈ cand.nodes, ∀ d ∈ n.dependencies,
    rank d < rank n.nodeId

theorem maxTokens_lt_u64Max (intent : WorkflowIntent) : intent.maxTokens.toNat < u64Max := by
  have := intent.maxTokens.toNat_lt
  unfold u64Max
  omega

theorem validateCandidate_ok {cand : PlanCandidate} {intent : WorkflowIntent} {now : UInt64}
    (h : validateCandidate cand intent now = .ok ()) : ValidPlan cand intent := by
  simp only [validateCandidate, bind_eq_ok, ensure_eq_ok, Unique.exists_iff] at h
  obtain ⟨hne, hlen, byId, hindex, total, hnodes, hbudget, s, hdepths, -⟩ := h
  obtain ⟨hnodup, -, hin, hother⟩ := indexNodes_ok hindex
  obtain ⟨-, hlimits⟩ := checkNodes_ok hnodes
  have hempty : Search.Ranked byId ⟨∅, ∅⟩ := ⟨by simp, by simp⟩
  obtain ⟨hranked, -, hmemo⟩ := checkDepths_ranked hempty hdepths
  have hmax := maxTokens_lt_u64Max intent
  refine ⟨hne, hlen, hnodup, ?_, ?_, fun id => (s.memo.lookup id).getD 0, ?_⟩
  · intro n hn
    obtain ⟨hl, htokens⟩ := hlimits n hn
    refine ⟨hl.capabilities, hl.attempts, hl.outputBytes, hl.fanout, ?_⟩
    have hmul : n.maxTokens.toNat ≤ n.maxTokens.toNat * n.maxAttempts.toNat :=
      Nat.le_mul_of_pos_right _ hl.attempts.1
    omega
  · intro n hn d hd
    have hmem := (hlimits n hn).1.known d hd
    by_contra hnone
    have hd' : d ∉ cand.nodes.map (·.nodeId) := by
      simpa using fun k hk hid => hnone ⟨k, hk, hid⟩
    have hlookup := hother d hd'
    rw [AList.lookup_empty] at hlookup
    exact AList.lookup_eq_none.mp hlookup hmem
  · intro n hn d hd
    obtain ⟨depth, hdepth⟩ := hmemo n hn
    have hdep : d ∈ dependenciesOf byId n.nodeId := by
      simpa [dependenciesOf, hin n hn] using hd
    obtain ⟨d', hd', hlt⟩ := hranked.below _ _ hdepth d hdep
    simpa [hdepth, hd'] using hlt

/-- The tokens a plan can use: those of the planner and of every attempt of
every node. -/
def PlanCandidate.tokens (cand : PlanCandidate) : Nat :=
  cand.plannerTokens.toNat +
    (cand.nodes.map fun n => n.maxTokens.toNat * n.maxAttempts.toNat).sum

/-- The saturating sum of the validator hides nothing: the ceiling of an intent
is below the point of saturation. -/
theorem validateCandidate_tokens {cand : PlanCandidate} {intent : WorkflowIntent} {now : UInt64}
    (h : validateCandidate cand intent now = .ok ()) :
    cand.tokens ≤ intent.maxTokens.toNat := by
  simp only [validateCandidate, bind_eq_ok, ensure_eq_ok, Unique.exists_iff] at h
  obtain ⟨-, -, byId, -, total, hnodes, hbudget, -⟩ := h
  have hmax := maxTokens_lt_u64Max intent
  have htotal := checkNodes_total hnodes (by omega)
  unfold PlanCandidate.tokens
  omega

end DdsOrchestrator.WorkflowEngine
