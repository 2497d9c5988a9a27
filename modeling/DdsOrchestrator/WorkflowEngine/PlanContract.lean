import DdsOrchestrator.Lib.LongestChain
import DdsOrchestrator.WorkflowEngine.Runtime

/-!
The validator of candidate plans against what a plan should be. The contract is stated of
the candidate alone, without an order of the checks and without a search: the dependencies
are acyclic and their chains are short.

A search that finishes without an error has measured the longest chain that ends at each
node, whatever the order in which the nodes come. A search that fails has found a node on a
cycle. Every call colours one more node before it calls itself again, so that the number
of nodes bounds the recursion.

How many nodes depend on one node is not checked: the check of that name counts what a
node depends on.
-/

namespace DdsOrchestrator.WorkflowEngine

open Loop
open LongestChain (Longest)

/-! ### The contract -/

/-- A node with the id `a` lists `b` among its dependencies. -/
def DependsOn (nodes : List CandidateNode) (a b : String) : Prop :=
  ∃ n ∈ nodes, n.nodeId = a ∧ b ∈ n.dependencies

structure NodeContract (nodes : List CandidateNode) (intent : WorkflowIntent) (now : UInt64)
    (n : CandidateNode) : Prop where
  capabilities : ∀ c ∈ n.requiredCapabilities, c ∈ catalogV1.labels
  priority : n.priority = 1 ∨ n.priority = 5 ∨ n.priority = 10
  attempts : 1 ≤ n.maxAttempts.toNat ∧ n.maxAttempts.toNat ≤ 3
  outputBytes : n.maxOutputBytes.toNat ≤ 1048576
  kind : n.kind ≠ .tool
  deadline : n.deadlineNs ≠ 0 →
    now < n.deadlineNs ∧ (intent.deadlineNs ≠ 0 → n.deadlineNs ≤ intent.deadlineNs)
  known : ∀ d ∈ n.dependencies, ∃ k ∈ nodes, k.nodeId = d
  distinct : n.dependencies.Nodup
  dependencies : n.dependencies.length ≤ 8
  inputs : ∀ i ∈ n.inputs, i.1 ∈ n.dependencies ∧
    ∃ k ∈ nodes, k.nodeId = i.1 ∧ i.2 ∈ k.outputNames

/-- The tokens are added up in exact arithmetic. A chain of dependencies is a list of ids
each of which depends on the next. -/
structure PlanContract (cand : PlanCandidate) (intent : WorkflowIntent) (now : UInt64) :
    Prop where
  count : 1 ≤ cand.nodes.length ∧ cand.nodes.length ≤ 32
  distinct : (cand.nodes.map (·.nodeId)).Nodup
  nodes : ∀ n ∈ cand.nodes, NodeContract cand.nodes intent now n
  tokens : cand.tokens ≤ intent.maxTokens.toNat
  acyclic : ∀ id, ¬ Relation.TransGen (DependsOn cand.nodes) id id
  depth : ∀ chain : List String, chain.IsChain (DependsOn cand.nodes) → chain.length ≤ 16

/-! ### The search with its two ways to fail

The search of the source, which gives nothing where its recursion is cut off and where it
comes to an id that is not in the index. -/

def visitDependencies? (visit : String → Search → Option (Except DagError (Nat × Search))) :
    List String → Nat → Search → Option (Except DagError (Nat × Search))
  | [], maxChild, s => some (.ok (maxChild, s))
  | d :: rest, maxChild, s =>
      match visit d s with
      | none => none
      | some (.error e) => some (.error e)
      | some (.ok (depth, s')) => visitDependencies? visit rest (max maxChild depth) s'

def depthFirst? (byId : Map String CandidateNode) :
    Nat → String → Search → Option (Except DagError (Nat × Search))
  | 0, _, _ => none
  | fuel + 1, id, s =>
      match s.memo.lookup id with
      | some d => some (.ok (d, s))
      | none =>
          if s.state.lookup id = some 1 then some (.error (.cycle id))
          else
            match byId.lookup id with
            -- `expect("id validado")`
            | none => none
            | some n =>
                match visitDependencies? (depthFirst? byId fuel) n.dependencies 0
                    { s with state := s.state.insert id 1 } with
                | none => none
                | some (.error e) => some (.error e)
                | some (.ok (maxChild, s')) =>
                    some (.ok (maxChild + 1, { state := s'.state.insert id 2,
                                               memo := s'.memo.insert id (maxChild + 1) }))

def checkDepths? (byId : Map String CandidateNode) (fuel : Nat) :
    List CandidateNode → Search → Option (Except DagError Search)
  | [], s => some (.ok s)
  | n :: rest, s =>
      match depthFirst? byId fuel n.nodeId s with
      | none => none
      | some (.error e) => some (.error e)
      | some (.ok (d, s')) =>
          if maxDepth < d then
            some (.error (.limitViolation
              ("profundidade " ++ toString d ++ " > 16 via " ++ n.nodeId)))
          else checkDepths? byId fuel rest s'

/-! ### What a visit does -/

variable {byId : Map String CandidateNode}

/-- The edges the search follows. -/
def Next (byId : Map String CandidateNode) (a b : String) : Prop := b ∈ dependenciesOf byId a

/-- Every dependency is in the index. -/
def DependencyClosed (byId : Map String CandidateNode) : Prop :=
  ∀ id d, id ∈ byId → d ∈ dependenciesOf byId id → d ∈ byId

/-- The memo has the longest chains, and what is coloured is on the stack or in the memo. -/
structure Search.Sound (byId : Map String CandidateNode) (s : Search) : Prop where
  longest : ∀ id d, s.memo.lookup id = some d → Longest (Next byId) id d
  finished : ∀ id c, s.state.lookup id = some c → c ≠ 1 → ∃ d, s.memo.lookup id = some d

/-- What a visit leaves: the memo and the stack, and nothing loses its colour. -/
structure Search.Keeps (s s' : Search) : Prop where
  memo : ∀ k v, s.memo.lookup k = some v → s'.memo.lookup k = some v
  stack : ∀ k, s'.state.lookup k = some 1 ↔ s.state.lookup k = some 1
  coloured : ∀ k, s'.state.lookup k = none → s.state.lookup k = none

theorem Search.Keeps.refl (s : Search) : s.Keeps s :=
  ⟨fun _ _ h => h, fun _ => .rfl, fun _ h => h⟩

theorem Search.Keeps.trans {s t u : Search} (h : s.Keeps t) (h' : t.Keeps u) : s.Keeps u :=
  ⟨fun k v hk => h'.memo k v (h.memo k v hk), fun k => (h'.stack k).trans (h.stack k),
    fun k hk => h.coloured k (h'.coloured k hk)⟩

/-- The nodes without a colour. -/
def Search.uncoloured (byId : Map String CandidateNode) (s : Search) : List String :=
  byId.keys.filter fun k => s.state.lookup k = none

theorem Search.Keeps.uncoloured_le {s s' : Search} (h : s.Keeps s') :
    (s'.uncoloured byId).length ≤ (s.uncoloured byId).length := by
  refine List.Sublist.length_le (List.monotone_filter_right _ fun k hk => ?_)
  exact decide_eq_true (h.coloured k (of_decide_eq_true hk))

/-- A node that gets its colour is one less without. -/
theorem uncoloured_push {s : Search} {id : String} (hid : id ∈ byId)
    (hwhite : s.state.lookup id = none) :
    (Search.uncoloured byId { s with state := s.state.insert id 1 }).length <
      (s.uncoloured byId).length := by
  have hmem : id ∈ s.uncoloured byId :=
    List.mem_filter.mpr ⟨AList.mem_keys.mp hid, decide_eq_true hwhite⟩
  have hsub : (Search.uncoloured byId { s with state := s.state.insert id 1 }).Subperm
      ((s.uncoloured byId).erase id) := by
    refine List.subperm_of_subset (byId.keys_nodup.filter _) fun k hk => ?_
    obtain ⟨hk, hwhite'⟩ := List.mem_filter.mp hk
    have hwhite' := of_decide_eq_true hwhite'
    have hne : k ≠ id := by
      rintro rfl
      simp at hwhite'
    rw [AList.lookup_insert_ne hne] at hwhite'
    exact (List.mem_erase_of_ne hne).mpr (List.mem_filter.mpr ⟨hk, decide_eq_true hwhite'⟩)
  have hle := hsub.length_le
  rw [List.length_erase_of_mem hmem] at hle
  have hpos := List.length_pos_of_mem hmem
  omega

/-- A visit fails on a cycle, or leaves the longest chain from the node in the memo. -/
inductive Visited (byId : Map String CandidateNode) (s : Search) (id : String) :
    Except DagError (Nat × Search) → Prop
  | cycle (c : String) (hcycle : Relation.TransGen (Next byId) c c) :
      Visited byId s id (.error (.cycle c))
  | found (d : Nat) (s' : Search) (hsound : s'.Sound byId) (hkeeps : s.Keeps s')
      (hmemo : s'.memo.lookup id = some d) : Visited byId s id (.ok (d, s'))

/-- The loop over the dependencies fails on a cycle, or finds the longest chain among
them and what it started with. -/
inductive VisitedAll (byId : Map String CandidateNode) (s : Search) (deps : List String)
    (m : Nat) : Except DagError (Nat × Search) → Prop
  | cycle (c : String) (hcycle : Relation.TransGen (Next byId) c c) :
      VisitedAll byId s deps m (.error (.cycle c))
  | found (m' : Nat) (s' : Search) (hsound : s'.Sound byId) (hkeeps : s.Keeps s') (hle : m ≤ m')
      (hbound : ∀ dep ∈ deps, ∃ d, Longest (Next byId) dep d ∧ d ≤ m')
      (hattained : m' = m ∨ ∃ dep ∈ deps, Longest (Next byId) dep m') :
      VisitedAll byId s deps m (.ok (m', s'))

/-- The visit of a node ends well wherever the stack leads to the node and fewer than
`fuel` nodes are without a colour. -/
def VisitsWell (byId : Map String CandidateNode) (fuel : Nat) (id : String)
    (visit? : String → Search → Option (Except DagError (Nat × Search)))
    (visit : String → Search → Except DagError (Nat × Search)) : Prop :=
  ∀ s : Search, s.Sound byId →
    (∀ g, s.state.lookup g = some 1 → Relation.TransGen (Next byId) g id) →
      (s.uncoloured byId).length < fuel →
        visit? id s = some (visit id s) ∧ Visited byId s id (visit id s)

theorem visitDependencies_visited {fuel : Nat}
    {visit? : String → Search → Option (Except DagError (Nat × Search))}
    {visit : String → Search → Except DagError (Nat × Search)} {deps : List String}
    (hvisit : ∀ dep ∈ deps, VisitsWell byId fuel dep visit? visit) {m : Nat} {s : Search}
    (hs : s.Sound byId)
    (hstack : ∀ dep ∈ deps, ∀ g, s.state.lookup g = some 1 → Relation.TransGen (Next byId) g dep)
    (hfuel : (s.uncoloured byId).length < fuel) :
    visitDependencies? visit? deps m s = some (visitDependencies visit deps m s) ∧
      VisitedAll byId s deps m (visitDependencies visit deps m s) := by
  induction deps generalizing m s with
  | nil => exact ⟨rfl, .found m s hs (.refl s) le_rfl (by simp) (.inl rfl)⟩
  | cons dep deps ih =>
      obtain ⟨heq, hvisited⟩ := hvisit dep (List.mem_cons_self ..) s hs
        (hstack dep (List.mem_cons_self ..)) hfuel
      simp only [visitDependencies?, visitDependencies, heq]
      cases hr : visit dep s with
      | error e =>
          rw [hr] at hvisited
          cases hvisited with
          | cycle c hcycle => exact ⟨rfl, .cycle c hcycle⟩
      | ok r =>
          obtain ⟨d, s₁⟩ := r
          rw [hr] at hvisited
          cases hvisited with
          | found d s₁ hsound hkeeps hmemo =>
              obtain ⟨heq', hall⟩ := ih (m := max m d)
                (fun k hk => hvisit k (List.mem_cons_of_mem _ hk)) hsound
                (fun k hk g hg => hstack k (List.mem_cons_of_mem _ hk) g ((hkeeps.stack g).mp hg))
                (lt_of_le_of_lt hkeeps.uncoloured_le hfuel)
              refine ⟨heq', ?_⟩
              have hlongest := hsound.longest dep d hmemo
              dsimp only
              generalize visitDependencies visit deps (max m d) s₁ = rest at hall
              cases hall with
              | cycle c hcycle => exact .cycle c hcycle
              | found m' s' hsound' hkeeps' hle hbound hattained =>
                  obtain ⟨hm, hd⟩ := max_le_iff.mp hle
                  refine .found m' s' hsound' (hkeeps.trans hkeeps') hm ?_ ?_
                  · intro k hk
                    rcases List.mem_cons.mp hk with rfl | hk
                    · exact ⟨d, hlongest, hd⟩
                    · exact hbound k hk
                  · rcases hattained with hmax | ⟨k, hk, hlong⟩
                    · rcases max_choice m d with h | h
                      · exact .inl (hmax.trans h)
                      · rw [h] at hmax
                        exact .inr ⟨dep, List.mem_cons_self .., hmax ▸ hlongest⟩
                    · exact .inr ⟨k, List.mem_cons_of_mem _ hk, hlong⟩

/-- The node leaves the stack and enters the memo. -/
theorem visited_pop {s s₂ : Search} {id : String} {d : Nat} (hwhite : s.state.lookup id = none)
    (hsound : s₂.Sound byId)
    (hkeeps : Search.Keeps { s with state := s.state.insert id 1 } s₂)
    (hlongest : Longest (Next byId) id d) :
    Visited byId s id
      (.ok (d, { state := s₂.state.insert id 2, memo := s₂.memo.insert id d })) := by
  refine .found _ _ ⟨?_, ?_⟩ ⟨?_, ?_, ?_⟩ (by simp)
  · intro k v hk
    rcases Map.lookup_insert_eq_some.mp hk with ⟨rfl, rfl⟩ | ⟨-, hk⟩
    · exact hlongest
    · exact hsound.longest k v hk
  · intro k c hk hc
    dsimp only at hk ⊢
    rw [Map.lookup_insert_if] at hk ⊢
    split at hk
    · next hkid => exact ⟨d, if_pos hkid⟩
    · next hkid =>
        rw [if_neg hkid]
        exact hsound.finished k c hk hc
  · -- a depth that is there already is the same one
    intro k v hk
    have hk := hkeeps.memo k v hk
    dsimp only
    rw [Map.lookup_insert_if]
    split
    · next hkid =>
        subst hkid
        rw [hlongest.unique (hsound.longest k v hk)]
    · exact hk
  · intro k
    have hpushed := hkeeps.stack k
    dsimp only at hpushed ⊢
    rw [Map.lookup_insert_if] at hpushed ⊢
    split
    · next hkid =>
        subst hkid
        simp [hwhite]
    · next hkid => rwa [if_neg hkid] at hpushed
  · intro k hk
    have hcoloured := hkeeps.coloured k
    dsimp only at hk hcoloured
    rw [Map.lookup_insert_if] at hk hcoloured
    split at hk
    · cases hk
    · next hkid =>
        rw [if_neg hkid] at hcoloured
        exact hcoloured hk

/-- With more fuel than nodes without a colour, the search from a node of the index
ends, and it comes to ids of the index only. -/
theorem depthFirst_visited (hclosed : DependencyClosed byId) (fuel : Nat) : ∀ id, id ∈ byId →
    VisitsWell byId fuel id (depthFirst? byId fuel) (depthFirst byId fuel) := by
  induction fuel with
  | zero => intro id _ s _ _ hfuel; exact absurd hfuel (Nat.not_lt_zero _)
  | succ fuel ih =>
      intro id hid s hs hstack hfuel
      obtain ⟨n, hn⟩ := Map.mem_iff_lookup.mp hid
      have hdeps : dependenciesOf byId id = n.dependencies := by simp [dependenciesOf, hn]
      simp only [depthFirst?, depthFirst, hdeps, hn]
      cases hmemo : s.memo.lookup id with
      | some d => exact ⟨rfl, .found d s hs (.refl s) hmemo⟩
      | none =>
          dsimp only
          split_ifs with hgrey
          · -- the stack leads from the node back to it
            exact ⟨rfl, .cycle id (hstack id hgrey)⟩
          · have hwhite : s.state.lookup id = none := by
              cases hcolour : s.state.lookup id with
              | none => rfl
              | some c =>
                  obtain ⟨d, hd⟩ := hs.finished id c hcolour fun hc => hgrey (hc ▸ hcolour)
                  rw [hmemo] at hd
                  cases hd
            have hpush : Search.Sound byId { s with state := s.state.insert id 1 } := by
              refine ⟨hs.longest, fun k c hk hc => ?_⟩
              rcases Map.lookup_insert_eq_some.mp hk with ⟨-, rfl⟩ | ⟨-, hk⟩
              · exact absurd rfl hc
              · exact hs.finished k c hk hc
            have hnext : ∀ dep ∈ n.dependencies, Next byId id dep := fun dep hdep => by
              rw [Next, hdeps]
              exact hdep
            have hgreys : ∀ dep ∈ n.dependencies, ∀ g,
                (s.state.insert id 1).lookup g = some 1 →
                  Relation.TransGen (Next byId) g dep := by
              intro dep hdep g hg
              rcases Map.lookup_insert_eq_some.mp hg with ⟨rfl, -⟩ | ⟨-, hg⟩
              · exact .single (hnext dep hdep)
              · exact (hstack g hg).tail (hnext dep hdep)
            have hroom := uncoloured_push hid hwhite
            obtain ⟨heq, hall⟩ := visitDependencies_visited (m := 0)
              (fun dep hdep => ih dep (hclosed id dep hid (hnext dep hdep))) hpush hgreys
              (by omega)
            rw [heq]
            refine ⟨?_, ?_⟩
            · cases visitDependencies (depthFirst byId fuel) n.dependencies 0
                { s with state := s.state.insert id 1 } <;> rfl
            · generalize visitDependencies (depthFirst byId fuel) n.dependencies 0
                { s with state := s.state.insert id 1 } = r at hall
              cases hall with
              | cycle c hcycle => exact .cycle c hcycle
              | found m s₂ hsound hkeeps _ hbound hattained =>
                  refine visited_pop hwhite hsound hkeeps (Longest.of_next ?_ ?_)
                  · intro dep hdep
                    rw [Next, hdeps] at hdep
                    exact hbound dep hdep
                  · refine hattained.imp_right ?_
                    rintro ⟨dep, hdep, h⟩
                    exact ⟨dep, hnext dep hdep, h⟩

/-- The loop over the nodes ends. It has measured all of them, or there is a cycle or a
chain that is too long. -/
theorem checkDepths_measured (hclosed : DependencyClosed byId) {fuel : Nat}
    (hfuel : byId.keys.length < fuel) (nodes : List CandidateNode)
    (hnodes : ∀ n ∈ nodes, n.nodeId ∈ byId) {s : Search} (hs : s.Sound byId)
    (hstack : ∀ g, s.state.lookup g ≠ some 1) :
    checkDepths? byId fuel nodes s = some (checkDepths byId fuel nodes s) ∧
    (∀ s', checkDepths byId fuel nodes s = .ok s' → s'.Sound byId ∧ s.Keeps s' ∧
      ∀ n ∈ nodes, ∃ d, s'.memo.lookup n.nodeId = some d ∧ d ≤ maxDepth) ∧
    (∀ e, checkDepths byId fuel nodes s = .error e →
      (∃ c, Relation.TransGen (Next byId) c c) ∨
        ∃ n ∈ nodes, ∃ d, Longest (Next byId) n.nodeId d ∧ maxDepth < d) := by
  induction nodes generalizing s with
  | nil =>
      refine ⟨rfl, fun s' h => ?_, fun e h => by cases h⟩
      cases h
      exact ⟨hs, .refl s, by simp⟩
  | cons n nodes ih =>
      have hle : (s.uncoloured byId).length ≤ byId.keys.length := List.length_filter_le ..
      obtain ⟨heq, hvisited⟩ := depthFirst_visited hclosed fuel n.nodeId
        (hnodes n (List.mem_cons_self ..)) s hs (fun g hg => absurd hg (hstack g)) (by omega)
      simp only [checkDepths?, checkDepths, heq]
      generalize depthFirst byId fuel n.nodeId s = r at hvisited
      cases hvisited with
      | cycle c hcycle =>
          exact ⟨rfl, fun s' h => (by cases h), fun e _ => .inl ⟨c, hcycle⟩⟩
      | found d s₁ hsound hkeeps hmemo =>
          dsimp only
          split_ifs with hdeep
          · refine ⟨rfl, fun s' h => (by cases h), fun e _ => .inr ?_⟩
            exact ⟨n, List.mem_cons_self .., d, hsound.longest _ _ hmemo, hdeep⟩
          · obtain ⟨hrest, hok, herror⟩ := ih (fun k hk => hnodes k (List.mem_cons_of_mem _ hk))
              hsound fun g hg => hstack g ((hkeeps.stack g).mp hg)
            refine ⟨hrest, fun s' h => ?_, fun e h => ?_⟩
            · obtain ⟨hsound', hkeeps', hmeasured⟩ := hok s' h
              refine ⟨hsound', hkeeps.trans hkeeps', fun k hk => ?_⟩
              rcases List.mem_cons.mp hk with rfl | hk
              · exact ⟨d, hkeeps'.memo _ _ hmemo, not_lt.mp hdeep⟩
              · exact hmeasured k hk
            · rcases herror e h with hcycle | ⟨k, hk, hlong⟩
              · exact .inl hcycle
              · exact .inr ⟨k, List.mem_cons_of_mem _ hk, hlong⟩

theorem sound_empty : Search.Sound byId ⟨∅, ∅⟩ := ⟨by simp, by simp⟩

/-! ### The index and the checks of the nodes -/

/-- The index of these nodes. -/
structure IndexOf (nodes : List CandidateNode) (byId : Map String CandidateNode) : Prop where
  lookup : ∀ id n, byId.lookup id = some n ↔ n ∈ nodes ∧ n.nodeId = id

variable {nodes : List CandidateNode} {intent : WorkflowIntent} {now : UInt64}
  {n : CandidateNode}

theorem indexNodes_indexOf (h : indexNodes nodes ∅ = .ok byId) : IndexOf nodes byId := by
  obtain ⟨-, -, hin, hother⟩ := indexNodes_ok h
  refine ⟨fun id n => ⟨fun hlookup => ?_, ?_⟩⟩
  · by_cases hid : id ∈ nodes.map (·.nodeId)
    · obtain ⟨k, hk, rfl⟩ := List.mem_map.mp hid
      rw [hin k hk, Option.some.injEq] at hlookup
      exact hlookup ▸ ⟨hk, rfl⟩
    · rw [hother id hid, AList.lookup_empty] at hlookup
      cases hlookup
  · rintro ⟨hn, rfl⟩
    exact hin n hn

theorem exists_indexNodes {m : Map String CandidateNode} (hnodup : (nodes.map (·.nodeId)).Nodup)
    (hfresh : ∀ n ∈ nodes, n.nodeId ∉ m) : ∃ m', indexNodes nodes m = .ok m' := by
  induction nodes generalizing m with
  | nil => exact ⟨m, rfl⟩
  | cons n nodes ih =>
      rw [List.map_cons, List.nodup_cons] at hnodup
      simp only [indexNodes, if_neg (hfresh n (List.mem_cons_self ..))]
      refine ih hnodup.2 fun k hk hmem => ?_
      rcases AList.mem_insert _ |>.mp hmem with hkn | hmem
      · exact hnodup.1 (hkn ▸ List.mem_map_of_mem hk)
      · exact hfresh k (List.mem_cons_of_mem _ hk) hmem

theorem IndexOf.mem_iff (h : IndexOf nodes byId) {id : String} :
    id ∈ byId ↔ ∃ k ∈ nodes, k.nodeId = id := by
  rw [Map.mem_iff_lookup]
  exact exists_congr fun n => h.lookup id n

theorem IndexOf.next_iff (h : IndexOf nodes byId) {a b : String} :
    Next byId a b ↔ DependsOn nodes a b := by
  unfold Next dependenciesOf DependsOn
  constructor
  · intro hb
    cases hlookup : byId.lookup a with
    | none => simp [hlookup] at hb
    | some n =>
        rw [hlookup] at hb
        obtain ⟨hn, rfl⟩ := (h.lookup a n).mp hlookup
        exact ⟨n, hn, rfl, hb⟩
  · rintro ⟨n, hn, rfl, hb⟩
    rw [(h.lookup _ n).mpr ⟨hn, rfl⟩]
    exact hb

theorem checkDependencies_iff {node : String} {deps seen : List String} :
    checkDependencies byId node deps seen = .ok () ↔
      (∀ d ∈ deps, d ∈ byId) ∧ deps.Nodup ∧ ∀ d ∈ deps, d ∉ seen := by
  induction deps generalizing seen with
  | nil => simp [checkDependencies]
  | cons d deps ih =>
      simp only [checkDependencies]
      split_ifs with hd hseen
      · simp [hseen]
      · rw [ih, List.forall_mem_cons, List.forall_mem_cons, List.nodup_cons]
        simp only [List.mem_cons, not_or]
        constructor
        · rintro ⟨hknown, hnodup, hfresh⟩
          exact ⟨⟨hd, hknown⟩, ⟨fun hmem => (hfresh d hmem).1 rfl, hnodup⟩, hseen,
            fun k hk => (hfresh k hk).2⟩
        · rintro ⟨⟨-, hknown⟩, ⟨hnot, hnodup⟩, -, hfresh⟩
          exact ⟨hknown, hnodup, fun k hk => ⟨fun hkd => hnot (hkd ▸ hk), hfresh k hk⟩⟩
      · simp [hd]

theorem checkInputs_iff (h : IndexOf nodes byId) {inputs : List (String × String)} :
    checkInputs byId n inputs = .ok () ↔ ∀ i ∈ inputs, i.1 ∈ n.dependencies ∧
      ∃ k ∈ nodes, k.nodeId = i.1 ∧ i.2 ∈ k.outputNames := by
  induction inputs with
  | nil => simp [checkInputs]
  | cons i inputs ih =>
      obtain ⟨producer, output⟩ := i
      rw [List.forall_mem_cons, ← ih]
      simp only [checkInputs]
      cases hlookup : byId.lookup producer with
      | none =>
          refine iff_of_false (fun h => by cases h) fun ⟨⟨_, k, hk, hid, _⟩, _⟩ => ?_
          rw [(h.lookup producer k).mpr ⟨hk, hid⟩] at hlookup
          cases hlookup
      | some p =>
          have hp := (h.lookup producer p).mp hlookup
          have hone : (∃ k ∈ nodes, k.nodeId = producer ∧ output ∈ k.outputNames) ↔
              output ∈ p.outputNames := by
            constructor
            · rintro ⟨k, hk, hid, hout⟩
              rw [(h.lookup producer k).mpr ⟨hk, hid⟩, Option.some.injEq] at hlookup
              exact hlookup ▸ hout
            · exact fun hout => ⟨p, hp.1, hp.2, hout⟩
          dsimp only
          rw [hone]
          split_ifs with hout hdep
          · simp [hout, hdep]
          · simp [hdep]
          · simp [hout]

theorem checkNode_iff (h : IndexOf nodes byId) :
    checkNode byId intent now n = .ok () ↔ NodeContract nodes intent now n := by
  have hdependencies : checkDependencies byId n.nodeId n.dependencies [] = .ok default ↔ _ :=
    checkDependencies_iff
  simp only [checkNode, bind_eq_ok, ensure_eq_ok, Unique.exists_iff, hdependencies,
    checkInputs_iff h, Catalog.unknown_eq_nil, h.mem_iff]
  have hdeadline : (¬ (0 < n.deadlineNs ∧ n.deadlineNs ≤ now) ∧
      ¬ (0 < n.deadlineNs ∧ 0 < intent.deadlineNs ∧ intent.deadlineNs < n.deadlineNs)) ↔
      (n.deadlineNs ≠ 0 →
        now < n.deadlineNs ∧ (intent.deadlineNs ≠ 0 → n.deadlineNs ≤ intent.deadlineNs)) := by
    simp only [← UInt64.pos_iff_ne_zero, ← UInt64.not_lt]
    constructor
    · rintro ⟨hpast, hlate⟩ hset
      exact ⟨not_not.mp fun h => hpast ⟨hset, h⟩, fun hlimit h => hlate ⟨hset, hlimit, h⟩⟩
    · exact fun h => ⟨fun hpast => hpast.2 (h hpast.1).1,
        fun hlate => (h hlate.1).2 hlate.2.1 hlate.2.2⟩
  constructor
  · rintro ⟨hcaps, hpriority, hattempts, hbytes, hkind, hpast, hlate, ⟨hknown, hnodup, -⟩, hfan,
      hinputs⟩
    exact ⟨hcaps, hpriority, hattempts, hbytes, hkind, hdeadline.mp ⟨hpast, hlate⟩, hknown, hnodup,
      hfan, hinputs⟩
  · intro hn
    obtain ⟨hpast, hlate⟩ := hdeadline.mpr hn.deadline
    exact ⟨hn.capabilities, hn.priority, hn.attempts, hn.outputBytes, hn.kind, hpast, hlate,
      ⟨hn.known, hn.distinct, by simp⟩, hn.dependencies, hn.inputs⟩

/-- The saturating sum is the exact one cut off. -/
theorem foldl_addTokens {total : Nat} (nodes : List CandidateNode) (htotal : total ≤ u64Max) :
    nodes.foldl addTokens total =
      min (total + (nodes.map fun n => n.maxTokens.toNat * n.maxAttempts.toNat).sum) u64Max := by
  induction nodes generalizing total with
  | nil => simpa using htotal
  | cons n nodes ih =>
      have hnext : addTokens total n ≤ u64Max := min_le_right _ _
      rw [List.foldl_cons, ih hnext, List.map_cons, List.sum_cons]
      unfold addTokens
      omega

theorem checkNodes_iff (h : IndexOf nodes byId) {ns : List CandidateNode} {total total' : Nat} :
    checkNodes byId intent now ns total = .ok total' ↔
      (∀ n ∈ ns, NodeContract nodes intent now n) ∧ total' = ns.foldl addTokens total := by
  induction ns generalizing total with
  | nil => simp [checkNodes, eq_comm]
  | cons n ns ih =>
      have hn : checkNode byId intent now n = .ok default ↔ _ := checkNode_iff h
      simp only [checkNodes, bind_eq_ok, Unique.exists_iff, hn, ih, List.forall_mem_cons,
        List.foldl_cons, and_assoc]

/-! ### The validator and the contract -/

theorem closed_of_contracts (h : IndexOf nodes byId)
    (hnodes : ∀ n ∈ nodes, NodeContract nodes intent now n) : DependencyClosed byId := by
  intro id d _ hd
  obtain ⟨n, hn, -, hdep⟩ := h.next_iff.mp hd
  exact h.mem_iff.mpr ((hnodes n hn).known d hdep)

theorem IndexOf.next_eq (h : IndexOf nodes byId) : Next byId = DependsOn nodes :=
  funext fun _ => funext fun _ => propext h.next_iff

theorem IndexOf.length_keys_le (h : IndexOf nodes byId) : byId.keys.length ≤ nodes.length := by
  have hsub : byId.keys ⊆ nodes.map (·.nodeId) := by
    intro id hid
    obtain ⟨k, hk, rfl⟩ := h.mem_iff.mp (AList.mem_keys.mpr hid)
    exact List.mem_map_of_mem hk
  simpa using (List.subperm_of_subset byId.keys_nodup hsub).length_le

/-- Where every node has a longest chain that is short, nothing else has a long one or a
cycle. -/
theorem acyclic_and_short (h : ∀ n ∈ nodes, ∃ d, Longest (DependsOn nodes) n.nodeId d ∧ d ≤ 16) :
    (∀ id, ¬ Relation.TransGen (DependsOn nodes) id id) ∧
      ∀ chain : List String, chain.IsChain (DependsOn nodes) → chain.length ≤ 16 := by
  constructor
  · intro id hcycle
    obtain ⟨b, ⟨n, hn, rfl, -⟩, -⟩ := Relation.TransGen.head'_iff.mp hcycle
    obtain ⟨d, hd, -⟩ := h n hn
    exact hd.not_cyclic hcycle
  · intro chain hchain
    cases chain with
    | nil => exact Nat.zero_le _
    | cons a rest =>
        cases rest with
        | nil => exact Nat.le_add_left 1 15
        | cons b rest =>
            obtain ⟨⟨n, hn, rfl, -⟩, -⟩ := List.isChain_cons_cons.mp hchain
            obtain ⟨d, hd, hle⟩ := h n hn
            exact (hd.bounded _ hchain).trans hle

/-- The search accepts exactly the acyclic graphs with short chains. -/
theorem checkDepths_ok_iff (h : IndexOf nodes byId)
    (hnodes : ∀ n ∈ nodes, NodeContract nodes intent now n) :
    (∃ s, checkDepths byId (nodes.length + 1) nodes ⟨∅, ∅⟩ = .ok s) ↔
      (∀ id, ¬ Relation.TransGen (DependsOn nodes) id id) ∧
        ∀ chain : List String, chain.IsChain (DependsOn nodes) → chain.length ≤ 16 := by
  have hkeys := h.length_keys_le
  obtain ⟨-, hok, herror⟩ := checkDepths_measured (closed_of_contracts h hnodes)
    (Nat.lt_succ_of_le hkeys) nodes (fun n hn => h.mem_iff.mpr ⟨n, hn, rfl⟩) sound_empty
    (by simp)
  constructor
  · rintro ⟨s, hs⟩
    obtain ⟨hsound, -, hmeasured⟩ := hok s hs
    refine acyclic_and_short fun n hn => ?_
    obtain ⟨d, hd, hle⟩ := hmeasured n hn
    exact ⟨d, h.next_eq ▸ hsound.longest _ _ hd, hle⟩
  · rintro ⟨hacyclic, hshort⟩
    cases hr : checkDepths byId (nodes.length + 1) nodes ⟨∅, ∅⟩ with
    | ok s => exact ⟨s, rfl⟩
    | error e =>
        rcases herror e hr with ⟨c, hc⟩ | ⟨n, -, d, hd, hlt⟩
        · rw [h.next_eq] at hc
          exact absurd hc (hacyclic c)
        · rw [h.next_eq] at hd
          obtain ⟨l, hl, rfl⟩ := hd.attained
          exact absurd (hshort _ hl) (not_le.mpr hlt)

theorem validateCandidate_iff {cand : PlanCandidate} :
    validateCandidate cand intent now = .ok () ↔ PlanContract cand intent now := by
  have hmax := maxTokens_lt_u64Max intent
  have hplanner : cand.plannerTokens.toNat ≤ u64Max := by
    have := cand.plannerTokens.toNat_lt
    unfold u64Max
    omega
  have hbudget : cand.nodes.foldl addTokens cand.plannerTokens.toNat ≤ intent.maxTokens.toNat ↔
      cand.tokens ≤ intent.maxTokens.toNat := by
    rw [foldl_addTokens _ hplanner]
    unfold PlanCandidate.tokens
    omega
  simp only [validateCandidate, bind_eq_ok, ensure_eq_ok, Unique.exists_iff]
  constructor
  · rintro ⟨hne, hlen, byId, hindex, total, hnodes, htokens, s, hdepths, -⟩
    have h := indexNodes_indexOf hindex
    obtain ⟨hcontracts, rfl⟩ := (checkNodes_iff h).mp hnodes
    obtain ⟨hacyclic, hshort⟩ := (checkDepths_ok_iff h hcontracts).mp ⟨s, hdepths⟩
    exact ⟨⟨List.length_pos_iff.mpr hne, hlen⟩, (indexNodes_ok hindex).1, hcontracts,
      hbudget.mp htokens, hacyclic, hshort⟩
  · intro hc
    obtain ⟨byId, hindex⟩ := exists_indexNodes (m := ∅) hc.distinct (by simp)
    have h := indexNodes_indexOf hindex
    obtain ⟨s, hs⟩ := (checkDepths_ok_iff h hc.nodes).mpr ⟨hc.acyclic, hc.depth⟩
    exact ⟨List.length_pos_iff.mp hc.count.1, hc.count.2, byId, hindex, _,
      (checkNodes_iff h).mpr ⟨hc.nodes, rfl⟩, hbudget.mpr hc.tokens, s, hs, rfl⟩

/-- The validator accepts exactly what the contract allows. Once the nodes are checked, the
planner's tokens are part of the total, the search ends without coming to an unknown id,
and after each part of the loop the memo has the nodes seen so far, each with the number
of nodes of the longest chain that ends there. -/
theorem validateCandidate_contract (cand : PlanCandidate) (intent : WorkflowIntent)
    (now : UInt64) :
    (validateCandidate cand intent now = .ok () ↔ PlanContract cand intent now) ∧
    ∀ (byId : Map String CandidateNode) (total : Nat), indexNodes cand.nodes ∅ = .ok byId →
      checkNodes byId intent now cand.nodes cand.plannerTokens.toNat = .ok total →
        cand.plannerTokens.toNat ≤ total ∧
        checkDepths? byId (cand.nodes.length + 1) cand.nodes ⟨∅, ∅⟩ =
          some (checkDepths byId (cand.nodes.length + 1) cand.nodes ⟨∅, ∅⟩) ∧
        ∀ (before after : List CandidateNode) (s : Search), cand.nodes = before ++ after →
          checkDepths byId (cand.nodes.length + 1) before ⟨∅, ∅⟩ = .ok s →
            (∀ n ∈ before, ∃ d, s.memo.lookup n.nodeId = some d) ∧
            ∀ id d, s.memo.lookup id = some d → Longest (DependsOn cand.nodes) id d := by
  refine ⟨validateCandidate_iff, fun byId total hindex hnodes => ?_⟩
  have h := indexNodes_indexOf hindex
  obtain ⟨hcontracts, htotal⟩ := (checkNodes_iff h).mp hnodes
  have hclosed := closed_of_contracts h hcontracts
  have hkeys := h.length_keys_le
  have hknown : ∀ n ∈ cand.nodes, n.nodeId ∈ byId := fun n hn => h.mem_iff.mpr ⟨n, hn, rfl⟩
  refine ⟨?_, ?_, ?_⟩
  · have hplanner := cand.plannerTokens.toNat_lt
    rw [htotal, foldl_addTokens]
    · unfold u64Max
      omega
    · unfold u64Max
      omega
  · exact (checkDepths_measured hclosed (by omega) _ hknown sound_empty (by simp)).1
  · intro before after s hcut hs
    obtain ⟨-, hok, -⟩ := checkDepths_measured hclosed (Nat.lt_succ_of_le hkeys) before
      (fun n hn => hknown n (hcut ▸ List.mem_append_left _ hn)) sound_empty (by simp)
    obtain ⟨hsound, -, hmeasured⟩ := hok s hs
    refine ⟨fun n hn => ?_, fun id d hd => h.next_eq ▸ hsound.longest id d hd⟩
    obtain ⟨d, hd, -⟩ := hmeasured n hn
    exact ⟨d, hd⟩

/-! ### Fan-out -/

/-- The other nodes that list `id` as a dependency. -/
def dependents (nodes : List CandidateNode) (id : String) : List CandidateNode :=
  nodes.filter fun n => n.nodeId ≠ id ∧ id ∈ n.dependencies

/-- A node is not among its own dependents. -/
theorem dependents_lt {k : CandidateNode} (hk : k ∈ nodes) :
    (dependents nodes k.nodeId).length < nodes.length := by
  refine List.length_filter_lt_length_iff_exists.mpr ⟨k, hk, ?_⟩
  simp

/-- An accepted plan keeps the fan-out in both directions unless it meets the contract with
more than eight nodes that depend on one. With nine nodes or fewer there are none such. -/
theorem fanOut_iff (cand : PlanCandidate) (intent : WorkflowIntent) (now : UInt64) :
    ((validateCandidate cand intent now = .ok () → ∀ k ∈ cand.nodes,
        k.dependencies.length ≤ maxFanout ∧
          (dependents cand.nodes k.nodeId).length ≤ maxFanout) ↔
      ¬ (PlanContract cand intent now ∧
        ∃ k ∈ cand.nodes, maxFanout < (dependents cand.nodes k.nodeId).length)) ∧
    (cand.nodes.length ≤ 9 →
      ¬ ∃ k ∈ cand.nodes, maxFanout < (dependents cand.nodes k.nodeId).length) := by
  refine ⟨⟨?_, ?_⟩, ?_⟩
  · rintro h ⟨hcontract, k, hk, hwide⟩
    exact absurd (h (validateCandidate_iff.mpr hcontract) k hk).2 (not_le.mpr hwide)
  · intro h hok k hk
    have hcontract := validateCandidate_iff.mp hok
    refine ⟨(hcontract.nodes k hk).dependencies, ?_⟩
    by_contra hwide
    exact h ⟨hcontract, k, hk, not_le.mp hwide⟩
  · rintro hfew ⟨k, hk, hwide⟩
    have hlt := dependents_lt hk
    unfold maxFanout at hwide
    omega

/-- A node of 100 tokens. -/
def nodeOf (nodeId : String) (dependencies : List String) : CandidateNode where
  nodeId := nodeId
  kind := .inference
  requiredCapabilities := []
  modelId := "qwen"
  targetAgentId := ""
  promptTemplate := "resuma"
  dependencies := dependencies
  outputNames := []
  inputs := []
  maxAttempts := 1
  maxTokens := 100
  maxOutputBytes := 1024
  deadlineNs := 0
  priority := 5
  sideEffectKey := ""

/-- Nine nodes that depend on the first. -/
def widePlan : PlanCandidate where
  plannerId := "planner"
  plannerRevision := "1"
  plannerTokens := 0
  nodes := nodeOf "a" [] ::
    ["b", "c", "d", "e", "f", "g", "h", "i", "j"].map fun id => nodeOf id ["a"]

theorem widePlan_accepted :
    validateCandidate widePlan Deployment.intent 10 = .ok () ∧
      (dependents widePlan.nodes "a").length = 9 := by
  decide +kernel

end DdsOrchestrator.WorkflowEngine
