import DdsOrchestrator.ControlPanel.Supervisor

/-!
What the supervisor keeps over any sequence of its operations, with processes that end when they
like. A process that is alive is the child of the entry of its service, unless the supervisor
has given it up, so no service ever runs twice and none runs that the supervisor does not know
of.
-/

namespace DdsOrchestrator.ControlPanel.Supervisor

open Machine

structure Inv (gone : List ℕ) (s : Supervisor) : Prop where
  held : ∀ (pid : ℕ) (q : OsProcess), s.os[pid]? = some q → q.alive = true → pid ∉ gone →
    ∃ p, s.processes.lookup q.service = some p ∧ p.child = some pid
  child : ∀ (n : String) (p : ManagedProcess) (pid : ℕ), s.processes.lookup n = some p →
    p.child = some pid → pid ∉ gone ∧ ∃ q, s.os[pid]? = some q ∧ q.service = n
  name : ∀ (n : String) (p : ManagedProcess), s.processes.lookup n = some p → p.name = n
  old : ∀ pid ∈ gone, pid < s.os.length

theorem inv_new (vars : List (String × String)) : Inv [] (new vars) where
  held := fun pid q hpid => by simp [new] at hpid
  child := fun n p pid hp => by simp [new] at hp
  name := fun n p hp => by simp [new] at hp
  old := fun pid hpid => by cases hpid

variable {s : Supervisor} {gone gs : List ℕ} {os os' : List OsProcess}
variable {p p' : ManagedProcess} {n : String} {a : Answers}

/-! ### Processes end and do not come back -/

/-- Every process is still in the table, and none has come back to life. -/
structure Aged (os os' : List OsProcess) : Prop where
  length : os'.length = os.length
  stays : ∀ (i : ℕ) (q : OsProcess), os[i]? = some q →
    ∃ q', os'[i]? = some q' ∧ q'.service = q.service ∧ (q'.alive = true → q.alive = true)

theorem Aged.refl (os : List OsProcess) : Aged os os where
  length := rfl
  stays := fun _ q hq => ⟨q, hq, rfl, id⟩

theorem Aged.before (h : Aged os os') {i : ℕ} {q' : OsProcess} (hq : os'[i]? = some q') :
    ∃ q, os[i]? = some q ∧ q'.service = q.service ∧ (q'.alive = true → q.alive = true) := by
  have hlt : i < os.length := h.length ▸ (List.getElem?_eq_some_iff.mp hq).1
  obtain ⟨r, hr, hservice, halive⟩ := h.stays i os[i] (List.getElem?_eq_getElem hlt)
  obtain rfl : r = q' := Option.some.inj (hr.symm.trans hq)
  exact ⟨os[i], List.getElem?_eq_getElem hlt, hservice, halive⟩

theorem aged_set {pid : ℕ} {q : OsProcess} (hq : os[pid]? = some q) (code : Option ℤ) :
    Aged os (os.set pid { q with alive := false, exitCode := code }) where
  length := List.length_set
  stays := by
    intro i r hr
    rw [List.getElem?_set]
    by_cases hi : pid = i
    · subst hi
      obtain rfl : q = r := Option.some.inj (hq.symm.trans hr)
      rw [if_pos rfl, if_pos (List.getElem?_eq_some_iff.mp hq).1]
      exact ⟨_, rfl, rfl, fun h => by cases h⟩
    · rw [if_neg hi]
      exact ⟨r, hr, rfl, id⟩

theorem aged_kill (a : Answers) (pid : ℕ) (os : List OsProcess) :
    Aged os (ManagedProcess.kill a pid os) := by
  unfold ManagedProcess.kill
  split
  next code q _ hq =>
    split
    · exact aged_set hq code
    · exact .refl os
  next => exact .refl os

/-- What is killed and is going to end is dead. -/
theorem dead_of_kill {pid : ℕ} {q : OsProcess} (hdies : a.dies.isSome = true)
    (hq : (ManagedProcess.kill a pid os)[pid]? = some q) : q.alive = false := by
  obtain ⟨code, hcode⟩ := Option.isSome_iff_exists.mp hdies
  unfold ManagedProcess.kill at hq
  rw [hcode] at hq
  cases hpid : os[pid]? with
  | none => simp [hpid] at hq
  | some r =>
      cases halive : r.alive with
      | false =>
          simp only [hpid, halive, if_false, Bool.false_eq_true] at hq
          rw [← Option.some.inj hq]
          exact halive
      | true =>
          have hlt : pid < os.length := (List.getElem?_eq_some_iff.mp hpid).1
          simp only [hpid, halive, if_true, List.getElem?_set_self hlt] at hq
          rw [← Option.some.inj hq]

/-! ### One entry -/

/-- What an operation does with the entry of a service short of starting a process: processes
have aged, and the entry keeps its child or lets it go. A child that is let go alive is among
those given up. -/
structure Visited (p : ManagedProcess) (os : List OsProcess) (p' : ManagedProcess)
    (os' : List OsProcess) (gs : List ℕ) : Prop where
  name : p'.name = p.name
  aged : Aged os os'
  child : p'.child = p.child ∧ gs = [] ∨ p'.child = none ∧ gs ⊆ p.child.toList
  letGo : ∀ (pid : ℕ) (q : OsProcess), p.child = some pid → p'.child = none →
    os'[pid]? = some q → q.alive = true → pid ∈ gs

theorem visited_self (os : List OsProcess) (p : ManagedProcess) : Visited p os p os [] where
  name := rfl
  aged := .refl os
  child := .inl ⟨rfl, rfl⟩
  letGo := fun pid q hsome hnone _ _ => absurd (hsome.symm.trans hnone) (by simp)

theorem visited_refresh (a : Answers) (os : List OsProcess) (p : ManagedProcess) :
    Visited p os (p.refresh a os) os (if a.waits then [] else p.child.toList) := by
  rcases Option.eq_none_or_eq_some p.child with hchild | ⟨pid, hchild⟩
  · have hstay : p.refresh a os = p := by simp [ManagedProcess.refresh, hchild]
    rw [hstay, hchild]
    simpa using visited_self os p
  · cases hwaits : a.waits with
    | false =>
        have hgone : p.refresh a os = { p with child := none } := by
          simp [ManagedProcess.refresh, hchild, hwaits]
        rw [hgone]
        refine ⟨rfl, .refl os, .inr ⟨rfl, by simp⟩, fun i q hi _ _ _ => ?_⟩
        simp [hi]
    | true =>
        rw [if_pos rfl]
        cases hpid : os[pid]? with
        | none =>
            have hstay : p.refresh a os = p := by
              simp [ManagedProcess.refresh, hchild, hwaits, hpid]
            rw [hstay]
            exact visited_self os p
        | some q =>
            cases halive : q.alive with
            | true =>
                have hstay : p.refresh a os = p := by
                  simp [ManagedProcess.refresh, hchild, hwaits, hpid, halive]
                rw [hstay]
                exact visited_self os p
            | false =>
                have hended : p.refresh a os =
                    { p with child := none, exitCode := q.exitCode } := by
                  simp [ManagedProcess.refresh, hchild, hwaits, hpid, halive]
                rw [hended]
                refine ⟨rfl, .refl os, .inr ⟨rfl, by simp⟩, fun i r hi _ hr hlive => ?_⟩
                obtain rfl : pid = i := Option.some.inj (hchild.symm.trans hi)
                obtain rfl : q = r := Option.some.inj (hpid.symm.trans hr)
                rw [halive] at hlive
                cases hlive

theorem child_stop (a : Answers) (os : List OsProcess) (p : ManagedProcess) :
    (p.stop a os).1.child = none := by
  unfold ManagedProcess.stop
  split
  next h => exact h
  next => split <;> first | (split <;> rfl) | rfl

theorem visited_stop (a : Answers) (os : List OsProcess) (p : ManagedProcess) :
    Visited p os (p.stop a os).1 (p.stop a os).2
      (if a.dies.isSome then [] else p.child.toList) := by
  have hnone := child_stop a os p
  rcases Option.eq_none_or_eq_some p.child with hchild | ⟨pid, hchild⟩
  · have hstop : p.stop a os = (p, os) := by simp [ManagedProcess.stop, hchild]
    rw [hstop, hchild]
    simpa using visited_self os p
  · have hos : (p.stop a os).2 = ManagedProcess.kill a pid os := by
      simp only [ManagedProcess.stop, hchild]
      split <;> first | (split <;> rfl) | rfl
    have hname : (p.stop a os).1.name = p.name := by
      simp only [ManagedProcess.stop, hchild]
      split <;> first | (split <;> rfl) | rfl
    refine ⟨hname, hos ▸ aged_kill a pid os, .inr ⟨hnone, ?_⟩, fun i q hi _ hq hlive => ?_⟩
    · split <;> simp
    · obtain rfl : pid = i := Option.some.inj (hchild.symm.trans hi)
      cases hdies : a.dies.isSome with
      | false => simp [hchild]
      | true =>
          rw [dead_of_kill hdies (hos ▸ hq)] at hlive
          cases hlive

/-- The entry has been visited and is put back. -/
theorem Inv.set (h : Inv gone s) (hp : s.processes.lookup n = some p)
    (hvisit : Visited p s.os p' os' gs) : Inv (gone ++ gs) (s.set n p' os') := by
  obtain ⟨hname, haged, hchild, hletGo⟩ := hvisit
  have hlookup : ∀ m, (s.set n p' os').processes.lookup m =
      if m = n then some p' else s.processes.lookup m :=
    fun m => Map.lookup_insert_if s.processes m n p'
  refine ⟨fun pid q' hq' halive hpid => ?_, fun m r pid hr hrc => ?_, fun m r hr => ?_,
    fun pid hpid => ?_⟩
  · obtain ⟨q, hq, hservice, hbefore⟩ := haged.before hq'
    obtain ⟨r, hr, hrc⟩ := h.held pid q hq (hbefore halive)
      fun hgone => hpid (List.mem_append_left _ hgone)
    rw [hservice, hlookup]
    by_cases hn : q.service = n
    · rw [if_pos hn]
      rw [hn, hp] at hr
      obtain rfl := Option.some.inj hr
      refine ⟨p', rfl, ?_⟩
      rcases hchild with ⟨hsame, -⟩ | ⟨hnone, -⟩
      · exact hsame.trans hrc
      · exact absurd (List.mem_append_right _ (hletGo pid q' hrc hnone hq' halive)) hpid
    · rw [if_neg hn]
      exact ⟨r, hr, hrc⟩
  · rw [hlookup] at hr
    by_cases hm : m = n
    · rw [if_pos hm] at hr
      obtain rfl := Option.some.inj hr
      rcases hchild with ⟨hsame, hnil⟩ | ⟨hnone, -⟩
      · obtain ⟨hfresh, q, hq, hservice⟩ := h.child n p pid hp (hsame.symm.trans hrc)
        obtain ⟨q', hq', hservice', -⟩ := haged.stays pid q hq
        exact ⟨by simpa [hnil] using hfresh, q', hq', by rw [hservice', hservice, hm]⟩
      · rw [hnone] at hrc
        cases hrc
    · rw [if_neg hm] at hr
      obtain ⟨hfresh, q, hq, hservice⟩ := h.child m r pid hr hrc
      obtain ⟨q', hq', hservice', -⟩ := haged.stays pid q hq
      refine ⟨fun hmem => ?_, q', hq', hservice'.trans hservice⟩
      rcases List.mem_append.mp hmem with hgone | hgs
      · exact hfresh hgone
      · -- What the entry of `n` lets go is a process of `n`, and this is one of `m`.
        rcases hchild with ⟨-, hnil⟩ | ⟨-, hsub⟩
        · rw [hnil] at hgs
          cases hgs
        · have hpc : p.child = some pid := by simpa using hsub hgs
          obtain ⟨-, r', hr', hservice''⟩ := h.child n p pid hp hpc
          obtain rfl : q = r' := Option.some.inj (hq.symm.trans hr')
          exact hm (hservice.symm.trans hservice'')
  · rw [hlookup] at hr
    by_cases hm : m = n
    · rw [if_pos hm] at hr
      obtain rfl := Option.some.inj hr
      rw [hname, hm]
      exact h.name n p hp
    · rw [if_neg hm] at hr
      exact h.name m r hr
  · have hlength : (s.set n p' os').os.length = s.os.length := haged.length
    rw [hlength]
    rcases List.mem_append.mp hpid with hgone | hgs
    · exact h.old pid hgone
    · rcases hchild with ⟨-, hnil⟩ | ⟨-, hsub⟩
      · rw [hnil] at hgs
        cases hgs
      · obtain ⟨-, q, hq, -⟩ := h.child n p pid hp (by simpa using hsub hgs)
        exact (List.getElem?_eq_some_iff.mp hq).1

/-! ### A new process -/

/-- The process that a start spawns. -/
abbrev spawned (p : ManagedProcess) : OsProcess := ⟨p.name, p.command, p.cwd, p.env, true, none⟩

theorem start_cases (hchild : p.child = none) (a : Answers) (os : List OsProcess) :
    (∃ e, p.start a os = (.error e, p, os)) ∨
      p.start a os = (.ok (), { p with child := some os.length, started := true, exitCode := none },
        os ++ [spawned p]) := by
  have hrefresh : p.refresh a os = p := by simp [ManagedProcess.refresh, hchild]
  simp only [ManagedProcess.start, hrefresh, hchild, Option.isSome_none, Bool.false_eq_true,
    if_false]
  split
  · exact .inl ⟨_, rfl⟩
  · split
    · exact .inl ⟨_, rfl⟩
    · split
      · exact .inl ⟨_, rfl⟩
      · exact .inr rfl

/-- A service that has no child gets one. -/
theorem Inv.enter (h : Inv gone s) (hidle : ∀ r, s.processes.lookup n = some r → r.child = none)
    (hname : p.name = n) : Inv gone (s.set n
      { p with child := some s.os.length, started := true, exitCode := none }
      (s.os ++ [spawned p])) := by
  have hlookup : ∀ m r, (s.set n { p with
      child := some s.os.length, started := true, exitCode := none }
        (s.os ++ [spawned p])).processes.lookup m = some r ↔
      (m = n ∧ r = { p with child := some s.os.length, started := true, exitCode := none }) ∨
        (m ≠ n ∧ s.processes.lookup m = some r) :=
    fun m r => Map.lookup_insert_eq_some
  have hlast : ∀ (pid : ℕ) (q : OsProcess), (s.os ++ [spawned p])[pid]? = some q →
      s.os[pid]? = some q ∨ (pid = s.os.length ∧ q = spawned p) := by
    intro pid q hq
    rcases Nat.lt_trichotomy pid s.os.length with hlt | rfl | hgt
    · exact .inl (by rwa [List.getElem?_append_left hlt] at hq)
    · rw [List.getElem?_concat_length] at hq
      exact .inr ⟨rfl, (Option.some.inj hq).symm⟩
    · rw [List.getElem?_eq_none (by simp; omega)] at hq
      cases hq
  have hkept : ∀ (pid : ℕ) (q : OsProcess), s.os[pid]? = some q →
      (s.os ++ [spawned p])[pid]? = some q := by
    intro pid q hq
    rwa [List.getElem?_append_left (List.getElem?_eq_some_iff.mp hq).1]
  refine ⟨fun pid q hq halive hpid => ?_, fun m r pid hr hrc => ?_, fun m r hr => ?_,
    fun pid hpid => ?_⟩
  · rcases hlast pid q hq with hold | ⟨rfl, rfl⟩
    · obtain ⟨r, hr, hrc⟩ := h.held pid q hold halive hpid
      have hne : q.service ≠ n := by
        rintro rfl
        rw [hidle r hr] at hrc
        cases hrc
      exact ⟨r, (hlookup _ _).mpr (.inr ⟨hne, hr⟩), hrc⟩
    · exact ⟨_, (hlookup _ _).mpr (.inl ⟨hname, rfl⟩), rfl⟩
  · rcases (hlookup m r).mp hr with ⟨rfl, rfl⟩ | ⟨-, hr⟩
    · obtain rfl : s.os.length = pid := Option.some.inj hrc
      exact ⟨fun hmem => Nat.lt_irrefl _ (h.old _ hmem), spawned p,
        List.getElem?_concat_length, hname⟩
    · obtain ⟨hfresh, q, hq, hservice⟩ := h.child m r pid hr hrc
      exact ⟨hfresh, q, hkept pid q hq, hservice⟩
  · rcases (hlookup m r).mp hr with ⟨rfl, rfl⟩ | ⟨-, hr⟩
    · exact hname
    · exact h.name m r hr
  · have hlength : (s.os ++ [spawned p]).length = s.os.length + 1 := by simp
    exact Nat.lt_of_lt_of_eq (Nat.lt_succ_of_lt (h.old pid hpid)) hlength.symm

theorem Inv.launch (h : Inv gone s) (d : ServiceDefinition)
    (hidle : ∀ r, s.processes.lookup d.name = some r → r.child = none)
    (overrides : List (String × OverrideValue)) (a : Answers) :
    Inv gone (s.launch d overrides a).2 := by
  rw [Supervisor.launch]
  rcases start_cases (p := .new d.name (d.buildCommand overrides) d.cwd (s.vars ++ d.env)) rfl a
    s.os with ⟨e, hstart⟩ | hstart
  · rw [hstart]
    exact h
  · rw [hstart]
    exact h.enter hidle rfl

/-! ### Steps -/

theorem childOf_of_lookup (hp : s.processes.lookup n = some p) :
    s.childOf n = p.child.toList := by
  rw [childOf, hp, Option.bind_some]

theorem childOf_of_none (hp : s.processes.lookup n = none) : s.childOf n = [] := by
  rw [childOf, hp]
  rfl

theorem Inv.refreshed (h : Inv gone s) (hp : s.processes.lookup n = some p)
    (a : String → Answers) :
    Inv (gone ++ s.unasked a n) (s.set n (p.refresh (a n) s.os) s.os) := by
  rw [unasked, childOf_of_lookup hp]
  exact h.set hp (visited_refresh (a n) s.os p)

theorem Inv.stopped (h : Inv gone s) (hp : s.processes.lookup n = some p)
    (a : String → Answers) :
    Inv (gone ++ s.unstopped a n) (s.set n (p.stop (a n) s.os).1 (p.stop (a n) s.os).2) := by
  rw [unstopped, childOf_of_lookup hp]
  exact h.set hp (visited_stop (a n) s.os p)

theorem Inv.status (h : Inv gone s) (a : String → Answers) (n : String) :
    Inv (gone ++ s.unasked a n) (s.status n (a n)).2 := by
  rw [Supervisor.status]
  cases hp : s.processes.lookup n with
  | some p => exact h.refreshed hp a
  | none => simpa [unasked, childOf_of_none hp] using h

theorem Inv.stop (h : Inv gone s) (a : String → Answers) (n : String) :
    Inv (gone ++ s.unstopped a n) (s.stopService n (a n)).2 := by
  rw [Supervisor.stopService]
  cases hp : s.processes.lookup n with
  | some p => exact h.stopped hp a
  | none => simpa [unstopped, childOf_of_none hp] using h

theorem Inv.start (h : Inv gone s) (d : ServiceDefinition)
    (overrides : List (String × OverrideValue)) (a : Answers) :
    Inv (gone ++ s.unasked (fun _ => a) d.name) (s.startService d overrides a).2 := by
  rw [startService]
  cases hp : s.processes.lookup d.name with
  | none =>
      have hlaunch := h.launch d (fun r hr => by rw [hp] at hr; cases hr) overrides a
      simpa [unasked, childOf_of_none hp] using hlaunch
  | some p =>
      have hvisit := h.refreshed hp fun _ => a
      cases hc : (p.refresh a s.os).child with
      | some pid => simpa [hc] using hvisit
      | none =>
          have hidle : ∀ r,
              (s.set d.name (p.refresh a s.os) s.os).processes.lookup d.name = some r →
                r.child = none := by
            intro r hr
            rw [Supervisor.set, AList.lookup_insert] at hr
            rw [← Option.some.inj hr]
            exact hc
          simpa [hc] using hvisit.launch d hidle overrides a

theorem Inv.restart (h : Inv gone s) (n : String) (a : Answers) :
    Inv (gone ++ s.unstopped (fun _ => a) n) (s.restartService n a).2 := by
  rw [restartService]
  cases hp : s.processes.lookup n with
  | none => simpa [unstopped, childOf_of_none hp] using h
  | some p =>
      have hvisit := h.stopped hp fun _ => a
      have hnone := child_stop a s.os p
      have hidle : ∀ r, (s.set n (p.stop a s.os).1 (p.stop a s.os).2).processes.lookup n = some r →
          r.child = none := by
        intro r hr
        rw [Supervisor.set, AList.lookup_insert] at hr
        rw [← Option.some.inj hr]
        exact hnone
      have hname : (p.stop a s.os).1.name = n :=
        (visited_stop a s.os p).name.trans (h.name n p hp)
      dsimp only
      rw [ManagedProcess.restart]
      rcases start_cases hnone a (p.stop a s.os).2 with ⟨e, hstart⟩ | hstart
      · rw [hstart]
        exact hvisit
      · rw [hstart]
        have henter := hvisit.enter hidle hname
        rwa [Supervisor.set, Supervisor.set, AList.insert_insert] at henter

/-- Visiting several entries one after the other. -/
theorem Inv.forEach {visit : Supervisor → String → Supervisor}
    {giveUp : Supervisor → String → List ℕ}
    (hvisit : ∀ gone s n, Inv gone s → Inv (gone ++ giveUp s n) (visit s n)) (names : List String)
    (h : Inv gone s) : Inv (gone ++ trace visit giveUp s names) (names.foldl visit s) := by
  induction names generalizing gone s with
  | nil => simpa [trace] using h
  | cons n names ih =>
      have hrest := ih (hvisit gone s n h)
      rwa [List.append_assoc] at hrest

theorem Inv.exits (h : Inv gone s) (pid : ℕ) (code : Option ℤ) :
    Inv gone (step s (.exits pid code)) := by
  dsimp only [step]
  split
  next q hq =>
    split
    · have haged := aged_set hq code
      refine ⟨fun i r hr halive hi => ?_, fun n p i hp hc => ?_, h.name, fun i hi => ?_⟩
      · obtain ⟨r₀, hr₀, hservice, hbefore⟩ := haged.before hr
        rw [hservice]
        exact h.held i r₀ hr₀ (hbefore halive) hi
      · obtain ⟨hfresh, r, hr, hservice⟩ := h.child n p i hp hc
        obtain ⟨r', hr', hservice', -⟩ := haged.stays i r hr
        exact ⟨hfresh, r', hr', hservice'.trans hservice⟩
      · exact Nat.lt_of_lt_of_eq (h.old i hi) haged.length.symm
    · exact h
  next => exact h

theorem Inv.step (h : Inv gone s) (e : Event) : Inv (gone ++ s.givenUp e) (step s e) := by
  cases e with
  | start d overrides a => exact h.start d overrides a
  | stop n a => exact h.stop (fun _ => a) n
  | restart n a => exact h.restart n a
  | status n a => exact h.status (fun _ => a) n
  | listStatus a => exact h.forEach (fun _ _ n hs => hs.status a n) s.names
  | stopAll a => exact h.forEach (fun _ _ n hs => hs.stop a n) s.names
  | exits pid code => simpa [givenUp] using h.exits pid code

theorem inv_run (vars : List (String × String)) (is : List Event) :
    Inv (trace Supervisor.step givenUp (new vars) is) (is.foldl Supervisor.step (new vars)) := by
  induction is using List.reverseRecOn with
  | nil => exact inv_new vars
  | append_singleton is e ih =>
      rw [trace_append, List.foldl_append]
      simpa [trace] using ih.step e

/-! ### What there is to see -/

/-- Some process of the service is alive and has not been given up. -/
def Runs (gone : List ℕ) (n : String) (s : Supervisor) : Prop :=
  ∃ (i : ℕ) (q : OsProcess), s.os[i]? = some q ∧ q.alive = true ∧ q.service = n ∧ i ∉ gone

/-- Two processes of a service cannot both be the child of its entry. -/
theorem Inv.unique (h : Inv gone s) {i j : ℕ} {q r : OsProcess} (hi : s.os[i]? = some q)
    (hj : s.os[j]? = some r) (hq : q.alive = true) (hr : r.alive = true) (hgi : i ∉ gone)
    (hgj : j ∉ gone) (hsame : q.service = r.service) : i = j := by
  obtain ⟨p, hp, hpc⟩ := h.held i q hi hq hgi
  obtain ⟨p', hp', hpc'⟩ := h.held j r hj hr hgj
  rw [← hsame, hp] at hp'
  obtain rfl := Option.some.inj hp'
  exact Option.some.inj (hpc.symm.trans hpc')

theorem Inv.status_running (h : Inv gone s) (hwaits : a.waits = true) (n : String) :
    (s.status n a).1.running = true ↔ Runs gone n s := by
  rw [Supervisor.status]
  cases hp : s.processes.lookup n with
  | none =>
      refine ⟨fun hrun => (by cases hrun), ?_⟩
      rintro ⟨i, q, hi, hq, rfl, hgone⟩
      obtain ⟨p, hp', -⟩ := h.held i q hi hq hgone
      rw [hp] at hp'
      cases hp'
  | some p =>
      have hvisit := visited_refresh a s.os p
      rw [hwaits, if_pos rfl] at hvisit
      constructor
      · intro hrun
        obtain ⟨pid, hpid⟩ := Option.isSome_iff_exists.mp hrun
        have hpc : p.child = some pid := by
          rcases hvisit.child with ⟨hsame, -⟩ | ⟨hnone, -⟩
          · exact hsame.symm.trans hpid
          · rw [hnone] at hpid
            cases hpid
        obtain ⟨hfresh, q, hq, hservice⟩ := h.child n p pid hp hpc
        refine ⟨pid, q, hq, ?_, hservice, hfresh⟩
        -- A child that has ended would have been let go.
        by_contra hdead
        simp [ManagedProcess.refresh, hpc, hwaits, hq, hdead] at hpid
      · rintro ⟨i, q, hi, hq, rfl, hgone⟩
        obtain ⟨p', hp', hpc⟩ := h.held i q hi hq hgone
        rw [hp] at hp'
        obtain rfl := Option.some.inj hp'
        have hstay : p.refresh a s.os = p := by
          simp [ManagedProcess.refresh, hpc, hwaits, hi, hq]
        have hrun : (p.refresh a s.os).child.isSome = true := by rw [hstay, hpc]; rfl
        exact hrun

theorem lookup_stopOne (a : String → Answers) (s : Supervisor) {m : String} {r : ManagedProcess}
    (hr : (stopOne a s n).processes.lookup m = some r) :
    r.child = none ∨ (m ≠ n ∧ s.processes.lookup m = some r) := by
  rw [stopOne, stopService] at hr
  cases hp : s.processes.lookup n with
  | none =>
      rw [hp] at hr
      refine .inr ⟨?_, hr⟩
      rintro rfl
      have hsome : s.processes.lookup m = some r := hr
      rw [hp] at hsome
      cases hsome
  | some p =>
      rw [hp] at hr
      rcases Map.lookup_insert_eq_some.mp hr with ⟨-, rfl⟩ | hold
      · exact .inl (child_stop (a n) s.os p)
      · exact .inr hold

/-- Whatever is not among the names to come has been stopped. -/
theorem child_foldl_stopOne (a : String → Answers) (names : List String)
    (h : ∀ m r, s.processes.lookup m = some r → m ∈ names ∨ r.child = none) {m : String}
    {r : ManagedProcess} (hr : (names.foldl (stopOne a) s).processes.lookup m = some r) :
    r.child = none := by
  induction names generalizing s with
  | nil => simpa using h m r hr
  | cons n names ih =>
      refine ih (fun m' r' hr' => ?_) hr
      rcases lookup_stopOne a s hr' with hnone | ⟨hne, hold⟩
      · exact .inr hnone
      · rcases h m' r' hold with hmem | hnone
        · exact .inl ((List.mem_cons.mp hmem).resolve_left hne)
        · exact .inr hnone

theorem child_stopAll (a : String → Answers) (s : Supervisor) {m : String} {r : ManagedProcess}
    (hr : (s.stopAll a).processes.lookup m = some r) : r.child = none := by
  refine child_foldl_stopOne a s.names (fun m' r' hr' => .inl ?_) hr
  rw [names, List.mem_mergeSort]
  exact AList.mem_keys.mp (AList.lookup_isSome.mp (by rw [hr']; rfl))

/-- The supervisor keeps track of what runs, in every order of its operations and however its
processes end. No service has two processes that are alive, a status says whether it has one,
and when everything has been stopped nothing is alive; each time with the exception of the
processes that were given up, as the system could not tell of them or did not end them in
time. -/
theorem one_process_per_service (vars : List (String × String)) (is : List Event) :
    let s := is.foldl step (new vars)
    let gone := trace step givenUp (new vars) is
    (∀ (i j : ℕ) (q r : OsProcess), s.os[i]? = some q → s.os[j]? = some r →
      q.alive = true → r.alive = true → i ∉ gone → j ∉ gone → q.service = r.service → i = j) ∧
    (∀ n a, a.waits = true → ((s.status n a).1.running = true ↔ Runs gone n s)) ∧
    ∀ a n, ¬ Runs (gone ++ s.givenUp (.stopAll a)) n (step s (.stopAll a)) := by
  intro s gone
  have hinv : Inv gone s := inv_run vars is
  refine ⟨fun i j q r hi hj hq hr hgi hgj hsame => hinv.unique hi hj hq hr hgi hgj hsame,
    fun n a hwaits => hinv.status_running hwaits n, ?_⟩
  rintro a n ⟨i, q, hi, hq, -, hgone⟩
  obtain ⟨p, hp, hpc⟩ := (hinv.step (.stopAll a)).held i q hi hq hgone
  rw [child_stopAll a s hp] at hpc
  cases hpc

end DdsOrchestrator.ControlPanel.Supervisor
