import DdsOrchestrator.Lib.Machine
import DdsOrchestrator.Lib.Roster

/-!
The lock file under which an engine has its journal open. It is created only where there is
none, with the number of the process written into it afterwards, and one that names a dead
process is removed first. Looking at the file, reading it, removing it, creating it and writing
it are steps of their own, so the openings of several processes interleave; a process can die at
any of them, and its number can come back.

The database and its migrations are one step that succeeds or fails.
-/

namespace DdsOrchestrator.WorkflowEngine

open Machine Roster

/-- What an opening does next. -/
inductive LockStage where
  | checking
  | reading
  | removing
  | creating
  | writing
  | opening
  | holding
  /-- It has failed, it has let go, or its process has died. -/
  | ended
  deriving DecidableEq

namespace LockStage

/-- The file at the path is the one it has created. -/
def Owns : LockStage → Prop
  | writing | opening | holding => True
  | checking | reading | removing | creating | ended => False

instance : DecidablePred Owns
  | writing | opening | holding => .isTrue trivial
  | checking | reading | removing | creating | ended => .isFalse id

end LockStage

structure Opener where
  pid : ℕ
  stage : LockStage

/-- The file at the path: the opening that has created it, and the number it holds. What is not
a number counts as none. -/
structure LockFile where
  creator : Option ℕ
  pid : Option ℕ

structure LockDir where
  file : Option LockFile
  openers : List Opener
  running : List ℕ

namespace LockDir

/-- What earlier runs have left is there or not, and nobody has begun to open. -/
def start (left : Option (Option ℕ)) (running : List ℕ) : LockDir :=
  { file := left.map fun pid => ⟨none, pid⟩, openers := [], running }

inductive Event where
  /-- A process comes, with a number no running process has. -/
  | spawn (pid : ℕ)
  /-- A process calls `Journal::open`. -/
  | begin (pid : ℕ)
  /-- An opening takes its next step, and what it asks of the system succeeds or fails. -/
  | act (i : ℕ) (ok : Bool)
  /-- The journal is dropped. -/
  | release (i : ℕ) (ok : Bool)
  | crash (pid : ℕ)

def move (d : LockDir) (i : ℕ) (o : Opener) (stage : LockStage) : LockDir :=
  { d with openers := d.openers.set i { o with stage } }

/-- The file holds the number of a dead process. -/
def orphan (d : LockDir) : Bool :=
  match d.file.bind LockFile.pid with
  | some pid => decide (pid ∉ d.running)
  | none => false

/-- The write goes to the file that was created, which need not be at the path any more. -/
def writePid (d : LockDir) (i pid : ℕ) : LockDir :=
  match d.file with
  | some f => if f.creator = some i then { d with file := some { f with pid := some pid } } else d
  | none => d

def act (d : LockDir) (i : ℕ) (o : Opener) (ok : Bool) : LockDir :=
  match o.stage with
  | .checking => d.move i o (if d.file.isSome then .reading else .creating)
  | .reading => d.move i o (if ok && d.orphan then .removing else .creating)
  | .removing =>
    if ok then { d with file := none }.move i o .creating else d.move i o .creating
  | .creating =>
    if ok && d.file.isNone then { d with file := some ⟨some i, none⟩ }.move i o .writing
    else d.move i o .ended
  | .writing => if ok then (d.writePid i o.pid).move i o .opening else d.move i o .opening
  | .opening => d.move i o (if ok then .holding else .ended)
  | .holding | .ended => d

def step (d : LockDir) : Event → LockDir
  | .spawn pid => if pid ∈ d.running then d else { d with running := pid :: d.running }
  | .begin pid =>
    if pid ∈ d.running then { d with openers := d.openers ++ [⟨pid, .checking⟩] } else d
  | .act i ok =>
    match d.openers[i]? with
    | some o => d.act i o ok
    | none => d
  | .release i ok =>
    match d.openers[i]? with
    | some o =>
      if o.stage = .holding then
        { d with file := if ok then none else d.file }.move i o .ended
      else d
    | none => d
  | .crash pid =>
    { d with
      running := d.running.filter (· ≠ pid)
      openers := d.openers.map fun o => if o.pid = pid then { o with stage := .ended } else o }

/-- If the step removes a file that was left behind, then it still is one that was left
behind. -/
def RemovesOrphan (d : LockDir) : Event → Prop
  | .act i ok => d.openers[i]?.map Opener.stage = some .removing → ok = true →
      d.file.isSome = true → d.orphan = true
  | .spawn _ | .begin _ | .release _ _ | .crash _ => True

instance (d : LockDir) : DecidablePred d.RemovesOrphan
  | .act _ _ => inferInstanceAs (Decidable (_ → _ → _ → _))
  | .spawn _ | .begin _ | .release _ _ | .crash _ => .isTrue trivial

/-! ### Invariant -/

/-- A process that has not ended its opening runs, and one that owns the file has created the
file at the path, which holds its number once that is written, or none. -/
structure Inv (d : LockDir) : Prop where
  running : ∀ (i : ℕ) (o : Opener), d.openers[i]? = some o → o.stage ≠ .ended → o.pid ∈ d.running
  file : ∀ (i : ℕ) (o : Opener), d.openers[i]? = some o → o.stage.Owns →
    ∃ f, d.file = some f ∧ f.creator = some i ∧
      (f.pid = none ∨ f.pid = some o.pid ∧ o.stage ≠ .writing)

theorem inv_start (left : Option (Option ℕ)) (running : List ℕ) : Inv (start left running) where
  running := fun i o h => by simp [start] at h
  file := fun i o h => by simp [start] at h

variable {d : LockDir} {i : ℕ} {o : Opener} {stage : LockStage}

theorem Inv.unique (h : d.Inv) {i j : ℕ} {o o' : Opener} (hi : d.openers[i]? = some o)
    (hj : d.openers[j]? = some o') (ho : o.stage.Owns) (ho' : o'.stage.Owns) : i = j := by
  obtain ⟨f, hf, hcreator, -⟩ := h.file i o hi ho
  obtain ⟨f', hf', hcreator', -⟩ := h.file j o' hj ho'
  obtain rfl : f = f' := Option.some.inj (hf.symm.trans hf')
  exact Option.some.inj (hcreator.symm.trans hcreator')

/-- Where the file names a dead process, or is not there, nobody owns it. -/
theorem Inv.no_owner (h : d.Inv) (hfree : d.file = none ∨ d.orphan = true) {j : ℕ} {o : Opener}
    (hj : d.openers[j]? = some o) : ¬ o.stage.Owns := by
  intro ho
  obtain ⟨f, hf, -, hpid⟩ := h.file j o hj ho
  rcases hfree with hnone | horphan
  · rw [hnone] at hf
    cases hf
  · have hrunning : o.pid ∈ d.running := by
      refine h.running j o hj fun hover => ?_
      rw [hover] at ho
      exact ho
    rcases hpid with hnone | ⟨hsome, -⟩
    · simp [orphan, hf, hnone] at horphan
    · simp [orphan, hf, hsome, hrunning] at horphan

/-- A step of one opening that owns nothing afterwards, or owned the file before. -/
theorem Inv.move (h : d.Inv) (hi : d.openers[i]? = some o) (hactive : o.stage ≠ .ended)
    (howns : stage.Owns → o.stage.Owns ∧ stage ≠ .writing) : (d.move i o stage).Inv where
  running := by
    intro j o' hj hover
    rw [LockDir.move, getElem?_set_of_some hi] at hj
    split at hj
    · rw [← Option.some.inj hj]
      exact h.running i o hi hactive
    · exact h.running j o' hj hover
  file := by
    intro j o' hj ho'
    rw [LockDir.move, getElem?_set_of_some hi] at hj
    split at hj
    next hji =>
      subst hji
      obtain rfl := Option.some.inj hj
      obtain ⟨hbefore, hwritten⟩ := howns ho'
      obtain ⟨f, hf, hcreator, hpid⟩ := h.file j o hi hbefore
      exact ⟨f, hf, hcreator, hpid.imp_right fun hsome => ⟨hsome.1, hwritten⟩⟩
    next => exact h.file j o' hj ho'

theorem Inv.remove (h : d.Inv) (hfree : d.file = none ∨ d.orphan = true) :
    ({ d with file := none } : LockDir).Inv where
  running := h.running
  file := fun _ _ hj ho => absurd ho (h.no_owner hfree hj)

theorem Inv.create (h : d.Inv) (hi : d.openers[i]? = some o) (hactive : o.stage ≠ .ended)
    (hnone : d.file = none) :
    (({ d with file := some ⟨some i, none⟩ } : LockDir).move i o .writing).Inv where
  running := by
    intro j o' hj hover
    rw [LockDir.move, getElem?_set_of_some hi] at hj
    split at hj
    · rw [← Option.some.inj hj]
      exact h.running i o hi hactive
    · exact h.running j o' hj hover
  file := by
    intro j o' hj ho'
    rw [LockDir.move, getElem?_set_of_some hi] at hj
    split at hj
    next hji =>
      subst hji
      exact ⟨_, rfl, rfl, .inl rfl⟩
    next => exact absurd ho' (h.no_owner (.inl hnone) hj)

/-- The number is written, if the write does not fail. -/
theorem Inv.write (h : d.Inv) (hi : d.openers[i]? = some o) (hs : o.stage = .writing) :
    ((d.writePid i o.pid).move i o .opening).Inv := by
  have howns : o.stage.Owns := by
    rw [hs]
    trivial
  obtain ⟨f, hf, hcreator, -⟩ := h.file i o hi howns
  have hwrite : d.writePid i o.pid = { d with file := some { f with pid := some o.pid } } := by
    simp [writePid, hf, hcreator]
  rw [hwrite]
  have hmoved : (d.move i o .opening).Inv := h.move hi (by simp [hs]) fun _ => ⟨howns, by simp⟩
  refine ⟨hmoved.running, fun j o' hj ho' => ?_⟩
  obtain ⟨f', hf', hcreator', -⟩ := hmoved.file j o' hj ho'
  obtain rfl : f = f' := Option.some.inj (hf.symm.trans hf')
  obtain rfl : i = j := Option.some.inj (hcreator.symm.trans hcreator')
  rw [LockDir.move, getElem?_set_of_some hi, if_pos rfl] at hj
  obtain rfl := Option.some.inj hj
  exact ⟨_, rfl, hcreator, .inr ⟨rfl, by simp⟩⟩

theorem Inv.act (h : d.Inv) (hi : d.openers[i]? = some o) {ok : Bool}
    (hc : d.RemovesOrphan (.act i ok)) : (d.act i o ok).Inv := by
  unfold LockDir.act
  split
  next hs =>
    refine h.move hi (by simp [hs]) fun howns => ?_
    split at howns <;> exact absurd howns id
  next hs =>
    refine h.move hi (by simp [hs]) fun howns => ?_
    split at howns <;> exact absurd howns id
  next hs =>
    have hactive : o.stage ≠ .ended := by simp [hs]
    split
    next hok =>
      have hfree : d.file = none ∨ d.orphan = true := by
        cases hf : d.file with
        | none => exact .inl rfl
        | some f => exact .inr (hc (by rw [hi, Option.map_some, hs]) hok (by rw [hf]; rfl))
      exact (h.remove hfree).move hi hactive fun howns => absurd howns id
    next => exact h.move hi hactive fun howns => absurd howns id
  next hs =>
    have hactive : o.stage ≠ .ended := by simp [hs]
    split
    next hcond =>
      have hnone : d.file = none := by
        rw [Bool.and_eq_true, Option.isNone_iff_eq_none] at hcond
        exact hcond.2
      exact h.create hi hactive hnone
    next => exact h.move hi hactive fun howns => absurd howns id
  next hs =>
    split
    next => exact h.write hi hs
    next =>
      refine h.move hi (by simp [hs]) fun _ => ⟨?_, by simp⟩
      rw [hs]
      trivial
  next hs =>
    refine h.move hi (by simp [hs]) fun howns => ⟨?_, ?_⟩
    · rw [hs]
      trivial
    · split <;> simp
  next => exact h
  next => exact h

theorem Inv.step (h : d.Inv) (e : Event) (hc : d.RemovesOrphan e) : (step d e).Inv := by
  cases e with
  | spawn pid =>
      dsimp only [LockDir.step]
      split
      · exact h
      · exact ⟨fun i o hi ho => List.mem_cons_of_mem _ (h.running i o hi ho), h.file⟩
  | begin pid =>
      dsimp only [LockDir.step]
      split
      next hpid =>
        have hold : ∀ (i : ℕ) (o : Opener), (d.openers ++ [⟨pid, .checking⟩])[i]? = some o →
            d.openers[i]? = some o ∨ o = ⟨pid, .checking⟩ := by
          intro i o hi
          rcases Nat.lt_or_ge i d.openers.length with hlt | hge
          · exact .inl (by rwa [List.getElem?_append_left hlt] at hi)
          · rw [List.getElem?_append_right hge] at hi
            exact .inr (List.mem_singleton.mp (List.mem_of_getElem? hi))
        refine ⟨fun i o hi ho => ?_, fun i o hi ho => ?_⟩
        · rcases hold i o hi with hi | rfl
          · exact h.running i o hi ho
          · exact hpid
        · rcases hold i o hi with hi | rfl
          · exact h.file i o hi ho
          · exact absurd ho id
      next => exact h
  | act i ok =>
      dsimp only [LockDir.step]
      split
      next o hi => exact h.act hi hc
      next => exact h
  | release i ok =>
      dsimp only [LockDir.step]
      split
      next o hi =>
        split
        next hs =>
          have hactive : o.stage ≠ .ended := by simp [hs]
          have howns : o.stage.Owns := by
            rw [hs]
            trivial
          cases ok with
          | false => exact h.move hi hactive fun hover => absurd hover id
          | true =>
              -- The file that is removed is its own, and nobody else owns one.
              refine ⟨(h.move hi hactive fun hover => absurd hover id).running,
                fun j o' hj ho' => ?_⟩
              rw [LockDir.move, getElem?_set_of_some hi] at hj
              split at hj
              · obtain rfl := Option.some.inj hj
                exact absurd ho' id
              next hji => exact absurd (h.unique hj hi ho' howns) hji
        next => exact h
      next => exact h
  | crash pid =>
      have hafter : ∀ (i : ℕ) (o : Opener),
          (d.openers.map fun o => if o.pid = pid then { o with stage := .ended } else o)[i]? =
            some o → o.stage ≠ .ended → d.openers[i]? = some o ∧ o.pid ≠ pid := by
        intro i o hi ho
        rw [List.getElem?_map, Option.map_eq_some_iff] at hi
        obtain ⟨o₀, hi, hsame⟩ := hi
        split at hsame
        · rw [← hsame] at ho
          exact absurd rfl ho
        next hne =>
          subst hsame
          exact ⟨hi, hne⟩
      refine ⟨fun i o hi ho => ?_, fun i o hi ho => ?_⟩
      · obtain ⟨hi, hne⟩ := hafter i o hi ho
        simpa [LockDir.step, hne] using h.running i o hi ho
      · have hactive : o.stage ≠ .ended := by
          intro hover
          rw [hover] at ho
          exact ho
        exact h.file i o (hafter i o hi hactive).1 ho

/-! ### Runs -/

theorem inv_run {left : Option (Option ℕ)} {running : List ℕ} {es : List Event}
    (hrun : Along step RemovesOrphan (start left running) es) :
    (es.foldl step (start left running)).Inv :=
  hrun.invariant (inv_start left running) fun _ e h hc => h.step e hc

/-- At most one engine has the journal open, and the lock file is the one it has created. That
is so however the openings of any number of processes interleave and wherever processes die, as
long as a lock file that names a dead process is not replaced by another one between being read
and being removed. -/
theorem one_instance_has_the_journal (left : Option (Option ℕ)) (running : List ℕ)
    (es : List Event) (hrun : Along step RemovesOrphan (start left running) es) (i : ℕ)
    (o : Opener) (hi : (es.foldl step (start left running)).openers[i]? = some o)
    (ho : o.stage = .holding) :
    (∃ f, (es.foldl step (start left running)).file = some f ∧ f.creator = some i) ∧
      ∀ (j : ℕ) (o' : Opener), (es.foldl step (start left running)).openers[j]? = some o' →
        o'.stage = .holding → j = i := by
  have hinv := inv_run hrun
  have howns : ∀ o' : Opener, o'.stage = .holding → o'.stage.Owns := by
    intro o' ho'
    rw [ho']
    trivial
  obtain ⟨f, hf, hcreator, -⟩ := hinv.file i o hi (howns o ho)
  exact ⟨⟨f, hf, hcreator⟩, fun j o' hj ho' => hinv.unique hj hi (howns o' ho') (howns o ho)⟩

/-- One engine takes over from a dead one while another one looks on. -/
theorem one_instance_has_the_journal_takeover :
    let d := [Event.begin 7, .begin 8, .act 0 true, .act 1 true, .act 0 true, .act 0 true,
      .act 0 true, .act 1 true, .act 0 true, .act 1 true, .act 0 true].foldl step
        (start (some (some 3)) [7, 8])
    (∃ f, d.file = some f ∧ f.creator = some 0) ∧
      ∀ (j : ℕ) (o' : Opener), d.openers[j]? = some o' → o'.stage = .holding → j = 0 :=
  one_instance_has_the_journal (some (some 3)) [7, 8] _ (by decide) 0 ⟨7, .holding⟩ rfl rfl

/-- Both have read the number of the dead engine, and the second one removes the file of the
first. -/
example :
    ([.begin 7, .begin 8, .act 0 true, .act 1 true, .act 0 true, .act 1 true, .act 0 true,
      .act 0 true, .act 0 true, .act 0 true, .act 1 true, .act 1 true, .act 1 true,
      .act 1 true].foldl step (start (some (some 3)) [7, 8])).openers.map Opener.stage =
      [.holding, .holding] := by
  decide

/-! ### A file without a number -/

/-- The file holds no number, nobody owns it and nobody is about to remove it. -/
structure Stuck (d : LockDir) : Prop where
  file : ∃ f, d.file = some f ∧ f.pid = none
  openers : ∀ (i : ℕ) (o : Opener), d.openers[i]? = some o →
    o.stage ≠ .removing ∧ ¬ o.stage.Owns

theorem Stuck.move (h : d.Stuck) (hi : d.openers[i]? = some o) (hstage : stage ≠ .removing)
    (howns : ¬ stage.Owns) : (d.move i o stage).Stuck where
  file := h.file
  openers := by
    intro j o' hj
    rw [LockDir.move, getElem?_set_of_some hi] at hj
    split at hj
    · rw [← Option.some.inj hj]
      exact ⟨hstage, howns⟩
    · exact h.openers j o' hj

theorem Stuck.act (h : d.Stuck) (hi : d.openers[i]? = some o) (ok : Bool) :
    (d.act i o ok).Stuck := by
  obtain ⟨hremoving, howns⟩ := h.openers i o hi
  obtain ⟨f, hf, hpid⟩ := h.file
  have horphan : d.orphan = false := by simp [orphan, hf, hpid]
  unfold LockDir.act
  split
  next => exact h.move hi (by split <;> simp) (by split <;> exact id)
  next =>
    rw [horphan, Bool.and_false, if_neg Bool.false_ne_true]
    exact h.move hi (by simp) id
  next hs => exact absurd hs hremoving
  next =>
    rw [hf, Option.isNone_some, Bool.and_false, if_neg Bool.false_ne_true]
    exact h.move hi (by simp) id
  next hs =>
    rw [hs] at howns
    exact absurd trivial howns
  next hs =>
    rw [hs] at howns
    exact absurd trivial howns
  next => exact h
  next => exact h

theorem Stuck.step (h : d.Stuck) (e : Event) : (step d e).Stuck := by
  cases e with
  | spawn pid =>
      dsimp only [LockDir.step]
      split
      · exact h
      · exact ⟨h.file, h.openers⟩
  | begin pid =>
      dsimp only [LockDir.step]
      split
      · refine ⟨h.file, fun i o hi => ?_⟩
        rcases List.mem_append.mp (List.mem_of_getElem? hi) with hold | hnew
        · obtain ⟨j, hj⟩ := List.getElem?_of_mem hold
          exact h.openers j o hj
        · rw [List.mem_singleton.mp hnew]
          exact ⟨by simp, id⟩
      · exact h
  | act i ok =>
      dsimp only [LockDir.step]
      split
      next o hi => exact h.act hi ok
      next => exact h
  | release i ok =>
      dsimp only [LockDir.step]
      split
      next o hi =>
        have howns := (h.openers i o hi).2
        split
        next hs =>
          rw [hs] at howns
          exact absurd trivial howns
        next => exact h
      next => exact h
  | crash pid =>
      refine ⟨h.file, fun i o hi => ?_⟩
      dsimp only [LockDir.step] at hi
      rw [List.getElem?_map, Option.map_eq_some_iff] at hi
      obtain ⟨o₀, hi, hsame⟩ := hi
      split at hsame
      · rw [← hsame]
        exact ⟨by simp, id⟩
      · rw [← hsame]
        exact h.openers i o₀ hi

theorem Inv.stuck (h : d.Inv) (hi : d.openers[i]? = some o) (hs : o.stage = .writing)
    (hquiet : ∀ (j : ℕ) (o' : Opener), d.openers[j]? = some o' → o'.stage ≠ .removing) :
    (LockDir.step d (.crash o.pid)).Stuck := by
  have howns : o.stage.Owns := by
    rw [hs]
    trivial
  obtain ⟨f, hf, -, hpid⟩ := h.file i o hi howns
  refine ⟨⟨f, hf, hpid.resolve_right fun hwritten => hwritten.2 hs⟩, fun j o' hj => ?_⟩
  dsimp only [LockDir.step] at hj
  rw [List.getElem?_map, Option.map_eq_some_iff] at hj
  obtain ⟨o₀, hj, hsame⟩ := hj
  split at hsame
  · rw [← hsame]
    exact ⟨by simp, id⟩
  next hne =>
    subst hsame
    refine ⟨hquiet j o₀ hj, fun ho₀ => hne ?_⟩
    obtain rfl := h.unique hi hj howns ho₀
    rw [Option.some.inj (hi.symm.trans hj)]

/-- An engine that dies between creating the lock file and writing its number into it shuts
everybody out: the journal is never opened again, whatever any process does, unless some opening
had already set out to remove the file of another one. -/
theorem empty_lock_shuts_everybody_out (left : Option (Option ℕ)) (running : List ℕ)
    (es : List Event) (hrun : Along step RemovesOrphan (start left running) es) (i : ℕ)
    (o : Opener) (hi : (es.foldl step (start left running)).openers[i]? = some o)
    (hs : o.stage = .writing)
    (hquiet : ∀ (j : ℕ) (o' : Opener),
      (es.foldl step (start left running)).openers[j]? = some o' → o'.stage ≠ .removing)
    (later : List Event) (j : ℕ) (o' : Opener)
    (hj : (later.foldl step (step (es.foldl step (start left running)) (.crash o.pid))).openers[j]?
      = some o') : o'.stage ≠ .holding := by
  have hstuck := foldl_invariant later ((inv_run hrun).stuck hi hs hquiet)
    fun _ e h => Stuck.step h e
  intro hholding
  have hfree := (hstuck.openers j o' hj).2
  rw [hholding] at hfree
  exact hfree trivial

/-- Process 7 has created the lock file when it dies. -/
def emptyLock : LockDir :=
  step ([.begin 7, .act 0 true, .act 0 true].foldl step (start none [7])) (.crash 7)

/-- Process 8 finds the lock file, and gives up. -/
def secondOpening : List Event :=
  [.spawn 8, .begin 8, .act 1 true, .act 1 true, .act 1 true]

theorem empty_lock_shuts_everybody_out_next :
    (secondOpening.foldl step emptyLock).openers[1]? = some ⟨8, .ended⟩ ∧
      ∀ o ∈ (secondOpening.foldl step emptyLock).openers, o.stage ≠ .holding := by
  refine ⟨rfl, fun o ho => ?_⟩
  obtain ⟨j, hj⟩ := List.getElem?_of_mem ho
  refine empty_lock_shuts_everybody_out none [7] [.begin 7, .act 0 true, .act 0 true]
    (by decide) 0 ⟨7, .writing⟩ rfl rfl ?_ secondOpening j o hj
  intro k o' hk
  cases k with
  | zero =>
      rw [← Option.some.inj hk]
      decide
  | succ k => cases hk

end LockDir

end DdsOrchestrator.WorkflowEngine
