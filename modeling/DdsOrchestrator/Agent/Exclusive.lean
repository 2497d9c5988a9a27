import Mathlib.Data.Fintype.Basic
import DdsOrchestrator.Lib.Machine
import DdsOrchestrator.Lib.Ownership
import DdsOrchestrator.Agent.Claim

/-!
Agents that claim one task. Each reads the mesh, writes a claim where the task is still
pending, waits, reads the mesh again, and goes on if what it finds is its own claim. The
samples of the agents and of whoever issued the task travel on their own, and a read gives
the one of the strongest writer that has arrived.

The dispatcher of an agent takes the task up again whenever it is delivered anew, so it can
be at it while an attempt of the same agent is still going on.
-/

namespace DdsOrchestrator.Agent

open Dataspace (Task)
open Ownership (Mesh)

variable {ι : Type}

inductive Writer (ι : Type) where
  | issuer
  | agent (id : ι)
  deriving DecidableEq

/-- The task as it was issued. -/
abbrev PendingTask := { t : Task // t.status = 0 }

/-- An attempt, by what it does next: write the claim, read it back, or publish how the task
gets on. `overtaken` says whether another agent has read back its claim since this one read
the mesh. -/
inductive Attempt where
  | claiming (task : Task) (overtaken : Bool)
  | confirming (task : Task)
  | processing (task : Task)

def Attempt.overtake : Attempt → Attempt
  | claiming task _ => claiming task true
  | attempt => attempt

/-- An agent, as far as the task goes. -/
structure Party where
  /-- The task is among those claimed. -/
  claimed : Bool
  /-- What the dispatcher has read from the mesh and not yet looked at. -/
  fresh : Option (Task × Bool)
  attempts : Nat → Option Attempt
  spawned : Nat
  /-- An attempt has got through the confirmation at some time. -/
  confirmed : Bool

namespace Party

def start : Party :=
  { claimed := false, fresh := none, attempts := fun _ => none, spawned := 0, confirmed := false }

/-- The dispatcher reads the mesh. -/
def dispatch (read : Option Task) (p : Party) : Party :=
  match p.fresh with
  | none => { p with fresh := read.map fun t => (t, false) }
  | some _ => p

/-- The dispatcher looks at what it has read and starts an attempt, with the task marked.
`barrier` is the answer of the barrier. -/
def check (config : ClaimConfig) (nowNs laterNs : UInt64) (barrier : Bool) (p : Party) : Party :=
  match p.fresh with
  | none => p
  | some (task, overtaken) =>
    if isEligibleWith nowNs task config (fun _ => p.claimed) && barrier &&
        !(0 < task.deadlineNs && task.deadlineNs ≤ laterNs) then
      { p with
        fresh := none, claimed := true, spawned := p.spawned + 1
        attempts := Function.update p.attempts p.spawned (some (.claiming task overtaken)) }
    else { p with fresh := none }

/-- The attempt is over and the mark is taken back. -/
def finish (n : Nat) (p : Party) : Party :=
  { p with claimed := false, attempts := Function.update p.attempts n none }

def goto (n : Nat) (attempt : Attempt) (p : Party) : Party :=
  { p with attempts := Function.update p.attempts n (some attempt) }

/-- The readback of the attempt `n`, with nothing read where the read fails. `late` says that
the time for the confirmation is over. -/
def readback (id : String) (n : Nat) (task : Task) (read : Option Task) (late : Bool)
    (p : Party) : Party :=
  match read with
  | some current =>
    if confirmOwnership current id then { p.goto n (.processing task) with confirmed := true }
    else if current.status ≠ 0 then p.finish n
    else if late then p.finish n
    else p
  | none => if late then p.finish n else p

def overtake (p : Party) : Party :=
  { p with
    fresh := p.fresh.map fun f => (f.1, true)
    attempts := fun n => (p.attempts n).map Attempt.overtake }

end Party

structure World (ι : Type) where
  mesh : Mesh (Writer ι) ι Task
  parties : ι → Party

/-- How the write of a claim ends. A write that fails may have gone out. -/
inductive Write where
  | done
  | failed (sent : Bool)

/-- How a task gets on. -/
inductive Progress where
  | running
  | done
  | failed

def Progress.status : Progress → Int
  | running => 2
  | done => 3
  | failed => 4

inductive Event (ι : Type) where
  /-- The task is published, for the first time or again. -/
  | issue
  | deliver (w : Writer ι) (reader : ι)
  | dispatch (id : ι)
  | check (id : ι) (nowNs laterNs : UInt64) (barrier : Bool)
  | write (id : ι) (n : Nat) (nowNs : UInt64) (result : Write)
  | readback (id : ι) (n : Nat) (failed late : Bool)
  | publish (id : ι) (n : Nat) (progress : Progress)
  | finish (id : ι) (n : Nat)

namespace World

def start : World ι := { mesh := .empty, parties := fun _ => .start }

variable {κ : Type}

/-- The task, how every agent is set up, and the order of strength of those who write. -/
structure Setting (ι κ : Type) where
  task : PendingTask
  config : ι → ClaimConfig
  rank : Writer ι → κ
  agentId_injective : Function.Injective fun id => (config id).agentId
  rank_injective : Function.Injective rank

/-! ### What is written -/

/-- A claim, as a sample. -/
def IsClaim (t : Task) : Prop := t.status = 1

/-- The samples a writer writes. -/
def Mine (g : Setting ι κ) : Writer ι → Task → Prop
  | .issuer, t => t.status = 0
  | .agent id, t => t.status ≠ 0 ∧ (IsClaim t → t.assignedAgent = (g.config id).agentId)

variable {g : Setting ι κ}

theorem mine_claimTask (nowNs : UInt64) (task : Task) (id : ι) :
    Mine g (.agent id) (claimTask nowNs task (g.config id).agentId) :=
  ⟨by simp [claimTask], fun _ => rfl⟩

theorem mine_progress (progress : Progress) (task : Task) (id : ι) :
    Mine g (.agent id) { task with status := progress.status } := by
  cases progress <;> exact ⟨by simp [Progress.status], fun h => by
    simp [IsClaim, Progress.status] at h⟩

variable [LinearOrder κ]

theorem lt_of_ne_agent {v v' : Writer ι} (hne : v ≠ v')
    (hle : g.rank v ≤ g.rank v') : g.rank v < g.rank v' :=
  lt_of_le_of_ne hle fun heq => hne (g.rank_injective heq)

/-! ### What is taken for granted -/

/-- What is taken for granted of the delivery and of the times. -/
structure Timely (w : World ι) (e : Event ι) : Prop where
  /-- A claim has arrived everywhere when its writer reads it back. -/
  own : ∀ id n failed late, e = .readback id n failed late →
    ∀ r, ∀ t ∈ w.mesh.inFlight (.agent id) r, ¬ IsClaim t
  /-- Every claim that was written has arrived at an agent that reads back its own. -/
  others : ∀ id n failed late, e = .readback id n failed late →
    ∀ v, ∀ t ∈ w.mesh.inFlight v id, ¬ IsClaim t
  /-- No other agent reads back its claim between the read of the mesh and the write. -/
  gap : ∀ id n nowNs result task overtaken, e = .write id n nowNs result →
    (w.parties id).attempts n = some (.claiming task overtaken) → overtaken = false

/-- The same, to be evaluated where there are finitely many agents. -/
def timely [Fintype ι] (w : World ι) : Event ι → Bool
  | .readback id _ _ _ =>
    (∀ r, ∀ t ∈ w.mesh.inFlight (.agent id) r, t.status ≠ 1) ∧
      (∀ t ∈ w.mesh.inFlight .issuer id, t.status ≠ 1) ∧
      ∀ j, ∀ t ∈ w.mesh.inFlight (.agent j) id, t.status ≠ 1
  | .write id n _ _ =>
    match (w.parties id).attempts n with
    | some (.claiming _ overtaken) => !overtaken
    | _ => true
  | _ => true

theorem timely_of_timely [Fintype ι] {w : World ι} {e : Event ι} (h : w.timely e = true) :
    w.Timely e := by
  constructor
  · rintro id n failed late rfl r t ht
    exact (of_decide_eq_true h).1 r t ht
  · rintro id n failed late rfl v t ht
    cases v with
    | issuer => exact (of_decide_eq_true h).2.1 t ht
    | agent j => exact (of_decide_eq_true h).2.2 j t ht
  · rintro id n nowNs result task overtaken rfl hn
    simpa [timely, hn] using h

/-! ### Steps -/

section Step

variable [DecidableEq ι]

def setParty (id : ι) (p : Party) (w : World ι) : World ι :=
  { w with parties := Function.update w.parties id p }

def send (v : Writer ι) (t : Task) (w : World ι) : World ι := { w with mesh := w.mesh.send v t }

def step (g : Setting ι κ) (w : World ι) : Event ι → World ι
  | .issue => w.send .issuer g.task
  | .deliver v r => { w with mesh := w.mesh.deliver v r }
  | .dispatch id => w.setParty id ((w.parties id).dispatch (w.mesh.read g.rank id))
  | .check id nowNs laterNs barrier =>
    w.setParty id ((w.parties id).check (g.config id) nowNs laterNs barrier)
  | .write id n nowNs result =>
    match (w.parties id).attempts n with
    | some (.claiming task _) =>
      let claimed := claimTask nowNs task (g.config id).agentId
      match result with
      | .done => (w.send (.agent id) claimed).setParty id
          ((w.parties id).goto n (.confirming claimed))
      | .failed sent =>
        (if sent then w.send (.agent id) claimed else w).setParty id ((w.parties id).finish n)
    | _ => w
  | .readback id n failed late =>
    match (w.parties id).attempts n with
    | some (.confirming task) =>
      let read := if failed then none else w.mesh.read g.rank id
      { w with parties := fun j =>
          if j = id then (w.parties id).readback (g.config id).agentId n task read late
          else (w.parties j).overtake }
    | _ => w
  | .publish id n progress =>
    match (w.parties id).attempts n with
    | some (.processing task) => w.send (.agent id) { task with status := progress.status }
    | _ => w
  | .finish id n =>
    match (w.parties id).attempts n with
    | some (.processing _) => w.setParty id ((w.parties id).finish n)
    | _ => w

end Step

/-! ### What holds of one agent -/

/-- Whoever has read a pending task has seen the issuer's sample, an agent with a claim to
confirm has written it, and there is one attempt for the mark. -/
structure Sound (m : Mesh (Writer ι) ι Task) (id : ι) (p : Party) : Prop where
  fresh : ∀ t o, p.fresh = some (t, o) → t.status = 0 → m.Seen .issuer id
  claiming : ∀ n t o, p.attempts n = some (.claiming t o) → m.Seen .issuer id
  confirming : ∀ n t, p.attempts n = some (.confirming t) →
    m.Seen .issuer id ∧ ∀ r, m.Reaches IsClaim (.agent id) r
  marked : ∀ n, p.attempts n ≠ none → p.claimed = true
  one : ∀ n n', p.attempts n ≠ none → p.attempts n' ≠ none → n = n'

/-- An agent that comes too late: what it still reads as pending it cannot claim any more,
and a claim it has written is weaker than the one of `winner`. -/
structure Beaten (g : Setting ι κ) (winner id : ι) (p : Party) : Prop where
  fresh : ∀ t o, p.fresh = some (t, o) → t.status = 0 → o = true
  claiming : ∀ n t o, p.attempts n = some (.claiming t o) → o = true
  confirming : ∀ n t, p.attempts n = some (.confirming t) →
    g.rank (.agent id) < g.rank (.agent winner)
  unconfirmed : p.confirmed = false

variable {m m' : Mesh (Writer ι) ι Task} {id winner : ι} {p : Party}
  {n : Nat} {w : World ι}

theorem Sound.later (h : Sound m id p) (hlater : m.Later IsClaim m') : Sound m' id p where
  fresh := fun t o ht h0 => hlater.seen _ _ (h.fresh t o ht h0)
  claiming := fun n t o hn => hlater.seen _ _ (h.claiming n t o hn)
  confirming := fun n t hn =>
    ⟨hlater.seen _ _ (h.confirming n t hn).1,
      fun r => hlater.reaches _ _ ((h.confirming n t hn).2 r)⟩
  marked := h.marked
  one := h.one

theorem sound_start (m : Mesh (Writer ι) ι Task) (id : ι) : Sound m id .start := by
  constructor <;> simp [Party.start]

theorem Sound.check (h : Sound m id p) (config : ClaimConfig) (nowNs laterNs : UInt64)
    (barrier : Bool) : Sound m id (p.check config nowNs laterNs barrier) := by
  unfold Party.check
  split
  · exact h
  next task overtaken hfresh =>
    split_ifs with heligible
    · simp only [Bool.and_eq_true] at heligible
      obtain ⟨hunclaimed, hpending, -⟩ := isEligibleWith_iff.mp heligible.1.1
      -- Without the mark there is no attempt, so the new one is the only one.
      have hnone : ∀ n, p.attempts n = none := by
        intro n
        by_contra hn
        have hmark := h.marked n hn
        rw [hunclaimed] at hmark
        cases hmark
      have hseen := h.fresh task overtaken hfresh hpending
      constructor
      · simp
      · exact fun _ _ _ _ => hseen
      · intro n t hn
        by_cases hnew : n = p.spawned <;> simp [hnew, hnone] at hn
      · simp
      · intro n n' hn hn'
        have honly : ∀ k, Function.update p.attempts p.spawned
            (some (Attempt.claiming task overtaken)) k ≠ none → k = p.spawned := by
          intro k hk
          by_contra hne
          exact hk (by simp [hne, hnone])
        rw [honly n hn, honly n' hn']
    · exact ⟨by simp, h.claiming, h.confirming, h.marked, h.one⟩

theorem Beaten.check (h : Beaten g winner id p) (config : ClaimConfig) (nowNs laterNs : UInt64)
    (barrier : Bool) : Beaten g winner id (p.check config nowNs laterNs barrier) := by
  unfold Party.check
  split
  · exact h
  next task overtaken hfresh =>
    split_ifs with heligible
    · simp only [Bool.and_eq_true] at heligible
      obtain ⟨-, hpending, -⟩ := isEligibleWith_iff.mp heligible.1.1
      refine ⟨by simp, fun n t o hn => ?_, fun n t hn => ?_, h.unconfirmed⟩
      · by_cases hnew : n = p.spawned
        · obtain ⟨rfl, rfl⟩ : task = t ∧ overtaken = o := by simpa [hnew] using hn
          exact h.fresh task overtaken hfresh hpending
        · exact h.claiming n t o (by simpa [hnew] using hn)
      · by_cases hnew : n = p.spawned
        · simp [hnew] at hn
        · exact h.confirming n t (by simpa [hnew] using hn)
    · exact ⟨by simp, h.claiming, h.confirming, h.unconfirmed⟩

theorem Sound.finish (h : Sound m id p) (hn : p.attempts n ≠ none) :
    Sound m id (p.finish n) := by
  -- The attempt that ends was the only one.
  have hnone : ∀ k, (p.finish n).attempts k = none := by
    intro k
    by_cases hk : k = n
    · simp [Party.finish, hk]
    · by_contra hsome
      exact hk (h.one k n (by simpa [Party.finish, hk] using hsome) hn)
  refine ⟨h.fresh, ?_, ?_, ?_, ?_⟩ <;> simp [hnone]

theorem Beaten.finish (h : Beaten g winner id p) : Beaten g winner id (p.finish n) := by
  refine ⟨h.fresh, fun k t o hk => ?_, fun k t hk => ?_, h.unconfirmed⟩ <;>
    by_cases hkn : k = n
  · simp [Party.finish, hkn] at hk
  · exact h.claiming k t o (by simpa [Party.finish, hkn] using hk)
  · simp [Party.finish, hkn] at hk
  · exact h.confirming k t (by simpa [Party.finish, hkn] using hk)

theorem Sound.overtake (h : Sound m id p) : Sound m id p.overtake where
  fresh := by
    intro t o ht h0
    simp only [Party.overtake, Option.map_eq_some_iff] at ht
    obtain ⟨f, hf, heq⟩ := ht
    obtain rfl : f.1 = t := congrArg Prod.fst heq
    exact h.fresh f.1 f.2 hf h0
  claiming := by
    intro n t o hn
    simp only [Party.overtake, Option.map_eq_some_iff] at hn
    obtain ⟨a, ha, heq⟩ := hn
    cases a with
    | claiming t' o' => exact h.claiming n t' o' ha
    | confirming t' => cases heq
    | processing t' => cases heq
  confirming := by
    intro n t hn
    simp only [Party.overtake, Option.map_eq_some_iff] at hn
    obtain ⟨a, ha, heq⟩ := hn
    cases a with
    | claiming t' o' => cases heq
    | confirming t' => exact h.confirming n t' ha
    | processing t' => cases heq
  marked := fun n hn => h.marked n (by simpa [Party.overtake] using hn)
  one := fun n n' hn hn' =>
    h.one n n' (by simpa [Party.overtake] using hn) (by simpa [Party.overtake] using hn')

/-- An agent that another one overtakes has only its written claims left. -/
theorem beaten_overtake
    (hconfirming : ∀ n t, p.attempts n = some (.confirming t) →
      g.rank (.agent id) < g.rank (.agent winner))
    (hunconfirmed : p.confirmed = false) : Beaten g winner id p.overtake where
  fresh := by
    intro t o ht _
    simp only [Party.overtake, Option.map_eq_some_iff] at ht
    obtain ⟨f, -, heq⟩ := ht
    exact (congrArg Prod.snd heq).symm
  claiming := by
    intro n t o hn
    simp only [Party.overtake, Option.map_eq_some_iff] at hn
    obtain ⟨a, ha, heq⟩ := hn
    cases a with
    | claiming t' o' =>
        obtain ⟨-, rfl⟩ : t' = t ∧ true = o := by simpa [Attempt.overtake] using heq
        rfl
    | confirming t' => cases heq
    | processing t' => cases heq
  confirming := by
    intro n t hn
    simp only [Party.overtake, Option.map_eq_some_iff] at hn
    obtain ⟨a, ha, heq⟩ := hn
    cases a with
    | claiming t' o' => cases heq
    | confirming t' => exact hconfirming n t' ha
    | processing t' => cases heq
  unconfirmed := hunconfirmed

/-- The attempt that is going on comes to its next operation. -/
theorem Sound.goto (h : Sound m id p) (hn : p.attempts n ≠ none) {a : Attempt}
    (hclaiming : ∀ t o, a ≠ .claiming t o)
    (hconfirming : ∀ t, a = .confirming t →
      m.Seen .issuer id ∧ ∀ r, m.Reaches IsClaim (.agent id) r) : Sound m id (p.goto n a) := by
  have honly : ∀ k b, (p.goto n a).attempts k = some b → k = n ∧ b = a := by
    intro k b hk
    by_cases hkn : k = n
    · subst hkn
      exact ⟨rfl, by simpa [Party.goto, eq_comm] using hk⟩
    · have hold : p.attempts k = some b := by simpa [Party.goto, hkn] using hk
      exact absurd (h.one k n (by simp [hold]) hn) hkn
  refine ⟨h.fresh, fun k t o hk => ?_, fun k t hk => ?_, fun k _ => h.marked n hn,
    fun k k' hk hk' => ?_⟩
  · exact absurd (honly k _ hk).2.symm (hclaiming t o)
  · exact hconfirming t (honly k _ hk).2.symm
  · obtain ⟨b, hb⟩ := Option.ne_none_iff_exists'.mp hk
    obtain ⟨b', hb'⟩ := Option.ne_none_iff_exists'.mp hk'
    rw [(honly k b hb).1, (honly k' b' hb').1]

theorem Sound.readback (h : Sound m id p) {agentId : String} {task : Task}
    {read : Option Task} {late : Bool}
    (hn : p.attempts n = some (.confirming task)) :
    Sound m id (p.readback agentId n task read late) := by
  have hsome : p.attempts n ≠ none := by simp [hn]
  unfold Party.readback
  split
  · split_ifs
    · have hgo := h.goto (n := n) (a := .processing task) hsome (by simp) (by simp)
      exact ⟨hgo.fresh, hgo.claiming, hgo.confirming, hgo.marked, hgo.one⟩
    · exact h.finish hsome
    · exact h.finish hsome
    · exact h
  · split_ifs
    · exact h.finish hsome
    · exact h

/-- A readback that confirms nothing. -/
theorem Beaten.readback (h : Beaten g winner id p) {agentId : String} {task : Task}
    {read : Option Task} {late : Bool}
    (hother : ∀ t, read = some t → confirmOwnership t agentId = false) :
    Beaten g winner id (p.readback agentId n task read late) := by
  unfold Party.readback
  split
  next current =>
    rw [hother current rfl]
    simp only [Bool.false_eq_true, if_false]
    split_ifs
    · exact h.finish
    · exact h.finish
    · exact h
  · split_ifs
    · exact h.finish
    · exact h

theorem confirmed_readback {agentId : String} {task : Task} {read : Option Task} {late : Bool}
    (h : (p.readback agentId n task read late).confirmed = true) :
    p.confirmed = true ∨ ∃ t, read = some t ∧ confirmOwnership t agentId = true := by
  unfold Party.readback at h
  split at h
  next current =>
    split_ifs at h with hmine
    · exact .inr ⟨current, rfl, hmine⟩
    all_goals exact .inl h
  · split_ifs at h <;> exact .inl h

/-! ### What a read says -/

variable [DecidableEq ι]

/-- A pending task was read from the issuer, and no stronger sample has arrived. -/
theorem issuer_of_read {t : Task} (hwritten : m.Written (Mine g))
    (hread : m.read g.rank id = some t) (hpending : t.status = 0) :
    m.Seen .issuer id ∧ ∀ v, m.Seen v id → g.rank v ≤ g.rank .issuer := by
  obtain ⟨v, hv, hstrongest⟩ := Mesh.read_eq_some hread
  have hmine := hwritten.views v id t hv
  cases v with
  | issuer => exact ⟨Map.mem_iff_lookup.mpr ⟨t, hv⟩, hstrongest⟩
  | agent j => exact absurd hpending hmine.1

/-- A claim was read from its writer, and no stronger sample has arrived. -/
theorem strongest_of_confirmed {t : Task} (hwritten : m.Written (Mine g))
    (hread : m.read g.rank id = some t) (hmine : confirmOwnership t (g.config id).agentId = true) :
    ∀ v, m.Seen v id → g.rank v ≤ g.rank (.agent id) := by
  obtain ⟨v, hv, hstrongest⟩ := Mesh.read_eq_some hread
  obtain ⟨hassigned, hclaim⟩ : t.assignedAgent = (g.config id).agentId ∧ t.status = 1 := by
    simpa [confirmOwnership] using hmine
  have hwrote := hwritten.views v id t hv
  cases v with
  | issuer =>
      have hpending : t.status = 0 := hwrote
      rw [hclaim] at hpending
      exact absurd hpending (by decide)
  | agent j =>
      obtain rfl : id = j := g.agentId_injective (hassigned.symm.trans (hwrote.2 hclaim))
      exact hstrongest

theorem Sound.dispatch (h : Sound m id p) (hwritten : m.Written (Mine g)) :
    Sound m id (p.dispatch (m.read g.rank id)) := by
  unfold Party.dispatch
  split
  · refine ⟨fun t o ht h0 => ?_, h.claiming, h.confirming, h.marked, h.one⟩
    simp only [Option.map_eq_some_iff] at ht
    obtain ⟨t', hread, heq⟩ := ht
    obtain rfl : t' = t := congrArg Prod.fst heq
    exact (issuer_of_read hwritten hread h0).1
  · exact h

theorem Beaten.dispatch (h : Beaten g winner id p) (hwritten : m.Written (Mine g))
    (habove : g.rank .issuer < g.rank (.agent winner)) (hseen : m.Seen (.agent winner) id) :
    Beaten g winner id (p.dispatch (m.read g.rank id)) := by
  unfold Party.dispatch
  split
  · refine ⟨fun t o ht h0 => ?_, h.claiming, h.confirming, h.unconfirmed⟩
    simp only [Option.map_eq_some_iff] at ht
    obtain ⟨t', hread, heq⟩ := ht
    obtain rfl : t' = t := congrArg Prod.fst heq
    have hweak := (issuer_of_read hwritten hread h0).2 _ hseen
    exact absurd habove hweak.not_gt
  · exact h

/-! ### What holds of all agents -/

/-- The claim of `winner` has arrived everywhere and everybody else comes too late. -/
structure Won (g : Setting ι κ) (w : World ι) (winner : ι) : Prop where
  above : g.rank .issuer < g.rank (.agent winner)
  everywhere : ∀ r, w.mesh.Seen (.agent winner) r
  others : ∀ id, id ≠ winner → Beaten g winner id (w.parties id)

structure Safe (g : Setting ι κ) (w : World ι) : Prop where
  written : w.mesh.Written (Mine g)
  sound : ∀ id, Sound w.mesh id (w.parties id)
  won : ∀ winner, (w.parties winner).confirmed = true → Won g w winner

theorem safe_start : Safe g start where
  written := Mesh.written_empty
  sound := fun id => sound_start _ id
  won := fun winner h => by simp [start, Party.start] at h

/-- A step of one agent, in which the mesh may move on. -/
theorem Safe.update (h : Safe g w) (hlater : w.mesh.Later IsClaim m')
    (hwritten : m'.Written (Mine g)) (hsound : Sound m' id p)
    (hconfirmed : p.confirmed = (w.parties id).confirmed)
    (hbeaten : ∀ winner, Won g w winner → id ≠ winner → Beaten g winner id p) :
    Safe g { mesh := m', parties := Function.update w.parties id p } where
  written := hwritten
  sound := by
    intro j
    by_cases hj : j = id
    · subst hj
      simpa using hsound
    · simpa [hj] using (h.sound j).later hlater
  won := by
    intro winner hwinner
    have hbefore : (w.parties winner).confirmed = true := by
      by_cases hj : winner = id
      · subst hj
        rw [← hconfirmed]
        simpa using hwinner
      · simpa [hj] using hwinner
    have hwon := h.won winner hbefore
    refine ⟨hwon.above, fun r => hlater.seen _ _ (hwon.everywhere r), fun j hj => ?_⟩
    by_cases hjid : j = id
    · subst hjid
      simpa using hbeaten winner hwon hj
    · simpa [hjid] using hwon.others j hj

/-- A step of the mesh alone. -/
theorem Safe.mesh (h : Safe g w) (hlater : w.mesh.Later IsClaim m')
    (hwritten : m'.Written (Mine g)) : Safe g { w with mesh := m' } where
  written := hwritten
  sound := fun id => (h.sound id).later hlater
  won := by
    intro winner hwinner
    have hwon := h.won winner hwinner
    exact ⟨hwon.above, fun r => hlater.seen _ _ (hwon.everywhere r), hwon.others⟩

/-- Whoever gets through the confirmation has won. -/
theorem Safe.won_of_confirmed (h : Safe g w)
    {task t : Task} (hn : (w.parties id).attempts n = some (.confirming task))
    (hown : ∀ r, ∀ t ∈ w.mesh.inFlight (.agent id) r, ¬ IsClaim t)
    (hothers : ∀ v, ∀ t ∈ w.mesh.inFlight v id, ¬ IsClaim t)
    (hread : w.mesh.read g.rank id = some t)
    (hmine : confirmOwnership t (g.config id).agentId = true) :
    g.rank .issuer < g.rank (.agent id) ∧ (∀ r, w.mesh.Seen (.agent id) r) ∧
      ∀ j, j ≠ id → Beaten g id j (w.parties j).overtake := by
  have hstrongest := strongest_of_confirmed h.written hread hmine
  obtain ⟨hissuer, hreaches⟩ := (h.sound id).confirming n task hn
  refine ⟨lt_of_ne_agent (by simp) (hstrongest _ hissuer),
    fun r => Mesh.seen_of_reaches (hreaches r) (hown r), fun j hj => beaten_overtake ?_ ?_⟩
  · -- A claim that is waiting for its confirmation has arrived here, and is weaker.
    intro k t' hk
    have harrived := Mesh.seen_of_reaches (((h.sound j).confirming k t' hk).2 id)
      (hothers (.agent j))
    exact lt_of_ne_agent (by simpa using hj) (hstrongest _ harrived)
  · cases hconfirmed : (w.parties j).confirmed with
    | false => rfl
    | true =>
        have hwon := h.won j hconfirmed
        have hweak := (hwon.others id hj.symm).confirming n task hn
        exact absurd hweak (hstrongest _ (hwon.everywhere id)).not_gt

theorem Safe.readback (h : Safe g w) {task : Task} {late : Bool}
    {read : Option Task} (hread : ∀ t, read = some t → w.mesh.read g.rank id = some t)
    (hn : (w.parties id).attempts n = some (.confirming task))
    (hown : ∀ r, ∀ t ∈ w.mesh.inFlight (.agent id) r, ¬ IsClaim t)
    (hothers : ∀ v, ∀ t ∈ w.mesh.inFlight v id, ¬ IsClaim t) :
    Safe g { w with parties := fun j =>
      if j = id then (w.parties id).readback (g.config id).agentId n task read late
      else (w.parties j).overtake } := by
  have hovertaken : ∀ winner, Won g w winner → ∀ j, j ≠ winner →
      Beaten g winner j (w.parties j).overtake := fun winner hwon j hj =>
    beaten_overtake (hwon.others j hj).confirming (hwon.others j hj).unconfirmed
  refine ⟨h.written, fun j => ?_, fun winner hwinner => ?_⟩
  · by_cases hj : j = id
    · subst hj
      simpa using (h.sound j).readback hn
    · simpa [hj] using (h.sound j).overtake
  by_cases hid : winner = id
  · subst hid
    suffices hwon : g.rank .issuer < g.rank (.agent winner) ∧
        (∀ r, w.mesh.Seen (.agent winner) r) ∧
        ∀ j, j ≠ winner → Beaten g winner j (w.parties j).overtake by
      exact ⟨hwon.1, hwon.2.1, fun j hj => by simpa [hj] using hwon.2.2 j hj⟩
    rcases confirmed_readback (by simpa using hwinner) with hold | ⟨t, ht, hmine⟩
    · have hwon := h.won winner hold
      exact ⟨hwon.above, hwon.everywhere, hovertaken winner hwon⟩
    · exact h.won_of_confirmed hn hown hothers (hread t ht) hmine
  · have hwon := h.won winner (by simpa [hid, Party.overtake] using hwinner)
    refine ⟨hwon.above, hwon.everywhere, fun j hj => ?_⟩
    by_cases hjid : j = id
    · subst hjid
      have hbeaten := hwon.others j hj
      suffices hkept : Beaten g winner j ((w.parties j).readback (g.config j).agentId n task
          read late) by simpa using hkept
      -- The claim of the winner is there and is stronger, so this readback confirms nothing.
      refine hbeaten.readback fun t ht => ?_
      cases hmine : confirmOwnership t (g.config j).agentId with
      | false => rfl
      | true =>
          have hstrongest := strongest_of_confirmed h.written (hread t ht) hmine
          have hweak := hbeaten.confirming n task hn
          exact absurd hweak (hstrongest _ (hwon.everywhere j)).not_gt
    · simpa [hjid] using hovertaken winner hwon j hj

theorem Safe.write (h : Safe g w) {nowNs : UInt64} {result : Write} {task : Task}
    (hn : (w.parties id).attempts n = some (.claiming task false)) :
    Safe g (w.step g (.write id n nowNs result)) := by
  have hsome : (w.parties id).attempts n ≠ none := by simp [hn]
  -- Who comes too late has been overtaken and does not write in time.
  have hbeaten : ∀ {q : Party} (winner : ι), Won g w winner → id ≠ winner →
      Beaten g winner id q := by
    intro q winner hwon hid
    exact absurd ((hwon.others id hid).claiming n task false hn) (by simp)
  have hsent := h.written.send (mine_claimTask (g := g) nowNs task id)
  simp only [step, hn]
  cases result with
  | done =>
      refine h.update (Mesh.later_send _ _) hsent ?_ rfl
        fun winner hwon hid => hbeaten winner hwon hid
      have hlater := (h.sound id).later
        (Mesh.later_send (.agent id) (claimTask nowNs task (g.config id).agentId))
      refine hlater.goto hsome (by simp) fun t _ => ?_
      have hclaim : IsClaim (claimTask nowNs task (g.config id).agentId) := rfl
      exact ⟨hlater.claiming n task false hn, fun r => Mesh.reaches_send _ hclaim r⟩
  | failed sent =>
      cases sent with
      | false =>
          exact h.update (.refl _) h.written ((h.sound id).finish hsome) rfl
            fun winner hwon hid => hbeaten winner hwon hid
      | true =>
          exact h.update (Mesh.later_send _ _) hsent
            (((h.sound id).later (Mesh.later_send _ _)).finish hsome) rfl
            fun winner hwon hid => hbeaten winner hwon hid

theorem Safe.step (h : Safe g w) {e : Event ι}
    (htimely : w.Timely e) : Safe g (w.step g e) := by
  cases e with
  | issue => exact h.mesh (Mesh.later_send _ _) (h.written.send g.task.2)
  | deliver v r => exact h.mesh (Mesh.later_deliver _ _) (h.written.deliver _ _)
  | dispatch id =>
      refine h.update (.refl _) h.written ((h.sound id).dispatch h.written) ?_ ?_
      · unfold Party.dispatch
        split <;> rfl
      · intro winner hwon hid
        exact (hwon.others id hid).dispatch h.written hwon.above (hwon.everywhere id)
  | check id nowNs laterNs barrier =>
      refine h.update (.refl _) h.written ((h.sound id).check _ _ _ _) ?_ ?_
      · unfold Party.check
        split
        · rfl
        · split_ifs <;> rfl
      · exact fun winner hwon hid => (hwon.others id hid).check _ _ _ _
  | write id n nowNs result =>
      by_cases hclaiming : ∃ task overtaken,
          (w.parties id).attempts n = some (.claiming task overtaken)
      · obtain ⟨task, overtaken, hn⟩ := hclaiming
        obtain rfl := htimely.gap id n nowNs result task overtaken rfl hn
        exact h.write hn
      · rw [World.step]
        split
        next task overtaken hn => exact absurd ⟨task, overtaken, hn⟩ hclaiming
        next => exact h
  | readback id n failed late =>
      rw [World.step]
      split
      next task hn =>
        refine h.readback ?_ hn (htimely.own id n failed late rfl)
          (htimely.others id n failed late rfl)
        intro t ht
        split_ifs at ht
        exact ht
      next => exact h
  | publish id n progress =>
      rw [World.step]
      split
      next task hn =>
        exact h.mesh (Mesh.later_send _ _) (h.written.send (mine_progress progress task id))
      next => exact h
  | finish id n =>
      rw [World.step]
      split
      next task hn =>
        refine h.update (.refl _) h.written ((h.sound id).finish (n := n) (by simp [hn])) rfl ?_
        exact fun winner hwon hid => (hwon.others id hid).finish
      next => exact h

theorem claim_exclusive (g : Setting ι κ)
    (events : List (Event ι)) (hrun : Machine.Along (step g) Timely start events) :
    (∀ id id', ((events.foldl (step g) start).parties id).confirmed = true →
      ((events.foldl (step g) start).parties id').confirmed = true → id = id') ∧
    (∀ id n n', ((events.foldl (step g) start).parties id).attempts n ≠ none →
      ((events.foldl (step g) start).parties id).attempts n' ≠ none → n = n') := by
  have hsafe := hrun.invariant safe_start fun w e h he => h.step he
  refine ⟨fun id id' hid hid' => ?_, fun id => (hsafe.sound id).one⟩
  by_contra hne
  have hbeaten := (hsafe.won id hid).others id' (Ne.symm hne)
  rw [hbeaten.unconfirmed] at hid'
  cases hid'

/-- A text task that two agents can serve, the second of them the stronger writer. -/
def twoAgents : Setting (Fin 2) Nat where
  task := ⟨
    { taskId := "t", clientId := "c", assignedAgent := "", targetAgent := "", modelRequired := 0
      modelName := "qwen", messagesJson := "[]", temperature := 0, maxTokens := 16
      stream := false, status := 0, priority := 0, createdAtNs := 1, assignedAtNs := 0
      startedAtNs := 0, completedAtNs := 0, deadlineNs := 0, retryCount := 0, finishReason := ""
      tSerializationNs := 0, tTransportSendNs := 0, tAgentQueueNs := 0, tInferenceNs := 0
      tTransportReturnNs := 0, tDeserializationNs := 0 }, rfl⟩
  config := fun id => ⟨if id = 0 then "a" else "b", .text, ""⟩
  rank
    | .issuer => 0
    | .agent id => id + 1
  agentId_injective := by
    intro i j h
    revert i j
    decide
  rank_injective := by
    rintro (_ | i) (_ | j) h
    · rfl
    · simp at h
    · simp at h
    · exact congrArg Writer.agent (Fin.ext (by simpa using h))

/-- Both read the task as pending and write their claims. The weaker one reads back that it
has lost, the stronger one goes on. -/
theorem claim_exclusive_two :
    let events : List (Event (Fin 2)) :=
      [.issue, .deliver .issuer 0, .deliver .issuer 1, .dispatch 0, .dispatch 1, .check 0 2 2 true,
        .check 1 2 2 true, .write 0 0 3 .done, .write 1 0 3 .done, .deliver (.agent 0) 0,
        .deliver (.agent 0) 1, .deliver (.agent 1) 0, .deliver (.agent 1) 1,
        .readback 0 0 false false, .readback 1 0 false false]
    (∀ id id', ((events.foldl (step twoAgents) start).parties id).confirmed = true →
      ((events.foldl (step twoAgents) start).parties id').confirmed = true → id = id') ∧
    ((events.foldl (step twoAgents) start).parties 0).confirmed = false ∧
    ((events.foldl (step twoAgents) start).parties 1).confirmed = true := by
  intro events
  have hrun : Machine.Along (step twoAgents) (fun w e => w.timely e = true) start events := by
    decide +kernel
  refine ⟨(claim_exclusive twoAgents events ?_).1, by decide +kernel, by decide +kernel⟩
  exact hrun.mono fun w e he => timely_of_timely he

end World

end DdsOrchestrator.Agent
