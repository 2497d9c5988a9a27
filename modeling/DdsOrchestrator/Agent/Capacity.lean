import DdsOrchestrator.Agent.Dispatcher

/-!
What the dispatcher and its attempts keep in every interleaving of their steps. The permits
that are free and those that are held make up the slots of the agent, the busy slots are the
ones that attempts hold, and no attempt with a permit is ever refused a slot. A task is marked
as long as an attempt is at it, and for good where one has panicked, so no task is ever worked
on by two attempts.
-/

namespace DdsOrchestrator.Agent.Dispatcher

open Roster

/-- The attempt is at work, or it has panicked. -/
abbrev MarkedFor (id : String) (a : Running) : Prop := a.Marked ∧ a.taskId = id

structure Inv (slots : UInt32) (d : Dispatcher) : Prop where
  slotsTotal : d.status.slotsTotal = slots
  permits : d.permits + d.turn.permits + total Running.permits d.attempts = slots.toNat
  busy : d.status.slotsBusy.toNat = total Running.slots d.attempts
  queue : d.queue.length ≤ queueCap slots
  distinct : Distinct Running.Marked Running.taskId d.attempts
  claimed : ∀ id, id ∈ d.claimed ↔ Holds (MarkedFor id) d.attempts
  cleared : ∀ id, d.turn = .cleared id → id ∉ d.claimed

theorem inv_start (status : AgentStatus) (h : status.slotsBusy = 0) :
    Inv status.slotsTotal (start status) where
  slotsTotal := rfl
  permits := rfl
  busy := by simp [start, h]
  queue := Nat.zero_le _
  distinct := distinct_nil
  claimed := fun id => by simp [start, not_holds_nil]
  cleared := fun id h => by simp [start] at h

/-! ### Steps of an attempt -/

/-- What a step of the attempt `n` can do: it goes to another stage, and what it holds less or
more is given back or taken. -/
structure Moved (d : Dispatcher) (n : Nat) (a : Running) (stage : AttemptStage) (d' : Dispatcher) :
    Prop where
  attempts : d'.attempts = d.attempts.set n { a with stage }
  turn : d'.turn = d.turn
  queue : d'.queue = d.queue
  slotsTotal : d'.status.slotsTotal = d.status.slotsTotal
  permits : d'.permits + stage.share.permits = d.permits + a.permits
  slots : d'.status.slotsBusy.toNat + a.slots = d.status.slotsBusy.toNat + stage.share.slots
  marked : (d'.claimed = d.claimed ∧ (stage.Marked ↔ a.Marked)) ∨
    (d'.claimed = d.claimed.erase a.taskId ∧ a.Marked ∧ ¬ stage.Marked)

variable {d d' : Dispatcher} {n : Nat} {a : Running} {stage : AttemptStage} {slots : UInt32}

theorem moved_self (hn : d.attempts[n]? = some a) : Moved d n a a.stage d where
  attempts := by
    refine List.ext_getElem? fun i => ?_
    rw [getElem?_set_of_some hn]
    split
    · next hi => rw [hi, hn]
    · rfl
  turn := rfl
  queue := rfl
  slotsTotal := rfl
  permits := rfl
  slots := rfl
  marked := .inl ⟨rfl, Iff.rfl⟩

/-- The attempt goes on with what it holds. -/
theorem moved_move (hshare : stage.share = a.stage.share) (hmarked : stage.Marked ↔ a.Marked) :
    Moved d n a stage (d.move n a stage) where
  attempts := rfl
  turn := rfl
  queue := rfl
  slotsTotal := rfl
  permits := by simp [move, hshare, Running.permits]
  slots := by simp [move, hshare, Running.slots]
  marked := .inl ⟨rfl, hmarked⟩

/-- Recording how the processing ended does not touch the slots. -/
theorem Moved.record (h : Moved d n a stage d') (completed : Option Bool) :
    Moved d n a stage (d'.record completed) := by
  obtain ⟨hattempts, hturn, hqueue, htotal, hpermits, hslots, hmarked⟩ := h
  cases completed with
  | none => exact ⟨hattempts, hturn, hqueue, htotal, hpermits, hslots, hmarked⟩
  | some completed =>
      cases completed <;> exact ⟨hattempts, hturn, hqueue, htotal, hpermits, hslots, hmarked⟩

/-- The attempt gives back its slot and keeps the permit. -/
theorem moved_releaseSlot (hheld : a.stage.share = .slot)
    (hbusy : a.slots ≤ d.status.slotsBusy.toNat)
    (hshare : stage.share = .permit) (hmarked : stage.Marked ↔ a.Marked) :
    Moved d n a stage { d.move n a stage with status := d.status.releaseSlot } where
  attempts := rfl
  turn := rfl
  queue := rfl
  slotsTotal := rfl
  permits := by simp [move, hshare, Running.permits, hheld, Share.permits]
  slots := by
    have hone : a.slots = 1 := by simp [Running.slots, hheld, Share.slots]
    have hrelease := AgentStatus.slotsBusy_releaseSlot (s := d.status) (by omega)
    simp only [hone, hshare, Share.slots]
    omega
  marked := .inl ⟨rfl, hmarked⟩

/-- The attempt gives back its permit. -/
theorem moved_releasePermit (hheld : a.stage.share = .permit) (hshare : stage.share = .nothing)
    (hmarked : stage.Marked ↔ a.Marked) :
    Moved d n a stage { d.move n a stage with permits := d.permits + 1 } where
  attempts := rfl
  turn := rfl
  queue := rfl
  slotsTotal := rfl
  permits := by simp [hshare, Running.permits, hheld, Share.permits]
  slots := by simp [move, hshare, Running.slots, hheld, Share.slots]
  marked := .inl ⟨rfl, hmarked⟩

theorem moved_acquire {status : AgentStatus} (hstage : a.stage = .acquiring)
    (hslot : d.status.acquireSlot = some status) :
    Moved d n a .processing { d.move n a .processing with status } where
  attempts := rfl
  turn := rfl
  queue := rfl
  slotsTotal := AgentStatus.slotsTotal_of_acquireSlot hslot
  permits := by simp [move, Running.permits, hstage, AttemptStage.share, Share.permits]
  slots := by
    simp [Running.slots, hstage, AttemptStage.share, Share.slots,
      AgentStatus.slotsBusy_of_acquireSlot hslot]
  marked := .inl ⟨rfl, by simp [Running.Marked, AttemptStage.Marked, AttemptStage.AtWork, hstage]⟩

theorem moved_unmark {share : Share} (hstage : a.stage = .leaving share) :
    Moved d n a (.freeing share)
      { d.move n a (.freeing share) with claimed := d.claimed.erase a.taskId } where
  attempts := rfl
  turn := rfl
  queue := rfl
  slotsTotal := rfl
  permits := by simp [move, Running.permits, hstage, AttemptStage.share]
  slots := by simp [move, Running.slots, hstage, AttemptStage.share]
  marked := .inr ⟨rfl, by simp [Running.Marked, AttemptStage.Marked, AttemptStage.AtWork, hstage],
    by simp [AttemptStage.Marked, AttemptStage.AtWork, AttemptStage.Panicked]⟩

theorem act_moved (agentId : String) (hn : d.attempts[n]? = some a)
    (hbusy : a.slots ≤ d.status.slotsBusy.toNat) (e : Event) :
    ∃ stage, Moved d n a stage (d.act agentId n a e) := by
  have hstay : ∃ stage, Moved d n a stage d := ⟨a.stage, moved_self hn⟩
  cases e with
  | write m ok =>
      dsimp only [act]
      split
      next hstage =>
        refine ⟨_, moved_move ?_ (iff_of_true ?_ ?_)⟩
        · cases ok <;> simp [hstage, AttemptStage.share]
        · cases ok <;> simp [AttemptStage.Marked, AttemptStage.AtWork]
        · simp [Running.Marked, AttemptStage.Marked, AttemptStage.AtWork, hstage]
      next => exact hstay
  | readback m sample late =>
      dsimp only [act]
      split
      next hstage _ =>
        exact ⟨_, moved_move (by simp [hstage, AttemptStage.share])
          (by simp [Running.Marked, AttemptStage.Marked, AttemptStage.AtWork, hstage])⟩
      next hstage _ =>
        exact ⟨_, moved_move (by simp [hstage, AttemptStage.share])
          (by simp [Running.Marked, AttemptStage.Marked, AttemptStage.AtWork, hstage])⟩
      next => exact hstay
  | slot m =>
      dsimp only [act]
      split
      next hstage =>
        split
        next status hslot => exact ⟨_, moved_acquire hstage hslot⟩
        next =>
          exact ⟨_, moved_releasePermit (by simp [hstage, AttemptStage.share]) rfl
            (by simp [Running.Marked, AttemptStage.Marked, AttemptStage.AtWork, hstage])⟩
      next => exact hstay
  | finish m completed =>
      dsimp only [act]
      split
      next hstage =>
        have hmove : Moved d n a (.leaving .slot) (d.move n a (.leaving .slot)) :=
          moved_move (by simp [hstage, AttemptStage.share])
            (by simp [Running.Marked, AttemptStage.Marked, AttemptStage.AtWork, hstage])
        exact ⟨_, hmove.record completed⟩
      next => exact hstay
  | unmark m =>
      dsimp only [act]
      split
      next share hstage => exact ⟨_, moved_unmark hstage⟩
      next => exact hstay
  | free m =>
      dsimp only [act]
      split
      next hstage =>
        exact ⟨_, moved_releaseSlot (by simp [hstage, AttemptStage.share]) hbusy rfl
          (by simp [Running.Marked, AttemptStage.Marked, AttemptStage.AtWork,
            AttemptStage.Panicked, hstage])⟩
      next hstage =>
        exact ⟨_, moved_releaseSlot (by simp [hstage, AttemptStage.share]) hbusy rfl
          (by simp [Running.Marked, AttemptStage.Marked, AttemptStage.Panicked, hstage])⟩
      next hstage =>
        exact ⟨_, moved_releasePermit (by simp [hstage, AttemptStage.share]) rfl
          (by simp [Running.Marked, AttemptStage.Marked, AttemptStage.AtWork,
            AttemptStage.Panicked, hstage])⟩
      next hstage =>
        exact ⟨_, moved_releasePermit (by simp [hstage, AttemptStage.share]) rfl
          (by simp [Running.Marked, AttemptStage.Marked, AttemptStage.Panicked, hstage])⟩
      next => exact hstay
  | panic m =>
      have hunwind : a.stage.AtWork →
          ∃ stage, Moved d n a stage (d.move n a (.unwinding a.stage.share)) :=
        fun hwork => ⟨_, moved_move rfl (iff_of_true (.inr trivial) (.inl hwork))⟩
      dsimp only [act]
      split
      · exact hstay
      · exact hstay
      next hfree hpanicked =>
        refine hunwind ?_
        cases hstage : a.stage with
        | freeing share => exact absurd hstage (hfree share)
        | unwinding share => exact absurd hstage (hpanicked share)
        | _ => trivial
  | _ => exact hstay

/-- The step of an attempt keeps the invariant. -/
theorem Inv.moved (h : Inv slots d) (hn : d.attempts[n]? = some a) (hm : Moved d n a stage d') :
    Inv slots d' where
  slotsTotal := hm.slotsTotal.trans h.slotsTotal
  permits := by
    have hset := total_set Running.permits hn { a with stage }
    have hnew : Running.permits { a with stage } = stage.share.permits := rfl
    have := h.permits
    have := hm.permits
    rw [hm.attempts, hm.turn]
    omega
  busy := by
    have hset := total_set Running.slots hn { a with stage }
    have hnew : Running.slots { a with stage } = stage.share.slots := rfl
    have := h.busy
    have := hm.slots
    rw [hm.attempts]
    omega
  queue := by
    rw [hm.queue]
    exact h.queue
  distinct := by
    rw [hm.attempts]
    refine h.distinct.set hn fun hb => ⟨?_, rfl⟩
    rcases hm.marked with ⟨-, hiff⟩ | ⟨-, -, hnot⟩
    · exact hiff.mp hb
    · exact absurd hb hnot
  claimed := by
    intro id
    rcases hm.marked with ⟨hsame, hiff⟩ | ⟨herase, hold, hnot⟩
    · rw [hm.attempts, hsame, h.claimed]
      exact (holds_set_of_iff hn (and_congr_left fun _ => hiff)).symm
    · rw [hm.attempts, herase, Finset.mem_erase, h.claimed]
      constructor
      · rintro ⟨hne, i, b, hi, hb, hid⟩
        have hin : i ≠ n := by
          rintro rfl
          obtain rfl : a = b := Option.some.inj (hn.symm.trans hi)
          exact hne hid.symm
        exact ⟨i, b, by simpa [getElem?_set_of_some hn, hin] using hi, hb, hid⟩
      · rintro ⟨i, b, hi, hb, hid⟩
        rw [getElem?_set_of_some hn] at hi
        split at hi
        · obtain rfl := Option.some.inj hi
          exact absurd hb hnot
        · next hin =>
            refine ⟨?_, i, b, hi, hb, hid⟩
            rintro rfl
            exact hin (h.distinct i n b a hi hn hb hold hid)
  cleared := by
    intro id hid hmem
    rw [hm.turn] at hid
    refine h.cleared id hid ?_
    rcases hm.marked with ⟨hsame, -⟩ | ⟨herase, -, -⟩
    · rwa [← hsame]
    · rw [herase] at hmem
      exact Finset.mem_of_mem_erase hmem

theorem Inv.ofAttempt (h : Inv slots d) (agentId : String) (n : Nat) (e : Event) :
    Inv slots (d.ofAttempt agentId n e) := by
  unfold Dispatcher.ofAttempt
  split
  next a hn =>
    have hbusy : a.slots ≤ d.status.slotsBusy.toNat := h.busy ▸ le_total Running.slots hn
    obtain ⟨stage, hm⟩ := act_moved agentId hn hbusy e
    exact h.moved hn hm
  next => exact h

/-! ### Steps of the dispatcher -/

/-- The dispatcher goes on with another task, or further with the one it has. -/
theorem Inv.goto (h : Inv slots d) {turn : Turn} {permits : Nat} {queue : List Dataspace.Task}
    (hpermits : permits + turn.permits = d.permits + d.turn.permits)
    (hqueue : queue.length ≤ d.queue.length)
    (hcleared : ∀ id, turn = .cleared id → id ∉ d.claimed) :
    Inv slots { d with turn, permits, queue } where
  slotsTotal := h.slotsTotal
  permits := by
    have := h.permits
    dsimp only
    omega
  busy := h.busy
  queue := hqueue.trans h.queue
  distinct := h.distinct
  claimed := h.claimed
  cleared := hcleared

theorem Inv.pass (h : Inv slots d) (hturn : d.turn.permits = 1) : Inv slots d.pass :=
  h.goto (by rw [hturn]; rfl) (Nat.le_refl _) (by simp)

theorem Inv.spawn (h : Inv slots d) {taskId : String} (hturn : d.turn = .cleared taskId) :
    Inv slots { d with
      turn := .waiting, claimed := insert taskId d.claimed
      attempts := d.attempts ++ [{ taskId, stage := .writing }] } where
  slotsTotal := h.slotsTotal
  permits := by
    have := h.permits
    rw [hturn] at this
    simp only [Turn.permits, total_concat, Running.permits, AttemptStage.share,
      Share.permits] at this ⊢
    omega
  busy := by
    rw [total_concat]
    exact h.busy
  queue := h.queue
  distinct := by
    refine h.distinct.concat fun _ i c hi hc hid => ?_
    exact h.cleared taskId hturn ((h.claimed taskId).mpr ⟨i, c, hi, hc, hid⟩)
  claimed := by
    intro id
    rw [holds_concat, Finset.mem_insert, h.claimed, or_comm]
    refine or_congr_right ⟨?_, ?_⟩
    · rintro rfl
      exact ⟨.inl trivial, rfl⟩
    · rintro ⟨-, hid⟩
      exact hid.symm
  cleared := fun id hid => by simp at hid

theorem Inv.step (h : Inv slots d) (config : ClaimConfig) (e : Event) :
    Inv slots (d.step config e) := by
  cases e with
  | offer task =>
      dsimp only [Dispatcher.step]
      split
      next hroom =>
        rw [h.slotsTotal] at hroom
        have hqueue : (d.queue ++ [task]).length ≤ queueCap slots := by
          rw [List.length_append]
          exact hroom
        exact ⟨h.slotsTotal, h.permits, h.busy, hqueue, h.distinct, h.claimed, h.cleared⟩
      next => exact h
  | receive =>
      dsimp only [Dispatcher.step]
      split
      next task rest hturn hqueue =>
        exact h.goto (by simp [Turn.permits, hturn]) (by simp [hqueue]) (by simp)
      next => exact h
  | permit =>
      dsimp only [Dispatcher.step]
      split
      next taskId permits hturn hpermits =>
        exact h.goto (by simp [Turn.permits, hturn, hpermits]) (Nat.le_refl _) (by simp)
      next => exact h
  | read sample =>
      dsimp only [Dispatcher.step]
      split
      next taskId hturn =>
        split
        next task =>
          split
          · exact h.goto (by simp [Turn.permits, hturn]) (Nat.le_refl _) (by simp)
          · exact h
        next => exact h.pass (by simp [hturn, Turn.permits])
      next => exact h
  | check nowNs laterNs barrier =>
      dsimp only [Dispatcher.step]
      split
      next task hturn =>
        split
        next hcheck =>
          refine h.goto (by simp [Turn.permits, hturn]) (Nat.le_refl _) fun id hid => ?_
          obtain rfl : task.taskId = id := Turn.cleared.inj hid
          rw [Bool.and_eq_true, Bool.and_eq_true] at hcheck
          simpa using (isEligibleWith_iff.mp hcheck.1.1).1
        next => exact h.pass (by simp [hturn, Turn.permits])
      next => exact h
  | spawn =>
      dsimp only [Dispatcher.step]
      split
      next taskId hturn => exact h.spawn hturn
      next => exact h
  | write n ok => exact h.ofAttempt _ n _
  | readback n sample late => exact h.ofAttempt _ n _
  | slot n => exact h.ofAttempt _ n _
  | finish n completed => exact h.ofAttempt _ n _
  | unmark n => exact h.ofAttempt _ n _
  | free n => exact h.ofAttempt _ n _
  | panic n => exact h.ofAttempt _ n _

/-! ### Results -/

/-- An attempt that has a permit and no slot finds one free. -/
theorem Inv.acquireSlot (h : Inv slots d) (hn : d.attempts[n]? = some a)
    (hstage : a.stage = .acquiring) : d.status.acquireSlot.isSome = true := by
  have hlt : total Running.slots d.attempts < total Running.permits d.attempts :=
    total_lt_total (fun b => Share.slots_le_permits b.stage.share) hn
      (by simp [Running.slots, Running.permits, hstage, AttemptStage.share, Share.slots,
        Share.permits])
  rw [AgentStatus.acquireSlot_isSome, UInt32.lt_iff_toNat_lt, h.slotsTotal, h.busy]
  have := h.permits
  omega

/-- The attempt has come to its end. -/
def Over (a : Running) : Prop := a.stage.share = .nothing ∧ ¬ a.stage.AtWork

theorem Inv.all_over (h : Inv slots d) (hturn : d.turn.permits = 0)
    (hover : ∀ a ∈ d.attempts, Over a) :
    d.permits = slots.toNat ∧ d.status.slotsBusy.toNat = 0 := by
  have hpermits : total Running.permits d.attempts = 0 :=
    total_eq_zero fun a ha => by simp [Running.permits, (hover a ha).1, Share.permits]
  have hslots : total Running.slots d.attempts = 0 :=
    total_eq_zero fun a ha => by simp [Running.slots, (hover a ha).1, Share.slots]
  have := h.permits
  exact ⟨by omega, h.busy.trans hslots⟩

section

variable (agentId hostname model specialization : String) (slots : UInt32) (config : ClaimConfig)

/-- The dispatcher after some steps of its own and of its attempts. -/
def after (events : List Event) : Dispatcher :=
  events.foldl (step config) (start (.new agentId hostname model specialization slots))

theorem inv_after (events : List Event) :
    Inv slots (after agentId hostname model specialization slots config events) :=
  Machine.foldl_invariant events
    (inv_start (.new agentId hostname model specialization slots) rfl)
    fun _ e h => h.step config e

/-- No permit and no slot is lost or given out twice, and the heartbeat reports as busy the
slots that are held. -/
theorem capacity_kept (events : List Event) (emaLatencyMs : Dataspace.FloatBits)
    (nowNs uptimeSeconds : UInt64) :
    let d := after agentId hostname model specialization slots config events
    let beat := d.status.toDds emaLatencyMs nowNs uptimeSeconds
    d.permits + d.turn.permits + total Running.permits d.attempts = slots.toNat ∧
      beat.slotsTotal = slots ∧ beat.slotsBusy.toNat = total Running.slots d.attempts ∧
      beat.slotsBusy ≤ slots ∧ d.queue.length ≤ queueCap slots ∧
      (∀ (n : Nat) (a : Running), d.attempts[n]? = some a → a.stage = .acquiring →
        d.status.acquireSlot.isSome = true) ∧
      (d.turn.permits = 0 → (∀ a ∈ d.attempts, Over a) →
        d.permits = slots.toNat ∧ beat.slotsBusy.toNat = 0) := by
  intro d beat
  have h : Inv slots d := inv_after _ _ _ _ _ _ _
  refine ⟨h.permits, h.slotsTotal, h.busy, ?_, h.queue,
    fun n a hn hstage => h.acquireSlot hn hstage,
    fun hturn hover => h.all_over hturn hover⟩
  have hle : total Running.slots d.attempts ≤ total Running.permits d.attempts :=
    total_mono fun a => Share.slots_le_permits a.stage.share
  have hpermits := h.permits
  have hbusy : beat.slotsBusy.toNat = total Running.slots d.attempts := h.busy
  exact UInt32.le_iff_toNat_le.mpr (by omega)

/-- A task is never worked on by two attempts, and once an attempt at it has panicked it is not
worked on any more. The marked tasks are those that are worked on and those given up so. -/
theorem one_attempt_per_task (events : List Event) :
    let d := after agentId hostname model specialization slots config events
    (∀ (i j : Nat) (a b : Running), d.attempts[i]? = some a → d.attempts[j]? = some b →
      a.taskId = b.taskId → a.stage.AtWork → b.stage.AtWork → i = j) ∧
      (∀ (i j : Nat) (a b : Running), d.attempts[i]? = some a → d.attempts[j]? = some b →
        a.taskId = b.taskId → a.stage.Panicked → ¬ b.stage.AtWork) ∧
      ∀ id, id ∈ d.claimed ↔
        ∃ a ∈ d.attempts, a.taskId = id ∧ (a.stage.AtWork ∨ a.stage.Panicked) := by
  intro d
  have h : Inv slots d := inv_after _ _ _ _ _ _ _
  refine ⟨fun i j a b hi hj hid ha hb => h.distinct i j a b hi hj (.inl ha) (.inl hb) hid,
    fun i j a b hi hj hid ha hb => ?_, fun id => (h.claimed id).trans ⟨?_, ?_⟩⟩
  · obtain rfl := h.distinct i j a b hi hj (.inr ha) (.inl hb) hid
    obtain rfl : a = b := Option.some.inj (hi.symm.trans hj)
    cases hstage : a.stage with
    | unwinding share => rw [hstage] at hb; exact hb
    | _ => rw [hstage] at ha; exact ha
  · rintro ⟨i, a, hi, ha, hid⟩
    exact ⟨a, List.mem_of_getElem? hi, hid, ha⟩
  · rintro ⟨a, ha, hid, hmarked⟩
    obtain ⟨i, hi⟩ := List.getElem?_of_mem ha
    exact ⟨i, a, hi, hmarked, hid⟩

end

end DdsOrchestrator.Agent.Dispatcher
