import Mathlib.Data.Finset.Card
import DdsOrchestrator.Dataspace.Dispatch

/-!
No stream sleeps over its samples. A reader that has samples to take triggers the waitset until
they are taken, so the driver comes round to its stream however many notifications it has to
give out first, and a stream that is not asleep goes on to its next take by itself. Once the
waitset has been dropped no stream sleeps any more, and each comes to its end.
-/

namespace DdsOrchestrator.Dataspace.SharedWaitSet

open Machine Roster StreamLoop

variable {s : SharedWaitSet} {n : Nat} {l l' : StreamLoop}

/-! ### One stream -/

/-- What a step makes of the stream `n`. -/
def next (s : SharedWaitSet) (n : Nat) (l : StreamLoop) : Event → StreamLoop
  | .deliver m => if m = n then { l with unread := l.unread + 1 } else l
  | .notify m => if m = n ∧ n ∈ s.pending then { l with notify := l.notify.notifyOne } else l
  | .stream m a => if m = n then (l.act s.isShutdown a).getD l else l
  | .drop m => if m = n then { l with position := .ended } else l
  | .wake m =>
    if m = n ∧ ∃ rest ∈ s.closing, n ∈ rest then { l with notify := l.notify.notifyWaiters } else l
  | .register _ | .wait | .waitFailed | .close | .abort => l

theorem streams_onStream (h : s.streams[n]? = some l) (m : Nat) (f : StreamLoop → StreamLoop) :
    (s.onStream m f).streams[n]? = some (if m = n then f l else l) := by
  unfold onStream
  split
  next k hm =>
    rw [setStream, getElem?_set_of_some hm]
    by_cases hmn : m = n
    · subst hmn
      obtain rfl : k = l := Option.some.inj (hm.symm.trans h)
      simp
    · simp [hmn, Ne.symm hmn, h]
  next hm =>
    have hmn : m ≠ n := by
      rintro rfl
      rw [h] at hm
      cases hm
    rw [if_neg hmn, h]

theorem streams_step (h : s.streams[n]? = some l) (e : Event) :
    (s.step e).streams[n]? = some (s.next n l e) := by
  cases e with
  | register unread =>
      dsimp only [step]
      split
      · exact h
      · exact (List.getElem?_append_left (List.getElem?_eq_some_iff.mp h).1).trans h
  | deliver m => exact streams_onStream h m _
  | wait | waitFailed | abort =>
      dsimp only [step]
      split <;> exact h
  | notify m =>
      dsimp only [step, next]
      by_cases hm : m ∈ s.pending
      · rw [if_pos hm]
        refine (streams_onStream h m _).trans ?_
        by_cases hmn : m = n
        · subst hmn
          simp [hm]
        · simp [hmn]
      · rw [if_neg hm]
        have hnot : ¬ (m = n ∧ n ∈ s.pending) := by
          rintro ⟨rfl, hn⟩
          exact hm hn
        rw [if_neg hnot, h]
  | stream m a =>
      dsimp only [step, next]
      by_cases hmn : m = n
      · subst hmn
        have hmoved : s.moved m a = l.act s.isShutdown a := by simp [moved, h]
        rw [hmoved, if_pos rfl]
        cases l.act s.isShutdown a with
        | none => exact h
        | some l' => simp [setStream, getElem?_set_of_some h]
      · rw [if_neg hmn]
        split
        next l' hl' =>
          obtain ⟨k, hk, -⟩ := Option.bind_eq_some_iff.mp hl'
          simp [setStream, getElem?_set_of_some hk, Ne.symm hmn, h]
        next => exact h
  | drop m => exact streams_onStream h m _
  | close =>
      dsimp only [step]
      split <;> exact h
  | wake m =>
      dsimp only [step, next]
      split
      next rest hrest =>
        rw [hrest]
        by_cases hm : m ∈ rest
        · rw [if_pos hm]
          refine (streams_onStream h m _).trans ?_
          by_cases hmn : m = n
          · subst hmn
            simp [hm]
          · simp [hmn]
        · rw [if_neg hm]
          have hnot : ¬ (m = n ∧ ∃ rest' ∈ some rest, n ∈ rest') := by
            rintro ⟨rfl, rest', hsome, hn⟩
            obtain rfl : rest = rest' := Option.some.inj hsome
            exact hm hn
          rw [if_neg hnot, h]
      next hnone =>
        have hnot : ¬ (m = n ∧ ∃ rest ∈ s.closing, n ∈ rest) := by
          rintro ⟨-, rest, hrest, -⟩
          rw [hnone] at hrest
          cases hrest
        rw [if_neg hnot, h]

@[simp] theorem onStream_pending (m : Nat) (f : StreamLoop → StreamLoop) :
    (s.onStream m f).pending = s.pending := by
  unfold onStream
  split <;> rfl

@[simp] theorem onStream_closing (m : Nat) (f : StreamLoop → StreamLoop) :
    (s.onStream m f).closing = s.closing := by
  unfold onStream
  split <;> rfl

@[simp] theorem onStream_aborted (m : Nat) (f : StreamLoop → StreamLoop) :
    (s.onStream m f).aborted = s.aborted := by
  unfold onStream
  split <;> rfl

theorem length_onStream (m : Nat) (f : StreamLoop → StreamLoop) :
    (s.onStream m f).streams.length = s.streams.length := by
  unfold onStream
  split
  · exact List.length_set
  · rfl

/-- A stream is one that was there before, or it has just been registered. -/
theorem streams_step_eq_some {e : Event} (h : (s.step e).streams[n]? = some l') :
    (∃ l, s.streams[n]? = some l ∧ l' = s.next n l e) ∨ l'.position = .top := by
  cases hl : s.streams[n]? with
  | some l => exact .inl ⟨l, rfl, Option.some.inj (h.symm.trans (streams_step hl e))⟩
  | none =>
      have hlen : s.streams.length ≤ n := List.getElem?_eq_none_iff.mp hl
      have hlt : n < (s.step e).streams.length := (List.getElem?_eq_some_iff.mp h).1
      have hsame : (s.step e).streams.length ≠ s.streams.length := by omega
      cases e with
      | register unread =>
          dsimp only [step] at h
          split at h
          · rw [hl] at h
            cases h
          · rw [List.getElem?_append_right hlen] at h
            have hfresh := List.mem_singleton.mp (List.mem_of_getElem? h)
            exact .inr (by rw [hfresh])
      | deliver m => exact absurd (length_onStream m _) hsame
      | drop m => exact absurd (length_onStream m _) hsame
      | notify m | wake m =>
          dsimp only [step] at hsame
          split at hsame <;> try split at hsame
          all_goals first | exact absurd rfl hsame | exact absurd (length_onStream m _) hsame
      | stream m a =>
          dsimp only [step] at hsame
          split at hsame
          · exact absurd List.length_set hsame
          · exact absurd rfl hsame
      | wait | waitFailed | close | abort =>
          dsimp only [step] at hsame
          split at hsame <;> exact absurd rfl hsame

/-! ### What the streams keep -/

/-- From the arming on there is a future that can be notified. -/
def Armed (l : StreamLoop) : Prop :=
  match l.position with
  | .draining | .backingOff | .checking | .awaiting => l.notify.future.isSome = true
  | .top | .arming | .ended => True

theorem isSome_future_notifyOne (k : Notify) (h : k.future.isSome = true) :
    k.notifyOne.future.isSome = true := by
  unfold Notify.notifyOne
  split
  · rfl
  · exact h

theorem isSome_future_notifyWaiters (k : Notify) (h : k.future.isSome = true) :
    k.notifyWaiters.future.isSome = true := by
  unfold Notify.notifyWaiters
  split
  · rfl
  · exact h

theorem armed_notify (h : Armed l) {k : Notify}
    (hk : l.notify.future.isSome = true → k.future.isSome = true) :
    Armed { l with notify := k } := by
  obtain ⟨unread, notify, position⟩ := l
  cases position with
  | draining | backingOff | checking | awaiting => exact hk h
  | top | arming | ended => trivial

theorem armed_act {shutdown : Bool} {a : Act} (h : Armed l) (hact : l.act shutdown a = some l') :
    Armed l' := by
  obtain ⟨unread, notify, position⟩ := l
  cases a with
  | advance =>
      cases position with
      | top =>
          obtain rfl := Option.some.inj hact
          cases shutdown <;> trivial
      | arming =>
          obtain rfl := Option.some.inj hact
          rfl
      | backingOff =>
          obtain rfl := Option.some.inj hact
          exact h
      | checking =>
          obtain rfl := Option.some.inj hact
          cases shutdown
          · exact h
          · trivial
      | awaiting =>
          dsimp only [act] at hact
          split at hact
          · obtain rfl := Option.some.inj hact
            trivial
          · cases hact
      | draining | ended => cases hact
  | take k =>
      cases position with
      | draining =>
          dsimp only [act] at hact
          split_ifs at hact
          all_goals
            obtain rfl := Option.some.inj hact
            exact h
      | _ => cases hact
  | fail =>
      cases position with
      | draining =>
          obtain rfl := Option.some.inj hact
          exact h
      | _ => cases hact

theorem armed_next (h : Armed l) (e : Event) : Armed (s.next n l e) := by
  cases e with
  | deliver m =>
      dsimp only [next]
      split
      · exact h
      · exact h
  | notify m =>
      dsimp only [next]
      split
      · exact armed_notify h (isSome_future_notifyOne l.notify)
      · exact h
  | wake m =>
      dsimp only [next]
      split
      · exact armed_notify h (isSome_future_notifyWaiters l.notify)
      · exact h
  | stream m a =>
      dsimp only [next]
      split
      · cases hact : l.act s.isShutdown a with
        | none => exact h
        | some l' => exact armed_act h hact
      · exact h
  | drop m =>
      dsimp only [next]
      split
      · trivial
      · exact h
  | register _ | wait | waitFailed | close | abort => exact h

/-- The pass of the drop has come by the stream. -/
def Passed (s : SharedWaitSet) (n : Nat) : Prop := ∃ rest ∈ s.closing, n ∉ rest

structure Inv (s : SharedWaitSet) : Prop where
  armed : ∀ (n : Nat) (l : StreamLoop), s.streams[n]? = some l → Armed l
  aborted : s.aborted = true → s.closing = some ∅
  passed : ∀ (n : Nat) (l : StreamLoop), s.streams[n]? = some l → s.Passed n → ¬ l.Asleep

theorem isShutdown_of_passed (h : s.Passed n) : s.isShutdown = true := by
  obtain ⟨rest, hrest, -⟩ := h
  rw [isShutdown, hrest]
  rfl

theorem notifyOne_eq_some {k : Notify} (h : k.future.isSome = true) :
    k.notifyOne.future = some true := by
  obtain ⟨permit, future⟩ := k
  cases future with
  | none => cases h
  | some b => cases b <;> rfl

theorem notifyWaiters_eq_some {k : Notify} (h : k.future.isSome = true) :
    k.notifyWaiters.future = some true := by
  obtain ⟨permit, future⟩ := k
  cases future with
  | none => cases h
  | some b => cases b <;> rfl

theorem not_asleep_notify (h : ¬ l.Asleep) {k : Notify}
    (hk : l.notify.future = some true → k.future = some true) :
    ¬ StreamLoop.Asleep { l with notify := k } := by
  rintro ⟨hposition, hfuture⟩
  by_cases hl : l.notify.future = some true
  · exact hfuture (hk hl)
  · exact h ⟨hposition, hl⟩

/-- With the flag set no stream goes to sleep. -/
theorem position_act_of_shutdown {a : Act} (h : l.act true a = some l') :
    l'.position ≠ .awaiting := by
  obtain ⟨unread, notify, position⟩ := l
  cases a with
  | advance =>
      cases position with
      | awaiting =>
          dsimp only [act] at h
          split at h
          · obtain rfl := Option.some.inj h
            simp
          · cases h
      | draining | ended => cases h
      | _ =>
          obtain rfl := Option.some.inj h
          simp
  | take k =>
      cases position with
      | draining =>
          dsimp only [act] at h
          split_ifs at h
          all_goals
            obtain rfl := Option.some.inj h
            simp
      | _ => cases h
  | fail =>
      cases position with
      | draining =>
          obtain rfl := Option.some.inj h
          simp
      | _ => cases h

theorem not_asleep_next (h : ¬ l.Asleep) (hshutdown : s.isShutdown = true) (e : Event) :
    ¬ (s.next n l e).Asleep := by
  cases e with
  | deliver m =>
      dsimp only [next]
      split
      · exact h
      · exact h
  | notify m =>
      dsimp only [next]
      split
      · exact not_asleep_notify h fun hl => notifyOne_eq_some (by rw [hl]; rfl)
      · exact h
  | wake m =>
      dsimp only [next]
      split
      · exact not_asleep_notify h fun hl => notifyWaiters_eq_some (by rw [hl]; rfl)
      · exact h
  | stream m a =>
      dsimp only [next]
      split
      · rw [hshutdown]
        cases hact : l.act true a with
        | none => exact h
        | some l' =>
            rintro ⟨hposition, -⟩
            exact position_act_of_shutdown hact hposition
      · exact h
  | drop m =>
      dsimp only [next]
      split
      · rintro ⟨hposition, -⟩
        cases hposition
      · exact h
  | register _ | wait | waitFailed | close | abort => exact h

theorem isSome_of_awaiting (h : Armed l) (hposition : l.position = .awaiting) :
    l.notify.future.isSome = true := by
  rwa [Armed, hposition] at h

theorem mem_cookies {p : StreamLoop → Prop} [DecidablePred p] (h : s.streams[n]? = some l) :
    n ∈ s.cookies p ↔ p l := by
  have hlt : n < s.streams.length := (List.getElem?_eq_some_iff.mp h).1
  rw [cookies, Finset.mem_filter, Finset.mem_range, h]
  simp [hlt]

theorem closing_close : (s.step .close).closing = some (s.closing.getD (s.cookies Attached)) := by
  dsimp only [step]
  split
  next rest hrest => rw [hrest, Option.getD_some]
  next hnone => rw [hnone, Option.getD_none]

theorem closing_wake (m : Nat) : (s.step (.wake m)).closing = s.closing.map (·.erase m) := by
  dsimp only [step]
  split
  next rest hrest =>
    split
    next => rw [hrest, Option.map_some]
    next hm => rw [hrest, Option.map_some, Finset.erase_eq_of_notMem hm]
  next hnone => rw [hnone, Option.map_none]

theorem closing_step {e : Event} (hclose : e ≠ .close) (hwake : ∀ m, e ≠ .wake m) :
    (s.step e).closing = s.closing := by
  cases e with
  | close => exact absurd rfl hclose
  | wake m => exact absurd rfl (hwake m)
  | deliver m | drop m => exact onStream_closing m _
  | notify m =>
      dsimp only [step]
      split
      · exact onStream_closing m _
      · rfl
  | register _ | wait | waitFailed | stream _ _ | abort =>
      dsimp only [step]
      split <;> rfl

/-- How the pass of the drop comes by a stream: the stream had ended before, or it is woken. -/
theorem passed_step {e : Event} (h : (s.step e).Passed n) :
    s.Passed n ∨ (e = .close ∧ n ∉ s.cookies StreamLoop.Attached) ∨
      (e = .wake n ∧ ∃ rest ∈ s.closing, n ∈ rest) := by
  obtain ⟨rest, hrest, hn⟩ := h
  by_cases hclose : e = .close
  · subst hclose
    rw [Option.mem_def, closing_close, Option.some.injEq] at hrest
    cases hclosing : s.closing with
    | none =>
        rw [hclosing, Option.getD_none] at hrest
        exact .inr (.inl ⟨rfl, hrest ▸ hn⟩)
    | some before =>
        rw [hclosing, Option.getD_some] at hrest
        exact .inl ⟨before, hclosing, hrest ▸ hn⟩
  · by_cases hwake : ∃ m, e = .wake m
    · obtain ⟨m, rfl⟩ := hwake
      rw [Option.mem_def, closing_wake] at hrest
      obtain ⟨before, hbefore, rfl⟩ := Option.map_eq_some_iff.mp hrest
      by_cases hin : n ∈ before
      · have hnm : n = m := by
          by_contra hne
          exact hn (Finset.mem_erase.mpr ⟨hne, hin⟩)
        exact .inr (.inr ⟨by rw [hnm], before, hbefore, hin⟩)
      · exact .inl ⟨before, hbefore, hin⟩
    · rw [closing_step hclose fun m hm => hwake ⟨m, hm⟩] at hrest
      exact .inl ⟨rest, hrest, hn⟩

/-- The pass never goes back. -/
theorem Passed.step (h : s.Passed n) (e : Event) : (s.step e).Passed n := by
  obtain ⟨rest, hrest, hn⟩ := h
  by_cases hclose : e = .close
  · subst hclose
    exact ⟨rest, by rw [Option.mem_def, closing_close, hrest, Option.getD_some], hn⟩
  · by_cases hwake : ∃ m, e = .wake m
    · obtain ⟨m, rfl⟩ := hwake
      refine ⟨rest.erase m, by rw [Option.mem_def, closing_wake, hrest, Option.map_some], ?_⟩
      exact fun hin => hn (Finset.mem_of_mem_erase hin)
    · exact ⟨rest, by rwa [Option.mem_def, closing_step hclose fun m hm => hwake ⟨m, hm⟩], hn⟩

theorem aborted_step {e : Event} (h : (s.step e).aborted = true) :
    s.aborted = true ∨ s.closing = some ∅ := by
  cases e with
  | abort =>
      dsimp only [step] at h
      split at h
      next hclosing => exact .inr hclosing
      next => exact .inl h
  | deliver m | drop m => exact .inl (by rwa [← onStream_aborted (s := s) m])
  | notify m =>
      dsimp only [step] at h
      split at h
      · exact .inl (by rwa [← onStream_aborted (s := s) m])
      · exact .inl h
  | wake m =>
      dsimp only [step] at h
      split at h <;> try split at h
      · exact .inl (by rwa [← onStream_aborted (s := s) m])
      · exact .inl h
      · exact .inl h
  | register _ | wait | waitFailed | stream _ _ | close =>
      dsimp only [step] at h
      split at h <;> exact .inl h

theorem closing_step_empty (h : s.closing = some ∅) (e : Event) :
    (s.step e).closing = some ∅ := by
  by_cases hclose : e = .close
  · rw [hclose, closing_close, h, Option.getD_some]
  · by_cases hwake : ∃ m, e = .wake m
    · obtain ⟨m, rfl⟩ := hwake
      rw [closing_wake, h, Option.map_some, Finset.erase_empty]
    · rw [closing_step hclose fun m hm => hwake ⟨m, hm⟩, h]

theorem Inv.step (h : Inv s) (e : Event) : Inv (s.step e) where
  armed := by
    intro n l' hl'
    rcases streams_step_eq_some hl' with ⟨l, hl, rfl⟩ | htop
    · exact armed_next (h.armed n l hl) e
    · simp [Armed, htop]
  aborted := by
    intro haborted
    refine closing_step_empty ?_ e
    rcases aborted_step haborted with hbefore | hclosing
    · exact h.aborted hbefore
    · exact hclosing
  passed := by
    intro n l' hl' hpassed
    rcases streams_step_eq_some hl' with ⟨l, hl, rfl⟩ | htop
    · rcases passed_step hpassed with hbefore | ⟨rfl, hcookie⟩ | ⟨rfl, hrest⟩
      · exact not_asleep_next (h.passed n l hl hbefore) (isShutdown_of_passed hbefore) e
      · rintro ⟨hposition, -⟩
        have hended : ¬ l.Attached := fun hl' => hcookie ((mem_cookies hl).mpr hl')
        exact hended (by rw [StreamLoop.Attached, show l.position = .awaiting from hposition]; simp)
      · rintro ⟨hposition, hfuture⟩
        simp only [next, hrest, and_self, if_true] at hposition hfuture
        exact hfuture (notifyWaiters_eq_some (isSome_of_awaiting (h.armed n l hl) hposition))
    · rintro ⟨hposition, -⟩
      rw [htop] at hposition
      cases hposition

theorem inv_new : Inv new where
  armed := fun n l hl => by cases hl
  aborted := fun h => by cases h
  passed := fun n l hl => by cases hl

/-! ### The way of the driver to a stream -/

/-- The stream sleeps and has samples to take. -/
def Starving (n : Nat) (s : SharedWaitSet) : Prop := ∃ l ∈ s.streams[n]?, l.Asleep ∧ 0 < l.unread

instance (n : Nat) (s : SharedWaitSet) : Decidable (s.Starving n) :=
  inferInstanceAs (Decidable (∃ _ ∈ _, _))

/-- The driver does something by the step. -/
def driverStep (s : SharedWaitSet) : Event → Bool
  | .wait => decide (s.pending = ∅ ∧ s.aborted = false ∧ s.cookies StreamLoop.Ready ≠ ∅)
  | .notify n => decide (n ∈ s.pending)
  | _ => false

/-- The most that the driver has still to do before it notifies the stream, where a wait never
reports more than `most` cookies. -/
def distance (most n : Nat) (s : SharedWaitSet) : Nat :=
  if s.Starving n then s.pending.card + (if n ∈ s.pending then 0 else most + 1) else 0

theorem ready_of_starving (h : s.Starving n) : n ∈ s.cookies StreamLoop.Ready := by
  obtain ⟨l, hl, hasleep, hunread⟩ := h
  refine (mem_cookies hl).mpr ⟨?_, hunread⟩
  rw [StreamLoop.Attached, hasleep.1]
  simp

theorem pending_step {e : Event} (hwait : e ≠ .wait) (hnotify : ∀ m, e ≠ .notify m) :
    (s.step e).pending = s.pending := by
  cases e with
  | wait => exact absurd rfl hwait
  | notify m => exact absurd rfl (hnotify m)
  | deliver m | drop m => exact onStream_pending m _
  | wake m =>
      dsimp only [step]
      split <;> try split
      · exact onStream_pending m _
      · rfl
      · rfl
  | register _ | waitFailed | stream _ _ | close | abort =>
      dsimp only [step]
      split <;> rfl

theorem cookies_mono {p q : StreamLoop → Prop} [DecidablePred p] [DecidablePred q]
    (h : ∀ l, p l → q l) : s.cookies p ⊆ s.cookies q := by
  refine Finset.monotone_filter_right _ fun m hm => ?_
  rintro ⟨l, hl, hp⟩
  exact ⟨l, hl, h l hp⟩

theorem distance_lt {most : Nat} {e : Event} (h : Inv s) (hstarving : s.Starving n)
    (hmost : (s.cookies StreamLoop.Attached).card ≤ most) (hdriver : s.driverStep e = true) :
    distance most n (s.step e) < distance most n s := by
  cases e with
  | wait =>
      obtain ⟨hpending, haborted, -⟩ := of_decide_eq_true hdriver
      have hready := ready_of_starving hstarving
      have hcard : (s.cookies StreamLoop.Ready).card ≤ most :=
        (Finset.card_le_card (cookies_mono fun _ hl => hl.1)).trans hmost
      have hstep : (s.step .wait).pending = s.cookies StreamLoop.Ready := by
        dsimp only [step]
        rw [if_pos ⟨hpending, haborted⟩]
      have hnot : n ∉ s.pending := by simp [hpending]
      rw [distance, distance, hstep, if_pos hstarving, if_pos hready, if_neg hnot]
      split <;> omega
  | notify m =>
      have hm : m ∈ s.pending := of_decide_eq_true hdriver
      have hpending : (s.step (.notify m)).pending = s.pending.erase m := by
        dsimp only [step]
        rw [if_pos hm]
      have hcard : (s.pending.erase m).card + 1 = s.pending.card := Finset.card_erase_add_one hm
      rw [distance, distance, if_pos hstarving, hpending]
      by_cases hmn : m = n
      · subst hmn
        have hwoken : ¬ (s.step (.notify m)).Starving m := by
          obtain ⟨l, hl, hasleep, -⟩ := hstarving
          rintro ⟨l', hl', hasleep', -⟩
          obtain rfl := Option.some.inj ((streams_step hl _).symm.trans hl')
          simp only [next, hm, and_self, if_true] at hasleep'
          exact hasleep'.2 (notifyOne_eq_some (isSome_of_awaiting (h.armed m l hl) hasleep.1))
        rw [if_neg hwoken]
        omega
      · have hmem : n ∈ s.pending.erase m ↔ n ∈ s.pending := by
          rw [Finset.mem_erase]
          exact and_iff_right (Ne.symm hmn)
        simp only [hmem]
        split <;> omega
  | _ => cases hdriver

theorem distance_le {most : Nat} {e : Event} (h : Inv s) (hstarving : s.Starving n)
    (hmost : (s.cookies StreamLoop.Attached).card ≤ most) :
    distance most n (s.step e) ≤ distance most n s := by
  by_cases hdriver : s.driverStep e = true
  · exact (distance_lt h hstarving hmost hdriver).le
  · have hpending : (s.step e).pending = s.pending := by
      cases e with
      | wait =>
          dsimp only [step]
          split
          next hwait =>
            have hready : s.cookies StreamLoop.Ready ≠ ∅ :=
              Finset.ne_empty_of_mem (ready_of_starving hstarving)
            exact absurd (decide_eq_true ⟨hwait.1, hwait.2, hready⟩) hdriver
          next => rfl
      | notify m =>
          dsimp only [step]
          split
          next hm => exact absurd (decide_eq_true hm) hdriver
          next => rfl
      | _ => exact pending_step (by simp) (by simp)
    rw [distance, distance, if_pos hstarving, hpending]
    split
    · exact Nat.le_refl _
    · exact Nat.zero_le _

/-! ### The way of a stream that is not asleep -/

/-- The stream does something by the step. -/
def ownStep (n : Nat) (s : SharedWaitSet) : Event → Bool
  | .stream m a => decide (m = n) && (s.moved m a).isSome
  | _ => false

/-- A weight of the stream that its own steps lower and that nothing else raises bounds how
many steps of its own there are. -/
theorem count_own_le {I : SharedWaitSet → Prop} {C : SharedWaitSet → Event → Prop}
    (w : StreamLoop → Nat) {more : List Event} (hl : s.streams[n]? = some l)
    (hrun : Along step C s more) (hs : I s) (hstep : ∀ t e, I t → I (t.step e))
    (hown : ∀ t k k' a, I t → C t (.stream n a) → k.act t.isShutdown a = some k' → w k' < w k)
    (hother : ∀ t k e, I t → C t e → (∀ a, e ≠ .stream n a) → w (t.next n k e) ≤ w k) :
    count step (ownStep n) s more ≤ w l := by
  have hweight : ∀ t : SharedWaitSet, (∃ k, t.streams[n]? = some k) → ∀ e, I t → C t e →
      ∃ k k', t.streams[n]? = some k ∧ (t.step e).streams[n]? = some k' ∧ w k' ≤ w k ∧
        (ownStep n t e = true → w k' < w k) := by
    rintro t ⟨k, hk⟩ e ht hC
    refine ⟨k, t.next n k e, hk, streams_step hk e, ?_⟩
    by_cases hmine : ∃ a, e = .stream n a
    · obtain ⟨a, rfl⟩ := hmine
      have hmoved : t.moved n a = k.act t.isShutdown a := by simp [moved, hk]
      simp only [ownStep, hmoved, next, if_true, decide_true, Bool.true_and]
      cases hact : k.act t.isShutdown a with
      | none => exact ⟨Nat.le_refl _, fun hnone => by cases hnone⟩
      | some k' =>
          have hlt := hown t k k' a ht hC hact
          exact ⟨hlt.le, fun _ => hlt⟩
    · refine ⟨hother t k e ht hC fun a ha => hmine ⟨a, ha⟩, fun hstep => ?_⟩
      cases e with
      | stream m a =>
          obtain ⟨hm, -⟩ := Bool.and_eq_true_iff.mp hstep
          exact absurd ⟨a, by rw [of_decide_eq_true hm]⟩ hmine
      | _ => cases hstep
  have hcount := hrun.count_le (p := ownStep n) (I := fun t => I t ∧ ∃ k, t.streams[n]? = some k)
    (fun t => (t.streams[n]?).elim 0 w) ⟨hs, l, hl⟩ ?_ ?_ ?_
  · rwa [hl] at hcount
  · rintro t e ⟨ht, k, hk⟩
    exact ⟨hstep t e ht, _, streams_step hk e⟩
  · rintro t e ⟨ht, hk⟩ hC
    obtain ⟨k, k', hk, hk', hle, -⟩ := hweight t hk e ht hC
    simpa [hk, hk'] using hle
  · rintro t e ⟨ht, hk⟩ hC hp
    obtain ⟨k, k', hk, hk', -, hlt⟩ := hweight t hk e ht hC
    simpa [hk, hk'] using hlt hp

/-- The steps of a stream until it takes. -/
def toTake : Position → Nat
  | .backingOff => 5
  | .checking => 4
  | .awaiting => 3
  | .top => 2
  | .arming => 1
  | .draining | .ended => 0

/-- The steps of a stream until it ends, those by which it takes samples apart. -/
def toEnd : Position → Nat
  | .arming => 4
  | .draining => 3
  | .backingOff | .awaiting => 2
  | .top | .checking => 1
  | .ended => 0

theorem toTake_le (position : Position) : toTake position ≤ 5 := by
  cases position <;> decide

theorem toEnd_le (position : Position) : toEnd position ≤ 4 := by
  cases position <;> decide

theorem toTake_advance (h : l.act false .advance = some l') :
    toTake l'.position < toTake l.position := by
  obtain ⟨unread, notify, position⟩ := l
  cases position with
  | awaiting =>
      dsimp only [act] at h
      split at h
      · obtain rfl := Option.some.inj h
        simp [toTake]
      · cases h
  | draining | ended => cases h
  | _ =>
      obtain rfl := Option.some.inj h
      simp [toTake]

theorem toEnd_act {a : Act} (h : l.act true a = some l') :
    toEnd l'.position + l'.unread < toEnd l.position + l.unread := by
  obtain ⟨unread, notify, position⟩ := l
  cases a with
  | advance =>
      cases position with
      | awaiting =>
          dsimp only [act] at h
          split at h
          · obtain rfl := Option.some.inj h
            simp [toEnd]
          · cases h
      | draining | ended => cases h
      | _ =>
          obtain rfl := Option.some.inj h
          simp [toEnd]
  | take k =>
      cases position with
      | draining =>
          dsimp only [act] at h
          split_ifs at h with hempty hk hk
          · obtain rfl := Option.some.inj h
            simp [toEnd]
          · obtain rfl := Option.some.inj h
            dsimp only
            omega
      | _ => cases h
  | fail =>
      cases position with
      | draining =>
          obtain rfl := Option.some.inj h
          simp [toEnd]
      | _ => cases h

/-- Everything but its own steps leaves a stream where it is, until it is dropped. -/
theorem position_next {e : Event} (hdrop : e ≠ .drop n) (hown : ∀ a, e ≠ .stream n a) :
    (s.next n l e).position = l.position := by
  cases e with
  | stream m a => exact congrArg _ (if_neg fun hm => hown a (by rw [hm]))
  | drop m => exact congrArg _ (if_neg fun hm => hdrop (by rw [hm]))
  | deliver m | notify m | wake m =>
      dsimp only [next]
      split <;> rfl
  | register _ | wait | waitFailed | close | abort => rfl

theorem unread_next {e : Event} (hdeliver : e ≠ .deliver n) (hown : ∀ a, e ≠ .stream n a) :
    (s.next n l e).unread = l.unread := by
  cases e with
  | stream m a => exact congrArg _ (if_neg fun hm => hown a (by rw [hm]))
  | deliver m => exact congrArg _ (if_neg fun hm => hdeliver (by rw [hm]))
  | drop m | notify m | wake m =>
      dsimp only [next]
      split <;> rfl
  | register _ | wait | waitFailed | close | abort => rfl

/-- A stream that is neither asleep nor over can do something. -/
theorem moved_of_not_asleep (hl : s.streams[n]? = some l) (hattached : l.Attached)
    (hasleep : ¬ l.Asleep) : ∃ a, (s.moved n a).isSome = true := by
  have hmoved : ∀ a, s.moved n a = l.act s.isShutdown a := fun a => by simp [moved, hl]
  simp only [hmoved]
  obtain ⟨unread, notify, position⟩ := l
  cases position with
  | awaiting =>
      have hfuture : notify.future = some true := by
        by_contra hne
        exact hasleep ⟨rfl, hne⟩
      exact ⟨.advance, by simp [act, hfuture]⟩
  | draining => exact ⟨.fail, rfl⟩
  | ended => exact absurd rfl hattached
  | _ => exact ⟨.advance, rfl⟩

/-! ### Results -/

theorem driver_not_blocked (h : Inv s) (hstarving : s.Starving n) (hopen : s.isShutdown = false) :
    ∃ e, s.driverStep e = true := by
  by_cases hpending : s.pending = ∅
  · have haborted : s.aborted = false := by
      by_contra hne
      have hclosing := h.aborted (by simpa using hne)
      rw [isShutdown, hclosing] at hopen
      cases hopen
    have hready : s.cookies StreamLoop.Ready ≠ ∅ :=
      Finset.ne_empty_of_mem (ready_of_starving hstarving)
    exact ⟨.wait, decide_eq_true ⟨hpending, haborted, hready⟩⟩
  · obtain ⟨m, hm⟩ := Finset.nonempty_iff_ne_empty.mpr hpending
    exact ⟨.notify m, decide_eq_true hm⟩

theorem count_driver_le {more : List Event} {most : Nat} (h : Inv s)
    (hrun : Along step
      (fun t _ => t.Starving n ∧ (t.cookies StreamLoop.Attached).card ≤ most) s more) :
    count step driverStep s more ≤ s.pending.card + most + 1 := by
  have hcount := hrun.count_le (p := driverStep) (distance most n) h (fun t e ht => ht.step e)
    (fun t e ht hC => distance_le ht hC.1 hC.2) (fun t e ht hC => distance_lt ht hC.1 hC.2)
  have hle : distance most n s ≤ s.pending.card + (most + 1) := by
    rw [distance]
    split_ifs <;> omega
  omega

theorem count_until_take_le {more : List Event} (hl : s.streams[n]? = some l)
    (hrun : Along step (fun t e => t.isShutdown = false ∧ e ≠ .drop n ∧ e ≠ .stream n .fail ∧
      ∀ k, e ≠ .stream n (.take k)) s more) : count step (ownStep n) s more ≤ 5 := by
  refine (count_own_le (fun k => toTake k.position) hl hrun (I := fun _ => True) trivial
    (fun _ _ _ => trivial) ?_ ?_).trans (toTake_le _)
  · rintro t k k' a - ⟨hopen, -, hfail, htake⟩ hact
    cases a with
    | advance =>
        rw [hopen] at hact
        exact toTake_advance hact
    | take j => exact absurd rfl (htake j)
    | fail => exact absurd rfl hfail
  · rintro t k e - ⟨-, hdrop, -⟩ hown
    rw [position_next hdrop hown]

theorem count_until_end_le {more : List Event} (hl : s.streams[n]? = some l) (hpassed : s.Passed n)
    (hrun : Along step (fun _ e => e ≠ .deliver n) s more) :
    count step (ownStep n) s more ≤ 4 + l.unread := by
  refine (count_own_le (fun k => toEnd k.position + k.unread) hl hrun (I := fun t => t.Passed n)
    hpassed (fun t e ht => ht.step e) ?_ ?_).trans (Nat.add_le_add_right (toEnd_le _) _)
  · intro t k k' a ht _ hact
    rw [isShutdown_of_passed ht] at hact
    exact toEnd_act hact
  · intro t k e _ hdeliver hown
    rw [unread_next hdeliver hown]
    refine Nat.add_le_add_right ?_ _
    by_cases hdrop : e = .drop n
    · simp [hdrop, next, toEnd]
    · rw [position_next hdrop hown]

/-- The waitset after some steps of its driver and of the streams. -/
def after (events : List Event) : SharedWaitSet := events.foldl step new

theorem inv_after (events : List Event) : Inv (after events) :=
  foldl_invariant events inv_new fun _ e h => h.step e

/-- A stream with samples to take is never forgotten while the waitset lives. If it sleeps, the
driver can go on and wakes it after a bounded number of steps of its own. If not, the stream can
go on by itself and comes to its next take within five steps. -/
theorem samples_are_taken (events : List Event) (n : Nat) (l : StreamLoop) :
    let s := after events
    s.streams[n]? = some l → l.Ready → s.isShutdown = false →
      (l.Asleep → (∃ e, s.driverStep e = true) ∧
        ∀ (more : List Event) (most : Nat),
          Along step
            (fun t _ => t.Starving n ∧ (t.cookies StreamLoop.Attached).card ≤ most) s more →
          count step driverStep s more ≤ s.pending.card + most + 1) ∧
      (¬ l.Asleep → (∃ a, (s.moved n a).isSome = true) ∧
        ∀ more : List Event,
          Along step (fun t e => t.isShutdown = false ∧ e ≠ .drop n ∧ e ≠ .stream n .fail ∧
            ∀ k, e ≠ .stream n (.take k)) s more →
          count step (ownStep n) s more ≤ 5) := by
  intro s hl hready hopen
  have h : Inv s := inv_after events
  refine ⟨fun hasleep => ⟨?_, fun more most hrun => count_driver_le h hrun⟩,
    fun hasleep => ⟨moved_of_not_asleep hl hready.1 hasleep,
      fun more hrun => count_until_take_le hl hrun⟩⟩
  exact driver_not_blocked h ⟨l, hl, hasleep, hready.2⟩ hopen

/-- The stream `0` has gone to sleep before its sample comes. -/
def sleeper : List Event :=
  [.register 0, .stream 0 .advance, .stream 0 .advance, .stream 0 (.take 0), .stream 0 .advance,
    .deliver 0]

theorem samples_are_taken_sleeper :
    ∃ l, (after sleeper).streams[0]? = some l ∧ l.Asleep ∧
      (∃ e, (after sleeper).driverStep e = true) ∧
      ∀ (more : List Event) (most : Nat),
        Along step
          (fun t _ => t.Starving 0 ∧ (t.cookies StreamLoop.Attached).card ≤ most)
          (after sleeper) more →
        count step driverStep (after sleeper) more ≤ (after sleeper).pending.card + most + 1 := by
  have hl : (after sleeper).streams[0]? =
      some { unread := 1, notify := { permit := false, future := some false }
             position := .awaiting } := rfl
  have hasleep : StreamLoop.Asleep
      { unread := 1, notify := { permit := false, future := some false }, position := .awaiting } :=
    ⟨rfl, by decide⟩
  exact ⟨_, hl, hasleep, (samples_are_taken sleeper 0 _ hl ⟨by decide, by decide⟩ rfl).1 hasleep⟩

/-- Once the drop has come by a stream it does not sleep, can go on as long as it has not ended,
and ends after four steps of its own and those by which it takes what is left. -/
theorem streams_end (events : List Event) (n : Nat) (l : StreamLoop) :
    let s := after events
    s.streams[n]? = some l → s.Passed n →
      ¬ l.Asleep ∧ (l.Attached → ∃ a, (s.moved n a).isSome = true) ∧
        ∀ more : List Event, Along step (fun _ e => e ≠ .deliver n) s more →
          ¬ (more.foldl step s).Starving n ∧ count step (ownStep n) s more ≤ 4 + l.unread := by
  intro s hl hpassed
  have h : Inv s := inv_after events
  have hasleep : ¬ l.Asleep := h.passed n l hl hpassed
  refine ⟨hasleep, fun hattached => moved_of_not_asleep hl hattached hasleep,
    fun more hrun => ⟨?_, count_until_end_le hl hpassed hrun⟩⟩
  have hlater := foldl_invariant more (I := fun t => Inv t ∧ t.Passed n) ⟨h, hpassed⟩
    fun t e ht => ⟨ht.1.step e, ht.2.step e⟩
  rintro ⟨k, hk, hsleeps, -⟩
  exact hlater.1.passed n k hk hlater.2 hsleeps

theorem streams_end_sleeper :
    ¬ (after (sleeper ++ [.close, .wake 0])).Starving 0 := by
  have hl : (after (sleeper ++ [.close, .wake 0])).streams[0]? =
      some { unread := 1, notify := { permit := false, future := some true }
             position := .awaiting } := rfl
  have hend := streams_end (sleeper ++ [.close, .wake 0]) 0 _ hl ⟨∅, by decide, by simp⟩
  exact (hend.2.2 [] trivial).1

end DdsOrchestrator.Dataspace.SharedWaitSet
