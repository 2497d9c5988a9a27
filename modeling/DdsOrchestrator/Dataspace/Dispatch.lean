import Mathlib.Data.Finset.Basic
import Mathlib.Data.Finset.Range
import DdsOrchestrator.Lib.Machine
import DdsOrchestrator.Lib.Roster

/-!
The one waitset that all streams of a dataspace share. Each stream has a reader of its own and
sleeps until it is notified. One driver waits for the readers that have samples to take and
notifies their streams one after the other. When the waitset is dropped it sets the flag, wakes
every stream that is still there, and ends the driver.
-/

namespace DdsOrchestrator.Dataspace

/-- A notifier with the one future that a stream has of it at a time. -/
structure Notify where
  permit : Bool
  /-- Whether the future that is enabled has been notified. -/
  future : Option Bool

namespace Notify

def new : Notify := { permit := false, future := none }

/-- A notification that finds no future waiting is kept as the one permit. -/
def notifyOne (n : Notify) : Notify :=
  match n.future with
  | some false => { n with future := some true }
  | _ => { n with permit := true }

def notifyWaiters (n : Notify) : Notify :=
  match n.future with
  | some false => { n with future := some true }
  | _ => n

def enable (n : Notify) : Notify := { permit := false, future := some n.permit }

end Notify

/-- Where a stream is in its loop. -/
inductive Position where
  | top
  | arming
  | draining
  | backingOff
  | checking
  | awaiting
  | ended
  deriving DecidableEq

structure StreamLoop where
  unread : Nat
  notify : Notify
  position : Position

namespace StreamLoop

inductive Act where
  | advance
  | take (k : Nat)
  | fail
  deriving DecidableEq

/-- What the loop does next, if it can. The take is the only step with a choice. -/
def act (shutdown : Bool) (l : StreamLoop) : Act → Option StreamLoop
  | .advance =>
    match l.position with
    | .top => some { l with position := if shutdown then .ended else .arming }
    | .arming => some { l with notify := l.notify.enable, position := .draining }
    | .backingOff => some { l with position := .checking }
    | .checking => some { l with position := if shutdown then .ended else .awaiting }
    | .awaiting =>
      match l.notify.future with
      | some true => some { l with notify := { l.notify with future := none }, position := .top }
      | _ => none
    | .draining | .ended => none
  | .take k =>
    match l.position with
    | .draining =>
      if l.unread = 0 then
        if k = 0 then some { l with position := .checking } else none
      else if 0 < k ∧ k ≤ l.unread then some { l with unread := l.unread - k }
      else none
    | _ => none
  | .fail =>
    match l.position with
    | .draining => some { l with position := .backingOff }
    | _ => none

/-- The reader is attached to the waitset. -/
def Attached (l : StreamLoop) : Prop := l.position ≠ .ended

instance (l : StreamLoop) : Decidable l.Attached := inferInstanceAs (Decidable (_ ≠ _))

/-- The stream waits and nothing has notified it. -/
def Asleep (l : StreamLoop) : Prop := l.position = .awaiting ∧ l.notify.future ≠ some true

instance (l : StreamLoop) : Decidable l.Asleep := inferInstanceAs (Decidable (_ ∧ _))

/-- The waitset triggers for the reader, as long as there is something to take. -/
def Ready (l : StreamLoop) : Prop := l.Attached ∧ 0 < l.unread

instance (l : StreamLoop) : Decidable l.Ready := inferInstanceAs (Decidable (_ ∧ _))

end StreamLoop

/-- The streams are numbered by their cookies. -/
structure SharedWaitSet where
  streams : List StreamLoop
  /-- The cookies of the last wait that have not been looked at. -/
  pending : Finset Nat
  driverRestarts : UInt64
  aborted : Bool
  /-- Once the flag is set, the cookies of the streams that have still to be woken. -/
  closing : Option (Finset Nat)

namespace SharedWaitSet

def new : SharedWaitSet :=
  { streams := [], pending := ∅, driverRestarts := 0, aborted := false, closing := none }

inductive Event where
  /-- A reader that holds some samples already is attached. -/
  | register (unread : Nat)
  | deliver (n : Nat)
  | wait
  | waitFailed
  | notify (n : Nat)
  | stream (n : Nat) (a : StreamLoop.Act)
  /-- The stream is dropped where it stands. -/
  | drop (n : Nat)
  | close
  | wake (n : Nat)
  | abort

def isShutdown (s : SharedWaitSet) : Bool := s.closing.isSome

/-- The cookies of the streams that have the property. -/
def cookies (p : StreamLoop → Prop) [DecidablePred p] (s : SharedWaitSet) : Finset Nat :=
  (Finset.range s.streams.length).filter fun n => ∃ l ∈ s.streams[n]?, p l

def setStream (n : Nat) (l : StreamLoop) (s : SharedWaitSet) : SharedWaitSet :=
  { s with streams := s.streams.set n l }

def onStream (n : Nat) (f : StreamLoop → StreamLoop) (s : SharedWaitSet) : SharedWaitSet :=
  match s.streams[n]? with
  | some l => s.setStream n (f l)
  | none => s

/-- What a stream becomes by a step that it can take. -/
def moved (n : Nat) (a : StreamLoop.Act) (s : SharedWaitSet) : Option StreamLoop :=
  s.streams[n]?.bind fun l => l.act s.isShutdown a

def step (s : SharedWaitSet) : Event → SharedWaitSet
  | .register unread =>
    if s.isShutdown then s
    else { s with streams := s.streams ++ [{ unread, notify := .new, position := .top }] }
  | .deliver n => s.onStream n fun l => { l with unread := l.unread + 1 }
  | .wait =>
    -- A wait with nothing to report blocks.
    if s.pending = ∅ ∧ s.aborted = false then { s with pending := s.cookies StreamLoop.Ready }
    else s
  | .waitFailed =>
    if s.pending = ∅ ∧ s.aborted = false then { s with driverRestarts := s.driverRestarts + 1 }
    else s
  | .notify n =>
    if n ∈ s.pending then
      { s.onStream n fun l => { l with notify := l.notify.notifyOne } with
        pending := s.pending.erase n }
    else s
  | .stream n a =>
    match s.moved n a with
    | some l => s.setStream n l
    | none => s
  | .drop n => s.onStream n fun l => { l with position := .ended }
  | .close =>
    match s.closing with
    | some _ => s
    | none => { s with closing := some (s.cookies StreamLoop.Attached) }
  | .wake n =>
    match s.closing with
    | some rest =>
      if n ∈ rest then
        { s.onStream n fun l => { l with notify := l.notify.notifyWaiters } with
          closing := some (rest.erase n) }
      else s
    | none => s
  | .abort => if s.closing = some ∅ then { s with aborted := true } else s

end SharedWaitSet

end DdsOrchestrator.Dataspace
