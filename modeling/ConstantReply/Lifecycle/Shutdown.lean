/-!
# Telling tasks to stop

A trigger reaches every receiver that subscribed before it.  A channel keeps only the newest
trigger: a receiver that comes late is told how many it missed and then gets the newest.  A
receiver learns that the channel is closed once it has accounted for every trigger and nobody is
left who could send another.  The channel stands for that of tokio, and was tried against its
answers.
-/

namespace ConstantReply

/-- What a receiver is told. -/
inductive Reception where
  | fired
  | lagged (missed : Nat)
  | nothing
  | closed
  deriving DecidableEq, Repr

/-- A receiver: its channel, and how many triggers of the channel it has accounted for, those
before its subscription included. -/
structure Receiver where
  channel : Nat
  seen : Nat
  deriving DecidableEq, Repr

/-- Where an awaited event stands. -/
inductive EventStatus where
  | open
  | completed (output : String)
  deriving DecidableEq, Repr

/-- Where a task that waits for an event stands. -/
inductive TaskStatus where
  | waiting
  | stopping
  | finished (output : String)
  | cancelled
  deriving DecidableEq, Repr

/-- A task that triggers a channel once its event completes.  Until it ends it can still send. -/
structure TriggerTask where
  channel : Nat
  event : EventStatus := .open
  status : TaskStatus := .waiting
  joined : Bool := false
  deriving DecidableEq, Repr

/-- All channels and everything attached to them.  Handles and receivers are known by their place;
the place of one that is gone stays empty. -/
structure Signalling where
  sent : List Nat := []
  handles : List (Option Nat) := []
  receivers : List (Option Receiver) := []
  tasks : List TriggerTask := []
  deriving DecidableEq, Repr

namespace TriggerTask

def isLive (t : TriggerTask) : Bool :=
  match t.status with
  | .waiting => true
  | .stopping => true
  | .finished _ => false
  | .cancelled => false

end TriggerTask

namespace Signalling

/-!
## Look-up
-/

def channelOf? (s : Signalling) (handle : Nat) : Option Nat := s.handles[handle]?.join

def receiver? (s : Signalling) (rx : Nat) : Option Receiver := s.receivers[rx]?.join

def sentOn (s : Signalling) (channel : Nat) : Nat := s.sent[channel]?.getD 0

def hasSender (s : Signalling) (channel : Nat) : Bool :=
  s.handles.contains (some channel) ||
    s.tasks.any fun t => t.channel == channel && t.isLive

def audience (s : Signalling) (channel : Nat) : Nat :=
  s.receivers.countP fun r => r.any fun r => r.channel == channel

/-!
## Handles
-/

def create (s : Signalling) : Signalling :=
  { s with sent := s.sent ++ [0], handles := s.handles ++ [some s.sent.length] }

def share? (s : Signalling) (handle : Nat) : Option Signalling :=
  (s.channelOf? handle).map fun channel => { s with handles := s.handles ++ [some channel] }

def dropHandle? (s : Signalling) (handle : Nat) : Option Signalling :=
  (s.channelOf? handle).map fun _ => { s with handles := s.handles.set handle none }

def send (s : Signalling) (channel : Nat) : Signalling :=
  { s with sent := s.sent.modify channel (· + 1) }

def trigger? (s : Signalling) (handle : Nat) : Option Signalling :=
  (s.channelOf? handle).map s.send

/-!
## Receivers
-/

def subscribe? (s : Signalling) (handle : Nat) : Option Signalling :=
  (s.channelOf? handle).map fun channel =>
    { s with receivers := s.receivers ++ [some ⟨channel, s.sentOn channel⟩] }

def dropReceiver? (s : Signalling) (rx : Nat) : Option Signalling :=
  (s.receiver? rx).map fun _ => { s with receivers := s.receivers.set rx none }

def reception (s : Signalling) (r : Receiver) : Reception × Receiver :=
  let sent := s.sentOn r.channel
  let unread := sent - r.seen
  if unread = 0 then
    (if s.hasSender r.channel then .nothing else .closed, r)
  else if unread = 1 then (.fired, { r with seen := sent })
  else (.lagged (unread - 1), { r with seen := sent - 1 })

def receive? (s : Signalling) (rx : Nat) : Option (Reception × Signalling) :=
  (s.receiver? rx).map fun r =>
    ((s.reception r).1, { s with receivers := s.receivers.set rx (some (s.reception r).2) })

/-!
## Tasks
-/

def triggerWhen? (s : Signalling) (handle : Nat) : Option Signalling :=
  (s.channelOf? handle).map fun channel =>
    { s with tasks := s.tasks ++ [⟨channel, .open, .waiting, false⟩] }

def openTask? (s : Signalling) (event : Nat) : Option TriggerTask :=
  (s.tasks[event]?).filter fun t => t.event = .open

def task? (s : Signalling) (event : Nat) : Option TriggerTask :=
  (s.tasks[event]?).filter fun t => t.joined = false

/-- Complete an event.  The answer is whether somebody still waits for it. -/
def completeEvent? (s : Signalling) (event : Nat) (output : String) :
    Option (Bool × Signalling) :=
  (s.openTask? event).map fun t =>
    (t.isLive, { s with tasks := s.tasks.set event { t with event := .completed output } })

/-- Tell a task to stop.  One that has ended is not affected. -/
def abort? (s : Signalling) (event : Nat) : Option Signalling :=
  (s.task? event).map fun t =>
    if t.isLive then { s with tasks := s.tasks.set event { t with status := .stopping } } else s

def runTask (s : Signalling) (event : Nat) : Signalling :=
  match s.tasks[event]? with
  | none => s
  | some t =>
      match t.status, t.event with
      | .stopping, _ => { s with tasks := s.tasks.set event { t with status := .cancelled } }
      | .waiting, .completed output =>
          { s.send t.channel with tasks := s.tasks.set event { t with status := .finished output } }
      | _, _ => s

def runTasks (s : Signalling) : Signalling :=
  (List.range s.tasks.length).foldl runTask s

def join? (s : Signalling) (event : Nat) : Option (TaskStatus × Signalling) :=
  (s.task? event).map fun t =>
    if t.isLive then (t.status, s)
    else (t.status, { s with tasks := s.tasks.set event { t with joined := true } })

def droppedOutput : String := "dropped"

end Signalling
end ConstantReply
