import ConstantReply.Lifecycle.Shutdown
import ConstantReply.Lifecycle.Signals

/-!
# From a signal to the word to end

A watch is one set of signal handlers, one channel, and a task between them: the task waits for a
signal and then triggers the channel, and whoever serves listens to the channel.
-/

namespace ConstantReply

structure Watch where
  handlers : Handlers := {}
  signalling : Signalling := {}
  deriving DecidableEq, Repr

namespace Watch

/-!
## Setting up

There is one of each thing, so each has the first number.
-/

def handlersId : Nat := 0

def handle : Nat := 0

def receiver : Nat := 0

def task : Nat := 0

def install (w : Watch) : Watch := { w with handlers := w.handlers.install }

def subscribe (w : Watch) : Watch :=
  let created := w.signalling.create
  { w with signalling := (created.subscribe? handle).getD created }

def begin (w : Watch) : Watch :=
  { w with signalling := (w.signalling.triggerWhen? handle).getD w.signalling }

/-!
## Steps
-/

def deliver (w : Watch) (signal : Signal) : Watch :=
  { w with handlers := w.handlers.raise signal }

/-- The task takes a signal.  It waits for no other one, so its handlers are gone then. -/
def take? (w : Watch) (signal : Signal) : Option Watch := do
  let mailbox <- w.handlers.mailbox? handlersId
  if mailbox.holds signal then
    let handlers <- w.handlers.uninstall? handlersId
    let (_, signalling) <- w.signalling.completeEvent? task signal.display
    some ⟨handlers, signalling⟩
  else none

def trigger? (w : Watch) : Option (Nat × Watch) := do
  let t <- w.signalling.task? task
  let _ <- if t.event = .open ∨ t.isLive = false then none else some ()
  some (w.signalling.audience t.channel, { w with signalling := w.signalling.runTask task })

def hear? (w : Watch) : Option Watch := do
  let (reception, signalling) <- w.signalling.receive? receiver
  if reception = .nothing then none else some { w with signalling := signalling }

/-!
## All the way
-/

def ready : Watch := ({} : Watch).install.subscribe.begin

/-- What became of a signal: the one that the task took, on how many receivers the channel was
triggered, and whether the server heard of it. -/
structure Relayed where
  signal : Signal
  receivers : Nat
  heard : Bool
  deriving DecidableEq, Repr

/-- A signal is delivered and goes all the way to the server.  A task takes one signal only. -/
def relay? (w : Watch) (signal : Signal) : Option (Relayed × Watch) := do
  let w := w.deliver signal
  let mailbox <- w.handlers.mailbox? handlersId
  let taken <- mailbox.next?
  let w <- w.take? taken
  let (receivers, w) <- w.trigger?
  some (⟨taken, receivers, w.hear?.isSome⟩, w.hear?.getD w)

end Watch
end ConstantReply
