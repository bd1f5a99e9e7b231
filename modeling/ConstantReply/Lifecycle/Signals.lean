/-!
# Signals that end the program

Each installed set of handlers sees every signal raised after its installation.  Equal signals that
were not received yet count as one.  The handlers stand for those of tokio, and were tried against
their answers.
-/

namespace ConstantReply

/-- A signal that asks the program to end. -/
inductive Signal where
  | interrupt
  | terminate
  deriving DecidableEq, Repr

namespace Signal

def display : Signal -> String
  | .interrupt => "SIGINT"
  | .terminate => "SIGTERM"

end Signal

/-- The signals that one installed set of handlers has not delivered yet. -/
structure Mailbox where
  interrupt : Bool := false
  terminate : Bool := false
  deriving DecidableEq, Repr

namespace Mailbox

def empty : Mailbox := {}

def post (m : Mailbox) : Signal -> Mailbox
  | .interrupt => { m with interrupt := true }
  | .terminate => { m with terminate := true }

def holds (m : Mailbox) : Signal -> Bool
  | .interrupt => m.interrupt
  | .terminate => m.terminate

def remove (m : Mailbox) : Signal -> Mailbox
  | .interrupt => { m with interrupt := false }
  | .terminate => { m with terminate := false }

/-- A signal to deliver.  Of two, either may come first; here it is the interrupt. -/
def next? (m : Mailbox) : Option Signal :=
  if m.interrupt then some .interrupt
  else if m.terminate then some .terminate
  else none

end Mailbox

/-- All installed sets of handlers, by place; the place of one that is gone stays empty. -/
structure Handlers where
  mailboxes : List (Option Mailbox) := []
  deriving DecidableEq, Repr

namespace Handlers

def mailbox? (s : Handlers) (id : Nat) : Option Mailbox := s.mailboxes[id]?.join

def install (s : Handlers) : Handlers := ⟨s.mailboxes ++ [some Mailbox.empty]⟩

def raise (s : Handlers) (signal : Signal) : Handlers :=
  ⟨s.mailboxes.map fun m => m.map fun m => m.post signal⟩

def receive? (s : Handlers) (id : Nat) : Option (Option Signal × Handlers) :=
  (s.mailbox? id).map fun m =>
    match m.next? with
    | none => (none, s)
    | some signal => (some signal, ⟨s.mailboxes.set id (some (m.remove signal))⟩)

def uninstall? (s : Handlers) (id : Nat) : Option Handlers :=
  (s.mailbox? id).map fun _ => ⟨s.mailboxes.set id none⟩

end Handlers
end ConstantReply
