import ConstantReply.Failure

/-!
# Accepting within a limit

A listener hands out a fixed number of slots.  To accept, a caller first takes a slot, waiting its
turn if none is free, and then a connection from the queue; the slot goes with the connection as its
permit.  An accept that fails or is given up returns its slot.  Slots that come back go to the
callers that wait, in the order in which they came.

Slots can be closed for good, and then no accept gets one; a listener never does that.  The slots
stand for the semaphore of tokio; they were tried against it without a client that connects.
-/

namespace ConstantReply

/-- A listener as its callers see it.  Accepts, clients and permits are known by numbers. -/
structure Acceptor where
  limit : Nat
  free : Nat
  closed : Bool := false
  waiting : List Nat := []
  granted : List Nat := []
  permits : List (Nat × Nat) := []
  queue : List Nat := []
  nextAccept : Nat := 0
  nextPermit : Nat := 0
  deriving DecidableEq, Repr

namespace Acceptor

def create (limit : Nat) : Acceptor := { limit := limit, free := limit }

def availablePermits (s : Acceptor) : Nat := s.free

/-!
## Steps

A step that cannot be taken has no result.
-/

def putBack (s : Acceptor) : Acceptor :=
  match s.waiting with
  | [] => { s with free := s.free + 1 }
  | a :: rest => { s with waiting := rest, granted := s.granted ++ [a] }

def start (s : Acceptor) : Acceptor :=
  let a := s.nextAccept
  let s := { s with nextAccept := a + 1 }
  if s.closed = false ∧ 0 < s.free ∧ s.waiting = [] then
    { s with free := s.free - 1, granted := s.granted ++ [a] }
  else { s with waiting := s.waiting ++ [a] }

def arrive (s : Acceptor) (client : Nat) : Acceptor := { s with queue := s.queue ++ [client] }

def complete? (s : Acceptor) (accept : Nat) : Option Acceptor :=
  match s.queue with
  | [] => none
  | client :: rest =>
      if accept ∈ s.granted then
        some { s with
          granted := s.granted.erase accept
          queue := rest
          permits := s.permits ++ [(s.nextPermit, client)]
          nextPermit := s.nextPermit + 1 }
      else none

def fail? (s : Acceptor) (accept : Nat) : Option Acceptor :=
  if accept ∈ s.granted then some { s with granted := s.granted.erase accept }.putBack else none

def refuse? (s : Acceptor) (accept : Nat) : Option Acceptor :=
  if s.closed = true ∧ accept ∈ s.waiting then
    some { s with waiting := s.waiting.erase accept }
  else none

def cancel? (s : Acceptor) (accept : Nat) : Option Acceptor :=
  if accept ∈ s.granted then some { s with granted := s.granted.erase accept }.putBack
  else if accept ∈ s.waiting then some { s with waiting := s.waiting.erase accept }
  else none

def release? (s : Acceptor) (permit : Nat) : Option Acceptor :=
  if s.permits.any fun p => p.1 = permit then
    some { s with permits := s.permits.filter fun p => p.1 ≠ permit }.putBack
  else none

/-!
## Runs
-/

inductive Event where
  | start
  | arrive (client : Nat)
  | complete (accept : Nat)
  | fail (accept : Nat) (error : SystemError)
  | refuse (accept : Nat)
  | cancel (accept : Nat)
  | release (permit : Nat)
  deriving DecidableEq, Repr

/-- What an accept returns: a permit with the client that it is for, or why there is none. -/
structure Answer where
  accept : Nat
  result : Except ListenError (Nat × Nat)
  deriving Repr

def step? (s : Acceptor) : Event -> Option Acceptor
  | .start => some s.start
  | .arrive client => some (s.arrive client)
  | .complete accept => s.complete? accept
  | .fail accept _ => s.fail? accept
  | .refuse accept => s.refuse? accept
  | .cancel accept => s.cancel? accept
  | .release permit => s.release? permit

def answers (s : Acceptor) : Event -> List Answer
  | .complete accept => s.queue.head?.toList.map fun client => ⟨accept, .ok (s.nextPermit, client)⟩
  | .fail accept error => [⟨accept, .error (.accept error)⟩]
  | .refuse accept => [⟨accept, .error .closed⟩]
  | _ => []

def run? (s : Acceptor) : List Event -> Option (Acceptor × List Answer)
  | [] => some (s, [])
  | event :: rest => do
      let next <- s.step? event
      let (last, more) <- run? next rest
      some (last, s.answers event ++ more)

end Acceptor
end ConstantReply
