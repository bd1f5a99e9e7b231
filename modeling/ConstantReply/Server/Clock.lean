import ConstantReply.Server
import ConstantReply.Settings

/-!
# The server in time

Deadlines beside a server: for each head that is awaited, for the wait after a failed accept, and
for the end of all connections.  Time is counted in milliseconds.  Between two moments the server
takes every step that it can take by itself.
-/

namespace ConstantReply

/-- The deadline for the head that follows so many answers to a client. -/
structure HeadDeadline where
  client : Nat
  answered : Nat
  due : Nat
  deriving DecidableEq, Repr

/-- A server and its deadlines. -/
structure Clock where
  server : Server
  now : Nat := 0
  headTimeout : Nat
  drainTimeout : Nat
  heads : List HeadDeadline := []
  waitDue : Option Nat := none
  told : Bool := false
  deriving DecidableEq, Repr

namespace Clock

def backOff : Nat := 1000

def create (settings : Settings) (limit : Nat) : Clock where
  server := Server.create settings.keepAlive limit
  headTimeout := settings.headTimeoutMs.toNat
  drainTimeout := settings.drainSeconds.toNat * 1000

/-!
## Deadlines
-/

/-- The deadline of a client that is served, if a head is awaited from it.  It stays what it was
until the next answer. -/
def headDeadline? (c : Clock) (s : Serving) : Option HeadDeadline :=
  if s.session.awaitsHead then
    let answered := s.session.answered
    match c.heads.find? fun d => d.client == s.client && d.answered == answered with
    | some known => some known
    | none => some ⟨s.client, answered, c.now + c.headTimeout⟩
  else none

def waitOf? (c : Clock) (stage : Stage) : Option Nat :=
  match stage with
  | .backingOff => some (c.now + backOff)
  | .draining => some (c.now + c.drainTimeout)
  | _ => none

def follow (c : Clock) (server : Server) : Clock :=
  { c with
    server := server
    heads := server.serving.filterMap c.headDeadline?
    waitDue := if server.stage = c.server.stage then c.waitDue else c.waitOf? server.stage }

def step? (c : Clock) (event : Server.Event) : Option (Clock × List Effect) :=
  (c.server.step? event).map fun (server, effects) => (c.follow server, effects)

/-!
## Steps that the server takes by itself
-/

def ownEvents (c : Clock) : List Server.Event :=
  (if c.told then [.heed] else []) ++ [.unbind, .drain] ++
    c.server.serving.map (fun s => .conclude s.client) ++ [.accept, .finish]

def firstStep? (c : Clock) : List Server.Event -> Option (Clock × List Effect)
  | [] => none
  | event :: rest =>
      match c.step? event with
      | some (next, effects) =>
          some ({ next with told := next.told && event != .heed }, effects)
      | none => firstStep? c rest

def settleWith : Nat -> Clock -> Clock × List Effect
  | 0, c => (c, [])
  | fuel + 1, c =>
      match c.firstStep? c.ownEvents with
      | none => (c, [])
      | some (next, effects) =>
          let (last, more) := settleWith fuel next
          (last, effects ++ more)

/-- Take every step that can be taken.  Each visitor is accepted once, and each client concluded
once; the rest is to hear the word, to let go of the address, to tell the connections and to
stop. -/
def settle (c : Clock) : Clock × List Effect :=
  settleWith (2 * c.server.visitors.length + c.server.serving.length + 4) c

/-- Something happens; the server does all that follows.  What cannot happen changes nothing. -/
def perform (c : Clock) (event : Server.Event) : Clock × List Effect :=
  match c.step? event with
  | none => (c, [])
  | some (next, effects) =>
      let (last, more) := next.settle
      (last, effects ++ more)

def tell (c : Clock) : Clock × List Effect := { c with told := true }.settle

/-!
## Passing of time
-/

def waitEvent (c : Clock) : Server.Event :=
  match c.server.stage with
  | .draining => .abandon
  | _ => .backOffEnds

def next? (c : Clock) : Option (Nat × Server.Event) :=
  let heads : List (Nat × Server.Event) :=
    c.heads.map fun d => (d.due, .input d.client [.headTimeout])
  let waits : List (Nat × Server.Event) :=
    c.waitDue.toList.map fun due => (due, c.waitEvent)
  (heads ++ waits).foldl
    (fun best e =>
      match best with
      | none => some e
      | some known => if e.1 < known.1 then some e else best)
    none

def tick? (c : Clock) (moment : Nat) : Option (Clock × List Effect) :=
  match c.next? with
  | none => none
  | some (due, event) =>
      if moment < due then none else some ({ c with now := max c.now due }.perform event)

def advanceWith : Nat -> Nat -> Clock -> Clock × List Effect
  | 0, moment, c => ({ c with now := max c.now moment }, [])
  | fuel + 1, moment, c =>
      match c.tick? moment with
      | none => ({ c with now := max c.now moment }, [])
      | some (next, effects) =>
          let (last, more) := advanceWith fuel moment next
          (last, effects ++ more)

def deadlinesBefore (c : Clock) (moment : Nat) : Nat :=
  2 * (c.server.visitors.length + c.server.serving.length) + (moment - c.now) + 2

def advance (c : Clock) (moment : Nat) : Clock × List Effect :=
  advanceWith (c.deadlinesBefore moment) moment c

end Clock
end ConstantReply
