import ConstantReply.Listener.Acceptor
import ConstantReply.Log.Catalogue
import ConstantReply.Session

/-!
# The server

The server takes connections as far as its limit allows and serves each in a session of its own,
which it watches from the first moment.  Told to end, it takes no more of them, lets go of its
address, tells every session that it watches, and stops when all of them have ended or the time for
that is over.

Each step is one that the world or the server itself can take next; nothing is said about when.
-/

namespace ConstantReply

/-- What the server waits for; once it has stopped, whether all connections had ended. -/
inductive Stage where
  | accepting (accept : Nat)
  | backingOff
  | leaving
  | unbound
  | draining
  | stopped (drained : Bool)
  | failed (error : ServeError)
  deriving DecidableEq, Repr

/-- A client that is connected and not served yet, and what it has sent so far. -/
structure Visitor where
  client : Nat
  peer : SocketAddress
  inbox : List Http.Input := []
  deriving DecidableEq, Repr

/-- A client that is served: the permit and the guard of its connection, and its session. -/
structure Serving where
  client : Nat
  peer : SocketAddress
  permit : Nat
  guard : Nat
  session : Session
  deriving DecidableEq, Repr

structure Server where
  keepAlive : Bool
  acceptor : Acceptor
  tracking : Tracking := Tracking.create {}
  visitors : List Visitor := []
  serving : List Serving := []
  watched : List Nat := []
  stage : Stage
  deriving DecidableEq, Repr

/-- What others can see of a step. -/
inductive Effect where
  | sent (client : Nat) (outgoing : Outgoing)
  | closed (client : Nat)
  | unbound
  | logged (event : Log.Event)
  deriving DecidableEq, Repr

namespace Server

/-!
## Look-up
-/

def visitor? (s : Server) (client : Nat) : Option Visitor :=
  s.visitors.find? fun v => v.client == client

def serving? (s : Server) (client : Nat) : Option Serving :=
  s.serving.find? fun c => c.client == client

def isKnown (s : Server) (client : Nat) : Bool :=
  (s.visitor? client).isSome || (s.serving? client).isSome

def goesOn (s : Server) : Bool :=
  match s.stage with
  | .accepting _ => true
  | .backingOff => true
  | _ => false

def isListening (s : Server) : Bool := s.goesOn || s.stage == .leaving

def result? (s : Server) : Option (Except ServeError Unit) :=
  match s.stage with
  | .stopped _ => some (.ok ())
  | .failed error => some (.error error)
  | _ => none

def isStopped (s : Server) : Bool := s.result?.isSome

def tracker : Nat := 0

def activeCount (s : Server) : Nat := ((s.tracking.activeCount? tracker).map UInt64.toNat).getD 0

def idOf (s : Server) (guard : Nat) : ConnectionId :=
  ((s.tracking.guard? guard).map Guard.id).getD ⟨0⟩

/-!
## Effects
-/

def spanOf (line : Http.RequestLine) : Log.RequestSpan :=
  let text (bytes : List UInt8) : String := Utf8.lossy (Utf8.scan bytes)
  ⟨text line.method, text line.target, line.version.name⟩

def requestEvents : Outgoing -> List Log.Event
  | .reply (.ok line _) =>
      [Log.requestStarted (spanOf line), Log.requestFinished (spanOf line) 200]
  | _ => []

def sessionEffects (client : Nat) (before after : Session) (sent : List Outgoing) :
    List Effect :=
  (sent.flatMap fun o => (requestEvents o).map .logged ++ [.sent client o]) ++
    (if after.isClosed && !before.isClosed then [.closed client] else [])

/-!
## Accepting
-/

def create (keepAlive : Bool) (limit : Nat) : Server where
  keepAlive := keepAlive
  acceptor := (Acceptor.create limit).start
  stage := .accepting 0

def acceptNext (s : Server) (acceptor : Acceptor) : Server :=
  { s with acceptor := acceptor.start, stage := .accepting acceptor.nextAccept }

/-- Serve the client whose connection was accepted with a permit.  Everything that it has sent
before is there at once. -/
def serve (s : Server) (v : Visitor) (permit : Nat) (tracking : Tracking) :
    Server × List Effect :=
  let guard := s.tracking.guards.length
  let begun := Session.start.run s.keepAlive (v.inbox ++ [.pause])
  let s := { s with
    tracking := tracking
    visitors := s.visitors.filter fun w => w.client != v.client
    serving := s.serving ++ [⟨v.client, v.peer, permit, guard, begun.1⟩]
    watched := s.watched ++ [v.client] }
  (s, .logged (Log.servingConnection (s.idOf guard) v.peer) ::
    sessionEffects v.client .start begun.1 begun.2)

def accept? (s : Server) : Option (Server × List Effect) :=
  match s.stage with
  | .accepting a => do
      let client <- s.acceptor.queue.head?
      let visitor <- s.visitor? client
      let acceptor <- s.acceptor.complete? a
      let tracking <- s.tracking.track? tracker
      let (next, effects) := s.serve visitor s.acceptor.nextPermit tracking
      some (next.acceptNext acceptor,
        .logged (Log.connectionAccepted visitor.peer acceptor.availablePermits) :: effects)
  | _ => none

/-- An accept fails.  If that concerns only the client that has gone, the next one follows at once;
otherwise the server waits before it tries again. -/
def acceptFails? (s : Server) (error : SystemError) : Option (Server × List Effect) :=
  match s.stage with
  | .accepting a => do
      let acceptor <- s.acceptor.fail? a
      if error.concernsOneClient then
        some (s.acceptNext acceptor, [.logged (Log.clientWentAway error)])
      else
        some ({ s with acceptor := acceptor, stage := .backingOff },
          [.logged (Log.acceptFailed error)])
  | _ => none

def letGo (s : Server) : Server × List Effect :=
  ({ s with acceptor := { s.acceptor with queue := [] }, visitors := [] },
    .unbound :: s.visitors.map fun v => .closed v.client)

/-- An accept learns that there will be no slots.  The server cannot go on without. -/
def acceptIsRefused? (s : Server) : Option (Server × List Effect) :=
  match s.stage with
  | .accepting a => do
      let acceptor <- s.acceptor.refuse? a
      some { s with acceptor := acceptor, stage := .failed (.listen .closed) }.letGo
  | _ => none

def backOffEnds? (s : Server) : Option (Server × List Effect) :=
  match s.stage with
  | .backingOff => some (s.acceptNext s.acceptor, [])
  | _ => none

/-!
## Clients
-/

def arrive? (s : Server) (client : Nat) (peer : SocketAddress) : Option (Server × List Effect) :=
  if s.isListening = false ∨ s.isKnown client then none
  else
    some ({ s with
      acceptor := s.acceptor.arrive client
      visitors := s.visitors ++ [{ client := client, peer := peer }] }, [])

def advance (s : Server) (c : Serving) (inputs : List Http.Input) : Server × List Effect :=
  let next := c.session.run s.keepAlive inputs
  ({ s with
    serving := s.serving.map fun d =>
      if d.client = c.client then { d with session := next.1 } else d },
    sessionEffects c.client c.session next.1 next.2)

/-- What a client does itself.  Before it is served there is nobody to pause or to lose patience. -/
def doneByClient : Http.Input -> Bool
  | .byte _ => true
  | .finish => true
  | _ => false

/-- A client does something.  Until it is served, that is kept for later. -/
def input? (s : Server) (client : Nat) (inputs : List Http.Input) :
    Option (Server × List Effect) :=
  match s.serving? client with
  | some c => some (s.advance c inputs)
  | none =>
      match s.visitor? client with
      | none => none
      | some _ =>
          some ({ s with
            visitors := s.visitors.map fun v =>
              if v.client = client then
                { v with inbox := v.inbox ++ inputs.filter doneByClient }
              else v }, [])

def conclude? (s : Server) (client : Nat) : Option (Server × List Effect) := do
  let c <- s.serving? client
  if c.session.isClosed then
    let acceptor <- s.acceptor.release? c.permit
    let tracking <- s.tracking.release? c.guard
    some ({ s with
      acceptor := acceptor
      tracking := tracking
      watched := s.watched.erase client
      serving := s.serving.filter fun d => d.client != client },
      [.logged (Log.connectionClosed (s.idOf c.guard))])
  else none

/-!
## Ending
-/

def heed? (s : Server) : Option (Server × List Effect) :=
  match s.stage with
  | .accepting a => do
      let acceptor <- s.acceptor.cancel? a
      some ({ s with acceptor := acceptor, stage := .leaving }, [.logged Log.noLongerAccepting])
  | _ => none

def unbind? (s : Server) : Option (Server × List Effect) :=
  if s.stage = .leaving then some { s with stage := .unbound }.letGo else none

def tell (s : Server) (client : Nat) : Server × List Effect :=
  match s.serving? client with
  | none => (s, [])
  | some c => s.advance c [.shutdown]

def tellAll (s : Server) : Server × List Effect :=
  s.watched.foldl
    (fun r client =>
      let told := r.1.tell client
      (told.1, r.2 ++ told.2))
    (s, [])

def drain? (s : Server) : Option (Server × List Effect) :=
  if s.stage = .unbound then
    let told := { s with stage := .draining }.tellAll
    some (told.1, .logged (Log.draining s.activeCount) :: told.2)
  else none

def finish? (s : Server) : Option (Server × List Effect) :=
  if s.stage = .draining ∧ s.watched = [] then
    some ({ s with stage := .stopped true },
      [.logged Log.allClosed, .logged Log.serverStopped])
  else none

def abandon? (s : Server) : Option (Server × List Effect) :=
  if s.stage = .draining then
    some ({ s with stage := .stopped false },
      [.logged (Log.drainTimedOut s.activeCount), .logged Log.serverStopped])
  else none

/-!
## Runs
-/

inductive Event where
  | arrive (client : Nat) (peer : SocketAddress)
  | accept
  | acceptFails (error : SystemError)
  | acceptIsRefused
  | backOffEnds
  | input (client : Nat) (inputs : List Http.Input)
  | conclude (client : Nat)
  | heed
  | unbind
  | drain
  | finish
  | abandon
  deriving DecidableEq, Repr

def step? (s : Server) : Event -> Option (Server × List Effect)
  | .arrive client peer => s.arrive? client peer
  | .accept => s.accept?
  | .acceptFails error => s.acceptFails? error
  | .acceptIsRefused => s.acceptIsRefused?
  | .backOffEnds => s.backOffEnds?
  | .input client inputs => s.input? client inputs
  | .conclude client => s.conclude? client
  | .heed => s.heed?
  | .unbind => s.unbind?
  | .drain => s.drain?
  | .finish => s.finish?
  | .abandon => s.abandon?

def run? (s : Server) : List Event -> Option (Server × List Effect)
  | [] => some (s, [])
  | event :: rest => do
      let (next, effects) <- s.step? event
      let (last, more) <- run? next rest
      some (last, effects ++ more)

end Server
end ConstantReply
