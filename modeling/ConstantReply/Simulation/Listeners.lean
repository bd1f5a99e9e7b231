import ConstantReply.Listener.Acceptor
import ConstantReply.Listener.Bind

/-!
# Listeners side by side

Several listeners on one network, and the clients that connect to them.  A listener is known by its
number; one that could not be bound or was dropped keeps its number and, in the latter case, its
port.
-/

namespace ConstantReply

/-- A listener that is open, and what is accepted on it. -/
structure OpenListener where
  listener : Listener
  acceptor : Acceptor
  deriving DecidableEq, Repr

/-- The place of a listener. -/
structure ListenerPlace where
  port : UInt16
  holder : Option OpenListener
  deriving DecidableEq, Repr

/-- A connection that was accepted: the place of its listener, and its permit. -/
structure AcceptedConnection where
  place : Nat
  permit : Nat
  deriving DecidableEq, Repr

structure Listeners where
  network : Network
  sockets : SocketTable := {}
  places : List ListenerPlace := []
  accepted : List (Option AcceptedConnection) := []
  clients : Nat := 0

/-- What an accept comes to. -/
inductive AcceptAnswer where
  | accepted (connection client : Nat)
  | pending
  deriving DecidableEq, Repr

namespace Listeners

def holder? (s : Listeners) (id : Nat) : Option OpenListener :=
  (s.places[id]?).bind ListenerPlace.holder

def permits (s : Listeners) : List (Option Nat) :=
  s.places.map fun p => p.holder.map fun h => h.acceptor.availablePermits

def portOf (s : Listeners) (id : Nat) : UInt16 := ((s.places[id]?).map ListenerPlace.port).getD 0

def setAcceptor (s : Listeners) (id : Nat) (acceptor : Acceptor) : Listeners :=
  { s with
    places := s.places.modify id fun p =>
      { p with holder := p.holder.map fun h => { h with acceptor := acceptor } } }

def bind (s : Listeners) (endpoint : Endpoint) : BindOutcome × Listeners :=
  let (outcome, sockets) := s.network.listen endpoint s.sockets
  let place : ListenerPlace :=
    match outcome with
    | .bound l => ⟨l.address.port, some ⟨l, Acceptor.create l.maxConnections⟩⟩
    | _ => ⟨0, none⟩
  (outcome, { s with sockets := sockets, places := s.places ++ [place] })

def connect? (s : Listeners) (id : Nat) : Option (Except SystemError Unit × Listeners) :=
  (s.holder? id).map fun h =>
    match s.network.connect s.sockets.bound h.listener.address with
    | .error e => (.error e, s)
    | .ok () =>
        (.ok (), { s.setAcceptor id (h.acceptor.arrive s.clients) with clients := s.clients + 1 })

def accept? (s : Listeners) (id : Nat) : Option (AcceptAnswer × Listeners) :=
  (s.holder? id).map fun h =>
    let number := h.acceptor.nextAccept
    let started := h.acceptor.start
    match started.complete? number, started.queue with
    | some acceptor, client :: _ =>
        (.accepted s.accepted.length client,
          { s.setAcceptor id acceptor with
            accepted := s.accepted ++ [some ⟨id, started.nextPermit⟩] })
    | _, _ => (.pending, s.setAcceptor id ((started.cancel? number).getD started))

def release? (s : Listeners) (connection : Nat) : Option Listeners :=
  ((s.accepted[connection]?).join).map fun c =>
    let s := { s with accepted := s.accepted.set connection none }
    match (s.holder? c.place).bind fun h => h.acceptor.release? c.permit with
    | none => s
    | some acceptor => s.setAcceptor c.place acceptor

def drop? (s : Listeners) (id : Nat) : Option Listeners :=
  (s.holder? id).map fun h =>
    { s with
      sockets := s.sockets.close h.listener.socket
      places := s.places.modify id fun p => { p with holder := none } }

end Listeners
end ConstantReply
