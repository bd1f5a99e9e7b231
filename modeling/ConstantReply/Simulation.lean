import ConstantReply.Listener.Bind
import ConstantReply.Server.Clock
import ConstantReply.Session.Transcript

/-!
# A server and its clients on a network

The server is bound to an address of a network, clients connect to it, and time passes as they wait.
A client that the network does not let through is refused; nothing that it does then has an effect.
-/

namespace ConstantReply

/-- Where a client stands. -/
inductive ClientStatus where
  | connected
  | refused
  | left
  deriving DecidableEq, Repr

/-- A client: what it was sent and has not read, and whether the server has closed. -/
structure Client where
  status : ClientStatus
  unread : List UInt8 := []
  ended : Bool := false
  writer : Http2.Writer := {}
  deriving DecidableEq, Repr

/-- How the reading of a client ends. -/
inductive ReadEnd where
  | head
  | closed
  | open
  deriving DecidableEq, Repr

structure Simulation where
  network : Network
  date : String
  sockets : SocketTable
  listener : Listener
  clock : Clock
  clients : List Client := []
  log : List Log.Event := []
  joined : Bool := false

/-- Why there is no server. -/
inductive NoServer where
  | bind (error : ListenError)
  | tooManySlots
  deriving DecidableEq, Repr

namespace Simulation

/-!
## Starting
-/

def start (network : Network) (date : String) (settings : Settings) (sockets : SocketTable) :
    Except NoServer Simulation :=
  match network.listen settings.endpoint sockets with
  | (.failed e, _) => .error (.bind e)
  | (.tooManySlots, _) => .error .tooManySlots
  | (.bound listener, sockets) =>
      .ok {
        network := network
        date := date
        sockets := sockets
        listener := listener
        clock := Clock.create settings listener.maxConnections }

/-!
## Effects
-/

def firstClientPort : Nat := 32768

def peerOf (s : Simulation) (client : Nat) : SocketAddress :=
  let port := UInt16.ofNat (firstClientPort + client)
  match s.listener.address.ip with
  | .v4 _ => ⟨.v4 Ipv4.loopback, port⟩
  | .v6 _ _ => ⟨.v6 Ipv6.loopback 0, port⟩

def setClient (s : Simulation) (id : Nat) (c : Client) : Simulation :=
  { s with clients := s.clients.set id c }

def applyEffect (s : Simulation) : Effect -> Simulation
  | .logged event => { s with log := s.log ++ [event] }
  | .unbound => { s with sockets := s.sockets.close s.listener.socket }
  | .closed id =>
      match s.clients[id]? with
      | none => s
      | some c => s.setClient id { c with ended := true }
  | .sent id outgoing =>
      match s.clients[id]? with
      | none => s
      | some c =>
          let (bytes, writer) := outgoing.write c.writer s.date
          s.setClient id { c with unread := c.unread ++ bytes, writer := writer }

def follow (s : Simulation) (r : Clock × List Effect) : Simulation :=
  r.2.foldl applyEffect { s with clock := r.1 }

def perform (s : Simulation) (event : Server.Event) : Simulation := s.follow (s.clock.perform event)

def wait (s : Simulation) (ms : Nat) : Simulation := s.follow (s.clock.advance (s.clock.now + ms))

/-!
## Clients
-/

def addClient (s : Simulation) (status : ClientStatus) : Simulation :=
  let client : Client := { status := status }
  { s with clients := s.clients ++ [client] }

def connect (s : Simulation) : Except SystemError Unit × Simulation :=
  let id := s.clients.length
  match s.network.connect s.sockets.bound s.listener.address with
  | .error e => (.error e, s.addClient .refused)
  | .ok () => (.ok (), (s.addClient .connected).perform (.arrive id (s.peerOf id)))

def scarcity : Nat := 20

def connectInScarcity (s : Simulation) : Except SystemError Unit × Simulation :=
  let id := s.clients.length
  match s.network.connect s.sockets.bound s.listener.address with
  | .error e => (.error e, s.addClient .refused)
  | .ok () =>
      let failed := (s.addClient .connected).perform (.acceptFails SystemError.tooManyOpenFiles)
      (.ok (), (failed.perform (.arrive id (s.peerOf id))).wait scarcity)

def client? (s : Simulation) (id : Nat) : Option Client :=
  (s.clients[id]?).filter fun c => c.status = .connected

def send (s : Simulation) (id : Nat) (bytes : List UInt8) : Simulation :=
  s.perform (.input id (Http.Input.segment bytes))

def finish (s : Simulation) (id : Nat) : Simulation := s.perform (.input id [.finish])

def leave (s : Simulation) (id : Nat) : Simulation :=
  match s.client? id with
  | none => s
  | some c => (s.setClient id { c with status := .left }).finish id

/-!
## Reading
-/

def splitHead : List UInt8 -> Option (List UInt8 × List UInt8)
  | 13 :: 10 :: 13 :: 10 :: rest => some ([13, 10, 13, 10], rest)
  | b :: rest => (splitHead rest).map fun (head, rest) => (b :: head, rest)
  | [] => none

def listen (oneHead : Bool) (id : Nat) : Nat -> Nat -> Simulation -> Simulation
  | 0, ms, s => s.wait ms
  | fuel + 1, ms, s =>
      match s.client? id with
      | none => s
      | some c =>
          if c.ended ∨ (oneHead = true ∧ (splitHead c.unread).isSome) then s
          else
            match s.clock.tick? (s.clock.now + ms) with
            | none => s.wait ms
            | some r =>
                let next := s.follow r
                let heard := (next.client? id).any fun d => c.unread.length < d.unread.length
                listen oneHead id fuel
                  (if heard then ms else ms - (next.clock.now - s.clock.now)) next

def readAll (s : Simulation) (id ms : Nat) : Option (List UInt8 × ReadEnd × Simulation) :=
  let s := listen false id (s.clock.deadlinesBefore (s.clock.now + ms)) ms s
  (s.client? id).map fun c =>
    (c.unread, if c.ended then .closed else .open, s.setClient id { c with unread := [] })

def readHead (s : Simulation) (id ms : Nat) : Option (List UInt8 × ReadEnd × Simulation) :=
  let s := listen true id (s.clock.deadlinesBefore (s.clock.now + ms)) ms s
  (s.client? id).map fun c =>
    match splitHead c.unread with
    | some (head, rest) => (head, .head, s.setClient id { c with unread := rest })
    | none => (c.unread, if c.ended then .closed else .open, s.setClient id { c with unread := [] })

/-!
## Ending
-/

def shutdown (s : Simulation) : Simulation := s.follow s.clock.tell

/-- What waiting for the end of the server comes to. -/
inductive JoinAnswer where
  | ok
  | running
  | joined
  deriving DecidableEq, Repr

def awaitStop : Nat -> Nat -> Simulation -> Simulation
  | 0, _, s => s
  | fuel + 1, moment, s =>
      if s.clock.server.isStopped then s
      else
        match s.clock.tick? moment with
        | none => s.wait (moment - s.clock.now)
        | some r => awaitStop fuel moment (s.follow r)

def join (s : Simulation) (ms : Nat) : JoinAnswer × Simulation :=
  if s.joined then (.joined, s)
  else
    let moment := s.clock.now + ms
    let s := awaitStop (s.clock.deadlinesBefore moment) moment s
    if s.clock.server.isStopped then (.ok, { s with joined := true }) else (.running, s)

def rebind (s : Simulation) : Except SystemError Unit :=
  (s.network.bind s.sockets.bound s.listener.address).map fun _ => ()

/-!
## One exchange
-/

def segmentGap : Nat := 20

def patience : Nat := 150

def exchange (s : Simulation) (parts : List (List UInt8)) (finish : Bool) (silence : Nat) :
    Except SystemError (List UInt8 × ReadEnd) × Simulation :=
  let id := s.clients.length
  match s.connect with
  | (.error e, s) => (.error e, s)
  | (.ok (), s) =>
      let s := parts.foldl (fun s part => (s.send id part).wait segmentGap) s
      let s := if finish then s.finish id else s
      match s.readAll id silence with
      | none => (.ok ([], .open), s)
      | some (data, ended, s) => (.ok (data, ended), s)

end Simulation
end ConstantReply
