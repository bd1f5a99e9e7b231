import ConstantReply.Failure
import ConstantReply.Network

/-!
# Binding a listener

A listener comes to be in steps: resolve the host, create a socket for the family of the first
address, allow the address to be used again, bind, listen, and read the bound address back.  The
first step that fails decides the error, and a socket that was opened on the way is closed.
-/

namespace ConstantReply

/-!
## Open sockets
-/

/-- An open socket, with its address once it is bound. -/
structure OpenSocket where
  number : Nat
  family : Family
  address : Option SocketAddress
  deriving DecidableEq, Repr

/-- The open sockets.  Numbers are not used twice. -/
structure SocketTable where
  nextNumber : Nat := 0
  sockets : List OpenSocket := []
  deriving DecidableEq, Repr

namespace SocketTable

def bound (t : SocketTable) : List SocketAddress := t.sockets.filterMap OpenSocket.address

def addressOf? (t : SocketTable) (number : Nat) : Option SocketAddress :=
  (t.sockets.find? fun s => s.number == number).bind OpenSocket.address

def create (t : SocketTable) (family : Family) : SocketTable :=
  ⟨t.nextNumber + 1, t.sockets ++ [⟨t.nextNumber, family, none⟩]⟩

def setAddress (t : SocketTable) (number : Nat) (address : SocketAddress) : SocketTable :=
  { t with
    sockets := t.sockets.map fun s =>
      if s.number = number then { s with address := some address } else s }

def close (t : SocketTable) (number : Nat) : SocketTable :=
  { t with sockets := t.sockets.filter fun s => s.number ≠ number }

end SocketTable

/-!
## Calls

An attempt to bind makes calls, whose answers may come from a description of a system or from a
system itself.
-/

/-- The calls that an attempt to bind makes.  A socket is known by its number. -/
structure SocketCalls (m : Type -> Type) where
  resolve : String -> m (Except SystemError (List SocketAddress))
  create : Family -> m (Except SystemError Nat)
  reuseAddress : Nat -> m (Except SystemError Unit)
  bind : Nat -> SocketAddress -> m (Except SystemError Unit)
  listen : Nat -> UInt32 -> m (Except SystemError Unit)
  localAddress : Nat -> m (Except SystemError SocketAddress)
  close : Nat -> m Unit

/-- How a system answers the calls. -/
structure SocketOutcomes where
  resolve : String -> Except SystemError (List SocketAddress)
  create : Family -> Except SystemError Unit
  reuseAddress : Except SystemError Unit
  bind : List SocketAddress -> SocketAddress -> Except SystemError SocketAddress
  listen : UInt32 -> Except SystemError Unit
  localAddress : SocketAddress -> Except SystemError SocketAddress

def Network.outcomes (network : Network) : SocketOutcomes where
  resolve := network.resolve
  create _ := .ok ()
  reuseAddress := .ok ()
  bind := network.bind
  listen _ := .ok ()
  localAddress address := .ok address

namespace SocketOutcomes

def create? (outcomes : SocketOutcomes) (family : Family) :
    StateM SocketTable (Except SystemError Nat) := fun table =>
  match outcomes.create family with
  | .error e => (.error e, table)
  | .ok () => (.ok table.nextNumber, table.create family)

def bind? (outcomes : SocketOutcomes) (number : Nat) (address : SocketAddress) :
    StateM SocketTable (Except SystemError Unit) := fun table =>
  match outcomes.bind table.bound address with
  | .error e => (.error e, table)
  | .ok got => (.ok (), table.setAddress number got)

def localAddress? (outcomes : SocketOutcomes) (number : Nat) :
    StateM SocketTable (Except SystemError SocketAddress) := fun table =>
  match table.addressOf? number with
  | none => (.error (.plain .notConnected), table)
  | some address => (outcomes.localAddress address, table)

def calls (outcomes : SocketOutcomes) : SocketCalls (StateM SocketTable) where
  resolve address := pure (outcomes.resolve address)
  create := outcomes.create?
  reuseAddress _ := pure outcomes.reuseAddress
  bind := outcomes.bind?
  listen _ backlog := pure (outcomes.listen backlog)
  localAddress := outcomes.localAddress?
  close number := modify fun table => table.close number

end SocketOutcomes

/-!
## Listeners
-/

/-- A bound listener. -/
structure Listener where
  socket : Nat
  address : SocketAddress
  maxConnections : Nat
  deriving DecidableEq, Repr

/-- How an attempt to bind ends. -/
inductive BindOutcome where
  | bound (listener : Listener)
  | failed (error : ListenError)
  | tooManySlots
  deriving DecidableEq, Repr

namespace Listener

def noAddress : SystemError := .described .notFound "no addresses resolved"

def prepare {m : Type -> Type} [Monad m] (calls : SocketCalls m) (backlog : UInt32)
    (socket : Nat) (address : SocketAddress) : m (Except ListenError SocketAddress) := do
  match <- calls.reuseAddress socket with
  | .error e => return .error (.socket e)
  | .ok () =>
      match <- calls.bind socket address with
      | .error e => return .error (ListenError.ofBind address e)
      | .ok () =>
          match <- calls.listen socket backlog with
          | .error e => return .error (ListenError.ofBind address e)
          | .ok () =>
              match <- calls.localAddress socket with
              | .error e => return .error (.socket e)
              | .ok got => return .ok got

/-- Bind a listener to an address.  A socket that does not come to listen is closed. -/
def bindAddress {m : Type -> Type} [Monad m] (calls : SocketCalls m) (endpoint : Endpoint)
    (address : SocketAddress) : m BindOutcome := do
  match <- calls.create address.family with
  | .error e => return .failed (.socket e)
  | .ok socket =>
      match <- prepare calls endpoint.backlog socket address with
      | .error e =>
          calls.close socket
          return .failed e
      | .ok got =>
          let slots := endpoint.maxConnections.toNat
          if maxSlots < slots then
            calls.close socket
            return .tooManySlots
          else return .bound ⟨socket, got, slots⟩

def bind {m : Type -> Type} [Monad m] (calls : SocketCalls m) (endpoint : Endpoint) :
    m BindOutcome := do
  let text := endpoint.address
  match <- calls.resolve text with
  | .error e => return .failed (.invalidAddress text e)
  | .ok [] => return .failed (.invalidAddress text noAddress)
  | .ok (address :: _) => bindAddress calls endpoint address

end Listener

def Network.listen (network : Network) (endpoint : Endpoint) (table : SocketTable) :
    BindOutcome × SocketTable :=
  (Listener.bind network.outcomes.calls endpoint).run table

end ConstantReply
