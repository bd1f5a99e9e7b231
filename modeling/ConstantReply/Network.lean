import ConstantReply.Network.Resolution

/-!
# The network around the server

What a system answers to the calls that servers and clients make: which names it knows, which
addresses can be bound, and which can be reached.  Two systems are described: one without any
interface, on which servers can be bound but no client can reach them, and one with a loopback
interface.
-/

namespace ConstantReply

/-- How a system answers calls about addresses. -/
structure Network where
  lookup : String -> Except SystemError (List Ip)
  assign : Ip -> Except SystemError Unit
  reach : Ip -> Except SystemError Unit
  firstFreePort : Nat := 49152

namespace Network

/-!
## Resolution
-/

def unknownName : SystemError := .described .uncategorized "failed to lookup address information"

def resolve (network : Network) (address : String) : Except SystemError (List SocketAddress) :=
  Id.run ((Resolution.ofAddress address).run fun host => pure (network.lookup host))

/-!
## Which sockets get in each other's way
-/

/-- The four bytes that a socket of an address listens on, or none if it listens on all. -/
inductive Reach where
  | everything
  | only (ip : Ip)
  deriving DecidableEq, Repr

/-- What a bound address covers.  The unspecified address of the newer family covers the older one
too, and addresses that stand for the older one are the same as those. -/
def coverage : Ip -> Reach
  | .v4 ip => if ip = Ipv4.any then .everything else .only (.v4 ip)
  | .v6 ip scope =>
      if ip = Ipv6.any then .everything
      else
        match ip.mapped? with
        | some v4 => if v4 = Ipv4.any then .everything else .only (.v4 v4)
        | none => .only (.v6 ip scope)

def overlap (a b : SocketAddress) : Bool :=
  a.port == b.port &&
    match coverage a.ip, coverage b.ip with
    | .everything, _ => true
    | _, .everything => true
    | .only x, .only y => x == y

def freePort (bound : List SocketAddress) (ip : Ip) : Nat -> Nat -> UInt16
  | 0, port => UInt16.ofNat port
  | fuel + 1, port =>
      if bound.any (overlap ⟨ip, UInt16.ofNat port⟩) then freePort bound ip fuel (port + 1)
      else UInt16.ofNat port

/-- Bind an address beside those already bound.  Port zero asks for any free port. -/
def bind (network : Network) (bound : List SocketAddress) (address : SocketAddress) :
    Except SystemError SocketAddress :=
  match network.assign address.ip with
  | .error e => .error e
  | .ok () =>
      if address.port = 0 then
        .ok ⟨address.ip, freePort bound address.ip (bound.length + 1) network.firstFreePort⟩
      else if bound.any (overlap address) then .error SystemError.addressInUse
      else .ok address

def connect (network : Network) (bound : List SocketAddress) (address : SocketAddress) :
    Except SystemError Unit :=
  match network.reach address.ip with
  | .error e => .error e
  | .ok () => if bound.any (overlap address) then .ok () else .error (.code 111)

/-!
## Systems
-/

def knowsLocalhost (host : String) : Except SystemError (List Ip) :=
  if Ascii.lower host = "localhost" then .ok [.v4 Ipv4.loopback, .v6 Ipv6.loopback 0]
  else .error unknownName

def isMulticast (ip : Ipv6) : Bool :=
  match ip.groups.head? with
  | some g => g / 256 == 0xFF
  | none => false

/-- Whether a system with the given addresses of the newer family lets one be bound.  An address of
one link needs an interface, and there is but the first. -/
def assignV6 (own : List Ipv6) (ip : Ipv6) (scope : UInt32) : Except SystemError Unit :=
  if ip = Ipv6.any ∨ ip.mapped?.isSome then .ok ()
  else if isMulticast ip then .error SystemError.invalidArgument
  else if ip.isLinkLocal ∧ scope = 0 then .error SystemError.invalidArgument
  else if ip.isLinkLocal ∧ scope ≠ 1 then .error (.code 19)
  else if ip ∈ own then .ok ()
  else .error SystemError.cannotAssignAddress

/-- A system without any address or route.  It does not know which addresses of four bytes are its
own and lets all of them be bound; no address can be reached. -/
def isolated : Network where
  lookup := knowsLocalhost
  assign
    | .v4 _ => .ok ()
    | .v6 ip scope => assignV6 [] ip scope
  reach _ := .error SystemError.networkUnreachable

def loopback : Network where
  lookup := knowsLocalhost
  assign
    | .v4 ip =>
        if ip = Ipv4.any ∨ ip.a = 127 then .ok () else .error SystemError.cannotAssignAddress
    | .v6 ip scope => assignV6 [Ipv6.loopback] ip scope
  reach
    | .v4 ip =>
        if ip = Ipv4.any ∨ ip.a = 127 then .ok () else .error SystemError.networkUnreachable
    | .v6 ip _ =>
        if ip = Ipv6.any ∨ ip = Ipv6.loopback then .ok ()
        else .error SystemError.networkUnreachable

end Network
end ConstantReply
