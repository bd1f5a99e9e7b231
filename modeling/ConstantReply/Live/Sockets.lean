import ConstantReply.Listener.Bind
import Std.Async.DNS
import Std.Async.TCP

/-!
# Sockets of the system

The calls that an attempt to bind makes, made to the system.  Its errors and addresses are read as
those of the library.
-/

namespace ConstantReply
namespace Live

open Std.Async

/-!
## Errors
-/

def errorNumber? : IO.Error -> Option UInt32
  | .alreadyExists _ n _ => some n
  | .otherError n _ => some n
  | .resourceBusy n _ => some n
  | .resourceVanished n _ => some n
  | .unsupportedOperation n _ => some n
  | .hardwareFault n _ => some n
  | .unsatisfiedConstraints n _ => some n
  | .illegalOperation n _ => some n
  | .protocolError n _ => some n
  | .timeExpired n _ => some n
  | .interrupted _ n _ => some n
  | .noFileOrDirectory _ n _ => some n
  | .invalidArgument _ n _ => some n
  | .permissionDenied _ n _ => some n
  | .resourceExhausted _ n _ => some n
  | .inappropriateType _ n _ => some n
  | .noSuchThing _ n _ => some n
  | .unexpectedEof => none
  | .userError _ => none

/-- An error of the system.  Numbers of socket errors are negated. -/
def systemError (e : IO.Error) : SystemError :=
  match errorNumber? e with
  | some n => if 0x80000000 ≤ n.toNat then .code (0x100000000 - n.toNat) else .code n.toNat
  | none => .described .other e.toString

def attempt (call : IO α) : IO (Except SystemError α) :=
  try
    return .ok (<- call)
  catch e => return .error (systemError e)

/-!
## Addresses
-/

def ofIpv4 (ip : Std.Net.IPv4Addr) : Ipv4 :=
  ⟨ip.octets[0], ip.octets[1], ip.octets[2], ip.octets[3]⟩

def ofIpv6 (ip : Std.Net.IPv6Addr) : Ipv6 := ⟨ip.segments.toList, by simp⟩

def ofIp : Std.Net.IPAddr -> Ip
  | .v4 ip => .v4 (ofIpv4 ip)
  | .v6 ip => .v6 (ofIpv6 ip) 0

def ofAddress (address : Std.Net.SocketAddress) : SocketAddress :=
  ⟨ofIp address.ipAddr, address.port⟩

def toAddress (address : SocketAddress) : Std.Net.SocketAddress :=
  match address.ip with
  | .v4 ip => .v4 ⟨.ofParts ip.a ip.b ip.c ip.d, address.port⟩
  | .v6 ip _ => .v6 ⟨⟨⟨ip.groups.toArray, by simp [ip.length_groups]⟩⟩, address.port⟩

def lookup (host : String) : IO (Except SystemError (List Ip)) := do
  match <- attempt (DNS.getAddrInfo host "").block with
  | .ok ips => return .ok (ips.toList.map ofIp).eraseDups
  | .error _ => return .error Network.unknownName

/-!
## Open sockets
-/

/-- The sockets that were created and not closed. -/
structure Sockets where
  next : Nat := 0
  opened : List (Nat × TCP.Socket.Server) := []

namespace Sockets

def get? (s : Sockets) (number : Nat) : Option TCP.Socket.Server := s.opened.lookup number

def create (table : IO.Ref Sockets) : IO (Except SystemError Nat) := do
  match <- attempt TCP.Socket.Server.mk with
  | .error e => return .error e
  | .ok socket =>
      table.modifyGet fun s => (.ok s.next, ⟨s.next + 1, s.opened ++ [(s.next, socket)]⟩)

def withSocket (table : IO.Ref Sockets) (number : Nat) (call : TCP.Socket.Server -> IO α) :
    IO (Except SystemError α) := do
  match (<- table.get).get? number with
  | none => return .error (.code 9)
  | some socket => attempt (call socket)

/-- The calls.  An address can be used again without being asked for. -/
def calls (table : IO.Ref Sockets) : SocketCalls IO where
  resolve address := (Resolution.ofAddress address).run lookup
  create _ := create table
  reuseAddress _ := return .ok ()
  bind number address := withSocket table number fun socket => socket.bind (toAddress address)
  listen number backlog := withSocket table number fun socket => socket.listen backlog
  localAddress number :=
    withSocket table number fun socket => return ofAddress (<- socket.getSockName)
  close number :=
    table.modify fun s => { s with opened := s.opened.filter fun entry => entry.1 ≠ number }

end Sockets
end Live
end ConstantReply
