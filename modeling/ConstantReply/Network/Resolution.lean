import ConstantReply.Address.Reader
import ConstantReply.Network.HostName
import ConstantReply.SystemError

/-!
# From an address to socket addresses

A literal address stands for itself.  Any other is a host and a port; a host written in numbers
needs no look-up, and only what is left is asked of the system.
-/

namespace ConstantReply

/-- What is to be done to learn the socket addresses of an address. -/
inductive Resolution where
  | done (result : Except SystemError (List SocketAddress))
  | lookup (host : String) (port : UInt16)

namespace Resolution

def brokenName : SystemError :=
  .described .invalidInput "file name contained an unexpected NUL byte"

def noPort : SystemError := .described .invalidInput "invalid socket address"

def badPort : SystemError := .described .invalidInput "invalid port value"

def splitPort (address : List Char) : Option (List Char × List Char) :=
  let port := (address.reverse.takeWhile (· ≠ ':')).reverse
  if port.length < address.length then
    some (address.take (address.length - port.length - 1), port)
  else none

def atPort (port : UInt16) (ips : List Ip) : List SocketAddress := ips.map fun ip => ⟨ip, port⟩

def ofHost (host : String) (port : UInt16) : Resolution :=
  if '\x00' ∈ host.toList then .done (.error brokenName)
  else
    match HostName.numeric? host with
    | some ip => .done (.ok (atPort port [.v4 ip]))
    | none => .lookup host port

def ofAddress (address : String) : Resolution :=
  match SocketAddress.parse? address with
  | some literal => .done (.ok [literal])
  | none =>
      match splitPort address.toList with
      | none => .done (.error noPort)
      | some (host, port) =>
          match Address.readDecimal 65535 port with
          | some (n, []) => ofHost (String.ofList host) (UInt16.ofNat n)
          | _ => .done (.error badPort)

def run {m : Type -> Type} [Monad m] (lookup : String -> m (Except SystemError (List Ip))) :
    Resolution -> m (Except SystemError (List SocketAddress))
  | .done result => return result
  | .lookup host port => do return (<- lookup host).map (atPort port)

end Resolution
end ConstantReply
