import ConstantReply.Address

/-!
# The text of a socket address

IPv6 text is canonical: lower case, no leading zeros in a group, and the longest run of at least two
zero groups, the first of equal ones, is left out.  An address that stands for one of the other
family ends in dotted form.
-/

namespace ConstantReply

namespace Ipv4

def chars (ip : Ipv4) : List Char :=
  Nat.toDigits 10 ip.a.toNat ++ '.' :: Nat.toDigits 10 ip.b.toNat ++
    '.' :: Nat.toDigits 10 ip.c.toNat ++ '.' :: Nat.toDigits 10 ip.d.toNat

end Ipv4

namespace Ipv6

/-!
## The run that is left out
-/

/-- A run of zero groups: where it starts, and how many groups it has. -/
structure Run where
  start : Nat
  length : Nat
  deriving DecidableEq, Repr

def leadingZeros (groups : List UInt16) : Nat :=
  (groups.takeWhile (· == 0)).length

def longestRun (start : Nat) : List UInt16 -> Run
  | [] => ⟨start, 0⟩
  | g :: rest =>
      let here : Run := ⟨start, leadingZeros (g :: rest)⟩
      let later := longestRun (start + 1) rest
      if later.length ≤ here.length then here else later

/-!
## Printing
-/

def groupChars : List UInt16 -> List Char
  | [] => []
  | [g] => Nat.toDigits 16 g.toNat
  | g :: rest => Nat.toDigits 16 g.toNat ++ ':' :: groupChars rest

def chars (ip : Ipv6) : List Char :=
  match ip.mapped? with
  | some v4 => "::ffff:".toList ++ v4.chars
  | none =>
      let run := longestRun 0 ip.groups
      if 2 ≤ run.length then
        groupChars (ip.groups.take run.start) ++ "::".toList ++
          groupChars (ip.groups.drop (run.start + run.length))
      else
        groupChars ip.groups

end Ipv6

namespace Ip

def display : Ip -> String
  | .v4 ip => String.ofList ip.chars
  | .v6 ip _ => String.ofList ip.chars

end Ip

namespace SocketAddress

def chars (address : SocketAddress) : List Char :=
  let port := ':' :: Nat.toDigits 10 address.port.toNat
  match address.ip with
  | .v4 ip => ip.chars ++ port
  | .v6 ip scope =>
      let scopeChars := if scope = 0 then [] else '%' :: Nat.toDigits 10 scope.toNat
      '[' :: ip.chars ++ scopeChars ++ ']' :: port

def display (address : SocketAddress) : String := String.ofList address.chars

end SocketAddress
end ConstantReply
