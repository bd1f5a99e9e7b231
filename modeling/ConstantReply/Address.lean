/-!
# Socket addresses

An address of either family, with a port.  The text forms are in `Address.Printer` and
`Address.Reader`.
-/

namespace ConstantReply

/-- An address of four bytes. -/
structure Ipv4 where
  a : UInt8
  b : UInt8
  c : UInt8
  d : UInt8
  deriving DecidableEq, Repr

/-- An address of eight groups of sixteen bits. -/
structure Ipv6 where
  groups : List UInt16
  length_groups : groups.length = 8
  deriving DecidableEq, Repr

namespace Ipv4

def any : Ipv4 := ⟨0, 0, 0, 0⟩

def loopback : Ipv4 := ⟨127, 0, 0, 1⟩

def toGroups (ip : Ipv4) : List UInt16 :=
  [ip.a.toUInt16 * 256 + ip.b.toUInt16, ip.c.toUInt16 * 256 + ip.d.toUInt16]

def ofGroups (high low : UInt16) : Ipv4 :=
  ⟨(high / 256).toUInt8, (high % 256).toUInt8, (low / 256).toUInt8, (low % 256).toUInt8⟩

def ofNat (n : Nat) : Ipv4 :=
  ⟨UInt8.ofNat (n / 0x1000000), UInt8.ofNat (n / 0x10000), UInt8.ofNat (n / 0x100), UInt8.ofNat n⟩

end Ipv4

namespace Ipv6

def ofList? (groups : List UInt16) : Option Ipv6 :=
  if h : groups.length = 8 then some ⟨groups, h⟩ else none

def any : Ipv6 := ⟨[0, 0, 0, 0, 0, 0, 0, 0], rfl⟩

def loopback : Ipv6 := ⟨[0, 0, 0, 0, 0, 0, 0, 1], rfl⟩

def mapped? (ip : Ipv6) : Option Ipv4 :=
  match ip.groups with
  | [0, 0, 0, 0, 0, 0xFFFF, high, low] => some (Ipv4.ofGroups high low)
  | _ => none

def isLinkLocal (ip : Ipv6) : Bool :=
  match ip.groups.head? with
  | some g => g / 64 == 0xFE80 / 64
  | none => false

@[simp] theorem ofList?_groups (ip : Ipv6) : ofList? ip.groups = some ip := by
  simp [ofList?, ip.length_groups]

theorem groups_of_ofList? {groups : List UInt16} {ip : Ipv6}
    (h : ofList? groups = some ip) : ip.groups = groups := by
  unfold ofList? at h
  split at h
  · cases h
    rfl
  · cases h

end Ipv6

/-- An address of either family. -/
inductive Ip where
  | v4 (ip : Ipv4)
  | v6 (ip : Ipv6) (scope : UInt32)
  deriving DecidableEq, Repr

/-- The family of an address. -/
inductive Family where
  | v4
  | v6
  deriving DecidableEq, Repr

/-- An address and a port. -/
structure SocketAddress where
  ip : Ip
  port : UInt16
  deriving DecidableEq, Repr

def Ip.family : Ip -> Family
  | .v4 _ => .v4
  | .v6 _ _ => .v6

def SocketAddress.family (address : SocketAddress) : Family := address.ip.family

end ConstantReply
