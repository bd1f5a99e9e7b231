import ConstantReply.Address

/-!
# The texts of addresses

Which texts an address can be written as, whatever reads them.  Numbers may have zeros in front
except in dotted form, groups may have letters of either case, and of an IPv6 address any zero
groups that stand together may be left out.
-/

namespace ConstantReply
namespace Address

/-!
## Numbers
-/

def IsDigit (radix : Nat) (c : Char) (d : Nat) : Prop :=
  d < radix ∧ ("0123456789abcdef".toList[d]? = some c ∨ "0123456789ABCDEF".toList[d]? = some c)

instance (radix : Nat) (c : Char) (d : Nat) : Decidable (IsDigit radix c d) :=
  inferInstanceAs (Decidable (_ ∧ _))

/-- A numeral: one or more digits, the most significant first. -/
inductive NumberText (radix : Nat) : List Char -> Nat -> Prop where
  | digit {c : Char} {d : Nat} : IsDigit radix c d -> NumberText radix [c] d
  | more {cs : List Char} {n : Nat} {c : Char} {d : Nat} :
      NumberText radix cs n -> IsDigit radix c d -> NumberText radix (cs ++ [c]) (n * radix + d)

def NoLeadingZero (cs : List Char) : Prop := cs.head? = some '0' -> cs = ['0']

structure ShortNumber (cs : List Char) (n : Nat) : Prop where
  number : NumberText 10 cs n
  noZero : NoLeadingZero cs

/-!
## Addresses
-/

/-- A dotted quad. -/
inductive Ipv4Text : List Char -> Ipv4 -> Prop where
  | quad {a b c d : List Char} {ip : Ipv4} :
      ShortNumber a ip.a.toNat -> ShortNumber b ip.b.toNat -> ShortNumber c ip.c.toNat ->
      ShortNumber d ip.d.toNat ->
      Ipv4Text (a ++ '.' :: b ++ '.' :: c ++ '.' :: d) ip

structure GroupText (cs : List Char) (g : UInt16) : Prop where
  number : NumberText 16 cs g.toNat
  length_le : cs.length ≤ 4

/-- One or more groups with colons between them; the last two may be in dotted form. -/
inductive GroupsText : Bool -> List Char -> List UInt16 -> Prop where
  | group {cs : List Char} {g : UInt16} : GroupText cs g -> GroupsText false cs [g]
  | dotted {cs : List Char} {ip : Ipv4} : Ipv4Text cs ip -> GroupsText true cs ip.toGroups
  | cons {dotted : Bool} {cs rest : List Char} {g : UInt16} {groups : List UInt16} :
      GroupText cs g -> GroupsText dotted rest groups ->
      GroupsText dotted (cs ++ ':' :: rest) (g :: groups)

/-- Groups as before, or none. -/
inductive PartText : Bool -> List Char -> List UInt16 -> Prop where
  | none : PartText false [] []
  | some {dotted : Bool} {cs : List Char} {groups : List UInt16} :
      GroupsText dotted cs groups -> PartText dotted cs groups

/-- All eight groups, or a double colon in the place of one or more zero groups. -/
inductive Ipv6Text : List Char -> Ipv6 -> Prop where
  | full {dotted : Bool} {cs : List Char} {ip : Ipv6} :
      GroupsText dotted cs ip.groups -> Ipv6Text cs ip
  | compressed {dotted : Bool} {front back : List Char} {first last : List UInt16} {zeros : Nat}
      {ip : Ipv6} :
      PartText false front first -> PartText dotted back last -> 0 < zeros ->
      ip.groups = first ++ List.replicate zeros 0 ++ last ->
      Ipv6Text (front ++ ':' :: ':' :: back) ip

/-- An IPv6 address, and perhaps the number of its scope, which otherwise is zero. -/
inductive ScopedText : List Char -> Ipv6 -> UInt32 -> Prop where
  | bare {cs : List Char} {ip : Ipv6} : Ipv6Text cs ip -> ScopedText cs ip 0
  | numbered {cs number : List Char} {ip : Ipv6} {scope : UInt32} :
      Ipv6Text cs ip -> NumberText 10 number scope.toNat ->
      ScopedText (cs ++ '%' :: number) ip scope

/-- A socket address. -/
inductive SocketText : List Char -> SocketAddress -> Prop where
  | v4 {cs number : List Char} {ip : Ipv4} {port : UInt16} :
      Ipv4Text cs ip -> NumberText 10 number port.toNat ->
      SocketText (cs ++ ':' :: number) ⟨.v4 ip, port⟩
  | v6 {cs number : List Char} {ip : Ipv6} {scope : UInt32} {port : UInt16} :
      ScopedText cs ip scope -> NumberText 10 number port.toNat ->
      SocketText ('[' :: cs ++ ']' :: ':' :: number) ⟨.v6 ip scope, port⟩

end Address
end ConstantReply
