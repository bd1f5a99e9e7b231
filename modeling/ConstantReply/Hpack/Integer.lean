/-!
# Integers in header blocks

A number fills the low bits of a byte that it shares with something else, and goes on in bytes of
seven bits each, the least significant first, if it does not fit there.
-/

namespace ConstantReply
namespace Hpack

def greatestIntegerSize : Nat := 5

namespace Integer

def continuation (n : Nat) : List UInt8 :=
  if n < 128 then [UInt8.ofNat n] else UInt8.ofNat (128 + n % 128) :: continuation (n / 128)
termination_by n
decreasing_by omega

def encode (width : Nat) (other : Nat) (n : Nat) : List UInt8 :=
  let full := Nat.pow 2 width - 1
  if n < full then [UInt8.ofNat (other + n)]
  else UInt8.ofNat (other + full) :: continuation (n - full)

def decodeContinuation : Nat -> List UInt8 -> Option (Nat × List UInt8)
  | 0, _ => none
  | _, [] => none
  | fuel + 1, b :: rest =>
      if b < 128 then some (b.toNat, rest)
      else (decodeContinuation fuel rest).map fun (n, rest) => (b.toNat - 128 + 128 * n, rest)

def decode (width : Nat) : List UInt8 -> Option (Nat × List UInt8)
  | [] => none
  | b :: rest =>
      let full := Nat.pow 2 width - 1
      let low := b.toNat % Nat.pow 2 width
      if low < full then some (low, rest)
      else
        (decodeContinuation (greatestIntegerSize - 1) rest).map fun (n, rest) => (full + n, rest)

end Integer
end Hpack
end ConstantReply
