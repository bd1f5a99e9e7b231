/-!
# ASCII letters and digits

Letter case here is that of ASCII alone: every other character is left as it is.
-/

namespace ConstantReply
namespace Ascii

def lower (s : String) : String :=
  String.ofList (s.toList.map Char.toLower)

def SameUpToCase (s t : String) : Prop :=
  s.toList.map Char.toLower = t.toList.map Char.toLower

instance (s t : String) : Decidable (SameUpToCase s t) := by
  unfold SameUpToCase
  infer_instance

theorem lower_eq_lower_iff (s t : String) :
    lower s = lower t ↔ SameUpToCase s t :=
  String.ofList_inj

def digit? (c : Char) : Option Nat :=
  if c.isDigit then some (c.toNat - '0'.toNat) else none

def hexDigit? (c : Char) : Option Nat :=
  if c.isDigit then some (c.toNat - '0'.toNat)
  else if 'a' ≤ c ∧ c ≤ 'f' then some (c.toNat - 'a'.toNat + 10)
  else if 'A' ≤ c ∧ c ≤ 'F' then some (c.toNat - 'A'.toNat + 10)
  else none

/-!
## Bytes

Protocol text is kept in bytes.  A byte below 128 stands for the ASCII character of that number.
-/

def bytes (s : String) : List UInt8 := s.toUTF8.toList

def isDigitByte (b : UInt8) : Bool := 0x30 ≤ b && b ≤ 0x39

def isUpperByte (b : UInt8) : Bool := 0x41 ≤ b && b ≤ 0x5A

def isLowerByte (b : UInt8) : Bool := 0x61 ≤ b && b ≤ 0x7A

def isLetterByte (b : UInt8) : Bool := isUpperByte b || isLowerByte b

def isAlphanumericByte (b : UInt8) : Bool := isDigitByte b || isLetterByte b

def lowerByte (b : UInt8) : UInt8 :=
  if isUpperByte b then b + 0x20 else b

def hexDigitByte? (b : UInt8) : Option Nat :=
  if isDigitByte b then some (b.toNat - 0x30)
  else if 0x61 ≤ b ∧ b ≤ 0x66 then some (b.toNat - 0x61 + 10)
  else if 0x41 ≤ b ∧ b ≤ 0x46 then some (b.toNat - 0x41 + 10)
  else none

end Ascii
end ConstantReply
