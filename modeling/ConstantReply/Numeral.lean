import ConstantReply.Text.Ascii

/-!
# Numbers written in decimal

A numeral is read from left to right into an accumulator of fixed range.  The first digit that
takes the value out of the range is reported at once, even if a character after it is no digit.
-/

namespace ConstantReply
namespace Numeral

/-- Why a text is not a number of the wanted range. -/
inductive Problem where
  | empty
  | invalidDigit
  | tooLarge
  | tooSmall
  | outside (value : Int) (greatest : Nat)
  deriving DecidableEq, Repr

def Problem.message : Problem -> String
  | .empty => "cannot parse integer from empty string"
  | .invalidDigit => "invalid digit found in string"
  | .tooLarge => "number too large to fit in target type"
  | .tooSmall => "number too small to fit in target type"
  | .outside value greatest =>
      toString value ++ " is not in 0..=" ++ toString greatest

/-- The range of an accumulator.  One with a negative part accepts a minus sign. -/
structure Range where
  least : Int
  greatest : Int
  deriving DecidableEq, Repr

def signed64 : Range := ⟨-0x8000000000000000, 0x7FFFFFFFFFFFFFFF⟩

def unsigned64 : Range := ⟨0, 0xFFFFFFFFFFFFFFFF⟩

def accumulate (range : Range) (negative : Bool) :
    Int -> List Char -> Except Problem Int
  | acc, [] => .ok acc
  | acc, c :: rest =>
      match Ascii.digit? c with
      | none => .error .invalidDigit
      | some d =>
          let next : Int := if negative then acc * 10 - d else acc * 10 + d
          if next < range.least then .error .tooSmall
          else if range.greatest < next then .error .tooLarge
          else accumulate range negative next rest

def digits (range : Range) (negative : Bool) (cs : List Char) : Except Problem Int :=
  if cs = [] then .error .invalidDigit else accumulate range negative 0 cs

def read (range : Range) : List Char -> Except Problem Int
  | [] => .error .empty
  | c :: rest =>
      if c = '+' then digits range false rest
      else if c = '-' ∧ range.least < 0 then digits range true rest
      else accumulate range false 0 (c :: rest)

def readUpTo (greatest : Nat) (cs : List Char) : Except Problem Nat :=
  match read signed64 cs with
  | .error problem => .error problem
  | .ok value =>
      if 0 ≤ value ∧ value ≤ greatest then .ok value.toNat
      else .error (.outside value greatest)

def readWord (cs : List Char) : Except Problem Nat :=
  (read unsigned64 cs).map Int.toNat

end Numeral
end ConstantReply
