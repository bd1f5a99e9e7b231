/-!
# Text without terminal codes

What is shown of a text where terminal codes have no meaning: escape sequences are left out as a
whole, and so are single control characters other than white space.
-/

namespace ConstantReply
namespace Plain

/-- What the characters so far are part of. -/
inductive Mode where
  | text
  | escape
  | escapeTail
  | control
  | string (endsWithBell : Bool)
  deriving DecidableEq, Repr

def isWhiteSpace (code : Nat) : Bool := code == 9 || code == 10 || code == 12 || code == 13

def afterEscape (code : Nat) : Mode :=
  if code < 0x30 then .escapeTail
  else if code = 0x5B then .control
  else if code = 0x5D then .string true
  else if code = 0x50 ∨ code = 0x58 ∨ code = 0x5E ∨ code = 0x5F then .string false
  else .text

/-- Whether a character is shown, and the mode after it.  Anything that is shown ends a sequence. -/
def step (mode : Mode) (code : Nat) : Bool × Mode :=
  if 0x80 ≤ code then (true, .text)
  else if code = 0x18 ∨ code = 0x1A then (false, .text)
  else if code = 0x1B then (false, .escape)
  else
    match mode with
    | .string endsWithBell => (false, if endsWithBell && code == 7 then .text else mode)
    | _ =>
        if isWhiteSpace code then (true, .text)
        else if code < 0x20 ∨ code = 0x7F then (false, mode)
        else
          match mode with
          | .escape => (false, afterEscape code)
          | .escapeTail => (false, if code < 0x30 then .escapeTail else .text)
          | .control => (false, if code < 0x40 then .control else .text)
          | _ => (true, .text)

def shownFrom (mode : Mode) : List Char -> List Char
  | [] => []
  | c :: rest =>
      let next := step mode c.toNat
      if next.1 then c :: shownFrom next.2 rest else shownFrom next.2 rest

def shown (s : String) : String := String.ofList (shownFrom .text s.toList)

end Plain
end ConstantReply
