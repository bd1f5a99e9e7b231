/-!
# Text received as bytes

Arguments and environment variables are byte strings that are mostly, but not always, UTF-8.
`scan` cuts such a string into scalar values and ill-formed runs; every reading of the string,
strict or forgiving, is a function of that one cut.
-/

namespace ConstantReply
namespace Utf8

/-- A scalar value, or a longest run of bytes that starts like a scalar value and is none. -/
inductive Piece where
  | scalar (c : Char)
  | ill (bytes : List UInt8)
  deriving DecidableEq, Repr

abbrev RawText := List Piece

/-!
## The cut

The second byte of a sequence has bounds of its own after four lead bytes; they keep out overlong
forms, surrogates and values past the last plane.
-/

def secondOfThree (lead : UInt8) : UInt8 × UInt8 :=
  if lead = 0xE0 then (0xA0, 0xBF)
  else if lead = 0xED then (0x80, 0x9F)
  else (0x80, 0xBF)

def secondOfFour (lead : UInt8) : UInt8 × UInt8 :=
  if lead = 0xF0 then (0x90, 0xBF)
  else if lead = 0xF4 then (0x80, 0x8F)
  else (0x80, 0xBF)

def within (bounds : UInt8 × UInt8) (b : UInt8) : Bool :=
  bounds.1 ≤ b && b ≤ bounds.2

def continues (b : UInt8) : Bool := within (0x80, 0xBF) b

def low (b : UInt8) : Nat := b.toNat - 0x80

def scalar2 (a b : UInt8) : Char :=
  Char.ofNat ((a.toNat - 0xC0) * 64 + low b)

def scalar3 (a b c : UInt8) : Char :=
  Char.ofNat (((a.toNat - 0xE0) * 64 + low b) * 64 + low c)

def scalar4 (a b c d : UInt8) : Char :=
  Char.ofNat ((((a.toNat - 0xF0) * 64 + low b) * 64 + low c) * 64 + low d)

def scan : List UInt8 -> RawText
  | [] => []
  | a :: rest =>
      if a < 0x80 then
        .scalar (Char.ofNat a.toNat) :: scan rest
      else if within (0xC2, 0xDF) a then
        match rest with
        | b :: rest' =>
            if continues b then .scalar (scalar2 a b) :: scan rest'
            else .ill [a] :: scan (b :: rest')
        | [] => [.ill [a]]
      else if within (0xE0, 0xEF) a then
        match rest with
        | b :: rest' =>
            if within (secondOfThree a) b then
              match rest' with
              | c :: rest'' =>
                  if continues c then .scalar (scalar3 a b c) :: scan rest''
                  else .ill [a, b] :: scan (c :: rest'')
              | [] => [.ill [a, b]]
            else .ill [a] :: scan (b :: rest')
        | [] => [.ill [a]]
      else if within (0xF0, 0xF4) a then
        match rest with
        | b :: rest' =>
            if within (secondOfFour a) b then
              match rest' with
              | c :: rest'' =>
                  if continues c then
                    match rest'' with
                    | d :: rest''' =>
                        if continues d then .scalar (scalar4 a b c d) :: scan rest'''
                        else .ill [a, b, c] :: scan (d :: rest''')
                    | [] => [.ill [a, b, c]]
                  else .ill [a, b] :: scan (c :: rest'')
              | [] => [.ill [a, b]]
            else .ill [a] :: scan (b :: rest')
        | [] => [.ill [a]]
      else
        .ill [a] :: scan rest

/-!
## Readings of a cut
-/

def Piece.char? : Piece -> Option Char
  | .scalar c => some c
  | .ill _ => none

def Piece.shown : Piece -> Char
  | .scalar c => c
  | .ill _ => '\uFFFD'

def decode? (raw : RawText) : Option String :=
  (raw.mapM Piece.char?).map String.ofList

def lossy (raw : RawText) : String :=
  String.ofList (raw.map Piece.shown)

def ofString (s : String) : RawText := s.toList.map Piece.scalar

def WellFormed (bytes : List UInt8) : Bool :=
  (decode? (scan bytes)).isSome

theorem decode?_ofString (s : String) : decode? (ofString s) = some s := by
  have chars (cs : List Char) : (cs.map Piece.scalar).mapM Piece.char? = some cs := by
    induction cs with
    | nil => rfl
    | cons c rest ih => simp [Piece.char?, ih]
  simp [decode?, ofString, chars]

end Utf8
end ConstantReply
