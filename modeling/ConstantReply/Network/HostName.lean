import ConstantReply.Address
import ConstantReply.Text.Ascii

/-!
# Hosts written as numbers

Besides the strict dotted quad, a host may be written as one to four numbers with dots between them,
each decimal, octal after a zero, or hexadecimal after `0x`.  The last number fills all bytes that
the others leave.
-/

namespace ConstantReply
namespace HostName

def digitsOf (radix : Nat) : List Char -> Option (List Nat)
  | [] => some []
  | c :: rest =>
      match Ascii.hexDigit? c, digitsOf radix rest with
      | some d, some ds => if d < radix then some (d :: ds) else none
      | _, _ => none

def value (radix : Nat) (digits : List Nat) : Nat :=
  digits.foldl (fun n d => n * radix + d) 0

def number? (cs : List Char) : Option Nat :=
  match cs with
  | [] => none
  | '0' :: x :: rest =>
      if x = 'x' ∨ x = 'X' then
        if rest = [] then none else (digitsOf 16 rest).map (value 16)
      else (digitsOf 8 (x :: rest)).map (value 8)
  | _ => (digitsOf 10 cs).map (value 10)

def combine : Nat -> List Nat -> Option Nat
  | _, [] => none
  | bytes, [last] => if last < 256 ^ bytes then some last else none
  | bytes, part :: rest =>
      if part < 256 ∧ 2 ≤ bytes then
        (combine (bytes - 1) rest).map fun n => part * 256 ^ (bytes - 1) + n
      else none

def numeric? (host : String) : Option Ipv4 :=
  match (host.toList.splitOn '.').mapM number? with
  | none => none
  | some parts => (combine 4 parts).map Ipv4.ofNat

end HostName
end ConstantReply
