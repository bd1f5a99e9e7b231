import ConstantReply.Address
import ConstantReply.Text.Ascii

/-!
# Reading socket addresses

The strict grammar: a dotted quad without leading zeros, or an IPv6 address in brackets, optionally
with a numeric scope, and a decimal port.  A reader takes a text and gives what it read and what
follows.
-/

namespace ConstantReply

namespace Address

/-!
## Numbers
-/

def digitRun (digit? : Char -> Option Nat) : List Char -> List Nat × List Char
  | [] => ([], [])
  | c :: rest =>
      match digit? c with
      | some d => (d :: (digitRun digit? rest).1, (digitRun digit? rest).2)
      | none => ([], c :: rest)

def ofDigits (radix : Nat) (digits : List Nat) : Nat :=
  digits.foldl (fun n d => n * radix + d) 0

def readDecimal (greatest : Nat) (cs : List Char) : Option (Nat × List Char) :=
  let run := digitRun Ascii.digit? cs
  if run.1 ≠ [] ∧ ofDigits 10 run.1 ≤ greatest then some (ofDigits 10 run.1, run.2) else none

def readOctet (cs : List Char) : Option (UInt8 × List Char) :=
  let run := digitRun Ascii.digit? cs
  if run.1 ≠ [] ∧ run.1.length ≤ 3 ∧ (run.1.head? = some 0 -> run.1.length = 1) ∧
      ofDigits 10 run.1 ≤ 255 then
    some (UInt8.ofNat (ofDigits 10 run.1), run.2)
  else none

def readGroup (cs : List Char) : Option (UInt16 × List Char) :=
  let run := digitRun Ascii.hexDigit? cs
  if run.1 ≠ [] ∧ run.1.length ≤ 4 then some (UInt16.ofNat (ofDigits 16 run.1), run.2) else none

def skip (c : Char) : List Char -> Option (List Char)
  | [] => none
  | d :: rest => if d = c then some rest else none

/-!
## Addresses
-/

def readIpv4 (cs : List Char) : Option (Ipv4 × List Char) := do
  let (a, cs) <- readOctet cs
  let cs <- skip '.' cs
  let (b, cs) <- readOctet cs
  let cs <- skip '.' cs
  let (c, cs) <- readOctet cs
  let cs <- skip '.' cs
  let (d, cs) <- readOctet cs
  pure (⟨a, b, c, d⟩, cs)

/-- Groups read one after another, whether the last two were in dotted form, and what follows. -/
structure GroupsRead where
  groups : List UInt16
  dotted : Bool
  rest : List Char

/-- Read up to `limit` groups with colons between them.  Where two groups have room they may be in
dotted form, and then nothing can follow them. -/
def readGroups : Nat -> Bool -> List Char -> GroupsRead
  | 0, _, cs => ⟨[], false, cs⟩
  | limit + 1, first, cs =>
      match if first then some cs else skip ':' cs with
      | none => ⟨[], false, cs⟩
      | some inner =>
          match if limit = 0 then none else readIpv4 inner with
          | some (ip, rest) => ⟨ip.toGroups, true, rest⟩
          | none =>
              match readGroup inner with
              | none => ⟨[], false, cs⟩
              | some (g, rest) =>
                  let more := readGroups limit false rest
                  ⟨g :: more.groups, more.dotted, more.rest⟩

def readIpv6 (cs : List Char) : Option (Ipv6 × List Char) :=
  let front := readGroups 8 true cs
  if front.groups.length = 8 then
    (Ipv6.ofList? front.groups).map (·, front.rest)
  else if front.dotted then none
  else
    match front.rest with
    | ':' :: ':' :: rest =>
        let back := readGroups (7 - front.groups.length) true rest
        let zeros := List.replicate (8 - front.groups.length - back.groups.length) 0
        (Ipv6.ofList? (front.groups ++ zeros ++ back.groups)).map (·, back.rest)
    | _ => none

def readScope (cs : List Char) : UInt32 × List Char :=
  match (skip '%' cs).bind (readDecimal 0xFFFFFFFF) with
  | some (scope, rest) => (UInt32.ofNat scope, rest)
  | none => (0, cs)

def readPort (cs : List Char) : Option (UInt16 × List Char) :=
  ((skip ':' cs).bind (readDecimal 0xFFFF)).map
    fun read => (UInt16.ofNat read.1, read.2)

def readV4 (cs : List Char) : Option (SocketAddress × List Char) := do
  let (ip, cs) <- readIpv4 cs
  let (port, cs) <- readPort cs
  pure (⟨.v4 ip, port⟩, cs)

def readV6 (cs : List Char) : Option (SocketAddress × List Char) := do
  let cs <- skip '[' cs
  let (ip, cs) <- readIpv6 cs
  let (scope, cs) := readScope cs
  let cs <- skip ']' cs
  let (port, cs) <- readPort cs
  pure (⟨.v6 ip scope, port⟩, cs)

end Address

def SocketAddress.parse? (s : String) : Option SocketAddress :=
  match Address.readV4 s.toList <|> Address.readV6 s.toList with
  | some (address, []) => some address
  | _ => none

end ConstantReply
