/-!
# Huffman code of header texts

A prefix code with a code word for each byte and one that ends a text.  The code is canonical: code
words of one length follow each other in the order of their symbols, and after those of a smaller
length.  So the lengths are all there is to know.
-/

namespace ConstantReply
namespace Hpack
namespace Huffman

def lengths : List Nat := [
    13, 23, 28, 28, 28, 28, 28, 28, 28, 24, 30, 28, 28, 30, 28, 28,
    28, 28, 28, 28, 28, 28, 30, 28, 28, 28, 28, 28, 28, 28, 28, 28,
    6, 10, 10, 12, 13, 6, 8, 11, 10, 10, 8, 11, 8, 6, 6, 6,
    5, 5, 5, 6, 6, 6, 6, 6, 6, 6, 7, 8, 15, 6, 12, 10,
    13, 6, 7, 7, 7, 7, 7, 7, 7, 7, 7, 7, 7, 7, 7, 7,
    7, 7, 7, 7, 7, 7, 7, 7, 8, 7, 8, 13, 19, 13, 14, 6,
    15, 5, 6, 5, 6, 5, 6, 6, 6, 5, 7, 7, 6, 6, 6, 5,
    6, 7, 6, 5, 5, 6, 7, 7, 7, 7, 7, 15, 11, 14, 13, 28,
    20, 22, 20, 20, 22, 22, 22, 23, 22, 23, 23, 23, 23, 23, 24, 23,
    24, 24, 22, 23, 24, 23, 23, 23, 23, 21, 22, 23, 22, 23, 23, 24,
    22, 21, 20, 22, 22, 23, 23, 21, 23, 22, 22, 24, 21, 22, 23, 23,
    21, 21, 22, 21, 23, 22, 23, 23, 20, 22, 22, 22, 23, 22, 22, 23,
    26, 26, 20, 19, 22, 23, 22, 25, 26, 26, 26, 27, 27, 26, 24, 25,
    19, 21, 26, 27, 27, 26, 27, 24, 21, 21, 26, 26, 28, 27, 27, 27,
    20, 24, 20, 21, 22, 21, 21, 23, 22, 22, 25, 25, 24, 24, 26, 23,
    26, 27, 26, 26, 27, 27, 27, 27, 27, 28, 27, 27, 27, 27, 27, 26,
    30]

def endSymbol : Nat := 256

def greatestLength : Nat := 30

def symbolsOf (length : Nat) : List Nat :=
  (List.range lengths.length).filter fun symbol => lengths[symbol]? == some length

def symbols : Array (List Nat) := Array.ofFn fun length : Fin (greatestLength + 1) =>
  symbolsOf length

def firstWord : Nat -> Nat
  | 0 => 0
  | length + 1 => 2 * (firstWord length + (symbolsOf length).length)

def firstWords : Array Nat := Array.ofFn fun length : Fin (greatestLength + 1) => firstWord length

def symbol? (length number : Nat) : Option Nat :=
  match firstWords[length]?, symbols[length]? with
  | some first, some known => if first ≤ number then known[number - first]? else none
  | _, _ => none

def bits (width number : Nat) : List Bool :=
  (List.range width).reverse.map fun place => number.testBit place

def word (symbol : Nat) : List Bool :=
  let length := (lengths[symbol]?).getD 0
  bits length (firstWord length + (symbolsOf length).idxOf symbol)

def words : Array (List Bool) := Array.ofFn fun symbol : Fin 257 => word symbol

/-!
## Decoding
-/

/-- Read code words.  The bits since the last complete one are given by how many there are and the
number that they make.  A text may end with fewer than eight bits that open the word for its end. -/
def decodeBits : Nat -> Nat -> List Bool -> Option (List UInt8)
  | length, number, [] => if length < 8 ∧ number + 1 = Nat.pow 2 length then some [] else none
  | length, number, bit :: rest =>
      let number := 2 * number + bit.toNat
      match symbol? (length + 1) number with
      | none => decodeBits (length + 1) number rest
      | some symbol =>
          if symbol = endSymbol then none
          else (decodeBits 0 0 rest).map (UInt8.ofNat symbol :: ·)

def bitsOfBytes (bytes : List UInt8) : List Bool := bytes.flatMap fun b => bits 8 b.toNat

def decode (bytes : List UInt8) : Option (List UInt8) := decodeBits 0 0 (bitsOfBytes bytes)

/-!
## Encoding
-/

def encodeBits (bytes : List UInt8) : List Bool :=
  bytes.flatMap fun b => (words[b.toNat]?).getD []

def numberOf (bs : List Bool) : Nat := bs.foldl (fun n b => 2 * n + b.toNat) 0

def packBits : List Bool -> List UInt8
  | b7 :: b6 :: b5 :: b4 :: b3 :: b2 :: b1 :: b0 :: rest =>
      UInt8.ofNat (numberOf [b7, b6, b5, b4, b3, b2, b1, b0]) :: packBits rest
  | [] => []
  | few => [UInt8.ofNat (numberOf (few ++ List.replicate (8 - few.length) true))]

def encode (bytes : List UInt8) : List UInt8 := packBits (encodeBits bytes)

end Huffman
end Hpack
end ConstantReply
