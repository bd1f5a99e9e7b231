import ConstantReply.Hpack.Huffman
import ConstantReply.Hpack.Integer
import ConstantReply.Hpack.Table

/-!
# Header blocks

A block is a list of instructions: to take a field from the tables, to take one that is written out,
or to change the room of the table that grows.  The modules on header blocks stand for a part of h2,
and were not tried against it.
-/

namespace ConstantReply
namespace Hpack

/-- What becomes of a field that is written out. -/
inductive Indexing where
  | added
  | notAdded
  | neverAdded
  deriving DecidableEq, Repr

/-- The name of a field that is written out: the one at a place, or a new one. -/
inductive NameSource where
  | place (n : Nat)
  | text (name : List UInt8)
  deriving DecidableEq, Repr

inductive Instruction where
  | indexed (place : Nat)
  | literal (indexing : Indexing) (name : NameSource) (value : List UInt8)
  | resize (room : Nat)
  deriving DecidableEq, Repr

/-!
## Texts
-/

def readText (bytes : List UInt8) : Option (List UInt8 × List UInt8) :=
  match Integer.decode 7 bytes with
  | none => none
  | some (length, rest) =>
      if rest.length < length then none
      else if bytes.head?.any (128 ≤ ·) then
        (Huffman.decode (rest.take length)).map fun text => (text, rest.drop length)
      else some (rest.take length, rest.drop length)

def writeText (text : List UInt8) : List UInt8 :=
  let coded := Huffman.encode text
  Integer.encode 7 128 coded.length ++ coded

/-!
## Instructions
-/

def readLiteral (indexing : Indexing) (width : Nat) (bytes : List UInt8) :
    Option (Instruction × List UInt8) :=
  match Integer.decode width bytes with
  | none => none
  | some (place, rest) =>
      if place = 0 then
        match readText rest with
        | none => none
        | some (name, rest) =>
            (readText rest).map fun (value, rest) => (.literal indexing (.text name) value, rest)
      else (readText rest).map fun (value, rest) => (.literal indexing (.place place) value, rest)

def readInstruction (bytes : List UInt8) : Option (Instruction × List UInt8) :=
  match bytes with
  | [] => none
  | b :: _ =>
      if 128 ≤ b then (Integer.decode 7 bytes).map fun (n, rest) => (.indexed n, rest)
      else if 64 ≤ b then readLiteral .added 6 bytes
      else if 32 ≤ b then (Integer.decode 5 bytes).map fun (n, rest) => (.resize n, rest)
      else if 16 ≤ b then readLiteral .neverAdded 4 bytes
      else readLiteral .notAdded 4 bytes

def readInstructions : Nat -> List UInt8 -> Option (List Instruction)
  | _, [] => some []
  | 0, _ => none
  | fuel + 1, bytes =>
      match readInstruction bytes with
      | none => none
      | some (instruction, rest) => (readInstructions fuel rest).map (instruction :: ·)

/-- The instructions of a block.  Each takes at least one byte. -/
def instructions? (block : List UInt8) : Option (List Instruction) :=
  readInstructions block.length block

def writeName (width other : Nat) : NameSource -> List UInt8
  | .place n => Integer.encode width other n
  | .text name => UInt8.ofNat other :: writeText name

def Instruction.bytes : Instruction -> List UInt8
  | .indexed place => Integer.encode 7 128 place
  | .literal .added name value => writeName 6 64 name ++ writeText value
  | .literal .notAdded name value => writeName 4 0 name ++ writeText value
  | .literal .neverAdded name value => writeName 4 16 name ++ writeText value
  | .resize room => Integer.encode 5 32 room

/-!
## Meaning
-/

def NameSource.name? (table : Table) : NameSource -> Option (List UInt8)
  | .place n => (table.get? n).map Field.name
  | .text name => some name

/-- The fields that instructions stand for, and the table after them.  The room may be changed only
before the first field, and not beyond what was agreed. -/
def apply (greatestRoom : Nat) :
    Bool -> Table -> List Instruction -> Option (List Field × Table)
  | _, table, [] => some ([], table)
  | _, table, .indexed place :: rest =>
      match table.get? place with
      | none => none
      | some f => (apply greatestRoom false table rest).map fun (fs, table) => (f :: fs, table)
  | _, table, .literal indexing source value :: rest =>
      match source.name? table with
      | none => none
      | some name =>
          let f : Field := ⟨name, value⟩
          let table := if indexing = .added then table.insert f else table
          (apply greatestRoom false table rest).map fun (fs, table) => (f :: fs, table)
  | mayResize, table, .resize room :: rest =>
      if mayResize = false ∨ greatestRoom < room then none
      else apply greatestRoom true (table.resize room) rest

def decode (table : Table) (block : List UInt8) : Option (List Field × Table) :=
  (instructions? block).bind (apply usualRoom true table)

/-!
## Writing
-/

def changingNames : List (List UInt8) :=
  ["age", "authorization", "content-length", "etag", "if-modified-since", "if-none-match",
    "location", "cookie", "set-cookie"].map Ascii.bytes

def instructionFor (table : Table) (f : Field) : Instruction × Table :=
  let source : NameSource :=
    match table.placeOfName? f.name with
    | some place => .place place
    | none => .text f.name
  if f.name ∈ changingNames then (.literal .notAdded source f.value, table)
  else
    match table.placeOf? f with
    | some place => (.indexed place, table)
    | none =>
        if f.size ≤ table.room then (.literal .added source f.value, table.insert f)
        else (.literal .notAdded source f.value, table)

def encode (table : Table) : List Field -> List UInt8 × Table
  | [] => ([], table)
  | f :: rest =>
      let (instruction, table) := instructionFor table f
      let (bytes, table) := encode table rest
      (instruction.bytes ++ bytes, table)

end Hpack
end ConstantReply
