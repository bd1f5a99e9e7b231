import ConstantReply.Text.Ascii

/-!
# Bytes of HTTP

The character classes of requests: token characters for methods and field names, and the bytes that
a field value may hold.
-/

namespace ConstantReply
namespace Http

def cr : UInt8 := 0x0D

def lf : UInt8 := 0x0A

def space : UInt8 := 0x20

def tab : UInt8 := 0x09

def colon : UInt8 := 0x3A

def comma : UInt8 := 0x2C

def tokenMarks : List UInt8 :=
  [0x21, 0x23, 0x24, 0x25, 0x26, 0x27, 0x2A, 0x2B, 0x2D, 0x2E, 0x5E, 0x5F, 0x60, 0x7C, 0x7E]

def isTokenByte (b : UInt8) : Bool := Ascii.isAlphanumericByte b || tokenMarks.contains b

def isToken (bytes : List UInt8) : Bool := bytes ≠ [] && bytes.all isTokenByte

def isValueByte (b : UInt8) : Bool := (0x20 ≤ b && b ≠ 0x7F) || b == tab

def isValue (bytes : List UInt8) : Bool := bytes.all isValueByte

def isBlank (b : UInt8) : Bool := b == space || b == tab

def trimBlanks (bytes : List UInt8) : List UInt8 :=
  ((bytes.dropWhile isBlank).reverse.dropWhile isBlank).reverse

def isWord (word : String) (bytes : List UInt8) : Bool :=
  bytes.map Ascii.lowerByte == Ascii.bytes word

end Http
end ConstantReply
