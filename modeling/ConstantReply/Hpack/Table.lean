import ConstantReply.Text.Ascii

/-!
# Tables of header fields

Both sides of a connection keep a table of fields that were sent in full, the newest first, beside a
fixed one.  A field of either table can be named by its place: the fixed ones come first.
-/

namespace ConstantReply
namespace Hpack

/-- A field as a header block gives it. -/
structure Field where
  name : List UInt8
  value : List UInt8
  deriving DecidableEq, Repr

namespace Field

def ofStrings (name value : String) : Field := ⟨Ascii.bytes name, Ascii.bytes value⟩

def size (f : Field) : Nat := f.name.length + f.value.length + 32

end Field

/-!
## The fixed table
-/

def fixedFields : List Field :=
  [Field.ofStrings ":authority" "",
    Field.ofStrings ":method" "GET",
    Field.ofStrings ":method" "POST",
    Field.ofStrings ":path" "/",
    Field.ofStrings ":path" "/index.html",
    Field.ofStrings ":scheme" "http",
    Field.ofStrings ":scheme" "https",
    Field.ofStrings ":status" "200",
    Field.ofStrings ":status" "204",
    Field.ofStrings ":status" "206",
    Field.ofStrings ":status" "304",
    Field.ofStrings ":status" "400",
    Field.ofStrings ":status" "404",
    Field.ofStrings ":status" "500",
    Field.ofStrings "accept-charset" "",
    Field.ofStrings "accept-encoding" "gzip, deflate",
    Field.ofStrings "accept-language" "",
    Field.ofStrings "accept-ranges" "",
    Field.ofStrings "accept" "",
    Field.ofStrings "access-control-allow-origin" "",
    Field.ofStrings "age" "",
    Field.ofStrings "allow" "",
    Field.ofStrings "authorization" "",
    Field.ofStrings "cache-control" "",
    Field.ofStrings "content-disposition" "",
    Field.ofStrings "content-encoding" "",
    Field.ofStrings "content-language" "",
    Field.ofStrings "content-length" "",
    Field.ofStrings "content-location" "",
    Field.ofStrings "content-range" "",
    Field.ofStrings "content-type" "",
    Field.ofStrings "cookie" "",
    Field.ofStrings "date" "",
    Field.ofStrings "etag" "",
    Field.ofStrings "expect" "",
    Field.ofStrings "expires" "",
    Field.ofStrings "from" "",
    Field.ofStrings "host" "",
    Field.ofStrings "if-match" "",
    Field.ofStrings "if-modified-since" "",
    Field.ofStrings "if-none-match" "",
    Field.ofStrings "if-range" "",
    Field.ofStrings "if-unmodified-since" "",
    Field.ofStrings "last-modified" "",
    Field.ofStrings "link" "",
    Field.ofStrings "location" "",
    Field.ofStrings "max-forwards" "",
    Field.ofStrings "proxy-authenticate" "",
    Field.ofStrings "proxy-authorization" "",
    Field.ofStrings "range" "",
    Field.ofStrings "referer" "",
    Field.ofStrings "refresh" "",
    Field.ofStrings "retry-after" "",
    Field.ofStrings "server" "",
    Field.ofStrings "set-cookie" "",
    Field.ofStrings "strict-transport-security" "",
    Field.ofStrings "transfer-encoding" "",
    Field.ofStrings "user-agent" "",
    Field.ofStrings "vary" "",
    Field.ofStrings "via" "",
    Field.ofStrings "www-authenticate" ""]

/-!
## The table that grows
-/

def usualRoom : Nat := 4096

/-- The fields that were sent in full, the newest first, and the room for them. -/
structure Table where
  room : Nat := usualRoom
  fields : List Field := []
  deriving DecidableEq, Repr

namespace Table

def fitting : Nat -> List Field -> List Field
  | _, [] => []
  | room, f :: rest => if f.size ≤ room then f :: fitting (room - f.size) rest else []

/-- Add a field.  Old ones give way, and one that is larger than the room only empties the table. -/
def insert (t : Table) (f : Field) : Table := { t with fields := fitting t.room (f :: t.fields) }

def resize (t : Table) (room : Nat) : Table := ⟨room, fitting room t.fields⟩

def get? (t : Table) (place : Nat) : Option Field :=
  if place = 0 then none else (fixedFields ++ t.fields)[place - 1]?

def placeOf? (t : Table) (f : Field) : Option Nat :=
  ((fixedFields ++ t.fields).findIdx? fun known => known == f).map (· + 1)

def placeOfName? (t : Table) (name : List UInt8) : Option Nat :=
  ((fixedFields ++ t.fields).findIdx? fun known => known.name == name).map (· + 1)

end Table
end Hpack
end ConstantReply
