/-!
# Blank text

The white space of Unicode: the property `White_Space` of the character database.
-/

namespace ConstantReply
namespace Blank

def isWhiteSpace (c : Char) : Bool :=
  let n := c.toNat
  (9 ≤ n && n ≤ 13) || n == 0x20 || n == 0x85 || n == 0xA0 || n == 0x1680 ||
    (0x2000 ≤ n && n ≤ 0x200A) || n == 0x2028 || n == 0x2029 || n == 0x202F ||
    n == 0x205F || n == 0x3000

def isBlank (s : String) : Bool := s.toList.all isWhiteSpace

theorem isBlank_eq_false_iff (s : String) :
    isBlank s = false ↔ exists c, c ∈ s.toList ∧ isWhiteSpace c = false := by
  simp [isBlank]

end Blank
end ConstantReply
