/-!
# Likeness of two words

The likeness of Jaro: how many characters of one word find an equal one near the same place in the
other, and how many of those pairs are out of order.  It is one for equal words and zero for words
that share nothing.
-/

namespace ConstantReply
namespace Similarity

/-- A character of the second word, and whether a character of the first has taken it. -/
structure Slot where
  char : Char
  taken : Bool
  deriving DecidableEq, Repr

def take? (c : Char) (low high place : Nat) : List Slot -> Option (List Slot)
  | [] => none
  | slot :: rest =>
      if low ≤ place ∧ place < high ∧ slot.char = c ∧ slot.taken = false then
        some ({ slot with taken := true } :: rest)
      else
        (take? c low high (place + 1) rest).map (slot :: ·)

/-- Pair the characters of the first word with slots, in order.  The result has the characters that
found one, and the slots. -/
def pair (reach place : Nat) : List Char -> List Slot -> List Char × List Slot
  | [], slots => ([], slots)
  | c :: rest, slots =>
      match take? c (place - reach) (place + reach + 1) 0 slots with
      | some slots' =>
          let more := pair reach (place + 1) rest slots'
          (c :: more.1, more.2)
      | none => pair reach (place + 1) rest slots

def differences (xs ys : List Char) : Nat :=
  ((xs.zip ys).filter fun both => both.1 ≠ both.2).length

def likeness (first second : List Char) : Float :=
  let n := first.length
  let m := second.length
  let paired := pair (max n m / 2 - 1) 0 first (second.map fun c => ⟨c, false⟩)
  let found := paired.1.length
  if found = 0 then 0
  else
    let taken := (paired.2.filter Slot.taken).map Slot.char
    let swapped := differences paired.1 taken / 2
    (found.toFloat / n.toFloat + found.toFloat / m.toFloat +
      (found - swapped).toFloat / found.toFloat) / 3.0

def threshold : Float := 0.7

def mostLike? {α : Type} (word : String) (name : α -> String) (candidates : List α) :
    Option α :=
  let consider (best : Option (α × Float)) (candidate : α) : Option (α × Float) :=
    let score := likeness word.toList (name candidate).toList
    if threshold < score then
      match best with
      | some (_, known) => if score < known then best else some (candidate, score)
      | none => some (candidate, score)
    else best
  (candidates.foldl consider none).map Prod.fst

end Similarity
end ConstantReply
