import ConstantReply.Hpack.Huffman

/-!
# The prefix code of texts

Code words of one length follow each other, and the first of them stands behind all words of a
smaller length that are filled up to this one.  So no word opens with another, and what was encoded
is decoded.
-/

namespace ConstantReply
namespace Hpack
namespace Huffman

/-!
## Words
-/

def count (length : Nat) : Nat := (symbolsOf length).length

def behind (length : Nat) : Nat := firstWord length + count length

theorem firstWord_succ (length : Nat) : firstWord (length + 1) = 2 * behind length := rfl

theorem behind_mul_le_firstWord (length more : Nat) :
    behind length * Nat.pow 2 (more + 1) ≤ firstWord (length + (more + 1)) := by
  induction more with
  | zero => exact Nat.le_of_eq (Nat.mul_comm (behind length) 2)
  | succ more ih =>
      have hle : firstWord (length + (more + 1)) ≤ behind (length + (more + 1)) :=
        Nat.le_add_right _ _
      have hmore : behind length * Nat.pow 2 (more + 1 + 1) =
          2 * (behind length * Nat.pow 2 (more + 1)) :=
        (Nat.mul_assoc _ _ 2).symm.trans (Nat.mul_comm _ 2)
      rw [← Nat.add_assoc length, firstWord_succ, hmore]
      exact Nat.mul_le_mul_left 2 (Nat.le_trans ih hle)

theorem firstWord_greatestLength : firstWord greatestLength + 4 = Nat.pow 2 greatestLength := by
  decide +kernel

theorem count_greatestLength : count greatestLength = 4 := by
  decide +kernel

theorem behind_lt_of_lt {length : Nat} (h : length < greatestLength) :
    behind length < Nat.pow 2 length := by
  rcases Nat.exists_eq_add_of_lt h with ⟨more, hmore⟩
  have hlength : greatestLength = length + (more + 1) := hmore
  have hle := behind_mul_le_firstWord length more
  have hlast := firstWord_greatestLength
  have hpow : Nat.pow 2 greatestLength = Nat.pow 2 length * Nat.pow 2 (more + 1) := by
    rw [hlength]
    exact Nat.pow_add 2 length (more + 1)
  rw [← hlength] at hle
  exact Nat.lt_of_mul_lt_mul_right (a := Nat.pow 2 (more + 1)) (by omega)

theorem behind_le {length : Nat} (h : length ≤ greatestLength) : behind length ≤ Nat.pow 2 length := by
  rcases Nat.lt_or_eq_of_le h with hlt | rfl
  · exact Nat.le_of_lt (behind_lt_of_lt hlt)
  · exact Nat.le_of_eq (by rw [behind, count_greatestLength, firstWord_greatestLength])

theorem symbol?_eq {length number : Nat} (h : length ≤ greatestLength) :
    symbol? length number =
      if firstWord length ≤ number then (symbolsOf length)[number - firstWord length]? else none := by
  have hlt : length < greatestLength + 1 := Nat.lt_succ_of_le h
  simp [symbol?, firstWords, symbols, hlt]

theorem symbol?_of_behind {length number : Nat} (h : length ≤ greatestLength)
    (hnumber : behind length ≤ number) : symbol? length number = none := by
  have hfirst : firstWord length ≤ number := Nat.le_trans (Nat.le_add_right _ _) hnumber
  have hindex : (symbolsOf length).length ≤ number - firstWord length :=
    Nat.le_sub_of_add_le' hnumber
  rw [symbol?_eq h, if_pos hfirst, List.getElem?_eq_none hindex]

structure HasWord (symbol length number : Nat) : Prop where
  word : word symbol = bits length number
  short : length ≤ greatestLength
  first : firstWord length ≤ number
  last : number < behind length
  known : symbol? length number = some symbol

theorem mem_lengths_le : forall length, length ∈ lengths -> length ≤ greatestLength ∧ 0 < length := by
  decide +kernel

theorem exists_hasWord {symbol : Nat} (h : symbol < lengths.length) :
    exists length number, HasWord symbol length number ∧ 0 < length := by
  obtain ⟨length, hlength⟩ : exists length, lengths[symbol]? = some length :=
    ⟨_, List.getElem?_eq_getElem h⟩
  have hbound := mem_lengths_le length (List.mem_of_getElem? hlength)
  have hmem : symbol ∈ symbolsOf length := by
    rw [symbolsOf, List.mem_filter, List.mem_range, hlength]
    exact ⟨h, beq_self_eq_true _⟩
  have hindex := List.idxOf_lt_length_of_mem hmem
  refine ⟨length, firstWord length + (symbolsOf length).idxOf symbol, ?_, hbound.right⟩
  exact
    { word := by rw [word, hlength]; rfl
      short := hbound.left
      first := Nat.le_add_right _ _
      last := Nat.add_lt_add_left hindex _
      known := by
        rw [symbol?_eq hbound.left, if_pos (Nat.le_add_right _ _), Nat.add_sub_cancel_left,
          List.getElem?_eq_getElem hindex, List.getElem_idxOf] }

/-!
## Bits
-/

theorem bits_succ (width number : Nat) :
    bits (width + 1) number = number.testBit width :: bits width number := by
  rw [bits, List.range_succ, List.reverse_append]
  rfl

theorem div_two_pow_succ (number width : Nat) :
    2 * (number / Nat.pow 2 (width + 1)) + (number.testBit width).toNat =
      number / Nat.pow 2 width := by
  change 2 * (number / 2 ^ (width + 1)) + (number.testBit width).toNat = number / 2 ^ width
  rw [Nat.testBit_eq_decide_div_mod_eq, Nat.pow_succ, ← Nat.div_div_eq_div_mul]
  rcases Nat.mod_two_eq_zero_or_one (number / 2 ^ width) with hzero | hone
  · simp only [hzero, Nat.zero_ne_one, decide_false, Bool.toNat_false]
    omega
  · simp only [hone, decide_true, Bool.toNat_true]
    omega

theorem decodeBits_bits {symbol length number : Nat} (h : HasWord symbol length number)
    (hend : symbol ≠ endSymbol) (rest : List Bool) {left : Nat} (hleft : left < length) :
    decodeBits (length - (left + 1)) (number / Nat.pow 2 (left + 1))
        (bits (left + 1) number ++ rest) =
      (decodeBits 0 0 rest).map (UInt8.ofNat symbol :: ·) := by
  have hlength : length - (left + 1) + 1 = length - left := by
    omega
  induction left with
  | zero =>
      have hone : number / Nat.pow 2 0 = number := Nat.div_one number
      rw [bits_succ, List.cons_append, decodeBits, div_two_pow_succ, hlength, hone, Nat.sub_zero,
        h.known]
      simp only [if_neg hend]
      rfl
  | succ left ih =>
      have hshort : length - (left + 1) ≤ greatestLength := Nat.le_trans (Nat.sub_le _ _) h.short
      have hmore : length - (left + 1) + (left + 1) = length := Nat.sub_add_cancel (by omega)
      have hle := behind_mul_le_firstWord (length - (left + 1)) left
      rw [hmore] at hle
      have hbehind : behind (length - (left + 1)) ≤ number / Nat.pow 2 (left + 1) :=
        (Nat.le_div_iff_mul_le (Nat.two_pow_pos (left + 1))).mpr (Nat.le_trans hle h.first)
      rw [bits_succ, List.cons_append, decodeBits, div_two_pow_succ, hlength,
        symbol?_of_behind hshort hbehind]
      exact ih (by omega) (by omega)

theorem decodeBits_word {symbol : Nat} (h : symbol < endSymbol) (rest : List Bool) :
    decodeBits 0 0 (word symbol ++ rest) =
      (decodeBits 0 0 rest).map (UInt8.ofNat symbol :: ·) := by
  have hknown : symbol < lengths.length := Nat.lt_trans h (by decide +kernel)
  rcases exists_hasWord hknown with ⟨length, number, hword, hpos⟩
  have hsmall : number < Nat.pow 2 length := Nat.lt_of_lt_of_le hword.last (behind_le hword.short)
  have hsucc : length - 1 + 1 = length := Nat.sub_add_cancel hpos
  have hread := decodeBits_bits hword (Nat.ne_of_lt h) rest (Nat.sub_one_lt_of_lt hpos)
  rw [hsucc, Nat.sub_self, Nat.div_eq_of_lt hsmall] at hread
  rw [hword.word, hread]

/-!
## Padding
-/

theorem decodeBits_ones {read ones : Nat} (h : read + ones < 8) :
    decodeBits read (Nat.pow 2 read - 1) (List.replicate ones true) = some [] := by
  have hpos : 0 < Nat.pow 2 read := Nat.two_pow_pos read
  induction ones generalizing read with
  | zero =>
      have hones : Nat.pow 2 read - 1 + 1 = Nat.pow 2 read := Nat.sub_add_cancel hpos
      rw [List.replicate_zero, decodeBits, if_pos ⟨h, hones⟩]
  | succ ones ih =>
      have hlt : read + 1 < greatestLength := Nat.lt_trans (by omega) (by decide : 8 < greatestLength)
      have hsucc : Nat.pow 2 (read + 1) = Nat.pow 2 read * 2 := rfl
      have hones : 2 * (Nat.pow 2 read - 1) + true.toNat = Nat.pow 2 (read + 1) - 1 := by
        rw [hsucc, Bool.toNat_true]
        omega
      rw [List.replicate_succ, decodeBits, hones,
        symbol?_of_behind (Nat.le_of_lt hlt) (Nat.le_sub_one_of_lt (behind_lt_of_lt hlt))]
      exact ih (by omega) (Nat.two_pow_pos (read + 1))

theorem bits_ofNat_numberOf : forall {bs : List Bool}, bs.length = 8 ->
    bits 8 (UInt8.ofNat (numberOf bs)).toNat = bs
  | [b7, b6, b5, b4, b3, b2, b1, b0], _ => by
      revert b7 b6 b5 b4 b3 b2 b1 b0
      decide +kernel

theorem exists_bitsOfBytes_packBits (bs : List Bool) :
    exists ones, ones < 8 ∧ bitsOfBytes (packBits bs) = bs ++ List.replicate ones true := by
  induction bs using packBits.induct with
  | case1 b7 b6 b5 b4 b3 b2 b1 b0 rest ih =>
      rcases ih with ⟨ones, hones, hrest⟩
      refine ⟨ones, hones, ?_⟩
      rw [packBits, bitsOfBytes, List.flatMap_cons, bits_ofNat_numberOf rfl]
      exact congrArg ([b7, b6, b5, b4, b3, b2, b1, b0] ++ ·) hrest
  | case2 => exact ⟨0, by decide, rfl⟩
  | case3 few hmany hnil =>
      have hfew : few.length < 8 := by
        match few, hmany with
        | [], _ | [_], _ | [_, _], _ | [_, _, _], _ | [_, _, _, _], _ | [_, _, _, _, _], _
        | [_, _, _, _, _, _], _ | [_, _, _, _, _, _, _], _ => simp
        | _ :: _ :: _ :: _ :: _ :: _ :: _ :: _ :: _, h => exact absurd rfl (h _ _ _ _ _ _ _ _ _)
      have hpos : 0 < few.length := List.length_pos_iff.mpr hnil
      refine ⟨8 - few.length, by omega, ?_⟩
      rw [packBits.eq_3 few hmany hnil, bitsOfBytes, List.flatMap_cons, List.flatMap_nil,
        List.append_nil]
      apply bits_ofNat_numberOf
      rw [List.length_append, List.length_replicate]
      omega

theorem words_getElem? (b : UInt8) : (words[b.toNat]?).getD [] = word b.toNat := by
  have hlt : b.toNat < 257 := Nat.lt_trans b.toNat_lt (by decide)
  simp [words, hlt]

theorem decodeBits_encodeBits (text : List UInt8) (rest : List Bool) :
    decodeBits 0 0 (encodeBits text ++ rest) = (decodeBits 0 0 rest).map (text ++ ·) := by
  induction text with
  | nil =>
      cases h : decodeBits 0 0 rest <;> simp [encodeBits, h]
  | cons b more ih =>
      rw [encodeBits, List.flatMap_cons, words_getElem?, List.append_assoc, decodeBits_word b.toNat_lt]
      rw [encodeBits] at ih
      rw [ih, UInt8.ofNat_toNat, Option.map_map]
      rfl

theorem decode_encode (text : List UInt8) : decode (encode text) = some text := by
  rcases exists_bitsOfBytes_packBits (encodeBits text) with ⟨ones, hones, hbits⟩
  have hshort : 0 + ones < 8 := by
    omega
  have hpadding : decodeBits 0 0 (List.replicate ones true) = some [] := decodeBits_ones hshort
  rw [decode, encode, hbits, decodeBits_encodeBits, hpadding]
  simp

end Huffman
end Hpack
end ConstantReply
