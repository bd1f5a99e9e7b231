import ConstantReply.Hpack.Integer

/-!
# The grammar of integers

A number may be spelled in more bytes than it needs.  A spelling that is not longer than what a reader
takes is read, and the writer spells every number.
-/

namespace ConstantReply
namespace Hpack

theorem toNat_ofNat {n : Nat} (h : n < 256) : (UInt8.ofNat n).toNat = n :=
  UInt8.toNat_ofNat_of_lt' h

/-- The bytes of a number that follow a full first byte: all but the last are marked. -/
inductive ContinuationText : Nat -> List UInt8 -> Prop where
  | last {b : UInt8} : b.toNat < 128 -> ContinuationText b.toNat [b]
  | more {b : UInt8} {n : Nat} {rest : List UInt8} :
      128 ≤ b.toNat -> ContinuationText n rest ->
      ContinuationText (b.toNat - 128 + 128 * n) (b :: rest)

/-- A number from the low `width` bits of a byte on whose other bits are given. -/
inductive IntegerText (width other : Nat) : Nat -> List UInt8 -> Prop where
  | short {n : Nat} :
      n < Nat.pow 2 width - 1 -> IntegerText width other n [UInt8.ofNat (other + n)]
  | long {n : Nat} {rest : List UInt8} :
      ContinuationText n rest ->
      IntegerText width other (Nat.pow 2 width - 1 + n)
        (UInt8.ofNat (other + (Nat.pow 2 width - 1)) :: rest)

structure LeavesRoom (width other : Nat) : Prop where
  fits : other + Nat.pow 2 width ≤ 256
  clear : other % Nat.pow 2 width = 0

instance (width other : Nat) : Decidable (LeavesRoom width other) :=
  decidable_of_iff (other + Nat.pow 2 width ≤ 256 ∧ other % Nat.pow 2 width = 0)
    ⟨fun h => ⟨h.left, h.right⟩, fun h => ⟨h.fits, h.clear⟩⟩

theorem integerText_ne_nil {width other n : Nat} {bytes : List UInt8}
    (h : IntegerText width other n bytes) : bytes ≠ [] := by
  cases h <;> simp

theorem continuationText_zero (n : Nat) : ContinuationText 0 (List.replicate n 0x80 ++ [0]) := by
  induction n with
  | zero => exact .last (b := 0) (by decide)
  | succ n ih => exact .more (b := 0x80) (by decide) ih

theorem head_of_integerText {width other n : Nat} {bytes : List UInt8}
    (hroom : LeavesRoom width other) (h : IntegerText width other n bytes) :
    exists b rest, bytes = b :: rest ∧ other ≤ b.toNat ∧ b.toNat < other + Nat.pow 2 width := by
  have hpos : 0 < Nat.pow 2 width := Nat.two_pow_pos width
  have hfits := hroom.fits
  cases h with
  | short hn =>
      refine ⟨_, [], rfl, ?_, ?_⟩ <;>
      · rw [toNat_ofNat (by omega)]
        omega
  | @long n rest _ =>
      refine ⟨_, rest, rfl, ?_, ?_⟩ <;>
      · rw [toNat_ofNat (by omega)]
        omega

namespace Integer

theorem decodeContinuation_of_text {n : Nat} {bytes : List UInt8} (h : ContinuationText n bytes)
    (rest : List UInt8) {fuel : Nat} (hfuel : bytes.length ≤ fuel) :
    decodeContinuation fuel (bytes ++ rest) = some (n, rest) := by
  induction h generalizing fuel with
  | @last b hb =>
      cases fuel with
      | zero => cases hfuel
      | succ fuel =>
          have hlt : b < 128 := UInt8.lt_iff_toNat_lt.mpr hb
          simp [decodeContinuation, hlt]
  | @more b n late hb _ ih =>
      cases fuel with
      | zero => cases hfuel
      | succ fuel =>
          have hge : ¬ b < 128 := fun hlt => by
            have hnat := UInt8.lt_iff_toNat_lt.mp hlt
            exact absurd hb (Nat.not_le.mpr hnat)
          have hlater := ih (Nat.le_of_succ_le_succ hfuel)
          simp [decodeContinuation, hge, hlater]

theorem decode_of_text {width other n : Nat} {bytes : List UInt8} (hroom : LeavesRoom width other)
    (h : IntegerText width other n bytes) (hlength : bytes.length ≤ greatestIntegerSize)
    (rest : List UInt8) : decode width (bytes ++ rest) = some (n, rest) := by
  have hpos : 0 < Nat.pow 2 width := Nat.two_pow_pos width
  have hfits := hroom.fits
  have hlow {k : Nat} (hk : k < Nat.pow 2 width) :
      (UInt8.ofNat (other + k)).toNat % Nat.pow 2 width = k := by
    rw [toNat_ofNat (by omega), Nat.add_mod, hroom.clear, Nat.zero_add, Nat.mod_mod,
      Nat.mod_eq_of_lt hk]
  cases h with
  | short hn =>
      rw [List.singleton_append, decode, hlow (by omega), if_pos hn]
  | @long n late hlate =>
      have hread : decodeContinuation (greatestIntegerSize - 1) (late ++ rest) = some (_, rest) :=
        decodeContinuation_of_text hlate rest (Nat.le_sub_one_of_lt hlength)
      rw [List.cons_append, decode, hlow (by omega), if_neg (by omega), hread]
      rfl

theorem text_continuation (n : Nat) : ContinuationText n (continuation n) := by
  induction n using continuation.induct with
  | case1 n hn =>
      have hbyte : (UInt8.ofNat n).toNat = n := toNat_ofNat (by omega)
      rw [continuation, if_pos hn]
      have hlast : ContinuationText (UInt8.ofNat n).toNat [UInt8.ofNat n] :=
        ContinuationText.last (by omega)
      rwa [hbyte] at hlast
  | case2 n hn ih =>
      have hbyte : (UInt8.ofNat (128 + n % 128)).toNat = 128 + n % 128 :=
        toNat_ofNat (by omega)
      rw [continuation, if_neg hn]
      have hmarked : 128 ≤ (UInt8.ofNat (128 + n % 128)).toNat := by
        omega
      have hmore := ContinuationText.more hmarked ih
      rw [hbyte] at hmore
      have hnumber : 128 + n % 128 - 128 + 128 * (n / 128) = n := by
        omega
      rwa [hnumber] at hmore

theorem text_encode (width other n : Nat) : IntegerText width other n (encode width other n) := by
  simp only [encode]
  split
  · exact IntegerText.short ‹_›
  · rename_i hn
    have hlong : IntegerText width other _ _ :=
      IntegerText.long (text_continuation (n - (Nat.pow 2 width - 1)))
    have hnumber : Nat.pow 2 width - 1 + (n - (Nat.pow 2 width - 1)) = n := by
      omega
    rwa [hnumber] at hlong

end Integer
end Hpack
end ConstantReply
