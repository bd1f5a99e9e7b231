import ConstantReply.Proofs.Numeral

/-!
# What is wrong with a numeral

A text that is no numeral of the wanted range has exactly one flaw.  The digits that follow the sign
decide first: if their value leaves the accumulator, it does not matter what stands after them.
-/

namespace ConstantReply
namespace Numeral

/-!
## The run of digits after the sign
-/

def Range.isSigned (range : Range) : Bool := decide (range.least < 0)

def splitSign (signed : Bool) : List Char -> Bool × List Char
  | [] => (false, [])
  | c :: rest =>
      if c = '+' then (false, rest)
      else if c = '-' ∧ signed = true then (true, rest)
      else (false, c :: rest)

def leadingValue (signed : Bool) (cs : List Char) : Int :=
  withSign (splitSign signed cs).1 (extend 0 ((splitSign signed cs).2.takeWhile Char.isDigit))

/-- What is wrong with a text as a numeral between zero and `greatest`, read in an accumulator of
this range. -/
inductive Flaw (range : Range) (greatest : Nat) (cs : List Char) : Problem -> Prop where
  | empty : cs = [] -> Flaw range greatest cs .empty
  | tooLarge :
      (splitSign range.isSigned cs).1 = false ->
      ¬ range.Contains (leadingValue range.isSigned cs) -> Flaw range greatest cs .tooLarge
  | tooSmall :
      (splitSign range.isSigned cs).1 = true ->
      ¬ range.Contains (leadingValue range.isSigned cs) -> Flaw range greatest cs .tooSmall
  | invalidDigit :
      cs ≠ [] -> range.Contains (leadingValue range.isSigned cs) ->
      ¬ IsDigits (splitSign range.isSigned cs).2 -> Flaw range greatest cs .invalidDigit
  | outside {v : Int} :
      Denotes range.isSigned cs v -> range.Contains v -> ¬ (0 ≤ v ∧ v ≤ greatest) ->
      Flaw range greatest cs (.outside v greatest)

/-!
## The accumulator
-/

instance (range : Range) (v : Int) : Decidable (range.Contains v) := by
  unfold Range.Contains
  infer_instance

instance (ds : List Char) : Decidable (IsDigits ds) :=
  @instDecidableAnd _ _ (inferInstanceAs (Decidable (ds ≠ []))) (List.decidableBAll _ ds)

def excess (negative : Bool) : Problem := if negative then .tooSmall else .tooLarge

theorem extend_cons (n : Nat) (c : Char) (ds : List Char) :
    extend n (c :: ds) = extend (n * 10 + (c.toNat - '0'.toNat)) ds := by
  simp only [extend, List.foldl_cons]

theorem accumulate_cons_of_excess {range : Range} {negative : Bool} {n : Nat} {c : Char}
    {rest : List Char} (hzero : range.Contains 0) (hc : c.isDigit = true)
    (hnext : ¬ range.Contains (withSign negative (n * 10 + (c.toNat - '0'.toNat)))) :
    accumulate range negative (withSign negative n) (c :: rest) = .error (excess negative) := by
  simp only [accumulate, Ascii.digit?, hc, if_true, withSign_step]
  generalize n * 10 + (c.toNat - '0'.toNat) = m at hnext ⊢
  unfold Range.Contains at hzero hnext
  cases negative with
  | true =>
      have hlow : withSign true m < range.least := by
        simp only [withSign, if_true] at hnext ⊢
        omega
      rw [if_pos hlow]
      rfl
  | false =>
      have hlow : ¬ withSign false m < range.least := by
        simp only [withSign] at hnext ⊢
        simp at hnext ⊢
        omega
      have hhigh : range.greatest < withSign false m := by
        omega
      rw [if_neg hlow, if_pos hhigh]
      rfl

theorem accumulate_eq {range : Range} {negative : Bool} {n : Nat} (cs : List Char)
    (hzero : range.Contains 0) (hn : range.Contains (withSign negative n)) :
    accumulate range negative (withSign negative n) cs =
      if range.Contains (withSign negative (extend n (cs.takeWhile Char.isDigit))) then
        if cs.all Char.isDigit then .ok (withSign negative (extend n cs))
        else .error .invalidDigit
      else .error (excess negative) := by
  induction cs generalizing n with
  | nil =>
      have hstart : range.Contains (withSign negative (extend n [])) := hn
      rw [List.takeWhile_nil, if_pos hstart]
      rfl
  | cons c rest ih =>
      by_cases hc : c.isDigit = true
      · rw [List.takeWhile_cons_of_pos hc, List.all_cons, hc, Bool.true_and, extend_cons,
          extend_cons]
        by_cases hnext : range.Contains (withSign negative (n * 10 + (c.toNat - '0'.toNat)))
        · rw [accumulate_cons_of_digit hc hnext, ih hnext]
        · have hrun := mt (Range.contains_nearer hzero
            (le_extend _ (rest.takeWhile Char.isDigit))) hnext
          rw [accumulate_cons_of_excess hzero hc hnext, if_neg hrun]
      · have hstart : range.Contains (withSign negative (extend n [])) := hn
        rw [List.takeWhile_cons_of_neg hc, if_pos hstart]
        simp [accumulate, Ascii.digit?, hc]

theorem all_isDigit_iff {ds : List Char} (hne : ds ≠ []) :
    ds.all Char.isDigit = true <-> IsDigits ds := by
  rw [List.all_eq_true]
  constructor
  · intro hall
    exact ⟨hne, hall⟩
  · intro hdigits
    exact hdigits.right

theorem contains_withSign_zero {range : Range} (hzero : range.Contains 0) (negative : Bool) :
    range.Contains (withSign negative 0) := by
  cases negative <;> exact hzero

theorem digits_eq {range : Range} {negative : Bool} (ds : List Char) (hzero : range.Contains 0) :
    digits range negative ds =
      if range.Contains (withSign negative (extend 0 (ds.takeWhile Char.isDigit))) then
        if IsDigits ds then .ok (withSign negative (extend 0 ds)) else .error .invalidDigit
      else .error (excess negative) := by
  have hstart := contains_withSign_zero hzero negative
  have hacc : withSign negative 0 = 0 := by
    cases negative <;> rfl
  unfold digits
  by_cases hds : ds = []
  · subst hds
    have hnone : range.Contains (withSign negative (extend 0 [])) := hstart
    rw [List.takeWhile_nil, if_pos hnone]
    simp [IsDigits]
  · have hread := accumulate_eq ds hzero hstart
    rw [hacc] at hread
    rw [if_neg hds, hread]
    simp only [all_isDigit_iff hds]

/-!
## Reading
-/

theorem read_eq {range : Range} {cs : List Char} (hne : cs ≠ []) (hzero : range.Contains 0) :
    read range cs =
      if range.Contains (leadingValue range.isSigned cs) then
        if IsDigits (splitSign range.isSigned cs).2 then
          .ok (withSign (splitSign range.isSigned cs).1
            (extend 0 (splitSign range.isSigned cs).2))
        else .error .invalidDigit
      else .error (excess (splitSign range.isSigned cs).1) := by
  have hread : read range cs =
      digits range (splitSign range.isSigned cs).1 (splitSign range.isSigned cs).2 := by
    cases cs with
    | nil => exact absurd rfl hne
    | cons c rest =>
        unfold read splitSign Range.isSigned
        by_cases hplus : c = '+'
        · simp [hplus]
        · by_cases hminus : c = '-' ∧ range.least < 0
          · simp [hminus]
          · simp [hplus, hminus, digits]
  rw [hread, digits_eq _ hzero]
  rfl

section

variable {range : Range} {greatest : Nat} {cs : List Char} {problem : Problem}

theorem flaw_of_excess (h : ¬ range.Contains (leadingValue range.isSigned cs)) :
    Flaw range greatest cs (excess (splitSign range.isSigned cs).1) := by
  cases hsign : (splitSign range.isSigned cs).1 with
  | false => exact Flaw.tooLarge hsign h
  | true => exact Flaw.tooSmall hsign h

theorem flaw_of_read (hzero : range.Contains 0) (h : read range cs = .error problem) :
    Flaw range greatest cs problem := by
  by_cases hne : cs = []
  · subst hne
    cases h
    exact Flaw.empty rfl
  · rw [read_eq hne hzero] at h
    split at h
    · rename_i hrun
      split at h
      · cases h
      · rename_i hdigits
        cases h
        exact Flaw.invalidDigit hne hrun hdigits
    · rename_i hrun
      cases h
      exact flaw_of_excess hrun

theorem contains_leadingValue_nil (hzero : range.Contains 0) (signed : Bool) :
    range.Contains (leadingValue signed []) := hzero

theorem read_of_flaw (hzero : range.Contains 0) (h : Flaw range greatest cs problem) :
    read range cs = .error problem ∨
      exists v, problem = .outside v greatest ∧ read range cs = .ok v ∧
        ¬ (0 ≤ v ∧ v ≤ greatest) := by
  have hne : ¬ range.Contains (leadingValue range.isSigned cs) -> cs ≠ [] := by
    intro hrun heq
    subst heq
    exact hrun (contains_leadingValue_nil hzero _)
  cases h with
  | empty heq =>
      subst heq
      exact Or.inl rfl
  | tooLarge hsign hrun =>
      rw [read_eq (hne hrun) hzero, if_neg hrun, hsign]
      exact Or.inl rfl
  | tooSmall hsign hrun =>
      rw [read_eq (hne hrun) hzero, if_neg hrun, hsign]
      exact Or.inl rfl
  | invalidDigit hcs hrun hdigits =>
      rw [read_eq hcs hzero, if_pos hrun, if_neg hdigits]
      exact Or.inl rfl
  | outside hdenotes hrange hbounds =>
      exact Or.inr ⟨_, rfl, (read_eq_ok_iff hzero).mpr ⟨hdenotes, hrange⟩, hbounds⟩

end

theorem readUpTo_eq_error_iff {greatest : Nat} {cs : List Char} {problem : Problem} :
    readUpTo greatest cs = .error problem <-> Flaw signed64 greatest cs problem := by
  unfold readUpTo
  constructor
  · intro h
    cases hread : read signed64 cs with
    | error why =>
        simp only [hread] at h
        cases h
        exact flaw_of_read signed64_contains_zero hread
    | ok v =>
        simp only [hread] at h
        rcases (read_eq_ok_iff signed64_contains_zero).mp hread with ⟨hdenotes, hrange⟩
        split at h
        · cases h
        · rename_i hbounds
          cases h
          exact Flaw.outside hdenotes hrange hbounds
  · intro h
    rcases read_of_flaw signed64_contains_zero h with hread | ⟨v, rfl, hread, hbounds⟩
    · simp only [hread]
    · simp only [hread, if_neg hbounds]

theorem readWord_eq_error_iff {cs : List Char} {problem : Problem} :
    readWord cs = .error problem <-> Flaw unsigned64 0xFFFFFFFFFFFFFFFF cs problem := by
  unfold readWord
  constructor
  · intro h
    cases hread : read unsigned64 cs with
    | error why =>
        rw [hread] at h
        cases h
        exact flaw_of_read unsigned64_contains_zero hread
    | ok v =>
        rw [hread] at h
        cases h
  · intro h
    rcases read_of_flaw unsigned64_contains_zero h with hread | ⟨v, rfl, hread, hbounds⟩
    · rw [hread]
      rfl
    · exact absurd ((read_eq_ok_iff unsigned64_contains_zero).mp hread).right hbounds

/-!
## Numbers in their shortest form
-/

structure Shortest (text : List Char) (v : Int) : Prop where
  denotes : Denotes true text v
  noPlus : text.head? ≠ some '+'
  noZero : (splitSign true text).2 = ['0'] ∨ (splitSign true text).2.head? ≠ some '0'
  zero : v = 0 -> text = ['0']

theorem extend_eq_ofDigitChars (n : Nat) (ds : List Char) :
    extend n ds = Nat.ofDigitChars 10 ds n := by
  rw [Nat.ofDigitChars_eq_foldl]
  unfold extend
  congr 1
  funext n c
  rw [Nat.mul_comm]

theorem isDigits_toDigits (n : Nat) : IsDigits (Nat.toDigits 10 n) where
  left := Nat.toDigits_ne_nil
  right := fun _ hc => Nat.isDigit_of_mem_toDigits (by decide) (by decide) hc

theorem extend_toDigits (n : Nat) : extend 0 (Nat.toDigits 10 n) = n := by
  rw [extend_eq_ofDigitChars, Nat.ofDigitChars_ten_toDigits]

theorem head?_toDigits_ne_zero {radix n : Nat} (hradix : 1 < radix) (hn : 0 < n) :
    (Nat.toDigits radix n).head? ≠ some '0' := by
  induction n using Nat.strongRecOn with
  | ind n ih =>
      by_cases hsmall : n < radix
      · rw [Nat.toDigits_of_lt_base hsmall]
        simpa using Nat.ne_of_gt hn
      · have hge := Nat.le_of_not_lt hsmall
        have hfront := ih (n / radix) (Nat.div_lt_self hn hradix)
          (Nat.div_pos hge (Nat.lt_of_succ_lt hradix))
        rw [Nat.toDigits_of_base_le hradix hge]
        cases hdigits : Nat.toDigits radix (n / radix) with
        | nil => exact absurd hdigits Nat.toDigits_ne_nil
        | cons c rest =>
            rw [hdigits] at hfront
            exact hfront

theorem splitSign_of_isDigits {ds : List Char} (h : IsDigits ds) (signed : Bool) :
    splitSign signed ds = (false, ds) := by
  cases ds with
  | nil => exact absurd rfl h.left
  | cons c rest =>
      have hne := isDigits_head h
      simp [splitSign, hne.left, hne.right]

theorem shortest_toDigits (n : Nat) : Shortest (Nat.toDigits 10 n) n where
  denotes := by
    have hden : Denotes true _ _ := Denotes.bare (isDigits_toDigits n)
    rwa [extend_toDigits] at hden
  noPlus := by
    have hdigits := isDigits_toDigits n
    cases htext : Nat.toDigits 10 n with
    | nil => simp
    | cons c rest =>
        rw [htext] at hdigits
        simpa using (isDigits_head hdigits).left
  noZero := by
    rw [splitSign_of_isDigits (isDigits_toDigits n)]
    by_cases hn : n = 0
    · subst hn
      exact Or.inl (Nat.toDigits_zero 10)
    · exact Or.inr (head?_toDigits_ne_zero (by decide) (Nat.pos_of_ne_zero hn))
  zero := by
    intro hn
    rw [Int.natCast_eq_zero.mp hn]
    exact Nat.toDigits_zero 10

theorem shortest_minus {n : Nat} (hn : 0 < n) :
    Shortest ('-' :: Nat.toDigits 10 n) (-(n : Int)) where
  denotes := by
    have hden := Denotes.minus rfl (isDigits_toDigits n)
    rwa [extend_toDigits] at hden
  noPlus := by simp
  noZero := Or.inr (head?_toDigits_ne_zero (by decide) hn)
  zero := by omega

theorem shortest_toString (v : Int) : Shortest (toString v).toList v := by
  have hshown : toString v =
      if 0 ≤ v then Nat.repr v.toNat else "-" ++ Nat.repr (-v).toNat := Int.repr_eq_if
  rw [hshown]
  split
  · rename_i hv
    have hshort := shortest_toDigits v.toNat
    rw [Int.toNat_of_nonneg hv] at hshort
    rw [Nat.repr_eq_ofList_toDigits, String.toList_ofList]
    exact hshort
  · rename_i hv
    have hshort := shortest_minus (n := (-v).toNat) (by omega)
    rw [Int.toNat_of_nonneg (by omega), Int.neg_neg] at hshort
    have hminus : "-".toList = ['-'] := rfl
    rw [Nat.repr_eq_ofList_toDigits, String.toList_append, hminus, String.toList_ofList]
    exact hshort

end Numeral
end ConstantReply
