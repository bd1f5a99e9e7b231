import ConstantReply.Numeral

/-!
# Numbers that numerals denote

The value of a numeral is that of its digits in base ten, with the sign in front of them.  Reading
succeeds exactly on numerals whose value is in range: the accumulator moves away from zero, so a
value in range is never reached through one out of range.
-/

namespace ConstantReply
namespace Numeral

/-!
## Denotation
-/

def extend (n : Nat) (ds : List Char) : Nat :=
  ds.foldl (fun n c => n * 10 + (c.toNat - '0'.toNat)) n

def IsDigits (ds : List Char) : Prop :=
  ds ≠ [] ∧ forall c, c ∈ ds -> c.isDigit = true

def withSign (negative : Bool) (n : Nat) : Int := if negative then -n else n

/-- A numeral and its value.  A minus sign is only for numerals that can have one. -/
inductive Denotes (signed : Bool) : List Char -> Int -> Prop where
  | bare {ds : List Char} : IsDigits ds -> Denotes signed ds (extend 0 ds)
  | plus {ds : List Char} : IsDigits ds -> Denotes signed ('+' :: ds) (extend 0 ds)
  | minus {ds : List Char} :
      signed = true -> IsDigits ds -> Denotes signed ('-' :: ds) (-(extend 0 ds : Int))

/-!
## Ranges
-/

def Range.Contains (range : Range) (value : Int) : Prop :=
  range.least ≤ value ∧ value ≤ range.greatest

theorem le_extend (n : Nat) (ds : List Char) : n ≤ extend n ds := by
  induction ds generalizing n with
  | nil =>
      exact Nat.le_refl n
  | cons c rest ih =>
      have hstep : n ≤ n * 10 + (c.toNat - '0'.toNat) := by omega
      exact Nat.le_trans hstep (ih _)

theorem Range.contains_nearer {range : Range} {negative : Bool} {m n : Nat}
    (hzero : range.Contains 0) (hmn : m ≤ n) (hn : range.Contains (withSign negative n)) :
    range.Contains (withSign negative m) := by
  unfold Range.Contains withSign at *
  cases negative <;> simp at * <;> omega

/-!
## The accumulator
-/

theorem withSign_step (negative : Bool) (n d : Nat) :
    (if negative then withSign negative n * 10 - d else withSign negative n * 10 + d) =
      withSign negative (n * 10 + d) := by
  cases negative
  · simp [withSign]
  · simp [withSign]
    omega

theorem accumulate_cons_of_digit {range : Range} {negative : Bool} {n : Nat} {c : Char}
    {rest : List Char} (hc : c.isDigit = true)
    (hnext : range.Contains (withSign negative (n * 10 + (c.toNat - '0'.toNat)))) :
    accumulate range negative (withSign negative n) (c :: rest) =
      accumulate range negative (withSign negative (n * 10 + (c.toNat - '0'.toNat))) rest := by
  have hlow := hnext.left
  have hhigh := hnext.right
  simp only [accumulate, Ascii.digit?, hc, if_true, withSign_step]
  rw [if_neg (by omega), if_neg (by omega)]

theorem accumulate_cons_ok {range : Range} {negative : Bool} {n : Nat} {c : Char}
    {rest : List Char} {v : Int}
    (h : accumulate range negative (withSign negative n) (c :: rest) = .ok v) :
    c.isDigit = true ∧
      range.Contains (withSign negative (n * 10 + (c.toNat - '0'.toNat))) := by
  by_cases hc : c.isDigit = true
  · refine ⟨hc, ?_⟩
    simp only [accumulate, Ascii.digit?, hc, if_true, withSign_step] at h
    split at h
    · cases h
    · rename_i hlow
      split at h
      · cases h
      · rename_i hhigh
        exact ⟨by omega, by omega⟩
  · simp [accumulate, Ascii.digit?, hc] at h

theorem accumulate_eq_ok_iff {range : Range} {negative : Bool} {n : Nat} {cs : List Char}
    {v : Int} (hzero : range.Contains 0) (hn : range.Contains (withSign negative n)) :
    accumulate range negative (withSign negative n) cs = .ok v <->
      (forall c, c ∈ cs -> c.isDigit = true) ∧ v = withSign negative (extend n cs) ∧
        range.Contains v := by
  induction cs generalizing n with
  | nil =>
      constructor
      · intro h
        cases h
        exact ⟨by simp, rfl, hn⟩
      · intro h
        rw [h.right.left]
        rfl
  | cons c rest ih =>
      constructor
      · intro h
        rcases accumulate_cons_ok h with ⟨hc, hnext⟩
        rw [accumulate_cons_of_digit hc hnext] at h
        rcases (ih hnext).mp h with ⟨hrest, hv, hrange⟩
        refine ⟨?_, hv, hrange⟩
        intro d hd
        rcases List.mem_cons.mp hd with rfl | hd
        · exact hc
        · exact hrest d hd
      · intro h
        rcases h with ⟨hdigits, hv, hrange⟩
        have hc := hdigits c List.mem_cons_self
        have hnext : range.Contains
            (withSign negative (n * 10 + (c.toNat - '0'.toNat))) := by
          apply Range.contains_nearer hzero (le_extend _ rest)
          rw [hv] at hrange
          exact hrange
        rw [accumulate_cons_of_digit hc hnext]
        exact (ih hnext).mpr
          ⟨fun d hd => hdigits d (List.mem_cons_of_mem c hd), hv, hrange⟩

theorem digits_eq_ok_iff {range : Range} {negative : Bool} {cs : List Char} {v : Int}
    (hzero : range.Contains 0) :
    digits range negative cs = .ok v <->
      IsDigits cs ∧ v = withSign negative (extend 0 cs) ∧ range.Contains v := by
  have hstart : withSign negative 0 = 0 := by
    cases negative <;> rfl
  have hacc : accumulate range negative (withSign negative 0) cs = .ok v <->
      (forall c, c ∈ cs -> c.isDigit = true) ∧ v = withSign negative (extend 0 cs) ∧
        range.Contains v := by
    apply accumulate_eq_ok_iff hzero
    rw [hstart]
    exact hzero
  rw [hstart] at hacc
  unfold digits IsDigits
  by_cases hcs : cs = []
  · simp [hcs]
  · rw [if_neg hcs, hacc]
    constructor
    · intro h
      exact ⟨⟨hcs, h.left⟩, h.right⟩
    · intro h
      exact ⟨h.left.right, h.right⟩

/-!
## Reading
-/

theorem isDigits_head {c : Char} {rest : List Char} (h : IsDigits (c :: rest)) :
    c ≠ '+' ∧ c ≠ '-' := by
  have hc := h.right c List.mem_cons_self
  constructor
  · intro heq
    subst heq
    cases hc
  · intro heq
    subst heq
    cases hc

theorem read_eq_ok_iff {range : Range} {cs : List Char} {v : Int} (hzero : range.Contains 0) :
    read range cs = .ok v <->
      Denotes (decide (range.least < 0)) cs v ∧ range.Contains v := by
  cases cs with
  | nil =>
      constructor
      · intro h
        cases h
      · intro h
        cases h.left with
        | bare hds => exact absurd rfl hds.left
  | cons c rest =>
      by_cases hplus : c = '+'
      · subst hplus
        rw [show read range ('+' :: rest) = digits range false rest from rfl,
          digits_eq_ok_iff hzero]
        constructor
        · intro hgiven
          rcases hgiven with ⟨hds, rfl, hrange⟩
          exact ⟨Denotes.plus hds, hrange⟩
        · intro hgiven
          rcases hgiven with ⟨hden, hrange⟩
          cases hden with
          | bare hds => exact absurd rfl (isDigits_head hds).left
          | plus hds => exact ⟨hds, rfl, hrange⟩
      · by_cases hminus : c = '-' ∧ range.least < 0
        · rcases hminus with ⟨rfl, hleast⟩
          have hread : read range ('-' :: rest) = digits range true rest := by
            simp [read, hleast]
          rw [hread, digits_eq_ok_iff hzero]
          constructor
          · intro hgiven
            rcases hgiven with ⟨hds, rfl, hrange⟩
            exact ⟨Denotes.minus (decide_eq_true hleast) hds, hrange⟩
          · intro hgiven
            rcases hgiven with ⟨hden, hrange⟩
            cases hden with
            | bare hds => exact absurd rfl (isDigits_head hds).right
            | minus _ hds => exact ⟨hds, rfl, hrange⟩
        · have hread : read range (c :: rest) = digits range false (c :: rest) := by
            simp [read, digits, hplus, hminus]
          rw [hread, digits_eq_ok_iff hzero]
          constructor
          · intro hgiven
            rcases hgiven with ⟨hds, rfl, hrange⟩
            exact ⟨Denotes.bare hds, hrange⟩
          · intro hgiven
            rcases hgiven with ⟨hden, hrange⟩
            cases hden with
            | bare hds => exact ⟨hds, rfl, hrange⟩
            | plus _ => exact absurd rfl hplus
            | minus hsigned _ => exact absurd ⟨rfl, of_decide_eq_true hsigned⟩ hminus

theorem signed64_contains_iff (v : Int) :
    signed64.Contains v <-> -0x8000000000000000 ≤ v ∧ v ≤ 0x7FFFFFFFFFFFFFFF :=
  Iff.rfl

theorem unsigned64_contains_iff (v : Int) :
    unsigned64.Contains v <-> 0 ≤ v ∧ v ≤ 0xFFFFFFFFFFFFFFFF :=
  Iff.rfl

theorem signed64_contains_zero : signed64.Contains 0 := by
  rw [signed64_contains_iff]
  omega

theorem unsigned64_contains_zero : unsigned64.Contains 0 := by
  rw [unsigned64_contains_iff]
  omega

theorem readUpTo_eq_ok_iff {greatest n : Nat} {cs : List Char}
    (hgreatest : greatest < 0x8000000000000000) :
    readUpTo greatest cs = .ok n <-> Denotes true cs n ∧ n ≤ greatest := by
  have hread := fun v : Int => @read_eq_ok_iff signed64 cs v signed64_contains_zero
  have hsigned : decide (signed64.least < 0) = true := by decide
  rw [hsigned] at hread
  constructor
  · intro h
    unfold readUpTo at h
    split at h
    · cases h
    · rename_i value hvalue
      split at h
      · rename_i hbounds
        cases h
        have hden := ((hread value).mp hvalue).left
        rw [Int.toNat_of_nonneg hbounds.left]
        exact ⟨hden, by omega⟩
      · cases h
  · intro hgiven
    rcases hgiven with ⟨hden, hn⟩
    have hrange : signed64.Contains n := by
      rw [signed64_contains_iff]
      omega
    have hvalue : read signed64 cs = .ok (n : Int) := (hread n).mpr ⟨hden, hrange⟩
    unfold readUpTo
    rw [hvalue]
    simp [hn]

theorem readWord_eq_ok_iff {n : Nat} {cs : List Char} :
    readWord cs = .ok n <-> Denotes false cs n ∧ n < 0x10000000000000000 := by
  have hread := fun v : Int => @read_eq_ok_iff unsigned64 cs v unsigned64_contains_zero
  have hsigned : decide (unsigned64.least < 0) = false := by decide
  rw [hsigned] at hread
  constructor
  · intro h
    unfold readWord at h
    cases hvalue : read unsigned64 cs with
    | error problem =>
        rw [hvalue] at h
        cases h
    | ok value =>
        rw [hvalue] at h
        cases h
        rcases (hread value).mp hvalue with ⟨hden, hrange⟩
        rw [unsigned64_contains_iff] at hrange
        rw [Int.toNat_of_nonneg hrange.left]
        exact ⟨hden, by omega⟩
  · intro hgiven
    rcases hgiven with ⟨hden, hn⟩
    have hrange : unsigned64.Contains n := by
      rw [unsigned64_contains_iff]
      omega
    have hvalue : read unsigned64 cs = .ok (n : Int) := (hread n).mpr ⟨hden, hrange⟩
    unfold readWord
    rw [hvalue]
    rfl

end Numeral
end ConstantReply
