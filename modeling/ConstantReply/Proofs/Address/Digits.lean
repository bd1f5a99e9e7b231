import ConstantReply.Address.Reader
import ConstantReply.Proofs.Address.Grammar
import ConstantReply.Proofs.Numeral.Flaw
import Mathlib.Algebra.Group.Nat.Defs
import Mathlib.Data.List.Forall2

/-!
# Digits that are read and written

A run of digits is read as far as it goes, so what is read is known from the text as long as no
digit follows.  Numbers are written in digits that are read as the same number.
-/

namespace ConstantReply
namespace Address

/-!
## Single digits
-/

theorem toNat_lt_of_hexDigit? {c : Char} {d : Nat} (h : Ascii.hexDigit? c = some d) :
    c.toNat < 128 := by
  unfold Ascii.hexDigit? at h
  split at h
  · rename_i hdigit
    have hle : c.toNat ≤ '9'.toNat := (Char.isDigit_iff_toNat.mp hdigit).right
    exact Nat.lt_of_le_of_lt hle (by decide)
  split at h
  · rename_i hlower
    have hle : c.toNat ≤ 'f'.toNat := hlower.right
    exact Nat.lt_of_le_of_lt hle (by decide)
  split at h
  · rename_i hupper
    have hle : c.toNat ≤ 'F'.toNat := hupper.right
    exact Nat.lt_of_le_of_lt hle (by decide)
  · cases h

theorem hexDigit?_eq_some_iff (c : Char) (d : Nat) :
    Ascii.hexDigit? c = some d <-> IsDigit 16 c d := by
  constructor
  · intro h
    have hall : forall n, n < 128 ->
        (Ascii.hexDigit? (Char.ofNat n)).all (fun d => IsDigit 16 (Char.ofNat n) d) = true := by
      decide
    have hc := hall c.toNat (toNat_lt_of_hexDigit? h)
    rw [Char.ofNat_toNat, h] at hc
    exact of_decide_eq_true hc
  · rintro ⟨hd, hlower | hupper⟩
    · have hall : forall e, e < 16 ->
          "0123456789abcdef".toList[e]?.bind Ascii.hexDigit? = some e := by decide
      have he := hall d hd
      rwa [hlower] at he
    · have hall : forall e, e < 16 ->
          "0123456789ABCDEF".toList[e]?.bind Ascii.hexDigit? = some e := by decide
      have he := hall d hd
      rwa [hupper] at he

theorem digit?_eq_some_iff (c : Char) (d : Nat) :
    Ascii.digit? c = some d <-> IsDigit 10 c d := by
  have hhex : IsDigit 10 c d <-> Ascii.hexDigit? c = some d ∧ d < 10 := by
    rw [hexDigit?_eq_some_iff]
    unfold IsDigit
    exact ⟨fun h => ⟨⟨by omega, h.right⟩, h.left⟩, fun h => ⟨h.right, h.left.right⟩⟩
  rw [hhex]
  unfold Ascii.digit? Ascii.hexDigit?
  by_cases hdigit : c.isDigit = true
  · have hle : c.toNat ≤ '9'.toNat := (Char.isDigit_iff_toNat.mp hdigit).right
    have hsmall : c.toNat - '0'.toNat < 10 := by
      have : '9'.toNat = 57 := rfl
      have : '0'.toNat = 48 := rfl
      omega
    simp only [if_pos hdigit]
    constructor
    · intro h
      cases h
      exact ⟨rfl, hsmall⟩
    · exact fun h => h.left
  · simp only [if_neg hdigit]
    constructor
    · intro h
      cases h
    · rintro ⟨h, hlt⟩
      split at h
      · cases h
        omega
      split at h
      · cases h
        omega
      · cases h

theorem isDigit_zero {radix : Nat} {c : Char} (h : IsDigit radix c 0) : c = '0' := by
  rcases h.right with hc | hc
  · exact (Option.some.inj hc).symm
  · exact (Option.some.inj hc).symm

theorem eq_zero_of_isDigit {radix d : Nat} (hradix : radix ≤ 16) (h : IsDigit radix '0' d) :
    d = 0 := by
  have hread := (hexDigit?_eq_some_iff '0' d).mpr ⟨Nat.lt_of_lt_of_le h.left hradix, h.right⟩
  exact (Option.some.inj hread).symm

/-!
## Runs of digits
-/

def Stops (radix : Nat) (rest : List Char) : Prop :=
  forall c, rest.head? = some c -> forall d, ¬ IsDigit radix c d

section

variable {radix : Nat} {digit? : Char -> Option Nat}
  (hdigits : forall c d, digit? c = some d <-> IsDigit radix c d)

include hdigits

theorem digitRun_of_stops {rest : List Char} (h : Stops radix rest) :
    digitRun digit? rest = ([], rest) := by
  cases rest with
  | nil => rfl
  | cons c more =>
      have hnone : digit? c = none := by
        cases hc : digit? c with
        | none => rfl
        | some d => exact absurd ((hdigits c d).mp hc) (h c rfl d)
      simp only [digitRun, hnone]

theorem digitRun_eq_iff {cs rest : List Char} {ds : List Nat} :
    digitRun digit? cs = (ds, rest) <-> exists text,
      cs = text ++ rest ∧ List.Forall₂ (IsDigit radix) text ds ∧ Stops radix rest := by
  constructor
  · intro h
    induction cs generalizing ds with
    | nil =>
        cases h
        exact ⟨[], rfl, .nil, by intro c hc; cases hc⟩
    | cons c more ih =>
        cases hc : digit? c with
        | none =>
            simp only [digitRun, hc] at h
            cases h
            refine ⟨[], rfl, .nil, ?_⟩
            intro first hfirst d hd
            cases hfirst
            rw [(hdigits c d).mpr hd] at hc
            cases hc
        | some d =>
            simp only [digitRun, hc] at h
            cases h
            rcases ih rfl with ⟨text, hmore, htext, hstops⟩
            exact ⟨c :: text, congrArg (c :: ·) hmore, .cons ((hdigits c d).mp hc) htext, hstops⟩
  · rintro ⟨text, rfl, htext, hstops⟩
    induction htext with
    | nil => exact digitRun_of_stops hdigits hstops
    | @cons c d text ds hc htext ih =>
        simp only [List.cons_append, digitRun, (hdigits c d).mpr hc, ih]

end

/-!
## Numbers
-/

section

variable {radix : Nat}

theorem NumberText.append {front text : List Char} {n : Nat} {ds : List Nat}
    (h : NumberText radix front n) (htext : List.Forall₂ (IsDigit radix) text ds) :
    NumberText radix (front ++ text) (ds.foldl (fun n d => n * radix + d) n) := by
  induction htext generalizing front n with
  | nil => rwa [List.append_nil]
  | @cons c d text ds hc htext ih =>
      have hmore := ih (.more h hc)
      rwa [List.append_assoc] at hmore

theorem numberText_iff {text : List Char} {n : Nat} :
    NumberText radix text n <-> exists ds,
      List.Forall₂ (IsDigit radix) text ds ∧ ds ≠ [] ∧ ofDigits radix ds = n := by
  constructor
  · intro h
    induction h with
    | @digit c d hc => exact ⟨[d], .cons hc .nil, by simp, by simp [ofDigits]⟩
    | @more cs n c d _ hc ih =>
        rcases ih with ⟨ds, hcs, hne, rfl⟩
        refine ⟨ds ++ [d], List.rel_append hcs (.cons hc .nil), by simp, ?_⟩
        simp [ofDigits, List.foldl_append]
  · rintro ⟨ds, htext, hne, rfl⟩
    cases htext with
    | nil => exact absurd rfl hne
    | @cons c d text ds hc htext =>
        have hfirst : NumberText radix [c] d := .digit hc
        have hnumber := hfirst.append htext
        simpa [ofDigits] using hnumber

theorem NumberText.lt_pow {text : List Char} {n : Nat} (h : NumberText radix text n) :
    n < radix ^ text.length := by
  induction h with
  | digit hc => simpa using hc.left
  | @more cs n c d _ hc ih =>
      have hd := hc.left
      calc n * radix + d < n * radix + radix := by omega
        _ = (n + 1) * radix := (Nat.succ_mul n radix).symm
        _ ≤ radix ^ cs.length * radix := Nat.mul_le_mul_right _ ih
        _ = radix ^ (cs ++ [c]).length := by
            rw [List.length_append, List.length_singleton, Nat.pow_succ]

theorem NumberText.ne_nil {text : List Char} {n : Nat} (h : NumberText radix text n) :
    text ≠ [] := by
  cases h <;> simp

theorem NumberText.pow_le {text : List Char} {n : Nat} (h : NumberText radix text n)
    (hzero : text.head? ≠ some '0') : radix ^ (text.length - 1) ≤ n := by
  induction h with
  | @digit c d hc =>
      have hd : d ≠ 0 := by
        rintro rfl
        exact hzero (congrArg some (isDigit_zero hc))
      exact Nat.pos_of_ne_zero hd
  | @more cs n c d hcs hc ih =>
      have hne := hcs.ne_nil
      have hpos := List.length_pos_of_ne_nil hne
      rw [List.head?_append_of_ne_nil _ hne] at hzero
      have hlength : (cs ++ [c]).length - 1 = cs.length - 1 + 1 := by
        rw [List.length_append, List.length_singleton]
        omega
      calc radix ^ ((cs ++ [c]).length - 1) = radix ^ (cs.length - 1) * radix := by
            rw [hlength, Nat.pow_succ]
        _ ≤ n * radix := Nat.mul_le_mul_right _ (ih hzero)
        _ ≤ n * radix + d := Nat.le_add_right _ _

theorem NumberText.length_le {text : List Char} {n k : Nat} (h : NumberText radix text n)
    (hzero : NoLeadingZero text) (hpos : 1 < radix) (hn : n < radix ^ (k + 1)) :
    text.length ≤ k + 1 := by
  by_cases hhead : text.head? = some '0'
  · rw [hzero hhead]
    exact Nat.le_add_left 1 k
  · have hlength := (Nat.pow_lt_pow_iff_right hpos).mp (Nat.lt_of_le_of_lt (h.pow_le hhead) hn)
    omega

theorem getElem?_digits {d : Nat} (hd : d < 16) :
    "0123456789abcdef".toList[d]? = some (Nat.digitChar d) := by
  have hall : forall e, e < 16 -> "0123456789abcdef".toList[e]? = some (Nat.digitChar e) := by
    decide
  exact hall d hd

theorem isDigit_digitChar {d : Nat} (hd : d < radix) (hradix : radix ≤ 16) :
    IsDigit radix (Nat.digitChar d) d :=
  ⟨hd, Or.inl (getElem?_digits (Nat.lt_of_lt_of_le hd hradix))⟩

theorem NumberText.not_mem {text : List Char} {n : Nat} (h : NumberText radix text n)
    (hradix : radix ≤ 16) {c : Char} (hc : Ascii.hexDigit? c = none) : c ∉ text := by
  have hdigit : forall d, ¬ IsDigit radix c d := by
    intro d hd
    have hread := (hexDigit?_eq_some_iff c d).mpr ⟨Nat.lt_of_lt_of_le hd.left hradix, hd.right⟩
    rw [hc] at hread
    cases hread
  induction h with
  | @digit e d he =>
      rw [List.mem_singleton]
      rintro rfl
      exact hdigit d he
  | @more cs n e d _ he ih =>
      rw [List.mem_append, List.mem_singleton]
      rintro (hmem | rfl)
      · exact ih hmem
      · exact hdigit d he

theorem numberText_toDigits (hpos : 1 < radix) (hradix : radix ≤ 16) (n : Nat) :
    NumberText radix (Nat.toDigits radix n) n := by
  induction n using Nat.strongRecOn with
  | ind n ih =>
      by_cases hsmall : n < radix
      · rw [Nat.toDigits_of_lt_base hsmall]
        exact .digit (isDigit_digitChar hsmall hradix)
      · have hge := Nat.le_of_not_lt hsmall
        have hfront := ih (n / radix) (Nat.div_lt_self (by omega) hpos)
        have hnumber := hfront.more
          (isDigit_digitChar (Nat.mod_lt n (by omega)) hradix)
        rwa [← Nat.toDigits_of_base_le hpos hge, Nat.div_add_mod'] at hnumber

theorem noLeadingZero_toDigits (hpos : 1 < radix) (n : Nat) :
    NoLeadingZero (Nat.toDigits radix n) := by
  intro hhead
  by_cases hn : n = 0
  · rw [hn, Nat.toDigits_zero]
  · exact absurd hhead (Numeral.head?_toDigits_ne_zero hpos (Nat.pos_of_ne_zero hn))

theorem NumberText.eq_toDigits {text : List Char} {n : Nat} (h : NumberText radix text n)
    (hpos : 1 < radix) (hzero : NoLeadingZero text)
    (hwritten : forall c, c ∈ text -> forall d, IsDigit radix c d -> c = Nat.digitChar d) :
    text = Nat.toDigits radix n := by
  induction h with
  | @digit c d hc =>
      rw [Nat.toDigits_of_lt_base hc.left, hwritten c (by simp) d hc]
  | @more cs n c d hcs hc ih =>
      have hhead : cs.head? ≠ some '0' := by
        intro hfirst
        have hall := hzero (by rw [List.head?_append, hfirst]; rfl)
        have hlength := congrArg List.length hall
        have hcsPos := List.length_pos_of_ne_nil hcs.ne_nil
        simp only [List.length_append, List.length_cons, List.length_nil] at hlength
        omega
      have hfront := ih (fun hfirst => absurd hfirst hhead)
        (fun c hc => hwritten c (List.mem_append_left _ hc))
      have hn : 0 < n := Nat.lt_of_lt_of_le (Nat.pow_pos (by omega)) (hcs.pow_le hhead)
      rw [Nat.mul_comm, ← Nat.toDigits_append_toDigits hpos hn hc.left,
        Nat.toDigits_of_lt_base hc.left, ← hfront, hwritten c (by simp) d hc]

end

end Address
end ConstantReply
