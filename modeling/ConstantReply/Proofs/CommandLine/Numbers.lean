import ConstantReply.Proofs.CommandLine.Acceptance
import ConstantReply.Proofs.Numeral.Flaw

/-!
# Numbers given to options

Six options take numbers.  Each reads exactly the numerals between zero and its greatest number, and
tells of any other text the one flaw that it has.
-/

namespace ConstantReply
namespace CommandLine

open Numeral (Denotes Flaw Problem Shortest)
open Utf8 (RawText)

structure NumberForm where
  range : Numeral.Range
  greatest : Nat

def Parameter.numbers? : Parameter -> Option NumberForm
  | .port => some ⟨Numeral.signed64, 65535⟩
  | .backlog => some ⟨Numeral.signed64, 4294967295⟩
  | .maxConnections => some ⟨Numeral.unsigned64, 0xFFFFFFFFFFFFFFFF⟩
  | .workers => some ⟨Numeral.unsigned64, 0xFFFFFFFFFFFFFFFF⟩
  | .headTimeout => some ⟨Numeral.unsigned64, 0xFFFFFFFFFFFFFFFF⟩
  | .drainTimeout => some ⟨Numeral.unsigned64, 0xFFFFFFFFFFFFFFFF⟩
  | _ => none

def Parameter.number? : (p : Parameter) -> p.Value -> Option Nat
  | .port, v => some (UInt16.toNat v)
  | .backlog, v => some (UInt32.toNat v)
  | .maxConnections, v => some (UInt64.toNat v)
  | .workers, v => some (UInt64.toNat v)
  | .headTimeout, v => some (UInt64.toNat v)
  | .drainTimeout, v => some (UInt64.toNat v)
  | _, _ => none

/-!
# A value on a command line of its own
-/

def Unset (environment : Environment) : Prop :=
  forall p, fromEnvironment environment p = none

theorem complete_of_unset {environment : Environment} (h : Unset environment)
    (ps : List Parameter) (st : Progress) : complete environment ps st = .ok st := by
  induction ps with
  | nil =>
      rfl
  | cons p rest ih =>
      by_cases hused : Opt.value p ∈ st.used
      · rw [complete_cons_of_used hused, ih]
      · rw [complete_cons_of_none hused (h p), ih]

theorem examine_attached (p : Parameter) (raw : RawText) :
    examine {} [longArgument (.value p) ++ equalsSign :: raw] =
      (p.read raw).map fun v => ⟨[.value ⟨p, v⟩], .nothing⟩ := by
  have hassign : useParameter p (some raw) {} =
      (p.read raw).map fun v => ⟨[.value ⟨p, v⟩], .nothing⟩ := by
    unfold useParameter Progress.assign
    simp only [Progress.settle, Progress.used, List.map_nil, List.not_mem_nil, if_false]
    cases p.read raw <;> rfl
  rw [examine, shape_longArgument_attached]
  simp only [useLong_value, hassign]
  cases p.read raw <;> rfl

theorem parse_attached {environment : Environment} (h : Unset environment) (program : RawText)
    (p : Parameter) (raw : RawText) :
    parse [program, longArgument (.value p) ++ equalsSign :: raw] environment =
      (p.read raw).map fun v => Given.apply ⟨p, v⟩ {} := by
  unfold parse interpret
  rw [List.tail_cons, examine_attached]
  cases p.read raw with
  | error failure => rfl
  | ok v =>
      simp only [Except.map, complete_of_unset h]
      rfl

/-!
# Reading numbers
-/

/-- What an option that takes these numbers makes of a text. -/
structure ReadsAsNumber (p : Parameter) (form : NumberForm) (s : String) : Prop where
  accepts : forall n,
    (exists v, p.read (Utf8.ofString s) = .ok v ∧ p.number? v = some n) <->
      Denotes form.range.isSigned s.toList n ∧ n ≤ form.greatest
  refuses : forall failure,
    p.read (Utf8.ofString s) = .error failure <->
      exists problem, Flaw form.range form.greatest s.toList problem ∧
        failure = .badNumber p s problem
  oneFlaw : forall problem other, Flaw form.range form.greatest s.toList problem ->
    Flaw form.range form.greatest s.toList other -> problem = other
  shown : forall v : Int, Flaw form.range form.greatest s.toList (.outside v form.greatest) ->
    exists text bound : String, Shortest text.toList v ∧ Shortest bound.toList form.greatest ∧
      (Problem.outside v form.greatest).message = text ++ " is not in 0..=" ++ bound
  alone : forall program environment, Unset environment ->
    parse [program, longArgument (.value p) ++ equalsSign :: Utf8.ofString s] environment =
      (p.read (Utf8.ofString s)).map fun v => Given.apply ⟨p, v⟩ {}

theorem readNumber_ofString (p : Parameter) (read : List Char -> Except Problem Nat) (s : String) :
    readNumber p read (Utf8.ofString s) =
      match read s.toList with
      | .ok n => .ok n
      | .error problem => .error (.badNumber p s problem) := by
  have htext : readText (Utf8.ofString s) = .ok s := readText_eq_ok_iff.mpr rfl
  cases hs : read s.toList <;> simp [readNumber, htext, hs]

theorem map_eq_error_iff {ε α β : Type} {x : Except ε α} {f : α -> β} {e : ε} :
    x.map f = .error e <-> x = .error e := by
  cases x <;> simp [Except.map]

theorem message_outside (v : Int) (greatest : Nat) :
    exists text bound : String, Shortest text.toList v ∧ Shortest bound.toList greatest ∧
      (Problem.outside v greatest).message = text ++ " is not in 0..=" ++ bound :=
  ⟨toString v, toString (greatest : Int), Numeral.shortest_toString v,
    Numeral.shortest_toString greatest, rfl⟩

section

variable {p : Parameter} {form : NumberForm} {read : List Char -> Except Problem Nat}
  {word : Nat -> p.Value}

theorem readsAsNumber_of_read
    (hread : forall raw, p.read raw = (readNumber p read raw).map word)
    (hok : forall cs n, read cs = .ok n <->
      Denotes form.range.isSigned cs n ∧ n ≤ form.greatest)
    (herror : forall cs problem, read cs = .error problem <->
      Flaw form.range form.greatest cs problem)
    (hword : forall n, n ≤ form.greatest -> p.number? (word n) = some n) (s : String) :
    ReadsAsNumber p form s where
  accepts := by
    intro n
    rw [hread, readNumber_ofString, ← hok]
    cases hs : read s.toList with
    | error problem => simp [Except.map]
    | ok m =>
        have hm := hword m ((hok _ _).mp hs).right
        simp [Except.map, hm]
  refuses := by
    intro failure
    rw [hread, map_eq_error_iff, readNumber_ofString]
    simp only [← herror]
    cases hs : read s.toList with
    | error problem => simp [eq_comm]
    | ok m => simp
  oneFlaw := by
    intro problem other h h'
    have hproblem := (herror _ _).mpr h
    rw [(herror _ _).mpr h'] at hproblem
    cases hproblem
    rfl
  shown := fun v _ => message_outside v form.greatest
  alone := fun program _ h => parse_attached h program p _

end

theorem readsAsNumber_readUpTo {p : Parameter} {greatest : Nat} {word : Nat -> p.Value}
    (hread : forall raw, p.read raw =
      (readNumber p (Numeral.readUpTo greatest) raw).map word)
    (hgreatest : greatest < 0x8000000000000000)
    (hword : forall n, n ≤ greatest -> p.number? (word n) = some n) (s : String) :
    ReadsAsNumber p ⟨Numeral.signed64, greatest⟩ s :=
  readsAsNumber_of_read hread (fun _ _ => Numeral.readUpTo_eq_ok_iff hgreatest)
    (fun _ _ => Numeral.readUpTo_eq_error_iff) hword s

theorem readsAsNumber_readWord {p : Parameter} {word : Nat -> p.Value}
    (hread : forall raw, p.read raw = (readNumber p Numeral.readWord raw).map word)
    (hword : forall n, n ≤ 0xFFFFFFFFFFFFFFFF -> p.number? (word n) = some n) (s : String) :
    ReadsAsNumber p ⟨Numeral.unsigned64, 0xFFFFFFFFFFFFFFFF⟩ s := by
  apply readsAsNumber_of_read hread _ (fun _ _ => Numeral.readWord_eq_error_iff) hword
  intro cs n
  apply Numeral.readWord_eq_ok_iff.trans
  constructor
  · intro h
    exact ⟨h.left, Nat.le_of_lt_succ h.right⟩
  · intro h
    exact ⟨h.left, Nat.lt_succ_of_le h.right⟩

theorem toNat_ofNat_word {n : Nat} (hn : n ≤ 0xFFFFFFFFFFFFFFFF) :
    some (UInt64.ofNat n).toNat = some n := by
  rw [UInt64.toNat_ofNat_of_lt' (Nat.lt_succ_of_le hn)]

/-- An option that takes numbers reads the numerals of its numbers and nothing else, and names the
one flaw of any other text. -/
theorem readsAsNumber_of_numbers {p : Parameter} {form : NumberForm}
    (h : p.numbers? = some form) (s : String) : ReadsAsNumber p form s := by
  cases p with
  | port =>
      cases h
      have hread (raw : RawText) : Parameter.read .port raw =
          (readNumber .port (Numeral.readUpTo 65535) raw).map UInt16.ofNat := rfl
      apply readsAsNumber_readUpTo hread (by decide)
      intro n hn
      exact congrArg some (UInt16.toNat_ofNat_of_lt' (Nat.lt_succ_of_le hn))
  | backlog =>
      cases h
      have hread (raw : RawText) : Parameter.read .backlog raw =
          (readNumber .backlog (Numeral.readUpTo 4294967295) raw).map UInt32.ofNat := rfl
      apply readsAsNumber_readUpTo hread (by decide)
      intro n hn
      exact congrArg some (UInt32.toNat_ofNat_of_lt' (Nat.lt_succ_of_le hn))
  | maxConnections =>
      cases h
      exact readsAsNumber_readWord (fun _ => rfl) (fun _ => toNat_ofNat_word) s
  | workers =>
      cases h
      exact readsAsNumber_readWord (fun _ => rfl) (fun _ => toNat_ofNat_word) s
  | headTimeout =>
      cases h
      exact readsAsNumber_readWord (fun _ => rfl) (fun _ => toNat_ofNat_word) s
  | drainTimeout =>
      cases h
      exact readsAsNumber_readWord (fun _ => rfl) (fun _ => toNat_ofNat_word) s
  | host => cases h
  | logLevel => cases h
  | logFormat => cases h

theorem readsAsNumber_of_port :
    Parameter.numbers? .port = some ⟨Numeral.signed64, 65535⟩ ∧
      ReadsAsNumber .port ⟨Numeral.signed64, 65535⟩ "-05" :=
  ⟨rfl, readsAsNumber_of_numbers rfl "-05"⟩

end CommandLine
end ConstantReply
