import ConstantReply.CommandLine.Parser
import ConstantReply.Proofs.Numeral

/-!
# Values of options

Which texts belong to the type of an option, and what they denote there.  Reading the value of an
option succeeds on exactly these texts.
-/

namespace ConstantReply
namespace CommandLine

open Utf8 (RawText Piece)

/-!
# Denotation
-/

def IsNumeral (signed : Bool) (raw : RawText) (n : Nat) : Prop :=
  exists s : String, raw = Utf8.ofString s ∧ Numeral.Denotes signed s.toList n

def Parameter.Denotes : (p : Parameter) -> RawText -> p.Value -> Prop
  | .host, raw, v => raw = Utf8.ofString v
  | .port, raw, v => IsNumeral true raw (UInt16.toNat v)
  | .backlog, raw, v => IsNumeral true raw (UInt32.toNat v)
  | .maxConnections, raw, v => IsNumeral false raw (UInt64.toNat v)
  | .workers, raw, v => IsNumeral false raw (UInt64.toNat v)
  | .headTimeout, raw, v => IsNumeral false raw (UInt64.toNat v)
  | .drainTimeout, raw, v => IsNumeral false raw (UInt64.toNat v)
  | .logLevel, raw, v => raw = Utf8.ofString v
  | .logFormat, raw, v => raw = Utf8.ofString (LogFormat.name v)

/-!
# Reading
-/

theorem eq_map_scalar_of_mapM_char? {raw : RawText} {cs : List Char}
    (h : raw.mapM Piece.char? = some cs) : raw = cs.map Piece.scalar := by
  induction raw generalizing cs with
  | nil =>
      cases h
      rfl
  | cons piece rest ih =>
      cases piece with
      | ill bytes => simp [Piece.char?] at h
      | scalar c =>
          cases hrest : rest.mapM Piece.char? with
          | none => simp [Piece.char?, hrest] at h
          | some ds =>
              have hcs : c :: ds = cs := by simpa [Piece.char?, hrest] using h
              rw [← hcs, ih hrest, List.map_cons]

theorem decode?_eq_some_iff {raw : RawText} {s : String} :
    Utf8.decode? raw = some s <-> raw = Utf8.ofString s := by
  constructor
  · intro h
    rcases Option.map_eq_some_iff.mp h with ⟨cs, hcs, rfl⟩
    rw [eq_map_scalar_of_mapM_char? hcs]
    simp [Utf8.ofString]
  · intro h
    rw [h, Utf8.decode?_ofString]

theorem readText_eq_ok_iff {raw : RawText} {s : String} :
    readText raw = .ok s <-> raw = Utf8.ofString s := by
  rw [← decode?_eq_some_iff]
  unfold readText
  cases hdecode : Utf8.decode? raw with
  | none => simp
  | some t => simp

theorem readNumber_eq_ok_iff {p : Parameter} {read : List Char -> Except Numeral.Problem Nat}
    {raw : RawText} {n : Nat} :
    readNumber p read raw = .ok n <->
      exists s : String, raw = Utf8.ofString s ∧ read s.toList = .ok n := by
  constructor
  · intro h
    unfold readNumber at h
    cases htext : readText raw with
    | error failure =>
        rw [htext] at h
        cases h
    | ok s =>
        rw [htext] at h
        cases hread : read s.toList with
        | error problem => simp [hread] at h
        | ok m =>
            have hmn : m = n := by simpa [hread] using h
            exact ⟨s, readText_eq_ok_iff.mp htext, by rw [hread, hmn]⟩
  · intro hgiven
    rcases hgiven with ⟨s, hraw, hread⟩
    simp [readNumber, readText_eq_ok_iff.mpr hraw, hread]

theorem readNumber_readUpTo_eq_ok_iff {p : Parameter} {greatest n : Nat} {raw : RawText}
    (hgreatest : greatest < 0x8000000000000000) :
    readNumber p (Numeral.readUpTo greatest) raw = .ok n <->
      IsNumeral true raw n ∧ n ≤ greatest := by
  rw [readNumber_eq_ok_iff]
  constructor
  · intro hgiven
    rcases hgiven with ⟨s, hraw, hread⟩
    rcases (Numeral.readUpTo_eq_ok_iff hgreatest).mp hread with ⟨hden, hn⟩
    exact ⟨⟨s, hraw, hden⟩, hn⟩
  · intro hgiven
    rcases hgiven with ⟨⟨s, hraw, hden⟩, hn⟩
    exact ⟨s, hraw, (Numeral.readUpTo_eq_ok_iff hgreatest).mpr ⟨hden, hn⟩⟩

theorem readNumber_readWord_eq_ok_iff {p : Parameter} {n : Nat} {raw : RawText} :
    readNumber p Numeral.readWord raw = .ok n <->
      IsNumeral false raw n ∧ n < 0x10000000000000000 := by
  rw [readNumber_eq_ok_iff]
  constructor
  · intro hgiven
    rcases hgiven with ⟨s, hraw, hread⟩
    rcases Numeral.readWord_eq_ok_iff.mp hread with ⟨hden, hn⟩
    exact ⟨⟨s, hraw, hden⟩, hn⟩
  · intro hgiven
    rcases hgiven with ⟨⟨s, hraw, hden⟩, hn⟩
    exact ⟨s, hraw, Numeral.readWord_eq_ok_iff.mpr ⟨hden, hn⟩⟩

theorem map_eq_ok_iff {ε α β : Type} {x : Except ε α} {f : α -> β} {b : β} :
    x.map f = .ok b <-> exists a, x = .ok a ∧ f a = b := by
  cases x with
  | error e => simp [Except.map]
  | ok a => simp [Except.map]

theorem read_word_eq_ok_iff {p : Parameter} {raw : RawText} {v : UInt64} :
    (readNumber p Numeral.readWord raw).map UInt64.ofNat = .ok v <->
      IsNumeral false raw v.toNat := by
  rw [map_eq_ok_iff]
  constructor
  · intro hgiven
    rcases hgiven with ⟨n, hread, rfl⟩
    rcases readNumber_readWord_eq_ok_iff.mp hread with ⟨hnumeral, hn⟩
    rw [UInt64.toNat_ofNat_of_lt' hn]
    exact hnumeral
  · intro hnumeral
    exact ⟨v.toNat, readNumber_readWord_eq_ok_iff.mpr ⟨hnumeral, v.toNat_lt⟩,
      UInt64.ofNat_toNat⟩

theorem readFormat_eq_ok_iff {raw : RawText} {f : LogFormat} :
    readFormat raw = .ok f <-> raw = Utf8.ofString f.name := by
  constructor
  · intro h
    unfold readFormat at h
    cases hfind : LogFormat.all.find? fun f => Utf8.ofString f.name == raw with
    | none =>
        rw [hfind] at h
        cases h
    | some g =>
        rw [hfind] at h
        cases h
        have hraw := List.find?_some hfind
        exact (eq_of_beq hraw).symm
  · intro heq
    subst heq
    cases f <;> rfl

theorem read_eq_ok_iff {p : Parameter} {raw : RawText} {v : p.Value} :
    p.read raw = .ok v <-> p.Denotes raw v := by
  cases p with
  | host => exact readText_eq_ok_iff
  | logLevel => exact readText_eq_ok_iff
  | logFormat => exact readFormat_eq_ok_iff
  | maxConnections => exact read_word_eq_ok_iff
  | workers => exact read_word_eq_ok_iff
  | headTimeout => exact read_word_eq_ok_iff
  | drainTimeout => exact read_word_eq_ok_iff
  | port =>
      apply Iff.trans map_eq_ok_iff
      constructor
      · intro hgiven
        rcases hgiven with ⟨n, hread, rfl⟩
        rcases (readNumber_readUpTo_eq_ok_iff (by omega)).mp hread with ⟨hnumeral, hn⟩
        change IsNumeral true raw (UInt16.ofNat n).toNat
        rw [UInt16.toNat_ofNat_of_lt' (Nat.lt_succ_of_le hn)]
        exact hnumeral
      · intro hnumeral
        have hv : UInt16.toNat v ≤ 65535 := Nat.le_of_lt_succ (UInt16.toNat_lt v)
        exact ⟨UInt16.toNat v,
          (readNumber_readUpTo_eq_ok_iff (by omega)).mpr ⟨hnumeral, hv⟩,
          UInt16.ofNat_toNat⟩
  | backlog =>
      apply Iff.trans map_eq_ok_iff
      constructor
      · intro hgiven
        rcases hgiven with ⟨n, hread, rfl⟩
        rcases (readNumber_readUpTo_eq_ok_iff (by omega)).mp hread with ⟨hnumeral, hn⟩
        change IsNumeral true raw (UInt32.ofNat n).toNat
        rw [UInt32.toNat_ofNat_of_lt' (Nat.lt_succ_of_le hn)]
        exact hnumeral
      · intro hnumeral
        have hv : UInt32.toNat v ≤ 4294967295 := Nat.le_of_lt_succ (UInt32.toNat_lt v)
        exact ⟨UInt32.toNat v,
          (readNumber_readUpTo_eq_ok_iff (by omega)).mpr ⟨hnumeral, hv⟩,
          UInt32.ofNat_toNat⟩

theorem Parameter.Denotes.unique {p : Parameter} {raw : RawText} {v w : p.Value}
    (hv : p.Denotes raw v) (hw : p.Denotes raw w) : v = w := by
  have hread := read_eq_ok_iff.mpr hv
  rw [read_eq_ok_iff.mpr hw] at hread
  cases hread
  rfl

end CommandLine
end ConstantReply
