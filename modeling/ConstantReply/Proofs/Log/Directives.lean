import ConstantReply.Log.Filter
import ConstantReply.Proofs.Settings.Conditions
import Mathlib.Data.List.Forall2

/-!
# Levels and directives

A level that settings may have is one of six words in any case of its letters.  The directives made
of such a level are three, with the word in lower case.  Two levels make the same directives only if
they differ in nothing but the case of letters, whether settings may have them or not.
-/

namespace ConstantReply

namespace Ascii

/-!
## Texts that differ in the case of letters
-/

def SameLetter (c d : Char) : Prop :=
  c = d ∨ (c.isUpper = true ∧ d.toNat = c.toNat + 32) ∨ (d.isUpper = true ∧ c.toNat = d.toNat + 32)

theorem isUpper_iff_val (c : Char) : c.isUpper = true <-> 'A'.val ≤ c.val ∧ c.val ≤ 'Z'.val :=
  decide_eq_true_iff

theorem isUpper_iff (c : Char) : c.isUpper = true <-> 65 ≤ c.toNat ∧ c.toNat ≤ 90 := by
  rw [isUpper_iff_val, UInt32.le_iff_toNat_le, UInt32.le_iff_toNat_le]
  rfl

theorem toNat_toLower (c : Char) :
    c.toLower.toNat = if c.isUpper = true then c.toNat + 32 else c.toNat := by
  unfold Char.toLower
  by_cases hupper : c.isUpper = true
  · have hbound : c.val.toNat ≤ 90 := ((isUpper_iff c).mp hupper).right
    have hdistance : ('a'.val - 'A'.val).toNat = 32 := rfl
    rw [if_pos hupper, dif_pos ((isUpper_iff_val c).mp hupper), Char.toNat, UInt32.toNat_add,
      hdistance]
    exact Nat.mod_eq_of_lt (by omega)
  · rw [if_neg hupper, dif_neg (mt (isUpper_iff_val c).mpr hupper)]

theorem toLower_eq_toLower_iff (c d : Char) : c.toLower = d.toLower <-> SameLetter c d := by
  simp only [SameLetter, ← Char.toNat_inj, toNat_toLower, isUpper_iff]
  split <;> split <;> omega

theorem sameUpToCase_iff (s t : String) :
    SameUpToCase s t <-> List.Forall₂ SameLetter s.toList t.toList := by
  unfold SameUpToCase
  rw [← List.forall₂_eq_eq_eq, List.forall₂_map_left_iff, List.forall₂_map_right_iff]
  simp only [toLower_eq_toLower_iff]

end Ascii

namespace Settings

def HasKnownLevel (s : Settings) : Prop :=
  forall level, SettingsFault.unknownLogLevel level ∉ s.faults

theorem hasKnownLevel_iff (s : Settings) :
    s.HasKnownLevel <->
      exists word, word ∈ logLevels ∧ Ascii.SameUpToCase s.logLevel word := by
  rw [← lower_mem_logLevels_iff]
  have hlevel : Condition.logLevel.Holds s <-> Ascii.lower s.logLevel ∈ logLevels :=
    (lower_mem_logLevels_iff s.logLevel).symm
  unfold HasKnownLevel
  rw [faults_eq_map_violated]
  constructor
  · intro h
    by_contra hunknown
    apply h s.logLevel
    apply List.mem_map.mpr
    exact ⟨.logLevel, List.mem_filter.mpr
      ⟨by decide, decide_eq_true (mt hlevel.mp hunknown)⟩, rfl⟩
  · intro h level hfault
    rcases List.mem_map.mp hfault with ⟨c, hc, heq⟩
    have hviolated := (List.mem_filter.mp hc).right
    cases c with
    | logLevel => exact of_decide_eq_true hviolated (hlevel.mpr h)
    | maxConnections =>
        rw [Condition.fault] at heq
        split at heq <;> cases heq
    | _ => cases heq

end Settings

namespace Log

/-!
## What the directives are made of
-/

def partsOf (s : String) : List String := (s.toList.splitOn ',').map String.ofList

def Directs (level word : String) : Prop :=
  partsOf (defaultDirectives level) = ["warn", "ok_server=" ++ word, "tower_http=" ++ word]

theorem defaultDirectives_eq (level : String) :
    defaultDirectives level =
      "warn,ok_server=" ++ Ascii.lower level ++ ",tower_http=" ++ Ascii.lower level := rfl

theorem toList_defaultDirectives (level : String) :
    (defaultDirectives level).toList =
      "warn,ok_server=".toList ++ ((Ascii.lower level).toList ++
        (",tower_http=".toList ++ (Ascii.lower level).toList)) := by
  simp only [defaultDirectives_eq, String.toList_append, List.append_assoc]

theorem defaultDirectives_eq_iff (s t : String) :
    defaultDirectives s = defaultDirectives t <-> Ascii.SameUpToCase s t := by
  rw [← Ascii.lower_eq_lower_iff]
  constructor
  · intro h
    have hchars := congrArg String.toList h
    rw [toList_defaultDirectives, toList_defaultDirectives] at hchars
    have htails := List.append_cancel_left hchars
    have hlength := congrArg List.length htails
    simp only [List.length_append] at hlength
    exact String.toList_inj.mp (List.append_inj htails (by omega)).left
  · intro h
    rw [defaultDirectives_eq, defaultDirectives_eq, h]

theorem directs_of_known : forall word, word ∈ logLevels -> Directs word word := by
  unfold Directs
  decide

theorem partsOf_inj {s t : String} (h : partsOf s = partsOf t) : s = t := by
  have hparts : s.toList.splitOn ',' = t.toList.splitOn ',' :=
    List.map_injective_iff.mpr (fun _ _ => String.ofList_inj.mp) h
  apply String.toList_inj.mp
  calc s.toList = [','].intercalate (s.toList.splitOn ',') := (List.intercalate_splitOn ',').symm
    _ = [','].intercalate (t.toList.splitOn ',') := by rw [hparts]
    _ = t.toList := List.intercalate_splitOn ','

theorem exists_directs_iff (level : String) :
    (exists word, word ∈ logLevels ∧ Directs level word) <->
      exists word, word ∈ logLevels ∧ Ascii.SameUpToCase level word := by
  constructor
  · rintro ⟨word, hword, hdirects⟩
    refine ⟨word, hword, ?_⟩
    rw [← defaultDirectives_eq_iff]
    exact partsOf_inj (hdirects.trans (directs_of_known word hword).symm)
  · rintro ⟨word, hword, hsame⟩
    refine ⟨word, hword, ?_⟩
    rw [Directs, (defaultDirectives_eq_iff level word).mpr hsame]
    exact directs_of_known word hword

/-- Settings with a known level make the three directives for one word, and only these settings do.
Levels make the same directives exactly if they differ in the case of letters alone, and then
settings may have both of them or none. -/
theorem directives_of_levels :
    (forall s : Settings, s.HasKnownLevel <->
      exists word, word ∈ logLevels ∧ Directs s.logLevel word) ∧
    (forall level other : String, defaultDirectives level = defaultDirectives other <->
      List.Forall₂ Ascii.SameLetter level.toList other.toList) ∧
    (forall s t : Settings, defaultDirectives s.logLevel = defaultDirectives t.logLevel ->
      (s.HasKnownLevel <-> t.HasKnownLevel)) := by
  have hknown (s : Settings) : s.HasKnownLevel <->
      exists word, word ∈ logLevels ∧ Directs s.logLevel word := by
    rw [s.hasKnownLevel_iff, exists_directs_iff]
  refine ⟨hknown, ?_, ?_⟩
  · intro level other
    rw [defaultDirectives_eq_iff, Ascii.sameUpToCase_iff]
  · intro s t heq
    rw [hknown, hknown, exists_directs_iff, exists_directs_iff]
    rw [defaultDirectives_eq_iff, Ascii.SameUpToCase] at heq
    simp only [Ascii.SameUpToCase, heq]

end Log
end ConstantReply
