import ConstantReply.Proofs.CommandLine.Naming

/-!
# Command lines on which the reading halts

The reading compares an unknown long name with what stands behind it, which has to be text.  It
halts for no other reason: every other failure is one that can be reported.
-/

namespace ConstantReply
namespace CommandLine

open Utf8 (RawText)

def Breaks (arguments : List RawText) : Prop :=
  exists before raw after, arguments = before ++ raw :: after ∧
    (exists name attached, shape raw = .long name attached ∧
      Opt.ofLongName? (Utf8.lossy name) = none) ∧
    exists behind, behind ∈ after ∧ ¬ IsText behind

theorem Breaks.cons {arguments : List RawText} (h : Breaks arguments) (first : RawText) :
    Breaks (first :: arguments) := by
  rcases h with ⟨before, raw, after, rfl, hlong, hbehind⟩
  exact ⟨first :: before, raw, after, rfl, hlong, hbehind⟩

/-!
# Failures that are reported
-/

section

variable {raw : RawText} {st : Progress} {p : Parameter} {failure : Failure}

theorem halt?_of_valueError (h : ValueError p raw failure) : failure.halt? = none := by
  cases h <;> rfl

theorem halt?_of_assign (h : st.assign p raw = .error failure) : failure.halt? = none := by
  rcases assign_eq_error_iff.mp h with ⟨_, rfl⟩ | ⟨_, hvalue⟩
  · rfl
  · exact halt?_of_valueError hvalue

theorem halt?_of_settle (h : st.settle = .error failure) : failure.halt? = none := by
  rcases settle_eq_error_iff.mp h with ⟨_, _, rfl⟩ | ⟨_, _, _, hassign⟩
  · rfl
  · exact halt?_of_assign hassign

theorem halt?_of_complete {environment : Environment}
    (h : complete environment environmentParameters st = .error failure) :
    failure.halt? = none := by
  rcases valueError_of_complete h with ⟨_, _, _, _, hvalue⟩
  exact halt?_of_valueError hvalue

theorem halt?_of_useSwitch {o : Opt} {full : Bool} (h : useSwitch o full st = .error failure) :
    failure.halt? = none := by
  unfold useSwitch at h
  cases hsettle : st.settle with
  | error other =>
      rw [hsettle] at h
      cases h
      exact halt?_of_settle hsettle
  | ok next =>
      simp only [hsettle] at h
      split at h
      · split at h
        · cases h
          rfl
        · cases h
      · cases h
        rfl

theorem halt?_of_useParameter {attached : Option RawText}
    (h : useParameter p attached st = .error failure) : failure.halt? = none := by
  unfold useParameter at h
  cases hsettle : st.settle with
  | error other =>
      rw [hsettle] at h
      cases h
      exact halt?_of_settle hsettle
  | ok next =>
      simp only [hsettle] at h
      cases attached with
      | some value => exact halt?_of_assign h
      | none => cases h

theorem halt?_of_useCluster {flags : RawText} (h : useCluster flags st = .error failure) :
    failure.halt? = none := by
  induction flags generalizing st with
  | nil => cases h
  | cons piece rest ih =>
      cases piece with
      | ill bytes =>
          cases h
          rfl
      | scalar c =>
          unfold useCluster at h
          split at h
          · cases h
            rfl
          · exact halt?_of_useParameter h
          next o _ _ =>
            cases huse : useSwitch o false st with
            | error other =>
                rw [huse] at h
                cases h
                exact halt?_of_useSwitch huse
            | ok next =>
                rw [huse] at h
                exact ih h

theorem halt?_of_useWord (h : useWord raw st = .error failure) : failure.halt? = none := by
  unfold useWord at h
  split at h
  · cases h
  · cases h
    rfl

theorem halt?_of_afterSeparator {rest : List RawText}
    (h : afterSeparator st rest = .error failure) : failure.halt? = none := by
  cases rest with
  | nil => exact halt?_of_settle h
  | cons word more =>
      cases h
      rfl

theorem halt?_of_useLong {name : RawText} {attached : Option RawText} {following : List RawText}
    (h : useLong name attached following st = .error failure) :
    failure.halt? = none ∨
      Opt.ofLongName? (Utf8.lossy name) = none ∧
        exists behind, behind ∈ following ∧ ¬ IsText behind := by
  unfold useLong at h
  split at h
  · exact Or.inl (halt?_of_useParameter h)
  · cases attached with
    | some value =>
        cases h
        exact Or.inl rfl
    | none => exact Or.inl (halt?_of_useSwitch h)
  next hunknown =>
    by_cases hall : following.all fun raw => (Utf8.decode? raw).isSome
    · rw [if_pos hall] at h
      cases h
      exact Or.inl rfl
    · refine Or.inr ⟨hunknown, ?_⟩
      rw [List.all_eq_true, not_forall] at hall
      rcases hall with ⟨behind, hbehind⟩
      rcases Classical.not_imp.mp hbehind with ⟨hmem, hnone⟩
      refine ⟨behind, hmem, ?_⟩
      rintro ⟨s, rfl⟩
      exact hnone (by rw [Utf8.decode?_ofString]; rfl)

end

/-!
# Arguments that are examined
-/

theorem breaks_of_examine {arguments : List RawText} {st : Progress} {failure : Failure}
    (h : examine st arguments = .error failure) :
    failure.halt? = none ∨ Breaks arguments := by
  induction arguments generalizing st with
  | nil => exact Or.inl (halt?_of_settle h)
  | cons raw rest ih =>
      unfold examine at h
      cases hshape : shape raw with
      | separator =>
          rw [hshape] at h
          exact Or.inl (halt?_of_afterSeparator h)
      | long name attached =>
          simp only [hshape] at h
          cases huse : useLong name attached rest st with
          | error other =>
              rw [huse] at h
              cases h
              rcases halt?_of_useLong huse with hnone | ⟨hunknown, hbehind⟩
              · exact Or.inl hnone
              · exact Or.inr ⟨[], raw, rest, rfl, ⟨name, attached, hshape, hunknown⟩, hbehind⟩
          | ok next =>
              rw [huse] at h
              exact (ih h).imp_right fun hbreaks => hbreaks.cons raw
      | cluster flags =>
          simp only [hshape] at h
          cases huse : useCluster flags st with
          | error other =>
              rw [huse] at h
              cases h
              exact Or.inl (halt?_of_useCluster huse)
          | ok next =>
              rw [huse] at h
              exact (ih h).imp_right fun hbreaks => hbreaks.cons raw
      | word =>
          simp only [hshape] at h
          cases huse : useWord raw st with
          | error other =>
              rw [huse] at h
              cases h
              exact Or.inl (halt?_of_useWord huse)
          | ok next =>
              rw [huse] at h
              exact (ih h).imp_right fun hbreaks => hbreaks.cons raw

theorem breaks_of_halt {arguments : List RawText} {environment : Environment}
    {failure : Failure} {halt : Halt} (h : parse arguments environment = .error failure)
    (hhalt : failure.halt? = some halt) : Breaks arguments.tail := by
  have hne : failure.halt? ≠ none := by simp [hhalt]
  cases hexamine : examine {} arguments.tail with
  | error other =>
      rw [parse_of_examine_error hexamine] at h
      cases h
      exact (breaks_of_examine hexamine).resolve_left hne
  | ok st =>
      rw [parse_of_examine hexamine, map_eq_error_iff] at h
      exact absurd (halt?_of_complete h) hne

example :
    parse [Utf8.ofString "ok-server", Utf8.ofString "--bogus", [.ill [0xFF]]] (fun _ => none) =
      .error .undecodable := by decide +kernel

end CommandLine
end ConstantReply
