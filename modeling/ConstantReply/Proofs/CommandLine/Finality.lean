import ConstantReply.Proofs.CommandLine.Naming

/-!
# Failures that nothing can overtake

Some failures are noticed at the argument that they are about and end the reading there.  Others
wait until the next option or the end, so that a failure further on can take their place.  Whatever
is appended to a command line that fails at once, the same is reported.
-/

namespace ConstantReply
namespace CommandLine

open Utf8 (RawText)

/-- Failures that end the reading at the argument that they are about. -/
inductive Failure.Immediate : Failure -> Prop where
  | help (full : Bool) : Immediate (.help full)
  | needlessValue (o : Opt) (shown : String) (used : List Opt) :
      Immediate (.needlessValue o shown used)
  | unexpected (shown : String) : Immediate (.unexpected shown)
  | unknownName (name : String) (used : List Opt) : Immediate (.unknownName name used)

/-- A failure with all that is seen of it. -/
structure Verdict where
  failure : Failure
  text : String
  exitCode : Nat
  onStandardError : Bool

def verdict (arguments : List RawText) (environment : Environment) : Except Verdict Settings :=
  match parse arguments environment with
  | .error failure =>
      .error ⟨failure, failure.message arguments environment, failure.exitCode,
        failure.isMisuse⟩
  | .ok settings => .ok settings

/-!
# Failures of values

A value is no good, or its option has been used before.  Neither ends the reading at once.
-/

section

variable {raw : RawText} {st : Progress} {p : Parameter} {failure : Failure}

theorem not_immediate_of_valueError (h : ValueError p raw failure) : ¬ failure.Immediate := by
  intro himmediate
  cases h <;> cases himmediate

theorem not_immediate_of_assign (h : st.assign p raw = .error failure) :
    ¬ failure.Immediate := by
  rcases assign_eq_error_iff.mp h with ⟨_, rfl⟩ | ⟨_, hvalue⟩
  · intro himmediate
    cases himmediate
  · exact not_immediate_of_valueError hvalue

theorem not_immediate_of_settle (h : st.settle = .error failure) : ¬ failure.Immediate := by
  rcases settle_eq_error_iff.mp h with ⟨_, _, rfl⟩ | ⟨_, _, _, hassign⟩
  · intro himmediate
    cases himmediate
  · exact not_immediate_of_assign hassign

theorem not_immediate_of_complete {environment : Environment}
    (h : complete environment environmentParameters st = .error failure) :
    ¬ failure.Immediate := by
  rcases valueError_of_complete h with ⟨_, _, _, _, hvalue⟩
  exact not_immediate_of_valueError hvalue

end

/-!
# Arguments that are appended
-/

section

variable {more : List RawText} (hmore : forall raw, raw ∈ more -> IsText raw)

include hmore

theorem useLong_append (name : RawText) (attached : Option RawText) (following : List RawText)
    (st : Progress) :
    useLong name attached (following ++ more) st = useLong name attached following st := by
  have hall : (more.all fun raw => (Utf8.decode? raw).isSome) = true := by
    rw [List.all_eq_true]
    intro raw hraw
    rcases hmore raw hraw with ⟨s, rfl⟩
    rw [Utf8.decode?_ofString]
    rfl
  unfold useLong
  rw [List.all_append, hall, Bool.and_true]

theorem examine_append_of_immediate {failure : Failure} (himmediate : failure.Immediate)
    {arguments : List RawText} {st : Progress} (h : examine st arguments = .error failure) :
    examine st (arguments ++ more) = .error failure := by
  induction arguments generalizing st with
  | nil => exact absurd himmediate (not_immediate_of_settle h)
  | cons raw rest ih =>
      unfold examine at h
      rw [List.cons_append, examine]
      cases hshape : shape raw with
      | separator =>
          rw [hshape] at h
          cases rest with
          | nil => exact absurd himmediate (not_immediate_of_settle h)
          | cons word rest => exact h
      | long name attached =>
          simp only [hshape] at h
          simp only [useLong_append hmore]
          cases huse : useLong name attached rest st with
          | error other => simpa [huse] using h
          | ok next =>
              simp only [huse] at h
              exact ih h
      | cluster flags =>
          simp only [hshape] at h
          cases huse : useCluster flags st with
          | error other => simpa [huse] using h
          | ok next =>
              simp only [huse] at h
              simpa [huse] using ih h
      | word =>
          simp only [hshape] at h
          cases huse : useWord raw st with
          | error other => simpa [huse] using h
          | ok next =>
              simp only [huse] at h
              simpa [huse] using ih h

end

/-!
# Command lines that are continued
-/

section

variable {arguments : List RawText} {environment : Environment} {failure : Failure}

theorem examine_of_immediate (himmediate : failure.Immediate)
    (h : parse arguments environment = .error failure) :
    examine {} arguments.tail = .error failure := by
  cases hexamine : examine {} arguments.tail with
  | error other =>
      rw [parse_of_examine_error hexamine] at h
      cases h
      rfl
  | ok st =>
      rw [parse_of_examine hexamine, map_eq_error_iff] at h
      exact absurd himmediate (not_immediate_of_complete h)

theorem message_append (h : arguments ≠ []) (more : List RawText) :
    failure.message (arguments ++ more) environment = failure.message arguments environment := by
  cases arguments with
  | nil => exact absurd rfl h
  | cons program rest => cases failure <;> rfl

/-- A command line that fails at once fails so however it goes on. -/
theorem verdict_append_of_immediate {v : Verdict} (himmediate : v.failure.Immediate)
    (h : verdict arguments environment = .error v) (more : List String) :
    verdict (arguments ++ more.map Utf8.ofString) environment = .error v := by
  unfold verdict at h
  cases hparse : parse arguments environment with
  | ok settings => simp [hparse] at h
  | error failure =>
      rw [hparse] at h
      cases h
      have hexamine := examine_of_immediate himmediate hparse
      have harguments : arguments ≠ [] := by
        rintro rfl
        exact not_immediate_of_settle hexamine himmediate
      have hmore (raw : RawText) (hraw : raw ∈ more.map Utf8.ofString) : IsText raw := by
        rcases List.mem_map.mp hraw with ⟨s, _, rfl⟩
        exact ⟨s, rfl⟩
      have happend := examine_append_of_immediate hmore himmediate hexamine
      rw [← List.tail_append_of_ne_nil harguments] at happend
      unfold verdict
      rw [parse_of_examine_error happend]
      simp only [message_append harguments]

end

theorem verdict_append_of_stray :
    let arguments := ["/bin/ok-server", "--port", "x", "y"].map Utf8.ofString
    let v : Verdict := {
      failure := .unexpected "y"
      text := "error: unexpected argument 'y' found\n\nUsage: ok-server [OPTIONS]\n\n" ++
        "For more information, try '--help'.\n"
      exitCode := 2
      onStandardError := true }
    v.failure.Immediate ∧ verdict arguments (fun _ => none) = .error v ∧
      verdict (arguments ++ ["--workers=2", "--help"].map Utf8.ofString) (fun _ => none) =
        .error v := by
  intro arguments v
  have himmediate : v.failure.Immediate := Failure.Immediate.unexpected "y"
  have hparse : parse arguments (fun _ => none) = .error v.failure := rfl
  have htext : v.failure.message arguments (fun _ => none) = v.text := by decide +kernel
  have hverdict : verdict arguments (fun _ => none) = .error v := by
    rw [verdict, hparse]
    simp only [htext]
    rfl
  exact ⟨himmediate, hverdict,
    verdict_append_of_immediate himmediate hverdict ["--workers=2", "--help"]⟩

end CommandLine
end ConstantReply
