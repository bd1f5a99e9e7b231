import Mathlib.Data.List.Basic
import ConstantReply.Proofs.CommandLine.Numbers

/-!
# What the environment can do to a command line

The environment is read after the arguments, and only for options that they leave open.  A command
line that fails without it fails in the same way with it; one that succeeds can only be spoiled by a
variable whose value does not belong to its option; and a variable whose option is used is not
looked at.
-/

namespace ConstantReply
namespace CommandLine

open Numeral (Flaw)
open Utf8 (RawText Piece)

/-!
# Options that arguments leave open

Arguments can be read as uses in more than one way, since a value can open with an equals sign, but
each argument that opens a use tells its option and how many arguments belong to it.
-/

def Shape.opening : Shape -> Option (Opt × Nat)
  | .long name attached =>
      (Opt.ofLongName? (Utf8.lossy name)).map fun o =>
        match o, attached with
        | .value p, none => (.value p, 1)
        | o, _ => (o, 0)
  | .cluster (.scalar c :: flags) =>
      (Opt.ofShortName? c).map fun o => (o, if flags = [] then 1 else 0)
  | _ => none

section

variable {c : Char} {p : Parameter}

theorem opening_shortArgument (hshort : p.shortName? = some c) (raw : RawText) :
    (shape (shortArgument c ++ raw)).opening = some (.value p, if raw = [] then 1 else 0) := by
  have hname : Opt.ofShortName? c = some (.value p) := ofShortName?_eq_some_iff.mpr hshort
  rw [shape_shortArgument (shortName_ne_dash hshort)]
  simp only [Shape.opening, hname, Option.map_some]

end

theorem opening_of_spelling {u : Use} {words : List RawText} (h : Spelling u words) :
    exists raw more, words = raw :: more ∧ (shape raw).opening = some (u.opt, more.length) := by
  cases h with
  | noKeepAlive =>
      refine ⟨_, [], rfl, ?_⟩
      rw [shape_longArgument, Shape.opening, ofLongName?_longName]
      rfl
  | @separate p raw _ =>
      refine ⟨_, [raw], rfl, ?_⟩
      rw [shape_longArgument, Shape.opening, ofLongName?_longName]
      rfl
  | attached =>
      refine ⟨_, [], rfl, ?_⟩
      rw [shape_longArgument_attached, Shape.opening, ofLongName?_longName]
      rfl
  | @shortSeparate p raw c hshort _ =>
      refine ⟨_, [raw], rfl, ?_⟩
      have hopening := opening_shortArgument hshort []
      rw [List.append_nil] at hopening
      exact hopening
  | shortAttached hshort hraw =>
      refine ⟨_, [], rfl, ?_⟩
      rw [opening_shortArgument hshort, if_neg hraw]
      rfl
  | shortEquals hshort =>
      refine ⟨_, [], rfl, ?_⟩
      rw [opening_shortArgument hshort, if_neg (List.cons_ne_nil _ _)]
      rfl

theorem opening_dashes : (shape dashes).opening = none := rfl

theorem spelling_inj {u v : Use} {words others rest more : List RawText}
    (hu : Spelling u words) (hv : Spelling v others) (h : words ++ rest = others ++ more) :
    u.opt = v.opt ∧ rest = more := by
  rcases opening_of_spelling hu with ⟨raw, values, rfl, hraw⟩
  rcases opening_of_spelling hv with ⟨raw', values', rfl, hraw'⟩
  rw [List.cons_append, List.cons_append, List.cons.injEq] at h
  rcases h with ⟨rfl, h⟩
  rw [hraw, Option.some.injEq, Prod.mk.injEq] at hraw'
  exact ⟨hraw'.left, (List.append_inj h hraw'.right).right⟩

theorem append_ne_of_spelling {u : Use} {words : List RawText} (h : Spelling u words)
    (rest : List RawText) : words ++ rest ≠ [] ∧ words ++ rest ≠ [dashes] := by
  rcases opening_of_spelling h with ⟨raw, more, rfl, hopening⟩
  refine ⟨List.cons_ne_nil _ _, ?_⟩
  intro hdashes
  rw [List.cons_append, List.cons.injEq] at hdashes
  rw [hdashes.left, opening_dashes] at hopening
  cases hopening

theorem opts_eq_of_spelled {uses others : List Use} {arguments : List RawText}
    (h : Spelled uses arguments) (h' : Spelled others arguments) :
    uses.map Use.opt = others.map Use.opt := by
  induction h generalizing others with
  | nothing =>
      generalize hnil : ([] : List RawText) = arguments at h'
      cases h' with
      | nothing => rfl
      | separator => rfl
      | use hspelling _ => exact absurd hnil.symm (append_ne_of_spelling hspelling _).left
  | separator =>
      generalize hdashes : [dashes] = arguments at h'
      cases h' with
      | nothing => rfl
      | separator => rfl
      | use hspelling _ => exact absurd hdashes.symm (append_ne_of_spelling hspelling _).right
  | @use u uses words rest hspelling _ ih =>
      generalize hwords : words ++ rest = arguments at h'
      cases h' with
      | nothing => exact absurd hwords (append_ne_of_spelling hspelling _).left
      | separator => exact absurd hwords (append_ne_of_spelling hspelling _).right
      | use hspelling' hrest' =>
          rcases spelling_inj hspelling hspelling' hwords with ⟨hopt, rfl⟩
          rw [List.map_cons, List.map_cons, hopt, ih hrest']

def LeavesOpen (arguments : List RawText) (p : Parameter) : Prop :=
  exists uses, Spelled uses arguments ∧ Opt.value p ∉ uses.map Use.opt

theorem leavesOpen_iff {uses : List Use} {arguments : List RawText}
    (h : Spelled uses arguments) (p : Parameter) :
    LeavesOpen arguments p <-> Opt.value p ∉ uses.map Use.opt := by
  constructor
  · intro hopen
    rcases hopen with ⟨others, hothers, hp⟩
    rw [opts_eq_of_spelled h hothers]
    exact hp
  · intro hp
    exact ⟨uses, h, hp⟩

theorem leavesOpen_iff_of_examine {arguments : List RawText} {st : Progress}
    (h : examine {} arguments = .ok st) (p : Parameter) :
    LeavesOpen arguments p <-> Opt.value p ∉ st.used := by
  rcases examine_eq_ok_iff.mp h with ⟨_, uses, hspelled, habsorbs⟩
  have hused : st.used = uses.map Use.opt := opts_of_absorbs habsorbs
  rw [leavesOpen_iff hspelled, hused]

/-!
# Values that do not belong to their option
-/

/-- The failures of reading a value of an option. -/
inductive ValueError : Parameter -> RawText -> Failure -> Prop where
  | notText {p : Parameter} {raw : RawText} :
      p ≠ .logFormat -> (forall s, raw ≠ Utf8.ofString s) -> ValueError p raw .notText
  | badNumber {p : Parameter} {form : NumberForm} {s : String} {problem : Numeral.Problem} :
      p.numbers? = some form -> Flaw form.range form.greatest s.toList problem ->
      ValueError p (Utf8.ofString s) (.badNumber p s problem)
  | badFormat {raw : RawText} :
      (forall f : LogFormat, raw ≠ Utf8.ofString f.name) ->
      ValueError .logFormat raw (.badFormat (Utf8.lossy raw))

theorem ofString_injective {s t : String} (h : Utf8.ofString s = Utf8.ofString t) : s = t := by
  rw [← lossy_ofString s, h, lossy_ofString]

theorem readText_eq_error_iff {raw : RawText} {failure : Failure} :
    readText raw = .error failure <->
      (forall s, raw ≠ Utf8.ofString s) ∧ failure = .notText := by
  constructor
  · intro h
    have hno (s : String) : raw ≠ Utf8.ofString s := by
      intro hs
      rw [readText_eq_ok_iff.mpr hs] at h
      cases h
    refine ⟨hno, ?_⟩
    unfold readText at h
    split at h
    · cases h
    · cases h
      rfl
  · intro hgiven
    rcases hgiven with ⟨hno, rfl⟩
    unfold readText
    split
    · rename_i s hs
      exact absurd (decode?_eq_some_iff.mp hs) (hno s)
    · rfl

theorem readNumber_eq_error_iff {p : Parameter}
    {read : List Char -> Except Numeral.Problem Nat} {raw : RawText} {failure : Failure} :
    readNumber p read raw = .error failure <->
      ((forall s, raw ≠ Utf8.ofString s) ∧ failure = .notText) ∨
        exists s problem, raw = Utf8.ofString s ∧ read s.toList = .error problem ∧
          failure = .badNumber p s problem := by
  by_cases htext : exists s, raw = Utf8.ofString s
  · rcases htext with ⟨s, rfl⟩
    rw [readNumber_ofString]
    constructor
    · intro h
      cases hs : read s.toList with
      | ok n => simp [hs] at h
      | error problem =>
          rw [hs] at h
          cases h
          exact Or.inr ⟨s, problem, rfl, hs, rfl⟩
    · intro hgiven
      rcases hgiven with ⟨hno, _⟩ | ⟨t, problem, ht, hproblem, rfl⟩
      · exact absurd rfl (hno s)
      · rw [ofString_injective ht, hproblem]
  · have hno (s : String) : raw ≠ Utf8.ofString s := fun hs => htext ⟨s, hs⟩
    have hread : readNumber p read raw = .error .notText := by
      rw [readNumber, readText_eq_error_iff.mpr ⟨hno, rfl⟩]
    rw [hread]
    constructor
    · intro h
      cases h
      exact Or.inl ⟨hno, rfl⟩
    · intro hgiven
      rcases hgiven with ⟨_, rfl⟩ | ⟨s, _, hs, _⟩
      · rfl
      · exact absurd hs (hno s)

theorem readFormat_eq_error_iff {raw : RawText} {failure : Failure} :
    readFormat raw = .error failure <->
      (forall f : LogFormat, raw ≠ Utf8.ofString f.name) ∧
        failure = .badFormat (Utf8.lossy raw) := by
  constructor
  · intro h
    have hno (f : LogFormat) : raw ≠ Utf8.ofString f.name := by
      intro hf
      rw [readFormat_eq_ok_iff.mpr hf] at h
      cases h
    refine ⟨hno, ?_⟩
    unfold readFormat at h
    split at h
    · cases h
    · cases h
      rfl
  · intro hgiven
    rcases hgiven with ⟨hno, rfl⟩
    cases hread : readFormat raw with
    | ok f => exact absurd (readFormat_eq_ok_iff.mp hread) (hno f)
    | error failure =>
        unfold readFormat at hread
        split at hread
        · cases hread
        · cases hread
          rfl

section

variable {p : Parameter} {raw : RawText} {failure : Failure}

theorem valueError_iff_of_text (hp : p ≠ .logFormat) (hnumbers : p.numbers? = none) :
    ValueError p raw failure <-> (forall s, raw ≠ Utf8.ofString s) ∧ failure = .notText := by
  constructor
  · intro h
    cases h with
    | notText _ hno => exact ⟨hno, rfl⟩
    | badNumber hform _ =>
        rw [hnumbers] at hform
        cases hform
    | badFormat _ => exact absurd rfl hp
  · intro hgiven
    rcases hgiven with ⟨hno, rfl⟩
    exact ValueError.notText hp hno

theorem valueError_iff_of_numbers {form : NumberForm}
    {read : List Char -> Except Numeral.Problem Nat}
    (hnumbers : p.numbers? = some form)
    (herror : forall cs problem, read cs = .error problem <->
      Flaw form.range form.greatest cs problem) :
    ValueError p raw failure <-> readNumber p read raw = .error failure := by
  have hp : p ≠ .logFormat := by
    intro hp
    rw [hp] at hnumbers
    cases hnumbers
  rw [readNumber_eq_error_iff]
  constructor
  · intro h
    cases h with
    | notText _ hno => exact Or.inl ⟨hno, rfl⟩
    | @badNumber _ _ s problem hform hflaw =>
        rw [hnumbers] at hform
        cases hform
        exact Or.inr ⟨s, problem, rfl, (herror _ _).mpr hflaw, rfl⟩
    | badFormat _ => exact absurd rfl hp
  · intro hgiven
    rcases hgiven with ⟨hno, rfl⟩ | ⟨s, problem, rfl, hproblem, rfl⟩
    · exact ValueError.notText hp hno
    · exact ValueError.badNumber hnumbers ((herror _ _).mp hproblem)

theorem read_eq_error_iff : p.read raw = .error failure <-> ValueError p raw failure := by
  cases p with
  | host =>
      rw [valueError_iff_of_text (by decide) rfl]
      exact readText_eq_error_iff
  | logLevel =>
      rw [valueError_iff_of_text (by decide) rfl]
      exact readText_eq_error_iff
  | logFormat =>
      apply Iff.trans readFormat_eq_error_iff
      constructor
      · intro hgiven
        rcases hgiven with ⟨hno, rfl⟩
        exact ValueError.badFormat hno
      · intro h
        cases h with
        | notText hp _ => exact absurd rfl hp
        | badNumber hform _ => cases hform
        | badFormat hno => exact ⟨hno, rfl⟩
  | port =>
      rw [valueError_iff_of_numbers rfl (fun _ _ => Numeral.readUpTo_eq_error_iff)]
      exact map_eq_error_iff
  | backlog =>
      rw [valueError_iff_of_numbers rfl (fun _ _ => Numeral.readUpTo_eq_error_iff)]
      exact map_eq_error_iff
  | maxConnections =>
      rw [valueError_iff_of_numbers rfl (fun _ _ => Numeral.readWord_eq_error_iff)]
      exact map_eq_error_iff
  | workers =>
      rw [valueError_iff_of_numbers rfl (fun _ _ => Numeral.readWord_eq_error_iff)]
      exact map_eq_error_iff
  | headTimeout =>
      rw [valueError_iff_of_numbers rfl (fun _ _ => Numeral.readWord_eq_error_iff)]
      exact map_eq_error_iff
  | drainTimeout =>
      rw [valueError_iff_of_numbers rfl (fun _ _ => Numeral.readWord_eq_error_iff)]
      exact map_eq_error_iff

theorem assign_eq_error_iff {st : Progress} :
    st.assign p raw = .error failure <->
      Opt.value p ∈ st.used ∧ failure = .repeated (.value p) ∨
        Opt.value p ∉ st.used ∧ ValueError p raw failure := by
  unfold Progress.assign
  rw [← read_eq_error_iff]
  by_cases hused : Opt.value p ∈ st.used
  · simp [hused, eq_comm]
  · cases hread : p.read raw <;> simp [hused]

theorem settle_eq_error_iff {st : Progress} :
    st.settle = .error failure <->
      (exists p, st.pending = .awaiting p ∧ failure = .missingValue p) ∨
        exists p raw, st.pending = .holding p raw ∧ st.assign p raw = .error failure := by
  unfold Progress.settle
  cases st.pending with
  | nothing => simp
  | awaiting p => simp [eq_comm]
  | holding p raw => simp

end

/-!
# Reading the environment
-/

def refusal? (environment : Environment) (used : List Opt) (p : Parameter) : Option Failure :=
  if Opt.value p ∈ used then none
  else
    match fromEnvironment environment p with
    | none => none
    | some raw =>
        match p.read raw with
        | .error failure => some failure
        | .ok _ => none

theorem refusal?_eq_some_iff {environment : Environment} {used : List Opt} {p : Parameter}
    {failure : Failure} :
    refusal? environment used p = some failure <->
      Opt.value p ∉ used ∧ exists raw, fromEnvironment environment p = some raw ∧
        ValueError p raw failure := by
  unfold refusal?
  by_cases hused : Opt.value p ∈ used
  · simp [hused]
  · cases henv : fromEnvironment environment p with
    | none => simp [hused]
    | some raw =>
        cases hread : p.read raw with
        | error problem => simp [hused, hread, ← read_eq_error_iff]
        | ok v => simp [hused, hread, ← read_eq_error_iff]

theorem refusal?_append_of_ne {environment : Environment} {used : List Opt} {p q : Parameter}
    (h : q ≠ p) :
    refusal? environment (used ++ [.value p]) q = refusal? environment used q := by
  have hq : Opt.value q ∈ used ++ [.value p] <-> Opt.value q ∈ used := by simp [h]
  simp only [refusal?, hq]

theorem used_append (settled : List Occurrence) (o : Occurrence) :
    Progress.used ⟨settled ++ [o], .nothing⟩ = settled.map Occurrence.opt ++ [o.opt] := by
  rw [Progress.used, List.map_append, List.map_singleton]

theorem complete_eq_error_iff {environment : Environment} {failure : Failure}
    {ps : List Parameter} (hps : ps.Nodup) (st : Progress) :
    complete environment ps st = .error failure <->
      ps.findSome? (refusal? environment st.used) = some failure := by
  induction ps generalizing st with
  | nil => simp [complete]
  | cons p rest ih =>
      rw [List.nodup_cons] at hps
      rw [List.findSome?_cons]
      by_cases hused : Opt.value p ∈ st.used
      · have hnone : refusal? environment st.used p = none := if_pos hused
        rw [complete_cons_of_used hused, hnone]
        exact ih hps.right st
      · cases henv : fromEnvironment environment p with
        | none =>
            have hnone : refusal? environment st.used p = none := by simp [refusal?, henv]
            rw [complete_cons_of_none hused henv, hnone]
            exact ih hps.right st
        | some raw =>
            cases hread : p.read raw with
            | error problem =>
                have hsome : refusal? environment st.used p = some problem := by
                  simp [refusal?, hused, henv, hread]
                simp [complete, hused, henv, Progress.assign, hread, hsome]
            | ok v =>
                have hnone : refusal? environment st.used p = none := by
                  simp [refusal?, henv, hread]
                have hrest : rest.findSome? (refusal? environment (st.used ++ [.value p])) =
                    rest.findSome? (refusal? environment st.used) := by
                  rw [← List.head?_filterMap, ← List.head?_filterMap]
                  apply congrArg List.head? (List.filterMap_congr _)
                  intro q hq
                  apply refusal?_append_of_ne
                  rintro rfl
                  exact hps.left hq
                have hnext := ih hps.right ⟨st.settled ++ [.value ⟨p, v⟩], .nothing⟩
                rw [used_append] at hnext
                simp only [complete, if_neg hused, henv, Progress.assign, hread, hnone]
                rw [← hrest]
                exact hnext

theorem valueError_of_complete {environment : Environment} {failure : Failure} {st : Progress}
    (h : complete environment environmentParameters st = .error failure) :
    exists p raw, Opt.value p ∉ st.used ∧ fromEnvironment environment p = some raw ∧
      ValueError p raw failure := by
  have hfirst := (complete_eq_error_iff (by decide) st).mp h
  rcases List.exists_of_findSome?_eq_some hfirst with ⟨p, _, hp⟩
  rcases refusal?_eq_some_iff.mp hp with ⟨hused, raw, hraw, hvalue⟩
  exact ⟨p, raw, hused, hraw, hvalue⟩

theorem complete_congr {e e' : Environment} {ps : List Parameter} (st : Progress)
    (h : forall p, p ∈ ps -> Opt.value p ∉ st.used ->
      fromEnvironment e p = fromEnvironment e' p) :
    complete e ps st = complete e' ps st := by
  induction ps generalizing st with
  | nil => rfl
  | cons p rest ih =>
      by_cases hused : Opt.value p ∈ st.used
      · rw [complete_cons_of_used hused, complete_cons_of_used hused]
        exact ih st fun q hq => h q (List.mem_cons_of_mem p hq)
      · have hp := h p List.mem_cons_self hused
        have hrest (q : Parameter) (hq : q ∈ rest) := h q (List.mem_cons_of_mem p hq)
        cases henv : fromEnvironment e' p with
        | none =>
            rw [henv] at hp
            rw [complete_cons_of_none hused hp, complete_cons_of_none hused henv]
            exact ih st hrest
        | some raw =>
            rw [henv] at hp
            simp only [complete, if_neg hused, henv, hp, Progress.assign]
            cases p.read raw with
            | error failure => rfl
            | ok v =>
                apply ih
                intro q hq hnew
                apply hrest q hq
                intro hold
                rw [used_append] at hnew
                exact hnew (List.mem_append_left _ hold)

/-!
# Command lines in their environment
-/

section

variable {arguments : List RawText} {environment : Environment}

theorem parse_of_examine_error {failure : Failure}
    (h : examine {} arguments.tail = .error failure) :
    parse arguments environment = .error failure := by
  simp only [parse, interpret, h]

theorem parse_of_examine {st : Progress} (h : examine {} arguments.tail = .ok st) :
    parse arguments environment =
      (complete environment environmentParameters st).map fun st => overlay st.settled := by
  simp only [parse, interpret, h]
  cases complete environment environmentParameters st <;> rfl

theorem parse_of_unset {st : Progress} (hunset : Unset environment)
    (h : examine {} arguments.tail = .ok st) :
    parse arguments environment = .ok (overlay st.settled) := by
  rw [parse_of_examine h, complete_of_unset hunset]
  rfl

end

theorem message_eq_of_isMisuse {failure : Failure} (h : failure.isMisuse = true)
    (arguments : List RawText) (e e' : Environment) :
    failure.message arguments e = failure.message arguments e' := by
  cases failure with
  | help full => cases h
  | _ => rfl

def Spoiled (environment : Environment) (arguments : List RawText) (p : Parameter) : Prop :=
  LeavesOpen arguments p ∧ exists raw, fromEnvironment environment p = some raw ∧
    forall v, ¬ p.Denotes raw v

structure FirstSpoiled (environment : Environment) (arguments : List RawText) (p : Parameter)
    (raw : RawText) : Prop where
  leftOpen : LeavesOpen arguments p
  held : fromEnvironment environment p = some raw
  foreign : forall v, ¬ p.Denotes raw v
  earlier : exists front rest, environmentParameters = front ++ p :: rest ∧
    forall q, q ∈ front -> ¬ Spoiled environment arguments q

theorem exists_valueError_iff {p : Parameter} {raw : RawText} :
    (exists failure, ValueError p raw failure) <-> forall v, ¬ p.Denotes raw v := by
  simp only [← read_eq_error_iff, ← read_eq_ok_iff]
  cases p.read raw <;> simp

section

variable {environment : Environment} {arguments : List RawText} {st : Progress}

theorem refusal?_eq_none_iff (h : examine {} arguments = .ok st) (p : Parameter) :
    refusal? environment st.used p = none <-> ¬ Spoiled environment arguments p := by
  rw [← Option.not_isSome_iff_eq_none, Option.isSome_iff_exists]
  apply not_congr
  simp only [refusal?_eq_some_iff, Spoiled, leavesOpen_iff_of_examine h, exists_and_left,
    ← exists_valueError_iff]
  constructor
  · intro hgiven
    rcases hgiven with ⟨hused, failure, raw, hraw, hfailure⟩
    exact ⟨hused, raw, hraw, failure, hfailure⟩
  · intro hgiven
    rcases hgiven with ⟨hused, raw, hraw, failure, hfailure⟩
    exact ⟨hused, failure, raw, hraw, hfailure⟩

theorem exists_firstSpoiled_of_findSome? {failure : Failure} (h : examine {} arguments = .ok st)
    (hfailure : environmentParameters.findSome? (refusal? environment st.used) = some failure) :
    exists p raw, FirstSpoiled environment arguments p raw ∧ ValueError p raw failure := by
  rcases List.findSome?_eq_some_iff.mp hfailure with ⟨front, p, rest, hsplit, hp, hfront⟩
  rcases refusal?_eq_some_iff.mp hp with ⟨hused, raw, hraw, herror⟩
  refine ⟨p, raw, ⟨?_, hraw, exists_valueError_iff.mp ⟨failure, herror⟩, ?_⟩, herror⟩
  · exact (leavesOpen_iff_of_examine h p).mpr hused
  · exact ⟨front, rest, hsplit, fun q hq => (refusal?_eq_none_iff h q).mp (hfront q hq)⟩

theorem not_spoiled_of_findSome? (h : examine {} arguments = .ok st)
    (hnone : environmentParameters.findSome? (refusal? environment st.used) = none)
    (p : Parameter) : ¬ Spoiled environment arguments p := by
  intro hspoiled
  rcases hspoiled with ⟨hopen, raw, hraw, hforeign⟩
  have hp := List.findSome?_eq_none_iff.mp hnone p (mem_environmentParameters hraw)
  exact (refusal?_eq_none_iff h p).mp hp ⟨hopen, raw, hraw, hforeign⟩

end

theorem environmentName?_inj {p q : Parameter} {name : String}
    (hp : p.environmentName? = some name) (hq : q.environmentName? = some name) : p = q := by
  cases p <;> cases hp <;> cases q <;> revert hq <;> decide

theorem fromEnvironment_congr {p : Parameter} {e e' : Environment}
    (h : forall name, p.environmentName? ≠ some name -> e name = e' name) {q : Parameter}
    (hq : q ≠ p) : fromEnvironment e q = fromEnvironment e' q := by
  unfold fromEnvironment
  cases hname : q.environmentName? with
  | none => rfl
  | some name =>
      apply h
      intro hp
      exact hq (environmentName?_inj hname hp)

/-- How far the environment reaches into the reading of a command line. -/
structure Insulated (arguments : List RawText) : Prop where
  refused : forall bare failure, Unset bare -> parse arguments bare = .error failure ->
    forall environment, parse arguments environment = .error failure ∧
      (failure.isMisuse = true ->
        failure.message arguments environment = failure.message arguments bare)
  carriedOut : forall other settings, parse arguments other = .ok settings ->
    forall environment,
      ((exists settings, parse arguments environment = .ok settings) ∧
        forall p, ¬ Spoiled environment arguments.tail p) ∨
      exists p raw failure, FirstSpoiled environment arguments.tail p raw ∧
        ValueError p raw failure ∧ parse arguments environment = .error failure
  used : forall p e e', ¬ LeavesOpen arguments.tail p ->
    (forall name, p.environmentName? ≠ some name -> e name = e' name) ->
    parse arguments e = parse arguments e' ∧
      forall failure : Failure, failure.isMisuse = true ->
        failure.message arguments e = failure.message arguments e'

theorem insulated (arguments : List RawText) : Insulated arguments where
  refused := by
    intro bare failure hbare hparse environment
    refine ⟨?_, fun hmisuse => message_eq_of_isMisuse hmisuse _ _ _⟩
    cases hexamine : examine {} arguments.tail with
    | ok st =>
        rw [parse_of_unset hbare hexamine] at hparse
        cases hparse
    | error other =>
        rw [parse_of_examine_error hexamine] at hparse ⊢
        exact hparse
  carriedOut := by
    intro other settings hparse environment
    cases hexamine : examine {} arguments.tail with
    | error failure =>
        rw [parse_of_examine_error hexamine] at hparse
        cases hparse
    | ok st =>
        rw [parse_of_examine hexamine]
        have herror (failure : Failure) :
            complete environment environmentParameters st = .error failure <->
              environmentParameters.findSome? (refusal? environment st.used) = some failure :=
          complete_eq_error_iff (by decide) st
        cases hcomplete : complete environment environmentParameters st with
        | error failure =>
            rcases exists_firstSpoiled_of_findSome? hexamine ((herror failure).mp hcomplete) with
              ⟨p, raw, hfirst, hvalue⟩
            exact Or.inr ⟨p, raw, failure, hfirst, hvalue, rfl⟩
        | ok final =>
            refine Or.inl ⟨⟨overlay final.settled, rfl⟩, ?_⟩
            apply not_spoiled_of_findSome? hexamine
            rw [Option.eq_none_iff_forall_ne_some]
            intro failure hfailure
            rw [(herror failure).mpr hfailure] at hcomplete
            cases hcomplete
  used := by
    intro p e e' hp hsame
    refine ⟨?_, fun failure hmisuse => message_eq_of_isMisuse hmisuse _ _ _⟩
    cases hexamine : examine {} arguments.tail with
    | error failure =>
        rw [parse_of_examine_error hexamine, parse_of_examine_error hexamine]
    | ok st =>
        rw [parse_of_examine hexamine, parse_of_examine hexamine, complete_congr st]
        intro q _ hq
        apply fromEnvironment_congr hsame
        rintro rfl
        exact hp ((leavesOpen_iff_of_examine hexamine q).mpr hq)

end CommandLine
end ConstantReply
