import ConstantReply.Proofs.CommandLine.Grammar
import ConstantReply.Proofs.CommandLine.Values

/-!
# Examining arguments against the grammar

Arguments are examined from left to right with an option pending, while the grammar speaks of whole
uses.  The two are brought together by what a pending option still lacks: examination succeeds if
and only if the rest of the arguments completes it and then spells uses that can all be read.
-/

namespace ConstantReply
namespace CommandLine

open Utf8 (RawText Piece)

/-!
# Uses that are read

Uses are absorbed one at a time.  Each must be of an option that is not settled yet.
-/

/-- A use and what is settled when its value is read. -/
inductive Reads : Use -> Occurrence -> Prop where
  | value {p : Parameter} {raw : RawText} {v : p.Value} :
      p.Denotes raw v -> Reads (.value p raw) (.value ⟨p, v⟩)
  | noKeepAlive : Reads .noKeepAlive .noKeepAlive

inductive Absorbs : List Occurrence -> List Use -> List Occurrence -> Prop where
  | nothing (settled : List Occurrence) : Absorbs settled [] settled
  | use {settled final : List Occurrence} {u : Use} {o : Occurrence} {uses : List Use} :
      u.opt ∉ settled.map Occurrence.opt -> Reads u o ->
      Absorbs (settled ++ [o]) uses final -> Absorbs settled (u :: uses) final

theorem opt_eq_of_reads {u : Use} {o : Occurrence} (h : Reads u o) : o.opt = u.opt := by
  cases h <;> rfl

theorem absorbs_append_iff {settled final : List Occurrence} {uses more : List Use} :
    Absorbs settled (uses ++ more) final <->
      exists between, Absorbs settled uses between ∧ Absorbs between more final := by
  induction uses generalizing settled with
  | nil =>
      constructor
      · intro h
        exact ⟨settled, Absorbs.nothing settled, h⟩
      · intro hgiven
        rcases hgiven with ⟨between, huses, hmore⟩
        cases huses
        exact hmore
  | cons u rest ih =>
      constructor
      · intro h
        cases h with
        | use hnew hreads hrest =>
            rcases ih.mp hrest with ⟨between, huses, hmore⟩
            exact ⟨between, Absorbs.use hnew hreads huses, hmore⟩
      · intro hgiven
        rcases hgiven with ⟨between, huses, hmore⟩
        cases huses with
        | use hnew hreads hrest =>
            exact Absorbs.use hnew hreads (ih.mpr ⟨between, hrest, hmore⟩)

/-!
# Pending options
-/

def Pending.held : Pending -> List Use
  | .holding p raw => [.value p raw]
  | _ => []

def Pending.Complete : Pending -> Prop
  | .awaiting _ => False
  | _ => True

/-- Arguments that complete what is pending and then spell uses. -/
inductive Continues : Pending -> List Use -> List RawText -> Prop where
  | nothing {uses : List Use} {arguments : List RawText} :
      Spelled uses arguments -> Continues .nothing uses arguments
  | awaiting {p : Parameter} {raw : RawText} {uses : List Use} {rest : List RawText} :
      Separable raw -> Spelled uses rest ->
      Continues (.awaiting p) (.value p raw :: uses) (raw :: rest)
  | holding {p : Parameter} {raw : RawText} {uses : List Use} {arguments : List RawText} :
      Spelled uses arguments ->
      Continues (.holding p raw) (.value p raw :: uses) arguments

theorem continues_of_complete {pending : Pending} {uses : List Use}
    {arguments : List RawText} (hpending : pending.Complete)
    (h : Spelled uses arguments) : Continues pending (pending.held ++ uses) arguments := by
  cases pending with
  | nothing => exact Continues.nothing h
  | awaiting p => cases hpending
  | holding p raw => exact Continues.holding h

theorem assign_eq_ok_iff {p : Parameter} {raw : RawText} {st st' : Progress} :
    st.assign p raw = .ok st' <->
      Absorbs st.settled [.value p raw] st'.settled ∧ st'.pending = .nothing := by
  unfold Progress.assign
  by_cases hused : Opt.value p ∈ st.used
  · rw [if_pos hused]
    constructor
    · intro h
      cases h
    · intro hgiven
      rcases hgiven with ⟨habsorbs, _⟩
      cases habsorbs with
      | use hnew _ _ => exact absurd hused hnew
  · rw [if_neg hused]
    constructor
    · intro h
      cases hread : p.read raw with
      | error failure =>
          rw [hread] at h
          cases h
      | ok v =>
          rw [hread] at h
          cases h
          exact ⟨Absorbs.use hused (Reads.value (read_eq_ok_iff.mp hread))
            (Absorbs.nothing _), rfl⟩
    · intro hgiven
      rcases hgiven with ⟨habsorbs, hpending⟩
      cases habsorbs with
      | use _ hreads hrest =>
          cases hreads with
          | value hden =>
              rw [read_eq_ok_iff.mpr hden]
              cases st' with
              | mk settled pending =>
                  cases hpending
                  cases hrest
                  rfl

theorem settle_eq_ok_iff {st st' : Progress} :
    st.settle = .ok st' <->
      st.pending.Complete ∧ Absorbs st.settled st.pending.held st'.settled ∧
        st'.pending = .nothing := by
  cases st with
  | mk settled pending =>
      cases pending with
      | nothing =>
          constructor
          · intro h
            cases h
            exact ⟨True.intro, Absorbs.nothing settled, rfl⟩
          · intro hgiven
            rcases hgiven with ⟨_, habsorbs, hpending⟩
            cases st' with
            | mk settled' pending' =>
                cases habsorbs
                cases hpending
                rfl
      | awaiting p =>
          constructor
          · intro h
            cases h
          · intro hgiven
            rcases hgiven with ⟨hcomplete, _⟩
            cases hcomplete
      | holding p raw =>
          apply Iff.trans assign_eq_ok_iff
          simp [Pending.Complete, Pending.held]

/-!
# Using options
-/

theorem useSwitch_noKeepAlive_eq_ok_iff {full : Bool} {st st' : Progress} :
    useSwitch .noKeepAlive full st = .ok st' <->
      st.pending.Complete ∧
        Absorbs st.settled (st.pending.held ++ [.noKeepAlive]) st'.settled ∧
        st'.pending = .nothing := by
  unfold useSwitch
  constructor
  · intro h
    cases hsettle : st.settle with
    | error failure =>
        rw [hsettle] at h
        cases h
    | ok between =>
        rcases settle_eq_ok_iff.mp hsettle with ⟨hcomplete, habsorbs, _⟩
        by_cases hused : Opt.noKeepAlive ∈ between.used
        · simp [hsettle, hused] at h
        · simp only [hsettle, if_neg hused] at h
          cases h
          exact ⟨hcomplete, absorbs_append_iff.mpr ⟨between.settled, habsorbs,
            Absorbs.use hused Reads.noKeepAlive (Absorbs.nothing _)⟩, rfl⟩
  · intro hgiven
    rcases hgiven with ⟨hcomplete, habsorbs, hpending⟩
    rcases absorbs_append_iff.mp habsorbs with ⟨between, hheld, hswitch⟩
    have hsettle : st.settle = .ok ⟨between, .nothing⟩ :=
      settle_eq_ok_iff.mpr ⟨hcomplete, hheld, rfl⟩
    cases hswitch with
    | use hnew hreads hrest =>
        cases hreads
        have hused : Opt.noKeepAlive ∉ Progress.used ⟨between, .nothing⟩ := hnew
        simp only [hsettle, if_neg hused]
        cases st' with
        | mk settled pending =>
            cases hpending
            cases hrest
            rfl

theorem useSwitch_help_ne_ok {full : Bool} {st st' : Progress} :
    useSwitch .help full st ≠ .ok st' := by
  intro h
  unfold useSwitch at h
  cases hsettle : st.settle with
  | error failure => simp [hsettle] at h
  | ok between => simp [hsettle] at h

theorem useParameter_some_eq_ok_iff {p : Parameter} {raw : RawText} {st st' : Progress} :
    useParameter p (some raw) st = .ok st' <->
      st.pending.Complete ∧
        Absorbs st.settled (st.pending.held ++ [.value p raw]) st'.settled ∧
        st'.pending = .nothing := by
  unfold useParameter
  constructor
  · intro h
    cases hsettle : st.settle with
    | error failure =>
        rw [hsettle] at h
        cases h
    | ok between =>
        rw [hsettle] at h
        rcases settle_eq_ok_iff.mp hsettle with ⟨hcomplete, hheld, _⟩
        rcases assign_eq_ok_iff.mp h with ⟨hvalue, hpending⟩
        exact ⟨hcomplete, absorbs_append_iff.mpr ⟨between.settled, hheld, hvalue⟩, hpending⟩
  · intro hgiven
    rcases hgiven with ⟨hcomplete, habsorbs, hpending⟩
    rcases absorbs_append_iff.mp habsorbs with ⟨between, hheld, hvalue⟩
    have hsettle : st.settle = .ok ⟨between, .nothing⟩ :=
      settle_eq_ok_iff.mpr ⟨hcomplete, hheld, rfl⟩
    rw [hsettle]
    exact assign_eq_ok_iff.mpr ⟨hvalue, hpending⟩

theorem useParameter_none_eq_ok_iff {p : Parameter} {st st' : Progress} :
    useParameter p none st = .ok st' <->
      st.pending.Complete ∧ Absorbs st.settled st.pending.held st'.settled ∧
        st'.pending = .awaiting p := by
  unfold useParameter
  constructor
  · intro h
    cases hsettle : st.settle with
    | error failure =>
        rw [hsettle] at h
        cases h
    | ok between =>
        rw [hsettle] at h
        cases h
        rcases settle_eq_ok_iff.mp hsettle with ⟨hcomplete, hheld, _⟩
        exact ⟨hcomplete, hheld, rfl⟩
  · intro hgiven
    rcases hgiven with ⟨hcomplete, hheld, hpending⟩
    have hsettle : st.settle = .ok ⟨st'.settled, .nothing⟩ :=
      settle_eq_ok_iff.mpr ⟨hcomplete, hheld, rfl⟩
    rw [hsettle]
    cases st' with
    | mk settled pending =>
        cases hpending
        rfl

/-!
# One argument

An argument that names an option either spells a whole use or leaves a value to the next argument.
-/

/-- What an argument that names an option leads to. -/
inductive Advances (st : Progress) (raw : RawText) (next : Progress) : Prop where
  | whole (u : Use) :
      Spelling u [raw] -> Absorbs st.settled (st.pending.held ++ [u]) next.settled ->
      next.pending = .nothing -> Advances st raw next
  | opened (p : Parameter) :
      (forall v, Separable v -> Spelling (.value p v) [raw, v]) ->
      Absorbs st.settled st.pending.held next.settled ->
      next.pending = .awaiting p -> Advances st raw next

theorem advances_of_useLong {raw name : RawText} {attached : Option RawText}
    {following : List RawText} {st next : Progress} (hshape : shape raw = .long name attached)
    (h : useLong name attached following st = .ok next) :
    st.pending.Complete ∧ Advances st raw next := by
  have hraw := shape_describes raw
  rw [hshape] at hraw
  unfold useLong at h
  cases hname : Opt.ofLongName? (Utf8.lossy name) with
  | none =>
      simp only [hname] at h
      split at h <;> cases h
  | some o =>
      have hlong := eq_ofString_of_ofLongName? hname
      subst hlong
      cases o with
      | value p =>
          simp only [hname] at h
          cases attached with
          | none =>
              rcases useParameter_none_eq_ok_iff.mp h with ⟨hcomplete, hheld, hpending⟩
              refine ⟨hcomplete, Advances.opened p ?_ hheld hpending⟩
              intro v hv
              rw [show raw = longArgument (.value p) from hraw]
              exact Spelling.separate hv
          | some v =>
              rcases useParameter_some_eq_ok_iff.mp h with ⟨hcomplete, hvalue, hpending⟩
              refine ⟨hcomplete, Advances.whole (.value p v) ?_ hvalue hpending⟩
              rw [show raw = longArgument (.value p) ++ equalsSign :: v from hraw]
              exact Spelling.attached
      | noKeepAlive =>
          simp only [hname] at h
          cases attached with
          | none =>
              rcases useSwitch_noKeepAlive_eq_ok_iff.mp h with ⟨hcomplete, hswitch, hpending⟩
              refine ⟨hcomplete, Advances.whole .noKeepAlive ?_ hswitch hpending⟩
              rw [show raw = longArgument .noKeepAlive from hraw]
              exact Spelling.noKeepAlive
          | some v => cases h
      | help =>
          simp only [hname] at h
          cases attached with
          | none => exact absurd h useSwitch_help_ne_ok
          | some v => cases h

theorem advances_of_useCluster {raw flags : RawText} {st next : Progress}
    (hshape : shape raw = .cluster flags) (h : useCluster flags st = .ok next) :
    st.pending.Complete ∧ Advances st raw next := by
  have hraw := shape_describes raw
  rw [hshape] at hraw
  rcases hraw with ⟨hraw, hflags⟩
  subst hraw
  cases flags with
  | nil => exact absurd rfl hflags
  | cons piece rest =>
      cases piece with
      | ill bytes => cases h
      | scalar c =>
          unfold useCluster at h
          cases hname : Opt.ofShortName? c with
          | none => simp [hname] at h
          | some o =>
              have hshort := ofShortName?_eq_some_iff.mp hname
              cases o with
              | noKeepAlive => cases hshort
              | help =>
                  simp only [hname] at h
                  cases hswitch : useSwitch .help false st with
                  | error failure => simp [hswitch] at h
                  | ok between => exact absurd hswitch useSwitch_help_ne_ok
              | value p =>
                  simp only [hname] at h
                  cases rest with
                  | nil =>
                      rcases useParameter_none_eq_ok_iff.mp h with
                        ⟨hcomplete, hheld, hpending⟩
                      exact ⟨hcomplete, Advances.opened p
                        (fun v hv => Spelling.shortSeparate hshort hv) hheld hpending⟩
                  | cons piece rest =>
                      by_cases hpiece : piece = .scalar '='
                      · subst hpiece
                        rcases useParameter_some_eq_ok_iff.mp h with
                          ⟨hcomplete, hvalue, hpending⟩
                        exact ⟨hcomplete, Advances.whole (.value p rest)
                          (Spelling.shortEquals hshort) hvalue hpending⟩
                      · simp only [clusterValue, if_neg hpiece] at h
                        rcases useParameter_some_eq_ok_iff.mp h with
                          ⟨hcomplete, hvalue, hpending⟩
                        exact ⟨hcomplete, Advances.whole (.value p (piece :: rest))
                          (Spelling.shortAttached hshort (List.cons_ne_nil _ _)) hvalue
                          hpending⟩

theorem continues_of_advances {st next : Progress} {raw : RawText} {uses : List Use}
    {rest : List RawText} {final : List Occurrence} (hcomplete : st.pending.Complete)
    (hadvances : Advances st raw next) (hcontinues : Continues next.pending uses rest)
    (habsorbs : Absorbs next.settled uses final) :
    exists more, Continues st.pending more (raw :: rest) ∧ Absorbs st.settled more final := by
  cases hadvances with
  | whole u hspelling hheld hpending =>
      rw [hpending] at hcontinues
      cases hcontinues with
      | nothing hspelled =>
          refine ⟨st.pending.held ++ u :: uses, ?_, ?_⟩
          · exact continues_of_complete hcomplete (Spelled.use hspelling hspelled)
          · rw [List.append_cons]
            exact absorbs_append_iff.mpr ⟨next.settled, hheld, habsorbs⟩
  | opened p hspelling hheld hpending =>
      rw [hpending] at hcontinues
      cases hcontinues with
      | awaiting hseparable hspelled =>
          rename_i v uses rest
          refine ⟨st.pending.held ++ .value p v :: uses, ?_, ?_⟩
          · exact continues_of_complete hcomplete
              (Spelled.use (hspelling v hseparable) hspelled)
          · exact absorbs_append_iff.mpr ⟨next.settled, hheld, habsorbs⟩

/-!
# All arguments
-/

theorem continues_of_examine {arguments : List RawText} {st final : Progress}
    (h : examine st arguments = .ok final) :
    final.pending = .nothing ∧
      exists uses, Continues st.pending uses arguments ∧
        Absorbs st.settled uses final.settled := by
  induction arguments generalizing st with
  | nil =>
      rcases settle_eq_ok_iff.mp h with ⟨hcomplete, hheld, hpending⟩
      refine ⟨hpending, st.pending.held, ?_, hheld⟩
      simpa using continues_of_complete hcomplete Spelled.nothing
  | cons raw rest ih =>
      unfold examine at h
      cases hshape : shape raw with
      | separator =>
          simp only [hshape] at h
          cases rest with
          | cons next more => cases h
          | nil =>
              have hraw := shape_describes raw
              rw [hshape] at hraw
              rcases settle_eq_ok_iff.mp h with ⟨hcomplete, hheld, hpending⟩
              refine ⟨hpending, st.pending.held, ?_, hheld⟩
              rw [show raw = dashes from hraw]
              simpa using continues_of_complete hcomplete Spelled.separator
      | long name attached =>
          simp only [hshape] at h
          cases huse : useLong name attached rest st with
          | error failure => simp [huse] at h
          | ok next =>
              simp only [huse] at h
              rcases ih h with ⟨hpending, uses, hcontinues, habsorbs⟩
              rcases advances_of_useLong hshape huse with ⟨hcomplete, hadvances⟩
              exact ⟨hpending,
                continues_of_advances hcomplete hadvances hcontinues habsorbs⟩
      | cluster flags =>
          simp only [hshape] at h
          cases huse : useCluster flags st with
          | error failure => simp [huse] at h
          | ok next =>
              simp only [huse] at h
              rcases ih h with ⟨hpending, uses, hcontinues, habsorbs⟩
              rcases advances_of_useCluster hshape huse with ⟨hcomplete, hadvances⟩
              exact ⟨hpending,
                continues_of_advances hcomplete hadvances hcontinues habsorbs⟩
      | word =>
          have hseparable := shape_describes raw
          rw [hshape] at hseparable
          simp only [hshape] at h
          cases st with
          | mk settled pending =>
              cases pending with
              | nothing => cases h
              | holding p held => cases h
              | awaiting p =>
                  rcases ih h with ⟨hpending, uses, hcontinues, habsorbs⟩
                  cases hcontinues with
                  | holding hspelled =>
                      exact ⟨hpending, _, Continues.awaiting hseparable hspelled, habsorbs⟩

theorem examine_cons_of_useLong {raw name : RawText} {attached : Option RawText}
    {rest : List RawText} {st next : Progress} (hshape : shape raw = .long name attached)
    (h : useLong name attached rest st = .ok next) :
    examine st (raw :: rest) = examine next rest := by
  rw [examine, hshape]
  simp only [h]

theorem examine_cons_of_useCluster {raw flags : RawText} {rest : List RawText}
    {st next : Progress} (hshape : shape raw = .cluster flags)
    (h : useCluster flags st = .ok next) :
    examine st (raw :: rest) = examine next rest := by
  rw [examine, hshape]
  simp only [h]

theorem examine_cons_of_separable {raw : RawText} {rest : List RawText} {p : Parameter}
    {settled : List Occurrence} (h : Separable raw) :
    examine ⟨settled, .awaiting p⟩ (raw :: rest) = examine ⟨settled, .holding p raw⟩ rest := by
  rw [examine, shape_of_separable h]
  rfl

theorem useLong_value (p : Parameter) (attached : Option RawText) (following : List RawText)
    (st : Progress) :
    useLong (Utf8.ofString (Opt.value p).longName) attached following st =
      useParameter p attached st := by
  unfold useLong
  rw [ofLongName?_longName]

theorem useLong_noKeepAlive (following : List RawText) (st : Progress) :
    useLong (Utf8.ofString Opt.noKeepAlive.longName) none following st =
      useSwitch .noKeepAlive true st := by
  unfold useLong
  rw [ofLongName?_longName]

theorem useCluster_value {p : Parameter} {c : Char} (hshort : p.shortName? = some c)
    (rest : RawText) (st : Progress) :
    useCluster (.scalar c :: rest) st = useParameter p (clusterValue rest) st := by
  have hname : Opt.ofShortName? c = some (.value p) := ofShortName?_eq_some_iff.mpr hshort
  unfold useCluster
  rw [hname]

theorem shortName_ne_dash {p : Parameter} {c : Char} (hshort : p.shortName? = some c) :
    c ≠ '-' := by
  cases p <;> cases hshort <;> decide

theorem not_denotes_equalsSign {p : Parameter} {c : Char} {raw : RawText} {v : p.Value}
    (hshort : p.shortName? = some c) : ¬ p.Denotes (equalsSign :: raw) v := by
  have hnumeral (signed : Bool) (n : Nat) : ¬ IsNumeral signed (equalsSign :: raw) n := by
    intro hgiven
    rcases hgiven with ⟨s, hs, hden⟩
    unfold Utf8.ofString at hs
    cases hchars : s.toList with
    | nil =>
        rw [hchars] at hs
        cases hs
    | cons d rest =>
        rw [hchars] at hs hden
        cases hs
        generalize (n : Int) = value at hden
        cases hden with
        | bare hds => cases hds.right '=' List.mem_cons_self
  cases p with
  | port => exact hnumeral true _
  | workers => exact hnumeral false _
  | _ => cases hshort

theorem clusterValue_of_denotes {p : Parameter} {c : Char} {raw : RawText} {v : p.Value}
    (hshort : p.shortName? = some c) (hraw : raw ≠ []) (hden : p.Denotes raw v) :
    clusterValue raw = some raw := by
  cases raw with
  | nil => exact absurd rfl hraw
  | cons piece tail =>
      by_cases hpiece : piece = equalsSign
      · subst hpiece
        exact absurd hden (not_denotes_equalsSign hshort)
      · exact if_neg hpiece

theorem examine_of_spelling {u : Use} {words : List RawText} (h : Spelling u words)
    (rest : List RawText) {st : Progress} {between : List Occurrence}
    (hcomplete : st.pending.Complete)
    (hheld : Absorbs st.settled (st.pending.held ++ [u]) between) :
    exists next : Progress, next.pending.Complete ∧
      Absorbs next.settled next.pending.held between ∧
      examine st (words ++ rest) = examine next rest := by
  cases h with
  | noKeepAlive =>
      have huse : useLong (Utf8.ofString Opt.noKeepAlive.longName) none rest st =
          .ok ⟨between, .nothing⟩ := by
        rw [useLong_noKeepAlive]
        exact useSwitch_noKeepAlive_eq_ok_iff.mpr ⟨hcomplete, hheld, rfl⟩
      exact ⟨⟨between, .nothing⟩, True.intro, Absorbs.nothing between,
        examine_cons_of_useLong (shape_longArgument _) huse⟩
  | @attached p raw =>
      have huse : useLong (Utf8.ofString (Opt.value p).longName) (some raw) rest st =
          .ok ⟨between, .nothing⟩ := by
        rw [useLong_value]
        exact useParameter_some_eq_ok_iff.mpr ⟨hcomplete, hheld, rfl⟩
      exact ⟨⟨between, .nothing⟩, True.intro, Absorbs.nothing between,
        examine_cons_of_useLong (shape_longArgument_attached _ raw) huse⟩
  | @shortEquals p raw c hshort =>
      have huse : useCluster (.scalar c :: equalsSign :: raw) st = .ok ⟨between, .nothing⟩ := by
        rw [useCluster_value hshort]
        exact useParameter_some_eq_ok_iff.mpr ⟨hcomplete, hheld, rfl⟩
      exact ⟨⟨between, .nothing⟩, True.intro, Absorbs.nothing between,
        examine_cons_of_useCluster (shape_shortArgument (shortName_ne_dash hshort) _) huse⟩
  | @shortAttached p raw c hshort hraw =>
      have hvalue : clusterValue raw = some raw := by
        rcases absorbs_append_iff.mp hheld with ⟨_, _, hlast⟩
        cases hlast with
        | use _ hreads _ =>
            cases hreads with
            | value hden => exact clusterValue_of_denotes hshort hraw hden
      have huse : useCluster (.scalar c :: raw) st = .ok ⟨between, .nothing⟩ := by
        rw [useCluster_value hshort, hvalue]
        exact useParameter_some_eq_ok_iff.mpr ⟨hcomplete, hheld, rfl⟩
      exact ⟨⟨between, .nothing⟩, True.intro, Absorbs.nothing between,
        examine_cons_of_useCluster (shape_shortArgument (shortName_ne_dash hshort) _) huse⟩
  | @separate p raw hseparable =>
      rcases absorbs_append_iff.mp hheld with ⟨middle, hmiddle, hvalue⟩
      have huse : useLong (Utf8.ofString (Opt.value p).longName) none (raw :: rest) st =
          .ok ⟨middle, .awaiting p⟩ := by
        rw [useLong_value]
        exact useParameter_none_eq_ok_iff.mpr ⟨hcomplete, hmiddle, rfl⟩
      refine ⟨⟨middle, .holding p raw⟩, True.intro, hvalue, ?_⟩
      rw [List.cons_append, List.singleton_append,
        examine_cons_of_useLong (shape_longArgument _) huse, examine_cons_of_separable hseparable]
  | @shortSeparate p raw c hshort hseparable =>
      rcases absorbs_append_iff.mp hheld with ⟨middle, hmiddle, hvalue⟩
      have huse : useCluster [.scalar c] st = .ok ⟨middle, .awaiting p⟩ := by
        rw [useCluster_value hshort]
        exact useParameter_none_eq_ok_iff.mpr ⟨hcomplete, hmiddle, rfl⟩
      have hshape := shape_shortArgument (shortName_ne_dash hshort) []
      rw [List.append_nil] at hshape
      refine ⟨⟨middle, .holding p raw⟩, True.intro, hvalue, ?_⟩
      rw [List.cons_append, List.singleton_append, examine_cons_of_useCluster hshape huse,
        examine_cons_of_separable hseparable]

theorem examine_of_spelled {uses : List Use} {arguments : List RawText}
    (h : Spelled uses arguments) :
    forall {st : Progress} {final : List Occurrence}, st.pending.Complete ->
      Absorbs st.settled (st.pending.held ++ uses) final ->
      examine st arguments = .ok ⟨final, .nothing⟩ := by
  induction h with
  | nothing =>
      intro st final hcomplete habsorbs
      rw [List.append_nil] at habsorbs
      exact settle_eq_ok_iff.mpr ⟨hcomplete, habsorbs, rfl⟩
  | separator =>
      intro st final hcomplete habsorbs
      rw [List.append_nil] at habsorbs
      exact settle_eq_ok_iff.mpr ⟨hcomplete, habsorbs, rfl⟩
  | @use u uses words rest hspelling _ ih =>
      intro st final hcomplete habsorbs
      rw [List.append_cons] at habsorbs
      rcases absorbs_append_iff.mp habsorbs with ⟨between, hheld, hrest⟩
      rcases examine_of_spelling hspelling rest hcomplete hheld with
        ⟨next, hnext, hsettled, hexamine⟩
      rw [hexamine]
      exact ih hnext (absorbs_append_iff.mpr ⟨between, hsettled, hrest⟩)

theorem examine_eq_ok_iff {arguments : List RawText} {final : Progress} :
    examine {} arguments = .ok final <->
      final.pending = .nothing ∧
        exists uses, Spelled uses arguments ∧ Absorbs [] uses final.settled := by
  constructor
  · intro h
    rcases continues_of_examine h with ⟨hpending, uses, hcontinues, habsorbs⟩
    cases hcontinues with
    | nothing hspelled => exact ⟨hpending, uses, hspelled, habsorbs⟩
  · intro hgiven
    rcases hgiven with ⟨hpending, uses, hspelled, habsorbs⟩
    have h : examine {} arguments = .ok ⟨final.settled, .nothing⟩ :=
      examine_of_spelled hspelled True.intro habsorbs
    cases final with
    | mk settled pending =>
        cases hpending
        exact h

end CommandLine
end ConstantReply
