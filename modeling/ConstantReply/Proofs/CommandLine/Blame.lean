import ConstantReply.Proofs.CommandLine.Naming

/-!
# What failures of a command line blame

A failure can be noticed arguments later than what it is about: a value that stands alone is read
when the next option comes, and an option misses its value when something else stands there.  What
is reported is nevertheless always in the arguments, or in a variable that stands in for an option.
-/

namespace ConstantReply
namespace CommandLine

open Utf8 (RawText Piece)

/-!
# What can be wrong with arguments
-/

def Repeats (arguments : List RawText) (o : Opt) : Prop :=
  exists first second, [first, second].Sublist (optionPart arguments) ∧ Names o first ∧
    Names o second

/-- The arguments give an option a value.  An equals sign behind a short name is not part of it. -/
def Gives (arguments : List RawText) (p : Parameter) (raw : RawText) : Prop :=
  exists before words after, optionPart arguments = before ++ words ++ after ∧
    Spelling (.value p raw) words ∧
    forall c, p.shortName? = some c -> words = [shortArgument c ++ raw] ->
      raw.head? ≠ some equalsSign

def Lacks (arguments : List RawText) (p : Parameter) : Prop :=
  exists before name after, optionPart arguments = before ++ name :: after ∧ Bare p name ∧
    forall next, after.head? = some next -> ¬ Separable next

def Strays (arguments : List RawText) (raw : RawText) : Prop :=
  exists before after, optionPart arguments = before ++ raw :: after ∧ Separable raw ∧
    forall name, before.getLast? = some name -> forall p, ¬ Bare p name

/-- What a failure says of the arguments and of the variables around them. -/
inductive Blames (arguments : List RawText) (environment : Environment) : Failure -> Prop where
  | fullHelp :
      longArgument .help ∈ optionPart arguments ->
      Blames arguments environment (.help true)
  | shortHelp {c : Char} {flags : RawText} :
      Opt.help.shortName? = some c -> shortArgument c ++ flags ∈ optionPart arguments ->
      Blames arguments environment (.help false)
  | number {p : Parameter} {s : String} {problem : Numeral.Problem} :
      Gives arguments p (Utf8.ofString s) -> (forall v, ¬ p.Denotes (Utf8.ofString s) v) ->
      Blames arguments environment (.badNumber p s problem)
  | numberOfVariable {p : Parameter} {s : String} {problem : Numeral.Problem} :
      Absent arguments (.value p) -> fromEnvironment environment p = some (Utf8.ofString s) ->
      (forall v, ¬ p.Denotes (Utf8.ofString s) v) ->
      Blames arguments environment (.badNumber p s problem)
  | format {s : String} :
      Gives arguments .logFormat (Utf8.ofString s) ->
      (forall v, ¬ Parameter.logFormat.Denotes (Utf8.ofString s) v) ->
      Blames arguments environment (.badFormat s)
  | noTextOfVariable {p : Parameter} {raw : RawText} :
      Absent arguments (.value p) -> fromEnvironment environment p = some raw -> ¬ IsText raw ->
      Blames arguments environment .notText
  | missing {p : Parameter} :
      Lacks arguments p -> Blames arguments environment (.missingValue p)
  | repeated {o : Opt} :
      Repeats arguments o -> Blames arguments environment (.repeated o)
  | needless {o : Opt} {s : String} {used : List Opt} :
      (forall p, o ≠ .value p) ->
      longArgument o ++ equalsSign :: Utf8.ofString s ∈ optionPart arguments ->
      Blames arguments environment (.needlessValue o s used)
  | unknownName {name : String} {attached : RawText} {used : List Opt} :
      '=' ∉ name.toList -> (forall o : Opt, o.longName ≠ name) ->
      (attached = [] ∨ attached.head? = some equalsSign) ->
      dash :: dash :: Utf8.ofString name ++ attached ∈ optionPart arguments ->
      Blames arguments environment (.unknownName name used)
  | unknownFlag {c : Char} {flags : RawText} :
      c ≠ '-' -> (forall o : Opt, o.shortName? ≠ some c) ->
      shortArgument c ++ flags ∈ optionPart arguments ->
      Blames arguments environment (.unexpected ("-" ++ String.ofList [c]))
  | stray {s : String} :
      Strays arguments (Utf8.ofString s) -> Blames arguments environment (.unexpected s)
  | behindDashes {s : String} {after : List RawText} :
      arguments = optionPart arguments ++ dashes :: after -> Utf8.ofString s ∈ after ->
      Blames arguments environment (.unexpected s)

theorem repeats_of_sublist {arguments : List RawText} {o : Opt}
    (h : [o, o].Sublist (namedIn (optionPart arguments))) : Repeats arguments o := by
  rcases List.sublist_filterMap_iff.mp h with ⟨named, hnamed, heq⟩
  rcases List.filterMap_eq_cons_iff.mp heq.symm with ⟨_, first, more, rfl, _, hfirst, hmore⟩
  rcases List.filterMap_eq_cons_iff.mp hmore with ⟨_, second, _, rfl, _, hsecond, _⟩
  refine ⟨first, second, ?_, names_of_named hfirst, names_of_named hsecond⟩
  refine List.Sublist.trans ?_ hnamed
  refine List.Sublist.trans (List.Sublist.cons_cons first ?_) (List.sublist_append_right _ _)
  exact List.Sublist.trans (List.singleton_sublist.mpr List.mem_cons_self)
    (List.sublist_append_right _ _)

/-!
# What the arguments so far have come to
-/

def Pending.opts : Pending -> List Opt
  | .nothing => []
  | .awaiting p => [.value p]
  | .holding p _ => [.value p]

/-- Arguments and the progress that their examination has made. -/
structure Reached (before : List RawText) (st : Progress) : Prop where
  named : namedIn before = st.used ++ st.pending.opts
  noDashes : dashes ∉ before
  awaits : forall p, st.pending = .awaiting p <->
    exists name, before.getLast? = some name ∧ Bare p name
  holds : forall p raw, st.pending = .holding p raw -> Separable raw ∧
    exists front name, before = front ++ [name, raw] ∧ Bare p name

theorem reached_nothing : Reached [] {} where
  named := rfl
  noDashes := List.not_mem_nil
  awaits := by simp
  holds := by simp

theorem opts_of_complete {pending : Pending} (h : pending.Complete) :
    pending.held.map Use.opt = pending.opts := by
  cases pending with
  | awaiting p => cases h
  | _ => rfl

theorem used_of_settle {st next : Progress} (h : st.settle = .ok next) :
    next.used = st.used ++ st.pending.opts := by
  rcases settle_eq_ok_iff.mp h with ⟨hcomplete, habsorbs, _⟩
  rw [← opts_of_complete hcomplete]
  exact opts_of_absorbs habsorbs

section

variable {before : List RawText} {raw : RawText} {st next : Progress}

theorem reached_concat {o : Opt} {n : Nat} (hreached : Reached before st)
    (hopening : (shape raw).opening = some (o, n))
    (hused : next.used ++ next.pending.opts = st.used ++ st.pending.opts ++ [o])
    (hawaits : forall p, next.pending = .awaiting p <-> Bare p raw)
    (hholds : forall p v, next.pending ≠ .holding p v) : Reached (before ++ [raw]) next where
  named := by rw [namedIn_append, namedIn_singleton hopening, hreached.named, hused]
  noDashes := by
    rw [List.mem_append, List.mem_singleton, not_or]
    exact ⟨hreached.noDashes, (ne_dashes_of_names (names_of_opening hopening)).symm⟩
  awaits := by
    intro p
    rw [List.getLast?_concat, hawaits]
    constructor
    · intro hbare
      exact ⟨raw, rfl, hbare⟩
    · rintro ⟨name, hname, hbare⟩
      cases hname
      exact hbare
  holds := fun p v hholding => absurd hholding (hholds p v)

theorem reached_of_advances (hreached : Reached before st) (hcomplete : st.pending.Complete)
    (h : Advances st raw next) : Reached (before ++ [raw]) next := by
  have hopts := opts_of_complete hcomplete
  cases h with
  | whole u hspelling habsorbs hpending =>
      rcases opening_of_spelling hspelling with ⟨_, _, heq, hopening⟩
      cases heq
      apply reached_concat hreached hopening
      · have hused := opts_of_absorbs habsorbs
        rw [List.map_append, hopts, ← List.append_assoc] at hused
        rw [hpending]
        exact (List.append_nil _).trans hused
      · intro p
        rw [hpending]
        constructor
        · intro hawaiting
          cases hawaiting
        · intro hbare
          rw [opening_of_bare hbare] at hopening
          cases (Prod.mk.inj (Option.some.inj hopening)).right
      · simp [hpending]
  | opened p hspelling habsorbs hpending =>
      have hempty : Separable [] := by
        intro hhead
        cases hhead
      rcases opening_of_spelling (hspelling [] hempty) with ⟨_, _, heq, hopening⟩
      cases heq
      apply reached_concat hreached hopening
      · have hused := opts_of_absorbs habsorbs
        rw [hopts] at hused
        rw [hpending]
        exact congrArg (· ++ [Opt.value p]) hused
      · intro q
        rw [hpending]
        constructor
        · intro hawaiting
          cases hawaiting
          exact bare_of_opening hopening
        · intro hbare
          rw [opening_of_bare hbare] at hopening
          cases hopening
          rfl
      · simp [hpending]

theorem reached_of_word {settled : List Occurrence} {p : Parameter}
    (hreached : Reached before ⟨settled, .awaiting p⟩) (h : Separable raw) :
    Reached (before ++ [raw]) ⟨settled, .holding p raw⟩ where
  named := by
    have hraw : namedIn [raw] = [] := namedIn_separable (by simpa using h)
    rw [namedIn_append, hraw, List.append_nil, hreached.named]
    rfl
  noDashes := by
    rw [List.mem_append, List.mem_singleton, not_or]
    refine ⟨hreached.noDashes, ?_⟩
    rintro rfl
    exact not_separable_dashes h
  awaits := by
    intro q
    rw [List.getLast?_concat]
    constructor
    · intro hawaiting
      cases hawaiting
    · rintro ⟨name, hname, hbare⟩
      cases hname
      have hopening := opening_of_bare hbare
      rw [opening_of_separable h] at hopening
      cases hopening
  holds := by
    intro q v hholding
    cases hholding
    rcases (hreached.awaits p).mp rfl with ⟨name, hlast, hbare⟩
    rcases List.getLast?_eq_some_iff.mp hlast with ⟨front, rfl⟩
    exact ⟨h, front, name, by simp, hbare⟩

end

/-!
# Where failures come from
-/

structure Midway (arguments before rest : List RawText) (st : Progress) : Prop where
  text : forall raw, raw ∈ arguments -> IsText raw
  cut : optionPart arguments = before ++ rest
  reached : Reached before st

section

variable {arguments before rest : List RawText} {environment : Environment} {raw : RawText}
  {st : Progress} {p : Parameter} {failure : Failure}

theorem Midway.mem (h : Midway arguments before (raw :: rest) st) :
    raw ∈ optionPart arguments := by
  rw [h.cut]
  simp

theorem isText_of_gives (htext : forall raw, raw ∈ arguments -> IsText raw)
    (h : Gives arguments p raw) : IsText raw := by
  rcases h with ⟨front, words, back, hcut, hspelling, _⟩
  apply isText_of_spelling hspelling
  intro word hword
  apply htext word
  apply mem_of_mem_optionPart
  rw [hcut]
  simp [hword]

theorem gives_of_bare {name : RawText} {front back : List RawText} (hbare : Bare p name)
    (hseparable : Separable raw) (hcut : optionPart arguments = front ++ [name, raw] ++ back) :
    Gives arguments p raw := by
  refine ⟨front, [name, raw], back, hcut, ?_, ?_⟩
  · cases hbare with
    | long => exact Spelling.separate hseparable
    | short hshort => exact Spelling.shortSeparate hshort hseparable
  · intro c _ hwords
    cases hwords

theorem gives_of_argument {v : RawText} (hcut : optionPart arguments = before ++ raw :: rest)
    (hspelling : Spelling (.value p v) [raw])
    (hplain : forall c, p.shortName? = some c -> raw = shortArgument c ++ v ->
      v.head? ≠ some equalsSign) : Gives arguments p v := by
  rw [List.append_cons] at hcut
  refine ⟨before, [raw], rest, hcut, hspelling, ?_⟩
  intro c hshort hwords
  exact hplain c hshort (List.cons.inj hwords).left

theorem gives_of_attached {v : RawText}
    (hcut : optionPart arguments =
      before ++ (longArgument (.value p) ++ equalsSign :: v) :: rest) :
    Gives arguments p v := by
  apply gives_of_argument hcut Spelling.attached
  intro c hshort hargument
  have hc : '-' = c := by
    simp only [longArgument, shortArgument, dash, List.cons_append, List.cons.injEq,
      Piece.scalar.injEq] at hargument
    exact hargument.right.left
  exact absurd hc.symm (shortName_ne_dash hshort)

theorem gives_of_clusterValue {c : Char} {flags v : RawText}
    (hcut : optionPart arguments = before ++ (shortArgument c ++ flags) :: rest)
    (hshort : p.shortName? = some c) (h : clusterValue flags = some v) :
    Gives arguments p v := by
  cases flags with
  | nil => cases h
  | cons piece flags =>
      simp only [clusterValue] at h
      by_cases hpiece : piece = .scalar '='
      · rw [if_pos hpiece] at h
        cases h
        subst hpiece
        apply gives_of_argument hcut (Spelling.shortEquals hshort)
        intro c' _ hargument
        have hlength := congrArg List.length hargument
        simp [shortArgument] at hlength
      · rw [if_neg hpiece] at h
        cases h
        apply gives_of_argument hcut (Spelling.shortAttached hshort (List.cons_ne_nil _ _))
        intro c' _ _ hhead
        exact hpiece (Option.some.inj hhead)

theorem repeats_of_used {o : Opt} {used : List Opt} (hcut : optionPart arguments = before ++ rest)
    (hnamed : namedIn before = used ++ [o]) (hused : o ∈ used) : Repeats arguments o := by
  apply repeats_of_sublist
  rw [hcut, namedIn_append, hnamed]
  apply List.Sublist.trans _ (List.sublist_append_left _ _)
  exact List.Sublist.append (List.singleton_sublist.mpr hused) (List.Sublist.refl [o])

theorem blames_of_value (htext : forall raw, raw ∈ arguments -> IsText raw)
    (hgives : Gives arguments p raw) (h : ValueError p raw failure) :
    Blames arguments environment failure := by
  have hforeign := exists_valueError_iff.mp ⟨failure, h⟩
  have hraw := isText_of_gives htext hgives
  cases h with
  | notText _ hno =>
      rcases hraw with ⟨s, hs⟩
      exact absurd hs (hno s)
  | badNumber _ _ => exact Blames.number hgives hforeign
  | badFormat _ =>
      rcases hraw with ⟨s, rfl⟩
      rw [lossy_ofString]
      exact Blames.format hgives hforeign

theorem blames_of_assign (htext : forall raw, raw ∈ arguments -> IsText raw)
    (hcut : optionPart arguments = before ++ rest)
    (hnamed : namedIn before = st.used ++ [.value p]) (hgives : Gives arguments p raw)
    (h : st.assign p raw = .error failure) : Blames arguments environment failure := by
  rcases assign_eq_error_iff.mp h with ⟨hused, rfl⟩ | ⟨_, hvalue⟩
  · exact Blames.repeated (repeats_of_used hcut hnamed hused)
  · exact blames_of_value htext hgives hvalue

theorem blames_of_settle (hmidway : Midway arguments before rest st)
    (hnext : forall next, rest.head? = some next -> ¬ Separable next)
    (h : st.settle = .error failure) : Blames arguments environment failure := by
  have hcut := hmidway.cut
  have hnamed := hmidway.reached.named
  rcases settle_eq_error_iff.mp h with ⟨p, hpending, rfl⟩ | ⟨p, raw, hpending, hassign⟩
  · rcases (hmidway.reached.awaits p).mp hpending with ⟨name, hlast, hbare⟩
    rcases List.getLast?_eq_some_iff.mp hlast with ⟨front, rfl⟩
    rw [List.append_assoc] at hcut
    exact Blames.missing ⟨front, name, rest, hcut, hbare, hnext⟩
  · rw [hpending] at hnamed
    rcases hmidway.reached.holds p raw hpending with ⟨hseparable, front, name, rfl, hbare⟩
    exact blames_of_assign hmidway.text hcut hnamed (gives_of_bare hbare hseparable hcut) hassign

theorem blames_of_settle_at_end (htext : forall raw, raw ∈ arguments -> IsText raw)
    (hcut : optionPart arguments = before) (hreached : Reached before st)
    (h : st.settle = .error failure) : Blames arguments environment failure := by
  have hend : optionPart arguments = before ++ [] := by rw [hcut, List.append_nil]
  apply blames_of_settle ⟨htext, hend, hreached⟩ _ h
  intro next hnext
  cases hnext

section

variable {o : Opt} (hmidway : Midway arguments before (raw :: rest) st) (hnames : Names o raw)

include hmidway hnames

theorem blames_of_settle_at_name (h : st.settle = .error failure) :
    Blames arguments environment failure := by
  apply blames_of_settle hmidway _ h
  intro next hnext
  cases hnext
  exact not_separable_of_names hnames

theorem named_of_settle {between : Progress} (h : st.settle = .ok between) :
    optionPart arguments = (before ++ [raw]) ++ rest ∧
      namedIn (before ++ [raw]) = between.used ++ [o] := by
  rcases exists_opening_of_names hnames with ⟨n, hopening⟩
  constructor
  · rw [hmidway.cut, List.append_cons]
  · rw [namedIn_append, namedIn_singleton hopening, hmidway.reached.named, used_of_settle h]

end

theorem blames_of_useParameter {attached : Option RawText}
    (hmidway : Midway arguments before (raw :: rest) st) (hnames : Names (.value p) raw)
    (hgives : forall v, attached = some v -> Gives arguments p v)
    (h : useParameter p attached st = .error failure) :
    Blames arguments environment failure := by
  unfold useParameter at h
  cases hsettle : st.settle with
  | error other =>
      rw [hsettle] at h
      cases h
      exact blames_of_settle_at_name hmidway hnames hsettle
  | ok between =>
      rw [hsettle] at h
      rcases named_of_settle hmidway hnames hsettle with ⟨hcut, hnamed⟩
      cases attached with
      | none => cases h
      | some v => exact blames_of_assign hmidway.text hcut hnamed (hgives v rfl) h

theorem blames_of_useSwitch {o : Opt} {full : Bool}
    (hmidway : Midway arguments before (raw :: rest) st) (hnames : Names o raw)
    (hhelp : o ≠ .noKeepAlive -> Blames arguments environment (.help full))
    (h : useSwitch o full st = .error failure) : Blames arguments environment failure := by
  unfold useSwitch at h
  cases hsettle : st.settle with
  | error other =>
      rw [hsettle] at h
      cases h
      exact blames_of_settle_at_name hmidway hnames hsettle
  | ok between =>
      rw [hsettle] at h
      rcases named_of_settle hmidway hnames hsettle with ⟨hcut, hnamed⟩
      cases o with
      | noKeepAlive =>
          by_cases hused : Opt.noKeepAlive ∈ between.used
          · simp only [if_pos hused] at h
            cases h
            exact Blames.repeated (repeats_of_used hcut hnamed hused)
          · simp [hused] at h
      | value p =>
          cases h
          exact hhelp (by simp)
      | help =>
          cases h
          exact hhelp (by simp)

theorem blames_of_knownName {o : Opt} {attached : Option RawText} {following : List RawText}
    (hmidway : Midway arguments before (raw :: rest) st)
    (hshape : shape raw = .long (Utf8.ofString o.longName) attached)
    (h : useLong (Utf8.ofString o.longName) attached following st = .error failure) :
    Blames arguments environment failure := by
  have hmem := hmidway.mem
  have hdescribes := shape_describes raw
  rw [hshape] at hdescribes
  unfold useLong at h
  rw [ofLongName?_longName] at h
  cases attached with
  | none =>
      have hraw : raw = longArgument o := hdescribes
      subst hraw
      cases o with
      | value p =>
          apply blames_of_useParameter hmidway (Names.long _) _ h
          intro v hv
          cases hv
      | noKeepAlive =>
          apply blames_of_useSwitch hmidway (Names.long _) _ h
          intro hne
          exact absurd rfl hne
      | help =>
          apply blames_of_useSwitch hmidway (Names.long _) _ h
          intro _
          exact Blames.fullHelp hmem
  | some v =>
      have hraw : raw = longArgument o ++ equalsSign :: v := hdescribes
      subst hraw
      rcases isText_of_append_cons (hmidway.text _ (mem_of_mem_optionPart hmem)) with ⟨s, rfl⟩
      cases o with
      | value p =>
          apply blames_of_useParameter hmidway (Names.attached _ _) _ h
          intro v hv
          cases hv
          exact gives_of_attached hmidway.cut
      | noKeepAlive =>
          cases h
          rw [lossy_ofString]
          exact Blames.needless (by simp) hmem
      | help =>
          cases h
          rw [lossy_ofString]
          exact Blames.needless (by simp) hmem

theorem equalsSign_not_mem_splitAttached (raw : RawText) :
    equalsSign ∉ (splitAttached raw).1 := by
  induction raw with
  | nil => exact List.not_mem_nil
  | cons piece rest ih =>
      unfold splitAttached
      split
      · exact List.not_mem_nil
      · rename_i hpiece
        rw [List.mem_cons, not_or]
        exact ⟨Ne.symm hpiece, ih⟩

theorem equalsSign_not_mem_of_shape {name : RawText} {attached : Option RawText}
    (h : shape raw = .long name attached) : equalsSign ∉ name := by
  unfold shape at h
  split at h
  · split at h
    · cases h
    · cases h
      exact equalsSign_not_mem_splitAttached _
  · cases h
  · cases h

theorem blames_of_unknownName {name : RawText} {attached : Option RawText}
    (htext : forall other, other ∈ arguments -> IsText other)
    (hrest : forall other, other ∈ rest -> IsText other) (hmem : raw ∈ optionPart arguments)
    (hshape : shape raw = .long name attached)
    (hname : Opt.ofLongName? (Utf8.lossy name) = none)
    (h : useLong name attached rest st = .error failure) :
    Blames arguments environment failure := by
  have hdecodes : (rest.all fun other => (Utf8.decode? other).isSome) = true := by
    rw [List.all_eq_true]
    intro other hother
    rcases hrest other hother with ⟨s, rfl⟩
    rw [Utf8.decode?_ofString]
    rfl
  have hargument := htext raw (mem_of_mem_optionPart hmem)
  have hdescribes := shape_describes raw
  rw [hshape] at hdescribes
  have hparts : exists tail, raw = [dash, dash] ++ name ++ tail ∧
      (tail = [] ∨ tail.head? = some equalsSign) := by
    cases attached with
    | none => exact ⟨[], hdescribes.trans (List.append_nil _).symm, Or.inl rfl⟩
    | some v => exact ⟨equalsSign :: v, hdescribes, Or.inr rfl⟩
  rcases hparts with ⟨tail, rfl, htail⟩
  rcases (isText_of_append (isText_of_append hargument).left).right with ⟨s, rfl⟩
  have hequals := equalsSign_not_mem_of_shape hshape
  rw [lossy_ofString] at hname
  simp only [useLong, lossy_ofString, hname, hdecodes, if_true] at h
  cases h
  refine Blames.unknownName ?_ ?_ htail hmem
  · intro hmem
    exact hequals (List.mem_map_of_mem hmem)
  · intro o ho
    exact List.find?_eq_none.mp hname o (Opt.mem_all o) (beq_iff_eq.mpr ho)

theorem shape_dash_dash_ne_cluster (rest flags : RawText) :
    shape (shortArgument '-' ++ rest) ≠ .cluster flags := by
  cases rest with
  | nil => simp [shape, shortArgument, dash]
  | cons piece rest => simp [shape, shortArgument, dash]

theorem blames_of_useCluster {flags : RawText}
    (hmidway : Midway arguments before (raw :: rest) st) (hshape : shape raw = .cluster flags)
    (h : useCluster flags st = .error failure) : Blames arguments environment failure := by
  have hmem := hmidway.mem
  have hdescribes := shape_describes raw
  rw [hshape] at hdescribes
  cases flags with
  | nil => exact absurd rfl hdescribes.right
  | cons piece flags =>
      have hargument := hmidway.text raw (mem_of_mem_optionPart hmem)
      rw [hdescribes.left, isText_iff] at hargument
      rcases hargument piece (by simp) with ⟨c, rfl⟩
      have hraw : raw = shortArgument c ++ flags := hdescribes.left
      subst hraw
      unfold useCluster at h
      cases hname : Opt.ofShortName? c with
      | none =>
          simp only [hname] at h
          cases h
          refine Blames.unknownFlag ?_ ?_ hmem
          · rintro rfl
            exact shape_dash_dash_ne_cluster _ _ hshape
          · intro o ho
            rw [ofShortName?_eq_some_iff.mpr ho] at hname
            cases hname
      | some o =>
          have hshort := ofShortName?_eq_some_iff.mp hname
          have hnames : Names o (shortArgument c ++ flags) := Names.short flags hshort
          cases o with
          | noKeepAlive => cases hshort
          | help =>
              simp only [hname] at h
              cases hswitch : useSwitch .help false st with
              | ok between => exact absurd hswitch useSwitch_help_ne_ok
              | error other =>
                  rw [hswitch] at h
                  cases h
                  apply blames_of_useSwitch hmidway hnames _ hswitch
                  intro _
                  exact Blames.shortHelp hshort hmem
          | value p =>
              simp only [hname] at h
              apply blames_of_useParameter hmidway hnames _ h
              intro v hv
              exact gives_of_clusterValue hmidway.cut hshort hv

theorem blames_of_useWord (hmidway : Midway arguments before (raw :: rest) st)
    (hseparable : Separable raw) (h : useWord raw st = .error failure) :
    Blames arguments environment failure := by
  have hstrays (hpending : forall p, st.pending ≠ .awaiting p) : Strays arguments raw := by
    refine ⟨before, rest, hmidway.cut, hseparable, ?_⟩
    intro name hlast p hbare
    exact hpending p ((hmidway.reached.awaits p).mpr ⟨name, hlast, hbare⟩)
  rcases hmidway.text raw (mem_of_mem_optionPart hmidway.mem) with ⟨s, rfl⟩
  unfold useWord at h
  split at h
  · cases h
  · rename_i hpending
    cases h
    rw [lossy_ofString]
    exact Blames.stray (hstrays hpending)

theorem blames_of_examine (htext : forall raw, raw ∈ arguments -> IsText raw)
    (hcut : arguments = before ++ rest) (hreached : Reached before st)
    (h : examine st rest = .error failure) : Blames arguments environment failure := by
  induction rest generalizing before st with
  | nil =>
      rw [List.append_nil] at hcut
      apply blames_of_settle_at_end htext _ hreached h
      rw [hcut, optionPart_of_not_mem hreached.noDashes]
  | cons raw rest ih =>
      have hnext : arguments = (before ++ [raw]) ++ rest := by rw [hcut, List.append_cons]
      have hmidway (hraw : raw ≠ dashes) :
          Midway arguments before (raw :: optionPart rest) st := by
        refine ⟨htext, ?_, hreached⟩
        rw [hcut, optionPart_append_cons hreached.noDashes hraw]
      have hrest (other : RawText) (hother : other ∈ rest) : IsText other :=
        htext other (by simp [hcut, hother])
      have hdescribes := shape_describes raw
      unfold examine at h
      cases hshape : shape raw with
      | separator =>
          rw [hshape] at h hdescribes
          rw [show raw = dashes from hdescribes] at hcut
          have hpart : optionPart arguments = before := by
            rw [hcut, optionPart_append_dashes hreached.noDashes]
          cases rest with
          | nil => exact blames_of_settle_at_end htext hpart hreached h
          | cons word more =>
              cases h
              rcases hrest word List.mem_cons_self with ⟨s, rfl⟩
              rw [lossy_ofString]
              exact Blames.behindDashes (by rw [hpart]; exact hcut) List.mem_cons_self
      | long name attached =>
          have hraw : raw ≠ dashes := by
            rintro rfl
            cases hshape
          simp only [hshape] at h
          cases huse : useLong name attached rest st with
          | ok next =>
              simp only [huse] at h
              rcases advances_of_useLong hshape huse with ⟨hcomplete, hadvances⟩
              exact ih hnext (reached_of_advances hreached hcomplete hadvances) h
          | error other =>
              rw [huse] at h
              cases h
              cases hname : Opt.ofLongName? (Utf8.lossy name) with
              | some o =>
                  rw [eq_ofString_of_ofLongName? hname] at hshape huse
                  exact blames_of_knownName (hmidway hraw) hshape huse
              | none =>
                  exact blames_of_unknownName htext hrest (hmidway hraw).mem hshape hname huse
      | cluster flags =>
          have hraw : raw ≠ dashes := by
            rintro rfl
            cases hshape
          simp only [hshape] at h
          cases huse : useCluster flags st with
          | ok next =>
              simp only [huse] at h
              rcases advances_of_useCluster hshape huse with ⟨hcomplete, hadvances⟩
              exact ih hnext (reached_of_advances hreached hcomplete hadvances) h
          | error other =>
              rw [huse] at h
              cases h
              exact blames_of_useCluster (hmidway hraw) hshape huse
      | word =>
          have hraw : raw ≠ dashes := by
            rintro rfl
            cases hshape
          rw [hshape] at hdescribes
          simp only [hshape] at h
          cases huse : useWord raw st with
          | error other =>
              rw [huse] at h
              cases h
              exact blames_of_useWord (hmidway hraw) hdescribes huse
          | ok next =>
              simp only [huse] at h
              cases st with
              | mk settled pending =>
                  cases pending with
                  | nothing => cases huse
                  | holding p held => cases huse
                  | awaiting p =>
                      cases huse
                      exact ih hnext (reached_of_word hreached hdescribes) h

end

theorem blames_of_complete {arguments : List RawText} {environment : Environment}
    {st : Progress} {failure : Failure} (hexamine : examine {} arguments = .ok st)
    (h : complete environment environmentParameters st = .error failure) :
    Blames arguments environment failure := by
  rcases valueError_of_complete h with ⟨p, raw, hused, hraw, hvalue⟩
  have habsent := absent_of_examine hexamine hused
  have hforeign := exists_valueError_iff.mp ⟨failure, hvalue⟩
  cases hvalue with
  | notText _ hno =>
      apply Blames.noTextOfVariable habsent hraw
      rintro ⟨s, hs⟩
      exact hno s hs
  | badNumber _ _ => exact Blames.numberOfVariable habsent hraw hforeign
  | badFormat _ => cases hraw

/-!
# Failures of command lines
-/

/-- Every failure of a command line in which all arguments are text points at what is wrong with
them, or with a variable. -/
theorem blames_of_parse {arguments : List String} {environment : Environment} {failure : Failure}
    (h : parse (arguments.map Utf8.ofString) environment = .error failure) :
    Blames (arguments.tail.map Utf8.ofString) environment failure := by
  have htext (raw : RawText) (hraw : raw ∈ arguments.tail.map Utf8.ofString) : IsText raw := by
    rcases List.mem_map.mp hraw with ⟨s, _, rfl⟩
    exact ⟨s, rfl⟩
  cases hexamine : examine {} (arguments.map Utf8.ofString).tail with
  | error other =>
      rw [parse_of_examine_error hexamine] at h
      cases h
      rw [← List.map_tail] at hexamine
      exact blames_of_examine htext rfl reached_nothing hexamine
  | ok st =>
      rw [parse_of_examine hexamine, map_eq_error_iff] at h
      rw [← List.map_tail] at hexamine
      exact blames_of_complete hexamine h

theorem blames_of_late_value :
    let arguments := ["ok-server", "-w=4", "--backlog", "-", "-p80", "--host"]
    let failure := Failure.badNumber .backlog "-" .invalidDigit
    parse (arguments.map Utf8.ofString) (fun _ => none) = .error failure ∧
      Blames (arguments.tail.map Utf8.ofString) (fun _ => none) failure := by
  intro arguments failure
  have hparse : parse (arguments.map Utf8.ofString) (fun _ => none) = .error failure := rfl
  exact ⟨hparse, blames_of_parse hparse⟩

end CommandLine
end ConstantReply
