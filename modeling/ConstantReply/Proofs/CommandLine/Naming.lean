import ConstantReply.Proofs.CommandLine.Environment

/-!
# Arguments that name options

Before two dashes on their own, an argument names an option or stands for itself.  The options that
arguments name are found argument by argument, whatever becomes of the values.
-/

namespace ConstantReply
namespace CommandLine

open Utf8 (RawText Piece)

def optionPart (arguments : List RawText) : List RawText :=
  arguments.takeWhile fun raw => raw ≠ dashes

/-- An argument names an option, whatever it attaches to the name. -/
inductive Names : Opt -> RawText -> Prop where
  | long (o : Opt) : Names o (longArgument o)
  | attached (o : Opt) (raw : RawText) : Names o (longArgument o ++ equalsSign :: raw)
  | short {o : Opt} {c : Char} (raw : RawText) :
      o.shortName? = some c -> Names o (shortArgument c ++ raw)

/-- An argument names an option that takes a value, and attaches nothing to the name. -/
inductive Bare (p : Parameter) : RawText -> Prop where
  | long : Bare p (longArgument (.value p))
  | short {c : Char} : p.shortName? = some c -> Bare p (shortArgument c)

def Absent (arguments : List RawText) (o : Opt) : Prop :=
  forall raw, raw ∈ optionPart arguments -> ¬ Names o raw

/-!
# What an argument opens
-/

theorem cases_of_opening {o : Opt} {n : Nat} {raw : RawText}
    (h : (shape raw).opening = some (o, n)) :
    raw = longArgument o ∨ (exists v, raw = longArgument o ++ equalsSign :: v ∧ n = 0) ∨
      exists c v, o.shortName? = some c ∧ raw = shortArgument c ++ v ∧
        n = if v = [] then 1 else 0 := by
  have hraw := shape_describes raw
  cases hshape : shape raw with
  | separator =>
      rw [hshape] at h
      cases h
  | word =>
      rw [hshape] at h
      cases h
  | long name attached =>
      rw [hshape, Shape.opening] at h
      rcases Option.map_eq_some_iff.mp h with ⟨o', hname, hopening⟩
      have hlong := eq_ofString_of_ofLongName? hname
      rw [hshape, hlong] at hraw
      cases attached with
      | none =>
          have ho : o' = o := by cases o' <;> cases hopening <;> rfl
          rw [← ho]
          exact Or.inl hraw
      | some v =>
          cases o' <;> cases hopening <;> exact Or.inr (Or.inl ⟨v, hraw, rfl⟩)
  | cluster flags =>
      rw [hshape] at hraw h
      cases flags with
      | nil => cases h
      | cons piece rest =>
          cases piece with
          | ill bytes => cases h
          | scalar c =>
              rcases Option.map_eq_some_iff.mp h with ⟨o', hname, hopening⟩
              cases hopening
              exact Or.inr (Or.inr
                ⟨c, rest, ofShortName?_eq_some_iff.mp hname, hraw.left, rfl⟩)

theorem names_of_opening {o : Opt} {n : Nat} {raw : RawText}
    (h : (shape raw).opening = some (o, n)) : Names o raw := by
  rcases cases_of_opening h with rfl | ⟨v, rfl, _⟩ | ⟨c, v, hshort, rfl, _⟩
  · exact Names.long o
  · exact Names.attached o v
  · exact Names.short v hshort

theorem ne_dash_of_shortName? {o : Opt} {c : Char} (h : o.shortName? = some c) : c ≠ '-' := by
  cases o with
  | value p => exact shortName_ne_dash h
  | noKeepAlive => cases h
  | help =>
      cases h
      decide

theorem exists_opening_of_names {o : Opt} {raw : RawText} (h : Names o raw) :
    exists n, (shape raw).opening = some (o, n) := by
  cases h with
  | long =>
      rw [shape_longArgument, Shape.opening, ofLongName?_longName]
      cases o <;> exact ⟨_, rfl⟩
  | attached v =>
      rw [shape_longArgument_attached, Shape.opening, ofLongName?_longName]
      cases o <;> exact ⟨_, rfl⟩
  | short v hshort =>
      rw [shape_shortArgument (ne_dash_of_shortName? hshort)]
      rw [Shape.opening, ofShortName?_eq_some_iff.mpr hshort]
      exact ⟨_, rfl⟩

theorem opening_of_bare {p : Parameter} {raw : RawText} (h : Bare p raw) :
    (shape raw).opening = some (.value p, 1) := by
  cases h with
  | long =>
      rw [shape_longArgument, Shape.opening, ofLongName?_longName]
      rfl
  | short hshort =>
      have hopening := opening_shortArgument hshort []
      rw [List.append_nil] at hopening
      exact hopening

theorem bare_of_opening {p : Parameter} {raw : RawText}
    (h : (shape raw).opening = some (.value p, 1)) : Bare p raw := by
  rcases cases_of_opening h with rfl | ⟨v, _, hone⟩ | ⟨c, v, hshort, rfl, hone⟩
  · exact Bare.long
  · cases hone
  · cases v with
    | nil => exact Bare.short hshort
    | cons piece rest => cases hone

theorem opening_of_separable {raw : RawText} (h : Separable raw) :
    (shape raw).opening = none := by
  rw [shape_of_separable h]
  rfl

theorem not_separable_of_names {o : Opt} {raw : RawText} (h : Names o raw) :
    ¬ Separable raw := by
  intro hseparable
  rcases exists_opening_of_names h with ⟨n, hopening⟩
  rw [opening_of_separable hseparable] at hopening
  cases hopening

theorem not_separable_dashes : ¬ Separable dashes := by
  intro h
  cases h rfl

/-!
# The options of arguments
-/

def namedIn (arguments : List RawText) : List Opt :=
  arguments.filterMap fun raw => (shape raw).opening.map Prod.fst

theorem namedIn_append (front back : List RawText) :
    namedIn (front ++ back) = namedIn front ++ namedIn back :=
  List.filterMap_append

theorem namedIn_singleton {o : Opt} {n : Nat} {raw : RawText}
    (h : (shape raw).opening = some (o, n)) : namedIn [raw] = [o] := by
  simp [namedIn, h]

theorem namedIn_separable {values : List RawText}
    (h : forall raw, raw ∈ values -> Separable raw) : namedIn values = [] := by
  unfold namedIn
  rw [List.filterMap_eq_nil_iff]
  intro raw hraw
  rw [opening_of_separable (h raw hraw)]
  rfl

theorem names_of_named {o : Opt} {raw : RawText}
    (h : (shape raw).opening.map Prod.fst = some o) : Names o raw := by
  rcases Option.map_eq_some_iff.mp h with ⟨⟨o', n⟩, hopening, rfl⟩
  exact names_of_opening hopening

theorem mem_namedIn_of_names {o : Opt} {raw : RawText} {arguments : List RawText}
    (hraw : raw ∈ arguments) (h : Names o raw) : o ∈ namedIn arguments := by
  rcases exists_opening_of_names h with ⟨n, hopening⟩
  exact List.mem_filterMap.mpr ⟨raw, hraw, by rw [hopening]; rfl⟩

theorem ne_dashes_of_names {o : Opt} {raw : RawText} (h : Names o raw) : raw ≠ dashes := by
  rintro rfl
  rcases exists_opening_of_names h with ⟨n, hopening⟩
  rw [opening_dashes] at hopening
  cases hopening

section

variable {before : List RawText}

theorem optionPart_append (h : dashes ∉ before) (rest : List RawText) :
    optionPart (before ++ rest) = before ++ optionPart rest := by
  apply List.takeWhile_append_of_pos
  intro raw hraw
  rw [decide_eq_true_eq]
  rintro rfl
  exact h hraw

theorem optionPart_of_not_mem (h : dashes ∉ before) : optionPart before = before := by
  have hpart := optionPart_append h []
  rw [List.append_nil] at hpart
  exact hpart.trans (List.append_nil _)

theorem optionPart_append_dashes (h : dashes ∉ before) (rest : List RawText) :
    optionPart (before ++ dashes :: rest) = before := by
  rw [optionPart_append h]
  simp [optionPart]

theorem optionPart_append_cons {raw : RawText} (h : dashes ∉ before) (hraw : raw ≠ dashes)
    (rest : List RawText) :
    optionPart (before ++ raw :: rest) = before ++ raw :: optionPart rest := by
  rw [optionPart_append h]
  simp [optionPart, hraw]

end

theorem mem_of_mem_optionPart {arguments : List RawText} {raw : RawText}
    (h : raw ∈ optionPart arguments) : raw ∈ arguments :=
  (List.takeWhile_prefix _).subset h

theorem separable_of_spelling {u : Use} {raw : RawText} {more : List RawText}
    (h : Spelling u (raw :: more)) : forall v, v ∈ more -> Separable v := by
  intro v hv
  cases h with
  | separate hseparable =>
      rw [List.mem_singleton.mp hv]
      exact hseparable
  | shortSeparate _ hseparable =>
      rw [List.mem_singleton.mp hv]
      exact hseparable
  | _ => cases hv

theorem namedIn_of_spelling {u : Use} {words : List RawText} (h : Spelling u words) :
    dashes ∉ words ∧ namedIn words = [u.opt] := by
  rcases opening_of_spelling h with ⟨raw, more, rfl, hopening⟩
  have hmore := separable_of_spelling h
  constructor
  · rw [List.mem_cons, not_or]
    refine ⟨(ne_dashes_of_names (names_of_opening hopening)).symm, ?_⟩
    intro hdashes
    exact not_separable_dashes (hmore dashes hdashes)
  · rw [show raw :: more = [raw] ++ more from rfl, namedIn_append, namedIn_singleton hopening,
      namedIn_separable hmore, List.append_nil]

theorem namedIn_of_spelled {uses : List Use} {arguments : List RawText}
    (h : Spelled uses arguments) : namedIn (optionPart arguments) = uses.map Use.opt := by
  induction h with
  | nothing => rfl
  | separator => rfl
  | use hspelling _ ih =>
      rcases namedIn_of_spelling hspelling with ⟨hdashes, hnamed⟩
      rw [optionPart_append hdashes, namedIn_append, hnamed, ih]
      rfl

theorem absent_of_examine {arguments : List RawText} {st : Progress} {o : Opt}
    (h : examine {} arguments = .ok st) (ho : o ∉ st.used) : Absent arguments o := by
  rcases examine_eq_ok_iff.mp h with ⟨_, uses, hspelled, habsorbs⟩
  intro raw hraw hnames
  have hmem := mem_namedIn_of_names hraw hnames
  rw [namedIn_of_spelled hspelled] at hmem
  have hused : st.used = uses.map Use.opt := opts_of_absorbs habsorbs
  rw [hused] at ho
  exact ho hmem

/-!
# Texts

What is cut out of an argument that is text is text.
-/

def IsText (raw : RawText) : Prop :=
  exists s, raw = Utf8.ofString s

theorem isText_iff {raw : RawText} :
    IsText raw <-> forall piece, piece ∈ raw -> exists c, piece = .scalar c := by
  constructor
  · intro h piece hpiece
    rcases h with ⟨s, rfl⟩
    rcases List.mem_map.mp hpiece with ⟨c, _, rfl⟩
    exact ⟨c, rfl⟩
  · intro h
    induction raw with
    | nil => exact ⟨"", rfl⟩
    | cons piece rest ih =>
        rcases h piece List.mem_cons_self with ⟨c, rfl⟩
        rcases ih fun p hp => h p (List.mem_cons_of_mem _ hp) with ⟨s, rfl⟩
        exact ⟨String.ofList (c :: s.toList), by simp [Utf8.ofString]⟩

section

variable {front back : RawText}

theorem isText_of_append (h : IsText (front ++ back)) : IsText front ∧ IsText back := by
  rw [isText_iff] at h
  exact ⟨isText_iff.mpr fun piece hpiece => h piece (List.mem_append_left _ hpiece),
    isText_iff.mpr fun piece hpiece => h piece (List.mem_append_right _ hpiece)⟩

theorem isText_of_append_cons {piece : Piece} (h : IsText (front ++ piece :: back)) :
    IsText back := by
  rw [List.append_cons] at h
  exact (isText_of_append h).right

theorem isText_of_spelling {p : Parameter} {raw : RawText} {words : List RawText}
    (h : Spelling (.value p raw) words) (hwords : forall word, word ∈ words -> IsText word) :
    IsText raw := by
  cases h with
  | separate _ => exact hwords raw (by simp)
  | shortSeparate _ _ => exact hwords raw (by simp)
  | attached => exact isText_of_append_cons (hwords _ List.mem_cons_self)
  | shortAttached _ _ => exact (isText_of_append (hwords _ List.mem_cons_self)).right
  | shortEquals _ => exact isText_of_append_cons (hwords _ List.mem_cons_self)

end

end CommandLine
end ConstantReply
