import ConstantReply.CommandLine.Parser

/-!
# How options are written

A command line is a sequence of uses of options, and two dashes may end it.  The grammar says how
each use is spelled in arguments, and which texts are values of which option; it knows nothing of
the order in which arguments are examined.
-/

namespace ConstantReply
namespace CommandLine

open Utf8 (RawText Piece)

/-!
# Uses and their spellings
-/

/-- One use of an option, with its value as it was given. -/
inductive Use where
  | value (p : Parameter) (raw : RawText)
  | noKeepAlive

def Use.opt : Use -> Opt
  | .value p _ => .value p
  | .noKeepAlive => .noKeepAlive

def dash : Piece := .scalar '-'

def equalsSign : Piece := .scalar '='

def dashes : RawText := [dash, dash]

def longArgument (o : Opt) : RawText := dash :: dash :: Utf8.ofString o.longName

def shortArgument (c : Char) : RawText := [dash, .scalar c]

def Separable (raw : RawText) : Prop :=
  raw.head? = some dash -> raw = [dash]

/-- The arguments that spell one use of an option. -/
inductive Spelling : Use -> List RawText -> Prop where
  | noKeepAlive : Spelling .noKeepAlive [longArgument .noKeepAlive]
  | separate {p : Parameter} {raw : RawText} :
      Separable raw -> Spelling (.value p raw) [longArgument (.value p), raw]
  | attached {p : Parameter} {raw : RawText} :
      Spelling (.value p raw) [longArgument (.value p) ++ equalsSign :: raw]
  | shortSeparate {p : Parameter} {raw : RawText} {c : Char} :
      p.shortName? = some c -> Separable raw ->
      Spelling (.value p raw) [shortArgument c, raw]
  | shortAttached {p : Parameter} {raw : RawText} {c : Char} :
      p.shortName? = some c -> raw ≠ [] ->
      Spelling (.value p raw) [shortArgument c ++ raw]
  | shortEquals {p : Parameter} {raw : RawText} {c : Char} :
      p.shortName? = some c ->
      Spelling (.value p raw) [shortArgument c ++ equalsSign :: raw]

/-- The arguments that spell several uses one after the other, two dashes at their end or not. -/
inductive Spelled : List Use -> List RawText -> Prop where
  | nothing : Spelled [] []
  | separator : Spelled [] [dashes]
  | use {u : Use} {uses : List Use} {words rest : List RawText} :
      Spelling u words -> Spelled uses rest -> Spelled (u :: uses) (words ++ rest)

/-!
# Arguments by their shape
-/

theorem splitAttached_map_scalar {cs : List Char} (hcs : '=' ∉ cs) :
    splitAttached (cs.map Piece.scalar) = (cs.map Piece.scalar, none) := by
  induction cs with
  | nil =>
      rfl
  | cons c rest ih =>
      have hc : '=' ≠ c := fun h => hcs (h ▸ List.mem_cons_self)
      have hrest := ih fun h => hcs (List.mem_cons_of_mem c h)
      simp [splitAttached, hrest, hc.symm]

theorem splitAttached_map_scalar_append {cs : List Char} (hcs : '=' ∉ cs) (raw : RawText) :
    splitAttached (cs.map Piece.scalar ++ equalsSign :: raw) =
      (cs.map Piece.scalar, some raw) := by
  induction cs with
  | nil =>
      rfl
  | cons c rest ih =>
      have hc : '=' ≠ c := fun h => hcs (h ▸ List.mem_cons_self)
      have hrest := ih fun h => hcs (List.mem_cons_of_mem c h)
      simp [splitAttached, hrest, hc.symm]

theorem eq_append_of_splitAttached (raw : RawText) :
    raw = (splitAttached raw).1 ++
      match (splitAttached raw).2 with
      | none => []
      | some v => equalsSign :: v := by
  induction raw with
  | nil =>
      rfl
  | cons piece rest ih =>
      by_cases hpiece : piece = .scalar '='
      · subst hpiece
        rfl
      · simp only [splitAttached, if_neg hpiece, List.cons_append]
        rw [← ih]

theorem equalsSign_not_mem_longName (o : Opt) : '=' ∉ o.longName.toList := by
  rcases o with p | _ | _
  · cases p <;> decide
  · decide
  · decide

theorem ofString_longName_ne_nil (o : Opt) : Utf8.ofString o.longName ≠ [] := by
  rcases o with p | _ | _
  · cases p <;> decide
  · decide
  · decide

theorem shape_dash_dash {rest : RawText} (hrest : rest ≠ []) :
    shape (dash :: dash :: rest) = .long (splitAttached rest).1 (splitAttached rest).2 := by
  simp [shape, dash, hrest]

theorem shape_longArgument (o : Opt) :
    shape (longArgument o) = .long (Utf8.ofString o.longName) none := by
  unfold longArgument
  rw [shape_dash_dash (ofString_longName_ne_nil o)]
  unfold Utf8.ofString
  rw [splitAttached_map_scalar (equalsSign_not_mem_longName o)]

theorem shape_longArgument_attached (o : Opt) (raw : RawText) :
    shape (longArgument o ++ equalsSign :: raw) =
      .long (Utf8.ofString o.longName) (some raw) := by
  unfold longArgument
  rw [List.cons_append, List.cons_append, shape_dash_dash (by simp)]
  unfold Utf8.ofString
  rw [splitAttached_map_scalar_append (equalsSign_not_mem_longName o)]

theorem shape_shortArgument {c : Char} (hc : c ≠ '-') (raw : RawText) :
    shape (shortArgument c ++ raw) = .cluster (.scalar c :: raw) := by
  simp [shape, shortArgument, dash, hc]

def Shape.Describes : Shape -> RawText -> Prop
  | .separator, raw => raw = dashes
  | .long name none, raw => raw = dash :: dash :: name
  | .long name (some v), raw => raw = dash :: dash :: name ++ equalsSign :: v
  | .cluster flags, raw => raw = dash :: flags ∧ flags ≠ []
  | .word, raw => Separable raw

theorem shape_describes (raw : RawText) : (shape raw).Describes raw := by
  unfold shape
  split
  · rename_i rest
    split
    · rename_i hrest
      rw [hrest]
      rfl
    · have hparts := eq_append_of_splitAttached rest
      cases hattached : (splitAttached rest).2 with
      | none =>
          rw [hattached, List.append_nil] at hparts
          exact congrArg (dash :: dash :: ·) hparts
      | some v =>
          rw [hattached] at hparts
          exact congrArg (dash :: dash :: ·) hparts
  · exact ⟨rfl, List.cons_ne_nil _ _⟩
  · rename_i hlong hcluster
    intro hhead
    cases raw with
    | nil => cases hhead
    | cons piece rest =>
        cases hhead
        cases rest with
        | nil => rfl
        | cons next more => exact absurd rfl (hcluster next more)

theorem shape_of_separable {raw : RawText} (h : Separable raw) : shape raw = .word := by
  unfold shape
  split
  · cases h rfl
  · cases h rfl
  · rfl

/-!
# Names
-/

theorem lossy_ofString (s : String) : Utf8.lossy (Utf8.ofString s) = s := by
  simp [Utf8.lossy, Utf8.ofString, Piece.shown, Function.comp_def]

theorem ofLongName?_longName (o : Opt) :
    Opt.ofLongName? (Utf8.lossy (Utf8.ofString o.longName)) = some o := by
  rw [lossy_ofString]
  rcases o with p | _ | _
  · cases p <;> rfl
  · rfl
  · rfl

theorem eq_ofString_of_lossy_eq {raw : RawText} {s : String} (hs : '\uFFFD' ∉ s.toList)
    (h : Utf8.lossy raw = s) : raw = Utf8.ofString s := by
  subst h
  unfold Utf8.lossy Utf8.ofString at *
  rw [String.toList_ofList] at *
  induction raw with
  | nil =>
      rfl
  | cons piece rest ih =>
      cases piece with
      | ill bytes => exact absurd List.mem_cons_self hs
      | scalar c =>
          have hrest := ih fun h => hs (List.mem_cons_of_mem _ h)
          rw [List.map_cons, List.map_cons, ← hrest]
          rfl

theorem replacement_not_mem_longName (o : Opt) : '\uFFFD' ∉ o.longName.toList := by
  rcases o with p | _ | _
  · cases p <;> decide
  · decide
  · decide

theorem eq_ofString_of_ofLongName? {name : RawText} {o : Opt}
    (h : Opt.ofLongName? (Utf8.lossy name) = some o) : name = Utf8.ofString o.longName := by
  unfold Opt.ofLongName? at h
  have hname := List.find?_some h
  exact eq_ofString_of_lossy_eq (replacement_not_mem_longName o) (eq_of_beq hname).symm

theorem ofShortName?_eq_some_iff {c : Char} {o : Opt} :
    Opt.ofShortName? c = some o <-> o.shortName? = some c := by
  constructor
  · intro h
    unfold Opt.ofShortName? at h
    have hname := List.find?_some h
    exact eq_of_beq hname
  · intro h
    rcases o with p | _ | _
    · cases p <;> cases h <;> rfl
    · cases h
    · cases h
      rfl

end CommandLine
end ConstantReply
