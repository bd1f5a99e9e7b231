import ConstantReply.Log.Event
import ConstantReply.Numeral
import ConstantReply.Text.Ascii
import ConstantReply.Text.Blank
import ConstantReply.Text.Utf8

/-!
# Which events are written

A filter is a list of directives.  Each sets a limit for the origins that start with its target; the
directive with the longest matching target decides.  Filters and written lines stand for
tracing-subscriber, and were tried against the log of whole runs.
-/

namespace ConstantReply
namespace Log

abbrev Limit := Option Level

namespace Limit

def parse? (s : String) : Option Limit :=
  let byNumber : Option Limit :=
    match Numeral.readWord s.toList with
    | .ok 0 => some none
    | .ok 1 => some (some .error)
    | .ok 2 => some (some .warn)
    | .ok 3 => some (some .info)
    | .ok 4 => some (some .debug)
    | .ok 5 => some (some .trace)
    | _ => none
  byNumber <|>
    match Ascii.lower s with
    | "off" => some none
    | "error" => some (some .error)
    | "warn" => some (some .warn)
    | "info" => some (some .info)
    | "debug" => some (some .debug)
    | "trace" => some (some .trace)
    | _ => none

def allows (limit : Limit) (level : Level) : Bool :=
  match limit with
  | none => false
  | some least => level.rank ≤ least.rank

end Limit

/-- A limit for the origins that start with a target; without a target, for all. -/
structure Directive where
  target : Option String
  limit : Limit
  deriving DecidableEq, Repr

namespace Directive

def opensDirective (c : Char) : Bool :=
  c.isAlphanum || 128 ≤ c.toNat || c == '-' || c == ':' || c == '_'

def parse? (s : String) : Option Directive :=
  let trimmed := s.toList.dropWhile Blank.isWhiteSpace
  let isSpecial (c : Char) : Bool := c == '=' || c == '['
  match trimmed with
  | [] => none
  | c :: _ =>
      if opensDirective c = false then none
      else
        let place := (trimmed.takeWhile fun c => !isSpecial c).length
        match trimmed[place]? with
        | none =>
            match Limit.parse? s with
            | some limit => some ⟨none, limit⟩
            | none => some ⟨some s, some .trace⟩
        | some special =>
            if special ≠ '=' then none
            else
              let target := String.ofList (s.toList.take place)
              let limit := String.ofList (s.toList.drop (place + 1))
              if limit = "" then some ⟨some target, some .trace⟩
              else (Limit.parse? limit).map fun limit => ⟨some target, limit⟩

def weight (d : Directive) : Nat :=
  match d.target with
  | none => 0
  | some target => target.length + 1

def concerns (d : Directive) (origin : String) : Bool :=
  match d.target with
  | none => true
  | some target => target.toList.isPrefixOf origin.toList

end Directive

abbrev Filter := List Directive

namespace Filter

/-- The directives of a comma separated list, if all of them can be read.  An empty list lets only
errors through. -/
def parse? (s : String) : Option Filter :=
  let items := (s.toList.splitOn ',').filter fun item => item ≠ []
  if items = [] then some [⟨none, some .error⟩]
  else items.mapM fun item => Directive.parse? (String.ofList item)

def directiveFor? (filter : Filter) (origin : String) : Option Directive :=
  filter.foldl
    (fun best d =>
      if d.concerns origin then
        match best with
        | none => some d
        | some known => if d.weight < known.weight then best else some d
      else best)
    none

def allows (filter : Filter) (event : Event) : Bool :=
  match filter.directiveFor? event.origin with
  | none => false
  | some d => d.limit.allows event.level

end Filter

/-!
## The configured level
-/

def defaultDirectives (level : String) : String :=
  let level := Ascii.lower level
  "warn,ok_server=" ++ level ++ ",tower_http=" ++ level

def Filter.choose (fromEnvironment : Option Utf8.RawText) (level : String) : Filter :=
  match (fromEnvironment.bind Utf8.decode?).bind Filter.parse? with
  | some filter => filter
  | none => (Filter.parse? (defaultDirectives level)).getD []

end Log
end ConstantReply
