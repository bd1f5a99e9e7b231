import ConstantReply.CommandLine.Option
import ConstantReply.Failure
import ConstantReply.Numeral
import ConstantReply.Text.Similarity

/-!
# Why a command line is not carried out

Every failure is final.  Asking for help is one of them: it ends the reading of the command line,
but it is answered on standard output and is no error.  One of them is no answer to the command line
either: the reading halts where it looks for the name that an unknown one is like, if an argument
further on is no text.
-/

namespace ConstantReply
namespace CommandLine

/-- Why the reading of a command line ended without settings. -/
inductive Failure where
  | help (full : Bool)
  | badNumber (p : Parameter) (shown : String) (problem : Numeral.Problem)
  | badFormat (shown : String)
  | missingValue (p : Parameter)
  | notText
  | repeated (o : Opt)
  | needlessValue (o : Opt) (shown : String) (used : List Opt)
  | unexpected (shown : String)
  | unknownName (name : String) (used : List Opt)
  | undecodable
  deriving DecidableEq, Repr

namespace Failure

def halt? : Failure -> Option Halt
  | .undecodable => some .undecodable
  | _ => none

def exitCode : Failure -> Nat
  | .help _ => 0
  | .undecodable => Halt.exitCode
  | _ => 2

def isMisuse : Failure -> Bool
  | .help _ => false
  | _ => true

/-!
## Messages
-/

def usageLine (program : String) (what : String) : String :=
  "\n\nUsage: " ++ program ++ " " ++ what

def generalUsage (program : String) : String := usageLine program "[OPTIONS]"

def choices : Parameter -> String
  | .logFormat =>
      "\n  [possible values: " ++ String.intercalate ", " (LogFormat.all.map LogFormat.name) ++ "]"
  | _ => ""

def valueRequired (p : Parameter) : String :=
  "a value is required for '" ++ p.label ++ "' but none was supplied" ++ choices p

def tip (what : String) (name : String) : String :=
  "\n\n  tip: a similar " ++ what ++ " exists: '" ++ name ++ "'"

def similarOption? (name : String) : Option Opt :=
  Similarity.mostLike? name Opt.longName Opt.all

def usedThen (used : List Opt) (o : Opt) : List Opt := if o ∈ used then used else used ++ [o]

def usageWith (program : String) (used : List Opt) : String :=
  if used = [] then generalUsage program
  else usageLine program (String.intercalate " " (used.map Opt.label))

def reason (program : String) : Failure -> String
  | .help _ => ""
  | .badNumber p shown problem =>
      "invalid value '" ++ shown ++ "' for '" ++ p.label ++ "': " ++ problem.message
  | .badFormat shown =>
      if shown = "" then valueRequired .logFormat
      else
        "invalid value '" ++ shown ++ "' for '" ++ Parameter.label .logFormat ++ "'" ++
          choices .logFormat ++
          match Similarity.mostLike? shown LogFormat.name LogFormat.all with
          | some format => tip "value" format.name
          | none => ""
  | .missingValue p => valueRequired p
  | .notText => "invalid UTF-8 was detected in one or more arguments" ++ generalUsage program
  | .repeated o =>
      "the argument '" ++ o.label ++ "' cannot be used multiple times" ++ generalUsage program
  | .needlessValue o shown used =>
      "unexpected value '" ++ shown ++ "' for '" ++ o.label ++
        "' found; no more were expected" ++ usageWith program (usedThen used o)
  | .unexpected shown => "unexpected argument '" ++ shown ++ "' found" ++ generalUsage program
  | .unknownName name used =>
      "unexpected argument '--" ++ name ++ "' found" ++
        match similarOption? name with
        | some o =>
            tip "argument" ("--" ++ o.longName) ++ usageWith program (usedThen used o)
        | none => usageWith program used
  | .undecodable => Halt.undecodable.message

end Failure
end CommandLine
end ConstantReply
