import ConstantReply.CommandLine.Failure
import ConstantReply.CommandLine.Help
import ConstantReply.Text.Plain
import ConstantReply.Text.Utf8

/-!
# Reading a command line

Arguments are examined from left to right and the first failure ends the reading.  A value attached
to its option is read at once.  A value that stands in an argument of its own waits, unread, until
the next known option or the end; an argument that nothing awaits is reported before it.  Variables
of the environment are read last, and only for options that the arguments leave open.

The reading, its failures and the help stand for clap, and were tried against its answers.
-/

namespace ConstantReply
namespace CommandLine

open Utf8 (RawText Piece)

/-!
## Values
-/

def readText (raw : RawText) : Except Failure String :=
  match Utf8.decode? raw with
  | some s => .ok s
  | none => .error .notText

def readNumber (p : Parameter) (read : List Char -> Except Numeral.Problem Nat)
    (raw : RawText) : Except Failure Nat :=
  match readText raw with
  | .error failure => .error failure
  | .ok s =>
      match read s.toList with
      | .ok n => .ok n
      | .error problem => .error (.badNumber p s problem)

def readFormat (raw : RawText) : Except Failure LogFormat :=
  match LogFormat.all.find? fun f => Utf8.ofString f.name == raw with
  | some f => .ok f
  | none => .error (.badFormat (Utf8.lossy raw))

def Parameter.read (p : Parameter) (raw : RawText) : Except Failure p.Value :=
  match p with
  | .host => readText raw
  | .port => (readNumber .port (Numeral.readUpTo 65535) raw).map UInt16.ofNat
  | .backlog => (readNumber .backlog (Numeral.readUpTo 4294967295) raw).map UInt32.ofNat
  | .maxConnections => (readNumber .maxConnections Numeral.readWord raw).map UInt64.ofNat
  | .workers => (readNumber .workers Numeral.readWord raw).map UInt64.ofNat
  | .headTimeout => (readNumber .headTimeout Numeral.readWord raw).map UInt64.ofNat
  | .drainTimeout => (readNumber .drainTimeout Numeral.readWord raw).map UInt64.ofNat
  | .logLevel => readText raw
  | .logFormat => readFormat raw

/-!
## Progress
-/

/-- The option that the arguments so far leave unsettled. -/
inductive Pending where
  | nothing
  | awaiting (p : Parameter)
  | holding (p : Parameter) (raw : RawText)

/-- What the arguments so far amount to. -/
structure Progress where
  settled : List Occurrence := []
  pending : Pending := .nothing

namespace Progress

def used (st : Progress) : List Opt := st.settled.map Occurrence.opt

def assign (p : Parameter) (raw : RawText) (st : Progress) : Except Failure Progress :=
  if Opt.value p ∈ st.used then .error (.repeated (.value p))
  else
    match p.read raw with
    | .error failure => .error failure
    | .ok v => .ok ⟨st.settled ++ [.value ⟨p, v⟩], .nothing⟩

def settle (st : Progress) : Except Failure Progress :=
  match st.pending with
  | .nothing => .ok st
  | .awaiting p => .error (.missingValue p)
  | .holding p raw => st.assign p raw

/-- The options that a suggestion is shown after.  The pending one counts as used even if its value
is no good; one that is used twice does not count at all. -/
def usedWithPending (st : Progress) : List Opt :=
  match st.pending with
  | .holding p _ =>
      if Opt.value p ∈ st.used then st.used.erase (.value p) else st.used ++ [.value p]
  | _ => st.used

end Progress

/-!
## Arguments
-/

/-- An argument, by its shape. -/
inductive Shape where
  | separator
  | long (name : RawText) (attached : Option RawText)
  | cluster (flags : RawText)
  | word
  deriving DecidableEq

def splitAttached : RawText -> RawText × Option RawText
  | [] => ([], none)
  | piece :: rest =>
      if piece = .scalar '=' then ([], some rest)
      else (piece :: (splitAttached rest).1, (splitAttached rest).2)

def shape : RawText -> Shape
  | .scalar '-' :: .scalar '-' :: rest =>
      if rest = [] then .separator
      else .long (splitAttached rest).1 (splitAttached rest).2
  | .scalar '-' :: piece :: rest => .cluster (piece :: rest)
  | _ => .word

def useSwitch (o : Opt) (full : Bool) (st : Progress) : Except Failure Progress :=
  match st.settle with
  | .error failure => .error failure
  | .ok st =>
      match o with
      | .noKeepAlive =>
          if Opt.noKeepAlive ∈ st.used then .error (.repeated .noKeepAlive)
          else .ok ⟨st.settled ++ [.noKeepAlive], .nothing⟩
      | _ => .error (.help full)

def useParameter (p : Parameter) (attached : Option RawText) (st : Progress) :
    Except Failure Progress :=
  match st.settle with
  | .error failure => .error failure
  | .ok st =>
      match attached with
      | some raw => st.assign p raw
      | none => .ok { st with pending := .awaiting p }

def useLong (name : RawText) (attached : Option RawText) (following : List RawText)
    (st : Progress) : Except Failure Progress :=
  match Opt.ofLongName? (Utf8.lossy name) with
  | some (.value p) => useParameter p attached st
  | some o =>
      match attached with
      | some raw => .error (.needlessValue o (Utf8.lossy raw) st.used)
      | none => useSwitch o true st
  | none =>
      if following.all fun raw => (Utf8.decode? raw).isSome then
        .error (.unknownName (Utf8.lossy name) st.usedWithPending)
      else .error .undecodable

def clusterValue : RawText -> Option RawText
  | [] => none
  | piece :: rest => if piece = .scalar '=' then some rest else some (piece :: rest)

def useCluster : RawText -> Progress -> Except Failure Progress
  | [], st => .ok st
  | .ill bytes :: rest, _ => .error (.unexpected ("-" ++ Utf8.lossy (.ill bytes :: rest)))
  | .scalar c :: rest, st =>
      match Opt.ofShortName? c with
      | none => .error (.unexpected ("-" ++ String.ofList [c]))
      | some (.value p) => useParameter p (clusterValue rest) st
      | some o =>
          match useSwitch o false st with
          | .error failure => .error failure
          | .ok st => useCluster rest st

def useWord (raw : RawText) (st : Progress) : Except Failure Progress :=
  match st.pending with
  | .awaiting p => .ok { st with pending := .holding p raw }
  | _ => .error (.unexpected (Utf8.lossy raw))

def afterSeparator (st : Progress) : List RawText -> Except Failure Progress
  | [] => st.settle
  | raw :: _ => .error (.unexpected (Utf8.lossy raw))

def examine (st : Progress) : List RawText -> Except Failure Progress
  | [] => st.settle
  | raw :: rest =>
      match shape raw with
      | .separator => afterSeparator st rest
      | .long name attached =>
          match useLong name attached rest st with
          | .error failure => .error failure
          | .ok st => examine st rest
      | .cluster flags =>
          match useCluster flags st with
          | .error failure => .error failure
          | .ok st => examine st rest
      | .word =>
          match useWord raw st with
          | .error failure => .error failure
          | .ok st => examine st rest

/-!
## The environment
-/

def fromEnvironment (environment : Environment) (p : Parameter) : Option RawText :=
  p.environmentName?.bind environment

def environmentParameters : List Parameter := [.host, .port, .workers]

def complete (environment : Environment) :
    List Parameter -> Progress -> Except Failure Progress
  | [], st => .ok st
  | p :: rest, st =>
      if Opt.value p ∈ st.used then complete environment rest st
      else
        match fromEnvironment environment p with
        | none => complete environment rest st
        | some raw =>
            match st.assign p raw with
            | .error failure => .error failure
            | .ok st => complete environment rest st

def overlay (occurrences : List Occurrence) : Settings :=
  occurrences.foldl (fun s o => o.apply s) {}

def interpret (arguments : List RawText) (environment : Environment) :
    Except Failure Settings :=
  match examine {} arguments with
  | .error failure => .error failure
  | .ok st =>
      match complete environment environmentParameters st with
      | .error failure => .error failure
      | .ok st => .ok (overlay st.settled)

/-!
## The whole command line
-/

def pathParts (raw : RawText) : List RawText :=
  (raw.splitOn (.scalar '/')).filter fun part => part ≠ [] ∧ part ≠ [.scalar '.']

def programName (arguments : List RawText) : String :=
  let fallback := "ok-server"
  match arguments with
  | [] => fallback
  | path :: _ =>
      match (pathParts path).getLast? with
      | none => fallback
      | some part =>
          if part = [.scalar '.', .scalar '.'] then fallback
          else (Utf8.decode? part).getD fallback

def parse (arguments : List RawText) (environment : Environment) :
    Except Failure Settings :=
  interpret arguments.tail environment

def Failure.text (arguments : List RawText) (environment : Environment) (failure : Failure) :
    String :=
  match failure with
  | .help full => Help.text (programName arguments) environment full
  | .undecodable => Halt.undecodable.message ++ "\n"
  | _ =>
      "error: " ++ failure.reason (programName arguments) ++
        "\n\nFor more information, try '--help'.\n"

def Failure.message (arguments : List RawText) (environment : Environment)
    (failure : Failure) : String :=
  Plain.shown (failure.text arguments environment)

end CommandLine
end ConstantReply
