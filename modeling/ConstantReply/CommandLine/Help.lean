import ConstantReply.CommandLine.Option
import ConstantReply.Text.Utf8

/-!
# Help

One paragraph for each option: its names, what it is for, and where else its value can come from.
The short form keeps notes on the line of the description; the full form gives them lines of their
own and blank lines between the options.
-/

namespace ConstantReply
namespace CommandLine

abbrev Environment := String -> Option Utf8.RawText

namespace Help

def purpose : Opt -> String
  | .value .host => "Host name or IP address to listen on [default: 127.0.0.1]"
  | .value .port => "TCP port to listen on [default: 3000]"
  | .value .backlog => "Length of the accept queue [default: 100]"
  | .value .maxConnections => "Maximum concurrent connections [default: 10000]"
  | .value .workers => "Runtime worker threads [default: one per core]"
  | .noKeepAlive => "Close each connection after its response"
  | .value .headTimeout =>
      "Time allowed to receive a request head, in milliseconds [default: 30000]"
  | .value .drainTimeout =>
      "Time allowed for connections to drain on shutdown, in seconds [default: 10]"
  | .value .logLevel => "Log level, overridden by RUST_LOG [default: info]"
  | .value .logFormat => "Log output format"
  | .help => "Print help"

def formatPurpose : LogFormat -> String
  | .text => "Human readable lines"
  | .json => "One JSON object per event"

def environmentNote (environment : Environment) (o : Opt) : Option String :=
  match o with
  | .value p =>
      p.environmentName?.map fun name =>
        "[env: " ++ name ++ "=" ++ ((environment name).map Utf8.lossy).getD "" ++ "]"
  | _ => none

def nameLine (o : Opt) : String :=
  match o.shortName? with
  | some c => "  -" ++ String.ofList [c] ++ ", " ++ o.label
  | none => "      " ++ o.label

def indent : String := "          "

def hang (s : String) : String :=
  String.ofList (s.toList.flatMap fun c => if c = '\n' then '\n' :: indent.toList else [c])

def shortText (environment : Environment) (o : Opt) : String :=
  purpose o ++
    match o with
    | .value .logFormat =>
        " [possible values: " ++ String.intercalate ", " (LogFormat.all.map LogFormat.name) ++ "]"
    | .help => " (see more with '--help')"
    | _ => match environmentNote environment o with
        | some note => " " ++ note
        | none => ""

def fullText (environment : Environment) (o : Opt) : String :=
  purpose o ++
    match o with
    | .help => " (see a summary with '-h')"
    | _ => match environmentNote environment o with
        | some note => "\n\n" ++ note
        | none => ""

def formatList : String :=
  "\n\n" ++ indent ++ "Possible values:" ++
    String.join (LogFormat.all.map fun f =>
      "\n" ++ indent ++ "- " ++ f.name ++ ": " ++ formatPurpose f)

def shortEntry (environment : Environment) (o : Opt) : String :=
  nameLine o ++ "\n" ++ indent ++ hang (shortText environment o)

def fullEntry (environment : Environment) (o : Opt) : String :=
  nameLine o ++ "\n" ++ indent ++ hang (fullText environment o) ++
    if o = .value .logFormat then formatList else ""

def text (program : String) (environment : Environment) (full : Bool) : String :=
  let entries :=
    if full then String.intercalate "\n\n" (Opt.all.map (fullEntry environment))
    else String.intercalate "\n" (Opt.all.map (shortEntry environment))
  "HTTP server that answers every request with 200 OK\n\nUsage: " ++ program ++
    " [OPTIONS]\n\nOptions:\n" ++ entries ++ "\n"

end Help
end CommandLine
end ConstantReply
