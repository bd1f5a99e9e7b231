import ConstantReply.Log.Event
import ConstantReply.Settings

/-!
# Written form of log events

One line for each event, either for people, with or without colours, or as a JSON object.
-/

namespace ConstantReply
namespace Log

/-!
## Quoting
-/

def fourDigits (n : Nat) : List Char :=
  let digits := Nat.toDigits 16 n
  List.replicate (4 - digits.length) '0' ++ digits

def jsonChar (c : Char) : List Char :=
  if c = '"' then ['\\', '"']
  else if c = '\\' then ['\\', '\\']
  else if c = '\n' then ['\\', 'n']
  else if c = '\r' then ['\\', 'r']
  else if c = '\t' then ['\\', 't']
  else if c.toNat = 8 then ['\\', 'b']
  else if c.toNat = 12 then ['\\', 'f']
  else if c.toNat < 32 then '\\' :: 'u' :: fourDigits c.toNat
  else [c]

def jsonText (s : String) : String :=
  "\"" ++ String.ofList (s.toList.flatMap jsonChar) ++ "\""

def jsonObject (members : List (String × String)) : String :=
  "\x7b" ++
    String.intercalate "," (members.map fun m => jsonText m.1 ++ ":" ++ m.2) ++ "\x7d"

def Value.json : Value -> String
  | .shown s => jsonText s
  | .quoted s => jsonText s
  | .number n => toString n
  | .flag b => if b then "true" else "false"

def Value.plain : Value -> String
  | .shown s => s
  | .quoted s => "\"" ++ s ++ "\""
  | .number n => toString n
  | .flag b => if b then "true" else "false"

/-!
## Lines
-/

def styled (colours : Bool) (code : Nat) (s : String) : String :=
  if colours then "\x1b[" ++ toString code ++ "m" ++ s ++ "\x1b[0m" else s

def bold : Nat := 1

def dim : Nat := 2

def italic : Nat := 3

def Level.colour : Level -> Nat
  | .error => 31
  | .warn => 33
  | .info => 32
  | .debug => 34
  | .trace => 35

def Level.column (level : Level) : String :=
  if level.name.length < 5 then " " ++ level.name else level.name

def plainField (colours : Bool) (field : String × Value) : String :=
  styled colours italic field.1 ++ styled colours dim "=" ++ field.2.plain

def RequestSpan.fields (span : RequestSpan) : Fields :=
  [("method", .shown span.method), ("uri", .shown span.target), ("version", .shown span.version)]

def plainSpan (colours : Bool) (span : RequestSpan) : String :=
  styled colours bold "request" ++ styled colours bold "\x7b" ++
    String.intercalate " " (span.fields.map (plainField colours)) ++
    styled colours bold "\x7d" ++ styled colours dim ":" ++ " "

def Event.plainLine (colours : Bool) (time : String) (event : Event) : String :=
  styled colours dim time ++ " " ++ styled colours event.level.colour event.level.column ++ " " ++
    (event.span.map (plainSpan colours)).getD "" ++
    styled colours dim event.origin ++ styled colours dim ":" ++ " " ++
    String.intercalate " " (event.message :: event.fields.map (plainField colours))

def Event.jsonLine (time : String) (event : Event) : String :=
  let members (fields : Fields) : List (String × String) := fields.map fun f => (f.1, f.2.json)
  let span :=
    match event.span with
    | none => []
    | some span =>
        let written := jsonObject (members span.fields ++ [("name", jsonText "request")])
        [("span", written), ("spans", "[" ++ written ++ "]")]
  jsonObject
    ([("timestamp", jsonText time), ("level", jsonText event.level.name),
      ("fields", jsonObject (("message", jsonText event.message) :: members event.fields)),
      ("target", jsonText event.origin)] ++ span)

def Event.line (format : LogFormat) (colours : Bool) (time : String) (event : Event) : String :=
  match format with
  | .text => event.plainLine colours time
  | .json => event.jsonLine time

end Log
end ConstantReply
