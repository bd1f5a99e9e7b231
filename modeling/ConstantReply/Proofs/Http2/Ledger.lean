import ConstantReply.Http2.Connection
import ConstantReply.Proofs.Hpack.BlockText
import ConstantReply.Proofs.Http2.ClientFrame

/-!
# What a client keeps in mind

A client that keeps to the rules knows its streams, how much it has sent, and what it may still send.
What it may do next depends on that and on what it has heard from the server; the more it has heard,
the more it may do.
-/

namespace ConstantReply
namespace Http2

open Hpack (BlockText Field Table listSize)

/-!
## What the server has told
-/

namespace ServerFrame

def answered? : ServerFrame -> Option Nat
  | .answer stream _ _ => some stream
  | _ => none

def increment : ServerFrame -> Nat
  | .windowUpdate n => n
  | _ => 0

end ServerFrame

def answers (heard : List ServerFrame) : List Nat := heard.filterMap ServerFrame.answered?

def granted : List ServerFrame -> Nat
  | [] => 0
  | f :: rest => f.increment + granted rest

def roomsAsked (settings : List Setting) : List Nat :=
  (settings.filter fun s => s.id == 1).map Setting.value

def replaceIn (streams : List Exchange) (e : Exchange) : List Exchange :=
  streams.map fun known => if known.stream = e.stream then e else known

structure Ledger where
  table : Table := {}
  openBlock : Option OpenBlock := none
  streams : List Exchange := []
  nextStream : Nat := 1
  sent : Nat := 0
  credit : Nat := usualWindow
  acknowledged : Bool := false
  rooms : List Nat := []
  deriving DecidableEq

namespace Ledger

def unanswered (l : Ledger) (heard : List ServerFrame) : Nat :=
  l.streams.length - (answers heard).length

def streamWindow (l : Ledger) : Nat := if l.acknowledged then targetWindow else usualWindow

variable (may : Liberties) (l : Ledger) (heard : List ServerFrame)

/-- A header block may be completed: that of a new request, or fields that end one. -/
inductive Lists (stream : Nat) (endStream : Bool) (block : List UInt8) : Ledger -> Prop where
  | request {r : RequestText} {list : List Field} {table : Table} {length : Option Nat} :
      stream % 2 = 1 -> l.nextStream ≤ stream -> l.unanswered heard < greatestWaiting ->
      BlockText may.integerSize Hpack.usualRoom true l.table block list table ->
      r.IsList list -> r.IsValid may -> listSize list ≤ usualListSize ->
      StatesLength may r.fields length -> (endStream = true -> length.getD 0 = 0) ->
      Lists stream endStream block
        { l with
          table := table
          streams := l.streams ++ [⟨stream, r.method, length, 0, endStream⟩]
          nextStream := stream + 2 }
  | trailers {e : Exchange} {fields : List Field} {table : Table} :
      e ∈ l.streams -> e.stream = stream -> e.ended = false -> endStream = true ->
      e.left.getD 0 = 0 ->
      BlockText may.integerSize Hpack.usualRoom true l.table block fields table ->
      (forall f, f ∈ fields -> IsField may f) -> listSize fields ≤ usualListSize ->
      Lists stream endStream block
        { l with table := table, streams := replaceIn l.streams { e with ended := true } }

/-- A frame may be sent, and what is to be kept in mind after it. -/
inductive Sends : ClientFrame -> Ledger -> Prop where
  | headers {stream : Nat} {padding : Option (List UInt8)} {p : Option Priority}
      {fragment : List UInt8} {endStream : Bool} {next : Ledger} :
      l.openBlock = none -> Lists may l heard stream endStream fragment next ->
      Sends (.headers stream padding p fragment true endStream) next
  | openHeaders {stream : Nat} {padding : Option (List UInt8)} {p : Option Priority}
      {fragment : List UInt8} {endStream : Bool} :
      l.openBlock = none ->
      Sends (.headers stream padding p fragment false endStream)
        { l with openBlock := some ⟨stream, fragment, endStream, 0⟩ }
  | continuation {b : OpenBlock} {fragment : List UInt8} :
      l.openBlock = some b -> b.continuations < may.continuations ->
      Sends (.continuation b.stream fragment false)
        { l with
          openBlock := some
            { b with block := b.block ++ fragment, continuations := b.continuations + 1 } }
  | lastContinuation {b : OpenBlock} {fragment : List UInt8} {next : Ledger} :
      l.openBlock = some b ->
      Lists may { l with openBlock := none } heard b.stream b.endStream (b.block ++ fragment) next ->
      Sends (.continuation b.stream fragment true) next
  | data {e : Exchange} {padding : Option (List UInt8)} {content : List UInt8} {endStream : Bool} :
      l.openBlock = none -> e ∈ l.streams -> e.ended = false ->
      l.sent + (padded padding content).length ≤ usualWindow + granted heard ->
      e.received + (padded padding content).length ≤ l.streamWindow ->
      (forall n, n ∈ e.left -> content.length ≤ n) ->
      (endStream = true -> e.left.getD 0 ≤ content.length) ->
      Sends (.data e.stream padding content endStream)
        { l with
          sent := l.sent + (padded padding content).length
          streams := replaceIn l.streams
            { e with
              left := e.left.map (· - content.length)
              received := e.received + (padded padding content).length
              ended := endStream } }
  | priority {stream : Nat} {p : Priority} : l.openBlock = none -> Sends (.priority stream p) l
  | settings {list : List Setting} :
      l.openBlock = none -> Sends (.settings list) { l with rooms := l.rooms ++ roomsAsked list }
  | settingsAck :
      l.openBlock = none -> l.acknowledged = false -> .settings ∈ heard ->
      Sends .settingsAck { l with acknowledged := true }
  | ping {payload : List UInt8} : l.openBlock = none -> Sends (.ping payload) l
  | windowUpdate {increment : Nat} :
      l.openBlock = none -> l.credit + increment < halfRange ->
      Sends (.windowUpdate 0 increment) { l with credit := l.credit + increment }
  | streamWindowUpdate {e : Exchange} {increment : Nat} :
      l.openBlock = none -> e ∈ l.streams -> Sends (.windowUpdate e.stream increment) l
  | unknown {kind : Nat} {flags : UInt8} {stream : Nat} {payload : List UInt8} :
      l.openBlock = none -> Sends (.unknown kind flags stream payload) l

end Ledger

/-!
## Hearing more
-/

theorem answers_append (front rest : List ServerFrame) :
    answers (front ++ rest) = answers front ++ answers rest := List.filterMap_append

theorem granted_append (front rest : List ServerFrame) :
    granted (front ++ rest) = granted front + granted rest := by
  induction front with
  | nil => exact (Nat.zero_add _).symm
  | cons f more ih => rw [List.cons_append, granted, ih, granted, Nat.add_assoc]

namespace Ledger

variable {may : Liberties} {l next : Ledger} {heard : List ServerFrame}

theorem unanswered_append_le (l : Ledger) (heard more : List ServerFrame) :
    l.unanswered (heard ++ more) ≤ l.unanswered heard := by
  rw [unanswered, unanswered, answers_append, List.length_append]
  omega

theorem lists_append {stream : Nat} {endStream : Bool} {block : List UInt8}
    (h : Lists may l heard stream endStream block next) (more : List ServerFrame) :
    Lists may l (heard ++ more) stream endStream block next := by
  cases h with
  | request hodd hnew hfew htext hlist hvalid hsize hlength hend =>
      exact Lists.request hodd hnew (Nat.lt_of_le_of_lt (unanswered_append_le l heard more) hfew)
        htext hlist hvalid hsize hlength hend
  | trailers hmem hstream hopen hend hleft htext hfields hsize =>
      exact Lists.trailers hmem hstream hopen hend hleft htext hfields hsize

theorem sends_append {f : ClientFrame} (h : Sends may l heard f next) (more : List ServerFrame) :
    Sends may l (heard ++ more) f next := by
  cases h with
  | headers hnone hlists => exact Sends.headers hnone (lists_append hlists more)
  | openHeaders hnone => exact Sends.openHeaders hnone
  | continuation hsome hfew => exact Sends.continuation hsome hfew
  | lastContinuation hsome hlists => exact Sends.lastContinuation hsome (lists_append hlists more)
  | data hnone hmem hopen hsent hreceived hleft hend =>
      refine Sends.data hnone hmem hopen ?_ hreceived hleft hend
      rw [granted_append]
      omega
  | priority hnone => exact Sends.priority hnone
  | settings hnone => exact Sends.settings hnone
  | settingsAck hnone hfirst hheard =>
      exact Sends.settingsAck hnone hfirst (List.mem_append_left more hheard)
  | ping hnone => exact Sends.ping hnone
  | windowUpdate hnone hcredit => exact Sends.windowUpdate hnone hcredit
  | streamWindowUpdate hnone hmem => exact Sends.streamWindowUpdate hnone hmem
  | unknown hnone => exact Sends.unknown hnone

end Ledger
end Http2
end ConstantReply
