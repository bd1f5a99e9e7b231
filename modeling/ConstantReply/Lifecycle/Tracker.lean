/-!
# Counting connections

A tracker counts the connections that are open.  A clone of a tracker shares its count; the
trackers that share one count are a family.  Each connection is represented by a guard, which
counts until it is released, also after every tracker of its family is gone.  Numbers are handed out
in one order for all families.
-/

namespace ConstantReply

/-- The number of a connection, unique while the numbers last. -/
structure ConnectionId where
  number : UInt64
  deriving DecidableEq, Repr

namespace ConnectionId

def display (id : ConnectionId) : String := "conn-" ++ toString id.number.toNat

end ConnectionId

/-- An open connection: the family that counts it, and its number. -/
structure Guard where
  family : Nat
  id : ConnectionId
  deriving DecidableEq, Repr

/-- All trackers and guards.  A tracker or guard is known by its place in its list; the place of one
that is gone stays empty. -/
structure Tracking where
  nextNumber : UInt64 := 1
  active : List UInt64 := []
  trackers : List (Option Nat) := []
  guards : List (Option Guard) := []
  deriving DecidableEq, Repr

namespace Tracking

/-!
## Look-up
-/

def familyOf? (s : Tracking) (tracker : Nat) : Option Nat := s.trackers[tracker]?.join

def guard? (s : Tracking) (guard : Nat) : Option Guard := s.guards[guard]?.join

def activeCount? (s : Tracking) (tracker : Nat) : Option UInt64 :=
  (s.familyOf? tracker).bind fun family => s.active[family]?

/-!
## Operations

An operation on a tracker or guard that is gone has no result.
-/

def create (s : Tracking) : Tracking :=
  { s with active := s.active ++ [0], trackers := s.trackers ++ [some s.active.length] }

def share? (s : Tracking) (tracker : Nat) : Option Tracking :=
  (s.familyOf? tracker).map fun family => { s with trackers := s.trackers ++ [some family] }

def track? (s : Tracking) (tracker : Nat) : Option Tracking :=
  (s.familyOf? tracker).map fun family =>
    { s with
      nextNumber := s.nextNumber + 1
      active := s.active.modify family (· + 1)
      guards := s.guards ++ [some ⟨family, ⟨s.nextNumber⟩⟩] }

def release? (s : Tracking) (guard : Nat) : Option Tracking :=
  (s.guard? guard).map fun g =>
    { s with
      active := s.active.modify g.family (· - 1)
      guards := s.guards.set guard none }

def forget? (s : Tracking) (tracker : Nat) : Option Tracking :=
  (s.familyOf? tracker).map fun _ => { s with trackers := s.trackers.set tracker none }

/-!
## Runs
-/

inductive Operation where
  | create
  | share (tracker : Nat)
  | track (tracker : Nat)
  | release (guard : Nat)
  | forget (tracker : Nat)
  deriving DecidableEq, Repr

def perform? (s : Tracking) : Operation -> Option Tracking
  | .create => some s.create
  | .share tracker => s.share? tracker
  | .track tracker => s.track? tracker
  | .release guard => s.release? guard
  | .forget tracker => s.forget? tracker

def run (s : Tracking) (operations : List Operation) : Tracking :=
  operations.foldl (fun s o => (s.perform? o).getD s) s

end Tracking
end ConstantReply
