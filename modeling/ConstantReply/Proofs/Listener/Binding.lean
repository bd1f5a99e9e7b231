import ConstantReply.Listener.Bind
import ConstantReply.Proofs.Runs

/-!
# Listeners that come to be

An attempt to bind fails at one of its calls, or there are not as many slots as it asks for, or there
is a socket with an address in the end.
-/

namespace ConstantReply

namespace SocketOutcomes

variable (sockets : SocketOutcomes) (table : SocketTable) (number : Nat)

theorem run_create (family : Family) :
    (sockets.calls.create family).run table =
      match sockets.create family with
      | .error e => (.error e, table)
      | .ok () => (.ok table.nextNumber, table.create family) := rfl

theorem run_reuseAddress :
    (sockets.calls.reuseAddress number).run table = (sockets.reuseAddress, table) := rfl

theorem run_bind (address : SocketAddress) :
    (sockets.calls.bind number address).run table =
      match sockets.bind table.bound address with
      | .error e => (.error e, table)
      | .ok got => (.ok (), table.setAddress number got) := rfl

theorem run_listen (backlog : UInt32) :
    (sockets.calls.listen number backlog).run table = (sockets.listen backlog, table) := rfl

theorem run_localAddress :
    (sockets.calls.localAddress number).run table =
      match table.addressOf? number with
      | none => (.error (.plain .notConnected), table)
      | some address => (sockets.localAddress address, table) := by
  cases h : table.addressOf? number <;>
    simp [calls, localAddress?, StateT.run, h]

end SocketOutcomes

namespace Listener

variable {sockets : SocketOutcomes} {endpoint : Endpoint} {table after : SocketTable}

theorem addressOf?_of_prepare {backlog : UInt32} {number : Nat} {address got : SocketAddress}
    (h : (prepare sockets.calls backlog number address).run table = (.ok got, after)) :
    exists bound, after.addressOf? number = some bound ∧ sockets.localAddress bound = .ok got := by
  unfold prepare at h
  rw [run_bind_of_run (sockets.run_reuseAddress table number)] at h
  cases hreuse : sockets.reuseAddress with
  | error e =>
      simp only [hreuse] at h
      cases h
  | ok u =>
  simp only [hreuse] at h
  have hbind := sockets.run_bind table number address
  cases hgot : sockets.bind table.bound address with
  | error e =>
      rw [hgot] at hbind
      rw [run_bind_of_run hbind] at h
      cases h
  | ok got =>
  rw [hgot] at hbind
  rw [run_bind_of_run hbind] at h
  simp only at h
  generalize table.setAddress number got = t at h
  rw [run_bind_of_run (sockets.run_listen t number backlog)] at h
  cases hlisten : sockets.listen backlog with
  | error e =>
      simp only [hlisten] at h
      cases h
  | ok u =>
  simp only [hlisten] at h
  have hlocal := sockets.run_localAddress t number
  cases hbound : t.addressOf? number with
  | none =>
      rw [hbound] at hlocal
      rw [run_bind_of_run hlocal] at h
      cases h
  | some bound =>
  rw [hbound] at hlocal
  rw [run_bind_of_run hlocal] at h
  cases htold : sockets.localAddress bound with
  | error e =>
      simp only [htold] at h
      cases h
  | ok b =>
      simp only [htold] at h
      cases h
      exact ⟨bound, hbound, htold⟩

/-- What an attempt to bind comes to. -/
inductive Binds (sockets : SocketOutcomes) (endpoint : Endpoint) :
    BindOutcome × SocketTable -> Prop where
  | failed (error : ListenError) (after : SocketTable) :
      Binds sockets endpoint (.failed error, after)
  | tooManySlots (after : SocketTable) :
      maxSlots < endpoint.maxConnections.toNat -> Binds sockets endpoint (.tooManySlots, after)
  | bound {listener : Listener} {after : SocketTable} {address : SocketAddress} :
      after.addressOf? listener.socket = some address ->
      sockets.localAddress address = .ok listener.address ->
      Binds sockets endpoint (.bound listener, after)

theorem binds_bindAddress (address : SocketAddress) (table : SocketTable) :
    Binds sockets endpoint ((bindAddress sockets.calls endpoint address).run table) := by
  unfold bindAddress
  have hcreate := sockets.run_create table address.family
  cases hopened : sockets.create address.family with
  | error e =>
      rw [hopened] at hcreate
      rw [run_bind_of_run hcreate]
      exact Binds.failed _ _
  | ok u =>
  rw [hopened] at hcreate
  rw [run_bind_of_run hcreate]
  simp only
  generalize hprepare : (prepare sockets.calls endpoint.backlog table.nextNumber address).run
    (table.create address.family) = r
  rcases r with ⟨prepared, after⟩
  rw [run_bind_of_run hprepare]
  cases prepared with
  | error e => exact Binds.failed _ _
  | ok got =>
      rcases addressOf?_of_prepare hprepare with ⟨bound, hbound, hgot⟩
      simp only
      split
      · rename_i hslots
        exact Binds.tooManySlots _ hslots
      · exact Binds.bound hbound hgot

theorem binds_bind (table : SocketTable) :
    Binds sockets endpoint ((bind sockets.calls endpoint).run table) := by
  have hresolve : (sockets.calls.resolve endpoint.address).run table =
      (sockets.resolve endpoint.address, table) := rfl
  unfold bind
  rw [run_bind_of_run hresolve]
  cases sockets.resolve endpoint.address with
  | error e => exact Binds.failed _ _
  | ok addresses =>
      cases addresses with
      | nil => exact Binds.failed _ _
      | cons address more => exact binds_bindAddress address table

theorem slots_of_bindAddress {listener : Listener} {address : SocketAddress}
    (h : (bindAddress sockets.calls endpoint address).run table = (.bound listener, after)) :
    endpoint.maxConnections.toNat ≤ maxSlots := by
  unfold bindAddress at h
  generalize hcreate : (sockets.calls.create address.family).run table = created at h
  rcases created with ⟨opened, opening⟩
  rw [run_bind_of_run hcreate] at h
  cases opened with
  | error e => cases h
  | ok number =>
  simp only at h
  generalize hprepare :
    (prepare sockets.calls endpoint.backlog number address).run opening = r at h
  rcases r with ⟨prepared, closing⟩
  rw [run_bind_of_run hprepare] at h
  cases prepared with
  | error e => cases h
  | ok got =>
  simp only at h
  split at h
  · cases h
  · rename_i hslots
    exact Nat.le_of_not_lt hslots

end Listener

end ConstantReply
