import ConstantReply.Listener.Acceptor
import ConstantReply.Proofs.Listener.Binding

/-!
# Why a listener could not be bound

The first call that fails decides the error.  Failures to bind and to listen are told apart by the
kind of their cause, alike for both, and after every failure the open sockets are those of before.
-/

namespace ConstantReply

namespace SocketTable

/-!
## Tables in which no number is used twice
-/

def Numbered (t : SocketTable) : Prop := forall s, s ∈ t.sockets -> s.number < t.nextNumber

variable {t : SocketTable}

theorem Numbered.number_ne (h : t.Numbered) {s : OpenSocket} (hs : s ∈ t.sockets) :
    s.number ≠ t.nextNumber :=
  Nat.ne_of_lt (h s hs)

structure Opened (t : SocketTable) (new : OpenSocket) (after : SocketTable) : Prop where
  sockets : after.sockets = t.sockets ++ [new]
  number : new.number = t.nextNumber
  next : after.nextNumber = t.nextNumber + 1

structure Restored (t after : SocketTable) : Prop where
  sockets : after.sockets = t.sockets
  next : t.nextNumber ≤ after.nextNumber

theorem opened_create (t : SocketTable) (family : Family) :
    t.Opened ⟨t.nextNumber, family, none⟩ (t.create family) :=
  ⟨rfl, rfl, rfl⟩

theorem restored_self (t : SocketTable) : t.Restored t := ⟨rfl, Nat.le_refl _⟩

variable {new : OpenSocket} {after : SocketTable}

theorem Opened.setAddress (hnumbered : t.Numbered) (h : t.Opened new after)
    (address : SocketAddress) :
    t.Opened { new with address := some address } (after.setAddress t.nextNumber address) := by
  have hold : t.sockets.map (fun s =>
      if s.number = t.nextNumber then { s with address := some address } else s) = t.sockets :=
    (List.map_congr_left fun s hs => if_neg (hnumbered.number_ne hs)).trans (List.map_id _)
  refine ⟨?_, h.number, h.next⟩
  rw [SocketTable.setAddress, h.sockets, List.map_append, hold]
  simp [h.number]

theorem Opened.close (hnumbered : t.Numbered) (h : t.Opened new after) :
    t.Restored (after.close t.nextNumber) := by
  refine ⟨?_, h.next ▸ Nat.le_succ _⟩
  rw [SocketTable.close, h.sockets, List.filter_append, List.filter_cons_of_neg (by simp [h.number]),
    List.filter_nil, List.append_nil, List.filter_eq_self]
  intro s hs
  exact decide_eq_true (hnumbered.number_ne hs)

theorem Opened.addressOf? (hnumbered : t.Numbered) (h : t.Opened new after) :
    after.addressOf? t.nextNumber = new.address := by
  have hnone : (t.sockets.find? fun s => s.number == t.nextNumber) = none := by
    apply List.find?_eq_none.mpr
    intro s hs
    simpa using hnumbered.number_ne hs
  rw [SocketTable.addressOf?, h.sockets, List.find?_append, hnone]
  simp [h.number]

theorem Opened.numbered (hnumbered : t.Numbered) (h : t.Opened new after) : after.Numbered := by
  intro s hs
  rw [h.next]
  rw [h.sockets] at hs
  rcases List.mem_append.mp hs with hold | hnew
  · exact Nat.lt_succ_of_lt (hnumbered s hold)
  · rw [List.mem_singleton.mp hnew, h.number]
    exact Nat.lt_succ_self _

theorem Restored.numbered (hnumbered : t.Numbered) (h : t.Restored after) : after.Numbered := by
  intro s hs
  rw [h.sockets] at hs
  exact Nat.lt_of_lt_of_le (hnumbered s hs) h.next

end SocketTable

namespace Listener

/-!
# The calls and their failures
-/

/-- The calls that an address is prepared with. -/
inductive Stage where
  | create
  | reuseAddress
  | bind
  | listen
  | localAddress
  deriving DecidableEq

def failure? {α : Type} : Except SystemError α -> Option SystemError
  | .ok _ => none
  | .error e => some e

section

variable (sockets : SocketOutcomes) (endpoint : Endpoint) (table : SocketTable)
  (address : SocketAddress)

namespace Stage

def all : List Stage := [.create, .reuseAddress, .bind, .listen, .localAddress]

/-- The error with which a system answers a call.  The address is asked for only if there is one. -/
def error? : Stage -> Option SystemError
  | .create => failure? (sockets.create address.family)
  | .reuseAddress => failure? sockets.reuseAddress
  | .bind => failure? (sockets.bind table.bound address)
  | .listen => failure? (sockets.listen endpoint.backlog)
  | .localAddress =>
      match sockets.bind table.bound address with
      | .error _ => none
      | .ok got => failure? (sockets.localAddress got)

end Stage

def firstFailure? : Option (Stage × SystemError) :=
  Stage.all.findSome? fun stage =>
    (stage.error? sockets endpoint table address).map fun cause => (stage, cause)

/-- How a failure to bind or to listen is told apart. -/
inductive Classifies (cause : SystemError) : ListenError -> Prop where
  | addressInUse : cause.kind = .addressInUse -> Classifies cause (.addressInUse address)
  | permissionDenied :
      cause.kind = .permissionDenied -> Classifies cause (.permissionDenied address)
  | bind :
      cause.kind ≠ .addressInUse -> cause.kind ≠ .permissionDenied ->
      Classifies cause (.bind address cause)

/-- What a failed call is reported as. -/
inductive Reports (cause : SystemError) : Stage -> ListenError -> Prop where
  | create : Reports cause .create (.socket cause)
  | reuseAddress : Reports cause .reuseAddress (.socket cause)
  | bind {error : ListenError} : Classifies address cause error -> Reports cause .bind error
  | listen {error : ListenError} : Classifies address cause error -> Reports cause .listen error
  | localAddress : Reports cause .localAddress (.socket cause)

/-- What an attempt to bind comes to. -/
inductive Ends : BindOutcome × SocketTable -> Prop where
  | unresolved {cause : SystemError} {after : SocketTable} :
      sockets.resolve endpoint.address = .error cause -> table.Restored after ->
      Ends (.failed (.invalidAddress endpoint.address cause), after)
  | nowhere {after : SocketTable} :
      sockets.resolve endpoint.address = .ok [] -> table.Restored after ->
      Ends (.failed (.invalidAddress endpoint.address noAddress), after)
  | failed {address : SocketAddress} {more : List SocketAddress} {stage : Stage}
      {cause : SystemError} {error : ListenError} {after : SocketTable} :
      sockets.resolve endpoint.address = .ok (address :: more) ->
      firstFailure? sockets endpoint table address = some (stage, cause) ->
      Reports address cause stage error -> table.Restored after ->
      Ends (.failed error, after)
  | bound {address got told : SocketAddress} {more : List SocketAddress} {after : SocketTable} :
      sockets.resolve endpoint.address = .ok (address :: more) ->
      (forall stage, Stage.error? sockets endpoint table address stage = none) ->
      sockets.bind table.bound address = .ok got -> sockets.localAddress got = .ok told ->
      table.Opened ⟨table.nextNumber, address.family, some got⟩ after ->
      Ends (.bound ⟨table.nextNumber, told, endpoint.maxConnections.toNat⟩, after)

end

variable {sockets : SocketOutcomes} {endpoint : Endpoint} {table : SocketTable}
  {address : SocketAddress}

/-!
# The calls one after the other
-/

/-- What preparing a new socket comes to.  Whether it succeeds or not, the socket is open. -/
inductive Prepares (sockets : SocketOutcomes) (endpoint : Endpoint) (table : SocketTable)
    (address : SocketAddress) : Except ListenError SocketAddress × SocketTable -> Prop where
  | failed {stage : Stage} {cause : SystemError} {error : ListenError} {after : SocketTable}
      {new : OpenSocket} :
      firstFailure? sockets endpoint table address = some (stage, cause) ->
      Reports address cause stage error -> table.Opened new after ->
      Prepares sockets endpoint table address (.error error, after)
  | prepared {got told : SocketAddress} {after : SocketTable} :
      (forall stage, Stage.error? sockets endpoint table address stage = none) ->
      sockets.bind table.bound address = .ok got -> sockets.localAddress got = .ok told ->
      table.Opened ⟨table.nextNumber, address.family, some got⟩ after ->
      Prepares sockets endpoint table address (.ok told, after)

theorem firstFailure?_of_fails {stage : Stage} {cause : SystemError} (before : List Stage)
    {after : List Stage} (hall : Stage.all = before ++ stage :: after)
    (hbefore : forall earlier, earlier ∈ before ->
      earlier.error? sockets endpoint table address = none)
    (hfails : stage.error? sockets endpoint table address = some cause) :
    firstFailure? sockets endpoint table address = some (stage, cause) := by
  have hnone : before.findSome? (fun stage =>
      (stage.error? sockets endpoint table address).map fun cause => (stage, cause)) = none := by
    apply List.findSome?_eq_none_iff.mpr
    intro earlier hearlier
    rw [hbefore earlier hearlier, Option.map_none]
  rw [firstFailure?, hall, List.findSome?_append, hnone, Option.none_or]
  simp [hfails]

theorem firstFailure?_eq_none_iff :
    firstFailure? sockets endpoint table address = none <->
      forall stage, Stage.error? sockets endpoint table address stage = none := by
  have hmem (stage : Stage) : stage ∈ Stage.all := by cases stage <;> decide
  rw [firstFailure?, List.findSome?_eq_none_iff]
  simp only [Option.map_eq_none_iff, hmem, true_implies]

theorem classifies_ofBind (address : SocketAddress) (cause : SystemError) :
    Classifies address cause (ListenError.ofBind address cause) := by
  unfold ListenError.ofBind
  split
  · rename_i hkind
    exact Classifies.addressInUse hkind
  · rename_i hkind
    exact Classifies.permissionDenied hkind
  · rename_i huse hdenied
    exact Classifies.bind huse hdenied

theorem bound_create (table : SocketTable) (family : Family) :
    (table.create family).bound = table.bound := by
  simp [SocketTable.bound, SocketTable.create, List.filterMap_append]

theorem prepares_prepare (hnumbered : table.Numbered)
    (hcreate : sockets.create address.family = .ok ()) :
    Prepares sockets endpoint table address
      ((prepare sockets.calls endpoint.backlog table.nextNumber address).run
        (table.create address.family)) := by
  have hcreated : Stage.create.error? sockets endpoint table address = none :=
    congrArg failure? hcreate
  have hopened := SocketTable.opened_create table address.family
  unfold prepare
  rw [run_bind_of_run (sockets.run_reuseAddress _ _)]
  cases hreuse : sockets.reuseAddress with
  | error e =>
      have hfails : Stage.reuseAddress.error? sockets endpoint table address = some e :=
        congrArg failure? hreuse
      have hfirst := firstFailure?_of_fails [.create] rfl (by simpa using hcreated) hfails
      exact Prepares.failed hfirst Reports.reuseAddress hopened
  | ok u =>
  have hreused : Stage.reuseAddress.error? sockets endpoint table address = none :=
    congrArg failure? hreuse
  have hrun := sockets.run_bind (table.create address.family) table.nextNumber address
  rw [bound_create] at hrun
  cases hbind : sockets.bind table.bound address with
  | error e =>
      have hfails : Stage.bind.error? sockets endpoint table address = some e :=
        congrArg failure? hbind
      have hfirst := firstFailure?_of_fails [.create, .reuseAddress] rfl
        (by simpa using ⟨hcreated, hreused⟩) hfails
      rw [hbind] at hrun
      simp only [run_bind_of_run hrun]
      exact Prepares.failed hfirst (Reports.bind (classifies_ofBind address e)) hopened
  | ok got =>
  have hbound : Stage.bind.error? sockets endpoint table address = none :=
    congrArg failure? hbind
  rw [hbind] at hrun
  simp only [run_bind_of_run hrun]
  have hgiven := hopened.setAddress hnumbered got
  generalize (table.create address.family).setAddress table.nextNumber got = t at hgiven
  rw [run_bind_of_run (sockets.run_listen t table.nextNumber endpoint.backlog)]
  cases hlisten : sockets.listen endpoint.backlog with
  | error e =>
      have hfails : Stage.listen.error? sockets endpoint table address = some e :=
        congrArg failure? hlisten
      have hfirst := firstFailure?_of_fails [.create, .reuseAddress, .bind] rfl
        (by simpa using ⟨hcreated, hreused, hbound⟩) hfails
      exact Prepares.failed hfirst (Reports.listen (classifies_ofBind address e)) hgiven
  | ok u =>
  have hlistening : Stage.listen.error? sockets endpoint table address = none :=
    congrArg failure? hlisten
  have hlocal := sockets.run_localAddress t table.nextNumber
  rw [hgiven.addressOf? hnumbered] at hlocal
  simp only [run_bind_of_run hlocal]
  have hasked : Stage.localAddress.error? sockets endpoint table address =
      failure? (sockets.localAddress got) := by
    simp only [Stage.error?, hbind]
  cases htold : sockets.localAddress got with
  | error e =>
      rw [htold] at hasked
      have hfirst := firstFailure?_of_fails [.create, .reuseAddress, .bind, .listen] rfl
        (by simpa using ⟨hcreated, hreused, hbound, hlistening⟩) hasked
      exact Prepares.failed hfirst Reports.localAddress hgiven
  | ok told =>
      rw [htold] at hasked
      refine Prepares.prepared ?_ hbind htold hgiven
      intro stage
      cases stage with
      | create => exact hcreated
      | reuseAddress => exact hreused
      | bind => exact hbound
      | listen => exact hlistening
      | localAddress => exact hasked

theorem ends_bind (hnumbered : table.Numbered)
    (hslots : endpoint.maxConnections.toNat ≤ maxSlots) :
    Ends sockets endpoint table ((bind sockets.calls endpoint).run table) := by
  have hrun : (sockets.calls.resolve endpoint.address).run table =
      (sockets.resolve endpoint.address, table) := rfl
  unfold bind
  rw [run_bind_of_run hrun]
  cases hresolve : sockets.resolve endpoint.address with
  | error e => exact Ends.unresolved hresolve table.restored_self
  | ok addresses =>
  cases addresses with
  | nil => exact Ends.nowhere hresolve table.restored_self
  | cons address more =>
  simp only [bindAddress]
  have hopened := sockets.run_create table address.family
  cases hcreate : sockets.create address.family with
  | error e =>
      have hfails : Stage.create.error? sockets endpoint table address = some e :=
        congrArg failure? hcreate
      have hfirst := firstFailure?_of_fails [] rfl (by simp) hfails
      rw [hcreate] at hopened
      rw [run_bind_of_run hopened]
      exact Ends.failed hresolve hfirst Reports.create table.restored_self
  | ok u =>
  rw [hcreate] at hopened
  rw [run_bind_of_run hopened]
  have hprepares : Prepares sockets endpoint table address _ :=
    prepares_prepare hnumbered hcreate
  simp only
  generalize hprepare : (prepare sockets.calls endpoint.backlog table.nextNumber address).run
    (table.create address.family) = r at hprepares
  rw [run_bind_of_run hprepare]
  cases hprepares with
  | failed hfirst hreports hopen =>
      exact Ends.failed hresolve hfirst hreports (hopen.close hnumbered)
  | prepared hall hbind htold hopen =>
      simp only [if_neg (Nat.not_lt.mpr hslots)]
      exact Ends.bound hresolve hall hbind htold hopen

/-!
# What the errors tell
-/

theorem Classifies.eq_ofBind {cause : SystemError} {error : ListenError}
    (h : Classifies address cause error) : error = ListenError.ofBind address cause := by
  unfold ListenError.ofBind
  cases h with
  | addressInUse hkind => rw [hkind]
  | permissionDenied hkind => rw [hkind]
  | bind huse hdenied =>
      split
      · contradiction
      · contradiction
      · rfl

theorem Reports.unique {stage : Stage} {cause : SystemError} {error other : ListenError}
    (h : Reports address cause stage error) (hother : Reports address cause stage other) :
    error = other := by
  cases h with
  | bind hclass =>
      cases hother with
      | bind hsame => rw [hclass.eq_ofBind, hsame.eq_ofBind]
  | listen hclass =>
      cases hother with
      | listen hsame => rw [hclass.eq_ofBind, hsame.eq_ofBind]
  | _ =>
      cases hother
      rfl

theorem Ends.failed_iff {more : List SocketAddress} {r : BindOutcome × SocketTable}
    (h : Ends sockets endpoint table r)
    (hresolve : sockets.resolve endpoint.address = .ok (address :: more)) (error : ListenError) :
    r.1 = .failed error <-> exists stage cause,
      firstFailure? sockets endpoint table address = some (stage, cause) ∧
        Reports address cause stage error := by
  cases h with
  | unresolved hnone => simp [hresolve] at hnone
  | nowhere hnone => simp [hresolve] at hnone
  | failed hsame hfirst hreports =>
      cases hresolve.symm.trans hsame
      constructor
      · intro houtcome
        cases houtcome
        exact ⟨_, _, hfirst, hreports⟩
      · rintro ⟨stage, cause, hother, hreported⟩
        cases hfirst.symm.trans hother
        rw [hreports.unique hreported]
  | bound hsame hall =>
      cases hresolve.symm.trans hsame
      constructor
      · intro houtcome
        cases houtcome
      · rintro ⟨stage, cause, hfirst, -⟩
        rw [firstFailure?_eq_none_iff.mpr hall] at hfirst
        cases hfirst

/-- What the error of an attempt that has an address tells of the calls. -/
structure Tells (sockets : SocketOutcomes) (endpoint : Endpoint) (table : SocketTable)
    (address : SocketAddress) (r : BindOutcome × SocketTable) : Prop where
  socket : forall cause, r.1 = .failed (.socket cause) <->
    exists stage, stage ∈ [Stage.create, .reuseAddress, .localAddress] ∧
      firstFailure? sockets endpoint table address = some (stage, cause)
  addressInUse : forall other, r.1 = .failed (.addressInUse other) <->
    other = address ∧ exists stage cause, stage ∈ [Stage.bind, .listen] ∧
      firstFailure? sockets endpoint table address = some (stage, cause) ∧
        cause.kind = .addressInUse
  permissionDenied : forall other, r.1 = .failed (.permissionDenied other) <->
    other = address ∧ exists stage cause, stage ∈ [Stage.bind, .listen] ∧
      firstFailure? sockets endpoint table address = some (stage, cause) ∧
        cause.kind = .permissionDenied
  bind : forall other cause, r.1 = .failed (.bind other cause) <->
    other = address ∧ (exists stage, stage ∈ [Stage.bind, .listen] ∧
      firstFailure? sockets endpoint table address = some (stage, cause)) ∧
        cause.kind ≠ .addressInUse ∧ cause.kind ≠ .permissionDenied
  bound : (exists listener, r.1 = .bound listener) <->
    forall stage, Stage.error? sockets endpoint table address stage = none
  listener : forall listener, r.1 = .bound listener -> exists got,
    sockets.bind table.bound address = .ok got ∧
      sockets.localAddress got = .ok listener.address ∧
      table.Opened ⟨listener.socket, address.family, some got⟩ r.2

/-- What an attempt to bind tells, for every way in which a system can answer. -/
structure Diagnosed (sockets : SocketOutcomes) (endpoint : Endpoint) (table : SocketTable)
    (r : BindOutcome × SocketTable) : Prop where
  decided : (exists error, r.1 = .failed error) ∨ exists listener, r.1 = .bound listener
  invalidAddress : forall text cause, r.1 = .failed (.invalidAddress text cause) <->
    text = endpoint.address ∧
      (sockets.resolve endpoint.address = .error cause ∨
        (sockets.resolve endpoint.address = .ok [] ∧ cause = noAddress))
  tells : forall address more, sockets.resolve endpoint.address = .ok (address :: more) ->
    Tells sockets endpoint table address r
  slots : forall listener, r.1 = .bound listener ->
    listener.maxConnections = endpoint.maxConnections.toNat ∧
      (Acceptor.create listener.maxConnections).availablePermits =
        endpoint.maxConnections.toNat
  unchanged : forall error, r.1 = .failed error ->
    r.2.sockets = table.sockets ∧ r.2.bound = table.bound
  numbered : r.2.Numbered

theorem Ends.classified_iff {more : List SocketAddress} {r : BindOutcome × SocketTable}
    (h : Ends sockets endpoint table r)
    (hresolve : sockets.resolve endpoint.address = .ok (address :: more)) {error : ListenError}
    (hsocket : forall cause, error ≠ .socket cause) :
    r.1 = .failed error <-> exists stage cause, stage ∈ [Stage.bind, .listen] ∧
      firstFailure? sockets endpoint table address = some (stage, cause) ∧
        Classifies address cause error := by
  rw [h.failed_iff hresolve]
  constructor
  · rintro ⟨stage, cause, hfirst, hreports⟩
    cases hreports with
    | bind hclass => exact ⟨.bind, cause, by decide, hfirst, hclass⟩
    | listen hclass => exact ⟨.listen, cause, by decide, hfirst, hclass⟩
    | _ => exact absurd rfl (hsocket cause)
  · rintro ⟨stage, cause, hstage, hfirst, hclass⟩
    refine ⟨stage, cause, hfirst, ?_⟩
    simp only [List.mem_cons, List.not_mem_nil, or_false] at hstage
    rcases hstage with rfl | rfl
    · exact Reports.bind hclass
    · exact Reports.listen hclass

theorem Ends.tells {more : List SocketAddress} {r : BindOutcome × SocketTable}
    (h : Ends sockets endpoint table r)
    (hresolve : sockets.resolve endpoint.address = .ok (address :: more)) :
    Tells sockets endpoint table address r where
  socket := by
    intro cause
    rw [h.failed_iff hresolve]
    constructor
    · rintro ⟨stage, c, hfirst, hreports⟩
      cases hreports with
      | bind hclass => cases hclass
      | listen hclass => cases hclass
      | _ => exact ⟨_, by decide, hfirst⟩
    · rintro ⟨stage, hstage, hfirst⟩
      refine ⟨stage, cause, hfirst, ?_⟩
      simp only [List.mem_cons, List.not_mem_nil, or_false] at hstage
      rcases hstage with rfl | rfl | rfl
      · exact Reports.create
      · exact Reports.reuseAddress
      · exact Reports.localAddress
  addressInUse := by
    intro other
    rw [h.classified_iff hresolve (by simp)]
    constructor
    · rintro ⟨stage, cause, hstage, hfirst, hclass⟩
      cases hclass with
      | addressInUse hkind => exact ⟨rfl, stage, cause, hstage, hfirst, hkind⟩
    · rintro ⟨rfl, stage, cause, hstage, hfirst, hkind⟩
      exact ⟨stage, cause, hstage, hfirst, Classifies.addressInUse hkind⟩
  permissionDenied := by
    intro other
    rw [h.classified_iff hresolve (by simp)]
    constructor
    · rintro ⟨stage, cause, hstage, hfirst, hclass⟩
      cases hclass with
      | permissionDenied hkind => exact ⟨rfl, stage, cause, hstage, hfirst, hkind⟩
    · rintro ⟨rfl, stage, cause, hstage, hfirst, hkind⟩
      exact ⟨stage, cause, hstage, hfirst, Classifies.permissionDenied hkind⟩
  bind := by
    intro other cause
    rw [h.classified_iff hresolve (by simp)]
    constructor
    · rintro ⟨stage, c, hstage, hfirst, hclass⟩
      cases hclass with
      | bind huse hdenied => exact ⟨rfl, ⟨stage, hstage, hfirst⟩, huse, hdenied⟩
    · rintro ⟨rfl, ⟨stage, hstage, hfirst⟩, huse, hdenied⟩
      exact ⟨stage, cause, hstage, hfirst, Classifies.bind huse hdenied⟩
  bound := by
    cases h with
    | unresolved hnone => simp [hresolve] at hnone
    | nowhere hnone => simp [hresolve] at hnone
    | failed hsame hfirst =>
        cases hresolve.symm.trans hsame
        rw [← firstFailure?_eq_none_iff, hfirst]
        simp
    | bound hsame hall =>
        cases hresolve.symm.trans hsame
        exact ⟨fun _ => hall, fun _ => ⟨_, rfl⟩⟩
  listener := by
    rintro listener houtcome
    cases h with
    | bound hsame hall hbind htold hopened =>
        cases hresolve.symm.trans hsame
        cases houtcome
        exact ⟨_, hbind, htold, hopened⟩
    | _ => cases houtcome

theorem Ends.restored {error : ListenError} {r : BindOutcome × SocketTable}
    (h : Ends sockets endpoint table r) (houtcome : r.1 = .failed error) :
    table.Restored r.2 := by
  cases h with
  | unresolved _ hrestored => exact hrestored
  | nowhere _ hrestored => exact hrestored
  | failed _ _ _ hrestored => exact hrestored
  | bound => cases houtcome

theorem Ends.invalidAddress_iff {r : BindOutcome × SocketTable}
    (h : Ends sockets endpoint table r) (text : String) (cause : SystemError) :
    r.1 = .failed (.invalidAddress text cause) <->
      text = endpoint.address ∧
        (sockets.resolve endpoint.address = .error cause ∨
          (sockets.resolve endpoint.address = .ok [] ∧ cause = noAddress)) := by
  cases h with
  | unresolved hnone =>
      simp [hnone, eq_comm]
  | nowhere hnone =>
      simp [hnone, eq_comm]
  | failed hresolve hfirst hreports =>
      cases hreports with
      | bind hclass => cases hclass <;> simp [hresolve]
      | listen hclass => cases hclass <;> simp [hresolve]
      | _ => simp [hresolve]
  | bound hresolve =>
      simp [hresolve]

/-- The outcome of an attempt to bind names the first call that fails, and leaves no socket behind
unless all of them succeed. -/
theorem diagnosed_bind (hslots : endpoint.maxConnections.toNat ≤ maxSlots)
    (hnumbered : table.Numbered) :
    Diagnosed sockets endpoint table ((bind sockets.calls endpoint).run table) := by
  have hends : Ends sockets endpoint table ((bind sockets.calls endpoint).run table) :=
    ends_bind hnumbered hslots
  generalize (bind sockets.calls endpoint).run table = r at hends
  exact {
    decided := by
      cases hends with
      | bound => exact Or.inr ⟨_, rfl⟩
      | _ => exact Or.inl ⟨_, rfl⟩
    invalidAddress := hends.invalidAddress_iff
    tells := fun _ _ => hends.tells
    slots := by
      intro listener houtcome
      cases hends with
      | bound =>
          cases houtcome
          exact ⟨rfl, rfl⟩
      | _ => cases houtcome
    unchanged := by
      intro error houtcome
      have hsockets := (hends.restored houtcome).sockets
      exact ⟨hsockets, congrArg (List.filterMap OpenSocket.address) hsockets⟩
    numbered := by
      cases hends with
      | unresolved _ hrestored => exact hrestored.numbered hnumbered
      | nowhere _ hrestored => exact hrestored.numbered hnumbered
      | failed _ _ _ hrestored => exact hrestored.numbered hnumbered
      | bound _ _ _ _ hopened => exact hopened.numbered hnumbered }

theorem diagnosed_of_taken :
    let first : SocketAddress := ⟨.v6 Ipv6.loopback 0, 3000⟩
    let second : SocketAddress := ⟨.v4 Ipv4.loopback, 3000⟩
    let sockets : SocketOutcomes :=
      { resolve := fun _ => .ok [first, second]
        create := fun _ => .ok ()
        reuseAddress := .ok ()
        bind := fun _ address => .ok address
        listen := fun _ => .error SystemError.addressInUse
        localAddress := .ok }
    let table : SocketTable := ⟨4, [⟨2, .v4, some second⟩]⟩
    let r := (bind sockets.calls {}).run table
    ({} : Endpoint).maxConnections.toNat ≤ maxSlots ∧ table.Numbered ∧
      r.1 = .failed (.addressInUse first) ∧ r.2 = ⟨5, [⟨2, .v4, some second⟩]⟩ ∧
      Diagnosed sockets {} table r := by
  intro first second sockets table r
  have hslots : ({} : Endpoint).maxConnections.toNat ≤ maxSlots := by decide
  have hnumbered : table.Numbered := by
    intro s hs
    rw [List.mem_singleton.mp hs]
    decide
  exact ⟨hslots, hnumbered, by decide, by decide, diagnosed_bind hslots hnumbered⟩

end Listener
end ConstantReply
