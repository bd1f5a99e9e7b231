import ConstantReply.Proofs.Listener.Classification
import Mathlib.Logic.Relation

/-!
# Failures in the layers

A failure comes to the top through layers that only carry it.  On its way it keeps its text and its
causes.  An error of the system that a failure was made of is its only cause, and stands at the end
of its text.
-/

namespace ConstantReply
namespace Cause

/-!
## From layer to layer
-/

/-- The first failure is the second one, carried to a layer above. -/
inductive Carries : Cause -> Cause -> Prop where
  | listenToServe (error : ListenError) : Carries (.serve (.listen error)) (.listen error)
  | listenToStart (error : ListenError) : Carries (.start (.listen error)) (.listen error)
  | serveToStart (error : ServeError) : Carries (.start (.serve error)) (.serve error)

def Bears (top failure : Cause) : Prop := Relation.ReflTransGen Carries top failure

variable {top failure : Cause}

theorem Carries.display_eq (h : Carries top failure) : top.display = failure.display := by
  cases h with
  | listenToServe error => rfl
  | listenToStart error => rfl
  | serveToStart error => rfl

theorem Carries.cause?_eq (h : Carries top failure) : top.cause? = failure.cause? := by
  cases h with
  | listenToServe error => rfl
  | listenToStart error => rfl
  | serveToStart error => rfl

theorem Bears.display_eq (h : Bears top failure) : top.display = failure.display := by
  induction h with
  | refl => rfl
  | tail _ hcarries ih => exact ih.trans hcarries.display_eq

theorem Bears.cause?_eq (h : Bears top failure) : top.cause? = failure.cause? := by
  induction h with
  | refl => rfl
  | tail _ hcarries ih => exact ih.trans hcarries.cause?_eq

theorem causes_eq_of_cause?_eq (h : top.cause? = failure.cause?) :
    top.causes = failure.causes := by
  cases hcause : failure.cause? with
  | none => rw [causes_of_none (h.trans hcause), causes_of_none hcause]
  | some below => rw [causes_of_some (h.trans hcause), causes_of_some hcause]

theorem Bears.causes_eq (h : Bears top failure) : top.causes = failure.causes :=
  causes_eq_of_cause?_eq h.cause?_eq

/-!
## What failures are made of
-/

/-- The failure was made of an error of the system. -/
inductive Keeps : Cause -> SystemError -> Prop where
  | invalidAddress (address : String) (error : SystemError) :
      Keeps (.listen (.invalidAddress address error)) error
  | bind (address : SocketAddress) (error : SystemError) :
      Keeps (.listen (.bind address error)) error
  | socket (error : SystemError) : Keeps (.listen (.socket error)) error
  | accept (error : SystemError) : Keeps (.listen (.accept error)) error
  | localAddress (error : SystemError) : Keeps (.serve (.localAddress error)) error
  | runtime (error : SystemError) : Keeps (.start (.runtime error)) error
  | signals (error : SystemError) : Keeps (.start (.signals error)) error
  | carried {top failure : Cause} {error : SystemError} :
      Carries top failure -> Keeps failure error -> Keeps top error

/-- The failure was made of nothing that has gone wrong before. -/
inductive Bare : Cause -> Prop where
  | system (error : SystemError) : Bare (.system error)
  | logTaken (conflict : LogConflict) : Bare (.logTaken conflict)
  | addressInUse (address : SocketAddress) : Bare (.listen (.addressInUse address))
  | permissionDenied (address : SocketAddress) : Bare (.listen (.permissionDenied address))
  | closed : Bare (.listen .closed)
  | settings (faults : List SettingsFault) : Bare (.start (.settings faults))
  | carried {top failure : Cause} : Carries top failure -> Bare failure -> Bare top

variable {error : SystemError}

theorem Keeps.cause?_eq (h : Keeps failure error) : failure.cause? = some (.system error) := by
  induction h with
  | carried hcarries _ ih => exact hcarries.cause?_eq.trans ih
  | _ => rfl

theorem Keeps.causes_eq (h : Keeps failure error) : failure.causes = [.system error] := by
  rw [causes_of_some h.cause?_eq, causes_of_none rfl]

theorem Bare.causes_eq (h : Bare failure) : failure.causes = [] := by
  induction h with
  | carried hcarries _ ih => exact (causes_eq_of_cause?_eq hcarries.cause?_eq).trans ih
  | _ => exact causes_of_none rfl

theorem suffix_toList_append (opening closing : String) :
    closing.toList <:+ (opening ++ closing).toList := by
  rw [String.toList_append]
  exact List.suffix_append _ _

theorem Keeps.display_suffix (h : Keeps failure error) :
    error.display.toList <:+ failure.display.toList := by
  induction h with
  | carried hcarries _ ih => rwa [hcarries.display_eq]
  | _ => exact suffix_toList_append _ _

/-!
## Nothing else is below a failure
-/

def Traced (failure : Cause) : Prop := Bare failure ∨ exists error, Keeps failure error

theorem Carries.traced (h : Carries top failure) (htraced : Traced failure) : Traced top := by
  rcases htraced with hbare | ⟨error, hkeeps⟩
  · exact Or.inl (.carried h hbare)
  · exact Or.inr ⟨error, .carried h hkeeps⟩

theorem traced_listen (error : ListenError) : Traced (.listen error) := by
  cases error with
  | invalidAddress address cause => exact Or.inr ⟨cause, .invalidAddress address cause⟩
  | addressInUse address => exact Or.inl (.addressInUse address)
  | permissionDenied address => exact Or.inl (.permissionDenied address)
  | bind address cause => exact Or.inr ⟨cause, .bind address cause⟩
  | socket cause => exact Or.inr ⟨cause, .socket cause⟩
  | accept cause => exact Or.inr ⟨cause, .accept cause⟩
  | closed => exact Or.inl .closed

theorem traced_serve (error : ServeError) : Traced (.serve error) := by
  cases error with
  | listen error => exact (Carries.listenToServe error).traced (traced_listen error)
  | localAddress cause => exact Or.inr ⟨cause, .localAddress cause⟩

theorem traced_of_ne (h : forall conflict, failure ≠ .start (@StartError.logging conflict)) :
    Traced failure := by
  cases failure with
  | system error => exact Or.inl (.system error)
  | logTaken conflict => exact Or.inl (.logTaken conflict)
  | listen error => exact traced_listen error
  | serve error => exact traced_serve error
  | start error =>
      cases error with
      | settings faults => exact Or.inl (.settings faults)
      | @logging conflict => exact absurd rfl (h conflict)
      | runtime cause => exact Or.inr ⟨cause, .runtime cause⟩
      | signals cause => exact Or.inr ⟨cause, .signals cause⟩
      | listen error => exact (Carries.listenToStart error).traced (traced_listen error)
      | serve error => exact (Carries.serveToStart error).traced (traced_serve error)

theorem causes_logging (conflict : LogConflict) :
    (Cause.start (@StartError.logging conflict)).causes = [.logTaken conflict] := by
  rw [causes_of_some rfl, causes_of_none rfl]

theorem traced_of_causes (h : forall conflict, failure.causes ≠ [.logTaken conflict]) :
    Traced failure := by
  apply traced_of_ne
  rintro conflict rfl
  exact h conflict (causes_logging conflict)

theorem keeps_iff : Keeps failure error <-> failure.causes = [.system error] := by
  constructor
  · exact Keeps.causes_eq
  · intro hcauses
    have htraced : Traced failure := traced_of_causes (by simp [hcauses])
    rcases htraced with hbare | ⟨other, hkeeps⟩
    · rw [hbare.causes_eq] at hcauses
      cases hcauses
    · have heq := hkeeps.causes_eq.symm.trans hcauses
      cases heq
      exact hkeeps

theorem bare_iff : Bare failure <-> failure.causes = [] := by
  constructor
  · exact Bare.causes_eq
  · intro hcauses
    have htraced : Traced failure := traced_of_causes (by simp [hcauses])
    rcases htraced with hbare | ⟨error, hkeeps⟩
    · exact hbare
    · rw [hkeeps.causes_eq] at hcauses
      cases hcauses

/-!
## Failures to bind
-/

/-- What the top tells of a failure to bind. -/
structure TellsOfBind (address : SocketAddress) (error : SystemError) (top : Cause) : Prop where
  address : ("failed to bind " ++ address.display ++ ": ").toList <+: top.display.toList
  kept : error.kind ≠ .addressInUse -> error.kind ≠ .permissionDenied ->
    error.display.toList <:+ top.display.toList ∧ top.causes = [.system error]
  dropped : error.kind = .addressInUse ∨ error.kind = .permissionDenied -> top.causes = []

theorem append_reason {opening closing reason : String} (h : closing = ": " ++ reason) :
    opening ++ closing = opening ++ ": " ++ reason := by
  rw [h, String.append_assoc]

theorem exists_reason_of_classifies {address : SocketAddress} {listenError : ListenError}
    (h : Listener.Classifies address error listenError) :
    exists reason,
      listenError.display = "failed to bind " ++ address.display ++ ": " ++ reason := by
  cases h with
  | addressInUse _ => exact ⟨"address already in use", append_reason (by decide)⟩
  | permissionDenied _ => exact ⟨"permission denied", append_reason (by decide)⟩
  | bind _ _ => exact ⟨error.display, rfl⟩

theorem tellsOfBind_of_classifies {address : SocketAddress} {listenError : ListenError}
    (h : Listener.Classifies address error listenError) :
    TellsOfBind address error (.listen listenError) := by
  refine ⟨?_, ?_, ?_⟩
  · rcases exists_reason_of_classifies h with ⟨reason, hdisplay⟩
    refine ⟨reason.toList, ?_⟩
    rw [Cause.display, hdisplay, ← String.toList_append]
  · intro huse hdenied
    cases h with
    | addressInUse hkind => exact absurd hkind huse
    | permissionDenied hkind => exact absurd hkind hdenied
    | bind _ _ =>
        have hkeeps := Keeps.bind address error
        exact ⟨hkeeps.display_suffix, hkeeps.causes_eq⟩
  · intro hkind
    cases h with
    | addressInUse _ => exact (Bare.addressInUse address).causes_eq
    | permissionDenied _ => exact (Bare.permissionDenied address).causes_eq
    | bind huse hdenied => exact absurd hkind (not_or.mpr ⟨huse, hdenied⟩)

theorem TellsOfBind.of_bears {address : SocketAddress} (h : TellsOfBind address error failure)
    (hbears : Bears top failure) : TellsOfBind address error top := by
  refine ⟨?_, ?_, ?_⟩
  · rw [hbears.display_eq]
    exact h.address
  · rw [hbears.display_eq, hbears.causes_eq]
    exact h.kept
  · rw [hbears.causes_eq]
    exact h.dropped

/-!
## Failures at the top
-/

/-- The top tells what there is to tell of a failure, and nothing else. -/
structure KeepsDiagnosis (top failure : Cause) : Prop where
  display : top.display = failure.display
  causes : top.causes = failure.causes
  kept_iff : forall error, Keeps failure error <-> top.causes = [.system error]
  bare_iff : Bare failure <-> top.causes = []
  ending : forall error, Keeps failure error -> error.display.toList <:+ top.display.toList
  bind : forall address error, failure = .listen (.ofBind address error) ->
    TellsOfBind address error top

/-- No layer loses or adds anything that a failure tells. -/
theorem keepsDiagnosis_of_bears (h : Bears top failure) : KeepsDiagnosis top failure where
  display := h.display_eq
  causes := h.causes_eq
  kept_iff := by
    intro error
    rw [h.causes_eq]
    exact keeps_iff
  bare_iff := by
    rw [h.causes_eq]
    exact bare_iff
  ending := by
    intro error hkeeps
    rw [h.display_eq]
    exact hkeeps.display_suffix
  bind := by
    intro address error hfailure
    have htells := tellsOfBind_of_classifies (Listener.classifies_ofBind address error)
    rw [← hfailure] at htells
    exact htells.of_bears h

theorem keepsDiagnosis_of_unassigned :
    let address : SocketAddress := ⟨.v6 Ipv6.loopback 2, 443⟩
    let failure : ListenError := .ofBind address SystemError.cannotAssignAddress
    Bears (.start (.serve (.listen failure))) (.listen failure) ∧
      (Cause.start (.serve (.listen failure))).display =
        "failed to bind [::1%2]:443: Cannot assign requested address (os error 99)" ∧
      KeepsDiagnosis (.start (.serve (.listen failure))) (.listen failure) := by
  intro address failure
  have hbears : Bears (.start (.serve (.listen failure))) (.listen failure) :=
    .head (.serveToStart (.listen failure)) (.single (.listenToServe failure))
  exact ⟨hbears, by decide, keepsDiagnosis_of_bears hbears⟩

end Cause
end ConstantReply
