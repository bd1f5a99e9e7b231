import ConstantReply.Session

/-!
# Runs that collect what their steps send

Connections and sessions run by folding a step over their inputs and appending what each step sends.
Listeners and servers run as long as their steps can be taken, and a start runs on what its system
answers.  The facts here let such a run be cut anywhere.
-/

namespace ConstantReply

theorem foldl_collect {σ ι ο : Type} (step : σ -> ι -> σ × List ο) (s : σ) (sent : List ο)
    (inputs : List ι) :
    inputs.foldl (fun r i => ((step r.1 i).1, r.2 ++ (step r.1 i).2)) (s, sent) =
      ((inputs.foldl (fun r i => ((step r.1 i).1, r.2 ++ (step r.1 i).2)) (s, [])).1,
        sent ++ (inputs.foldl (fun r i => ((step r.1 i).1, r.2 ++ (step r.1 i).2)) (s, [])).2) := by
  induction inputs generalizing s sent with
  | nil =>
      simp
  | cons i rest ih =>
      rw [List.foldl_cons, List.foldl_cons, ih, ih _ ([] ++ _)]
      simp

theorem run_bind_of_run {σ α β : Type} {m : StateM σ α} {f : α -> StateM σ β} {s t : σ} {a : α}
    (h : m.run s = (a, t)) : (m >>= f).run s = (f a).run t := by
  rw [StateT.run_bind, h]
  rfl

theorem run_append_of_steps {σ ι ο : Type} {run : σ -> List ι -> Option (σ × List ο)}
    (step : σ -> ι -> Option (σ × List ο)) (hnil : forall s, run s [] = some (s, []))
    (hcons : forall s i rest, run s (i :: rest) =
      (step s i).bind fun u => (run u.1 rest).map fun v => (v.1, u.2 ++ v.2))
    (s : σ) (front back : List ι) :
    run s (front ++ back) =
      (run s front).bind fun u => (run u.1 back).map fun v => (v.1, u.2 ++ v.2) := by
  induction front generalizing s with
  | nil =>
      rw [List.nil_append, hnil]
      cases h : run s back <;> simp [h]
  | cons i rest ih =>
      rw [List.cons_append, hcons, hcons]
      cases step s i with
      | none => rfl
      | some next =>
          simp only [Option.bind_some, ih]
          cases run next.1 rest with
          | none => rfl
          | some u =>
              cases h : run u.1 back <;> simp [h]

theorem run_concat_of_steps {σ ι ο : Type} {run : σ -> List ι -> Option (σ × List ο)}
    (step : σ -> ι -> Option σ) (shown : σ -> ι -> σ -> List ο)
    (hnil : forall s, run s [] = some (s, []))
    (hcons : forall s i rest, run s (i :: rest) =
      (step s i).bind fun u => (run u rest).map fun v => (v.1, shown s i u ++ v.2))
    {s t : σ} {front : List ι} {i : ι} {sent : List ο} (h : run s (front ++ [i]) = some (t, sent)) :
    exists u before, run s front = some (u, before) ∧ step u i = some t ∧
      sent = before ++ shown u i t := by
  have hsteps (s : σ) (i : ι) (rest : List ι) : run s (i :: rest) =
      ((step s i).map fun u => (u, shown s i u)).bind fun u =>
        (run u.1 rest).map fun v => (v.1, u.2 ++ v.2) := by
    rw [hcons, Option.bind_map]
    rfl
  rw [run_append_of_steps _ hnil hsteps] at h
  rcases Option.bind_eq_some_iff.mp h with ⟨⟨u, before⟩, hfront, hback⟩
  rcases Option.map_eq_some_iff.mp hback with ⟨⟨v, last⟩, hlast, heq⟩
  rw [hcons] at hlast
  rcases Option.bind_eq_some_iff.mp hlast with ⟨w, hstep, hrest⟩
  rw [hnil] at hrest
  cases hrest
  cases heq
  exact ⟨u, before, hfront, hstep, by rw [List.append_nil]⟩

namespace Http
namespace Connection

@[simp] theorem run_nil (keepAlive : Bool) (c : Connection) :
    c.run keepAlive [] = (c, []) := rfl

theorem run_cons (keepAlive : Bool) (c : Connection) (i : Input) (rest : List Input) :
    c.run keepAlive (i :: rest) =
      (((c.step keepAlive i).1.run keepAlive rest).1,
        (c.step keepAlive i).2 ++ ((c.step keepAlive i).1.run keepAlive rest).2) :=
  foldl_collect (Connection.step keepAlive) _ _ rest

theorem run_append (keepAlive : Bool) (c : Connection) (front rest : List Input) :
    c.run keepAlive (front ++ rest) =
      (((c.run keepAlive front).1.run keepAlive rest).1,
        (c.run keepAlive front).2 ++ ((c.run keepAlive front).1.run keepAlive rest).2) := by
  induction front generalizing c with
  | nil =>
      simp
  | cons i more ih =>
      rw [List.cons_append, run_cons, ih, run_cons, List.append_assoc]

end Connection
end Http

namespace Http2
namespace Connection

@[simp] theorem run_nil (c : Connection) : c.run [] = (c, []) := rfl

theorem run_cons (c : Connection) (i : Http.Input) (rest : List Http.Input) :
    c.run (i :: rest) =
      (((c.step i).1.run rest).1, (c.step i).2 ++ ((c.step i).1.run rest).2) :=
  foldl_collect Connection.step _ _ rest

theorem run_append (c : Connection) (front rest : List Http.Input) :
    c.run (front ++ rest) =
      (((c.run front).1.run rest).1, (c.run front).2 ++ ((c.run front).1.run rest).2) := by
  induction front generalizing c with
  | nil =>
      simp
  | cons i more ih =>
      rw [List.cons_append, run_cons, ih, run_cons, List.append_assoc]

end Connection
end Http2

namespace Session

@[simp] theorem run_nil (keepAlive : Bool) (s : Session) : s.run keepAlive [] = (s, []) := rfl

theorem run_cons (keepAlive : Bool) (s : Session) (i : Http.Input) (rest : List Http.Input) :
    s.run keepAlive (i :: rest) =
      (((s.step keepAlive i).1.run keepAlive rest).1,
        (s.step keepAlive i).2 ++ ((s.step keepAlive i).1.run keepAlive rest).2) :=
  foldl_collect (Session.step keepAlive) _ _ rest

theorem run_append (keepAlive : Bool) (s : Session) (front rest : List Http.Input) :
    s.run keepAlive (front ++ rest) =
      (((s.run keepAlive front).1.run keepAlive rest).1,
        (s.run keepAlive front).2 ++ ((s.run keepAlive front).1.run keepAlive rest).2) := by
  induction front generalizing s with
  | nil =>
      simp
  | cons i more ih =>
      rw [List.cons_append, run_cons, ih, run_cons, List.append_assoc]

end Session
end ConstantReply
