import ConstantReply.Proofs.CommandLine.Examination

/-!
# Which command lines are accepted

A command line is accepted if it spells uses of options, each option at most once, with values that
belong to their types, and if every variable that stands in for an absent option belongs to the
type of that option.  The settings then hold, field by field, what was given, else what a variable
says, else the default.
-/

namespace ConstantReply
namespace CommandLine

open Utf8 (RawText Piece)

/-!
# Acceptance and its result
-/

/-- Arguments that spell these uses, all of them usable in this environment. -/
structure Accepted (environment : Environment) (arguments : List RawText) (uses : List Use) :
    Prop where
  spelled : Spelled uses arguments
  once : (uses.map Use.opt).Nodup
  given : forall p raw, Use.value p raw ∈ uses -> exists v, p.Denotes raw v
  surrounding : forall p raw, Opt.value p ∉ uses.map Use.opt ->
    fromEnvironment environment p = some raw -> exists v, p.Denotes raw v

def Parameter.field : (p : Parameter) -> Settings -> Option p.Value
  | .host, s => some s.endpoint.host
  | .port, s => some s.endpoint.port
  | .backlog, s => some s.endpoint.backlog
  | .maxConnections, s => some s.endpoint.maxConnections
  | .workers, s => s.workers
  | .headTimeout, s => some s.headTimeoutMs
  | .drainTimeout, s => some s.drainSeconds
  | .logLevel, s => some s.logLevel
  | .logFormat, s => some s.logFormat

structure Overlaid (environment : Environment) (uses : List Use) (settings : Settings) :
    Prop where
  given : forall p raw, Use.value p raw ∈ uses ->
    exists v, p.Denotes raw v ∧ p.field settings = some v
  surrounding : forall p raw, Opt.value p ∉ uses.map Use.opt ->
    fromEnvironment environment p = some raw ->
    exists v, p.Denotes raw v ∧ p.field settings = some v
  absent : forall p, Opt.value p ∉ uses.map Use.opt ->
    fromEnvironment environment p = none -> p.field settings = p.field {}
  keepAlive : settings.keepAlive = false <-> Use.noKeepAlive ∈ uses

theorem settings_ext {s t : Settings} (hfield : forall p : Parameter, p.field s = p.field t)
    (hkeep : s.keepAlive = t.keepAlive) : s = t := by
  have hhost := Option.some.inj (hfield .host)
  have hport := Option.some.inj (hfield .port)
  have hbacklog := Option.some.inj (hfield .backlog)
  have hmax := Option.some.inj (hfield .maxConnections)
  have hworkers := hfield .workers
  have hhead := Option.some.inj (hfield .headTimeout)
  have hdrain := Option.some.inj (hfield .drainTimeout)
  have hlevel := Option.some.inj (hfield .logLevel)
  have hformat := Option.some.inj (hfield .logFormat)
  rcases s with ⟨⟨_, _, _, _⟩, _, _, _, _, _, _⟩
  rcases t with ⟨⟨_, _, _, _⟩, _, _, _, _, _, _⟩
  simp only at hhost hport hbacklog hmax hworkers hhead hdrain hlevel hformat hkeep
  simp only [Settings.mk.injEq, Endpoint.mk.injEq]
  exact ⟨⟨hhost, hport, hbacklog, hmax⟩, hkeep, hhead, hworkers, hdrain, hlevel, hformat⟩

theorem exists_value_of_mem_opts {uses : List Use} {p : Parameter}
    (h : Opt.value p ∈ uses.map Use.opt) : exists raw, Use.value p raw ∈ uses := by
  rcases List.mem_map.mp h with ⟨u, hu, hopt⟩
  cases u with
  | noKeepAlive => cases hopt
  | value q raw =>
      cases hopt
      exact ⟨raw, hu⟩

theorem Overlaid.unique {environment : Environment} {uses : List Use} {s t : Settings}
    (hs : Overlaid environment uses s) (ht : Overlaid environment uses t) : s = t := by
  apply settings_ext
  · intro p
    by_cases hp : Opt.value p ∈ uses.map Use.opt
    · rcases exists_value_of_mem_opts hp with ⟨raw, hraw⟩
      rcases hs.given p raw hraw with ⟨v, hv, hfield⟩
      rcases ht.given p raw hraw with ⟨w, hw, hfield'⟩
      rw [hfield, hfield', hv.unique hw]
    · cases henv : fromEnvironment environment p with
      | none => rw [hs.absent p hp henv, ht.absent p hp henv]
      | some raw =>
          rcases hs.surrounding p raw hp henv with ⟨v, hv, hfield⟩
          rcases ht.surrounding p raw hp henv with ⟨w, hw, hfield'⟩
          rw [hfield, hfield', hv.unique hw]
  · have hiff : s.keepAlive = false <-> t.keepAlive = false :=
      hs.keepAlive.trans ht.keepAlive.symm
    cases hkeep : s.keepAlive with
    | false => exact (hiff.mp hkeep).symm
    | true =>
        cases hkeep' : t.keepAlive with
        | true => rfl
        | false =>
            rw [hiff.mpr hkeep'] at hkeep
            cases hkeep

/-!
# Settled uses

What is settled has the options of the uses in their order.
-/

theorem opts_of_absorbs {settled final : List Occurrence} {uses : List Use}
    (h : Absorbs settled uses final) :
    final.map Occurrence.opt = settled.map Occurrence.opt ++ uses.map Use.opt := by
  induction h with
  | nothing settled => simp
  | use _ hreads _ ih =>
      rw [ih]
      simp [opt_eq_of_reads hreads]

theorem nodup_of_absorbs {settled final : List Occurrence} {uses : List Use}
    (h : Absorbs settled uses final) (hsettled : (settled.map Occurrence.opt).Nodup) :
    (final.map Occurrence.opt).Nodup := by
  induction h with
  | nothing settled => exact hsettled
  | use hnew hreads _ ih =>
      apply ih
      rw [List.map_append, List.nodup_append]
      refine ⟨hsettled, by simp, ?_⟩
      intro o ho o' ho' heq
      rw [List.map_singleton, List.mem_singleton, opt_eq_of_reads hreads] at ho'
      rw [heq, ho'] at ho
      exact hnew ho

theorem subset_of_absorbs {settled final : List Occurrence} {uses : List Use}
    (h : Absorbs settled uses final) : settled ⊆ final := by
  induction h with
  | nothing settled => exact List.Subset.refl settled
  | use _ _ _ ih =>
      intro o ho
      exact ih (List.mem_append_left _ ho)

theorem exists_reads_of_absorbs {settled final : List Occurrence} {uses : List Use}
    (h : Absorbs settled uses final) :
    forall u, u ∈ uses -> exists o, o ∈ final ∧ Reads u o := by
  induction h with
  | nothing settled =>
      intro u hu
      cases hu
  | @use settled final u o uses _ hreads hrest ih =>
      intro u' hu'
      rcases List.mem_cons.mp hu' with rfl | hu'
      · exact ⟨o, subset_of_absorbs hrest (by simp), hreads⟩
      · exact ih u' hu'

theorem exists_use_of_absorbs {settled final : List Occurrence} {uses : List Use}
    (h : Absorbs settled uses final) :
    forall o, o ∈ final -> o ∈ settled ∨ exists u, u ∈ uses ∧ Reads u o := by
  induction h with
  | nothing settled =>
      intro o ho
      exact Or.inl ho
  | @use settled final u o uses _ hreads hrest ih =>
      intro o' ho'
      rcases ih o' ho' with hsettled | ⟨u', hu', hreads'⟩
      · rcases List.mem_append.mp hsettled with hold | hnew
        · exact Or.inl hold
        · rw [List.mem_singleton.mp hnew]
          exact Or.inr ⟨u, List.mem_cons_self, hreads⟩
      · exact Or.inr ⟨u', List.mem_cons_of_mem u hu', hreads'⟩

theorem exists_absorbs {uses : List Use} (hread : forall u, u ∈ uses -> exists o, Reads u o) :
    forall {settled : List Occurrence},
      (settled.map Occurrence.opt ++ uses.map Use.opt).Nodup ->
      exists final, Absorbs settled uses final := by
  induction uses with
  | nil =>
      intro settled _
      exact ⟨settled, Absorbs.nothing settled⟩
  | cons u rest ih =>
      intro settled hnodup
      rcases hread u List.mem_cons_self with ⟨o, ho⟩
      have hnew : u.opt ∉ settled.map Occurrence.opt := by
        intro hmem
        exact (List.nodup_append.mp hnodup).right.right u.opt hmem u.opt
          List.mem_cons_self rfl
      have hnext : ((settled ++ [o]).map Occurrence.opt ++ rest.map Use.opt).Nodup := by
        simpa [opt_eq_of_reads ho] using hnodup
      rcases ih (fun u' hu' => hread u' (List.mem_cons_of_mem u hu')) hnext with
        ⟨final, hfinal⟩
      exact ⟨final, Absorbs.use hnew ho hfinal⟩

/-!
# Overlaying settled uses
-/

theorem field_apply_self (g : Given) (s : Settings) :
    g.parameter.field (g.apply s) = some g.value := by
  rcases g with ⟨p, v⟩
  cases p <;> rfl

theorem field_apply_of_ne {g : Given} {p : Parameter} (h : g.parameter ≠ p) (s : Settings) :
    p.field (g.apply s) = p.field s := by
  rcases g with ⟨q, v⟩
  cases q <;> cases p <;> first | rfl | exact absurd rfl h

theorem field_apply_occurrence {o : Occurrence} {p : Parameter} (h : o.opt ≠ .value p)
    (s : Settings) : p.field (o.apply s) = p.field s := by
  cases o with
  | noKeepAlive => cases p <;> rfl
  | value g => exact field_apply_of_ne (fun hp => h (congrArg Opt.value hp)) s

theorem keepAlive_apply_eq_false_iff (o : Occurrence) (s : Settings) :
    (o.apply s).keepAlive = false <-> s.keepAlive = false ∨ o = .noKeepAlive := by
  cases o with
  | noKeepAlive => simp [Occurrence.apply]
  | value g =>
      rcases g with ⟨p, v⟩
      cases p <;> simp [Occurrence.apply, Given.apply]

theorem field_foldl_of_not_mem {p : Parameter} {occurrences : List Occurrence}
    (h : Opt.value p ∉ occurrences.map Occurrence.opt) (s : Settings) :
    p.field (occurrences.foldl (fun s o => o.apply s) s) = p.field s := by
  induction occurrences generalizing s with
  | nil =>
      rfl
  | cons o rest ih =>
      rw [List.map_cons, List.mem_cons, not_or] at h
      rw [List.foldl_cons, ih h.right, field_apply_occurrence (Ne.symm h.left)]

theorem field_foldl_of_mem {g : Given} {occurrences : List Occurrence}
    (hnodup : (occurrences.map Occurrence.opt).Nodup) (h : Occurrence.value g ∈ occurrences)
    (s : Settings) :
    g.parameter.field (occurrences.foldl (fun s o => o.apply s) s) = some g.value := by
  induction occurrences generalizing s with
  | nil =>
      cases h
  | cons o rest ih =>
      rw [List.map_cons, List.nodup_cons] at hnodup
      rw [List.foldl_cons]
      rcases List.mem_cons.mp h with rfl | hrest
      · rw [field_foldl_of_not_mem hnodup.left]
        exact field_apply_self g s
      · exact ih hnodup.right hrest _

theorem keepAlive_foldl_eq_false_iff (occurrences : List Occurrence) (s : Settings) :
    (occurrences.foldl (fun s o => o.apply s) s).keepAlive = false <->
      s.keepAlive = false ∨ Occurrence.noKeepAlive ∈ occurrences := by
  induction occurrences generalizing s with
  | nil =>
      simp
  | cons o rest ih =>
      rw [List.foldl_cons, ih, keepAlive_apply_eq_false_iff, List.mem_cons, or_assoc,
        eq_comm (a := o)]

/-!
# The environment
-/

def environmentUses (environment : Environment) (used : List Opt) (ps : List Parameter) :
    List Use :=
  ps.filterMap fun p =>
    if Opt.value p ∈ used then none else (fromEnvironment environment p).map (Use.value p)

theorem mem_environmentUses_iff {environment : Environment} {used : List Opt}
    {ps : List Parameter} {u : Use} :
    u ∈ environmentUses environment used ps <->
      exists p raw, p ∈ ps ∧ Opt.value p ∉ used ∧ fromEnvironment environment p = some raw ∧
        u = .value p raw := by
  unfold environmentUses
  rw [List.mem_filterMap]
  constructor
  · intro hgiven
    rcases hgiven with ⟨p, hp, h⟩
    by_cases hused : Opt.value p ∈ used
    · simp [hused] at h
    · rw [if_neg hused] at h
      rcases Option.map_eq_some_iff.mp h with ⟨raw, hraw, rfl⟩
      exact ⟨p, raw, hp, hused, hraw, rfl⟩
  · intro hgiven
    rcases hgiven with ⟨p, raw, hp, hused, hraw, rfl⟩
    exact ⟨p, hp, by rw [if_neg hused, hraw]; rfl⟩

theorem environmentUses_append_of_not_mem {environment : Environment} {used : List Opt}
    {p : Parameter} {ps : List Parameter} (hp : p ∉ ps) :
    environmentUses environment (used ++ [.value p]) ps =
      environmentUses environment used ps := by
  induction ps with
  | nil =>
      rfl
  | cons q rest ih =>
      rw [List.mem_cons, not_or] at hp
      have hq : Opt.value q ∈ used ++ [.value p] <-> Opt.value q ∈ used := by
        simp [Ne.symm hp.left]
      unfold environmentUses at *
      simp only [List.filterMap_cons, hq]
      rw [ih hp.right]

theorem mem_environmentParameters {environment : Environment} {p : Parameter} {raw : RawText}
    (h : fromEnvironment environment p = some raw) : p ∈ environmentParameters := by
  cases p <;> first | decide | cases h

section

variable {environment : Environment} {p : Parameter} {rest : List Parameter}

theorem environmentUses_cons_of_used {used : List Opt} (hused : Opt.value p ∈ used) :
    environmentUses environment used (p :: rest) = environmentUses environment used rest := by
  simp [environmentUses, hused]

theorem environmentUses_cons_of_none {used : List Opt}
    (henv : fromEnvironment environment p = none) :
    environmentUses environment used (p :: rest) = environmentUses environment used rest := by
  simp [environmentUses, henv]

theorem environmentUses_cons_of_some {used : List Opt} {raw : RawText}
    (hused : Opt.value p ∉ used) (henv : fromEnvironment environment p = some raw) :
    environmentUses environment used (p :: rest) =
      .value p raw :: environmentUses environment used rest := by
  simp [environmentUses, hused, henv]

theorem complete_cons_of_used {st : Progress} (hused : Opt.value p ∈ st.used) :
    complete environment (p :: rest) st = complete environment rest st := by
  rw [complete, if_pos hused]

theorem complete_cons_of_none {st : Progress} (hused : Opt.value p ∉ st.used)
    (henv : fromEnvironment environment p = none) :
    complete environment (p :: rest) st = complete environment rest st := by
  rw [complete, if_neg hused, henv]

theorem complete_cons_eq_ok_iff {raw : RawText} {st final : Progress}
    (hused : Opt.value p ∉ st.used) (henv : fromEnvironment environment p = some raw) :
    complete environment (p :: rest) st = .ok final <->
      exists next, st.assign p raw = .ok next ∧ complete environment rest next = .ok final := by
  cases hassign : st.assign p raw <;> simp [complete, hused, henv, hassign]

theorem environmentUses_of_absorbs {settled final : List Occurrence} {raw : RawText}
    (h : Absorbs settled [.value p raw] final) (hp : p ∉ rest) :
    environmentUses environment (final.map Occurrence.opt) rest =
      environmentUses environment (settled.map Occurrence.opt) rest := by
  rw [opts_of_absorbs h]
  exact environmentUses_append_of_not_mem hp

end

theorem complete_eq_ok_iff {environment : Environment} {ps : List Parameter}
    (hps : ps.Nodup) {st final : Progress} (hpending : st.pending = .nothing) :
    complete environment ps st = .ok final <->
      Absorbs st.settled (environmentUses environment st.used ps) final.settled ∧
        final.pending = .nothing := by
  induction ps generalizing st with
  | nil =>
      constructor
      · intro h
        cases h
        exact ⟨Absorbs.nothing _, hpending⟩
      · intro hgiven
        rcases hgiven with ⟨habsorbs, hfinal⟩
        cases st with
        | mk settled pending =>
            cases final with
            | mk settled' pending' =>
                cases habsorbs
                cases hpending
                cases hfinal
                rfl
  | cons p rest ih =>
      rw [List.nodup_cons] at hps
      by_cases hused : Opt.value p ∈ st.used
      · rw [complete_cons_of_used hused, environmentUses_cons_of_used hused]
        exact ih hps.right hpending
      · cases henv : fromEnvironment environment p with
        | none =>
            rw [complete_cons_of_none hused henv, environmentUses_cons_of_none henv]
            exact ih hps.right hpending
        | some raw =>
            rw [complete_cons_eq_ok_iff hused henv, environmentUses_cons_of_some hused henv]
            constructor
            · intro h
              rcases h with ⟨next, hassign, hcomplete⟩
              rcases assign_eq_ok_iff.mp hassign with ⟨hvalue, hnothing⟩
              rcases (ih hps.right hnothing).mp hcomplete with ⟨hrest, hfinal⟩
              unfold Progress.used at hrest
              rw [environmentUses_of_absorbs hvalue hps.left] at hrest
              exact ⟨absorbs_append_iff.mpr ⟨next.settled, hvalue, hrest⟩, hfinal⟩
            · intro hgiven
              rcases hgiven with ⟨habsorbs, hfinal⟩
              rw [← List.singleton_append] at habsorbs
              rcases absorbs_append_iff.mp habsorbs with ⟨between, hvalue, hrest⟩
              refine ⟨⟨between, .nothing⟩, assign_eq_ok_iff.mpr ⟨hvalue, rfl⟩, ?_⟩
              apply (ih hps.right rfl).mpr
              unfold Progress.used
              rw [environmentUses_of_absorbs hvalue hps.left]
              exact ⟨hrest, hfinal⟩

theorem mem_opts_environmentUses {environment : Environment} {used : List Opt}
    {ps : List Parameter} {o : Opt}
    (h : o ∈ (environmentUses environment used ps).map Use.opt) :
    exists p, p ∈ ps ∧ o = .value p ∧ Opt.value p ∉ used := by
  rcases List.mem_map.mp h with ⟨u, hu, rfl⟩
  rcases mem_environmentUses_iff.mp hu with ⟨p, raw, hp, hused, _, rfl⟩
  exact ⟨p, hp, rfl, hused⟩

theorem nodup_opts_environmentUses {environment : Environment} {used : List Opt}
    {ps : List Parameter} (hps : ps.Nodup) :
    ((environmentUses environment used ps).map Use.opt).Nodup := by
  induction ps with
  | nil =>
      exact List.nodup_nil
  | cons p rest ih =>
      rw [List.nodup_cons] at hps
      have hrest := ih hps.right
      have hnew : Opt.value p ∉ (environmentUses environment used rest).map Use.opt := by
        intro hmem
        rcases mem_opts_environmentUses hmem with ⟨q, hq, heq, _⟩
        cases heq
        exact hps.left hq
      unfold environmentUses at *
      rw [List.filterMap_cons]
      split
      · exact hrest
      · rename_i u hu
        split at hu
        · cases hu
        · rcases Option.map_eq_some_iff.mp hu with ⟨raw, _, rfl⟩
          exact List.nodup_cons.mpr ⟨hnew, hrest⟩

/-!
# Accepted command lines
-/

def allUses (environment : Environment) (uses : List Use) : List Use :=
  uses ++ environmentUses environment (uses.map Use.opt) environmentParameters

theorem interpret_eq_ok_iff {arguments : List RawText} {environment : Environment}
    {settings : Settings} :
    interpret arguments environment = .ok settings <->
      exists uses final, Spelled uses arguments ∧
        Absorbs [] (allUses environment uses) final ∧ settings = overlay final := by
  have hps : environmentParameters.Nodup := by decide
  unfold interpret
  constructor
  · intro h
    cases hexamine : examine {} arguments with
    | error failure => simp [hexamine] at h
    | ok st =>
        cases hcomplete : complete environment environmentParameters st with
        | error failure => simp [hexamine, hcomplete] at h
        | ok final =>
            simp only [hexamine, hcomplete, Except.ok.injEq] at h
            rcases examine_eq_ok_iff.mp hexamine with ⟨hpending, uses, hspelled, habsorbs⟩
            have hused : st.used = uses.map Use.opt := opts_of_absorbs habsorbs
            have hmore := ((complete_eq_ok_iff hps hpending).mp hcomplete).left
            rw [hused] at hmore
            exact ⟨uses, final.settled, hspelled,
              absorbs_append_iff.mpr ⟨st.settled, habsorbs, hmore⟩, h.symm⟩
  · intro hgiven
    rcases hgiven with ⟨uses, final, hspelled, habsorbs, rfl⟩
    rcases absorbs_append_iff.mp habsorbs with ⟨between, huses, hmore⟩
    have hexamine : examine {} arguments = .ok ⟨between, .nothing⟩ :=
      examine_eq_ok_iff.mpr ⟨rfl, uses, hspelled, huses⟩
    have hused : Progress.used ⟨between, .nothing⟩ = uses.map Use.opt := opts_of_absorbs huses
    have hcomplete : complete environment environmentParameters ⟨between, .nothing⟩ =
        .ok ⟨final, .nothing⟩ := by
      apply (complete_eq_ok_iff hps rfl).mpr
      rw [hused]
      exact ⟨hmore, rfl⟩
    simp only [hexamine, hcomplete]

theorem exists_reads_value_iff {p : Parameter} {raw : RawText} :
    (exists o, Reads (.value p raw) o) <-> exists v, p.Denotes raw v := by
  constructor
  · intro hgiven
    rcases hgiven with ⟨o, ho⟩
    cases ho with
    | value hden => exact ⟨_, hden⟩
  · intro hgiven
    rcases hgiven with ⟨v, hden⟩
    exact ⟨_, Reads.value hden⟩

theorem accepted_iff {environment : Environment} {arguments : List RawText}
    {uses : List Use} :
    Accepted environment arguments uses <->
      Spelled uses arguments ∧ exists final, Absorbs [] (allUses environment uses) final := by
  constructor
  · intro h
    refine ⟨h.spelled, exists_absorbs ?_ ?_⟩
    · intro u hu
      rcases List.mem_append.mp hu with hgiven | hvariable
      · cases u with
        | noKeepAlive => exact ⟨_, Reads.noKeepAlive⟩
        | value p raw => exact exists_reads_value_iff.mpr (h.given p raw hgiven)
      · rcases mem_environmentUses_iff.mp hvariable with ⟨p, raw, _, hp, hraw, rfl⟩
        exact exists_reads_value_iff.mpr (h.surrounding p raw hp hraw)
    · unfold allUses
      rw [List.map_nil, List.nil_append, List.map_append, List.nodup_append]
      refine ⟨h.once, nodup_opts_environmentUses (by decide), ?_⟩
      intro o ho o' ho' heq
      rcases mem_opts_environmentUses ho' with ⟨p, _, hvalue, hp⟩
      rw [heq, hvalue] at ho
      exact hp ho
  · intro hgiven
    rcases hgiven with ⟨hspelled, final, habsorbs⟩
    have hnodup := nodup_of_absorbs habsorbs List.nodup_nil
    rw [opts_of_absorbs habsorbs] at hnodup
    have hreads := exists_reads_of_absorbs habsorbs
    refine ⟨hspelled, ?_, ?_, ?_⟩
    · unfold allUses at hnodup
      rw [List.map_nil, List.nil_append, List.map_append, List.nodup_append] at hnodup
      exact hnodup.left
    · intro p raw hraw
      rcases hreads _ (List.mem_append_left _ hraw) with ⟨o, _, ho⟩
      exact exists_reads_value_iff.mp ⟨o, ho⟩
    · intro p raw hp hraw
      have hmem := mem_environmentUses_iff.mpr
        ⟨p, raw, mem_environmentParameters hraw, hp, hraw, rfl⟩
      rcases hreads _ (List.mem_append_right _ hmem) with ⟨o, _, ho⟩
      exact exists_reads_value_iff.mp ⟨o, ho⟩

theorem overlaid_of_absorbs {environment : Environment} {uses : List Use}
    {final : List Occurrence} (h : Absorbs [] (allUses environment uses) final) :
    Overlaid environment uses (overlay final) := by
  have hnodup := nodup_of_absorbs h List.nodup_nil
  have hopts := opts_of_absorbs h
  have hvalue {p : Parameter} {raw : RawText}
      (hmem : Use.value p raw ∈ allUses environment uses) :
      exists v, p.Denotes raw v ∧ p.field (overlay final) = some v := by
    rcases exists_reads_of_absorbs h _ hmem with ⟨o, ho, hreads⟩
    cases hreads with
    | value hden => exact ⟨_, hden, field_foldl_of_mem (g := ⟨p, _⟩) hnodup ho _⟩
  refine ⟨?_, ?_, ?_, ?_⟩
  · intro p raw hraw
    exact hvalue (List.mem_append_left _ hraw)
  · intro p raw hp hraw
    exact hvalue (List.mem_append_right _ (mem_environmentUses_iff.mpr
      ⟨p, raw, mem_environmentParameters hraw, hp, hraw, rfl⟩))
  · intro p hp hnone
    apply field_foldl_of_not_mem
    rw [hopts]
    unfold allUses
    rw [List.map_nil, List.nil_append, List.map_append, List.mem_append, not_or]
    refine ⟨hp, ?_⟩
    intro hmem
    rcases List.mem_map.mp hmem with ⟨u, hu, hopt⟩
    rcases mem_environmentUses_iff.mp hu with ⟨q, raw, _, _, hraw, rfl⟩
    cases hopt
    rw [hnone] at hraw
    cases hraw
  · unfold overlay
    rw [keepAlive_foldl_eq_false_iff]
    constructor
    · intro hgiven
      rcases hgiven with hdefault | hmem
      · cases hdefault
      · rcases exists_use_of_absorbs h _ hmem with hnil | ⟨u, hu, hreads⟩
        · cases hnil
        · cases hreads
          rcases List.mem_append.mp hu with hgiven | hvariable
          · exact hgiven
          · rcases mem_environmentUses_iff.mp hvariable with ⟨_, _, _, _, _, heq⟩
            cases heq
    · intro hmem
      rcases exists_reads_of_absorbs h _ (List.mem_append_left _ hmem) with ⟨o, ho, hreads⟩
      cases hreads
      exact Or.inr ho

/-- A command line is carried out if and only if it spells uses that are accepted, and the settings
are then those that the uses and the environment overlay on the defaults. -/
theorem parse_eq_ok_iff_accepted (arguments : List RawText) (environment : Environment) :
    ((exists settings, parse arguments environment = .ok settings) <->
        exists uses, Accepted environment arguments.tail uses) ∧
      forall settings, parse arguments environment = .ok settings <->
        exists uses, Accepted environment arguments.tail uses ∧
          Overlaid environment uses settings := by
  constructor
  · constructor
    · intro hgiven
      rcases hgiven with ⟨settings, h⟩
      rcases interpret_eq_ok_iff.mp h with ⟨uses, final, hspelled, habsorbs, _⟩
      exact ⟨uses, accepted_iff.mpr ⟨hspelled, final, habsorbs⟩⟩
    · intro hgiven
      rcases hgiven with ⟨uses, haccepted⟩
      rcases accepted_iff.mp haccepted with ⟨hspelled, final, habsorbs⟩
      exact ⟨overlay final,
        interpret_eq_ok_iff.mpr ⟨uses, final, hspelled, habsorbs, rfl⟩⟩
  · intro settings
    constructor
    · intro h
      rcases interpret_eq_ok_iff.mp h with ⟨uses, final, hspelled, habsorbs, rfl⟩
      exact ⟨uses, accepted_iff.mpr ⟨hspelled, final, habsorbs⟩,
        overlaid_of_absorbs habsorbs⟩
    · intro hgiven
      rcases hgiven with ⟨uses, haccepted, hoverlaid⟩
      rcases accepted_iff.mp haccepted with ⟨hspelled, final, habsorbs⟩
      rw [hoverlaid.unique (overlaid_of_absorbs habsorbs)]
      exact interpret_eq_ok_iff.mpr ⟨uses, final, hspelled, habsorbs, rfl⟩

end CommandLine
end ConstantReply
