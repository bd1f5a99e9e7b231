import ConstantReply.Proofs.Lifecycle.Trackers
import Mathlib.Data.List.Induction
import Mathlib.Data.Set.Card

/-!
# What a tracker counts

The counters of the state say what the operations say: a tracker counts the guards that it and its
kin have made and that were not dropped, and the numbers go up by one for each connection.
-/

namespace ConstantReply
namespace Tracking

/-- What holds of the state and the numbers after some operations. -/
structure Counted (operations : List Operation) (ids : List ConnectionId) (s : Tracking) : Prop where
  reached : run {} operations = s
  counts : forall tracker, Remains operations tracker ->
    exists count, s.activeCount? tracker = some count ∧
      {guard | Live operations tracker guard}.encard = count.toNat
  possible : forall operation, (s.perform? operation).isSome <-> Possible operations operation
  lowers : forall guard next, s.perform? (.release guard) = some next ->
    exists family count, s.active[family]? = some count ∧ 0 < count ∧
      next.active = s.active.set family (count - 1)
  unaffected : forall tracker operation next, Remains operations tracker ->
    Unrelated operations tracker operation -> s.perform? operation = some next ->
    next.activeCount? tracker = s.activeCount? tracker
  numbered : ids.length = (makers operations).length
  increasing : ids.Pairwise fun a b => a.number < b.number
  distinct : ids.Nodup
  carried : forall guard g, s.guard? guard = some g -> ids[guard]? = some g.id
  texts : forall a b : ConnectionId, a.display = b.display -> a = b

/-!
## What an operation does
-/

/-- What an operation hands out and what it leaves behind. -/
inductive Effect (s : Tracking) : Operation -> List ConnectionId -> Tracking -> Prop where
  | created :
      Effect s .create []
        { s with active := s.active ++ [0], trackers := s.trackers ++ [some s.active.length] }
  | shared {tracker family : Nat} :
      s.familyOf? tracker = some family ->
      Effect s (.share tracker) [] { s with trackers := s.trackers ++ [some family] }
  | tracked {tracker family : Nat} :
      s.familyOf? tracker = some family ->
      Effect s (.track tracker) [⟨s.nextNumber⟩]
        { s with
          nextNumber := s.nextNumber + 1
          active := s.active.modify family (· + 1)
          guards := s.guards ++ [some ⟨family, ⟨s.nextNumber⟩⟩] }
  | released {guard : Nat} {g : Guard} :
      s.guard? guard = some g ->
      Effect s (.release guard) []
        { s with
          active := s.active.modify g.family (· - 1)
          guards := s.guards.set guard none }
  | forgotten {tracker family : Nat} :
      s.familyOf? tracker = some family ->
      Effect s (.forget tracker) [] { s with trackers := s.trackers.set tracker none }

section

variable {s next : Tracking} {operation : Operation}

theorem effect_of_silent (hguards : next.guards.length = s.guards.length)
    (h : Effect s operation [] next) : Effect s operation (s.handedOut next) next := by
  rw [handedOut, guard?, ← hguards, List.getElem?_length]
  exact h

theorem effect_of_perform? (h : s.perform? operation = some next) :
    Effect s operation (s.handedOut next) next := by
  cases operation with
  | create =>
      cases h
      exact effect_of_silent rfl Effect.created
  | share tracker =>
      rcases Option.map_eq_some_iff.mp h with ⟨family, hfamily, rfl⟩
      exact effect_of_silent rfl (Effect.shared hfamily)
  | track tracker =>
      rcases Option.map_eq_some_iff.mp h with ⟨family, hfamily, rfl⟩
      rw [handedOut, guard?, List.getElem?_concat_length]
      exact Effect.tracked hfamily
  | release guard =>
      rcases Option.map_eq_some_iff.mp h with ⟨g, hg, rfl⟩
      exact effect_of_silent List.length_set (Effect.released hg)
  | forget tracker =>
      rcases Option.map_eq_some_iff.mp h with ⟨family, hfamily, rfl⟩
      exact effect_of_silent rfl (Effect.forgotten hfamily)

end

/-!
## Counts
-/

def tally (guards : List (Option Guard)) (family : Nat) : Nat :=
  guards.countP fun place => place.any fun g => g.family = family

def Tallied (active : List UInt64) (guards : List (Option Guard)) : Prop :=
  forall family count, active[family]? = some count -> count = UInt64.ofNat (tally guards family)

section

variable {active : List UInt64} {guards : List (Option Guard)} {place : Nat} {g : Guard}

theorem tally_eq_zero {family : Nat} (h : forall g, some g ∈ guards -> g.family ≠ family) :
    tally guards family = 0 := by
  rw [tally, List.countP_eq_zero]
  intro place hplace
  cases place with
  | none => simp
  | some g => simpa using h g hplace

theorem tally_concat (guards : List (Option Guard)) (g : Guard) (family : Nat) :
    tally (guards ++ [some g]) family = tally guards family + if g.family = family then 1 else 0 := by
  rw [tally, List.countP_append, List.countP_singleton, tally]
  simp

theorem tally_set (h : guards[place]?.join = some g) (family : Nat) :
    tally guards family =
      tally (guards.set place none) family + if g.family = family then 1 else 0 := by
  rcases List.getElem?_eq_some_iff.mp (Option.join_eq_some_iff.mp h) with ⟨hplace, hg⟩
  have hone : (if g.family = family then 1 else 0) ≤ tally guards family := by
    have hle := List.boole_getElem_le_countP (p := fun place : Option Guard => place.any fun g =>
      g.family = family) hplace
    rw [hg] at hle
    simpa [tally] using hle
  have hset : tally (guards.set place none) family =
      tally guards family - if g.family = family then 1 else 0 := by
    rw [tally, List.countP_set hplace, hg, tally]
    simp
  omega

theorem tally_pos (h : guards[place]?.join = some g) : 0 < tally guards g.family := by
  rw [tally_set h, if_pos rfl]
  exact Nat.succ_pos _

theorem Tallied.create (h : Tallied active guards)
    (hnew : forall g, some g ∈ guards -> g.family < active.length) :
    Tallied (active ++ [0]) guards := by
  intro family count hcount
  rcases getElem?_concat_eq_some.mp hcount with hold | ⟨hlast, rfl⟩
  · exact h family count hold
  · rw [tally_eq_zero fun g hg => hlast ▸ Nat.ne_of_lt (hnew g hg)]
    rfl

theorem Tallied.track (h : Tallied active guards) (g : Guard) :
    Tallied (active.modify g.family (· + 1)) (guards ++ [some g]) := by
  intro family count hcount
  rw [List.getElem?_modify] at hcount
  rcases Option.map_eq_some_iff.mp hcount with ⟨old, hold, rfl⟩
  rw [tally_concat, h family old hold]
  by_cases hfamily : g.family = family
  · rw [if_pos hfamily, if_pos hfamily, UInt64.ofNat_add]
    rfl
  · rw [if_neg hfamily, if_neg hfamily, Nat.add_zero]

theorem Tallied.release (h : Tallied active guards) (hg : guards[place]?.join = some g) :
    Tallied (active.modify g.family (· - 1)) (guards.set place none) := by
  intro family count hcount
  rw [List.getElem?_modify] at hcount
  rcases Option.map_eq_some_iff.mp hcount with ⟨old, hold, rfl⟩
  rw [h family old hold, tally_set hg]
  by_cases hfamily : g.family = family
  · rw [if_pos hfamily, if_pos hfamily, UInt64.ofNat_add]
    exact UInt64.add_sub_cancel _ _
  · rw [if_neg hfamily, if_neg hfamily, Nat.add_zero]

theorem encard_of_tally (guards : List (Option Guard)) (family : Nat) :
    {place : Nat | exists g, guards[place]?.join = some g ∧ g.family = family}.encard =
      tally guards family := by
  let belongs (place : Option Guard) : Bool := place.any fun g => g.family = family
  have hplaces : {place : Nat | exists g, guards[place]?.join = some g ∧ g.family = family} =
      ((guards.findIdxs belongs).toFinset : Set Nat) := by
    ext place
    rw [Set.mem_ofPred_eq, Finset.mem_coe, List.mem_toFinset,
      List.mem_findIdxs_iff_exists_getElem_pos]
    constructor
    · rintro ⟨g, hg, rfl⟩
      rcases List.getElem?_eq_some_iff.mp (Option.join_eq_some_iff.mp hg) with ⟨hplace, heq⟩
      exact ⟨hplace, by simp [belongs, heq]⟩
    · rintro ⟨hplace, hbelongs⟩
      rcases (Option.any_eq_true _ _).mp hbelongs with ⟨g, hg, hfamily⟩
      refine ⟨g, ?_, of_decide_eq_true hfamily⟩
      rw [List.getElem?_eq_getElem hplace, hg]
      rfl
  rw [hplaces, Set.encard_coe_eq_coe_finsetCard,
    List.toFinset_card_of_nodup List.nodup_findIdxs, List.length_findIdxs]
  rfl

end

/-!
## States and what led to them
-/

structure History (operations : List Operation) (families : List Nat) (made : List Guard)
    (s : Tracking) : Prop where
  grouped : Families operations families s.active.length
  connected : Connections operations families made
  trackers : Places families (forgotten operations) s.trackers
  guards : Places made (released operations) s.guards
  next : s.nextNumber = UInt64.ofNat (made.length + 1)
  tallied : Tallied s.active s.guards

theorem history_nil : History [] [] [] {} where
  grouped := Families.nil
  connected := Connections.nil
  trackers := Places.nil
  guards := Places.nil
  next := rfl
  tallied := by simp [Tallied]

section

variable {operations : List Operation} {operation : Operation} {families : List Nat}
variable {ids : List ConnectionId} {made : List Guard} {s t : Tracking}

theorem History.guard_bounded {g : Guard} (h : History operations families made s)
    (hg : some g ∈ s.guards) : g.family < s.active.length := by
  rcases List.mem_iff_getElem?.mp hg with ⟨place, hplace⟩
  have hmade := ((h.guards.there place g).mp (Option.join_eq_some_iff.mpr hplace)).left
  exact h.connected.bounded h.grouped hmade

theorem History.family_of_tracker {tracker family : Nat} (h : History operations families made s)
    (hfamily : s.familyOf? tracker = some family) : families[tracker]? = some family :=
  ((h.trackers.there tracker family).mp hfamily).left

theorem history_of_effect (h : History operations families made s)
    (heffect : Effect s operation ids t) :
    exists families' made', History (operations ++ [operation]) families' made' t ∧
      made'.map Guard.id = made.map Guard.id ++ ids := by
  cases heffect with
  | created =>
      refine ⟨families ++ [s.active.length], made, ?_, (List.append_nil _).symm⟩
      exact {
        grouped := by
          rw [List.length_append]
          exact h.grouped.create
        connected := (h.connected.of_makers rfl).of_families s.active.length
        trackers := by simpa [forgotten] using h.trackers.concat s.active.length
        guards := by simpa [released] using h.guards
        next := h.next
        tallied := h.tallied.create fun g => h.guard_bounded }
  | @shared tracker family hfamily =>
      refine ⟨families ++ [family], made, ?_, (List.append_nil _).symm⟩
      exact {
        grouped := h.grouped.share (h.family_of_tracker hfamily)
        connected := (h.connected.of_makers rfl).of_families family
        trackers := by simpa [forgotten] using h.trackers.concat family
        guards := by simpa [released] using h.guards
        next := h.next
        tallied := h.tallied }
  | @tracked tracker family hfamily =>
      refine ⟨families, made ++ [⟨family, ⟨s.nextNumber⟩⟩], ?_, List.map_append⟩
      exact {
        grouped := by
          rw [List.length_modify]
          exact h.grouped.of_origins rfl
        connected := h.connected.track (h.family_of_tracker hfamily) h.next
        trackers := by simpa [forgotten] using h.trackers
        guards := by simpa [released] using h.guards.concat ⟨family, ⟨s.nextNumber⟩⟩
        next := by
          rw [h.next, List.length_append, List.length_singleton, UInt64.ofNat_add (made.length + 1)]
          rfl
        tallied := h.tallied.track ⟨family, ⟨s.nextNumber⟩⟩ }
  | @released guard g hg =>
      refine ⟨families, made, ?_, (List.append_nil _).symm⟩
      exact {
        grouped := by
          rw [List.length_modify]
          exact h.grouped.of_origins rfl
        connected := h.connected.of_makers rfl
        trackers := by simpa [forgotten] using h.trackers
        guards := by simpa [Tracking.released] using h.guards.clear hg
        next := h.next
        tallied := h.tallied.release hg }
  | @forgotten tracker family hfamily =>
      refine ⟨families, made, ?_, (List.append_nil _).symm⟩
      exact {
        grouped := h.grouped.of_origins rfl
        connected := h.connected.of_makers rfl
        trackers := by simpa [Tracking.forgotten] using h.trackers.clear hfamily
        guards := by simpa [released] using h.guards
        next := h.next
        tallied := h.tallied }

theorem history_of_run? (h : run? {} operations = some (s, ids)) :
    exists families made, History operations families made s ∧ made.map Guard.id = ids := by
  induction operations using List.reverseRecOn generalizing s ids with
  | nil =>
      cases h
      exact ⟨[], [], history_nil, rfl⟩
  | append_singleton front operation ih =>
      rcases run?_concat h with ⟨t, before, hfront, hstep, rfl⟩
      rcases ih hfront with ⟨families, made, hhistory, rfl⟩
      exact history_of_effect hhistory (effect_of_perform? hstep)

/-!
## Counting
-/

theorem History.remains_iff (h : History operations families made s) (tracker : Nat) :
    (s.familyOf? tracker).isSome <-> Remains operations tracker := by
  rw [familyOf?, h.trackers.isSome_iff, h.grouped.length]
  exact ⟨fun hboth => ⟨hboth.left, hboth.right⟩, fun hremains => ⟨hremains.made, hremains.kept⟩⟩

theorem History.possible_iff (h : History operations families made s) :
    (s.perform? operation).isSome <-> Possible operations operation := by
  cases operation with
  | create => simp [perform?, Possible]
  | share tracker => rw [perform?, share?, Option.isSome_map, h.remains_iff, Possible]
  | track tracker => rw [perform?, track?, Option.isSome_map, h.remains_iff, Possible]
  | release guard =>
      rw [perform?, release?, Option.isSome_map, guard?, h.guards.isSome_iff, h.connected.length,
        Possible]
  | forget tracker => rw [perform?, forget?, Option.isSome_map, h.remains_iff, Possible]

theorem History.family_of_remains {tracker : Nat} (h : History operations families made s)
    (hremains : Remains operations tracker) :
    exists family, families[tracker]? = some family ∧ s.familyOf? tracker = some family := by
  rcases Option.isSome_iff_exists.mp ((h.remains_iff tracker).mpr hremains) with ⟨family, hfamily⟩
  exact ⟨family, h.family_of_tracker hfamily, hfamily⟩

theorem History.activeCount {tracker family : Nat} (h : History operations families made s)
    (hfamily : s.familyOf? tracker = some family) :
    s.activeCount? tracker = some (UInt64.ofNat (tally s.guards family)) := by
  have hbound := h.grouped.bounded family (List.mem_of_getElem? (h.family_of_tracker hfamily))
  rw [activeCount?, hfamily, Option.bind_some, List.getElem?_eq_getElem hbound,
    h.tallied family _ (List.getElem?_eq_getElem hbound)]

theorem History.live_iff {tracker family guard : Nat} (h : History operations families made s)
    (hfamily : families[tracker]? = some family) :
    Live operations tracker guard <->
      exists g : Guard, s.guards[guard]?.join = some g ∧ g.family = family := by
  constructor
  · rintro ⟨⟨maker, hmaker, hkin⟩, hkept⟩
    have hguard : guard < made.length := by
      rw [h.connected.length]
      exact (List.getElem?_eq_some_iff.mp hmaker).choose
    have hmade := List.getElem?_eq_getElem hguard
    refine ⟨made[guard], (h.guards.there guard _).mpr ⟨hmade, hkept⟩, ?_⟩
    rcases h.connected.maker guard _ hmade with ⟨maker', hmaker', hown⟩
    rw [hmaker, Option.some_inj] at hmaker'
    rw [← hmaker', h.grouped.eq_of_kin hkin, hfamily, Option.some_inj] at hown
    exact hown.symm
  · rintro ⟨g, hg, rfl⟩
    rcases (h.guards.there guard g).mp hg with ⟨hmade, hkept⟩
    rcases h.connected.maker guard g hmade with ⟨maker, hmaker, hown⟩
    exact ⟨⟨maker, hmaker, h.grouped.kin maker tracker g.family hown hfamily⟩, hkept⟩

theorem activeCount?_congr {tracker family : Nat} (hs : s.familyOf? tracker = some family)
    (ht : t.familyOf? tracker = some family) (hactive : t.active[family]? = s.active[family]?) :
    t.activeCount? tracker = s.activeCount? tracker := by
  rw [activeCount?, activeCount?, hs, ht, Option.bind_some, Option.bind_some, hactive]

theorem familyOf?_of_concat {tracker family new : Nat} (h : s.familyOf? tracker = some family)
    (ht : t.trackers = s.trackers ++ [some new]) : t.familyOf? tracker = some family := by
  rw [familyOf?, Option.join_eq_some_iff] at h ⊢
  rw [ht]
  exact getElem?_concat_eq_some.mpr (Or.inl h)

theorem History.unaffected {tracker : Nat} (h : History operations families made s)
    (hremains : Remains operations tracker) (hunrelated : Unrelated operations tracker operation)
    (heffect : Effect s operation ids t) : t.activeCount? tracker = s.activeCount? tracker := by
  rcases h.family_of_remains hremains with ⟨family, hfamily, hs⟩
  cases heffect with
  | created =>
      have hbound := h.grouped.bounded family (List.mem_of_getElem? hfamily)
      exact activeCount?_congr hs (familyOf?_of_concat hs rfl) (List.getElem?_append_left hbound)
  | shared => exact activeCount?_congr hs (familyOf?_of_concat hs rfl) rfl
  | @tracked other family' hother =>
      have hne : family' ≠ family := by
        rintro rfl
        exact hunrelated (h.grouped.kin other tracker _ (h.family_of_tracker hother) hfamily)
      exact activeCount?_congr hs hs (List.getElem?_modify_ne _ _ hne)
  | @released guard g hg =>
      rcases (h.guards.there guard g).mp hg with ⟨hmade, _⟩
      rcases h.connected.maker guard g hmade with ⟨maker, hmaker, hown⟩
      have hne : g.family ≠ family := by
        intro heq
        exact hunrelated maker hmaker (h.grouped.kin maker tracker family (heq ▸ hown) hfamily)
      exact activeCount?_congr hs hs (List.getElem?_modify_ne _ _ hne)
  | @forgotten other family' _ =>
      have ht : (s.trackers.set other none)[tracker]?.join = some family := by
        rw [List.getElem?_set_ne hunrelated]
        exact hs
      exact activeCount?_congr hs ht rfl

theorem History.tally_lt (h : History operations families made s)
    (hbound : (makers operations).length < UInt64.size) (family : Nat) :
    tally s.guards family < UInt64.size := by
  apply Nat.lt_of_le_of_lt List.countP_le_length
  rw [h.guards.length, h.connected.length]
  exact hbound

theorem History.counts {tracker : Nat} (h : History operations families made s)
    (hbound : (makers operations).length < UInt64.size) (hremains : Remains operations tracker) :
    exists count, s.activeCount? tracker = some count ∧
      {guard | Live operations tracker guard}.encard = count.toNat := by
  rcases h.family_of_remains hremains with ⟨family, hfamily, hs⟩
  refine ⟨_, h.activeCount hs, ?_⟩
  have hlive : {guard | Live operations tracker guard} =
      {guard | exists g, s.guards[guard]?.join = some g ∧ g.family = family} :=
    Set.ext fun guard => h.live_iff hfamily
  rw [hlive, encard_of_tally, UInt64.toNat_ofNat_of_lt' (h.tally_lt hbound family)]

theorem History.lowers {guard : Nat} (h : History operations families made s)
    (hbound : (makers operations).length < UInt64.size)
    (hrelease : s.perform? (.release guard) = some t) :
    exists family count, s.active[family]? = some count ∧ 0 < count ∧
      t.active = s.active.set family (count - 1) := by
  rcases Option.map_eq_some_iff.mp hrelease with ⟨g, hg, rfl⟩
  have hfamily : g.family < s.active.length :=
    h.guard_bounded (List.mem_of_getElem? (Option.join_eq_some_iff.mp hg))
  have hactive := List.getElem?_eq_getElem hfamily
  refine ⟨g.family, s.active[g.family], hactive, ?_, ?_⟩
  · rw [h.tallied g.family _ hactive, UInt64.lt_iff_toNat_lt,
      UInt64.toNat_ofNat_of_lt' (h.tally_lt hbound g.family)]
    exact tally_pos hg
  · rw [List.modify_eq_set_getElem?, hactive]
    rfl

/-- Counts and numbers are right after any operations with fewer connections than numbers. -/
theorem counted_of_run (hbound : (makers operations).length < UInt64.size)
    (h : run? {} operations = some (s, ids)) : Counted operations ids s := by
  rcases history_of_run? h with ⟨families, made, hhistory, rfl⟩
  have hlength := hhistory.connected.length
  have hincreasing := hhistory.connected.increasing (hlength ▸ hbound)
  exact {
    reached := run_of_run? h
    counts := fun tracker => hhistory.counts hbound
    possible := fun operation => hhistory.possible_iff
    lowers := fun guard next => hhistory.lowers hbound
    unaffected := fun tracker operation next hremains hunrelated hnext =>
      hhistory.unaffected hremains hunrelated (effect_of_perform? hnext)
    numbered := by rw [List.length_map, hlength]
    increasing := hincreasing
    distinct := hincreasing.imp fun {a b} hlt heq => UInt64.ne_of_lt hlt (congrArg _ heq)
    carried := by
      intro guard g hg
      rw [List.getElem?_map, ((hhistory.guards.there guard g).mp hg).left]
      rfl
    texts := fun a b => ConnectionId.display_injective }

theorem counted_of_outlived :
    let operations : List Operation :=
      [.create, .share 0, .create, .track 0, .track 1, .track 2, .forget 0, .forget 2, .release 0,
        .track 1]
    let s : Tracking :=
      { nextNumber := 5
        active := [2, 1]
        trackers := [none, some 0, none]
        guards := [none, some ⟨0, ⟨2⟩⟩, some ⟨1, ⟨3⟩⟩, some ⟨0, ⟨4⟩⟩] }
    (makers operations).length < UInt64.size ∧
      run? {} operations = some (s, [⟨1⟩, ⟨2⟩, ⟨3⟩, ⟨4⟩]) ∧
      Counted operations [⟨1⟩, ⟨2⟩, ⟨3⟩, ⟨4⟩] s :=
  ⟨by decide, rfl, counted_of_run (by decide) rfl⟩

end

end Tracking
end ConstantReply
