import ConstantReply.Lifecycle.Tracker
import ConstantReply.Proofs.Runs
import Mathlib.Logic.Relation

/-!
# Trackers and guards

Trackers are made and cloned, connections begin and end, and trackers are dropped, one after the
other in any order.  Which trackers count together and which guards are still there is told from the
operations alone, without the counters.
-/

namespace ConstantReply

theorem ConnectionId.display_injective {a b : ConnectionId} (h : a.display = b.display) : a = b := by
  have htext : (toString a.number.toNat).toList = (toString b.number.toNat).toList := by
    have hchars := congrArg String.toList h
    rw [display, display, String.toList_append, String.toList_append] at hchars
    exact List.append_cancel_left hchars
  rw [Nat.toString_eq_repr, Nat.toString_eq_repr, Nat.toList_repr, Nat.toList_repr] at htext
  have hnumber : a.number.toNat = b.number.toNat := by
    rw [← Nat.ofDigitChars_ten_toDigits (n := a.number.toNat), htext,
      Nat.ofDigitChars_ten_toDigits]
  exact congrArg ConnectionId.mk (UInt64.toNat_inj.mp hnumber)

namespace Tracking

/-!
## Runs
-/

def handedOut (s next : Tracking) : List ConnectionId :=
  ((next.guard? s.guards.length).map Guard.id).toList

def run? (s : Tracking) : List Operation -> Option (Tracking × List ConnectionId)
  | [] => some (s, [])
  | operation :: rest => do
      let next <- s.perform? operation
      let (last, more) <- run? next rest
      some (last, s.handedOut next ++ more)

theorem run?_cons (s : Tracking) (operation : Operation) (rest : List Operation) :
    s.run? (operation :: rest) = (s.perform? operation).bind fun t =>
      (t.run? rest).map fun v => (v.1, s.handedOut t ++ v.2) := by
  rw [run?]
  cases s.perform? operation with
  | none => rfl
  | some t =>
      cases h : t.run? rest <;> simp [h]

theorem run?_concat {s u : Tracking} {operations : List Operation} {operation : Operation}
    {ids : List ConnectionId} (h : s.run? (operations ++ [operation]) = some (u, ids)) :
    exists t front, s.run? operations = some (t, front) ∧ t.perform? operation = some u ∧
      ids = front ++ t.handedOut u :=
  run_concat_of_steps perform? (fun s _ t => s.handedOut t) (fun _ => rfl) run?_cons h

theorem run_of_run? {s u : Tracking} {operations : List Operation} {ids : List ConnectionId}
    (h : s.run? operations = some (u, ids)) : s.run operations = u := by
  induction operations generalizing s ids with
  | nil =>
      cases h
      rfl
  | cons operation rest ih =>
      rw [run?_cons] at h
      rcases Option.bind_eq_some_iff.mp h with ⟨next, hstep, hrest⟩
      rcases Option.map_eq_some_iff.mp hrest with ⟨⟨last, more⟩, hmore, heq⟩
      cases heq
      rw [run, List.foldl_cons, hstep]
      exact ih hmore

/-!
## What the operations say

Trackers and guards are known by their places: the first tracker that was made is 0.
-/

def origins (operations : List Operation) : List (Option Nat) :=
  operations.filterMap fun
    | .create => some none
    | .share tracker => some (some tracker)
    | _ => none

def makers (operations : List Operation) : List Nat :=
  operations.filterMap fun
    | .track tracker => some tracker
    | _ => none

def released (operations : List Operation) : List Nat :=
  operations.filterMap fun
    | .release guard => some guard
    | _ => none

def forgotten (operations : List Operation) : List Nat :=
  operations.filterMap fun
    | .forget tracker => some tracker
    | _ => none

def CloneOf (operations : List Operation) (clone tracker : Nat) : Prop :=
  (origins operations)[clone]? = some (some tracker)

def Kin (operations : List Operation) : Nat -> Nat -> Prop :=
  Relation.EqvGen (CloneOf operations)

structure Remains (operations : List Operation) (tracker : Nat) : Prop where
  made : tracker < (origins operations).length
  kept : tracker ∉ forgotten operations

def Possible (operations : List Operation) : Operation -> Prop
  | .create => True
  | .share tracker => Remains operations tracker
  | .track tracker => Remains operations tracker
  | .release guard => guard < (makers operations).length ∧ guard ∉ released operations
  | .forget tracker => Remains operations tracker

structure Live (operations : List Operation) (tracker guard : Nat) : Prop where
  made : exists maker, (makers operations)[guard]? = some maker ∧ Kin operations maker tracker
  kept : guard ∉ released operations

def Unrelated (operations : List Operation) (tracker : Nat) : Operation -> Prop
  | .create => True
  | .share _ => True
  | .track other => ¬ Kin operations other tracker
  | .release guard =>
      forall maker, (makers operations)[guard]? = some maker -> ¬ Kin operations maker tracker
  | .forget other => other ≠ tracker

/-!
## Places

Trackers and guards stand in lists whose places stay empty when what was there is gone.
-/

theorem getElem?_concat_eq_some {α : Type} {l : List α} {x y : α} {i : Nat} :
    (l ++ [x])[i]? = some y <-> l[i]? = some y ∨ i = l.length ∧ x = y := by
  rcases Nat.lt_trichotomy i l.length with hlt | heq | hgt
  · rw [List.getElem?_append_left hlt]
    exact ⟨Or.inl, fun h => h.resolve_right fun hr => Nat.ne_of_lt hlt hr.left⟩
  · subst heq
    simp
  · have hlong : (l ++ [x]).length ≤ i := by
      rw [List.length_append, List.length_singleton]
      omega
    rw [List.getElem?_eq_none hlong, List.getElem?_eq_none (Nat.le_of_lt hgt)]
    simp [Nat.ne_of_gt hgt]

structure Places {α : Type} (made : List α) (gone : List Nat) (places : List (Option α)) :
    Prop where
  length : places.length = made.length
  old : forall place, place ∈ gone -> place < made.length
  there : forall place x, places[place]?.join = some x <-> made[place]? = some x ∧ place ∉ gone

namespace Places

variable {α : Type} {made : List α} {gone : List Nat} {places : List (Option α)}

theorem nil : Places ([] : List α) [] [] where
  length := rfl
  old := by simp
  there := by simp

theorem isSome_iff (h : Places made gone places) (place : Nat) :
    places[place]?.join.isSome <-> place < made.length ∧ place ∉ gone := by
  rw [Option.isSome_iff_exists]
  constructor
  · rintro ⟨x, hx⟩
    rcases (h.there place x).mp hx with ⟨hmade, hkept⟩
    exact ⟨(List.getElem?_eq_some_iff.mp hmade).choose, hkept⟩
  · rintro ⟨hplace, hkept⟩
    exact ⟨_, (h.there place _).mpr ⟨List.getElem?_eq_getElem hplace, hkept⟩⟩

theorem concat (h : Places made gone places) (x : α) :
    Places (made ++ [x]) gone (places ++ [some x]) where
  length := by rw [List.length_append, List.length_append, h.length]; rfl
  old := by
    intro place hplace
    have := h.old place hplace
    rw [List.length_append]
    omega
  there := by
    intro place y
    have hnew : made.length ∉ gone := fun hgone => Nat.lt_irrefl _ (h.old _ hgone)
    rw [Option.join_eq_some_iff, getElem?_concat_eq_some, getElem?_concat_eq_some, h.length,
      ← Option.join_eq_some_iff, h.there, Option.some_inj, or_and_right]
    constructor
    · rintro (hold | ⟨rfl, rfl⟩)
      · exact Or.inl hold
      · exact Or.inr ⟨⟨rfl, rfl⟩, hnew⟩
    · rintro (hold | ⟨hlast, _⟩)
      · exact Or.inl hold
      · exact Or.inr hlast

theorem clear {place : Nat} {x : α} (h : Places made gone places)
    (hplace : places[place]?.join = some x) :
    Places made (gone ++ [place]) (places.set place none) where
  length := by rw [List.length_set, h.length]
  old := by
    intro i hi
    rcases List.mem_append.mp hi with hold | hnew
    · exact h.old i hold
    · rw [List.mem_singleton.mp hnew]
      exact (List.getElem?_eq_some_iff.mp ((h.there place x).mp hplace).left).choose
  there := by
    intro i y
    rw [List.mem_append, List.mem_singleton, not_or, ← and_assoc, ← h.there]
    by_cases hi : place = i
    · subst hi
      rw [List.getElem?_set_self']
      cases places[place]? <;> simp
    · rw [List.getElem?_set_ne hi]
      simp [Ne.symm hi]

end Places

/-!
## Families

Trackers count together exactly if they are kin.
-/

structure Families (operations : List Operation) (families : List Nat) (count : Nat) : Prop where
  length : families.length = (origins operations).length
  bounded : forall family, family ∈ families -> family < count
  cloned : forall clone tracker, CloneOf operations clone tracker ->
    exists family, families[clone]? = some family ∧ families[tracker]? = some family
  kin : forall a b family, families[a]? = some family -> families[b]? = some family ->
    Kin operations a b

theorem origins_concat (operations : List Operation) (operation : Operation) :
    origins (operations ++ [operation]) = origins operations ++ origins [operation] :=
  List.filterMap_append

theorem makers_concat (operations : List Operation) (operation : Operation) :
    makers (operations ++ [operation]) = makers operations ++ makers [operation] :=
  List.filterMap_append

theorem kin_concat {operations : List Operation} {a b : Nat} (operation : Operation)
    (h : Kin operations a b) : Kin (operations ++ [operation]) a b := by
  refine Relation.EqvGen.mono ?_ a b h
  intro clone tracker hclone
  rw [CloneOf] at hclone ⊢
  rw [origins_concat, List.getElem?_append_left (List.getElem?_eq_some_iff.mp hclone).choose]
  exact hclone

namespace Families

variable {operations : List Operation} {families : List Nat} {count : Nat}

theorem nil : Families [] [] 0 where
  length := rfl
  bounded := by simp
  cloned := by simp [CloneOf, origins]
  kin := by simp

theorem eq_of_kin {a b : Nat} (h : Families operations families count)
    (hkin : Kin operations a b) : families[a]? = families[b]? := by
  induction hkin with
  | rel clone tracker hclone =>
      rcases h.cloned clone tracker hclone with ⟨family, hleft, hright⟩
      rw [hleft, hright]
  | refl tracker => rfl
  | symm a b _ ih => exact ih.symm
  | trans a b c _ _ hab hbc => exact hab.trans hbc

theorem of_origins {operation : Operation} (h : Families operations families count)
    (horigins : origins [operation] = []) :
    Families (operations ++ [operation]) families count := by
  have hsame : origins (operations ++ [operation]) = origins operations := by
    rw [origins_concat, horigins, List.append_nil]
  have hcloned : CloneOf (operations ++ [operation]) = CloneOf operations := by
    unfold CloneOf
    rw [hsame]
  exact ⟨hsame ▸ h.length, h.bounded, hcloned ▸ h.cloned,
    fun a b family ha hb => kin_concat operation (h.kin a b family ha hb)⟩

theorem create (h : Families operations families count) :
    Families (operations ++ [.create]) (families ++ [count]) (count + 1) where
  length := by
    rw [origins_concat, List.length_append, List.length_append, h.length]
    rfl
  bounded := by
    intro family hfamily
    rcases List.mem_append.mp hfamily with hold | hnew
    · exact Nat.lt_succ_of_lt (h.bounded family hold)
    · rw [List.mem_singleton.mp hnew]
      exact Nat.lt_succ_self count
  cloned := by
    intro clone tracker hclone
    rw [CloneOf, origins_concat] at hclone
    rcases getElem?_concat_eq_some.mp hclone with hold | ⟨_, hnew⟩
    · rcases h.cloned clone tracker hold with ⟨family, hleft, hright⟩
      exact ⟨family, getElem?_concat_eq_some.mpr (Or.inl hleft),
        getElem?_concat_eq_some.mpr (Or.inl hright)⟩
    · cases hnew
  kin := by
    intro a b family ha hb
    have hfresh {place : Nat} : families[place]? ≠ some count := fun hplace =>
      Nat.lt_irrefl count (h.bounded count (List.mem_of_getElem? hplace))
    rcases getElem?_concat_eq_some.mp ha with hold | ⟨rfl, rfl⟩
    · rcases getElem?_concat_eq_some.mp hb with hother | ⟨_, rfl⟩
      · exact kin_concat .create (h.kin a b family hold hother)
      · exact absurd hold hfresh
    · rcases getElem?_concat_eq_some.mp hb with hother | ⟨rfl, _⟩
      · exact absurd hother hfresh
      · exact Relation.EqvGen.refl _

theorem share {source family : Nat} (h : Families operations families count)
    (hsource : families[source]? = some family) :
    Families (operations ++ [.share source]) (families ++ [family]) count where
  length := by
    rw [origins_concat, List.length_append, List.length_append, h.length]
    rfl
  bounded := by
    intro f hf
    rcases List.mem_append.mp hf with hold | hnew
    · exact h.bounded f hold
    · rw [List.mem_singleton.mp hnew]
      exact h.bounded family (List.mem_of_getElem? hsource)
  cloned := by
    intro clone tracker hclone
    rw [CloneOf, origins_concat] at hclone
    rcases getElem?_concat_eq_some.mp hclone with hold | ⟨hlast, hnew⟩
    · rcases h.cloned clone tracker hold with ⟨f, hleft, hright⟩
      exact ⟨f, getElem?_concat_eq_some.mpr (Or.inl hleft),
        getElem?_concat_eq_some.mpr (Or.inl hright)⟩
    · cases hnew
      exact ⟨family, getElem?_concat_eq_some.mpr (Or.inr ⟨h.length ▸ hlast, rfl⟩),
        getElem?_concat_eq_some.mpr (Or.inl hsource)⟩
  kin := by
    have holder {a f : Nat} (ha : (families ++ [family])[a]? = some f) :
        exists older, families[older]? = some f ∧ Kin (operations ++ [.share source]) a older := by
      rcases getElem?_concat_eq_some.mp ha with hold | ⟨hlast, rfl⟩
      · exact ⟨a, hold, Relation.EqvGen.refl a⟩
      · refine ⟨source, hsource, Relation.EqvGen.rel a source ?_⟩
        rw [CloneOf, origins_concat, hlast, h.length]
        exact List.getElem?_concat_length
    intro a b f ha hb
    rcases holder ha with ⟨a', ha', hkina⟩
    rcases holder hb with ⟨b', hb', hkinb⟩
    have hkin := kin_concat (.share source) (h.kin a' b' f ha' hb')
    exact (hkina.trans _ _ _ hkin).trans _ _ _ (hkinb.symm _ _)

end Families

/-!
## Connections
-/

structure Connections (operations : List Operation) (families : List Nat) (made : List Guard) :
    Prop where
  length : made.length = (makers operations).length
  maker : forall (place : Nat) (g : Guard), made[place]? = some g ->
    exists tracker, (makers operations)[place]? = some tracker ∧
      families[tracker]? = some g.family
  number : forall (place : Nat) (g : Guard), made[place]? = some g -> g.id.number = UInt64.ofNat (place + 1)

namespace Connections

variable {operations : List Operation} {families : List Nat} {made : List Guard}

theorem nil : Connections [] [] [] where
  length := rfl
  maker := by simp
  number := by simp

theorem of_makers {operation : Operation} (h : Connections operations families made)
    (hmakers : makers [operation] = []) :
    Connections (operations ++ [operation]) families made := by
  have hsame : makers (operations ++ [operation]) = makers operations := by
    rw [makers_concat, hmakers, List.append_nil]
  exact ⟨hsame ▸ h.length, hsame ▸ h.maker, h.number⟩

theorem of_families (h : Connections operations families made) (family : Nat) :
    Connections operations (families ++ [family]) made where
  length := h.length
  maker := by
    intro place g hg
    rcases h.maker place g hg with ⟨tracker, hmaker, hfamily⟩
    exact ⟨tracker, hmaker, getElem?_concat_eq_some.mpr (Or.inl hfamily)⟩
  number := h.number

theorem track {tracker family : Nat} {number : UInt64} (h : Connections operations families made)
    (hfamily : families[tracker]? = some family)
    (hnumber : number = UInt64.ofNat (made.length + 1)) :
    Connections (operations ++ [.track tracker]) families (made ++ [⟨family, ⟨number⟩⟩]) where
  length := by
    rw [makers_concat, List.length_append, List.length_append, h.length]
    rfl
  maker := by
    intro place g hg
    rw [makers_concat]
    rcases getElem?_concat_eq_some.mp hg with hold | ⟨hlast, rfl⟩
    · rcases h.maker place g hold with ⟨maker, hmaker, hfamily⟩
      exact ⟨maker, getElem?_concat_eq_some.mpr (Or.inl hmaker), hfamily⟩
    · exact ⟨tracker, getElem?_concat_eq_some.mpr (Or.inr ⟨h.length ▸ hlast, rfl⟩), hfamily⟩
  number := by
    intro place g hg
    rcases getElem?_concat_eq_some.mp hg with hold | ⟨hlast, rfl⟩
    · exact h.number place g hold
    · rw [hlast]
      exact hnumber

theorem bounded {count place : Nat} {g : Guard} (h : Connections operations families made)
    (hfamilies : Families operations families count) (hg : made[place]? = some g) :
    g.family < count := by
  rcases h.maker place g hg with ⟨tracker, _, hfamily⟩
  exact hfamilies.bounded g.family (List.mem_of_getElem? hfamily)

theorem increasing (h : Connections operations families made) (hbound : made.length < UInt64.size) :
    (made.map Guard.id).Pairwise fun a b => a.number < b.number := by
  rw [List.pairwise_map, List.pairwise_iff_getElem]
  intro i j hi hj hij
  rw [h.number i made[i] (List.getElem?_eq_getElem hi),
    h.number j made[j] (List.getElem?_eq_getElem hj), UInt64.lt_iff_toNat_lt,
    UInt64.toNat_ofNat_of_lt' (by omega), UInt64.toNat_ofNat_of_lt' (by omega)]
  omega

end Connections

end Tracking
end ConstantReply
