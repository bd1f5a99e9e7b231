import ConstantReply.Address.Printer
import ConstantReply.Proofs.Address.Digits

/-!
# The canonical text of an address

Of all texts of an IPv6 address one is printed: groups are in lower case and have no zeros in
front, the longest run of two or more zero groups is left out, and the last two groups are in dotted
form if the address stands for one of the other family.
-/

namespace ConstantReply
namespace Address

/-!
## Groups in their shortest form
-/

structure ShortGroup (cs : List Char) (g : UInt16) : Prop where
  number : NumberText 16 cs g.toNat
  noZero : NoLeadingZero cs
  lower : forall c, c ∈ cs -> c.isUpper = false

/-- Such groups with colons between them. -/
inductive ShortGroups : List Char -> List UInt16 -> Prop where
  | none : ShortGroups [] []
  | group {cs : List Char} {g : UInt16} : ShortGroup cs g -> ShortGroups cs [g]
  | cons {cs rest : List Char} {g next : UInt16} {groups : List UInt16} :
      ShortGroup cs g -> ShortGroups rest (next :: groups) ->
      ShortGroups (cs ++ ':' :: rest) (g :: next :: groups)

theorem isUpper_digitChar {d : Nat} (hd : d < 16) : (Nat.digitChar d).isUpper = false := by
  have hall : forall e, e < 16 -> (Nat.digitChar e).isUpper = false := by decide
  exact hall d hd

theorem eq_digitChar_of_decimal {c : Char} {d : Nat} (h : IsDigit 10 c d) :
    c = Nat.digitChar d := by
  have hsame : forall e, e < 10 ->
      "0123456789ABCDEF".toList[e]? = "0123456789abcdef".toList[e]? := by
    decide
  have hc : "0123456789abcdef".toList[d]? = some c :=
    h.right.elim id fun hupper => (hsame d h.left).symm.trans hupper
  exact Option.some.inj (hc.symm.trans (getElem?_digits (Nat.lt_trans h.left (by decide))))

theorem shortNumber_iff {cs : List Char} {n : Nat} :
    ShortNumber cs n <-> cs = Nat.toDigits 10 n := by
  constructor
  · intro h
    exact h.number.eq_toDigits (by decide) h.noZero fun c _ d hd => eq_digitChar_of_decimal hd
  · rintro rfl
    exact ⟨numberText_toDigits (by decide) (by decide) n, noLeadingZero_toDigits (by decide) n⟩

theorem eq_digitChar_of_isDigit {c : Char} {d : Nat} (h : IsDigit 16 c d)
    (hlower : c.isUpper = false) : c = Nat.digitChar d := by
  rcases h with ⟨hd, hc | hc⟩
  · exact Option.some.inj (hc.symm.trans (getElem?_digits hd))
  · have hall : forall e, e < 16 ->
        "0123456789ABCDEF".toList[e]?.all (fun c => c.isUpper || c == Nat.digitChar e) = true := by
      decide
    have hread := hall d hd
    rw [hc, Option.all_some, hlower, Bool.false_or] at hread
    exact eq_of_beq hread

theorem lower_toDigits (n : Nat) : forall c, c ∈ Nat.toDigits 16 n -> c.isUpper = false := by
  induction n using Nat.strongRecOn with
  | ind n ih =>
      intro c hc
      by_cases hsmall : n < 16
      · rw [Nat.toDigits_of_lt_base hsmall, List.mem_singleton] at hc
        rw [hc]
        exact isUpper_digitChar hsmall
      · rw [Nat.toDigits_of_base_le (by decide) (Nat.le_of_not_lt hsmall), List.mem_append,
          List.mem_singleton] at hc
        rcases hc with hc | rfl
        · exact ih (n / 16) (by omega) c hc
        · exact isUpper_digitChar (Nat.mod_lt n (by decide))

theorem shortGroup_iff {cs : List Char} {g : UInt16} :
    ShortGroup cs g <-> cs = Nat.toDigits 16 g.toNat := by
  constructor
  · intro h
    exact h.number.eq_toDigits (by decide) h.noZero
      fun c hc d hd => eq_digitChar_of_isDigit hd (h.lower c hc)
  · rintro rfl
    exact ⟨numberText_toDigits (by decide) (Nat.le_refl 16) _, noLeadingZero_toDigits (by decide) _,
      lower_toDigits _⟩

theorem shortGroups_iff {cs : List Char} {groups : List UInt16} :
    ShortGroups cs groups <-> cs = Ipv6.groupChars groups := by
  constructor
  · intro h
    induction h with
    | none => rfl
    | group hgroup => exact shortGroup_iff.mp hgroup
    | cons hgroup _ ih =>
        rw [shortGroup_iff.mp hgroup, ih]
        rfl
  · rintro rfl
    induction groups with
    | nil => exact .none
    | cons g rest ih =>
        cases rest with
        | nil => exact .group (shortGroup_iff.mpr rfl)
        | cons next groups => exact .cons (shortGroup_iff.mpr rfl) ih

theorem ShortGroup.groupText {cs : List Char} {g : UInt16} (h : ShortGroup cs g) :
    GroupText cs g :=
  ⟨h.number, h.number.length_le h.noZero (by decide) g.toNat_lt⟩

theorem PartText.groupsText {dotted : Bool} {cs : List Char} {groups : List UInt16}
    (h : PartText dotted cs groups) (hne : groups ≠ []) : GroupsText dotted cs groups := by
  cases h with
  | none => exact absurd rfl hne
  | some hgroups => exact hgroups

theorem ShortGroups.partText {cs : List Char} {groups : List UInt16} (h : ShortGroups cs groups) :
    PartText false cs groups := by
  induction h with
  | none => exact .none
  | group hgroup => exact .some (.group hgroup.groupText)
  | cons hgroup _ ih =>
      cases ih with
      | some hgroups => exact .some (.cons hgroup.groupText hgroups)

/-!
## The run that is left out
-/

structure LongestRun (groups front back : List UInt16) (zeros : Nat) : Prop where
  cut : groups = front ++ List.replicate zeros 0 ++ back
  longest : forall {front' back' : List UInt16} {zeros' : Nat},
    groups = front' ++ List.replicate zeros' 0 ++ back' -> zeros' ≤ zeros
  first : forall {front' back' : List UInt16},
    groups = front' ++ List.replicate zeros 0 ++ back' -> front.length ≤ front'.length

theorem LongestRun.unique {groups front back front' back' : List UInt16} {zeros zeros' : Nat}
    (h : LongestRun groups front back zeros) (h' : LongestRun groups front' back' zeros') :
    front = front' ∧ back = back' ∧ zeros = zeros' := by
  have hzeros : zeros = zeros' := Nat.le_antisymm (h'.longest h.cut) (h.longest h'.cut)
  subst hzeros
  have hlength : front.length = front'.length :=
    Nat.le_antisymm (h.first h'.cut) (h'.first h.cut)
  have hcut := h.cut.symm.trans h'.cut
  rw [List.append_assoc, List.append_assoc] at hcut
  rcases List.append_inj hcut hlength with ⟨hfront, hrest⟩
  exact ⟨hfront, (List.append_inj hrest rfl).right, rfl⟩

theorem eq_replicate_leadingZeros (groups : List UInt16) :
    groups =
      List.replicate (Ipv6.leadingZeros groups) 0 ++ groups.drop (Ipv6.leadingZeros groups) := by
  induction groups with
  | nil => rfl
  | cons g rest ih =>
      by_cases hg : g = 0
      · simp only [Ipv6.leadingZeros, hg, List.takeWhile_cons, beq_self_eq_true, if_true,
          List.length_cons, List.replicate_succ, List.cons_append, List.drop_succ_cons]
        exact congrArg _ ih
      · simp [Ipv6.leadingZeros, hg]

theorem le_leadingZeros {groups back : List UInt16} {zeros : Nat}
    (h : groups = List.replicate zeros 0 ++ back) : zeros ≤ Ipv6.leadingZeros groups := by
  rw [h, Ipv6.leadingZeros, List.takeWhile_append_of_pos (by simp)]
  simp

theorem cut_cons {g : UInt16} {rest front back : List UInt16} {zeros : Nat}
    (h : g :: rest = front ++ List.replicate zeros 0 ++ back) :
    (front = [] ∧ g :: rest = List.replicate zeros 0 ++ back) ∨
      exists front', front = g :: front' ∧ rest = front' ++ List.replicate zeros 0 ++ back := by
  cases front with
  | nil => exact Or.inl ⟨rfl, h⟩
  | cons first front' =>
      cases h
      exact Or.inr ⟨front', rfl, rfl⟩

theorem longestRun_spec (start : Nat) (groups : List UInt16) : exists front back,
    LongestRun groups front back (Ipv6.longestRun start groups).length ∧
      (Ipv6.longestRun start groups).start = start + front.length := by
  induction groups generalizing start with
  | nil =>
      refine ⟨[], [], ⟨rfl, ?_, fun _ => Nat.zero_le _⟩, rfl⟩
      intro front' back' zeros' h
      have hlength := congrArg List.length h
      simp only [List.length_append, List.length_replicate, List.length_nil] at hlength
      simp only [Ipv6.longestRun]
      omega
  | cons g rest ih =>
      rcases ih (start + 1) with ⟨front, back, hlater, hstart⟩
      simp only [Ipv6.longestRun]
      split
      · rename_i hle
        refine ⟨[], _, ⟨eq_replicate_leadingZeros (g :: rest), ?_, fun _ => Nat.zero_le _⟩, rfl⟩
        intro front' back' zeros' h
        rcases cut_cons h with ⟨_, hhere⟩ | ⟨_, _, hrest⟩
        · exact le_leadingZeros hhere
        · exact Nat.le_trans (hlater.longest hrest) hle
      · rename_i hlt
        refine ⟨g :: front, back, ⟨congrArg (g :: ·) hlater.cut, ?_, ?_⟩, ?_⟩
        · intro front' back' zeros' h
          rcases cut_cons h with ⟨_, hhere⟩ | ⟨_, _, hrest⟩
          · exact Nat.le_trans (le_leadingZeros hhere) (Nat.le_of_not_le hlt)
          · exact hlater.longest hrest
        · intro front' back' h
          rcases cut_cons h with ⟨_, hhere⟩ | ⟨_, rfl, hrest⟩
          · exact absurd (le_leadingZeros hhere) hlt
          · exact Nat.succ_le_succ (hlater.first hrest)
        · rw [hstart, List.length_cons]
          omega

/-!
## Addresses that stand for others
-/

def StandsFor (ip : Ipv6) (v4 : Ipv4) : Prop :=
  ip.groups = [0, 0, 0, 0, 0, 0xFFFF] ++ v4.toGroups

theorem toGroups_ofGroups (high low : UInt16) :
    (Ipv4.ofGroups high low).toGroups = [high, low] := by
  have hgroup (g : UInt16) : (g / 256).toUInt8.toUInt16 * 256 + (g % 256).toUInt8.toUInt16 = g := by
    apply UInt16.toNat_inj.mp
    have hlt := g.toNat_lt
    simp only [UInt16.toUInt16_toUInt8, UInt16.toNat_add, UInt16.toNat_mul, UInt16.toNat_mod,
      UInt16.toNat_div, UInt16.reduceToNat, Nat.reducePow, Nat.dvd_refl, Nat.mod_mod_of_dvd,
      Nat.mod_add_mod]
    omega
  simp only [Ipv4.toGroups, Ipv4.ofGroups, hgroup]

theorem ofGroups_toGroups {v4 : Ipv4} {high low : UInt16} (h : v4.toGroups = [high, low]) :
    Ipv4.ofGroups high low = v4 := by
  have hhigh (a b : UInt8) : ((a.toUInt16 * 256 + b.toUInt16) / 256).toUInt8 = a := by
    apply UInt8.toNat_inj.mp
    have ha := a.toNat_lt
    have hb := b.toNat_lt
    simp only [UInt16.toNat_toUInt8, UInt16.toNat_div, UInt16.toNat_add, UInt16.toNat_mul,
      UInt8.toNat_toUInt16, UInt16.reduceToNat, Nat.reducePow, Nat.mod_add_mod]
    omega
  have hlow (a b : UInt8) : ((a.toUInt16 * 256 + b.toUInt16) % 256).toUInt8 = b := by
    apply UInt8.toNat_inj.mp
    simp
  cases h
  simp only [Ipv4.ofGroups, hhigh, hlow]

theorem mapped?_eq_some_iff {ip : Ipv6} {v4 : Ipv4} :
    ip.mapped? = some v4 <-> StandsFor ip v4 := by
  unfold Ipv6.mapped? StandsFor
  constructor
  · intro h
    split at h
    · rename_i high low hgroups
      cases h
      rw [hgroups, toGroups_ofGroups]
      rfl
    · cases h
  · intro h
    have hgroups : ip.groups = [0, 0, 0, 0, 0, 0xFFFF, v4.a.toUInt16 * 256 + v4.b.toUInt16,
        v4.c.toUInt16 * 256 + v4.d.toUInt16] := h
    rw [hgroups]
    exact congrArg some (ofGroups_toGroups rfl)

theorem ipv4Text_iff {cs : List Char} {ip : Ipv4} : Ipv4Text cs ip <-> cs = ip.chars := by
  constructor
  · intro h
    cases h with
    | quad ha hb hc hd =>
        rw [shortNumber_iff.mp ha, shortNumber_iff.mp hb, shortNumber_iff.mp hc,
          shortNumber_iff.mp hd]
        rfl
  · rintro rfl
    exact .quad (shortNumber_iff.mpr rfl) (shortNumber_iff.mpr rfl) (shortNumber_iff.mpr rfl)
      (shortNumber_iff.mpr rfl)

/-!
## The text that is printed
-/

/-- The canonical text of an address. -/
inductive CanonicalText : List Char -> Ipv6 -> Prop where
  | dotted {cs : List Char} {ip : Ipv6} {v4 : Ipv4} :
      StandsFor ip v4 -> Ipv4Text cs v4 -> CanonicalText ("::ffff:".toList ++ cs) ip
  | compressed {front back : List Char} {first last : List UInt16} {zeros : Nat} {ip : Ipv6} :
      (forall v4, ¬ StandsFor ip v4) -> LongestRun ip.groups first last zeros -> 2 ≤ zeros ->
      ShortGroups front first -> ShortGroups back last ->
      CanonicalText (front ++ ':' :: ':' :: back) ip
  | full {cs : List Char} {first last : List UInt16} {zeros : Nat} {ip : Ipv6} :
      (forall v4, ¬ StandsFor ip v4) -> LongestRun ip.groups first last zeros -> zeros < 2 ->
      ShortGroups cs ip.groups -> CanonicalText cs ip

theorem chars_of_standsFor {ip : Ipv6} {v4 : Ipv4} (h : StandsFor ip v4) :
    ip.chars = "::ffff:".toList ++ v4.chars := by
  simp only [Ipv6.chars, mapped?_eq_some_iff.mpr h]

theorem mapped?_eq_none_iff {ip : Ipv6} : ip.mapped? = none <-> forall v4, ¬ StandsFor ip v4 := by
  simp only [← mapped?_eq_some_iff, Option.eq_none_iff_forall_ne_some, ne_eq]

theorem chars_of_longestRun {ip : Ipv6} {first last : List UInt16} {zeros : Nat}
    (hnone : forall v4, ¬ StandsFor ip v4) (hrun : LongestRun ip.groups first last zeros) :
    ip.chars =
      if 2 ≤ zeros then Ipv6.groupChars first ++ ':' :: ':' :: Ipv6.groupChars last
      else Ipv6.groupChars ip.groups := by
  rcases longestRun_spec 0 ip.groups with ⟨front, back, hspec, hstart⟩
  rcases hspec.unique hrun with ⟨rfl, rfl, hzeros⟩
  rw [Nat.zero_add] at hstart
  have htake : ip.groups.take front.length = front := by
    rw [hrun.cut, List.append_assoc, List.take_left]
  have hdrop : ip.groups.drop (front.length + zeros) = back := by
    have hlength : front.length + zeros = (front ++ List.replicate zeros (0 : UInt16)).length := by
      rw [List.length_append, List.length_replicate]
    rw [hlength, hrun.cut, List.drop_left]
  simp only [Ipv6.chars, mapped?_eq_none_iff.mpr hnone, hstart, hzeros, htake, hdrop]
  split
  · exact List.append_assoc _ _ _
  · rfl

theorem canonicalText_iff {cs : List Char} {ip : Ipv6} : CanonicalText cs ip <-> cs = ip.chars := by
  constructor
  · intro h
    cases h with
    | dotted hip hcs => rw [chars_of_standsFor hip, ipv4Text_iff.mp hcs]
    | compressed hnone hrun htwo hfront hback =>
        rw [chars_of_longestRun hnone hrun, if_pos htwo, shortGroups_iff.mp hfront,
          shortGroups_iff.mp hback]
    | full hnone hrun hone hcs =>
        rw [chars_of_longestRun hnone hrun, if_neg (Nat.not_le_of_lt hone), shortGroups_iff.mp hcs]
  · rintro rfl
    cases hmapped : ip.mapped? with
    | some v4 =>
        have hip := mapped?_eq_some_iff.mp hmapped
        rw [chars_of_standsFor hip]
        exact .dotted hip (ipv4Text_iff.mpr rfl)
    | none =>
        have hnone := mapped?_eq_none_iff.mp hmapped
        rcases longestRun_spec 0 ip.groups with ⟨first, last, hrun, _⟩
        rw [chars_of_longestRun hnone hrun]
        split
        · rename_i htwo
          exact .compressed hnone hrun htwo (shortGroups_iff.mpr rfl) (shortGroups_iff.mpr rfl)
        · rename_i hfew
          exact .full hnone hrun (Nat.lt_of_not_le hfew) (shortGroups_iff.mpr rfl)

example : (Ipv6.mk [1, 0, 0, 2, 0, 0, 3, 0xAB] rfl).chars = "1::2:0:0:3:ab".toList := by
  decide

theorem ShortGroups.not_mem_dot {cs : List Char} {groups : List UInt16}
    (h : ShortGroups cs groups) : '.' ∉ cs := by
  induction h with
  | none => simp
  | group hgroup => exact hgroup.number.not_mem (Nat.le_refl 16) (by decide)
  | cons hgroup _ ih =>
      have hfront := hgroup.number.not_mem (Nat.le_refl 16) (c := '.') (by decide)
      simp [hfront, ih]

theorem standsFor_of_dot {cs : List Char} {ip : Ipv6} (h : CanonicalText cs ip) (hdot : '.' ∈ cs) :
    exists v4, StandsFor ip v4 := by
  cases h with
  | dotted hip => exact ⟨_, hip⟩
  | compressed _ _ _ hfront hback =>
      rcases List.mem_append.mp hdot with hmem | hmem
      · exact absurd hmem hfront.not_mem_dot
      · apply absurd _ hback.not_mem_dot
        simpa using hmem
  | full _ _ _ hcs => exact absurd hdot hcs.not_mem_dot

theorem dot_mem_chars_iff {ip : Ipv6} : '.' ∈ ip.chars <-> exists v4, StandsFor ip v4 := by
  constructor
  · exact standsFor_of_dot (canonicalText_iff.mpr rfl)
  · rintro ⟨v4, hip⟩
    rw [chars_of_standsFor hip]
    simp [Ipv4.chars]

end Address
end ConstantReply
