/-
This file proves that every address has one canonical text, and that the text spells it. The
canonical text is described without a writer: a mapped address has its last two groups with
dots, every other address leaves out the first longest run of zero groups if that has at least
two, and a group has small digits without zeros ahead. Of all runs of zeros one is longest and
first, so nothing is left to choose; and the groups around a run that is left out are two rows
around two colons, which stand for as many zero groups as are missing.
-/

import VmFleet.Proofs.Address.Groups

namespace VmFleet

open VmFleet.Text

namespace Ipv6

/-! ### Runs of zeros -/

/-- So many zero groups stand from there on. -/
def ZerosAt (groups : List UInt16) (start length : Nat) : Prop :=
  List.replicate length 0 <+: groups.drop start

/-- The run of zero groups is a longest one, and the first of these. -/
structure IsLongest (groups : List UInt16) (start length : Nat) : Prop where
  zeros : ZerosAt groups start length
  longest : ∀ start' length', ZerosAt groups start' length' → length' ≤ length
  first : ∀ start', ZerosAt groups start' length → start ≤ start'

theorem zerosAt_zero_iff {groups : List UInt16} {length : Nat} :
    ZerosAt groups 0 length ↔ length ≤ zerosAhead groups := by
  show List.replicate length 0 <+: groups ↔ _
  induction groups generalizing length with
  | nil => cases length <;> simp [zerosAhead, List.replicate_succ]
  | cons group groups inductionHypothesis =>
    cases length with
    | zero => simp
    | succ length =>
      rw [List.replicate_succ, List.cons_prefix_cons, inductionHypothesis, zerosAhead, zerosAhead,
        List.takeWhile_cons]
      by_cases zero : group = 0
      · simp [zero]
      · simp [zero, Ne.symm zero]

theorem isLongest_longestZeros (groups : List UInt16) :
    IsLongest groups (longestZeros groups).1 (longestZeros groups).2 := by
  induction groups with
  | nil =>
    refine ⟨List.nil_prefix, fun start' length' zeros => ?_, fun _ _ => Nat.zero_le _⟩
    have few := zeros.length_le
    rw [List.length_replicate, List.drop_nil] at few
    exact few
  | cons group groups inductionHypothesis =>
    unfold longestZeros
    rcases run : longestZeros groups with ⟨start, length⟩
    rw [run] at inductionHypothesis
    obtain ⟨zeros, longest, first⟩ := inductionHypothesis
    simp only at zeros longest first ⊢
    split
    · rename_i notLonger
      refine ⟨zerosAt_zero_iff.mpr (Nat.le_refl _), fun start' length' zeros' => ?_,
        fun _ _ => Nat.zero_le _⟩
      cases start' with
      | zero => exact zerosAt_zero_iff.mp zeros'
      | succ start' => exact (longest start' length' zeros').trans notLonger
    · rename_i longer
      refine ⟨zeros, fun start' length' zeros' => ?_, fun start' zeros' => ?_⟩
      · cases start' with
        | zero => exact (zerosAt_zero_iff.mp zeros').trans (Nat.le_of_not_le longer)
        | succ start' => exact longest start' length' zeros'
      · cases start' with
        | zero => exact absurd (zerosAt_zero_iff.mp zeros') longer
        | succ start' => exact Nat.succ_le_succ (first start' zeros')

theorem ZerosAt.mono {groups : List UInt16} {start length few : Nat}
    (zeros : ZerosAt groups start length) (fewer : few ≤ length) : ZerosAt groups start few := by
  refine List.IsPrefix.trans ⟨List.replicate (length - few) 0, ?_⟩ zeros
  rw [List.replicate_append_replicate, Nat.add_sub_cancel' fewer]

theorem IsLongest.unique {groups : List UInt16} {start start' length length' : Nat}
    (left : IsLongest groups start length) (right : IsLongest groups start' length') :
    start = start' ∧ length = length' := by
  obtain rfl : length = length' :=
    Nat.le_antisymm (right.longest _ _ left.zeros) (left.longest _ _ right.zeros)
  exact ⟨Nat.le_antisymm (left.first _ right.zeros) (right.first _ left.zeros), rfl⟩

/-- The groups are those before the run, the run, and those after it. -/
theorem ZerosAt.split {groups : List UInt16} {start length : Nat}
    (zeros : ZerosAt groups start length) :
    groups.take start ++ List.replicate length 0 ++ groups.drop (start + length) = groups := by
  obtain ⟨rest, same⟩ := zeros
  have after : groups.drop (start + length) = rest := by
    rw [← List.drop_drop, ← same, List.drop_left' (List.length_replicate)]
  rw [after, List.append_assoc, same, List.take_append_drop]

/-! ### Canonical texts -/

/-- Groups in small digits without zeros ahead, joined by colons. -/
def joined (groups : List UInt16) : List Char :=
  [':'].intercalate (groups.map fun group => Nat.toDigits 16 group.toNat)

theorem joined_singleton (group : UInt16) : joined [group] = Nat.toDigits 16 group.toNat := by
  simp [joined]

theorem joined_cons_cons (group next : UInt16) (groups : List UInt16) :
    joined (group :: next :: groups) =
      Nat.toDigits 16 group.toNat ++ ':' :: joined (next :: groups) := by
  unfold joined
  rw [List.map_cons, List.map_cons, List.intercalate_cons_cons, List.append_assoc]
  rfl

/-- The groups of a mapped address before those of the address that it maps. -/
def mappedPrefix : List UInt16 :=
  [0, 0, 0, 0, 0, 0xFFFF]

/-- The text is the one that the address is written with. -/
inductive Canonical (address : Ipv6) : List Char → Prop
  /-- A mapped address has a tail with dots. -/
  | mapped (inner : Ipv4) (maps : address.groups = mappedPrefix ++ groupsOf inner) :
    Canonical address ("::ffff:".toList ++ inner.render.toList)
  /-- An address without two zero groups in a row has all its groups. -/
  | whole (unmapped : ∀ inner, address.groups ≠ mappedPrefix ++ groupsOf inner)
    (single : ∀ start, ¬ZerosAt address.groups start 2) : Canonical address (joined address.groups)
  /-- Any other address has two colons for the first longest run of zero groups. -/
  | short (unmapped : ∀ inner, address.groups ≠ mappedPrefix ++ groupsOf inner)
    {front back : List UInt16} {length : Nat} (several : 2 ≤ length)
    (groups : address.groups = front ++ List.replicate length 0 ++ back)
    (longest : IsLongest address.groups front.length length) :
    Canonical address (joined front ++ ':' :: ':' :: joined back)

theorem toList_renderGroups (groups : List UInt16) :
    (renderGroups groups).toList = joined groups := by
  unfold renderGroups joined
  rw [String.toList_intercalate, List.map_map]
  have each : String.toList ∘ renderGroup = fun group => Nat.toDigits 16 group.toNat := by
    funext group
    exact String.toList_ofList
  rw [each]
  rfl

theorem joinOctets_div_mod (group : UInt16) :
    joinOctets (UInt8.ofNat (group.toNat / 256)) (UInt8.ofNat (group.toNat % 256)) = group := by
  have bound : group.toNat < 65536 := group.toNat_lt
  unfold joinOctets
  rw [UInt8.toNat_ofNat_of_lt' (show group.toNat / 256 < 256 by omega),
    UInt8.toNat_ofNat_of_lt' (show group.toNat % 256 < 256 by omega), Nat.div_add_mod,
    UInt16.ofNat_toNat]

theorem toNat_joinOctets (high low : UInt8) :
    (joinOctets high low).toNat = 256 * high.toNat + low.toNat := by
  have left : high.toNat < 256 := high.toNat_lt
  have right : low.toNat < 256 := low.toNat_lt
  exact UInt16.toNat_ofNat_of_lt' (show 256 * high.toNat + low.toNat < 65536 by omega)

/-- An address maps another one exactly if its groups say so. -/
theorem mapped?_eq_some_iff {address : Ipv6} {inner : Ipv4} :
    address.mapped? = some inner ↔ address.groups = mappedPrefix ++ groupsOf inner := by
  constructor
  · intro found
    unfold mapped? at found
    split at found
    · rename_i high low groups
      obtain rfl := Option.some.inj found
      rw [groups, groupsOf, joinOctets_div_mod, joinOctets_div_mod]
      rfl
    · cases found
  · intro groups
    unfold mapped?
    rw [groups, mappedPrefix, groupsOf]
    have high (left right : UInt8) : UInt8.ofNat ((joinOctets left right).toNat / 256) = left := by
      have small : right.toNat < 256 := right.toNat_lt
      rw [toNat_joinOctets, show (256 * left.toNat + right.toNat) / 256 = left.toNat by omega,
        UInt8.ofNat_toNat]
    have low (left right : UInt8) : UInt8.ofNat ((joinOctets left right).toNat % 256) = right := by
      have small : right.toNat < 256 := right.toNat_lt
      rw [toNat_joinOctets, show (256 * left.toNat + right.toNat) % 256 = right.toNat by omega,
        UInt8.ofNat_toNat]
    simp [high, low]

theorem mapped?_eq_none_iff {address : Ipv6} :
    address.mapped? = none ↔ ∀ inner, address.groups ≠ mappedPrefix ++ groupsOf inner := by
  rw [Option.eq_none_iff_forall_not_mem]
  exact forall_congr' fun inner => not_congr mapped?_eq_some_iff

/-- What an address is written with that maps no other. -/
theorem render_of_unmapped {address : Ipv6}
    (unmapped : ∀ inner, address.groups ≠ mappedPrefix ++ groupsOf inner) {start length : Nat}
    (run : longestZeros address.groups = (start, length)) :
    address.render.toList =
      if length > 1 then
        joined (address.groups.take start) ++ ':' :: ':' ::
          joined (address.groups.drop (start + length))
      else joined address.groups := by
  unfold render
  rw [mapped?_eq_none_iff.mpr unmapped, run]
  simp only
  split
  · rw [String.toList_append, String.toList_append, toList_renderGroups, toList_renderGroups,
      List.append_assoc]
    rfl
  · exact toList_renderGroups _

theorem render_of_mapped {address : Ipv6} {inner : Ipv4}
    (maps : address.groups = mappedPrefix ++ groupsOf inner) :
    address.render.toList = "::ffff:".toList ++ inner.render.toList := by
  unfold render
  rw [mapped?_eq_some_iff.mpr maps]
  exact String.toList_append

/-- The canonical text of an address is the one that it is written with. -/
theorem canonical_iff {address : Ipv6} {text : List Char} :
    address.Canonical text ↔ text = address.render.toList := by
  rcases run : longestZeros address.groups with ⟨start, length⟩
  have isLongest : IsLongest address.groups start length := by
    have found := isLongest_longestZeros address.groups
    rw [run] at found
    exact found
  constructor
  · intro canonical
    cases canonical with
    | mapped inner maps => exact (render_of_mapped maps).symm
    | whole unmapped single =>
      have few : ¬length > 1 := fun several => single start (isLongest.zeros.mono several)
      rw [render_of_unmapped unmapped run, if_neg few]
    | @short unmapped front back length' several groups isLongest' =>
      obtain ⟨rfl, rfl⟩ := isLongest.unique isLongest'
      rw [render_of_unmapped unmapped run, if_pos (show length > 1 from several), groups,
        List.drop_left' (by simp), List.append_assoc, List.take_left]
  · rintro rfl
    cases found : address.mapped? with
    | some inner =>
      have maps := mapped?_eq_some_iff.mp found
      rw [render_of_mapped maps]
      exact .mapped inner maps
    | none =>
      have unmapped := mapped?_eq_none_iff.mp found
      rw [render_of_unmapped unmapped run]
      split
      · rename_i several
        have bound : start ≤ address.groups.length := by
          have inside := isLongest.zeros.length_le
          rw [List.length_replicate, List.length_drop] at inside
          omega
        have taken : (address.groups.take start).length = start := List.length_take_of_le bound
        exact .short unmapped several isLongest.zeros.split.symm (taken.symm ▸ isLongest)
      · rename_i few
        exact .whole unmapped fun start' zeros => few (isLongest.longest start' 2 zeros)

/-! ### Canonical texts are read -/

theorem map_toLower_toDigits (value : Nat) :
    (Nat.toDigits 16 value).map Char.toLower = Nat.toDigits 16 value := by
  have small : ∀ digit : Fin 16, (hexDigit digit.val).toLower = hexDigit digit.val := by decide
  induction value using Nat.strongRecOn with
  | ind value inductionHypothesis =>
    rw [toDigits_hex, List.map_append, List.map_singleton,
      small ⟨value % 16, Nat.mod_lt _ (by decide)⟩]
    split
    · rfl
    · rename_i positive
      rw [inductionHypothesis _ (by omega)]

/-- The digits that a group is written with spell it. -/
theorem spellsGroup_toDigits (group : UInt16) :
    SpellsGroup group (Nat.toDigits 16 group.toNat) where
  short := (Nat.length_toDigits_le_iff (by decide) (by decide)).mpr group.toNat_lt
  same := ⟨0, map_toLower_toDigits _⟩

theorem spellsRow_opening_joined (leading : Bool) {groups : List UInt16} (nonempty : groups ≠ []) :
    SpellsRow leading groups false (opening leading ++ joined groups) := by
  induction groups generalizing leading with
  | nil => exact absurd rfl nonempty
  | cons group groups inductionHypothesis =>
    have first := spellsGroup_toDigits group
    cases groups with
    | nil =>
      have row := SpellsRow.group leading first (.nothing false)
      rwa [List.append_nil, ← joined_singleton] at row
    | cons next groups =>
      have row := SpellsRow.group leading first (inductionHypothesis false nofun)
      rw [List.append_assoc] at row
      rw [joined_cons_cons]
      exact row

/-- Groups that are joined are a row. -/
theorem spellsRow_joined (groups : List UInt16) : SpellsRow true groups false (joined groups) := by
  cases groups with
  | nil => exact .nothing true
  | cons group groups => exact spellsRow_opening_joined true (List.cons_ne_nil group groups)

theorem Canonical.spells {address : Ipv6} {text : List Char} (canonical : address.Canonical text) :
    address.Spells text := by
  cases canonical with
  | mapped inner maps =>
    have digits : Nat.toDigits 16 (0xFFFF : UInt16).toNat = ['f', 'f', 'f', 'f'] := by decide
    have mark := digits ▸ spellsGroup_toDigits 0xFFFF
    have opened : "::ffff:".toList = [':', ':', 'f', 'f', 'f', 'f', ':'] := by decide
    have last := SpellsRow.group true mark (.dotted false inner)
    rw [opened]
    -- the dotted text stays closed, since evaluating it does not end soon
    generalize inner.render.toList = text at last ⊢
    exact .short (.nothing true) last (show 0 + 3 < 8 by decide) maps
  | whole => exact .whole (spellsRow_joined address.groups)
  | @short _ front back length several groups =>
    have lengths := congrArg List.length groups
    rw [address.length_eq] at lengths
    simp only [List.length_append, List.length_replicate] at lengths
    refine .short (spellsRow_joined front) (spellsRow_joined back) (by omega) ?_
    rw [show 8 - front.length - back.length = length by omega]
    exact groups

end Ipv6

namespace Ip

/-- The text is the one that the address is written with: four numbers with dots between them,
or the canonical text of eight groups. -/
inductive Canonical : Ip → List Char → Prop
  | v4 (address : Ipv4) :
    Canonical (.v4 address)
      (['.'].intercalate ([address.first, address.second, address.third, address.fourth].map
        fun octet => Nat.toDigits 10 octet.toNat))
  | v6 {address : Ipv6} {text : List Char} (canonical : address.Canonical text) :
    Canonical (.v6 address) text

theorem canonical_iff {address : Ip} {text : List Char} :
    address.Canonical text ↔ text = address.render.toList := by
  cases address with
  | v4 address =>
    have same : (['.'].intercalate ([address.first, address.second, address.third,
        address.fourth].map fun octet => Nat.toDigits 10 octet.toNat)) =
          address.render.toList := by
      rw [Ipv4.toList_render]
      simp [List.intercalate_cons_cons, Ipv4.octetDigits]
    constructor
    · rintro ⟨⟩
      exact same
    · rintro written
      rw [written]
      show Canonical _ address.render.toList
      rw [← same]
      exact .v4 address
  | v6 address =>
    refine Iff.trans ⟨fun canonical => ?_, .v6⟩ Ipv6.canonical_iff
    cases canonical with
    | v6 inside => exact inside

/-- What an address is written with spells it. -/
theorem spells_render (address : Ip) : address.Spells address.render.toList := by
  cases address with
  | v4 address => exact .v4 address
  | v6 address => exact .v6 (Ipv6.canonical_iff.mpr rfl).spells

/-- A text spells one address. -/
theorem Spells.unique {left right : Ip} {text : List Char} (first : left.Spells text)
    (second : right.Spells text) : left = right :=
  Option.some.inj ((parse?_eq_some_iff.mpr first).symm.trans (parse?_eq_some_iff.mpr second))

/-- Two addresses are not written alike. -/
theorem render_injective {left right : Ip} (same : left.render = right.render) : left = right :=
  left.spells_render.unique (same ▸ right.spells_render)

end Ip

end VmFleet
