/-
This file proves which texts spell an address of eight groups. The texts are described
without a reader: a group has one to four digits in either case, groups are joined by colons,
four octets may stand for the last two groups, and two colons may stand for the zero groups
that are missing. The reader takes a row of groups as far as it goes. A row that is followed
by nothing or by two colons goes exactly as far as it was written, since a colon must be
followed by a group to go on; and what a reader took was such a row. So a whole text is read
as the address that it spells, and as no other.
-/

import VmFleet.Proofs.Address.Octets
import VmFleet.Proofs.Identity.Spelling

namespace VmFleet

open VmFleet.Text

namespace Text

/-! ### Hexadecimal numbers -/

/-- Whether the character is a hexadecimal digit. -/
def isHexDigit (character : Char) : Bool :=
  (hexValue? character).isSome

/-- The number of a row of digits. -/
def hexNumber (digits : List Char) : Nat :=
  digits.foldl (fun total character => 16 * total + (hexValue? character).getD 0) 0

theorem hexNumber_concat (digits : List Char) (last : Char) :
    hexNumber (digits ++ [last]) = 16 * hexNumber digits + (hexValue? last).getD 0 := by
  unfold hexNumber
  rw [List.foldl_append]
  rfl

theorem digitChar_eq_hexDigit {value : Nat} (small : value < 16) :
    value.digitChar = hexDigit value := by
  have all : ∀ value : Fin 16, value.val.digitChar = hexDigit value.val := by decide
  exact all ⟨value, small⟩

/-- The digits of a number end with the digit of its remainder, after the digits of the
quotient if there is one. -/
theorem toDigits_hex (value : Nat) :
    Nat.toDigits 16 value =
      (if value / 16 = 0 then [] else Nat.toDigits 16 (value / 16)) ++ [hexDigit (value % 16)] := by
  rw [Nat.toDigits_eq_if (by decide)]
  split
  · rename_i small
    rw [if_pos (Nat.div_eq_of_lt small), Nat.mod_eq_of_lt small, digitChar_eq_hexDigit small]
    rfl
  · rename_i large
    rw [if_neg (by omega), digitChar_eq_hexDigit (Nat.mod_lt _ (by decide))]

/-- Digits are those of their number, made small and with zeros ahead. -/
theorem exists_map_toLower {digits : List Char}
    (all : ∀ character ∈ digits, isHexDigit character = true) (nonempty : digits ≠ []) :
    ∃ zeros, digits.map Char.toLower =
      List.replicate zeros '0' ++ Nat.toDigits 16 (hexNumber digits) := by
  induction digits using List.reverseRecOn with
  | nil => exact absurd rfl nonempty
  | append_singleton front last inductionHypothesis =>
    obtain ⟨value, digit⟩ := Option.isSome_iff_exists.mp (all last (by simp))
    obtain ⟨small, written⟩ := hexValue?_eq_some_iff.mp digit
    have number : hexNumber (front ++ [last]) = 16 * hexNumber front + value := by
      rw [hexNumber_concat, digit, Option.getD_some]
    have quotient : (16 * hexNumber front + value) / 16 = hexNumber front := by omega
    have remainder : (16 * hexNumber front + value) % 16 = value := by omega
    rw [number, toDigits_hex, quotient, remainder, List.map_append, List.map_singleton, written]
    by_cases empty : front = []
    · subst empty
      exact ⟨0, rfl⟩
    · obtain ⟨zeros, same⟩ := inductionHypothesis
        (fun character member => all character (List.mem_append_left _ member)) empty
      rw [same]
      split
      · -- a front part of zeros has one more digit than padding
        rename_i zero
        refine ⟨zeros + 1, ?_⟩
        rw [zero, List.replicate_succ', List.nil_append]
        rfl
      · exact ⟨zeros, (List.append_assoc _ _ _)⟩

/-- Digits that are those of a number, made small and with zeros ahead, have that number. -/
theorem hexNumber_of_map_toLower {digits : List Char} {zeros value : Nat}
    (same : digits.map Char.toLower = List.replicate zeros '0' ++ Nat.toDigits 16 value) :
    (∀ character ∈ digits, isHexDigit character = true) ∧ hexNumber digits = value := by
  induction digits using List.reverseRecOn generalizing zeros value with
  | nil =>
    have lengths := congrArg List.length same
    rw [toDigits_hex] at lengths
    simp at lengths
  | append_singleton front last inductionHypothesis =>
    rw [toDigits_hex, List.map_append, List.map_singleton, ← List.append_assoc] at same
    obtain ⟨before, written⟩ := List.append_inj' same rfl
    have digit : hexValue? last = some (value % 16) :=
      hexValue?_eq_some_iff.mpr ⟨Nat.mod_lt _ (by decide), (List.cons.inj written).1⟩
    have front' : (∀ character ∈ front, isHexDigit character = true) ∧
        hexNumber front = value / 16 := by
      split at before
      · -- what stands before the only digit is padding
        rename_i zero
        rw [zero]
        cases zeros with
        | zero =>
          rw [List.map_eq_nil_iff.mp before]
          exact ⟨nofun, rfl⟩
        | succ zeros =>
          rw [List.append_nil, List.replicate_succ'] at before
          exact inductionHypothesis before
      · exact inductionHypothesis before
    obtain ⟨all, number⟩ := front'
    refine ⟨fun character member => ?_, ?_⟩
    · rcases List.mem_append.mp member with early | late
      · exact all character early
      · rw [List.mem_singleton.mp late, isHexDigit, digit]
        rfl
    · rw [hexNumber_concat, number, digit, Option.getD_some]
      omega

end Text

namespace Ipv6

/-! ### One group -/

/-- The digits are those of the group in either case, with zeros ahead, and four at most. -/
structure SpellsGroup (group : UInt16) (digits : List Char) : Prop where
  short : digits.length ≤ 4
  same : ∃ zeros, digits.map Char.toLower =
    List.replicate zeros '0' ++ Nat.toDigits 16 group.toNat

theorem SpellsGroup.isHexDigit {group : UInt16} {digits : List Char}
    (spells : SpellsGroup group digits) :
    ∀ character ∈ digits, isHexDigit character = true := by
  obtain ⟨zeros, same⟩ := spells.same
  exact (hexNumber_of_map_toLower same).1

theorem SpellsGroup.ne_nil {group : UInt16} {digits : List Char}
    (spells : SpellsGroup group digits) : digits ≠ [] := by
  rintro rfl
  obtain ⟨zeros, same⟩ := spells.same
  rw [toDigits_hex] at same
  simp at same

theorem readGroup_eq (text : List Char) :
    readGroup text =
      if (text.takeWhile isHexDigit).length > 4 ∨ (text.takeWhile isHexDigit).isEmpty then none
      else some (UInt16.ofNat (hexNumber (text.takeWhile isHexDigit)),
        text.drop (text.takeWhile isHexDigit).length) := rfl

/-- A group is read where digits of it stand and no digit follows. -/
theorem readGroup_eq_some_iff {text rest : List Char} {group : UInt16} :
    readGroup text = some (group, rest) ↔
      ∃ digits, SpellsGroup group digits ∧ text = digits ++ rest ∧ EndsRun isHexDigit rest := by
  rw [readGroup_eq]
  constructor
  · intro read
    split at read
    · cases read
    rename_i proper
    obtain ⟨few, some⟩ := not_or.mp proper
    obtain ⟨rfl, after⟩ := Prod.mk.inj (Option.some.inj read)
    obtain ⟨whole, digits, ends⟩ := takeWhile_drop_iff.mp ⟨rfl, after⟩
    obtain ⟨zeros, same⟩ := exists_map_toLower digits (by simpa using some)
    have lengths := congrArg List.length same
    rw [List.length_map, List.length_append] at lengths
    have bound := (Nat.length_toDigits_le_iff (by decide) (by decide)).mp
      (show (Nat.toDigits 16 (hexNumber (text.takeWhile isHexDigit))).length ≤ 4 by omega)
    refine ⟨_, ⟨Nat.not_lt.mp few, zeros, ?_⟩, whole, ends⟩
    rw [UInt16.toNat_ofNat_of_lt' bound]
    exact same
  · rintro ⟨digits, spells, rfl, ends⟩
    obtain ⟨zeros, same⟩ := spells.same
    obtain ⟨taken, dropped⟩ := takeWhile_drop_iff.mpr ⟨rfl, spells.isHexDigit, ends⟩
    rw [taken, dropped, if_neg (by simp [spells.ne_nil, spells.short]),
      (hexNumber_of_map_toLower same).2, UInt16.ofNat_toNat]

/-! ### A row of groups -/

/-- What stands before a group: nothing before the first one, else a colon. -/
def opening (leading : Bool) : List Char :=
  if leading then [] else [':']

theorem readSeparator_eq_some_iff {leading : Bool} {text rest : List Char} :
    readSeparator leading text = some ((), rest) ↔ text = opening leading ++ rest := by
  cases leading with
  | false => exact readCharacter_eq_some_iff
  | true => simp [readSeparator, opening]

theorem readSeparator_opening (leading : Bool) (rest : List Char) :
    readSeparator leading (opening leading ++ rest) = some ((), rest) :=
  readSeparator_eq_some_iff.mpr rfl

/-- Four octets as two groups. -/
def groupsOf (address : Ipv4) : List UInt16 :=
  [joinOctets address.first address.second, joinOctets address.third address.fourth]

/-- A row of groups, and whether it ends with four octets. -/
inductive SpellsRow : Bool → List UInt16 → Bool → List Char → Prop
  | nothing (leading : Bool) : SpellsRow leading [] false []
  | dotted (leading : Bool) (address : Ipv4) :
    SpellsRow leading (groupsOf address) true (opening leading ++ address.render.toList)
  | group (leading : Bool) {group : UInt16} {digits : List Char} {groups : List UInt16}
    {dotted : Bool} {text : List Char} (spells : SpellsGroup group digits)
    (others : SpellsRow false groups dotted text) :
    SpellsRow leading (group :: groups) dotted (opening leading ++ digits ++ text)

/-- No further group follows: the text is over or goes on with two colons. -/
def IsClosed (text : List Char) : Prop :=
  text = [] ∨ ∃ more, text = ':' :: ':' :: more

/-- The text is over or goes on with a colon. -/
def IsMarked (text : List Char) : Prop :=
  text = [] ∨ ∃ more, text = ':' :: more

theorem IsClosed.isMarked {text : List Char} (closed : IsClosed text) : IsMarked text :=
  closed.imp_right fun ⟨more, same⟩ => ⟨':' :: more, same⟩

theorem IsMarked.endsRun {text : List Char} (marked : IsMarked text) {kind : Char → Bool}
    (other : kind ':' = false) : EndsRun kind text := by
  obtain rfl | ⟨more, rfl⟩ := marked
  · exact endsRun_nil kind
  · exact endsRun_cons.mpr other

theorem SpellsRow.isMarked {groups : List UInt16} {dotted : Bool} {text rest : List Char}
    (row : SpellsRow false groups dotted text) (closed : IsClosed rest) :
    IsMarked (text ++ rest) := by
  cases row with
  | nothing => exact closed.isMarked
  | dotted | group => exact .inr ⟨_, rfl⟩

/-- Four octets do not start with hexadecimal digits and a colon, or nothing. -/
theorem readOctets_of_isMarked (digits : List Char) {rest : List Char}
    (all : ∀ character ∈ digits, isHexDigit character = true) (marked : IsMarked rest) :
    Ipv4.read (digits ++ rest) = none := by
  rw [Option.eq_none_iff_forall_not_mem]
  rintro ⟨address, after⟩ read
  obtain ⟨same, -⟩ := Ipv4.read_eq_some_iff.mp read
  rw [Ipv4.toList_render, List.append_assoc, List.cons_append] at same
  rcases List.append_eq_append_iff.mp same with ⟨more, octet, next⟩ | ⟨more, group, next⟩
  · -- the first point comes after the row of digits, where a colon stands
    obtain rfl | ⟨others, rfl⟩ := marked
    · cases more <;> cases next
    · cases more with
      | nil => cases next
      | cons character more =>
        obtain rfl := (List.cons.inj next).1
        have digit := List.all_eq_true.mp (Ipv4.readable_octetDigits address.first).1 ':'
          (octet ▸ by simp)
        exact absurd digit (by decide)
  · -- the first point comes within the row of digits
    cases more with
    | nil =>
      obtain rfl | ⟨others, rfl⟩ := marked <;> cases next
    | cons character more =>
      obtain rfl := (List.cons.inj next).1
      exact absurd (all '.' (group ▸ by simp)) (by decide)

theorem readGroup_eq_none {text : List Char} (marked : IsMarked text) : readGroup text = none := by
  obtain rfl | ⟨more, rfl⟩ := marked <;> rfl

/-- Where nothing follows, no group is read. -/
theorem readGroups_of_isClosed (leading : Bool) (limit : Nat) {rest : List Char}
    (closed : IsClosed rest) : readGroups leading limit rest = ([], false, rest) := by
  have nothing {after : List Char} (separated : readSeparator leading rest = some ((), after)) :
      IsMarked after := by
    rw [readSeparator_eq_some_iff] at separated
    cases leading with
    | true =>
      obtain rfl : rest = after := separated
      exact closed.isMarked
    | false =>
      obtain rfl | ⟨more, rfl⟩ := closed
      · cases separated
      · exact .inr ⟨more, (List.cons.inj separated).2.symm⟩
  cases limit with
  | zero => rfl
  | succ limit =>
    unfold readGroups
    cases separated : readSeparator leading rest with
    | none => simp
    | some pair =>
      obtain ⟨⟨⟩, after⟩ := pair
      have marked := nothing separated
      have octets := readOctets_of_isMarked [] nofun marked
      rw [List.nil_append] at octets
      simp [octets, readGroup_eq_none marked]

/-- A row that ends where it is closed is read as far as it goes. -/
theorem SpellsRow.readGroups_eq {leading : Bool} {groups : List UInt16} {dotted : Bool}
    {text : List Char} (row : SpellsRow leading groups dotted text) (limit : Nat)
    (fits : groups.length ≤ limit) {rest : List Char} (closed : IsClosed rest) :
    readGroups leading limit (text ++ rest) = (groups, dotted, rest) := by
  induction row generalizing limit with
  | nothing leading => exact readGroups_of_isClosed leading limit closed
  | dotted leading address =>
    obtain ⟨limit, rfl⟩ := Nat.exists_eq_add_of_le' fits
    have octets : Ipv4.read (address.render.toList ++ rest) = some (address, rest) :=
      Ipv4.read_eq_some_iff.mpr ⟨rfl, closed.isMarked.endsRun (by decide)⟩
    rw [List.append_assoc]
    show readGroups leading (limit + 1 + 1) _ = _
    unfold readGroups
    simp [readSeparator_opening, octets, groupsOf]
  | @group leading group digits groups dotted text spells others inductionHypothesis =>
    obtain ⟨limit, rfl⟩ := Nat.exists_eq_add_of_le' (Nat.le_of_add_left_le fits)
    have marked := others.isMarked closed
    have octets := readOctets_of_isMarked digits spells.isHexDigit marked
    have first : readGroup (digits ++ (text ++ rest)) = some (group, text ++ rest) :=
      readGroup_eq_some_iff.mpr ⟨digits, spells, rfl, marked.endsRun (by decide)⟩
    have more := inductionHypothesis limit (Nat.le_of_succ_le_succ fits)
    rw [List.append_assoc, List.append_assoc]
    unfold readGroups
    simp [readSeparator_opening, octets, first, more]

/-- What is read as a row of groups is one. -/
theorem row_of_readGroups {leading : Bool} {limit : Nat} {text rest : List Char}
    {groups : List UInt16} {dotted : Bool}
    (read : readGroups leading limit text = (groups, dotted, rest)) :
    groups.length ≤ limit ∧
      ∃ row, SpellsRow leading groups dotted row ∧ text = row ++ rest := by
  induction limit generalizing leading text groups with
  | zero =>
    obtain ⟨rfl, rest⟩ := Prod.mk.inj read
    obtain ⟨rfl, rfl⟩ := Prod.mk.inj rest
    exact ⟨Nat.le_refl 0, [], .nothing leading, rfl⟩
  | succ limit inductionHypothesis =>
    unfold readGroups at read
    simp only at read
    split at read
    · rename_i address after octets
      split at octets
      · cases octets
      rename_i room
      obtain ⟨⟨⟨⟩, next⟩, separated, inside⟩ := Option.bind_eq_some_iff.mp octets
      obtain ⟨rfl, same⟩ := Prod.mk.inj read
      obtain ⟨rfl, rfl⟩ := Prod.mk.inj same
      obtain rfl := readSeparator_eq_some_iff.mp separated
      have spelt : next = address.render.toList ++ after := (Ipv4.read_eq_some_iff.mp inside).1
      rw [spelt]
      refine ⟨?_, _, .dotted leading address, (List.append_assoc _ _ _).symm⟩
      show 2 ≤ limit + 1
      omega
    · split at read
      · rename_i group after first
        obtain ⟨⟨⟨⟩, next⟩, separated, inside⟩ := Option.bind_eq_some_iff.mp first
        obtain rfl := readSeparator_eq_some_iff.mp separated
        obtain ⟨digits, spells, rfl, -⟩ := readGroup_eq_some_iff.mp inside
        rcases others : readGroups false limit after with ⟨groups', dotted', rest'⟩
        rw [others] at read
        obtain ⟨rfl, same⟩ := Prod.mk.inj read
        obtain ⟨rfl, rfl⟩ := Prod.mk.inj same
        obtain ⟨fits, row, spelt, rfl⟩ := inductionHypothesis others
        exact ⟨Nat.succ_le_succ fits, _, .group leading spells spelt, by simp⟩
      · obtain ⟨rfl, same⟩ := Prod.mk.inj read
        obtain ⟨rfl, rfl⟩ := Prod.mk.inj same
        exact ⟨Nat.zero_le _, [], .nothing leading, rfl⟩

/-! ### The whole address -/

/-- The text spells the address: eight groups in a row, or fewer in two rows around two
colons, which stand for zero groups. The first row does not end with four octets. -/
inductive Spells (address : Ipv6) : List Char → Prop
  | whole {dotted : Bool} {text : List Char} (row : SpellsRow true address.groups dotted text) :
    Spells address text
  | short {front back : List UInt16} {dotted : Bool} {before after : List Char}
    (first : SpellsRow true front false before) (last : SpellsRow true back dotted after)
    (few : front.length + back.length < 8)
    (groups : address.groups =
      front ++ List.replicate (8 - front.length - back.length) 0 ++ back) :
    Spells address (before ++ ':' :: ':' :: after)

theorem ofGroups?_eq_some_iff {groups : List UInt16} {address : Ipv6} :
    ofGroups? groups = some address ↔ address.groups = groups := by
  unfold ofGroups?
  constructor
  · intro same
    split at same
    · rw [← Option.some.inj same]
    · cases same
  · rintro rfl
    rw [dif_pos address.length_eq]

/-- The reader takes a whole text exactly if the text spells the address. -/
theorem read_eq_some_iff {text : List Char} {address : Ipv6} :
    read text = some (address, []) ↔ address.Spells text := by
  constructor
  · intro found
    unfold read at found
    rcases first : readGroups true 8 text with ⟨front, ended, next⟩
    obtain ⟨-, before, row, rfl⟩ := row_of_readGroups first
    simp only [first] at found
    split at found
    · obtain ⟨other, eight, same⟩ := Option.map_eq_some_iff.mp found
      obtain ⟨rfl, rfl⟩ := Prod.mk.inj same
      rw [← ofGroups?_eq_some_iff.mp eight] at row
      rw [List.append_nil]
      exact .whole row
    · split at found
      · cases found
      · rename_i undotted
        obtain rfl : ended = false := by simpa using undotted
        obtain ⟨⟨⟨⟩, next₁⟩, one, found₁⟩ := Option.bind_eq_some_iff.mp found
        obtain ⟨⟨⟨⟩, next₂⟩, two, found₂⟩ := Option.bind_eq_some_iff.mp found₁
        obtain rfl := readCharacter_eq_some_iff.mp two
        obtain rfl := readCharacter_eq_some_iff.mp one
        rcases second : readGroups true (7 - front.length) next₂ with ⟨back, dotted, rest⟩
        obtain ⟨fits, after, last, rfl⟩ := row_of_readGroups second
        simp only [second] at found₂
        obtain ⟨other, eight, same⟩ := Option.bind_eq_some_iff.mp found₂
        obtain ⟨rfl, rfl⟩ := Prod.mk.inj (Option.some.inj same)
        have groups := ofGroups?_eq_some_iff.mp eight
        have whole := congrArg List.length groups
        rw [other.length_eq] at whole
        simp only [List.length_append, List.length_replicate] at whole
        rw [List.append_nil]
        exact .short row last (by omega) groups
  · intro spells
    cases spells with
    | whole row =>
      have first := row.readGroups_eq 8 (by rw [address.length_eq]) (.inl rfl)
      rw [List.append_nil] at first
      unfold read
      simp only [first]
      rw [if_pos address.length_eq, ofGroups?_eq_some_iff.mpr rfl]
      rfl
    | @short front back dotted before after first last few groups =>
      have one := first.readGroups_eq 8 (by omega) (.inr ⟨after, rfl⟩)
      have two := last.readGroups_eq (7 - front.length) (by omega) (.inl rfl)
      rw [List.append_nil] at two
      unfold read
      simp only [one]
      have eight := ofGroups?_eq_some_iff.mpr groups
      rw [List.append_assoc] at eight
      rw [if_neg (by omega)]
      simp [readCharacter, two, eight]

/-- A text that spells an address of eight groups does not start with four octets. -/
theorem Spells.readOctets_eq_none {text : List Char} {address : Ipv6}
    (spells : address.Spells text) : Ipv4.read text = none := by
  have row {groups : List UInt16} {dotted : Bool} {text rest : List Char}
      (row : SpellsRow true groups dotted text) (other : dotted = true → groups.length ≠ 2)
      (closed : IsClosed rest) : Ipv4.read (text ++ rest) = none := by
    cases row with
    | nothing => exact readOctets_of_isMarked [] nofun closed.isMarked
    | dotted => exact absurd rfl (other rfl)
    | group _ first others =>
      rw [List.append_assoc]
      exact readOctets_of_isMarked _ first.isHexDigit (others.isMarked closed)
  cases spells with
  | @whole dotted text spelt =>
    have none := row spelt (fun _ => by rw [address.length_eq]; decide) (.inl rfl)
    rwa [List.append_nil] at none
  | short first last few groups => exact row first nofun (.inr ⟨_, rfl⟩)

end Ipv6

namespace Ip

/-- The text spells the address. Four octets have one text. -/
inductive Spells : Ip → List Char → Prop
  | v4 (address : Ipv4) : Spells (.v4 address) address.render.toList
  | v6 {address : Ipv6} {text : List Char} (spells : address.Spells text) :
    Spells (.v6 address) text

/-- Reading a whole text finds the address that it spells. -/
theorem parse?_eq_some_iff {text : List Char} {address : Ip} :
    parse? text = some address ↔ address.Spells text := by
  constructor
  · intro found
    unfold parse? at found
    split at found
    · rename_i whole
      obtain rfl := Option.some.inj found
      unfold read at whole
      split at whole
      · rename_i octets
        obtain ⟨rfl, rfl⟩ := Prod.mk.inj (Option.some.inj whole)
        rw [(Ipv4.read_eq_some_iff.mp octets).1, List.append_nil]
        exact .v4 _
      · obtain ⟨⟨groups, rest⟩, inside, same⟩ := Option.map_eq_some_iff.mp whole
        obtain ⟨rfl, rfl⟩ := Prod.mk.inj same
        exact .v6 (Ipv6.read_eq_some_iff.mp inside)
    · cases found
  · intro spells
    cases spells with
    | v4 address =>
      have octets : Ipv4.read address.render.toList = some (address, []) :=
        Ipv4.read_eq_some_iff.mpr ⟨(List.append_nil _).symm, endsRun_nil _⟩
      unfold parse? read
      simp only [octets]
    | v6 spells =>
      unfold parse? read
      simp only [spells.readOctets_eq_none, Ipv6.read_eq_some_iff.mpr spells, Option.map_some]

end Ip

end VmFleet
