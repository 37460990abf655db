/-
This file proves how addresses are reported. A line reports an address if it is the marker
and a text that spells the address, with any blanks around the two; no such text has a blank,
so trimming finds it again. What is taken from the line is the canonical text of the address.
So every address can be reported with as many blanks as one likes, what was taken can be
reported again, and lines give the same text exactly if they report the same address.
-/

import VmFleet.Address.Report
import VmFleet.Proofs.Address.Canonical

namespace VmFleet

open VmFleet.Text

namespace Text

theorem isHexDigit_of_isDigit {character : Char} (digit : isDigit character = true) :
    isHexDigit character = true := by
  unfold isDigit digit? at digit
  unfold isHexDigit hexValue?
  split at digit
  · rename_i inside
    rw [if_pos inside]
    rfl
  · cases digit

theorem isBlank_of_isHexDigit {character : Char} (digit : isHexDigit character = true) :
    isBlank character = false := by
  by_cases small : character.toNat < 128
  · have all : ∀ code : Fin 128, isHexDigit (Char.ofNat code.val) = true →
        isBlank (Char.ofNat code.val) = false := by
      decide +kernel
    exact of_small (fun character =>
      isHexDigit character = true → isBlank character = false) all small digit
  · rw [isHexDigit, hexValue?_of_large (Nat.not_lt.mp small)] at digit
    cases digit

end Text

/-! ### No blanks within an address -/

theorem Ipv4.noBlank_render {address : Ipv4} :
    ∀ character ∈ address.render.toList, isBlank character = false := by
  have octet (octet : UInt8) : ∀ character ∈ octetDigits octet, isBlank character = false :=
    fun character member => isBlank_of_isHexDigit
      (isHexDigit_of_isDigit
        (List.all_eq_true.mp (readable_octetDigits octet).1 character member))
  have point : isBlank '.' = false := by decide
  intro character member
  rw [toList_render] at member
  simp only [List.mem_append, List.mem_cons] at member
  rcases member with one | rfl | two | rfl | three | rfl | four
  · exact octet _ _ one
  · exact point
  · exact octet _ _ two
  · exact point
  · exact octet _ _ three
  · exact point
  · exact octet _ _ four

namespace Ipv6

theorem noBlank_opening {leading : Bool} :
    ∀ character ∈ opening leading, isBlank character = false := by
  cases leading with
  | true => exact nofun
  | false => exact List.forall_mem_singleton.mpr (by decide)

theorem SpellsRow.noBlank {leading dotted : Bool} {groups : List UInt16} {text : List Char}
    (row : SpellsRow leading groups dotted text) :
    ∀ character ∈ text, isBlank character = false := by
  induction row with
  | nothing => exact nofun
  | dotted leading address =>
    intro character member
    exact (List.mem_append.mp member).elim (noBlank_opening character)
      (Ipv4.noBlank_render character)
  | group leading spells _ inductionHypothesis =>
    intro character member
    rcases List.mem_append.mp member with first | later
    · exact (List.mem_append.mp first).elim (noBlank_opening character)
        fun digit => isBlank_of_isHexDigit (spells.isHexDigit character digit)
    · exact inductionHypothesis character later

end Ipv6

namespace Ip

theorem Spells.noBlank {address : Ip} {text : List Char} (spells : address.Spells text) :
    ∀ character ∈ text, isBlank character = false := by
  cases spells with
  | v4 => exact Ipv4.noBlank_render
  | v6 spells =>
    cases spells with
    | whole row => exact row.noBlank
    | short first last =>
      intro character member
      have colon : isBlank ':' = false := by decide
      simp only [List.mem_append, List.mem_cons] at member
      rcases member with front | rfl | rfl | back
      · exact first.noBlank character front
      · exact colon
      · exact colon
      · exact last.noBlank character back

theorem Spells.ne_nil {address : Ip} {text : List Char} (spells : address.Spells text) :
    text ≠ [] := by
  rintro rfl
  cases parse?_eq_some_iff.mpr spells

end Ip

namespace Report

/-! ### Lines -/

/-- The line is the marker and a text that spells the address, with blanks around the two. -/
def Spells (line : String) (address : Ip) : Prop :=
  ∃ before between text after, IsPadding before ∧ IsPadding between ∧ IsPadding after ∧
    address.Spells text ∧ line.toList = before ++ marker.toList ++ between ++ text ++ after

/-- What is taken from a line is the text of the address that it reports. -/
theorem address?_eq_some_iff {line text : String} :
    address? line = some text ↔ ∃ address, Spells line address ∧ address.render = text := by
  constructor
  · intro found
    obtain ⟨rest, marked, found⟩ := Option.bind_eq_some_iff.mp found
    obtain ⟨address, read, rendered⟩ := Option.bind_eq_some_iff.mp found
    obtain ⟨before, after, left, right, whole⟩ := exists_append_trim line.toList
    obtain ⟨between, last, inner, outer, part⟩ := exists_append_trim rest
    refine ⟨address, ⟨before, between, trim rest, last ++ after, left, inner, outer.append right,
      Ip.parse?_eq_some_iff.mp read, ?_⟩, Option.some.inj rendered⟩
    rw [eq_append_of_afterOpening? marked, part] at whole
    rw [whole]
    simp only [List.append_assoc]
  · rintro ⟨address, ⟨before, between, text, after, left, inner, right, spells, whole⟩, rfl⟩
    have free := spells.noBlank
    have starts : EndsRun isBlank (marker.toList ++ (between ++ text)) :=
      endsRun_cons.mpr (by decide)
    have ends : EndsRun isBlank (marker.toList ++ (between ++ text)).reverse := by
      intro character first
      rw [List.reverse_append, List.reverse_append, List.append_assoc,
        List.head?_append_of_ne_nil _ (by simpa using spells.ne_nil)] at first
      exact (isTight_of_forall free).ends character first
    have trimmed : trim line.toList = marker.toList ++ (between ++ text) := by
      rw [whole, show before ++ marker.toList ++ between ++ text ++ after =
        before ++ (marker.toList ++ (between ++ text)) ++ after by simp only [List.append_assoc]]
      exact trim_append left right nofun ⟨starts, ends⟩
    have inside : trim (between ++ text) = text := by
      have same := trim_append inner (nofun : IsPadding []) spells.ne_nil (isTight_of_forall free)
      rwa [List.append_nil] at same
    unfold address?
    rw [trimmed, afterOpening?_append]
    simp only [Option.bind_eq_bind, Option.bind_some, inside, Ip.parse?_eq_some_iff.mpr spells]

theorem spells_render {before between after : List Char} (left : IsPadding before)
    (inner : IsPadding between) (right : IsPadding after) (address : Ip) :
    Spells (String.ofList
      (before ++ marker.toList ++ between ++ address.render.toList ++ after)) address :=
  ⟨before, between, _, after, left, inner, right, address.spells_render, String.toList_ofList⟩

/-- A line reports one address at most. -/
theorem Spells.unique {line : String} {left right : Ip} (first : Spells line left)
    (second : Spells line right) : left = right := by
  have one := address?_eq_some_iff.mpr ⟨left, first, rfl⟩
  have other := address?_eq_some_iff.mpr ⟨right, second, rfl⟩
  exact Ip.render_injective (Option.some.inj (one.symm.trans other))

/-- Two lines give the same exactly if they report the same. -/
theorem address?_eq_iff {first second : String} :
    address? first = address? second ↔ ∀ address, Spells first address ↔ Spells second address := by
  constructor
  · intro same address
    have onward {left right : String} (alike : address? left = address? right)
        (spells : Spells left address) : Spells right address := by
      have taken := address?_eq_some_iff.mpr ⟨address, spells, rfl⟩
      obtain ⟨other, reported, written⟩ := address?_eq_some_iff.mp (alike.symm.trans taken)
      exact Ip.render_injective written ▸ reported
    exact ⟨onward same, onward same.symm⟩
  · intro same
    refine Option.ext fun text => ?_
    simp only [address?_eq_some_iff, same]

/-! ### The result -/

/-- Addresses are read canonically. Every address of either family is read from the marker and
its canonical text, with any blanks around the line and after the marker. What is taken from a
line is never empty; it is the canonical text of an address that the line reports, and it is
read again as itself. And two lines give the same exactly if they report the same address. -/
theorem addresses_read_canonically :
    (∀ (address : Ip) (before between after : List Char),
      IsPadding before → IsPadding between → IsPadding after →
        address? (String.ofList
          (before ++ marker.toList ++ between ++ address.render.toList ++ after)) =
            some address.render) ∧
    (∀ line text, address? line = some text →
      text ≠ "" ∧ (∃ address, Spells line address ∧ address.Canonical text.toList) ∧
        address? (marker ++ text) = some text) ∧
    (∀ first second, address? first = address? second ↔
      ∀ address, Spells first address ↔ Spells second address) := by
  refine ⟨fun address before between after left inner right => ?_, fun line text taken => ?_,
    fun first second => address?_eq_iff⟩
  · exact address?_eq_some_iff.mpr ⟨address, spells_render left inner right address, rfl⟩
  · obtain ⟨address, reported, rfl⟩ := address?_eq_some_iff.mp taken
    refine ⟨fun empty => ?_, ⟨address, reported, Ip.canonical_iff.mpr rfl⟩,
      address?_eq_some_iff.mpr ⟨address, ?_, rfl⟩⟩
    · exact address.spells_render.ne_nil (by rw [empty]; rfl)
    · have again := @spells_render [] [] [] nofun nofun nofun address
      simpa using again

/-- The address of a host in the range for documents. -/
def documented : Ip :=
  .v6 ⟨[0x2001, 0xDB8, 0, 0, 1, 0, 0, 1], rfl⟩

theorem addresses_read_canonically_of_documented :
    address? "\u2003public-ip:\t2001:db8::1:0:0:1 \r" = some "2001:db8::1:0:0:1" ∧
      address? "public-ip:2001:DB8:0000::1:0:0.0.0.1" = some "2001:db8::1:0:0:1" ∧
      address? "public-ip:2001:db8::1:0:0:1" = some "2001:db8::1:0:0:1" ∧
      ∀ address, Spells "public-ip:2001:DB8:0000::1:0:0.0.0.1" address ↔
        Spells "public-ip:2001:db8::1:0:0:1" address := by
  have text : documented.render = "2001:db8::1:0:0:1" := by decide +kernel
  obtain ⟨spaced, again, alike⟩ := addresses_read_canonically
  have first := spaced documented ['\u2003'] ['\t'] [' ', '\r'] (by decide) (by decide) (by decide)
  have other : address? "public-ip:2001:DB8:0000::1:0:0.0.0.1" = some "2001:db8::1:0:0:1" := by
    decide +kernel
  have same := (again _ _ other).2.2
  rw [text] at first
  exact ⟨first, other, same, (alike _ _).mp (other.trans same.symm)⟩

end Report

end VmFleet
