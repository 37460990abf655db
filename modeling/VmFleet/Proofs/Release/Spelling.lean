/-
This file proves that every version has one text. Cutting a text at its marks loses
nothing, a number without padding is written in one way, and identifiers are kept as
they were written; so a version that was read is written as it was read, and a file
name stands for a version only as the octets of that text.
-/

import VmFleet.Images.Store
import VmFleet.Proofs.Files.Path
import VmFleet.Proofs.Text.Decimal
import VmFleet.Proofs.Text.Decode

namespace VmFleet

namespace Text

/-! ### Cutting -/

theorem splitOn_ne_nil (separator : Char) (text : List Char) : splitOn separator text ≠ [] := by
  cases text with
  | nil => exact nofun
  | cons character text =>
    unfold splitOn
    split
    · exact nofun
    · split <;> exact nofun

/-- The parts between separators give the text back. -/
theorem flatten_intersperse_splitOn (separator : Char) (text : List Char) :
    ((splitOn separator text).intersperse [separator]).flatten = text := by
  induction text with
  | nil => rfl
  | cons character text inductionHypothesis =>
    unfold splitOn
    cases parts : splitOn separator text with
    | nil => exact absurd parts (splitOn_ne_nil separator text)
    | cons part parts' =>
      rw [parts] at inductionHypothesis
      rw [← inductionHypothesis]
      split
      · rename_i same
        rw [same]
        rfl
      · cases parts' <;> rfl

/-- What is in a text is a separator or in one of the parts. -/
theorem mem_splitOn (separator : Char) {character : Char} {text : List Char}
    (member : character ∈ text) :
    character = separator ∨ ∃ part ∈ splitOn separator text, character ∈ part := by
  induction text with
  | nil => cases member
  | cons first text inductionHypothesis =>
    unfold splitOn
    cases parts : splitOn separator text with
    | nil => exact absurd parts (splitOn_ne_nil separator text)
    | cons part others =>
      rw [parts] at inductionHypothesis
      split
      · rename_i same
        rcases List.mem_cons.mp member with rfl | later
        · exact .inl same
        · exact (inductionHypothesis later).imp_right fun ⟨other, among, inside⟩ =>
            ⟨other, .tail _ among, inside⟩
      · rcases List.mem_cons.mp member with rfl | later
        · exact .inr ⟨_, .head _, .head _⟩
        · refine (inductionHypothesis later).imp_right fun ⟨other, among, inside⟩ => ?_
          rcases List.mem_cons.mp among with rfl | among
          · exact ⟨_, .head _, .tail _ inside⟩
          · exact ⟨other, .tail _ among, inside⟩

/-- A text is what stands before the first separator and what follows it. -/
theorem eq_of_cutAt {separator : Char} {text front : List Char} {rest : Option (List Char)}
    (cut : cutAt separator text = (front, rest)) :
    text = front ++ rest.elim [] (separator :: ·) := by
  have whole := text.takeWhile_append_dropWhile (p := (· != separator))
  unfold cutAt at cut
  cases others : text.dropWhile (· != separator) with
  | nil =>
    rw [others] at cut
    obtain ⟨rfl, rfl⟩ := Prod.mk.inj cut
    exact (List.append_nil _).symm
  | cons character following =>
    rw [others] at cut whole
    obtain ⟨rfl, rfl⟩ := Prod.mk.inj cut
    have first : character = separator := by
      have stops := List.head?_dropWhile_not (· != separator) text
      rw [others] at stops
      simpa using stops
    rw [first] at whole
    exact whole.symm

end Text

namespace Version

open VmFleet.Text

/-! ### The characters of a version -/

/-- The characters that versions are written with. -/
def IsVersionCharacter (character : Char) : Prop :=
  isIdentifierCharacter character = true ∨ character = '.' ∨ character = '+'

theorem isVersionCharacter_of_isDigit {character : Char} (digit : isDigit character = true) :
    IsVersionCharacter character :=
  .inl (by simp [isIdentifierCharacter, digit])

/-- A version is written without slashes and zeros. -/
theorem IsVersionCharacter.isProper {character : Char} (written : IsVersionCharacter character) :
    character.toNat ≠ 0 ∧ character.toNat ≠ 47 := by
  have inRange : ∀ {low high : Char}, low ≤ character ∧ character ≤ high → 47 < low.toNat →
      character.toNat ≠ 0 ∧ character.toNat ≠ 47 := by
    intro low high inside above
    have left : low.toNat ≤ character.toNat := inside.1
    omega
  rcases written with identifier | rfl | rfl
  · unfold isIdentifierCharacter isDigit digit? at identifier
    simp only [Bool.or_eq_true, Bool.and_eq_true, decide_eq_true_eq, beq_iff_eq,
      Option.isSome_ite] at identifier
    rcases identifier with ((digit | small) | large) | rfl
    · exact inRange digit (by decide)
    · exact inRange small (by decide)
    · exact inRange large (by decide)
    · exact ⟨by decide, by decide⟩
  · exact ⟨by decide, by decide⟩
  · exact ⟨by decide, by decide⟩

theorem isVersionCharacter_point : IsVersionCharacter '.' :=
  .inr (.inl rfl)

theorem isVersionCharacter_hyphen : IsVersionCharacter '-' :=
  .inl (by decide)

theorem isVersionCharacter_plus : IsVersionCharacter '+' :=
  .inr (.inr rfl)

/-! ### The parts of a version -/

/-- One of the three numbers is written as it was read. -/
theorem number?_spells {text : List Char} {number : UInt64} (spelt : number? text = some number) :
    (ofNat number.toNat).toList = text ∧ ∀ character ∈ text, IsVersionCharacter character := by
  unfold number? at spelt
  split at spelt
  · cases spelt
  rename_i unpadded
  obtain ⟨value, read, fits⟩ := Option.bind_eq_some_iff.mp spelt
  split at fits
  · rename_i small
    obtain rfl := Option.some.inj fits
    unfold decimal? at read
    split at read
    · cases read
    rename_i nonempty
    have digits := isDigit_of_decimalFrom? read
    refine ⟨?_, fun character member =>
      isVersionCharacter_of_isDigit (List.all_eq_true.mp digits _ member)⟩
    have same : (UInt64.ofNat value).toNat = value := UInt64.toNat_ofNat_of_lt' small
    rw [same, toList_ofNat]
    refine toDigits_of_decimalFrom? (by simpa using nonempty) (fun long zero => unpadded ?_) read
    unfold isPadded isNumeric
    rw [digits, zero]
    simpa using long
  · cases fits

/-- Identifiers are written as they were read. -/
theorem identifiers?_spells {allowPadded : Bool} {text : List Char} {parts : List (List Char)}
    (mark : Char) (read : identifiers? allowPadded text = some parts) :
    renderIdentifiers mark parts = mark :: text ∧
      ∀ character ∈ text, IsVersionCharacter character := by
  unfold identifiers? at read
  dsimp only at read
  split at read
  · rename_i proper
    obtain rfl := Option.some.inj read
    have joined := flatten_intersperse_splitOn '.' text
    refine ⟨?_, fun character member => ?_⟩
    · unfold renderIdentifiers
      rw [if_neg (by simpa using splitOn_ne_nil '.' text), joined]
    · rcases mem_splitOn '.' member with rfl | ⟨part, among, inside⟩
      · exact isVersionCharacter_point
      · have allowed := List.all_eq_true.mp proper part among
        simp only [Bool.and_eq_true] at allowed
        exact .inl (List.all_eq_true.mp allowed.1.2 _ inside)
  · cases read

/-- Identifiers that may be left out. -/
def optional? (allowPadded : Bool) (text : Option (List Char)) : Option (List (List Char)) :=
  text.elim (some []) (identifiers? allowPadded)

theorem optional?_spells {allowPadded : Bool} {text : Option (List Char)}
    {parts : List (List Char)} {mark : Char} (markAllowed : IsVersionCharacter mark)
    (read : optional? allowPadded text = some parts) :
    renderIdentifiers mark parts = text.elim [] (mark :: ·) ∧
      ∀ character ∈ text.elim [] (mark :: ·), IsVersionCharacter character := by
  cases text with
  | none =>
    obtain rfl := Option.some.inj read
    exact ⟨rfl, nofun⟩
  | some rest =>
    obtain ⟨written, plain⟩ := identifiers?_spells mark read
    exact ⟨written, List.forall_mem_cons.mpr ⟨markAllowed, plain⟩⟩

/-- What is read when the text has been cut at its marks. -/
theorem parse?_eq (text : String) :
    parse? text =
      (optional? true (cutAt '+' text.toList).2).bind fun build =>
        (optional? false (cutAt '-' (cutAt '+' text.toList).1).2).bind fun prerelease =>
          match splitOn '.' (cutAt '-' (cutAt '+' text.toList).1).1 with
          | [major, minor, patch] =>
            (number? major).bind fun major => (number? minor).bind fun minor =>
              (number? patch).bind fun patch => some ⟨major, minor, patch, prerelease, build⟩
          | _ => none := by
  unfold parse?
  rcases whole : cutAt '+' text.toList with ⟨front, _ | build⟩ <;>
    rcases rest : cutAt '-' front with ⟨core, _ | prerelease⟩ <;>
    simp only [rest] <;> rfl

/-- A version is written as it was read. -/
theorem parse?_spells {text : String} {version : Version} (read : parse? text = some version) :
    version.render = text ∧ ∀ character ∈ text.toList, IsVersionCharacter character := by
  rw [parse?_eq] at read
  rcases whole : cutAt '+' text.toList with ⟨front, build⟩
  rcases rest : cutAt '-' front with ⟨core, prerelease⟩
  simp only [whole, rest] at read
  obtain ⟨builds, readBuild, read⟩ := Option.bind_eq_some_iff.mp read
  obtain ⟨prereleases, readPrerelease, read⟩ := Option.bind_eq_some_iff.mp read
  split at read
  · rename_i major minor patch parts
    obtain ⟨first, readMajor, read⟩ := Option.bind_eq_some_iff.mp read
    obtain ⟨second, readMinor, read⟩ := Option.bind_eq_some_iff.mp read
    obtain ⟨third, readPatch, read⟩ := Option.bind_eq_some_iff.mp read
    obtain rfl := Option.some.inj read
    obtain ⟨majorText, majorPlain⟩ := number?_spells readMajor
    obtain ⟨minorText, minorPlain⟩ := number?_spells readMinor
    obtain ⟨patchText, patchPlain⟩ := number?_spells readPatch
    obtain ⟨buildText, buildPlain⟩ := optional?_spells isVersionCharacter_plus readBuild
    obtain ⟨prereleaseText, prereleasePlain⟩ :=
      optional?_spells isVersionCharacter_hyphen readPrerelease
    have joined := flatten_intersperse_splitOn '.' core
    rw [parts] at joined
    have spelt : text.toList = major ++ '.' :: minor ++ '.' :: patch ++
        prerelease.elim [] ('-' :: ·) ++ build.elim [] ('+' :: ·) := by
      rw [eq_of_cutAt whole, eq_of_cutAt rest, ← joined]
      simp
    constructor
    · unfold render
      simp only [majorText, minorText, patchText, buildText, prereleaseText]
      rw [← spelt, String.ofList_toList]
    · rw [spelt]
      simp only [List.forall_mem_append, List.forall_mem_cons]
      have front := And.intro majorPlain (And.intro isVersionCharacter_point minorPlain)
      exact ⟨⟨⟨front, isVersionCharacter_point, patchPlain⟩, prereleasePlain⟩, buildPlain⟩
  · cases read

end Version

namespace ImageStore

open VmFleet.Text

/-- A file name that stands for a version is the text of that version. -/
theorem eq_octetsOf_of_versionOf? {name : FileName} {version : Version}
    (stands : versionOf? name = some version) :
    name = octetsOf version.render ∧ Version.parse? version.render = some version := by
  obtain ⟨text, decoded, read⟩ := Option.bind_eq_some_iff.mp stands
  obtain ⟨rendered, -⟩ := Version.parse?_spells read
  rw [rendered]
  exact ⟨(decode?_eq_some_iff.mp decoded).symm, read⟩

/-- The text of a version, as a file name, stands for that version. -/
theorem versionOf?_octetsOf {text : String} {version : Version}
    (read : Version.parse? text = some version) : versionOf? (octetsOf text) = some version := by
  unfold versionOf?
  rw [decode?_octetsOf]
  exact read

/-- A file name that stands for a version is a name of something in a directory, and it can
be handed to the system. -/
theorem isProper_of_versionOf? {name : FileName} {version : Version}
    (stands : versionOf? name = some version) : Path.IsProper name ∧ 0 ∉ name := by
  obtain ⟨spelt, read⟩ := eq_octetsOf_of_versionOf? stands
  obtain ⟨-, written⟩ := Version.parse?_spells read
  -- a small octet of the name is the number of a character of the text
  have octets : ∀ octet ∈ name, octet.toNat ≠ 0 ∧ octet.toNat ≠ 47 := by
    intro octet member
    rw [spelt] at member
    by_contra bad
    obtain ⟨character, among, same⟩ := exists_of_mem_octetsOf member (by omega)
    have proper := (written character among).isProper
    omega
  have nameless : ∀ {other : FileName}, versionOf? other = none → name ≠ other := by
    rintro _ none rfl
    rw [none] at stands
    cases stands
  exact ⟨⟨nameless (by decide), fun member => (octets _ member).2 rfl, nameless (by decide),
    nameless (by decide)⟩, fun member => (octets _ member).1 rfl⟩

end ImageStore

end VmFleet
