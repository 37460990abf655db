/-
This file proves what following the output of a runner comes to. An output is cut into
its lines in one way, and the lines are taken while they are text: each of them is
copied, and the first that reports an address gives it. So an output that is text is
copied as a whole and its report is found, while a line that is no text hides all that
comes after it. An output arrives in pieces: what was copied stays copied, and what was
reported stays reported.
-/

import Mathlib.Data.List.Basic
import VmFleet.Proofs.Text.Decode
import VmFleet.Runner.Output

namespace VmFleet.Runner

open VmFleet.Text

variable {line rest output : List UInt8}

/-! ### Lines -/

/-- Lines, each with a line feed at its end. -/
def terminated (lines : List (List UInt8)) : List UInt8 :=
  lines.flatMap (· ++ [lineFeed])

@[simp]
theorem terminated_nil : terminated [] = [] := rfl

@[simp]
theorem terminated_cons (line : List UInt8) (lines : List (List UInt8)) :
    terminated (line :: lines) = line ++ lineFeed :: terminated lines := by
  simp [terminated]

theorem terminated_append (lines more : List (List UInt8)) :
    terminated (lines ++ more) = terminated lines ++ terminated more :=
  List.flatMap_append

theorem eq_nil_of_terminated {lines : List (List UInt8)} (empty : terminated lines = []) :
    lines = [] := by
  cases lines with
  | nil => rfl
  | cons line lines => simp at empty

theorem lines_append_lineFeed (unbroken : lineFeed ∉ line) (rest : List UInt8) :
    lines (line ++ lineFeed :: rest) = line :: lines rest := by
  induction line with
  | nil => exact if_pos rfl
  | cons octet line inductionHypothesis =>
    obtain ⟨different, unbroken⟩ := List.ne_and_not_mem_of_not_mem_cons unbroken
    rw [List.cons_append, lines, if_neg different.symm, inductionHypothesis unbroken]

theorem lines_of_not_mem (unbroken : lineFeed ∉ line) (started : line ≠ []) :
    lines line = [line] := by
  induction line with
  | nil => exact absurd rfl started
  | cons octet line inductionHypothesis =>
    obtain ⟨different, unbroken⟩ := List.ne_and_not_mem_of_not_mem_cons unbroken
    rw [lines, if_neg different.symm]
    cases line with
    | nil => rfl
    | cons next line => rw [inductionHypothesis unbroken (List.cons_ne_nil _ _)]

theorem lines_ne_nil (started : output ≠ []) : lines output ≠ [] := by
  cases output with
  | nil => exact absurd rfl started
  | cons octet output =>
    unfold lines
    split
    · exact List.cons_ne_nil _ _
    · split <;> exact List.cons_ne_nil _ _

/-- Whether an output ends a line is seen from what follows a line feed. -/
theorem endsLine_append_lineFeed (line rest : List UInt8) :
    endsLine (line ++ lineFeed :: rest) = endsLine rest := by
  cases rest with
  | nil => simp [endsLine]
  | cons octet rest =>
    have last : (line ++ lineFeed :: octet :: rest).getLast? = (octet :: rest).getLast? := by
      rw [List.getLast?_append_of_ne_nil _ (List.cons_ne_nil _ _), List.getLast?_cons_cons]
    rw [endsLine, endsLine, last, List.isEmpty_cons, List.isEmpty_eq_false_iff.mpr (by simp)]

theorem readLines_append_lineFeed (unbroken : lineFeed ∉ line) (rest : List UInt8) :
    readLines (line ++ lineFeed :: rest) = withoutReturn line :: readLines rest := by
  unfold readLines
  rw [endsLine_append_lineFeed, lines_append_lineFeed unbroken]
  by_cases ends : endsLine rest = true
  · simp only [ends, if_true, List.map_cons]
  · have started : rest ≠ [] := by
      rintro rfl
      exact ends rfl
    obtain ⟨first, others, more⟩ := List.exists_cons_of_ne_nil (lines_ne_nil started)
    simp only [ends, Bool.false_eq_true, if_false, more, List.dropLast_cons_cons, List.map_cons,
      List.getLast?_cons_cons, List.cons_append]

/-- Broken lines are read first, each without the carriage return at its end. -/
theorem readLines_terminated_append {body : List (List UInt8)}
    (unbroken : ∀ line ∈ body, lineFeed ∉ line) (rest : List UInt8) :
    readLines (terminated body ++ rest) = body.map withoutReturn ++ readLines rest := by
  induction body with
  | nil => rfl
  | cons line body inductionHypothesis =>
    obtain ⟨first, others⟩ := List.forall_mem_cons.mp unbroken
    rw [terminated_cons, List.append_assoc, List.cons_append, readLines_append_lineFeed first,
      inductionHypothesis others, List.map_cons, List.cons_append]

theorem endsLine_terminated_append (body : List (List UInt8)) (rest : List UInt8) :
    endsLine (terminated body ++ rest) = endsLine rest := by
  induction body with
  | nil => rfl
  | cons line body inductionHypothesis =>
    rw [terminated_cons, List.append_assoc, List.cons_append, endsLine_append_lineFeed,
      inductionHypothesis]

theorem endsLine_eq_false (unbroken : lineFeed ∉ line) (started : line ≠ []) :
    endsLine line = false := by
  rw [endsLine, Bool.or_eq_false_iff, List.getLast?_eq_some_getLast started, beq_eq_false_iff_ne]
  refine ⟨List.isEmpty_eq_false_iff.mpr started, fun same => ?_⟩
  exact unbroken (Option.some.inj same ▸ List.getLast_mem started)

/-- A last line that is not broken is read as it is. -/
theorem readLines_of_not_mem (unbroken : lineFeed ∉ line) :
    readLines line = if line = [] then [] else [line] := by
  by_cases started : line = []
  · subst started
    rfl
  · simp [readLines, endsLine_eq_false unbroken started, lines_of_not_mem unbroken started, started]

/-- An output consists of broken lines and a last one. -/
theorem exists_terminated_append (output : List UInt8) :
    ∃ body last, output = terminated body ++ last ∧
      (∀ line ∈ body, lineFeed ∉ line) ∧ lineFeed ∉ last := by
  induction output with
  | nil => exact ⟨[], [], rfl, nofun, nofun⟩
  | cons octet output inductionHypothesis =>
    obtain ⟨body, last, rfl, unbroken, lastUnbroken⟩ := inductionHypothesis
    by_cases same : octet = lineFeed
    · subst same
      exact ⟨[] :: body, last, rfl, List.forall_mem_cons.mpr ⟨nofun, unbroken⟩, lastUnbroken⟩
    · cases body with
      | nil =>
        exact ⟨[], octet :: last, rfl, nofun, List.not_mem_cons_of_ne_of_not_mem (Ne.symm same)
          lastUnbroken⟩
      | cons line body =>
        obtain ⟨first, others⟩ := List.forall_mem_cons.mp unbroken
        refine ⟨(octet :: line) :: body, last, by simp, List.forall_mem_cons.mpr ⟨?_, others⟩,
          lastUnbroken⟩
        exact List.not_mem_cons_of_ne_of_not_mem (Ne.symm same) first

/-! ### Lines that are text -/

/-- Whether octets are those of a text. -/
def IsText (octets : List UInt8) : Prop :=
  ∃ text, octetsOf text = octets

/-- The texts that lines begin with, up to the first line that is no text. -/
structure LeadingTexts (lines : List (List UInt8)) (texts : List String) : Prop where
  leading : texts.map octetsOf <+: lines
  stopped : ∀ line, lines[texts.length]? = some line → ¬ IsText line

namespace Followed

variable {lines more : List (List UInt8)}

/-- Lines that are text are taken one after another. -/
theorem foldl_takeLine (followed : Followed) (texts : List String) :
    texts.foldl takeLine followed =
      ⟨followed.logged ++ terminated (texts.map octetsOf),
        followed.address.or (texts.findSome? Report.address?)⟩ := by
  induction texts generalizing followed with
  | nil => simp
  | cons text texts inductionHypothesis =>
    rw [List.foldl_cons, inductionHypothesis]
    simp only [takeLine, List.map_cons, terminated_cons, List.append_assoc, List.cons_append,
      List.nil_append, List.findSome?_cons, Option.or_assoc]
    cases Report.address? text <;> rfl

/-- The lines taken are the leading texts. -/
theorem exists_takeLines_eq (lines : List (List UInt8)) :
    ∃ texts, LeadingTexts lines texts ∧
      ∀ followed : Followed, followed.takeLines lines = texts.foldl takeLine followed := by
  induction lines with
  | nil => exact ⟨[], ⟨List.prefix_refl _, nofun⟩, fun _ => rfl⟩
  | cons line lines inductionHypothesis =>
    cases read : decode? line with
    | none =>
      refine ⟨[], ⟨List.prefix_append [] _, ?_⟩, fun followed => by rw [takeLines, read]; rfl⟩
      rintro _ ⟨⟩ ⟨text, rfl⟩
      rw [decode?_octetsOf] at read
      cases read
    | some text =>
      obtain ⟨texts, opens, taken⟩ := inductionHypothesis
      obtain rfl := decode?_eq_some_iff.mp read
      refine ⟨text :: texts, ⟨?_, fun line present => opens.stopped line present⟩,
        fun followed => ?_⟩
      · exact List.cons_prefix_cons.mpr ⟨rfl, opens.leading⟩
      · rw [takeLines, read, List.foldl_cons]
        exact taken _

/-- Taking more lines continues what was taken of the first ones, or they ended the taking. -/
theorem takeLines_append (followed : Followed) (lines more : List (List UInt8)) :
    followed.takeLines (lines ++ more) = (followed.takeLines lines).takeLines more ∨
      followed.takeLines (lines ++ more) = followed.takeLines lines := by
  induction lines generalizing followed with
  | nil => exact .inl rfl
  | cons line lines inductionHypothesis =>
    rw [List.cons_append, takeLines, takeLines]
    cases decode? line with
    | none => exact .inr rfl
    | some text => exact inductionHypothesis _

/-- What was taken stays, whatever is taken after it. -/
theorem takeLines_extends (followed : Followed) (lines : List (List UInt8)) :
    followed.logged <+: (followed.takeLines lines).logged ∧
      ∀ address, followed.address = some address →
        (followed.takeLines lines).address = some address := by
  obtain ⟨texts, -, taken⟩ := exists_takeLines_eq lines
  rw [taken, foldl_takeLine]
  refine ⟨List.prefix_append _ _, fun address reported => ?_⟩
  rw [reported, Option.some_or]

/-- What was taken of the first lines stays when there are more. -/
theorem takeLines_append_extends (followed : Followed) (lines more : List (List UInt8)) :
    (followed.takeLines lines).logged <+: (followed.takeLines (lines ++ more)).logged ∧
      ∀ address, (followed.takeLines lines).address = some address →
        (followed.takeLines (lines ++ more)).address = some address := by
  rcases followed.takeLines_append lines more with onward | ended
  · rw [onward]
    exact takeLines_extends _ _
  · rw [ended]
    exact ⟨List.prefix_refl _, fun _ reported => reported⟩

end Followed

/-- All lines are leading texts if and only if all are text. -/
theorem LeadingTexts.complete_iff {lines : List (List UInt8)} {texts : List String}
    (opens : LeadingTexts lines texts) :
    terminated (texts.map octetsOf) = terminated lines ↔ ∀ line ∈ lines, IsText line := by
  obtain ⟨others, split⟩ := opens.leading
  constructor
  · intro same
    rw [← split, terminated_append] at same
    have none := eq_nil_of_terminated (List.append_right_eq_self.mp same.symm)
    rw [none, List.append_nil] at split
    rw [← split]
    intro line member
    obtain ⟨text, -, rfl⟩ := List.mem_map.mp member
    exact ⟨text, rfl⟩
  · intro readable
    cases others with
    | nil => rw [← split, List.append_nil]
    | cons line others =>
      have next : lines[texts.length]? = some line := by
        rw [← split, List.getElem?_append_right (by simp), List.length_map, Nat.sub_self]
        rfl
      exact absurd (readable line (List.mem_of_getElem? next)) (opens.stopped line next)

/-! ### Output that is text -/

/-- The octets of characters. -/
theorem isText_iff {octets : List UInt8} :
    IsText octets ↔
      ∃ characters : List Char, characters.flatMap String.utf8EncodeChar = octets := by
  constructor
  · rintro ⟨text, rfl⟩
    exact ⟨text.toList, (octetsOf_eq text).symm⟩
  · rintro ⟨characters, rfl⟩
    exact ⟨String.ofList characters, by rw [octetsOf_eq, String.toList_ofList]⟩

/-- A small octet is a character by itself, so it cuts a text into texts. -/
theorem IsText.cut {before after : List UInt8} {octet : UInt8} (small : octet.toNat < 128)
    (readable : IsText (before ++ octet :: after)) : IsText before ∧ IsText after := by
  obtain ⟨characters, whole⟩ := isText_iff.mp readable
  clear readable
  induction characters generalizing before with
  | nil => simp at whole
  | cons character characters inductionHypothesis =>
    have onward : ∀ more, before = String.utf8EncodeChar character ++ more →
        characters.flatMap String.utf8EncodeChar = more ++ octet :: after →
        IsText before ∧ IsText after := by
      rintro more rfl rest
      obtain ⟨front, back⟩ := inductionHypothesis rest
      obtain ⟨others, rfl⟩ := isText_iff.mp front
      exact ⟨isText_iff.mpr ⟨character :: others, rfl⟩, back⟩
    rw [List.flatMap_cons] at whole
    rcases List.append_eq_append_iff.mp whole with ⟨more, split, rest⟩ | ⟨more, split, rest⟩
    · exact onward more split rest
    · cases more with
      | nil =>
        rw [List.append_nil] at split
        exact onward [] (by rw [split, List.append_nil]) rest.symm
      | cons first more =>
        obtain ⟨rfl, tail⟩ := List.cons.inj rest
        have inside : octet ∈ String.utf8EncodeChar character := by
          rw [split]
          exact List.mem_append_right _ List.mem_cons_self
        have number := toNat_of_mem_utf8EncodeChar inside small
        rw [← Char.ofNat_toNat character, number, utf8EncodeChar_one small] at split
        obtain ⟨rfl, rfl⟩ : before = [] ∧ more = [] := by
          cases before with
          | nil => exact ⟨rfl, (List.cons.inj split).2.symm⟩
          | cons other before => simp at split
        obtain rfl : after = characters.flatMap String.utf8EncodeChar := tail
        exact ⟨isText_iff.mpr ⟨[], rfl⟩, isText_iff.mpr ⟨characters, rfl⟩⟩

theorem IsText.withoutReturn (readable : IsText line) : IsText (withoutReturn line) := by
  unfold Runner.withoutReturn
  split
  · rename_i returned
    obtain ⟨front, rfl⟩ := List.getLast?_eq_some_iff.mp returned
    rw [List.dropLast_concat]
    exact (readable.cut (by decide)).1
  · exact readable

/-- The lines of a text are texts. -/
theorem isText_of_mem_readLines (readable : IsText output) :
    ∀ line ∈ readLines output, IsText line := by
  obtain ⟨body, last, rfl, unbroken, lastUnbroken⟩ := exists_terminated_append output
  rw [readLines_terminated_append unbroken, readLines_of_not_mem lastUnbroken]
  clear unbroken lastUnbroken
  induction body with
  | nil =>
    by_cases started : last = []
    · simp [started]
    · simpa [started] using readable
  | cons line body inductionHypothesis =>
    rw [terminated_cons, List.append_assoc, List.cons_append] at readable
    obtain ⟨first, others⟩ := readable.cut (by decide)
    exact List.forall_mem_cons.mpr ⟨first.withoutReturn, inductionHypothesis others⟩

/-! ### The whole output -/

/-- So far the broken lines of an output are followed. -/
theorem followSoFar_terminated_append {body : List (List UInt8)} {last : List UInt8}
    (unbroken : ∀ line ∈ body, lineFeed ∉ line) (lastUnbroken : lineFeed ∉ last) :
    followSoFar (terminated body ++ last) =
      Followed.nothing.takeLines (body.map withoutReturn) := by
  unfold followSoFar
  rw [endsLine_terminated_append, readLines_terminated_append unbroken,
    readLines_of_not_mem lastUnbroken]
  by_cases started : last = []
  · subst started
    simp [endsLine]
  · simp [endsLine_eq_false lastUnbroken started, started]

/-- What was copied and reported of an output stays when the output goes on. -/
theorem followSoFar_append (earlier later : List UInt8) :
    (followSoFar earlier).logged <+: (follow (earlier ++ later)).logged ∧
      ∀ address, (followSoFar earlier).address = some address →
        (follow (earlier ++ later)).address = some address := by
  obtain ⟨body, last, rfl, unbroken, lastUnbroken⟩ := exists_terminated_append earlier
  rw [followSoFar_terminated_append unbroken lastUnbroken, List.append_assoc, follow,
    readLines_terminated_append unbroken]
  exact Followed.takeLines_append_extends _ _ _

/-- Until an output is over, what was copied of it stays when it goes on. -/
theorem followSoFar_prefix (earlier later : List UInt8) :
    (followSoFar earlier).logged <+: (followSoFar (earlier ++ later)).logged := by
  obtain ⟨body, last, rfl, unbroken, lastUnbroken⟩ := exists_terminated_append earlier
  obtain ⟨more, rest, split, moreUnbroken, restUnbroken⟩ := exists_terminated_append (last ++ later)
  have all : ∀ line ∈ body ++ more, lineFeed ∉ line := fun line member =>
    (List.mem_append.mp member).elim (unbroken line) (moreUnbroken line)
  rw [followSoFar_terminated_append unbroken lastUnbroken, List.append_assoc, split,
    ← List.append_assoc, ← terminated_append, followSoFar_terminated_append all restUnbroken,
    List.map_append]
  exact (Followed.takeLines_append_extends _ _ _).1

/-- What following an output comes to: its lines are copied in their order, each with a line feed,
and the first report among them gives the address, up to the first line that is no text. The copy
is complete exactly if all lines are text, as they are where the output is. Until then what was
copied and what was reported stays. -/
theorem follow_copies_leading_texts (output : List UInt8) :
    (∃ body last, output = terminated body ++ last ∧ (∀ line ∈ body, lineFeed ∉ line) ∧
      lineFeed ∉ last ∧
      readLines output = body.map withoutReturn ++ if last = [] then [] else [last]) ∧
    (∃ texts, LeadingTexts (readLines output) texts ∧
      follow output =
        ⟨terminated (texts.map octetsOf), texts.findSome? Report.address?⟩) ∧
    ((follow output).logged = terminated (readLines output) ↔
      ∀ line ∈ readLines output, IsText line) ∧
    (IsText output → (follow output).logged = terminated (readLines output)) ∧
    ∀ earlier later, output = earlier ++ later →
      (followSoFar earlier).logged <+: (follow output).logged ∧
        ∀ address, (followSoFar earlier).address = some address →
          (follow output).address = some address := by
  obtain ⟨texts, opens, taken⟩ := Followed.exists_takeLines_eq (readLines output)
  have followed : follow output =
      ⟨terminated (texts.map octetsOf), texts.findSome? Report.address?⟩ := by
    rw [follow, taken, Followed.foldl_takeLine]
    rfl
  have complete : (follow output).logged = terminated (readLines output) ↔
      ∀ line ∈ readLines output, IsText line := by
    rw [followed]
    exact opens.complete_iff
  refine ⟨?_, ⟨texts, opens, followed⟩, complete,
    fun readable => complete.mpr (isText_of_mem_readLines readable), ?_⟩
  · obtain ⟨body, last, rfl, unbroken, lastUnbroken⟩ := exists_terminated_append output
    refine ⟨body, last, rfl, unbroken, lastUnbroken, ?_⟩
    rw [readLines_terminated_append unbroken, readLines_of_not_mem lastUnbroken]
  · rintro earlier later rfl
    exact followSoFar_append earlier later

example : follow (octetsOf "public-ip: ::1") = ⟨octetsOf "public-ip: ::1\n", some "::1"⟩ := by
  decide +kernel

/-- An output with a stray octet before the report. -/
def strayOctet : List UInt8 :=
  octetsOf "booting\n" ++ [0xFF, lineFeed] ++ octetsOf "public-ip: 10.0.0.9\n"

/-- A line that is no text is not copied, and it hides the report that comes after it. -/
theorem stray_octet_hides_report :
    readLines strayOctet =
        [octetsOf "booting", [0xFF], octetsOf "public-ip: 10.0.0.9"] ∧
      Report.address? "public-ip: 10.0.0.9" = some "10.0.0.9" ∧
      follow strayOctet = ⟨octetsOf "booting\n", none⟩ ∧
      (follow strayOctet).logged ≠ terminated (readLines strayOctet) := by
  decide +kernel

end VmFleet.Runner
