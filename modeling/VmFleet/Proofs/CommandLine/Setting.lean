/-
This file proves how a verb reads options that are written in one word with their values. Such a
word starts with two hyphens and is cut at its first equals sign, which stands right behind the
name of the option. So the value is taken as it is: nothing in it is looked at, whether it starts
with a hyphen, holds an equals sign of its own or is the name of a verb. What was given before
decides only whether an option is repeated that may not be.
-/

import VmFleet.CommandLine.Command
import VmFleet.Proofs.Text.Decimal
import Mathlib.Data.List.Basic

namespace VmFleet

namespace Text

/-- A text is cut at a separator that nothing before it holds. -/
theorem cutAt_append {separator : Char} {front : List Char} (rest : List Char)
    (free : separator ∉ front) :
    cutAt separator (front ++ separator :: rest) = (front, some rest) := by
  have kept : ∀ character ∈ front, (character != separator) = true := by
    intro character member
    exact bne_iff_ne.mpr fun same => free (same ▸ member)
  unfold cutAt
  rw [List.dropWhile_append_of_pos kept, List.takeWhile_append_of_pos kept]
  simp

end Text

namespace CommandLine

open VmFleet.Text

/-- An option with the value that one word gives it. -/
structure Setting where
  name : String
  value : String
deriving DecidableEq, Repr

namespace Setting

variable {setting : Setting} {verb : Verb} {rule : OptionRule}

/-- The word that gives the option its value. -/
def word (setting : Setting) : String :=
  "--" ++ setting.name ++ "=" ++ setting.value

/-- What the setting gives. -/
def entry (setting : Setting) : String × List String :=
  (setting.name, [setting.value])

/-- The progress of a verb after settings. -/
abbrev after (settings : List Setting) : Progress :=
  { Progress.initial with given := settings.map entry }

/-- The verb has the option, which takes a value, and this one passes its check. -/
structure Suits (setting : Setting) (verb : Verb) (rule : OptionRule) : Prop where
  known : verb.optionNamed? setting.name = some rule
  takesValue : rule.takesValue = true
  checked : checkValue rule.form setting.value = .ok ()

/-- No option is set twice that may not be repeated. -/
def Unrepeated (verb : Verb) (settings : List Setting) : Prop :=
  ∀ rule ∈ verb.options, rule.repeats = false → (settings.map Setting.name).count rule.name ≤ 1

/-! ### One word -/

theorem toList_word (setting : Setting) :
    setting.word.toList = '-' :: '-' :: (setting.name.toList ++ '=' :: setting.value.toList) := by
  simp [word]

/-- No verb is called like an option. -/
theorem head?_toList_word (verb : Verb) : verb.word.toList.head? ≠ some '-' := by
  cases verb <;> decide

theorem isVerb_word (verb : Verb) (setting : Setting) : isVerb verb setting.word = false := by
  have head : setting.word.toList.head? = some '-' := by
    rw [toList_word]
    rfl
  have noVerb : verb.belowNamed? setting.word = none := by
    refine List.find?_eq_none.mpr fun next _ same => head?_toList_word next ?_
    rw [beq_iff_eq.mp same, head]
  have noHelp : (setting.word == Help.word) = false := by
    refine beq_eq_false_iff_ne.mpr fun same => ?_
    rw [same] at head
    cases head
  rw [isVerb, noVerb, noHelp]
  rfl

theorem Suits.mem_options (suits : setting.Suits verb rule) : rule ∈ verb.options :=
  List.mem_of_find?_eq_some suits.known

theorem Suits.name_eq (suits : setting.Suits verb rule) : rule.name = setting.name := by
  have named := List.find?_some suits.known
  exact beq_iff_eq.mp named

/-- No option has an equals sign in its name, so the first one in the word ends the name. -/
theorem Suits.equals_notMem_name (suits : setting.Suits verb rule) : '=' ∉ setting.name.toList := by
  have each : ∀ rule ∈ verb.options, '=' ∉ rule.name.toList := by
    cases verb <;> decide
  exact suits.name_eq ▸ each rule suits.mem_options

/-- The word is read as the option with all that follows the equals sign. -/
theorem Suits.takeWord_word (suits : setting.Suits verb rule) (path : List Verb)
    (settings : List Setting) :
    takeWord path verb (after settings) setting.word =
      takeOption path verb (after settings) rule [setting.value] := by
  -- the word is never the one that ends the options, since an equals sign follows the hyphens
  obtain ⟨first, characters, written⟩ : ∃ first characters,
      setting.name.toList ++ '=' :: setting.value.toList = first :: characters :=
    List.exists_cons_of_ne_nil (by simp)
  have long : takeWord path verb (after settings) setting.word =
      takeLong path verb (after settings) (first :: characters) := by
    rw [takeWord, toList_word, written]
    rfl
  rw [long, ← written, takeLong, cutAt_append _ suits.equals_notMem_name]
  simp only [String.ofList_toList, suits.known, suits.takesValue, Option.map_some, takeSetting]
  rfl

/-- An option that is set for the first time, or may be repeated, is taken with its value. -/
theorem Suits.takeOption_eq (suits : setting.Suits verb rule) (path : List Verb)
    {settings : List Setting}
    (fresh : rule.repeats = false → Given.has (settings.map entry) setting.name = false) :
    takeOption path verb (after settings) rule [setting.value] =
      .ok (after (settings ++ [setting])) := by
  have noHelp : rule.form ≠ .help := by
    intro help
    have takesValue := suits.takesValue
    rw [OptionRule.takesValue, help] at takesValue
    cases takesValue
  have once : (!rule.repeats && Given.has (settings.map entry) setting.name) = false := by
    cases repeats : rule.repeats with
    | true => rfl
    | false => exact fresh repeats
  simp [takeOption, resolve, record, after, Progress.initial, noHelp, once, suits.name_eq,
    suits.known, suits.checked, entry, bind, Except.bind, pure, Except.pure]

/-! ### A row of words -/

theorem has_map_entry (settings : List Setting) (name : String) :
    Given.has (settings.map entry) name = true ↔ name ∈ settings.map Setting.name := by
  simp [Given.has, entry]

/-- A setting that follows others is the first of its option, unless the option may be repeated. -/
theorem Suits.has_eq_false (suits : setting.Suits verb rule) {settings others : List Setting}
    (unrepeated : Unrepeated verb (settings ++ setting :: others)) (once : rule.repeats = false) :
    Given.has (settings.map entry) setting.name = false := by
  have single := unrepeated rule suits.mem_options once
  rw [suits.name_eq, List.map_append, List.count_append, List.map_cons,
    List.count_cons_self] at single
  refine Bool.eq_false_iff.mpr fun has => ?_
  have before := List.count_pos_iff.mpr ((has_map_entry settings setting.name).mp has)
  omega

/-- Settings that suit the verb are read one by one, after others and before whatever follows. The
induction is on the settings that are still to be read: each moves to those that were. -/
theorem readVerb_words (path : List Verb) (settings : List Setting) {others : List Setting}
    (words : List String)
    (suits : ∀ setting ∈ others, ∃ rule, setting.Suits verb rule)
    (unrepeated : Unrepeated verb (settings ++ others)) :
    readVerb path verb (after settings) (others.map word ++ words) =
      readVerb path verb (after (settings ++ others)) words := by
  induction others generalizing settings with
  | nil => rw [List.append_nil, List.map_nil, List.nil_append]
  | cons setting others inductionHypothesis =>
    obtain ⟨⟨rule, first⟩, suits⟩ := List.forall_mem_cons.mp suits
    have step : takeWord path verb (after settings) setting.word =
        .ok (after (settings ++ [setting])) := by
      rw [first.takeWord_word]
      exact first.takeOption_eq path (first.has_eq_false unrepeated)
    have noVerb : startsVerb verb (after settings) setting.word = false := by
      rw [startsVerb, isVerb_word, Bool.and_false]
    have split : settings ++ setting :: others = settings ++ [setting] ++ others := by simp
    rw [split] at unrepeated ⊢
    rw [List.map_cons, List.cons_append, readVerb, noVerb, step]
    exact inductionHypothesis (settings ++ [setting]) suits unrepeated

end Setting

/-! ### What was given -/

namespace Given

/-- The settings that give each name its values. -/
def settings (given : Given) : List Setting :=
  given.flatMap fun row => row.2.map (Setting.mk row.1)

theorem values_cons (row : String × List String) (given : Given) (name : String) :
    Given.values (row :: given) name =
      (if row.1 = name then row.2 else []) ++ given.values name := by
  by_cases same : row.1 = name <;> simp [Given.values, same]

theorem values_append (given more : Given) (name : String) :
    Given.values (given ++ more) name = given.values name ++ more.values name := by
  simp [Given.values]

/-- The values that settings give are those of the name, in their order. -/
theorem values_map_entry (settings : List Setting) (name : String) :
    Given.values (settings.map Setting.entry) name =
      (settings.filter (·.name = name)).map (·.value) := by
  induction settings with
  | nil => rfl
  | cons setting settings inductionHypothesis =>
    rw [List.map_cons, Setting.entry, values_cons, inductionHypothesis]
    by_cases same : setting.name = name <;> simp [same]

theorem length_values_map_entry (settings : List Setting) (name : String) :
    (Given.values (settings.map Setting.entry) name).length =
      (settings.map Setting.name).count name := by
  rw [values_map_entry, List.length_map, List.count_eq_countP, List.countP_map,
    List.countP_eq_length_filter]
  rfl

/-- The settings of what is given give the same again. -/
theorem values_settings (given : Given) (name : String) :
    Given.values (given.settings.map Setting.entry) name = given.values name := by
  induction given with
  | nil => rfl
  | cons row given inductionHypothesis =>
    have own : Given.values ((row.2.map (Setting.mk row.1)).map Setting.entry) name =
        if row.1 = name then row.2 else [] := by
      rw [values_map_entry]
      by_cases same : row.1 = name <;> simp [same, List.filter_map, Function.comp_def]
    rw [settings, List.flatMap_cons, List.map_append, values_append, values_cons, own]
    exact congrArg _ inductionHypothesis

theorem value_mem_values {given : Given} {setting : Setting} (member : setting ∈ given.settings) :
    setting.value ∈ given.values setting.name := by
  rw [← values_settings, values_map_entry]
  exact List.mem_map.mpr ⟨setting, List.mem_filter.mpr ⟨member, by simp⟩, rfl⟩

theorem name_mem_of_mem_settings {given : Given} {setting : Setting}
    (member : setting ∈ given.settings) : setting.name ∈ given.map Prod.fst := by
  obtain ⟨row, among, inside⟩ := List.mem_flatMap.mp member
  obtain ⟨value, -, rfl⟩ := List.mem_map.mp inside
  exact List.mem_map_of_mem among

/-- Settings in another order give each name the same values in some order. -/
theorem values_perm {settings : List Setting} {given : Given} (perm : settings.Perm given.settings)
    (name : String) :
    (Given.values (settings.map Setting.entry) name).Perm (given.values name) := by
  rw [← values_settings given, values_map_entry, values_map_entry]
  exact (perm.filter _).map _

variable {given : Given} {verb : Verb} {name : String}

/-- An option has the one value that was given or its standard value. -/
theorem valueOr_eq {value : Option String} {standard : String}
    (values : given.values name = value.toList)
    (declared : (verb.optionNamed? name).bind (·.standard) = some standard) :
    given.valueOr verb name = value.getD standard := by
  rw [valueOr, values, declared]
  cases value <;> rfl

/-- An option has the one number that was given, written in decimal, or its standard number. -/
theorem numberOr_eq {α : Type} {toNat : α → Nat} {number : Option α} {standard : α}
    (values : given.values name = (number.map fun number => ofNat (toNat number)).toList)
    (declared : (verb.optionNamed? name).bind (·.standard) = some (ofNat (toNat standard)))
    (small : toNat (number.getD standard) < word64) :
    given.numberOr verb name = toNat (number.getD standard) := by
  rw [numberOr, valueOr_eq values declared, Option.getD_map, unsignedOfSigned?_ofNat small]
  rfl

end Given

end CommandLine

end VmFleet
