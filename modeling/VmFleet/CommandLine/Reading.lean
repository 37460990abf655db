/-
This file reads command lines by the declared grammar. Words are taken one after
the other. An option that waits for its value takes the next word, unless that
word looks like an option and the option does not take words literally. A value
counts only once it is resolved: when the next option comes or when the words
are over. A verb is read to its end before the rest of the one above it is
resolved and checked, so the innermost mistake is the one that is reported.
-/

import VmFleet.CommandLine.Help
import VmFleet.Text.Decimal
import VmFleet.Text.Split

namespace VmFleet.CommandLine

open VmFleet.Text

/-- Why a command line is not carried out. -/
inductive UsageError
  /-- Help was asked for. -/
  | help (text : String)
  /-- Nothing was written where a verb has to follow. -/
  | nothingWritten
  | verbMissing
  | verbUnknown
  | argumentUnknown
  | valueUnwanted
  | valueMissing
  | valueRefused
  | conflict
  | requiredMissing
deriving DecidableEq, Repr

namespace UsageError

/-- The exit code of the program. -/
def exitCode : UsageError → Nat
  | help _ => 0
  | _ => 2

end UsageError

/-- What was given for a verb: names with their values, in order. -/
abbrev Given := List (String × List String)

/-- Whether a name was given. -/
def Given.has (given : Given) (name : String) : Bool :=
  given.any (·.1 == name)

/-- Every value of a name. -/
def Given.values (given : Given) (name : String) : List String :=
  (given.filter (·.1 == name)).flatMap (·.2)

/-- What the next word may belong to. -/
inductive Expected
  | anything
  /-- The value of an option. -/
  | value (rule : OptionRule)
  /-- One more of many positional arguments. -/
  | more
deriving DecidableEq, Repr

/-- How far a verb has been read. -/
structure Progress where
  given : Given
  /-- Values that are not resolved yet. -/
  pending : Option (String × List String)
  expected : Expected
  /-- The one positional argument was given. -/
  placed : Bool
  /-- Options are over. -/
  trailing : Bool

namespace Progress

/-- Nothing read yet. -/
def initial : Progress :=
  ⟨[], none, .anything, false, false⟩

/-- Whether the next word is taken literally. -/
def isLiteral (progress : Progress) : Bool :=
  match progress.expected with
  | .value rule => rule.literal
  | _ => false

end Progress

/-! ### Values -/

/-- Check a value. -/
def checkValue (form : Form) (value : String) : Except UsageError Unit :=
  match form with
  | .path => if value = "" then .error .valueMissing else .ok ()
  | .word64 => if (unsigned? word64 value.toList).isSome then .ok () else .error .valueRefused
  | .word32 =>
    if (unsignedOfSigned? word32 value.toList).isSome then .ok () else .error .valueRefused
  | _ => .ok ()

/-- Take the values of a name for good. -/
def record (verb : Verb) (progress : Progress) (name : String) (values : List String) :
    Except UsageError Progress := do
  match verb.optionNamed? name with
  | none => pure ()
  | some rule =>
    if rule.takesValue ∧ values.isEmpty then throw .valueMissing
    if !rule.repeats && progress.given.has name then throw .conflict
    values.forM (checkValue rule.form)
  pure { progress with given := progress.given ++ [(name, values)] }

/-- Take the values that are pending for good. -/
def resolve (verb : Verb) (progress : Progress) : Except UsageError Progress :=
  match progress.pending with
  | none => .ok progress
  | some (name, values) => record verb { progress with pending := none } name values

/-- Take an option with the values that are written with it. -/
def takeOption (path : List Verb) (verb : Verb) (progress : Progress) (rule : OptionRule)
    (values : List String) : Except UsageError Progress := do
  let progress ← resolve verb progress
  if rule.form = .help then throw (.help (Help.text path))
  let progress ← record verb progress rule.name values
  pure { progress with expected := .anything }

/-- Take an option that waits for its value. -/
def awaitValue (verb : Verb) (progress : Progress) (rule : OptionRule) :
    Except UsageError Progress := do
  let progress ← resolve verb progress
  pure { progress with pending := some (rule.name, []), expected := .value rule }

/-- Take an option with the value that may be attached to it. -/
def takeSetting (path : List Verb) (verb : Verb) (progress : Progress) (rule : OptionRule)
    (attached : Option String) : Except UsageError Progress :=
  match attached with
  | some value => takeOption path verb progress rule [value]
  | none => awaitValue verb progress rule

/-! ### Words -/

/-- A word that starts with two hyphens, without them. -/
def takeLong (path : List Verb) (verb : Verb) (progress : Progress) (word : List Char) :
    Except UsageError Progress :=
  let (name, attached) := cutAt '=' word
  match verb.optionNamed? (String.ofList name) with
  | none => .error .argumentUnknown
  | some rule =>
    if rule.takesValue then
      takeSetting path verb progress rule (attached.map String.ofList)
    else if attached.isSome then .error .valueUnwanted
    else takeOption path verb progress rule []

/-- A word that starts with one hyphen, without it: options without values, and
then perhaps one with a value, which takes the rest of the word. -/
def takeShort (path : List Verb) (verb : Verb) (progress : Progress) :
    List Char → Except UsageError Progress
  | [] => .ok progress
  | character :: word =>
    match verb.optionWithShort? character with
    | none => .error .argumentUnknown
    | some rule =>
      if rule.takesValue then
        let attached := match word with
          | [] => none
          | '=' :: value => some (String.ofList value)
          | value => some (String.ofList value)
        takeSetting path verb progress rule attached
      else
        match takeOption path verb progress rule [] with
        | .ok progress => takeShort path verb progress word
        | .error error => .error error

/-- Whether a word stands for a verb below. -/
def isVerb (verb : Verb) (word : String) : Bool :=
  (verb.belowNamed? word).isSome || (word == Help.word && !verb.below.isEmpty)

/-- The mistake that an unexpected word is. -/
def unexpected (verb : Verb) (progress : Progress) (word : String) : UsageError :=
  if progress.trailing && isVerb verb word then .argumentUnknown
  else if !verb.below.isEmpty then .verbUnknown
  else .argumentUnknown

/-- A positional argument. -/
def takeArgument (verb : Verb) (progress : Progress) (word : String) :
    Except UsageError Progress :=
  match verb.argument? with
  | none => .error (unexpected verb progress word)
  | some rule =>
    if rule.many then
      match progress.pending with
      | some (name, values) =>
        if name = rule.name then
          .ok { progress with pending := some (name, values ++ [word]), expected := .more }
        else do
          let progress ← resolve verb progress
          pure { progress with pending := some (rule.name, [word]), expected := .more }
      | none => .ok { progress with pending := some (rule.name, [word]), expected := .more }
    else if progress.placed then .error (unexpected verb progress word)
    else do
      let progress ← resolve verb progress
      pure { progress with
        pending := some (rule.name, [word]), expected := .anything, placed := true }

/-- A word that is no option: the value that is waited for, or an argument. -/
def takePlain (verb : Verb) (progress : Progress) (word : String) :
    Except UsageError Progress :=
  match progress.expected, progress.trailing with
  | .value rule, false =>
    let values := (progress.pending.map (·.2)).getD []
    .ok { progress with pending := some (rule.name, values ++ [word]), expected := .anything }
  | _, _ => takeArgument verb progress word

/-- A word that is no verb. -/
def takeWord (path : List Verb) (verb : Verb) (progress : Progress) (word : String) :
    Except UsageError Progress :=
  if progress.trailing || progress.isLiteral then takePlain verb progress word
  else
    match word.toList with
    | ['-', '-'] => .ok { progress with trailing := true }
    | '-' :: '-' :: name => takeLong path verb progress name
    | '-' :: first :: characters => takeShort path verb progress (first :: characters)
    | _ => takePlain verb progress word

/-- The answer to a request for help about words that name verbs. -/
def helpAbout (path : List Verb) (verb : Verb) : List String → UsageError
  | [] => .help (Help.text path)
  | word :: words =>
    match verb.belowNamed? word with
    | some next => helpAbout (path ++ [next]) next words
    | none =>
      if isVerb verb word then
        if words.isEmpty then .help (Help.ownText path) else .verbUnknown
      else .verbUnknown

/-- The verb that a word starts, where verbs are looked for. -/
def startsVerb (verb : Verb) (progress : Progress) (word : String) : Bool :=
  !progress.trailing && progress.expected == .anything && isVerb verb word

/-! ### The whole line -/

/-- Resolve what is pending and check what was given for a verb. -/
def finish (verb : Verb) (progress : Progress) (followed : Bool) : Except UsageError Given := do
  let given := (← resolve verb progress).given
  if !followed && !verb.below.isEmpty then
    throw (if given.isEmpty then .nothingWritten else .verbMissing)
  if verb.exclusions.any fun (left, right) => given.has left && given.has right then
    throw .conflict
  if verb.demands.any fun names => !names.any given.has then throw .requiredMissing
  pure given

/-- What was given for a verb and for each verb below it. -/
abbrev Line := List (Verb × Given)

/-- Read the words of a verb. -/
def readVerb (path : List Verb) (verb : Verb) (progress : Progress) :
    List String → Except UsageError Line
  | [] => do
    let given ← finish verb progress false
    pure [(verb, given)]
  | word :: words =>
    if startsVerb verb progress word then
      match verb.belowNamed? word with
      | none => .error (helpAbout path verb words)
      | some next => do
        let line ← readVerb (path ++ [next]) next Progress.initial words
        let given ← finish verb progress true
        pure ((verb, given) :: line)
    else
      match takeWord path verb progress word with
      | .ok progress => readVerb path verb progress words
      | .error error => .error error

/-- Read the words after the name of the program. -/
def read (words : List String) : Except UsageError Line :=
  readVerb [.program] .program Progress.initial words

end VmFleet.CommandLine
