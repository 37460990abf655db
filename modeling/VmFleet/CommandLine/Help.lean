/-
This file writes the help texts. A text has the purpose of the verb, how it is
used, and then the verbs below it, its arguments and its options, each section in
two columns of which the first is as wide as its longest entry.
-/

import VmFleet.CommandLine.Grammar

namespace VmFleet.CommandLine

namespace Help

/-- The word that asks for help where a verb is expected. -/
def word : String := "help"

/-- What asking for help does. -/
def about : String := "Print this message or the help of the given subcommand(s)"

/-- A section with a title and rows of two columns; a section without rows is left
out. -/
def columns (title : String) (rows : List (String × String)) : List String :=
  if rows.isEmpty then []
  else
    let width := (rows.map (·.1.length)).foldl max 0
    let lines := rows.map fun (left, right) =>
      "  " ++ left ++ String.ofList (List.replicate (width - left.length) ' ') ++ "  " ++ right
    [String.intercalate "\n" ((title ++ ":") :: lines)]

/-- How a standard value is shown. -/
def standardText (value : String) : String :=
  "[default: " ++ (if value = "" then "\"\"" else value) ++ "]"

/-- The row of an option. -/
def optionRow (rule : OptionRule) : String × String :=
  let short := match rule.short with
    | some character => "-" ++ String.singleton character ++ ", "
    | none => "    "
  let label := if rule.takesValue then " <" ++ rule.label ++ ">" else ""
  let parts := [rule.about] ++ (rule.standard.map standardText).toList
  (short ++ "--" ++ rule.name ++ label, String.intercalate " " (parts.filter (· != "")))

/-- How a positional argument is written in a usage line. -/
def argumentUsage (rule : ArgumentRule) : String :=
  if rule.many then "[" ++ rule.label ++ "]..." else "<" ++ rule.label ++ ">"

/-- The usage line of the last verb of a row of verbs. -/
def usage (path : List Verb) (verb : Verb) : String :=
  String.intercalate " " <|
    ["Usage:"] ++ path.map (·.word) ++
    (if verb.ownOptions.isEmpty then [] else ["[OPTIONS]"]) ++
    (verb.argument?.map argumentUsage).toList ++
    (if verb.below.isEmpty then [] else ["<COMMAND>"])

/-- The rows of the verbs below a verb. -/
def verbRows (verb : Verb) : List (String × String) :=
  if verb.below.isEmpty then []
  else verb.below.map (fun next => (next.word, next.about)) ++ [(word, about)]

/-- The help text of the last verb of a row of verbs. -/
def text (path : List Verb) : String :=
  let verb := path.getLast?.getD .program
  let sections := [verb.about, usage path verb] ++ columns "Commands" (verbRows verb) ++
    columns "Arguments"
      ((verb.argument?.map fun rule => (argumentUsage rule, rule.about)).toList) ++
    columns "Options" (verb.options.map optionRow)
  String.intercalate "\n\n" sections ++ "\n"

/-- The help text of the word that asks for help below a row of verbs. -/
def ownText (path : List Verb) : String :=
  let usage := String.intercalate " " (["Usage:"] ++ path.map (·.word) ++ [word, "[COMMAND]..."])
  String.intercalate "\n\n"
    ([about, usage] ++ columns "Arguments" [("[COMMAND]...", "Print help for the subcommand(s)")])
    ++ "\n"

end Help

end VmFleet.CommandLine
