/-
This file reads shell scripts. A script is cut into words, operators and
redirections, and these are put together into commands. Only the part of the
language that runners use is read.
-/

import VmFleet.Shell.Word

namespace VmFleet.Shell

open VmFleet.Text

/-! ### Tokens -/

/-- Where output is sent. -/
inductive Target
  /-- To wherever another descriptor goes. -/
  | descriptor (number : Nat)
  | closed
  | file
deriving DecidableEq, Repr

/-- A token of a script. -/
inductive Token
  | word (word : Word)
  | operator (symbol : String)
  /-- Sends a descriptor elsewhere; the name of a file is the next word. -/
  | redirect (descriptor : Nat) (target : Target)
deriving DecidableEq, Repr

/-- What follows the sign of a redirection of output. -/
def readTarget (text : List Char) : Target × List Char :=
  match text with
  | '&' :: '-' :: rest => (.closed, rest)
  | '&' :: digit :: rest =>
    match digit? digit with
    | some number => (.descriptor number, rest)
    | none => (.file, text)
  | '>' :: rest => (.file, rest)
  | _ => (.file, text)

/-- A redirection at the start of a text. -/
def readRedirection? (text : List Char) : Option (Token × List Char) :=
  let sent (descriptor : Nat) (rest : List Char) : Token × List Char :=
    let (target, rest) := readTarget rest
    (.redirect descriptor target, rest)
  match text with
  | '>' :: rest => some (sent 1 rest)
  | '<' :: rest => some (.redirect 0 .file, rest)
  | digit :: '>' :: rest => (digit? digit).map (sent · rest)
  | _ => none

/-- An operator at the start of a text. -/
def readOperator? (text : List Char) : Option (Token × List Char) :=
  match text with
  | '&' :: '&' :: rest => some (.operator "&&", rest)
  | '|' :: '|' :: rest => some (.operator "||", rest)
  | '|' :: rest => some (.operator "|", rest)
  | ';' :: rest => some (.operator ";", rest)
  | '\n' :: rest => some (.operator ";", rest)
  | '&' :: rest => some (.operator "&", rest)
  | '(' :: rest => some (.operator "(", rest)
  | ')' :: rest => some (.operator ")", rest)
  | _ => none

/-- The tokens of a text. -/
def tokens : Nat → List Token → List Char → Option (List Token)
  | 0, done, _ => some done.reverse
  | _ + 1, done, [] => some done.reverse
  | steps + 1, done, character :: text =>
    if character = ' ' ∨ character = '\t' then tokens steps done text
    else if character = '#' then tokens steps done (text.dropWhile (· != '\n'))
    else
      match (readRedirection? (character :: text)).or (readOperator? (character :: text)) with
      | some (token, rest) => tokens steps (token :: done) rest
      | none =>
        match readPieces (text.length + 2) [] (character :: text) with
        | some (pieces, rest) =>
          if rest.length = text.length + 1 then none
          else tokens steps (.word ⟨pieces⟩ :: done) rest
        | none => none

/-! ### Commands -/

/-- A redirection of a command. -/
abbrev Redirection := Nat × Target

/-- A command. -/
inductive Command
  | simple (words : List Word) (redirections : List Redirection)
  | sequence (commands : List Command)
  /-- Runs on its own, so that it can end without ending the script. -/
  | apart (body : Command)
  /-- What the left one prints is what the right one reads. -/
  | joined (left right : Command)
  /-- The right one runs when the left one ended as expected. -/
  | also (left right : Command) (expected : Bool)
  | choice (test body otherwise : Command)
  | cycle (test body : Command) (expected : Bool)
  | each (name : String) (words : List Word) (body : Command)
deriving Repr

/-- The command that does nothing. -/
def Command.nothing : Command :=
  .sequence []

/-- The rest of the tokens after a reserved word. -/
def readReserved (expected : String) (tokens : List Token) : Option (List Token) :=
  match tokens with
  | .word word :: rest => if word.plain? = some expected then some rest else none
  | .operator symbol :: rest => if symbol = expected then some rest else none
  | _ => none

/-- The tokens without the ends of commands at their start. -/
def skipEnds (tokens : List Token) : List Token :=
  tokens.dropWhile (· == .operator ";")

/-- The words and redirections of a simple command. -/
def readSimple : List Word → List Redirection → List Token →
    List Word × List Redirection × List Token
  | words, redirections, .word word :: rest => readSimple (words ++ [word]) redirections rest
  | words, redirections, .redirect descriptor .file :: .word _ :: rest =>
    readSimple words (redirections ++ [(descriptor, .file)]) rest
  | words, redirections, .redirect descriptor target :: rest =>
    readSimple words (redirections ++ [(descriptor, target)]) rest
  | words, redirections, rest => (words, redirections, rest)

/-- The words that close a compound command. -/
def closers : List String :=
  ["then", "else", "elif", "fi", "do", "done", "\x7d", ")"]

/-- Whether tokens start with a word that closes a compound command. -/
def startsCloser (tokens : List Token) : Bool :=
  closers.any fun closer => (readReserved closer tokens).isSome

mutual

/-- Commands one after the other, up to a closing word. -/
def readSequence : Nat → List Token → Option (Command × List Token)
  | 0, _ => none
  | steps + 1, tokens =>
    let tokens := skipEnds tokens
    if tokens.isEmpty || startsCloser tokens then some (.nothing, tokens)
    else do
      let (first, rest) ← readChain steps tokens
      let (first, rest) := match rest with
        | .operator "&" :: rest => (Command.apart first, rest)
        | rest => (first, rest)
      let (others, rest) ← readSequence steps rest
      match others with
      | .sequence commands => some (.sequence (first :: commands), rest)
      | other => some (.sequence [first, other], rest)

/-- Commands of which each runs by the end of the one before. -/
def readChain : Nat → List Token → Option (Command × List Token)
  | 0, _ => none
  | steps + 1, tokens => do
    let (first, rest) ← readJoined steps tokens
    readLinks steps first rest

/-- Commands of which each reads what the one before prints. -/
def readJoined : Nat → List Token → Option (Command × List Token)
  | 0, _ => none
  | steps + 1, tokens => do
    let (first, rest) ← readCommand steps tokens
    match rest with
    | .operator "|" :: rest =>
      let (second, rest) ← readJoined steps (skipEnds rest)
      some (.joined first second, rest)
    | rest => some (first, rest)

/-- The links after the first command of a chain. -/
def readLinks : Nat → Command → List Token → Option (Command × List Token)
  | 0, _, _ => none
  | steps + 1, left, tokens =>
    match tokens with
    | .operator "&&" :: rest => do
      let (right, rest) ← readJoined steps (skipEnds rest)
      readLinks steps (.also left right true) rest
    | .operator "||" :: rest => do
      let (right, rest) ← readJoined steps (skipEnds rest)
      readLinks steps (.also left right false) rest
    | _ => some (left, tokens)

/-- One command. -/
def readCommand : Nat → List Token → Option (Command × List Token)
  | 0, _ => none
  | steps + 1, tokens =>
    if let some rest := readReserved "\x7b" tokens then do
      let (body, rest) ← readSequence steps rest
      some (body, ← readReserved "\x7d" rest)
    else if let some rest := readReserved "(" tokens then do
      let (body, rest) ← readSequence steps rest
      some (.apart body, ← readReserved ")" rest)
    else if let some rest := readReserved "if" tokens then readChoice steps rest
    else if let some rest := readReserved "while" tokens then readCycle steps true rest
    else if let some rest := readReserved "until" tokens then readCycle steps false rest
    else if let some rest := readReserved "for" tokens then do
      let (words, _, rest) := readSimple [] [] rest
      let name ← words.head?.bind (·.plain?)
      let rest ← readReserved "do" (skipEnds rest)
      let (body, rest) ← readSequence steps rest
      some (.each name (words.drop 2) body, ← readReserved "done" rest)
    else
      match readSimple [] [] tokens with
      | ([], [], _) => none
      | (words, redirections, rest) => some (.simple words redirections, rest)

/-- The rest of a conditional command. -/
def readChoice : Nat → List Token → Option (Command × List Token)
  | 0, _ => none
  | steps + 1, tokens => do
    let (test, rest) ← readSequence steps tokens
    let rest ← readReserved "then" rest
    let (body, rest) ← readSequence steps rest
    if let some rest := readReserved "elif" rest then
      let (otherwise, rest) ← readChoice steps rest
      some (.choice test body otherwise, rest)
    else if let some rest := readReserved "else" rest then
      let (otherwise, rest) ← readSequence steps rest
      some (.choice test body otherwise, ← readReserved "fi" rest)
    else some (.choice test body .nothing, ← readReserved "fi" rest)

/-- The rest of a loop. -/
def readCycle : Nat → Bool → List Token → Option (Command × List Token)
  | 0, _, _ => none
  | steps + 1, expected, tokens => do
    let (test, rest) ← readSequence steps tokens
    let rest ← readReserved "do" rest
    let (body, rest) ← readSequence steps rest
    some (.cycle test body expected, ← readReserved "done" rest)

end

/-- The command that a script is. -/
def parse? (script : String) : Option Command := do
  let text := script.toList
  let all ← tokens (text.length + 1) [] text
  let (command, rest) ← readSequence (4 * all.length + 4) all
  if rest.isEmpty then some command else none

end VmFleet.Shell
