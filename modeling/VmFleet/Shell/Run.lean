/-
This file runs scripts. Commands, traps and sourced texts call each other, so
the run counts its steps down; a script that does not end in time is killed.
What a command prints goes where its descriptors lead at that moment.
-/

import VmFleet.Shell.Command
import VmFleet.Shell.Formatted
import VmFleet.Shell.State

namespace VmFleet.Shell

open VmFleet.Text

/-! ### Words -/

/-- The text of a piece. -/
def Piece.value (state : State) : Piece → String
  | .text content => content
  | .parameter name => state.lookUp name
  | .arithmetic expression =>
    match compute? (fun name => wholeNumber (state.lookUp name)) expression with
    | some number => toString number
    | none => ""

/-- Whether a piece is split into fields once it is filled in. -/
def Piece.splits : Piece → Bool
  | .text _ => false
  | _ => true

/-- Whether a character separates fields. -/
def separates (character : Char) : Bool :=
  character == ' ' || character == '\t' || character == '\n'

/-- Fields under way: those that are complete, and the one that is being put
together. -/
structure Fields where
  complete : List String
  current : Option String

namespace Fields

/-- Add text to the field that is being put together. -/
def extend (fields : Fields) (text : String) : Fields :=
  { fields with current := some (fields.current.getD "" ++ text) }

/-- Close the field that is being put together. -/
def close (fields : Fields) : Fields where
  complete := fields.complete ++ fields.current.toList
  current := none

/-- Add text whose separators end fields. -/
def scatter (fields : Fields) (text : List Char) : Fields :=
  text.foldl (fun fields character =>
    if separates character then fields.close
    else fields.extend (String.singleton character)) fields

end Fields

/-- The fields that a word stands for. -/
def Word.fields (state : State) (word : Word) : List String :=
  (word.pieces.foldl (fun (fields : Fields) (piece, quoted) =>
    let value := piece.value state
    if piece.splits && !quoted then fields.scatter value.toList
    else fields.extend value) ⟨[], none⟩).close.complete

/-- The text that a word stands for when it is not split. -/
def Word.text (state : State) (word : Word) : String :=
  String.join (word.pieces.map fun (piece, _) => piece.value state)

/-- The name and the value of a word that sets a variable. -/
def Word.assignment? (state : State) (word : Word) : Option (String × String) :=
  let plain := word.pieces.takeWhile fun (piece, quoted) => !piece.splits && !quoted
  let start := (Word.text state ⟨plain⟩).toList
  let name := start.takeWhile isNameCharacter
  if name.isEmpty || name.head?.any isDigit then none
  else
    match start.drop name.length with
    | '=' :: _ => some (String.ofList name, String.ofList ((word.text state).toList.drop
        (name.length + 1)))
    | _ => none

/-- The variables that words set, and the fields of the words that come after these. -/
def fieldsOf (state : State) (words : List Word) : List (String × String) × List String :=
  let settings := (words.map (·.assignment? state)).takeWhile Option.isSome |>.filterMap id
  (settings, (words.drop settings.length).flatMap (·.fields state))

/-! ### Commands that need no other command -/

/-- Print octets. -/
def print (octets : List UInt8) : Run Unit :=
  modify fun state => state.write state.output octets

/-- Complain in a line. -/
def complain (words : String) : Run Unit :=
  modify fun state => state.write state.complaints (octetsOf (words ++ "\n"))

/-- Complain about a name. -/
def complainAbout (name words : String) : Run Unit :=
  complain ("/bin/sh: 1: " ++ name ++ ": " ++ words)

/-- The numbers of signals. -/
def signalNames : List (String × String) :=
  [("0", "EXIT"), ("1", "HUP"), ("2", "INT"), ("3", "QUIT"), ("6", "ABRT"), ("9", "KILL"),
    ("10", "USR1"), ("12", "USR2"), ("13", "PIPE"), ("14", "ALRM"), ("15", "TERM")]

/-- The one name of a signal that may be given by number or with a marked name. -/
def signalName (text : String) : String :=
  let bare := if text.startsWith "SIG" then (text.drop 3).toString else text
  (signalNames.lookup bare).getD bare

/-- The signals that nobody heeds unless a trap is set. -/
def harmlessSignals : List String :=
  ["EXIT", "CHLD", "CONT", "URG", "WINCH"]

/-- Whether the expression of a test holds. -/
def testHolds : List String → Bool
  | "!" :: rest => !testHolds rest
  | ["-z", text] => text.isEmpty
  | ["-n", text] => !text.isEmpty
  | [left, operator, right] =>
    let number := fun text => wholeNumber text
    match operator with
    | "=" => left == right
    | "!=" => left != right
    | "-eq" => number left == number right
    | "-ne" => number left != number right
    | "-lt" => number left < number right
    | "-le" => number left ≤ number right
    | "-gt" => number left > number right
    | "-ge" => number left ≥ number right
    | _ => false
  | [text] => !text.isEmpty
  | _ => false

/-- The milliseconds that a text in seconds stands for. -/
def milliseconds (text : String) : Nat :=
  let whole := text.toList.takeWhile isDigit
  let scale : Nat := 1000 * (decimal? whole).getD 0
  match text.toList.drop whole.length with
  | '.' :: rest =>
    let digits := (rest.takeWhile isDigit ++ ['0', '0', '0']).take 3
    scale + (decimal? digits).getD 0
  | _ => scale

/-- Set or clear traps. -/
def setTraps (arguments : List String) : Run Unit :=
  match arguments with
  | script :: signals =>
    modify fun state =>
      let names := signals.map signalName
      let others := state.traps.filter fun (name, _) => !names.contains name
      { state with
        traps := if script = "-" then others else names.map (·, script) ++ others }
  | [] => pure ()

/-- Print what is waiting to be read. -/
def copyWaiting : Run Unit := do
  print (← get).waiting
  modify fun state => { state with waiting := [] }

/-- Print what an argument names. The status stays unless there is no such thing. -/
def copyArgument (status : Nat) (argument : String) : Run Nat := do
  if argument = "-" then
    copyWaiting
    pure status
  else if argument = "/dev/null" then pure status
  else
    complain ("cat: " ++ argument ++ ": No such file or directory")
    pure 1

/-- Print what the arguments name, or else what is waiting to be read. -/
def copyInput (arguments : List String) : Run Nat :=
  (if arguments.isEmpty then ["-"] else arguments).foldlM copyArgument 0

/-- Read a line into a variable. -/
def readLine (arguments : List String) : Run Nat := do
  let waiting := (← get).waiting
  let line := waiting.takeWhile (· != Runner.lineFeed)
  let rest := waiting.drop line.length
  let name := (arguments.filter (!·.startsWith "-")).headD "REPLY"
  modify fun state => { state.assign name (decodeLossy line) with waiting := rest.drop 1 }
  pure (if rest.isEmpty then 1 else 0)

/-- The name and the value in an argument that sets a variable. -/
def setting? (argument : String) : Option (String × String) :=
  let text := argument.toList
  let name := text.takeWhile (· != '=')
  if name.length < text.length then
    some (String.ofList name, String.ofList (text.drop (name.length + 1)))
  else none

/-- Let milliseconds pass. A script that was asked to end is killed when its time is over. -/
def pass (duration : Nat) : Run Unit := do
  match (← get).later? duration with
  | some later => set later
  | none => throw .killed

/-- The programs that leave no trace in what a script prints. -/
def quietPrograms : List String :=
  [":", "true", "wait", "touch", "mkdir", "rm", "cd", "set", "unset", "umask", "ulimit", "shift",
    "sync", "local", "readonly"]

/-- The name of a program without the usual directories. -/
def bareName (name : String) : String :=
  if name.startsWith "/bin/" then (name.drop 5).toString
  else if name.startsWith "/usr/bin/" then (name.drop 9).toString
  else name

/-- Leave a script with the status that the arguments say. -/
def exit (arguments : List String) : Run Nat := do
  match arguments with
  | [] => throw (.exited (← get).status)
  | code :: _ =>
    match decimal? code.toList with
    | some number => throw (.exited (number % 256))
    | none =>
      complainAbout "exit" ("Illegal number: " ++ code)
      throw (.exited 2)

/-- Print the arguments in the format that comes first. -/
def printFormatted (arguments : List String) : Run Nat := do
  match (if arguments.head? = some "--" then arguments.drop 1 else arguments) with
  | format :: arguments =>
    print (formatted format arguments)
    pure 0
  | [] =>
    complainAbout "printf" "usage: printf format [arg ...]"
    pure 2

/-- The script that arguments give to a shell. -/
def givenScript? : List String → Option String
  | "-c" :: script :: _ => some script
  | _ => none

/-- The programs that run no other one. -/
def plainProgram? (name : String) (arguments : List String) : Option (Run Nat) :=
  if quietPrograms.contains name then some (pure 0)
  else
    match name with
    | "false" => some (pure 1)
    | "echo" => some (do print (echoed arguments); pure 0)
    | "printf" => some (printFormatted arguments)
    | "exit" => some (exit arguments)
    | "cat" => some (copyInput arguments)
    | "read" => some (readLine arguments)
    | "trap" => some (do setTraps arguments; pure 0)
    | "break" => some (throw .leave)
    | "continue" => some (throw .again)
    | "test" => some (pure (if testHolds arguments then 0 else 1))
    | "[" => some (pure (if testHolds arguments.dropLast then 0 else 1))
    | "export" => some (do modify (·.assignAll (arguments.filterMap setting?)); pure 0)
    | _ => none

/-- Where a redirection makes a descriptor lead. -/
def redirected (state : State) : Redirection → State
  | (descriptor, target) =>
    let sink : Sink :=
      match target with
      | .descriptor 1 => state.output
      | .descriptor 2 => state.complaints
      | _ => .nowhere
    match descriptor with
    | 0 => { state with waiting := [] }
    | 1 => { state with output := sink }
    | 2 => { state with complaints := sink }
    | _ => state

/-- Run a part on its own: it can end without ending the script, and leaves the variables, the
traps and the descriptors as they were. -/
def runApart (part : Run Unit) : Run Unit := do
  let before ← get
  tryCatch (do part; modify (·.returned before (← get).status)) fun jump =>
    match jump with
    | .exited code => modify (·.returned before code)
    | .killed => throw .killed
    | .leave | .again => modify (·.returned before 0)

/-! ### Running -/

mutual

/-- Run a text as a script. -/
def source : Nat → String → Run Unit
  | 0, _ => throw .killed
  | steps + 1, script =>
    match parse? script with
    | some command => perform steps command
    | none => do
      complain "/bin/sh: 1: Syntax error: Unterminated quoted string"
      throw (.exited 2)

/-- Run a text as a script of its own. -/
def sourceApart : Nat → String → Run Unit
  | 0, _ => throw .killed
  | steps + 1, script =>
    match parse? script with
    | some command => perform steps (.apart command)
    | none => modify fun state => { state with status := 2 }

/-- What a signal does to a script. -/
def receive : Nat → String → Run Unit
  | 0, _ => throw .killed
  | steps + 1, signal =>
    if signal = "KILL" then throw .killed
    else do
      match (← get).traps.lookup signal with
      | some script => if script.isEmpty then pure () else source steps script
      | none => if harmlessSignals.contains signal then pure () else throw .killed

/-- Wait for so many milliseconds. A script that was asked to end and goes on is
killed when its time is over; a trap runs once the waiting is done. -/
def sleep : Nat → Nat → Run Unit
  | 0, _ => throw .killed
  | steps + 1, duration => do
    modify State.catchUp
    let due := (← get).isDue
    modify State.ask
    if due && ((← get).traps.lookup "TERM").isNone then throw .killed
    else
      pass duration
      if due then receive steps "TERM"

/-- Send a signal as the arguments say. -/
def signal : Nat → String → List String → Run Nat
  | 0, _, _ => throw .killed
  | _ + 1, _, [] => pure 0
  | steps + 1, name, argument :: rest =>
    if argument = "-s" then signal steps (signalName (rest.headD "")) rest.tail
    else if argument.startsWith "-" then signal steps (signalName (argument.drop 1).toString) rest
    else do
      if argument = ownNumber && name != "EXIT" then receive steps name
      signal steps name rest

/-- Run a program with its arguments, and give its status. -/
def runProgram : Nat → String → List String → Run Nat
  | 0, _, _ => throw .killed
  | steps + 1, program, arguments =>
    match plainProgram? (bareName program) arguments with
    | some part => part
    | none =>
      if bareName program = "sleep" then do
        sleep steps ((arguments.map milliseconds).foldl (· + ·) 0)
        pure 0
      else if bareName program = "kill" then signal steps "TERM" arguments
      else if bareName program = "eval" then do
        source steps (String.intercalate " " arguments)
        pure (← get).status
      else if bareName program = "sh" then
        match givenScript? arguments with
        | some script => do
          sourceApart steps script
          pure (← get).status
        | none => pure 0
      else if bareName program = "exec" then
        match arguments with
        | name :: arguments => do
          modify fun state => { state with traps := state.traps.filter (·.2.isEmpty) }
          throw (.exited (← runProgram steps name arguments))
        | [] => pure 0
      else do
        complainAbout program "not found"
        pure 127

/-- Run a command. -/
def perform : Nat → Command → Run Unit
  | 0, _ => throw .killed
  | steps + 1, command => do
    let succeeded : Run Bool := do pure ((← get).status == 0)
    match command with
    | .sequence [] => pure ()
    | .sequence (first :: rest) =>
      perform steps first
      perform steps (.sequence rest)
    | .apart body => runApart (perform steps body)
    | .joined left right =>
      let before ← get
      modify fun state => { state with piped := [], output := .pipe }
      perform steps (.apart left)
      modify fun state =>
        { state with piped := before.piped, output := before.output, waiting := state.piped }
      perform steps (.apart right)
      modify fun state => { state with waiting := before.waiting }
    | .also left right expected =>
      perform steps left
      if (← succeeded) == expected then perform steps right
    | .choice test body otherwise =>
      perform steps test
      if ← succeeded then perform steps body else perform steps otherwise
    | .cycle test body expected =>
      perform steps test
      if (← succeeded) == expected then
        if ← performOnce steps body then perform steps (.cycle test body expected)
      else modify fun state => { state with status := 0 }
    | .each name words body =>
      let state ← get
      performEach steps name (words.flatMap (·.fields state)) body
    | .simple words redirections =>
      let state ← get
      match fieldsOf state words with
      | (settings, []) => modify fun state => { state with status := 0 }.assignAll settings
      | (_, program :: arguments) =>
        modify fun state => redirections.foldl redirected state
        let status ← runProgram steps program arguments
        modify fun state => { state with status }
        if program != "exec" then
          modify fun after =>
            { after with output := state.output, complaints := state.complaints }

/-- Run the body of a loop once, and tell whether the loop goes on. -/
def performOnce : Nat → Command → Run Bool
  | 0, _ => throw .killed
  | steps + 1, body =>
    tryCatch (do perform steps body; pure true) fun jump =>
      match jump with
      | .leave => pure false
      | .again => pure true
      | jump => throw jump

/-- Run a body for each of the values of a variable. -/
def performEach : Nat → String → List String → Command → Run Unit
  | 0, _, _, _ => throw .killed
  | _ + 1, _, [], _ => pure ()
  | steps + 1, name, value :: values, body => do
    modify (·.assign name value)
    if ← performOnce steps body then performEach steps name values body

end

/-! ### A whole script -/

/-- How many steps a script may take. -/
def stepLimit : Nat := 20000

/-- What a script leaves behind. -/
structure Report where
  printed : List UInt8
  logged : List UInt8
  /-- The address among the printed lines. -/
  address : Option String
  /-- The code with which the script ended; a script that was killed has none. -/
  code : Option Nat
deriving Repr

/-- Do what is set for the end of a script. -/
def trapEnd (steps : Nat) : Run Unit := do
  match (← get).traps.lookup "EXIT" with
  | some script =>
    modify fun state => { state with traps := state.traps.filter (·.1 != "EXIT") }
    source steps script
  | none => pure ()

/-- Run a script to its end within so many steps, with the trap that is set for it. -/
def finish (steps : Nat) (script : String) : Run Unit := do
  tryCatch (source steps script) fun jump =>
    match jump with
    | .exited code => do
      modify fun state => { state with status := code }
      trapEnd steps
      throw (.exited code)
    | jump => throw jump
  let code := (← get).status
  trapEnd steps
  throw (.exited code)

/-- Run a script within so many steps. -/
def runWithin (steps : Nat) (script : String) (request : Request) (impatient : Bool) : Report :=
  if request = .atOnce then ⟨[], [], none, none⟩
  else
    let (jump, state) := (finish steps script).run (State.initial request impatient)
    let lines := Runner.follow state.printed
    ⟨state.printed, (state.copy lines).logged, lines.address,
      match jump with
      | .error (.exited code) => some code
      | .error _ => none
      | .ok () => some state.status⟩

/-- Run a script. -/
def run (script : String) (request : Request) (impatient : Bool) : Report :=
  runWithin stepLimit script request impatient

end VmFleet.Shell
