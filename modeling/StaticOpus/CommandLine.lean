import StaticOpus.Task.Plans

/-!
# The command line

A command line names one command and switches some of its flags on, each at most once. It may ask
for a page instead, of help or of the version, and the first thing wrong or asked for decides.

## Implementation notes

Words are read left to right. After a separator every word is a plain one, and no command takes a
plain word.
-/

namespace StaticOpus

/-- A flag of some command. -/
inductive Flag where
  | check
  | quick
  | link
  deriving DecidableEq

/-- The commands, without their flags. -/
inductive Verb where
  | headers
  | check
  | test
  deriving DecidableEq

/-- A command to run. -/
inductive Command where
  | headers (checkOnly : Bool)
  | check
  | test (quick link : Bool)
  deriving DecidableEq

namespace Flag

/-- The name of a flag, without its hyphens. -/
def name : Flag → String
  | check => "check"
  | quick => "quick"
  | link => "link"

/-- What help says about a flag. -/
def about : Flag → String
  | check => "Fail instead of writing when a header is out of date"
  | quick => "Run only the mono (default feature) configuration"
  | link => "Also run the tests against libopus in OPUS_LIB_DIR"

end Flag

namespace Verb

/-- Every command, in the order of the help page. -/
def all : List Verb := [headers, check, test]

/-- The word that names a command. -/
def word : Verb → String
  | headers => "headers"
  | check => "check"
  | test => "test"

/-- What help says about a command. -/
def about : Verb → String
  | headers => "Regenerate include/*.h from the Rust constants"
  | check => "Check the shim for host and bare-metal targets across the feature matrix"
  | test => "Run the test suite across the feature matrix"

/-- The flags of a command. -/
def flags : Verb → List Flag
  | headers => [.check]
  | check => []
  | test => [.quick, .link]

/-- The command that a word names. -/
def ofWord? (word : String) : Option Verb := all.find? fun verb => verb.word = word

/-- The flag of a command that has the given name. -/
def flag? (verb : Verb) (name : String) : Option Flag :=
  verb.flags.find? fun flag => flag.name = name

/-- The command with some flags switched on. -/
def command (verb : Verb) (flags : List Flag) : Command :=
  match verb with
  | headers => .headers (.check ∈ flags)
  | check => .check
  | test => .test (.quick ∈ flags) (.link ∈ flags)

end Verb

/-- The plan of a command. Tests against the pinned codec need to know where that is. -/
def Command.plan (library : Option (List UInt8)) : Command → Plan
  | .headers checkOnly => Plan.headers checkOnly
  | .check => Plan.check
  | .test quick link => Plan.test quick link library

/-- A page that a command line asks for. -/
inductive Page where
  | version
  | overview
  /-- Help on a command. -/
  | command (verb : Verb)
  /-- Help on help. -/
  | help
  deriving DecidableEq

/-- What is wrong with a command line. -/
inductive UsageFault where
  | noCommand
  | unknownCommand (word : String)
  | unexpectedWord (word : String)
  | unexpectedValue (value flag : String)
  | repeatedFlag (flag : Flag)
  deriving DecidableEq

/-- What a command line asks for. -/
inductive Intent where
  | run (command : Command)
  | page (page : Page)
  | refuse (fault : UsageFault)
  deriving DecidableEq

/-- A word of a command line, by its form. -/
inductive Word where
  /-- Two hyphens alone. -/
  | separator
  /-- Two hyphens and a name, perhaps with a value after an equals sign. -/
  | long (name : String) (value : Option String)
  /-- A hyphen and some letters; only the first matters, since no letter can be combined. -/
  | letters (first : Char)
  | plain
  deriving DecidableEq

namespace Word

/-- The form of a word. -/
def ofString (word : String) : Word :=
  match word.toList with
  | ['-', '-'] => .separator
  | '-' :: '-' :: rest =>
    .long (String.ofList (rest.takeWhile (· ≠ '='))) (match rest.dropWhile (· ≠ '=') with
      | [] => none
      | _ :: value => some (String.ofList value))
  | '-' :: first :: _ => .letters first
  | _ => .plain

end Word

namespace Intent

/-- A flag that asks for a page, with a value that it cannot take or without one. -/
def ofPageFlag (page : Page) (name : String) : Option String → Intent
  | none => .page page
  | some value => .refuse (.unexpectedValue value ("--" ++ name))

/-- Reads the words after a command, some of whose flags have been switched on. -/
def ofFlags (verb : Verb) (seen : List Flag) : List String → Intent
  | [] => .run (verb.command seen)
  | word :: rest =>
    match Word.ofString word with
    | .separator =>
      match rest with
      | [] => .run (verb.command seen)
      | plain :: _ => .refuse (.unexpectedWord plain)
    | .long name value =>
      if name = "help" then ofPageFlag (.command verb) name value
      else
        match verb.flag? name, value with
        | none, _ => .refuse (.unexpectedWord ("--" ++ name))
        | some flag, some value => .refuse (.unexpectedValue value ("--" ++ flag.name))
        | some flag, none =>
          if flag ∈ seen then .refuse (.repeatedFlag flag) else ofFlags verb (seen ++ [flag]) rest
    | .letters first =>
      if first = 'h' then .page (.command verb)
      else .refuse (.unexpectedWord (String.ofList ['-', first]))
    | .plain => .refuse (.unexpectedWord word)

/-- The word that asks for help on a command. -/
def helpWord : String := "help"

/-- Reads the words after the word for help: at most one command. -/
def ofTopic : List String → Intent
  | [] => .page .overview
  | [topic] =>
    match Verb.ofWord? topic with
    | some verb => .page (.command verb)
    | none => if topic = helpWord then .page .help else .refuse (.unknownCommand topic)
  | topic :: next :: _ =>
    if (Verb.ofWord? topic).isSome ∨ topic = helpWord then .refuse (.unknownCommand next)
    else .refuse (.unknownCommand topic)

/-- Reads the words after a separator that stands where a command should. -/
def ofSeparated : List String → Intent
  | [] => .refuse .noCommand
  | word :: _ =>
    if (Verb.ofWord? word).isSome ∨ word = helpWord then .refuse (.unexpectedWord word)
    else .refuse (.unknownCommand word)

/-- Reads a command line. -/
def ofArgs : List String → Intent
  | [] => .refuse .noCommand
  | word :: rest =>
    match Verb.ofWord? word with
    | some verb => ofFlags verb [] rest
    | none =>
      if word = helpWord then ofTopic rest
      else
        match Word.ofString word with
        | .separator => ofSeparated rest
        | .long name value =>
          if name = "help" then ofPageFlag .overview name value
          else if name = "version" then ofPageFlag .version name value
          else .refuse (.unexpectedWord ("--" ++ name))
        | .letters first =>
          if first = 'h' then .page .overview
          else if first = 'V' then .page .version
          else .refuse (.unexpectedWord (String.ofList ['-', first]))
        | .plain => .refuse (.unknownCommand word)

end Intent

end StaticOpus
