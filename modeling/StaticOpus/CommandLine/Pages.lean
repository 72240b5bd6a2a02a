import StaticOpus.CommandLine
import StaticOpus.Terminal.Shown

/-!
# Pages of the command line

The texts of the help and version pages, and the sentences that refuse a command line. A page of
help lists what can be given in two columns.
-/

namespace StaticOpus

/-- The name under which the program is called. -/
def programName : String := "xtask"

/-- What the program is for. -/
def programAbout : String := "opus-shim development tasks"

/-- The version of the program. -/
def programVersion : String := "0.1.0"

/-- What help says about the word for help. -/
def helpAbout : String := "Print this message or the help of the given subcommand(s)"

/-- A list of a help page: a heading and rows of two columns. -/
structure Listing where
  heading : String
  rows : List (String × String)

namespace Listing

/-- The width of the first column: its longest entry. -/
def width (listing : Listing) : Nat :=
  (listing.rows.map fun row => row.1.length).foldl max 0

/-- The list as text: entries indented by two blanks, columns parted by at least two. -/
def text (listing : Listing) : String :=
  listing.heading ++ ":\n" ++ String.join (listing.rows.map fun row =>
    "  " ++ row.1 ++ String.ofList (List.replicate (listing.width + 2 - row.1.length) ' ') ++
      row.2 ++ "\n")

/-- The rows of the flags for help and version come last. -/
def helpRow : String × String := ("-h, --help", "Print help")

end Listing

namespace Page

/-- A page of help: what it is about, how to call it, and what can be given. -/
def helpText (about usage : String) (listings : List Listing) : String :=
  about ++ "\n\nUsage: " ++ programName ++ " " ++ usage ++ "\n" ++
    String.join (listings.map fun listing => "\n" ++ listing.text)

/-- The text of a page. -/
def text : Page → String
  | .version => programName ++ " " ++ programVersion ++ "\n"
  | .overview =>
    helpText programAbout "<COMMAND>" [
      ⟨"Commands", Verb.all.map (fun verb => (verb.word, verb.about)) ++
        [(Intent.helpWord, helpAbout)]⟩,
      ⟨"Options", [Listing.helpRow, ("-V, --version", "Print version")]⟩]
  | .command verb =>
    helpText verb.about (if verb.flags = [] then verb.word else verb.word ++ " [OPTIONS]") [
      ⟨"Options", verb.flags.map (fun flag => ("    --" ++ flag.name, flag.about)) ++
        [Listing.helpRow]⟩]
  | .help =>
    helpText helpAbout (Intent.helpWord ++ " [COMMAND]...") [
      ⟨"Arguments", [("[COMMAND]...", "Print help for the subcommand(s)")]⟩]

end Page

/-- A word of the command line as a sentence quotes it: what a terminal would show of it. -/
def quoted (word : String) : String := "'" ++ Terminal.shown word ++ "'"

/-- The sentence that refuses a command line. Without a command it says what the program is for. -/
def UsageFault.message : UsageFault → String
  | .noCommand => programAbout
  | .unknownCommand word => "error: unrecognized subcommand " ++ quoted word
  | .unexpectedWord word => "error: unexpected argument " ++ quoted word ++ " found"
  | .unexpectedValue value flag =>
    "error: unexpected value " ++ quoted value ++ " for " ++ quoted flag ++
      " found; no more were expected"
  | .repeatedFlag flag =>
    "error: the argument " ++ quoted ("--" ++ flag.name) ++ " cannot be used multiple times"

/-- The first line of a text, without its end: a line feed, perhaps after a carriage return. -/
def firstLine : List Char → List Char
  | [] => []
  | '\n' :: _ => []
  | '\r' :: '\n' :: _ => []
  | c :: rest => c :: firstLine rest

/-- The first line of the sentence that refuses a command line. -/
def UsageFault.headline (fault : UsageFault) : String :=
  String.ofList (firstLine fault.message.toList)

end StaticOpus
