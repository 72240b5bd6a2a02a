import StaticOpus.FileTree
import StaticOpus.Header

/-!
# Keeping headers up to date

A directory is up to date when each header's file in it holds the header's text. A sync goes through
the headers in order and notes each that is not; unless it only checks, it also makes the directory
and writes the header, and it stops at the first refusal of the system.
-/

namespace StaticOpus

/-- Why a sync could not be finished. -/
inductive SyncFault where
  /-- The directory could not be made. -/
  | create (directory : String) (cause : FileFault)
  /-- A header could not be written. -/
  | write (file : String) (cause : FileFault)
  deriving DecidableEq

/-- The messages of a fault, from what was tried to why it failed. -/
def SyncFault.messages : SyncFault → List String
  | .create directory cause => ["Failed to create " ++ directory, cause.message]
  | .write file cause => ["Failed to write " ++ file, cause.message]

namespace Header

/-- The location of a header's file in a directory. -/
def location (directory : Location) (header : Header) : Location :=
  directory.child header.fileName

/-- What reading a header's file yields as text: empty where there is no readable text. -/
def current (directory : Location) (header : Header) (tree : FileTree) : String :=
  ((tree.read? (header.location directory)).bind Text.Utf8.decode?).getD ""

/-- Whether a header's file holds the header's text. -/
def isCurrent (directory : Location) (header : Header) (tree : FileTree) : Bool :=
  header.current directory tree = header.contents

/-- Makes the directory and writes a header into it. A failed write keeps what has been made. -/
def write (directory : Location) (header : Header) (tree : FileTree) :
    Except SyncFault Unit × FileTree :=
  match tree.createDirs directory with
  | (.error cause, made) => (.error (.create directory.text cause), made)
  | (.ok (), made) =>
    match made.write (header.location directory) header.bytes with
    | .error cause => (.error (.write (header.location directory).text cause), made)
    | .ok written => (.ok (), written)

/-- Goes through some headers: those that were not up to date, and the tree after it. -/
def syncEach (check : Bool) (directory : Location) :
    List Header → FileTree → Except SyncFault (List Header) × FileTree
  | [], tree => (.ok [], tree)
  | header :: rest, tree =>
    if header.isCurrent directory tree then syncEach check directory rest tree
    else
      match (if check then (.ok (), tree) else header.write directory tree) with
      | (.error fault, after) => (.error fault, after)
      | (.ok (), after) =>
        match syncEach check directory rest after with
        | (.error fault, last) => (.error fault, last)
        | (.ok stale, last) => (.ok (header :: stale), last)

/-- Brings the headers of a directory up to date, or only tells which are not. -/
def sync (check : Bool) (directory : Location) (tree : FileTree) :
    Except SyncFault (List Header) × FileTree :=
  syncEach check directory all tree

end Header

end StaticOpus
