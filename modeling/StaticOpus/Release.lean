import StaticOpus.Event
import StaticOpus.Fault

/-!
# The pinned release

The storage sizes are measurements of one release of the codec. A version text names that release
when it is the codec's name, a blank and the release number, with nothing or a hyphenated suffix
after it; so a longer release number is another release.
-/

namespace StaticOpus

/-- What a check came to: its result and what it wrote to the log. -/
structure Checked (α : Type) where
  result : Except Fault α
  log : List Event

namespace Release

/-- The release that the storage sizes were measured on. -/
def pinned : String := "1.5.2"

/-- What the codec's version text has before the release number. -/
def codecName : String := "libopus "

/-- Whether a version text, as characters, names the pinned release. -/
def isPinned (version : List Char) : Bool :=
  match (codecName ++ pinned).toList.isPrefixOf? version with
  | some [] => true
  | some (c :: _) => c = '-'
  | none => false

/-- Checks that a version text names the pinned release. -/
def check (version : String) : Checked Unit :=
  if isPinned version.toList then ⟨.ok (), []⟩
  else ⟨.error .versionMismatch, [.otherRelease version pinned]⟩

end Release

end StaticOpus
