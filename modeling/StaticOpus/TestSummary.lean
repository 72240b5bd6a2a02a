import StaticOpus.Text.Blank
import StaticOpus.Text.Mark
import StaticOpus.Text.Utf8

/-!
# Summaries of test output

A test runner prints one result line for each test binary. The summary adds up what these lines
count as passed and failed. Counts stop at the greatest 64-bit number, and so does every sum.
-/

namespace StaticOpus

/-- What result lines count, added up. -/
structure Tally where
  passed : Nat := 0
  failed : Nat := 0
  binaries : Nat := 0
  deriving DecidableEq

namespace Tally

/-- The greatest count. -/
def limit : Nat := UInt64.size - 1

/-- The sum of two counts, up to the greatest. -/
def plus (a b : Nat) : Nat := min (a + b) limit

/-- Two tallies added up, count by count. -/
def add (a b : Tally) : Tally where
  passed := plus a.passed b.passed
  failed := plus a.failed b.failed
  binaries := plus a.binaries b.binaries

/-- The number that some decimal digits stand for. -/
def ofDigits (digits : List Char) : Nat :=
  digits.foldl (fun value digit => 10 * value + (digit.toNat - '0'.toNat)) 0

/-- The count that a word stands for: decimal digits, perhaps after a plus sign, not above the
limit. -/
def count? (word : List Char) : Option Nat :=
  let digits := match word with
    | '+' :: digits => digits
    | digits => digits
  if digits ≠ [] ∧ digits.all Char.isDigit ∧ ofDigits digits ≤ limit then
    some (ofDigits digits)
  else none

/-- What one part of a result line counts: its last word names the kind and the word before it is
the count. -/
def ofPart (part : List Char) : Tally :=
  match (Text.words part).reverse with
  | kind :: word :: _ =>
    match count? word with
    | none => {}
    | some count =>
      if kind = "passed".toList then { passed := count }
      else if kind = "failed".toList then { failed := count }
      else {}
  | _ => {}

/-- The mark of a result line. -/
def mark : List Char := "test result:".toList

/-- What follows the mark of a result line, up to a second mark. -/
def result? (line : List Char) : Option (List Char) :=
  (Text.after? mark line).map (Text.before mark)

/-- What one line counts; a line without the mark counts nothing. A carriage return at its end is
blank and so belongs to no word. -/
def ofLine (line : List Char) : Tally :=
  match result? line with
  | none => {}
  | some result => ((result.splitOn ';').map ofPart).foldl add { binaries := 1 }

/-- What the lines of an output count. -/
def ofOutput (output : List Char) : Tally :=
  ((output.splitOn '\n').map ofLine).foldl add {}

/-- The tally as a summary. -/
def summary (tally : Tally) : String :=
  if tally.binaries = 0 then "(summary not available)"
  else
    toString tally.passed ++ " passed; " ++ toString tally.failed ++ " failed across " ++
      toString tally.binaries ++ " test binaries"

end Tally

/-- The summary of the bytes that a test runner printed. -/
def testSummary (output : List UInt8) : String :=
  (Tally.ofOutput (Text.Utf8.lossy output)).summary

end StaticOpus
