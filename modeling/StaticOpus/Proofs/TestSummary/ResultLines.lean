import StaticOpus.Proofs.TestSummary

/-!
# Result lines are read as they are written

A test runner writes the counts of a test binary into a result line, in decimal and in a fixed
order, after a status that may be any text without a mark, a semicolon or a line break. Something
else may stand before the line's mark, and lines without a mark may stand between result lines. The
summary gives the sums of what was written, and it is unavailable exactly for an output without a
mark.
-/

namespace StaticOpus

open Text

/-- What a result line tells of a test binary. -/
structure ResultLine where
  status : String
  passed : UInt64
  failed : UInt64
  ignored : UInt64
  measured : UInt64
  filtered : UInt64
  time : String
  status_unmarked : ¬ Tally.mark <:+: status.toList
  status_undivided : ';' ∉ status.toList
  status_unbroken : '\n' ∉ status.toList
  time_numeric : (time.toList.all fun c => c.isDigit || c == '.') = true

/-- A text on one line without the mark of a result. -/
structure PlainText where
  text : String
  unbroken : '\n' ∉ text.toList
  unmarked : ¬ Tally.mark <:+: text.toList

/-- A line of an output: a result line, perhaps with something else in front of it, or another. -/
inductive OutputLine where
  | result (front : PlainText) (line : ResultLine)
  | other (line : PlainText)

namespace ResultLine

/-- The line as it is written. -/
def text (line : ResultLine) : String :=
  "test result: " ++ line.status ++ ". " ++ toString line.passed ++ " passed; " ++
    toString line.failed ++ " failed; " ++ toString line.ignored ++ " ignored; " ++
    toString line.measured ++ " measured; " ++ toString line.filtered ++
    " filtered out; finished in " ++ line.time ++ "s"

/-- What the line counts. -/
def tally (line : ResultLine) : Tally where
  passed := line.passed.toNat
  failed := line.failed.toNat
  binaries := 1

end ResultLine

namespace OutputLine

/-- The line as it is written. -/
def text : OutputLine → String
  | result front line => front.text ++ line.text
  | other line => line.text

/-- The result line among them, without what stands in front of it. -/
def result? : OutputLine → Option ResultLine
  | result _ line => some line
  | other _ => none

end OutputLine

namespace Tally

/-! ## Counts in decimal -/

theorem count?_of_digits {word : List Char} (nonempty : word ≠ [])
    (digits : ∀ c ∈ word, c.isDigit = true) (within : ofDigits word ≤ limit) :
    count? word = some (ofDigits word) := by
  unfold count?
  dsimp only
  split
  · exact absurd (digits '+' List.mem_cons_self) (by decide)
  · exact if_pos ⟨nonempty, List.all_eq_true.mpr digits, within⟩

theorem isDigit_of_mem_toDigits {count : Nat} {c : Char} (mem : c ∈ Nat.toDigits 10 count) :
    c.isDigit = true :=
  Nat.isDigit_of_mem_toDigits (by decide) (by decide) mem

theorem count?_toDigits {count : Nat} (within : count ≤ limit) :
    count? (Nat.toDigits 10 count) = some count := by
  have read : ofDigits (Nat.toDigits 10 count) = count := by
    rw [ofDigits, ← Nat.ofDigitChars_eq_foldl, Nat.ofDigitChars_ten_toDigits]
  rw [count?_of_digits Nat.toDigits_ne_nil (fun _ mem => isDigit_of_mem_toDigits mem)
    (read.symm ▸ within), read]

/-! ## The parts of a result line -/

section Part

variable {word kind : List Char} {front : List Char} (isWord : IsWord word) (isKind : IsWord kind)

include isWord isKind

theorem words_part : (words (front ++ ' ' :: (word ++ ' ' :: kind))).reverse =
    kind :: word :: (words front).reverse := by
  have blank : isBlank ' ' = true := by decide
  rw [words_append_blank blank, words_append_blank blank, words_of_isWord isWord,
    words_of_isWord isKind, List.reverse_append]
  rfl

theorem ofPart_of_count? {count : Nat} (counted : count? word = some count) :
    ofPart (front ++ ' ' :: (word ++ ' ' :: kind)) =
      if kind = "passed".toList then { passed := count }
      else if kind = "failed".toList then { failed := count }
      else {} := by
  rw [ofPart, words_part isWord isKind]
  simp only [counted]

theorem ofPart_of_count?_eq_none (uncounted : count? word = none) :
    ofPart (front ++ ' ' :: (word ++ ' ' :: kind)) = {} := by
  rw [ofPart, words_part isWord isKind]
  simp only [uncounted]

end Part

end Tally

namespace ResultLine

variable (line : ResultLine)

theorem toList_toString (count : UInt64) :
    (toString count).toList = Nat.toDigits 10 count.toNat := by
  change (toString count.toNat).toList = _
  rw [Nat.toString_eq_ofList_toDigits, String.toList_ofList]

theorem toNat_le_limit (count : UInt64) : count.toNat ≤ Tally.limit :=
  Nat.le_pred_of_lt count.toNat_lt

/-- A count with its kind. -/
def countPart (count : UInt64) (kind : List Char) : List Char :=
  ' ' :: (Nat.toDigits 10 count.toNat ++ ' ' :: kind)

/-- The parts after the first. -/
def laterParts : List (List Char) := [
  countPart line.failed "failed".toList,
  countPart line.ignored "ignored".toList,
  countPart line.measured "measured".toList,
  countPart line.filtered "filtered out".toList,
  " finished in ".toList ++ line.time.toList ++ ['s']]

/-- What follows the mark, cut at the semicolons. -/
def parts : List (List Char) :=
  (' ' :: line.status.toList ++ ['.'] ++ countPart line.passed "passed".toList) :: line.laterParts

theorem toList_text : line.text.toList = Tally.mark ++ [';'].intercalate line.parts := by
  unfold text parts laterParts countPart Tally.mark
  simp only [String.toList_append, toList_toString, List.intercalate_cons_cons,
    List.intercalate_singleton]
  simp

/-! What the parts are read as. -/

theorem isWord_toDigits (count : Nat) : IsWord (Nat.toDigits 10 count) := by
  refine ⟨Nat.toDigits_ne_nil, ?_⟩
  rw [List.any_eq_false]
  intro c mem
  rw [isBlank_of_isDigit (Tally.isDigit_of_mem_toDigits mem)]
  decide

theorem cases_of_mem_time {c : Char} (mem : c ∈ line.time.toList) : c.isDigit = true ∨ c = '.' := by
  simpa using List.all_eq_true.mp line.time_numeric c mem

theorem isWord_time : IsWord (line.time.toList ++ ['s']) := by
  have solid : line.time.toList.any isBlank = false := by
    rw [List.any_eq_false]
    intro c mem
    rcases line.cases_of_mem_time mem with digit | rfl
    · rw [isBlank_of_isDigit digit]
      decide
    · decide
  refine ⟨List.append_ne_nil_of_right_ne_nil _ (List.cons_ne_nil _ _), ?_⟩
  rw [List.any_append, solid]
  decide

theorem ofPart_countPart (front : List Char) (count : UInt64) {kind : List Char}
    (isKind : IsWord kind) :
    Tally.ofPart (front ++ countPart count kind) =
      if kind = "passed".toList then { passed := count.toNat }
      else if kind = "failed".toList then { failed := count.toNat }
      else {} := by
  have counted := Tally.count?_toDigits (toNat_le_limit count)
  exact Tally.ofPart_of_count? (isWord_toDigits _) isKind counted

/-- The word before the kind is no count. -/
theorem ofPart_filtered : Tally.ofPart (countPart line.filtered "filtered out".toList) = {} := by
  have cut : countPart line.filtered "filtered out".toList =
      ' ' :: Nat.toDigits 10 line.filtered.toNat ++
        ' ' :: ("filtered".toList ++ ' ' :: "out".toList) := by
    rfl
  rw [cut]
  exact Tally.ofPart_of_count?_eq_none (by decide) (by decide) (by decide)

theorem ofPart_time :
    Tally.ofPart (" finished in ".toList ++ line.time.toList ++ ['s']) = {} := by
  have cut : " finished in ".toList ++ line.time.toList ++ ['s'] =
      " finished".toList ++ ' ' :: ("in".toList ++ ' ' :: (line.time.toList ++ ['s'])) := by
    rfl
  rw [cut]
  exact Tally.ofPart_of_count?_eq_none (by decide) line.isWord_time (by decide)

theorem map_ofPart_parts : line.parts.map Tally.ofPart =
    [{ passed := line.passed.toNat }, { failed := line.failed.toNat }, {}, {}, {}, {}] := by
  have passed : Tally.ofPart (_ ++ countPart line.passed "passed".toList) = _ :=
    ofPart_countPart (' ' :: line.status.toList ++ ['.']) line.passed (by decide)
  have failed : Tally.ofPart (countPart line.failed "failed".toList) = _ :=
    ofPart_countPart [] line.failed (by decide)
  have ignored : Tally.ofPart (countPart line.ignored "ignored".toList) = _ :=
    ofPart_countPart [] line.ignored (by decide)
  have measured : Tally.ofPart (countPart line.measured "measured".toList) = _ :=
    ofPart_countPart [] line.measured (by decide)
  rw [if_pos rfl] at passed
  rw [if_neg (by decide), if_pos rfl] at failed
  rw [if_neg (by decide), if_neg (by decide)] at ignored measured
  rw [parts, laterParts, List.map_cons, List.map_cons, List.map_cons, List.map_cons, List.map_cons,
    List.map_singleton, passed, failed, ignored, measured, ofPart_filtered, ofPart_time]

/-! Where the line is cut: its semicolons are those between the parts, and it has one mark. -/

/-- The characters of a result line but for its mark, its status and its semicolons. -/
def isInk (c : Char) : Bool := c.isAlphanum || c == ' ' || c == '.'

theorem countPart_ink (count : UInt64) {kind : List Char} (ink : kind.all isInk = true) :
    (countPart count kind).all isInk = true := by
  have digits : (Nat.toDigits 10 count.toNat).all isInk = true := by
    rw [List.all_eq_true]
    intro c mem
    have digit := Tally.isDigit_of_mem_toDigits mem
    simp [isInk, Char.isAlphanum, digit]
  simp only [countPart, List.all_cons, List.all_append, digits, ink]
  decide

theorem laterParts_ink : ∀ part ∈ line.laterParts, part.all isInk = true := by
  have time : line.time.toList.all isInk = true := by
    rw [List.all_eq_true]
    intro c mem
    rcases line.cases_of_mem_time mem with digit | rfl
    · simp [isInk, Char.isAlphanum, digit]
    · decide
  have last : (" finished in ".toList ++ line.time.toList ++ ['s']).all isInk = true := by
    simp only [List.all_append, time]
    decide
  simp only [laterParts, List.forall_mem_cons]
  exact ⟨countPart_ink _ (by decide), countPart_ink _ (by decide), countPart_ink _ (by decide),
    countPart_ink _ (by decide), last, nofun⟩

theorem passed_ink : (['.'] ++ countPart line.passed "passed".toList).all isInk = true := by
  rw [List.all_append, countPart_ink _ (by decide)]
  decide

/-- Joined pieces are the first one and then each other after its separator. -/
theorem intercalate_cons (separator : Char) (first : List Char) (pieces : List (List Char)) :
    [separator].intercalate (first :: pieces) = first ++ pieces.flatMap (separator :: ·) := by
  induction pieces generalizing first with
  | nil => simp only [List.intercalate_singleton, List.flatMap_nil, List.append_nil]
  | cons second pieces ih =>
      rw [List.intercalate_cons_cons, ih, List.flatMap_cons, List.append_assoc]
      rfl

/-- What follows the status. -/
def tail : List Char :=
  ['.'] ++ countPart line.passed "passed".toList ++ line.laterParts.flatMap (';' :: ·)

theorem intercalate_parts :
    [';'].intercalate line.parts = ' ' :: line.status.toList ++ line.tail := by
  rw [parts, intercalate_cons, tail]
  simp only [List.append_assoc]

theorem ink_of_mem_tail {c : Char} (mem : c ∈ line.tail) : isInk c = true ∨ c = ';' := by
  rcases List.mem_append.mp mem with first | later
  · exact Or.inl (List.all_eq_true.mp line.passed_ink c first)
  · obtain ⟨part, among, inside⟩ := List.mem_flatMap.mp later
    rcases List.mem_cons.mp inside with semicolon | inside
    · exact Or.inr semicolon
    · exact Or.inl (List.all_eq_true.mp (line.laterParts_ink part among) c inside)

theorem splitOn_parts : ([';'].intercalate line.parts).splitOn ';' = line.parts := by
  refine List.splitOn_intercalate ';' ?_ (List.cons_ne_nil _ _)
  intro part among mem
  rcases List.mem_cons.mp among with rfl | later
  · rw [List.append_assoc, List.mem_append, List.mem_cons] at mem
    rcases mem with (space | status) | first
    · exact absurd space (by decide)
    · exact line.status_undivided status
    · exact absurd (List.all_eq_true.mp line.passed_ink ';' first) (by decide)
  · exact absurd (List.all_eq_true.mp (line.laterParts_ink part later) ';' mem) (by decide)

/-- No second mark follows that of the line. -/
theorem parts_unmarked : ¬ Tally.mark <:+: [';'].intercalate line.parts := by
  have foreign : ':' ∉ line.tail := fun mem => absurd (line.ink_of_mem_tail mem) (by decide)
  rw [intercalate_parts, Tally.mark_closed.infix_append_iff foreign, List.infix_cons_iff, not_or]
  refine ⟨?_, line.status_unmarked⟩
  rintro ⟨rest, whole⟩
  have first : Tally.mark.head? = some 't' := by decide
  have space : (Tally.mark ++ rest).head? = some ' ' := congrArg List.head? whole
  rw [List.head?_append, first, Option.some_or] at space
  exact absurd space (by decide)

theorem text_unbroken : '\n' ∉ line.text.toList := by
  intro mem
  rw [toList_text, intercalate_parts, List.mem_append, List.mem_append, List.mem_cons] at mem
  rcases mem with marked | (space | status) | tail
  · exact absurd marked (by decide)
  · exact absurd space (by decide)
  · exact line.status_unbroken status
  · exact absurd (line.ink_of_mem_tail tail) (by decide)

/-- Whatever stands in front of a result line, what is counted is what was written. -/
theorem ofLine_append_text (front : PlainText) :
    Tally.ofLine (front.text.toList ++ line.text.toList) = line.tally := by
  have result : Tally.result? (front.text.toList ++ line.text.toList) =
      some ([';'].intercalate line.parts) := by
    rw [toList_text, Tally.result?, Tally.mark_closed.after?_append front.unmarked, Option.map_some,
      before_of_unmarked line.parts_unmarked]
  have passed : line.passed.toNat ≤ Tally.limit := toNat_le_limit line.passed
  have failed : line.failed.toNat ≤ Tally.limit := toNat_le_limit line.failed
  have one : 1 ≤ Tally.limit := by decide
  rw [Tally.ofLine_of_result? result, splitOn_parts, map_ofPart_parts]
  simp only [Tally.total, tally, List.map_cons, List.map_nil, List.sum_cons, List.sum_nil,
    Tally.mk.injEq]
  omega

theorem total_binaries {lines : List ResultLine} (countable : lines.length < 2 ^ 64) :
    (Tally.total (lines.map tally)).binaries = lines.length := by
  have ones : ((lines.map tally).map Tally.binaries).sum = lines.length := by
    have each : Tally.binaries ∘ tally = fun _ => 1 := rfl
    rw [List.map_map, each, List.map_const', List.sum_replicate_nat, Nat.mul_one]
  calc
    (Tally.total (lines.map tally)).binaries = min lines.length Tally.limit :=
      congrArg (min · Tally.limit) ones
    _ = lines.length := Nat.min_eq_left (Nat.le_pred_of_lt countable)

end ResultLine

namespace OutputLine

theorem text_unbroken (line : OutputLine) : '\n' ∉ line.text.toList := by
  cases line with
  | result front line =>
      rw [text, String.toList_append, List.mem_append, not_or]
      exact ⟨front.unbroken, line.text_unbroken⟩
  | other line => exact line.unbroken

/-- What a line counts. -/
def tally (line : OutputLine) : Tally := (line.result?.map ResultLine.tally).getD {}

theorem ofLine_text (line : OutputLine) : Tally.ofLine line.text.toList = line.tally := by
  cases line with
  | result front line =>
      rw [text, String.toList_append]
      exact line.ofLine_append_text front
  | other line =>
      exact Tally.ofLine_of_unmarked line.unmarked

/-- Only result lines count. -/
theorem total_map_tally (lines : List OutputLine) :
    Tally.total (lines.map tally) =
      Tally.total ((lines.filterMap result?).map ResultLine.tally) := by
  induction lines with
  | nil => rfl
  | cons line lines ih =>
      cases line with
      | result front line =>
          calc
            Tally.total ((result front line :: lines).map tally) =
                (Tally.total [line.tally]).add (Tally.total (lines.map tally)) :=
              Tally.total_append [line.tally] _
            _ = Tally.total (((result front line :: lines).filterMap result?).map
                ResultLine.tally) := by
              rw [ih]
              exact (Tally.total_append [line.tally] _).symm
      | other line =>
          calc
            Tally.total ((other line :: lines).map tally) = Tally.total (lines.map tally) :=
              Tally.total_cons_empty _
            _ = Tally.total (((other line :: lines).filterMap result?).map ResultLine.tally) := ih

/-- Joined lines count what the result lines among them tell. -/
theorem ofOutput_intercalate {lines : List OutputLine} (nonempty : lines ≠ []) :
    Tally.ofOutput (String.intercalate "\n" (lines.map text)).toList =
      Tally.total ((lines.filterMap result?).map ResultLine.tally) := by
  have split : ("\n".intercalate (lines.map text)).toList.splitOn '\n' =
      (lines.map text).map String.toList := by
    rw [String.toList_intercalate]
    apply List.splitOn_intercalate
    · intro piece mem
      obtain ⟨written, among, rfl⟩ := List.mem_map.mp mem
      obtain ⟨line, -, rfl⟩ := List.mem_map.mp among
      exact line.text_unbroken
    · simpa using nonempty
  have counted : ((lines.map text).map String.toList).map Tally.ofLine = lines.map tally := by
    rw [List.map_map, List.map_map]
    exact List.map_congr_left fun line _ => ofLine_text line
  rw [Tally.ofOutput_eq_total, split, counted, total_map_tally]

end OutputLine

namespace Tally

variable {tally : Tally}

theorem summary_of_counted (counted : tally.binaries ≠ 0) :
    tally.summary = toString tally.passed ++ " passed; " ++ toString tally.failed ++
      " failed across " ++ toString tally.binaries ++ " test binaries" := if_neg counted

/-- A summary that tells counts begins with a digit. -/
theorem summary_eq_unavailable_iff :
    tally.summary = "(summary not available)" ↔ tally.binaries = 0 := by
  constructor
  · intro unavailable
    by_contra counted
    rw [summary_of_counted counted] at unavailable
    have same := congrArg String.toList unavailable
    simp only [String.toList_append, Nat.toString_eq_ofList_toDigits, String.toList_ofList,
      List.append_assoc] at same
    obtain ⟨first, rest, digits⟩ :=
      List.exists_cons_of_ne_nil (Nat.toDigits_ne_nil (n := tally.passed) (b := 10))
    have digit : first.isDigit = true := isDigit_of_mem_toDigits (digits ▸ List.mem_cons_self)
    rw [digits] at same
    obtain rfl : first = '(' := Option.some.inj (congrArg List.head? same)
    exact absurd digit (by decide)
  · intro uncounted
    exact if_pos uncounted

theorem ofLine_binaries_eq_zero_iff (line : List Char) :
    (ofLine line).binaries = 0 ↔ ¬ mark <:+: line := by
  constructor
  · rw [← mark_closed.after?_eq_none_iff]
    intro uncounted
    cases found : after? mark line with
    | none => rfl
    | some rest =>
        have result : result? line = some (before mark rest) := by
          rw [result?, found]
          rfl
        rw [ofLine_of_result? result] at uncounted
        have counted : 0 < limit := by decide
        simp only [total, List.map_cons, List.sum_cons] at uncounted
        omega
  · intro free
    rw [ofLine_of_unmarked free]

theorem total_binaries_eq_zero_iff (tallies : List Tally) :
    (total tallies).binaries = 0 ↔ ∀ tally ∈ tallies, tally.binaries = 0 := by
  have bounded : 0 < limit := by decide
  have none : (total tallies).binaries = 0 ↔ (tallies.map binaries).sum = 0 := by
    simp only [total]
    omega
  rw [none, List.sum_eq_zero_iff_forall_eq_nat, List.forall_mem_map]

theorem ofOutput_binaries_eq_zero_iff (output : List Char) :
    (ofOutput output).binaries = 0 ↔ ∀ line ∈ output.splitOn '\n', ¬ mark <:+: line := by
  rw [ofOutput_eq_total, total_binaries_eq_zero_iff, List.forall_mem_map]
  simp only [ofLine_binaries_eq_zero_iff]

end Tally

/-- The summary of an output made of result lines and others gives the sums of the counts that were
written, and how many result lines there are. It is unavailable for exactly the outputs that have no
mark on any line. -/
theorem summary_sums_result_lines :
    (∀ lines : List OutputLine,
      let results := lines.filterMap OutputLine.result?
      results ≠ [] → results.length < 2 ^ 64 →
        testSummary (Utf8.encode (String.intercalate "\n" (lines.map OutputLine.text))) =
          toString (min (results.map fun line => line.passed.toNat).sum (2 ^ 64 - 1)) ++
            " passed; " ++
            toString (min (results.map fun line => line.failed.toNat).sum (2 ^ 64 - 1)) ++
            " failed across " ++ toString results.length ++ " test binaries") ∧
    ∀ output : String, testSummary (Utf8.encode output) = "(summary not available)" ↔
      ∀ line ∈ output.toList.splitOn '\n', ¬ Tally.mark <:+: line := by
  constructor
  · intro lines results told countable
    have nonempty : lines ≠ [] := by
      rintro rfl
      exact told rfl
    have counted : Tally.ofBytes (Utf8.encode ("\n".intercalate (lines.map OutputLine.text))) =
        Tally.total (results.map ResultLine.tally) := by
      rw [Tally.ofBytes, Utf8.lossy_encode]
      exact OutputLine.ofOutput_intercalate nonempty
    have binaries := ResultLine.total_binaries countable
    have found : (Tally.total (results.map ResultLine.tally)).binaries ≠ 0 := by
      rw [binaries]
      exact fun empty => told (List.length_eq_zero_iff.mp empty)
    rw [testSummary_eq, counted, Tally.summary_of_counted found, binaries]
    simp only [Tally.total, List.map_map]
    rfl
  · intro output
    rw [testSummary_eq, Tally.summary_eq_unavailable_iff, Tally.ofBytes, Utf8.lossy_encode,
      Tally.ofOutput_binaries_eq_zero_iff]

/-- Neither an unfinished mark in front nor a count in the status is taken for one of the line. -/
theorem summary_sums_capped_result_lines :
    let full : ResultLine :=
      ⟨"ok, 7 passed", 18446744073709551615, 1, 2, 0, 4, "0.10",
        by decide, by decide, by decide, by decide⟩
    let small : ResultLine := ⟨"ok", 5, 0, 0, 0, 0, "1.25",
        by decide, by decide, by decide, by decide⟩
    let nothing : PlainText := ⟨"", by decide, by decide⟩
    let lines : List OutputLine := [
      .other ⟨"running 9 tests", by decide, by decide⟩,
      .result ⟨"test result ", by decide, by decide⟩ full,
      .result nothing small, .other nothing]
    lines.filterMap OutputLine.result? ≠ [] ∧
      (lines.filterMap OutputLine.result?).length < 2 ^ 64 ∧
      testSummary (Utf8.encode (String.intercalate "\n" (lines.map OutputLine.text))) =
        "18446744073709551615 passed; 1 failed across 2 test binaries" := by
  intro full small nothing lines
  have told : lines.filterMap OutputLine.result? ≠ [] := List.cons_ne_nil _ _
  have countable : (lines.filterMap OutputLine.result?).length < 2 ^ 64 := by decide
  refine ⟨told, countable, ?_⟩
  rw [summary_sums_result_lines.1 lines told countable]
  decide

end StaticOpus
