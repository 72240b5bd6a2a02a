import Mathlib.Algebra.GroupWithZero.Nat
import StaticOpus.Proofs.Text.Blank
import StaticOpus.Proofs.Text.Lossy
import StaticOpus.Proofs.Text.Mark
import StaticOpus.TestSummary

/-!
# Adding up what lines count

An output counts what its lines count together, each count up to the limit. So two outputs joined by
a line break count the sum of what they count on their own, whatever bytes they are made of and
wherever the first one ends. The order of the lines does not matter, nor do lines that count
nothing, nor a carriage return before each line break.
-/

namespace StaticOpus

open Text

namespace Tally

/-! ## Sums of tallies -/

variable {start tally : Tally}

/-- Adding count after count stops at the limit, and nowhere before it. -/
theorem foldl_plus (counts : List Nat) {start : Nat} (within : start ≤ limit) :
    counts.foldl plus start = min (start + counts.sum) limit := by
  induction counts generalizing start with
  | nil => exact (Nat.min_eq_left within).symm
  | cons count counts ih =>
      calc
        counts.foldl plus (plus start count) = min (plus start count + counts.sum) limit :=
          ih (Nat.min_le_right _ _)
        _ = min (start + (count :: counts).sum) limit := by
          rw [plus, List.sum_cons]
          omega

/-- No count of the tally is past the limit. -/
structure IsWithin (tally : Tally) : Prop where
  passed : tally.passed ≤ limit
  failed : tally.failed ≤ limit
  binaries : tally.binaries ≤ limit

/-- What some tallies count together. -/
def total (tallies : List Tally) : Tally where
  passed := min (tallies.map passed).sum limit
  failed := min (tallies.map failed).sum limit
  binaries := min (tallies.map binaries).sum limit

theorem total_isWithin (tallies : List Tally) : (total tallies).IsWithin :=
  ⟨Nat.min_le_right _ _, Nat.min_le_right _ _, Nat.min_le_right _ _⟩

theorem total_singleton (within : tally.IsWithin) : total [tally] = tally := by
  simp only [total, List.map_cons, List.map_nil, List.sum_singleton, Nat.min_eq_left within.passed,
    Nat.min_eq_left within.failed, Nat.min_eq_left within.binaries]

theorem total_append (front rest : List Tally) :
    total (front ++ rest) = (total front).add (total rest) := by
  simp only [total, add, plus, List.map_append, List.sum_append, mk.injEq]
  omega

theorem total_perm {tallies others : List Tally} (same : tallies.Perm others) :
    total tallies = total others := by
  rw [total, total, (same.map passed).sum_nat, (same.map failed).sum_nat,
    (same.map binaries).sum_nat]

/-- A tally of nothing adds nothing. -/
theorem total_cons_empty (tallies : List Tally) : total ({} :: tallies) = total tallies := by
  simp only [total, List.map_cons, List.sum_cons, Nat.zero_add]

/-- Tallies added one after another come to their total. -/
theorem foldl_add (tallies : List Tally) (within : start.IsWithin) :
    tallies.foldl add start = total (start :: tallies) := by
  have field (count : Tally → Nat) (added : ∀ a b, count (a.add b) = plus (count a) (count b))
      (small : count start ≤ limit) :
      count (tallies.foldl add start) = min ((start :: tallies).map count).sum limit := by
    calc
      count (tallies.foldl add start) = (tallies.map count).foldl plus (count start) := by
        rw [List.foldl_map]
        exact (List.foldl_hom count fun a b => (added a b).symm).symm
      _ = min ((start :: tallies).map count).sum limit := foldl_plus _ small
  rw [total, ← field passed (fun _ _ => rfl) within.passed,
    ← field failed (fun _ _ => rfl) within.failed,
    ← field binaries (fun _ _ => rfl) within.binaries]

/-! ## The lines of an output -/

theorem mark_closed : ClosedBy ':' mark := ⟨"test result".toList, by decide, by decide⟩

theorem ofLine_of_result? {line result : List Char} (found : result? line = some result) :
    ofLine line = total ({ binaries := 1 } :: (result.splitOn ';').map ofPart) := by
  rw [ofLine, found]
  exact foldl_add _ ⟨Nat.zero_le _, Nat.zero_le _, by decide⟩

theorem ofLine_of_unmarked {line : List Char} (free : ¬ mark <:+: line) : ofLine line = {} := by
  rw [ofLine, result?, after?_of_unmarked free]
  rfl

/-- What an output of any bytes counts. -/
def ofBytes (bytes : List UInt8) : Tally := ofOutput (Utf8.lossy bytes)

theorem ofOutput_eq_total (output : List Char) :
    ofOutput output = total ((output.splitOn '\n').map ofLine) :=
  (foldl_add _ ⟨Nat.zero_le _, Nat.zero_le _, Nat.zero_le _⟩).trans (total_cons_empty _)

theorem ofOutput_append_newline (first second : List Char) :
    ofOutput (first ++ '\n' :: second) = (ofOutput first).add (ofOutput second) := by
  simp only [ofOutput_eq_total, List.splitOn_append_cons_self, List.map_append, total_append]

/-- A line break ends a character that is still open, and is not swallowed by it. -/
theorem ofBytes_append_newline (first second : List UInt8) :
    ofBytes (first ++ 10 :: second) = (ofBytes first).add (ofBytes second) := by
  have plain : (10 : UInt8) < 0x80 := by decide
  rw [ofBytes, Utf8.lossy_append_plain plain]
  exact ofOutput_append_newline _ _

theorem ofBytes_isWithin (bytes : List UInt8) : (ofBytes bytes).IsWithin := by
  rw [ofBytes, ofOutput_eq_total]
  exact total_isWithin _

/-- Joined pieces count what they count on their own. -/
theorem ofBytes_intercalate (pieces : List (List UInt8)) :
    ofBytes ([10].intercalate pieces) = total (pieces.map ofBytes) := by
  induction pieces with
  | nil => rfl
  | cons first pieces ih =>
      cases pieces with
      | nil =>
          rw [List.intercalate_singleton]
          exact (total_singleton (ofBytes_isWithin first)).symm
      | cons second pieces =>
          calc
            ofBytes ([10].intercalate (first :: second :: pieces)) =
                (ofBytes first).add (ofBytes ([10].intercalate (second :: pieces))) := by
              rw [List.intercalate_cons_cons, List.append_assoc]
              exact ofBytes_append_newline _ _
            _ = (total [ofBytes first]).add (total ((second :: pieces).map ofBytes)) := by
              rw [ih, total_singleton (ofBytes_isWithin first)]
            _ = total ((first :: second :: pieces).map ofBytes) := (total_append _ _).symm

/-! ## Carriage returns -/

/-- What only ends the last piece of a text is lost on a view of the pieces that does not look at
their ends. -/
theorem map_splitOn_append_tail {α : Type} {view : List Char → α} {separator : Char}
    {tail : List Char} (blind : ∀ piece, view (piece ++ tail) = view piece)
    (foreign : separator ∉ tail) (text : List Char) :
    ((text ++ tail).splitOn separator).map view = (text.splitOn separator).map view := by
  have unsplit {piece : List Char} (free : separator ∉ piece) :
      ((piece ++ tail).splitOn separator).map view = (piece.splitOn separator).map view := by
    have whole : separator ∉ piece ++ tail := fun mem => (List.mem_append.mp mem).elim free foreign
    rw [List.splitOn_eq_singleton whole, List.splitOn_eq_singleton free, List.map_singleton,
      List.map_singleton, blind]
  by_cases splits : separator ∈ text
  · -- cut off the last piece
    obtain ⟨last, front, reversed, free⟩ := List.eq_append_cons_of_mem (List.mem_reverse.mpr splits)
    obtain rfl : text = front.reverse ++ separator :: last.reverse := by
      simpa using congrArg List.reverse reversed
    have alone : separator ∉ last.reverse := fun mem => free (List.mem_reverse.mp mem)
    rw [List.append_assoc, List.cons_append, List.splitOn_append_cons_self,
      List.splitOn_append_cons_self, List.map_append, List.map_append, unsplit alone]
  · exact unsplit splits

theorem ofPart_append_return (part : List Char) : ofPart (part ++ ['\r']) = ofPart part := by
  have blank : isBlank '\r' = true := by decide
  rw [ofPart, words_append_singleton blank]
  rfl

/-- What ends a line without a colon can only end its result. -/
theorem result?_append_tail {tail : List Char} (foreign : ':' ∉ tail) (line : List Char) :
    result? (line ++ tail) = result? line ∨
      ∃ result, result? line = some result ∧ result? (line ++ tail) = some (result ++ tail) := by
  have moved : result? (line ++ tail) =
      (after? mark line).map fun rest => before mark (rest ++ tail) := by
    rw [result?, mark_closed.after?_append_tail foreign, Option.map_map]
    rfl
  rw [moved, result?]
  cases after? mark line with
  | none => exact Or.inl rfl
  | some rest =>
      have ends : before mark (rest ++ tail) = before mark rest ∨
          before mark (rest ++ tail) = before mark rest ++ tail :=
        mark_closed.before_append_tail foreign
      rcases ends with same | longer
      · exact Or.inl (congrArg some same)
      · exact Or.inr ⟨before mark rest, rfl, congrArg some longer⟩

theorem ofLine_append_return (line : List Char) : ofLine (line ++ ['\r']) = ofLine line := by
  rcases result?_append_tail (by decide : ':' ∉ ['\r']) line with same | ⟨result, found, longer⟩
  · rw [ofLine, same, ofLine]
  · rw [ofLine_of_result? longer, ofLine_of_result? found,
      map_splitOn_append_tail ofPart_append_return (by decide)]

theorem ofOutput_append_return (output : List Char) :
    ofOutput (output ++ ['\r']) = ofOutput output := by
  rw [ofOutput_eq_total, ofOutput_eq_total,
    map_splitOn_append_tail ofLine_append_return (by decide)]

theorem ofBytes_append_return (bytes : List UInt8) : ofBytes (bytes ++ [13]) = ofBytes bytes := by
  have plain : (13 : UInt8) < 0x80 := by decide
  rw [ofBytes, Utf8.lossy_append_plain plain]
  exact ofOutput_append_return _

/-- The bytes with a carriage return put before each line break. -/
def withReturns (bytes : List UInt8) : List UInt8 :=
  bytes.flatMap fun byte => if byte = 10 then [13, 10] else [byte]

theorem ofBytes_append_withReturns (front bytes : List UInt8) :
    ofBytes (front ++ withReturns bytes) = ofBytes (front ++ bytes) := by
  induction bytes generalizing front with
  | nil => rfl
  | cons byte bytes ih =>
      by_cases newline : byte = 10
      · subst newline
        calc
          ofBytes (front ++ withReturns (10 :: bytes)) =
              ofBytes ((front ++ [13]) ++ 10 :: withReturns bytes) := by
            rw [List.append_assoc]
            rfl
          _ = (ofBytes (front ++ [13])).add (ofBytes (withReturns bytes)) :=
            ofBytes_append_newline _ _
          _ = (ofBytes front).add (ofBytes bytes) := by
            rw [ofBytes_append_return]
            exact congrArg _ (ih [])
          _ = ofBytes (front ++ 10 :: bytes) := (ofBytes_append_newline _ _).symm
      · have kept : withReturns (byte :: bytes) = [byte] ++ withReturns bytes := by
          rw [withReturns, List.flatMap_cons, if_neg newline]
          rfl
        rw [kept, ← List.append_assoc, ih, List.append_assoc]
        rfl

end Tally

theorem testSummary_eq (bytes : List UInt8) :
    testSummary bytes = (Tally.ofBytes bytes).summary := rfl

/-- Outputs joined by a line break count the sum of what they count. Their order does not matter to
the summary, nor do pieces that count nothing, nor carriage returns before the line breaks. -/
theorem summary_adds_up_over_pieces :
    (∀ first second : List UInt8,
      Tally.ofBytes (first ++ 10 :: second) = {
        passed := min ((Tally.ofBytes first).passed + (Tally.ofBytes second).passed) (2 ^ 64 - 1)
        failed := min ((Tally.ofBytes first).failed + (Tally.ofBytes second).failed) (2 ^ 64 - 1)
        binaries :=
          min ((Tally.ofBytes first).binaries + (Tally.ofBytes second).binaries) (2 ^ 64 - 1) }) ∧
    (∀ pieces others : List (List UInt8), pieces.Perm others →
      testSummary ([10].intercalate pieces) = testSummary ([10].intercalate others)) ∧
    (∀ (earlier later : List (List UInt8)) (piece : List UInt8), Tally.ofBytes piece = {} →
      testSummary ([10].intercalate (earlier ++ piece :: later)) =
        testSummary ([10].intercalate (earlier ++ later))) ∧
    ∀ bytes : List UInt8, testSummary (Tally.withReturns bytes) = testSummary bytes := by
  refine ⟨Tally.ofBytes_append_newline, ?_, ?_, ?_⟩
  · intro pieces others same
    rw [testSummary_eq, testSummary_eq, Tally.ofBytes_intercalate, Tally.ofBytes_intercalate,
      Tally.total_perm (same.map _)]
  · intro earlier later piece nothing
    rw [testSummary_eq, testSummary_eq, Tally.ofBytes_intercalate, Tally.ofBytes_intercalate,
      List.map_append, List.map_append, List.map_cons, nothing, Tally.total_append,
      Tally.total_append, Tally.total_cons_empty]
  · intro bytes
    exact congrArg Tally.summary (Tally.ofBytes_append_withReturns [] bytes)

/-- A piece that ends inside a character does not spoil the result line after it. -/
theorem summary_adds_up_over_unfinished_piece :
    let result := Utf8.encode "test result: ok. 3 passed; 1 failed"
    let unfinished : List UInt8 := [0xE2, 0x82]
    [unfinished, result].Perm [result, unfinished] ∧ Tally.ofBytes unfinished = {} ∧
      testSummary ([10].intercalate [unfinished, result]) =
        testSummary ([10].intercalate [result, unfinished]) ∧
      testSummary ([10].intercalate [unfinished, result]) = testSummary result := by
  intro result unfinished
  have swapped : [unfinished, result].Perm [result, unfinished] := List.Perm.swap _ _ []
  have nothing : Tally.ofBytes unfinished = {} := by decide
  obtain ⟨-, reordered, inserted, -⟩ := summary_adds_up_over_pieces
  exact ⟨swapped, nothing, reordered _ _ swapped, inserted [] [result] unfinished nothing⟩

end StaticOpus
