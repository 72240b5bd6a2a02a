import Mathlib.Algebra.Group.Nat.Defs
import StaticOpus.Proofs.Text.Lossy

/-!
# Plain characters come from plain octets

The lenient reader gives a plain character, one below 0x80, only for the octet of that character:
overlong forms are refused, so octets that are not plain never come to one. Zero is left out, since
it also stands for a number that is no character.
-/

namespace StaticOpus.Text.Utf8

variable {octet : UInt8} {low high : UInt8} {owed bits : Nat} {state : State}

theorem toNat_ofNat_of_valid {number : Nat} (valid : number.isValidChar) :
    (Char.ofNat number).toNat = number := by
  rw [Char.ofNat, dif_pos valid]
  rfl

theorem toNat_ofNat_of_plain (plain : octet < 0x80) :
    (Char.ofNat octet.toNat).toNat = octet.toNat := by
  have small : octet.toNat < 0x80 := UInt8.lt_iff_toNat_lt.mp plain
  exact toNat_ofNat_of_valid (Or.inl (by omega))

/-- The least number that an open character can still come to. -/
def Open.least (pending : Open) : Nat :=
  (pending.bits * 64 + (pending.low.toNat - 0x80)) * 64 ^ pending.owed

/-- What is open does not come to a plain character. -/
def State.IsLong (state : State) : Prop := ∀ pending ∈ state, 0x80 ≤ pending.least

theorem isLong_none : State.IsLong none := nofun

theorem isLong_some {pending : Open} (long : 0x80 ≤ pending.least) :
    State.IsLong (some pending) := by
  rintro _ ⟨⟩
  exact long

theorem readFirst_of_refused
    (refused : 0x80 ≤ octet.toNat ∧ octet.toNat < 0xC2 ∨ 0xF5 ≤ octet.toNat) :
    readFirst octet = ([replacement], none) := by
  simp only [readFirst, UInt8.lt_iff_toNat_lt, ← UInt8.toNat_inj, UInt8.reduceToNat]
  grind

/-- The first octet of a character is plain, or refused, or opens a character that is not plain. -/
theorem readFirst_cases (octet : UInt8) :
    octet < 0x80 ∧ readFirst octet = ([Char.ofNat octet.toNat], none) ∨
      readFirst octet = ([replacement], none) ∨
      ∃ pending, readFirst octet = ([], some pending) ∧ 0x80 ≤ pending.least := by
  by_cases plain : octet < 0x80
  · exact Or.inl ⟨plain, readFirst_of_plain plain⟩
  · simp only [UInt8.lt_iff_toNat_lt, UInt8.reduceToNat] at plain
    refine Or.inr ?_
    by_cases two : 0xC2 ≤ octet.toNat ∧ octet.toNat < 0xE0
    · refine Or.inr ⟨_, readFirst_two two.1 two.2, ?_⟩
      simp only [Open.least, UInt8.reduceToNat]
      omega
    · by_cases three : 0xE0 ≤ octet.toNat ∧ octet.toNat < 0xF0
      · refine Or.inr ⟨_, readFirst_three three.1 three.2, ?_⟩
        simp only [Open.least]
        split <;> simp only [UInt8.reduceToNat] <;> omega
      · by_cases four : 0xF0 ≤ octet.toNat ∧ octet.toNat < 0xF5
        · refine Or.inr ⟨_, readFirst_four four.1 four.2, ?_⟩
          simp only [Open.least]
          split <;> simp only [UInt8.reduceToNat] <;> omega
        · exact Or.inl (readFirst_of_refused (by omega))

theorem read_isLong (octet : UInt8) (long : state.IsLong) : (read octet state).2.IsLong := by
  have first : (readFirst octet).2.IsLong := by
    rcases readFirst_cases octet with ⟨-, read⟩ | read | ⟨pending, read, long⟩
    · rw [read]
      exact isLong_none
    · rw [read]
      exact isLong_none
    · rw [read]
      exact isLong_some long
  rcases state with - | ⟨owed, low, high, bits⟩
  · exact first
  · by_cases accepted : low ≤ octet ∧ octet ≤ high
    · cases owed with
      | zero =>
          rw [read_last accepted]
          exact isLong_none
      | succ owed =>
          rw [read_tail accepted]
          apply isLong_some
          have above : low.toNat ≤ octet.toNat := UInt8.le_iff_toNat_le.mp accepted.1
          have least := long _ rfl
          simp only [Open.least] at least ⊢
          calc
            0x80 ≤ (bits * 64 + (low.toNat - 0x80)) * 64 ^ (owed + 1) := least
            _ ≤ (bits * 64 + (octet.toNat - 0x80)) * 64 ^ (owed + 1) :=
              Nat.mul_le_mul_right _ (by omega)
            _ = ((bits * 64 + (octet.toNat - 0x80)) * 64 + 0) * 64 ^ owed := by
              rw [Nat.pow_succ, Nat.add_zero, Nat.mul_assoc, Nat.mul_comm 64]
    · rw [read_of_refused accepted]
      exact first

/-- A plain character other than zero comes from its own octet. -/
theorem toNat_eq_of_mem_read {char : Char} (plain : char.toNat < 0x80) (nonzero : char.toNat ≠ 0)
    (long : state.IsLong) (mem : char ∈ (read octet state).1) : octet.toNat = char.toNat := by
  have not_replacement : char ≠ replacement := by
    rintro rfl
    exact absurd plain (by decide)
  have first (mem : char ∈ (readFirst octet).1) : octet.toNat = char.toNat := by
    rcases readFirst_cases octet with ⟨single, read⟩ | read | ⟨pending, read, -⟩
    · rw [read, List.mem_singleton] at mem
      rw [mem, toNat_ofNat_of_plain single]
    · rw [read, List.mem_singleton] at mem
      exact absurd mem not_replacement
    · rw [read] at mem
      cases mem
  rcases state with - | ⟨owed, low, high, bits⟩
  · exact first mem
  · by_cases accepted : low ≤ octet ∧ octet ≤ high
    · cases owed with
      | zero =>
          have least := long _ rfl
          simp only [Open.least, Nat.pow_zero, Nat.mul_one] at least
          have above : low.toNat ≤ octet.toNat := UInt8.le_iff_toNat_le.mp accepted.1
          rw [read_last accepted, List.mem_singleton] at mem
          by_cases valid : (bits * 64 + (octet.toNat - 0x80)).isValidChar
          · rw [mem, toNat_ofNat_of_valid valid] at plain
            omega
          · rw [mem, Char.ofNat, dif_neg valid] at nonzero
            exact absurd rfl nonzero
      | succ owed =>
          rw [read_tail accepted] at mem
          cases mem
    · rw [read_of_refused accepted, List.mem_cons] at mem
      exact first (mem.resolve_left not_replacement)

theorem mem_of_mem_lossyFrom {char : Char} (plain : char.toNat < 0x80) (nonzero : char.toNat ≠ 0)
    (long : state.IsLong) {bytes : List UInt8} (mem : char ∈ lossyFrom state bytes) :
    ∃ octet ∈ bytes, octet.toNat = char.toNat := by
  induction bytes generalizing state with
  | nil =>
      cases state with
      | none => cases mem
      | some pending =>
          obtain rfl := List.mem_singleton.mp mem
          exact absurd plain (by decide)
  | cons head rest ih =>
      rw [lossyFrom_cons, List.mem_append] at mem
      rcases mem with here | later
      · exact ⟨head, List.mem_cons_self, toNat_eq_of_mem_read plain nonzero long here⟩
      · obtain ⟨octet, mem, same⟩ := ih (read_isLong head long) later
        exact ⟨octet, List.mem_cons_of_mem _ mem, same⟩

/-- A plain character other than zero is read from any bytes only where its own octet stands. -/
theorem mem_of_plain_mem_lossy (plain : octet < 0x80) (nonzero : octet ≠ 0) {bytes : List UInt8}
    (mem : Char.ofNat octet.toNat ∈ lossy bytes) : octet ∈ bytes := by
  have number := toNat_ofNat_of_plain plain
  obtain ⟨found, mem, same⟩ := mem_of_mem_lossyFrom (by rw [number]; exact plain)
    (by rw [number]; exact fun zero => nonzero (UInt8.toNat_inj.mp zero)) isLong_none mem
  rw [number, UInt8.toNat_inj] at same
  exact same ▸ mem

end StaticOpus.Text.Utf8
