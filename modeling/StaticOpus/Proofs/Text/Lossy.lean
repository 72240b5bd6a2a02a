import StaticOpus.Text.Utf8

/-!
# What the lenient reader makes of bytes

A plain octet, one below 0x80, is read as its own character wherever it stands: it never belongs to
a longer character, so an open one ends before it and what follows is read afresh. The bytes of a
text are read as that text.
-/

namespace StaticOpus.Text.Utf8

variable {octet : UInt8} {low high : UInt8} {owed bits : Nat} {state : State}

/-- Only octets that are not plain go on with the open character. -/
def State.IsSound (state : State) : Prop := ∀ pending ∈ state, 0x80 ≤ pending.low

theorem isSound_none : State.IsSound none := nofun

theorem isSound_some (tail : 0x80 ≤ low) : State.IsSound (some ⟨owed, low, high, bits⟩) := by
  rintro _ ⟨⟩
  exact tail

theorem lossyFrom_cons (state : State) (octet : UInt8) (rest : List UInt8) :
    lossyFrom state (octet :: rest) =
      (read octet state).1 ++ lossyFrom (read octet state).2 rest := by
  cases state <;> rfl

theorem read_last (accepted : low ≤ octet ∧ octet ≤ high) :
    read octet (some ⟨0, low, high, bits⟩) =
      ([Char.ofNat (bits * 64 + (octet.toNat - 0x80))], none) := by
  rw [read, if_pos accepted]

theorem read_tail (accepted : low ≤ octet ∧ octet ≤ high) :
    read octet (some ⟨owed + 1, low, high, bits⟩) =
      ([], some ⟨owed, 0x80, 0xBF, bits * 64 + (octet.toNat - 0x80)⟩) := by
  rw [read, if_pos accepted]

theorem read_of_refused (refused : ¬ (low ≤ octet ∧ octet ≤ high)) :
    read octet (some ⟨owed, low, high, bits⟩) =
      (replacement :: (readFirst octet).1, (readFirst octet).2) := by
  rw [read, if_neg refused]

theorem readFirst_isSound (octet : UInt8) : (readFirst octet).2.IsSound := by
  unfold readFirst
  repeat' split
  all_goals first
    | exact isSound_none
    | exact isSound_some (UInt8.le_iff_toNat_le.mpr (by decide))

theorem read_isSound (octet : UInt8) (state : State) : (read octet state).2.IsSound := by
  rcases state with - | ⟨owed, low, high, bits⟩
  · exact readFirst_isSound octet
  · by_cases accepted : low ≤ octet ∧ octet ≤ high
    · cases owed with
      | zero =>
          rw [read_last accepted]
          exact isSound_none
      | succ owed =>
          rw [read_tail accepted]
          exact isSound_some (UInt8.le_refl _)
    · rw [read_of_refused accepted]
      exact readFirst_isSound octet

section Plain

variable (plain : octet < 0x80)

include plain

theorem readFirst_of_plain : readFirst octet = ([Char.ofNat octet.toNat], none) := by
  rw [readFirst, if_pos plain]

/-- A plain octet ends what is open before it and stands for itself. -/
theorem lossyFrom_plain_cons (sound : state.IsSound) (rest : List UInt8) :
    lossyFrom state (octet :: rest) =
      lossyFrom state [] ++ Char.ofNat octet.toNat :: lossy rest := by
  rw [lossyFrom_cons]
  rcases state with - | ⟨owed, low, high, bits⟩
  · rw [read, readFirst_of_plain plain]
    rfl
  · have refused : ¬ (low ≤ octet ∧ octet ≤ high) := fun accepted =>
      UInt8.not_lt.mpr (UInt8.le_trans (sound _ rfl) accepted.1) plain
    rw [read_of_refused refused, readFirst_of_plain plain]
    rfl

theorem lossyFrom_append_plain (sound : state.IsSound) (first rest : List UInt8) :
    lossyFrom state (first ++ octet :: rest) =
      lossyFrom state first ++ Char.ofNat octet.toNat :: lossy rest := by
  induction first generalizing state with
  | nil => exact lossyFrom_plain_cons plain sound rest
  | cons head first ih =>
      rw [List.cons_append, lossyFrom_cons, lossyFrom_cons, ih (read_isSound head state),
        List.append_assoc]

/-- Bytes can be read in two parts at any plain octet, even if the first part ends inside a
character. -/
theorem lossy_append_plain (first rest : List UInt8) :
    lossy (first ++ octet :: rest) = lossy first ++ Char.ofNat octet.toNat :: lossy rest :=
  lossyFrom_append_plain plain isSound_none first rest

end Plain

section Encoded

variable {value : Nat} (rest : List UInt8)

theorem lossy_opening (opens : readFirst octet = ([], state)) :
    lossy (octet :: rest) = lossyFrom state rest := by
  rw [lossy, lossyFrom_cons, read, opens, List.nil_append]

theorem lossyFrom_last (accepted : low ≤ octet ∧ octet ≤ high) :
    lossyFrom (some ⟨0, low, high, bits⟩) (octet :: rest) =
      Char.ofNat (bits * 64 + (octet.toNat - 0x80)) :: lossy rest := by
  rw [lossyFrom_cons, read_last accepted]
  rfl

theorem lossyFrom_tail (accepted : low ≤ octet ∧ octet ≤ high) :
    lossyFrom (some ⟨owed + 1, low, high, bits⟩) (octet :: rest) =
      lossyFrom (some ⟨owed, 0x80, 0xBF, bits * 64 + (octet.toNat - 0x80)⟩) rest := by
  rw [lossyFrom_cons, read_tail accepted, List.nil_append]

theorem readFirst_two (least : 0xC2 ≤ octet.toNat) (most : octet.toNat < 0xE0) :
    readFirst octet = ([], some ⟨0, 0x80, 0xBF, octet.toNat - 0xC0⟩) := by
  simp only [readFirst, UInt8.lt_iff_toNat_lt, UInt8.reduceToNat]
  rw [if_neg (by omega), if_neg (by omega), if_pos most]

theorem readFirst_three (least : 0xE0 ≤ octet.toNat) (most : octet.toNat < 0xF0) :
    readFirst octet =
      ([], some ⟨1, if octet.toNat = 0xE0 then 0xA0 else 0x80,
        if octet.toNat = 0xED then 0x9F else 0xBF, octet.toNat - 0xE0⟩) := by
  simp only [readFirst, UInt8.lt_iff_toNat_lt, ← UInt8.toNat_inj, UInt8.reduceToNat]
  grind

theorem readFirst_four (least : 0xF0 ≤ octet.toNat) (most : octet.toNat < 0xF5) :
    readFirst octet =
      ([], some ⟨2, if octet.toNat = 0xF0 then 0x90 else 0x80,
        if octet.toNat = 0xF4 then 0x8F else 0xBF, octet.toNat - 0xF0⟩) := by
  simp only [readFirst, UInt8.lt_iff_toNat_lt, ← UInt8.toNat_inj, UInt8.reduceToNat]
  grind

/-- The octet after the first that holds six bits of a value. -/
theorem toNat_tail (bits : Nat) : (UInt8.ofNat (bits % 64 + 128)).toNat = bits % 64 + 0x80 := by
  rw [UInt8.toNat_ofNat']
  omega

theorem tail_accepted (bits : Nat) :
    0x80 ≤ UInt8.ofNat (bits % 64 + 128) ∧ UInt8.ofNat (bits % 64 + 128) ≤ 0xBF := by
  simp only [UInt8.le_iff_toNat_le, toNat_tail, UInt8.reduceToNat]
  omega

theorem lossy_two (least : 0x80 ≤ value) (most : value < 0x800) :
    lossy (UInt8.ofNat (value / 64 % 32 + 192) :: UInt8.ofNat (value % 64 + 128) :: rest) =
      Char.ofNat value :: lossy rest := by
  have first : (UInt8.ofNat (value / 64 % 32 + 192)).toNat = value / 64 + 0xC0 := by
    rw [UInt8.toNat_ofNat']
    omega
  have opened : readFirst (UInt8.ofNat (value / 64 % 32 + 192)) = _ :=
    readFirst_two (by omega) (by omega)
  have whole : (value / 64 + 0xC0 - 0xC0) * 64 + (value % 64 + 0x80 - 0x80) = value := by omega
  rw [lossy_opening _ opened, lossyFrom_last _ (tail_accepted value), first, toNat_tail, whole]

theorem lossy_three (least : 0x800 ≤ value) (most : value < 0x10000)
    (scalar : value < 0xD800 ∨ 0xDFFF < value) :
    lossy (UInt8.ofNat (value / 4096 % 16 + 224) :: UInt8.ofNat (value / 64 % 64 + 128) ::
        UInt8.ofNat (value % 64 + 128) :: rest) =
      Char.ofNat value :: lossy rest := by
  have first : (UInt8.ofNat (value / 4096 % 16 + 224)).toNat = value / 4096 + 0xE0 := by
    rw [UInt8.toNat_ofNat']
    omega
  have opened : readFirst (UInt8.ofNat (value / 4096 % 16 + 224)) = _ :=
    readFirst_three (by omega) (by omega)
  have whole : ((value / 4096 + 0xE0 - 0xE0) * 64 + (value / 64 % 64 + 0x80 - 0x80)) * 64 +
      (value % 64 + 0x80 - 0x80) = value := by omega
  -- neither overlong nor a surrogate
  have accepted : (if value / 4096 + 0xE0 = 0xE0 then (0xA0 : UInt8) else 0x80) ≤
        UInt8.ofNat (value / 64 % 64 + 128) ∧
      UInt8.ofNat (value / 64 % 64 + 128) ≤ if value / 4096 + 0xE0 = 0xED then 0x9F else 0xBF := by
    constructor <;> split <;> rw [UInt8.le_iff_toNat_le, toNat_tail] <;>
      simp only [UInt8.reduceToNat] <;> omega
  rw [first] at opened
  rw [lossy_opening _ opened, lossyFrom_tail _ accepted, lossyFrom_last _ (tail_accepted value),
    toNat_tail, toNat_tail, whole]

theorem lossy_four (least : 0x10000 ≤ value) (most : value < 0x110000) :
    lossy (UInt8.ofNat (value / 262144 % 8 + 240) :: UInt8.ofNat (value / 4096 % 64 + 128) ::
        UInt8.ofNat (value / 64 % 64 + 128) :: UInt8.ofNat (value % 64 + 128) :: rest) =
      Char.ofNat value :: lossy rest := by
  have first : (UInt8.ofNat (value / 262144 % 8 + 240)).toNat = value / 262144 + 0xF0 := by
    rw [UInt8.toNat_ofNat']
    omega
  have opened : readFirst (UInt8.ofNat (value / 262144 % 8 + 240)) = _ :=
    readFirst_four (by omega) (by omega)
  have whole : (((value / 262144 + 0xF0 - 0xF0) * 64 + (value / 4096 % 64 + 0x80 - 0x80)) * 64 +
      (value / 64 % 64 + 0x80 - 0x80)) * 64 + (value % 64 + 0x80 - 0x80) = value := by omega
  -- neither overlong nor past the last code point
  have accepted : (if value / 262144 + 0xF0 = 0xF0 then (0x90 : UInt8) else 0x80) ≤
        UInt8.ofNat (value / 4096 % 64 + 128) ∧
      UInt8.ofNat (value / 4096 % 64 + 128) ≤
        if value / 262144 + 0xF0 = 0xF4 then 0x8F else 0xBF := by
    constructor <;> split <;> rw [UInt8.le_iff_toNat_le, toNat_tail] <;>
      simp only [UInt8.reduceToNat] <;> omega
  rw [first] at opened
  rw [lossy_opening _ opened, lossyFrom_tail _ accepted,
    lossyFrom_tail _ (tail_accepted (value / 64)), lossyFrom_last _ (tail_accepted value),
    toNat_tail, toNat_tail, toNat_tail, whole]

/-- A character is read back from its bytes, whatever follows them. -/
theorem lossy_utf8EncodeChar_append (char : Char) :
    lossy (String.utf8EncodeChar char ++ rest) = char :: lossy rest := by
  have restored : Char.ofNat char.val.toNat = char := Char.ofNat_toNat char
  have scalar : char.val.toNat < 0xD800 ∨ 0xDFFF < char.val.toNat ∧ char.val.toNat < 0x110000 :=
    char.valid
  unfold String.utf8EncodeChar
  generalize char.val.toNat = value at restored scalar ⊢
  subst restored
  by_cases one : value ≤ 127
  · have alone : (UInt8.ofNat value).toNat = value := by
      rw [UInt8.toNat_ofNat']
      omega
    have plain : UInt8.ofNat value < 0x80 := by
      rw [UInt8.lt_iff_toNat_lt, alone]
      exact Nat.lt_succ_of_le one
    simp only [if_pos one]
    have read := lossy_append_plain plain [] rest
    rw [alone] at read
    exact read
  by_cases two : value ≤ 2047
  · simp only [if_neg one, if_pos two]
    exact lossy_two rest (by omega) (by omega)
  by_cases three : value ≤ 65535
  · simp only [if_neg one, if_neg two, if_pos three]
    exact lossy_three rest (by omega) (by omega) (by omega)
  · simp only [if_neg one, if_neg two, if_neg three]
    exact lossy_four rest (by omega) (by omega)

theorem encode_eq_flatMap (text : String) :
    encode text = text.toList.flatMap String.utf8EncodeChar := by
  rw [encode, ← String.utf8Encode_toList, List.utf8Encode, List.data_toByteArray]

/-- Lenient reading undoes writing. -/
theorem lossy_encode (text : String) : lossy (encode text) = text.toList := by
  rw [encode_eq_flatMap]
  induction text.toList with
  | nil => rfl
  | cons char chars ih => rw [List.flatMap_cons, lossy_utf8EncodeChar_append, ih]

end Encoded

/-- A plain octet stands in the bytes of a text only for its own character. -/
theorem mem_of_plain_mem_encode (plain : octet < 0x80) {text : String}
    (mem : octet ∈ encode text) : Char.ofNat octet.toNat ∈ text.toList := by
  obtain ⟨first, rest, cut⟩ := List.append_of_mem mem
  have read := lossy_append_plain plain first rest
  rw [← cut, lossy_encode] at read
  rw [read]
  exact List.mem_append_right _ List.mem_cons_self

end StaticOpus.Text.Utf8
