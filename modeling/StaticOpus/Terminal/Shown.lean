/-!
# What a terminal would show

A text may hold control characters and the sequences by which a terminal is given orders. Only what
a terminal would show of it is kept: printed characters and blanks.

## Implementation notes

The reader holds the kind of order that it is inside. A blank inside an order is shown, and from
there on characters are shown until a control character comes; only then is the order, if no other
has begun, taken up where it was left.
-/

namespace StaticOpus.Terminal

/-- The kind of order that a reader is inside. -/
inductive Order where
  /-- None. -/
  | ground
  /-- An order that has just begun. -/
  | escape
  /-- An order whose last character is still to come. -/
  | escapeTail
  /-- A control sequence. -/
  | control
  /-- A device string, before anything else in it. -/
  | deviceEntry
  /-- A device string, in its numbers. -/
  | deviceNumbers
  /-- A device string, after its numbers. -/
  | deviceTail
  /-- A string that is passed over up to its terminator. -/
  | string
  /-- A system string, which a bell ends. -/
  | system
  deriving DecidableEq

/-- Whether a character is a blank that a terminal shows. -/
def isShownBlank (c : Char) : Bool :=
  c = '\t' ∨ c = '\n' ∨ c = '\x0c' ∨ c = '\r' ∨ c = ' '

/-- Whether a character outside any order is shown: it is a shown blank or no control character. -/
def isShown (c : Char) : Bool :=
  isShownBlank c ∨ (0x20 ≤ c.toNat ∧ c.toNat ≠ 0x7F)

/-- Whether the octets of a character beyond ASCII hold the terminator of a string. -/
def holdsTerminator (c : Char) : Bool := (String.utf8EncodeChar c).contains 0x9C

/-- What an order becomes on a character that is neither a control character nor beyond ASCII. -/
def Order.onPrinted (order : Order) (c : Char) : Order :=
  let code := c.toNat
  match order with
  | .ground => .ground
  | .escape =>
    if code < 0x30 then .escapeTail
    else if c = '[' then .control
    else if c = ']' then .system
    else if c = 'P' then .deviceEntry
    else if c = 'X' ∨ c = '^' ∨ c = '_' then .string
    else .ground
  | .escapeTail => if code < 0x30 then .escapeTail else .ground
  | .control => if code < 0x40 then .control else .ground
  | .deviceEntry =>
    if code < 0x30 then .deviceTail
    else if code < 0x40 then .deviceNumbers
    else .string
  | .deviceNumbers =>
    if code < 0x30 then .deviceTail
    else if code < 0x3C then .deviceNumbers
    else .string
  | .deviceTail => if code < 0x30 then .deviceTail else .string
  | .string => .string
  | .system => .system

/-- Whether a blank inside an order is shown: inside a string it is not. -/
def Order.showsBlanks : Order → Bool
  | .ground | .escape | .escapeTail | .control => true
  | _ => false

/-- What an order becomes on a character, and whether the character is shown. -/
def Order.next (order : Order) (c : Char) : Order × Bool :=
  let code := c.toNat
  if c = '\x18' ∨ c = '\x1a' then (.ground, false)
  else if c = '\x1b' then (.escape, false)
  else if code < 0x20 then
    (if order = .system ∧ c = '\x07' then .ground else order,
      order.showsBlanks && isShownBlank c)
  else if code = 0x7F then (order, false)
  else if code < 0x80 then (order.onPrinted c, order = .ground)
  else
    (if order = .string ∧ holdsTerminator c then .ground else order, order = .ground)

/-- The shown characters of a text, read inside an order; `showing` tells that the character before
was shown. -/
def shownFrom (order : Order) (showing : Bool) : List Char → List Char
  | [] => []
  | c :: rest =>
    if showing ∧ isShown c then
      c :: shownFrom (if c.toNat < 0x80 then order else .ground) true rest
    else
      match order.next c with
      | (after, true) => c :: shownFrom after true rest
      | (after, false) => shownFrom after false rest

/-- What a terminal would show of a text. -/
def shown (text : String) : String := String.ofList (shownFrom .ground false text.toList)

end StaticOpus.Terminal
