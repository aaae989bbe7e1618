/-!
Sequences that steer a terminal. Where text does not go to a terminal they are left out, together
with the control characters that show nothing. A sequence that does not end hides the rest of the
text.
-/

namespace TraceChart

/-- Where a reader of text stands with regard to sequences. -/
inductive Steering where
  | text
  /-- Behind the character that opens a sequence. -/
  | escape
  | escapeMiddle
  /-- In a sequence that ends with a letter. -/
  | parameters
  /-- In a command, which ends with a bell or another sequence. -/
  | command
  | deviceStart
  | deviceParameters
  | deviceMiddle
  /-- In the body of a string for a device. -/
  | body
deriving DecidableEq, Repr

/-- Control characters that are white space. -/
def isLayout (char : Char) : Bool :=
  char = '\t' || char = '\n' || char = '\x0c' || char = '\r'

/-- Whether text shows a character: control characters only where they are white space. -/
def isShown (char : Char) : Bool :=
  isLayout char || decide (0x20 ≤ char.toNat ∧ char.toNat ≠ 0x7F)

/-- Whether a byte of a character, taken by itself, would end a string for a device. -/
def endsBody (char : Char) : Bool :=
  (String.utf8EncodeChar char).contains 0x9C

namespace Steering

def among (low high : Nat) (char : Char) : Bool :=
  decide (low ≤ char.toNat ∧ char.toNat ≤ high)

/-- Where a character leads that neither opens nor cancels a sequence. -/
def advance (state : Steering) (char : Char) : Steering :=
  match state with
  | .text => .text
  | .escape =>
    if char = '[' then .parameters
    else if char = ']' then .command
    else if char = 'P' then .deviceStart
    else if char = 'X' ∨ char = '^' ∨ char = '_' then .body
    else if among 0x20 0x2F char then .escapeMiddle
    else if among 0x30 0x7E char then .text
    else .escape
  | .escapeMiddle => if among 0x30 0x7E char then .text else .escapeMiddle
  | .parameters => if among 0x40 0x7E char then .text else .parameters
  | .command => if char = '\x07' then .text else .command
  | .deviceStart =>
    if among 0x20 0x2F char then .deviceMiddle
    else if among 0x30 0x3F char then .deviceParameters
    else if among 0x40 0x7E char then .body
    else .deviceStart
  | .deviceParameters =>
    if among 0x20 0x2F char then .deviceMiddle
    else if among 0x3C 0x7E char then .body
    else .deviceParameters
  | .deviceMiddle => if among 0x30 0x7E char then .body else .deviceMiddle
  | .body => if endsBody char then .text else .body

/-- Where a character leads. Sequences are opened and cancelled from everywhere. -/
def next (state : Steering) (char : Char) : Steering :=
  if char = '\x1b' then .escape
  else if char = '\x18' ∨ char = '\x1a' then .text
  else state.advance char

/-- Whether a character shows where a reader stands. Short sequences let white space through. -/
def shows (state : Steering) (char : Char) : Bool :=
  match state with
  | .text => isShown char
  | .escape => isLayout char
  | .escapeMiddle => isLayout char
  | .parameters => isLayout char
  | _ => false

/-- What a text shows from a state on. White space in a sequence lets all through up to the next
control character, which takes the sequence up again unless a character beyond ASCII stood before
it. -/
def visible (state : Steering) (through : Bool) : List Char → List Char
  | [] => []
  | char :: chars =>
    if through && isShown char then
      char :: visible (if among 0 0x7F char then state else .text) true chars
    else if state.shows char then char :: visible (state.next char) true chars
    else visible (state.next char) false chars

end Steering

/-- A text without the sequences that steer a terminal. -/
def steady (text : List Char) : List Char :=
  Steering.visible .text false text

end TraceChart
