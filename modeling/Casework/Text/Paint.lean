/-!
# Text in the styles of a terminal

A terminal does not show the sequences that begin with an escape character; some of them change
the style of what follows.

* `Paint.styled`, `Paint.layered` : a text in a style;
* `Paint.shown` : the characters of a text that a terminal shows;
* `Paint.plain` : a text without its styles, and without everything else that is not shown.

What is shown is found by following the text as a terminal does: a sequence goes on until a
character that ends one of its kind.
-/

namespace Casework
namespace Paint

/-! ## Painting -/

def opening (codes : String) : String := "\x1b[" ++ codes ++ "m"

def reset : String := "\x1b[0m"

/-- The text with the style begun again behind everything that ends it. -/
def renewed (codes : List Char) : List Char → List Char
  | '\x1b' :: '[' :: '0' :: 'm' :: rest =>
      '\x1b' :: '[' :: '0' :: 'm' :: (codes ++ renewed codes rest)
  | c :: rest => c :: renewed codes rest
  | [] => []

/-- A text in a style, which goes on behind the styles inside it. -/
def styled (codes text : String) : String :=
  opening codes ++ String.ofList (renewed (opening codes).toList text.toList) ++ reset

/-- A text in several styles at once, each begun for itself. -/
def layered (codes : List String) (text : String) : String :=
  String.join (codes.map opening) ++ text ++ reset

/-! ## What is shown -/

/-- Where a terminal stands in a text. -/
inductive Stage where
  /-- Outside of sequences. -/
  | text
  /-- Behind an escape character. -/
  | escape
  /-- Behind an escape character and marks. -/
  | marks
  /-- In a control sequence, behind its bracket. -/
  | control
  /-- In the head of a message to the device. -/
  | device
  /-- In a message that nothing but an escape character ends, or a byte `9c`. -/
  | message
  /-- In a command to the system of windows, which a bell ends. -/
  | command
deriving DecidableEq, Repr

namespace Stage

def ofSecond (c : Char) : Stage :=
  if c = '[' then .control
  else if c = ']' then .command
  else if c = 'P' then .device
  else if c = 'X' || c = '^' || c = '_' then .message
  else if '0' ≤ c && c ≤ '~' then .text
  else if ' ' ≤ c && c ≤ '/' then .marks
  else .escape

/-- Whether one of the bytes of a character ends a message. -/
def endsMessage (c : Char) : Bool :=
  (String.utf8EncodeChar c).contains 0x9C

/-- The stage behind a character of a sequence, one that begins a sequence or breaks it off
apart. -/
def next (c : Char) : Stage → Stage
  | .text => .text
  | .escape => ofSecond c
  | .marks => if '0' ≤ c && c ≤ '~' then .text else .marks
  | .control => if '@' ≤ c && c ≤ '~' then .text else .control
  | .device => if '@' ≤ c && c ≤ '~' then .message else .device
  | .message => if endsMessage c then .text else .message
  | .command => if c = '\x07' then .text else .command

/-- Whether the characters that move the cursor have their effect at a stage. -/
def obeysLayout : Stage → Bool
  | .text | .escape | .marks | .control => true
  | .device | .message | .command => false

end Stage

def isLayout (c : Char) : Bool :=
  c = '\t' || c = '\n' || c = '\x0c' || c = '\r'

def isShown (c : Char) : Bool :=
  isLayout c || (' ' ≤ c && c ≠ '\x7f')

/-- The characters that are shown, a terminal being at a stage. -/
def shown : Stage → List Char → List Char
  | _, [] => []
  | s, c :: cs =>
      if c = '\x1b' then shown .escape cs
      -- Two of the controls break off every sequence.
      else if c = '\x18' || c = '\x1a' then shown .text cs
      else if isLayout c && s.obeysLayout then c :: shown .text cs
      else
        match s with
        | .text => if isShown c then c :: shown .text cs else shown .text cs
        | s => shown (s.next c) cs

/-- A text without its styles, and without everything else that is not shown. -/
def plain (text : String) : String :=
  String.ofList (shown .text text.toList)

@[simp] theorem shown_nil (s : Stage) : shown s [] = [] := by
  cases s <;> rfl

end Paint
end Casework
