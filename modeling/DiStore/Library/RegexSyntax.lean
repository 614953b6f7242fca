import DiStore.Library.Regex
import Mathlib.Data.List.Range

/-!
Contract: how ECMAScript patterns are written, with what `std::regex` adds to brackets.

Owns: a reader that takes a pattern letter by letter (escapes, classes of letters in brackets,
bounds in braces, groups), when a pattern is refused, and what a literal word in front of a
pattern adds to it. The grammar is the one of the C++ standard, which an implementation may
extend.

Does not own: what a pattern matches (`Library.Regex`), and other locales than "C".
-/

set_option autoImplicit false

namespace DiStore.Library

/-! ### Classes of letters -/

def isBlank (letter : Char) : Bool := [' ', '\t', '\n', '\x0b', '\x0c', '\r'].contains letter

def isWordLetter (letter : Char) : Bool := letter.isAlphanum || letter == '_'

def isHexDigit (letter : Char) : Bool :=
  letter.isDigit || ('a' ≤ letter && letter ≤ 'f') || ('A' ≤ letter && letter ≤ 'F')

def isGraph (letter : Char) : Bool := '!' ≤ letter && letter ≤ '~'

/-- The named classes, whatever the case of the name. -/
def letterClass (name : List Char) : Option (Char → Bool) :=
  match String.ofList (name.map Char.toLower) with
  | "d" | "digit" => some Char.isDigit
  | "s" | "space" => some isBlank
  | "w" => some isWordLetter
  | "alnum" => some Char.isAlphanum
  | "alpha" => some Char.isAlpha
  | "blank" => some fun letter => letter == ' ' || letter == '\t'
  | "cntrl" => some fun letter => letter.toNat < 32 || letter.toNat == 127
  | "graph" => some isGraph
  | "lower" => some Char.isLower
  | "print" => some fun letter => letter == ' ' || isGraph letter
  | "punct" => some fun letter => isGraph letter && !letter.isAlphanum
  | "upper" => some Char.isUpper
  | "xdigit" => some isHexDigit
  | _ => none

/-- The names of letters, in the order of their codes. -/
def letterNames : List String :=
  ["NUL", "SOH", "STX", "ETX", "EOT", "ENQ", "ACK", "alert", "backspace", "tab", "newline", "vertical-tab",
    "form-feed", "carriage-return", "SO", "SI", "DLE", "DC1", "DC2", "DC3", "DC4", "NAK", "SYN", "ETB", "CAN",
    "EM", "SUB", "ESC", "IS4", "IS3", "IS2", "IS1", "space", "exclamation-mark", "quotation-mark", "number-sign",
    "dollar-sign", "percent-sign", "ampersand", "apostrophe", "left-parenthesis", "right-parenthesis",
    "asterisk", "plus-sign", "comma", "hyphen", "period", "slash", "zero", "one", "two", "three", "four", "five",
    "six", "seven", "eight", "nine", "colon", "semicolon", "less-than-sign", "equals-sign", "greater-than-sign",
    "question-mark", "commercial-at", "A", "B", "C", "D", "E", "F", "G", "H", "I", "J", "K", "L", "M", "N", "O",
    "P", "Q", "R", "S", "T", "U", "V", "W", "X", "Y", "Z", "left-square-bracket", "backslash",
    "right-square-bracket", "circumflex", "underscore", "grave-accent", "a", "b", "c", "d", "e", "f", "g", "h",
    "i", "j", "k", "l", "m", "n", "o", "p", "q", "r", "s", "t", "u", "v", "w", "x", "y", "z",
    "left-curly-bracket", "vertical-line", "right-curly-bracket", "tilde", "DEL"]

def namedLetter : List Char → Option Char
  | [letter] => some letter
  | name => (letterNames.idxOf? (String.ofList name)).map Char.ofNat

/-! ### Escapes -/

/-- What an escape stands for. -/
inductive Meaning where
  | one (letter : Char)
  | set (accepts : Char → Bool)
  | edge (expected : Bool)
  | reference (index : Nat)

/-- How far an escape is read: behind the backslash, behind `c`, with some digits of a code to
come, or in a number. -/
inductive Escape where
  | begun
  | control
  | code (left value most : Nat)
  | number (value : Nat)

/-- The escape goes on, ends with the letter, or has ended before it. -/
inductive EscapeStep where
  | more (escape : Escape)
  | ended (meaning : Meaning)
  | before (meaning : Meaning)

def digitValue (letter : Char) : Nat :=
  if letter.isDigit then letter.toNat - '0'.toNat else letter.toLower.toNat - 'a'.toNat + 10

def numberMeaning (value : Nat) : Meaning := if value = 0 then .one (Char.ofNat 0) else .reference value

def Escape.read : Escape → Char → Option EscapeStep
  | .begun, letter =>
      match letter with
      | 'd' => some (.ended (.set Char.isDigit))
      | 'D' => some (.ended (.set fun other => !other.isDigit))
      | 's' => some (.ended (.set isBlank))
      | 'S' => some (.ended (.set fun other => !isBlank other))
      | 'w' => some (.ended (.set isWordLetter))
      | 'W' => some (.ended (.set fun other => !isWordLetter other))
      | 'b' => some (.ended (.edge true))
      | 'B' => some (.ended (.edge false))
      | 't' => some (.ended (.one '\t'))
      | 'n' => some (.ended (.one '\n'))
      | 'v' => some (.ended (.one '\x0b'))
      | 'f' => some (.ended (.one '\x0c'))
      | 'r' => some (.ended (.one '\r'))
      | 'c' => some (.more .control)
      | 'x' => some (.more (.code 2 0 255))
      | 'u' => some (.more (.code 4 0 127))
      | _ => if letter.isDigit then some (.more (.number (digitValue letter))) else some (.ended (.one letter))
  | .control, letter => if letter.isAlpha then some (.ended (.one (Char.ofNat (letter.toNat % 32)))) else none
  | .code left value most, letter =>
      if isHexDigit letter then
        if 1 < left then some (.more (.code (left - 1) (16 * value + digitValue letter) most))
        else if 16 * value + digitValue letter ≤ most then
          some (.ended (.one (Char.ofNat (16 * value + digitValue letter))))
        else none
      else none
  | .number value, letter =>
      if letter.isDigit then
        if value = 0 then none else some (.more (.number (10 * value + digitValue letter)))
      else some (.before (numberMeaning value))

def Escape.finish : Escape → Option Meaning
  | .number value => some (numberMeaning value)
  | _ => none

/-! ### Brackets -/

/-- A member of a bracket. -/
inductive Member where
  | one (letter : Char)
  | set (accepts : Char → Bool)

def Member.accepts : Member → Char → Bool
  | .one letter, other => decide (other = letter)
  | .set accepts, other => accepts other

def Meaning.member : Meaning → Option Member
  | .one letter => some (.one letter)
  | .set accepts => some (.set accepts)
  | .edge expected => some (.one (if expected then Char.ofNat 8 else 'B'))
  | .reference _ => none

/-- A bracket: its members so far, and the last one as long as it may begin a range. -/
structure Bracket where
  negated : Bool
  accepted : Char → Bool
  last : Option Member
  dash : Bool

inductive BracketMode where
  | begun
  | members
  | escape (escape : Escape)
  | nested
  | name (kind : Char) (letters : List Char)
  | nameEnd (kind : Char) (letters : List Char)

inductive BracketStep where
  | more (bracket : Bracket) (mode : BracketMode)
  | ended (accepts : Char → Bool)

namespace Bracket

variable (bracket : Bracket)

def settled (letter : Char) : Bool := bracket.accepted letter || bracket.last.any (·.accepts letter)

def add (member : Member) : Option Bracket :=
  if bracket.dash then
    match bracket.last, member with
    | some (.one low), .one high =>
        if low ≤ high then
          some { bracket with
            accepted := fun letter => bracket.accepted letter || (low ≤ letter && letter ≤ high)
            last := none
            dash := false }
        else none
    | _, _ => none
  else some { bracket with accepted := bracket.settled, last := some member }

def close (letter : Char) : Bool :=
  (bracket.settled letter || (bracket.dash && letter == '-')) != bracket.negated

def readMember (letter : Char) : Option BracketStep :=
  if letter = ']' then some (.ended bracket.close)
  else if letter = '\\' then some (.more bracket (.escape .begun))
  else if letter = '[' then some (.more bracket .nested)
  else if letter = '-' ∧ bracket.last.isSome ∧ bracket.dash = false then
    some (.more { bracket with dash := true } .members)
  else (bracket.add (.one letter)).map fun bracket => .more bracket .members

/-- `[:name:]`, `[.name.]` and `[=name=]`. -/
def named (kind : Char) (name : List Char) : Option Member :=
  if kind = ':' then (letterClass name).map .set
  else if kind = '.' then (namedLetter name).map .one
  else (namedLetter name).map fun letter => .set fun other => decide (other = letter)

def isKind (letter : Char) : Bool := [':', '.', '='].contains letter

def read : BracketMode → Char → Option BracketStep
  | .begun, letter =>
      if letter = '^' then some (.more { bracket with negated := true } .members) else bracket.readMember letter
  | .members, letter => bracket.readMember letter
  | .escape escape, letter =>
      match escape.read letter with
      | none => none
      | some (.more escape) => some (.more bracket (.escape escape))
      | some (.ended meaning) => (meaning.member.bind bracket.add).map fun bracket => .more bracket .members
      | some (.before meaning) => (meaning.member.bind bracket.add).bind fun bracket => bracket.readMember letter
  | .nested, letter =>
      if isKind letter then some (.more bracket (.name letter []))
      else (bracket.add (.one '[')).bind fun bracket => bracket.readMember letter
  | .name kind letters, letter =>
      if letter = kind ∧ letters ≠ [] then some (.more bracket (.nameEnd kind letters))
      else if isKind letter then none
      else some (.more bracket (.name kind (letters ++ [letter])))
  | .nameEnd kind letters, letter =>
      if letter = ']' then ((named kind letters).bind bracket.add).map fun bracket => .more bracket .members
      else none

end Bracket

/-! ### Patterns -/

inductive Brace where
  | begun
  | least (least : Nat)
  | comma (least : Nat)
  | most (least most : Nat)

inductive Mode where
  | plain
  | escape (escape : Escape)
  | bracket (bracket : Bracket) (mode : BracketMode)
  | brace (brace : Brace)
  | quantified (least : Nat) (most : Option Nat)
  | opening
  | mark

inductive Opening where
  | capture (index : Nat)
  | plain
  | ahead (expected : Bool)

/-- A group that is being read: the groups before it, its choices so far, and the row of the
last choice. -/
structure Frame where
  opening : Opening
  start : Nat
  earlier : Option (Regex Char)
  row : Regex Char

namespace Frame

variable (frame : Frame)

def body : Regex Char :=
  match frame.earlier with
  | none => frame.row
  | some earlier => .either earlier frame.row

end Frame

/-- The state of the reader: the groups around the place, the last atom with the groups before it
as long as it can be repeated, the groups so far, and the largest group that is referred to. -/
structure Reader where
  mode : Mode
  outer : List Frame
  frame : Frame
  atom : Option (Regex Char)
  atomStart : Nat
  opened : Nat
  referred : Nat

namespace Reader

def start : Reader := ⟨.plain, [], ⟨.plain, 0, none, .empty⟩, none, 0, 0, 0⟩

variable (reader : Reader)

/-- The row with the last atom. -/
def row : Regex Char :=
  match reader.atom with
  | none => reader.frame.row
  | some atom => .seq reader.frame.row atom

def settle : Reader := { reader with mode := .plain, frame := { reader.frame with row := reader.row }, atom := none }

def addAssertion (regex : Regex Char) : Reader :=
  { reader.settle with frame := { reader.frame with row := .seq reader.row regex } }

def addAtom (regex : Regex Char) : Reader :=
  { reader.settle with atom := some regex, atomStart := reader.opened }

def addMeaning : Meaning → Reader
  | .one letter => reader.addAtom (.this letter)
  | .set accepts => reader.addAtom (.letter accepts)
  | .edge expected => reader.addAssertion (.wordEdge isWordLetter expected)
  | .reference index => { reader.addAtom (.reference index) with referred := max reader.referred index }

def quantify (least : Nat) (most : Option Nat) (greedy : Bool) : Reader :=
  { reader with
    mode := .plain
    atom := none
    frame := { reader.frame with
      row := .seq reader.frame.row (.repeated least most greedy
        (List.range' (reader.atomStart + 1) (reader.opened - reader.atomStart)) (reader.atom.getD .empty)) } }

def openGroup (opening : Opening) : Reader :=
  { reader with
    mode := .plain
    outer := reader.frame :: reader.outer
    frame := ⟨opening, reader.opened, none, .empty⟩ }

def openCapture : Reader :=
  { reader.openGroup (.capture (reader.opened + 1)) with opened := reader.opened + 1 }

/-- A group is an atom of the row around it, but a look ahead is an assertion. -/
def closeGroup : Option Reader :=
  match reader.outer with
  | [] => none
  | frame :: outer =>
      let closed := { reader.frame with row := reader.row }
      match closed.opening with
      | .capture index =>
          some { reader with outer, frame, atom := some (.group index closed.body), atomStart := closed.start }
      | .plain => some { reader with outer, frame, atom := some closed.body, atomStart := closed.start }
      | .ahead expected =>
          some { reader with
            outer
            frame := { frame with row := .seq frame.row (.ahead expected closed.body) }
            atom := none }

def choose : Reader :=
  { reader.settle with
    frame := { reader.frame with earlier := some { reader.frame with row := reader.row }.body, row := .empty } }

/-- Only an atom can be repeated. -/
def repeatable (mode : Mode) : Option Reader := if reader.atom.isSome then some { reader with mode := mode } else none

def readPlain (letter : Char) : Option Reader :=
  match letter with
  | '^' => some (reader.addAssertion .textStart)
  | '$' => some (reader.addAssertion .textEnd)
  | '\\' => some { reader with mode := .escape .begun }
  | '.' => some (reader.addAtom (.letter fun other => other != '\n' && other != '\r'))
  | '*' => reader.repeatable (.quantified 0 none)
  | '+' => reader.repeatable (.quantified 1 none)
  | '?' => reader.repeatable (.quantified 0 (some 1))
  | '\x7b' => reader.repeatable (.brace .begun)
  | '(' => some { reader.settle with mode := .opening }
  | ')' => reader.closeGroup
  | '[' => some { reader with mode := .bracket ⟨false, fun _ => false, none, false⟩ .begun }
  | '|' => some reader.choose
  | ']' => none
  | '\x7d' => none
  | _ => some (reader.addAtom (.this letter))

def readBrace (brace : Brace) (letter : Char) : Option Mode :=
  match brace with
  | .begun => if letter.isDigit then some (.brace (.least (digitValue letter))) else none
  | .least least =>
      if letter.isDigit then some (.brace (.least (10 * least + digitValue letter)))
      else if letter = ',' then some (.brace (.comma least))
      else if letter = '\x7d' then some (.quantified least (some least))
      else none
  | .comma least =>
      if letter.isDigit then some (.brace (.most least (digitValue letter)))
      else if letter = '\x7d' then some (.quantified least none)
      else none
  | .most least most =>
      if letter.isDigit then some (.brace (.most least (10 * most + digitValue letter)))
      else if letter = '\x7d' ∧ least ≤ most then some (.quantified least (some most))
      else none

def read (letter : Char) : Option Reader :=
  match reader.mode with
  | .plain => reader.readPlain letter
  | .escape escape =>
      match escape.read letter with
      | none => none
      | some (.more escape) => some { reader with mode := .escape escape }
      | some (.ended meaning) => some (reader.addMeaning meaning)
      | some (.before meaning) => (reader.addMeaning meaning).readPlain letter
  | .bracket bracket mode =>
      match bracket.read mode letter with
      | none => none
      | some (.more bracket mode) => some { reader with mode := .bracket bracket mode }
      | some (.ended accepts) => some (reader.addAtom (.letter accepts))
  | .brace brace => (readBrace brace letter).map fun mode => { reader with mode := mode }
  | .quantified least most =>
      if letter = '?' then some (reader.quantify least most false)
      else (reader.quantify least most true).readPlain letter
  | .opening => if letter = '?' then some { reader with mode := .mark } else reader.openCapture.readPlain letter
  | .mark =>
      match letter with
      | ':' => some (reader.openGroup .plain)
      | '=' => some (reader.openGroup (.ahead true))
      | '!' => some (reader.openGroup (.ahead false))
      | _ => none

/-- The end of the pattern. -/
def finish : Option Reader :=
  match reader.mode with
  | .plain => some reader
  | .quantified least most => some (reader.quantify least most true)
  | .escape escape => escape.finish.map reader.addMeaning
  | _ => none

/-- The pattern, if all groups are closed and all references are to groups that there are. -/
def regex : Option (Regex Char) :=
  if reader.outer.isEmpty ∧ reader.referred ≤ reader.opened then some { reader.frame with row := reader.row }.body
  else none

end Reader

/-- `std::regex` of a pattern; `none` where it throws. -/
def compileRegex (pattern : List Char) : Option (Regex Char) :=
  ((pattern.foldlM Reader.read Reader.start).bind Reader.finish).bind Reader.regex

/-- Groups inside of a repetition begin every round unset. -/
example : ((compileRegex "(z)((a+)?(b+)?(c))*".toList).bind fun regex =>
    (regex.search "zaacbbbcac".toList).map fun found => [1, 2, 3, 4, 5].map fun index =>
      (found.groups index).map String.ofList) = some [some "z", some "ac", some "a", none, some "c"] := by
  decide +kernel

/-! ### Literal words -/

/-- The letters that do not stand for themselves. -/
def isSyntax (letter : Char) : Bool :=
  ['^', '$', '\\', '.', '*', '+', '?', '(', ')', '[', ']', '\x7b', '\x7d', '|'].contains letter

/-- All letters stand for themselves. -/
def IsLiteral (word : List Char) : Prop := ∀ letter ∈ word, isSyntax letter = false

instance (word : List Char) : Decidable (IsLiteral word) := List.decidableBAll _ word

theorem readPlain_literal {letter : Char} (plain : isSyntax letter = false) (reader : Reader) :
    reader.readPlain letter = some (reader.addAtom (.this letter)) := by
  unfold Reader.readPlain
  split
  case h_15 => rfl
  all_goals exact absurd plain (by decide)

/-- What a reader has of a row, next to one that has read a literal word more. -/
structure Reader.Gains (reader later : Reader) (word : List Char) : Prop where
  mode : later.mode = .plain
  outer : later.outer = reader.outer
  earlier : later.frame.earlier = reader.frame.earlier
  opened : later.opened = reader.opened
  referred : later.referred = reader.referred
  row : ∀ next, later.row.matchFrom next = reader.row.matchFrom (wordFrom word next)

/-- A literal word is read as itself. -/
theorem read_literal {word : List Char} (isLiteral : IsLiteral word) {reader : Reader} (plain : reader.mode = .plain) :
    ∃ later, word.foldlM Reader.read reader = some later ∧ reader.Gains later word := by
  induction word generalizing reader with
  | nil => exact ⟨reader, rfl, plain, rfl, rfl, rfl, rfl, fun next => by rw [wordFrom_nil]⟩
  | cons letter word inductionHypothesis =>
      obtain ⟨later, isLater, gains⟩ := @inductionHypothesis
        (fun other isMember => isLiteral other (List.mem_cons_of_mem _ isMember)) (reader.addAtom (.this letter)) rfl
      have first : reader.read letter = some (reader.addAtom (.this letter)) := by
        unfold Reader.read
        rw [plain]
        exact readPlain_literal (isLiteral letter List.mem_cons_self) reader
      refine ⟨later, ?_, gains.mode, gains.outer, gains.earlier, gains.opened, gains.referred, ?_⟩
      · rw [List.foldlM_cons, first]
        exact isLater
      · intro next
        rw [gains.row, wordFrom_cons]
        rfl

end DiStore.Library
