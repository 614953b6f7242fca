import DiStore.Library.RegexSyntax
import Mathlib.Logic.Function.Basic

/-!
Contract: the parser of command lines.

Owns: `add_option`, `parse` and `get_plain` of `Parser`, the two patterns it searches the
joined arguments for, and the words that these patterns capture behind a literal name.

Does not own: switches, which are options with another default, the conversion of plain
values, and the patterns as such (`Library.Regex`, `Library.RegexSyntax`).
-/

set_option autoImplicit false

namespace DiStore.CmdParser

open DiStore.Library

abbrev Text := List Char

def regexLongSuffix : Text := "=*\\s*(\\S+)".toList

def regexShortSuffix : Text := "\\s*(\\S+)".toList

/-- An entry of `regex_map`: the full name, and the patterns of both names. -/
structure RegexEntry where
  full : Text
  long : Text
  short : Text

/-- `match[1]`: empty for a group that has taken no part. -/
def firstGroup (found : Place Char) : Text := (found.groups 1).getD []

structure Parser where
  plainMap : Text → Option Text
  regexMap : List RegexEntry

namespace Parser

def empty : Parser := ⟨fun _ => none, []⟩

/-- `add_option` without a default. -/
def addOption (parser : Parser) (full shrt : Text) : Bool × Parser :=
  if parser.regexMap.any fun entry => entry.full == full then (false, parser)
  else
    (true, { parser with
      regexMap := parser.regexMap ++ [⟨full, full ++ regexLongSuffix, shrt ++ regexShortSuffix⟩] })

/-- `add_option` with a default, as it is streamed. -/
def addOptionDefault (parser : Parser) (full shrt defaultValue : Text) : Bool × Parser :=
  let (added, parser) := parser.addOption full shrt
  if added then
    match parser.plainMap full with
    | some _ => (false, parser)
    | none => (true, { parser with plainMap := Function.update parser.plainMap full (some defaultValue) })
  else (false, parser)

/-- All arguments but the program's name, each with a blank behind it. -/
def joined (argv : List Text) : Text := (argv.drop 1).flatMap fun argument => argument ++ [' ']

/-- One round of `parse`: the long pattern, then the short one, anywhere in the line; `none`
when `std::regex` throws at one of the two. -/
def parseEntry (line : Text) (parser : Parser) (entry : RegexEntry) : Option Parser :=
  (compileRegex entry.long).bind fun lregex =>
    (compileRegex entry.short).map fun sregex =>
      match (lregex.search line).or (sregex.search line) with
      | none => parser
      | some found =>
          { parser with plainMap := Function.update parser.plainMap entry.full (some (firstGroup found)) }

def parse (parser : Parser) (argv : List Text) : Option Parser :=
  parser.regexMap.foldlM (parseEntry (joined argv)) parser

def getPlain (parser : Parser) (opt : Text) : Option Text := parser.plainMap opt

end Parser

/-- What a pattern captures at a place of a text, if it matches there. -/
def captures (pattern earlier later : Text) : Option Text :=
  (compileRegex pattern).bind fun regex => (regex.matchAt earlier.getLast? later).map firstGroup

/-! ### Words behind a name -/

/-- The first word behind blanks. -/
def shortWord (rest : Text) : Option Text :=
  match rest.dropWhile isBlank with
  | [] => none
  | letter :: behind => some (letter :: behind.takeWhile fun other => !isBlank other)

def isEquals (letter : Char) : Bool := decide (letter = '=')

/-- The first word behind `=` signs and blanks; without one, the last of the signs. -/
def longWord (rest : Text) : Option Text :=
  (shortWord (rest.dropWhile isEquals)).or (if rest.head? = some '=' then some ['='] else none)

theorem shortWord_equals (rest : Text) :
    shortWord ('=' :: rest) = some ('=' :: rest.takeWhile fun other => !isBlank other) := rfl

/-- Nothing but blanks in front of the next word, if there is one. -/
theorem takeWhile_of_shortWord_none {rest : Text} (isNone : shortWord rest = none) :
    rest.takeWhile (fun other => !isBlank other) = [] := by
  cases rest with
  | nil => rfl
  | cons letter rest =>
      rw [List.takeWhile_cons, if_neg]
      intro stops
      have notBlank : ¬ isBlank letter = true := by
        intro blank
        rw [blank] at stops
        cases stops
      unfold shortWord at isNone
      rw [List.dropWhile_cons_of_neg notBlank] at isNone
      cases isNone

theorem longWord_cons_equals (rest : Text) : longWord ('=' :: rest) = (longWord rest).or (shortWord ('=' :: rest)) := by
  unfold longWord
  rw [List.dropWhile_cons_of_pos rfl, shortWord_equals]
  cases isWord : shortWord (rest.dropWhile isEquals) with
  | some word => rfl
  | none =>
      show some ['='] = (if rest.head? = some '=' then some ['='] else none).or _
      by_cases more : rest.head? = some '='
      · rw [if_pos more]
        rfl
      · rw [if_neg more, Option.none_or]
        have unsigned : rest.dropWhile isEquals = rest := by
          cases rest with
          | nil => rfl
          | cons letter rest =>
              apply List.dropWhile_cons_of_neg
              intro sign
              rw [of_decide_eq_true sign] at more
              exact more rfl
        rw [unsigned] at isWord
        rw [takeWhile_of_shortWord_none isWord]

theorem longWord_cons_other {letter : Char} (other : ¬ isEquals letter = true) (rest : Text) :
    longWord (letter :: rest) = shortWord (letter :: rest) := by
  unfold longWord
  rw [List.dropWhile_cons_of_neg other, if_neg, Option.or_none]
  intro sign
  rw [Option.some.inj sign] at other
  exact other rfl

/-! ### The patterns of literal names -/

/-- `(\S+)`. -/
def wordRegex : Regex Char :=
  .group 1 (.seq .empty (.repeated 1 none true [] (.letter fun other => !isBlank other)))

/-- A row with `regex_short_suffix` behind it. -/
def shortRegex (row : Regex Char) : Regex Char :=
  .seq (.seq row (.repeated 0 none true [] (.letter isBlank))) wordRegex

/-- A row with `regex_long_suffix` behind it. -/
def longRegex (row : Regex Char) : Regex Char := shortRegex (.seq row (.repeated 0 none true [] (.letter isEquals)))

/-- What a word captures. -/
theorem matchFrom_word (before : Option Char) (letter : Char) (text : Text) (groups : Nat → Option Text) :
    (wordRegex.matchFrom some ⟨before, letter :: text, groups⟩).map firstGroup =
      if isBlank letter then none else some (letter :: text.takeWhile fun other => !isBlank other) := by
  have behind := Place.rest_skip (Place.mk (some letter) text groups) (text.takeWhile fun other => !isBlank other)
  have within := (List.takeWhile_prefix (l := text) fun other => !isBlank other).length_le
  have taken := List.prefix_iff_eq_take.mp (List.takeWhile_prefix (l := text) fun other => !isBlank other)
  change ((Regex.repeated 1 none true [] (.letter fun other => !isBlank other)).matchFrom
    (fun later => some ((Place.mk before (letter :: text) groups).close 1 later)) ⟨before, letter :: text, groups⟩).map
      firstGroup = _
  rw [matchFrom_run_one, runFrom_of_free (fun _ => rfl)]
  by_cases blank : isBlank letter = true
  · rw [if_pos blank, blank]
    rfl
  · rw [if_neg blank, if_pos (by simpa using blank)]
    change some ((letter :: text).take ((letter :: text).length - _)) = _
    rw [behind, List.length_drop, List.length_cons, show text.length + 1 - (text.length -
      (text.takeWhile fun other => !isBlank other).length) =
        (text.takeWhile fun other => !isBlank other).length + 1 by omega, List.take_succ_cons, ← taken]

/-- Behind a literal name: blanks and a word. -/
def shortFollow : Follow Char :=
  (Regex.repeated 0 none true [] (.letter isBlank)).matchFrom (wordRegex.matchFrom some)

/-- Behind a literal full name: `=` signs, blanks and a word. -/
def longFollow : Follow Char := (Regex.repeated 0 none true [] (.letter isEquals)).matchFrom shortFollow

theorem shortFollow_captures (place : Place Char) : (shortFollow place).map firstGroup = shortWord place.rest := by
  obtain ⟨before, rest, groups⟩ := place
  have blocked : ∀ before letter text, isBlank letter = true →
      wordRegex.matchFrom some ⟨before, letter :: text, groups⟩ = none := by
    intro before letter text blank
    apply Option.map_eq_none_iff.mp
    rw [matchFrom_word, if_pos blank]
  unfold shortFollow
  rw [matchFrom_run, runFrom_of_blocked blocked]
  change (wordRegex.matchFrom some ((Place.mk before rest groups).skip (rest.takeWhile isBlank))).map firstGroup =
    shortWord rest
  induction rest generalizing before with
  | nil => rfl
  | cons letter rest inductionHypothesis =>
      by_cases blank : isBlank letter = true
      · rw [List.takeWhile_cons_of_pos blank, shortWord, List.dropWhile_cons_of_pos blank]
        exact inductionHypothesis (some letter)
      · rw [List.takeWhile_cons_of_neg blank, shortWord, List.dropWhile_cons_of_neg blank]
        exact (matchFrom_word before letter rest groups).trans (if_neg blank)

theorem longFollow_captures (place : Place Char) : (longFollow place).map firstGroup = longWord place.rest := by
  obtain ⟨before, rest, groups⟩ := place
  unfold longFollow
  rw [matchFrom_run]
  change (runFrom isEquals shortFollow groups before rest).map firstGroup = longWord rest
  induction rest generalizing before with
  | nil => rfl
  | cons letter rest inductionHypothesis =>
      rw [runFrom]
      by_cases sign : isEquals letter = true
      · rw [if_pos sign, Option.map_or, inductionHypothesis, shortFollow_captures, of_decide_eq_true sign,
          longWord_cons_equals]
      · rw [if_neg sign, shortFollow_captures, longWord_cons_other sign]

/-- The reader at the end of a name, and then of a suffix. -/
theorem read_short {reader : Reader} (plain : reader.mode = .plain) (outer : reader.outer = [])
    (earlier : reader.frame.earlier = none) (opened : reader.opened = 0) (referred : reader.referred = 0) :
    ((regexShortSuffix.foldlM Reader.read reader).bind Reader.finish).bind Reader.regex =
      some (shortRegex reader.row) := by
  obtain ⟨mode, outer', ⟨opening, start, earlier', row⟩, atom, atomStart, opened', referred'⟩ := reader
  cases plain
  cases outer
  cases earlier
  cases opened
  cases referred
  rfl

theorem read_long {reader : Reader} (plain : reader.mode = .plain) (outer : reader.outer = [])
    (earlier : reader.frame.earlier = none) (opened : reader.opened = 0) (referred : reader.referred = 0) :
    ((regexLongSuffix.foldlM Reader.read reader).bind Reader.finish).bind Reader.regex =
      some (longRegex reader.row) := by
  obtain ⟨mode, outer', ⟨opening, start, earlier', row⟩, atom, atomStart, opened', referred'⟩ := reader
  cases plain
  cases outer
  cases earlier
  cases opened
  cases referred
  rfl

/-- A literal name, pasted into its pattern, has to stand in the text. -/
theorem compileRegex_name {name suffix : Text} {suffixed : Regex Char → Regex Char} {follow : Follow Char}
    (isLiteral : IsLiteral name)
    (isSuffix : ∀ reader : Reader, reader.mode = .plain → reader.outer = [] → reader.frame.earlier = none →
      reader.opened = 0 → reader.referred = 0 →
      ((suffix.foldlM Reader.read reader).bind Reader.finish).bind Reader.regex = some (suffixed reader.row))
    (follows : ∀ row, (suffixed row).matchFrom some = row.matchFrom follow) :
    ∃ regex, compileRegex (name ++ suffix) = some regex ∧ regex.matchFrom some = wordFrom name follow := by
  obtain ⟨reader, isReader, gains⟩ := @read_literal name isLiteral Reader.start rfl
  refine ⟨suffixed reader.row, ?_, ?_⟩
  · unfold compileRegex
    rw [List.foldlM_append, isReader]
    exact isSuffix reader gains.mode gains.outer gains.earlier gains.opened gains.referred
  · rw [follows, gains.row]
    rfl

theorem compileRegex_short {name : Text} (isLiteral : IsLiteral name) :
    ∃ regex, compileRegex (name ++ regexShortSuffix) = some regex ∧ regex.matchFrom some = wordFrom name shortFollow :=
  @compileRegex_name name regexShortSuffix shortRegex shortFollow isLiteral (fun _ => read_short) fun _ => rfl

theorem compileRegex_long {name : Text} (isLiteral : IsLiteral name) :
    ∃ regex, compileRegex (name ++ regexLongSuffix) = some regex ∧ regex.matchFrom some = wordFrom name longFollow :=
  @compileRegex_name name regexLongSuffix longRegex longFollow isLiteral (fun _ => read_long) fun _ => rfl

theorem captures_name {name suffix earlier later word : Text} {follow : Follow Char}
    {wordBehind : Text → Option Text}
    (compiled : ∃ regex, compileRegex (name ++ suffix) = some regex ∧ regex.matchFrom some = wordFrom name follow)
    (isWord : ∀ place, (follow place).map firstGroup = wordBehind place.rest) :
    captures (name ++ suffix) earlier later = some word ↔
      ∃ rest, later = name ++ rest ∧ wordBehind rest = some word := by
  obtain ⟨regex, isRegex, isFollow⟩ := compiled
  unfold captures Regex.matchAt
  rw [isRegex, Option.bind_some, isFollow]
  unfold wordFrom
  change (if name <+: later then follow _ else none).map firstGroup = some word ↔ _
  constructor
  · intro captured
    by_cases stands : name <+: later
    · rw [if_pos stands, isWord, Place.rest_skip] at captured
      obtain ⟨rest, isLater⟩ := stands
      refine ⟨rest, isLater.symm, ?_⟩
      rw [← isLater, List.drop_left] at captured
      exact captured
    · rw [if_neg stands] at captured
      cases captured
  · rintro ⟨rest, isLater, isRest⟩
    rw [if_pos ⟨rest, isLater.symm⟩, isWord, Place.rest_skip, isLater, List.drop_left, isRest]

/-- The short pattern of a literal name captures the word behind the name. -/
theorem captures_short {name earlier later word : Text} (isLiteral : IsLiteral name) :
    captures (name ++ regexShortSuffix) earlier later = some word ↔
      ∃ rest, later = name ++ rest ∧ shortWord rest = some word :=
  captures_name (compileRegex_short isLiteral) shortFollow_captures

/-- So does the long one, behind `=` signs. -/
theorem captures_long {name earlier later word : Text} (isLiteral : IsLiteral name) :
    captures (name ++ regexLongSuffix) earlier later = some word ↔
      ∃ rest, later = name ++ rest ∧ longWord rest = some word :=
  captures_name (compileRegex_long isLiteral) longFollow_captures

end DiStore.CmdParser
