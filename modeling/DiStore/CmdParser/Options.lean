import DiStore.CmdParser.Parser
import Mathlib.Data.List.Nodup

/-!
Contract: which value each registered option has after `parse`.

Owns: tables of options, argument vectors of name and value pairs, the readings of a line by the
patterns of an option, and when no option reads another one's text.

Does not own: what the pattern of a literal name captures (`CmdParser.Parser`).
-/

set_option autoImplicit false

namespace DiStore.CmdParser

open DiStore.Library

/-- An option as it is registered; `none` is an option without a default. -/
structure OptionSpec where
  full : Text
  shrt : Text
  defaultValue : Option Text
deriving DecidableEq

namespace OptionSpec

def add (parser : Parser) (option : OptionSpec) : Parser :=
  match option.defaultValue with
  | none => (parser.addOption option.full option.shrt).2
  | some value => (parser.addOptionDefault option.full option.shrt value).2

def entry (option : OptionSpec) : RegexEntry :=
  ⟨option.full, option.full ++ regexLongSuffix, option.shrt ++ regexShortSuffix⟩

end OptionSpec

/-- Options with distinct full and distinct short names. -/
structure OptionTable where
  options : List OptionSpec
  fulls : (options.map OptionSpec.full).Nodup
  shorts : (options.map OptionSpec.shrt).Nodup

def OptionTable.register (table : OptionTable) : Parser := table.options.foldl OptionSpec.add .empty

/-- How a name and its value stand among the arguments. -/
inductive Written where
  | full
  | fullJoined (signs : Nat)
  | short
  | shortJoined

/-- Without white space. -/
def Unspaced (value : Text) : Prop := ∀ letter ∈ value, isBlank letter = false

instance (value : Text) : Decidable (Unspaced value) := List.decidableBAll _ value

/-- A name and value pair. -/
structure Given where
  option : OptionSpec
  written : Written
  value : Text
  unspaced : Unspaced value

def Given.arguments (given : Given) : List Text :=
  match given.written with
  | .full => [given.option.full, given.value]
  | .fullJoined signs => [given.option.full ++ List.replicate signs '=' ++ given.value]
  | .short => [given.option.shrt, given.value]
  | .shortJoined => [given.option.shrt ++ given.value]

/-- `argv`. -/
def argv (program : Text) (givens : List Given) : List Text := program :: givens.flatMap Given.arguments

/-- After `parse`, options that were not given have their defaults, and options given once the
values given. -/
def KeptApart (table : OptionTable) (program : Text) (givens : List Given) : Prop :=
  ∃ parsed, table.register.parse (argv program givens) = some parsed ∧
    ∀ option ∈ table.options,
      ((∀ given ∈ givens, given.option ≠ option) → parsed.getPlain option.full = option.defaultValue) ∧
        ∀ given, (givens.filter fun other => decide (other.option = option)) = [given] →
          parsed.getPlain option.full = some given.value

/-! ### Readings -/

/-- The two patterns of an option. -/
def OptionSpec.pattern (option : OptionSpec) (short : Bool) : Text :=
  if short then option.shrt ++ regexShortSuffix else option.full ++ regexLongSuffix

/-- `std::regex` takes the patterns of all options. -/
def OptionTable.Compiles (table : OptionTable) : Prop :=
  ∀ option ∈ table.options, ∀ short, (compileRegex (option.pattern short)).isSome = true

/-- A place of the line where one of the patterns of an option matches, whoever has written it, and
the text that is captured there. -/
structure Reading (option : OptionSpec) (line : Text) where
  short : Bool
  earlier : Text
  later : Text
  word : Text
  split : line = earlier ++ later
  captured : captures (option.pattern short) earlier later = some word

/-- Readings of the full name come before those of the short name, and then those further left. -/
def Reading.Precedes {option : OptionSpec} {line : Text} (reading other : Reading option line) : Prop :=
  reading.short = false ∧ other.short = true ∨
    reading.short = other.short ∧ reading.earlier.length < other.earlier.length

/-- A line settles what an option is: a reading has that word, and no stray reading that comes
before it has another one; or nothing reads the option, and it keeps its default. -/
inductive OptionSpec.Settled (option : OptionSpec) (line : Text) : Option Text → Prop
  | read (right : Reading option line) (agree : ∀ stray : Reading option line, stray.Precedes right →
      stray.word = right.word) : Settled option line (some right.word)
  | unread (none : Reading option line → False) : Settled option line option.defaultValue

/-! ### Registration -/

variable {parser parsed : Parser} {option : OptionSpec} {options : List OptionSpec} {line : Text}

theorem add_fresh (fresh : ∀ entry ∈ parser.regexMap, entry.full ≠ option.full)
    (unset : parser.plainMap option.full = none) :
    OptionSpec.add parser option =
      ⟨Function.update parser.plainMap option.full option.defaultValue, parser.regexMap ++ [option.entry]⟩ := by
  have isFresh : (parser.regexMap.any fun entry => entry.full == option.full) = false := by
    rw [List.any_eq_false]
    intro entry isMember same
    exact fresh entry isMember (eq_of_beq same)
  have added : parser.addOption option.full option.shrt =
      (true, ⟨parser.plainMap, parser.regexMap ++ [option.entry]⟩) := by
    unfold Parser.addOption
    rw [if_neg (by rw [isFresh]; exact Bool.false_ne_true)]
    rfl
  unfold OptionSpec.add
  cases isDefault : option.defaultValue with
  | none =>
      show (parser.addOption option.full option.shrt).2 = _
      rw [added, ← unset, Function.update_eq_self]
  | some value =>
      show (parser.addOptionDefault option.full option.shrt value).2 = _
      unfold Parser.addOptionDefault
      simp only [added, unset, if_true]

/-- Options with distinct names that the parser does not know. -/
theorem foldl_add (distinct : (options.map OptionSpec.full).Nodup)
    (fresh : ∀ option ∈ options, ∀ entry ∈ parser.regexMap, entry.full ≠ option.full)
    (unset : ∀ option ∈ options, parser.plainMap option.full = none) :
    (options.foldl OptionSpec.add parser).regexMap = parser.regexMap ++ options.map OptionSpec.entry ∧
      (∀ option ∈ options, (options.foldl OptionSpec.add parser).plainMap option.full = option.defaultValue) ∧
        ∀ name, name ∉ options.map OptionSpec.full →
          (options.foldl OptionSpec.add parser).plainMap name = parser.plainMap name := by
  induction options generalizing parser with
  | nil => exact ⟨(List.append_nil _).symm, fun _ isMember => absurd isMember List.not_mem_nil, fun _ _ => rfl⟩
  | cons first rest inductionHypothesis =>
      rw [List.map_cons, List.nodup_cons] at distinct
      obtain ⟨isFirst, restDistinct⟩ := distinct
      have differs : ∀ option ∈ rest, first.full ≠ option.full := by
        intro option isMember same
        rw [same] at isFirst
        exact isFirst (List.mem_map_of_mem isMember)
      rw [List.foldl_cons, add_fresh (fresh first List.mem_cons_self) (unset first List.mem_cons_self)]
      obtain ⟨entries, defaults, others⟩ := @inductionHypothesis
        ⟨Function.update parser.plainMap first.full first.defaultValue, parser.regexMap ++ [first.entry]⟩ restDistinct
        (by
          intro option isMember entry inMap
          rcases List.mem_append.mp inMap with isOld | isNew
          · exact fresh option (List.mem_cons_of_mem _ isMember) entry isOld
          · rw [List.mem_singleton.mp isNew]
            exact differs option isMember)
        (by
          intro option isMember
          show Function.update parser.plainMap first.full first.defaultValue option.full = none
          rw [Function.update_of_ne (Ne.symm (differs option isMember))]
          exact unset option (List.mem_cons_of_mem _ isMember))
      refine ⟨?_, ?_, ?_⟩
      · rw [entries]
        exact List.append_assoc _ _ _
      · intro option isMember
        rcases List.mem_cons.mp isMember with isHead | isLater
        · rw [isHead, others first.full isFirst]
          exact Function.update_self _ _ _
        · exact defaults option isLater
      · intro name notMember
        rw [List.map_cons, List.mem_cons, not_or] at notMember
        rw [others name notMember.2]
        exact Function.update_of_ne notMember.1 _ _

theorem OptionTable.register_regexMap (table : OptionTable) :
    table.register.regexMap = table.options.map OptionSpec.entry :=
  (foldl_add table.fulls (fun _ _ _ isMember => absurd isMember List.not_mem_nil) fun _ _ => rfl).1

theorem OptionTable.register_plainMap (table : OptionTable) (isMember : option ∈ table.options) :
    table.register.plainMap option.full = option.defaultValue :=
  (foldl_add table.fulls (fun _ _ _ isMember => absurd isMember List.not_mem_nil) fun _ _ => rfl).2.1 option isMember

/-! ### One round -/

/-- What a round finds for its option; `none` when `std::regex` throws. -/
def OptionSpec.found (option : OptionSpec) (line : Text) : Option (Option Text) :=
  (compileRegex (option.pattern false)).bind fun lregex =>
    (compileRegex (option.pattern true)).map fun sregex =>
      ((lregex.search line).or (sregex.search line)).map firstGroup

/-- What a round writes. -/
def OptionSpec.write (option : OptionSpec) (parser : Parser) (found : Option Text) : Parser :=
  { parser with plainMap := Function.update parser.plainMap option.full (found.or (parser.plainMap option.full)) }

theorem parseEntry_eq (option : OptionSpec) (line : Text) (parser : Parser) :
    Parser.parseEntry line parser option.entry = (option.found line).map (option.write parser) := by
  unfold Parser.parseEntry OptionSpec.found OptionSpec.write
  change (compileRegex (option.pattern false)).bind _ = _
  cases compileRegex (option.pattern false) with
  | none => rfl
  | some lregex =>
      change (compileRegex (option.pattern true)).map _ = _
      cases compileRegex (option.pattern true) with
      | none => rfl
      | some sregex =>
          simp only [Option.map_some, Option.bind_some]
          cases (lregex.search line).or (sregex.search line) with
          | none => simp only [Option.map_none, Option.none_or, Function.update_eq_self]
          | some found => rfl

/-- All rounds, by induction on the options: each one writes its own option only. -/
theorem foldlM_parseEntry (distinct : (options.map OptionSpec.full).Nodup)
    (isParsed : (options.map OptionSpec.entry).foldlM (Parser.parseEntry line) parser = some parsed) :
    (∀ option ∈ options, ∃ found, option.found line = some found ∧
        parsed.plainMap option.full = found.or (parser.plainMap option.full)) ∧
      ∀ name, name ∉ options.map OptionSpec.full → parsed.plainMap name = parser.plainMap name := by
  induction options generalizing parser with
  | nil =>
      cases isParsed
      exact ⟨fun _ isMember => absurd isMember List.not_mem_nil, fun _ _ => rfl⟩
  | cons first rest inductionHypothesis =>
      rw [List.map_cons, List.nodup_cons] at distinct
      obtain ⟨isFirst, restDistinct⟩ := distinct
      rw [List.map_cons, List.foldlM_cons, parseEntry_eq] at isParsed
      obtain ⟨middle, isMiddle, isLater⟩ := Option.bind_eq_some_iff.mp isParsed
      obtain ⟨found, isFound, rfl⟩ := Option.map_eq_some_iff.mp isMiddle
      obtain ⟨later, others⟩ := inductionHypothesis restDistinct isLater
      constructor
      · intro option isMember
        rcases List.mem_cons.mp isMember with isHead | inRest
        · rw [isHead]
          refine ⟨found, isFound, ?_⟩
          rw [others first.full isFirst]
          exact Function.update_self _ _ _
        · obtain ⟨own, isOwn, isPlain⟩ := later option inRest
          refine ⟨own, isOwn, ?_⟩
          have differs : option.full ≠ first.full := by
            intro same
            rw [← same] at isFirst
            exact isFirst (List.mem_map_of_mem inRest)
          rw [isPlain]
          exact congrArg own.or (Function.update_of_ne differs _ _)
      · intro name notMember
        rw [List.map_cons, List.mem_cons, not_or] at notMember
        rw [others name notMember.2]
        exact Function.update_of_ne notMember.1 _ _

theorem foldlM_parseEntry_isSome (found : ∀ option ∈ options, (option.found line).isSome = true) :
    ((options.map OptionSpec.entry).foldlM (Parser.parseEntry line) parser).isSome = true := by
  induction options generalizing parser with
  | nil => rfl
  | cons first rest inductionHypothesis =>
      obtain ⟨own, isOwn⟩ := Option.isSome_iff_exists.mp (found first List.mem_cons_self)
      rw [List.map_cons, List.foldlM_cons, parseEntry_eq, isOwn]
      exact inductionHypothesis fun option isMember => found option (List.mem_cons_of_mem _ isMember)

theorem OptionSpec.found_isSome_iff (option : OptionSpec) (line : Text) :
    (option.found line).isSome = true ↔ ∀ short, (compileRegex (option.pattern short)).isSome = true := by
  unfold OptionSpec.found
  rw [Bool.forall_bool]
  cases compileRegex (option.pattern false) with
  | none => simp
  | some lregex => simp

/-! ### Searches and readings -/

/-- A search finds the leftmost reading. -/
theorem search_captures {pattern : Text} {regex : Regex Char} {found : Place Char}
    (compiled : compileRegex pattern = some regex) (isFound : regex.search line = some found) :
    ∃ earlier later, line = earlier ++ later ∧ captures pattern earlier later = some (firstGroup found) ∧
      ∀ sooner rest, line = sooner ++ rest → sooner.length < earlier.length → captures pattern sooner rest = none := by
  obtain ⟨earlier, later, split, isMatch, first⟩ := searchBehind_eq_some.mp isFound
  refine ⟨earlier, later, split, ?_, ?_⟩
  · unfold captures
    rw [Option.or_none] at isMatch
    rw [compiled, Option.bind_some, isMatch]
    rfl
  · intro sooner rest isSplit isSooner
    have noMatch := first sooner rest isSplit isSooner
    rw [Option.or_none] at noMatch
    unfold captures
    rw [compiled, Option.bind_some, noMatch]
    rfl

theorem search_captures_none {pattern : Text} {regex : Regex Char} (compiled : compileRegex pattern = some regex)
    (isNone : regex.search line = none) (earlier later : Text) (split : line = earlier ++ later) :
    captures pattern earlier later = none := by
  have noMatch := searchBehind_eq_none.mp isNone earlier later split
  rw [Option.or_none] at noMatch
  unfold captures
  rw [compiled, Option.bind_some, noMatch]
  rfl

/-- What a round finds is a reading that none comes before. -/
theorem OptionSpec.found_some {word : Text} (isFound : option.found line = some (some word)) :
    ∃ first : Reading option line, first.word = word ∧ ∀ stray : Reading option line, ¬ stray.Precedes first := by
  obtain ⟨lregex, isLong, isBehind⟩ := Option.bind_eq_some_iff.mp isFound
  obtain ⟨sregex, isShort, isWord⟩ := Option.map_eq_some_iff.mp isBehind
  obtain ⟨found, isSearch, rfl⟩ := Option.map_eq_some_iff.mp isWord
  rcases Option.or_eq_some_iff.mp isSearch with inLong | ⟨noLong, inShort⟩
  · obtain ⟨earlier, later, split, captured, isFirst⟩ := search_captures isLong inLong
    refine ⟨⟨false, earlier, later, _, split, captured⟩, rfl, ?_⟩
    rintro stray (⟨_, isShorter⟩ | ⟨same, sooner⟩)
    · cases isShorter
    · have isNone := isFirst stray.earlier stray.later stray.split sooner
      have isSome := stray.captured
      rw [show stray.short = false from same, isNone] at isSome
      cases isSome
  · obtain ⟨earlier, later, split, captured, isFirst⟩ := search_captures isShort inShort
    refine ⟨⟨true, earlier, later, _, split, captured⟩, rfl, ?_⟩
    rintro stray (⟨isFull, _⟩ | ⟨same, sooner⟩)
    · have isNone := search_captures_none isLong noLong stray.earlier stray.later stray.split
      have isSome := stray.captured
      rw [isFull, isNone] at isSome
      cases isSome
    · have isNone := isFirst stray.earlier stray.later stray.split sooner
      have isSome := stray.captured
      rw [show stray.short = true from same, isNone] at isSome
      cases isSome

theorem OptionSpec.found_none (isFound : option.found line = some none) (reading : Reading option line) : False := by
  obtain ⟨lregex, isLong, isBehind⟩ := Option.bind_eq_some_iff.mp isFound
  obtain ⟨sregex, isShort, isNone⟩ := Option.map_eq_some_iff.mp isBehind
  obtain ⟨noLong, noShort⟩ := Option.or_eq_none_iff.mp (Option.map_eq_none_iff.mp isNone)
  have isSome := reading.captured
  cases isPattern : reading.short with
  | false =>
      rw [isPattern, search_captures_none isLong noLong _ _ reading.split] at isSome
      cases isSome
  | true =>
      rw [isPattern, search_captures_none isShort noShort _ _ reading.split] at isSome
      cases isSome

/-- Two readings of which none comes before the other are one. -/
theorem Reading.word_eq {left right : Reading option line} (notLeft : ¬ left.Precedes right)
    (notRight : ¬ right.Precedes left) : left.word = right.word := by
  obtain ⟨short, earlier, later, word, split, captured⟩ := left
  obtain ⟨short', earlier', later', word', split', captured'⟩ := right
  have sameName : short = short' := by
    cases short with
    | false =>
        cases short' with
        | false => rfl
        | true => exact absurd (Or.inl ⟨rfl, rfl⟩) notLeft
    | true =>
        cases short' with
        | true => rfl
        | false => exact absurd (Or.inl ⟨rfl, rfl⟩) notRight
  have sameLength : earlier.length = earlier'.length := by
    have notLess : ¬ earlier.length < earlier'.length := fun less => notLeft (Or.inr ⟨sameName, less⟩)
    have notMore : ¬ earlier'.length < earlier.length := fun less => notRight (Or.inr ⟨sameName.symm, less⟩)
    omega
  obtain ⟨sameEarlier, sameLater⟩ := List.append_inj (split.symm.trans split') sameLength
  rw [sameName, sameEarlier, sameLater, captured'] at captured
  exact (Option.some.inj captured).symm

/-- The value of an option after `parse` is what the line settles. -/
theorem OptionSpec.settled_iff {found expected : Option Text} (isFound : option.found line = some found) :
    found.or option.defaultValue = expected ↔ option.Settled line expected := by
  cases found with
  | none =>
      constructor
      · rintro rfl
        exact .unread (OptionSpec.found_none isFound)
      · intro settled
        cases settled with
        | read right => exact (OptionSpec.found_none isFound right).elim
        | unread => rfl
  | some word =>
      obtain ⟨first, rfl, isFirst⟩ := OptionSpec.found_some isFound
      constructor
      · rintro rfl
        exact .read first fun stray precedes => absurd precedes (isFirst stray)
      · intro settled
        cases settled with
        | read right agree =>
            by_cases precedes : first.Precedes right
            · exact congrArg some (agree first precedes)
            · exact congrArg some (Reading.word_eq precedes (isFirst right))
        | unread none => exact (none first).elim

/-! ### The whole line -/

section Whole

variable {table : OptionTable} {arguments : List Text}

/-- `parse` throws for no line if it does not throw for the patterns. -/
theorem OptionTable.parse_isSome_iff : (table.register.parse arguments).isSome = true ↔ table.Compiles := by
  unfold Parser.parse OptionTable.Compiles
  rw [table.register_regexMap]
  constructor
  · intro isSome option isMember
    obtain ⟨parsed, isParsed⟩ := Option.isSome_iff_exists.mp isSome
    obtain ⟨found, isFound, _⟩ := (foldlM_parseEntry table.fulls isParsed).1 option isMember
    exact (option.found_isSome_iff _).mp (Option.isSome_iff_exists.mpr ⟨found, isFound⟩)
  · intro compiles
    apply foldlM_parseEntry_isSome
    exact fun option isMember => (option.found_isSome_iff _).mpr (compiles option isMember)

theorem OptionTable.getPlain_iff (isParsed : table.register.parse arguments = some parsed)
    (isMember : option ∈ table.options) (expected : Option Text) :
    parsed.getPlain option.full = expected ↔ option.Settled (Parser.joined arguments) expected := by
  unfold Parser.parse at isParsed
  rw [table.register_regexMap] at isParsed
  obtain ⟨found, isFound, isPlain⟩ := (foldlM_parseEntry table.fulls isParsed).1 option isMember
  rw [← OptionSpec.settled_iff isFound, ← table.register_plainMap isMember, ← isPlain]
  rfl

end Whole

/-- The options of `test_store`. -/
def storeTable : OptionTable where
  options :=
    [⟨"--type".toList, "-t".toList, some "compute".toList⟩, ⟨"--config".toList, "-c".toList, none⟩,
      ⟨"--memory_nodes".toList, "-m".toList, none⟩, ⟨"--threads".toList, "-T".toList, some "1".toList⟩,
      ⟨"--size".toList, "-s".toList, some "10000000".toList⟩, ⟨"--workload".toList, "-w".toList, some "C".toList⟩]
  fulls := by decide +kernel
  shorts := by decide +kernel

/-- The type and the configuration of a memory node. -/
def memoryNodeGivens : List Given :=
  [⟨⟨"--type".toList, "-t".toList, some "compute".toList⟩, .full, "memory".toList, by decide +kernel⟩,
    ⟨⟨"--config".toList, "-c".toList, none⟩, .fullJoined 1, "node.conf".toList, by decide +kernel⟩]

/-- The short name of the type stands in the full name of the threads. -/
def threadsGiven : List Given :=
  [⟨⟨"--threads".toList, "-T".toList, some "1".toList⟩, .full, "4".toList, by decide +kernel⟩]

/-- What is written between a name and its value. -/
def Written.gap : Written → Text
  | .full => [' ']
  | .fullJoined signs => List.replicate signs '='
  | .short => [' ']
  | .shortJoined => []

def Written.isShort : Written → Bool
  | .full => false
  | .fullJoined _ => false
  | .short => true
  | .shortJoined => true

/-- The name as it is written. -/
def Given.name (given : Given) : Text := if given.written.isShort then given.option.shrt else given.option.full

/-- The arguments of some pairs in the line. -/
def pairsLine (givens : List Given) : Text :=
  (givens.flatMap Given.arguments).flatMap fun argument => argument ++ [' ']

/-- A pair in its line. -/
theorem pairsLine_split (before : List Given) (given : Given) (after : List Given) :
    pairsLine (before ++ given :: after) =
      pairsLine before ++ given.name ++ (given.written.gap ++ (given.value ++ ' ' :: pairsLine after)) := by
  have own : (given.arguments.flatMap fun argument => argument ++ [' ']) =
      given.name ++ (given.written.gap ++ (given.value ++ [' '])) := by
    unfold Given.arguments Given.name Written.gap
    cases given.written <;> simp [Written.isShort]
  unfold pairsLine
  rw [List.flatMap_append, List.flatMap_cons, List.flatMap_append, List.flatMap_append, own]
  simp

theorem shortWord_value {value : Text} (unspaced : Unspaced value) (nonempty : value ≠ [])
    (rest : Text) : shortWord (value ++ ' ' :: rest) = some value := by
  cases value with
  | nil => exact absurd rfl nonempty
  | cons letter value =>
      have stops : ∀ other ∈ value, (!isBlank other) = true := by
        intro other isMember
        rw [unspaced other (List.mem_cons_of_mem _ isMember)]
        rfl
      show shortWord (letter :: (value ++ ' ' :: rest)) = _
      unfold shortWord
      rw [List.dropWhile_cons_of_neg (by rw [unspaced letter List.mem_cons_self]; exact Bool.false_ne_true)]
      show some (letter :: (value ++ ' ' :: rest).takeWhile _) = _
      rw [List.takeWhile_append_of_pos stops]
      exact congrArg (fun tail => some (letter :: tail)) (List.append_nil value)

theorem longWord_of_head {rest word : Text} (unsigned : rest.head? ≠ some '=') (isWord : shortWord rest = some word) :
    longWord rest = some word := by
  cases rest with
  | nil => cases isWord
  | cons letter rest =>
      rw [longWord_cons_other _ rest]
      · exact isWord
      · intro sign
        rw [of_decide_eq_true sign] at unsigned
        exact unsigned rfl

theorem longWord_signs {rest word : Text} (isWord : longWord rest = some word) (signs : Nat) :
    longWord (List.replicate signs '=' ++ rest) = some word := by
  induction signs with
  | zero => exact isWord
  | succ signs inductionHypothesis =>
      show longWord ('=' :: (List.replicate signs '=' ++ rest)) = _
      rw [longWord_cons_equals, inductionHypothesis]
      rfl

/-- A pair whose own place is the first one: the value is not empty, does not begin with `=`
where signs may be in front of it, and no place before it has the name. -/
structure Given.Clear (given : Given) (before : List Given) (line : Text) : Prop where
  nonempty : given.value ≠ []
  unsigned : ∀ signs, given.written = .fullJoined signs → given.value.head? ≠ some '='
  first : ∀ earlier later, line = earlier ++ given.name ++ later → (pairsLine before).length ≤ earlier.length
  noFull : given.written.isShort = true → ¬ given.option.full <:+: line

/-- Names that are searched for as they are. -/
def OptionTable.Literal (table : OptionTable) : Prop :=
  ∀ option ∈ table.options, IsLiteral option.full ∧ IsLiteral option.shrt

theorem OptionTable.Literal.compiles {table : OptionTable} (literal : table.Literal) : table.Compiles := by
  intro option isMember short
  obtain ⟨isFull, isShort⟩ := literal option isMember
  cases short with
  | false =>
      obtain ⟨regex, isRegex, _⟩ := compileRegex_long isFull
      exact Option.isSome_iff_exists.mpr ⟨regex, isRegex⟩
  | true =>
      obtain ⟨regex, isRegex, _⟩ := compileRegex_short isShort
      exact Option.isSome_iff_exists.mpr ⟨regex, isRegex⟩

/-- A literal name stands where it is read. -/
theorem Reading.stands (isFull : IsLiteral option.full) (isShort : IsLiteral option.shrt)
    (reading : Reading option line) :
    ∃ rest, line = reading.earlier ++ (if reading.short then option.shrt else option.full) ++ rest := by
  have captured := reading.captured
  cases isPattern : reading.short with
  | false =>
      rw [isPattern] at captured
      obtain ⟨rest, isLater, _⟩ := (captures_long isFull).mp captured
      refine ⟨rest, ?_⟩
      rw [List.append_assoc]
      exact reading.split.trans (congrArg _ isLater)
  | true =>
      rw [isPattern] at captured
      obtain ⟨rest, isLater, _⟩ := (captures_short isShort).mp captured
      refine ⟨rest, ?_⟩
      rw [List.append_assoc]
      exact reading.split.trans (congrArg _ isLater)

theorem Given.Clear.settled {given : Given} {before after : List Given}
    (isFull : IsLiteral given.option.full) (isShort : IsLiteral given.option.shrt)
    (clear : given.Clear before (pairsLine (before ++ given :: after))) :
    given.option.Settled (pairsLine (before ++ given :: after)) (some given.value) := by
  have split := pairsLine_split before given after
  have isWord := shortWord_value given.unspaced clear.nonempty (pairsLine after)
  have behindBlank : shortWord (' ' :: (given.value ++ ' ' :: pairsLine after)) = some given.value := isWord
  have captured : captures (given.option.pattern given.written.isShort) (pairsLine before)
      (given.name ++ (given.written.gap ++ (given.value ++ ' ' :: pairsLine after))) = some given.value := by
    have unsigned := clear.unsigned
    unfold Given.name Written.gap
    cases isWritten : given.written with
    | full =>
        have unsignedBlank : some ' ' ≠ some '=' := by decide
        exact (captures_long isFull).mpr ⟨_, rfl, longWord_of_head unsignedBlank behindBlank⟩
    | fullJoined signs =>
        refine (captures_long isFull).mpr ⟨_, rfl, longWord_signs (longWord_of_head ?_ isWord) signs⟩
        rw [List.head?_append_of_ne_nil _ clear.nonempty]
        exact unsigned signs isWritten
    | short => exact (captures_short isShort).mpr ⟨_, rfl, behindBlank⟩
    | shortJoined => exact (captures_short isShort).mpr ⟨_, rfl, isWord⟩
  refine .read ⟨given.written.isShort, pairsLine before, _, given.value, by rw [split, List.append_assoc], captured⟩ ?_
  intro stray precedes
  obtain ⟨rest, stands⟩ := stray.stands isFull isShort
  rcases precedes with ⟨isLong, notLong⟩ | ⟨same, sooner⟩
  · rw [isLong] at stands
    exact absurd ⟨stray.earlier, rest, stands.symm⟩ (clear.noFull notLong)
  · rw [same] at stands
    exact absurd (clear.first stray.earlier rest stands) (Nat.not_le.mpr sooner)

/-- Literal names that stand in the line at their own pairs only do not leak. -/
theorem keptApart_of_clear {table : OptionTable} (literal : table.Literal) (program : Text) {givens : List Given}
    (absent : ∀ option ∈ table.options, (∀ given ∈ givens, given.option ≠ option) →
      ¬ option.full <:+: pairsLine givens ∧ ¬ option.shrt <:+: pairsLine givens)
    (clear : ∀ before given after, givens = before ++ given :: after → given.Clear before (pairsLine givens)) :
    KeptApart table program givens := by
  obtain ⟨parsed, isParsed⟩ := Option.isSome_iff_exists.mp
    (@OptionTable.parse_isSome_iff table (argv program givens) |>.mpr literal.compiles)
  refine ⟨parsed, isParsed, fun option isMember => ?_⟩
  obtain ⟨isFull, isShort⟩ := literal option isMember
  constructor
  · intro notGiven
    obtain ⟨noFull, noShort⟩ := absent option isMember notGiven
    apply (table.getPlain_iff isParsed isMember _).mpr
    refine .unread fun reading => ?_
    obtain ⟨rest, stands⟩ := reading.stands isFull isShort
    cases isPattern : reading.short with
    | false =>
        rw [isPattern] at stands
        exact noFull ⟨reading.earlier, rest, stands.symm⟩
    | true =>
        rw [isPattern] at stands
        exact noShort ⟨reading.earlier, rest, stands.symm⟩
  · intro given isOnly
    have inFilter : given ∈ givens.filter fun other => decide (other.option = option) := by
      rw [isOnly]
      exact List.mem_singleton.mpr rfl
    obtain ⟨isGiven, isOption⟩ := List.mem_filter.mp inFilter
    obtain ⟨before, after, isSplit⟩ := List.append_of_mem isGiven
    have own := clear before given after isSplit
    rw [isSplit] at own
    have sameOption : given.option = option := of_decide_eq_true isOption
    apply (table.getPlain_iff isParsed isMember _).mpr
    rw [← sameOption] at isFull isShort ⊢
    change given.option.Settled (pairsLine givens) (some given.value)
    rw [isSplit]
    exact own.settled isFull isShort

end DiStore.CmdParser
