import Mathlib.Data.List.Basic
import Mathlib.Data.List.TakeWhile
import Mathlib.Logic.Function.Basic

/-!
Contract: ECMAScript patterns and their backtracking search.

Owns: patterns with choices, groups, assertions, back references and bounded repetitions, the
match at a place in order of preference, the search from left to right, and the rules for a
literal word, for a greedy run of letters, and for the first place.

Does not own: how a pattern is written (`Library.RegexSyntax`), and comparison without case.

## Order of preference

A match is told what has to follow it. The first way to go on with which all of that succeeds is
taken, so a choice prefers its first part and a greedy repetition one more round.
-/

set_option autoImplicit false

namespace DiStore.Library

variable {α : Type}

/-- A place in a text: the letter before it, the letters behind it, and the texts of the groups
that are closed there. -/
structure Place (α : Type) where
  before : Option α
  rest : List α
  groups : Nat → Option (List α)

inductive Regex (α : Type) where
  | empty
  | letter (accepts : α → Bool)
  | textStart
  | textEnd
  | wordEdge (isWord : α → Bool) (expected : Bool)
  | seq (first second : Regex α)
  | either (first second : Regex α)
  | group (index : Nat) (body : Regex α)
  | reference (index : Nat)
  | ahead (expected : Bool) (body : Regex α)
  /-- `inner` are the groups that begin a round unset; `most` is `none` without a bound. -/
  | repeated (least : Nat) (most : Option Nat) (greedy : Bool) (inner : List Nat) (body : Regex α)

/-! ### Matching -/

namespace Place

variable (place : Place α)

/-- Behind the next letter. -/
def step (letter : α) : Place α := { place with before := some letter, rest := place.rest.tail }

def skip (letters : List α) : Place α := letters.foldl step place

def unset (inner : List Nat) : Place α :=
  { place with groups := fun index => if index ∈ inner then none else place.groups index }

/-- The text from here to a later place becomes the text of a group. -/
def close (index : Nat) (later : Place α) : Place α :=
  { later with
    groups := Function.update later.groups index
      (some (place.rest.take (place.rest.length - later.rest.length))) }

def atWordEdge (isWord : α → Bool) : Bool := place.before.any isWord != place.rest.head?.any isWord

end Place

/-- What has to follow. -/
abbrev Follow (α : Type) := Place α → Option (Place α)

/-- Rounds of a repetition. A round that the lower bound does not ask for has to take a letter, so
more rounds than that bound and the letters left are never begun. -/
def repeatFrom (round : Follow α → Follow α) (greedy : Bool) (inner : List Nat) (next : Follow α) :
    Nat → Nat → Option Nat → Follow α
  | 0, _, _, place => next place
  | rounds + 1, least, most, place =>
      let more := round (fun later =>
          if least = 0 ∧ later.rest.length = place.rest.length then none
          else repeatFrom round greedy inner next rounds (least - 1) (most.map (· - 1)) later)
        (place.unset inner)
      if most = some 0 then next place
      else if least ≠ 0 then more
      else if greedy then more.or (next place)
      else (next place).or more

/-- The first match in order of preference, with what has to follow it. -/
def Regex.matchFrom [DecidableEq α] : Regex α → Follow α → Follow α
  | .empty, next, place => next place
  | .letter accepts, next, place =>
      match place.rest with
      | [] => none
      | head :: _ => if accepts head then next (place.step head) else none
  | .textStart, next, place => if place.before.isNone then next place else none
  | .textEnd, next, place => if place.rest.isEmpty then next place else none
  | .wordEdge isWord expected, next, place => if place.atWordEdge isWord = expected then next place else none
  | .seq first second, next, place => first.matchFrom (second.matchFrom next) place
  | .either first second, next, place => (first.matchFrom next place).or (second.matchFrom next place)
  | .group index body, next, place => body.matchFrom (fun later => next (place.close index later)) place
  | .reference index, next, place =>
      match place.groups index with
      | none => next place
      | some text => if text.isPrefixOf place.rest then next (place.skip text) else none
  | .ahead true body, next, place =>
      (body.matchFrom some place).bind fun later => next { place with groups := later.groups }
  | .ahead false body, next, place => if (body.matchFrom some place).isSome then none else next place
  | .repeated least most greedy inner body, next, place =>
      repeatFrom (fun next place => body.matchFrom next place) greedy inner next
        (least + place.rest.length + 1) least most place

section Search

variable [DecidableEq α] (regex : Regex α)

/-- The match that begins at a place. -/
def Regex.matchAt (before : Option α) (text : List α) : Option (Place α) :=
  regex.matchFrom some ⟨before, text, fun _ => none⟩

/-- The leftmost match behind a letter. -/
def Regex.searchBehind : Option α → List α → Option (Place α)
  | before, [] => regex.matchAt before []
  | before, head :: text => (regex.matchAt before (head :: text)).or (searchBehind (some head) text)

def Regex.search (text : List α) : Option (Place α) := regex.searchBehind none text

end Search

/-! ### Enough rounds -/

section Rounds

/-- What follows is only asked at places with no more letters left. -/
def Forward (round : Follow α → Follow α) : Prop :=
  ∀ (next other : Follow α) (place : Place α),
    (∀ later, later.rest.length ≤ place.rest.length → next later = other later) → round next place = round other place

variable {round : Follow α → Follow α} {greedy : Bool} {inner : List Nat}

theorem repeatFrom_forward (forward : Forward round) (rounds least : Nat) (most : Option Nat) :
    Forward fun next => repeatFrom round greedy inner next rounds least most := by
  intro next other place same
  have here := same place le_rfl
  induction rounds generalizing least most place with
  | zero => exact here
  | succ rounds inductionHypothesis =>
      have more := forward
        (fun later => if least = 0 ∧ later.rest.length = place.rest.length then none
          else repeatFrom round greedy inner next rounds (least - 1) (most.map (· - 1)) later)
        (fun later => if least = 0 ∧ later.rest.length = place.rest.length then none
          else repeatFrom round greedy inner other rounds (least - 1) (most.map (· - 1)) later)
        (place.unset inner) (by
          intro later isLater
          have within : ∀ further : Place α, further.rest.length ≤ later.rest.length → next further = other further :=
            fun further isFurther => same further (isFurther.trans isLater)
          simp only [inductionHypothesis (least - 1) (most.map (· - 1)) later within (within later le_rfl)])
      simp only [repeatFrom, here, more]

/-- Rounds that no match can use up change nothing. -/
theorem repeatFrom_succ (forward : Forward round) (next : Follow α) {rounds least : Nat} (most : Option Nat)
    {place : Place α} (enough : least + place.rest.length < rounds) :
    repeatFrom round greedy inner next (rounds + 1) least most place =
      repeatFrom round greedy inner next rounds least most place := by
  induction rounds generalizing least most place with
  | zero => exact absurd enough (Nat.not_lt_zero _)
  | succ rounds inductionHypothesis =>
      have more := forward
        (fun later => if least = 0 ∧ later.rest.length = place.rest.length then none
          else repeatFrom round greedy inner next (rounds + 1) (least - 1) (most.map (· - 1)) later)
        (fun later => if least = 0 ∧ later.rest.length = place.rest.length then none
          else repeatFrom round greedy inner next rounds (least - 1) (most.map (· - 1)) later)
        (place.unset inner) (by
          intro later isLater
          change later.rest.length ≤ place.rest.length at isLater
          by_cases stays : least = 0 ∧ later.rest.length = place.rest.length
          · rw [if_pos stays, if_pos stays]
          · rw [if_neg stays, if_neg stays, inductionHypothesis _ (by omega)])
      rw [repeatFrom, repeatFrom]
      simp only [more]

theorem Place.length_rest_skip (place : Place α) (letters : List α) :
    (place.skip letters).rest.length ≤ place.rest.length := by
  induction letters generalizing place with
  | nil => exact le_rfl
  | cons letter letters inductionHypothesis =>
      apply (inductionHypothesis (place.step letter)).trans
      change place.rest.tail.length ≤ place.rest.length
      rw [List.length_tail]
      exact Nat.sub_le _ _

/-- By induction on the pattern. -/
theorem Regex.matchFrom_forward [DecidableEq α] (regex : Regex α) : Forward regex.matchFrom := by
  induction regex with
  | empty => exact fun next other place same => same place le_rfl
  | letter accepts =>
      intro next other place same
      unfold Regex.matchFrom
      have here : ∀ head, next (place.step head) = other (place.step head) :=
        fun head => same _ (place.length_rest_skip [head])
      simp only [here]
  | textStart =>
      intro next other place same
      simp only [Regex.matchFrom, same place le_rfl]
  | textEnd =>
      intro next other place same
      simp only [Regex.matchFrom, same place le_rfl]
  | wordEdge isWord expected =>
      intro next other place same
      simp only [Regex.matchFrom, same place le_rfl]
  | seq first second firstForward secondForward =>
      intro next other place same
      apply firstForward
      intro later isLater
      exact secondForward next other later fun further isFurther => same further (isFurther.trans isLater)
  | either first second firstForward secondForward =>
      intro next other place same
      simp only [Regex.matchFrom, firstForward next other place same, secondForward next other place same]
  | group index body forward =>
      intro next other place same
      apply forward
      exact fun later isLater => same (place.close index later) isLater
  | reference index =>
      intro next other place same
      have here : ∀ text, next (place.skip text) = other (place.skip text) :=
        fun text => same _ (place.length_rest_skip text)
      simp only [Regex.matchFrom, same place le_rfl, here]
  | ahead expected body forward =>
      intro next other place same
      have here : ∀ groups, next { place with groups := groups } = other { place with groups := groups } :=
        fun groups => same _ le_rfl
      cases expected with
      | true => simp only [Regex.matchFrom, here]
      | false => simp only [Regex.matchFrom, same place le_rfl]
  | repeated least most greedy inner body forward =>
      exact fun next other place same => repeatFrom_forward forward _ least most next other place same

/-- No match is lost to the number of rounds. -/
theorem Regex.matchFrom_repeated [DecidableEq α] (least : Nat) (most : Option Nat) (greedy : Bool) (inner : List Nat)
    (body : Regex α) (next : Follow α) (place : Place α) (more : Nat) :
    repeatFrom body.matchFrom greedy inner next (least + place.rest.length + 1 + more) least most place =
      (Regex.repeated least most greedy inner body).matchFrom next place := by
  induction more with
  | zero => rfl
  | succ more inductionHypothesis =>
      rw [← inductionHypothesis, ← Nat.add_assoc]
      exact repeatFrom_succ body.matchFrom_forward next most (by omega)

end Rounds

/-! ### Words -/

section Words

variable [DecidableEq α]

/-- A literal word, with what has to follow it. -/
def wordFrom (word : List α) (next : Follow α) : Follow α := fun place =>
  if word <+: place.rest then next (place.skip word) else none

/-- A letter that stands for itself. -/
def Regex.this (letter : α) : Regex α := .letter fun other => decide (other = letter)

theorem wordFrom_nil (next : Follow α) : wordFrom [] next = next := by
  funext place
  exact if_pos List.nil_prefix

theorem wordFrom_cons (letter : α) (word : List α) (next : Follow α) :
    wordFrom (letter :: word) next = (Regex.this letter).matchFrom (wordFrom word next) := by
  funext place
  unfold wordFrom Regex.this Regex.matchFrom
  cases isRest : place.rest with
  | nil => exact if_neg fun isPrefix => List.cons_ne_nil _ _ (List.prefix_nil.mp isPrefix)
  | cons head rest =>
      simp only [decide_eq_true_eq]
      by_cases same : head = letter
      · have stepped : (place.step head).rest = rest := by
          change place.rest.tail = rest
          rw [isRest, List.tail_cons]
        rw [if_pos same, stepped, same]
        by_cases isPrefix : word <+: rest
        · rw [if_pos isPrefix, if_pos (List.cons_prefix_cons.mpr ⟨rfl, isPrefix⟩)]
          rfl
        · rw [if_neg isPrefix, if_neg fun whole => isPrefix (List.cons_prefix_cons.mp whole).2]
      · rw [if_neg same, if_neg fun whole => same (List.cons_prefix_cons.mp whole).1.symm]

omit [DecidableEq α] in
theorem Place.rest_skip (place : Place α) (letters : List α) :
    (place.skip letters).rest = place.rest.drop letters.length := by
  induction letters generalizing place with
  | nil => rfl
  | cons letter letters inductionHypothesis =>
      change ((place.step letter).skip letters).rest = _
      rw [inductionHypothesis, List.length_cons, ← List.drop_drop]
      change List.drop _ place.rest.tail = _
      rw [← List.drop_one, List.drop_drop, List.drop_drop, Nat.add_comm]

end Words

/-! ### Runs -/

section Runs

variable {accepts : α → Bool} {next : Follow α} {place : Place α}

/-- A run of letters that takes as many as it can. -/
def runFrom (accepts : α → Bool) (next : Follow α) (groups : Nat → Option (List α)) :
    Option α → List α → Option (Place α)
  | before, [] => next ⟨before, [], groups⟩
  | before, letter :: rest =>
      if accepts letter then
        (runFrom accepts next groups (some letter) rest).or (next ⟨before, letter :: rest, groups⟩)
      else next ⟨before, letter :: rest, groups⟩

theorem repeatFrom_greedy (round : Follow α → Follow α) (inner : List Nat) (next : Follow α) (rounds : Nat)
    (place : Place α) :
    repeatFrom round true inner next (rounds + 1) 0 none place =
      (round (fun later => if later.rest.length = place.rest.length then none
        else repeatFrom round true inner next rounds 0 none later) (place.unset inner)).or (next place) := by
  rw [repeatFrom, if_neg (Option.some_ne_none 0).symm, if_neg (not_not.mpr rfl), if_pos rfl]
  simp only [true_and]
  rfl

variable [DecidableEq α]

theorem matchFrom_letter_cons (accepts : α → Bool) (next : Follow α) (before : Option α) (letter : α) (text : List α)
    (groups : Nat → Option (List α)) :
    (Regex.letter accepts).matchFrom next ⟨before, letter :: text, groups⟩ =
      if accepts letter then next ⟨some letter, text, groups⟩ else none := rfl

theorem repeatFrom_letter (accepts : α → Bool) (next : Follow α) (groups : Nat → Option (List α))
    (before : Option α) (text : List α) {rounds : Nat} (enough : text.length < rounds) :
    repeatFrom (fun next place => (Regex.letter accepts).matchFrom next place) true [] next rounds 0 none
        ⟨before, text, groups⟩ = runFrom accepts next groups before text := by
  have unset : ∀ (before : Option α) (rest : List α),
      (Place.mk before rest groups).unset [] = ⟨before, rest, groups⟩ := by
    intro before rest
    unfold Place.unset
    simp only [List.not_mem_nil, if_false]
  induction text generalizing before rounds with
  | nil =>
      obtain ⟨rounds, rfl⟩ : ∃ fewer, rounds = fewer + 1 := ⟨rounds - 1, by omega⟩
      rw [repeatFrom_greedy, unset]
      rfl
  | cons letter text inductionHypothesis =>
      obtain ⟨rounds, rfl⟩ : ∃ fewer, rounds = fewer + 1 := ⟨rounds - 1, by omega⟩
      have fewer : text.length < rounds := Nat.lt_of_succ_lt_succ enough
      have shorter : ¬ text.length = (letter :: text).length := by
        rw [List.length_cons]
        omega
      rw [repeatFrom_greedy, unset, matchFrom_letter_cons, runFrom]
      by_cases accepted : accepts letter = true
      · rw [if_pos accepted, if_pos accepted, if_neg shorter, inductionHypothesis (some letter) fewer]
      · rw [if_neg accepted, if_neg accepted, Option.none_or]

/-- What a greedy repetition of letters does. -/
theorem matchFrom_run (accepts : α → Bool) (next : Follow α) (place : Place α) :
    (Regex.repeated 0 none true [] (.letter accepts)).matchFrom next place =
      runFrom accepts next place.groups place.before place.rest := by
  unfold Regex.matchFrom
  exact repeatFrom_letter accepts next place.groups place.before place.rest (by omega)

/-- At least one letter. -/
theorem matchFrom_run_one (accepts : α → Bool) (next : Follow α) (before : Option α) (letter : α) (text : List α)
    (groups : Nat → Option (List α)) :
    (Regex.repeated 1 none true [] (.letter accepts)).matchFrom next ⟨before, letter :: text, groups⟩ =
      if accepts letter then runFrom accepts next groups (some letter) text else none := by
  have unset : (Place.mk before (letter :: text) groups).unset [] = ⟨before, letter :: text, groups⟩ := by
    unfold Place.unset
    simp only [List.not_mem_nil, if_false]
  unfold Regex.matchFrom
  rw [repeatFrom, if_neg (Option.some_ne_none 0).symm, if_pos Nat.one_ne_zero, unset, matchFrom_letter_cons]
  by_cases accepted : accepts letter = true
  · rw [if_pos accepted, if_pos accepted, if_neg fun both => Nat.one_ne_zero both.1]
    apply repeatFrom_letter
    change text.length < 1 + (letter :: text).length
    rw [List.length_cons]
    omega
  · rw [if_neg accepted, if_neg accepted]

omit [DecidableEq α] in
/-- A run takes all it can when what follows it never begins with one of its letters. -/
theorem runFrom_of_blocked {groups : Nat → Option (List α)}
    (blocked : ∀ before letter text, accepts letter = true → next ⟨before, letter :: text, groups⟩ = none)
    (before : Option α) (text : List α) :
    runFrom accepts next groups before text =
      next ((Place.mk before text groups).skip (text.takeWhile accepts)) := by
  induction text generalizing before with
  | nil => rfl
  | cons letter text inductionHypothesis =>
      rw [runFrom]
      by_cases accepted : accepts letter = true
      · rw [if_pos accepted, blocked _ _ _ accepted, Option.or_none, inductionHypothesis,
          List.takeWhile_cons_of_pos accepted]
        rfl
      · rw [if_neg accepted, List.takeWhile_cons_of_neg accepted]
        rfl

omit [DecidableEq α] in
/-- A run takes all it can when anything may follow it. -/
theorem runFrom_of_free {groups : Nat → Option (List α)} (free : ∀ place, (next place).isSome = true)
    (before : Option α) (text : List α) :
    runFrom accepts next groups before text =
      next ((Place.mk before text groups).skip (text.takeWhile accepts)) := by
  induction text generalizing before with
  | nil => rfl
  | cons letter text inductionHypothesis =>
      rw [runFrom]
      by_cases accepted : accepts letter = true
      · rw [if_pos accepted, inductionHypothesis, Option.or_of_isSome (free _), List.takeWhile_cons_of_pos accepted]
        rfl
      · rw [if_neg accepted, List.takeWhile_cons_of_neg accepted]
        rfl

end Runs

/-! ### Places -/

section Places

variable [DecidableEq α] {regex : Regex α} {before : Option α} {text : List α} {place : Place α}

omit [DecidableEq α] in
theorem getLast_or_cons (letter : α) (earlier : List α) (before : Option α) :
    (letter :: earlier).getLast?.or before = earlier.getLast?.or (some letter) := by
  rw [List.getLast?_cons]
  cases earlier.getLast? <;> rfl

theorem searchBehind_eq_none :
    regex.searchBehind before text = none ↔
      ∀ earlier later, text = earlier ++ later → regex.matchAt (earlier.getLast?.or before) later = none := by
  induction text generalizing before with
  | nil =>
      constructor
      · intro isNone earlier later isText
        obtain ⟨isEarlier, isLater⟩ := List.append_eq_nil_iff.mp isText.symm
        rw [isEarlier, isLater]
        exact isNone
      · exact fun none => none [] [] rfl
  | cons letter text inductionHypothesis =>
      unfold Regex.searchBehind
      rw [Option.or_eq_none_iff, inductionHypothesis]
      constructor
      · rintro ⟨here, behind⟩ earlier later isText
        cases earlier with
        | nil =>
            rw [← List.nil_append later, ← isText]
            exact here
        | cons _ earlier =>
            obtain ⟨isLetter, isRest⟩ := List.cons.inj isText
            rw [← isLetter, getLast_or_cons]
            exact behind earlier later isRest
      · intro none
        refine ⟨none [] _ rfl, fun earlier later isText => ?_⟩
        rw [← getLast_or_cons letter earlier before]
        exact none (letter :: earlier) later (congrArg (letter :: ·) isText)

/-- The search finds the match at the first place that has one. -/
theorem searchBehind_eq_some :
    regex.searchBehind before text = some place ↔
      ∃ earlier later, text = earlier ++ later ∧ regex.matchAt (earlier.getLast?.or before) later = some place ∧
        ∀ sooner rest, text = sooner ++ rest → sooner.length < earlier.length →
          regex.matchAt (sooner.getLast?.or before) rest = none := by
  induction text generalizing before with
  | nil =>
      constructor
      · intro found
        exact ⟨[], [], rfl, found, fun _ _ _ isSooner => absurd isSooner (Nat.not_lt_zero _)⟩
      · rintro ⟨earlier, later, isText, found, _⟩
        obtain ⟨isEarlier, isLater⟩ := List.append_eq_nil_iff.mp isText.symm
        rw [isEarlier, isLater] at found
        exact found
  | cons letter text inductionHypothesis =>
      unfold Regex.searchBehind
      rw [Option.or_eq_some_iff, inductionHypothesis]
      constructor
      · rintro (here | ⟨notHere, earlier, later, isText, found, first⟩)
        · exact ⟨[], _, rfl, here, fun _ _ _ isSooner => absurd isSooner (Nat.not_lt_zero _)⟩
        · refine ⟨letter :: earlier, later, congrArg (letter :: ·) isText, ?_, ?_⟩
          · rw [getLast_or_cons]
            exact found
          · intro sooner rest isSplit isSooner
            cases sooner with
            | nil =>
                rw [← List.nil_append rest, ← isSplit]
                exact notHere
            | cons _ sooner =>
                obtain ⟨isLetter, isRest⟩ := List.cons.inj isSplit
                rw [← isLetter, getLast_or_cons]
                exact first sooner rest isRest (Nat.lt_of_succ_lt_succ isSooner)
      · rintro ⟨earlier, later, isText, found, first⟩
        cases earlier with
        | nil =>
            rw [← List.nil_append later, ← isText] at found
            exact Or.inl found
        | cons _ earlier =>
            obtain ⟨isLetter, isRest⟩ := List.cons.inj isText
            rw [← isLetter, getLast_or_cons] at found
            refine Or.inr ⟨first [] _ rfl (Nat.zero_lt_succ _), earlier, later, isRest, found, ?_⟩
            intro sooner rest isSplit isSooner
            rw [← getLast_or_cons letter sooner before]
            exact first (letter :: sooner) rest (congrArg (letter :: ·) isSplit) (Nat.succ_lt_succ isSooner)

end Places

end DiStore.Library
