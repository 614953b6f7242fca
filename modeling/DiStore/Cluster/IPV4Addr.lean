import DiStore.Common.DecimalText
import DiStore.Library.WholeMatch
import Mathlib.Data.Fin.VecNotation
import Mathlib.Data.Fintype.Pi

/-!
Contract: the IPv4 addresses of the node lists.

Owns: `atoi`, `make_ipv4_addr` and `to_string` of `IPV4Addr`, the texts that are four numbers
with dots between them, and which of them the parser reads as they stand.

Does **not** own: the pattern that finds such a text in a line of a node list.

## Octets above 255

The pattern bounds the digits of an octet and not its value, and the assignment to
`content[i]` keeps the low byte. A text with such an octet is accepted as another address.
-/

set_option autoImplicit false

namespace DiStore.Cluster

open DiStore.Library

/-- `isspace`. -/
def isSpace (letter : UInt8) : Bool := letter == 32 || (9 ≤ letter && letter ≤ 13)

/-- `IPV4Addr`. -/
@[ext]
structure IPV4Addr where
  content : Fin 4 → UInt8

instance : DecidableEq IPV4Addr := fun left right =>
  decidable_of_iff (left.content = right.content) IPV4Addr.ext_iff.symm

/-- `(\d{1,3})`. -/
def octetGroup : WholeItem UInt8 := .group isDigitLetter 1 3

/-- `\.`. -/
def dotLetter : WholeItem UInt8 := .letter fun letter => decide (letter = 46)

/-- `ip_pattern`. -/
def ipPattern : List (WholeItem UInt8) :=
  [octetGroup, dotLetter, octetGroup, dotLetter, octetGroup, dotLetter, octetGroup]

namespace IPV4Addr

/-- `atoi`: the digits behind blanks and a sign. -/
def atoi (text : Str) : Int :=
  match text.dropWhile isSpace with
  | 45 :: digits => -(numberOf (digits.takeWhile isDigitLetter) : Int)
  | 43 :: digits => numberOf (digits.takeWhile isDigitLetter)
  | digits => numberOf (digits.takeWhile isDigitLetter)

/-- `make_ipv4_addr`. The assignment of an `int` to `content[i]` keeps its low byte. -/
def makeIpv4Addr (text : Str) : Option IPV4Addr :=
  (wholeMatch ipPattern text).map fun result => ⟨fun index => UInt8.ofInt (atoi (result.getD index []))⟩

/-- `to_string`. -/
def toString (addr : IPV4Addr) : Str :=
  [1, 2, 3].foldl (fun stream (index : Fin 4) => stream ++ 46 :: DiStore.toString (addr.content index).toNat)
    (DiStore.toString (addr.content 0).toNat)

end IPV4Addr

/-! ## Texts of four numbers -/

/-- Four numbers of one to three digits, with dots between them. -/
structure Dotted (octets : Fin 4 → Str) (text : Str) : Prop where
  digits : ∀ index, ∀ letter ∈ octets index, isDigitLetter letter = true
  least : ∀ index, 1 ≤ (octets index).length
  most : ∀ index, (octets index).length ≤ 3
  joined : text = octets 0 ++ 46 :: (octets 1 ++ 46 :: (octets 2 ++ 46 :: octets 3))

theorem isDigitLetter_dot : isDigitLetter 46 = false := by decide

theorem separated_ipPattern : Separated ipPattern := by
  have blocks : ∀ items, Blocks isDigitLetter (dotLetter :: items) := by
    intro items letter isDot
    rw [of_decide_eq_true isDot, isDigitLetter_dot]
  exact ⟨blocks _, blocks _, blocks _, trivial, trivial⟩

/-- The captures of the pattern are the four numbers. -/
theorem wholeMatch_ipPattern {text : Str} {groups : List Str} :
    wholeMatch ipPattern text = some groups ↔
      ∃ octets : Fin 4 → Str, Dotted octets text ∧ groups = [octets 0, octets 1, octets 2, octets 3] := by
  rw [wholeMatch_eq_some_iff separated_ipPattern]
  constructor
  · rintro ⟨first, _, _, isGroups, isText, least0, most0, digits0, dot0, _, isDot0, dotted0,
      second, _, _, isGroups1, isText1, least1, most1, digits1, dot1, _, isDot1, dotted1,
      third, _, _, isGroups2, isText2, least2, most2, digits2, dot2, _, isDot2, dotted2,
      fourth, _, _, isGroups3, isText3, least3, most3, digits3, isNil, isEnd⟩
    have dots := And.intro (of_decide_eq_true dotted0) (And.intro (of_decide_eq_true dotted1)
      (of_decide_eq_true dotted2))
    refine ⟨![first, second, third, fourth], ⟨?_, ?_, ?_, ?_⟩, ?_⟩
    · exact Fin.forall_fin_succ.mpr ⟨digits0, Fin.forall_fin_succ.mpr ⟨digits1, Fin.forall_fin_two.mpr ⟨digits2, digits3⟩⟩⟩
    · exact Fin.forall_fin_succ.mpr ⟨least0, Fin.forall_fin_succ.mpr ⟨least1, Fin.forall_fin_two.mpr ⟨least2, least3⟩⟩⟩
    · exact Fin.forall_fin_succ.mpr ⟨most0, Fin.forall_fin_succ.mpr ⟨most1, Fin.forall_fin_two.mpr ⟨most2, most3⟩⟩⟩
    · rw [isText, isDot0, isText1, isDot1, isText2, isDot2, isText3, isEnd, dots.1, dots.2.1, dots.2.2,
        List.append_nil]
      rfl
    · rw [isGroups, isGroups1, isGroups2, isGroups3, isNil]
      rfl
  · rintro ⟨octets, dotted, isGroups⟩
    rw [isGroups, dotted.joined]
    have capture : ∀ (index : Fin 4) {items : List (WholeItem UInt8)} {others : List Str} {rest : Str},
        Fits items others rest → Fits (octetGroup :: items) (octets index :: others) (octets index ++ rest) :=
      fun index items others rest later => ⟨octets index, others, rest, rfl, rfl, dotted.least index,
        dotted.most index, dotted.digits index, later⟩
    have dot : ∀ {items : List (WholeItem UInt8)} {others : List Str} {rest : Str},
        Fits items others rest → Fits (dotLetter :: items) others (46 :: rest) :=
      fun later => ⟨46, _, rfl, decide_eq_true rfl, later⟩
    have last : Fits [octetGroup] [octets 3] (octets 3) := by
      have nothing : Fits ([] : List (WholeItem UInt8)) [] ([] : Str) := ⟨rfl, rfl⟩
      have atEnd := capture 3 nothing
      rw [List.append_nil] at atEnd
      exact atEnd
    exact capture 0 (dot (capture 1 (dot (capture 2 (dot last)))))

/-- A text has at most one reading. -/
theorem Dotted.unique {octets others : Fin 4 → Str} {text : Str} (dotted : Dotted octets text)
    (other : Dotted others text) : octets = others := by
  have matched := wholeMatch_ipPattern.mpr ⟨octets, dotted, rfl⟩
  rw [wholeMatch_ipPattern.mpr ⟨others, other, rfl⟩, Option.some.injEq] at matched
  simp only [List.cons.injEq, and_true] at matched
  funext index
  revert index
  exact Fin.forall_fin_succ.mpr ⟨matched.1.symm, Fin.forall_fin_succ.mpr ⟨matched.2.1.symm,
    Fin.forall_fin_two.mpr ⟨matched.2.2.1.symm, matched.2.2.2.symm⟩⟩⟩

/-! ## What the parser reads -/

/-- `atoi` of digits is their number. -/
theorem atoi_digits {text : Str} (digits : ∀ letter ∈ text, isDigitLetter letter = true) :
    IPV4Addr.atoi text = numberOf text := by
  have kept : text.takeWhile isDigitLetter = text := List.takeWhile_eq_self_iff.mpr digits
  cases text with
  | nil => rfl
  | cons letter rest =>
      have accepted := (isDigitLetter_iff letter).mp (digits letter (List.mem_cons_self ..))
      have notSpace : ¬ isSpace letter = true := by
        unfold isSpace
        rw [Bool.or_eq_true, Bool.and_eq_true, beq_iff_eq, decide_eq_true_iff, decide_eq_true_iff,
          ← UInt8.toNat_inj, UInt8.le_iff_toNat_le, UInt8.le_iff_toNat_le]
        simp
        omega
      have notMinus : letter ≠ 45 := fun same => absurd accepted (by rw [same]; decide)
      have notPlus : letter ≠ 43 := fun same => absurd accepted (by rw [same]; decide)
      unfold IPV4Addr.atoi
      rw [List.dropWhile_cons_of_neg notSpace]
      split
      next _ isMinus => exact absurd (List.cons.inj isMinus).1 notMinus
      next _ isPlus => exact absurd (List.cons.inj isPlus).1 notPlus
      next => rw [kept]

/-- The byte of an `int` that is no less than zero. -/
theorem ofInt_natCast (number : Nat) : UInt8.ofInt number = UInt8.ofNat number := by
  have lowByte : ((number : Int) % 2 ^ 8).toNat = number % 2 ^ 8 := by omega
  unfold UInt8.ofInt
  rw [lowByte, UInt8.ofNat_mod_size]

/-- Exactly the texts of four numbers are accepted, each octet taken modulo 256. -/
theorem makeIpv4Addr_eq_some_iff {text : Str} {addr : IPV4Addr} :
    IPV4Addr.makeIpv4Addr text = some addr ↔
      ∃ octets, Dotted octets text ∧ ∀ index, addr.content index = UInt8.ofNat (numberOf (octets index)) := by
  have read : ∀ {octets : Fin 4 → Str}, Dotted octets text → ∀ index : Fin 4,
      UInt8.ofInt (IPV4Addr.atoi ([octets 0, octets 1, octets 2, octets 3].getD index [])) =
        UInt8.ofNat (numberOf (octets index)) := by
    intro octets dotted index
    have captured : [octets 0, octets 1, octets 2, octets 3].getD index [] = octets index := by
      revert index
      exact Fin.forall_fin_succ.mpr ⟨rfl, Fin.forall_fin_succ.mpr ⟨rfl, Fin.forall_fin_two.mpr ⟨rfl, rfl⟩⟩⟩
    rw [captured, atoi_digits (dotted.digits index), ofInt_natCast]
  unfold IPV4Addr.makeIpv4Addr
  rw [Option.map_eq_some_iff]
  constructor
  · rintro ⟨groups, matched, isAddr⟩
    rcases wholeMatch_ipPattern.mp matched with ⟨octets, dotted, isGroups⟩
    refine ⟨octets, dotted, fun index => ?_⟩
    rw [← isAddr, isGroups]
    exact read dotted index
  · rintro ⟨octets, dotted, contents⟩
    refine ⟨_, wholeMatch_ipPattern.mpr ⟨octets, dotted, rfl⟩, ?_⟩
    apply IPV4Addr.ext
    funext index
    rw [contents index]
    exact read dotted index

/-- The address of four numbers, as the parser builds it. -/
theorem makeIpv4Addr_dotted {octets : Fin 4 → Str} {text : Str} (dotted : Dotted octets text) :
    IPV4Addr.makeIpv4Addr text = some ⟨fun index => UInt8.ofNat (numberOf (octets index))⟩ :=
  makeIpv4Addr_eq_some_iff.mpr ⟨octets, dotted, fun _ => rfl⟩

/-- The text of an address has its four bytes as numbers. -/
theorem dotted_toString (addr : IPV4Addr) :
    Dotted (fun index => toString (addr.content index).toNat) addr.toString where
  digits index := toString_isDigitLetter _
  least index := List.length_pos_iff.mpr (toString_ne_nil _)
  most index := by
    have isByte : (addr.content index).toNat < 256 := (addr.content index).toNat_lt
    exact (length_toString_le_iff (by decide : 0 < 3) _).mpr (Nat.lt_trans isByte (by decide))
  joined := by
    unfold IPV4Addr.toString
    simp only [List.foldl_cons, List.foldl_nil, List.append_assoc, List.cons_append]

/-- **The text of an address reads back.** -/
theorem makeIpv4Addr_toString (addr : IPV4Addr) : IPV4Addr.makeIpv4Addr addr.toString = some addr := by
  apply makeIpv4Addr_eq_some_iff.mpr
  refine ⟨_, dotted_toString addr, fun index => ?_⟩
  rw [numberOf_toString, UInt8.ofNat_toNat]

/-! ## Valid texts -/

/-- Every number fits its byte. -/
def Valid (octets : Fin 4 → Str) : Prop := ∀ index, numberOf (octets index) ≤ 255

/-- An address comes back exactly for a valid text, and it holds the numbers of the text. -/
def ParsesExactly (text : Str) : Prop :=
  ((IPV4Addr.makeIpv4Addr text).isSome = true ↔ ∃ octets, Dotted octets text ∧ Valid octets) ∧
    ∀ addr octets, IPV4Addr.makeIpv4Addr text = some addr → Dotted octets text →
      ∀ index, (addr.content index).toNat = numberOf (octets index)

theorem parsesExactly_iff (text : Str) : ParsesExactly text ↔ ∀ octets, Dotted octets text → Valid octets := by
  constructor
  · rintro ⟨accepts, _⟩ octets dotted
    have isSome : (IPV4Addr.makeIpv4Addr text).isSome = true := by rw [makeIpv4Addr_dotted dotted, Option.isSome_some]
    rcases accepts.mp isSome with ⟨others, other, valid⟩
    rw [dotted.unique other]
    exact valid
  · intro allValid
    refine ⟨⟨fun isSome => ?_, fun ⟨octets, dotted, _⟩ => ?_⟩, fun addr octets parsed dotted index => ?_⟩
    · rcases Option.isSome_iff_exists.mp isSome with ⟨addr, parsed⟩
      rcases makeIpv4Addr_eq_some_iff.mp parsed with ⟨octets, dotted, _⟩
      exact ⟨octets, dotted, allValid octets dotted⟩
    · rw [makeIpv4Addr_dotted dotted, Option.isSome_some]
    · rcases makeIpv4Addr_eq_some_iff.mp parsed with ⟨others, other, contents⟩
      have valid := allValid others other index
      rw [contents index, dotted.unique other, UInt8.toNat_ofNat']
      exact Nat.mod_eq_of_lt (by omega)

/-- Two accepted texts give one address exactly when their numbers agree modulo 256. -/
theorem makeIpv4Addr_eq_iff {octets others : Fin 4 → Str} {text other : Str} (dotted : Dotted octets text)
    (otherDotted : Dotted others other) :
    IPV4Addr.makeIpv4Addr text = IPV4Addr.makeIpv4Addr other ↔
      ∀ index, numberOf (octets index) % 256 = numberOf (others index) % 256 := by
  rw [makeIpv4Addr_dotted dotted, makeIpv4Addr_dotted otherDotted, Option.some.injEq, IPV4Addr.mk.injEq, funext_iff]
  apply forall_congr'
  intro index
  rw [← UInt8.toNat_inj, UInt8.toNat_ofNat', UInt8.toNat_ofNat']

/-- **Which texts are read as they stand.** The parser is exact on a text unless it is four
numbers of which one is above 255, every address reads back from its own text, and two texts of
different numbers are told apart where they differ modulo 256. -/
theorem makeIpv4Addr_exact (text other : Str) (addr : IPV4Addr) :
    (ParsesExactly text ↔ ∀ octets, Dotted octets text → Valid octets) ∧
    IPV4Addr.makeIpv4Addr addr.toString = some addr ∧
    (∀ octets others, Dotted octets text → Dotted others other →
      (IPV4Addr.makeIpv4Addr text ≠ IPV4Addr.makeIpv4Addr other ↔
        ∃ index, numberOf (octets index) % 256 ≠ numberOf (others index) % 256)) := by
  refine ⟨parsesExactly_iff text, makeIpv4Addr_toString addr, fun octets others dotted otherDotted => ?_⟩
  rw [ne_eq, makeIpv4Addr_eq_iff dotted otherDotted, not_forall]

/-- `543.2.1.3`, the address of a node in the sample list. -/
def sampleText : Str := [53, 52, 51, 46, 50, 46, 49, 46, 51]

/-- It is read as `31.2.1.3`. -/
theorem sampleText_wraps :
    IPV4Addr.makeIpv4Addr sampleText = some ⟨![31, 2, 1, 3]⟩ ∧ ¬ ParsesExactly sampleText := by
  have dotted : Dotted ![[53, 52, 51], [50], [49], [51]] sampleText := by
    refine ⟨?_, ?_, ?_, rfl⟩ <;> decide +kernel
  refine ⟨by decide, fun exactly => ?_⟩
  have valid := (parsesExactly_iff sampleText).mp exactly _ dotted 0
  exact absurd valid (by decide)

end DiStore.Cluster
