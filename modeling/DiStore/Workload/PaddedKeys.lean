import DiStore.Common.DecimalText
import DiStore.SearchLayer.Ordered

/-!
Contract: the numbered keys of the workloads.

Owns: the padding of a decimal text to `KEY_SIZE`, `YCSBWorkload::next`, the keys that the
populate loop of the store test puts, their order, and where a search for one of them ends.

Does **not** own: the generators that draw the numbers, and the puts of the loop.

## What the order is for

`put_dispatcher` has no case for the head of the skip list, so a client must never look for a key
below every anchor. The loop starts from zero, and no numbered key is below the key of zero.
-/

set_option autoImplicit false

namespace DiStore.Workload

open DiStore.Library DiStore.SearchLayer

/-- `k.insert(0, KEY_SIZE - k.size(), '0')`. For a longer text the difference wraps, no string
has room for that many letters, and `insert` throws. -/
def zeroPad (text : Str) : Option Str :=
  if text.length ≤ keyLen then some (List.replicate (keyLen - text.length) 48 ++ text) else none

/-- The key of a number. -/
def paddedKey (number : Nat) : Option Str := zeroPad (toString number)

/-- The keys of the populate loop, in the order in which it puts them. -/
def populateKeys (warm : Nat) : Option (List Str) := (List.range warm).mapM paddedKey

inductive YCSBWorkloadType where
  | ycsbA
  | ycsbB
  | ycsbC
  | ycsbD
  | ycsbE
  | ycsbL
  | ycsbR
  deriving DecidableEq, Repr

inductive YCSBOperation where
  | insert
  | update
  | search
  | scan
  deriving DecidableEq, Repr

/-- `YCSBWorkload::next`, for the numbers that its two generators draw. -/
def next (type : YCSBWorkloadType) (number op : Nat) : Option (YCSBOperation × Str) :=
  (paddedKey number).map fun key =>
    match type with
    | .ycsbA => if op < 49 then (.update, key) else (.search, key)
    | .ycsbB => if op < 4 then (.update, key) else (.search, key)
    | .ycsbC => (.search, key)
    | .ycsbD => if op < 4 then (.insert, key) else (.search, key)
    | .ycsbE => if op < 4 then (.insert, key) else (.scan, key)
    | .ycsbL => (.insert, key)
    | .ycsbR => (.scan, key)

/-! ## The key of a number -/

/-- Every number of at most sixteen digits has a key, and no other number has one. -/
theorem paddedKey_eq_some_iff (number : Nat) (key : Str) :
    paddedKey number = some key ↔ number < 10 ^ keyLen ∧ (Decimal.padded 10 keyLen number).map digitLetter = key := by
  have short := length_toString_le_iff (by decide : 0 < keyLen) number
  have letters : List.replicate (keyLen - (toString number).length) 48 ++ toString number =
      (Decimal.padded 10 keyLen number).map digitLetter := by
    have isZero : (48 : UInt8) = digitLetter 0 := by decide
    unfold toString Decimal.padded
    rw [List.map_append, List.map_replicate, List.length_map, isZero]
  unfold paddedKey zeroPad
  by_cases fits : number < 10 ^ keyLen
  · rw [if_pos (short.mpr fits), letters, Option.some.injEq]
    exact (and_iff_right fits).symm
  · rw [if_neg fun isShort => fits (short.mp isShort)]
    exact iff_of_false (Option.some_ne_none key).symm fun both => fits both.1

theorem length_of_paddedKey {number : Nat} {key : Str} (isKey : paddedKey number = some key) : key.length = keyLen := by
  have ⟨fits, letters⟩ := (paddedKey_eq_some_iff number key).mp isKey
  rw [← letters, List.length_map]
  exact Decimal.length_padded (by decide) (by decide) fits

theorem exists_paddedKey {number : Nat} (fits : number < 10 ^ keyLen) :
    ∃ key : Bytes16, paddedKey number = some key.val := by
  have isKey := (paddedKey_eq_some_iff number _).mpr ⟨fits, rfl⟩
  exact ⟨⟨_, length_of_paddedKey isKey⟩, isKey⟩

/-- Keys are ordered as their numbers. -/
theorem paddedKey_lt_iff {number other : Nat} {key otherKey : Str} (isKey : paddedKey number = some key)
    (isOther : paddedKey other = some otherKey) : key < otherKey ↔ number < other := by
  have ⟨fits, letters⟩ := (paddedKey_eq_some_iff number key).mp isKey
  have ⟨otherFits, otherLetters⟩ := (paddedKey_eq_some_iff other otherKey).mp isOther
  rw [← letters, ← otherLetters]
  exact Decimal.map_padded_lt_iff (by decide) digitLetter_increasing (by decide) fits otherFits

theorem paddedKey_le_iff {number other : Nat} {key otherKey : Str} (isKey : paddedKey number = some key)
    (isOther : paddedKey other = some otherKey) : key ≤ otherKey ↔ number ≤ other := by
  rw [← not_lt, ← not_lt, paddedKey_lt_iff isOther isKey]

theorem paddedKey_eq_iff {number other : Nat} {key otherKey : Str} (isKey : paddedKey number = some key)
    (isOther : paddedKey other = some otherKey) : key = otherKey ↔ number = other := by
  rw [le_antisymm_iff, le_antisymm_iff, paddedKey_le_iff isKey isOther, paddedKey_le_iff isOther isKey]

/-- A workload draws numbered keys, whatever it does with them. -/
theorem key_of_next {type : YCSBWorkloadType} {number op : Nat} {operation : YCSBOperation} {key : Str}
    (drawn : next type number op = some (operation, key)) : paddedKey number = some key := by
  unfold next at drawn
  rcases Option.map_eq_some_iff.mp drawn with ⟨padded, isKey, chosen⟩
  have sameKey : padded = key := by
    have second := congrArg Prod.snd chosen
    cases type <;> simp only [apply_ite Prod.snd, ite_self] at second <;> exact second
  rw [isKey, sameKey]

/-! ## Populating -/

/-- The keys of a range of numbers, by induction on the list of numbers. -/
theorem mapM_paddedKey {numbers : List Nat} (ascending : numbers.Pairwise (· < ·))
    (fit : ∀ number ∈ numbers, number < 10 ^ keyLen) :
    ∃ keys, numbers.mapM paddedKey = some keys ∧ keys.length = numbers.length ∧ keys.Pairwise (· < ·) ∧
      ∀ key ∈ keys, ∃ number ∈ numbers, paddedKey number = some key := by
  induction numbers with
  | nil => exact ⟨[], rfl, rfl, List.Pairwise.nil, by simp⟩
  | cons number rest inductionHypothesis =>
      have ⟨above, restAscending⟩ := List.pairwise_cons.mp ascending
      have restFit : ∀ other ∈ rest, other < 10 ^ keyLen := fun other isMember =>
        fit other (List.mem_cons_of_mem _ isMember)
      rcases inductionHypothesis restAscending restFit with ⟨keys, mapped, sameLength, keysAscending, fromNumbers⟩
      rcases exists_paddedKey (fit number (List.mem_cons_self ..)) with ⟨key, isKey⟩
      refine ⟨key.val :: keys, ?_, by simp [sameLength], ?_, ?_⟩
      · rw [List.mapM_cons, isKey, mapped]
        rfl
      · apply List.pairwise_cons.mpr
        refine ⟨fun other isMember => ?_, keysAscending⟩
        rcases fromNumbers other isMember with ⟨from', inRest, isOther⟩
        exact (paddedKey_lt_iff isKey isOther).mpr (above from' inRest)
      · intro other isMember
        rcases List.mem_cons.mp isMember with isFirst | inRest
        · exact ⟨number, List.mem_cons_self .., by rw [isFirst, isKey]⟩
        · rcases fromNumbers other inRest with ⟨from', inRest, isOther⟩
          exact ⟨from', List.mem_cons_of_mem _ inRest, isOther⟩

/-- The loop puts its keys in ascending order. -/
theorem populateKeys_ascending {warm : Nat} (fit : warm ≤ 10 ^ keyLen) :
    ∃ keys, populateKeys warm = some keys ∧ keys.length = warm ∧ keys.Pairwise (· < ·) := by
  have allFit : ∀ number ∈ List.range warm, number < 10 ^ keyLen := fun number isMember =>
    Nat.lt_of_lt_of_le (List.mem_range.mp isMember) fit
  rcases mapM_paddedKey List.pairwise_lt_range allFit with ⟨keys, mapped, sameLength, ascending, _⟩
  rw [List.length_range] at sameLength
  exact ⟨keys, mapped, sameLength, ascending⟩

/-- The first key of the loop is the key of zero. -/
theorem head_populateKeys {warm : Nat} {keys : List Str} {first : Str} (populated : populateKeys warm = some keys)
    (isFirst : keys.head? = some first) : paddedKey 0 = some first := by
  cases warm with
  | zero =>
      have isNil : keys = [] := (Option.some.inj populated).symm
      rw [isNil] at isFirst
      contradiction
  | succ more =>
      unfold populateKeys at populated
      rw [List.range_succ_eq_map, List.mapM_cons] at populated
      rcases Option.bind_eq_some_iff.mp populated with ⟨zero, isZero, remaining⟩
      rcases Option.bind_eq_some_iff.mp remaining with ⟨others, _, isCons⟩
      have isKeys : zero :: others = keys := Option.some.inj isCons
      rw [← isKeys, List.head?_cons] at isFirst
      rw [isZero, isFirst]

/-! ## Searching -/

/-- Over numbered anchors a search ends at the largest number that is not above the wanted one,
and never at the head, once the smallest key is there. -/
theorem fuzzySearch_numbered {slist : SkipList} {levels : Nat → List NodeId} (ordered : slist.Ordered levels)
    {number : NodeId → Nat} (numbered : ∀ node ∈ levels 0, paddedKey (number node) = some (slist.anchorOf node))
    (smallest : ∃ first ∈ levels 0, number first = 0) {wanted : Nat} {key : Str}
    (isKey : paddedKey wanted = some key) :
    ∃ target ∈ levels 0, slist.fuzzySearch key = some target ∧ target ≠ SkipList.head ∧ number target ≤ wanted ∧
      ∀ other ∈ levels 0, number other ≤ wanted → number other ≤ number target := by
  have compare : ∀ node ∈ levels 0, slist.anchorOf node ≤ key ↔ number node ≤ wanted := fun node isMember =>
    paddedKey_le_iff (numbered node isMember) isKey
  rw [ordered.fuzzySearch_eq key]
  rcases route_spec SkipList.head key (ordered.sorted 0) with ⟨_, above⟩ | ⟨isMember, below, largest⟩
  · rcases smallest with ⟨first, isMember, isZero⟩
    have notAbove := (compare first isMember).mpr (by omega)
    exact absurd (above first isMember) (not_lt.mpr notAbove)
  · have notHead : route slist.anchorOf SkipList.head (levels 0) key ≠ SkipList.head := fun isHead =>
      (List.nodup_cons.mp (ordered.nodup 0)).1 (isHead ▸ isMember)
    refine ⟨_, isMember, rfl, notHead, (compare _ isMember).mp below, fun other otherMember notAbove => ?_⟩
    have anchorLe := largest other otherMember ((compare other otherMember).mpr notAbove)
    exact (paddedKey_le_iff (numbered other otherMember) (numbered _ isMember)).mp anchorLe

/-- **Padded keys keep numeric order.** Two keys compare as their numbers, the populate loop
starts with a key that no other key is below, and searches over numbered anchors follow the
numbers. -/
theorem paddedKey_order {m n : Nat} (mFits : m < 10 ^ 16) (nFits : n < 10 ^ 16) :
    (∃ mKey nKey : Bytes16, paddedKey m = some mKey.val ∧ paddedKey n = some nKey.val ∧
      (mKey.val < nKey.val ↔ m < n) ∧ (mKey.val = nKey.val ↔ m = n) ∧ (nKey.val < mKey.val ↔ n < m)) ∧
    (∀ warm ≤ 10 ^ 16, ∃ keys, populateKeys warm = some keys ∧ keys.length = warm ∧ keys.Pairwise (· < ·) ∧
      ∀ first, keys.head? = some first → ∀ key, paddedKey n = some key → first ≤ key) ∧
    (∀ (slist : SkipList) (levels : Nat → List NodeId), slist.Ordered levels → ∀ number : NodeId → Nat,
      (∀ node ∈ levels 0, paddedKey (number node) = some (slist.anchorOf node)) →
      (∃ first ∈ levels 0, number first = 0) → ∀ key, paddedKey n = some key →
      ∃ target ∈ levels 0, slist.fuzzySearch key = some target ∧ target ≠ SkipList.head ∧ number target ≤ n ∧
        ∀ other ∈ levels 0, number other ≤ n → number other ≤ number target) := by
  refine ⟨?_, fun warm fit => ?_, fun slist levels ordered number numbered smallest key isKey =>
    fuzzySearch_numbered ordered numbered smallest isKey⟩
  · rcases exists_paddedKey mFits with ⟨mKey, isMKey⟩
    rcases exists_paddedKey nFits with ⟨nKey, isNKey⟩
    exact ⟨mKey, nKey, isMKey, isNKey, paddedKey_lt_iff isMKey isNKey, paddedKey_eq_iff isMKey isNKey,
      paddedKey_lt_iff isNKey isMKey⟩
  · rcases populateKeys_ascending fit with ⟨keys, populated, sameLength, ascending⟩
    refine ⟨keys, populated, sameLength, ascending, fun first isFirst key isKey => ?_⟩
    have isZero := head_populateKeys populated isFirst
    exact (paddedKey_le_iff isZero isKey).mpr (Nat.zero_le n)

/-- `9` and `10`, whose texts compare the other way without the padding. -/
theorem paddedKey_order_nine_ten :
    ∃ nine ten : Bytes16, paddedKey 9 = some nine.val ∧ paddedKey 10 = some ten.val ∧ nine.val < ten.val := by
  rcases (paddedKey_order (by decide : 9 < 10 ^ 16) (by decide : 10 < 10 ^ 16)).1 with
    ⟨nine, ten, isNine, isTen, less, _⟩
  exact ⟨nine, ten, isNine, isTen, less.mpr (by decide)⟩

end DiStore.Workload
