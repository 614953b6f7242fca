import DiStore.DataLayer.LinkedNode

/-!
Contract: what `find`, `store` and `update` do to a node, for sixteen-byte keys.

Owns: the lookup view of a node (`find` as a partial map), one specification
lemma for each mutator against that view, the representation predicates
`Fingerprinted` and `DistinctKeys` with their preservation, and the lemmas that
let a lookup see past a copied prefix.
-/

set_option autoImplicit false

namespace DiStore.DataLayer

variable [Digest]

namespace LinkedNode

variable {node : LinkedNode} {key other value : Bytes16} {capacity index : Nat}

/-- Every stored fingerprint is the hash byte of its key. -/
def Fingerprinted (node : LinkedNode) : Prop :=
  ∀ index < node.next, node.fingerprints index = fingerprint (node.pairs index).key.val

/-- No key is stored twice. -/
def DistinctKeys (node : LinkedNode) : Prop :=
  ∀ left < node.next, ∀ right < node.next,
    (node.pairs left).key = (node.pairs right).key → left = right

/-- Some slot below `next` holds the key. -/
def Holds (node : LinkedNode) (key : Bytes16) : Prop :=
  ∃ index < node.next, (node.pairs index).key = key

instance : Decidable (node.Holds key) := by
  unfold Holds
  infer_instance

instance : Decidable node.Fingerprinted := by
  unfold Fingerprinted
  infer_instance

instance : Decidable node.DistinctKeys := by
  unfold DistinctKeys
  infer_instance

/-! ### The search loop -/

omit [Digest] in
private theorem find?_congr_of_mem {items : List Nat} {first second : Nat → Bool}
    (agree : ∀ item ∈ items, first item = second item) : items.find? first = items.find? second := by
  induction items with
  | nil => rfl
  | cons head tail inductionHypothesis =>
      rw [List.find?_cons, List.find?_cons, agree head (by simp),
        inductionHypothesis fun item member => agree item (by simp [member])]

theorem matchesAt_iff :
    node.matchesAt key.val index = true ↔
      node.fingerprints index = fingerprint key.val ∧ (node.pairs index).key = key := by
  have taken : ((node.pairs index).key.val.take key.val.length) = (node.pairs index).key.val := by
    rw [List.take_of_length_le]
    rw [(node.pairs index).key.property, key.property]
  simp only [matchesAt, taken, Bool.and_eq_true, beq_iff_eq]
  rw [Subtype.ext_iff, eq_comm (a := key.val)]

theorem matchesAt_of_key_ne (differs : (node.pairs index).key ≠ key) :
    node.matchesAt key.val index = false := by
  by_contra isMatch
  exact differs (matchesAt_iff.mp (by simpa using isMatch)).2

theorem findIndex_eq_some_iff :
    node.findIndex key.val = some index ↔
      index < node.next ∧ node.matchesAt key.val index = true ∧
        ∀ earlier < index, node.matchesAt key.val earlier = false := by
  rw [findIndex, List.find?_range_eq_some]
  simp only [List.mem_range, Bool.not_eq_true']
  constructor
  · rintro ⟨isMatch, bound, first⟩
    exact ⟨bound, isMatch, first⟩
  · rintro ⟨bound, isMatch, first⟩
    exact ⟨isMatch, bound, first⟩

theorem findIndex_eq_none_iff :
    node.findIndex key.val = none ↔
      ∀ slot < node.next, node.matchesAt key.val slot = false := by
  rw [findIndex, List.find?_range_eq_none]
  simp only [Bool.not_eq_true']

theorem findIndex_key (found : node.findIndex key.val = some index) :
    index < node.next ∧ (node.pairs index).key = key := by
  obtain ⟨bound, isMatch, _⟩ := findIndex_eq_some_iff.mp found
  exact ⟨bound, (matchesAt_iff.mp isMatch).2⟩

theorem find_isSome_eq : (node.find key.val).isSome = (node.findIndex key.val).isSome := by
  simp [find]

theorem holds_of_find (found : (node.find key.val).isSome) : node.Holds key := by
  rw [find_isSome_eq, Option.isSome_iff_exists] at found
  obtain ⟨index, found⟩ := found
  exact ⟨index, findIndex_key found⟩

theorem find_isSome_iff (marked : node.Fingerprinted) :
    (node.find key.val).isSome ↔ node.Holds key := by
  constructor
  · exact holds_of_find
  · rintro ⟨index, bound, atIndex⟩
    rw [find_isSome_eq]
    by_contra missing
    rw [Option.not_isSome_iff_eq_none, findIndex_eq_none_iff] at missing
    have isMatch : node.matchesAt key.val index = true := by
      rw [matchesAt_iff, marked index bound, atIndex]
      exact ⟨rfl, rfl⟩
    simp [missing index bound] at isMatch

theorem find_eq_none_iff (marked : node.Fingerprinted) :
    node.find key.val = none ↔ ¬ node.Holds key := by
  rw [← find_isSome_iff marked, Option.not_isSome_iff_eq_none]

theorem find_eq_some_iff (marked : node.Fingerprinted) (distinct : node.DistinctKeys) :
    node.find key.val = some value ↔
      ∃ index < node.next, node.pairs index = ⟨key, value⟩ := by
  constructor
  · intro found
    obtain ⟨index, atIndex, valueEq⟩ := Option.map_eq_some_iff.mp found
    obtain ⟨bound, keyEq⟩ := findIndex_key atIndex
    refine ⟨index, bound, ?_⟩
    rw [← keyEq, ← valueEq]
  · rintro ⟨index, bound, pairEq⟩
    have holds : node.Holds key := ⟨index, bound, by rw [pairEq]⟩
    obtain ⟨slot, atSlot⟩ := Option.isSome_iff_exists.mp
      (find_isSome_eq ▸ (find_isSome_iff marked).mpr holds)
    obtain ⟨slotBound, slotKey⟩ := findIndex_key atSlot
    have same : slot = index := distinct slot slotBound index bound (by rw [slotKey, pairEq])
    rw [find, atSlot, Option.map_some, same, pairEq]

/-- `find` reads nothing at or past `next`. -/
theorem findIndex_congr {left right : LinkedNode} (next : left.next = right.next)
    (fingerprints : ∀ index < left.next, left.fingerprints index = right.fingerprints index)
    (pairs : ∀ index < left.next, left.pairs index = right.pairs index) (key : Str) :
    left.findIndex key = right.findIndex key := by
  rw [findIndex, findIndex, ← next]
  apply find?_congr_of_mem
  intro index member
  have bound := List.mem_range.mp member
  rw [matchesAt, matchesAt, fingerprints index bound, pairs index bound]

theorem find_congr {left right : LinkedNode} (next : left.next = right.next)
    (fingerprints : ∀ index < left.next, left.fingerprints index = right.fingerprints index)
    (pairs : ∀ index < left.next, left.pairs index = right.pairs index) (key : Bytes16) :
    left.find key.val = right.find key.val := by
  rw [find, find, ← findIndex_congr next fingerprints pairs]
  cases atIndex : left.findIndex key.val with
  | none => rfl
  | some index => simp [pairs index (findIndex_key atIndex).1]

/-! ### Appending a record -/

@[simp] theorem append_next (key value : Str) : (node.append key value).next = node.next + 1 := rfl

@[simp] theorem append_type (key value : Str) : (node.append key value).type = node.type := rfl

@[simp] theorem append_crc (key value : Str) : (node.append key value).crc = node.crc := rfl

@[simp] theorem append_pairs_next :
    (node.append key.val value.val).pairs node.next = ⟨key, value⟩ := by
  simp [append]

@[simp] theorem append_fingerprints_next (key value : Str) :
    (node.append key value).fingerprints node.next = fingerprint key := by
  simp [append]

theorem append_pairs_of_ne (key value : Str) (differs : index ≠ node.next) :
    (node.append key value).pairs index = node.pairs index := by
  simp [append, differs]

theorem append_fingerprints_of_ne (key value : Str) (differs : index ≠ node.next) :
    (node.append key value).fingerprints index = node.fingerprints index := by
  simp [append, differs]

theorem append_matchesAt_of_lt {text : Str} (newKey newValue : Str) (below : index < node.next) :
    (node.append newKey newValue).matchesAt text index = node.matchesAt text index := by
  rw [matchesAt, matchesAt, append_pairs_of_ne _ _ (by omega),
    append_fingerprints_of_ne _ _ (by omega)]

/-- A lookup after an append first sees the old records. -/
theorem findIndex_append (text newKey newValue : Str) :
    (node.append newKey newValue).findIndex text =
      (node.findIndex text).or
        (if (node.append newKey newValue).matchesAt text node.next then some node.next
          else none) := by
  rw [findIndex, findIndex, append_next, List.range_succ, List.find?_append]
  have same : (List.range node.next).find? ((node.append newKey newValue).matchesAt text) =
      (List.range node.next).find? (node.matchesAt text) := by
    apply find?_congr_of_mem
    intro index member
    exact append_matchesAt_of_lt newKey newValue (List.mem_range.mp member)
  rw [same]
  simp [List.find?_cons]
  cases (node.append newKey newValue).matchesAt text node.next <;> rfl

theorem find_append_of_ne (newKey newValue : Bytes16) (differs : key ≠ newKey) :
    (node.append newKey.val newValue.val).find key.val = node.find key.val := by
  have noMatch : (node.append newKey.val newValue.val).matchesAt key.val node.next = false := by
    apply matchesAt_of_key_ne
    rw [append_pairs_next]
    exact fun same => differs same.symm
  rw [find, find, findIndex_append, noMatch]
  cases atIndex : node.findIndex key.val with
  | none => simp
  | some index =>
      have bound := (findIndex_key atIndex).1
      simp [append_pairs_of_ne _ _ (show index ≠ node.next by omega)]

theorem find_append_self (absent : node.find key.val = none) :
    (node.append key.val value.val).find key.val = some value := by
  have isMatch : (node.append key.val value.val).matchesAt key.val node.next = true := by
    rw [matchesAt_iff, append_pairs_next, append_fingerprints_next]
    exact ⟨rfl, rfl⟩
  rw [find, Option.map_eq_none_iff] at absent
  rw [find, findIndex_append, absent, isMatch]
  simp

theorem Fingerprinted.append (marked : node.Fingerprinted) (key value : Bytes16) :
    (node.append key.val value.val).Fingerprinted := by
  intro index bound
  rw [append_next] at bound
  by_cases atNext : index = node.next
  · rw [atNext, append_fingerprints_next, append_pairs_next]
  · rw [append_fingerprints_of_ne _ _ atNext, append_pairs_of_ne _ _ atNext]
    exact marked index (by omega)

theorem DistinctKeys.append (distinct : node.DistinctKeys) (absent : ¬ node.Holds key)
    (value : Bytes16) : (node.append key.val value.val).DistinctKeys := by
  intro left leftBound right rightBound same
  rw [append_next] at leftBound rightBound
  by_cases leftNew : left = node.next <;> by_cases rightNew : right = node.next
  · rw [leftNew, rightNew]
  · rw [leftNew, append_pairs_next, append_pairs_of_ne _ _ rightNew] at same
    exact absurd ⟨right, by omega, same.symm⟩ absent
  · rw [rightNew, append_pairs_next, append_pairs_of_ne _ _ leftNew] at same
    exact absurd ⟨left, by omega, same⟩ absent
  · rw [append_pairs_of_ne _ _ leftNew, append_pairs_of_ne _ _ rightNew] at same
    exact distinct left (by omega) right (by omega) same

theorem holds_append_iff :
    (node.append key.val value.val).Holds other ↔ node.Holds other ∨ other = key := by
  constructor
  · rintro ⟨index, bound, atIndex⟩
    rw [append_next] at bound
    by_cases atNext : index = node.next
    · rw [atNext, append_pairs_next] at atIndex
      exact Or.inr atIndex.symm
    · rw [append_pairs_of_ne _ _ atNext] at atIndex
      exact Or.inl ⟨index, by omega, atIndex⟩
  · rintro (⟨index, bound, atIndex⟩ | rfl)
    · refine ⟨index, by rw [append_next]; omega, ?_⟩
      rwa [append_pairs_of_ne _ _ (by omega)]
    · exact ⟨node.next, by simp, by simp⟩

/-! ### `store` -/

/-- The four ways `store` can go. -/
theorem store_cases (node : LinkedNode) (capacity : Nat) (key value : Str) :
    (¬ node.next < capacity ∧ node.store capacity key value = (false, node)) ∨
    (node.next < capacity ∧ (node.find key).isSome ∧ node.store capacity key value = (true, node)) ∨
    (node.next < capacity ∧ node.find key = none ∧
      node.store capacity key value = (true, node.append key value)) := by
  unfold store
  by_cases room : node.next < capacity
  · rw [if_pos room]
    cases found : (node.find key).isSome with
    | true => exact Or.inr (Or.inl ⟨room, rfl, rfl⟩)
    | false => exact Or.inr (Or.inr ⟨room, by simpa using found, rfl⟩)
  · rw [if_neg room]
    exact Or.inl ⟨room, rfl⟩

theorem store_refused {capacity : Nat} (full : ¬ node.next < capacity) (key value : Str) :
    node.store capacity key value = (false, node) := by
  unfold store
  rw [if_neg full]

theorem store_fst (capacity : Nat) (key value : Str) :
    (node.store capacity key value).1 = decide (node.next < capacity) := by
  rcases store_cases node capacity key value with ⟨full, eq⟩ | ⟨room, _, eq⟩ | ⟨room, _, eq⟩ <;>
    rw [eq] <;> simp [*]

/-- A successful `store` makes the key findable. -/
theorem find_store_isSome (stored : (node.store capacity key.val value.val).1 = true) :
    ((node.store capacity key.val value.val).2.find key.val).isSome := by
  rcases store_cases node capacity key.val value.val with ⟨_, eq⟩ | ⟨_, found, eq⟩ | ⟨_, absent, eq⟩
  · rw [eq] at stored
    cases stored
  · rw [eq]
    exact found
  · rw [eq, find_append_self absent]
    rfl

/-- What any key maps to after a `store` that had room. -/
theorem find_store (room : node.next < capacity) (key value other : Bytes16) :
    (node.store capacity key.val value.val).2.find other.val =
      if other = key then (node.find key.val).or (some value) else node.find other.val := by
  rcases store_cases node capacity key.val value.val with ⟨full, _⟩ | ⟨_, found, eq⟩ | ⟨_, absent, eq⟩
  · exact absurd room full
  · rw [eq]
    split
    next same =>
      rw [same]
      obtain ⟨old, isOld⟩ := Option.isSome_iff_exists.mp found
      rw [isOld, Option.some_or]
    next => rfl
  · rw [eq]
    split
    next same => rw [same, find_append_self absent, absent, Option.none_or]
    next differs => exact find_append_of_ne key value differs

theorem Fingerprinted.store (marked : node.Fingerprinted) (capacity : Nat) (key value : Bytes16) :
    (node.store capacity key.val value.val).2.Fingerprinted := by
  rcases store_cases node capacity key.val value.val with ⟨_, eq⟩ | ⟨_, _, eq⟩ | ⟨_, _, eq⟩ <;>
    rw [eq]
  · exact marked
  · exact marked
  · exact marked.append key value

theorem DistinctKeys.store (distinct : node.DistinctKeys) (marked : node.Fingerprinted)
    (capacity : Nat) (key value : Bytes16) :
    (node.store capacity key.val value.val).2.DistinctKeys := by
  rcases store_cases node capacity key.val value.val with ⟨_, eq⟩ | ⟨_, _, eq⟩ | ⟨_, absent, eq⟩ <;>
    rw [eq]
  · exact distinct
  · exact distinct
  · exact distinct.append ((find_eq_none_iff marked).mp absent) value

theorem store_next_le (bounded : node.next ≤ capacity) (key value : Str) :
    (node.store capacity key value).2.next ≤ capacity := by
  rcases store_cases node capacity key value with ⟨_, eq⟩ | ⟨_, _, eq⟩ | ⟨room, _, eq⟩ <;> rw [eq]
  · exact bounded
  · exact bounded
  · exact room

theorem holds_store_iff (marked : node.Fingerprinted) (capacity : Nat) (value : Bytes16) :
    (node.store capacity key.val value.val).2.Holds other ↔
      node.Holds other ∨ (other = key ∧ node.next < capacity) := by
  rcases store_cases node capacity key.val value.val with ⟨full, eq⟩ | ⟨room, found, eq⟩ | ⟨room, _, eq⟩ <;>
    rw [eq]
  · simp [full]
  · have held := (find_isSome_iff marked).mp found
    constructor
    · exact Or.inl
    · rintro (already | ⟨rfl, _⟩)
      · exact already
      · exact held
  · rw [holds_append_iff]
    simp [room]

/-! ### `update` -/

theorem update_of_none (absent : node.find key.val = none) (text : Str) :
    node.update key.val text = (false, node) := by
  rw [find, Option.map_eq_none_iff] at absent
  rw [update, absent]

theorem update_fst (key text : Str) : (node.update key text).1 = (node.findIndex key).isSome := by
  unfold update
  cases node.findIndex key <;> rfl

@[simp] theorem update_next (key text : Str) : (node.update key text).2.next = node.next := by
  unfold update
  cases node.findIndex key <;> rfl

@[simp] theorem update_type (key text : Str) : (node.update key text).2.type = node.type := by
  unfold update
  cases node.findIndex key <;> rfl

@[simp] theorem update_rlink (key text : Str) : (node.update key text).2.rlink = node.rlink := by
  unfold update
  cases node.findIndex key <;> rfl

@[simp] theorem update_fingerprints (key text : Str) :
    (node.update key text).2.fingerprints = node.fingerprints := by
  unfold update
  cases node.findIndex key <;> rfl

theorem update_pairs_key (key text : Str) (slot : Nat) :
    ((node.update key text).2.pairs slot).key = (node.pairs slot).key := by
  unfold update
  cases node.findIndex key with
  | none => rfl
  | some index =>
      by_cases same : slot = index
      · simp [same]
      · simp [same]

/-- `update` leaves the search loop's answer for every key where it was. -/
theorem update_findIndex (key text probe : Str) :
    (node.update key text).2.findIndex probe = node.findIndex probe := by
  rw [findIndex, findIndex, update_next]
  apply find?_congr_of_mem
  intro slot _
  rw [matchesAt, matchesAt, update_fingerprints, update_pairs_key]

theorem find_update_self (found : (node.find key.val).isSome) :
    (node.update key.val value.val).2.find key.val = some value := by
  rw [find_isSome_eq, Option.isSome_iff_exists] at found
  obtain ⟨index, found⟩ := found
  rw [find, update_findIndex, found]
  simp [update, found]

theorem find_update_of_ne (differs : other ≠ key) (text : Str) :
    (node.update key.val text).2.find other.val = node.find other.val := by
  rw [find, find, update_findIndex]
  cases atOther : node.findIndex other.val with
  | none => rfl
  | some slot =>
      have slotKey := (findIndex_key atOther).2
      unfold update
      cases atKey : node.findIndex key.val with
      | none => rfl
      | some index =>
          have indexKey := (findIndex_key atKey).2
          have apart : slot ≠ index := by
            rintro rfl
            exact differs (slotKey.symm.trans indexKey)
          simp [apart]

theorem Fingerprinted.update (marked : node.Fingerprinted) (key text : Str) :
    (node.update key text).2.Fingerprinted := by
  intro slot bound
  rw [update_next] at bound
  rw [update_fingerprints, update_pairs_key]
  exact marked slot bound

theorem holds_update_iff (key text : Str) :
    (node.update key text).2.Holds other ↔ node.Holds other := by
  unfold Holds
  simp only [update_next, update_pairs_key]

/-! ### A fresh node -/

theorem find_of_next_zero (empty : node.next = 0) (text : Str) : node.find text = none := by
  simp [find, findIndex, empty]

omit [Digest] in
theorem not_holds_of_next_zero (empty : node.next = 0) : ¬ node.Holds key := by
  rintro ⟨index, bound, _⟩
  omega

end LinkedNode

end DiStore.DataLayer
