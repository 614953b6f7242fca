import DiStore.Common.Digests
import DiStore.DataLayer.NodeFacts
import Mathlib.Data.List.Induction
import Mathlib.Data.List.Nodup

/-!
Contract: keys and values that do not fill their arrays.

Owns: a run of `store` calls with such keys, which calls are to add a record, the bytes
that a record then has, and when no lookup takes one key for another.

Does not own: keys of the full length (`DataLayer.NodeMap`).
-/

set_option autoImplicit false

namespace DiStore.DataLayer

/-- A key that is not empty and fits into its array. -/
abbrev ShortKey := { key : Str // 0 < key.length ∧ key.length ≤ keyLen }

/-- A value that fits into its array. -/
abbrev ShortValue := { value : Str // value.length ≤ keyLen }

/-- The arguments of a `store`. -/
abbrev Offer := ShortKey × ShortValue

/-! ### What should happen -/

/-- The offers that are to add a record: the first `capacity` keys, each the first time. -/
def takeOffer (capacity : Nat) (admitted : List Offer) (offer : Offer) : List Offer :=
  if admitted.length < capacity ∧ offer.1 ∉ admitted.map Prod.fst then admitted ++ [offer] else admitted

def admittedOf (capacity : Nat) (offers : List Offer) : List Offer := offers.foldl (takeOffer capacity) []

theorem admit_prefix (capacity : Nat) (admitted : List Offer) (offers : List Offer) :
    admitted <+: offers.foldl (takeOffer capacity) admitted := by
  induction offers generalizing admitted with
  | nil => exact List.prefix_rfl
  | cons offer rest inductionHypothesis =>
      show admitted <+: rest.foldl (takeOffer capacity) (takeOffer capacity admitted offer)
      have first : admitted <+: takeOffer capacity admitted offer := by
        unfold takeOffer
        split
        · exact List.prefix_append admitted [offer]
        · exact List.prefix_rfl
      exact first.trans (inductionHypothesis _)

theorem admittedOf_initial (capacity : Nat) (done rest : List Offer) :
    admittedOf capacity done <+: admittedOf capacity (done ++ rest) := by
  unfold admittedOf
  rw [List.foldl_append]
  exact admit_prefix capacity _ rest

theorem admittedOf_snoc (capacity : Nat) (done : List Offer) (offer : Offer) :
    admittedOf capacity (done ++ [offer]) = takeOffer capacity (admittedOf capacity done) offer := by
  unfold admittedOf
  rw [List.foldl_append]
  rfl

/-- The bytes of a key's array once the key is written over what the memory held. -/
def keyArray (memory : LinkedNode) (index : Nat) (key : Str) : Bytes16 :=
  Bytes16.memcpy key (memory.pairs index).key

variable [Digest]

/-- The first bytes of a written key array, at another length than the key's, have another
hash byte than the key, unless they are the key of an earlier record. -/
def CutsApart (array key : Str) (earlier : List Str) : Prop :=
  ∀ length < keyLen + 1, 0 < length ∧ length ≠ key.length ∧
    fingerprint (array.take length) = fingerprint key → array.take length ∈ earlier

/-- No key that is written can be taken for another one. -/
def Unmistakable (memory : LinkedNode) (admitted : List Offer) : Prop :=
  ∀ index, (bound : index < admitted.length) →
    CutsApart (keyArray memory index admitted[index].1.val).val admitted[index].1.val
      ((admitted.take index).map fun earlier => earlier.1.val)

instance (array key : Str) (earlier : List Str) : Decidable (CutsApart array key earlier) := by
  unfold CutsApart
  infer_instance

instance (memory : LinkedNode) (admitted : List Offer) : Decidable (Unmistakable memory admitted) := by
  unfold Unmistakable
  infer_instance

/-! ### What happens -/

/-- Each `store` with what it returned, oldest first. -/
abbrev OfferHistory := List (Offer × Bool)

/-- The value of the first `store` of the key that returned true. -/
def OfferHistory.storedWith (history : OfferHistory) (key : ShortKey) : Option ShortValue :=
  history.findSome? fun event => if event.1.1 = key ∧ event.2 = true then some event.1.2 else none

/-- A key that is found was stored, and its value, cut to the stored one's length, is that one. -/
def Tells (node : LinkedNode) (history : OfferHistory) : Prop :=
  ∀ (key : ShortKey) (value : Bytes16), node.find key.val = some value →
    ∃ stored, history.storedWith key = some stored ∧ value.val.take stored.val.length = stored.val

/-- One `store` of a node with `capacity` pairs. -/
def offerStep (capacity : Nat) (state : LinkedNode × OfferHistory) (offer : Offer) : LinkedNode × OfferHistory :=
  let (stored, node) := state.1.store capacity offer.1.val offer.2.val
  (node, state.2 ++ [(offer, stored)])

def storeOffers (capacity : Nat) (node : LinkedNode) (offers : List Offer) : LinkedNode × OfferHistory :=
  offers.foldl (offerStep capacity) (node, [])

/-! ### Key arrays -/

omit [Digest] in
theorem memcpy_take {text : Str} (fits : text.length ≤ keyLen) (array : Bytes16) :
    (Bytes16.memcpy text array).val.take text.length = text := by
  show ((text ++ array.val.drop text.length).take keyLen).take text.length = text
  rw [List.take_take, min_eq_left fits, List.take_left]

variable {memory node : LinkedNode} {admitted : List Offer} {history : OfferHistory} {capacity : Nat}

/-- The admitted records lie in the first slots, over what the memory held there. -/
structure Written (memory node : LinkedNode) (capacity : Nat) (admitted : List Offer)
    (history : OfferHistory) : Prop where
  next : node.next = admitted.length
  bounded : admitted.length ≤ capacity
  nodup : (admitted.map Prod.fst).Nodup
  marked : ∀ index, (bound : index < admitted.length) →
    node.fingerprints index = fingerprint admitted[index].1.val
  keys : ∀ index, (bound : index < admitted.length) →
    (node.pairs index).key = keyArray memory index admitted[index].1.val
  values : ∀ index, (bound : index < admitted.length) →
    (node.pairs index).value = Bytes16.memcpy admitted[index].2.val (memory.pairs index).value
  free : ∀ index, admitted.length ≤ index → node.pairs index = memory.pairs index
  stored : ∀ key, history.storedWith key = (admitted.find? fun offer => offer.1 = key).map Prod.snd

theorem written_fresh (type : LinkedNodeType) (memory : LinkedNode) (capacity : Nat) :
    Written memory (LinkedNode.fresh type memory) capacity [] [] where
  next := rfl
  bounded := Nat.zero_le capacity
  nodup := List.nodup_nil
  marked _ bound := absurd bound (Nat.not_lt_zero _)
  keys _ bound := absurd bound (Nat.not_lt_zero _)
  values _ bound := absurd bound (Nat.not_lt_zero _)
  free _ _ := rfl
  stored _ := rfl

namespace Written

variable (written : Written memory node capacity admitted history)

include written

/-- A slot is taken for the cut of its key array, if the hash bytes agree. -/
theorem matchesAt_iff {index : Nat} (bound : index < admitted.length) (text : Str) :
    node.matchesAt text index = true ↔
      fingerprint text = fingerprint admitted[index].1.val ∧
        (keyArray memory index admitted[index].1.val).val.take text.length = text := by
  unfold LinkedNode.matchesAt
  rw [written.marked index bound, written.keys index bound, Bool.and_eq_true, beq_iff_eq, beq_iff_eq]
  exact and_congr eq_comm eq_comm

theorem matchesAt_self {index : Nat} (bound : index < admitted.length) :
    node.matchesAt admitted[index].1.val index = true := by
  rw [written.matchesAt_iff bound]
  exact ⟨rfl, memcpy_take admitted[index].1.property.2 _⟩

theorem find_isSome_of_match {index : Nat} (bound : index < admitted.length) {text : Str}
    (isMatch : node.matchesAt text index = true) : (node.find text).isSome = true := by
  show ((node.findIndex text).map _).isSome = true
  rw [Option.isSome_map, LinkedNode.findIndex, List.find?_isSome]
  refine ⟨index, List.mem_range.mpr ?_, isMatch⟩
  rw [written.next]
  exact bound

/-- An admitted key is found. -/
theorem find_isSome_of_mem {key : ShortKey} (isMember : key ∈ admitted.map Prod.fst) :
    (node.find key.val).isSome = true := by
  obtain ⟨offer, isOffer, isKey⟩ := List.mem_map.mp isMember
  obtain ⟨index, bound, atIndex⟩ := List.getElem_of_mem isOffer
  have isMatch := written.matchesAt_self bound
  rw [atIndex, isKey] at isMatch
  exact written.find_isSome_of_match bound isMatch

theorem stored_isSome (key : ShortKey) :
    (history.storedWith key).isSome = true ↔ key ∈ admitted.map Prod.fst := by
  rw [written.stored, Option.isSome_map, List.find?_isSome, List.mem_map]
  exact exists_congr fun offer => and_congr_right fun _ => decide_eq_true_iff

/-- Where a lookup stops, and that no earlier slot is taken for the key. -/
theorem find_cases {key : ShortKey} {value : Bytes16} (found : node.find key.val = some value) :
    ∃ index, ∃ bound : index < admitted.length,
      value = Bytes16.memcpy admitted[index].2.val (memory.pairs index).value ∧
        fingerprint key.val = fingerprint admitted[index].1.val ∧
        (keyArray memory index admitted[index].1.val).val.take key.val.length = key.val ∧
        key.val ∉ (admitted.take index).map fun earlier => earlier.1.val := by
  obtain ⟨index, atIndex, isValue⟩ := Option.map_eq_some_iff.mp found
  obtain ⟨isMatch, inRange, first⟩ := List.find?_range_eq_some.mp atIndex
  have bound : index < admitted.length := by
    rw [← written.next]
    exact List.mem_range.mp inRange
  have parts := (written.matchesAt_iff bound key.val).mp isMatch
  refine ⟨index, bound, ?_, parts.1, parts.2, ?_⟩
  · rw [← isValue]
    exact written.values index bound
  · intro isEarlier
    obtain ⟨offer, isOffer, isKey⟩ := List.mem_map.mp isEarlier
    obtain ⟨place, placeBound, atPlace⟩ := List.getElem_of_mem isOffer
    rw [List.getElem_take] at atPlace
    have below : place < index := by
      rw [List.length_take] at placeBound
      omega
    have earlier := written.matchesAt_self (below.trans bound)
    rw [atPlace, isKey] at earlier
    have notMatch := first place below
    rw [earlier] at notMatch
    cases notMatch

/-- Under the condition a lookup stops at the record of its own key. -/
theorem find_own (unmistakable : Unmistakable memory admitted) {key : ShortKey} {value : Bytes16}
    (found : node.find key.val = some value) :
    ∃ index, ∃ bound : index < admitted.length, admitted[index].1 = key ∧
      value = Bytes16.memcpy admitted[index].2.val (memory.pairs index).value := by
  obtain ⟨index, bound, isValue, sameByte, isCut, notEarlier⟩ := written.find_cases found
  refine ⟨index, bound, ?_, isValue⟩
  by_cases sameLength : key.val.length = admitted[index].1.val.length
  · show admitted[index].1 = key
    apply Subtype.ext
    rw [sameLength] at isCut
    rw [← isCut]
    exact (memcpy_take admitted[index].1.property.2 _).symm
  · have cut := unmistakable index bound key.val.length (Nat.lt_succ_of_le key.property.2)
    rw [isCut] at cut
    exact absurd (cut ⟨key.property.1, sameLength, sameByte⟩) notEarlier

/-- Under the condition every lookup tells the truth. -/
theorem tells (unmistakable : Unmistakable memory admitted) : Tells node history := by
  intro key value found
  obtain ⟨index, bound, isKey, isValue⟩ := written.find_own unmistakable found
  refine ⟨admitted[index].2, ?_, ?_⟩
  · have isOnly : ∀ offer ∈ admitted, offer.1 = key → offer = admitted[index] := by
      intro offer isMember hasKey
      exact List.inj_on_of_nodup_map written.nodup isMember (List.getElem_mem bound) (hasKey.trans isKey.symm)
    rw [written.stored]
    cases first : admitted.find? fun offer => decide (offer.1 = key) with
    | none =>
        have absent := List.find?_eq_none.mp first admitted[index] (List.getElem_mem bound)
        exact absurd (decide_eq_true isKey) absent
    | some offer =>
        have hasKey : decide (offer.1 = key) = true :=
          List.find?_some (p := fun offer : Offer => decide (offer.1 = key)) first
        rw [isOnly offer (List.mem_of_find?_eq_some first) (of_decide_eq_true hasKey)]
        rfl
  · rw [isValue]
    exact memcpy_take admitted[index].2.property _

/-- A truthful node finds admitted keys only. -/
theorem mem_of_tells (tells : Tells node history) {key : ShortKey} (found : (node.find key.val).isSome = true) :
    key ∈ admitted.map Prod.fst := by
  obtain ⟨value, isFound⟩ := Option.isSome_iff_exists.mp found
  obtain ⟨stored, isStored, _⟩ := tells key value isFound
  rw [← written.stored_isSome, isStored]
  rfl

/-- A record in the next slot. -/
theorem append (offer : Offer) (room : admitted.length < capacity) (isNew : offer.1 ∉ admitted.map Prod.fst)
    (isStored : ∀ key, (history ++ [(offer, true)]).storedWith key =
      (history.storedWith key).or (if offer.1 = key ∧ true = true then some offer.2 else none)) :
    Written memory (node.append offer.1.val offer.2.val) capacity (admitted ++ [offer])
      (history ++ [(offer, true)]) := by
  have length : (admitted ++ [offer]).length = admitted.length + 1 := List.length_append
  have atLast : ∀ bound : admitted.length < (admitted ++ [offer]).length,
      (admitted ++ [offer])[admitted.length] = offer := fun _ => List.getElem_concat_length rfl _
  -- the slots below the new one
  have below : ∀ index, (bound : index < (admitted ++ [offer]).length) → index ≠ admitted.length →
      ∃ old : index < admitted.length, (admitted ++ [offer])[index] = admitted[index] ∧ index ≠ node.next := by
    intro index bound notLast
    have old : index < admitted.length := by
      rw [length] at bound
      omega
    exact ⟨old, List.getElem_append_left old, by rw [written.next]; exact notLast⟩
  have keyHere : ((node.append offer.1.val offer.2.val).pairs node.next) =
      ⟨Bytes16.memcpy offer.1.val (memory.pairs admitted.length).key,
        Bytes16.memcpy offer.2.val (memory.pairs admitted.length).value⟩ := by
    rw [← written.free admitted.length le_rfl, ← written.next]
    simp [LinkedNode.append]
  constructor
  case next =>
    rw [LinkedNode.append_next, written.next, length]
  case bounded =>
    rw [length]
    exact room
  case nodup =>
    rw [List.map_append, List.map_singleton]
    exact List.Nodup.append written.nodup (List.nodup_singleton _) (by simpa using isNew)
  case marked =>
    intro index bound
    by_cases isLast : index = admitted.length
    · subst isLast
      rw [atLast bound, ← written.next, LinkedNode.append_fingerprints_next]
    · obtain ⟨old, same, differs⟩ := below index bound isLast
      rw [same, LinkedNode.append_fingerprints_of_ne _ _ differs]
      exact written.marked index old
  case keys =>
    intro index bound
    by_cases isLast : index = admitted.length
    · subst isLast
      rw [atLast bound, ← written.next, keyHere, written.next]
      rfl
    · obtain ⟨old, same, differs⟩ := below index bound isLast
      rw [same, LinkedNode.append_pairs_of_ne _ _ differs]
      exact written.keys index old
  case values =>
    intro index bound
    by_cases isLast : index = admitted.length
    · subst isLast
      rw [atLast bound, ← written.next, keyHere, written.next]
    · obtain ⟨old, same, differs⟩ := below index bound isLast
      rw [same, LinkedNode.append_pairs_of_ne _ _ differs]
      exact written.values index old
  case free =>
    intro index above
    rw [length] at above
    rw [LinkedNode.append_pairs_of_ne _ _ (by rw [written.next]; omega)]
    exact written.free index (by omega)
  case stored =>
    intro key
    rw [isStored, written.stored, List.find?_append]
    cases admitted.find? fun offer => decide (offer.1 = key) with
    | some earlier => rfl
    | none => by_cases same : offer.1 = key <;> simp [same]

/-- One `store`, as long as the node finds admitted keys only. -/
theorem step (offer : Offer)
    (honest : (node.find offer.1.val).isSome = true → offer.1 ∈ admitted.map Prod.fst) :
    Written memory (offerStep capacity (node, history) offer).1 capacity (takeOffer capacity admitted offer)
      (offerStep capacity (node, history) offer).2 := by
  have isStored : ∀ (result : Bool) (key : ShortKey),
      (history ++ [(offer, result)]).storedWith key =
        (history.storedWith key).or (if offer.1 = key ∧ result = true then some offer.2 else none) := by
    intro result key
    show List.findSome? _ (history ++ _) = _
    rw [List.findSome?_append]
    by_cases takes : offer.1 = key ∧ result = true
    · simp [takes, OfferHistory.storedWith]
    · simp [takes, OfferHistory.storedWith]
  -- a key that is there already keeps its value
  have keeps : ∀ result, (result = true → offer.1 ∈ admitted.map Prod.fst) → ∀ key,
      (history ++ [(offer, result)]).storedWith key =
        (admitted.find? fun offer => offer.1 = key).map Prod.snd := by
    intro result present key
    rw [isStored, ← written.stored]
    by_cases takes : offer.1 = key ∧ result = true
    · have bound := (written.stored_isSome key).mpr (takes.1 ▸ present takes.2)
      obtain ⟨value, isValue⟩ := Option.isSome_iff_exists.mp bound
      rw [isValue, Option.some_or]
    · rw [if_neg takes, Option.or_none]
  show Written memory (node.store capacity offer.1.val offer.2.val).2 capacity _
    (history ++ [(offer, (node.store capacity offer.1.val offer.2.val).1)])
  rcases LinkedNode.store_cases node capacity offer.1.val offer.2.val with
    ⟨full, isResult⟩ | ⟨room, found, isResult⟩ | ⟨room, absent, isResult⟩
  · have stays : takeOffer capacity admitted offer = admitted := by
      rw [written.next] at full
      exact if_neg fun both => full both.1
    rw [isResult, stays]
    exact { written with stored := keeps false fun isTrue => nomatch isTrue }
  · have stays : takeOffer capacity admitted offer = admitted := if_neg fun both => both.2 (honest found)
    rw [isResult, stays]
    exact { written with stored := keeps true fun _ => honest found }
  · have isNew : offer.1 ∉ admitted.map Prod.fst := by
      intro isMember
      have found := written.find_isSome_of_mem isMember
      rw [absent] at found
      cases found
    have isRoom : admitted.length < capacity := by
      rw [← written.next]
      exact room
    have grows : takeOffer capacity admitted offer = admitted ++ [offer] := if_pos ⟨isRoom, isNew⟩
    rw [isResult, grows]
    exact written.append offer isRoom isNew (isStored true)

end Written

/-! ### Whole runs -/

theorem storeOffers_snoc (capacity : Nat) (node : LinkedNode) (done : List Offer) (offer : Offer) :
    storeOffers capacity node (done ++ [offer]) = offerStep capacity (storeOffers capacity node done) offer := by
  unfold storeOffers
  rw [List.foldl_append]
  rfl

theorem unmistakable_snoc (offer : Offer) : Unmistakable memory (admitted ++ [offer]) ↔
    Unmistakable memory admitted ∧
      CutsApart (keyArray memory admitted.length offer.1.val).val offer.1.val
        (admitted.map fun earlier => earlier.1.val) := by
  have length : (admitted ++ [offer]).length = admitted.length + 1 := List.length_append
  have atLast : ∀ bound : admitted.length < (admitted ++ [offer]).length,
      (admitted ++ [offer])[admitted.length] = offer := fun _ => List.getElem_concat_length rfl _
  have takeLast : (admitted ++ [offer]).take admitted.length = admitted := List.take_left
  constructor
  · intro unmistakable
    constructor
    · intro index bound
      have same := unmistakable index (by rw [length]; omega)
      rw [List.getElem_append_left bound, List.take_append_of_le_length bound.le] at same
      exact same
    · have last := unmistakable admitted.length (by rw [length]; omega)
      rw [atLast, takeLast] at last
      exact last
  · intro both index bound
    by_cases isLast : index = admitted.length
    · subst isLast
      rw [atLast, takeLast]
      exact both.2
    · have old : index < admitted.length := by
        rw [length] at bound
        omega
      rw [List.getElem_append_left old, List.take_append_of_le_length old.le]
      exact both.1 index old

theorem Unmistakable.of_prefix {whole : List Offer} (unmistakable : Unmistakable memory whole)
    (isPrefix : admitted <+: whole) : Unmistakable memory admitted := by
  induction whole using List.reverseRecOn with
  | nil =>
      rw [List.prefix_nil.mp isPrefix]
      exact unmistakable
  | append_singleton front offer inductionHypothesis =>
      rcases List.prefix_concat_iff.mp isPrefix with isWhole | isFront
      · rw [isWhole]
        exact unmistakable
      · exact inductionHypothesis ((unmistakable_snoc offer).mp unmistakable).1 isFront

/-- What a run writes, as long as the condition holds of what it is to write. -/
theorem written_of_unmistakable (capacity : Nat) (type : LinkedNodeType) (memory : LinkedNode)
    (offers : List Offer) (unmistakable : Unmistakable memory (admittedOf capacity offers)) :
    Written memory (storeOffers capacity (LinkedNode.fresh type memory) offers).1 capacity
      (admittedOf capacity offers) (storeOffers capacity (LinkedNode.fresh type memory) offers).2 := by
  induction offers using List.reverseRecOn with
  | nil => exact written_fresh type memory capacity
  | append_singleton front offer inductionHypothesis =>
      have earlier := unmistakable.of_prefix (admittedOf_initial capacity front [offer])
      have written := inductionHypothesis earlier
      rw [storeOffers_snoc, admittedOf_snoc]
      exact written.step offer (written.mem_of_tells (written.tells earlier))

/-- A record that the node does not take for another one, once it is written. -/
theorem Written.cutsApart (offer : Offer)
    (written : Written memory node capacity (admitted ++ [offer]) history) (tells : Tells node history) :
    CutsApart (keyArray memory admitted.length offer.1.val).val offer.1.val
      (admitted.map fun earlier => earlier.1.val) := by
  intro length small cut
  have arrayLength := (keyArray memory admitted.length offer.1.val).property
  have cutLength : ((keyArray memory admitted.length offer.1.val).val.take length).length = length := by
    rw [List.length_take, arrayLength]
    exact min_eq_left (Nat.le_of_lt_succ small)
  have bound : admitted.length < (admitted ++ [offer]).length := by
    rw [List.length_append]
    exact Nat.lt_succ_self _
  have isLast : (admitted ++ [offer])[admitted.length] = offer := List.getElem_concat_length rfl _
  obtain ⟨text, isText⟩ : ∃ text : ShortKey,
      text.val = (keyArray memory admitted.length offer.1.val).val.take length := by
    refine ⟨⟨_, ?_⟩, rfl⟩
    rw [cutLength]
    exact ⟨cut.1, Nat.le_of_lt_succ small⟩
  rw [← isText] at cut cutLength ⊢
  have isMatch : node.matchesAt text.val admitted.length = true := by
    rw [written.matchesAt_iff bound, isLast, cutLength]
    exact ⟨cut.2.2, isText.symm⟩
  have isMember := written.mem_of_tells tells (written.find_isSome_of_match bound isMatch)
  rw [List.map_append, List.mem_append] at isMember
  rcases isMember with isEarlier | isOffer
  · obtain ⟨earlier, inAdmitted, isKey⟩ := List.mem_map.mp isEarlier
    exact List.mem_map.mpr ⟨earlier, inAdmitted, congrArg Subtype.val isKey⟩
  · have isOwn : text = offer.1 := by simpa using isOffer
    rw [isOwn] at cutLength
    exact absurd cutLength.symm cut.2.1

/-- A run that tells the truth all along writes what it should, and nothing mistakable. -/
theorem unmistakable_of_tells (capacity : Nat) (type : LinkedNodeType) (memory : LinkedNode)
    (offers : List Offer)
    (tells : ∀ done rest, offers = done ++ rest →
      Tells (storeOffers capacity (LinkedNode.fresh type memory) done).1
        (storeOffers capacity (LinkedNode.fresh type memory) done).2) :
    Written memory (storeOffers capacity (LinkedNode.fresh type memory) offers).1 capacity
        (admittedOf capacity offers) (storeOffers capacity (LinkedNode.fresh type memory) offers).2 ∧
      Unmistakable memory (admittedOf capacity offers) := by
  induction offers using List.reverseRecOn with
  | nil => exact ⟨written_fresh type memory capacity, fun _ bound => absurd bound (Nat.not_lt_zero _)⟩
  | append_singleton front offer inductionHypothesis =>
      have before : ∀ done rest, front = done ++ rest → Tells _ _ := fun done rest isFront =>
        tells done (rest ++ [offer]) (by rw [isFront, List.append_assoc])
      have last := tells (front ++ [offer]) [] (List.append_nil _).symm
      obtain ⟨written, unmistakable⟩ := inductionHypothesis before
      have after := written.step offer (written.mem_of_tells (before front [] (List.append_nil _).symm))
      rw [storeOffers_snoc] at last
      rw [storeOffers_snoc, admittedOf_snoc]
      refine ⟨after, ?_⟩
      unfold takeOffer at after ⊢
      split at after
      next grows =>
        rw [if_pos grows, unmistakable_snoc]
        exact ⟨unmistakable, after.cutsApart offer last⟩
      next stays =>
        rw [if_neg stays]
        exact unmistakable

/-- No key is confused with another one in any state of a run of `store` calls if and only
if no written key array can be cut to another key with the same hash byte. -/
theorem keys_told_apart_iff (capacity : Nat) (type : LinkedNodeType) (memory : LinkedNode)
    (offers : List Offer) :
    (∀ done rest, offers = done ++ rest →
      Tells (storeOffers capacity (LinkedNode.fresh type memory) done).1
        (storeOffers capacity (LinkedNode.fresh type memory) done).2) ↔
      Unmistakable memory (admittedOf capacity offers) := by
  constructor
  · intro tells
    exact (unmistakable_of_tells capacity type memory offers tells).2
  · intro unmistakable done rest isOffers
    rw [isOffers] at unmistakable
    have earlier := unmistakable.of_prefix (admittedOf_initial capacity done rest)
    exact (written_of_unmistakable capacity type memory done earlier).tells earlier

end DiStore.DataLayer

/-! ### A stored key and its first digit -/

namespace DiStore.DataLayer

attribute [local instance] Digests.source

/-- The text `291`. -/
def twoNineOne : ShortKey := ⟨[50, 57, 49], by decide⟩

/-- The text `2`, whose hash byte is that of `291`. -/
def two : ShortKey := ⟨[50], by decide⟩

theorem first_digit_found :
    ¬ ∀ (capacity : Nat) (type : LinkedNodeType) (memory : LinkedNode) (offers : List Offer),
      Tells (storeOffers capacity (LinkedNode.fresh type memory) offers).1
        (storeOffers capacity (LinkedNode.fresh type memory) offers).2 := by
  intro tells
  have found : ((storeOffers 10 (LinkedNode.fresh .type10 .zeroed)
      [(twoNineOne, ⟨[50, 57, 49], by decide⟩)]).1.find two.val).isSome = true := by decide +kernel
  obtain ⟨value, isValue⟩ := Option.isSome_iff_exists.mp found
  obtain ⟨stored, isStored, _⟩ := tells 10 .type10 .zeroed _ two value isValue
  have never : OfferHistory.storedWith (storeOffers 10 (LinkedNode.fresh .type10 .zeroed)
      [(twoNineOne, ⟨[50, 57, 49], by decide⟩)]).2 two = none := by decide +kernel
  rw [never] at isStored
  cases isStored

end DiStore.DataLayer
