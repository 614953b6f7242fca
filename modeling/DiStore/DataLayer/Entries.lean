import DiStore.DataLayer.Images
import Mathlib.Data.List.Nodup
import Mathlib.Data.List.Range

/-!
Contract: the records of a node as a list.

Owns: `entries` (fingerprint and pair of every slot below `next`) and `records`,
what they say about `find`, `Fingerprinted`, `DistinctKeys` and `Holds`, what
`store` and a covering transfer do to them, and storing a list of offers.
-/

set_option autoImplicit false

namespace DiStore.DataLayer

namespace LinkedNode

variable {node left right : LinkedNode} {key value : Bytes16} {capacity : Nat}

/-- Fingerprint and pair of every stored record, in slot order. -/
def entries (node : LinkedNode) : List (UInt8 × KV) :=
  (List.range node.next).map fun index => (node.fingerprints index, node.pairs index)

/-- Every stored record, in slot order. -/
def records (node : LinkedNode) : List KV := (List.range node.next).map node.pairs

@[simp] theorem length_entries : node.entries.length = node.next := by simp [entries]

@[simp] theorem length_records : node.records.length = node.next := by simp [records]

theorem entries_map_snd : node.entries.map Prod.snd = node.records := by
  simp [entries, records, Function.comp_def]

theorem mem_entries {entry : UInt8 × KV} :
    entry ∈ node.entries ↔ ∃ index < node.next, entry = (node.fingerprints index, node.pairs index) := by
  rw [entries, List.mem_map]
  constructor
  · rintro ⟨index, isMember, isEntry⟩
    exact ⟨index, List.mem_range.mp isMember, isEntry.symm⟩
  · rintro ⟨index, bound, isEntry⟩
    exact ⟨index, List.mem_range.mpr bound, isEntry.symm⟩

theorem mem_records {pair : KV} : pair ∈ node.records ↔ ∃ index < node.next, node.pairs index = pair := by
  simp [records]

theorem entries_congr (next : left.next = right.next)
    (fingerprints : ∀ index < left.next, left.fingerprints index = right.fingerprints index)
    (pairs : ∀ index < left.next, left.pairs index = right.pairs index) :
    left.entries = right.entries := by
  rw [entries, entries, ← next]
  apply List.map_congr_left
  intro index isMember
  have bound := List.mem_range.mp isMember
  rw [fingerprints index bound, pairs index bound]

/-- The entries determine `next` and the slots below it. -/
theorem slots_of_entries (same : left.entries = right.entries) :
    left.next = right.next ∧
      (∀ index < left.next, left.fingerprints index = right.fingerprints index) ∧
      ∀ index < left.next, left.pairs index = right.pairs index := by
  have next : left.next = right.next := by
    rw [← left.length_entries, same, right.length_entries]
  rw [entries, entries, ← next] at same
  have slots := List.map_inj_left.mp same
  refine ⟨next, fun index bound => ?_, fun index bound => ?_⟩
  · exact congrArg Prod.fst (slots index (List.mem_range.mpr bound))
  · exact congrArg Prod.snd (slots index (List.mem_range.mpr bound))

theorem holds_iff_records : node.Holds key ↔ ∃ pair ∈ node.records, pair.key = key := by
  constructor
  · rintro ⟨index, bound, isKey⟩
    exact ⟨node.pairs index, mem_records.mpr ⟨index, bound, rfl⟩, isKey⟩
  · rintro ⟨pair, isRecord, isKey⟩
    obtain ⟨index, bound, isPair⟩ := mem_records.mp isRecord
    exact ⟨index, bound, by rw [isPair, isKey]⟩

theorem distinctKeys_iff_records : node.DistinctKeys ↔ (node.records.map KV.key).Nodup := by
  rw [records, List.map_map, List.nodup_map_iff_inj_on List.nodup_range]
  constructor
  · intro distinct first firstIn second secondIn same
    exact distinct first (List.mem_range.mp firstIn) second (List.mem_range.mp secondIn) same
  · intro injective first firstBound second secondBound same
    exact injective first (List.mem_range.mpr firstBound) second (List.mem_range.mpr secondBound) same

/-- A transfer that covers every record carries over the entries. -/
theorem entries_overlay {size : Nat} {source target : LinkedNode}
    (covered : pairsOffset + 32 * source.next ≤ size) :
    (overlay size source target).entries = source.entries := by
  have nonempty : size ≠ 0 := by
    unfold pairsOffset at covered
    omega
  have next : (overlay size source target).next = source.next := overlay_next nonempty
  apply entries_congr next
  · intro index _
    rw [overlay_fingerprints nonempty]
  · intro index bound
    apply overlay_pairs_of_le
    rw [next] at bound
    omega

theorem records_overlay {size : Nat} {source target : LinkedNode}
    (covered : pairsOffset + 32 * source.next ≤ size) :
    (overlay size source target).records = source.records := by
  rw [← entries_map_snd, entries_overlay covered, entries_map_snd]

variable [Digest]

theorem find_of_entries (same : left.entries = right.entries) (key : Bytes16) :
    left.find key.val = right.find key.val := by
  obtain ⟨next, fingerprints, pairs⟩ := slots_of_entries same
  exact find_congr next fingerprints pairs key

theorem fingerprinted_iff_entries :
    node.Fingerprinted ↔ ∀ entry ∈ node.entries, entry.1 = fingerprint entry.2.key.val := by
  constructor
  · intro marked entry isMember
    obtain ⟨index, bound, rfl⟩ := mem_entries.mp isMember
    exact marked index bound
  · intro marked index bound
    exact marked _ (mem_entries.mpr ⟨index, bound, rfl⟩)

/-- The entry that `store` adds. -/
def entryOf (pair : KV) : UInt8 × KV := (fingerprint pair.key.val, pair)

theorem entries_append (key value : Bytes16) :
    (node.append key.val value.val).entries = node.entries ++ [entryOf ⟨key, value⟩] := by
  rw [entries, append_next, List.range_succ, List.map_append]
  apply congrArg₂
  · apply List.map_congr_left
    intro index isMember
    have bound := List.mem_range.mp isMember
    rw [append_fingerprints_of_ne _ _ (by omega), append_pairs_of_ne _ _ (by omega)]
  · rw [List.map_singleton, append_fingerprints_next, append_pairs_next]
    rfl

theorem entries_store (key value : Bytes16) (room : node.next < capacity) :
    (node.store capacity key.val value.val).2.entries =
      if (node.find key.val).isSome then node.entries else node.entries ++ [entryOf ⟨key, value⟩] := by
  rcases store_cases node capacity key.val value.val with ⟨full, _⟩ | ⟨_, found, eq⟩ | ⟨_, absent, eq⟩
  · exact absurd room full
  · rw [eq, if_pos found]
  · rw [eq, absent, if_neg (by simp), entries_append]

/-! ### Nodes that only grow -/

/-- Records appended one after the other. -/
def appendAll (added : List KV) (node : LinkedNode) : LinkedNode :=
  added.foldl (fun node pair => node.append pair.key.val pair.value.val) node

variable (added : List KV)

@[simp] theorem appendAll_next : (appendAll added node).next = node.next + added.length := by
  induction added generalizing node with
  | nil => rfl
  | cons pair added ih =>
      change (appendAll added (node.append pair.key.val pair.value.val)).next = _
      rw [ih, append_next, List.length_cons]
      omega

@[simp] theorem appendAll_type : (appendAll added node).type = node.type := by
  induction added generalizing node with
  | nil => rfl
  | cons pair added ih => exact ih.trans (append_type _ _)

@[simp] theorem appendAll_crc : (appendAll added node).crc = node.crc := by
  induction added generalizing node with
  | nil => rfl
  | cons pair added ih => exact ih.trans (append_crc _ _)

theorem appendAll_append (first second : List KV) :
    appendAll second (appendAll first node) = appendAll (first ++ second) node := by
  simp [appendAll]

theorem entries_appendAll :
    (appendAll added node).entries = node.entries ++ added.map entryOf := by
  induction added generalizing node with
  | nil => simp [appendAll]
  | cons pair added ih =>
      change (appendAll added (node.append pair.key.val pair.value.val)).entries = _
      rw [ih, entries_append, List.map_cons, List.append_assoc]
      rfl

theorem records_appendAll : (appendAll added node).records = node.records ++ added := by
  have same : (Prod.snd ∘ entryOf) = (id : KV → KV) := rfl
  rw [← entries_map_snd, entries_appendAll, List.map_append, entries_map_snd, List.map_map, same,
    List.map_id]

/-- Appending writes fingerprints by position only. -/
theorem appendAll_fingerprints_congr (next : left.next = right.next)
    (same : left.fingerprints = right.fingerprints) :
    (appendAll added left).fingerprints = (appendAll added right).fingerprints := by
  induction added generalizing left right with
  | nil => exact same
  | cons pair added ih =>
      apply ih
      · rw [append_next, append_next, next]
      · change Function.update left.fingerprints left.next _ =
          Function.update right.fingerprints right.next _
        rw [next, same]

/-- The slots behind a node's own records hold what was appended. -/
theorem pairs_appendAll_mem {index : Nat} (behind : node.next ≤ index)
    (bound : index < (appendAll added node).next) : (appendAll added node).pairs index ∈ added := by
  have whole := @records_appendAll node _ added
  have isSlot : (appendAll added node).records[index]? = some ((appendAll added node).pairs index) := by
    rw [records, List.getElem?_map, List.getElem?_range bound]
    rfl
  rw [whole, List.getElem?_append_right (by rw [length_records]; exact behind)] at isSlot
  exact List.mem_of_getElem? isSlot

/-- Every appended record has a slot behind the node's own. -/
theorem slot_of_appendAll {pair : KV} (isMember : pair ∈ added) :
    ∃ index, node.next ≤ index ∧ index < (appendAll added node).next ∧
      (appendAll added node).pairs index = pair := by
  obtain ⟨place, bound, isPair⟩ := List.getElem_of_mem isMember
  have whole := @records_appendAll node _ added
  have within : node.next + place < (appendAll added node).next := by
    rw [appendAll_next]
    omega
  have isSlot : (appendAll added node).records[node.next + place]? = some pair := by
    rw [whole, List.getElem?_append_right (by rw [length_records]; omega), length_records,
      Nat.add_sub_cancel_left, List.getElem?_eq_getElem bound, isPair]
  rw [records, List.getElem?_map, List.getElem?_range within] at isSlot
  exact ⟨_, Nat.le_add_right _ _, within, Option.some.inj isSlot⟩

/-- What was found stays found. -/
theorem find_appendAll_isSome (found : (node.find key.val).isSome) :
    ((appendAll added node).find key.val).isSome := by
  induction added generalizing node with
  | nil => exact found
  | cons pair added ih =>
      apply ih
      by_cases same : key = pair.key
      · rw [same]
        rw [same] at found
        rw [find_isSome_eq, findIndex_append]
        rw [find_isSome_eq] at found
        simp [found]
      · rw [find_append_of_ne _ _ same]
        exact found

theorem holds_appendAll_iff :
    (appendAll added node).Holds key ↔ node.Holds key ∨ ∃ pair ∈ added, pair.key = key := by
  rw [holds_iff_records, holds_iff_records, records_appendAll]
  simp only [List.mem_append, or_and_right, exists_or]

theorem Fingerprinted.appendAll (marked : node.Fingerprinted) :
    (appendAll added node).Fingerprinted := by
  induction added generalizing node with
  | nil => exact marked
  | cons pair added ih => exact ih (marked.append pair.key pair.value)

/-- A `store` appends its record or nothing, and only where there is room. -/
theorem store_appends (node : LinkedNode) (capacity : Nat) (key value : Bytes16) :
    ∃ added, (node.store capacity key.val value.val).2 = appendAll added node ∧
      (added = [] ∨ added = [⟨key, value⟩] ∧ node.next < capacity ∧ node.find key.val = none) := by
  rcases store_cases node capacity key.val value.val with ⟨_, eq⟩ | ⟨_, _, eq⟩ | ⟨room, absent, eq⟩
  · exact ⟨[], by rw [eq]; rfl, Or.inl rfl⟩
  · exact ⟨[], by rw [eq]; rfl, Or.inl rfl⟩
  · exact ⟨[⟨key, value⟩], by rw [eq]; rfl, Or.inr ⟨rfl, room, absent⟩⟩

/-! ### Storing offers one after the other -/

/-- `store` of each offer in turn. -/
def storeAll (capacity : Nat) (offers : List KV) (node : LinkedNode) : LinkedNode :=
  offers.foldl (fun node offer => (node.store capacity offer.key.val offer.value.val).2) node

omit [Digest] in
/-- The first offer for each key not known before. -/
def newRecords (known : List Bytes16) : List KV → List KV
  | [] => []
  | offer :: offers =>
      if offer.key ∈ known then newRecords known offers
      else offer :: newRecords (offer.key :: known) offers

theorem store_next_bounds (node : LinkedNode) (capacity : Nat) (key value : Str) :
    node.next ≤ (node.store capacity key value).2.next ∧
      (node.store capacity key value).2.next ≤ node.next + 1 := by
  rcases store_cases node capacity key value with ⟨_, eq⟩ | ⟨_, _, eq⟩ | ⟨_, _, eq⟩ <;> rw [eq]
  · exact ⟨le_rfl, Nat.le_succ _⟩
  · exact ⟨le_rfl, Nat.le_succ _⟩
  · exact ⟨Nat.le_succ _, le_rfl⟩

theorem storeAll_next_bounds (offers : List KV) (node : LinkedNode) (capacity : Nat) :
    node.next ≤ (node.storeAll capacity offers).next ∧
      (node.storeAll capacity offers).next ≤ node.next + offers.length := by
  induction offers generalizing node with
  | nil => exact ⟨le_rfl, le_rfl⟩
  | cons offer offers ih =>
      have first := store_next_bounds node capacity offer.key.val offer.value.val
      have rest := ih (node.store capacity offer.key.val offer.value.val).2
      rw [List.length_cons]
      constructor
      · exact first.1.trans rest.1
      · exact rest.2.trans (by omega)

omit [Digest] in
theorem newRecords_congr {known other : List Bytes16} (same : ∀ key, key ∈ known ↔ key ∈ other)
    (offers : List KV) : newRecords known offers = newRecords other offers := by
  induction offers generalizing known other with
  | nil => rfl
  | cons offer offers ih =>
      have later : newRecords (offer.key :: known) offers = newRecords (offer.key :: other) offers := by
        apply ih
        intro key
        rw [List.mem_cons, List.mem_cons, same]
      simp only [newRecords, same, ih same, later]

/-- With room, a record is added unless its key has one. -/
theorem records_store (marked : node.Fingerprinted) (key value : Bytes16) (room : node.next < capacity) :
    (node.store capacity key.val value.val).2.records =
      if key ∈ node.records.map KV.key then node.records else node.records ++ [⟨key, value⟩] := by
  have isMember : (node.find key.val).isSome ↔ key ∈ node.records.map KV.key := by
    rw [find_isSome_iff marked, holds_iff_records, List.mem_map]
  rw [← entries_map_snd, entries_store _ _ room]
  by_cases found : key ∈ node.records.map KV.key
  · rw [if_pos (isMember.mpr found), if_pos found, entries_map_snd]
  · rw [if_neg (mt isMember.mp found), if_neg found, List.map_append, entries_map_snd]
    rfl

/-- With room for all of them, exactly the new offers are added, in order. -/
theorem records_storeAll (offers : List KV) (marked : node.Fingerprinted)
    (room : node.next + offers.length ≤ capacity) :
    (node.storeAll capacity offers).records =
      node.records ++ newRecords (node.records.map KV.key) offers := by
  induction offers generalizing node with
  | nil => simp [storeAll, newRecords]
  | cons offer offers ih =>
      rw [List.length_cons] at room
      have bounds := store_next_bounds node capacity offer.key.val offer.value.val
      have step := ih (marked.store capacity offer.key offer.value) (by omega)
      have stored := records_store marked offer.key offer.value (show node.next < capacity by omega)
      change ((node.store capacity offer.key.val offer.value.val).2.storeAll capacity offers).records = _
      rw [step, stored, newRecords]
      by_cases found : offer.key ∈ node.records.map KV.key
      · rw [if_pos found, if_pos found]
      · rw [if_neg found, if_neg found, List.append_assoc, List.singleton_append]
        apply congrArg
        apply congrArg
        apply newRecords_congr
        intro key
        rw [List.map_append, List.map_singleton, List.mem_append, List.mem_singleton, List.mem_cons]
        exact or_comm

/-! ### Offers that all find room -/

/-- Each offer in turn meets a node with room, stored or not. -/
def FitsAll (capacity : Nat) : List KV → LinkedNode → Prop
  | [], _ => True
  | offer :: offers, node =>
      node.next < capacity ∧
        FitsAll capacity offers (node.store capacity offer.key.val offer.value.val).2

instance decidableFitsAll (capacity : Nat) :
    (offers : List KV) → (node : LinkedNode) → Decidable (FitsAll capacity offers node)
  | [], _ => .isTrue trivial
  | offer :: offers, node =>
      have := decidableFitsAll capacity offers (node.store capacity offer.key.val offer.value.val).2
      inferInstanceAs (Decidable (_ ∧ _))

theorem fitsAll_append (first second : List KV) :
    FitsAll capacity (first ++ second) node ↔
      FitsAll capacity first node ∧ FitsAll capacity second (node.storeAll capacity first) := by
  induction first generalizing node with
  | nil => exact (true_and _).to_iff.symm
  | cons offer first ih =>
      change _ ∧ FitsAll capacity (first ++ second) _ ↔ (_ ∧ _) ∧ _
      rw [ih, and_assoc]
      rfl

theorem fitsAll_of_room (offers : List KV) (room : node.next + offers.length ≤ capacity) :
    FitsAll capacity offers node := by
  induction offers generalizing node with
  | nil => trivial
  | cons offer offers ih =>
      rw [List.length_cons] at room
      have bounds := store_next_bounds node capacity offer.key.val offer.value.val
      exact ⟨by omega, ih (by omega)⟩

theorem storeAll_append (first second : List KV) :
    node.storeAll capacity (first ++ second) = (node.storeAll capacity first).storeAll capacity second := by
  simp [storeAll]

/-- Offers that do not all find room fill the node. -/
theorem le_storeAll_next {larger : Nat} (grows : capacity ≤ larger) (offers : List KV)
    (refused : ¬ FitsAll capacity offers node) : capacity ≤ (node.storeAll larger offers).next := by
  induction offers generalizing node with
  | nil => exact absurd trivial refused
  | cons offer offers ih =>
      by_cases room : node.next < capacity
      · have same : node.store larger offer.key.val offer.value.val =
            node.store capacity offer.key.val offer.value.val := by
          unfold store
          rw [if_pos room, if_pos (room.trans_le grows)]
        change capacity ≤ ((node.store larger offer.key.val offer.value.val).2.storeAll larger offers).next
        rw [same]
        exact ih fun later => refused ⟨room, later⟩
      · exact (not_lt.mp room).trans (storeAll_next_bounds (offer :: offers) node larger).1

/-- What offers that all find room add, as one append. -/
theorem storeAll_eq_appendAll (offers : List KV) (marked : node.Fingerprinted)
    (fits : FitsAll capacity offers node) :
    node.storeAll capacity offers =
      node.appendAll (newRecords (node.records.map KV.key) offers) := by
  induction offers generalizing node with
  | nil => rfl
  | cons offer offers ih =>
      have isMember : (node.find offer.key.val).isSome ↔ offer.key ∈ node.records.map KV.key := by
        rw [find_isSome_iff marked, holds_iff_records, List.mem_map]
      have later := ih (marked.store capacity offer.key offer.value) fits.2
      change (node.store capacity offer.key.val offer.value.val).2.storeAll capacity offers = _
      rw [later, newRecords]
      rcases store_cases node capacity offer.key.val offer.value.val with
        ⟨full, _⟩ | ⟨_, found, eq⟩ | ⟨_, absent, eq⟩
      · exact absurd fits.1 full
      · rw [eq, if_pos (isMember.mp found)]
      · have isNew : offer.key ∉ node.records.map KV.key := by
          rw [← isMember, absent]
          exact Bool.false_ne_true
        have grown : (node.append offer.key.val offer.value.val).records.map KV.key =
            node.records.map KV.key ++ [offer.key] := by
          rw [← entries_map_snd, entries_append, List.map_append, List.map_append, entries_map_snd]
          rfl
        rw [eq, if_neg isNew]
        change appendAll (newRecords ((node.append offer.key.val offer.value.val).records.map KV.key) offers)
          (node.append offer.key.val offer.value.val) = _
        rw [grown, @newRecords_congr _ (offer.key :: node.records.map KV.key)]
        · rfl
        · intro key
          rw [List.mem_append, List.mem_singleton, List.mem_cons]
          exact or_comm

section NewRecords

omit [Digest]

variable (known : List Bytes16) (offers : List KV)

theorem newRecords_subset : newRecords known offers ⊆ offers := by
  induction offers generalizing known with
  | nil => exact List.Subset.refl _
  | cons offer offers ih =>
      unfold newRecords
      split
      next => exact List.subset_cons_of_subset _ (ih known)
      next => exact List.cons_subset_cons _ (ih _)

theorem mem_keys_newRecords :
    key ∈ (newRecords known offers).map KV.key ↔ key ∈ offers.map KV.key ∧ key ∉ known := by
  induction offers generalizing known with
  | nil => simp [newRecords]
  | cons offer offers ih =>
      unfold newRecords
      rw [List.map_cons, List.mem_cons]
      split
      next isKnown =>
        rw [ih]
        constructor
        · exact fun both => ⟨Or.inr both.1, both.2⟩
        · rintro ⟨isOffer | later, isNew⟩
          · rw [isOffer] at isNew
            exact absurd isKnown isNew
          · exact ⟨later, isNew⟩
      next isNew =>
        rw [List.map_cons, List.mem_cons, ih, List.mem_cons]
        constructor
        · rintro (isOffer | ⟨later, notKnown⟩)
          · exact ⟨Or.inl isOffer, isOffer ▸ isNew⟩
          · exact ⟨Or.inr later, fun inKnown => notKnown (Or.inr inKnown)⟩
        · rintro ⟨isOffer | later, notKnown⟩
          · exact Or.inl isOffer
          · by_cases isOffer : key = offer.key
            · exact Or.inl isOffer
            · exact Or.inr ⟨later, fun either => either.elim isOffer notKnown⟩

theorem nodup_keys_newRecords : ((newRecords known offers).map KV.key).Nodup := by
  induction offers generalizing known with
  | nil => exact List.nodup_nil
  | cons offer offers ih =>
      unfold newRecords
      split
      next => exact ih known
      next =>
        rw [List.map_cons, List.nodup_cons, mem_keys_newRecords]
        exact ⟨fun both => both.2 List.mem_cons_self, ih _⟩

theorem newRecords_sublist : (newRecords known offers).Sublist offers := by
  induction offers generalizing known with
  | nil => exact List.Sublist.refl _
  | cons offer offers ih =>
      unfold newRecords
      split
      next => exact (ih known).cons _
      next => exact (ih _).cons_cons _

/-- As many new records as offers: no offer was known. -/
theorem notMem_of_all_new (all : (newRecords known offers).length = offers.length) :
    ∀ offer ∈ offers, offer.key ∉ known := by
  have same := (newRecords_sublist known offers).eq_of_length all
  intro offer isMember
  rw [← same] at isMember
  exact ((mem_keys_newRecords known offers).mp (List.mem_map_of_mem isMember)).2

/-- The keys that are new do not depend on the order of the offers. -/
theorem newRecords_perm {left right : List KV} (perm : left.Perm right) :
    ((newRecords known left).map KV.key).Perm ((newRecords known right).map KV.key) := by
  rw [List.perm_ext_iff_of_nodup (nodup_keys_newRecords known left) (nodup_keys_newRecords known right)]
  intro key
  rw [mem_keys_newRecords, mem_keys_newRecords, (perm.map KV.key).mem_iff]

end NewRecords

theorem DistinctKeys.appendAll (distinct : node.DistinctKeys) (offers : List KV) :
    (appendAll (newRecords (node.records.map KV.key) offers) node).DistinctKeys := by
  rw [distinctKeys_iff_records] at distinct ⊢
  rw [records_appendAll, List.map_append, List.nodup_append]
  refine ⟨distinct, nodup_keys_newRecords _ _, ?_⟩
  intro old isOld new isNew same
  rw [same] at isOld
  exact ((mem_keys_newRecords _ _).mp isNew).2 isOld

/-! ### Records beyond a transfer -/

/-- A record behind the last pair of the type that a transfer has the size of is lost,
unless the pairs that were there before end in the same bytes. -/
theorem find_overlay_lost {source target : LinkedNode} {type : LinkedNodeType} (isData : type.IsData)
    (distinct : source.DistinctKeys) {index : Nat} (beyond : type.capacity ≤ index)
    (bound : index < source.next)
    (clean : ∀ slot, (target.pairs slot).key.val.drop 4 ≠ (source.pairs index).key.val.drop 4) :
    (overlay (sizeofNode type) source target).find (source.pairs index).key.val = none := by
  have nonempty := sizeofNode_ne_zero isData
  have small := sizeofNode_le_add_four isData
  have covered := pairsOffset_le_sizeofNode isData
  by_contra found
  obtain ⟨slot, slotBound, isKey⟩ := holds_of_find (Option.isSome_iff_ne_none.mpr found)
  rw [overlay_next nonempty] at slotBound
  by_cases inside : slot < type.capacity
  · rw [overlay_pairs_of_le (by omega)] at isKey
    have same := distinct slot slotBound index bound isKey
    omega
  · rw [overlay_pairs nonempty] at isKey
    have short : sizeofNode type - (pairsOffset + 32 * slot) ≤ 4 := by omega
    have tail := KV.drop_overlay_key short (source.pairs slot) (target.pairs slot)
    rw [isKey] at tail
    exact clean slot tail.symm

end LinkedNode

end DiStore.DataLayer
