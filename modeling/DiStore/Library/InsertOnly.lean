import DiStore.Library.RangeCells
import Mathlib.Data.List.Induction

/-!
Contract: maps into which records are only inserted, kept as lists of records.

Owns: the list that a run of insertions makes (`addAll`), the record that a key is read
as, which is the first one inserted, and chains of one or two cells.

Does not own: how the list is divided into cells (`Library.RangeCells`).
-/

set_option autoImplicit false

namespace DiStore.Library

variable {κ ρ : Type} [LinearOrder κ] {key : ρ → κ} {record : ρ} {records other inserted : List ρ}
variable {target : κ}

/-- The first record of a key. -/
def recordOf (key : ρ → κ) (target : κ) (records : List ρ) : Option ρ :=
  records.find? fun record => key record = target

/-- What is left of a run of insertions. -/
def addAll (key : ρ → κ) (inserted : List ρ) : List ρ :=
  inserted.foldl (fun records record => addNew key record records) []

theorem addAll_append_singleton (inserted : List ρ) (record : ρ) :
    addAll key (inserted ++ [record]) = addNew key record (addAll key inserted) := by
  unfold addAll
  rw [List.foldl_append]
  rfl

theorem nodup_addAll (inserted : List ρ) : ((addAll key inserted).map key).Nodup := by
  induction inserted using List.reverseRecOn with
  | nil => exact List.nodup_nil
  | append_singleton inserted record inductionHypothesis =>
      rw [addAll_append_singleton]
      exact nodup_addNew inductionHypothesis

/-! ### Reading -/

theorem recordOf_eq_none_iff : recordOf key target records = none ↔ target ∉ records.map key := by
  unfold recordOf
  rw [List.find?_eq_none]
  constructor
  · intro nowhere isMember
    rcases List.mem_map.mp isMember with ⟨record, isRecord, isKey⟩
    exact nowhere record isRecord (decide_eq_true isKey)
  · intro nowhere record isRecord isKey
    exact nowhere (List.mem_map.mpr ⟨record, isRecord, of_decide_eq_true isKey⟩)

theorem recordOf_append_singleton (records : List ρ) (record : ρ) :
    recordOf key target (records ++ [record]) =
      (recordOf key target records).or (if key record = target then some record else none) := by
  unfold recordOf
  rw [List.find?_append]
  simp [List.find?_cons]
  split <;> simp_all

/-- An insertion counts for a key that has no record yet. -/
theorem recordOf_addNew : recordOf key target (addNew key record records) =
    recordOf key target (records ++ [record]) := by
  unfold addNew
  split
  next isKnown =>
    rw [recordOf_append_singleton]
    by_cases isKey : key record = target
    · have found : recordOf key target records ≠ none := by
        rw [Ne, recordOf_eq_none_iff, ← isKey]
        exact fun missing => missing isKnown
      rcases Option.ne_none_iff_exists'.mp found with ⟨first, isFirst⟩
      rw [isFirst]
      rfl
    · rw [if_neg isKey, Option.or_none]
  next => rfl

/-- A run of insertions reads as the first record of each key. -/
theorem recordOf_addAll (inserted : List ρ) :
    recordOf key target (addAll key inserted) = recordOf key target inserted := by
  induction inserted using List.reverseRecOn with
  | nil => rfl
  | append_singleton inserted record inductionHypothesis =>
      rw [addAll_append_singleton, recordOf_addNew, recordOf_append_singleton, inductionHypothesis,
        ← recordOf_append_singleton]

/-- Among records of distinct keys the place does not matter. -/
theorem recordOf_eq_some_iff (distinct : (records.map key).Nodup) :
    recordOf key target records = some record ↔ record ∈ records ∧ key record = target := by
  unfold recordOf
  constructor
  · intro found
    have isKey := List.find?_some found
    exact ⟨List.mem_of_find?_eq_some found, of_decide_eq_true isKey⟩
  · rintro ⟨isMember, isKey⟩
    cases found : records.find? fun record => key record = target with
    | none =>
        have missing := recordOf_eq_none_iff.mp found
        exact absurd (List.mem_map.mpr ⟨record, isMember, isKey⟩) missing
    | some first =>
        have holds := List.find?_some found
        have isFirst : key first = target := of_decide_eq_true holds
        rw [List.inj_on_of_nodup_map distinct (List.mem_of_find?_eq_some found) isMember (isFirst.trans isKey.symm)]

theorem recordOf_perm (same : records.Perm other) (distinct : (records.map key).Nodup) :
    recordOf key target records = recordOf key target other := by
  have otherDistinct : (other.map key).Nodup := (same.map key).nodup_iff.mp distinct
  apply Option.ext
  intro record
  rw [recordOf_eq_some_iff distinct, recordOf_eq_some_iff otherDistinct, same.mem_iff]

/-- Inserting into a permutation of the records. -/
theorem addNew_perm (same : records.Perm other) : (addNew key record records).Perm (addNew key record other) := by
  have sameKeys : key record ∈ records.map key ↔ key record ∈ other.map key := (same.map key).mem_iff
  unfold addNew
  by_cases isKnown : key record ∈ records.map key
  · rw [if_pos isKnown, if_pos (sameKeys.mp isKnown)]
    exact same
  · rw [if_neg isKnown, if_neg (mt sameKeys.mpr isKnown)]
    exact same.append_right _

/-! ### Chains of cells -/

variable {cell next : Cell κ ρ} {later cells : List (Cell κ ρ)} {anchor : κ}

theorem partitioned_nil : Partitioned key ([] : List (Cell κ ρ)) :=
  ⟨fun _ isMember => absurd isMember List.not_mem_nil, List.Pairwise.nil⟩

theorem partitioned_cons : Partitioned key (cell :: later) ↔
    cell.Sound key ∧ (∀ next ∈ later, Cell.Before key cell next) ∧ Partitioned key later := by
  constructor
  · intro partitioned
    have before := List.pairwise_cons.mp partitioned.before
    refine ⟨partitioned.sound cell List.mem_cons_self, before.1, ?_, before.2⟩
    exact fun other isMember => partitioned.sound other (List.mem_cons_of_mem _ isMember)
  · rintro ⟨sound, first, rest⟩
    refine ⟨?_, List.pairwise_cons.mpr ⟨first, rest.before⟩⟩
    exact List.forall_mem_cons.mpr ⟨sound, rest.sound⟩

theorem partitioned_singleton (sound : cell.Sound key) : Partitioned key [cell] :=
  partitioned_cons.mpr ⟨sound, fun _ isNext => absurd isNext List.not_mem_nil, partitioned_nil⟩

/-- A cell without records. -/
theorem sound_empty (anchor : κ) : (⟨anchor, []⟩ : Cell κ ρ).Sound key :=
  ⟨List.nodup_nil, fun _ isMember => absurd isMember List.not_mem_nil⟩

theorem before_of_empty (below : anchor < next.anchor) : Cell.Before key ⟨anchor, []⟩ next :=
  ⟨below, fun _ isMember => absurd isMember List.not_mem_nil⟩

/-- The first anchor may be lowered. -/
theorem Partitioned.lowered (partitioned : Partitioned key (cell :: later)) (lower : anchor ≤ cell.anchor) :
    Partitioned key (⟨anchor, cell.records⟩ :: later) := by
  rcases partitioned_cons.mp partitioned with ⟨sound, first, rest⟩
  apply partitioned_cons.mpr
  refine ⟨⟨sound.distinct, ?_⟩, ?_, rest⟩
  · exact fun record isMember => lower.trans (sound.above record isMember)
  · exact fun next isNext => ⟨lower.trans_lt (first next isNext).anchor, (first next isNext).keys⟩

/-- The keys of a divided map are distinct. -/
theorem Partitioned.nodup (partitioned : Partitioned key cells) : ((contentsOf cells).map key).Nodup := by
  induction cells with
  | nil => exact List.nodup_nil
  | cons cell later inductionHypothesis =>
      rcases partitioned_cons.mp partitioned with ⟨sound, first, rest⟩
      rw [contentsOf_cons, List.map_append, List.nodup_append]
      refine ⟨sound.distinct, inductionHypothesis rest, ?_⟩
      intro left isLeft right isRight same
      rcases List.mem_map.mp isLeft with ⟨record, isRecord, isKey⟩
      rcases List.mem_map.mp isRight with ⟨held, isHeld, heldKey⟩
      rcases List.mem_flatMap.mp isHeld with ⟨next, isNext, inNext⟩
      have bound := (first next isNext).keys record isRecord
      have above := (rest.sound next isNext).above held inNext
      rw [isKey, same, ← heldKey] at bound
      exact absurd above (not_le.mpr bound)

/-- A key is read from the cell that is responsible for it. -/
theorem Partitioned.recordOf_contents {earlier : List (Cell κ ρ)}
    (partitioned : Partitioned key (earlier ++ cell :: later)) (above : cell.anchor ≤ target)
    (below : ∀ next ∈ later, target < next.anchor) :
    recordOf key target (contentsOf (earlier ++ cell :: later)) = recordOf key target cell.records := by
  have sound := partitioned.sound cell (List.mem_append_right _ List.mem_cons_self)
  have inside : cell.records ⊆ contentsOf (earlier ++ cell :: later) := by
    intro record isRecord
    exact List.mem_flatMap.mpr ⟨cell, List.mem_append_right _ List.mem_cons_self, isRecord⟩
  cases found : recordOf key target cell.records with
  | none =>
      rw [recordOf_eq_none_iff, partitioned.key_mem_iff above below, ← recordOf_eq_none_iff]
      exact found
  | some record =>
      rw [recordOf_eq_some_iff partitioned.nodup]
      rcases (recordOf_eq_some_iff sound.distinct).mp found with ⟨isRecord, isKey⟩
      exact ⟨inside isRecord, isKey⟩

/-- The first cell is also responsible for the keys below it. -/
theorem Partitioned.recordOf_first (partitioned : Partitioned key (cell :: later))
    (below : ∀ next ∈ later, target < next.anchor) :
    recordOf key target (contentsOf (cell :: later)) = recordOf key target cell.records := by
  have lowered := partitioned.lowered (min_le_left cell.anchor target)
  have found := @Partitioned.recordOf_contents _ _ _ key target ⟨min cell.anchor target, cell.records⟩ later []
    lowered (min_le_right _ _) below
  exact found

end DiStore.Library
