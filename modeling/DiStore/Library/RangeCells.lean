import Mathlib.Data.List.Nodup
import Mathlib.Data.List.Perm.Basic
import Mathlib.Order.Lattice

/-!
Contract: a map kept as a chain of cells that divide the keys among them.

Owns: cells with an anchor and records (`Cell`), chains whose cells hold the keys from
their own anchor up to the next one (`Partitioned`), adding a record to the cell
responsible for its key, and dividing a cell in two at a new anchor.

Does not own: how the responsible cell is found (`Library.SortedRoute`), and where a
cell keeps its records.
-/

set_option autoImplicit false

namespace DiStore.Library

variable {κ ρ : Type} [LinearOrder κ]

structure Cell (κ ρ : Type) where
  anchor : κ
  records : List ρ

section Definitions

variable (key : ρ → κ)

/-- One record a key, and no key below the anchor. -/
structure Cell.Sound (cell : Cell κ ρ) : Prop where
  distinct : (cell.records.map key).Nodup
  above : ∀ record ∈ cell.records, cell.anchor ≤ key record

/-- The anchors increase, and the later one bounds the keys of the earlier cell. -/
structure Cell.Before (earlier later : Cell κ ρ) : Prop where
  anchor : earlier.anchor < later.anchor
  keys : ∀ record ∈ earlier.records, key record < later.anchor

/-- Anchors strictly increase, and each cell holds, once, keys from its own anchor up to
the next one. -/
structure Partitioned (cells : List (Cell κ ρ)) : Prop where
  sound : ∀ cell ∈ cells, cell.Sound key
  before : cells.Pairwise (Cell.Before key)

/-- All records of a chain. -/
def contentsOf (cells : List (Cell κ ρ)) : List ρ := cells.flatMap Cell.records

/-- A record is added unless its key has one. -/
def addNew (record : ρ) (records : List ρ) : List ρ :=
  if key record ∈ records.map key then records else records ++ [record]

end Definitions

variable {key : ρ → κ} {earlier later : List (Cell κ ρ)} {cell left right : Cell κ ρ}
variable {records : List ρ} {record : ρ} {anchor target : κ}

omit [LinearOrder κ] in
theorem contentsOf_append (earlier later : List (Cell κ ρ)) :
    contentsOf (earlier ++ later) = contentsOf earlier ++ contentsOf later :=
  List.flatMap_append

omit [LinearOrder κ] in
theorem contentsOf_cons (cell : Cell κ ρ) (later : List (Cell κ ρ)) :
    contentsOf (cell :: later) = cell.records ++ contentsOf later :=
  List.flatMap_cons

/-- A cell may be exchanged for one with the same anchor and keys below the next one. -/
theorem Partitioned.exchange (partitioned : Partitioned key (earlier ++ cell :: later))
    (sameAnchor : left.anchor = cell.anchor) (sound : left.Sound key)
    (bounded : ∀ other ∈ later, ∀ record ∈ left.records, key record < other.anchor) :
    Partitioned key (earlier ++ left :: later) := by
  have before := partitioned.before
  rw [List.pairwise_append, List.pairwise_cons] at before
  obtain ⟨front, ⟨next, back⟩, across⟩ := before
  constructor
  · intro other isMember
    rcases List.mem_append.mp isMember with isEarlier | isRest
    · exact partitioned.sound other (List.mem_append_left _ isEarlier)
    · rcases List.mem_cons.mp isRest with isLeft | isLater
      · rw [isLeft]
        exact sound
      · exact partitioned.sound other (List.mem_append_right _ (List.mem_cons_of_mem _ isLater))
  · rw [List.pairwise_append, List.pairwise_cons]
    refine ⟨front, ⟨?_, back⟩, ?_⟩
    · intro other isLater
      constructor
      · rw [sameAnchor]
        exact (next other isLater).anchor
      · exact bounded other isLater
    · intro other isEarlier next isRest
      rcases List.mem_cons.mp isRest with isLeft | isLater
      · have old := across other isEarlier cell List.mem_cons_self
        rw [isLeft]
        constructor
        · rw [sameAnchor]
          exact old.anchor
        · rw [sameAnchor]
          exact old.keys
      · exact across other isEarlier next (List.mem_cons_of_mem _ isLater)

/-! ### Adding a record -/

/-- Only the responsible cell can hold a key. -/
theorem Partitioned.key_mem_iff (partitioned : Partitioned key (earlier ++ cell :: later))
    (above : cell.anchor ≤ target) (below : ∀ other ∈ later, target < other.anchor) :
    target ∈ (contentsOf (earlier ++ cell :: later)).map key ↔ target ∈ cell.records.map key := by
  have before := partitioned.before
  rw [List.pairwise_append] at before
  rw [contentsOf_append, contentsOf_cons, List.map_append, List.map_append, List.mem_append,
    List.mem_append]
  have notEarlier : target ∉ (contentsOf earlier).map key := by
    intro isMember
    obtain ⟨record, isRecord, isKey⟩ := List.mem_map.mp isMember
    obtain ⟨other, isEarlier, inOther⟩ := List.mem_flatMap.mp isRecord
    have bound := (before.2.2 other isEarlier cell List.mem_cons_self).keys record inOther
    rw [isKey] at bound
    exact absurd above (not_le.mpr bound)
  have notLater : target ∉ (contentsOf later).map key := by
    intro isMember
    obtain ⟨record, isRecord, isKey⟩ := List.mem_map.mp isMember
    obtain ⟨other, isLater, inOther⟩ := List.mem_flatMap.mp isRecord
    have sound := partitioned.sound other (List.mem_append_right _ (List.mem_cons_of_mem _ isLater))
    have bound := sound.above record inOther
    rw [isKey] at bound
    exact absurd (below other isLater) (not_lt.mpr bound)
  constructor
  · intro isMember
    rcases isMember with inEarlier | inCell | inLater
    · exact absurd inEarlier notEarlier
    · exact inCell
    · exact absurd inLater notLater
  · intro inCell
    exact Or.inr (Or.inl inCell)

theorem mem_addNew {other : ρ} (isMember : other ∈ addNew key record records) :
    other ∈ records ∨ other = record := by
  unfold addNew at isMember
  split at isMember
  next => exact Or.inl isMember
  next =>
    rcases List.mem_append.mp isMember with isOld | isNew
    · exact Or.inl isOld
    · exact Or.inr (List.mem_singleton.mp isNew)

theorem nodup_addNew (distinct : (records.map key).Nodup) :
    ((addNew key record records).map key).Nodup := by
  unfold addNew
  split
  next => exact distinct
  next isNew =>
    rw [List.map_append, List.map_singleton, List.nodup_append]
    refine ⟨distinct, List.nodup_singleton _, ?_⟩
    intro old isOld other isOther same
    rw [same, List.mem_singleton.mp isOther] at isOld
    exact isNew isOld

theorem Partitioned.add (partitioned : Partitioned key (earlier ++ ⟨anchor, records⟩ :: later))
    (above : anchor ≤ key record) (below : ∀ other ∈ later, key record < other.anchor) :
    Partitioned key (earlier ++ ⟨anchor, addNew key record records⟩ :: later) := by
  have sound := partitioned.sound ⟨anchor, records⟩ (List.mem_append_right _ List.mem_cons_self)
  have before := partitioned.before
  rw [List.pairwise_append, List.pairwise_cons] at before
  apply partitioned.exchange (show _ = anchor from rfl)
  · constructor
    · exact nodup_addNew sound.distinct
    · intro other isMember
      rcases mem_addNew isMember with isOld | isNew
      · exact sound.above other isOld
      · rw [isNew]
        exact above
  · intro other isLater held isMember
    rcases mem_addNew isMember with isOld | isNew
    · exact (before.2.1.1 other isLater).keys held isOld
    · rw [isNew]
      exact below other isLater

/-- Adding to the responsible cell adds to the whole. -/
theorem Partitioned.contentsOf_add (partitioned : Partitioned key (earlier ++ ⟨anchor, records⟩ :: later))
    (above : anchor ≤ key record) (below : ∀ other ∈ later, key record < other.anchor) :
    (contentsOf (earlier ++ ⟨anchor, addNew key record records⟩ :: later)).Perm
      (addNew key record (contentsOf (earlier ++ ⟨anchor, records⟩ :: later))) := by
  have place := partitioned.key_mem_iff above below
  by_cases isKnown : key record ∈ records.map key
  · have same : addNew key record records = records := if_pos isKnown
    rw [same, addNew, if_pos (place.mpr isKnown)]
  · have added : addNew key record records = records ++ [record] := if_neg isKnown
    rw [added, addNew, if_neg (mt place.mp isKnown), contentsOf_append, contentsOf_append, contentsOf_cons,
      contentsOf_cons]
    change (contentsOf earlier ++ ((records ++ [record]) ++ contentsOf later)).Perm
      (contentsOf earlier ++ (records ++ contentsOf later) ++ [record])
    rw [List.append_assoc, List.append_assoc, List.append_assoc]
    apply List.Perm.append_left
    apply List.Perm.append_left
    exact List.perm_append_comm

/-! ### Dividing a cell -/

/-- An anchor between the records of a cell, and held by one of them, lies in the cell's
range. -/
theorem Partitioned.between {lower upper : List ρ}
    (partitioned : Partitioned key (earlier ++ cell :: later)) (perm : (lower ++ upper).Perm cell.records)
    (nonempty : lower ≠ []) (low : ∀ record ∈ lower, key record < anchor)
    (held : ∃ record ∈ upper, key record = anchor) :
    cell.anchor < anchor ∧ ∀ other ∈ later, anchor < other.anchor := by
  have sound := partitioned.sound cell (List.mem_append_right _ List.mem_cons_self)
  have before := partitioned.before
  rw [List.pairwise_append, List.pairwise_cons] at before
  constructor
  · obtain ⟨record, isLower⟩ := List.exists_mem_of_ne_nil lower nonempty
    have inCell := perm.mem_iff.mp (List.mem_append_left _ isLower)
    exact (sound.above record inCell).trans_lt (low record isLower)
  · intro other isLater
    obtain ⟨record, isUpper, isAnchor⟩ := held
    have inCell := perm.mem_iff.mp (List.mem_append_right _ isUpper)
    rw [← isAnchor]
    exact (before.2.1.1 other isLater).keys record inCell

/-- A cell divided at a new anchor, which lies in its range. -/
theorem Partitioned.divide {lower upper : List ρ}
    (partitioned : Partitioned key (earlier ++ cell :: later)) (perm : (lower ++ upper).Perm cell.records)
    (between : cell.anchor < anchor) (next : ∀ other ∈ later, anchor < other.anchor)
    (low : ∀ record ∈ lower, key record < anchor) (high : ∀ record ∈ upper, anchor ≤ key record) :
    Partitioned key (earlier ++ ⟨cell.anchor, lower⟩ :: ⟨anchor, upper⟩ :: later) := by
  have sound := partitioned.sound cell (List.mem_append_right _ List.mem_cons_self)
  have before := partitioned.before
  rw [List.pairwise_append, List.pairwise_cons] at before
  obtain ⟨front, ⟨behind, back⟩, across⟩ := before
  have distinct := (perm.map key).nodup_iff.mpr sound.distinct
  rw [List.map_append, List.nodup_append] at distinct
  have inCell : ∀ record ∈ lower ++ upper, record ∈ cell.records := fun record isMember =>
    perm.mem_iff.mp isMember
  constructor
  · intro other isMember
    rcases List.mem_append.mp isMember with isEarlier | isRest
    · exact partitioned.sound other (List.mem_append_left _ isEarlier)
    · rcases List.mem_cons.mp isRest with isLower | isRest
      · rw [isLower]
        exact ⟨distinct.1, fun record isRecord =>
          sound.above record (inCell record (List.mem_append_left _ isRecord))⟩
      · rcases List.mem_cons.mp isRest with isUpper | isLater
        · rw [isUpper]
          exact ⟨distinct.2.1, high⟩
        · exact partitioned.sound other (List.mem_append_right _ (List.mem_cons_of_mem _ isLater))
  · rw [List.pairwise_append, List.pairwise_cons, List.pairwise_cons]
    refine ⟨front, ⟨?_, ?_, back⟩, ?_⟩
    · intro other isRest
      rcases List.mem_cons.mp isRest with isUpper | isLater
      · rw [isUpper]
        exact ⟨between, low⟩
      · exact ⟨(behind other isLater).anchor, fun record isRecord =>
          (behind other isLater).keys record (inCell record (List.mem_append_left _ isRecord))⟩
    · intro other isLater
      exact ⟨next other isLater, fun record isRecord =>
        (behind other isLater).keys record (inCell record (List.mem_append_right _ isRecord))⟩
    · intro other isEarlier following isRest
      have old := across other isEarlier cell List.mem_cons_self
      rcases List.mem_cons.mp isRest with isLower | isRest
      · rw [isLower]
        exact ⟨old.anchor, old.keys⟩
      · rcases List.mem_cons.mp isRest with isUpper | isLater
        · rw [isUpper]
          exact ⟨old.anchor.trans between, fun record isRecord => (old.keys record isRecord).trans between⟩
        · exact across other isEarlier following (List.mem_cons_of_mem _ isLater)

omit [LinearOrder κ] in
theorem contentsOf_divide {lower upper : List ρ} (earlier later : List (Cell κ ρ))
    (perm : (lower ++ upper).Perm cell.records) :
    (contentsOf (earlier ++ ⟨cell.anchor, lower⟩ :: ⟨anchor, upper⟩ :: later)).Perm
      (contentsOf (earlier ++ cell :: later)) := by
  rw [contentsOf_append, contentsOf_append, contentsOf_cons, contentsOf_cons, contentsOf_cons]
  apply List.Perm.append_left
  rw [← List.append_assoc]
  exact perm.append_right _

end DiStore.Library
