/-!
Contract: reading through an address that a writer may change meanwhile.

Owns: cells that move (`MovableCell`), the steps of a writer that leaves old places alone
(`MovableCell.Orderly`), and that a reader who fetches from an address it took earlier reads what
the cell held at some moment in between.

Does not own: how the writer finds new places, and how many cells it has.
-/

set_option autoImplicit false

namespace DiStore.Library

universe u v w

/-- Where a cell is, what is read at an address, and the addresses that the writer has no more
business with. -/
structure MovableCell (State : Type u) (Address : Type v) (Reading : Type w) where
  place : State → Address
  reading : State → Address → Reading
  retired : State → Address → Prop

namespace MovableCell

variable {State : Type u} {Address : Type v} {Reading : Type w} (cell : MovableCell State Address Reading)

/-- What the cell holds. -/
def held (state : State) : Reading := cell.reading state (cell.place state)

/-- A step leaves retired addresses alone, and retires the place that the cell moves away from. -/
structure Orderly (before after : State) : Prop where
  retired : ∀ address, cell.retired before address →
    cell.retired after address ∧ cell.reading after address = cell.reading before address
  moves : cell.place after ≠ cell.place before →
    cell.retired after (cell.place before) ∧
      cell.reading after (cell.place before) = cell.reading before (cell.place before)

variable {cell} {before after : State} {seen later : State → Prop} {address : Address}

variable (cell) in
/-- The address was the place of the cell in a state that was seen, and still reads as the cell did
in some such state. -/
def Recalls (seen : State → Prop) (state : State) (address : Address) : Prop :=
  address = cell.place state ∨
    cell.retired state address ∧ ∃ past, seen past ∧ cell.reading state address = cell.held past

/-- What a reader has taken stays good when the writer goes on. -/
theorem Recalls.step (recalls : cell.Recalls seen before address) (orderly : cell.Orderly before after)
    (seenBefore : later before) (grows : ∀ past, seen past → later past) : cell.Recalls later after address := by
  rcases recalls with isPlace | ⟨retired, past, wasSeen, reads⟩
  · by_cases moved : cell.place after = cell.place before
    · exact Or.inl (isPlace.trans moved.symm)
    · obtain ⟨nowRetired, same⟩ := orderly.moves moved
      rw [← isPlace] at nowRetired same
      refine Or.inr ⟨nowRetired, before, seenBefore, ?_⟩
      rw [same, isPlace]
      rfl
  · obtain ⟨stillRetired, same⟩ := orderly.retired address retired
    exact Or.inr ⟨stillRetired, past, grows past wasSeen, same.trans reads⟩

/-- A fetch from the address reads what the cell held in a state that was seen. -/
theorem Recalls.reads (recalls : cell.Recalls seen before address) (seenNow : seen before) :
    ∃ past, seen past ∧ cell.reading before address = cell.held past := by
  rcases recalls with isPlace | ⟨_, past, wasSeen, reads⟩
  · refine ⟨before, seenNow, ?_⟩
    rw [isPlace]
    rfl
  · exact ⟨past, wasSeen, reads⟩

end MovableCell

end DiStore.Library
