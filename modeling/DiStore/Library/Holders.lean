/-!
Contract: things that are handed out to several holders.

Owns: that what the holders have is apart (`Separate`), and that it stays so when something new is
handed out.

Does not own: what the things are.
-/

set_option autoImplicit false

namespace DiStore.Library

universe u v

variable {ι : Type u} {ρ : Type v} {apart : ρ → ρ → Prop} {held after : ι → List ρ}

/-- What a holder has is apart from the rest of what it has, and from what the others have. -/
structure Separate (apart : ρ → ρ → Prop) (held : ι → List ρ) : Prop where
  own : ∀ holder, (held holder).Pairwise apart
  others : ∀ left right, left ≠ right → ∀ thing ∈ held left, ∀ other ∈ held right, apart thing other

namespace Separate

theorem nothing : Separate apart fun _ : ι => [] where
  own _ := List.Pairwise.nil
  others _ _ _ _ isMember := by cases isMember

/-- Something is handed out that is apart from all that is held. -/
theorem add (separate : Separate apart held) (symm : ∀ {left right : ρ}, apart left right → apart right left)
    (holder : ι) {thing : ρ} (new : ∀ other, ∀ old ∈ held other, apart thing old)
    (isHolder : after holder = thing :: held holder) (same : ∀ other, other ≠ holder → after other = held other) :
    Separate apart after := by
  have old : ∀ other, ∀ one ∈ after other, one ∈ held other ∨ other = holder ∧ one = thing := by
    intro other one isMember
    by_cases isOther : other = holder
    · rw [isOther, isHolder] at isMember
      rcases List.mem_cons.mp isMember with isThing | isOld
      · exact Or.inr ⟨isOther, isThing⟩
      · exact Or.inl (isOther ▸ isOld)
    · rw [same other isOther] at isMember
      exact Or.inl isMember
  constructor
  · intro other
    by_cases isOther : other = holder
    · rw [isOther, isHolder]
      exact List.pairwise_cons.mpr ⟨new holder, separate.own holder⟩
    · rw [same other isOther]
      exact separate.own other
  · intro left right differ one oneMember two twoMember
    rcases old left one oneMember with oneOld | ⟨isLeft, isOne⟩
    · rcases old right two twoMember with twoOld | ⟨_, isTwo⟩
      · exact separate.others left right differ one oneOld two twoOld
      · rw [isTwo]
        exact symm (new left one oneOld)
    · rcases old right two twoMember with twoOld | ⟨isRight, _⟩
      · rw [isOne]
        exact new right two twoOld
      · exact absurd (isLeft.trans isRight.symm) differ

end Separate

end DiStore.Library
