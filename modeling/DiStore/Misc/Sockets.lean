import DiStore.Common.Bytes
import DiStore.Library.LexScan

/-!
Contract: receiving a fixed number of bytes from a socket.

Owns: the results of `read`, `recv_all`, the bytes that arrive until the buffer is full, the peer
closes or a read fails, the number the caller should get, and when it gets it.

Does **not** own: the connections, and `send_all`.

## A peer that closes

The loop leaves on a negative result and on enough bytes. A closed peer gives neither: `read`
returns zero, `got` does not grow, and the loop reads again. The two narrowings of the code add a
bound each: the returned number is an `int`, and `count` is compared as a signed number.
-/

set_option autoImplicit false

namespace DiStore.Misc

open DiStore.Library

/-- What a `read` returns: bytes, none of them once the peer has closed, or a negative number. -/
inductive ReadResult where
  | received (bytes : Str)
  | error (below : Nat)

namespace ReadResult

/-- The number returned with an error, which is never zero or more. -/
def code (below : Nat) : Int := Int.negSucc below

/-- The bytes that come with a result. -/
def bytes : ReadResult → Str
  | received bytes => bytes
  | error _ => []

end ReadResult

/-- The conversion of a `ssize_t` to the `int` that is returned. -/
def narrow (number : Int) : Int := (BitVec.ofInt 32 number).toInt

/-- The bytes that a `read` puts into the buffer, from `got` on. -/
def fill (buffer : Nat → UInt8) (got : Nat) (bytes : Str) : Nat → UInt8 := fun index =>
  if got ≤ index then bytes.getD (index - got) (buffer index) else buffer index

variable (reads : Nat → ReadResult)

/-- The loop of `recv_all` from its `call`-th read on, with a bound on the number of reads. The
end test compares with `count` as a signed number. -/
def recvLoop (count : BitVec 64) : Nat → Nat → Nat → (Nat → UInt8) → Option (Int × (Nat → UInt8))
  | 0, _, _, _ => none
  | fuel + 1, call, got, buffer =>
      match reads call with
      | .error below => some (if got = 0 then narrow (ReadResult.code below) else narrow got, buffer)
      | .received bytes =>
          let buffer := fill buffer got bytes
          let got := got + bytes.length
          if (got : Int) < count.toInt then recvLoop count fuel (call + 1) got buffer
          else some (narrow got, buffer)

/-- `recv_all`, for the results that `read` gives it. -/
def recvAll (count : BitVec 64) (fuel : Nat) (buffer : Nat → UInt8) : Option (Int × (Nat → UInt8)) :=
  recvLoop reads count fuel 0 0 buffer

/-! ## What arrives -/

/-- The bytes of the first reads. -/
def arrived : Nat → Str
  | 0 => []
  | calls + 1 => arrived calls ++ (reads calls).bytes

/-- The buffer after the first reads. -/
def filled (buffer : Nat → UInt8) : Nat → Nat → UInt8
  | 0 => buffer
  | calls + 1 => fill (filled buffer calls) (arrived reads calls).length (reads calls).bytes

/-- The results a socket can give: no read gets more bytes than it asked for or than a
`ssize_t` can say, and a closed peer stays closed. -/
structure Permitted (count : Nat) : Prop where
  bounded : ∀ call bytes, (arrived reads call).length < count → reads call = .received bytes →
    bytes.length ≤ count - (arrived reads call).length ∧ bytes.length < 2 ^ 63
  closed : ∀ call, reads call = .received [] → ∀ later, call ≤ later → reads later = .received []

/-- Data arrives in the first reads, and then the buffer is full or the next read brings none. -/
structure Ends (count calls : Nat) : Prop where
  data : ∀ call < calls, ∃ bytes, reads call = .received bytes ∧ bytes ≠ []
  short : ∀ call < calls, (arrived reads call).length < count
  stops : (arrived reads calls).length = count ∨
    (arrived reads calls).length < count ∧ (reads calls = .received [] ∨ ∃ below, reads calls = .error below)

/-- The number that the caller should get: the error when there is nothing else, and the number
of bytes that arrived otherwise. -/
def owed (count calls : Nat) : Int :=
  if (arrived reads calls).length = count then count
  else
    match reads calls with
    | .error below => if calls = 0 then ReadResult.code below else (arrived reads calls).length
    | .received _ => (arrived reads calls).length

/-- The call returns, with the number that the caller should get and the bytes in their order. -/
def Serves (count : BitVec 64) (buffer : Nat → UInt8) : Prop :=
  ∃ calls, Ends reads count.toNat calls ∧ ∃ fuel final,
    recvAll reads count fuel buffer = some (owed reads count.toNat calls, final) ∧ IsAt final 0 (arrived reads calls)

/-! ## The buffer -/

/-- A read appends to the text in front of it. -/
theorem isAt_fill {buffer : Nat → UInt8} {text : Str} (isAt : IsAt buffer 0 text) (bytes : Str) :
    IsAt (fill buffer text.length bytes) 0 (text ++ bytes) := by
  intro offset letter isLetter
  rw [Nat.zero_add]
  unfold fill
  by_cases behind : text.length ≤ offset
  · rw [List.getElem?_append_right behind] at isLetter
    rw [if_pos behind, List.getD_eq_getElem?_getD, isLetter, Option.getD_some]
  · rw [List.getElem?_append_left (Nat.not_le.mp behind)] at isLetter
    have kept := isAt offset letter isLetter
    rw [Nat.zero_add] at kept
    rw [if_neg behind, kept]

theorem isAt_filled (buffer : Nat → UInt8) (calls : Nat) : IsAt (filled reads buffer calls) 0 (arrived reads calls) := by
  induction calls with
  | zero =>
      intro offset letter isLetter
      cases isLetter
  | succ calls inductionHypothesis => exact isAt_fill inductionHypothesis (reads calls).bytes

/-! ## The loop -/

variable {reads} {count : BitVec 64} {buffer : Nat → UInt8}

/-- The loop after its first reads. -/
abbrev loopAt (reads : Nat → ReadResult) (count : BitVec 64) (buffer : Nat → UInt8) (fuel calls : Nat) :
    Option (Int × (Nat → UInt8)) :=
  recvLoop reads count fuel calls (arrived reads calls).length (filled reads buffer calls)

theorem length_arrived_succ {calls : Nat} {bytes : Str} (isData : reads calls = .received bytes) :
    (arrived reads (calls + 1)).length = (arrived reads calls).length + bytes.length := by
  change (arrived reads calls ++ (reads calls).bytes).length = _
  rw [isData, List.length_append]
  rfl

/-- One read that returns bytes. -/
theorem loopAt_received {fuel calls : Nat} {bytes : Str} (isData : reads calls = .received bytes) :
    loopAt reads count buffer (fuel + 1) calls =
      if ((arrived reads (calls + 1)).length : Int) < count.toInt then loopAt reads count buffer fuel (calls + 1)
      else some (narrow (arrived reads (calls + 1)).length, filled reads buffer (calls + 1)) := by
  have isFilled : filled reads buffer (calls + 1) = fill (filled reads buffer calls) (arrived reads calls).length bytes := by
    change fill _ _ (reads calls).bytes = _
    rw [isData]
    rfl
  unfold loopAt
  rw [isFilled, length_arrived_succ isData, recvLoop, isData]

/-- One read that fails. -/
theorem loopAt_error {fuel calls below : Nat} (failed : reads calls = .error below) :
    loopAt reads count buffer (fuel + 1) calls =
      some (if (arrived reads calls).length = 0 then narrow (ReadResult.code below)
        else narrow (arrived reads calls).length, filled reads buffer calls) := by
  unfold loopAt
  rw [recvLoop, failed]

/-- The first reads of a call that goes on after each of them. -/
theorem recvAll_skip (buffer : Nat → UInt8) {calls : Nat} (data : ∀ call < calls, ∃ bytes, reads call = .received bytes)
    (goesOn : ∀ call < calls, ((arrived reads (call + 1)).length : Int) < count.toInt) (fuel : Nat) :
    recvAll reads count (calls + fuel) buffer = loopAt reads count buffer fuel calls := by
  induction calls generalizing fuel with
  | zero =>
      rw [Nat.zero_add]
      rfl
  | succ calls inductionHypothesis =>
      rcases data calls (Nat.lt_succ_self calls) with ⟨bytes, isData⟩
      have before := inductionHypothesis (fun call isBefore => data call (Nat.lt_succ_of_lt isBefore))
        (fun call isBefore => goesOn call (Nat.lt_succ_of_lt isBefore)) (fuel + 1)
      rw [Nat.add_right_comm, Nat.add_assoc, before, loopAt_received isData, if_pos (goesOn calls (Nat.lt_succ_self calls))]

/-- More reads do not change a result. -/
theorem recvLoop_more {fuel call got : Nat} {result : Int × (Nat → UInt8)}
    (returned : recvLoop reads count fuel call got buffer = some result) (more : Nat) :
    recvLoop reads count (fuel + more) call got buffer = some result := by
  induction fuel generalizing call got buffer with
  | zero => cases returned
  | succ fuel inductionHypothesis =>
      rw [Nat.add_right_comm]
      unfold recvLoop at returned ⊢
      cases isResult : reads call with
      | error below =>
          rw [isResult] at returned
          exact returned
      | received bytes =>
          rw [isResult] at returned
          simp only at returned ⊢
          split at returned
          next goesOn =>
            rw [if_pos goesOn]
            exact inductionHypothesis returned
          next ends =>
            rw [if_neg ends]
            exact returned

/-- A call has one result. -/
theorem recvAll_unique {fuel other : Nat} {result another : Int × (Nat → UInt8)}
    (returned : recvAll reads count fuel buffer = some result)
    (returnedToo : recvAll reads count other buffer = some another) : result = another := by
  have left := recvLoop_more returned other
  have right := recvLoop_more returnedToo fuel
  rw [Nat.add_comm] at right
  exact Option.some.inj (left.symm.trans right)

/-! ## The results of a call -/

/-- A number that an `int` can say. -/
def FitsInt (number : Int) : Prop := -2 ^ 31 ≤ number ∧ number < 2 ^ 31

instance (number : Int) : Decidable (FitsInt number) :=
  inferInstanceAs (Decidable (-2 ^ 31 ≤ number ∧ number < 2 ^ 31))

theorem narrow_eq_iff (number : Int) : narrow number = number ↔ FitsInt number := by
  unfold narrow FitsInt
  rw [BitVec.toInt_ofInt, Int.bmod_def]
  split <;> omega

theorem narrow_lt (number : Int) : narrow number < 2 ^ 31 := by
  unfold narrow
  rw [BitVec.toInt_ofInt, Int.bmod_def]
  split <;> omega

/-- The peer has closed before the buffer is full. -/
def Closes (reads : Nat → ReadResult) (count calls : Nat) : Prop :=
  (arrived reads calls).length < count ∧ reads calls = .received []

section Ending

variable {calls : Nat}

/-- Every read in front of the end brings at least one byte. -/
theorem Ends.length_lt (ends : Ends reads count.toNat calls) {call : Nat} (isBefore : call < calls) :
    (arrived reads call).length < (arrived reads (call + 1)).length := by
  rcases ends.data call isBefore with ⟨bytes, isData, notNil⟩
  have some' := List.length_pos_iff.mpr notNil
  rw [length_arrived_succ isData]
  omega

theorem Ends.length_lt_of_lt (ends : Ends reads count.toNat calls) {call later : Nat} (isBefore : call < later)
    (inCall : later ≤ calls) : (arrived reads call).length < (arrived reads later).length := by
  induction later with
  | zero => exact absurd isBefore (Nat.not_lt_zero call)
  | succ later inductionHypothesis =>
      have grows := ends.length_lt (Nat.lt_of_succ_le inCall)
      rcases Nat.lt_or_eq_of_le (Nat.le_of_lt_succ isBefore) with earlier | same
      · exact Nat.lt_trans (inductionHypothesis earlier (Nat.le_of_succ_le inCall)) grows
      · rw [same]
        exact grows

theorem Ends.length_eq_zero_iff (ends : Ends reads count.toNat calls) :
    (arrived reads calls).length = 0 ↔ calls = 0 := by
  constructor
  · intro isZero
    by_contra notZero
    have grows := ends.length_lt_of_lt (Nat.pos_of_ne_zero notZero) le_rfl
    omega
  · intro isZero
    rw [isZero]
    rfl

/-- Once bytes have arrived their number is owed. -/
theorem owed_of_pos (positive : 0 < calls) :
    owed reads count.toNat calls = (arrived reads calls).length := by
  unfold owed
  by_cases full : (arrived reads calls).length = count.toNat
  · rw [if_pos full, full]
  · rw [if_neg full]
    cases reads calls with
    | error below => exact if_neg (Nat.ne_of_gt positive)
    | received bytes => rfl

theorem Ends.isData (ends : Ends reads count.toNat calls) : ∀ call < calls, ∃ bytes, reads call = .received bytes := by
  intro call isBefore
  rcases ends.data call isBefore with ⟨bytes, isData, _⟩
  exact ⟨bytes, isData⟩

/-- The end is determined by the results. -/
theorem Ends.unique (ends : Ends reads count.toNat calls) {other : Nat} (otherEnds : Ends reads count.toNat other) :
    calls = other := by
  have notBefore : ∀ {first second : Nat}, Ends reads count.toNat first → Ends reads count.toNat second →
      ¬ first < second := by
    intro first second firstEnds secondEnds isBefore
    rcases secondEnds.data first isBefore with ⟨bytes, isData, notNil⟩
    have short := secondEnds.short first isBefore
    rcases firstEnds.stops with full | ⟨_, closed | ⟨below, failed⟩⟩
    · omega
    · rw [isData] at closed
      exact notNil (ReadResult.received.inj closed)
    · rw [isData] at failed
      cases failed
  rcases Nat.lt_trichotomy calls other with before | same | after
  · exact absurd before (notBefore ends otherEnds)
  · exact same
  · exact absurd after (notBefore otherEnds ends)

end Ending

/-- Every permitted sequence of results comes to an end. The induction is on the number of reads
that have brought data; they cannot be more than the bytes asked for. -/
theorem exists_ends (permitted : Permitted reads count.toNat) (positive : 0 < count.toNat) :
    ∃ calls, Ends reads count.toNat calls := by
  by_contra never
  have allData : ∀ calls, (∀ call < calls, ∃ bytes, reads call = .received bytes ∧ bytes ≠ []) ∧
      (∀ call < calls, (arrived reads call).length < count.toNat) ∧
      calls ≤ (arrived reads calls).length ∧ (arrived reads calls).length < count.toNat := by
    intro calls
    induction calls with
    | zero =>
        refine ⟨fun call isBefore => absurd isBefore (Nat.not_lt_zero call),
          fun call isBefore => absurd isBefore (Nat.not_lt_zero call), Nat.zero_le _, positive⟩
    | succ calls inductionHypothesis =>
        have ⟨data, short, grown, notFull⟩ := inductionHypothesis
        cases isResult : reads calls with
        | error below => exact absurd ⟨calls, data, short, .inr ⟨notFull, .inr ⟨below, isResult⟩⟩⟩ never
        | received bytes =>
            by_cases isNil : bytes = []
            · rw [isNil] at isResult
              exact absurd ⟨calls, data, short, .inr ⟨notFull, .inl isResult⟩⟩ never
            · have some' := List.length_pos_iff.mpr isNil
              have ⟨fits, _⟩ := permitted.bounded calls bytes notFull isResult
              have grows := length_arrived_succ isResult
              have dataToo : ∀ call < calls + 1, ∃ bytes, reads call = .received bytes ∧ bytes ≠ [] := by
                intro call isBefore
                rcases Nat.lt_succ_iff_lt_or_eq.mp isBefore with before | same
                · exact data call before
                · exact ⟨bytes, by rw [same, isResult], isNil⟩
              have shortToo : ∀ call < calls + 1, (arrived reads call).length < count.toNat := by
                intro call isBefore
                rcases Nat.lt_succ_iff_lt_or_eq.mp isBefore with before | same
                · exact short call before
                · rw [same]
                  exact notFull
              by_cases full : (arrived reads (calls + 1)).length = count.toNat
              · exact absurd ⟨calls + 1, dataToo, shortToo, .inl full⟩ never
              · exact ⟨dataToo, shortToo, by omega, by omega⟩
  have ⟨_, _, grown, notFull⟩ := allData count.toNat
  omega

/-! ## A count that is not negative as a signed number -/

section Signed

variable {calls : Nat} (signed : count.toNat < 2 ^ 63)

include signed

theorem toInt_of_signed : count.toInt = count.toNat := by
  apply BitVec.toInt_eq_toNat_of_lt
  omega

/-- The loop goes on over every read in front of the last one that fills the buffer. -/
theorem Ends.goesOn (ends : Ends reads count.toNat calls) {last : Nat} (inCall : last ≤ calls)
    (notFull : (arrived reads last).length < count.toNat) :
    ∀ call < last, ((arrived reads (call + 1)).length : Int) < count.toInt := by
  intro call isBefore
  rw [toInt_of_signed signed]
  rcases Nat.lt_or_eq_of_le (Nat.succ_le_of_lt isBefore) with earlier | same
  · have short := ends.short (call + 1) (Nat.lt_of_lt_of_le earlier inCall)
    omega
  · have isLast : call + 1 = last := same
    rw [isLast]
    omega

/-- Unless the peer closes, the call returns what it owes, as an `int`. -/
theorem recvAll_of_open (buffer : Nat → UInt8) (positive : 0 < count.toNat) (ends : Ends reads count.toNat calls)
    (isOpen : ¬ Closes reads count.toNat calls) :
    ∃ fuel, recvAll reads count fuel buffer =
      some (narrow (owed reads count.toNat calls), filled reads buffer calls) := by
  rcases ends.stops with full | ⟨notFull, closed | ⟨below, failed⟩⟩
  · cases calls with
    | zero =>
        have empty : (arrived reads 0).length = 0 := rfl
        omega
    | succ last =>
        rcases ends.isData last (Nat.lt_succ_self last) with ⟨bytes, isData⟩
        have notYet := ends.short last (Nat.lt_succ_self last)
        have before := recvAll_skip buffer (fun call isBefore => ends.isData call (Nat.lt_succ_of_lt isBefore))
          (ends.goesOn signed (Nat.le_succ last) notYet) 1
        have atEnd : ¬ ((arrived reads (last + 1)).length : Int) < count.toInt := by
          rw [toInt_of_signed signed, full]
          exact Int.lt_irrefl _
        refine ⟨last + 1, ?_⟩
        rw [before, loopAt_received isData, if_neg atEnd]
        unfold owed
        rw [if_pos full, full]
  · exact absurd ⟨notFull, closed⟩ isOpen
  · have before := recvAll_skip buffer ends.isData (ends.goesOn signed le_rfl notFull) 1
    refine ⟨calls + 1, ?_⟩
    rw [before, loopAt_error failed]
    unfold owed
    rw [if_neg (Nat.ne_of_lt notFull), failed]
    simp only [ends.length_eq_zero_iff]
    split <;> rfl

/-- **A call never returns once the peer has closed**: every later read brings nothing. -/
theorem recvAll_of_closed (permitted : Permitted reads count.toNat) (ends : Ends reads count.toNat calls)
    (closes : Closes reads count.toNat calls) (fuel : Nat) : recvAll reads count fuel buffer = none := by
  have stays := permitted.closed calls closes.2
  have stuck : ∀ fuel later, calls ≤ later → (arrived reads later).length < count.toNat →
      loopAt reads count buffer fuel later = none := by
    intro fuel
    induction fuel with
    | zero =>
        intro later _ _
        rfl
    | succ fuel inductionHypothesis =>
        intro later isLater notFull
        have isClosed := stays later isLater
        have same := length_arrived_succ isClosed
        rw [List.length_nil, Nat.add_zero] at same
        have goesOn : ((arrived reads (later + 1)).length : Int) < count.toInt := by
          rw [toInt_of_signed signed, same]
          omega
        rw [loopAt_received isClosed, if_pos goesOn]
        exact inductionHypothesis (later + 1) (Nat.le_succ_of_le isLater) (by rw [same]; exact notFull)
  cases isResult : recvAll reads count fuel buffer with
  | none => rfl
  | some result =>
      have more := recvLoop_more isResult calls
      have before := recvAll_skip buffer ends.isData (ends.goesOn signed le_rfl closes.1) fuel
      rw [stuck fuel calls le_rfl closes.1] at before
      unfold recvAll at before
      rw [Nat.add_comm] at before
      rw [before] at more
      cases more

theorem serves_iff_of_signed (positive : 0 < count.toNat) (permitted : Permitted reads count.toNat)
    (ends : Ends reads count.toNat calls) :
    Serves reads count buffer ↔ FitsInt (owed reads count.toNat calls) ∧ ¬ Closes reads count.toNat calls := by
  constructor
  · rintro ⟨other, otherEnds, fuel, final, returned, _⟩
    rw [← ends.unique otherEnds] at returned
    have isOpen : ¬ Closes reads count.toNat calls := by
      intro closes
      rw [recvAll_of_closed signed permitted ends closes] at returned
      cases returned
    rcases recvAll_of_open signed buffer positive ends isOpen with ⟨_, narrowed⟩
    have sameNumber := (Prod.mk.inj (recvAll_unique narrowed returned)).1
    exact ⟨(narrow_eq_iff _).mp sameNumber, isOpen⟩
  · rintro ⟨fits, isOpen⟩
    rcases recvAll_of_open signed buffer positive ends isOpen with ⟨fuel, returned⟩
    rw [(narrow_eq_iff _).mpr fits] at returned
    exact ⟨calls, ends, fuel, _, returned, isAt_filled reads buffer calls⟩

end Signed

/-! ## A count that is negative as a signed number -/

section Unsigned

variable {calls : Nat} (unsigned : 2 ^ 63 ≤ count.toNat)

include unsigned

/-- The loop ends after its first read. -/
theorem recvAll_first (buffer : Nat → UInt8) {bytes : Str} (isData : reads 0 = .received bytes) :
    recvAll reads count 1 buffer = some (narrow (arrived reads 1).length, filled reads buffer 1) := by
  have negative : count.toInt < 0 := by
    have isWord := count.isLt
    rw [BitVec.toInt_eq_toNat_cond]
    split <;> omega
  have atEnd : ¬ ((arrived reads (0 + 1)).length : Int) < count.toInt := by omega
  have step : recvAll reads count 1 buffer = _ := loopAt_received isData
  rw [step, if_neg atEnd]

/-- A call that owes no more than its first read brings returns it, as an `int`. -/
theorem recvAll_of_first (buffer : Nat → UInt8) (positive : 0 < count.toNat) (ends : Ends reads count.toNat calls)
    (early : calls ≤ 1) :
    ∃ final, recvAll reads count 1 buffer = some (narrow (owed reads count.toNat calls), final) ∧
      IsAt final 0 (arrived reads calls) := by
  cases calls with
  | zero =>
      have nothing : ∀ final, IsAt final 0 (arrived reads 0) := by
        intro final offset letter isLetter
        cases isLetter
      have empty : (arrived reads 0).length = 0 := rfl
      have notFull : ¬ (arrived reads 0).length = count.toNat := fun full => absurd full (Nat.ne_of_lt positive)
      rcases ends.stops with full | ⟨_, closed | ⟨below, failed⟩⟩
      · exact absurd full notFull
      · have nothingMore := length_arrived_succ closed
        refine ⟨filled reads buffer 1, ?_, nothing _⟩
        rw [recvAll_first unsigned buffer closed, nothingMore]
        unfold owed
        rw [if_neg notFull, closed]
        rfl
      · have step : recvAll reads count 1 buffer = _ := loopAt_error failed
        refine ⟨filled reads buffer 0, ?_, nothing _⟩
        rw [step, if_pos empty]
        unfold owed
        rw [if_neg notFull, failed]
        simp only [if_true]
  | succ more =>
      have isOne : more = 0 := by omega
      rw [isOne] at ends ⊢
      rcases ends.isData 0 Nat.one_pos with ⟨bytes, isData⟩
      refine ⟨_, ?_, isAt_filled reads buffer 1⟩
      rw [recvAll_first unsigned buffer isData, owed_of_pos Nat.one_pos]

theorem serves_iff_of_unsigned (positive : 0 < count.toNat) (ends : Ends reads count.toNat calls) :
    Serves reads count buffer ↔ FitsInt (owed reads count.toNat calls) ∧ calls ≤ 1 := by
  constructor
  · rintro ⟨other, otherEnds, fuel, final, returned, _⟩
    rw [← ends.unique otherEnds] at returned
    by_cases early : calls ≤ 1
    · rcases recvAll_of_first unsigned buffer positive ends early with ⟨_, narrowed, _⟩
      have sameNumber := (Prod.mk.inj (recvAll_unique narrowed returned)).1
      exact ⟨(narrow_eq_iff _).mp sameNumber, early⟩
    · -- The call has returned the bytes of one read, and owes those of at least two.
      have later : 1 < calls := Nat.not_le.mp early
      rcases ends.isData 0 (Nat.zero_lt_of_lt later) with ⟨bytes, isData⟩
      have sameNumber := (Prod.mk.inj (recvAll_unique (recvAll_first unsigned buffer isData) returned)).1
      have grows := ends.length_lt_of_lt later le_rfl
      rw [owed_of_pos (Nat.zero_lt_of_lt later)] at sameNumber
      have isInt := narrow_lt (arrived reads 1).length
      have fits : FitsInt (arrived reads 1).length := ⟨by omega, by omega⟩
      rw [(narrow_eq_iff _).mpr fits] at sameNumber
      omega
  · rintro ⟨fits, early⟩
    rcases recvAll_of_first unsigned buffer positive ends early with ⟨final, returned, isAt⟩
    rw [(narrow_eq_iff _).mpr fits] at returned
    exact ⟨calls, ends, 1, final, returned, isAt⟩

end Unsigned

/-- **When `recv_all` serves its caller.** Every permitted sequence of results has an end. The
call returns what it owes there, with the bytes in order, exactly if that number is an `int` and
either the count is no negative `ssize_t` and the peer does not close before the end, or it is one
and at most one read has brought data. -/
theorem recvAll_serves_iff (positive : 0 < count.toNat) (permitted : Permitted reads count.toNat)
    (buffer : Nat → UInt8) :
    ∃ calls, Ends reads count.toNat calls ∧
      (Serves reads count buffer ↔ FitsInt (owed reads count.toNat calls) ∧
        (count.toNat < 2 ^ 63 ∧ ¬ Closes reads count.toNat calls ∨ 2 ^ 63 ≤ count.toNat ∧ calls ≤ 1)) := by
  rcases exists_ends permitted positive with ⟨calls, ends⟩
  refine ⟨calls, ends, ?_⟩
  rcases Nat.lt_or_ge count.toNat (2 ^ 63) with signed | unsigned
  · rw [serves_iff_of_signed signed positive permitted ends, or_iff_left fun large => Nat.not_le.mpr signed large.1,
      and_iff_right signed]
  · rw [serves_iff_of_unsigned unsigned positive ends, or_iff_right fun small => Nat.not_lt.mpr unsigned small.1,
      and_iff_right (show 2 ^ 63 ≤ count.toNat from unsigned)]

/-- A peer that sends three bytes at once and then fails. -/
def threeBytes : Nat → ReadResult
  | 0 => .received [1, 2, 3]
  | _ + 1 => .error 0

theorem permitted_threeBytes : Permitted threeBytes 3 where
  bounded call bytes _ isData := by
    cases call with
    | zero =>
        rw [← ReadResult.received.inj isData]
        decide
    | succ call => cases isData
  closed call isClosed := by cases call <;> cases isClosed

/-- The three bytes are served. -/
theorem recvAll_serves_threeBytes : Serves threeBytes 3 fun _ => 0 := by
  rcases recvAll_serves_iff (by decide : 0 < (3 : BitVec 64).toNat) permitted_threeBytes (fun _ => 0) with
    ⟨calls, ends, serves⟩
  have isOne : calls = 1 := ends.unique ⟨fun call isBefore => by
    have isFirst : call = 0 := by omega
    rw [isFirst]
    exact ⟨[1, 2, 3], rfl, by decide⟩, fun call isBefore => by
    have isFirst : call = 0 := by omega
    rw [isFirst]
    decide, .inl rfl⟩
  rw [isOne] at serves
  refine serves.mpr ⟨by decide, .inl ⟨by decide, fun closes => ?_⟩⟩
  exact absurd closes.1 (by decide)

/-- A peer that has closed before it sends anything. -/
def closedPeer : Nat → ReadResult := fun _ => .received []

/-- A caller that waits for an address of eight bytes waits for ever. -/
theorem closedPeer_never_returns :
    Permitted closedPeer 8 ∧ (∀ fuel buffer, recvAll closedPeer 8 fuel buffer = none) ∧
      ¬ Serves closedPeer 8 fun _ => 0 := by
  have permitted : Permitted closedPeer (8 : BitVec 64).toNat := {
    bounded := by
      intro call bytes _ isData
      rw [← ReadResult.received.inj isData]
      exact ⟨Nat.zero_le _, by decide⟩
    closed := fun _ _ _ _ => rfl }
  have ends : Ends closedPeer (8 : BitVec 64).toNat 0 := {
    data := fun call isBefore => absurd isBefore (Nat.not_lt_zero call)
    short := fun call isBefore => absurd isBefore (Nat.not_lt_zero call)
    stops := .inr ⟨by decide, .inl rfl⟩ }
  have stuck : ∀ fuel buffer, recvAll closedPeer 8 fuel buffer = none := fun fuel buffer =>
    recvAll_of_closed (by decide) permitted ends ⟨by decide, rfl⟩ fuel
  refine ⟨permitted, stuck, ?_⟩
  rintro ⟨_, _, fuel, final, returned, _⟩
  rw [stuck] at returned
  cases returned

end DiStore.Misc
