import TokenTape.Proofs.Tape.Replay
/-!
A cursor that goes through its bytes by index, with every access checked. A byte that is taken must
exist, a slice must lie within the bytes, and a payload must be there in full; where a check fails there
is no result. Only a tag is looked up where the bytes may have ended. The widths that are read stand
apart from the table of widths that decides whether enough bytes are left. No check ever fails, and the
outcomes are those of the cursor that holds what is left of its bytes (`ByteCursor.callAll_checked`).
-/
namespace TokenTape

/-- All bytes, and an index into them. -/
structure ByteCursor where
  bytes : List UInt8
  /-- The index and the line that the cursor started with. -/
  origin : Nat × Nat
  position : Nat
  line : Nat
  finished : Bool

namespace ByteCursor

/-! ## Checked access -/

def start (bytes : List UInt8) (offset line : Nat) : ByteCursor :=
  ⟨bytes, (offset, line), offset, line, false⟩

/-- The bytes from an index on, which must not lie beyond the end. -/
def bytesFrom (cursor : ByteCursor) (index : Nat) : Option (List UInt8) :=
  if index ≤ cursor.bytes.length then some (cursor.bytes.drop index) else none

/-- Takes the first byte of a slice, which must exist. -/
def takeByte : List UInt8 → Option (UInt8 × List UInt8)
  | [] => none
  | byte :: slice => some (byte, slice)

/-- Takes the first bytes of a slice, all of which must exist. -/
def takeBytes (count : Nat) (slice : List UInt8) : Option (List UInt8 × List UInt8) :=
  if count ≤ slice.length then some (slice.take count, slice.drop count) else none

/-- Reads a record from the front of a slice. -/
def readValue (slice : List UInt8) : Option (Except Damage Value × List UInt8) :=
  if slice.isEmpty then return (.error .missingValue, slice)
  else do
    let (opening, slice) ← takeByte slice
    match Value.payloadSize? opening with
    | none => return (.error (.unknownValue opening), slice)
    | some size =>
      if slice.length < size then return (.error (.shortValue size slice.length), slice)
      else if opening = 1 then do
        let (payload, slice) ← takeBytes 8 slice
        return (.ok (.integer (LittleEndian.decode payload).toUInt64.toInt64), slice)
      else if opening = 2 then do
        let (payload, slice) ← takeBytes 8 slice
        return (.ok (.float ⟨(LittleEndian.decode payload).toUInt64⟩), slice)
      else if opening = 3 then do
        let (payload, slice) ← takeBytes 4 slice
        return (.ok (.word ⟨(LittleEndian.decode payload).toUInt32⟩), slice)
      else return (.ok .void, slice)

/-- Reads what stands behind the tag of a kind: a record, if the kind asks for one. -/
def readRecord (kind : Kind) (slice : List UInt8) :
    Option (Except Damage (Option Value) × List UInt8) :=
  if kind.hasValue then do
    let (value, slice) ← readValue slice
    return (value.map some, slice)
  else return (.ok none, slice)

def skipMarks (cursor : ByteCursor) : ByteCursor :=
  if _mark : cursor.bytes[cursor.position]? = some Kind.endOfLine.tag then
    skipMarks { cursor with position := cursor.position + 1, line := cursor.line + 1 }
  else cursor
termination_by cursor.bytes.length - cursor.position
decreasing_by
  have := (List.getElem?_eq_some_iff.mp _mark).1
  omega

/-- Reads the token whose tag stands at the index, and goes behind it if asked to. -/
def readHere (cursor : ByteCursor) (advance : Bool) : Option (Outcome × ByteCursor) :=
  match cursor.bytes[cursor.position]? with
  | none => return (.error (.corrupt cursor.position .ended), cursor)
  | some tag =>
    match Kind.ofTag? tag with
    | none => return (.error (.corrupt cursor.position (.unknownTag tag)), cursor)
    | some kind => do
      let rest ← cursor.bytesFrom (cursor.position + 1)
      let (value, rest) ← readRecord kind rest
      match value with
      | .error damage => return (.error (.corrupt (cursor.position + 1) damage), cursor)
      | .ok value =>
        let behind := if advance then cursor.bytes.length - rest.length else cursor.position
        return (.ok ⟨kind, value⟩, { cursor with position := behind })

/-- Reads the next token behind its line marks. -/
def read (cursor : ByteCursor) (advance : Bool) : Option (Outcome × ByteCursor) :=
  cursor.skipMarks.readHere advance

end ByteCursor

/-! ## Calls -/

/-- The ways of calling a cursor. -/
inductive Cursor.Call where
  | next
  | peek
  | step
  | reset
  deriving DecidableEq, Repr

/-- Calls a cursor once. A step of a finished replay has no outcome, and neither has a reset. -/
def Cursor.call (cursor : Cursor) : Call → Option Outcome × Cursor
  | .next => (some cursor.next.1, cursor.next.2)
  | .peek => (some cursor.peek.1, cursor.peek.2)
  | .step => cursor.step
  | .reset => (none, cursor.reset)

/-- Calls a cursor again and again. -/
def Cursor.callAll (cursor : Cursor) : List Call → List (Option Outcome) × Cursor
  | [] => ([], cursor)
  | call :: calls =>
    let later := (cursor.call call).2.callAll calls
    ((cursor.call call).1 :: later.1, later.2)

namespace ByteCursor

/-- Calls a cursor once, if all checks pass. -/
def call (cursor : ByteCursor) : Cursor.Call → Option (Option Outcome × ByteCursor)
  | .next => do
    let (outcome, cursor) ← cursor.read true
    return (some outcome, cursor)
  | .peek => do
    let (outcome, cursor) ← cursor.read false
    return (some outcome, cursor)
  | .step =>
    if cursor.finished then return (none, cursor)
    else do
      let (outcome, cursor) ← cursor.read true
      return (some outcome, { cursor with finished := Outcome.isLast outcome })
  | .reset =>
    return (none,
      { cursor with position := cursor.origin.1, line := cursor.origin.2, finished := false })

/-- Calls a cursor again and again, if all checks pass. -/
def callAll (cursor : ByteCursor) : List Cursor.Call → Option (List (Option Outcome) × ByteCursor)
  | [] => return ([], cursor)
  | call :: calls => do
    let (outcome, cursor) ← cursor.call call
    let (outcomes, cursor) ← cursor.callAll calls
    return (outcome :: outcomes, cursor)

/-! ## No check fails -/

theorem takeBytes_of_le {count : Nat} {slice : List UInt8} (enough : count ≤ slice.length) :
    takeBytes count slice = some (slice.take count, slice.drop count) :=
  if_pos enough

/-- The table of widths and the widths that are read agree, so a payload is there when it is read. -/
theorem readValue_eq (slice : List UInt8) : readValue slice = some (Value.decode slice) := by
  match slice with
  | [] => rfl
  | opening :: rest =>
    simp only [readValue, List.isEmpty_cons, Bool.false_eq_true, if_false, takeByte, Option.bind_eq_bind,
      Option.bind_some, Value.decode, List.length_take]
    match known : Value.payloadSize? opening with
    | none => rfl
    | some size =>
      by_cases short : rest.length < size
      · have less : min size rest.length = rest.length := Nat.min_eq_right (Nat.le_of_lt short)
        simp only [less, if_pos short]
        rfl
      · have enough : size ≤ rest.length := Nat.le_of_not_lt short
        simp only [Nat.min_eq_left enough, if_neg short, Nat.lt_irrefl, if_false, Value.ofPayload]
        unfold Value.payloadSize? at known
        split at known
        · next void =>
          cases known
          subst void
          rfl
        split at known
        · next wide =>
          cases known
          rcases wide with rfl | rfl <;> simp [takeBytes_of_le enough]
        split at known
        · next word =>
          cases known
          subst word
          simp [takeBytes_of_le enough]
        · cases known

theorem skipMarks_kept (cursor : ByteCursor) :
    cursor.skipMarks.bytes = cursor.bytes ∧ cursor.skipMarks.origin = cursor.origin ∧
      cursor.skipMarks.finished = cursor.finished := by
  fun_induction skipMarks cursor with
  | case1 cursor mark ih => exact ih
  | case2 => exact ⟨rfl, rfl, rfl⟩

/-- The place at which the cursor stands. -/
def place (cursor : ByteCursor) : Place := .ofOffset cursor.bytes cursor.position cursor.line

theorem place_skipMarks (cursor : ByteCursor) : cursor.skipMarks.place = cursor.place.passMarks := by
  fun_induction skipMarks cursor with
  | case1 cursor mark ih =>
    obtain ⟨inside, same⟩ := List.getElem?_eq_some_iff.mp mark
    rw [ih, place, place, Place.ofOffset, Place.ofOffset, List.drop_eq_getElem_cons inside, same,
      Place.passMarks]
    simp
  | case2 cursor other =>
    cases left : cursor.bytes.drop cursor.position with
    | nil =>
      rw [place, Place.ofOffset, left, Place.passMarks]
    | cons byte rest =>
      have first : cursor.bytes[cursor.position]? = some byte := by
        rw [← List.head?_drop, left, List.head?_cons]
      have noMark : byte ≠ Kind.endOfLine.tag := by
        rintro rfl
        exact other first
      rw [place, Place.ofOffset, left, Place.passMarks]
      exact (if_neg noMark).symm

theorem readRecord_eq (kind : Kind) (slice : List UInt8) :
    readRecord kind slice = some (if kind.hasValue then
      ((Value.decode slice).1.map some, (Value.decode slice).2) else (.ok none, slice)) := by
  unfold readRecord
  split
  · rw [readValue_eq]
    rfl
  · rfl

/-- What stands at the index is read as from the place there. The index behind a token is counted
back from the end of the bytes. -/
theorem readHere_eq (cursor : ByteCursor) (advance : Bool) :
    cursor.readHere advance = some (match cursor.place.readToken with
      | .ok (token, behind) =>
        (.ok token, { cursor with position := if advance then behind.position else cursor.position })
      | .error diagnosis => (.error diagnosis, cursor)) := by
  cases left : cursor.bytes.drop cursor.position with
  | nil =>
    have ended : cursor.bytes[cursor.position]? = none := by
      rw [← List.head?_drop, left, List.head?_nil]
    simp only [readHere, ended, place, Place.ofOffset, left, Place.readToken]
    rfl
  | cons tag rest =>
    have first : cursor.bytes[cursor.position]? = some tag := by
      rw [← List.head?_drop, left, List.head?_cons]
    have inside := (List.getElem?_eq_some_iff.mp first).1
    have behind : cursor.bytes.drop (cursor.position + 1) = rest := by
      rw [← List.drop_drop, left, List.drop_one, List.tail_cons]
    have slice : cursor.bytesFrom (cursor.position + 1) = some rest := by
      rw [bytesFrom, if_pos (Nat.succ_le_of_lt inside), behind]
    have ending : cursor.bytes.length = cursor.position + 1 + rest.length := by
      rw [← behind, List.length_drop]
      omega
    simp only [readHere, first, place, Place.ofOffset, left, Place.readToken]
    cases known : Kind.ofTag? tag with
    | none => rfl
    | some kind =>
      simp only [slice, readRecord_eq, Option.bind_eq_bind, Option.bind_some]
      cases valued : kind.hasValue with
      | false =>
        have count : cursor.bytes.length - rest.length = cursor.position + 1 := by omega
        simp only [Bool.false_eq_true, if_false, count]
        rfl
      | true =>
        rcases read : Value.decode rest with ⟨damage | value, more⟩
        · rfl
        · have record := congrArg List.length (Value.encode_of_decode read)
          rw [List.length_append, Value.length_encode] at record
          have count : cursor.bytes.length - more.length = cursor.position + 1 + value.encodedSize := by
            omega
          simp only [if_true, Except.map, count]
          rfl

/-- A cursor by index in step with one that holds what is left. -/
structure Mirrors (indexed : ByteCursor) (cursor : Cursor) : Prop where
  origin : cursor.origin = .ofOffset indexed.bytes indexed.origin.1 indexed.origin.2
  place : cursor.place = indexed.place
  finished : cursor.finished = indexed.finished

namespace Mirrors

variable {indexed : ByteCursor} {cursor : Cursor}

theorem skipMarks (mirrors : indexed.Mirrors cursor) :
    indexed.skipMarks.Mirrors { cursor with place := cursor.place.passMarks } := by
  obtain ⟨bytes, origin, finished⟩ := indexed.skipMarks_kept
  refine ⟨?_, ?_, ?_⟩
  · rw [bytes, origin]
    exact mirrors.origin
  · rw [place_skipMarks, mirrors.place]
  · rw [finished]
    exact mirrors.finished

theorem next (mirrors : indexed.Mirrors cursor) :
    ∃ after, indexed.read true = some (cursor.next.1, after) ∧ after.Mirrors cursor.next.2 := by
  have there := mirrors.skipMarks
  have stands : cursor.place.passMarks = indexed.skipMarks.place := there.place
  rw [read, readHere_eq, Cursor.next, ← stands]
  cases found : cursor.place.passMarks.readToken with
  | error diagnosis => exact ⟨_, rfl, there⟩
  | ok taken =>
    refine ⟨_, rfl, there.origin, ?_, there.finished⟩
    rw [stands] at found
    exact (Place.readToken_passes found).ofOffset

theorem peek (mirrors : indexed.Mirrors cursor) :
    ∃ after, indexed.read false = some (cursor.peek.1, after) ∧ after.Mirrors cursor.peek.2 := by
  have there := mirrors.skipMarks
  have stands : cursor.place.passMarks = indexed.skipMarks.place := there.place
  rw [read, readHere_eq, Cursor.peek, ← stands]
  cases cursor.place.passMarks.readToken with
  | error diagnosis => exact ⟨_, rfl, there⟩
  | ok taken => exact ⟨_, rfl, there⟩

theorem call (mirrors : indexed.Mirrors cursor) (call : Cursor.Call) :
    ∃ after, indexed.call call = some ((cursor.call call).1, after) ∧
      after.Mirrors (cursor.call call).2 := by
  cases call with
  | next =>
    obtain ⟨after, given, further⟩ := mirrors.next
    exact ⟨after, by simp [ByteCursor.call, given, Cursor.call], further⟩
  | peek =>
    obtain ⟨after, given, further⟩ := mirrors.peek
    exact ⟨after, by simp [ByteCursor.call, given, Cursor.call], further⟩
  | step =>
    obtain ⟨after, given, further⟩ := mirrors.next
    simp only [ByteCursor.call, Cursor.call, Cursor.step, mirrors.finished]
    split
    · exact ⟨indexed, rfl, mirrors⟩
    · rw [given]
      exact ⟨_, rfl, further.origin, further.place, rfl⟩
  | reset => exact ⟨_, rfl, mirrors.origin, mirrors.origin, rfl⟩

theorem callAll (mirrors : indexed.Mirrors cursor) (calls : List Cursor.Call) :
    ∃ after, indexed.callAll calls = some ((cursor.callAll calls).1, after) ∧
      after.Mirrors (cursor.callAll calls).2 := by
  induction calls generalizing indexed cursor with
  | nil => exact ⟨indexed, rfl, mirrors⟩
  | cons call calls ih =>
    obtain ⟨middle, first, further⟩ := mirrors.call call
    obtain ⟨after, later, mirrors⟩ := ih further
    exact ⟨after, by simp [ByteCursor.callAll, first, later, Cursor.callAll], mirrors⟩

end Mirrors

end ByteCursor
end TokenTape
