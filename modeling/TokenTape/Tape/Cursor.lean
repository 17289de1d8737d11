import TokenTape.Tape
/-!
A cursor reads a tape back. It takes any bytes: what is not a tape is told as damage with
its offset. Line marks are passed over and counted, also when the token behind them cannot
be read, so a failed reading leaves the cursor where the damage is.
-/
namespace TokenTape

/-- A place on a tape and the line that has been counted up to it. -/
structure Place where
  position : Nat
  line : Nat
  /-- The bytes from the position on. -/
  unread : List UInt8
  deriving DecidableEq, Repr

namespace Place

/-- The place at an offset, which may lie past the end. -/
def ofOffset (bytes : List UInt8) (offset line : Nat) : Place := ⟨offset, line, bytes.drop offset⟩

/-- Passes over line marks. -/
def passMarks (place : Place) : Place :=
  let ⟨position, line, unread⟩ := place
  match unread with
  | [] => place
  | byte :: rest =>
    if byte = Kind.endOfLine.tag then passMarks ⟨position + 1, line + 1, rest⟩ else place
termination_by place.unread.length

/-- Reads the token whose tag stands at the place, and tells the place behind it. -/
def readToken (place : Place) : Except Diagnosis (Token × Place) :=
  let ⟨position, line, unread⟩ := place
  match unread with
  | [] => .error (.corrupt position .ended)
  | tag :: rest =>
    match Kind.ofTag? tag with
    | none => .error (.corrupt position (.unknownTag tag))
    | some kind =>
      if kind.hasValue then
        match Value.decode rest with
        | (.error damage, _) => .error (.corrupt (position + 1) damage)
        | (.ok value, rest) =>
          .ok (⟨kind, some value⟩, ⟨position + 1 + value.encodedSize, line, rest⟩)
      else .ok (.bare kind, ⟨position + 1, line, rest⟩)

end Place

/-- A place on a tape that remembers where it started. -/
structure Cursor where
  origin : Place
  place : Place
  /-- Whether `step` has given the end of input or a failure. -/
  finished : Bool

namespace Cursor

/-- A cursor at an offset, counting from a line. -/
def start (bytes : List UInt8) (offset line : Nat) : Cursor :=
  let place := Place.ofOffset bytes offset line
  ⟨place, place, false⟩

/-- How many bytes lie before the next tag. -/
def position (cursor : Cursor) : Nat := cursor.place.position

/-- The line of the next token, as far as line marks tell. -/
def line (cursor : Cursor) : Nat := cursor.place.line

/-- Goes back to where the cursor started. -/
def reset (cursor : Cursor) : Cursor := ⟨cursor.origin, cursor.origin, false⟩

/-- Reads the next token and goes behind it. -/
def next (cursor : Cursor) : Outcome × Cursor :=
  let place := cursor.place.passMarks
  match place.readToken with
  | .ok (token, behind) => (.ok token, { cursor with place := behind })
  | .error diagnosis => (.error diagnosis, { cursor with place })

/-- Reads the next token and stays before it, though behind its line marks. -/
def peek (cursor : Cursor) : Outcome × Cursor :=
  let place := cursor.place.passMarks
  (place.readToken.map Prod.fst, { cursor with place })

/-- Reads the next token unless the replay is over. -/
def step (cursor : Cursor) : Option (Outcome) × Cursor :=
  if cursor.finished then (none, cursor)
  else
    let (outcome, cursor) := cursor.next
    (some outcome, { cursor with finished := Outcome.isLast outcome })

end Cursor

theorem Place.passMarks_length_le (place : Place) :
    place.passMarks.unread.length ≤ place.unread.length := by
  fun_induction passMarks place with
  | case1 => exact Nat.le_refl _
  | case2 position line rest ih => exact Nat.le_trans ih (Nat.le_succ _)
  | case3 => exact Nat.le_refl _

private theorem decode_length_le (bytes : List UInt8) :
    (Value.decode bytes).2.length ≤ bytes.length := by
  unfold Value.decode
  split
  · exact Nat.le_refl _
  · split
    · exact Nat.le_succ _
    · dsimp only
      split
      · exact Nat.le_succ _
      · simp only [List.length_drop, List.length_cons]
        omega

theorem Place.readToken_length_lt {place behind : Place} {token : Token}
    (found : place.readToken = .ok (token, behind)) :
    behind.unread.length < place.unread.length := by
  obtain ⟨position, line, unread⟩ := place
  unfold readToken at found
  match unread with
  | [] => cases found
  | tag :: rest =>
    simp only at found
    split at found
    · cases found
    · split at found
      · split at found
        · cases found
        · next value rest' decoded =>
          have := decode_length_le rest
          rw [decoded] at this
          cases found
          exact Nat.lt_succ_of_le this
      · cases found
        exact Nat.lt_succ_self _

namespace Cursor

/-- One outcome of a replay and where the cursor stands after it. -/
structure Report where
  outcome : Outcome
  position : Nat
  line : Nat

/-- What is left of a replay that goes through a tape once. -/
def stepsLeft (cursor : Cursor) : Nat :=
  if cursor.finished then 0 else cursor.place.unread.length + 1

theorem step_stepsLeft_lt {cursor after : Cursor} {outcome : Outcome}
    (stepped : cursor.step = (some outcome, after)) : after.stepsLeft < cursor.stepsLeft := by
  unfold step at stepped
  split at stepped
  · simp at stepped
  · next running =>
    simp only [Prod.mk.injEq, Option.some.injEq] at stepped
    obtain ⟨rfl, rfl⟩ := stepped
    simp only [stepsLeft, running]
    split
    · simp
    · next going =>
      simp only [Bool.false_eq_true, if_false, Nat.add_lt_add_iff_right]
      unfold next at going ⊢
      dsimp only at going ⊢
      split
      · next token behind found =>
        exact Nat.lt_of_lt_of_le (Place.readToken_length_lt found) (Place.passMarks_length_le _)
      · next diagnosis found =>
        simp [found, Outcome.isLast] at going

/-- Goes on to the end of the replay, with the reports gathered before, the latest first. -/
def runOnto (reports : List Report) (cursor : Cursor) : List Report × Cursor :=
  match _stepped : cursor.step with
  | (none, cursor) => (reports.reverse, cursor)
  | (some outcome, after) =>
    runOnto (⟨outcome, after.position, after.line⟩ :: reports) after
termination_by cursor.stepsLeft
decreasing_by exact step_stepsLeft_lt _stepped

/-- Reads the tape to its end or to the first damage. -/
def run (cursor : Cursor) : List Report × Cursor := cursor.runOnto []

end Cursor

/-- A cursor at the start of a tape. -/
def Tape.cursor (tape : Tape) : Cursor := .start tape.bytes 0 1

end TokenTape
