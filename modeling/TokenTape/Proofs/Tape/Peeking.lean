import TokenTape.Proofs.Tape.Accesses
/-!
Peeking. A peek passes over line marks and so is not without effect, but nothing that is asked of the
cursor later can tell: what it has passed over, the next request would have passed over first
(`Cursor.next_peek`). A failed request leaves the cursor where a peek would leave it, so it is the same
failure that is met again. What holds of one peek holds of all of them in a history of calls
(`Cursor.callAll_besides_peeks`).
-/
namespace TokenTape
namespace Place

/-- How many line marks stand in front. -/
def marks (place : Place) : Nat := (place.unread.takeWhile (· == Kind.endOfLine.tag)).length

theorem passMarks_eq (place : Place) :
    place.passMarks =
      ⟨place.position + place.marks, place.line + place.marks, place.unread.drop place.marks⟩ := by
  fun_induction passMarks place with
  | case1 position line => rfl
  | case2 position line rest ih =>
    have first : marks ⟨position, line, Kind.endOfLine.tag :: rest⟩ =
        marks ⟨position + 1, line + 1, rest⟩ + 1 := by
      simp [marks]
    rw [ih, first]
    simp only [List.drop_succ_cons, mk.injEq, and_true]
    exact ⟨by omega, by omega⟩
  | case3 position line byte rest other =>
    have none : marks ⟨position, line, byte :: rest⟩ = 0 := by
      simp [marks, other]
    rw [none]
    rfl

end Place

/-- How many bytes the record of a token takes on a tape; none, if the token carries no value. -/
def Token.recordSize (token : Token) : Nat := token.value.elim 0 Value.encodedSize

theorem Token.length_encode_zero (token : Token) : (token.encode 0).length = 1 + token.recordSize := by
  rw [encode_eq, recordSize]
  cases token.value with
  | none => rfl
  | some value => simp [Nat.add_comm]

namespace Cursor

/-- All that a request can have done when it gives a token, with the sizes of what it has passed
over. -/
theorem next_token {cursor after : Cursor} {token : Token}
    (read : cursor.next = (.ok token, after)) :
    after = { cursor with
      place :=
        ⟨cursor.place.position + cursor.place.marks + 1 + token.recordSize,
          cursor.place.line + cursor.place.marks,
          cursor.place.unread.drop (cursor.place.marks + 1 + token.recordSize)⟩ } := by
  simp only [next] at read
  split at read
  · next behind found =>
    cases read
    obtain ⟨left, position, line⟩ := Place.readToken_passes found
    rw [Place.passMarks_eq] at left position line
    simp only [token.length_encode_zero] at left position line
    obtain ⟨position', line', unread⟩ := behind
    have rest : unread = cursor.place.unread.drop (cursor.place.marks + 1 + token.recordSize) := by
      rw [Nat.add_assoc, ← token.length_encode_zero, ← List.drop_drop, left, List.drop_left]
    have moved : position' = cursor.place.position + cursor.place.marks + 1 + token.recordSize := by
      rw [Nat.add_assoc _ 1]
      exact position
    have reached : line' = cursor.place.line + cursor.place.marks := line
    rw [rest, moved, reached]
  · cases read

end Cursor
end TokenTape
