import TokenTape.Scanner
import TokenTape.Tape
import TokenTape.Tape.Quota
/-!
Packing writes all tokens of a scan to scratch memory and then commits an exact copy. The
scratch may use what was free in the quota when packing started. Each piece must leave at
least one byte of it unused, and in the end the written bytes must fit twice, because scratch
and copy exist together for a moment. A failure commits nothing.
-/
namespace TokenTape

/-- Bytes written so far, and how many may be. -/
structure Scratch where
  bytes : Array UInt8
  capacity : Nat

namespace Scratch

/-- Scratch memory without a byte in it. -/
def empty (capacity : Nat) : Scratch := ⟨#[], capacity⟩

/-- Writes one piece if more room is left than it takes. -/
def put? : Scratch → List UInt8 → Option Scratch
  | ⟨bytes, capacity⟩, piece =>
    if piece.length < capacity - bytes.size then some ⟨bytes ++ piece, capacity⟩ else none

/-- Writes pieces one after the other, as long as each of them fits. -/
def putAll? : Scratch → List (List UInt8) → Option Scratch
  | scratch, [] => some scratch
  | scratch, piece :: pieces =>
    match scratch.put? piece with
    | some scratch => scratch.putAll? pieces
    | none => none

/-- What fits is written behind what was there before. -/
theorem bytes_of_put? {scratch after : Scratch} {piece : List UInt8}
    (fits : scratch.put? piece = some after) :
    after.bytes.toList = scratch.bytes.toList ++ piece ∧ after.capacity = scratch.capacity := by
  obtain ⟨bytes, capacity⟩ := scratch
  simp only [put?, Option.ite_none_right_eq_some, Option.some.injEq] at fits
  obtain ⟨_, rfl⟩ := fits
  simp

end Scratch

/-- What packing has come to, and the state it leaves behind. -/
structure Packing where
  result : Except Diagnosis Tape
  quota : Quota
  scanner : Scanner

namespace Scanner

/-- Writes the remaining tokens to scratch memory, the end of input included. With line marks
on, each token is preceded by one mark for every line that it starts past the given line. -/
def writeFrom (marks : Bool) (line : Nat) (scratch : Scratch) (scanner : Scanner) :
    Except Diagnosis Scratch × Scanner :=
  match _taken : scanner.next with
  | (.error diagnosis, scanner) => (.error diagnosis, scanner)
  | (.ok token, after) =>
    let count := if marks then after.tokenLine - line else 0
    match scratch.putAll? (token.pieces count) with
    | none => (.error (.outOfMemory after.file after.line), after)
    | some scratch =>
      match _ended : token.isEnd with
      | true => (.ok scratch, after)
      | false => writeFrom marks (max line after.tokenLine) scratch after
termination_by scanner.reader.remaining
decreasing_by
  have used := scanner.next_remaining_lt
  rw [_taken] at used
  apply used
  intro token' same
  cases same
  exact _ended

/-- Packs the remaining tokens into a tape whose bytes count against the quota. -/
def pack (marks : Bool) (quota : Quota) (scanner : Scanner) : Packing :=
  match scanner.writeFrom marks scanner.line (.empty quota.free) with
  | (.error diagnosis, scanner) => ⟨.error diagnosis, quota, scanner⟩
  | (.ok scratch, scanner) =>
    let used := scratch.bytes.size
    let refused : Except Diagnosis Tape := .error (.outOfMemory scanner.file scanner.line)
    if quota.free < 2 * used then ⟨refused, quota, scanner⟩
    else
      match quota.commit? used with
      | none => ⟨refused, quota, scanner⟩
      | some quota => ⟨.ok ⟨scratch.bytes.toList⟩, quota, scanner⟩

end Scanner
end TokenTape
