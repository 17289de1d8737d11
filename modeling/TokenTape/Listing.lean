import TokenTape.Tape.Cursor
import TokenTape.Token.Caption
import TokenTape.Token.Json
/-!
Listings of a tape. A tape is listed as captions or as JSON, one line for each token, or as
its bytes in hexadecimal, sixteen to a row.
-/
namespace TokenTape.Listing

/-- The line of one token, without its newline. -/
def tokenLine (vocabulary : Vocabulary) (json : Bool) (line : Nat) (token : Token) : String :=
  if json then (tokenJson vocabulary line token).render else token.caption vocabulary

/-- Adds the lines of a replay up to the first failure to the lines before, the latest
first, and tells that failure if there is one. -/
def linesOnto (vocabulary : Vocabulary) (json : Bool) (lines : List String) :
    List Cursor.Report → List String × Option Diagnosis
  | [] => (lines.reverse, none)
  | report :: reports =>
    match report.outcome with
    | .error diagnosis => (lines.reverse, some diagnosis)
    | .ok token =>
      linesOnto vocabulary json (tokenLine vocabulary json report.line token :: lines) reports

/-- The lines of a replay up to the first failure, and that failure if there is one. -/
def linesOf (vocabulary : Vocabulary) (json : Bool) (reports : List Cursor.Report) :
    List String × Option Diagnosis :=
  linesOnto vocabulary json [] reports

/-- Joins lines, each with its newline. -/
def unlines (lines : List String) : String :=
  lines.foldl (fun text line => text ++ line ++ "\n") ""

/-- Cuts bytes into rows of sixteen, onto the rows cut so far, the latest first. -/
def rowsOnto (rows : List (List UInt8)) (bytes : List UInt8) : List (List UInt8) :=
  if bytes.isEmpty then rows.reverse
  else rowsOnto (bytes.take 16 :: rows) (bytes.drop 16)
termination_by bytes.length
decreasing_by
  have : bytes ≠ [] := by simpa using ‹¬bytes.isEmpty = true›
  have := List.length_pos_iff.mpr this
  simp only [List.length_drop]
  omega

/-- One row: the offset of its first byte, and each byte after a blank. -/
def row (bytes : List UInt8) (offset : Nat) : String :=
  bytes.foldl (fun text byte => text ++ " " ++ Hex.ofByte byte) (Hex.padded 8 offset ++ " ")

/-- The size of a tape and its bytes in hexadecimal. -/
def dump (tape : Tape) : String :=
  unlines (s!"{tape.size} bytes" ::
    (rowsOnto [] tape.bytes).mapIdx fun index bytes => row bytes (16 * index))

end TokenTape.Listing
