import TokenTape.Proofs.Reading.Pieces
import TokenTape.Proofs.Reading.SpanTokens
/-!
Block comments over any number of pieces. The asterisk that ends a comment may be the last character
of one piece and the slash the first one of a later piece, with empty pieces between them; what is
remembered from piece to piece makes the search for the two the same as one search in the joined text
(`Closer.comment_after_of_unmarked`). So a block comment goes through the first closing mark of the
joined text, wherever that text is cut (`Reader.settle_skips_block`).
-/
namespace TokenTape

namespace Reader

/-- Passes over a block comment whose opening mark is behind the reader: through its closing mark, or
on to the end of all input, or up to a reply that failed, whose reason is told. -/
def skipBlock (reader : Reader) : Option String × Reader :=
  let body := Body.read .comment false [] reader.text reader.source
  let behind : Reader := ⟨[], body.text, body.source, reader.line + body.newlines, reader.line⟩
  match body.ending with
  | .failed reason => (some reason, behind)
  | _ => (none, behind)

/-- At the opening mark of a block comment, the comment is passed over before anything else. -/
theorem settle_of_block (text : List Char) (source : LineSource) (line tokenLine : Nat) :
    settle ⟨[], '/' :: '*' :: text, source, line, tokenLine⟩ =
      match skipBlock ⟨[], text, source, line, tokenLine⟩ with
      | (some reason, behind) => (some reason, behind)
      | (none, behind) => behind.settle := by
  rw [settle, skipBlock]
  generalize Body.read .comment false [] text source = body
  obtain ⟨ending, reversed, text, source⟩ := body
  cases ending <;> rfl

variable {text : List Char} {lines : List String} (further : LineSource) (line tokenLine : Nat)

/-- Where the pieces have a closing mark, the comment ends behind the first one. -/
theorem skipBlock_closed {content behind : List Char}
    (whole : text ++ lines.flatMap String.toList = content ++ '*' :: '/' :: behind)
    (first : ¬ ['*', '/'] <:+: content ++ ['*']) :
    ∃ rest later, GoneThrough text lines (content ++ ['*']) ('/' :: rest) later ∧
      behind = rest ++ later.flatMap String.toList ∧
      skipBlock ⟨[], text, lines.map .line ++ further, line, tokenLine⟩ =
        (none, ⟨[], rest, later.map .line ++ further,
          line + (content ++ ['*', '/']).count '\n', line⟩) := by
  have marked : text ++ lines.flatMap String.toList = (content ++ ['*']) ++ '/' :: behind := by
    rw [whole, List.append_assoc]
    rfl
  obtain ⟨rest, later, through, left⟩ := GoneThrough.exists_of_whole marked
  have passes := Closer.comment_after_of_unmarked first
  rw [List.foldl_append] at passes
  have read := Body.read_closed through passes rfl further
  refine ⟨rest, later, through, left, ?_⟩
  rw [skipBlock, read]
  simp [Body.newlines]

/-- Where the pieces have none, the comment goes through all of them and on in what follows. -/
theorem read_open_block (unmarked : ¬ ['*', '/'] <:+: text ++ lines.flatMap String.toList) :
    Body.read .comment false [] text (lines.map .line ++ further) =
      Body.read .comment ((text ++ lines.flatMap String.toList).foldl (fun _ c => c == '*') false)
        (text ++ lines.flatMap String.toList).reverse [] further :=
  Body.read_open (Closer.comment_after_of_unmarked unmarked) further

theorem skipBlock_exhausted (unmarked : ¬ ['*', '/'] <:+: text ++ lines.flatMap String.toList) :
    skipBlock ⟨[], text, lines.map .line ++ [], line, tokenLine⟩ =
      (none, ⟨[], [], [], line + (text ++ lines.flatMap String.toList).count '\n', line⟩) := by
  have read := read_open_block [] unmarked
  rw [Body.read] at read
  simp only [skipBlock, read, Body.newlines, List.count_reverse]

theorem skipBlock_failed (unmarked : ¬ ['*', '/'] <:+: text ++ lines.flatMap String.toList)
    (reason : String) :
    skipBlock ⟨[], text, lines.map .line ++ .failure reason :: further, line, tokenLine⟩ =
      (some reason,
        ⟨[], [], further, line + (text ++ lines.flatMap String.toList).count '\n', line⟩) := by
  have read := read_open_block (.failure reason :: further) unmarked
  rw [Body.read] at read
  simp only [skipBlock, read, Body.newlines, List.count_reverse]

/-- The same text in other pieces is passed over alike, and the same input is left. -/
theorem skipBlock_of_same_text {text' : List Char} {lines' : List String}
    (same : text' ++ lines'.flatMap String.toList = text ++ lines.flatMap String.toList) :
    let skipped := skipBlock ⟨[], text, lines.map .line ++ further, line, tokenLine⟩
    let other := skipBlock ⟨[], text', lines'.map .line ++ further, line, tokenLine⟩
    other.1 = skipped.1 ∧ other.2.line = skipped.2.line ∧ other.2.unread = skipped.2.unread := by
  intro skipped other
  rcases Closer.unmarked_or_first (text ++ lines.flatMap String.toList) with
    unmarked | ⟨content, behind, whole, first⟩
  · have read := read_open_block further (same ▸ unmarked)
    rw [same, ← read_open_block further unmarked] at read
    have equal : other = skipped := by
      simp only [other, skipped, skipBlock, read]
    rw [equal]
    exact ⟨rfl, rfl, rfl⟩
  · obtain ⟨rest, later, -, left, closed⟩ := skipBlock_closed further line tokenLine whole first
    obtain ⟨rest', later', -, left', closed'⟩ :=
      skipBlock_closed further line tokenLine (same.trans whole) first
    have equal : rest' ++ later'.flatMap String.toList = rest ++ later.flatMap String.toList :=
      left'.symm.trans left
    simp only [other, skipped, closed, closed', true_and]
    simp only [unread, LineSource.text_map_line_append]
    rw [← List.append_assoc, equal, List.append_assoc]

/-- A span of bytes passes over the comment by looking for the two bytes of the mark, piece by piece,
and comes to the same place. -/
theorem skipBlock_bytewise {source : LineSource} {span : Span}
    (tracks : span.Tracks ⟨[], text, source, line, line⟩) :
    ∃ behind, span.skipBlock false =
        some ((skipBlock ⟨[], text, source, line, tokenLine⟩).1, behind) ∧
      behind.Tracks (skipBlock ⟨[], text, source, line, tokenLine⟩).2 := by
  obtain ⟨behind, skipped, reached⟩ := tracks.holds.skipBlock tracks.source
  have further := reached.tracks tracks.line tracks.tokenLine
  rw [skipped]
  simp only [skipBlock]
  generalize Body.read .comment false [] text source = body at further ⊢
  obtain ⟨ending, reversed, rest, later⟩ := body
  cases ending <;> exact ⟨behind, rfl, further⟩

/-- A block comment is what stands behind its opening mark up to the first closing mark in all pieces
joined, and the mark itself; the piece that the mark ends in is left behind it, and the later ones are
not touched. Where there is no such mark, the comment goes on to the end of all input, or up to a reply
that fails. The newlines that are passed over are counted, and nothing else is done before the reading
goes on. How the same text is cut into pieces makes no difference, and looking for the mark in each
piece's bytes, with one bit of memory from one piece to the next, finds it at the same place. -/
theorem settle_skips_block (text : List Char) (lines : List String) (further : LineSource)
    (line tokenLine : Nat) :
    let whole := text ++ lines.flatMap String.toList
    let source := lines.map Reply.line ++ further
    let skipped := skipBlock ⟨[], text, source, line, tokenLine⟩
    (settle ⟨[], '/' :: '*' :: text, source, line, tokenLine⟩ =
      match skipped with
      | (some reason, behind) => (some reason, behind)
      | (none, behind) => behind.settle) ∧
    (∀ content behind, whole = content ++ '*' :: '/' :: behind →
      ¬ ['*', '/'] <:+: content ++ ['*'] →
      ∃ rest later, GoneThrough text lines (content ++ ['*']) ('/' :: rest) later ∧
        behind = rest ++ later.flatMap String.toList ∧
        skipped = (none, ⟨[], rest, later.map .line ++ further,
          line + (content ++ ['*', '/']).count '\n', line⟩)) ∧
    (¬ ['*', '/'] <:+: whole →
      (further = [] → skipped = (none, ⟨[], [], [], line + whole.count '\n', line⟩)) ∧
      ∀ reason later, further = .failure reason :: later →
        skipped = (some reason, ⟨[], [], later, line + whole.count '\n', line⟩)) ∧
    (∀ (text' : List Char) (lines' : List String), text' ++ lines'.flatMap String.toList = whole →
      let other := skipBlock ⟨[], text', lines'.map .line ++ further, line, tokenLine⟩
      other.1 = skipped.1 ∧ other.2.line = skipped.2.line ∧
        other.2.unread = skipped.2.unread) ∧
    ∀ span : Span, span.Tracks ⟨[], text, source, line, line⟩ →
      ∃ behind, span.skipBlock false = some (skipped.1, behind) ∧ behind.Tracks skipped.2 := by
  intro whole source skipped
  refine ⟨settle_of_block text source line tokenLine, ?closed, ?neverClosed, ?pieces, ?bytes⟩
  case closed =>
    intro content behind split first
    exact skipBlock_closed further line tokenLine split first
  case neverClosed =>
    intro unmarked
    constructor
    · rintro rfl
      exact skipBlock_exhausted line tokenLine unmarked
    · rintro reason later rfl
      exact skipBlock_failed later line tokenLine unmarked reason
  case pieces =>
    intro text' lines' same
    exact skipBlock_of_same_text further line tokenLine same
  case bytes =>
    intro span tracks
    exact skipBlock_bytewise line tokenLine tracks

/-- An asterisk at the end of one piece closes the comment with the slash that opens a later one, over
an empty piece; the opening mark's own asterisk does not, and another character between the two stands
in the way. -/
theorem settle_skips_block_across_pieces :
    let lines := ["", "/ x\n", "y"]
    (∃ rest later, GoneThrough ['/', '\n', '*'] lines ['/', '\n', '*'] ('/' :: rest) later ∧
      " x\ny".toList = rest ++ later.flatMap String.toList ∧
      skipBlock ⟨[], ['/', '\n', '*'], lines.map .line ++ [.failure "gone"], 1, 1⟩ =
        (none, ⟨[], rest, later.map .line ++ [.failure "gone"], 2, 1⟩)) ∧
    skipBlock ⟨[], ['*'], ["\n", "/"].map .line ++ [], 1, 1⟩ = (none, ⟨[], [], [], 2, 1⟩) ∧
    skipBlock ⟨[], ['*'], ["\n", "/"].map .line ++ [.failure "gone", .line "*/"], 1, 1⟩ =
      (some "gone", ⟨[], [], [.line "*/"], 2, 1⟩) := by
  intro lines
  have closed := (settle_skips_block ['/', '\n', '*'] lines [.failure "gone"] 1 1).2.1
    ['/', '\n'] " x\ny".toList (by decide) (by decide)
  have ended := ((settle_skips_block ['*'] ["\n", "/"] [] 1 1).2.2.1 (by decide)).1 rfl
  have failed := ((settle_skips_block ['*'] ["\n", "/"] [.failure "gone", .line "*/"] 1 1).2.2.1
    (by decide)).2 "gone" [.line "*/"] rfl
  exact ⟨closed, ended, failed⟩

end Reader
end TokenTape
