import TokenTape.Lexer
import TokenTape.Proofs.Reading.Joined
import TokenTape.Proofs.Tape.Outcome
/-!
Packing a text whose rest is read line by line, compared with packing all of it at once. What
is packed line by line is packed at once as well, and into the same bytes. The other way round
this holds unless a newline literal stands with its closing quote on a line that is still to be
asked for: the quote is not looked for there, and the literal is refused.
-/
namespace TokenTape

/-- A lexeme that is taken before all input ends or an obstacle is met, and the reader right
behind it. -/
inductive Reader.Passes (lexeme : Lexeme) : Reader → Reader → Prop
  | here {reader after : Reader} (taken : reader.next = (.ok lexeme, after)) :
      Passes lexeme reader after
  | later {reader middle after : Reader} {other : Lexeme}
      (taken : reader.next = (.ok other, middle)) (going : other ≠ .endOfInput)
      (passes : Passes lexeme middle after) : Passes lexeme reader after

namespace Reader

/-- The first lexeme is the one that is looked for, or it is passed over. -/
theorem Passes.first {lexeme first : Lexeme} {reader middle after : Reader}
    (passes : Passes lexeme reader after) (taken : reader.next = (.ok first, middle)) :
    lexeme = first ∧ after = middle ∨ first ≠ .endOfInput ∧ Passes lexeme middle after := by
  cases passes with
  | here found =>
    rw [taken] at found
    cases found
    exact Or.inl ⟨rfl, rfl⟩
  | later found going passes =>
    rw [taken] at found
    cases found
    exact Or.inr ⟨going, passes⟩

/-- A lexeme that is taken from lines is taken from the whole. -/
theorem next_joined_of_ok {reader after : Reader} {lexeme : Lexeme}
    (lines : InLines reader.text reader.source) (taken : reader.next = (.ok lexeme, after)) :
    reader.joined.next = (.ok lexeme, after.joined) := by
  have apart : ¬ reader.settle.2.Straddles := by
    intro straddles
    have refused := (next_of_straddles lines straddles).1
    rw [taken] at refused
    cases refused
  rw [next_joined lines apart, taken]

/-- A newline literal is told from one span of text, and only the first span can go on behind a
newline: nothing has been asked for yet. -/
theorem source_eq_of_newline_literal {reader after : Reader} {start : List Char}
    {source : LineSource} (lines : InLines start source)
    (advanced : Advances start source reader.text reader.source)
    (taken : reader.next = (.ok (.character '\n'), after)) : after.source = source := by
  rw [next_of_lines (advanced.inLines lines)] at taken
  obtain ⟨text, same⟩ := take_character taken
  rcases (advanced.trans (settle_advances reader)).within_or_line lines with ⟨-, unasked⟩ | line
  · exact same.trans unasked
  · rw [text] at line
    exact absurd (by simp) line

end Reader

namespace Scanner
variable {scanner after : Scanner}

/-- The same scanner, with all that is left of its input in one text. -/
def joined (scanner : Scanner) : Scanner := { scanner with reader := scanner.reader.joined }

/-- A token that is given from lines is given from the whole. -/
theorem next_joined {token : Token} (lines : InLines scanner.reader.text scanner.reader.source)
    (taken : scanner.next = (.ok token, after)) :
    scanner.joined.next = (.ok token, after.joined) := by
  obtain ⟨lexeme, reader, read, rfl, rfl⟩ := next_ok taken
  exact next_of_lexeme (Reader.next_joined_of_ok lines read)

theorem next_inLines {token : Token} (lines : InLines scanner.reader.text scanner.reader.source)
    (taken : scanner.next = (.ok token, after)) :
    InLines after.reader.text after.reader.source := by
  obtain ⟨lexeme, reader, read, -, rfl⟩ := next_ok taken
  have advances := Reader.next_advances scanner.reader
  rw [read] at advances
  exact advances.inLines lines

/-- A scan of lines that reaches the end of input is the scan of the whole. -/
theorem scan_joined (lines : InLines scanner.reader.text scanner.reader.source)
    (complete : scanner.scan.failure = none) :
    scanner.joined.scan = ⟨scanner.scan.tokens, none, scanner.scan.final.joined⟩ := by
  induction scanner using scan_induction with
  | failed scanner diagnosis after taken =>
    rw [scan_of_failed taken] at complete
    cases complete
  | ended scanner token after taken ended =>
    rw [scan_of_ended taken ended, scan_of_ended (next_joined lines taken) ended]
    rfl
  | going scanner token after taken going ih =>
    rw [scan_of_going taken going] at complete ⊢
    rw [scan_of_going (next_joined lines taken) going, ih (next_inLines lines taken) complete]
    rfl

/-- No newline literal that a complete scan of lines has passed, taken in the whole, has its
closing quote in what was still to be asked for at the start. -/
theorem newline_literal_of_complete {start : List Char} {source : LineSource}
    (lines : InLines start source)
    (advanced : Advances start source scanner.reader.text scanner.reader.source)
    (complete : scanner.scan.failure = none) {after : Reader}
    (passes : scanner.joined.reader.Passes (.character '\n') after) :
    source.text.length ≤ after.text.length := by
  induction scanner using scan_induction with
  | failed scanner diagnosis stopped taken =>
    rw [scan_of_failed taken] at complete
    cases complete
  | ended scanner token stopped taken ended =>
    obtain ⟨lexeme, reader, read, rfl, rfl⟩ := next_ok taken
    obtain rfl := Lexeme.isEnd_token.mp ended
    have whole := Reader.next_joined_of_ok (advanced.inLines lines) read
    rcases passes.first whole with ⟨same, -⟩ | ⟨going, -⟩
    · cases same
    · contradiction
  | going scanner token stopped taken going ih =>
    rw [scan_of_going taken going] at complete
    obtain ⟨lexeme, reader, read, rfl, rfl⟩ := next_ok taken
    have whole := Reader.next_joined_of_ok (advanced.inLines lines) read
    rcases passes.first whole with ⟨rfl, rfl⟩ | ⟨-, later⟩
    · -- Nothing has been asked for yet, so all of it is left behind the literal.
      have unasked := Reader.source_eq_of_newline_literal lines advanced read
      rw [Reader.joined, unasked, List.length_append]
      exact Nat.le_add_left _ _
    · have further := Reader.next_advances scanner.reader
      rw [read] at further
      exact ih (advanced.trans further) complete later

/-- A complete scan of the whole is one of the lines as well, if no newline literal has its
closing quote in what is still to be asked for. -/
theorem complete_of_joined (lines : InLines scanner.reader.text scanner.reader.source)
    (whole : scanner.joined.scan.failure = none)
    (kept : ∀ after, scanner.joined.reader.Passes (.character '\n') after →
      scanner.reader.source.text.length ≤ after.text.length) :
    scanner.scan.failure = none := by
  induction scanner using scan_induction with
  | failed scanner diagnosis stopped taken =>
    -- The whole fails at the same place, or it takes the literal that straddles.
    match read : scanner.joined.reader.next with
    | (.error obstacle, reader) =>
      rw [scan_of_failed (next_of_obstacle read)] at whole
      cases whole
    | (.ok lexeme, reader) =>
      by_cases straddles : scanner.reader.settle.2.Straddles
      · obtain ⟨rfl, shorter⟩ := (Reader.next_of_straddles lines straddles).2 lexeme reader read
        exact absurd (kept reader (.here read)) (Nat.not_le.mpr shorter)
      · obtain ⟨obstacle, reader', failed, -, -⟩ := next_error taken
        have same := Reader.next_joined lines straddles
        rw [failed] at same
        cases read.symm.trans same
  | ended scanner token stopped taken ended =>
    rw [scan_of_ended taken ended]
  | going scanner token stopped taken going ih =>
    rw [scan_of_going (next_joined lines taken) going] at whole
    rw [scan_of_going taken going]
    refine ih (next_inLines lines taken) whole ?_
    intro after passes
    obtain ⟨lexeme, reader, read, rfl, rfl⟩ := next_ok taken
    have other := Lexeme.ne_endOfInput_of_going going
    have fewer := (Reader.next_advances scanner.reader).source_suffix
    rw [read] at fewer
    have before := kept after (.later (Reader.next_joined_of_ok lines read) other passes)
    exact Nat.le_trans (LineSource.text_suffix fewer).length_le before

/-- A tape packed from lines is packed from the whole, and the states left behind differ in
nothing but how the rest of the input is held. -/
theorem pack_joined (lines : InLines scanner.reader.text scanner.reader.source) {marks : Bool}
    {quota : Quota} {tape : Tape} (packed : (scanner.pack marks quota).result = .ok tape) :
    scanner.joined.pack marks quota =
      ⟨.ok tape, (scanner.pack marks quota).quota, (scanner.pack marks quota).scanner.joined⟩ := by
  obtain ⟨complete, rfl, fits⟩ := pack_eq_ok_iff.mp packed
  have whole := scan_joined lines complete
  have wholeComplete : scanner.joined.scan.failure = none := by rw [whole]
  have wholePacked := (pack_of_complete marks quota scanner.joined wholeComplete).1
  rw [whole] at wholePacked
  rw [(pack_of_complete marks quota scanner complete).1 fits]
  exact wholePacked fits

/-- When a tape packed from the whole is packed from lines. -/
theorem pack_iff_joined (lines : InLines scanner.reader.text scanner.reader.source) {marks : Bool}
    {quota : Quota} {tape : Tape} :
    (scanner.pack marks quota).result = .ok tape ↔
      (scanner.joined.pack marks quota).result = .ok tape ∧
        ∀ after, scanner.joined.reader.Passes (.character '\n') after →
          scanner.reader.source.text.length ≤ after.text.length := by
  constructor
  · intro packed
    have complete := (pack_eq_ok_iff.mp packed).1
    refine ⟨by rw [pack_joined lines packed], ?_⟩
    intro after passes
    exact newline_literal_of_complete lines (.refl _ _) complete passes
  · rintro ⟨packed, kept⟩
    obtain ⟨wholeComplete, rfl, fits⟩ := pack_eq_ok_iff.mp packed
    have complete := complete_of_joined lines wholeComplete kept
    rw [scan_joined lines complete] at fits ⊢
    exact pack_eq_ok_iff.mpr ⟨complete, rfl, fits⟩

end Scanner

namespace Lexer

variable {lexer : Lexer} {vocabulary : Vocabulary} {file start text : String} {tape : Tape}

private theorem scanner_joined (lexer : Lexer) (vocabulary : Vocabulary)
    (file start text : String) :
    (lexer.scanner vocabulary file start (.ofText text)).joined =
      lexer.scanner vocabulary file (start ++ text) [] := by
  simp only [Scanner.joined, scanner, Scanner.start, Reader.joined, Reader.start,
    LineSource.text_ofText, String.toList_append]

/-- What is packed line by line behind a text is packed at once as well: the same tape from the
same tokens on the same lines, and the lexer and the vocabulary end up the same. -/
theorem analyse_whole_of_lines (boundary : start = "" ∨ ∃ before, start = before ++ "\n")
    (packed : (lexer.analyse vocabulary file start (.ofBytes (Utf8.encode text))).result =
      .ok tape) :
    let lines := LineSource.ofBytes (Utf8.encode text)
    let fed := lexer.analyse vocabulary file start lines
    let whole := lexer.analyse vocabulary file (start ++ text) []
    whole.result = .ok tape ∧ whole.vocabulary = fed.vocabulary ∧ whole.lexer = fed.lexer ∧
      (lexer.scanner vocabulary file (start ++ text) []).scan.tokens =
        (lexer.scanner vocabulary file start lines).scan.tokens := by
  intro lines fed whole
  simp only [lines, fed, whole, LineSource.ofBytes_encode] at packed ⊢
  have broken : InLines start.toList (.ofText text) := inLines_ofText boundary text
  have complete := (Scanner.pack_eq_ok_iff.mp packed).1
  simp only [analyse, ← scanner_joined] at packed ⊢
  rw [Scanner.pack_joined broken packed, Scanner.scan_joined broken complete]
  exact ⟨rfl, rfl, rfl, rfl⟩

/-- A block comment that is still open when its line ends, and closed on a line that is asked for
then. -/
theorem analyse_whole_of_comment_over_lines :
    let setup := Lexer.ofVocabulary .empty ⟨64, true⟩
    let tape : Tape := ⟨[3, 65, 65, 39, 1, 120, 0, 0, 0, 0, 0, 0, 0, 65, 66]⟩
    (setup.1.analyse setup.2 "t.c" "+\n" (.ofBytes (Utf8.encode "/* a\n*/'x'\n"))).result =
        .ok tape ∧
      (setup.1.analyse setup.2 "t.c" ("+\n" ++ "/* a\n*/'x'\n") []).result = .ok tape := by
  intro setup tape
  let scanner := setup.1.scanner setup.2 "t.c" "+\n" (.ofText "/* a\n*/'x'\n")
  have stands : scanner.reader.settle = (none, scanner.reader) := by
    simp [scanner, setup, Lexer.scanner, Scanner.start, Reader.start, Reader.settle, isBlank]
  have plus : scanner.reader.next = (.ok (.symbol .plus),
      ⟨[], ['\n'], [.line "/* a\n", .line "*/'x'\n"], 1, 1⟩) := by
    rw [Reader.next, stands]
    rfl
  have comment : Reader.settle ⟨[], ['\n'], [.line "/* a\n", .line "*/'x'\n"], 1, 1⟩ =
      (none, ⟨[], ['\'', 'x', '\'', '\n'], [], 3, 2⟩) := by
    simp [Reader.settle, Body.read, Closer.comment, Body.newlines, isBlank, lineAfter]
  have letter : Reader.next ⟨[], ['\n'], [.line "/* a\n", .line "*/'x'\n"], 1, 1⟩ =
      (.ok (.character 'x'), ⟨[], ['\n'], [], 3, 3⟩) := by
    rw [Reader.next, comment]
    rfl
  have atEnd : Reader.next ⟨[], ['\n'], [], 3, 3⟩ = (.ok .endOfInput, ⟨[], [], [], 4, 4⟩) := by
    simp [Reader.next, Reader.settle, Reader.take, isBlank, lineAfter]
  have scan : scanner.scan.failure = none ∧
      scanner.scan.tokens = [⟨.bare (.symbol .plus), 1, 1⟩,
        ⟨.valued .character (.integer 120), 3, 3⟩, ⟨.endOfInput, 4, 4⟩] := by
    rw [Scanner.scan_of_going (Scanner.next_of_lexeme plus) rfl,
      Scanner.scan_of_going (Scanner.next_of_lexeme letter) rfl,
      Scanner.scan_of_ended (Scanner.next_of_lexeme atEnd) rfl]
    exact ⟨rfl, rfl⟩
  have packed : (setup.1.analyse setup.2 "t.c" "+\n"
      (.ofBytes (Utf8.encode "/* a\n*/'x'\n"))).result = .ok tape := by
    rw [LineSource.ofBytes_encode]
    refine Scanner.pack_eq_ok_iff.mpr ⟨scan.1, ?_, by decide +kernel⟩
    rw [scan.2]
    decide +kernel
  exact ⟨packed, (analyse_whole_of_lines (Or.inr ⟨"+", rfl⟩) packed).1⟩

/-- What is packed at once is packed line by line behind a text just when every newline literal
in it ends within that text. Behind it, the closing quote would stand on a line that is not
asked for. -/
theorem analyse_lines_iff_whole (boundary : start = "" ∨ ∃ before, start = before ++ "\n") :
    (lexer.analyse vocabulary file start (.ofBytes (Utf8.encode text))).result = .ok tape ↔
      (lexer.analyse vocabulary file (start ++ text) []).result = .ok tape ∧
        ∀ after, (Reader.start (start ++ text) []).Passes (.character '\n') after →
          text.length ≤ after.text.length := by
  have broken : InLines start.toList (.ofText text) := inLines_ofText boundary text
  have reader : Reader.start (start ++ text) [] =
      (lexer.scanner vocabulary file start (.ofText text)).joined.reader := by
    rw [scanner_joined]
    rfl
  have ahead : text.length = (LineSource.ofText text).text.length := by
    rw [LineSource.text_ofText, String.length_toList]
  simp only [LineSource.ofBytes_encode, analyse, ← scanner_joined]
  rw [reader, ahead]
  exact Scanner.pack_iff_joined broken

/-- A newline literal in the text at hand is packed, whatever is asked for behind it. -/
theorem analyse_newline_literal_at_hand :
    let setup := Lexer.ofVocabulary .empty ⟨64, false⟩
    let tape : Tape := ⟨[39, 1, 10, 0, 0, 0, 0, 0, 0, 0, 36, 1, 7, 0, 0, 0, 0, 0, 0, 0, 66]⟩
    (setup.1.analyse setup.2 "t.c" "'\n'\n" (.ofBytes (Utf8.encode "7"))).result = .ok tape ∧
      (setup.1.analyse setup.2 "t.c" ("'\n'\n" ++ "7") []).result = .ok tape ∧
      ∀ after, (Reader.start ("'\n'\n" ++ "7") []).Passes (.character '\n') after →
        "7".length ≤ after.text.length := by
  intro setup tape
  have packed : (setup.1.analyse setup.2 "t.c" "'\n'\n" (.ofBytes (Utf8.encode "7"))).result =
      .ok tape := by
    rw [LineSource.ofBytes_encode]
    exact Scanner.pack_eq_ok_iff.mpr (by decide +kernel)
  exact ⟨packed, (analyse_lines_iff_whole (Or.inr ⟨"'\n'", rfl⟩)).mp packed⟩

/-- A newline literal that is packed at once is refused when it is asked for line by line: where
its closing quote should be, the line has ended. -/
theorem analyse_newline_literal_asked_for :
    let setup := Lexer.ofVocabulary .empty ⟨64, false⟩
    (setup.1.analyse setup.2 "t.c" ("" ++ "'\n'\n") []).result =
        .ok ⟨[39, 1, 10, 0, 0, 0, 0, 0, 0, 0, 66]⟩ ∧
      (setup.1.analyse setup.2 "t.c" "" (.ofBytes (Utf8.encode "'\n'\n"))).result =
        .error (.fault "t.c" 1 (.unclosed 0)) := by
  intro setup
  constructor
  · exact Scanner.pack_eq_ok_iff.mpr (by decide +kernel)
  · rw [LineSource.ofBytes_encode]
    let scanner := setup.1.scanner setup.2 "t.c" "" (.ofText "'\n'\n")
    have refused : scanner.scan.failure = some (.fault "t.c" 1 (.unclosed 0)) := by decide +kernel
    have first : scanner.scan.tokens = [] := by decide +kernel
    exact ((Scanner.pack_of_failure false setup.1.quota scanner refused).1 (Or.inl first)).1

end Lexer
end TokenTape
