import TokenTape.Lexer
import TokenTape.Proofs.Reading.Segments
import TokenTape.Proofs.Scanner.History
import TokenTape.Proofs.Vocabulary.Handles
/-!
A scanner over one span of text follows the lexical grammar. Each request takes the longest lexeme
at its place and gives a token of the kind that the grammar has for it; a scan to the end of input
cuts the text into blanks, comments and lexemes. That a keyword is told from an identifier by its
handle alone is right as long as every handle names one text.
-/
namespace TokenTape

/-- The kind that the grammar gives a lexeme. A word is a keyword when it is spelled like one. -/
def Lexeme.kind : Lexeme → Kind
  | .word spelling =>
    match Keyword.ofSpelling? spelling with
    | some keyword => .keyword keyword
    | none => .atom .identifier
  | .numeral parts => .atom (if parts.isFloat then .float else .integer)
  | .string _ => .atom .string
  | .character _ => .atom .character
  | .symbol mark => .symbol mark
  | .endOfInput => .endOfInput

namespace Lexeme

theorem kind_eq_keyword_iff {lexeme : Lexeme} {keyword : Keyword} :
    lexeme.kind = .keyword keyword ↔ lexeme = .word keyword.spelling := by
  cases lexeme with
  | word spelling =>
    rw [Lexeme.word.injEq, ← Keyword.ofSpelling?_eq_some_iff, kind]
    cases Keyword.ofSpelling? spelling <;> simp
  | _ => simp [kind]

theorem token_word_vocabulary (reserved : ReservedWords) (vocabulary : Vocabulary) (spelling : String) :
    ((word spelling).token reserved vocabulary).2 = (vocabulary.intern spelling).2 := by
  simp only [token]
  split <;> rfl

theorem token_grows (reserved : ReservedWords) (vocabulary : Vocabulary) (lexeme : Lexeme) :
    vocabulary.Grows (lexeme.token reserved vocabulary).2 := by
  cases lexeme with
  | word spelling =>
    rw [token_word_vocabulary]
    exact vocabulary.intern_grows spelling
  | string text => exact vocabulary.intern_grows text
  | _ => exact .refl vocabulary

/-- A lexeme brings at most one text with it, and the end of input none. -/
theorem size_token_le (reserved : ReservedWords) (vocabulary : Vocabulary) (lexeme : Lexeme) :
    (lexeme.token reserved vocabulary).2.size ≤
      vocabulary.size + if lexeme = .endOfInput then 0 else 1 := by
  cases lexeme with
  | word spelling =>
    rw [token_word_vocabulary]
    exact vocabulary.size_intern_le spelling
  | string text => exact vocabulary.size_intern_le text
  | endOfInput => exact Nat.le_refl _
  | _ => exact Nat.le_succ _

theorem token_consistent (reserved : ReservedWords) {vocabulary : Vocabulary}
    (consistent : vocabulary.Consistent) (lexeme : Lexeme) :
    (lexeme.token reserved vocabulary).2.Consistent := by
  cases lexeme with
  | word spelling =>
    rw [token_word_vocabulary]
    exact consistent.intern spelling
  | string text => exact consistent.intern text
  | _ => exact consistent

/-- The token of a lexeme has the kind that the grammar gives it. -/
theorem token_kind {reserved : ReservedWords} {vocabulary : Vocabulary}
    (consistent : vocabulary.Consistent) (describes : reserved.Describes vocabulary) {lexeme : Lexeme}
    (roomy : (lexeme.token reserved vocabulary).2.size ≤ 2 ^ 32) :
    (lexeme.token reserved vocabulary).1.kind = lexeme.kind := by
  cases lexeme with
  | word spelling =>
    rw [token_word_vocabulary] at roomy
    have known := ReservedWords.lookup?_intern consistent describes roomy
    simp only [token, kind, known]
    cases Keyword.ofSpelling? spelling <;> rfl
  | _ => rfl

end Lexeme

namespace Scanner

/-- A scanner over one span of text, with a table of reserved words that is right for its
vocabulary. -/
structure OneSpan (scanner : Scanner) : Prop where
  source : scanner.reader.source = []
  sound : scanner.reader.Sound
  consistent : scanner.vocabulary.Consistent
  describes : scanner.reserved.Describes scanner.vocabulary

theorem scan_grows (scanner : Scanner) : scanner.vocabulary.Grows scanner.scan.final.vocabulary := by
  induction scanner using scan_induction with
  | failed scanner diagnosis after taken =>
    rw [scan_of_failed taken]
    obtain ⟨obstacle, reader, -, -, rfl⟩ := next_error taken
    exact .refl _
  | ended scanner token after taken ended =>
    rw [scan_of_ended taken ended]
    obtain ⟨lexeme, reader, -, -, rfl⟩ := next_ok taken
    exact Lexeme.token_grows _ _ lexeme
  | going scanner token after taken going ih =>
    rw [scan_of_going taken going]
    obtain ⟨lexeme, reader, -, -, rfl⟩ := next_ok taken
    exact (Lexeme.token_grows _ _ lexeme).trans ih

/-- A request takes no more handles than it uses up bytes and replies. -/
theorem size_next_le (scanner : Scanner) :
    scanner.next.2.vocabulary.size + scanner.next.2.reader.remaining ≤
      scanner.vocabulary.size + scanner.reader.remaining := by
  match read : scanner.reader.next with
  | (.ok lexeme, reader) =>
    rw [next_of_lexeme read]
    have brings := lexeme.size_token_le scanner.reserved scanner.vocabulary
    split at brings
    · next last =>
      subst last
      have same := Reader.remaining_of_endOfInput read
      dsimp only
      omega
    · next going =>
      have used := scanner.reader.next_remaining_lt (by rw [read]; simpa using going)
      rw [read] at used
      dsimp only at used ⊢
      omega
  | (.error obstacle, reader) =>
    have used := scanner.reader.next_remaining_lt (by rw [read]; exact nofun)
    rw [read] at used
    rw [next_of_obstacle read]
    exact Nat.add_le_add_left (Nat.le_of_lt used) _

theorem size_askAll_le (scanner : Scanner) (asks : List Ask) :
    (scanner.askAll asks).2.vocabulary.size + (scanner.askAll asks).2.reader.remaining ≤
      scanner.vocabulary.size + scanner.reader.remaining := by
  refine askAll_induction (motive := fun later => later.vocabulary.size + later.reader.remaining ≤
    scanner.vocabulary.size + scanner.reader.remaining) ?_ (Nat.le_refl _) asks
  intro later within _
  exact Nat.le_trans later.size_next_le within

theorem size_scan_le (scanner : Scanner) :
    scanner.scan.final.vocabulary.size ≤ scanner.vocabulary.size + scanner.reader.remaining := by
  have first := scanner.size_next_le
  induction scanner using scan_induction with
  | failed scanner diagnosis after taken =>
    rw [taken] at first
    rw [scan_of_failed taken]
    exact Nat.le_trans (Nat.le_add_right _ _) first
  | ended scanner token after taken ended =>
    rw [taken] at first
    rw [scan_of_ended taken ended]
    exact Nat.le_trans (Nat.le_add_right _ _) first
  | going scanner token after taken going ih =>
    rw [taken] at first
    rw [scan_of_going taken going]
    exact Nat.le_trans (ih after.size_next_le) first

namespace OneSpan

variable {scanner : Scanner}

/-- A request leaves the scanner in its span, whatever came of it. -/
theorem next (span : scanner.OneSpan) : scanner.next.2.OneSpan := by
  have source := (Reader.next_splits span.sound span.source).1
  match read : scanner.reader.next with
  | (.ok lexeme, reader) =>
    have later := (Reader.next_turn span.sound read).2
    rw [read] at source
    rw [next_of_lexeme read]
    exact ⟨source, later, Lexeme.token_consistent _ span.consistent lexeme,
      span.describes.grows (Lexeme.token_grows _ _ lexeme)⟩
  | (.error obstacle, reader) =>
    have later := (Reader.next_turn span.sound read).2
    rw [read] at source
    rw [next_of_obstacle read]
    exact ⟨source, later, span.consistent, span.describes⟩

theorem askAll (span : scanner.OneSpan) (asks : List Ask) : (scanner.askAll asks).2.OneSpan := by
  refine askAll_induction ?_ span asks
  intro scanner span finished
  exact ⟨span.next.source, span.next.sound, span.next.consistent, span.next.describes⟩

/-- One request, told by the grammar. -/
theorem next_splits (span : scanner.OneSpan) (roomy : scanner.next.2.vocabulary.size ≤ 2 ^ 32) :
    ∃ gap place, Splits scanner.unread gap place ∧ (∀ piece ∈ gap, piece.lexeme? = none) ∧
      AtLexeme place ∧
      ((∃ line fault, scanner.next.1 = .error (.fault scanner.file line fault)) ↔
        place ≠ [] ∧ ∀ lexeme written behind, ¬ Lexeme.Begins lexeme place written behind) ∧
      match scanner.next.1 with
      | .ok token =>
        token = .endOfInput ∧ place = [] ∧ scanner.next.2.unread = [] ∨
          ∃ (lexeme : Lexeme) (written : List Char),
            lexeme.Consumes place written scanner.next.2.unread ∧ token.isEnd = false ∧
              token.kind = lexeme.kind
      | .error (.fault _ _ _) => scanner.next.2.unread = place.tail
      | .error _ => False := by
  obtain ⟨-, gap, place, splits, trivia, here, taken⟩ := Reader.next_splits span.sound span.source
  refine ⟨gap, place, splits, trivia, here, ?_⟩
  match read : scanner.reader.next with
  | (.ok lexeme, reader) =>
    rw [read] at taken
    rw [next_of_lexeme read] at roomy ⊢
    rcases taken with ⟨rfl, none, noMore⟩ | ⟨written, consumes⟩
    · exact ⟨⟨nofun, fun some => absurd none some.1⟩, Or.inl ⟨rfl, none, noMore⟩⟩
    · refine ⟨⟨nofun, fun some => absurd consumes.toBegins (some.2 _ _ _)⟩,
        Or.inr ⟨lexeme, written, consumes, ?_, ?_⟩⟩
      · rw [Bool.eq_false_iff, ne_eq, Lexeme.isEnd_token]
        rintro rfl
        rcases consumes.stands with isWritten | ⟨cutOff, -⟩
        · cases isWritten
        · cases cutOff
      · exact Lexeme.token_kind span.consistent span.describes roomy
  | (.error (.fault fault), reader) =>
    rw [read] at taken
    rw [next_of_obstacle read]
    obtain ⟨some, noLexeme, left⟩ := taken
    exact ⟨⟨fun _ => ⟨some, noLexeme⟩, fun _ => ⟨_, _, rfl⟩⟩, left⟩
  | (.error (.unreadable reason), reader) =>
    rw [read] at taken
    exact taken.elim

/-- A scan to the end of input cuts the text into pieces, and its tokens are those of the lexemes. -/
theorem scan_splits (span : scanner.OneSpan) (roomy : scanner.scan.final.vocabulary.size ≤ 2 ^ 32)
    (complete : scanner.scan.failure = none) :
    ∃ pieces, Splits scanner.unread pieces [] ∧
      scanner.scan.tokens.map (·.token.kind) =
        (pieces.filterMap Piece.lexeme?).map Lexeme.kind ++ [.endOfInput] := by
  have noLexeme {gap : List Piece} (trivia : ∀ piece ∈ gap, piece.lexeme? = none) :
      gap.filterMap Piece.lexeme? = [] := List.filterMap_eq_nil_iff.mpr trivia
  induction scanner using scan_induction with
  | failed scanner diagnosis after taken =>
    rw [scan_of_failed taken] at complete
    cases complete
  | ended scanner token after taken ended =>
    rw [scan_of_ended taken ended] at roomy ⊢
    obtain ⟨gap, place, splits, trivia, -, -, given⟩ := span.next_splits (by rwa [taken])
    rw [taken] at given
    rcases given with ⟨rfl, rfl, -⟩ | ⟨_, _, _, going, -⟩
    · refine ⟨gap, splits, ?_⟩
      rw [noLexeme trivia]
      rfl
    · rw [ended] at going
      cases going
  | going scanner token after taken going ih =>
    rw [scan_of_going taken going] at roomy complete ⊢
    obtain ⟨gap, place, splits, trivia, here, -, given⟩ :=
      span.next_splits (by rw [taken]; exact Nat.le_trans after.scan_grows.size_le roomy)
    have span := span.next
    rw [taken] at given span
    obtain ⟨pieces, further, kinds⟩ := ih span roomy complete
    rcases given with ⟨rfl, -, -⟩ | ⟨lexeme, written, consumes, -, kind⟩
    · cases going
    · refine ⟨gap ++ .lexeme lexeme written :: pieces,
        splits.append (.cons (.lexeme here consumes) further), ?_⟩
      rw [List.filterMap_append, noLexeme trivia, Scan.cons_tokens, List.map_cons, kinds, kind]
      rfl

end OneSpan

end Scanner

/-- A lexer starts with a table of reserved words that is right for its vocabulary. -/
theorem Lexer.ofVocabulary_describes {vocabulary : Vocabulary} (consistent : vocabulary.Consistent)
    (settings : Settings) :
    (ofVocabulary vocabulary settings).2.Consistent ∧
      (ofVocabulary vocabulary settings).1.reserved.Describes (ofVocabulary vocabulary settings).2 := by
  have further : (ReservedWords.ofVocabulary vocabulary).2.Consistent :=
    ReservedWords.build_consistent _ consistent
  have describes := ReservedWords.ofVocabulary_describes consistent
  unfold ofVocabulary
  generalize ReservedWords.ofVocabulary vocabulary = built at *
  exact ⟨further, describes⟩

theorem Lexer.size_ofVocabulary_le (vocabulary : Vocabulary) (settings : Settings) :
    (ofVocabulary vocabulary settings).2.size ≤ vocabulary.size + Keyword.all.length := by
  have size := ReservedWords.size_build_le Keyword.alphabetical vocabulary
  change (ReservedWords.ofVocabulary vocabulary).2.size ≤ _ at size
  unfold ofVocabulary
  generalize ReservedWords.ofVocabulary vocabulary = built at *
  exact size

namespace Scanner

/-- Scanning one span of text follows the lexical grammar. At every place that any calls can lead to,
failed ones too, the next request passes over blanks and comments and looks for a lexeme where neither
starts. It takes the longest one that stands there, all of it and nothing else, and gives a token of
its kind; a keyword is a word that is spelled like it. A fault is told just when something is left but
no lexeme stands there, and one byte is passed over. A scan without a failure cuts all that is left
into blanks, comments and lexemes, and gives the tokens of these lexemes. All this holds as long as
handles have not run out. -/
theorem tokens_follow_grammar (before between : List String) (settings : Settings) (file text : String)
    (asks : List Ask) :
    let lexer := Lexer.ofVocabulary (Vocabulary.empty.internAll before) settings
    let start := lexer.1.scanner (lexer.2.internAll between) file text []
    let scanner := (start.askAll asks).2
    let after := scanner.next.2
    start.unread = Utf8.bytesOf text.toList ∧
    (after.vocabulary.size ≤ 2 ^ 32 →
      ∃ gap place, Splits scanner.unread gap place ∧ (∀ piece ∈ gap, piece.lexeme? = none) ∧
        AtLexeme place ∧
        ((∃ line fault, scanner.next.1 = .error (.fault file line fault)) ↔
          place ≠ [] ∧ ∀ lexeme written behind, ¬ Lexeme.Begins lexeme place written behind) ∧
        match scanner.next.1 with
        | .ok token =>
          token = .endOfInput ∧ place = [] ∧ after.unread = [] ∨
            ∃ (lexeme : Lexeme) (written : List Char), lexeme.Consumes place written after.unread ∧
              token.kind = lexeme.kind ∧
              ∀ keyword, token.kind = .keyword keyword ↔ lexeme = .word keyword.spelling
        | .error (.fault _ _ _) => after.unread = place.tail
        | .error _ => False) ∧
    (scanner.scan.final.vocabulary.size ≤ 2 ^ 32 → scanner.scan.failure = none →
      ∃ pieces, Splits scanner.unread pieces [] ∧
        scanner.unread = Utf8.bytesOf (pieces.flatMap Piece.text) ∧
        scanner.scan.tokens.map (·.token.kind) =
          (pieces.filterMap Piece.lexeme?).map Lexeme.kind ++ [.endOfInput]) := by
  have built := Lexer.ofVocabulary_describes (Vocabulary.empty_consistent.internAll before) settings
  generalize Lexer.ofVocabulary (Vocabulary.empty.internAll before) settings = lexer at built ⊢
  obtain ⟨consistent, describes⟩ := built
  intro lexer start scanner after
  have opening : start.OneSpan := ⟨rfl, Reader.start_sound text [], consistent.internAll between,
    describes.grows (Vocabulary.internAll_grows _ between)⟩
  have input : start.unread = Utf8.bytesOf text.toList := Reader.unread_of_span rfl rfl
  have named : start.file = file := rfl
  clear_value start
  have span : scanner.OneSpan := opening.askAll asks
  have named : scanner.file = file := (askAll_file start asks).trans named
  clear_value scanner
  refine ⟨input, ?_, ?_⟩
  · intro roomy
    obtain ⟨gap, place, splits, trivia, here, fault_iff, given⟩ := span.next_splits roomy
    rw [named] at fault_iff
    refine ⟨gap, place, splits, trivia, here, fault_iff, ?_⟩
    split
    · next token taken =>
      rw [taken] at given
      refine given.imp_right fun ⟨lexeme, written, consumes, _, kind⟩ =>
        ⟨lexeme, written, consumes, kind, ?_⟩
      intro keyword
      rw [kind]
      exact Lexeme.kind_eq_keyword_iff
    · next taken =>
      rw [taken] at given
      exact given
    · next diagnosis noFault taken =>
      rw [taken] at given
      cases diagnosis with
      | fault file line fault => exact noFault file line fault rfl
      | _ => exact given
  · intro roomy complete
    obtain ⟨pieces, splits, kinds⟩ := span.scan_splits roomy complete
    have whole := splits.whole
    rw [List.append_nil] at whole
    exact ⟨pieces, splits, whole, kinds⟩

/-- What is left behind a character that was refused byte by byte: two numbers and a sign with
points between them, and a quote as a character. -/
theorem grammar_of_points :
    let lexer := Lexer.ofVocabulary (Vocabulary.empty.internAll ["integer"]) .standard
    let start := lexer.1.scanner (lexer.2.internAll []) "t.c" "é1.+.2'\"'// 3" []
    let scanner := (start.askAll [.next, .step]).2
    scanner.scan.final.vocabulary.size ≤ 2 ^ 32 ∧ scanner.scan.failure = none ∧
      scanner.scan.tokens.map (·.token.kind) =
        [.atom .float, .symbol .plus, .symbol .dot, .atom .integer, .atom .character, .endOfInput] ∧
      ∃ pieces, Splits scanner.unread pieces [] ∧
        scanner.unread = Utf8.bytesOf (pieces.flatMap Piece.text) ∧
        scanner.scan.tokens.map (·.token.kind) =
          (pieces.filterMap Piece.lexeme?).map Lexeme.kind ++ [.endOfInput] := by
  intro lexer start scanner
  have roomy : scanner.scan.final.vocabulary.size ≤ 2 ^ 32 := by
    have known : lexer.2.size ≤ (Vocabulary.empty.internAll ["integer"]).size + 25 :=
      Lexer.size_ofVocabulary_le _ _
    have first : (Vocabulary.empty.internAll ["integer"]).size ≤ 0 + 1 :=
      Vocabulary.size_internAll_le _ _
    have text : start.reader.remaining = 14 := by decide +kernel
    have asked : scanner.vocabulary.size + scanner.reader.remaining ≤ lexer.2.size + 14 :=
      text ▸ start.size_askAll_le [.next, .step]
    have scanned := scanner.size_scan_le
    omega
  have complete : scanner.scan.failure = none := by decide +kernel
  have kinds : scanner.scan.tokens.map (·.token.kind) =
      [.atom .float, .symbol .plus, .symbol .dot, .atom .integer, .atom .character, .endOfInput] := by
    decide +kernel
  exact ⟨roomy, complete, kinds, (tokens_follow_grammar ["integer"] [] .standard "t.c"
    "é1.+.2'\"'// 3" [.next, .step]).2.2 roomy complete⟩

end Scanner
end TokenTape
