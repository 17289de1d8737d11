import Mathlib.Data.List.Forall2
import TokenTape.Proofs.Scanner.LexicalGrammar
import TokenTape.Proofs.Tape.Outcome
/-!
What tokens mean. A token tells the lexeme that it was made from; where it carries a handle, the
vocabulary tells the text (`Lexeme.ToldBy`). What a token tells stays the same while the vocabulary
grows, and a lexeme that has been told once is told again by the same token and brings no new text
with it (`Lexeme.ToldBy.token_eq`). All this rests on handles and texts being each other's inverse, as
long as handles have not run out (`Vocabulary.Consistent.find?_eq_some_iff`), and no way of going through a
source does more to a scanner than its requests do (`Scanner.pack_kept`, `Scanner.run_kept`).
-/
namespace TokenTape

theorem Lexer.settings_ofVocabulary (vocabulary : Vocabulary) (settings : Settings) :
    (ofVocabulary vocabulary settings).1.settings = settings ∧
      (ofVocabulary vocabulary settings).1.quota = .ofLimit settings.capacity := by
  unfold ofVocabulary
  generalize ReservedWords.ofVocabulary vocabulary = built
  exact ⟨rfl, rfl⟩

namespace ReservedWords

/-- A vocabulary that knows its texts, and a table of reserved words that is right for it. -/
structure Fits (table : ReservedWords) (vocabulary : Vocabulary) : Prop where
  consistent : vocabulary.Consistent
  describes : table.Describes vocabulary

variable {table : ReservedWords} {vocabulary : Vocabulary}

/-- A lexer that has just been made has the right table for its vocabulary. -/
theorem Fits.of_built {vocabulary : Vocabulary} (consistent : vocabulary.Consistent)
    (settings : Settings) :
    (Lexer.ofVocabulary vocabulary settings).1.reserved.Fits
      (Lexer.ofVocabulary vocabulary settings).2 :=
  have built := Lexer.ofVocabulary_describes consistent settings
  ⟨built.1, built.2⟩

theorem Fits.internAll (fits : table.Fits vocabulary) (texts : List String) :
    table.Fits (vocabulary.internAll texts) where
  consistent := fits.consistent.internAll texts
  describes := fits.describes.grows (vocabulary.internAll_grows texts)

theorem Fits.token (fits : table.Fits vocabulary) (lexeme : Lexeme) :
    table.Fits (lexeme.token table vocabulary).2 where
  consistent := lexeme.token_consistent table fits.consistent
  describes := fits.describes.grows (lexeme.token_grows table vocabulary)

/-- Every keyword has entered the vocabulary. -/
theorem Fits.knows (fits : table.Fits vocabulary) (keyword : Keyword) :
    ∃ word, vocabulary.find? keyword.spelling = some word := by
  obtain ⟨word, entry⟩ := fits.describes.complete keyword
  exact ⟨word, (fits.consistent _ _).mpr (fits.describes.spelled word keyword entry)⟩

/-- A word that the vocabulary knows keeps its handle, which the table takes for a keyword just when
the word is spelled like one. -/
theorem Fits.intern_known (fits : table.Fits vocabulary) (roomy : vocabulary.size ≤ 2 ^ 32)
    {spelling : String} {handle : Word} (known : vocabulary.find? spelling = some handle) :
    vocabulary.intern spelling = (handle, vocabulary) ∧
      table.lookup? handle = Keyword.ofSpelling? spelling := by
  refine ⟨Vocabulary.intern_of_find? known, ?_⟩
  rw [lookup?_eq fits.consistent fits.describes roomy,
    (fits.consistent.find?_eq_some_iff roomy).mp known]
  rfl

end ReservedWords

namespace Lexeme

/-- A token tells a lexeme. What a handle stands for is told by the vocabulary, and a word that is
spelled like a keyword is told by the keyword alone. -/
inductive ToldBy (vocabulary : Vocabulary) : Lexeme → Token → Prop
  | keyword {spelling : String} {keyword : Keyword}
      (spelled : Keyword.ofSpelling? spelling = some keyword) :
      ToldBy vocabulary (.word spelling) (.bare (.keyword keyword))
  | identifier {spelling : String} {handle : Word} (free : Keyword.ofSpelling? spelling = none)
      (named : vocabulary.text? handle = some spelling) :
      ToldBy vocabulary (.word spelling) (.valued .identifier (.word handle))
  | numeral (parts : Numeral) :
      ToldBy vocabulary (.numeral parts)
        (.valued (if parts.isFloat then .float else .integer) parts.value)
  | string {text : String} {handle : Word} (named : vocabulary.text? handle = some text) :
      ToldBy vocabulary (.string text) (.valued .string (.word handle))
  | character (c : Char) :
      ToldBy vocabulary (.character c) (.valued .character (.integer (Int64.ofNat c.toNat)))
  | symbol (mark : Symbol) : ToldBy vocabulary (.symbol mark) (.bare (.symbol mark))
  | endOfInput : ToldBy vocabulary .endOfInput .endOfInput

theorem ToldBy.grows {before after : Vocabulary} (grows : before.Grows after) {lexeme : Lexeme}
    {token : Token} (told : lexeme.ToldBy before token) : lexeme.ToldBy after token := by
  cases told with
  | keyword spelled => exact .keyword spelled
  | identifier free named => exact .identifier free (grows.text? named)
  | numeral parts => exact .numeral parts
  | string named => exact .string (grows.text? named)
  | character c => exact .character c
  | symbol mark => exact .symbol mark
  | endOfInput => exact .endOfInput

variable {reserved : ReservedWords} {vocabulary : Vocabulary}

/-- The token that is made of a lexeme tells it. -/
theorem token_told (fits : reserved.Fits vocabulary) (lexeme : Lexeme)
    (roomy : (lexeme.token reserved vocabulary).2.size ≤ 2 ^ 32) :
    lexeme.ToldBy (lexeme.token reserved vocabulary).2 (lexeme.token reserved vocabulary).1 := by
  cases lexeme with
  | word spelling =>
    rw [token_word_vocabulary] at roomy
    have known := ReservedWords.lookup?_intern fits.consistent fits.describes roomy
    have named := Vocabulary.text?_intern fits.consistent roomy
    cases spelled : Keyword.ofSpelling? spelling with
    | none =>
      rw [spelled] at known
      simp only [token, known]
      exact .identifier spelled named
    | some keyword =>
      rw [spelled] at known
      simp only [token, known]
      exact .keyword spelled
  | numeral parts => exact .numeral parts
  | string text => exact .string (Vocabulary.text?_intern fits.consistent roomy)
  | character c => exact .character c
  | symbol mark => exact .symbol mark
  | endOfInput => exact .endOfInput

/-- A lexeme that a token tells is made into that token, and nothing new enters the vocabulary. -/
theorem ToldBy.token_eq (fits : reserved.Fits vocabulary) (roomy : vocabulary.size ≤ 2 ^ 32)
    {lexeme : Lexeme} {token : Token} (told : lexeme.ToldBy vocabulary token) :
    lexeme.token reserved vocabulary = (token, vocabulary) := by
  cases told with
  | @keyword spelling keyword spelled =>
    obtain ⟨handle, known⟩ := fits.knows keyword
    rw [← Keyword.ofSpelling?_eq_some_iff.mp spelled] at known
    obtain ⟨same, looked⟩ := fits.intern_known roomy known
    rw [spelled] at looked
    simp only [Lexeme.token, same, looked]
  | identifier free named =>
    have known := (fits.consistent.find?_eq_some_iff roomy).mpr named
    obtain ⟨same, looked⟩ := fits.intern_known roomy known
    rw [free] at looked
    simp only [Lexeme.token, same, looked]
  | numeral parts => rfl
  | string named =>
    have known := (fits.consistent.find?_eq_some_iff roomy).mpr named
    simp only [Lexeme.token, Vocabulary.intern_of_find? known]
  | character c => rfl
  | symbol mark => rfl
  | endOfInput => rfl

end Lexeme

/-- The lexemes that a reader gives up to the end of input, or up to the first obstacle. -/
def Reader.lexemes (reader : Reader) : List Lexeme :=
  match _read : reader.next with
  | (.error _, _) => []
  | (.ok lexeme, after) => if _last : lexeme = .endOfInput then [lexeme] else lexeme :: after.lexemes
termination_by reader.remaining
decreasing_by
  have used := reader.next_remaining_lt
  rw [_read] at used
  exact used (by simpa using _last)

namespace Reader

variable {reader after : Reader}

theorem lexemes_of_obstacle {obstacle : Obstacle} (read : reader.next = (.error obstacle, after)) :
    reader.lexemes = [] := by
  rw [lexemes]
  split
  · rfl
  · next found =>
    rw [read] at found
    cases found

theorem lexemes_of_lexeme {lexeme : Lexeme} (read : reader.next = (.ok lexeme, after)) :
    reader.lexemes = if lexeme = .endOfInput then [lexeme] else lexeme :: after.lexemes := by
  rw [lexemes]
  split
  · next found =>
    rw [read] at found
    cases found
  · next found =>
    rw [read] at found
    cases found
    split <;> rfl

/-- The lexemes of one span of text are those of the pieces that the grammar cuts it into. -/
theorem lexemes_splits (sound : reader.Sound) (oneSpan : reader.source = [])
    (complete : .endOfInput ∈ reader.lexemes) :
    ∃ pieces, Splits reader.unread pieces [] ∧
      reader.lexemes = pieces.filterMap Piece.lexeme? ++ [.endOfInput] := by
  induction size : reader.remaining using Nat.strongRecOn generalizing reader with
  | ind size ih =>
    obtain ⟨left, gap, middle, splits, trivia, here, given⟩ := next_splits sound oneSpan
    have noLexeme : gap.filterMap Piece.lexeme? = [] := List.filterMap_eq_nil_iff.mpr trivia
    match read : reader.next with
    | (.error obstacle, after) =>
      rw [lexemes_of_obstacle read] at complete
      cases complete
    | (.ok lexeme, after) =>
      rw [read] at left given
      rw [lexemes_of_lexeme read] at complete ⊢
      split
      · next last =>
        subst last
        rcases given with ⟨-, rfl, -⟩ | ⟨written, consumes⟩
        · refine ⟨gap, splits, ?_⟩
          rw [noLexeme]
          rfl
        · exact (consumes.ne_endOfInput rfl).elim
      · next more =>
        rw [if_neg more] at complete
        have used := reader.next_remaining_lt (by simpa [read] using more)
        rw [read] at used
        obtain ⟨pieces, further, lexemes⟩ := ih _ (size ▸ used) (next_turn sound read).2 left
          ((List.mem_cons.mp complete).resolve_left (Ne.symm more)) rfl
        rcases given with ⟨last, -⟩ | ⟨written, consumes⟩
        · exact absurd last more
        · refine ⟨gap ++ .lexeme lexeme written :: pieces,
            splits.append (.cons (.lexeme here consumes) further), ?_⟩
          rw [List.filterMap_append, noLexeme, lexemes]
          rfl

end Reader

namespace Scanner

variable {scanner : Scanner}

theorem next_grows (scanner : Scanner) : scanner.vocabulary.Grows scanner.next.2.vocabulary := by
  match read : scanner.reader.next with
  | (.ok lexeme, reader) =>
    rw [next_of_lexeme read]
    exact lexeme.token_grows _ _
  | (.error obstacle, reader) =>
    rw [next_of_obstacle read]
    exact .refl _

theorem next_consistent (consistent : scanner.vocabulary.Consistent) :
    scanner.next.2.vocabulary.Consistent := by
  match read : scanner.reader.next with
  | (.ok lexeme, reader) =>
    rw [next_of_lexeme read]
    exact lexeme.token_consistent _ consistent
  | (.error obstacle, reader) =>
    rw [next_of_obstacle read]
    exact consistent

theorem askAll_grows (scanner : Scanner) (asks : List Ask) :
    scanner.vocabulary.Grows (scanner.askAll asks).2.vocabulary := by
  refine askAll_induction (motive := fun later => scanner.vocabulary.Grows later.vocabulary) ?_
    (.refl _) asks
  intro later grows _
  exact grows.trans later.next_grows

/-- A table of reserved words that is right for the vocabulary stays right. -/
theorem next_fits (fits : scanner.reserved.Fits scanner.vocabulary) :
    scanner.next.2.reserved.Fits scanner.next.2.vocabulary := by
  match read : scanner.reader.next with
  | (.ok lexeme, reader) =>
    rw [next_of_lexeme read]
    exact fits.token lexeme
  | (.error obstacle, reader) =>
    rw [next_of_obstacle read]
    exact fits

theorem askAll_fits (fits : scanner.reserved.Fits scanner.vocabulary) (asks : List Ask) :
    (scanner.askAll asks).2.reserved.Fits (scanner.askAll asks).2.vocabulary := by
  refine askAll_induction (motive := fun later => later.reserved.Fits later.vocabulary) ?_ fits asks
  intro later fits _
  exact next_fits fits

/-- What requests keep, writing to scratch memory keeps from its first request on. -/
theorem writeFrom_kept {motive : Scanner → Prop}
    (next : ∀ scanner, motive scanner → motive scanner.next.2) (first : motive scanner.next.2)
    (marks : Bool) (line : Nat) (scratch : Scratch) :
    motive (scanner.writeFrom marks line scratch).2 := by
  induction scanner using scan_induction generalizing line scratch with
  | failed scanner diagnosis after taken =>
    rw [taken] at first
    rwa [writeFrom_of_failed marks line scratch taken]
  | ended scanner token after taken ended =>
    rw [taken] at first
    rw [writeFrom_of_taken marks line scratch taken]
    split
    · exact first
    · rwa [if_pos ended]
  | going scanner token after taken going ih =>
    rw [taken] at first
    rw [writeFrom_of_taken marks line scratch taken]
    split
    · exact first
    · rw [going]
      exact ih (next after first) _ _

/-- What the first request has brought into the vocabulary is in it when the writing ends. -/
theorem writeFrom_grows (scanner : Scanner) (marks : Bool) (line : Nat) (scratch : Scratch) :
    scanner.next.2.vocabulary.Grows (scanner.writeFrom marks line scratch).2.vocabulary := by
  refine writeFrom_kept (motive := fun later => scanner.next.2.vocabulary.Grows later.vocabulary) ?_
    (.refl _) marks line scratch
  intro later grows
  exact grows.trans later.next_grows

/-- Packing leaves the scanner where the writing has ended. -/
theorem pack_scanner (scanner : Scanner) (marks : Bool) (quota : Quota) :
    (scanner.pack marks quota).scanner =
      (scanner.writeFrom marks scanner.line (.empty quota.free)).2 := by
  unfold pack
  split
  · next wrote => rw [wrote]
  · next wrote =>
    rw [wrote]
    dsimp only
    split
    · rfl
    · split <;> rfl

/-- What requests keep, packing keeps. -/
theorem pack_kept {motive : Scanner → Prop}
    (next : ∀ scanner, motive scanner → motive scanner.next.2) (start : motive scanner) (marks : Bool)
    (quota : Quota) : motive (scanner.pack marks quota).scanner := by
  rw [pack_scanner]
  exact writeFrom_kept next (next scanner start) marks _ _

/-- Packing takes no more handles than there are bytes and replies. -/
theorem size_pack_le (scanner : Scanner) (marks : Bool) (quota : Quota) :
    (scanner.pack marks quota).scanner.vocabulary.size ≤
      scanner.vocabulary.size + scanner.reader.remaining := by
  refine Nat.le_trans (Nat.le_add_right _ _) (pack_kept (motive := fun later =>
    later.vocabulary.size + later.reader.remaining ≤
      scanner.vocabulary.size + scanner.reader.remaining) ?_ (Nat.le_refl _) marks quota)
  intro later within
  exact Nat.le_trans later.size_next_le within

/-- What requests keep, a run to the end keeps. It cannot depend on whether the run is over. -/
theorem run_kept {motive : Scanner → Prop}
    (next : ∀ scanner, motive scanner → ∀ finished, motive { scanner.next.2 with finished := finished })
    (start : motive scanner) : motive scanner.run.2 := by
  have kept (reports : List Report) : motive (scanner.runOnto reports).2 := by
    fun_induction runOnto reports scanner with
    | case1 reports scanner after stopped =>
      unfold step at stopped
      split at stopped
      · cases stopped
        exact start
      · cases stopped
    | case2 reports scanner outcome after stepped ih =>
      refine ih ?_
      unfold step at stepped
      split at stepped
      · cases stepped
      · cases stepped
        exact next scanner start _
  exact kept []

theorem run_grows (scanner : Scanner) : scanner.vocabulary.Grows scanner.run.2.vocabulary := by
  refine run_kept (motive := fun later => scanner.vocabulary.Grows later.vocabulary) ?_ (.refl _)
  intro later grows _
  exact grows.trans later.next_grows

theorem run_consistent (consistent : scanner.vocabulary.Consistent) :
    scanner.run.2.vocabulary.Consistent := by
  refine run_kept (motive := (·.vocabulary.Consistent)) ?_ consistent
  intro later consistent _
  exact later.next_consistent consistent

/-- The tokens of a scan tell the lexemes of the source. -/
theorem scan_told (fits : scanner.reserved.Fits scanner.vocabulary)
    (roomy : scanner.scan.final.vocabulary.size ≤ 2 ^ 32) :
    List.Forall₂ (Lexeme.ToldBy scanner.scan.final.vocabulary) scanner.reader.lexemes
      (scanner.scan.tokens.map (·.token)) := by
  induction scanner using scan_induction with
  | failed scanner diagnosis after taken =>
    obtain ⟨obstacle, reader, read, -, -⟩ := next_error taken
    rw [scan_of_failed taken, Reader.lexemes_of_obstacle read]
    exact .nil
  | ended scanner token after taken ended =>
    rw [scan_of_ended taken ended] at roomy ⊢
    obtain ⟨lexeme, reader, read, rfl, rfl⟩ := next_ok taken
    rw [Reader.lexemes_of_lexeme read, if_pos (Lexeme.isEnd_token.mp ended)]
    exact .cons (lexeme.token_told fits roomy) .nil
  | going scanner token after taken going ih =>
    rw [scan_of_going taken going] at roomy ⊢
    have grows := after.scan_grows
    obtain ⟨lexeme, reader, read, rfl, rfl⟩ := next_ok taken
    have more := Lexeme.ne_endOfInput_of_going going
    rw [Reader.lexemes_of_lexeme read, if_neg more]
    exact .cons ((lexeme.token_told fits (Nat.le_trans grows.size_le roomy)).grows grows)
      (ih (fits.token lexeme) roomy)

/-- A scan gives one token for each lexeme, and it does not fail just when the lexemes go on to the end
of input. -/
theorem scan_lexemes (scanner : Scanner) :
    scanner.scan.tokens.length = scanner.reader.lexemes.length ∧
      (scanner.scan.failure = none ↔ .endOfInput ∈ scanner.reader.lexemes) := by
  induction scanner using scan_induction with
  | failed scanner diagnosis after taken =>
    obtain ⟨obstacle, reader, read, -, -⟩ := next_error taken
    rw [scan_of_failed taken, Reader.lexemes_of_obstacle read]
    simp
  | ended scanner token after taken ended =>
    obtain ⟨lexeme, reader, read, rfl, -⟩ := next_ok taken
    have last := Lexeme.isEnd_token.mp ended
    rw [scan_of_ended taken ended, Reader.lexemes_of_lexeme read, if_pos last, last]
    simp
  | going scanner token after taken going ih =>
    rw [scan_of_going taken going]
    obtain ⟨lexeme, reader, read, same, rfl⟩ := next_ok taken
    have more := Lexeme.ne_endOfInput_of_going (same ▸ going)
    rw [Reader.lexemes_of_lexeme read, if_neg more, Scan.cons_tokens, Scan.cons_failure,
      List.length_cons, List.length_cons, List.mem_cons, ih.2]
    exact ⟨congrArg (· + 1) ih.1, (or_iff_right more.symm).symm⟩

/-- A lexeme that the vocabulary tells by a certain token is given as that token. -/
theorem next_of_told {known : Scanner} (reader : known.reader = scanner.reader)
    (fits : known.reserved.Fits known.vocabulary) (roomy : known.vocabulary.size ≤ 2 ^ 32)
    {lexeme : Lexeme} {token : Token} {after : Reader}
    (read : scanner.reader.next = (.ok lexeme, after)) (told : lexeme.ToldBy known.vocabulary token) :
    known.next = (.ok token, { known with reader := after }) := by
  rw [← reader] at read
  rw [next_of_lexeme read, told.token_eq fits roomy]

/-- A scanner whose vocabulary tells the lexemes of its source by certain tokens gives these tokens, and
nothing new enters the vocabulary. -/
theorem scan_retold {known : Scanner} (reader : known.reader = scanner.reader)
    (fits : known.reserved.Fits known.vocabulary) (roomy : known.vocabulary.size ≤ 2 ^ 32)
    (told : List.Forall₂ (Lexeme.ToldBy known.vocabulary) scanner.reader.lexemes
      (scanner.scan.tokens.map (·.token))) :
    known.scan.tokens = scanner.scan.tokens ∧
      known.scan.final.vocabulary = known.vocabulary := by
  induction scanner using scan_induction generalizing known with
  | failed scanner diagnosis after taken =>
    obtain ⟨obstacle, reader', read, -, -⟩ := next_error taken
    rw [← reader] at read
    rw [scan_of_failed taken, scan_of_failed (next_of_obstacle read)]
    exact ⟨rfl, rfl⟩
  | ended scanner token after taken ended =>
    obtain ⟨lexeme, reader', read, rfl, rfl⟩ := next_ok taken
    rw [scan_of_ended taken ended, Reader.lexemes_of_lexeme read,
      if_pos (Lexeme.isEnd_token.mp ended), List.map_singleton, List.forall₂_cons] at told
    have again := next_of_told reader fits roomy read told.1
    rw [scan_of_ended taken ended, scan_of_ended again ended]
    exact ⟨rfl, rfl⟩
  | going scanner token after taken going ih =>
    obtain ⟨lexeme, reader', read, same, rfl⟩ := next_ok taken
    have more := Lexeme.ne_endOfInput_of_going (same ▸ going)
    rw [scan_of_going taken going, Reader.lexemes_of_lexeme read, if_neg more, Scan.cons_tokens,
      List.map_cons, List.forall₂_cons] at told
    have again := next_of_told reader fits roomy read told.1
    rw [scan_of_going taken going, scan_of_going again going]
    let behind : Scanner := { known with reader := reader' }
    have sameReader : behind.reader = reader' := rfl
    obtain ⟨tokens, words⟩ := ih sameReader fits roomy told.2
    refine ⟨?_, words⟩
    rw [Scan.cons_tokens, Scan.cons_tokens, tokens]
    rfl

end Scanner
end TokenTape
