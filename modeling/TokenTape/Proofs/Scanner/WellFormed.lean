import TokenTape.Proofs.Scanner.Accesses
import TokenTape.Proofs.Scanner.StringLiteral
import TokenTape.Proofs.Value.Numeral
import TokenTape.Proofs.Vocabulary.Histories
/-!
Tokens as requests give them. Whatever was asked before and whatever failed, a token carries just what its
kind asks for (`Token.Shaped`), so what is written of it by its value is read back by its tag. A handle
that it carries leads to text of the source: a word that is spelled like no keyword, or all between two
quotes (`Atom.MadeOf`). `Scanner.tokens_well_formed` says so of every request to a scanner whose table of
reserved words was built over its vocabulary.
-/
namespace TokenTape

/-- A token carries what its kind asks for, and marks of a tape are no tokens. -/
def Token.Shaped (token : Token) : Prop :=
  match token.kind with
  | .atom .identifier | .atom .string => ∃ handle, token.value = some (.word handle)
  | .atom .integer => ∃ n, token.value = some (.integer n)
  | .atom .float => ∃ x, token.value = some (.float x)
  | .atom .character => ∃ n : Int64, token.value = some (.integer n) ∧ 0 ≤ n.toInt ∧ n.toInt ≤ 127
  | .symbol _ | .keyword _ | .endOfInput => token.value = none
  | .endOfLine => False

/-- What the text of an identifier or of a string is made of: where it stands in the source, and what is
left behind it. -/
inductive Atom.MadeOf (text : String) (place after : Reader) : Atom → Prop
  /-- A word that goes no further in the text at hand and is spelled like no keyword. -/
  | identifier (isWord : (Lexeme.word text).Written text.toList)
      (whole : place.unread = Utf8.bytesOf text.toList ++ after.unread)
      (ends : ∀ c ∈ after.text.head?, continuesWord c = false)
      (free : Keyword.ofSpelling? text = none) : MadeOf text place after .identifier
  /-- All between a quote and the first one behind it that nothing protects. -/
  | string (first : QuotesProtected text.toList) (even : Even (trailingBackslashes text.toList))
      (whole : place.unread = Utf8.bytesOf ('"' :: (text.toList ++ ['"'])) ++ after.unread) :
      MadeOf text place after .string
  /-- All behind a quote that no other one closes. -/
  | cutOff (all : QuotesProtected text.toList)
      (whole : place.unread = Utf8.bytesOf ('"' :: text.toList)) (nothing : after.unread = []) :
      MadeOf text place after .string

/-- A table of all keywords that is built at any time fits whatever its vocabulary becomes. -/
theorem ReservedWords.Fits.of_calls (before between : List Vocabulary.Call) {order : List Keyword}
    (every : order.Perm Keyword.all) :
    let built := build order (Vocabulary.empty.callAll before).2
    built.1.Fits (built.2.callAll between).2 := by
  intro built
  have consistent : (Vocabulary.empty.callAll before).2.Consistent :=
    Vocabulary.empty_consistent.callAll before
  have complete (keyword : Keyword) : keyword ∈ order := every.mem_iff.mpr keyword.mem_all
  exact ⟨(build_consistent order consistent).callAll between,
    (build_describes complete consistent).grows (built.2.callAll_grows between)⟩

theorem ReservedWords.size_of_calls_le (before between : List Vocabulary.Call) (order : List Keyword) :
    ((build order (Vocabulary.empty.callAll before).2).2.callAll between).2.size ≤
      Vocabulary.Call.textsOf before + order.length + Vocabulary.Call.textsOf between := by
  have first := Vocabulary.size_callAll_le .empty before
  have second := size_build_le order (Vocabulary.empty.callAll before).2
  have third := (build order (Vocabulary.empty.callAll before).2).2.size_callAll_le between
  have none : Vocabulary.empty.size = 0 := rfl
  omega

namespace Reader

variable {reader place after : Reader}

/-- A lexeme is taken at the place that blanks and comments lead to. -/
theorem next_ok {lexeme : Lexeme} (read : reader.next = (.ok lexeme, after)) :
    ∃ place, reader.settle = (none, place) ∧ place.take = (.ok lexeme, after) := by
  unfold next at read
  split at read
  · cases read
  · next place settled => exact ⟨place, settled, read⟩

/-- What is taken as a lexeme is what stands there, byte by byte. -/
theorem take_unread {lexeme : Lexeme} (taken : place.take = (.ok lexeme, after))
    (more : lexeme ≠ .endOfInput) :
    ∃ written, place.unread = Utf8.bytesOf written ++ after.unread ∧
      (lexeme.Written written ∨ lexeme.CutOff written ∧ after.unread = []) := by
  obtain ⟨whole, clean, -, ⟨last, -⟩ | ⟨written, used, -, stands⟩⟩ := take_ok taken
  · exact absurd last more
  · rw [unread_of_stray_nil whole, unread_of_stray_nil clean, used, Utf8.bytesOf_append]
    refine ⟨written, rfl, stands.imp_right fun ⟨cutOff, text, source⟩ => ⟨cutOff, ?_⟩⟩
    rw [text, source]
    rfl

/-- A word is taken as far as it goes in the text at hand. -/
theorem take_word_ends {spelling : String} (taken : place.take = (.ok (.word spelling), after)) :
    ∀ c ∈ after.text.head?, continuesWord c = false := by
  obtain ⟨stray, text, source, line, tokenLine⟩ := place
  match stray, text with
  | byte :: stray, text => cases taken
  | [], [] => cases taken
  | [], c :: rest =>
    simp only [take] at taken
    split at taken
    · cases taken
      intro d first
      have stops := List.head?_dropWhile_not continuesWord rest
      rw [first] at stops
      exact stops
    split at taken
    · cases taken
    split at taken
    · split at taken <;> cases taken
    split at taken
    · split at taken
      · split at taken <;> cases taken
      · cases taken
    split at taken <;> cases taken

end Reader

namespace Lexeme

theorem Written.eq_of_word {spelling : String} {written : List Char}
    (isWritten : (Lexeme.word spelling).Written written) : written = spelling.toList := by
  cases isWritten with
  | word => exact String.toList_ofList.symm

/-- A word that was taken is an identifier, if it is spelled like no keyword. -/
theorem identifier_madeOf {spelling : String} {place after : Reader}
    (taken : place.take = (.ok (.word spelling), after)) (free : Keyword.ofSpelling? spelling = none) :
    Atom.identifier.MadeOf spelling place after := by
  obtain ⟨written, whole, isWritten | ⟨cutOff, -⟩⟩ := Reader.take_unread taken (by simp)
  · cases isWritten.eq_of_word
    exact .identifier isWritten whole (Reader.take_word_ends taken) free
  · cases cutOff

/-- A string that was taken is closed by its first quote that nothing protects, or by nothing. -/
theorem string_madeOf {text : String} {place after : Reader}
    (taken : place.take = (.ok (.string text), after)) : Atom.string.MadeOf text place after := by
  have passing {body : List Char} {memory : Bool} (passes : Closer.quote.after false body = some memory) :
      QuotesProtected (String.ofList body).toList := by
    rw [String.toList_ofList, ← Closer.quote_after_isSome_iff, passes]
    rfl
  obtain ⟨written, whole, isWritten | ⟨cutOff, nothing⟩⟩ := Reader.take_unread taken (by simp)
  · cases isWritten with
    | @string body quotable =>
      have passes := Closer.quote_after_of_quotable quotable
      have first := passing passes
      refine .string first ?_ (by rw [String.toList_ofList]; exact whole)
      rw [String.toList_ofList] at first ⊢
      rw [Closer.quote_after_of_protected first] at passes
      simpa using passes
  · obtain ⟨body, last, same, rfl, passes⟩ := cutOff.passes
    cases same
    refine .cutOff (passing passes) ?_ nothing
    rw [String.toList_ofList, whole, nothing, List.append_nil]

/-- The code of a character literal is that of an ASCII character, because it was taken from one byte. -/
theorem token_shaped (reserved : ReservedWords) (vocabulary : Vocabulary) {lexeme : Lexeme}
    {place after : Reader} (taken : place.take = (.ok lexeme, after)) :
    (lexeme.token reserved vocabulary).1.Shaped := by
  cases lexeme with
  | word spelling =>
    simp only [token]
    split
    · exact rfl
    · exact ⟨_, rfl⟩
  | numeral parts =>
    simp only [token]
    rcases parts.value_cases with ⟨whole, n, integer⟩ | ⟨notWhole, x, float⟩
    · rw [whole, integer]
      exact ⟨n, rfl⟩
    · rw [notWhole, float]
      exact ⟨x, rfl⟩
  | string text => exact ⟨_, rfl⟩
  | character c =>
    obtain ⟨written, -, isWritten | ⟨cutOff, -⟩⟩ := Reader.take_unread taken (by simp)
    · cases isWritten with
      | character oneByte =>
        have ascii : c.toNat < 128 := Utf8.utf8Size_eq_one_iff.mp oneByte
        have code : (Int64.ofNat c.toNat).toInt = c.toNat := Int64.toInt_ofNat_of_lt (by omega)
        refine ⟨_, rfl, ?_, ?_⟩ <;> omega
    · cases cutOff
  | symbol mark => exact rfl
  | endOfInput => exact rfl

end Lexeme

namespace Scanner

variable {scanner after : Scanner} {token : Token}

theorem next_shaped (taken : scanner.next = (.ok token, after)) : token.Shaped := by
  obtain ⟨lexeme, reader, read, rfl, -⟩ := next_ok taken
  obtain ⟨place, -, taken⟩ := Reader.next_ok read
  exact lexeme.token_shaped _ _ taken

/-- A handle that a request gives leads to the text that the request has read. -/
theorem next_madeOf (fits : scanner.reserved.Fits scanner.vocabulary) {atom : Atom} {handle : Word}
    (taken : scanner.next = (.ok (.valued atom (.word handle)), after))
    (roomy : after.vocabulary.size ≤ 2 ^ 32) :
    ∃ place text, scanner.reader.settle = (none, place) ∧ atom.MadeOf text place after.reader ∧
      after.vocabulary.text? handle = some text := by
  obtain ⟨lexeme, reader, read, same, rfl⟩ := next_ok taken
  obtain ⟨place, settled, here⟩ := Reader.next_ok read
  have told := lexeme.token_told fits roomy
  rw [← same] at told
  generalize given : Token.valued atom (.word handle) = token at told
  cases told with
  | identifier free named =>
    cases given
    exact ⟨place, _, settled, Lexeme.identifier_madeOf here free, named⟩
  | string named =>
    cases given
    exact ⟨place, _, settled, Lexeme.string_madeOf here, named⟩
  | numeral parts =>
    simp only [Token.valued, Token.mk.injEq, Option.some.injEq] at given
    rcases parts.value_cases with ⟨-, n, integer⟩ | ⟨-, x, float⟩
    · rw [integer] at given
      cases given.2
    · rw [float] at given
      cases given.2
  | keyword => cases given
  | character => cases given
  | symbol => cases given
  | endOfInput => cases given

/-- A handle that was given keeps its text, whatever is asked later. -/
theorem ask_madeOf (fits : scanner.reserved.Fits scanner.vocabulary) {ask : Ask} {atom : Atom}
    {handle : Word} (given : (scanner.ask ask).1 = some (.ok (.valued atom (.word handle))))
    (roomy : (scanner.ask ask).2.vocabulary.size ≤ 2 ^ 32) :
    ∃ place content, scanner.reader.settle = (none, place) ∧
      atom.MadeOf content place (scanner.ask ask).2.reader ∧
      ∀ more calls,
        (((scanner.ask ask).2.askAll more).2.vocabulary.callAll calls).2.text? handle =
          some content := by
  obtain ⟨taken, finished, after⟩ := ask_ok given
  have room : scanner.next.2.vocabulary.size ≤ 2 ^ 32 := by
    rw [after] at roomy
    exact roomy
  obtain ⟨place, content, settled, made, named⟩ := next_madeOf fits taken room
  have resolved : (scanner.ask ask).2.vocabulary.text? handle = some content := by
    rw [after]
    exact named
  refine ⟨place, content, settled, by rw [after]; exact made, ?_⟩
  intro more calls
  have kept := ((scanner.ask ask).2.askAll_grows more).text? resolved
  exact (Vocabulary.callAll_grows _ calls).text? kept

/-- Every token is well formed, whatever the source and the replies are, whatever was asked before, and
also behind failures; a scanner over bytes gives the same. A token carries a value just when its kind has
one, and a value of the right sort, which is an ASCII code for a character; no token marks a line. A handle
in it leads to what stands at the place where blanks and comments end: the spelling of an identifier, which
is never that of a keyword, or the text between two quotes just as it is written. Whatever is asked later,
the handle keeps this text. -/
theorem tokens_well_formed (before between : List Vocabulary.Call) {order : List Keyword}
    (every : order.Perm Keyword.all) (file text : String) (source : LineSource) (asks : List Ask)
    (ask : Ask) :
    let built := ReservedWords.build order (Vocabulary.empty.callAll before).2
    let known := (built.2.callAll between).2
    let start := Scanner.start built.1 known file text source
    let scanner := (start.askAll asks).2
    let outcome := (scanner.ask ask).1
    let after := (scanner.ask ask).2
    (∃ bytewise further,
      (ByteScanner.start built.1 known file text source).askAll asks =
          some ((start.askAll asks).1, bytewise) ∧
        bytewise.ask ask = some (outcome, further)) ∧
    ∀ token, outcome = some (.ok token) →
      token.kind ≠ .endOfLine ∧ token.value.isSome = token.kind.hasValue ∧ token.Shaped ∧
      (after.vocabulary.size ≤ 2 ^ 32 →
        ∀ atom handle, token = .valued atom (.word handle) →
          ∃ place content, scanner.reader.settle = (none, place) ∧
            atom.MadeOf content place after.reader ∧
            ∀ more calls,
              ((after.askAll more).2.vocabulary.callAll calls).2.text? handle = some content) := by
  intro built known start scanner outcome after
  have fits : scanner.reserved.Fits scanner.vocabulary :=
    askAll_fits (.of_calls before between every) asks
  refine ⟨?bytewise, ?wellFormed⟩
  case bytewise =>
    have mirrors := ByteScanner.start_mirrors built.1 known file text source
    obtain ⟨bytewise, given, mirrors⟩ := mirrors.askAll asks
    obtain ⟨further, next, -⟩ := mirrors.ask ask
    exact ⟨bytewise, further, given, next⟩
  case wellFormed =>
    intro token given
    obtain ⟨taken, -⟩ := ask_ok given
    obtain ⟨noMark, valued⟩ := next_recordable taken
    refine ⟨noMark, valued, next_shaped taken, ?_⟩
    rintro roomy atom handle rfl
    exact ask_madeOf fits given roomy

/-- A word right behind a character that was refused byte by byte, when the steps are over, among keywords
of which one was known before. -/
theorem tokens_well_formed_behind_failures :
    let order := Keyword.all.reverse
    let built := ReservedWords.build order (Vocabulary.empty.callAll [.intern "if"]).2
    let known := (built.2.callAll [.intern "x"]).2
    let start := Scanner.start built.1 known "t.c" "éx1\"a" [.line "b"]
    let scanner := (start.askAll [.next, .step]).2
    let after := (scanner.ask .next).2
    order.Perm Keyword.all ∧ after.vocabulary.size ≤ 2 ^ 32 ∧
      ∃ handle, (scanner.ask .next).1 = some (.ok (.valued .identifier (.word handle))) ∧
        ∃ place content, scanner.reader.settle = (none, place) ∧
          Atom.identifier.MadeOf content place after.reader ∧
          ∀ more calls,
            ((after.askAll more).2.vocabulary.callAll calls).2.text? handle = some content := by
  intro order built known start scanner after
  have every : order.Perm Keyword.all := List.reverse_perm _
  have fits : scanner.reserved.Fits scanner.vocabulary :=
    askAll_fits (.of_calls [.intern "if"] [.intern "x"] every) _
  have roomy : after.vocabulary.size ≤ 2 ^ 32 := by
    have few : known.size ≤ 27 :=
      ReservedWords.size_of_calls_le [.intern "if"] [.intern "x"] order
    have text : start.reader.remaining = 8 := by decide +kernel
    have asked : scanner.vocabulary.size + scanner.reader.remaining ≤ known.size + 8 :=
      text ▸ start.size_askAll_le [.next, .step]
    have further : after.vocabulary.size + after.reader.remaining ≤ _ := scanner.size_next_le
    omega
  have read : scanner.reader.next = (.ok (.word "x1"), ⟨[], ['"', 'a'], [.line "b"], 1, 1⟩) := by
    decide +kernel
  have given : ∃ handle, scanner.next.1 = .ok (.valued .identifier (.word handle)) := by
    have room : scanner.next.2.vocabulary.size ≤ 2 ^ 32 := roomy
    rw [next_of_lexeme read] at room ⊢
    have told := (Lexeme.word "x1").token_told fits room
    generalize ((Lexeme.word "x1").token scanner.reserved scanner.vocabulary).1 = made at told ⊢
    cases told with
    | keyword spelled =>
      have free : Keyword.ofSpelling? "x1" = none := by decide
      rw [free] at spelled
      cases spelled
    | identifier => exact ⟨_, rfl⟩
  obtain ⟨handle, given⟩ := given
  obtain ⟨-, wellFormed⟩ := tokens_well_formed [.intern "if"] [.intern "x"] every "t.c" "éx1\"a"
    [.line "b"] [.next, .step] .next
  obtain ⟨-, -, -, leads⟩ := wellFormed _ (congrArg some given)
  exact ⟨every, roomy, handle, congrArg some given, leads roomy _ handle rfl⟩

end Scanner
end TokenTape
