import TokenTape.Proofs.Reading.Advance
import TokenTape.Proofs.Reading.LongestMatch
import TokenTape.Proofs.Reading.Unread
/-!
Source text as a row of pieces: blanks, comments and lexemes. At each place of a text the grammar
finds one of them (`Piece.Leads`): a comment where one opens, and else the longest lexeme. `Splits`
goes on from piece to piece, so that nothing is left out and nothing is used twice
(`Splits.whole`). `Reader.next` follows it over one span of text (`next_splits`), and refuses a byte
just where no lexeme stands. All places are places between bytes, those inside a character included.
-/
namespace TokenTape

/-- A lexeme stands at the front of the input, or a string that the end cuts off. -/
structure Lexeme.Begins (lexeme : Lexeme) (input : List UInt8) (written : List Char)
    (behind : List UInt8) : Prop where
  whole : input = Utf8.bytesOf written ++ behind
  stands : lexeme.Written written ∨ lexeme.CutOff written ∧ behind = []

theorem Lexeme.Begins.ne_nil {lexeme : Lexeme} {input behind : List UInt8} {written : List Char}
    (begins : lexeme.Begins input written behind) : written ≠ [] := by
  rcases begins.stands with isWritten | ⟨cutOff, -⟩
  · exact isWritten.ne_nil
  · obtain ⟨body, _, -, rfl, -⟩ := cutOff.passes
    exact List.cons_ne_nil _ _

/-- No text is written for the end of input. -/
theorem Lexeme.Begins.ne_endOfInput {lexeme : Lexeme} {input behind : List UInt8}
    {written : List Char} (begins : lexeme.Begins input written behind) : lexeme ≠ .endOfInput := by
  rintro rfl
  rcases begins.stands with isWritten | ⟨cutOff, -⟩
  · cases isWritten
  · cases cutOff

/-- A lexeme stands at the front of the input, and none that stands there too is longer. -/
structure Lexeme.Consumes (lexeme : Lexeme) (input : List UInt8) (written : List Char)
    (behind : List UInt8) : Prop extends lexeme.Begins input written behind where
  longest : ∀ other candidate rest, Lexeme.Begins other input candidate rest →
    candidate.length ≤ written.length

/-- A place where a lexeme is looked for: neither a blank nor a comment starts there. -/
structure AtLexeme (input : List UInt8) : Prop where
  noBlank : ∀ c, isBlank c = true → ¬ Utf8.bytesOf [c] <+: input
  noLineComment : ¬ Utf8.bytesOf ['/', '/'] <+: input
  noBlockComment : ¬ Utf8.bytesOf ['/', '*'] <+: input

/-- What source text is made of. -/
inductive Piece where
  | blank (c : Char)
  | comment (text : List Char)
  | lexeme (lexeme : Lexeme) (text : List Char)

namespace Piece

def text : Piece → List Char
  | .blank c => [c]
  | .comment text => text
  | .lexeme _ text => text

def lexeme? : Piece → Option Lexeme
  | .blank _ => none
  | .comment _ => none
  | .lexeme found _ => some found

/-- The piece that the grammar finds at the front of the input, and what is behind it. -/
inductive Leads : Piece → List UInt8 → List UInt8 → Prop
  | blank {c : Char} (behind : List Char) (isBlank : isBlank c = true) :
      Leads (.blank c) (Utf8.bytesOf (c :: behind)) (Utf8.bytesOf behind)
  | comment {written behind : List Char} (isComment : Comment written behind) :
      Leads (.comment written) (Utf8.bytesOf (written ++ behind)) (Utf8.bytesOf behind)
  | lexeme {lexeme : Lexeme} {input behind : List UInt8} {written : List Char}
      (place : AtLexeme input) (consumes : lexeme.Consumes input written behind) :
      Leads (.lexeme lexeme written) input behind

theorem Leads.whole {piece : Piece} {input behind : List UInt8} (leads : piece.Leads input behind) :
    input = Utf8.bytesOf piece.text ++ behind := by
  cases leads with
  | blank behind => simp [text]
  | comment => exact Utf8.bytesOf_append _ _
  | lexeme _ consumes => exact consumes.whole

end Piece

/-- Piece by piece from the front of the input, up to some place. -/
inductive Splits : List UInt8 → List Piece → List UInt8 → Prop
  | nil (input : List UInt8) : Splits input [] input
  | cons {piece : Piece} {pieces : List Piece} {input middle behind : List UInt8}
      (leads : piece.Leads input middle) (further : Splits middle pieces behind) :
      Splits input (piece :: pieces) behind

namespace Splits

theorem append {first second : List Piece} {input middle behind : List UInt8}
    (before : Splits input first middle) (after : Splits middle second behind) :
    Splits input (first ++ second) behind := by
  induction before with
  | nil => exact after
  | cons leads _ ih => exact .cons leads (ih after)

/-- The pieces, one after the other, are all the input up to the place that was reached. -/
theorem whole {pieces : List Piece} {input behind : List UInt8} (splits : Splits input pieces behind) :
    input = Utf8.bytesOf (pieces.flatMap Piece.text) ++ behind := by
  induction splits with
  | nil => rfl
  | cons leads _ ih =>
    rw [leads.whole, ih, List.flatMap_cons, Utf8.bytesOf_append, List.append_assoc]

end Splits

namespace Body

/-- Without a reply there is none that fails. -/
theorem read_ne_failed (closer : Closer) (memory : Bool) (reversed text : List Char) (reason : String) :
    (read closer memory reversed text []).ending ≠ .failed reason := by
  induction text generalizing memory reversed with
  | nil =>
    rw [read]
    exact BodyEnd.noConfusion
  | cons c text ih =>
    rw [read]
    split
    · exact BodyEnd.noConfusion
    · exact ih _ _

theorem read_source_nil (closer : Closer) (memory : Bool) (reversed text : List Char) :
    (read closer memory reversed text []).source = [] :=
  List.suffix_nil.mp (read_advances closer memory reversed text []).source_suffix

end Body

namespace Piece

/-- A line comment, and the newline behind it. -/
theorem leads_lineComment (text : List Char) :
    ∃ written, (comment written).Leads (Utf8.bytesOf ('/' :: '/' :: text))
      (Utf8.bytesOf (text.dropWhile (· != '\n'))) := by
  have isComment :
      Comment ('/' :: '/' :: text.takeWhile (· != '\n')) (text.dropWhile (· != '\n')) := by
    refine .line ?_ ?_
    · intro member
      have other := List.all_eq_true.mp List.all_takeWhile _ member
      simp at other
    · have stopped := List.head?_dropWhile_not (· != '\n') text
      cases rest : text.dropWhile (· != '\n') with
      | nil => exact Or.inl rfl
      | cons c more => simpa [rest] using stopped
  have leads := Leads.comment isComment
  rw [List.cons_append, List.cons_append, List.takeWhile_append_dropWhile] at leads
  exact ⟨_, leads⟩

/-- A block comment, and what is left behind its body. -/
theorem leads_blockComment (text : List Char) :
    ∃ written, (comment written).Leads (Utf8.bytesOf ('/' :: '*' :: text))
      (Utf8.bytesOf (Body.read .comment false [] text []).text) := by
  have used := Body.read_source_nil .comment false [] text
  have calm := Body.read_ne_failed .comment false [] text
  obtain ⟨written, whole, -, isComment⟩ := Body.read_comment text []
  generalize Body.read .comment false [] text [] = body at used calm whole isComment ⊢
  rw [used, LineSource.text_nil, List.append_nil, List.append_nil] at whole
  rw [used, LineSource.text_nil, List.append_nil] at isComment
  have isComment : Comment written body.text := by
    split at isComment
    · next reason failed => exact absurd failed (calm reason)
    · exact isComment
  have leads := Leads.comment isComment
  rw [← whole] at leads
  exact ⟨written, leads⟩

end Piece

namespace Reader

theorem unread_of_span {reader : Reader} (whole : reader.stray = []) (oneSpan : reader.source = []) :
    reader.unread = Utf8.bytesOf reader.text := by
  rw [unread_of_stray_nil whole, oneSpan, LineSource.text_nil, List.append_nil]

/-- In one span, blanks and comments are passed over piece by piece. -/
theorem settle_splits {reader : Reader} (oneSpan : reader.source = []) :
    reader.settle.1 = none ∧ reader.settle.2.source = [] ∧
      ∃ gap, Splits reader.unread gap reader.settle.2.unread ∧ ∀ piece ∈ gap, piece.lexeme? = none := by
  have ahead {input middle behind : List UInt8} {piece : Piece} (leads : piece.Leads input middle)
      (trivia : piece.lexeme? = none)
      (further : ∃ gap, Splits middle gap behind ∧ ∀ piece ∈ gap, piece.lexeme? = none) :
      ∃ gap, Splits input gap behind ∧ ∀ piece ∈ gap, piece.lexeme? = none := by
    obtain ⟨gap, splits, none⟩ := further
    exact ⟨piece :: gap, .cons leads splits, List.forall_mem_cons.mpr ⟨trivia, none⟩⟩
  fun_induction settle reader with
  | case1 => cases oneSpan
  | case2 => cases oneSpan
  | case3 text source line tokenLine ih =>
    obtain rfl : source = [] := oneSpan
    obtain ⟨calm, left, further⟩ := ih rfl
    obtain ⟨written, leads⟩ := Piece.leads_lineComment text
    rw [unread_of_span rfl rfl] at further ⊢
    exact ⟨calm, left, ahead leads rfl further⟩
  | case4 text source line tokenLine body reader reason failed =>
    obtain rfl : source = [] := oneSpan
    exact absurd failed (Body.read_ne_failed _ _ _ _ _)
  | case5 text source line tokenLine body reader going ih =>
    obtain rfl : source = [] := oneSpan
    have used : body.source = [] := Body.read_source_nil _ _ _ _
    obtain ⟨calm, left, further⟩ := ih used
    obtain ⟨written, leads⟩ := Piece.leads_blockComment text
    rw [unread_of_span rfl used] at further
    rw [unread_of_span rfl rfl]
    exact ⟨calm, left, ahead leads rfl further⟩
  | case6 c text source line tokenLine _ _ blank ih =>
    obtain rfl : source = [] := oneSpan
    obtain ⟨calm, left, further⟩ := ih rfl
    rw [unread_of_span rfl rfl] at further ⊢
    exact ⟨calm, left, ahead (.blank text blank) rfl further⟩
  | case7 => exact ⟨rfl, oneSpan, [], .nil _, List.forall_mem_nil _⟩
  | case8 => exact ⟨rfl, oneSpan, [], .nil _, List.forall_mem_nil _⟩

/-- Inside a character there is no place for text. -/
theorem not_bytesOf_prefix {reader : Reader} (sound : reader.Sound) (inside : reader.stray ≠ [])
    (c : Char) (text : List Char) : ¬ Utf8.bytesOf (c :: text) <+: reader.unread := by
  obtain ⟨byte, stray, left⟩ := List.exists_cons_of_ne_nil inside
  rw [unread, left, List.cons_append]
  exact Utf8.not_bytesOf_prefix (sound.stray byte (by simp [left]))

/-- Where `settle` stops, a lexeme is looked for. -/
theorem Stands.atLexeme {reader : Reader} (stands : reader.Stands) (sound : reader.Sound)
    (oneSpan : reader.source = []) : AtLexeme reader.unread := by
  by_cases whole : reader.stray = []
  · have front {text : List Char} (starts : Utf8.bytesOf text <+: reader.unread) :
        text <+: reader.text := by
      rwa [unread_of_span whole oneSpan, Utf8.bytesOf_prefix_iff] at starts
    rcases stands with inside | ⟨none, -⟩ | ⟨c, rest, text, noBlank, noComment⟩
    · contradiction
    · rw [none] at front
      exact ⟨fun c _ starts => by simpa using front starts, fun starts => by simpa using front starts,
        fun starts => by simpa using front starts⟩
    · rw [text] at front
      refine ⟨?_, ?_, ?_⟩
      · intro d blank starts
        obtain ⟨rfl, -⟩ := List.cons_prefix_cons.mp (front starts)
        rw [blank] at noBlank
        cases noBlank
      · intro starts
        obtain ⟨rfl, second⟩ := List.cons_prefix_cons.mp (front starts)
        obtain ⟨more, rfl⟩ := second
        exact (noComment rfl).1 rfl
      · intro starts
        obtain ⟨rfl, second⟩ := List.cons_prefix_cons.mp (front starts)
        obtain ⟨more, rfl⟩ := second
        exact (noComment rfl).2 rfl
  · have apart := not_bytesOf_prefix sound whole
    exact ⟨fun c _ => apart c [], apart '/' ['/'], apart '/' ['*']⟩

theorem take_ne_unreadable {reader : Reader} (oneSpan : reader.source = []) (reason : String) :
    reader.take.1 ≠ .error (.unreadable reason) := by
  obtain ⟨stray, text, source, line, tokenLine⟩ := reader
  obtain rfl : source = [] := oneSpan
  rcases stray with _ | ⟨byte, stray⟩
  · rcases text with _ | ⟨c, rest⟩
    · rintro ⟨⟩
    · simp only [take]
      split
      · rintro ⟨⟩
      split
      · rintro ⟨⟩
      split
      · split
        · next failed => exact absurd failed (Body.read_ne_failed _ _ _ _ _)
        · rintro ⟨⟩
      split
      · split
        · split <;> rintro ⟨⟩
        · rintro ⟨⟩
      split <;> rintro ⟨⟩
  · rintro ⟨⟩

/-- In one span, the longest lexeme is taken, and a byte is refused where none stands. -/
theorem take_consumes {reader : Reader} (sound : reader.Sound) (oneSpan : reader.source = []) :
    match reader.take.1 with
    | .ok lexeme =>
      lexeme = .endOfInput ∧ reader.unread = [] ∧ reader.take.2.unread = [] ∨
        ∃ written, lexeme.Consumes reader.unread written reader.take.2.unread
    | .error (.fault _) =>
      reader.unread ≠ [] ∧ (∀ lexeme written behind, ¬ Lexeme.Begins lexeme reader.unread written behind) ∧
        reader.take.2.unread = reader.unread.tail
    | .error (.unreadable _) => False := by
  have used : reader.take.2.source = [] := by
    have suffix := (take_advances reader).source_suffix
    rw [oneSpan] at suffix
    exact List.suffix_nil.mp suffix
  -- A lexeme that stands here has one taken that leaves no more behind.
  have reached {lexeme : Lexeme} {written : List Char} {behind : List UInt8} (whole : reader.stray = [])
      (begins : lexeme.Begins reader.unread written behind) :
      ∃ rest taken, reader.text = written ++ rest ∧ reader.take.1 = .ok taken ∧
        reader.take.2.text.length ≤ rest.length := by
    obtain ⟨stray, text, source, line, tokenLine⟩ := reader
    obtain rfl : stray = [] := whole
    obtain rfl : source = [] := oneSpan
    obtain ⟨front, stands⟩ := begins
    rw [unread_of_span rfl rfl] at front
    obtain ⟨rest, rfl, rfl⟩ := Utf8.bytesOf_append_inj front.symm
    rw [Utf8.bytesOf_eq_nil_iff] at stands
    obtain ⟨taken, same, shorter⟩ := take_of_stands stands line tokenLine
    exact ⟨rest, taken, rfl, same, shorter⟩
  match taken : reader.take with
  | (.ok lexeme, after) =>
    rw [taken] at used
    obtain ⟨whole, clean, -, ⟨rfl, none, noMore, -, -⟩ | ⟨written, gone, -, stands⟩⟩ := take_ok taken
    · refine Or.inl ⟨rfl, ?_, ?_⟩
      · rw [unread_of_span whole oneSpan, none]
        rfl
      · rw [unread_of_span clean used, noMore]
        rfl
    · rw [oneSpan, used, LineSource.text_nil, List.append_nil, List.append_nil] at gone
      refine Or.inr ⟨written, ⟨?_, ?_⟩, ?_⟩
      · rw [unread_of_span whole oneSpan, unread_of_span clean used, gone, Utf8.bytesOf_append]
      · refine stands.imp_right fun ⟨cutOff, noMore, _⟩ => ⟨cutOff, ?_⟩
        rw [unread_of_span clean used, noMore]
        rfl
      · intro other candidate behind begins
        obtain ⟨rest, _, text, -, shorter⟩ := reached whole begins
        have lengths := congrArg List.length (gone.symm.trans text)
        simp only [taken, List.length_append] at shorter lengths
        omega
  | (.error (.fault fault), after) =>
    rw [taken] at used
    obtain ⟨-, ⟨_, -, -, same, ⟨byte, left, text, -⟩ | ⟨c, whole, text, left⟩⟩ | ⟨_, _, other, -⟩⟩ :=
      take_error taken
    · have continues : Utf8.isContinuation byte = true := sound.stray byte (by simp [left])
      have inside : reader.stray ≠ [] := by simp [left]
      refine ⟨by simp [unread, left], ?_, ?_⟩
      · intro lexeme written behind begins
        obtain ⟨c, more, rfl⟩ := List.exists_cons_of_ne_nil begins.ne_nil
        exact not_bytesOf_prefix sound inside c more ⟨behind, begins.whole.symm⟩
      · simp [unread, left, text, same]
    · obtain ⟨first, rest, bytes, -⟩ := Utf8.utf8EncodeChar_eq_cons c
      refine ⟨?_, ?_, ?_⟩
      · rw [unread_of_span whole oneSpan, text, ne_eq, Utf8.bytesOf_eq_nil_iff]
        exact List.cons_ne_nil _ _
      · intro lexeme written behind begins
        obtain ⟨_, lexeme, -, found, -⟩ := reached whole begins
        rw [taken] at found
        cases found
      · rw [unread_of_span whole oneSpan, unread, text, left, bytes, used, LineSource.text_nil]
        simp [bytes]
    · cases other
  | (.error (.unreadable reason), after) =>
    exact take_ne_unreadable oneSpan reason (congrArg Prod.fst taken)

/-- The next request, told by the grammar. It passes over blanks and comments up to a place where
neither starts, and takes the longest lexeme there. It refuses the byte at that place just when no
lexeme stands there, and gives the end of input just when nothing is left. -/
theorem next_splits {reader : Reader} (sound : reader.Sound) (oneSpan : reader.source = []) :
    reader.next.2.source = [] ∧
      ∃ gap middle, Splits reader.unread gap middle ∧ (∀ piece ∈ gap, piece.lexeme? = none) ∧
        AtLexeme middle ∧
        match reader.next.1 with
        | .ok lexeme =>
          lexeme = .endOfInput ∧ middle = [] ∧ reader.next.2.unread = [] ∨
            ∃ written, lexeme.Consumes middle written reader.next.2.unread
        | .error (.fault _) =>
          middle ≠ [] ∧ (∀ lexeme written behind, ¬ Lexeme.Begins lexeme middle written behind) ∧
            reader.next.2.unread = middle.tail
        | .error (.unreadable _) => False := by
  obtain ⟨calm, left, gap, splits, trivia⟩ := settle_splits oneSpan
  have later := sound.settle
  have settled : reader.settle = (none, reader.settle.2) := Prod.ext calm rfl
  have place := (settle_stands settled).atLexeme later left
  have same : reader.next = reader.settle.2.take := by
    rw [next, settled]
  have used := (take_advances reader.settle.2).source_suffix
  rw [left] at used
  rw [same]
  exact ⟨List.suffix_nil.mp used, gap, _, splits, trivia, place, take_consumes later left⟩

end Reader
end TokenTape
