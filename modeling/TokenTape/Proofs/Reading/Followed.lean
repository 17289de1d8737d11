import TokenTape.Proofs.Reading.Joined
import TokenTape.Proofs.Reading.Segments
/-!
A newline and more text behind one span of text. Unless the span ends inside a string or a block
comment that is never closed (`EndsOpen`), the lexemes of the span stay what they are, whatever
follows; where the span would end, the reading goes on behind the newline as at the start of a line
(`Reader.next_followed`).
-/
namespace TokenTape

/-- A string or a block comment that is never closed, so that only the end of all input ends it. -/
def Piece.Open : Piece → Prop
  | .blank _ => False
  | .comment text => ∃ body, text = '/' :: '*' :: body ∧ ¬ ['*', '/'] <:+: body
  | .lexeme found text => found.CutOff text

/-- The last piece of the input is never closed. -/
def EndsOpen (input : List UInt8) : Prop :=
  ∃ before piece, Splits input (before ++ [piece]) [] ∧ piece.Open

namespace EndsOpen

theorem of_splits {input middle : List UInt8} {pieces : List Piece} (splits : Splits input pieces middle)
    (endsOpen : EndsOpen middle) : EndsOpen input := by
  obtain ⟨before, piece, further, isOpen⟩ := endsOpen
  refine ⟨pieces ++ before, piece, ?_, isOpen⟩
  rw [List.append_assoc]
  exact splits.append further

theorem of_leads {input middle : List UInt8} {piece : Piece} (leads : piece.Leads input middle)
    (endsOpen : EndsOpen middle) : EndsOpen input :=
  endsOpen.of_splits (.cons leads (.nil _))

/-- A text that ends open has a quote or the opening mark of a block comment in it. -/
theorem mark_mem {text : List Char} (endsOpen : EndsOpen (Utf8.bytesOf text)) :
    '"' ∈ text ∨ ['/', '*'] <:+: text := by
  obtain ⟨before, piece, splits, isOpen⟩ := endsOpen
  have whole := splits.whole
  rw [List.append_nil] at whole
  have same := Utf8.bytesOf_inj whole
  rw [List.flatMap_append, List.flatMap_cons, List.flatMap_nil, List.append_nil] at same
  cases piece with
  | blank c => exact isOpen.elim
  | comment written =>
    obtain ⟨body, rfl, -⟩ := isOpen
    exact Or.inr ⟨before.flatMap Piece.text, body, by simpa [Piece.text] using same.symm⟩
  | lexeme found written =>
    have cutOff : found.CutOff written := isOpen
    obtain ⟨body, _, -, rfl, -⟩ := cutOff.passes
    exact Or.inl (by simp [same, Piece.text])

end EndsOpen

namespace Body

/-- A body that is closed is not touched by what follows. -/
theorem read_followed {closer : Closer} {memory : Bool} {reversed text : List Char}
    (closed : (read closer memory reversed text []).ending = .closed) (more : List Char) :
    read closer memory reversed (text ++ more) [] =
      { read closer memory reversed text [] with
        text := (read closer memory reversed text []).text ++ more } := by
  induction text generalizing memory reversed with
  | nil =>
    rw [read] at closed
    cases closed
  | cons c text ih =>
    rw [List.cons_append]
    rw [read] at closed ⊢
    rw [read]
    split
    · rfl
    · next goes =>
      rw [goes] at closed
      exact ih closed

end Body

/-- A block comment that all input ends is never closed. -/
theorem EndsOpen.of_comment {text : List Char}
    (exhausted : (Body.read .comment false [] text []).ending = .exhausted) :
    EndsOpen (Utf8.bytesOf ('/' :: '*' :: text)) := by
  obtain ⟨passed, closing, last, whole, -, passes, ending⟩ := Body.read_split .comment false [] text []
  simp only [exhausted] at ending
  obtain ⟨rfl, noMore, used⟩ := ending
  rw [noMore, used, LineSource.text_nil, List.append_nil, List.append_nil, List.append_nil,
    List.append_nil] at whole
  obtain ⟨never, -, -⟩ := Closer.of_comment_after passes
  rw [← whole] at never
  have leads := Piece.Leads.comment (.openBlock never)
  rw [List.append_nil] at leads
  exact ⟨[], _, .cons leads (.nil _), text, rfl, never⟩

namespace Reader

/-- The same reader with a newline and more behind its text. -/
def followed (reader : Reader) (more : List Char) : Reader :=
  { reader with text := reader.text ++ '\n' :: more }

/-- Where something stands that is neither a blank nor a comment, nothing is passed over. -/
theorem Stands.settle_eq {reader : Reader} (stands : reader.Stands) :
    reader.settle = (none, reader) := by
  obtain ⟨stray, text, source, line, tokenLine⟩ := reader
  rcases stands with inside | ⟨rfl, rfl⟩ | ⟨c, rest, rfl, noBlank, noComment⟩
  · obtain ⟨byte, stray, rfl⟩ := List.exists_cons_of_ne_nil inside
    exact settle_of_stray_cons byte stray text source line tokenLine
  · cases stray with
    | nil => rw [settle] <;> simp
    | cons byte stray => exact settle_of_stray_cons byte stray [] [] line tokenLine
  · cases stray with
    | nil => exact settle_of_stands (by simp [noBlank]) noComment source line tokenLine
    | cons byte stray => exact settle_of_stray_cons byte stray (c :: rest) source line tokenLine

/-- What stands at the front of a text stands there too when something else follows sooner, as long as that
cannot make a comment of a slash. -/
theorem Stands.before {stop : Char} (noSlash : stop ≠ '/') (noAsterisk : stop ≠ '*') {stray : List UInt8}
    {front rest : List Char} {source : LineSource} {line tokenLine : Nat} (some : front ≠ [])
    (stands : Stands ⟨stray, front ++ rest, source, line, tokenLine⟩) (more : List Char) :
    Stands ⟨stray, front ++ stop :: more, source, line, tokenLine⟩ := by
  obtain ⟨c, front, rfl⟩ := List.exists_cons_of_ne_nil some
  obtain inside | ⟨none, -⟩ | ⟨_, _, same, noBlank, noComment⟩ := stands
  · exact Or.inl inside
  · cases none
  · cases same
    refine Or.inr (Or.inr ⟨c, front ++ stop :: more, rfl, noBlank, ?_⟩)
    intro slash
    cases front with
    | nil => simp [noSlash, noAsterisk]
    | cons d front => exact noComment slash

variable {reader : Reader}

theorem Stands.followed (stands : reader.Stands) (some : reader.text ≠ []) (more : List Char) :
    (reader.followed more).Stands := by
  obtain ⟨stray, text, source, line, tokenLine⟩ := reader
  have whole : Stands ⟨stray, text ++ [], source, line, tokenLine⟩ := by rwa [List.append_nil]
  exact whole.before (by decide) (by decide) some more

theorem settle_of_closed {text : List Char} {source : LineSource}
    (closed : (Body.read .comment false [] text source).ending = .closed) (line tokenLine : Nat) :
    settle ⟨[], '/' :: '*' :: text, source, line, tokenLine⟩ =
      let body := Body.read .comment false [] text source
      settle ⟨[], body.text, body.source, line + body.newlines, line⟩ := by
  rw [settle, closed]

/-- What is passed over in the span is passed over when more follows. -/
theorem settle_followed (oneSpan : reader.source = []) (closed : ¬ EndsOpen reader.unread)
    (more : List Char) : (reader.followed more).settle = (reader.settle.2.followed more).settle := by
  fun_induction settle reader with
  | case1 => cases oneSpan
  | case2 => cases oneSpan
  | case3 text source line tokenLine ih =>
    obtain rfl : source = [] := oneSpan
    rw [unread_of_span rfl rfl] at ih closed
    obtain ⟨written, leads⟩ := Piece.leads_lineComment text
    rw [followed, List.cons_append, List.cons_append, settle, dropWhile_stop (by decide)]
    exact ih rfl fun endsOpen => closed (endsOpen.of_leads leads)
  | case4 text source line tokenLine body reader reason failed =>
    obtain rfl : source = [] := oneSpan
    exact absurd failed (Body.read_ne_failed _ _ _ _ _)
  | case5 text source line tokenLine body reader going ih =>
    obtain rfl : source = [] := oneSpan
    have used : body.source = [] := Body.read_source_nil _ _ _ _
    rw [unread_of_span rfl rfl] at closed
    have isClosed : body.ending = .closed := by
      cases ending : body.ending with
      | closed => rfl
      | exhausted => exact absurd (EndsOpen.of_comment ending) closed
      | failed reason => exact (going reason ending).elim
    obtain ⟨written, leads⟩ := Piece.leads_blockComment text
    rw [unread_of_span rfl used] at ih
    have later := ih used fun endsOpen => closed (endsOpen.of_leads leads)
    have alsoClosed := Body.read_followed isClosed ('\n' :: more)
    rw [← later, followed, List.cons_append, List.cons_append,
      settle_of_closed (by rw [alsoClosed]; exact isClosed), alsoClosed]
    rfl
  | case6 c text source line tokenLine _ _ blank ih =>
    obtain rfl : source = [] := oneSpan
    rw [unread_of_span rfl rfl] at ih closed
    rw [followed, List.cons_append, settle_of_blank blank]
    exact ih rfl fun endsOpen => closed (endsOpen.of_leads (.blank text blank))
  | case7 => rfl
  | case8 => rfl

/-- A string that all input ends is never closed. -/
theorem endsOpen_of_quote {rest : List Char}
    (exhausted : (Body.read .quote false [] rest []).ending = .exhausted) :
    EndsOpen (Utf8.bytesOf ('"' :: rest)) := by
  have stands : Stands ⟨[], '"' :: rest, [], 1, 1⟩ :=
    Or.inr (Or.inr ⟨'"', rest, rfl, rfl, fun slash => absurd slash (by decide)⟩)
  have place := stands.atLexeme ⟨List.forall_mem_nil _, Nat.le_refl _⟩ rfl
  rw [unread_of_span rfl rfl] at place
  obtain ⟨written, whole, -, ending⟩ := Body.read_quote rest []
  simp only [exhausted] at ending
  obtain ⟨cutOff, noMore, used⟩ := ending
  rw [noMore, used, LineSource.text_nil, List.append_nil, List.append_nil, List.append_nil] at whole
  rw [whole] at place ⊢
  refine ⟨[], .lexeme _ written, .cons (.lexeme place ⟨⟨?_, Or.inr ⟨cutOff, rfl⟩⟩, ?_⟩) (.nil []), cutOff⟩
  · rw [List.append_nil]
  · intro other candidate behind begins
    obtain ⟨more, rfl, -⟩ := Utf8.bytesOf_append_inj begins.whole.symm
    rw [List.length_append]
    exact Nat.le_add_right _ _

/-- A character literal is taken with both its quotes, so what follows makes no difference. -/
theorem take_literal_append {rest : List Char} {after : Reader} {lexeme : Lexeme}
    {line tokenLine : Nat}
    (taken : take ⟨[], '\'' :: rest, [], line, tokenLine⟩ = (.ok lexeme, after)) (more : List Char) :
    take ⟨[], '\'' :: (rest ++ more), [], line, tokenLine⟩ =
      (.ok lexeme, { after with text := after.text ++ more }) := by
  by_cases closes : ∃ code behind, rest = code :: '\'' :: behind
  · obtain ⟨code, behind, rfl⟩ := closes
    rw [take_of_closed] at taken
    rw [List.cons_append, List.cons_append, take_of_closed]
    split at taken
    · next oneByte =>
      cases taken
      rw [if_pos oneByte]
    · cases taken
  · rw [take_of_unclosed fun code behind same => closes ⟨code, behind, same⟩] at taken
    cases taken

/-- A lexeme that is taken from all of a text is taken when a separating character and more follow,
unless it is a string that is not closed. -/
theorem take_separated {stop : Char} (separates : Separates stop) {front : List Char} {after : Reader}
    {lexeme : Lexeme} {line tokenLine : Nat}
    (closed : ∀ rest, front = '"' :: rest → (Body.read .quote false [] rest []).ending = .closed)
    (taken : take ⟨[], front, [], line, tokenLine⟩ = (.ok lexeme, after))
    (some : lexeme ≠ .endOfInput) (more : List Char) :
    take ⟨[], front ++ stop :: more, [], line, tokenLine⟩ =
      (.ok lexeme, { after with text := after.text ++ stop :: more }) := by
  match front with
  | [] =>
    cases taken
    contradiction
  | c :: rest =>
    by_cases quote : c = '"'
    · subst c
      have isClosed := closed rest rfl
      rw [take_of_quote] at taken
      simp only [isClosed] at taken
      cases taken
      rw [List.cons_append, take_of_quote, Body.read_followed isClosed]
      simp only [isClosed]
      rfl
    by_cases mark : c = '\''
    · subst c
      exact take_literal_append taken _
    simp only [List.cons_append, take] at taken ⊢
    rw [if_neg quote, if_neg mark] at taken ⊢
    by_cases word : startsWord c = true
    · rw [if_pos word] at taken ⊢
      cases taken
      rw [takeWhile_stop separates.word, dropWhile_stop separates.word]
    rw [if_neg word] at taken ⊢
    by_cases digit : c.isDigit = true
    · rw [if_pos digit] at taken ⊢
      cases taken
      rw [← List.cons_append, Numeral.read_stopsAt separates]
    rw [if_neg digit] at taken ⊢
    rw [Symbol.front?_stop separates]
    cases found : Symbol.front? (c :: rest) with
    | none =>
      rw [found] at taken
      cases taken
    | some symbol =>
      rw [found] at taken
      cases taken
      rfl

/-- The lexeme that is taken from the span is taken when more follows. -/
theorem take_followed {after : Reader} {lexeme : Lexeme} (oneSpan : reader.source = [])
    (closed : ¬ EndsOpen reader.unread) (taken : reader.take = (.ok lexeme, after))
    (some : lexeme ≠ .endOfInput) (more : List Char) :
    (reader.followed more).take = (.ok lexeme, after.followed more) := by
  obtain ⟨stray, text, source, line, tokenLine⟩ := reader
  obtain rfl : source = [] := oneSpan
  cases stray with
  | cons byte stray => cases taken
  | nil =>
    refine take_separated newline_separates ?_ taken some more
    rintro rest rfl
    rw [unread_of_span rfl rfl] at closed
    cases ending : (Body.read .quote false [] rest []).ending with
    | closed => rfl
    | exhausted => exact absurd (endsOpen_of_quote ending) closed
    | failed reason => exact absurd ending (Body.read_ne_failed _ _ _ _ _)

theorem next_of_span (oneSpan : reader.source = []) : reader.next = reader.settle.2.take := by
  have settled : reader.settle = (none, reader.settle.2) :=
    Prod.ext (settle_splits oneSpan).1 rfl
  rw [next, settled]

theorem next_source_nil (oneSpan : reader.source = []) : reader.next.2.source = [] := by
  have used := (next_advances reader).source_suffix
  rw [oneSpan] at used
  exact List.suffix_nil.mp used

/-- One span of text that does not end inside a string or a block comment. -/
structure Closed (reader : Reader) : Prop where
  sound : reader.Sound
  oneSpan : reader.source = []
  closed : ¬ EndsOpen reader.unread

/-- Behind a lexeme, the rest of the span does not end open either. -/
theorem Closed.next {after : Reader} {lexeme : Lexeme} (span : reader.Closed)
    (read : reader.next = (.ok lexeme, after)) (some : lexeme ≠ .endOfInput) : after.Closed := by
  obtain ⟨left, gap, middle, splits, -, here, given⟩ := next_splits span.sound span.oneSpan
  rw [read] at left given
  refine ⟨(next_turn span.sound read).2, left, fun endsOpen => span.closed ?_⟩
  rcases given with ⟨last, -⟩ | ⟨written, consumes⟩
  · exact absurd last some
  · exact (endsOpen.of_leads (.lexeme here consumes)).of_splits splits

/-- Behind the end of input, nothing is left of the span. -/
theorem unread_of_endOfInput {after : Reader} (span : reader.Closed)
    (read : reader.next = (.ok .endOfInput, after)) : after.unread = [] := by
  obtain ⟨-, gap, middle, -, -, -, given⟩ := next_splits span.sound span.oneSpan
  rw [read] at given
  rcases given with ⟨-, -, none⟩ | ⟨written, consumes⟩
  · exact none
  · exact absurd rfl consumes.ne_endOfInput

/-- A lexeme of the span is read when more follows. -/
theorem next_followed {after : Reader} {lexeme : Lexeme} (span : reader.Closed)
    (read : reader.next = (.ok lexeme, after)) (some : lexeme ≠ .endOfInput) (more : List Char) :
    (reader.followed more).next = (.ok lexeme, after.followed more) := by
  obtain ⟨-, oneSpan, closed⟩ := span
  obtain ⟨calm, left, gap, splits, -⟩ := settle_splits oneSpan
  rw [next_of_span oneSpan] at read
  have stands : reader.settle.2.Stands := settle_stands (Prod.ext calm rfl)
  have here : reader.settle.2.text ≠ [] := by
    intro none
    have whole := (take_ok read).1
    generalize reader.settle.2 = stopped at none whole read
    obtain ⟨stray, text, source, line, tokenLine⟩ := stopped
    obtain rfl : stray = [] := whole
    obtain rfl : text = [] := none
    cases read
    contradiction
  rw [next, settle_followed oneSpan closed, (stands.followed here more).settle_eq]
  exact take_followed left (fun endsOpen => closed (endsOpen.of_splits splits)) read some more

/-- Where the span ends, the reading goes on behind the newline. -/
theorem next_followed_end {after : Reader} (span : reader.Closed)
    (read : reader.next = (.ok .endOfInput, after)) (more : List Char) :
    ∃ tokenLine, (reader.followed more).next = next ⟨[], more, [], after.line + 1, tokenLine⟩ := by
  obtain ⟨-, oneSpan, closed⟩ := span
  obtain ⟨-, left, -⟩ := settle_splits oneSpan
  rw [next_of_span oneSpan] at read
  have passed := settle_followed oneSpan closed more
  obtain ⟨whole, -, -, ⟨-, none, -, -, line⟩ | ⟨written, -, -, isWritten | ⟨cutOff, -⟩⟩⟩ := take_ok read
  · generalize reader.settle.2 = stopped at whole none left line passed
    obtain ⟨stray, text, source, reached, tokenLine⟩ := stopped
    obtain rfl : stray = [] := whole
    obtain rfl : text = [] := none
    obtain rfl : source = [] := left
    have resumed : (followed ⟨[], [], [], reached, tokenLine⟩ more).settle =
        settle ⟨[], more, [], reached + 1, tokenLine⟩ := settle_of_blank rfl _ _ _ _
    refine ⟨tokenLine, ?_⟩
    rw [next, passed, resumed, line]
    rfl
  · cases isWritten
  · cases cutOff

end Reader
end TokenTape
