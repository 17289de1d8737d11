import TokenTape.Proofs.Reading.Below
/-!
A comment in one span of text, and a space in its place. Both are passed over, and where a lexeme goes up
to the comment, the slash that opens the comment stops it just as the space does; neither can be a part of
it (`Reader.next_blanked`). So all that a reader finds before the comment is found before the space, and
behind either of them the same text is left.
-/
namespace TokenTape

/-! ## Comments -/

namespace Comment

variable {written behind : List Char}

theorem slash (isComment : Comment written behind) : ∃ rest, written = '/' :: rest := by
  cases isComment <;> exact ⟨_, rfl⟩

/-- A comment is passed over, and its newlines are counted. -/
theorem settle (isComment : Comment written behind) (line tokenLine : Nat) :
    Reader.settle ⟨[], written ++ behind, [], line, tokenLine⟩ =
      Reader.settle ⟨[], behind, [], line + written.count '\n', line⟩ := by
  cases isComment with
  | @line body _ oneLine ends =>
    have passed : (body ++ behind).dropWhile (· != '\n') = behind := by
      have inside : ∀ c ∈ body, (c != '\n') = true := by
        rintro c member
        rw [bne_iff_ne]
        rintro rfl
        exact oneLine member
      rw [List.dropWhile_append_of_pos inside]
      rcases ends with rfl | newline
      · rfl
      · obtain ⟨more, rfl⟩ := List.head?_eq_some_iff.mp newline
        rfl
    have none : ('/' :: '/' :: body).count '\n' = 0 := List.count_eq_zero.mpr (by simpa using oneLine)
    rw [List.cons_append, List.cons_append, Reader.settle, passed, none, Nat.add_zero]
  | @block body _ first =>
    have passes : Closer.comment.after false (body ++ ['*']) = some true := by
      rw [Closer.after_append, Closer.comment_after_of_unmarked first, Option.bind_some,
        Closer.after_cons]
      simp [Closer.comment]
    have read : Body.read .comment false [] (body ++ ['*', '/'] ++ behind) [] =
        ⟨.closed, (body ++ ['*']).reverse, behind, []⟩ := by
      have whole : body ++ ['*', '/'] ++ behind = body ++ ['*'] ++ '/' :: behind := by simp
      rw [whole, Body.read_append passes, List.append_nil, Body.read]
      rfl
    have newlines : ('/' :: '*' :: (body ++ ['*', '/'])).count '\n' = (body ++ ['*']).reverse.count '\n' := by
      simp [List.count_append]
    rw [newlines, List.cons_append, List.cons_append, Reader.settle, read]
    rfl
  | @openBlock body never =>
    have read : Body.read .comment false [] body [] = ⟨.exhausted, body.reverse, [], []⟩ := by
      have goesOn := Body.read_append (Closer.comment_after_of_unmarked never) [] [] []
      rwa [List.append_nil, List.append_nil, Body.read] at goesOn
    have newlines : ('/' :: '*' :: body).count '\n' = body.reverse.count '\n' := by simp
    rw [newlines, List.append_nil, Reader.settle, read]
    rfl

theorem next (isComment : Comment written behind) (line tokenLine : Nat) :
    Reader.next ⟨[], written ++ behind, [], line, tokenLine⟩ =
      Reader.next ⟨[], behind, [], line + written.count '\n', line⟩ := by
  rw [Reader.next, isComment.settle, Reader.next]

/-- A comment before another one is the same comment before a space in its place: a line comment goes up
to a newline between the two, and one that is not closed has none behind it. -/
theorem blanked {front comment : List Char} (isComment : Comment written (front ++ (comment ++ behind)))
    (met : Comment comment behind) : Comment written (front ++ ' ' :: behind) := by
  obtain ⟨rest, rfl⟩ := met.slash
  generalize same : front ++ ('/' :: rest ++ behind) = further at isComment
  cases isComment with
  | line oneLine ends =>
    refine .line oneLine (Or.inr ?_)
    cases front with
    | nil =>
      subst same
      rcases ends with none | newline
      · cases none
      · cases newline
    | cons c front =>
      subst same
      rcases ends with none | newline
      · cases none
      · exact newline
  | block _ first => exact .block _ first
  | openBlock never => simp at same

end Comment

/-! ## Pieces before a comment -/

namespace Piece.Leads

variable {text behind : List Char} {input middle : List UInt8}

theorem isComment (leads : (Piece.comment text).Leads input (Utf8.bytesOf behind)) : Comment text behind := by
  generalize same : Utf8.bytesOf behind = left at leads
  cases leads with
  | comment isComment => rwa [Utf8.bytesOf_inj same]

theorem isBlank {c : Char} (leads : (Piece.blank c).Leads input middle) : isBlank c = true := by
  cases leads with
  | blank _ isBlank => exact isBlank

theorem consumes {lexeme : Lexeme} (leads : (Piece.lexeme lexeme text).Leads input middle) :
    AtLexeme input ∧ lexeme.Consumes input text middle := by
  cases leads with
  | lexeme place consumes => exact ⟨place, consumes⟩

end Piece.Leads

/-- A row of pieces that ends with a comment. -/
theorem Splits.isComment {input : List UInt8} {before : List Piece} {comment behind : List Char}
    (splits : Splits input (before ++ [.comment comment]) (Utf8.bytesOf behind)) :
    Comment comment behind ∧
      input = Utf8.bytesOf (before.flatMap Piece.text ++ (comment ++ behind)) := by
  refine ⟨?_, ?_⟩
  · induction before generalizing input with
    | nil =>
      obtain _ | ⟨leads, further⟩ := splits
      cases further
      exact leads.isComment
    | cons piece before ih =>
      obtain _ | ⟨leads, further⟩ := splits
      exact ih further
  · rw [splits.whole, ← Utf8.bytesOf_append]
    simp [Piece.text]

/-! ## Lexemes before a comment -/

theorem AtLexeme.stands {text : List Char} (here : AtLexeme (Utf8.bytesOf text)) (some : text ≠ [])
    (line tokenLine : Nat) : Reader.Stands ⟨[], text, [], line, tokenLine⟩ := by
  obtain ⟨noBlank, noLine, noBlock⟩ := here
  simp only [Utf8.bytesOf_prefix_iff] at noBlank noLine noBlock
  obtain ⟨c, rest, rfl⟩ := List.exists_cons_of_ne_nil some
  refine Or.inr (Or.inr ⟨c, rest, rfl, ?_, ?_⟩)
  · rw [Bool.eq_false_iff]
    intro blank
    exact noBlank c blank ⟨rest, rfl⟩
  · rintro rfl
    constructor
    · intro slash
      obtain ⟨more, rfl⟩ := List.head?_eq_some_iff.mp slash
      exact noLine ⟨more, rfl⟩
    · intro asterisk
      obtain ⟨more, rfl⟩ := List.head?_eq_some_iff.mp asterisk
      exact noBlock ⟨more, rfl⟩

namespace Reader

theorem next_of_blank {c : Char} (blank : isBlank c = true) (text : List Char) (source : LineSource)
    (line tokenLine : Nat) :
    next ⟨[], c :: text, source, line, tokenLine⟩ =
      next ⟨[], text, source, lineAfter line c, tokenLine⟩ := by
  rw [next, settle_of_blank blank, next]

end Reader

namespace Body

theorem read_text_suffix (closer : Closer) (memory : Bool) (reversed text : List Char) :
    (read closer memory reversed text []).text <:+ text := by
  have advances := read_advances closer memory reversed text []
  rw [read_source_nil] at advances
  cases advances with
  | within suffix => exact suffix

/-- A body that is closed before the last part of a text is closed without it. -/
theorem closed_of_within {closer : Closer} {memory : Bool} {reversed text more : List Char}
    (some : more ≠ [])
    (within : more.length ≤ (read closer memory reversed (text ++ more) []).text.length) :
    (read closer memory reversed text []).ending = .closed := by
  induction text generalizing memory reversed with
  | nil =>
    -- Reading uses up at least one character of what is not empty.
    obtain ⟨c, more, rfl⟩ := List.exists_cons_of_ne_nil some
    rw [List.nil_append, read, List.length_cons] at within
    split at within
    · exact absurd within (Nat.not_succ_le_self _)
    · next memory' _ =>
      have left := (read_text_suffix closer memory' (c :: reversed) more).length_le
      exact absurd (Nat.le_trans within left) (Nat.not_succ_le_self _)
  | cons c text ih =>
    rw [List.cons_append, read] at within
    rw [read]
    split at within
    · rfl
    · exact ih within

end Body

namespace Reader

variable {stop : Char} {front : List Char} {lexeme : Lexeme} {after : Reader} {line tokenLine : Nat}

/-- A string that leaves all of the last part of a text is closed before it. -/
theorem quote_closed_of_within {rest more : List Char} (some : more ≠ [])
    (taken : take ⟨[], '"' :: (rest ++ more), [], line, tokenLine⟩ = (.ok lexeme, after))
    (within : more.length ≤ after.text.length) :
    (Body.read .quote false [] rest []).ending = .closed := by
  refine Body.closed_of_within some ?_
  rw [take_of_quote] at taken
  dsimp only at taken
  split at taken
  · cases taken
  · cases taken
    exact within

/-- A character literal that leaves all of the last part of a text is taken without that part. -/
theorem take_literal_of_within {rest more : List Char} (some : more ≠ [])
    (taken : take ⟨[], '\'' :: (rest ++ more), [], line, tokenLine⟩ = (.ok lexeme, after))
    (within : more.length ≤ after.text.length) :
    ∃ found left, take ⟨[], '\'' :: rest, [], line, tokenLine⟩ = (.ok found, left) := by
  have size := List.length_pos_iff.mpr some
  by_cases closes : ∃ code behind, rest ++ more = code :: '\'' :: behind
  · obtain ⟨code, behind, whole⟩ := closes
    rw [whole, take_of_closed] at taken
    split at taken
    · next oneByte =>
      cases taken
      have lengths := congrArg List.length whole
      simp only [List.length_append, List.length_cons] at lengths within
      -- Both the character and the closing quote stand before the last part.
      rcases rest with _ | ⟨d, _ | ⟨e, rest⟩⟩
      · simp only [List.length_nil] at lengths
        omega
      · simp only [List.length_cons, List.length_nil] at lengths
        omega
      · cases whole
        rw [take_of_closed, if_pos oneByte]
        exact ⟨_, _, rfl⟩
    · cases taken
  · rw [take_of_unclosed fun code behind same => closes ⟨code, behind, same⟩] at taken
    cases taken

/-- A lexeme that leaves all of the last part of a text, which starts with a separating character, is
taken without that part. -/
theorem take_front (separates : Separates stop) {more : List Char} (some : front ≠ [])
    (taken : take ⟨[], front ++ stop :: more, [], line, tokenLine⟩ = (.ok lexeme, after))
    (within : (stop :: more).length ≤ after.text.length) :
    (∃ found left, take ⟨[], front, [], line, tokenLine⟩ = (.ok found, left)) ∧
      ∀ rest, front = '"' :: rest → (Body.read .quote false [] rest []).ending = .closed := by
  obtain ⟨c, rest, rfl⟩ := List.exists_cons_of_ne_nil some
  rw [List.cons_append] at taken
  have lastPart : stop :: more ≠ [] := List.cons_ne_nil stop more
  by_cases quote : c = '"'
  · subst c
    have closed := quote_closed_of_within lastPart taken within
    refine ⟨?_, fun _ same => (List.cons.inj same).2 ▸ closed⟩
    rw [take_of_quote]
    simp only [closed]
    exact ⟨_, _, rfl⟩
  refine ⟨?_, fun _ same => absurd (List.cons.inj same).1 quote⟩
  by_cases mark : c = '\''
  · subst c
    exact take_literal_of_within lastPart taken within
  simp only [take] at taken ⊢
  rw [if_neg quote, if_neg mark] at taken ⊢
  split
  · exact ⟨_, _, rfl⟩
  · next word =>
    rw [if_neg word] at taken
    split
    · exact ⟨_, _, rfl⟩
    · next digit =>
      rw [if_neg digit, Symbol.front?_stop separates] at taken
      cases found : Symbol.front? (c :: rest) with
      | none =>
        rw [found] at taken
        cases taken
      | some symbol => exact ⟨_, _, rfl⟩

/-- A lexeme that is taken in front of a separating character is taken in front of any other one. -/
theorem take_of_separated (separates : Separates stop) {more : List Char} (some : front ≠ [])
    (taken : take ⟨[], front ++ stop :: more, [], line, tokenLine⟩ = (.ok lexeme, after))
    (within : (stop :: more).length ≤ after.text.length) {other : Char} (also : Separates other)
    (further : List Char) :
    ∃ left, after.text = left ++ stop :: more ∧
      take ⟨[], front ++ other :: further, [], line, tokenLine⟩ =
        (.ok lexeme, { after with text := left ++ other :: further }) := by
  obtain ⟨⟨found, left, alone⟩, closed⟩ := take_front separates some taken within
  have notEnd : found ≠ .endOfInput := by
    rintro rfl
    obtain ⟨-, -, -, ⟨-, none, -⟩ | ⟨_, -, -, written | ⟨cutOff, -⟩⟩⟩ := take_ok alone
    · exact some none
    · cases written
    · cases cutOff
  have same := take_separated separates closed alone notEnd more
  rw [taken] at same
  cases same
  exact ⟨left.text, rfl, take_separated also closed alone notEnd further⟩

/-- Where a lexeme of the grammar stands, just its text is taken. -/
theorem take_consumed {written further : List Char}
    (consumes : lexeme.Consumes (Utf8.bytesOf (written ++ further)) written (Utf8.bytesOf further))
    (line : Nat) :
    ∃ found reached, found ≠ .endOfInput ∧
      take ⟨[], written ++ further, [], line, line⟩ =
        (.ok found, ⟨[], further, [], reached, line⟩) := by
  let reader : Reader := ⟨[], written ++ further, [], line, line⟩
  have ahead : reader.unread = Utf8.bytesOf (written ++ further) := unread_of_span rfl rfl
  have sound : reader.Sound := ⟨List.forall_mem_nil _, Nat.le_refl _⟩
  have given := take_consumes sound rfl
  have used := (take_advances reader).source_suffix
  rw [ahead] at given
  match taken : reader.take with
  | (.ok found, after) =>
    rw [taken] at given used
    obtain ⟨-, clean, starts, -⟩ := take_ok taken
    obtain ⟨stray, text, source, reached, starting⟩ := after
    obtain rfl : stray = [] := clean
    obtain rfl : source = [] := List.suffix_nil.mp used
    obtain rfl : starting = line := starts
    rcases given with ⟨-, none, -⟩ | ⟨other, also⟩
    · exact absurd (List.append_eq_nil_iff.mp (Utf8.bytesOf_eq_nil_iff.mp none)).1 consumes.ne_nil
    · rw [unread_of_span rfl rfl] at also
      -- Both are longest, so they are the same text.
      have size := Nat.le_antisymm (consumes.longest _ _ _ also.toBegins)
        (also.longest _ _ _ consumes.toBegins)
      have same := also.whole
      rw [← Utf8.bytesOf_append] at same
      obtain ⟨rfl, rfl⟩ := List.append_inj (Utf8.bytesOf_inj same) size.symm
      exact ⟨found, reached, also.ne_endOfInput, rfl⟩
  | (.error (.fault fault), after) =>
    rw [taken] at given
    exact absurd consumes.toBegins (given.2.1 _ _ _)
  | (.error (.unreadable reason), after) =>
    rw [taken] at given
    exact given.elim

/-- Where a lexeme is taken, the grammar finds it with all the text that is used up. -/
theorem leads_of_take {written further : List Char} {reached : Nat}
    (stands : Stands ⟨[], written ++ further, [], line, line⟩) (some : lexeme ≠ .endOfInput)
    (taken : take ⟨[], written ++ further, [], line, line⟩ =
      (.ok lexeme, ⟨[], further, [], reached, line⟩)) :
    (Piece.lexeme lexeme written).Leads (Utf8.bytesOf (written ++ further)) (Utf8.bytesOf further) := by
  have sound : Sound ⟨[], written ++ further, [], line, line⟩ :=
    ⟨List.forall_mem_nil _, Nat.le_refl _⟩
  have place := stands.atLexeme sound rfl
  have given := take_consumes sound rfl
  simp only [taken] at given
  rw [unread_of_span rfl rfl] at place given
  rw [unread_of_span rfl rfl] at given
  obtain ⟨last, -⟩ | ⟨other, consumes⟩ := given
  · exact absurd last some
  · have whole := consumes.whole
    rw [← Utf8.bytesOf_append] at whole
    rw [← List.append_cancel_right (Utf8.bytesOf_inj whole)] at consumes
    exact .lexeme place consumes

/-- A lexeme before a comment is read alike before a space in its place. -/
theorem next_blanked {written front comment behind : List Char}
    (here : AtLexeme (Utf8.bytesOf (written ++ (front ++ (comment ++ behind)))))
    (consumes : lexeme.Consumes (Utf8.bytesOf (written ++ (front ++ (comment ++ behind)))) written
      (Utf8.bytesOf (front ++ (comment ++ behind))))
    (met : Comment comment behind) (line tokenLine : Nat) :
    ∃ found reached, found ≠ .endOfInput ∧
      next ⟨[], written ++ (front ++ (comment ++ behind)), [], line, tokenLine⟩ =
        (.ok found, ⟨[], front ++ (comment ++ behind), [], reached, line⟩) ∧
      next ⟨[], written ++ (front ++ ' ' :: behind), [], line, tokenLine⟩ =
        (.ok found, ⟨[], front ++ ' ' :: behind, [], reached, line⟩) := by
  have some : written ++ front ≠ [] := List.append_ne_nil_of_left_ne_nil consumes.ne_nil front
  obtain ⟨found, reached, notEnd, taken⟩ := take_consumed consumes line
  have stands := here.stands (List.append_ne_nil_of_left_ne_nil consumes.ne_nil _) line tokenLine
  refine ⟨found, reached, notEnd, ?_, ?_⟩
  · rw [next, stands.settle_eq]
    exact taken
  · obtain ⟨rest, rfl⟩ := met.slash
    rw [← List.append_assoc] at stands taken ⊢
    have within : ('/' :: (rest ++ behind)).length ≤ (front ++ '/' :: (rest ++ behind)).length := by simp
    obtain ⟨left, same, also⟩ :=
      take_of_separated slash_separates some taken within space_separates behind
    rw [next, (stands.before (by decide) (by decide) some behind).settle_eq]
    rw [← List.append_cancel_right same] at also
    exact also

end Reader

end TokenTape
