import TokenTape.Proofs.Reading.Joined
import TokenTape.Proofs.Reading.SpanBodies
import TokenTape.Proofs.Reading.Unread
/-!
A span gives what a reader gives. Where blanks and comments end, one lexeme is taken or one byte is
refused; of a refused character the other bytes are left, and each of them is refused in its turn
(`Span.Tracks`). No check fails on the way, whatever was given before (`Span.Tracks.next`).
-/
namespace TokenTape

namespace Symbol

theorem ascii_of_pair? {c d : Char} {symbol : Symbol} (found : pair? c d = some symbol) :
    c.toNat < 128 ∧ d.toNat < 128 := by
  unfold pair? at found
  split at found <;> first | exact ⟨by decide, by decide⟩ | cases found

theorem ascii_of_single? {c : Char} {symbol : Symbol} (found : single? c = some symbol) :
    c.toNat < 128 := by
  unfold single? at found
  split at found <;> first | decide | cases found

theorem pair?_of_wide_left {c : Char} (wide : 128 ≤ c.toNat) (d : Char) : pair? c d = none := by
  rw [Option.eq_none_iff_forall_ne_some]
  exact fun _ found => absurd (ascii_of_pair? found).1 (Nat.not_lt.mpr wide)

theorem pair?_of_wide_right (c : Char) {d : Char} (wide : 128 ≤ d.toNat) : pair? c d = none := by
  rw [Option.eq_none_iff_forall_ne_some]
  exact fun _ found => absurd (ascii_of_pair? found).2 (Nat.not_lt.mpr wide)

theorem single?_of_wide {c : Char} (wide : 128 ≤ c.toNat) : single? c = none := by
  rw [Option.eq_none_iff_forall_ne_some]
  exact fun _ found => absurd (ascii_of_single? found) (Nat.not_lt.mpr wide)

theorem ascii_of_mem_spelling {symbol : Symbol} : ∀ c ∈ symbol.spelling, c.toNat < 128 := by
  cases symbol <;> simp [spelling]

theorem newline_not_mem_spelling (symbol : Symbol) : '\n' ∉ symbol.spelling := by
  cases symbol <;> decide

/-- The symbol at the front is a pair if there is one. -/
theorem front?_cons (c : Char) (text : List Char) :
    front? (c :: text) =
      match text.head?.bind (pair? c) with
      | some symbol => some (symbol, text.tail)
      | none => (single? c).map (·, text) := by
  cases text <;> rfl

end Symbol

namespace Span

open Utf8 (bytesOf charOf)

/-! ## Symbols -/

theorem Holds.peek_cons {span : Span} {c : Char} {text : List Char} (holds : span.Holds (c :: text))
    {first : UInt8} {others : List UInt8} (bytes : String.utf8EncodeChar c = first :: others) :
    span.peek = first := by
  rw [peek, peekAt_eq, holds.left, Utf8.bytesOf_cons, bytes]
  rfl

/-- The second character of a symbol is told from one byte. -/
theorem Holds.pair?_peek {span : Span} {text : List Char} (holds : span.Holds text) (c : Char) :
    (if span.atEnd = true then none else Symbol.pair? c (charOf span.peek)) =
      text.head?.bind (Symbol.pair? c) := by
  match text with
  | [] => rw [if_pos (holds.atEnd_iff.mpr rfl)]; rfl
  | d :: text =>
    obtain ⟨first, others, bytes, -⟩ := Utf8.utf8EncodeChar_eq_cons d
    rw [holds.atEnd_cons, if_neg Bool.false_ne_true, holds.peek_cons bytes]
    exact Utf8.apply_charOf_head (fun _ => Symbol.pair?_of_wide_right c) bytes

/-- Behind its first byte a character is read as a symbol, with the one after it if they are a pair. -/
theorem Holds.scanSymbol_of_front {span : Span} {c : Char} {text rest : List Char} {symbol : Symbol}
    (holds : span.Holds (c :: text)) (front : Symbol.front? (c :: text) = some (symbol, rest)) :
    (span.pass [c]).scanSymbol span.position (UInt8.ofNat c.toNat) =
      some (.ok (.symbol symbol), span.pass symbol.spelling) := by
  have whole := Symbol.spelling_append_of_front? front
  have further := holds.pass_cons
  have oneLine := symbol.newline_not_mem_spelling
  rw [Symbol.front?_cons] at front
  rw [Span.scanSymbol]
  match pair : text.head?.bind (Symbol.pair? c) with
  | some longer =>
    rw [pair] at front
    cases front
    obtain ⟨d, head, found⟩ := Option.bind_eq_some_iff.mp pair
    obtain ⟨rest, rfl⟩ := List.head?_eq_some_iff.mp head
    obtain ⟨ascii, asciiNext⟩ := Symbol.ascii_of_pair? found
    have spelled : symbol.spelling = [c] ++ [d] :=
      List.append_cancel_right whole
    have other : d ≠ '\n' := by
      rintro rfl
      simp [spelled] at oneLine
    rw [Utf8.charOf_of_ascii ascii, further.pair?_peek, pair, spelled, pass_append]
    simp only [further.advance asciiNext other, Option.bind_eq_bind, Option.bind_some,
      Option.pure_def]
  | none =>
    rw [pair] at front
    obtain ⟨_, found, same⟩ := Option.map_eq_some_iff.mp front
    cases same
    have spelled : symbol.spelling = [c] := List.append_cancel_right whole
    rw [Utf8.charOf_of_ascii (Symbol.ascii_of_single? found), further.pair?_peek, pair, spelled]
    simp only [found]
    rfl

/-- A character that starts no symbol is told as it is, and only its first byte is given up. -/
theorem Holds.scanSymbol_of_none {span : Span} {c : Char} {text : List Char}
    (holds : span.Holds (c :: text)) (front : Symbol.front? (c :: text) = none)
    {first : UInt8} {others : List UInt8} (bytes : String.utf8EncodeChar c = first :: others) :
    let moved : Span := { span with position := span.position + 1 }
    moved.scanSymbol span.position first = some (.error (.fault (.illegal c)), moved) := by
  intro moved
  rw [Symbol.front?_cons] at front
  have noPair : text.head?.bind (Symbol.pair? c) = none := by
    match pair : text.head?.bind (Symbol.pair? c) with
    | some symbol => simp [pair] at front
    | none => rfl
  rw [noPair] at front
  have noSingle : Symbol.single? (charOf first) = none := by
    rw [Utf8.apply_charOf_head (fun _ => Symbol.single?_of_wide) bytes]
    exact Option.map_eq_none_iff.mp front
  have nothing : (if moved.atEnd = true then none
      else Symbol.pair? (charOf first) (charOf moved.peek)) = none := by
    by_cases ascii : c.toNat < 128
    · rw [Utf8.utf8EncodeChar_of_ascii ascii] at bytes
      cases bytes
      have further : moved.Holds text := by
        have left := holds.left
        rw [Utf8.bytesOf_cons, Utf8.utf8EncodeChar_of_ascii ascii] at left
        obtain ⟨within, behind⟩ := rest_behind _ left holds.within span.line
        exact ⟨within, behind⟩
      rw [Utf8.charOf_of_ascii ascii, further.pair?_peek, noPair]
    · have wide : 128 ≤ first.toNat :=
        Utf8.le_of_mem_utf8EncodeChar (Nat.le_of_not_lt ascii) (by simp [bytes])
      rw [Symbol.pair?_of_wide_left (by rwa [Utf8.toNat_charOf]), ite_self]
  have begins : moved.isBoundary span.position = true := holds.isBoundary
  have whole : (moved.bytes.drop span.position).toByteArray.utf8DecodeChar? 0 = some c := by
    have left : moved.bytes.drop span.position = String.utf8EncodeChar c ++ bytesOf text := holds.left
    rw [left, List.toByteArray_append, ByteArray.utf8DecodeChar?_utf8EncodeChar_append]
  rw [Span.scanSymbol, nothing]
  simp only [noSingle, begins, if_true, whole, Option.getD_some, Option.pure_def]

/-! ## Character literals -/

/-- The byte after the next one is that of the first two characters. -/
theorem Holds.peekAt_one {span : Span} {text : List Char} (holds : span.Holds text) :
    span.peekAt 1 = Reader.closingByte text := by
  rw [peekAt_eq, holds.left, Reader.closingByte]
  match text with
  | [] => rfl
  | [c] => rfl
  | c :: d :: text =>
    have inside : 1 < (bytesOf [c, d]).length := by
      have first := c.utf8Size_pos
      have second := d.utf8Size_pos
      simp
      omega
    have front : bytesOf (c :: d :: text) = bytesOf [c, d] ++ bytesOf text :=
      Utf8.bytesOf_append [c, d] text
    rw [front, List.getElem?_append_left inside]
    rfl

/-- A quote closes a character literal behind one ASCII character. -/
theorem charOf_closingByte {text : List Char} :
    charOf (Reader.closingByte text) = '\'' ↔
      ∃ code after, text = code :: '\'' :: after ∧ code.utf8Size = 1 := by
  constructor
  · intro closes
    match text with
    | [] => cases closes
    | c :: more =>
      have front : Reader.closingByte (c :: more) =
          (String.utf8EncodeChar c ++ bytesOf (more.take 1))[1]?.getD 0 := rfl
      rw [front] at closes
      by_cases ascii : c.toNat < 128
      · rw [Utf8.utf8EncodeChar_of_ascii ascii] at closes
        match more with
        | [] => cases closes
        | d :: more =>
          obtain ⟨first, others, bytes, -⟩ := Utf8.utf8EncodeChar_eq_cons d
          rw [List.take, Utf8.bytesOf_cons, bytes] at closes
          obtain rfl := (Utf8.charOf_head_eq_iff (by decide) bytes).mp closes
          exact ⟨c, more, rfl, Utf8.utf8Size_eq_one_iff.mpr ascii⟩
      · have inside : 1 < (String.utf8EncodeChar c).length := by
          have some := c.utf8Size_pos
          have other : c.utf8Size ≠ 1 := fun one => ascii (Utf8.utf8Size_eq_one_iff.mp one)
          rw [String.length_utf8EncodeChar]
          omega
        rw [List.getElem?_append_left inside, List.getElem?_eq_getElem inside, Option.getD_some] at closes
        have wide := Utf8.le_of_mem_utf8EncodeChar (Nat.le_of_not_lt ascii) (List.getElem_mem inside)
        exact absurd closes (Utf8.charOf_ne_of_wide wide (by decide))
  · rintro ⟨code, after, rfl, oneByte⟩
    rw [Reader.closingByte, List.take, List.take, List.flatMap_cons,
      Utf8.utf8EncodeChar_of_ascii (Utf8.utf8Size_eq_one_iff.mp oneByte)]
    rfl

/-- A character literal is taken if it is closed. -/
theorem Holds.scanCharacter_of_closed {span : Span} {code : Char} {text : List Char}
    (holds : span.Holds (code :: '\'' :: text)) (oneByte : code.utf8Size = 1) :
    span.scanCharacter = some (.ok (.character code), span.pass [code, '\'']) := by
  have ascii := Utf8.utf8Size_eq_one_iff.mp oneByte
  have closes : charOf (span.peekAt 1) = '\'' := by
    rw [holds.peekAt_one, charOf_closingByte]
    exact ⟨code, text, rfl, oneByte⟩
  have left := holds.left
  rw [Utf8.bytesOf_cons, Utf8.utf8EncodeChar_of_ascii ascii] at left
  obtain ⟨within, behind⟩ := rest_behind _ left holds.within span.line
  have further := advance_of_rest behind within
  simp only [List.length_singleton] at further
  have inside : ¬ (span.bytes.length ≤ span.position + 1 ∨ charOf (span.peekAt 1) ≠ '\'') := by
    have size := congrArg List.length behind
    simp only [rest, List.length_drop, List.length_cons, List.length_nil] at size
    have some : 0 < (bytesOf ('\'' :: text)).length := Nat.zero_lt_succ _
    rintro (short | other)
    · omega
    · exact other closes
  have moved : span.pass [code, '\''] =
      { span with position := span.position + 1 + 1, line := lineAfter span.line code } := by
    rw [← List.singleton_append, pass_append, pass_of_ascii span ascii, pass_of_ascii _ (by decide)]
    rfl
  simp only [Span.scanCharacter, inside, if_false, advance_of_rest left holds.within, further,
    Option.bind_eq_bind, Option.bind_some, Option.pure_def, Utf8.charOf_of_ascii ascii, moved]

/-- Otherwise the opening quote alone is gone. -/
theorem Holds.scanCharacter_of_open {span : Span} {text : List Char} (holds : span.Holds text)
    (unclosed : ¬ ∃ code after, text = code :: '\'' :: after ∧ code.utf8Size = 1) :
    span.scanCharacter = some (.error (.fault (.unclosed (Reader.closingByte text))), span) := by
  have other : charOf (span.peekAt 1) ≠ '\'' := by
    rwa [holds.peekAt_one, ne_eq, charOf_closingByte]
  rw [Span.scanCharacter, if_pos (Or.inr other), holds.peekAt_one]
  rfl

/-! ## In step -/

/-- A span in step with a reader. Where bytes of a refused character are left, its first byte is
behind the index. -/
structure Tracks (span : Span) (reader : Reader) : Prop where
  within : span.position ≤ span.bytes.length
  left : span.rest = reader.stray ++ bytesOf reader.text
  source : span.source = reader.source
  line : span.line = reader.line
  tokenLine : span.tokenLine = reader.tokenLine
  continues : ∀ byte ∈ reader.stray, Utf8.isContinuation byte = true
  inside : reader.stray ≠ [] → 0 < span.position

/-- Between characters it is enough that the text is the same. -/
theorem Holds.tracks {span : Span} {text : List Char} {source : LineSource} {line tokenLine : Nat}
    (holds : span.Holds text) (asks : span.source = source) (lines : span.line = line)
    (starts : span.tokenLine = tokenLine) : span.Tracks ⟨[], text, source, line, tokenLine⟩ where
  within := holds.within
  left := holds.left
  source := asks
  line := lines
  tokenLine := starts
  continues := List.forall_mem_nil _
  inside := fun some => absurd rfl some

theorem Tracks.holds {span : Span} {text : List Char} {source : LineSource} {line tokenLine : Nat}
    (tracks : span.Tracks ⟨[], text, source, line, tokenLine⟩) : span.Holds text :=
  ⟨tracks.within, tracks.left⟩

/-- Behind some text of one line. -/
theorem Tracks.pass {span : Span} (gone : List Char) {text : List Char} {source : LineSource}
    {line tokenLine : Nat} (tracks : span.Tracks ⟨[], gone ++ text, source, line, tokenLine⟩)
    (oneLine : '\n' ∉ gone) :
    (span.pass gone).Tracks ⟨[], text, source, line, tokenLine⟩ := by
  refine tracks.holds.pass.tracks tracks.source ?_ tracks.tokenLine
  rw [pass_line, List.count_eq_zero.mpr oneLine]
  exact tracks.line

theorem Behind.tracks {span after : Span} {body : Body} {line tokenLine : Nat}
    (reached : span.Behind after [] body) (lines : span.line = line)
    (starts : span.tokenLine = tokenLine) :
    after.Tracks ⟨[], body.text, body.source, line + body.newlines, tokenLine⟩ :=
  reached.holds.tracks reached.source (by simpa [lines] using reached.lines)
    (reached.tokenLine.trans starts)

theorem start_tracks (text : String) (source : LineSource) :
    (start text source).Tracks (.start text source) := by
  have holds : (start text source).Holds text.toList := by
    refine ⟨Nat.zero_le _, ?_⟩
    simp only [start, rest, List.drop_zero, bytesOf, ← Utf8.encode_ofList, String.ofList_toList]
  exact holds.tracks rfl rfl rfl

/-! ## One lexeme -/

theorem IsClass.of_wide {p : Char → Bool} (isClass : IsClass p) {byte : UInt8}
    (wide : 128 ≤ byte.toNat) : p (charOf byte) = false := by
  rw [Bool.eq_false_iff]
  intro belongs
  have := isClass.ascii _ belongs
  rw [Utf8.toNat_charOf] at this
  omega

/-- A byte that continues a character is refused as it is. -/
theorem scanSymbol_of_continuation {span : Span} {byte : UInt8} {behind : List UInt8}
    (left : span.rest = byte :: behind) (continues : Utf8.isContinuation byte = true)
    (inside : 0 < span.position) :
    let moved : Span := { span with position := span.position + 1 }
    moved.scanSymbol span.position byte = some (.error (.fault (.illegal (charOf byte))), moved) := by
  intro moved
  have wide : 128 ≤ (charOf byte).toNat := by
    rw [Utf8.toNat_charOf]
    exact (Utf8.isContinuation_iff.mp continues).1
  have here : span.bytes[span.position]? = some byte := by
    have := congrArg (·[0]?) left
    simpa [rest, List.getElem?_drop] using this
  have within : span.position < span.bytes.length := (List.getElem?_eq_some_iff.mp here).1
  have noBoundary : moved.isBoundary span.position = false := by
    simp only [isBoundary, moved, here, Option.any_some, continues, Bool.not_true, Bool.or_false,
      Bool.or_eq_false_iff, beq_eq_false_iff_ne]
    omega
  simp only [scanSymbol, Symbol.pair?_of_wide_left wide, ite_self, Symbol.single?_of_wide wide,
    noBoundary, Bool.false_eq_true, if_false, Option.getD_none, Option.pure_def]

/-- A byte inside a refused character is refused. -/
theorem Tracks.scanToken_of_stray {span : Span} {byte : UInt8} {stray : List UInt8} {text : List Char}
    {source : LineSource} {line : Nat}
    (tracks : span.Tracks ⟨byte :: stray, text, source, line, line⟩) :
    ∃ after, span.scanToken = some (some (.error (.fault (.illegal (charOf byte)))), after) ∧
      after.Tracks ⟨stray, text, source, line, line⟩ := by
  obtain ⟨continues, others⟩ := List.forall_mem_cons.mp tracks.continues
  have wide := (Utf8.isContinuation_iff.mp continues).1
  have plain {c : Char} (ascii : c.toNat < 128) : charOf byte ≠ c := Utf8.charOf_ne_of_wide wide ascii
  have left : span.rest = byte :: (stray ++ bytesOf text) := tracks.left
  obtain ⟨within, behind⟩ := rest_behind [byte] left tracks.within span.line
  refine ⟨{ span with position := span.position + 1 }, ?_, within, behind, tracks.source, tracks.line,
    tracks.tokenLine, others, fun _ => Nat.succ_pos _⟩
  have refused := scanSymbol_of_continuation left continues (tracks.inside (List.cons_ne_nil _ _))
  simp only [scanToken, advance_of_rest left tracks.within, Option.bind_eq_bind, Option.bind_some,
    isClass_startsWord.of_wide wide, isClass_isDigit.of_wide wide, plain (c := '"') (by decide),
    plain (c := '\'') (by decide), plain (c := '/') (by decide), Bool.false_eq_true, if_false,
    false_and, refused, Option.pure_def]

section Lexemes

variable {span : Span} {c : Char} {text : List Char} {source : LineSource} {line : Nat}

theorem Tracks.scanToken_of_word (tracks : span.Tracks ⟨[], c :: text, source, line, line⟩)
    (starts : startsWord c = true) :
    ∃ after, span.scanToken =
        some (some (.ok (.word (String.ofList (c :: text.takeWhile continuesWord)))), after) ∧
      after.Tracks ⟨[], text.dropWhile continuesWord, source, line, line⟩ := by
  have ascii := isClass_startsWord.ascii c starts
  have other : c ≠ '\n' := by
    rintro rfl
    cases starts
  have oneLine : '\n' ∉ c :: text.takeWhile continuesWord := by
    rintro (_ | ⟨_, member⟩)
    · exact other rfl
    · have continues := List.all_eq_true.mp List.all_takeWhile _ member
      cases continues
  have whole : c :: text = c :: text.takeWhile continuesWord ++ text.dropWhile continuesWord := by
    rw [List.cons_append, List.takeWhile_append_dropWhile]
  refine ⟨span.pass (c :: text.takeWhile continuesWord), ?_, ?_⟩
  · simp only [scanToken, tracks.holds.advance ascii other, Utf8.charOf_of_ascii ascii, starts, if_true,
      tracks.holds.scanWord, Option.bind_eq_bind, Option.bind_some, Option.pure_def]
  · rw [whole] at tracks
    exact tracks.pass _ oneLine

theorem Tracks.scanToken_of_digit (tracks : span.Tracks ⟨[], c :: text, source, line, line⟩)
    (digit : c.isDigit = true) :
    ∃ after, span.scanToken = some (some (.ok (.numeral (Numeral.read (c :: text)).1)), after) ∧
      after.Tracks ⟨[], (Numeral.read (c :: text)).2, source, line, line⟩ := by
  have ascii := isClass_isDigit.ascii c digit
  have other : c ≠ '\n' := by
    rintro rfl
    cases digit
  obtain ⟨gone, whole, oneLine, scanned⟩ := tracks.holds.scanNumeral digit
  refine ⟨span.pass gone, ?_, ?_⟩
  · simp only [scanToken, tracks.holds.advance ascii other, Utf8.charOf_of_ascii ascii,
      startsWord_of_isDigit digit, digit, if_true, Bool.false_eq_true, if_false, scanned,
      Option.bind_eq_bind, Option.bind_some, Option.pure_def]
  · rw [whole] at tracks
    exact tracks.pass _ oneLine

theorem Tracks.scanToken_of_quote (tracks : span.Tracks ⟨[], '"' :: text, source, line, line⟩) :
    let body := Body.read .quote false [] text source
    ∃ after, span.scanToken = some (some (match body.ending with
          | .failed reason => .error (.unreadable reason)
          | _ => .ok (.string body.content)), after) ∧
      after.Tracks ⟨[], body.text, body.source, line + body.newlines, line⟩ := by
  obtain ⟨after, scanned, reached⟩ := tracks.holds.pass_cons.scanString tracks.source
  refine ⟨after, ?_, reached.tracks tracks.line tracks.tokenLine⟩
  simp only [scanToken, tracks.holds.advance (c := '"') (by decide) (by decide), Option.bind_eq_bind,
    Option.bind_some, scanned, Option.pure_def]
  rfl

theorem Tracks.scanToken_of_apostrophe (tracks : span.Tracks ⟨[], '\'' :: text, source, line, line⟩) :
    let taken := Reader.take ⟨[], '\'' :: text, source, line, line⟩
    ∃ after, span.scanToken = some (some taken.1, after) ∧ after.Tracks taken.2 := by
  intro taken
  have further := tracks.holds.pass_cons
  have begun {result : Except Obstacle Lexeme} {after : Span}
      (scanned : (span.pass ['\'']).scanCharacter = some (result, after)) :
      span.scanToken = some (some result, after) := by
    simp only [scanToken, tracks.holds.advance (c := '\'') (by decide) (by decide), Option.bind_eq_bind,
      Option.bind_some, scanned, Option.pure_def]
    rfl
  by_cases closed : ∃ code after, text = code :: '\'' :: after ∧ code.utf8Size = 1
  · obtain ⟨code, after, rfl, oneByte⟩ := closed
    have same : taken = (.ok (.character code), ⟨[], after, source, lineAfter line code, line⟩) :=
      if_pos oneByte
    rw [same]
    have behind : ((span.pass ['\'']).pass [code, '\'']).Holds after := Holds.pass further
    refine ⟨_, begun (further.scanCharacter_of_closed oneByte), behind.tracks tracks.source ?_
      tracks.tokenLine⟩
    have lines : span.line = line := tracks.line
    rw [← add_count_singleton, ← lines]
    simp [List.count_cons]
  · have same : taken = (.error (.fault (.unclosed (Reader.closingByte text))),
        ⟨[], text, source, line, line⟩) := by
      by_cases wide : ∃ code after, text = code :: '\'' :: after
      · obtain ⟨code, after, rfl⟩ := wide
        exact if_neg fun oneByte => closed ⟨code, after, rfl, oneByte⟩
      · exact Reader.take_of_unclosed (fun code after whole => wide ⟨code, after, whole⟩) source line line
    rw [same]
    exact ⟨_, begun (further.scanCharacter_of_open closed), tracks.pass ['\''] (by decide)⟩

/-- A symbol is taken where no comment starts. -/
theorem Tracks.scanToken_of_symbol {symbol : Symbol} {rest : List Char}
    (tracks : span.Tracks ⟨[], c :: text, source, line, line⟩)
    (front : Symbol.front? (c :: text) = some (symbol, rest))
    (noComment : c = '/' → text.head? ≠ some '/' ∧ text.head? ≠ some '*') :
    ∃ after, span.scanToken = some (some (.ok (.symbol symbol)), after) ∧
      after.Tracks ⟨[], rest, source, line, line⟩ := by
  have whole := Symbol.spelling_append_of_front? front
  have oneLine := symbol.newline_not_mem_spelling
  obtain ⟨d, more, spelled, noWord, noDigit, noQuote, noApostrophe⟩ := symbol.first_of_spelling
  obtain rfl : d = c := by
    rw [spelled] at whole
    exact (List.cons_eq_cons.mp whole).1
  have member : d ∈ symbol.spelling := by simp [spelled]
  have ascii := Symbol.ascii_of_mem_spelling d member
  have other : d ≠ '\n' := by
    rintro rfl
    exact oneLine member
  have further := tracks.holds.pass_cons
  have slash := further.charOf_peek (d := '/') (by decide) (by decide)
  have asterisk := further.charOf_peek (d := '*') (by decide) (by decide)
  have noMark : ¬ (d = '/' ∧
      (charOf (span.pass [d]).peek = '/' ∨ charOf (span.pass [d]).peek = '*')) := by
    rw [slash, asterisk]
    rintro ⟨first, second | second⟩
    · exact (noComment first).1 second
    · exact (noComment first).2 second
  refine ⟨span.pass symbol.spelling, ?_, ?_⟩
  · simp only [scanToken, tracks.holds.advance ascii other, Utf8.charOf_of_ascii ascii, noWord, noDigit,
      noQuote, noApostrophe, noMark, Bool.false_eq_true, if_false, tracks.holds.scanSymbol_of_front front,
      Option.bind_eq_bind, Option.bind_some, Option.pure_def]
  · rw [← whole] at tracks
    exact tracks.pass _ oneLine

/-- Of a character that starts nothing the first byte is given up, and the others are left. -/
theorem Tracks.scanToken_of_illegal (tracks : span.Tracks ⟨[], c :: text, source, line, line⟩)
    (noWord : startsWord c = false) (noDigit : c.isDigit = false) (noQuote : c ≠ '"')
    (noApostrophe : c ≠ '\'') (front : Symbol.front? (c :: text) = none) :
    ∃ after, span.scanToken = some (some (.error (.fault (.illegal c))), after) ∧
      after.Tracks ⟨(String.utf8EncodeChar c).tail, text, source, line, line⟩ := by
  have noSlash : c ≠ '/' := by
    rintro rfl
    cases text <;> cases front
  obtain ⟨first, others, bytes, -, continues⟩ := Utf8.utf8EncodeChar_eq_cons c
  have left : span.rest = first :: (others ++ bytesOf text) := by
    rw [tracks.holds.left, Utf8.bytesOf_cons, bytes, List.cons_append]
  obtain ⟨within, behind⟩ := rest_behind [first] left tracks.within span.line
  rw [bytes, List.tail_cons]
  refine ⟨{ span with position := span.position + 1 }, ?_, within, behind, tracks.source, tracks.line,
    tracks.tokenLine, continues, fun _ => Nat.succ_pos _⟩
  have sameWord := Utf8.class_charOf_head isClass_startsWord.ascii bytes
  have sameDigit := Utf8.class_charOf_head isClass_isDigit.ascii bytes
  simp only [scanToken, advance_of_rest left tracks.within, Option.bind_eq_bind, Option.bind_some,
    sameWord, noWord, sameDigit, noDigit, Utf8.charOf_head_eq_iff (d := '"') (by decide) bytes, noQuote,
    Utf8.charOf_head_eq_iff (d := '\'') (by decide) bytes, noApostrophe,
    Utf8.charOf_head_eq_iff (d := '/') (by decide) bytes, noSlash, Bool.false_eq_true, if_false,
    false_and, tracks.holds.scanSymbol_of_none front bytes, Option.pure_def]

end Lexemes

/-- The first lexeme of the text is taken, where no comment starts. -/
theorem Tracks.scanToken_of_cons {span : Span} {c : Char} {text : List Char} {source : LineSource}
    {line : Nat} (tracks : span.Tracks ⟨[], c :: text, source, line, line⟩)
    (noComment : c = '/' → text.head? ≠ some '/' ∧ text.head? ≠ some '*') :
    let taken := Reader.take ⟨[], c :: text, source, line, line⟩
    ∃ after, span.scanToken = some (some taken.1, after) ∧ after.Tracks taken.2 := by
  by_cases starts : startsWord c = true
  · simp only [Reader.take, starts, if_true]
    exact tracks.scanToken_of_word starts
  by_cases digit : c.isDigit = true
  · simp only [Reader.take, startsWord_of_isDigit digit, digit, if_true, Bool.false_eq_true, if_false]
    exact tracks.scanToken_of_digit digit
  by_cases quote : c = '"'
  · subst quote
    obtain ⟨after, scanned, reached⟩ := tracks.scanToken_of_quote
    refine ⟨after, ?_⟩
    simp only [scanned, Reader.take_of_quote]
    cases (Body.read .quote false [] text source).ending <;> exact ⟨rfl, reached⟩
  by_cases apostrophe : c = '\''
  · subst apostrophe
    exact tracks.scanToken_of_apostrophe
  simp only [Bool.not_eq_true] at starts digit
  simp only [Reader.take, starts, digit, quote, apostrophe, Bool.false_eq_true, if_false]
  cases front : Symbol.front? (c :: text) with
  | some found => exact tracks.scanToken_of_symbol front noComment
  | none => exact tracks.scanToken_of_illegal starts digit quote apostrophe front

/-! ## Blanks and comments -/

theorem Tracks.scanToken_of_line {span : Span} {text : List Char} {source : LineSource} {line : Nat}
    (tracks : span.Tracks ⟨[], '/' :: '/' :: text, source, line, line⟩) :
    ∃ after, span.scanToken = some (none, after) ∧
      after.Tracks ⟨[], text.dropWhile (· != '\n'), source, line, line⟩ := by
  have second := tracks.holds.pass_cons
  have slash := (second.charOf_peek (d := '/') (by decide) (by decide)).mpr rfl
  have third : ((span.pass ['/']).pass ['/']).Holds text := second.pass_cons
  refine ⟨((span.pass ['/']).pass ['/']).pass (text.takeWhile (· != '\n')), ?_, ?_⟩
  · simp only [scanToken, tracks.holds.advance (c := '/') (by decide) (by decide),
      second.advance (c := '/') (by decide) (by decide), Utf8.charOf_of_ascii (c := '/') (by decide),
      slash, third.skipLine, Option.bind_eq_bind, Option.bind_some, Option.pure_def]
    rfl
  · have oneLine : '\n' ∉ text.takeWhile (· != '\n') := by
      intro member
      have other := List.all_eq_true.mp List.all_takeWhile _ member
      simp at other
    rw [← pass_append, ← pass_append]
    refine Tracks.pass _ ?_ (by simpa using oneLine)
    simpa [List.takeWhile_append_dropWhile] using tracks

theorem Tracks.scanToken_of_block {span : Span} {text : List Char} {source : LineSource} {line : Nat}
    (tracks : span.Tracks ⟨[], '/' :: '*' :: text, source, line, line⟩) :
    let body := Body.read .comment false [] text source
    ∃ after, span.scanToken = some (match body.ending with
          | .failed reason => some (.error (.unreadable reason))
          | _ => none, after) ∧
      after.Tracks ⟨[], body.text, body.source, line + body.newlines, line⟩ := by
  have second := tracks.holds.pass_cons
  have noSlash : charOf (span.pass ['/']).peek ≠ '/' := by
    rw [ne_eq, second.charOf_peek (by decide) (by decide)]
    simp
  have asterisk := (second.charOf_peek (d := '*') (by decide) (by decide)).mpr rfl
  have third : ((span.pass ['/']).pass ['*']).Holds text := second.pass_cons
  obtain ⟨after, skipped, reached⟩ := third.skipBlock tracks.source
  refine ⟨after, ?_, reached.tracks tracks.line tracks.tokenLine⟩
  simp only [scanToken, tracks.holds.advance (c := '/') (by decide) (by decide),
      second.advance (c := '*') (by decide) (by decide), Utf8.charOf_of_ascii (c := '/') (by decide),
      Utf8.charOf_of_ascii (c := '*') (by decide),
      asterisk, skipped, Option.bind_eq_bind, Option.bind_some, Option.pure_def]
  cases (Body.read .comment false [] text source).ending <;> rfl

theorem isClass_isBlank : IsClass isBlank where
  ascii c blank := by
    simp only [isBlank, Bool.or_eq_true, beq_iff_eq] at blank
    obtain ((((rfl | rfl) | rfl) | rfl) | rfl) | rfl := blank <;> decide
  ended := by decide

theorem Holds.slash_peek {span : Span} {text : List Char} (holds : span.Holds ('/' :: text)) :
    isBlank (charOf span.peek) = false := holds.class_peek isClass_isBlank

theorem Holds.skipBlanks_of_blank {span : Span} {c : Char} {text : List Char}
    (holds : span.Holds (c :: text)) (blank : isBlank c = true) :
    span.skipBlanks = (span.pass [c]).skipBlanks := by
  have ascii := isClass_isBlank.ascii c blank
  have here : charOf span.peek = c := by
    rw [holds.peek_cons (Utf8.utf8EncodeChar_of_ascii ascii), Utf8.charOf_of_ascii ascii]
  have left := holds.left
  rw [Utf8.bytesOf_cons, Utf8.utf8EncodeChar_of_ascii ascii] at left
  have moved := forward_of_rest _ left holds.within
  rw [List.length_singleton] at moved
  rw [skipBlanks_eq, holds.atEnd_cons, if_neg Bool.false_ne_true, here, if_pos blank, moved,
    pass_of_ascii span ascii]
  rfl

theorem skipBlanks_of_atEnd {span : Span} (ended : span.atEnd = true) : span.skipBlanks = some span := by
  rw [skipBlanks_eq, if_pos ended]

theorem skipBlanks_of_other {span : Span} (other : isBlank (charOf span.peek) = false) :
    span.skipBlanks = some span := by
  rw [skipBlanks_eq, other]
  cases span.atEnd <;> rfl

/-! ## Requests -/

/-- Where the span is not used up, blanks are passed over first. -/
theorem next_of_more {span : Span} (more : span.atEnd = false) :
    span.next = span.skipBlanks.bind fun span =>
      if span.atEnd then span.next
      else { span with tokenLine := span.line }.scanToken.bind fun (taken, span) =>
        match taken with
        | some result => some (result, span)
        | none => span.next := by
  rw [next_eq, more]
  rfl

theorem next_of_refill {span after : Span} (ended : span.atEnd = true)
    (refilled : span.refill = .more after) : span.next = after.next := by
  rw [next_eq, if_pos ended, refilled]
  cases more : after.atEnd with
  | true => simp only [skipBlanks_of_atEnd more, Option.bind_some, more, if_true]
  | false => exact (next_of_more more).symm

theorem Holds.next_of_blank {span : Span} {c : Char} {text : List Char}
    (holds : span.Holds (c :: text)) (blank : isBlank c = true) : span.next = (span.pass [c]).next := by
  rw [next_of_more holds.atEnd_cons, holds.skipBlanks_of_blank blank]
  cases more : (span.pass [c]).atEnd with
  | true => rw [skipBlanks_of_atEnd more, Option.bind_some, if_pos more]
  | false => rw [next_of_more more]

/-- Where no blank stands, a lexeme is read. -/
theorem next_of_taken {span after : Span} {result : Except Obstacle Lexeme}
    (more : span.atEnd = false) (other : isBlank (charOf span.peek) = false)
    (scanned : { span with tokenLine := span.line }.scanToken = some (some result, after)) :
    span.next = some (result, after) := by
  rw [next_of_more more, skipBlanks_of_other other, Option.bind_some, more, if_neg Bool.false_ne_true,
    scanned]
  rfl

/-- Behind a comment one reads on. -/
theorem next_of_comment {span after : Span} (more : span.atEnd = false)
    (other : isBlank (charOf span.peek) = false)
    (scanned : { span with tokenLine := span.line }.scanToken = some (none, after)) :
    span.next = after.next := by
  rw [next_of_more more, skipBlanks_of_other other, Option.bind_some, more, if_neg Bool.false_ne_true,
    scanned]
  rfl

/-- The line on which a lexeme or comment starts is noted. -/
theorem Tracks.starting {span : Span} {stray : List UInt8} {text : List Char} {source : LineSource}
    {line tokenLine : Nat} (tracks : span.Tracks ⟨stray, text, source, line, tokenLine⟩) :
    { span with tokenLine := span.line }.Tracks ⟨stray, text, source, line, line⟩ where
  within := tracks.within
  left := tracks.left
  source := tracks.source
  line := tracks.line
  tokenLine := tracks.line
  continues := tracks.continues
  inside := tracks.inside

/-- Where blanks and comments end, the span gives what the reader takes. -/
theorem Tracks.next_of_stands {span : Span} {reader : Reader} (tracks : span.Tracks reader)
    (stands : reader.Stands) :
    ∃ after, span.next = some (reader.take.1, after) ∧ after.Tracks reader.take.2 := by
  obtain ⟨stray, text, source, line, tokenLine⟩ := reader
  match stray, text with
  | byte :: stray, text =>
    have continues := tracks.continues byte List.mem_cons_self
    have left : span.rest = byte :: (stray ++ bytesOf text) := tracks.left
    have more : span.atEnd = false := by
      rw [Bool.eq_false_iff, ne_eq, atEnd_iff, left]
      exact List.cons_ne_nil _ _
    have here : span.peek = byte := by
      rw [peek, peekAt_eq, left]
      rfl
    have noBlank : isBlank (charOf span.peek) = false := by
      rw [here]
      exact isClass_isBlank.of_wide (Utf8.isContinuation_iff.mp continues).1
    obtain ⟨after, scanned, reached⟩ := tracks.starting.scanToken_of_stray
    exact ⟨after, next_of_taken more noBlank scanned, reached⟩
  | [], [] =>
    have dry : span.source = [] := by
      rw [tracks.source]
      simpa [Reader.Stands] using stands
    have ended := tracks.holds.atEnd_iff.mpr rfl
    refine ⟨{ span with tokenLine := span.line }, ?_, tracks.starting⟩
    rw [next_eq, if_pos ended, span.refill_dry dry]
    rfl
  | [], c :: text =>
    obtain ⟨other, noComment⟩ : isBlank c = false ∧
        (c = '/' → text.head? ≠ some '/' ∧ text.head? ≠ some '*') := by
      rcases stands with inside | ⟨none, -⟩ | ⟨c, text, whole, free⟩
      · contradiction
      · cases none
      · cases whole
        exact free
    have noBlank : isBlank (charOf span.peek) = false := by
      rw [tracks.holds.class_peek isClass_isBlank]
      simpa using other
    obtain ⟨after, scanned, reached⟩ := tracks.starting.scanToken_of_cons noComment
    exact ⟨after, next_of_taken tracks.holds.atEnd_cons noBlank scanned, reached⟩

/-- Over blanks, comments and used-up text the span goes on as the reader does. -/
theorem Tracks.settle {span : Span} {reader : Reader} (tracks : span.Tracks reader) :
    match reader.settle with
    | (some reason, stopped) =>
      ∃ after, span.next = some (.error (.unreadable reason), after) ∧ after.Tracks stopped
    | (none, stopped) => ∃ after : Span, span.next = after.next ∧ after.Tracks stopped := by
  revert span
  fun_induction Reader.settle reader with
  | case1 reason source line tokenLine =>
    intro span tracks
    have ended := tracks.holds.atEnd_iff.mpr rfl
    refine ⟨{ span with source }, ?_, Holds.tracks ⟨tracks.within, tracks.left⟩ rfl tracks.line
      tracks.tokenLine⟩
    rw [next_eq, if_pos ended, span.refill_failed tracks.source]
  | case2 more source line tokenLine ih =>
    intro span tracks
    have ended := tracks.holds.atEnd_iff.mpr rfl
    obtain ⟨after, refilled, further, left, sameLine, sameToken⟩ := span.refill_more tracks.source
    rw [next_of_refill ended refilled]
    exact ih (further.tracks left (sameLine.trans tracks.line) (sameToken.trans tracks.tokenLine))
  | case3 text source line tokenLine ih =>
    intro span tracks
    obtain ⟨after, scanned, reached⟩ := tracks.starting.scanToken_of_line
    rw [next_of_comment tracks.holds.atEnd_cons tracks.holds.slash_peek scanned]
    exact ih reached
  | case4 text source line tokenLine body reader reason =>
    rename_i failed
    intro span tracks
    obtain ⟨after, scanned, reached⟩ := tracks.starting.scanToken_of_block
    rw [show (Body.read .comment false [] text source).ending = .failed reason from failed] at scanned
    exact ⟨after, next_of_taken tracks.holds.atEnd_cons tracks.holds.slash_peek scanned, reached⟩
  | case5 text source line tokenLine body reader going =>
    rename_i ih
    intro span tracks
    obtain ⟨after, scanned, reached⟩ := tracks.starting.scanToken_of_block
    have scanned : { span with tokenLine := span.line }.scanToken = some (none, after) := by
      rw [scanned]
      cases ending : (Body.read .comment false [] text source).ending with
      | failed reason => exact (going reason ending).elim
      | closed => rfl
      | exhausted => rfl
    rw [next_of_comment tracks.holds.atEnd_cons tracks.holds.slash_peek scanned]
    exact ih reached
  | case6 c text source line tokenLine _ _ blank ih =>
    intro span tracks
    rw [tracks.holds.next_of_blank blank]
    have lines : (span.pass [c]).line = lineAfter line c := by
      rw [pass_line, add_count_singleton, tracks.line]
    exact ih (tracks.holds.pass_cons.tracks tracks.source lines tracks.tokenLine)
  | case7 => exact fun tracks => ⟨_, rfl, tracks⟩
  | case8 => exact fun tracks => ⟨_, rfl, tracks⟩

/-- A request to the span passes all checks, and gives what the reader gives. -/
theorem Tracks.next {span : Span} {reader : Reader} (tracks : span.Tracks reader) :
    ∃ after, span.next = some (reader.next.1, after) ∧ after.Tracks reader.next.2 := by
  have settled := tracks.settle
  unfold Reader.next
  split
  · next reason stopped found =>
    rw [found] at settled
    exact settled
  · next stopped found =>
    rw [found] at settled
    obtain ⟨after, same, further⟩ := settled
    rw [same]
    exact further.next_of_stands (Reader.settle_stands found)

end Span
end TokenTape
