import TokenTape.Proofs.Reading.SpanTracks
/-!
The bodies of strings and of block comments. A span passes over them byte by byte, or looks for the
closing mark among the bytes; the reader follows a closer through the characters. Both stop at the
same place (`Span.Holds.scanString`, `Span.Holds.skipBlock`), however many spans the body has.
-/
namespace TokenTape

namespace Span

open Utf8 (bytesOf charOf)

/-! ## Bodies -/

/-- A span behind a body, in step with the reader that has read it. -/
structure Behind (span after : Span) (reversed : List Char) (body : Body) : Prop where
  holds : after.Holds body.text
  source : after.source = body.source
  lines : after.line + reversed.count '\n' = span.line + body.newlines
  tokenLine : after.tokenLine = span.tokenLine

/-- The same, told from an earlier place. -/
theorem Behind.before {span middle after : Span} {reversed reversed' : List Char} {body : Body}
    (reached : middle.Behind after reversed' body)
    (lines : middle.line + reversed.count '\n' = span.line + reversed'.count '\n')
    (tokenLine : middle.tokenLine = span.tokenLine) : span.Behind after reversed body where
  holds := reached.holds
  source := reached.source
  lines := by
    have := reached.lines
    omega
  tokenLine := reached.tokenLine.trans tokenLine

theorem pass_lines (span : Span) (gone reversed : List Char) :
    (span.pass gone).line + reversed.count '\n' =
      span.line + (gone.reverse ++ reversed).count '\n' := by
  simp
  omega

/-- What a request for more brings is the next reply. -/
theorem refill_more (span : Span) {more : String} {source : LineSource}
    (asks : span.source = .line more :: source) :
    ∃ after, span.refill = .more after ∧ after.Holds more.toList ∧ after.source = source ∧
      after.line = span.line ∧ after.tokenLine = span.tokenLine := by
  have bytes : Utf8.encode more = bytesOf more.toList := by
    rw [bytesOf, ← Utf8.encode_ofList, String.ofList_toList]
  refine ⟨{ span with bytes := Utf8.encode more, position := 0, source }, ?_, ⟨Nat.zero_le _, bytes⟩,
    rfl, rfl, rfl⟩
  rw [refill, asks]

theorem refill_dry (span : Span) (asks : span.source = []) : span.refill = .dry := by
  rw [refill, asks]

theorem refill_failed (span : Span) {reason : String} {source : LineSource}
    (asks : span.source = .failure reason :: source) :
    span.refill = .failed reason { span with source } := by
  rw [refill, asks]

/-- A loop that goes over the body that a closer ends, with what was read before: it is done where
the body closes in a span, and otherwise starts again in the next one. -/
structure GoesOver {α : Type} (closer : Closer) (scan : Bool → List Char → Span → Option (α × Span))
    (done : List Char → α) (fail : String → α) : Prop where
  closed {span : Span} {memory last : Bool} {passed behind : List Char} {c : Char}
    (reversed : List Char) (holds : span.Holds (passed ++ c :: behind))
    (passes : closer.after memory passed = some last) (closes : closer last c = none) :
    c ≠ '\n' ∧
      scan memory reversed span = some (done (passed.reverse ++ reversed), span.pass (passed ++ [c]))
  goesOn {span : Span} {memory last : Bool} {text : List Char} (reversed : List Char)
    (holds : span.Holds text)
    (passes : closer.after memory text = some last) :
    scan memory reversed span =
      match (span.pass text).refill with
      | .more after => scan last (text.reverse ++ reversed) after
      | .dry => some (done (text.reverse ++ reversed), span.pass text)
      | .failed reason after => some (fail reason, after)

/-- Such a loop ends where the reader ends, over as many replies. -/
theorem GoesOver.read {α : Type} {closer : Closer} {done : List Char → α} {fail : String → α}
    {scan : Bool → List Char → Span → Option (α × Span)} (goes : GoesOver closer scan done fail)
    {span : Span} {text : List Char} {source : LineSource} (holds : span.Holds text)
    (asks : span.source = source) (memory : Bool) (reversed : List Char) :
    let body := Body.read closer memory reversed text source
    ∃ after, scan memory reversed span =
        some (match body.ending with
          | .failed reason => fail reason
          | _ => done body.reversed, after) ∧
      span.Behind after reversed body := by
  induction size : source.length using Nat.strongRecOn
    generalizing span text reversed source memory with
  | ind size ih =>
    rcases closer.split memory text with
      ⟨passed, c, behind, last, rfl, passes, closes⟩ | ⟨last, passes⟩
    · have body : Body.read closer memory reversed (passed ++ c :: behind) source =
          ⟨.closed, passed.reverse ++ reversed, behind, source⟩ := by
        rw [Body.read_append passes, Body.read, closes]
      obtain ⟨other, closed⟩ := goes.closed reversed holds passes closes
      rw [body, closed]
      refine ⟨_, rfl, Holds.pass (by simpa using holds), asks, ?_, rfl⟩
      have none : [c].count '\n' = 0 := by simpa [List.count_eq_zero] using other.symm
      simp only [pass_line, List.count_append, none, Body.newlines, List.count_reverse]
      omega
    · have whole : Body.read closer memory reversed text source =
          Body.read closer last (text.reverse ++ reversed) [] source := by
        rw [← Body.read_append passes, List.append_nil]
      have stop : (span.pass text).Holds [] := Holds.pass (by rwa [List.append_nil])
      have lines := span.pass_lines text reversed
      rw [whole, goes.goesOn reversed holds passes]
      rcases source with _ | ⟨more | reason, source⟩
      · rw [(span.pass text).refill_dry asks, Body.read]
        exact ⟨_, rfl, stop, asks, lines, rfl⟩
      · obtain ⟨after, refilled, further, left, sameLine, sameToken⟩ :=
          (span.pass text).refill_more asks
        rw [refilled, Body.read]
        obtain ⟨last, given, reached⟩ := ih source.length (by simp [← size]) further left _ _ rfl
        exact ⟨last, given, reached.before (by rw [sameLine, lines]) sameToken⟩
      · rw [(span.pass text).refill_failed asks, Body.read]
        exact ⟨_, rfl, ⟨stop.within, stop.left⟩, rfl, lines, rfl⟩

/-! ## Strings -/

theorem add_count_singleton (line : Nat) (c : Char) : line + [c].count '\n' = lineAfter line c := by
  simp only [lineAfter, List.count_cons, List.count_nil, beq_iff_eq]
  split <;> rfl

theorem pass_of_ascii (span : Span) {c : Char} (ascii : c.toNat < 128) :
    span.pass [c] = { span with position := span.position + 1, line := lineAfter span.line c } := by
  rw [pass, add_count_singleton, Utf8.bytesOf_cons, Utf8.utf8EncodeChar_of_ascii ascii]
  rfl

/-- Inside a string one byte is passed over, unless it is a quote that is not protected. -/
theorem passString_of_byte {span : Span} {byte : UInt8} {behind : List UInt8} {escaped : Bool}
    (left : span.rest = byte :: behind) (within : span.position ≤ span.bytes.length)
    (goes : charOf byte = '"' → escaped = true) :
    span.passString escaped = passString (!escaped && charOf byte == '\\')
      { span with position := span.position + 1, line := lineAfter span.line (charOf byte) } := by
  have more : span.atEnd = false := by
    rw [Bool.eq_false_iff, ne_eq, Span.atEnd_iff, left]
    exact List.cons_ne_nil _ _
  have here : span.peek = byte := by
    rw [peek, peekAt_eq, left]
    rfl
  have open_ : ¬ (span.atEnd || charOf span.peek == '"' && !escaped) = true := by
    simpa [more, here] using goes
  rw [passString_eq, if_neg open_, advance_of_rest left within, here]
  rfl

/-- The bytes of a character that is not ASCII mean nothing in a string. -/
theorem passString_of_wide {front behind : List UInt8} (wide : ∀ byte ∈ front, 128 ≤ byte.toNat)
    {span : Span} (left : span.rest = front ++ behind) (within : span.position ≤ span.bytes.length) :
    span.passString false =
      passString false { span with position := span.position + front.length } := by
  induction front generalizing span with
  | nil => rfl
  | cons byte front ih =>
    obtain ⟨first, others⟩ := List.forall_mem_cons.mp wide
    have plain {c : Char} (ascii : c.toNat < 128) : charOf byte ≠ c := Utf8.charOf_ne_of_wide first ascii
    have noBackslash : (charOf byte == '\\') = false := by simpa using plain (by decide)
    have sameLine : lineAfter span.line (charOf byte) = span.line := if_neg (plain (by decide))
    obtain ⟨within', left'⟩ := rest_behind [byte] left within span.line
    rw [passString_of_byte left within fun quote => absurd quote (plain (by decide)), noBackslash,
      sameLine, Bool.and_false]
    rw [List.length_singleton] at within' left'
    rw [ih others left' within', List.length_cons, Nat.add_assoc, Nat.add_comm 1]

/-- Inside a string one character is passed over, and what protects the next one is remembered. -/
theorem Holds.passString_cons {span : Span} {c : Char} {text : List Char}
    (holds : span.Holds (c :: text)) {escaped escaped' : Bool}
    (goes : Closer.quote escaped c = some escaped') :
    span.passString escaped = (span.pass [c]).passString escaped' := by
  have left := holds.left
  have quoted : c = '"' → escaped = true := by
    rintro rfl
    cases escaped with
    | true => rfl
    | false => cases goes
  have remembered : escaped' = (!escaped && c == '\\') := by
    cases escaped with
    | true =>
      cases goes
      rfl
    | false =>
      rw [Closer.quote, if_neg fun quote => Bool.false_ne_true (quoted quote)] at goes
      exact (Option.some.inj goes).symm
  rw [Utf8.bytesOf_cons] at left
  rw [remembered]
  by_cases ascii : c.toNat < 128
  · rw [Utf8.utf8EncodeChar_of_ascii ascii] at left
    rw [passString_of_byte left holds.within, Utf8.charOf_of_ascii ascii, pass_of_ascii span ascii]
    rwa [Utf8.charOf_of_ascii ascii]
  · obtain ⟨first, others, bytes, -⟩ := Utf8.utf8EncodeChar_eq_cons c
    have wide : ∀ byte ∈ first :: others, 128 ≤ byte.toNat := by
      rw [← bytes]
      exact fun byte => Utf8.le_of_mem_utf8EncodeChar (Nat.le_of_not_lt ascii)
    obtain ⟨wideFirst, wideOthers⟩ := List.forall_mem_cons.mp wide
    have plain {d : Char} (small : d.toNat < 128) : charOf first ≠ d :=
      Utf8.charOf_ne_of_wide wideFirst small
    have other {d : Char} (small : d.toNat < 128) : c ≠ d := by
      rintro rfl
      exact ascii small
    have sameLine : lineAfter span.line (charOf first) = span.line := if_neg (plain (by decide))
    have moved : span.pass [c] = { span with position := span.position + (1 + others.length) } := by
      rw [pass_of_newline_not_mem (by simpa using (other (by decide)).symm), Utf8.bytesOf_cons, bytes]
      simp [Nat.add_comm]
    rw [bytes] at left
    obtain ⟨within', left'⟩ := rest_behind [first] left holds.within span.line
    rw [List.length_singleton] at within' left'
    have noBackslash : (charOf first == '\\') = false := by simpa using plain (by decide)
    have alsoNot : (c == '\\') = false := by simpa using other (by decide)
    rw [passString_of_byte left holds.within fun quote => absurd quote (plain (by decide)), noBackslash,
      alsoNot, sameLine, Bool.and_false, passString_of_wide wideOthers left' within', moved,
      Nat.add_assoc]

/-- A string is passed over as long as nothing closes it. -/
theorem Holds.passString_append {span : Span} {passed text : List Char}
    (holds : span.Holds (passed ++ text)) {escaped last : Bool}
    (passes : Closer.quote.after escaped passed = some last) :
    span.passString escaped = (span.pass passed).passString last := by
  induction passed generalizing span escaped with
  | nil =>
    cases passes
    rfl
  | cons c passed ih =>
    rw [Closer.after_cons, Option.bind_eq_some_iff] at passes
    obtain ⟨escaped', goes, passes⟩ := passes
    have further : (span.pass [c]).Holds (passed ++ text) := Holds.pass_cons holds
    rw [holds.passString_cons goes, ih further passes, ← pass_append]
    rfl

/-- The inside of a string ends at a quote that is not protected, or with the span. -/
theorem Holds.passString_of_stop {span : Span} {text : List Char} (holds : span.Holds text)
    {escaped : Bool} (stops : text.head? = none ∨ text.head? = some '"' ∧ escaped = false) :
    span.passString escaped = some (escaped, span) := by
  have quote := holds.charOf_peek (d := '"') (by decide) (by decide)
  rw [passString_eq, if_pos]
  · rcases stops with none | ⟨closing, rfl⟩
    · rw [List.head?_eq_none_iff] at none
      simp [holds.atEnd_iff.mpr none]
    · simp [quote.mpr closing]

/-- A string is passed over up to the quote that closes it, or on over further spans. -/
theorem goesOver_string :
    GoesOver .quote (fun escaped reversed span =>
      span.scanString (String.ofList reversed.reverse) escaped)
      (fun reversed => .ok (.string (String.ofList reversed.reverse)))
      (fun reason => .error (.unreadable reason)) where
  closed {span _ _ passed _ _} reversed holds passes closes := by
    obtain ⟨rfl, rfl⟩ := Closer.quote_eq_none_iff.mp closes
    have stop := holds.pass
    refine ⟨by decide, ?_⟩
    rw [scanString_eq, holds.passString_append passes, stop.passString_of_stop (Or.inr ⟨rfl, rfl⟩)]
    simp only [Option.bind_some, holds.textBetween, stop.atEnd_cons, Bool.false_eq_true, if_false,
      stop.advance (by decide) (by decide), pass_append]
    simp
  goesOn {span _ _ text} reversed holds passes := by
    rw [← List.append_nil text] at holds
    have stop := holds.pass
    rw [scanString_eq, holds.passString_append passes, stop.passString_of_stop (Or.inl rfl)]
    cases refilled : (span.pass text).refill <;>
    simp [holds.textBetween, stop.atEnd_iff.mpr rfl, refilled]

/-- A string is read as the reader reads it. -/
theorem Holds.scanString {span : Span} {text : List Char} {source : LineSource}
    (holds : span.Holds text) (asks : span.source = source) :
    let body := Body.read .quote false [] text source
    ∃ after, span.scanString "" false =
        some (match body.ending with
          | .failed reason => .error (.unreadable reason)
          | _ => .ok (.string body.content), after) ∧
      span.Behind after [] body :=
  goesOver_string.read holds asks false []

/-! ## Comments -/

theorem Holds.bytesFrom {span : Span} {text : List Char} (holds : span.Holds text) :
    span.bytesFrom span.position = some (bytesOf text) := by
  rw [Span.bytesFrom, if_pos holds.within, ← holds.left]
  rfl

theorem Holds.forward {span : Span} (gone : List Char) {text : List Char}
    (holds : span.Holds (gone ++ text)) :
    span.forward (bytesOf gone).length =
      some { span with position := span.position + (bytesOf gone).length } :=
  forward_of_rest _ (by rw [holds.left, Utf8.bytesOf_append]) holds.within

theorem findIdx_newline (text : List Char) :
    (bytesOf text).findIdx (· == 10) = (bytesOf (text.takeWhile (· != '\n'))).length := by
  induction text with
  | nil => rfl
  | cons c text ih =>
    rw [Utf8.bytesOf_cons]
    by_cases newline : c = '\n'
    · subst newline
      rfl
    · have absent : ¬ (String.utf8EncodeChar c).findIdx (· == 10) < (String.utf8EncodeChar c).length := by
        rw [List.findIdx_lt_length]
        rintro ⟨byte, member, same⟩
        rw [eq_of_beq same] at member
        exact Utf8.newline_not_mem newline member
      rw [List.findIdx_append, if_neg absent, ih, List.takeWhile_cons_of_pos (by simpa using newline),
        Utf8.bytesOf_cons, List.length_append, Nat.add_comm]

/-- A line comment goes up to the newline. -/
theorem Holds.skipLine {span : Span} {text : List Char} (holds : span.Holds text) :
    span.skipLine = some (span.pass (text.takeWhile (· != '\n'))) := by
  have oneLine : '\n' ∉ text.takeWhile (· != '\n') := by
    intro member
    have other := List.all_eq_true.mp List.all_takeWhile _ member
    simp at other
  have whole : span.Holds (text.takeWhile (· != '\n') ++ text.dropWhile (· != '\n')) := by
    rwa [List.takeWhile_append_dropWhile]
  rw [Span.skipLine, holds.bytesFrom, pass_of_newline_not_mem oneLine, ← whole.forward _,
    ← findIdx_newline]
  rfl

theorem closingMark?_of_wide {front : List UInt8} (wide : ∀ byte ∈ front, 128 ≤ byte.toNat)
    (behind : List UInt8) :
    closingMark? (front ++ behind) = (closingMark? behind).map (· + front.length) := by
  induction front with
  | nil => simp
  | cons byte front ih =>
    obtain ⟨first, others⟩ := List.forall_mem_cons.mp wide
    have noAsterisk : byte ≠ 42 := by
      rintro rfl
      exact absurd first (by decide)
    rw [List.cons_append, closingMark?, if_neg fun mark => noAsterisk mark.1, ih others,
      Option.map_map]
    rfl

/-- A closing mark is told from the characters. -/
theorem closingMark?_cons (c : Char) (text : List Char) :
    closingMark? (bytesOf (c :: text)) =
      if c = '*' ∧ text.head? = some '/' then some 0
      else (closingMark? (bytesOf text)).map (· + (bytesOf [c]).length) := by
  by_cases ascii : c.toNat < 128
  · have bytes : bytesOf (c :: text) = UInt8.ofNat c.toNat :: bytesOf text := by
      rw [Utf8.bytesOf_cons, Utf8.utf8EncodeChar_of_ascii ascii]
      rfl
    have one : bytesOf [c] = [UInt8.ofNat c.toNat] := by
      rw [Utf8.bytesOf_cons, Utf8.utf8EncodeChar_of_ascii ascii]
      rfl
    have asterisk : UInt8.ofNat c.toNat = 42 ↔ c = '*' := by
      constructor
      · intro same
        rw [← Utf8.charOf_of_ascii ascii, same]
        rfl
      · rintro rfl
        rfl
    have slash : (bytesOf text).head? = some 47 ↔ text.head? = some '/' :=
      Utf8.head?_bytesOf (c := '/') (by decide)
    simp only [bytes, one, closingMark?, asterisk, slash, List.length_singleton]
  · have other : c ≠ '*' := by
      rintro rfl
      exact ascii (by decide)
    rw [if_neg fun mark => other mark.1, Utf8.bytesOf_cons, closingMark?_of_wide]
    · simp
    · exact fun byte => Utf8.le_of_mem_utf8EncodeChar (Nat.le_of_not_lt ascii)

theorem closingMark?_of_none {text : List Char} (none : ¬ ['*', '/'] <:+: text) :
    closingMark? (bytesOf text) = .none := by
  induction text with
  | nil => rfl
  | cons c text ih =>
    rw [List.infix_cons_iff, not_or] at none
    rw [closingMark?_cons, if_neg, ih none.2, Option.map_none]
    rintro ⟨rfl, second⟩
    obtain ⟨rest, rfl⟩ := List.head?_eq_some_iff.mp second
    exact none.1 ⟨rest, rfl⟩

/-- The first closing mark is the one that is found. -/
theorem closingMark?_of_first {inner : List Char} (first : ¬ ['*', '/'] <:+: inner ++ ['*'])
    (behind : List Char) :
    closingMark? (bytesOf (inner ++ '*' :: '/' :: behind)) = some (bytesOf inner).length := by
  induction inner with
  | nil =>
    rw [List.nil_append, closingMark?_cons]
    rfl
  | cons c inner ih =>
    rw [List.cons_append, List.infix_cons_iff, not_or] at first
    rw [List.cons_append, closingMark?_cons, if_neg, ih first.2]
    · simp [Nat.add_comm]
    · rintro ⟨rfl, second⟩
      match inner with
      | [] => cases second
      | d :: inner =>
        cases second
        exact first.1 ⟨inner ++ ['*'], rfl⟩

/-- The bytes that are counted and passed over in a block comment are those of some text. -/
theorem firstBytes_bytesOf (gone text : List Char) :
    firstBytes (bytesOf (gone ++ text)) (bytesOf gone).length = some (bytesOf gone) := by
  rw [firstBytes, if_pos, Utf8.bytesOf_append, List.take_left]
  simp

theorem Holds.skipBytes {span : Span} {gone text : List Char} (holds : span.Holds (gone ++ text)) :
    span.skipBytes (bytesOf (gone ++ text)) (bytesOf gone).length = some (span.pass gone) := by
  simp only [Span.skipBytes, firstBytes_bytesOf, holds.forward gone, Utf8.count_bytesOf,
    Option.bind_eq_bind, Option.bind_some, Option.pure_def]
  rfl

/-- A slash at the start closes a comment that an asterisk came before. -/
theorem Holds.skipBlock_of_slash {span : Span} {text : List Char} (holds : span.Holds ('/' :: text)) :
    span.skipBlock true = some (none, span.pass ['/']) := by
  have moved := Holds.forward ['/'] holds
  have slash : (bytesOf ('/' :: text)).head? = some 47 := rfl
  rw [skipBlock_eq, holds.bytesFrom, Option.bind_some, if_pos ⟨rfl, slash⟩,
    pass_of_newline_not_mem (by decide)]
  exact congrArg (Option.bind · _) moved

/-- A block comment whose closing mark is in its span. -/
theorem Holds.skipBlock_of_closed {span : Span} {inner behind : List Char}
    (holds : span.Holds (inner ++ ['*', '/'] ++ behind)) {asterisk : Bool}
    (noSlash : asterisk = true → (inner ++ ['*']).head? ≠ some '/')
    (first : ¬ ['*', '/'] <:+: inner ++ ['*']) :
    span.skipBlock asterisk = some (none, span.pass (inner ++ ['*', '/'])) := by
  have found : closingMark? (bytesOf (inner ++ ['*', '/'] ++ behind)) = some (bytesOf inner).length := by
    rw [List.append_assoc]
    exact closingMark?_of_first first behind
  have size : (bytesOf inner).length + 2 = (bytesOf (inner ++ ['*', '/'])).length := by
    rw [Utf8.bytesOf_append, List.length_append]
    rfl
  have goesOn : ¬ (asterisk = true ∧ (bytesOf (inner ++ ['*', '/'] ++ behind)).head? = some 47) := by
    rintro ⟨set, slash⟩
    have := (Utf8.head?_bytesOf (c := '/') (by decide)).mp slash
    apply noSlash set
    cases inner with
    | nil => cases this
    | cons c inner => exact this
  rw [skipBlock_eq, holds.bytesFrom, Option.bind_some, if_neg goesOn]
  simp only [found, Option.map_some, Option.getD_some, size, holds.skipBytes, Option.bind_some,
    Option.isSome_some, if_true]

/-- Whether an asterisk comes last is remembered, or told from the last byte. -/
theorem comment_after_eq (asterisk : Bool) (text : List Char) :
    text.foldl (fun _ c => c == '*') asterisk =
      decide ((bytesOf text).getLast? = some 42 ∨ (bytesOf text).isEmpty = true ∧ asterisk = true) := by
  have last : (bytesOf text).getLast? = some 42 ↔ text.getLast? = some '*' :=
    Utf8.getLast?_bytesOf (c := '*') (by decide)
  rcases List.eq_nil_or_concat text with rfl | ⟨before, c, rfl⟩
  · simp
  · rw [List.concat_eq_append] at last ⊢
    rw [Bool.eq_iff_iff, decide_eq_true_iff, last, List.isEmpty_iff]
    simp

/-- A block comment that is not closed in its span. -/
theorem Holds.skipBlock_of_open {span : Span} {text : List Char} (holds : span.Holds text)
    {asterisk last : Bool} (passes : Closer.comment.after asterisk text = some last) :
    span.skipBlock asterisk =
      match (span.pass text).refill with
      | .more after => after.skipBlock last
      | .dry => some (none, span.pass text)
      | .failed reason after => some (some reason, after) := by
  obtain ⟨noMark, noSlash, same⟩ := Closer.of_comment_after passes
  have goesOn : ¬ (asterisk = true ∧ (bytesOf text).head? = some 47) := by
    rintro ⟨set, slash⟩
    exact noSlash set ((Utf8.head?_bytesOf (c := '/') (by decide)).mp slash)
  have skipped : span.skipBytes (bytesOf text) (bytesOf text).length = some (span.pass text) := by
    have whole : span.Holds (text ++ []) := by rwa [List.append_nil]
    simpa using whole.skipBytes
  rw [same, comment_after_eq, skipBlock_eq, holds.bytesFrom, Option.bind_some, if_neg goesOn]
  cases refilled : (span.pass text).refill <;>
  simp only [closingMark?_of_none noMark, Option.map_none, Option.getD_none, skipped, Option.bind_some,
    Option.isSome_none, Bool.false_eq_true, if_false, refilled]

/-- A block comment is passed over up to its closing mark, or on over further spans. -/
theorem goesOver_comment :
    GoesOver .comment (fun asterisk _ span => span.skipBlock asterisk) (fun _ => none) some where
  closed {span asterisk last passed behind c} _ holds passes closes := by
    obtain ⟨rfl, rfl⟩ := Closer.comment_eq_none_iff.mp closes
    refine ⟨by decide, ?_⟩
    obtain ⟨noMark, noSlash, -⟩ := Closer.of_comment_after passes
    rcases Closer.asterisk_of_comment_after passes with ⟨rfl, rfl⟩ | ⟨inner, rfl⟩
    · exact holds.skipBlock_of_slash
    · have whole : inner ++ ['*'] ++ '/' :: behind = inner ++ ['*', '/'] ++ behind := by simp
      rw [whole] at holds
      rw [holds.skipBlock_of_closed noSlash noMark, List.append_assoc]
      rfl
  goesOn _ holds passes := holds.skipBlock_of_open passes

/-- A block comment is passed over as the reader passes over it. -/
theorem Holds.skipBlock {span : Span} {text : List Char} {source : LineSource}
    (holds : span.Holds text) (asks : span.source = source) :
    let body := Body.read .comment false [] text source
    ∃ after, span.skipBlock false =
        some (match body.ending with
          | .failed reason => some reason
          | _ => none, after) ∧
      span.Behind after [] body :=
  goesOver_comment.read holds asks false []

end Span
end TokenTape
