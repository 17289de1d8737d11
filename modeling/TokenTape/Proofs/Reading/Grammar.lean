import TokenTape.Proofs.Reading.Lines
import TokenTape.Reading.Reader
/-!
How lexemes are written. `Lexeme.Written` is the lexical grammar, told without a reader: a lexeme
stands beside the characters that make it. A numeral is written as its parts, a string between
quotes that nothing inside it can close. `Lexeme.CutOff` adds the string that has lost its closing
quote to the end of input. What `Reader.take` takes is written so (`take_ok`), over as many replies
as it may reach.
-/
namespace TokenTape

/-! ## Numerals -/

/-- How a sign is written: a plus sign may be left out. -/
inductive Exponent.SignWritten : Bool → List Char → Prop
  | none : SignWritten false []
  | plus : SignWritten false ['+']
  | minus : SignWritten true ['-']

/-- How an exponent is written: a mark, a sign and at least one digit. -/
inductive Exponent.Written : Exponent → List Char → Prop
  | parts {mark : Char} {negative : Bool} {sign digits : List Char}
      (marked : mark = 'e' ∨ mark = 'E') (signed : SignWritten negative sign)
      (some : digits ≠ []) (digit : ∀ c ∈ digits, c.isDigit = true) :
      Written ⟨negative, digits⟩ (mark :: (sign ++ digits))

/-- How the fraction of a numeral is written: a point and any number of digits. -/
inductive Numeral.FractionWritten : Option (List Char) → List Char → Prop
  | absent : FractionWritten none []
  | present {digits : List Char} (digit : ∀ c ∈ digits, c.isDigit = true) :
      FractionWritten (some digits) ('.' :: digits)

/-- How the exponent of a numeral is written. -/
inductive Numeral.ExponentWritten : Option Exponent → List Char → Prop
  | absent : ExponentWritten none []
  | present {exponent : Exponent} {text : List Char} (written : exponent.Written text) :
      ExponentWritten (some exponent) text

/-- How a numeral is written: at least one digit, then its other parts. -/
inductive Numeral.Written : Numeral → List Char → Prop
  | parts {whole fractionText exponentText : List Char} {fraction : Option (List Char)}
      {exponent : Option Exponent} (some : whole ≠ []) (digit : ∀ c ∈ whole, c.isDigit = true)
      (fractionWritten : Numeral.FractionWritten fraction fractionText)
      (exponentWritten : Numeral.ExponentWritten exponent exponentText) :
      Written ⟨whole, fraction, exponent⟩ (whole ++ (fractionText ++ exponentText))

namespace Exponent

private theorem readSign_written (text : List Char) :
    ∃ sign, text = sign ++ (readSign text).2 ∧ SignWritten (readSign text).1 sign := by
  fun_cases readSign text with
  | case1 rest => exact ⟨['-'], rfl, .minus⟩
  | case2 rest => exact ⟨['+'], rfl, .plus⟩
  | case3 => exact ⟨[], rfl, .none⟩

/-- What is read as an exponent is gone from the text, and nothing else is. -/
theorem read_written (text : List Char) :
    ∃ written, text = written ++ (read text).2 ∧
      Numeral.ExponentWritten (read text).1 written := by
  unfold read
  split
  · exact ⟨[], rfl, .absent⟩
  · next mark rest =>
    split
    · next marked =>
      obtain ⟨sign, whole, signed⟩ := readSign_written rest
      dsimp only
      split
      · exact ⟨[], rfl, .absent⟩
      · next some =>
        refine ⟨_, ?_, .present (.parts marked signed ?_ ?_)⟩
        · simp only [List.cons_append, List.append_assoc, List.takeWhile_append_dropWhile]
          rw [← whole]
        · simpa using some
        · exact List.all_eq_true.mp List.all_takeWhile
    · exact ⟨[], rfl, .absent⟩

end Exponent

namespace Numeral

private theorem readFraction_written (text : List Char) :
    ∃ written, text = written ++ (readFraction text).2 ∧
      FractionWritten (readFraction text).1 written := by
  fun_cases readFraction text with
  | case1 rest =>
    refine ⟨_, ?_, .present (List.all_eq_true.mp List.all_takeWhile)⟩
    rw [List.cons_append, List.takeWhile_append_dropWhile]
  | case2 => exact ⟨[], rfl, .absent⟩

/-- What is read as a numeral at a digit is gone from the text, and nothing else is. -/
theorem read_written {c : Char} (digit : c.isDigit = true) (text : List Char) :
    ∃ written, c :: text = written ++ (read (c :: text)).2 ∧
      (read (c :: text)).1.Written written := by
  obtain ⟨fraction, afterWhole, hasFraction⟩ :=
    readFraction_written ((c :: text).dropWhile Char.isDigit)
  obtain ⟨exponent, afterFraction, hasExponent⟩ :=
    Exponent.read_written (readFraction ((c :: text).dropWhile Char.isDigit)).2
  refine ⟨_, ?_, .parts ?_ (List.all_eq_true.mp List.all_takeWhile) hasFraction hasExponent⟩
  · simp only [read, List.append_assoc]
    rw [← afterFraction, ← afterWhole, List.takeWhile_append_dropWhile]
  · simp [digit]

/-- There is no newline in a numeral. -/
theorem Written.newline_not_mem {numeral : Numeral} {text : List Char}
    (written : numeral.Written text) : '\n' ∉ text := by
  have noDigit {digits : List Char} (all : ∀ c ∈ digits, c.isDigit = true) : '\n' ∉ digits := by
    intro member
    cases all _ member
  obtain ⟨-, digits, fraction, exponent⟩ := written
  simp only [List.mem_append, not_or]
  refine ⟨noDigit digits, ?_, ?_⟩
  · cases fraction with
    | absent => exact List.not_mem_nil
    | present digit => simpa using noDigit digit
  · cases exponent with
    | absent => exact List.not_mem_nil
    | present written =>
      obtain ⟨marked, signed, -, digits⟩ := written
      rcases marked with rfl | rfl <;> cases signed <;> simpa using noDigit digits

end Numeral

/-! ## Strings -/

/-- Text that can stand between quotes: no quote in it is without a backslash that protects it,
and no backslash is left without something to protect. -/
inductive Quotable : List Char → Prop
  | nil : Quotable []
  | plain {c : Char} {text : List Char} (noQuote : c ≠ '"') (noBackslash : c ≠ '\\')
      (rest : Quotable text) : Quotable (c :: text)
  | protectedOne (c : Char) {text : List Char} (rest : Quotable text) :
      Quotable ('\\' :: c :: text)

namespace Closer

/-- What is remembered after some text, unless it closes the body. -/
def after (closer : Closer) (memory : Bool) (text : List Char) : Option Bool :=
  text.foldlM closer memory

@[simp] theorem after_nil (closer : Closer) (memory : Bool) : closer.after memory [] = some memory :=
  rfl

theorem after_cons (closer : Closer) (memory : Bool) (c : Char) (text : List Char) :
    closer.after memory (c :: text) = (closer memory c).bind (closer.after · text) := rfl

theorem after_append (closer : Closer) (memory : Bool) (first second : List Char) :
    closer.after memory (first ++ second) =
      (closer.after memory first).bind (closer.after · second) :=
  List.foldlM_append

theorem quote_eq_none_iff {memory : Bool} {c : Char} :
    quote memory c = none ↔ memory = false ∧ c = '"' := by
  cases memory <;> simp [quote]

/-- Quotable text never closes a string, and behind it nothing is protected. -/
theorem quote_after_of_quotable {text : List Char} (quotable : Quotable text) :
    quote.after false text = some false := by
  induction quotable with
  | nil => rfl
  | @plain c text noQuote noBackslash _ ih =>
    have goes : quote false c = some false := by simp [quote, noQuote, noBackslash]
    rw [after_cons, goes]
    exact ih
  | protectedOne c _ ih => exact ih

/-- Text that does not close a string is quotable, up to a last backslash with nothing behind. -/
theorem quotable_of_quote_after {text : List Char} {memory : Bool}
    (passes : quote.after false text = some memory) :
    ∃ body, Quotable body ∧ text = body ++ if memory then ['\\'] else [] := by
  induction size : text.length using Nat.strongRecOn generalizing text with
  | ind size ih =>
    match text with
    | [] =>
      cases passes
      exact ⟨[], .nil, rfl⟩
    | [c] =>
      rw [after_cons] at passes
      by_cases quoted : c = '"'
      · simp [quote, quoted] at passes
      · rw [quote, if_neg quoted] at passes
        cases passes
        by_cases backslash : c = '\\'
        · exact ⟨[], .nil, by simp [backslash]⟩
        · exact ⟨[c], .plain quoted backslash .nil, by simp [backslash]⟩
    | c :: d :: rest =>
      simp only [List.length_cons] at size
      rw [after_cons] at passes
      by_cases quoted : c = '"'
      · simp [quote, quoted] at passes
      · rw [quote, if_neg quoted] at passes
        by_cases backslash : c = '\\'
        · subst c
          obtain ⟨body, quotable, same⟩ := ih rest.length (by omega) passes rfl
          exact ⟨_, .protectedOne d quotable, by rw [same]; rfl⟩
        · rw [show (c == '\\') = false by simpa using backslash] at passes
          obtain ⟨body, quotable, same⟩ := ih (d :: rest).length (by simp; omega) passes rfl
          exact ⟨_, .plain quoted backslash quotable, by rw [same]; rfl⟩

end Closer

namespace Closer

/-- A closer finds its end in a text or passes over all of it. -/
theorem split (closer : Closer) (memory : Bool) (text : List Char) :
    (∃ passed c behind last, text = passed ++ c :: behind ∧ closer.after memory passed = some last ∧
        closer last c = none) ∨
      ∃ last, closer.after memory text = some last := by
  induction text generalizing memory with
  | nil => exact Or.inr ⟨memory, rfl⟩
  | cons c text ih =>
    match goes : closer memory c with
    | none => exact Or.inl ⟨[], c, text, memory, rfl, rfl, goes⟩
    | some memory' =>
      have further {more : List Char} :
          closer.after memory (c :: more) = closer.after memory' more := by
        rw [after_cons, goes]
        rfl
      rcases ih memory' with ⟨passed, d, behind, last, rfl, passes, closes⟩ | ⟨last, passes⟩
      · exact Or.inl ⟨c :: passed, d, behind, last, rfl, further.trans passes, closes⟩
      · exact Or.inr ⟨last, further.trans passes⟩

theorem comment_eq_none_iff {memory : Bool} {c : Char} :
    comment memory c = none ↔ memory = true ∧ c = '/' := by
  simp [comment]

/-- Text that does not close a block comment has no closing mark in it, also not together with an
asterisk before it, and its last character is remembered. -/
theorem of_comment_after {memory last : Bool} {text : List Char}
    (passes : comment.after memory text = some last) :
    ¬ ['*', '/'] <:+: text ∧ (memory = true → text.head? ≠ some '/') ∧
      last = text.foldl (fun _ c => c == '*') memory := by
  induction text generalizing memory with
  | nil =>
    cases passes
    simp
  | cons c rest ih =>
    rw [after_cons] at passes
    by_cases closes : comment memory c = none
    · rw [closes] at passes
      cases passes
    · rw [comment_eq_none_iff] at closes
      rw [comment, if_neg (by simpa using closes)] at passes
      obtain ⟨inside, noSlash, same⟩ := ih passes
      refine ⟨?_, ?_, same⟩
      · rw [List.infix_cons_iff]
        rintro (⟨more, whole⟩ | within)
        · cases whole
          exact noSlash rfl rfl
        · exact inside within
      · intro set first
        exact closes ⟨set, by simpa using first⟩

/-- Where an asterisk is remembered, it was the last character, or nothing has come since. -/
theorem asterisk_of_comment_after {memory : Bool} {text : List Char}
    (passes : comment.after memory text = some true) :
    text = [] ∧ memory = true ∨ ∃ content, text = content ++ ['*'] := by
  obtain ⟨-, -, remembered⟩ := of_comment_after passes
  rcases List.eq_nil_or_concat text with rfl | ⟨content, c, rfl⟩
  · exact Or.inl ⟨rfl, remembered.symm⟩
  · rw [List.concat_eq_append] at remembered ⊢
    obtain rfl : c = '*' := by simpa using remembered
    exact Or.inr ⟨content, rfl⟩

/-- A text has no closing mark of a block comment, or it has a first one. -/
theorem unmarked_or_first (text : List Char) :
    ¬ ['*', '/'] <:+: text ∨ ∃ content behind, text = content ++ '*' :: '/' :: behind ∧
      ¬ ['*', '/'] <:+: content ++ ['*'] := by
  rcases comment.split false text with
    ⟨passed, c, behind, last, rfl, passes, closes⟩ | ⟨last, passes⟩
  · obtain ⟨rfl, rfl⟩ := comment_eq_none_iff.mp closes
    have unmarked := (of_comment_after passes).1
    rcases asterisk_of_comment_after passes with ⟨-, set⟩ | ⟨content, rfl⟩
    · cases set
    · exact Or.inr ⟨content, behind, by simp, unmarked⟩
  · exact Or.inl (of_comment_after passes).1

/-- Text without a closing mark passes as the inside of a block comment. -/
theorem comment_after_of_unmarked {text : List Char} (unmarked : ¬ ['*', '/'] <:+: text) :
    comment.after false text = some (text.foldl (fun _ c => c == '*') false) := by
  rcases comment.split false text with
    ⟨passed, c, behind, last, rfl, passes, closes⟩ | ⟨last, passes⟩
  · obtain ⟨rfl, rfl⟩ := comment_eq_none_iff.mp closes
    rcases asterisk_of_comment_after passes with ⟨-, set⟩ | ⟨content, rfl⟩
    · cases set
    · exact absurd ⟨content, behind, by simp⟩ unmarked
  · rw [passes, (of_comment_after passes).2.2]

end Closer

namespace Body

/-- Where the reading of a body ends, told without the places where its input is cut: it passes
over text that does not close it, and stops at what does, or where all input ends, or at a reply
that failed. -/
theorem read_split (closer : Closer) (memory : Bool) (reversed text : List Char)
    (source : LineSource) :
    let body := read closer memory reversed text source
    ∃ passed closing last,
      text ++ source.text = passed ++ closing ++ (body.text ++ body.source.text) ∧
      body.reversed = passed.reverse ++ reversed ∧ closer.after memory passed = some last ∧
      match body.ending with
      | .closed => ∃ c, closing = [c] ∧ closer last c = none
      | .exhausted => closing = [] ∧ body.text = [] ∧ body.source = []
      | .failed _ => closing = [] ∧ body.text = [] := by
  fun_induction read closer memory reversed text source with
  | case1 memory reversed c text source closes =>
    exact ⟨[], [c], memory, rfl, rfl, rfl, c, rfl, closes⟩
  | case2 memory reversed c text source memory' goes ih =>
    obtain ⟨passed, closing, last, whole, same, passes, ending⟩ := ih
    refine ⟨c :: passed, closing, last, ?_, ?_, ?_, ending⟩
    · simpa using whole
    · simpa using same
    · rw [Closer.after_cons, goes]
      exact passes
  | case3 memory reversed => exact ⟨[], [], memory, rfl, rfl, rfl, rfl, rfl, rfl⟩
  | case4 memory reversed reason source => exact ⟨[], [], memory, rfl, rfl, rfl, rfl, rfl⟩
  | case5 memory reversed more source ih => exact ih

end Body

/-! ## Comments -/

/-- A comment, and what stands behind it. A line comment goes up to its newline or to the end, and
a block comment through the first closing mark behind its opening one, or to the end. -/
inductive Comment : List Char → List Char → Prop
  | line {body behind : List Char} (oneLine : '\n' ∉ body)
      (ends : behind = [] ∨ behind.head? = some '\n') : Comment ('/' :: '/' :: body) behind
  | block {body : List Char} (behind : List Char) (first : ¬ ['*', '/'] <:+: body) :
      Comment ('/' :: '*' :: (body ++ ['*', '/'])) behind
  | openBlock {body : List Char} (never : ¬ ['*', '/'] <:+: body) :
      Comment ('/' :: '*' :: body) []

/-- The block comment that is read behind its opening mark. -/
theorem Body.read_comment (text : List Char) (source : LineSource) :
    let body := Body.read .comment false [] text source
    ∃ written, '/' :: '*' :: (text ++ source.text) = written ++ (body.text ++ body.source.text) ∧
      body.newlines = written.count '\n' ∧
      match body.ending with
      | .failed _ => True
      | _ => Comment written (body.text ++ body.source.text) := by
  intro body
  obtain ⟨passed, closing, last, whole, same, passes, ending⟩ :=
    Body.read_split .comment false [] text source
  change text ++ source.text = passed ++ closing ++ (body.text ++ body.source.text) at whole
  change body.reversed = passed.reverse ++ [] at same
  have newlines : body.newlines = passed.count '\n' := by
    rw [Body.newlines, same, List.append_nil, List.count_reverse]
  obtain ⟨inside, -, -⟩ := Closer.of_comment_after passes
  refine ⟨'/' :: '*' :: (passed ++ closing), by rw [whole]; rfl, ?_⟩
  rw [newlines]
  change match body.ending with
    | .closed => ∃ c, closing = [c] ∧ Closer.comment last c = none
    | .exhausted => closing = [] ∧ body.text = [] ∧ body.source = []
    | .failed _ => closing = [] ∧ body.text = [] at ending
  match ended : body.ending with
  | .closed =>
    rw [ended] at ending
    obtain ⟨c, rfl, closes⟩ := ending
    obtain ⟨rfl, rfl⟩ := Closer.comment_eq_none_iff.mp closes
    rcases Closer.asterisk_of_comment_after passes with ⟨-, set⟩ | ⟨inner, rfl⟩
    · cases set
    · refine ⟨by simp, ?_⟩
      rw [List.append_assoc]
      exact .block _ fun early => inside (early.trans (List.prefix_append _ _).isInfix)
  | .exhausted =>
    rw [ended] at ending
    obtain ⟨rfl, text, source⟩ := ending
    rw [text, source]
    refine ⟨by simp, ?_⟩
    rw [List.append_nil]
    exact .openBlock inside
  | .failed _ =>
    rw [ended] at ending
    obtain ⟨rfl, -⟩ := ending
    exact ⟨by simp, trivial⟩

/-! ## Lexemes -/

/-- How a lexeme is written in source text. -/
inductive Lexeme.Written : Lexeme → List Char → Prop
  | word {c : Char} {rest : List Char} (starts : startsWord c = true)
      (continues : ∀ d ∈ rest, continuesWord d = true) :
      Written (.word (String.ofList (c :: rest))) (c :: rest)
  | numeral {numeral : Numeral} {text : List Char} (written : numeral.Written text) :
      Written (.numeral numeral) text
  | string {body : List Char} (quotable : Quotable body) :
      Written (.string (String.ofList body)) ('"' :: (body ++ ['"']))
  | character {c : Char} (oneByte : c.utf8Size = 1) :
      Written (.character c) ['\'', c, '\'']
  | symbol (symbol : Symbol) : Written (.symbol symbol) symbol.spelling

/-- How a string is written that goes on to the end of all input. A backslash with nothing behind
it belongs to the string. -/
inductive Lexeme.CutOff : Lexeme → List Char → Prop
  | plain {body : List Char} (quotable : Quotable body) :
      CutOff (.string (String.ofList body)) ('"' :: body)
  | backslash {body : List Char} (quotable : Quotable body) :
      CutOff (.string (String.ofList (body ++ ['\\']))) ('"' :: (body ++ ['\\']))

theorem Lexeme.Written.ne_nil {lexeme : Lexeme} {text : List Char}
    (written : lexeme.Written text) : text ≠ [] := by
  cases written with
  | word => exact List.cons_ne_nil _ _
  | numeral written =>
    obtain ⟨some, -⟩ := written
    simp [some]
  | string => exact List.cons_ne_nil _ _
  | character => exact List.cons_ne_nil _ _
  | symbol symbol => cases symbol <;> exact List.cons_ne_nil _ _

/-- The string that is read behind an opening quote, and how it is written. -/
theorem Body.read_quote (rest : List Char) (source : LineSource) :
    let body := Body.read .quote false [] rest source
    ∃ written, '"' :: (rest ++ source.text) = written ++ (body.text ++ body.source.text) ∧
      body.newlines = written.count '\n' ∧
      match body.ending with
      | .closed => (Lexeme.string body.content).Written written
      | .exhausted =>
        (Lexeme.string body.content).CutOff written ∧ body.text = [] ∧ body.source = []
      | .failed _ => True := by
  intro body
  obtain ⟨passed, closing, last, whole, same, passes, ending⟩ :=
    Body.read_split .quote false [] rest source
  change rest ++ source.text = passed ++ closing ++ (body.text ++ body.source.text) at whole
  change body.reversed = passed.reverse ++ [] at same
  rw [List.append_nil] at same
  have content : body.content = String.ofList passed := by
    rw [Body.content, same, List.reverse_reverse]
  have newlines : body.newlines = passed.count '\n' := by
    rw [Body.newlines, same, List.count_reverse]
  obtain ⟨inner, quotable, rfl⟩ := Closer.quotable_of_quote_after passes
  refine ⟨'"' :: (_ ++ closing), by rw [whole]; rfl, ?_⟩
  rw [content, newlines]
  change match body.ending with
    | .closed => ∃ c, closing = [c] ∧ Closer.quote last c = none
    | .exhausted => closing = [] ∧ body.text = [] ∧ body.source = []
    | .failed _ => closing = [] ∧ body.text = [] at ending
  split at ending
  · obtain ⟨c, rfl, closes⟩ := ending
    obtain ⟨rfl, rfl⟩ := Closer.quote_eq_none_iff.mp closes
    simp only [Bool.false_eq_true, if_false, List.append_nil]
    exact ⟨by simp, .string quotable⟩
  · obtain ⟨rfl, text, source⟩ := ending
    refine ⟨by simp, ?_, text, source⟩
    cases last with
    | false =>
      simp only [Bool.false_eq_true, if_false, List.append_nil]
      exact .plain quotable
    | true =>
      simp only [if_true, List.append_nil]
      exact .backslash quotable
  · obtain ⟨rfl, -⟩ := ending
    exact ⟨by simp, trivial⟩

namespace Reader

/-- What is taken as a lexeme is written as that lexeme, or the end of input has cut it off. Only
where nothing is left, the end of input is taken. -/
theorem take_ok {reader after : Reader} {lexeme : Lexeme}
    (taken : reader.take = (.ok lexeme, after)) :
    reader.stray = [] ∧ after.stray = [] ∧ after.tokenLine = reader.line ∧
      (lexeme = .endOfInput ∧ reader.text = [] ∧ after.text = [] ∧
          after.source = reader.source ∧ after.line = reader.line ∨
        ∃ written, reader.text ++ reader.source.text =
            written ++ (after.text ++ after.source.text) ∧
          after.line = reader.line + written.count '\n' ∧
          (lexeme.Written written ∨
            lexeme.CutOff written ∧ after.text = [] ∧ after.source = [])) := by
  obtain ⟨stray, text, source, line, tokenLine⟩ := reader
  match stray, text with
  | byte :: stray, text => cases taken
  | [], [] =>
    cases taken
    exact ⟨rfl, rfl, rfl, Or.inl ⟨rfl, rfl, rfl, rfl, rfl⟩⟩
  | [], c :: rest =>
    -- A lexeme other than a string is taken from the text at hand, and only a character literal
    -- can have a newline in it.
    have atHand {written text : List Char} (whole : c :: rest = written ++ text)
        (oneLine : '\n' ∉ written) :
        c :: rest ++ source.text = written ++ (text ++ source.text) ∧
          line = line + written.count '\n' := by
      rw [List.count_eq_zero.mpr oneLine, whole, List.append_assoc]
      exact ⟨rfl, rfl⟩
    simp only [take] at taken
    split at taken
    · next starts =>
      cases taken
      have continues : ∀ d ∈ rest.takeWhile continuesWord, continuesWord d = true :=
        List.all_eq_true.mp List.all_takeWhile
      have oneLine : '\n' ∉ c :: rest.takeWhile continuesWord := by
        intro member
        rcases List.mem_cons.mp member with rfl | later
        · cases starts
        · cases continues _ later
      have whole : c :: rest = c :: rest.takeWhile continuesWord ++ rest.dropWhile continuesWord := by
        rw [List.cons_append, List.takeWhile_append_dropWhile]
      obtain ⟨left, lines⟩ := atHand whole oneLine
      exact ⟨rfl, rfl, rfl, Or.inr ⟨_, left, lines, Or.inl (.word starts continues)⟩⟩
    split at taken
    · next digit =>
      obtain ⟨written, whole, isNumeral⟩ := Numeral.read_written digit rest
      cases taken
      obtain ⟨left, lines⟩ := atHand whole isNumeral.newline_not_mem
      exact ⟨rfl, rfl, rfl, Or.inr ⟨_, left, lines, Or.inl (.numeral isNumeral)⟩⟩
    split at taken
    · next quote =>
      subst quote
      obtain ⟨written, whole, newlines, ending⟩ := Body.read_quote rest source
      split at taken
      · cases taken
      · next notFailed =>
        cases taken
        refine ⟨rfl, rfl, rfl, Or.inr ⟨written, whole, by rw [newlines], ?_⟩⟩
        split at ending
        · exact Or.inl ending
        · exact Or.inr ending
        · next failed => exact absurd failed (notFailed _)
    split at taken
    · next apostrophe =>
      subst apostrophe
      split at taken
      · split at taken
        · next oneByte =>
          cases taken
          refine ⟨rfl, rfl, rfl, Or.inr ⟨_, rfl, ?_, Or.inl (.character oneByte)⟩⟩
          simp only [lineAfter, List.count_cons, List.count_nil]
          split <;> simp [*]
        · cases taken
      · cases taken
    split at taken
    · next symbol after' found =>
      cases taken
      have oneLine : '\n' ∉ symbol.spelling := by cases symbol <;> decide
      obtain ⟨left, lines⟩ := atHand (Symbol.spelling_append_of_front? found).symm oneLine
      exact ⟨rfl, rfl, rfl, Or.inr ⟨_, left, lines, Or.inl (.symbol symbol)⟩⟩
    · cases taken

/-- The end of input is told as often as one asks for it. -/
theorem remaining_of_endOfInput {reader after : Reader} (taken : reader.next = (.ok .endOfInput, after)) :
    after.remaining ≤ reader.remaining := by
  have settled := settle_remaining_le reader
  unfold next at taken
  split at taken
  · cases taken
  · next stopped found =>
    obtain ⟨whole, clean, -, ⟨-, none, noMore, same, -⟩ | ⟨written, _, _, isWritten | ⟨cutOff, _⟩⟩⟩ :=
      take_ok taken
    · have level : after.remaining = stopped.remaining := by
        rw [remaining, remaining, whole, clean, none, noMore, same]
      rw [found] at settled
      rw [level]
      exact settled
    · cases isWritten
    · cases cutOff

/-- What is used up where no lexeme can be taken. A fault costs one byte: the first that is left of
a refused character, or the first of the character that stands here. A failed reply costs the
string that it interrupts. -/
theorem take_error {reader after : Reader} {obstacle : Obstacle}
    (taken : reader.take = (.error obstacle, after)) :
    after.tokenLine = reader.line ∧
      ((∃ fault, obstacle = .fault fault ∧ after.line = reader.line ∧
          after.source = reader.source ∧
          ((∃ byte, reader.stray = byte :: after.stray ∧ after.text = reader.text ∧
              fault = .illegal (Char.ofNat byte.toNat)) ∨
            ∃ c, reader.stray = [] ∧ reader.text = c :: after.text ∧
              after.stray = (String.utf8EncodeChar c).tail)) ∨
        ∃ reason passed, obstacle = .unreadable reason ∧ reader.stray = [] ∧ after.stray = [] ∧
          reader.text ++ reader.source.text = passed ++ (after.text ++ after.source.text) ∧
          after.line = reader.line + passed.count '\n') := by
  obtain ⟨stray, text, source, line, tokenLine⟩ := reader
  match stray, text with
  | byte :: stray, text =>
    cases taken
    exact ⟨rfl, Or.inl ⟨_, rfl, rfl, rfl, Or.inl ⟨byte, rfl, rfl, rfl⟩⟩⟩
  | [], [] => cases taken
  | [], c :: rest =>
    simp only [take] at taken
    split at taken
    · cases taken
    split at taken
    · cases taken
    split at taken
    · next quote =>
      subst quote
      obtain ⟨written, whole, newlines, -⟩ := Body.read_quote rest source
      split at taken
      · cases taken
        exact ⟨rfl, Or.inr ⟨_, written, rfl, rfl, rfl, whole, by rw [newlines]⟩⟩
      · cases taken
    split at taken
    · next apostrophe =>
      subst apostrophe
      have oneByte : [] = (String.utf8EncodeChar '\'').tail := rfl
      split at taken
      · split at taken
        · cases taken
        · cases taken
          exact ⟨rfl, Or.inl ⟨_, rfl, rfl, rfl, Or.inr ⟨_, rfl, rfl, oneByte⟩⟩⟩
      · cases taken
        exact ⟨rfl, Or.inl ⟨_, rfl, rfl, rfl, Or.inr ⟨_, rfl, rfl, oneByte⟩⟩⟩
    split at taken
    · cases taken
    · cases taken
      exact ⟨rfl, Or.inl ⟨_, rfl, rfl, rfl, Or.inr ⟨c, rfl, rfl, rfl⟩⟩⟩

end Reader
end TokenTape
