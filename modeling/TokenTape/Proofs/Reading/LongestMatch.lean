import TokenTape.Proofs.Reading.Grammar
/-!
Longest match. Several lexemes may stand at the front of a text, each one a prefix of it. Where any
lexeme stands, `Reader.take` takes one that leaves no more behind (`take_of_stands`): numerals and
words are read greedily, of two symbols the longer one is tried first, and a string or a character
literal can end in one place only.
-/
namespace TokenTape

/-! ## Numerals -/

namespace Exponent

theorem read_length_le (text : List Char) : (read text).2.length ≤ text.length := by
  obtain ⟨written, whole, -⟩ := read_written text
  have := congrArg List.length whole
  rw [List.length_append] at this
  omega

theorem readSign_of_written {negative : Bool} {sign rest : List Char} {d : Char}
    (signed : SignWritten negative sign) (digit : d.isDigit = true) :
    readSign (sign ++ d :: rest) = (negative, d :: rest) := by
  cases signed with
  | plus => rfl
  | minus => rfl
  | none =>
    rw [List.nil_append]
    unfold readSign
    split
    · next same =>
      cases same
      cases digit
    · next same =>
      cases same
      cases digit
    · rfl

/-- An exponent is read as soon as one stands there, with all digits behind it. -/
theorem read_append {exponent : Exponent} {written : List Char} (isExponent : exponent.Written written)
    (behind : List Char) :
    read (written ++ behind) =
      (some ⟨exponent.negative, exponent.digits ++ behind.takeWhile Char.isDigit⟩,
        behind.dropWhile Char.isDigit) := by
  obtain ⟨marked, signed, some, digit⟩ := isExponent
  rename_i mark negative sign digits
  obtain ⟨d, more, rfl⟩ := List.exists_cons_of_ne_nil some
  have first : d.isDigit = true := digit d List.mem_cons_self
  have after : readSign (sign ++ (d :: more) ++ behind) = (negative, d :: more ++ behind) := by
    rw [List.append_assoc]
    exact readSign_of_written signed first
  rw [List.cons_append, read, if_pos marked]
  simp only [after, List.takeWhile_append_of_pos digit, List.dropWhile_append_of_pos digit]
  rfl

theorem read_of_written {exponent : Exponent} {written : List Char} (isExponent : exponent.Written written)
    (behind : List Char) : (read (written ++ behind)).2 = behind.dropWhile Char.isDigit :=
  congrArg Prod.snd (read_append isExponent behind)

end Exponent

namespace Numeral

theorem readFraction_length_le (text : List Char) : (readFraction text).2.length ≤ text.length := by
  fun_cases readFraction text with
  | case1 rest => exact Nat.le_succ_of_le (List.dropWhile_sublist _).length_le
  | case2 => exact Nat.le_refl _

/-- Behind a fraction an exponent is read to its end. -/
theorem read_exponent_length_le {exponent : Option Exponent} {written : List Char}
    (isExponent : ExponentWritten exponent written) (behind : List Char) :
    (Exponent.read ((written ++ behind).dropWhile Char.isDigit)).2.length ≤ behind.length := by
  have fewer (text : List Char) : (text.dropWhile Char.isDigit).length ≤ text.length :=
    (List.dropWhile_sublist _).length_le
  cases isExponent with
  | absent => exact Nat.le_trans (Exponent.read_length_le _) (fewer behind)
  | present isExponent =>
    have kept : (written ++ behind).dropWhile Char.isDigit = written ++ behind := by
      obtain ⟨marked, -, -, -⟩ := isExponent
      rcases marked with rfl | rfl <;> rfl
    rw [kept, Exponent.read_of_written isExponent]
    exact fewer behind

/-- No numeral at the front of a text goes beyond the one that is read there. -/
theorem read_length_le_of_written {numeral : Numeral} {written : List Char}
    (isNumeral : numeral.Written written) (behind : List Char) :
    (read (written ++ behind)).2.length ≤ behind.length := by
  obtain ⟨-, digit, isFraction, isExponent⟩ := isNumeral
  rename_i whole fractionText exponentText fraction exponent
  have afterWhole : (whole ++ (fractionText ++ exponentText) ++ behind).dropWhile Char.isDigit =
      (fractionText ++ (exponentText ++ behind)).dropWhile Char.isDigit := by
    rw [List.append_assoc, List.append_assoc, List.dropWhile_append_of_pos digit]
  simp only [read, afterWhole]
  cases isFraction with
  | present digit =>
    rename_i digits
    have afterFraction : (readFraction (('.' :: digits ++ (exponentText ++ behind)).dropWhile
        Char.isDigit)).2 = (exponentText ++ behind).dropWhile Char.isDigit :=
      List.dropWhile_append_of_pos digit
    rw [afterFraction]
    exact read_exponent_length_le isExponent behind
  | absent =>
    rw [List.nil_append]
    cases isExponent with
    | absent =>
      refine Nat.le_trans (Exponent.read_length_le _) (Nat.le_trans (readFraction_length_le _) ?_)
      exact (List.dropWhile_sublist _).length_le
    | present isExponent =>
      -- The mark of the exponent is no digit and no point, so the reader has come right to it.
      have kept : (readFraction ((exponentText ++ behind).dropWhile Char.isDigit)).2 =
          exponentText ++ behind := by
        obtain ⟨marked, -, -, -⟩ := isExponent
        rcases marked with rfl | rfl <;> rfl
      rw [kept, Exponent.read_of_written isExponent]
      exact (List.dropWhile_sublist _).length_le

end Numeral

/-! ## Symbols -/

namespace Symbol

/-- Each symbol is found again by its spelling, alone or as a pair. -/
theorem spelling_cases (symbol : Symbol) :
    (∃ a, symbol.spelling = [a] ∧ single? a = some symbol) ∨
      ∃ a b, symbol.spelling = [a, b] ∧ pair? a b = some symbol := by
  cases symbol with
  | equal | notEqual | increment | addAssign | decrement | subtractAssign | arrow | lessEqual
  | greaterEqual | logicalAnd | logicalOr => exact Or.inr ⟨_, _, rfl, rfl⟩
  | _ => exact Or.inl ⟨_, rfl, rfl⟩

/-- No symbol at the front of a text goes beyond the one that is found there. -/
theorem front?_of_spelling (symbol : Symbol) (behind : List Char) :
    ∃ found rest, front? (symbol.spelling ++ behind) = some (found, rest) ∧
      rest.length ≤ behind.length := by
  rcases symbol.spelling_cases with ⟨a, spelled, single⟩ | ⟨a, b, spelled, pair⟩
  · rw [spelled]
    match behind with
    | [] => exact ⟨symbol, [], by simp [front?, single], Nat.le_refl _⟩
    | b :: behind =>
      rw [List.cons_append, List.nil_append, front?]
      cases pair? a b with
      | some longer => exact ⟨longer, behind, rfl, Nat.le_succ _⟩
      | none => exact ⟨symbol, b :: behind, by rw [single]; rfl, Nat.le_refl _⟩
  · rw [spelled]
    exact ⟨symbol, behind, by simp [front?, pair], Nat.le_refl _⟩

/-- A symbol starts with a character that starts no other lexeme, and no blank. -/
theorem first_of_spelling (symbol : Symbol) :
    ∃ c rest, symbol.spelling = c :: rest ∧ startsWord c = false ∧ c.isDigit = false ∧
      c ≠ '"' ∧ c ≠ '\'' := by
  cases symbol <;> exact ⟨_, _, rfl, rfl, rfl, by decide, by decide⟩

end Symbol

/-! ## Strings -/

namespace Body

/-- A body goes on over text that does not close it. -/
theorem read_append {closer : Closer} {memory last : Bool} {passed : List Char}
    (passes : closer.after memory passed = some last) (reversed text : List Char) (source : LineSource) :
    read closer memory reversed (passed ++ text) source =
      read closer last (passed.reverse ++ reversed) text source := by
  induction passed generalizing memory reversed with
  | nil =>
    cases passes
    rfl
  | cons c passed ih =>
    rw [Closer.after_cons, Option.bind_eq_some_iff] at passes
    obtain ⟨memory', goes, passes⟩ := passes
    rw [List.cons_append, read, goes]
    simp only [ih passes, List.reverse_cons, List.append_assoc, List.cons_append, List.nil_append]

end Body

/-- What the end of all input cuts off is a string, and all of it passes behind its quote. -/
theorem Lexeme.CutOff.passes {lexeme : Lexeme} {written : List Char} (cutOff : lexeme.CutOff written) :
    ∃ body last, lexeme = .string (String.ofList body) ∧ written = '"' :: body ∧
      Closer.quote.after false body = some last := by
  cases cutOff with
  | plain quotable => exact ⟨_, false, rfl, rfl, Closer.quote_after_of_quotable quotable⟩
  | backslash quotable =>
    refine ⟨_, true, rfl, rfl, ?_⟩
    rw [Closer.after_append, Closer.quote_after_of_quotable quotable]
    rfl

/-! ## Lexemes -/

/-- A word starts with no digit. -/
theorem startsWord_of_isDigit {c : Char} (digit : c.isDigit = true) : startsWord c = false := by
  have underscore : c ≠ '_' := by
    rintro rfl
    cases digit
  have sign : c ≠ '#' := by
    rintro rfl
    cases digit
  have noLetter : c.isAlpha = false := by
    rw [Utf8.isDigit_iff] at digit
    rw [Bool.eq_false_iff, ne_eq, Utf8.isAlpha_iff]
    omega
  simp [startsWord, noLetter, underscore, sign]

namespace Reader

/-- A string is taken at a quote. -/
theorem take_of_quote (rest : List Char) (source : LineSource) (line tokenLine : Nat) :
    take ⟨[], '"' :: rest, source, line, tokenLine⟩ =
      let body := Body.read .quote false [] rest source
      let reader : Reader := ⟨[], body.text, body.source, line + body.newlines, line⟩
      match body.ending with
      | .failed reason => (.error (.unreadable reason), reader)
      | _ => (.ok (.string body.content), reader) := rfl

/-- Where a lexeme stands, one is taken that leaves no more behind. -/
theorem take_of_stands {lexeme : Lexeme} {written behind : List Char}
    (stands : lexeme.Written written ∨ lexeme.CutOff written ∧ behind = []) (line tokenLine : Nat) :
    let reader : Reader := ⟨[], written ++ behind, [], line, tokenLine⟩
    ∃ taken, reader.take.1 = .ok taken ∧ reader.take.2.text.length ≤ behind.length := by
  intro reader
  obtain isWritten | ⟨cutOff, rfl⟩ := stands
  · cases isWritten with
    | @word c rest starts continues =>
      simp only [reader, List.cons_append, take, starts, if_true]
      rw [List.dropWhile_append_of_pos continues]
      exact ⟨_, rfl, (List.dropWhile_sublist _).length_le⟩
    | numeral isNumeral =>
      have shorter := Numeral.read_length_le_of_written isNumeral behind
      obtain ⟨some, digit, -, -⟩ := isNumeral
      rename_i whole fractionText exponentText fraction exponent
      obtain ⟨d, more, rfl⟩ := List.exists_cons_of_ne_nil some
      have first : d.isDigit = true := digit d List.mem_cons_self
      simp only [reader, List.cons_append, take, startsWord_of_isDigit first, first, if_true,
        Bool.false_eq_true, if_false] at shorter ⊢
      exact ⟨_, rfl, shorter⟩
    | @string body quotable =>
      have read : Body.read .quote false [] (body ++ '"' :: behind) [] =
          ⟨.closed, body.reverse, behind, []⟩ := by
        rw [Body.read_append (Closer.quote_after_of_quotable quotable), List.append_nil, Body.read]
        rfl
      simp only [reader, List.cons_append, List.append_assoc, List.nil_append, take_of_quote, read]
      exact ⟨_, rfl, Nat.le_refl _⟩
    | @character c oneByte =>
      have taken : reader.take = (.ok (.character c), ⟨[], behind, [], lineAfter line c, line⟩) :=
        if_pos oneByte
      rw [taken]
      exact ⟨_, rfl, Nat.le_refl _⟩
    | symbol symbol =>
      obtain ⟨found, rest, front, shorter⟩ := symbol.front?_of_spelling behind
      obtain ⟨c, more, spelled, noWord, noDigit, noQuote, noApostrophe⟩ := symbol.first_of_spelling
      rw [spelled, List.cons_append] at front
      simp only [reader, spelled, List.cons_append, take, noWord, noDigit, noQuote, noApostrophe,
        front, Bool.false_eq_true, if_false]
      exact ⟨_, rfl, shorter⟩
  · obtain ⟨body, last, -, rfl, passes⟩ := cutOff.passes
    have read : Body.read .quote false [] body [] = ⟨.exhausted, body.reverse, [], []⟩ := by
      have := Body.read_append passes [] [] []
      rwa [List.append_nil, List.append_nil, Body.read] at this
    simp only [reader, List.append_nil, take_of_quote, read]
    exact ⟨_, rfl, Nat.le_refl _⟩

end Reader
end TokenTape
