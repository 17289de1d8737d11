import TokenTape.Proofs.Reading.Advance
import TokenTape.Proofs.Reading.Separators
/-!
Reading input that is broken at newlines compared with reading all of it at once. Most lexemes
stop at a newline at the latest, so what follows the newline cannot touch them; strings and
block comments go on across replies, and it does not matter where they are cut. The one lexeme
that looks past a newline in its text and asks for nothing is a character literal.
-/
namespace TokenTape

/-- What follows a text cannot touch what is read at its front: nothing follows, or a newline
comes first. -/
def Sealed (text more : List Char) : Prop := more = [] ∨ '\n' ∈ text

namespace Sealed

variable {text more : List Char} {p : Char → Bool}

theorem tail {c : Char} (isSealed : Sealed (c :: text) more) (other : c ≠ '\n') :
    Sealed text more := by
  rcases isSealed with none | newline
  · exact Or.inl none
  · refine Or.inr ?_
    rcases List.mem_cons.mp newline with same | later
    · exact absurd same.symm other
    · exact later

theorem eq_nil (isSealed : Sealed [] more) : more = [] := by
  rcases isSealed with none | newline
  · exact none
  · cases newline

/-- What a newline stops cannot be touched by what follows. -/
theorem read_append {α : Type} {read : List Char → α × List Char} (isSealed : Sealed text more)
    (stops : StopsAt '\n' read) : read (text ++ more) = ((read text).1, (read text).2 ++ more) := by
  rcases isSealed with rfl | newline
  · rw [List.append_nil, List.append_nil]
  · obtain ⟨before, after, rfl⟩ := List.append_of_mem newline
    rw [List.append_assoc, List.cons_append, stops, stops, List.append_assoc, List.cons_append]

theorem dropWhile_append (isSealed : Sealed text more) (stops : p '\n' = false) :
    (text ++ more).dropWhile p = text.dropWhile p ++ more :=
  congrArg Prod.snd (isSealed.read_append (span_stopsAt stops))

theorem takeWhile_append (isSealed : Sealed text more) (stops : p '\n' = false) :
    (text ++ more).takeWhile p = text.takeWhile p :=
  congrArg Prod.fst (isSealed.read_append (span_stopsAt stops))

theorem front?_append (isSealed : Sealed text more) :
    Symbol.front? (text ++ more) =
      (Symbol.front? text).map fun found => (found.1, found.2 ++ more) := by
  rcases isSealed with rfl | newline
  · simp
  · obtain ⟨before, after, rfl⟩ := List.append_of_mem newline
    rw [List.append_assoc, List.cons_append, Symbol.front?_newline, Symbol.front?_newline,
      Option.map_map]
    congr 1
    funext found
    simp

end Sealed

theorem InLines.isSealed {text : List Char} {source : LineSource} (lines : InLines text source)
    (some : text ≠ []) : Sealed text source.text := by
  by_cases used : source = []
  · exact Or.inl (by rw [used]; rfl)
  · exact Or.inr (lines.newline_mem used some)

namespace Body

/-- The same body, with all that is left behind it in one text. -/
def joined (body : Body) : Body := { body with text := body.text ++ body.source.text, source := [] }

/-- A body is the same whether its input is read line by line or at once. -/
theorem read_joined (closer : Closer) (memory : Bool) (reversed : List Char) {text : List Char}
    {source : LineSource} (lines : InLines text source) :
    read closer memory reversed (text ++ source.text) [] =
      (read closer memory reversed text source).joined := by
  fun_induction read closer memory reversed text source with
  | case1 memory reversed c text source closes =>
    rw [List.cons_append, read, closes]
    rfl
  | case2 memory reversed c text source memory' goes ih =>
    rw [List.cons_append, read, goes]
    exact ih (lines.of_suffix (List.suffix_cons c text))
  | case3 memory reversed =>
    rw [LineSource.text_nil, List.append_nil, read]
    rfl
  | case4 => exact lines.elim
  | case5 memory reversed more source ih => exact ih lines.2.2

theorem read_ending (closer : Closer) (memory : Bool) (reversed : List Char) {text : List Char}
    {source : LineSource} (lines : InLines text source) (reason : String) :
    (read closer memory reversed text source).ending ≠ .failed reason := by
  fun_induction read closer memory reversed text source with
  | case1 =>
    intro failed
    cases failed
  | case2 memory reversed c text source memory' goes ih =>
    exact ih (lines.of_suffix (List.suffix_cons c text))
  | case3 =>
    intro failed
    cases failed
  | case4 => exact lines.elim
  | case5 memory reversed more source ih => exact ih lines.2.2

end Body

namespace Reader

/-- The same reader, with all that is left of its input in one text. -/
def joined (reader : Reader) : Reader :=
  { reader with text := reader.text ++ reader.source.text, source := [] }

theorem settle_of_blank {c : Char} (blank : isBlank c = true) (text : List Char)
    (source : LineSource) (line tokenLine : Nat) :
    settle ⟨[], c :: text, source, line, tokenLine⟩ =
      settle ⟨[], text, source, lineAfter line c, tokenLine⟩ := by
  rw [settle, if_pos blank]
  · rintro rest rfl
    cases blank
  · rintro rest rfl
    cases blank

theorem settle_of_stands {c : Char} (stands : ¬ isBlank c = true) {text : List Char}
    (noComment : c = '/' → text.head? ≠ some '/' ∧ text.head? ≠ some '*')
    (source : LineSource) (line tokenLine : Nat) :
    settle ⟨[], c :: text, source, line, tokenLine⟩ =
      (none, ⟨[], c :: text, source, line, tokenLine⟩) := by
  rw [settle, if_neg stands]
  · rintro rest slash rfl
    exact (noComment slash).1 rfl
  · rintro rest slash rfl
    exact (noComment slash).2 rfl

theorem settle_of_stray_cons (byte : UInt8) (stray : List UInt8) (text : List Char)
    (source : LineSource) (line tokenLine : Nat) :
    settle ⟨byte :: stray, text, source, line, tokenLine⟩ =
      (none, ⟨byte :: stray, text, source, line, tokenLine⟩) := by
  rw [settle] <;> simp

/-- Blanks and comments end at the same place, and where a text is used up nothing is left. -/
theorem settle_joined {reader : Reader} (lines : InLines reader.text reader.source) :
    reader.settle.1 = none ∧ reader.joined.settle = (none, reader.settle.2.joined) ∧
      (reader.settle.2.stray = [] → reader.settle.2.text = [] → reader.settle.2.source = []) := by
  fun_induction settle reader with
  | case1 reason source line tokenLine => exact lines.elim
  | case2 more source line tokenLine ih => exact ih lines.2.2
  | case3 text source line tokenLine ih =>
    have inside : InLines text source := lines.of_suffix (List.suffix_append ['/', '/'] text)
    have ended := ((lines.isSealed (List.cons_ne_nil _ _)).tail (by decide)).tail (by decide)
    rw [joined, List.cons_append, List.cons_append, settle, ended.dropWhile_append (by decide)]
    exact ih (inside.of_suffix (List.dropWhile_suffix _))
  | case4 text source line tokenLine body reader reason failed =>
    have inside : InLines text source := lines.of_suffix (List.suffix_append ['/', '*'] text)
    exact absurd failed (Body.read_ending .comment false [] inside reason)
  | case5 text source line tokenLine body reader goes ih =>
    have inside : InLines text source := lines.of_suffix (List.suffix_append ['/', '*'] text)
    have opened := (Body.read_advances .comment false [] text source).inLines inside
    have settled : (joined ⟨[], '/' :: '*' :: text, source, line, tokenLine⟩).settle =
        (joined reader).settle := by
      rw [joined, List.cons_append, List.cons_append, settle, Body.read_joined _ _ _ inside]
      split
      · next reason failed => exact absurd failed (goes reason)
      · rfl
    rw [settled]
    exact ih opened
  | case6 c text source line tokenLine noLine noBlock blank ih =>
    rw [joined, List.cons_append, settle_of_blank blank]
    exact ih (lines.of_suffix (List.suffix_cons c text))
  | case7 c text source line tokenLine noLine noBlock stands =>
    have other : c ≠ '\n' := by
      rintro rfl
      exact stands rfl
    have ended := (lines.isSealed (List.cons_ne_nil _ _)).tail other
    -- Nothing follows a slash that ends the text, so joining starts no comment there.
    have noComment : c = '/' → (text ++ source.text).head? ≠ some '/' ∧
        (text ++ source.text).head? ≠ some '*' := by
      intro slash
      cases text with
      | nil =>
        rw [show source.text = [] from ended.eq_nil]
        simp
      | cons d text =>
        constructor
        · rintro ⟨⟩
          exact noLine text slash rfl
        · rintro ⟨⟩
          exact noBlock text slash rfl
    refine ⟨rfl, ?_, fun _ empty => absurd empty (List.cons_ne_nil c text)⟩
    rw [joined, List.cons_append, settle_of_stands stands noComment]
  | case8 reader noFailure noMore noLine noBlock noOther =>
    obtain ⟨stray, text, source, line, tokenLine⟩ := reader
    cases stray with
    | cons byte stray =>
      rw [joined, settle_of_stray_cons]
      exact ⟨rfl, rfl, fun none => absurd none (List.cons_ne_nil byte stray)⟩
    | nil =>
      cases text with
      | cons c text => exact (noOther c text source line tokenLine rfl).elim
      | nil =>
        cases source with
        | nil =>
          refine ⟨rfl, ?_, fun _ _ => rfl⟩
          rw [joined, LineSource.text_nil, settle] <;> simp
        | cons reply source =>
          cases reply with
          | failure reason => exact (noFailure reason source line tokenLine rfl).elim
          | line more => exact (noMore more source line tokenLine rfl).elim

/-- The reader stands at a quote and a newline that end its text, and there is more to come. -/
def Straddles (reader : Reader) : Prop :=
  reader.stray = [] ∧ reader.text = ['\'', '\n'] ∧ reader.source.text ≠ []

/-- A character literal is told from one span of text. -/
theorem take_of_closed (code : Char) (after : List Char) (source : LineSource)
    (line tokenLine : Nat) :
    take ⟨[], '\'' :: code :: '\'' :: after, source, line, tokenLine⟩ =
      if code.utf8Size = 1 then
        (.ok (.character code), ⟨[], after, source, lineAfter line code, line⟩)
      else
        (.error (.fault (.unclosed (closingByte (code :: '\'' :: after)))),
          ⟨[], code :: '\'' :: after, source, line, line⟩) := rfl

theorem take_of_unclosed {rest : List Char}
    (unclosed : ∀ code after, rest ≠ code :: '\'' :: after) (source : LineSource)
    (line tokenLine : Nat) :
    take ⟨[], '\'' :: rest, source, line, tokenLine⟩ =
      (.error (.fault (.unclosed (closingByte rest))), ⟨[], rest, source, line, line⟩) := by
  simp only [take]
  rw [if_neg (by decide), if_neg (by decide), if_neg (by decide), if_true]

private theorem take_literal_joined {rest : List Char} {source : LineSource}
    (ended : Sealed rest source.text) (single : rest = ['\n'] → source.text = [])
    (line tokenLine : Nat) :
    (joined ⟨[], '\'' :: rest, source, line, tokenLine⟩).take =
      ((take ⟨[], '\'' :: rest, source, line, tokenLine⟩).1,
        (take ⟨[], '\'' :: rest, source, line, tokenLine⟩).2.joined) := by
  rw [joined, List.cons_append]
  match rest with
  | code :: other :: after =>
    by_cases closes : other = '\''
    · subst other
      rw [List.cons_append, List.cons_append, take_of_closed, take_of_closed]
      split <;> rfl
    · have unclosed : ∀ after code' after', code :: other :: after ≠ code' :: '\'' :: after' := by
        rintro after code' after' ⟨⟩
        exact closes rfl
      rw [List.cons_append, List.cons_append, take_of_unclosed (unclosed _),
        take_of_unclosed (unclosed _)]
      rfl
  | [] =>
    have none : source.text = [] := ended.eq_nil
    rw [none, List.append_nil, take_of_unclosed (by simp), take_of_unclosed (by simp), joined, none]
    rfl
  | [code] =>
    have none : source.text = [] := by
      rcases ended with none | newline
      · exact none
      · exact single (by rw [List.mem_singleton.mp newline])
    rw [none, List.append_nil, take_of_unclosed (by simp), take_of_unclosed (by simp), joined, none]
    rfl

/-- The same lexeme stands at the place where blanks and comments end, unless a literal there
straddles. -/
theorem take_joined {reader : Reader} (lines : InLines reader.text reader.source)
    (settled : reader.stray = [] → reader.text = [] → reader.source = [])
    (apart : ¬ reader.Straddles) :
    reader.joined.take = (reader.take.1, reader.take.2.joined) := by
  obtain ⟨stray, text, source, line, tokenLine⟩ := reader
  match stray, text with
  | byte :: stray, text => rfl
  | [], [] =>
    obtain rfl : source = [] := settled rfl rfl
    rfl
  | [], c :: rest =>
    have whole : Sealed (c :: rest) source.text := lines.isSealed (List.cons_ne_nil _ _)
    have inside : InLines rest source := lines.of_suffix (List.suffix_cons c rest)
    by_cases mark : c = '\''
    · subst c
      have single : rest = ['\n'] → source.text = [] := by
        rintro rfl
        exact Decidable.not_not.mp fun more => apart ⟨rfl, rfl, more⟩
      exact take_literal_joined (whole.tail (by decide)) single line tokenLine
    simp only [joined, List.cons_append, take]
    by_cases word : startsWord c = true
    · have ended := whole.tail (by rintro rfl; cases word)
      rw [if_pos word, if_pos word, ended.takeWhile_append rfl, ended.dropWhile_append rfl]
    rw [if_neg word, if_neg word]
    by_cases digit : c.isDigit = true
    · rw [if_pos digit, if_pos digit, ← List.cons_append, whole.read_append (Numeral.read_stopsAt newline_separates)]
    rw [if_neg digit, if_neg digit]
    by_cases quote : c = '"'
    · rw [if_pos quote, if_pos quote, Body.read_joined _ _ _ inside]
      generalize Body.read .quote false [] rest source = body
      obtain ⟨ending, reversed, text, source⟩ := body
      cases ending <;> rfl
    rw [if_neg quote, if_neg quote]
    rw [if_neg mark, if_neg mark, ← List.cons_append, whole.front?_append]
    cases Symbol.front? (c :: rest) with
    | none => rfl
    | some found => rfl

/-- No reply fails, so a lexeme is taken where the blanks and comments end. -/
theorem next_of_lines {reader : Reader} (lines : InLines reader.text reader.source) :
    reader.next = reader.settle.2.take := by
  have settled : reader.settle = (none, reader.settle.2) := Prod.ext (settle_joined lines).1 rfl
  rw [next, settled]

theorem joined_next_of_lines {reader : Reader} (lines : InLines reader.text reader.source) :
    reader.joined.next = reader.settle.2.joined.take := by
  rw [next, (settle_joined lines).2.1]

/-- What is read from lines is read from the whole, unless a character literal straddles. -/
theorem next_joined {reader : Reader} (lines : InLines reader.text reader.source)
    (apart : ¬ reader.settle.2.Straddles) :
    reader.joined.next = (reader.next.1, reader.next.2.joined) := by
  have left := (settle_advances reader).inLines lines
  rw [next_of_lines lines, joined_next_of_lines lines]
  exact take_joined left (settle_joined lines).2.2 apart

/-- A literal that straddles is refused when its line is read. In the whole it can only be the
newline literal, with its closing quote in what was still to come. -/
theorem next_of_straddles {reader : Reader} (lines : InLines reader.text reader.source)
    (straddles : reader.settle.2.Straddles) :
    reader.next.1 = .error (.fault (.unclosed 0)) ∧
      ∀ lexeme after, reader.joined.next = (.ok lexeme, after) →
        lexeme = .character '\n' ∧ after.text.length < reader.source.text.length := by
  have fewer := (settle_advances reader).source_suffix
  rw [next_of_lines lines, joined_next_of_lines lines]
  generalize reader.settle.2 = stopped at fewer straddles ⊢
  obtain ⟨stray, text, source, line, tokenLine⟩ := stopped
  obtain ⟨rfl, rfl, more⟩ := straddles
  constructor
  · have unclosed : ∀ code after, ['\n'] ≠ code :: '\'' :: after := by simp
    rw [take_of_unclosed unclosed]
    rfl
  · intro lexeme after taken
    rw [joined, List.cons_append, List.singleton_append] at taken
    by_cases closes : ∃ rest, source.text = '\'' :: rest
    · obtain ⟨rest, closing⟩ := closes
      have left := (LineSource.text_suffix fewer).length_le
      simp only [closing, List.length_cons] at left
      rw [closing, take_of_closed, if_pos (by decide)] at taken
      cases taken
      exact ⟨rfl, left⟩
    · have unclosed : ∀ code rest, '\n' :: source.text ≠ code :: '\'' :: rest := by
        intro code rest same
        exact closes ⟨rest, (List.cons.inj same).2⟩
      rw [take_of_unclosed unclosed] at taken
      cases taken

/-- A character literal is taken with both its quotes from one span of text. -/
theorem take_character {reader after : Reader} {c : Char}
    (taken : reader.take = (.ok (.character c), after)) :
    reader.text = '\'' :: c :: '\'' :: after.text ∧ after.source = reader.source := by
  obtain ⟨stray, text, source, line, tokenLine⟩ := reader
  match stray, text with
  | byte :: stray, text => cases taken
  | [], [] => cases taken
  | [], c :: rest =>
    simp only [take] at taken
    split at taken
    · cases taken
    split at taken
    · cases taken
    split at taken
    · split at taken <;> cases taken
    split at taken
    · next mark =>
      split at taken
      · split at taken
        · cases taken
          exact ⟨by rw [mark], rfl⟩
        · cases taken
      · cases taken
    split at taken <;> cases taken

end Reader
end TokenTape
