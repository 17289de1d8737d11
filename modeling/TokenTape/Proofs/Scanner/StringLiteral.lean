import Mathlib.Algebra.Group.Nat.Even
import Mathlib.Data.List.DropRight
import TokenTape.Proofs.Reading.Pieces
import TokenTape.Proofs.Scanner.Concatenation
/-!
String literals over any number of pieces. A quote closes a string just when an even number of
backslashes stands right before it, counted in the joined text and not in the piece that has the
quote (`Closer.quote_after_of_protected`). So a string that has been opened is the text up to the
first such quote, wherever that text is cut (`Scanner.next_string`).
-/
namespace TokenTape

/-- How many backslashes stand at the end of a text, one right behind the other. -/
def trailingBackslashes (text : List Char) : Nat := (text.rtakeWhile (· == '\\')).length

@[simp] theorem trailingBackslashes_nil : trailingBackslashes [] = 0 := rfl

@[simp] theorem trailingBackslashes_append_backslash (text : List Char) :
    trailingBackslashes (text ++ ['\\']) = trailingBackslashes text + 1 := by
  rw [trailingBackslashes, List.rtakeWhile_concat_pos _ _ _ rfl, List.length_append]
  rfl

theorem trailingBackslashes_append_of_ne {c : Char} (other : c ≠ '\\') (text : List Char) :
    trailingBackslashes (text ++ [c]) = 0 := by
  rw [trailingBackslashes, List.rtakeWhile_concat_neg _ _ _ (by simpa using other)]
  rfl

/-- No quote of a text has an even number of backslashes right before it. -/
def QuotesProtected (text : List Char) : Prop :=
  ∀ before behind, text = before ++ '"' :: behind → ¬ Even (trailingBackslashes before)

theorem QuotesProtected.nil : QuotesProtected [] := by
  intro before behind none
  exact absurd none.symm (by simp)

theorem QuotesProtected.of_append {text more : List Char} (all : QuotesProtected (text ++ more)) :
    QuotesProtected text := by
  rintro before behind rfl
  exact all before (behind ++ more) (List.append_assoc _ _ _)

/-- Either all quotes of a text are protected, or there is a first one that is not. -/
theorem QuotesProtected.or_first (text : List Char) :
    QuotesProtected text ∨ ∃ content behind, text = content ++ '"' :: behind ∧
      Even (trailingBackslashes content) ∧ QuotesProtected content := by
  induction text using List.reverseRecOn with
  | nil => exact Or.inl .nil
  | append_singleton text c ih =>
    rcases ih with all | ⟨content, behind, rfl, even, first⟩
    · by_cases closes : c = '"' ∧ Even (trailingBackslashes text)
      · obtain ⟨rfl, even⟩ := closes
        exact Or.inr ⟨text, [], rfl, even, all⟩
      · left
        intro before behind whole even
        rcases List.eq_nil_or_concat behind with rfl | ⟨behind, d, rfl⟩
        · obtain ⟨rfl, same⟩ := List.append_inj' whole rfl
          exact closes ⟨(List.cons_eq_cons.mp same).1, even⟩
        · rw [List.concat_eq_append, ← List.cons_append, ← List.append_assoc] at whole
          exact all before behind (List.append_inj' whole rfl).1 even
    · exact Or.inr ⟨content, behind ++ [c], by simp, even, first⟩

/-- Behind text that closes no string it is remembered whether the next character is protected. -/
theorem Closer.quote_after_of_protected {text : List Char} (all : QuotesProtected text) :
    quote.after false text = some (decide (¬ Even (trailingBackslashes text))) := by
  induction text using List.reverseRecOn with
  | nil => rfl
  | append_singleton text c ih =>
    rw [after_append, ih all.of_append, Option.bind_some, after_cons]
    by_cases even : Even (trailingBackslashes text)
    · have noQuote : c ≠ '"' := by
        rintro rfl
        exact all text [] rfl even
      by_cases backslash : c = '\\'
      · subst backslash
        simp [quote, even, Nat.even_add_one]
      · simp [quote, even, noQuote, backslash, trailingBackslashes_append_of_ne]
    · by_cases backslash : c = '\\'
      · subst backslash
        simp [quote, even, Nat.even_add_one]
      · simp [quote, even, backslash, trailingBackslashes_append_of_ne]

/-- Text passes as the inside of a string just when all its quotes are protected. -/
theorem Closer.quote_after_isSome_iff {text : List Char} :
    (quote.after false text).isSome ↔ QuotesProtected text := by
  constructor
  · intro passes
    rcases QuotesProtected.or_first text with all | ⟨content, behind, rfl, even, first⟩
    · exact all
    · have closes : quote false '"' = none := quote_eq_none_iff.mpr ⟨rfl, rfl⟩
      have remembered : decide (¬ Even (trailingBackslashes content)) = false := by simpa using even
      rw [after_append, quote_after_of_protected first, remembered, Option.bind_some, after_cons,
        closes] at passes
      cases passes
  · intro all
    rw [quote_after_of_protected all]
    rfl

instance (text : List Char) : Decidable (QuotesProtected text) :=
  decidable_of_iff _ Closer.quote_after_isSome_iff

/-- At a quote nothing is passed over. -/
theorem Reader.next_of_quote (text : List Char) (source : LineSource) (line tokenLine : Nat) :
    next ⟨[], '"' :: text, source, line, tokenLine⟩ =
      take ⟨[], '"' :: text, source, line, tokenLine⟩ := by
  rw [next, settle_of_stands (by decide) (by simp)]

namespace Scanner

/-- The scanner at an opening quote, with this text behind the quote and these replies to come. -/
def atQuote (scanner : Scanner) (text : List Char) (source : LineSource) : Scanner :=
  scanner.reading ⟨[], '"' :: text, source, scanner.line, scanner.tokenLine⟩

/-- The scanner after a string that has this content, with what is left behind it. -/
def behindString (scanner : Scanner) (content text : List Char) (source : LineSource) : Scanner :=
  { scanner with
    reader := ⟨[], text, source, scanner.line + content.count '\n', scanner.line⟩
    vocabulary := (scanner.vocabulary.intern (String.ofList content)).2 }

/-- The token of a string that has this content. -/
def stringToken (scanner : Scanner) (content : List Char) : Token :=
  .valued .string (.word (scanner.vocabulary.intern (String.ofList content)).1)

/-- The scanner where a reply has failed inside a string, behind this much of it. -/
def insideString (scanner : Scanner) (passed : List Char) (source : LineSource) : Scanner :=
  scanner.reading ⟨[], [], source, scanner.line + passed.count '\n', scanner.line⟩

variable (scanner : Scanner) {text : List Char} {source : LineSource}

theorem reader_next_atQuote :
    (scanner.atQuote text source).reader.next =
      Reader.take ⟨[], '"' :: text, source, scanner.line, scanner.tokenLine⟩ :=
  Reader.next_of_quote text source scanner.line scanner.tokenLine

/-- A body that ends well makes a token of its content. -/
theorem next_of_string {content rest : List Char} {left : LineSource} {ending : BodyEnd}
    (read : Body.read .quote false [] text source = ⟨ending, content.reverse, rest, left⟩)
    (well : ∀ reason, ending ≠ .failed reason) :
    (scanner.atQuote text source).next =
      (.ok (scanner.stringToken content), scanner.behindString content rest left) := by
  have taken : (scanner.atQuote text source).reader.next =
      (.ok (.string (String.ofList content)),
        ⟨[], rest, left, scanner.line + content.count '\n', scanner.line⟩) := by
    rw [reader_next_atQuote, Reader.take_of_quote, read]
    cases ending with
    | failed reason => exact (well reason rfl).elim
    | _ => simp [Body.content, Body.newlines]
  exact next_of_lexeme taken

/-- A body inside which a reply failed makes no token, and nothing enters the vocabulary. -/
theorem next_of_failed_string {passed : List Char} {left : LineSource} {reason : String}
    (read : Body.read .quote false [] text source = ⟨.failed reason, passed.reverse, [], left⟩) :
    (scanner.atQuote text source).next =
      (.error (.unreadable reason), scanner.insideString passed left) := by
  have taken : (scanner.atQuote text source).reader.next =
      (.error (.unreadable reason),
        ⟨[], [], left, scanner.line + passed.count '\n', scanner.line⟩) := by
    rw [reader_next_atQuote, Reader.take_of_quote, read]
    simp [Body.newlines]
  exact next_of_obstacle taken

variable (lines : List String) (further : LineSource)

/-- Where the pieces have an unprotected quote, the string ends at the first one. -/
theorem next_closed_string {content behind : List Char}
    (whole : text ++ lines.flatMap String.toList = content ++ '"' :: behind)
    (even : Even (trailingBackslashes content)) (first : QuotesProtected content) :
    ∃ rest later, GoneThrough text lines content ('"' :: rest) later ∧
      behind = rest ++ later.flatMap String.toList ∧
      (scanner.atQuote text (lines.map .line ++ further)).next =
        (.ok (scanner.stringToken content),
          scanner.behindString content rest (later.map .line ++ further)) := by
  obtain ⟨rest, later, through, same⟩ := GoneThrough.exists_of_whole whole
  refine ⟨rest, later, through, same, ?_⟩
  have passes := Closer.quote_after_of_protected first
  apply next_of_string
  · refine Body.read_closed through passes ?_ further
    exact Closer.quote_eq_none_iff.mpr ⟨by simpa using even, rfl⟩
  · intro reason other
    cases other

/-- Where the pieces have none, the string goes through all of them and on to what follows. -/
theorem read_open_string (all : QuotesProtected (text ++ lines.flatMap String.toList)) :
    Body.read .quote false [] text (lines.map .line ++ further) =
      Body.read .quote (decide (¬ Even (trailingBackslashes (text ++ lines.flatMap String.toList))))
        (text ++ lines.flatMap String.toList).reverse [] further :=
  Body.read_open (Closer.quote_after_of_protected all) further

/-- The same text in other pieces gives the same token, vocabulary and line, and leaves the same
input. -/
theorem next_atQuote_of_same_text {text' : List Char} {lines' : List String}
    (same : text' ++ lines'.flatMap String.toList = text ++ lines.flatMap String.toList) :
    let opened := (scanner.atQuote text (lines.map .line ++ further)).next
    let other := (scanner.atQuote text' (lines'.map .line ++ further)).next
    other.1 = opened.1 ∧ other.2.vocabulary = opened.2.vocabulary ∧
      other.2.line = opened.2.line ∧ other.2.unread = opened.2.unread := by
  intro opened other
  rcases QuotesProtected.or_first (text ++ lines.flatMap String.toList) with
    all | ⟨content, behind, whole, even, first⟩
  · have read := read_open_string lines' further (same ▸ all)
    rw [same, ← read_open_string lines further all] at read
    have equal : other = opened := by
      apply scanner.next_congr
      change (scanner.atQuote text' _).reader.next = (scanner.atQuote text _).reader.next
      rw [reader_next_atQuote, reader_next_atQuote, Reader.take_of_quote, Reader.take_of_quote, read]
    rw [equal]
    exact ⟨rfl, rfl, rfl, rfl⟩
  · obtain ⟨rest, later, -, left, next⟩ := scanner.next_closed_string lines further whole even first
    obtain ⟨rest', later', -, left', next'⟩ :=
      scanner.next_closed_string lines' further (same.trans whole) even first
    have equal : rest' ++ later'.flatMap String.toList = rest ++ later.flatMap String.toList :=
      left'.symm.trans left
    simp only [opened, other, next, next', behindString, line, true_and]
    simp only [unread, Reader.unread, LineSource.text_map_line_append]
    rw [← List.append_assoc, equal, List.append_assoc]

/-- A string is what stands behind its opening quote up to the first quote with an even number of
backslashes right before it, in all pieces joined; the piece that has this quote is left behind it,
and the later ones are not touched. Where there is no such quote, the string goes on to the end of
all input, and if a reply fails first, no text enters the vocabulary. Newlines in what has been read
are counted, and how the same text is cut into pieces makes no difference. -/
theorem next_string (scanner : Scanner) (text : List Char) (lines : List String)
    (further : LineSource) :
    let whole := text ++ lines.flatMap String.toList
    let opened := (scanner.atQuote text (lines.map .line ++ further)).next
    (∀ content behind, whole = content ++ '"' :: behind → Even (trailingBackslashes content) →
      QuotesProtected content →
      ∃ rest later, GoneThrough text lines content ('"' :: rest) later ∧
        behind = rest ++ later.flatMap String.toList ∧
        opened = (.ok (scanner.stringToken content),
          scanner.behindString content rest (later.map .line ++ further))) ∧
    (QuotesProtected whole →
      (further = [] →
        opened = (.ok (scanner.stringToken whole), scanner.behindString whole [] [])) ∧
      ∀ reason later, further = .failure reason :: later →
        opened = (.error (.unreadable reason), scanner.insideString whole later)) ∧
    ∀ (text' : List Char) (lines' : List String), text' ++ lines'.flatMap String.toList = whole →
      let other := (scanner.atQuote text' (lines'.map .line ++ further)).next
      other.1 = opened.1 ∧ other.2.vocabulary = opened.2.vocabulary ∧
        other.2.line = opened.2.line ∧ other.2.unread = opened.2.unread := by
  intro whole opened
  refine ⟨?closed, ?neverClosed, ?pieces⟩
  case closed =>
    intro content behind split even first
    exact scanner.next_closed_string lines further split even first
  case neverClosed =>
    intro all
    have read := read_open_string lines further all
    constructor
    · rintro rfl
      rw [Body.read] at read
      apply next_of_string scanner read
      intro reason other
      cases other
    · rintro reason later rfl
      rw [Body.read] at read
      exact next_of_failed_string scanner read
  case pieces =>
    intro text' lines' same
    exact scanner.next_atQuote_of_same_text lines further same

/-- A backslash at the end of one piece protects the quote at the start of the next one; without a
further quote the string goes on to the end, or to a reply that fails. -/
theorem next_string_across_pieces :
    let scanner := Scanner.start ⟨[]⟩ .empty "t.c" "" []
    let pieces := ["", "\"b\n", "c\" ", "d"]
    (∃ rest later, GoneThrough ['\\'] pieces "\\\"b\nc".toList ('"' :: rest) later ∧
      " d".toList = rest ++ later.flatMap String.toList ∧
      (scanner.atQuote ['\\'] (pieces.map .line ++ [])).next =
        (.ok (scanner.stringToken "\\\"b\nc".toList),
          scanner.behindString "\\\"b\nc".toList rest (later.map .line ++ []))) ∧
    (scanner.atQuote ['\\'] (["\"b\n"].map .line ++ [])).next =
      (.ok (scanner.stringToken "\\\"b\n".toList), scanner.behindString "\\\"b\n".toList [] []) ∧
    (scanner.atQuote ['\\'] (["\"b\n"].map .line ++ [.failure "gone", .line "\""])).next =
      (.error (.unreadable "gone"), scanner.insideString "\\\"b\n".toList [.line "\""]) := by
  intro scanner pieces
  have closed := (next_string scanner ['\\'] pieces []).1 "\\\"b\nc".toList " d".toList (by decide)
    (by decide) (by decide)
  have ended := ((next_string scanner ['\\'] ["\"b\n"] []).2.1 (by decide)).1 rfl
  have failed := ((next_string scanner ['\\'] ["\"b\n"] [.failure "gone", .line "\""]).2.1
    (by decide)).2 "gone" [.line "\""] rfl
  exact ⟨closed, ended, failed⟩

end Scanner
end TokenTape
