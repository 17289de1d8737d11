import TokenTape.Reading.Reader
/-!
What stops the reading of words, numerals and symbols. They go no further than up to a newline, a space
or a slash, unless a slash is their first character, and nothing that stands behind it has an influence
on them. Of all that is read in source text, only strings, comments and character literals can have such
a character further inside.
-/
namespace TokenTape

/-- A character that continues no word, no numeral and no symbol. -/
structure Separates (c : Char) : Prop where
  word : continuesWord c = false
  point : c ≠ '.'
  pair (a : Char) : Symbol.pair? a c = none

theorem newline_separates : Separates '\n' :=
  ⟨rfl, by decide, fun a => by unfold Symbol.pair?; split <;> simp_all⟩

theorem space_separates : Separates ' ' :=
  ⟨rfl, by decide, fun a => by unfold Symbol.pair?; split <;> simp_all⟩

theorem slash_separates : Separates '/' :=
  ⟨rfl, by decide, fun a => by unfold Symbol.pair?; split <;> simp_all⟩

/-- A character stops the reading at the latest, and what stands behind it makes no difference. -/
def StopsAt (stop : Char) {α : Type} (read : List Char → α × List Char) : Prop :=
  ∀ text more, read (text ++ stop :: more) = ((read text).1, (read text).2 ++ stop :: more)

section Spans

variable {p : Char → Bool} {stop : Char} (stops : p stop = false) (text more : List Char)
include stops

theorem takeWhile_stop : (text ++ stop :: more).takeWhile p = text.takeWhile p := by
  induction text with
  | nil => rw [List.nil_append, List.takeWhile_cons, stops]; rfl
  | cons c text ih => rw [List.cons_append, List.takeWhile_cons, List.takeWhile_cons, ih]

theorem dropWhile_stop :
    (text ++ stop :: more).dropWhile p = text.dropWhile p ++ stop :: more := by
  induction text with
  | nil => rw [List.nil_append, List.dropWhile_cons, stops]; rfl
  | cons c text ih =>
    rw [List.cons_append, List.dropWhile_cons, List.dropWhile_cons, ih]
    split <;> rfl

omit text more in
theorem span_stopsAt : StopsAt stop fun text => (text.takeWhile p, text.dropWhile p) := by
  intro text more
  simp only [takeWhile_stop stops, dropWhile_stop stops]

end Spans

variable {stop : Char}

namespace Separates

theorem digit (separates : Separates stop) : stop.isDigit = false := by
  have word := separates.word
  simp only [continuesWord, Char.isAlphanum, Bool.or_eq_false_iff] at word
  exact word.1.2

theorem ne_of_continuesWord (separates : Separates stop) {c : Char} (continues : continuesWord c = true) :
    stop ≠ c := by
  rintro rfl
  rw [separates.word] at continues
  cases continues

/-- A sign makes a symbol with itself. -/
theorem ne_sign (separates : Separates stop) : stop ≠ '-' ∧ stop ≠ '+' := by
  constructor
  · rintro rfl
    cases separates.pair '-'
  · rintro rfl
    cases separates.pair '+'

end Separates

namespace Exponent

private theorem readSign_of_other {c : Char} (minus : c ≠ '-') (plus : c ≠ '+') (text : List Char) :
    readSign (c :: text) = (false, c :: text) := by
  simp [readSign, minus, plus]

private theorem readSign_stopsAt (separates : Separates stop) : StopsAt stop readSign := by
  intro text more
  match text with
  | [] => exact readSign_of_other separates.ne_sign.1 separates.ne_sign.2 more
  | c :: rest =>
    by_cases minus : c = '-'
    · subst c
      rfl
    by_cases plus : c = '+'
    · subst c
      rfl
    · rw [List.cons_append, readSign_of_other minus plus, readSign_of_other minus plus]
      rfl

theorem read_stopsAt (separates : Separates stop) : StopsAt stop read := by
  have unmarked : ¬ (stop = 'e' ∨ stop = 'E') :=
    not_or.mpr ⟨separates.ne_of_continuesWord rfl, separates.ne_of_continuesWord rfl⟩
  intro text more
  match text with
  | [] => exact if_neg unmarked
  | mark :: rest =>
    simp only [List.cons_append, read]
    by_cases marked : mark = 'e' ∨ mark = 'E'
    · rw [if_pos marked, if_pos marked, readSign_stopsAt separates rest more]
      simp only [takeWhile_stop separates.digit, dropWhile_stop separates.digit]
      split <;> rfl
    · rw [if_neg marked, if_neg marked]
      rfl

end Exponent

namespace Numeral

private theorem readFraction_of_other {c : Char} (point : c ≠ '.') (text : List Char) :
    readFraction (c :: text) = (none, c :: text) := by
  simp [readFraction, point]

private theorem readFraction_stopsAt (separates : Separates stop) : StopsAt stop readFraction := by
  intro text more
  match text with
  | [] => exact readFraction_of_other separates.point more
  | c :: rest =>
    by_cases point : c = '.'
    · subst c
      simp only [List.cons_append, readFraction, takeWhile_stop separates.digit,
        dropWhile_stop separates.digit]
    · rw [List.cons_append, readFraction_of_other point, readFraction_of_other point]
      rfl

theorem read_stopsAt (separates : Separates stop) : StopsAt stop read := by
  intro text more
  simp only [read, takeWhile_stop separates.digit, dropWhile_stop separates.digit,
    readFraction_stopsAt separates _ more, Exponent.read_stopsAt separates _ more]

end Numeral

namespace Symbol

/-- No symbol goes on with a separating character. -/
theorem front?_stop (separates : Separates stop) (a : Char) (text more : List Char) :
    front? (a :: (text ++ stop :: more)) =
      (front? (a :: text)).map fun found => (found.1, found.2 ++ stop :: more) := by
  match text with
  | [] => cases alone : single? a <;> simp [front?, separates.pair, alone]
  | b :: rest =>
    simp only [List.cons_append, front?]
    split
    · rfl
    · cases single? a <;> rfl

/-- No symbol has a newline in it. -/
theorem front?_newline (text more : List Char) :
    front? (text ++ '\n' :: more) =
      (front? text).map fun found => (found.1, found.2 ++ '\n' :: more) := by
  match text with
  | [] => cases more <;> rfl
  | a :: text => exact front?_stop newline_separates a text more

end Symbol

end TokenTape
