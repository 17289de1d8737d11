import TokenTape.Proofs.Reading.LongestMatch
import TokenTape.Proofs.Reading.Span
/-!
A span holds the text that a reader has left, as bytes behind an index (`Span.Holds`). Whole
characters are passed over at a time (`Span.pass`): an ASCII character is told from one byte and is
one byte to take, and text that was passed over can be cut out, because it starts and ends between
characters (`Span.Holds.textBetween`). So words and numerals are read as the reader reads them.
-/
namespace TokenTape

namespace Span

open Utf8 (bytesOf charOf)

/-! ## The bytes that are left -/

/-- The bytes from the index on. -/
def rest (span : Span) : List UInt8 := span.bytes.drop span.position

theorem atEnd_iff {span : Span} : span.atEnd = true ↔ span.rest = [] := by
  simp [atEnd, rest]

theorem peekAt_eq (span : Span) (offset : Nat) : span.peekAt offset = span.rest[offset]?.getD 0 := by
  simp [peekAt, rest, List.getElem?_drop]

/-- Behind some of the bytes that are left, the others are left. -/
theorem rest_behind {span : Span} (front : List UInt8) {behind : List UInt8}
    (left : span.rest = front ++ behind) (within : span.position ≤ span.bytes.length) (line : Nat) :
    let moved : Span := { span with position := span.position + front.length, line }
    moved.position ≤ moved.bytes.length ∧ moved.rest = behind := by
  intro moved
  have size := congrArg List.length left
  simp only [rest, List.length_drop, List.length_append] at size
  refine ⟨?_, ?_⟩
  · simp only [moved]
    omega
  · simp only [moved, rest, ← List.drop_drop]
    rw [← rest, left, List.drop_left]

theorem forward_of_rest {span : Span} (front : List UInt8) {behind : List UInt8}
    (left : span.rest = front ++ behind) (within : span.position ≤ span.bytes.length) :
    span.forward front.length = some { span with position := span.position + front.length } := by
  rw [forward, if_pos (rest_behind _ left within span.line).1]

theorem advance_of_rest {span : Span} {byte : UInt8} {behind : List UInt8}
    (left : span.rest = byte :: behind) (within : span.position ≤ span.bytes.length) :
    span.advance = some (byte, { span with position := span.position + 1 }) := by
  have here : span.bytes[span.position]? = some byte := by
    have := congrArg (·[0]?) left
    simpa [rest, List.getElem?_drop] using this
  have moved := forward_of_rest [byte] left within
  rw [List.length_singleton] at moved
  simp [advance, here, moved]

/-! ## Text at the index -/

/-- A text is what is left of the span. -/
structure Holds (span : Span) (text : List Char) : Prop where
  within : span.position ≤ span.bytes.length
  left : span.rest = bytesOf text

/-- The same span behind some text, with its newlines counted. -/
def pass (span : Span) (gone : List Char) : Span :=
  { span with position := span.position + (bytesOf gone).length, line := span.line + gone.count '\n' }

@[simp] theorem pass_nil (span : Span) : span.pass [] = span := rfl

@[simp] theorem pass_line (span : Span) (gone : List Char) :
    (span.pass gone).line = span.line + gone.count '\n' := rfl

theorem pass_append (span : Span) (first second : List Char) :
    span.pass (first ++ second) = (span.pass first).pass second := by
  simp [pass, Nat.add_assoc]

theorem pass_of_newline_not_mem {gone : List Char} (oneLine : '\n' ∉ gone) (span : Span) :
    span.pass gone = { span with position := span.position + (bytesOf gone).length } := by
  rw [pass, List.count_eq_zero.mpr oneLine, Nat.add_zero]

theorem Holds.pass {span : Span} {gone text : List Char} (holds : span.Holds (gone ++ text)) :
    (span.pass gone).Holds text := by
  have left := holds.left
  rw [Utf8.bytesOf_append] at left
  obtain ⟨within, behind⟩ := rest_behind _ left holds.within (span.line + gone.count '\n')
  exact ⟨within, behind⟩

theorem Holds.pass_cons {span : Span} {c : Char} {text : List Char} (holds : span.Holds (c :: text)) :
    (span.pass [c]).Holds text := holds.pass

theorem Holds.atEnd_iff {span : Span} {text : List Char} (holds : span.Holds text) :
    span.atEnd = true ↔ text = [] := by
  rw [Span.atEnd_iff, holds.left, Utf8.bytesOf_eq_nil_iff]

theorem Holds.atEnd_cons {span : Span} {c : Char} {text : List Char} (holds : span.Holds (c :: text)) :
    span.atEnd = false := by
  rw [Bool.eq_false_iff, ne_eq, holds.atEnd_iff]
  exact List.cons_ne_nil c text

/-- Behind an ASCII character one looks as far ahead as from one byte earlier. -/
theorem peekAt_succ (span : Span) {c : Char} (ascii : c.toNat < 128) (offset : Nat) :
    span.peekAt (offset + 1) = (span.pass [c]).peekAt offset := by
  simp only [peekAt, pass, Utf8.bytesOf_cons, Utf8.utf8EncodeChar_of_ascii ascii, Utf8.bytesOf_nil,
    List.append_nil, List.length_singleton, Nat.add_assoc, Nat.add_comm 1]

/-- A property of ASCII characters alone. Nothing has it past the end. -/
structure IsClass (p : Char → Bool) : Prop where
  ascii : ∀ c, p c = true → c.toNat < 128
  ended : p '\x00' = false

theorem IsClass.eq {d : Char} (ascii : d.toNat < 128) (other : d ≠ '\x00') : IsClass (· == d) where
  ascii c same := by
    rw [eq_of_beq same]
    exact ascii
  ended := by simpa using other.symm

/-- Such a property is told from the next byte. -/
theorem Holds.class_peek {span : Span} {text : List Char} (holds : span.Holds text) {p : Char → Bool}
    (isClass : IsClass p) : p (charOf span.peek) = text.head?.any p := by
  rw [peek, peekAt_eq, holds.left]
  match text with
  | [] => exact isClass.ended
  | c :: text =>
    obtain ⟨first, rest, bytes, -⟩ := Utf8.utf8EncodeChar_eq_cons c
    rw [Utf8.bytesOf_cons, bytes]
    exact Utf8.class_charOf_head isClass.ascii bytes

theorem Holds.charOf_peek {span : Span} {text : List Char} (holds : span.Holds text) {d : Char}
    (ascii : d.toNat < 128) (other : d ≠ '\x00') : charOf span.peek = d ↔ text.head? = some d := by
  have same := holds.class_peek (IsClass.eq ascii other)
  rw [← beq_iff_eq, same]
  cases text <;> simp

/-- An ASCII character is one byte to take. -/
theorem Holds.advance {span : Span} {c : Char} {text : List Char} (holds : span.Holds (c :: text))
    (ascii : c.toNat < 128) (other : c ≠ '\n') :
    span.advance = some (UInt8.ofNat c.toNat, span.pass [c]) := by
  have left := holds.left
  rw [Utf8.bytesOf_cons, Utf8.utf8EncodeChar_of_ascii ascii] at left
  rw [advance_of_rest left holds.within, pass_of_newline_not_mem (by simpa using other.symm),
    Utf8.bytesOf_cons, Utf8.utf8EncodeChar_of_ascii ascii]
  rfl

/-- As many characters of a class are taken as there are. -/
theorem Holds.readWhile {p : Char → Bool} (isClass : IsClass p) (oneLine : p '\n' = false)
    {span : Span} {text : List Char} (holds : span.Holds text) :
    span.readWhile p = some (bytesOf (text.takeWhile p), span.pass (text.takeWhile p)) := by
  induction text generalizing span with
  | nil =>
    rw [readWhile_eq, holds.class_peek isClass]
    rfl
  | cons c text ih =>
    rw [readWhile_eq, holds.class_peek isClass, List.takeWhile_cons]
    by_cases belongs : p c = true
    · have other : c ≠ '\n' := by
        rintro rfl
        rw [oneLine] at belongs
        cases belongs
      have ascii := isClass.ascii c belongs
      have further : (span.pass [c]).Holds text := holds.pass
      simp only [List.head?_cons, Option.any_some, belongs, if_true, holds.advance ascii other,
        ih further, Option.bind_some, Utf8.bytesOf_cons, Utf8.utf8EncodeChar_of_ascii ascii,
        List.singleton_append, ← pass_append]
    · simp [belongs]

/-! ## Slices of text -/

theorem Holds.isBoundary {span : Span} {text : List Char} (holds : span.Holds text) :
    span.isBoundary span.position = true := by
  have here : span.bytes[span.position]? = span.rest[0]? := by simp [rest, List.getElem?_drop]
  rw [Span.isBoundary, here, holds.left]
  match text with
  | [] =>
    have size : span.bytes.length ≤ span.position := by
      have := holds.left
      simpa [rest] using this
    have same : span.position = span.bytes.length := Nat.le_antisymm holds.within size
    simp [same]
  | c :: text =>
    obtain ⟨first, more, bytes, starts, -⟩ := Utf8.utf8EncodeChar_eq_cons c
    simp [bytes, starts]

/-- Text that was passed over can be cut out. -/
theorem Holds.textBetween {span : Span} {gone text : List Char} (holds : span.Holds (gone ++ text)) :
    (span.pass gone).textBetween span.position (span.pass gone).position =
      some (String.ofList gone) := by
  have stop := holds.pass
  have begins : (span.pass gone).isBoundary span.position = true := holds.isBoundary
  have left := holds.left
  rw [rest, Utf8.bytesOf_append] at left
  have cut : (span.pass gone).bytesFrom span.position = some (bytesOf gone ++ bytesOf text) := by
    rw [bytesFrom]
    exact (if_pos holds.within).trans (congrArg some left)
  have size : (span.pass gone).position - span.position = (bytesOf gone).length :=
    Nat.add_sub_cancel_left ..
  rw [Span.textBetween, cut, Option.bind_eq_bind, Option.bind_some,
    if_pos ⟨Nat.le_add_right .., stop.within, begins, stop.isBoundary⟩, size, List.take_left]
  exact Utf8.decode?_encode gone

/-! ## Words and numerals -/

private theorem lt_of_isDigit {c : Char} (digit : c.isDigit = true) : c.toNat < 128 := by
  rw [Utf8.isDigit_iff] at digit
  omega

private theorem lt_of_isAlpha {c : Char} (alpha : c.isAlpha = true) : c.toNat < 128 := by
  rw [Utf8.isAlpha_iff] at alpha
  omega

theorem isClass_startsWord : IsClass startsWord where
  ascii c starts := by
    simp only [startsWord, Bool.or_eq_true, beq_iff_eq] at starts
    obtain (alpha | rfl) | rfl := starts
    · exact lt_of_isAlpha alpha
    · decide
    · decide
  ended := by decide

theorem isClass_continuesWord : IsClass continuesWord where
  ascii c continues := by
    simp only [continuesWord, Char.isAlphanum, Bool.or_eq_true, beq_iff_eq] at continues
    obtain (alpha | digit) | rfl := continues
    · exact lt_of_isAlpha alpha
    · exact lt_of_isDigit digit
    · decide
  ended := by decide

theorem isClass_isDigit : IsClass Char.isDigit where
  ascii _ digit := lt_of_isDigit digit
  ended := by decide

/-- The rest of a word is taken, and the whole word is cut out. -/
theorem Holds.scanWord {span : Span} {c : Char} {text : List Char} (holds : span.Holds (c :: text)) :
    (span.pass [c]).scanWord span.position =
      some (.word (String.ofList (c :: text.takeWhile continuesWord)),
        span.pass (c :: text.takeWhile continuesWord)) := by
  have further : (span.pass [c]).Holds text := holds.pass
  have word : span.Holds (c :: text.takeWhile continuesWord ++ text.dropWhile continuesWord) := by
    rwa [List.cons_append, List.takeWhile_append_dropWhile]
  simp only [Span.scanWord, further.readWhile isClass_continuesWord (by decide), Option.bind_eq_bind,
    Option.bind_some, ← pass_append, List.singleton_append, word.textBetween, Option.pure_def]

theorem Holds.scanDigits {span : Span} {text : List Char} (holds : span.Holds text) :
    span.scanDigits = some (text.takeWhile Char.isDigit, span.pass (text.takeWhile Char.isDigit)) := by
  have digits : (bytesOf (text.takeWhile Char.isDigit)).map charOf = text.takeWhile Char.isDigit :=
    Utf8.map_charOf_bytesOf fun c member => lt_of_isDigit (List.all_eq_true.mp List.all_takeWhile c member)
  simp only [Span.scanDigits, holds.readWhile isClass_isDigit (by decide), Option.bind_eq_bind,
    Option.bind_some, Option.pure_def, digits]

theorem Holds.scanFraction {span : Span} {text : List Char} (holds : span.Holds text) :
    ∃ gone, text = gone ++ (Numeral.readFraction text).2 ∧
      span.scanFraction = some ((Numeral.readFraction text).1, span.pass gone) := by
  have point := holds.charOf_peek (d := '.') (by decide) (by decide)
  unfold Span.scanFraction
  fun_cases Numeral.readFraction text with
  | case1 rest =>
    have further : (span.pass ['.']).Holds rest := holds.pass
    refine ⟨'.' :: rest.takeWhile Char.isDigit, ?_, ?_⟩
    · rw [List.cons_append, List.takeWhile_append_dropWhile]
    · rw [if_pos (point.mpr rfl)]
      simp only [holds.advance (by decide) (by decide), Option.bind_eq_bind, Option.bind_some,
        further.scanDigits, Option.pure_def, ← pass_append, List.singleton_append]
  | case2 _ noPoint =>
    refine ⟨[], rfl, ?_⟩
    rw [if_neg, pass_nil]
    · rfl
    · intro found
      obtain ⟨rest, rfl⟩ := List.head?_eq_some_iff.mp (point.mp found)
      exact noPoint rest rfl

/-- An exponent follows a mark when there is a digit behind the sign. -/
theorem Holds.exponentFollows {span : Span} {mark : Char} {text : List Char}
    (holds : span.Holds (mark :: text)) (ascii : mark.toNat < 128) :
    span.exponentFollows = (Exponent.readSign text).2.head?.any Char.isDigit := by
  have after : (span.pass [mark]).Holds text := holds.pass
  have minus := after.charOf_peek (d := '-') (by decide) (by decide)
  have plus := after.charOf_peek (d := '+') (by decide) (by decide)
  have first : span.peekAt 1 = (span.pass [mark]).peek := span.peekAt_succ ascii 0
  have second : span.peekAt 2 = (span.pass [mark]).peekAt 1 := span.peekAt_succ ascii 1
  unfold Span.exponentFollows
  simp only [first, second, plus, minus]
  fun_cases Exponent.readSign text with
  | case1 rest =>
    have behind : ((span.pass [mark]).pass ['-']).Holds rest := after.pass
    rw [if_pos (by simp), peekAt_succ _ (c := '-') (by decide) 0]
    exact behind.class_peek isClass_isDigit
  | case2 rest =>
    have behind : ((span.pass [mark]).pass ['+']).Holds rest := after.pass
    rw [if_pos (by simp), peekAt_succ _ (c := '+') (by decide) 0]
    exact behind.class_peek isClass_isDigit
  | case3 _ noMinus noPlus =>
    rw [if_neg]
    · exact after.class_peek isClass_isDigit
    · rintro (found | found)
      · obtain ⟨rest, rfl⟩ := List.head?_eq_some_iff.mp found
        exact noPlus rest rfl
      · obtain ⟨rest, rfl⟩ := List.head?_eq_some_iff.mp found
        exact noMinus rest rfl

theorem Holds.scanSign {span : Span} {text : List Char} (holds : span.Holds text) :
    ∃ gone, text = gone ++ (Exponent.readSign text).2 ∧
      span.scanSign = some ((Exponent.readSign text).1, span.pass gone) := by
  have minus := holds.charOf_peek (d := '-') (by decide) (by decide)
  have plus := holds.charOf_peek (d := '+') (by decide) (by decide)
  unfold Span.scanSign
  fun_cases Exponent.readSign text with
  | case1 rest =>
    refine ⟨['-'], rfl, ?_⟩
    simp [minus, holds.advance (by decide) (by decide)]
  | case2 rest =>
    refine ⟨['+'], rfl, ?_⟩
    simp [minus, plus, holds.advance (by decide) (by decide)]
  | case3 _ noMinus noPlus =>
    have noMinus : text.head? ≠ some '-' := by
      intro found
      obtain ⟨rest, rfl⟩ := List.head?_eq_some_iff.mp found
      exact noMinus rest rfl
    have noPlus : text.head? ≠ some '+' := by
      intro found
      obtain ⟨rest, rfl⟩ := List.head?_eq_some_iff.mp found
      exact noPlus rest rfl
    exact ⟨[], rfl, by simp [minus, plus, noMinus, noPlus]⟩

theorem Holds.scanExponent {span : Span} {text : List Char} (holds : span.Holds text) :
    ∃ gone, text = gone ++ (Exponent.read text).2 ∧
      span.scanExponent = some ((Exponent.read text).1, span.pass gone) := by
  have small := holds.charOf_peek (d := 'e') (by decide) (by decide)
  have capital := holds.charOf_peek (d := 'E') (by decide) (by decide)
  unfold Span.scanExponent
  simp only [small, capital]
  match text with
  | [] => exact ⟨[], rfl, by simp [Exponent.read]⟩
  | mark :: rest =>
    simp only [List.head?_cons, Option.some.injEq, Exponent.read]
    by_cases marked : mark = 'e' ∨ mark = 'E'
    · obtain ⟨ascii, other⟩ : mark.toNat < 128 ∧ mark ≠ '\n' := by
        rcases marked with rfl | rfl <;> decide
      have further : (span.pass [mark]).Holds rest := holds.pass
      obtain ⟨sign, whole, signed⟩ := further.scanSign
      have digits : ((span.pass [mark]).pass sign).Holds (Exponent.readSign rest).2 :=
        Holds.pass (by rwa [← whole])
      have follows := holds.exponentFollows ascii
      generalize Exponent.readSign rest = read at *
      obtain ⟨negative, behind⟩ := read
      by_cases some : behind.head?.any Char.isDigit = true
      · have taken : (behind.takeWhile Char.isDigit).isEmpty = false := by
          cases behind <;> simp_all
        refine ⟨mark :: (sign ++ behind.takeWhile Char.isDigit), ?_, ?_⟩
        · simp only [marked, taken, if_true, Bool.false_eq_true, if_false, List.cons_append,
            List.append_assoc, List.takeWhile_append_dropWhile]
          rw [← whole]
        · have moved : span.pass (mark :: (sign ++ behind.takeWhile Char.isDigit)) =
              ((span.pass [mark]).pass sign).pass (behind.takeWhile Char.isDigit) := by
            rw [← pass_append, ← pass_append]
            rfl
          simp only [marked, follows, some, taken, and_self, if_true, Bool.false_eq_true, if_false,
            holds.advance ascii other, signed, digits.scanDigits, moved, Option.bind_eq_bind,
            Option.bind_some, Option.pure_def]
      · have none : (behind.takeWhile Char.isDigit).isEmpty = true := by
          cases behind <;> simp_all
        exact ⟨[], by simp [marked, none], by simp [marked, follows, some, none]⟩
    · exact ⟨[], by simp [marked], by simp [marked]⟩

/-- The rest of a numeral is taken, and it is the numeral that the reader takes. -/
theorem Holds.scanNumeral {span : Span} {c : Char} {text : List Char} (holds : span.Holds (c :: text))
    (digit : c.isDigit = true) :
    ∃ gone, c :: text = gone ++ (Numeral.read (c :: text)).2 ∧ '\n' ∉ gone ∧
      (span.pass [c]).scanNumeral (UInt8.ofNat c.toNat) =
        some (.numeral (Numeral.read (c :: text)).1, span.pass gone) := by
  have further : (span.pass [c]).Holds text := holds.pass
  have digits := further.scanDigits
  rw [← List.takeWhile_append_dropWhile (p := Char.isDigit) (l := text)] at further
  obtain ⟨point, afterPoint, fraction⟩ := further.pass.scanFraction
  rw [afterPoint, ← List.append_assoc] at further
  obtain ⟨power, afterPower, exponent⟩ := further.pass.scanExponent
  rw [pass_append] at exponent
  have parts : Numeral.read (c :: text) =
      (⟨c :: text.takeWhile Char.isDigit, (Numeral.readFraction (text.dropWhile Char.isDigit)).1,
        (Exponent.read (Numeral.readFraction (text.dropWhile Char.isDigit)).2).1⟩,
        (Exponent.read (Numeral.readFraction (text.dropWhile Char.isDigit)).2).2) := by
    rw [Numeral.read, List.takeWhile_cons_of_pos digit, List.dropWhile_cons_of_pos digit]
  have whole : c :: text =
      c :: (text.takeWhile Char.isDigit ++ (point ++ power)) ++ (Numeral.read (c :: text)).2 := by
    rw [parts, List.cons_append, List.append_assoc, List.append_assoc, ← afterPower, ← afterPoint,
      List.takeWhile_append_dropWhile]
  obtain ⟨written, same, isNumeral⟩ := Numeral.read_written digit text
  have gone := List.append_cancel_right (whole.symm.trans same)
  refine ⟨_, whole, gone ▸ isNumeral.newline_not_mem, ?_⟩
  have moved : span.pass (c :: (text.takeWhile Char.isDigit ++ (point ++ power))) =
      (((span.pass [c]).pass (text.takeWhile Char.isDigit)).pass point).pass power := by
    rw [← pass_append, ← pass_append, ← pass_append]
    rfl
  simp only [Span.scanNumeral, digits, fraction, exponent, moved, parts, Option.bind_eq_bind,
    Option.bind_some, Option.pure_def, Utf8.charOf_of_ascii (lt_of_isDigit digit)]

end Span
end TokenTape
