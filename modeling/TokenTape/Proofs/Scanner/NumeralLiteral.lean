import TokenTape.Proofs.Reading.LongestMatch
import TokenTape.Proofs.Scanner.Concatenation
import TokenTape.Proofs.Value.Numeral
/-!
Numerals as tokens. Behind a run of digits a point always belongs to the numeral, and an exponent does as
soon as a digit stands behind its mark and sign (`BeginsExponent`); with neither, the numeral is an integer
and ends with its digits. What the digits of any of its parts mean is told from all of them at once
(`Scanner.next_numeral`).
-/
namespace TokenTape

/-- No digit goes on in this text. -/
def EndsDigits (text : List Char) : Prop := ∀ c ∈ text.head?, c.isDigit = false

instance (text : List Char) : Decidable (EndsDigits text) :=
  decidable_of_iff (text.head?.all (!·.isDigit)) (by cases text <;> simp [EndsDigits])

/-- An exponent stands at the front: a mark and a digit, and perhaps one sign between them. -/
inductive BeginsExponent : List Char → Prop
  | unsigned {mark digit : Char} (marked : mark = 'e' ∨ mark = 'E') (isDigit : digit.isDigit = true)
      (rest : List Char) : BeginsExponent (mark :: digit :: rest)
  | signed {mark sign digit : Char} (marked : mark = 'e' ∨ mark = 'E')
      (isSign : sign = '+' ∨ sign = '-') (isDigit : digit.isDigit = true) (rest : List Char) :
      BeginsExponent (mark :: sign :: digit :: rest)

section Run

variable {digits rest : List Char} (run : ∀ c ∈ digits, c.isDigit = true) (ends : EndsDigits rest)
include run ends

theorem takeWhile_run : (digits ++ rest).takeWhile Char.isDigit = digits := by
  rw [List.takeWhile_append_of_pos run]
  cases rest with
  | nil => exact List.append_nil digits
  | cons c rest => rw [List.takeWhile_cons_of_neg (by simp [ends c rfl]), List.append_nil]

theorem dropWhile_run : (digits ++ rest).dropWhile Char.isDigit = rest := by
  rw [List.dropWhile_append_of_pos run]
  cases rest with
  | nil => rfl
  | cons c rest => rw [List.dropWhile_cons_of_neg (by simp [ends c rfl])]

end Run

namespace Exponent

theorem begins_of_written {exponent : Exponent} {written : List Char}
    (isExponent : exponent.Written written) (behind : List Char) :
    BeginsExponent (written ++ behind) := by
  obtain ⟨marked, signed, some, digit⟩ := isExponent
  rename_i mark negative sign digits
  obtain ⟨d, more, rfl⟩ := List.exists_cons_of_ne_nil some
  have first : d.isDigit = true := digit d List.mem_cons_self
  cases signed with
  | none => exact .unsigned marked first (more ++ behind)
  | plus => exact .signed marked (Or.inl rfl) first (more ++ behind)
  | minus => exact .signed marked (Or.inr rfl) first (more ++ behind)

/-- Where an exponent stands, it is written in some way. -/
theorem exists_written_of_begins {text : List Char} (begins : BeginsExponent text) :
    ∃ exponent written rest, text = written ++ rest ∧ Exponent.Written exponent written := by
  have single {digit : Char} (isDigit : digit.isDigit = true) : ∀ c ∈ [digit], c.isDigit = true := by
    simpa using isDigit
  cases begins with
  | @unsigned mark digit marked isDigit rest =>
    exact ⟨⟨false, [digit]⟩, _, rest, rfl, .parts marked .none (List.cons_ne_nil _ _) (single isDigit)⟩
  | @signed mark sign digit marked isSign isDigit rest =>
    rcases isSign with rfl | rfl
    · exact ⟨⟨false, [digit]⟩, _, rest, rfl, .parts marked .plus (List.cons_ne_nil _ _) (single isDigit)⟩
    · exact ⟨⟨true, [digit]⟩, _, rest, rfl, .parts marked .minus (List.cons_ne_nil _ _) (single isDigit)⟩

/-- An exponent is read just where one stands. -/
theorem isSome_read_iff {text : List Char} : (read text).1.isSome ↔ BeginsExponent text := by
  constructor
  · intro found
    obtain ⟨written, whole, isWritten⟩ := read_written text
    generalize (read text).1 = exponent, (read text).2 = behind at found whole isWritten
    cases isWritten with
    | absent => cases found
    | present isExponent => exact whole ▸ begins_of_written isExponent behind
  · intro begins
    obtain ⟨exponent, written, rest, rfl, isExponent⟩ := exists_written_of_begins begins
    rw [read_append isExponent]
    rfl

instance (text : List Char) : Decidable (BeginsExponent text) :=
  decidable_of_iff _ isSome_read_iff

/-- Where none stands, nothing is taken. -/
theorem read_of_not_begins {text : List Char} (nowhere : ¬ BeginsExponent text) :
    read text = (none, text) := by
  have absent : (read text).1 = none := by
    rw [← isSome_read_iff] at nowhere
    simpa using nowhere
  obtain ⟨written, whole, isWritten⟩ := read_written text
  rw [absent] at isWritten
  cases isWritten
  exact Prod.ext absent whole.symm

/-- An exponent that no digit follows is read as it is written. -/
theorem read_run {exponent : Exponent} {written rest : List Char} (isExponent : exponent.Written written)
    (ends : EndsDigits rest) : read (written ++ rest) = (some exponent, rest) := by
  have nothing := takeWhile_run (List.forall_mem_nil _) ends
  have all := dropWhile_run (List.forall_mem_nil _) ends
  rw [List.nil_append] at nothing all
  rw [read_append isExponent, nothing, all, List.append_nil]

/-- No mark of an exponent is a point or a digit. -/
theorem Written.exists_mark {exponent : Exponent} {written : List Char}
    (isExponent : exponent.Written written) :
    ∃ mark rest, written = mark :: rest ∧ mark ≠ '.' ∧ mark.isDigit = false := by
  obtain ⟨marked, -, -, -⟩ := isExponent
  rcases marked with rfl | rfl <;> exact ⟨_, _, rfl, by decide, rfl⟩

end Exponent

namespace Numeral

theorem readFraction_of_no_point {text : List Char} (other : text.head? ≠ some '.') :
    readFraction text = (none, text) := by
  cases text with
  | nil => rfl
  | cons c rest =>
    have noPoint : c ≠ '.' := by
      rintro rfl
      exact other rfl
    simp [readFraction, noPoint]

/-- A point is read with all digits behind it. -/
theorem readFraction_of_point {digits rest : List Char} (run : ∀ c ∈ digits, c.isDigit = true)
    (ends : EndsDigits rest) : readFraction ('.' :: (digits ++ rest)) = (some digits, rest) := by
  rw [readFraction, takeWhile_run run ends, dropWhile_run run ends]

/-- Behind a fraction that is or is not there, an exponent is found. -/
theorem readFraction_before_exponent {fraction : Option (List Char)} {fractionText written rest : List Char}
    {exponent : Exponent} (isFraction : FractionWritten fraction fractionText)
    (isExponent : exponent.Written written) :
    readFraction (fractionText ++ (written ++ rest)) = (fraction, written ++ rest) := by
  obtain ⟨mark, more, rfl, noPoint, noDigit⟩ := isExponent.exists_mark
  cases isFraction with
  | absent => exact readFraction_of_no_point (by simpa using noPoint)
  | present run =>
    refine readFraction_of_point run ?_
    intro c first
    cases first
    exact noDigit

variable {whole tail : List Char} (run : ∀ c ∈ whole, c.isDigit = true) (ends : EndsDigits tail)
include run ends

/-- A numeral is read as a run of digits and what stands behind it. -/
theorem read_run :
    read (whole ++ tail) =
      let (fraction, afterFraction) := readFraction tail
      let (exponent, rest) := Exponent.read afterFraction
      (⟨whole, fraction, exponent⟩, rest) := by
  simp only [read, takeWhile_run run ends, dropWhile_run run ends]

theorem read_integer (noPoint : tail.head? ≠ some '.') (noExponent : ¬ BeginsExponent tail) :
    read (whole ++ tail) = (⟨whole, none, none⟩, tail) := by
  rw [read_run run ends, readFraction_of_no_point noPoint]
  simp only [Exponent.read_of_not_begins noExponent]

/-- A numeral is a float just when a point or an exponent stands behind its first digits. -/
theorem isFloat_read_iff :
    (read (whole ++ tail)).1.isFloat = true ↔ tail.head? = some '.' ∨ BeginsExponent tail := by
  by_cases point : tail.head? = some '.'
  · obtain ⟨rest, rfl⟩ : ∃ rest, tail = '.' :: rest := List.head?_eq_some_iff.mp point
    rw [read_run run ends]
    exact iff_of_true rfl (Or.inl point)
  · rw [read_run run ends, readFraction_of_no_point point, or_iff_right point,
      ← Exponent.isSome_read_iff]
    rfl

end Numeral

namespace Scanner

variable {scanner : Scanner} {place : Reader}

/-- At a digit a numeral is taken, and its token tells what it means. -/
theorem next_of_digit (settled : scanner.reader.settle = (none, place)) (clean : place.stray = [])
    {c : Char} {text : List Char} (stands : place.text = c :: text) (digit : c.isDigit = true) :
    scanner.next =
      (.ok (.valued (if (Numeral.read place.text).1.isFloat then .float else .integer)
          (Numeral.read place.text).1.value),
        scanner.reading ⟨[], (Numeral.read place.text).2, place.source, place.line, place.line⟩) := by
  have taken : scanner.reader.next = (.ok (.numeral (Numeral.read place.text).1),
      ⟨[], (Numeral.read place.text).2, place.source, place.line, place.line⟩) := by
    obtain ⟨stray, text', source, line, tokenLine⟩ := place
    dsimp only at clean stands
    subst clean stands
    rw [Reader.next, settled]
    simp only [Reader.take, startsWord_of_isDigit digit, digit, Bool.false_eq_true, if_false, if_true]
  exact next_of_lexeme taken

/-- Where a scanner comes to a run of digits, behind blanks and comments or right away, it gives a number,
whatever else is left in this reply and in later ones. It is a float just when a point comes next, or an
exponent that has a digit behind its mark and sign. If neither comes, it is the integer that alone is
congruent to the digits modulo `2 ^ 64`, and the scanner stops right behind them. A point takes all digits
behind it. An exponent is read with all its digits; the power it scales by is what they mean, up to
`2 ^ 31 - 1`, and its sign says only whether up or down. -/
theorem next_numeral (settled : scanner.reader.settle = (none, place)) (clean : place.stray = [])
    {whole tail : List Char} (stands : place.text = whole ++ tail) (nonempty : whole ≠ [])
    (run : ∀ c ∈ whole, c.isDigit = true) (ends : EndsDigits tail) :
    let behind (rest : List Char) : Scanner :=
      scanner.reading ⟨[], rest, place.source, place.line, place.line⟩
    (∃ atom value rest, scanner.next = (.ok (.valued atom value), behind rest) ∧
      (atom = .float ↔ tail.head? = some '.' ∨ BeginsExponent tail)) ∧
    (tail.head? ≠ some '.' → ¬ BeginsExponent tail →
      ∃ n : Int64, scanner.next = (.ok (.valued .integer (.integer n)), behind tail) ∧
        ∀ m : Int64, m.toInt ≡ decimal whole [ZMOD 2 ^ 64] ↔ m = n) ∧
    (∀ digits rest, tail = '.' :: (digits ++ rest) → (∀ c ∈ digits, c.isDigit = true) →
      EndsDigits rest → ¬ BeginsExponent rest →
      scanner.next = (.ok (.valued .float (.float (.ofFloat
        (Numeral.mantissa whole (some digits))))), behind rest)) ∧
    ∀ fraction fractionText exponent exponentText rest,
      tail = fractionText ++ (exponentText ++ rest) →
      Numeral.FractionWritten fraction fractionText → Exponent.Written exponent exponentText →
      EndsDigits rest →
      (Numeral.read place.text).1 = ⟨whole, fraction, some exponent⟩ ∧
      Numeral.power exponent.digits = min (decimal exponent.digits) (2 ^ 31 - 1) ∧
      scanner.next = (.ok (.valued .float (.float (.ofFloat
        (Numeral.scaled (Numeral.mantissa whole fraction) exponent.negative
          (min (decimal exponent.digits) (2 ^ 31 - 1)))))), behind rest) := by
  intro behind
  obtain ⟨c, more, rfl⟩ := List.exists_cons_of_ne_nil nonempty
  have next := next_of_digit settled clean stands (run c List.mem_cons_self)
  rw [stands] at next
  refine ⟨?float, ?integer, ?point, ?exponent⟩
  case float =>
    refine ⟨_, _, _, next, ?_⟩
    rw [← Numeral.isFloat_read_iff run ends]
    cases (Numeral.read (c :: more ++ tail)).1.isFloat <;> simp
  case integer =>
    intro noPoint noExponent
    rw [Numeral.read_integer run ends noPoint noExponent] at next
    exact ⟨_, next, fun m => Numeral.eq_integer_iff⟩
  case point =>
    rintro digits rest rfl runOn stops noExponent
    rw [Numeral.read_run run ends, Numeral.readFraction_of_point runOn stops] at next
    simp only [Exponent.read_of_not_begins noExponent, Numeral.value_of_fraction] at next
    exact next
  case exponent =>
    rintro fraction fractionText exponent exponentText rest rfl isFraction isExponent stops
    have read : Numeral.read (c :: more ++ (fractionText ++ (exponentText ++ rest))) =
        (⟨c :: more, fraction, some exponent⟩, rest) := by
      rw [Numeral.read_run run ends, Numeral.readFraction_before_exponent isFraction isExponent]
      simp only [Exponent.read_run isExponent stops]
    rw [read] at next
    simp only [Numeral.value_of_exponent] at next
    rw [if_pos (by simp [Numeral.isFloat])] at next
    exact ⟨by rw [stands, read], Numeral.power_eq _, next⟩

/-- One more than `2 ^ 64`, with a zero in front and an `e` behind that starts no exponent, and a power that
is far beyond the greatest. -/
theorem next_numeral_beyond_limits :
    let scanner := Scanner.start ⟨[]⟩ .empty "t.c" " 018446744073709551617e+x" []
    let other := Scanner.start ⟨[]⟩ .empty "t.c" "2.5E-99999999999;" []
    scanner.reader.settle = (none, ⟨[], "018446744073709551617e+x".toList, [], 1, 1⟩) ∧
    scanner.next = (.ok (.valued .integer (.integer 1)), scanner.reading ⟨[], ['e', '+', 'x'], [], 1, 1⟩) ∧
    other.next = (.ok (.valued .float (.float (.ofFloat
      (Numeral.scaled (Numeral.mantissa ['2'] (some ['5'])) true 2147483647)))),
      other.reading ⟨[], [';'], [], 1, 1⟩) := by
  intro scanner other
  have settled : scanner.reader.settle = (none, ⟨[], "018446744073709551617e+x".toList, [], 1, 1⟩) := by
    decide +kernel
  have alsoSettled : other.reader.settle = (none, other.reader) := by decide +kernel
  have run {text : List Char} (all : text.all Char.isDigit) : ∀ c ∈ text, c.isDigit = true :=
    List.all_eq_true.mp all
  have stands : "018446744073709551617e+x".toList =
      "018446744073709551617".toList ++ ['e', '+', 'x'] := rfl
  have alsoStands : other.reader.text = ['2'] ++ ".5E-99999999999;".toList := rfl
  obtain ⟨-, integer, -⟩ :=
    next_numeral settled rfl stands (by decide) (run rfl) (by decide)
  obtain ⟨-, -, -, exponent⟩ :=
    next_numeral alsoSettled rfl alsoStands (by decide) (run rfl) (by decide)
  refine ⟨settled, ?_, ?_⟩
  · obtain ⟨n, next, only⟩ := integer (by decide) (by decide)
    rw [(only 1).mp (by decide)]
    exact next
  · have fraction : Numeral.FractionWritten (some ['5']) ['.', '5'] := .present (run rfl)
    have written : Exponent.Written ⟨true, "99999999999".toList⟩ "E-99999999999".toList :=
      .parts (Or.inr rfl) .minus (by decide) (run rfl)
    exact (exponent _ _ _ _ [';'] rfl fraction written (by decide)).2.2

end Scanner
end TokenTape
