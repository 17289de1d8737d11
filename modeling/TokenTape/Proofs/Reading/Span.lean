import TokenTape.Proofs.Bytes.Utf8
import TokenTape.Reading.Reader
/-!
A reader that holds its text as bytes and goes through them by index. Every byte that it takes, every
slice that it cuts and every move of the index is checked: a byte must exist, a slice must lie within
the bytes, and a slice that becomes text must start and end between two characters. Where a check
fails there is no result. Only bytes that are looked at ahead of the index may lie past the end; they
read as zero. The loops end because less remains each time they start again (`Span.remaining`).
-/
namespace TokenTape

/-- Text held as bytes, an index into it, and what is known of the rest of the input. -/
structure Span where
  bytes : List UInt8
  /-- The index of the next byte. -/
  position : Nat
  source : LineSource
  line : Nat
  tokenLine : Nat
  deriving DecidableEq, Repr

namespace Span

open Utf8 (charOf)

/-! ## Checked access -/

def start (text : String) (source : LineSource) : Span := ⟨Utf8.encode text, 0, source, 1, 1⟩

def atEnd (span : Span) : Bool := span.bytes.length ≤ span.position

/-- A byte ahead of the index, or zero past the end. -/
def peekAt (span : Span) (offset : Nat) : UInt8 := span.bytes[span.position + offset]?.getD 0

def peek (span : Span) : UInt8 := span.peekAt 0

/-- Moves the index, not beyond the end. -/
def forward (span : Span) (count : Nat) : Option Span :=
  if span.position + count ≤ span.bytes.length then
    some { span with position := span.position + count }
  else none

/-- Takes the byte at the index, which must exist. -/
def advance (span : Span) : Option (UInt8 × Span) := do
  let byte ← span.bytes[span.position]?
  let span ← span.forward 1
  return (byte, span)

/-- Whether an index is the start of a character, or one of the two ends. -/
def isBoundary (span : Span) (index : Nat) : Bool :=
  index == 0 || index == span.bytes.length ||
    span.bytes[index]?.any fun byte => !Utf8.isContinuation byte

/-- The bytes from an index on, which must not lie beyond the end. -/
def bytesFrom (span : Span) (index : Nat) : Option (List UInt8) :=
  if index ≤ span.bytes.length then some (span.bytes.drop index) else none

/-- The text between two indices, which must be in order and between characters. -/
def textBetween (span : Span) (start stop : Nat) : Option String := do
  let bytes ← span.bytesFrom start
  if start ≤ stop ∧ stop ≤ span.bytes.length ∧ span.isBoundary start ∧ span.isBoundary stop then
    Utf8.decode? (bytes.take (stop - start))
  else none

/-- Inside a character nothing can be cut. -/
example : (⟨Utf8.encode "é", 0, [], 1, 1⟩ : Span).textBetween 1 2 = none := by decide +kernel

/-- What a request for more text has brought. -/
inductive Refill where
  | more (span : Span)
  | dry
  | failed (reason : String) (span : Span)

def refill (span : Span) : Refill :=
  match span.source with
  | [] => .dry
  | .failure reason :: source => .failed reason { span with source }
  | .line more :: source => .more { span with bytes := Utf8.encode more, position := 0, source }

/-- What is left to do: bytes and replies. -/
def remaining (span : Span) : Nat :=
  span.bytes.length - span.position +
    (span.source.flatMap fun
      | .line more => 0 :: Utf8.encode more
      | .failure _ => [0]).length

theorem forward_remaining {span after : Span} {count : Nat} (moved : span.forward count = some after) :
    after.remaining + count = span.remaining := by
  unfold forward at moved
  split at moved
  · cases moved
    simp only [remaining]
    omega
  · cases moved

theorem advance_remaining {span after : Span} {byte : UInt8}
    (taken : span.advance = some (byte, after)) : after.remaining + 1 = span.remaining := by
  simp only [advance, Option.bind_eq_bind, Option.bind_eq_some_iff] at taken
  obtain ⟨_, -, moved, there, same⟩ := taken
  cases same
  exact forward_remaining there

theorem refill_remaining {span after : Span} (refilled : span.refill = .more after) :
    after.remaining < span.remaining := by
  unfold refill at refilled
  split at refilled
  · cases refilled
  · cases refilled
  · next more source asks =>
    cases refilled
    simp only [remaining, asks, List.flatMap_cons, List.length_append, List.length_cons]
    omega

/-! ## Words and numerals -/

/-- Takes bytes as long as they belong to a class. -/
def readWhile (p : Char → Bool) (span : Span) : Option (List UInt8 × Span) :=
  if p (charOf span.peek) then
    match _taken : span.advance with
    | none => none
    | some (byte, after) => do
      let (bytes, span) ← readWhile p after
      return (byte :: bytes, span)
  else return ([], span)
termination_by span.remaining
decreasing_by
  have := advance_remaining _taken
  omega

theorem readWhile_eq (p : Char → Bool) (span : Span) :
    span.readWhile p = if p (charOf span.peek) then
      span.advance.bind fun (byte, after) =>
        (after.readWhile p).bind fun (bytes, span) => some (byte :: bytes, span)
      else some ([], span) := by
  rw [readWhile]
  split
  · split <;> next taken => rw [taken]; rfl
  · rfl

def skipBlanks (span : Span) : Option Span :=
  if span.atEnd then return span
  else if isBlank (charOf span.peek) then
    match _moved : span.forward 1 with
    | none => none
    | some after => skipBlanks { after with line := lineAfter span.line (charOf span.peek) }
  else return span
termination_by span.remaining
decreasing_by
  have less : after.remaining + 1 = span.remaining := forward_remaining _moved
  exact Nat.lt_of_succ_le (Nat.le_of_eq less)

theorem skipBlanks_eq (span : Span) :
    span.skipBlanks = if span.atEnd then some span
      else if isBlank (charOf span.peek) then (span.forward 1).bind fun after =>
        skipBlanks { after with line := lineAfter span.line (charOf span.peek) }
      else some span := by
  rw [skipBlanks]
  split
  · rfl
  · split
    · split <;> next moved => rw [moved]; rfl
    · rfl

theorem skipBlanks_remaining {span after : Span} (skipped : span.skipBlanks = some after) :
    after = span ∨ after.remaining < span.remaining := by
  fun_induction skipBlanks span with
  | case1 => exact Or.inl (Option.some.inj skipped).symm
  | case2 => cases skipped
  | case3 span _ _ moved there ih =>
    have less : moved.remaining + 1 = span.remaining := forward_remaining there
    rcases ih skipped with rfl | further
    · exact Or.inr (Nat.lt_of_succ_le (Nat.le_of_eq less))
    · exact Or.inr (Nat.lt_trans further (Nat.lt_of_succ_le (Nat.le_of_eq less)))
  | case4 => exact Or.inl (Option.some.inj skipped).symm

/-- The rest of a word whose first byte has been taken. -/
def scanWord (start : Nat) (span : Span) : Option (Lexeme × Span) := do
  let (_, span) ← span.readWhile continuesWord
  let spelling ← span.textBetween start span.position
  return (.word spelling, span)

def scanDigits (span : Span) : Option (List Char × Span) := do
  let (digits, span) ← span.readWhile Char.isDigit
  return (digits.map charOf, span)

def scanFraction (span : Span) : Option (Option (List Char) × Span) :=
  if charOf span.peek = '.' then do
    let (_, span) ← span.advance
    let (digits, span) ← span.scanDigits
    return (some digits, span)
  else return (none, span)

/-- Whether digits, after a sign or without one, stand behind the mark at the index. -/
def exponentFollows (span : Span) : Bool :=
  if charOf (span.peekAt 1) = '+' ∨ charOf (span.peekAt 1) = '-' then
    (charOf (span.peekAt 2)).isDigit
  else (charOf (span.peekAt 1)).isDigit

def scanSign (span : Span) : Option (Bool × Span) := do
  let negative : Bool := charOf span.peek = '-'
  if charOf span.peek = '-' ∨ charOf span.peek = '+' then
    let (_, span) ← span.advance
    return (negative, span)
  else return (negative, span)

def scanExponent (span : Span) : Option (Option Exponent × Span) :=
  if (charOf span.peek = 'e' ∨ charOf span.peek = 'E') ∧ span.exponentFollows then do
    let (_, span) ← span.advance
    let (negative, span) ← span.scanSign
    let (digits, span) ← span.scanDigits
    return (some ⟨negative, digits⟩, span)
  else return (none, span)

/-- The rest of a numeral whose first digit has been taken. -/
def scanNumeral (first : UInt8) (span : Span) : Option (Lexeme × Span) := do
  let (whole, span) ← span.scanDigits
  let (fraction, span) ← span.scanFraction
  let (exponent, span) ← span.scanExponent
  return (.numeral ⟨charOf first :: whole, fraction, exponent⟩, span)

/-! ## Strings and characters -/

/-- Passes over the inside of a string, up to a quote that no backslash protects. -/
def passString (escaped : Bool) (span : Span) : Option (Bool × Span) :=
  if span.atEnd || charOf span.peek == '"' && !escaped then return (escaped, span)
  else
    match _taken : span.advance with
    | none => none
    | some (byte, after) =>
      passString (!escaped && charOf span.peek == '\\')
        { after with line := lineAfter after.line (charOf byte) }
termination_by span.remaining
decreasing_by
  have less : after.remaining + 1 = span.remaining := advance_remaining _taken
  exact Nat.lt_of_succ_le (Nat.le_of_eq less)

theorem passString_eq (escaped : Bool) (span : Span) :
    span.passString escaped =
      if span.atEnd || charOf span.peek == '"' && !escaped then some (escaped, span)
      else span.advance.bind fun (byte, after) =>
        passString (!escaped && charOf span.peek == '\\')
          { after with line := lineAfter after.line (charOf byte) } := by
  rw [passString]
  split
  · rfl
  · split <;> next taken => rw [taken]; rfl

theorem passString_remaining_le {escaped escaped' : Bool} {span after : Span}
    (passed : span.passString escaped = some (escaped', after)) : after.remaining ≤ span.remaining := by
  fun_induction passString escaped span with
  | case1 =>
    cases passed
    exact Nat.le_refl _
  | case2 => cases passed
  | case3 escaped span _ byte behind taken ih =>
    have less : behind.remaining + 1 = span.remaining := advance_remaining taken
    have further : after.remaining ≤ behind.remaining := ih passed
    omega

/-- A string behind its opening quote, over as many spans as it has, with the text of the earlier
ones. -/
def scanString (before : String) (escaped : Bool) (span : Span) :
    Option (Except Obstacle Lexeme × Span) :=
  match _passed : span.passString escaped with
  | none => none
  | some (escaped, stopped) => do
    let piece ← stopped.textBetween span.position stopped.position
    if stopped.atEnd then
      match _refilled : stopped.refill with
      | .more after => scanString (before ++ piece) escaped after
      | .dry => return (.ok (.string (before ++ piece)), stopped)
      | .failed reason after => return (.error (.unreadable reason), after)
    else
      let (_, after) ← stopped.advance
      return (.ok (.string (before ++ piece)), after)
termination_by span.remaining
decreasing_by exact Nat.lt_of_lt_of_le (refill_remaining _refilled) (passString_remaining_le _passed)

theorem scanString_eq (before : String) (escaped : Bool) (span : Span) :
    span.scanString before escaped = (span.passString escaped).bind fun (escaped, stopped) =>
      (stopped.textBetween span.position stopped.position).bind fun piece =>
        if stopped.atEnd then
          match stopped.refill with
          | .more after => scanString (before ++ piece) escaped after
          | .dry => some (.ok (.string (before ++ piece)), stopped)
          | .failed reason after => some (.error (.unreadable reason), after)
        else stopped.advance.bind fun (_, after) => some (.ok (.string (before ++ piece)), after) := by
  rw [scanString]
  split
  · next passed =>
    rw [passed]
    rfl
  · next stopped passed =>
    rw [passed]
    refine congrArg _ (funext fun piece => ?_)
    split
    · split <;> next refilled => simp only [refilled, Option.pure_def]
    · rfl

/-- A character literal behind its opening quote. -/
def scanCharacter (span : Span) : Option (Except Obstacle Lexeme × Span) :=
  let closing := span.peekAt 1
  if span.bytes.length ≤ span.position + 1 ∨ charOf closing ≠ '\'' then
    return (.error (.fault (.unclosed closing)), span)
  else do
    let (code, span) ← span.advance
    let (_, span) ← span.advance
    return (.ok (.character (charOf code)), { span with line := lineAfter span.line (charOf code) })

/-! ## Comments -/

/-- A line comment behind its opening mark, up to the newline. -/
def skipLine (span : Span) : Option Span := do
  let rest ← span.bytesFrom span.position
  span.forward (rest.findIdx (· == 10))

theorem skipLine_remaining_le {span after : Span} (skipped : span.skipLine = some after) :
    after.remaining ≤ span.remaining := by
  obtain ⟨rest, -, moved⟩ := Option.bind_eq_some_iff.mp skipped
  exact Nat.le_of_add_right_le (Nat.le_of_eq (forward_remaining moved))

/-- Where the closing mark of a block comment stands. -/
def closingMark? : List UInt8 → Option Nat
  | [] => none
  | byte :: rest =>
    if byte = 42 ∧ rest.head? = some 47 then some 0 else (closingMark? rest).map (· + 1)

/-- The first bytes of some bytes, which must not be fewer. -/
def firstBytes (bytes : List UInt8) (count : Nat) : Option (List UInt8) :=
  if count ≤ bytes.length then some (bytes.take count) else none

/-- Passes over some of the bytes that are left, and counts the lines. -/
def skipBytes (rest : List UInt8) (count : Nat) (span : Span) : Option Span := do
  let passed ← firstBytes rest count
  let span ← span.forward count
  return { span with line := span.line + passed.count 10 }

theorem skipBytes_remaining_le {rest : List UInt8} {count : Nat} {span after : Span}
    (skipped : span.skipBytes rest count = some after) : after.remaining ≤ span.remaining := by
  simp only [skipBytes, Option.bind_eq_bind, Option.bind_eq_some_iff] at skipped
  obtain ⟨passed, -, moved, there, same⟩ := skipped
  cases same
  have less : moved.remaining + count = span.remaining := forward_remaining there
  exact Nat.le_of_add_right_le (Nat.le_of_eq less)

/-- A block comment behind its opening mark, over as many spans as it has. An asterisk at the end of
a span may close it together with a slash at the start of the next. -/
def skipBlock (asterisk : Bool) (span : Span) : Option (Option String × Span) := do
  let rest ← span.bytesFrom span.position
  if asterisk ∧ rest.head? = some 47 then
    let span ← span.forward 1
    return (none, span)
  else
    let found := closingMark? rest
    match _skipped : span.skipBytes rest ((found.map (· + 2)).getD rest.length) with
    | none => none
    | some behind =>
      if found.isSome then return (none, behind)
      else
        match _refilled : behind.refill with
        | .more after => skipBlock (rest.getLast? = some 42 ∨ rest.isEmpty ∧ asterisk) after
        | .dry => return (none, behind)
        | .failed reason after => return (some reason, after)
termination_by span.remaining
decreasing_by exact Nat.lt_of_lt_of_le (refill_remaining _refilled) (skipBytes_remaining_le _skipped)

theorem skipBlock_eq (asterisk : Bool) (span : Span) :
    span.skipBlock asterisk = (span.bytesFrom span.position).bind fun rest =>
      if asterisk ∧ rest.head? = some 47 then (span.forward 1).bind fun span => some (none, span)
      else (span.skipBytes rest (((closingMark? rest).map (· + 2)).getD rest.length)).bind fun behind =>
        if (closingMark? rest).isSome then some (none, behind)
        else
          match behind.refill with
          | .more after => skipBlock (rest.getLast? = some 42 ∨ rest.isEmpty ∧ asterisk) after
          | .dry => some (none, behind)
          | .failed reason after => some (some reason, after) := by
  rw [skipBlock]
  refine congrArg _ (funext fun rest => ?_)
  split
  · rfl
  · simp only
    split
    · next skipped =>
      rw [skipped]
      rfl
    · next behind skipped =>
      rw [skipped, Option.bind_some]
      split
      · rfl
      · split <;> next refilled => simp only [refilled, Option.pure_def]

theorem skipBlock_remaining_le {asterisk : Bool} {span after : Span}
    (skipped : span.skipBlock asterisk = some (none, after)) : after.remaining ≤ span.remaining := by
  rw [skipBlock] at skipped
  obtain ⟨rest, -, skipped⟩ := Option.bind_eq_some_iff.mp skipped
  split at skipped
  · obtain ⟨moved, there, same⟩ := Option.bind_eq_some_iff.mp skipped
    cases same
    exact Nat.le_of_add_right_le (Nat.le_of_eq (forward_remaining there))
  · simp only at skipped
    split at skipped
    · cases skipped
    · next behind there =>
      have less := skipBytes_remaining_le there
      split at skipped
      · cases skipped
        exact less
      · split at skipped
        · next further refilled =>
          have fewer := Nat.lt_of_lt_of_le (refill_remaining refilled) less
          exact Nat.le_trans (skipBlock_remaining_le skipped) (Nat.le_of_lt fewer)
        · cases skipped
          exact less
        · cases skipped
termination_by span.remaining

/-! ## Tokens -/

/-- A symbol or a character that starts nothing, after its first byte has been taken. -/
def scanSymbol (start : Nat) (byte : UInt8) (span : Span) :
    Option (Except Obstacle Lexeme × Span) :=
  match if span.atEnd then none else Symbol.pair? (charOf byte) (charOf span.peek) with
  | some symbol => do
    let (_, span) ← span.advance
    return (.ok (.symbol symbol), span)
  | none =>
    match Symbol.single? (charOf byte) with
    | some symbol => return (.ok (.symbol symbol), span)
    | none =>
      let whole := if span.isBoundary start then
        (span.bytes.drop start).toByteArray.utf8DecodeChar? 0 else none
      return (.error (.fault (.illegal (whole.getD (charOf byte)))), span)

/-- Reads one lexeme, or passes over one comment and has nothing to tell. -/
def scanToken (span : Span) : Option (Option (Except Obstacle Lexeme) × Span) := do
  let start := span.position
  let (byte, span) ← span.advance
  let c := charOf byte
  if startsWord c then
    let (lexeme, span) ← span.scanWord start
    return (some (.ok lexeme), span)
  else if c.isDigit then
    let (lexeme, span) ← span.scanNumeral byte
    return (some (.ok lexeme), span)
  else if c = '"' then
    let (result, span) ← span.scanString "" false
    return (some result, span)
  else if c = '\'' then
    let (result, span) ← span.scanCharacter
    return (some result, span)
  else if c = '/' ∧ (charOf span.peek = '/' ∨ charOf span.peek = '*') then
    let (kind, span) ← span.advance
    if charOf kind = '/' then
      let span ← span.skipLine
      return (none, span)
    else
      let (failure, span) ← span.skipBlock false
      return (failure.map fun reason => .error (.unreadable reason), span)
  else
    let (result, span) ← span.scanSymbol start byte
    return (some result, span)

/-- Only a comment has nothing to tell, and it has at least one byte. -/
theorem scanToken_remaining_lt {span after : Span} (scanned : span.scanToken = some (none, after)) :
    after.remaining < span.remaining := by
  have told {α : Type} {given : Option α} {result : α → Except Obstacle Lexeme} {behind : α → Span}
      (scanned : (given.bind fun x => some (some (result x), behind x)) = some (none, after)) :
      False := by
    obtain ⟨_, -, same⟩ := Option.bind_eq_some_iff.mp scanned
    cases same
  obtain ⟨⟨byte, second⟩, taken, scanned⟩ := Option.bind_eq_some_iff.mp scanned
  have less : second.remaining + 1 = span.remaining := advance_remaining taken
  simp only at scanned
  split at scanned
  · exact (told scanned).elim
  split at scanned
  · exact (told scanned).elim
  split at scanned
  · exact (told scanned).elim
  split at scanned
  · exact (told scanned).elim
  split at scanned
  · obtain ⟨⟨kind, third⟩, takenNext, scanned⟩ := Option.bind_eq_some_iff.mp scanned
    have fewer : third.remaining + 1 = second.remaining := advance_remaining takenNext
    simp only at scanned
    split at scanned
    · obtain ⟨_, skipped, same⟩ := Option.bind_eq_some_iff.mp scanned
      cases same
      have := skipLine_remaining_le skipped
      omega
    · obtain ⟨⟨failure, behind⟩, skipped, same⟩ := Option.bind_eq_some_iff.mp scanned
      cases failure with
      | some reason => cases same
      | none =>
        have further : behind.remaining ≤ third.remaining := skipBlock_remaining_le skipped
        have less : behind.remaining < span.remaining := by omega
        cases same
        exact less
  · exact (told scanned).elim

/-- What is left after the blanks before a lexeme, and after a request for more, is not more. -/
theorem entered_remaining_le {span entered : Span}
    (given : (if span.atEnd then span.refill else .more span) = .more entered) :
    entered.remaining ≤ span.remaining := by
  split at given
  · exact Nat.le_of_lt (refill_remaining given)
  · cases given
    exact Nat.le_refl _

/-- Where blanks use up a span, there were some, or more text had to be asked for. -/
theorem stopped_remaining_lt {span entered stopped : Span}
    (given : (if span.atEnd then span.refill else .more span) = .more entered)
    (skipped : entered.skipBlanks = some stopped) (ended : stopped.atEnd = true) :
    stopped.remaining < span.remaining := by
  rcases skipBlanks_remaining skipped with rfl | fewer
  · split at given
    · exact refill_remaining given
    · cases given
      contradiction
  · exact Nat.lt_of_lt_of_le fewer (entered_remaining_le given)

/-- Reads the next lexeme, asking for more text where a span has been used up. -/
def next (span : Span) : Option (Except Obstacle Lexeme × Span) :=
  match _entered : if span.atEnd then span.refill else .more span with
  | .dry => return (.ok .endOfInput, { span with tokenLine := span.line })
  | .failed reason after => return (.error (.unreadable reason), after)
  | .more entered =>
    match _skipped : entered.skipBlanks with
    | none => none
    | some stopped =>
      if _ended : stopped.atEnd then next stopped
      else
        match _scanned : { stopped with tokenLine := stopped.line }.scanToken with
        | none => none
        | some (some result, after) => return (result, after)
        | some (none, after) => next after
termination_by span.remaining
decreasing_by
  · exact stopped_remaining_lt _entered _skipped _ended
  · have less := scanToken_remaining_lt _scanned
    have fewer : stopped.remaining ≤ entered.remaining := by
      rcases skipBlanks_remaining _skipped with rfl | fewer
      · exact Nat.le_refl _
      · exact Nat.le_of_lt fewer
    exact Nat.lt_of_lt_of_le less (Nat.le_trans fewer (entered_remaining_le _entered))

theorem next_eq (span : Span) :
    span.next =
      match if span.atEnd then span.refill else .more span with
      | .dry => some (.ok .endOfInput, { span with tokenLine := span.line })
      | .failed reason after => some (.error (.unreadable reason), after)
      | .more entered => entered.skipBlanks.bind fun stopped =>
        if stopped.atEnd then next stopped
        else { stopped with tokenLine := stopped.line }.scanToken.bind fun (taken, after) =>
          match taken with
          | some result => some (result, after)
          | none => next after := by
  rw [next]
  split
  · next entered =>
    rw [entered]
    rfl
  · next entered =>
    rw [entered]
    rfl
  · next first entered =>
    rw [entered]
    simp only
    split
    · next skipped =>
      rw [skipped]
      rfl
    · next stopped skipped =>
      rw [skipped, Option.bind_some]
      split
      · rfl
      · split <;> next scanned => simp only [scanned, Option.bind_none, Option.bind_some, Option.pure_def]

end Span
end TokenTape
