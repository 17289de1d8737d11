import TokenTape.Reading.Body
import TokenTape.Reading.Lexeme
/-!
A reader takes lexemes one by one from a text and from the replies of a line source that
continue it. `settle` passes over blanks, comments and used-up text; `take` then reads the
one lexeme that stands there; `next` is the two together. A reader can go on after an
obstacle. Every step but the last uses up input: `next_remaining_lt` says that what remains
becomes smaller unless the end of input was reached.
-/
namespace TokenTape

/-- What is still to be read, and the lines that have been counted. -/
structure Reader where
  /-- The bytes of a refused character after its first one, which are refused one by one. -/
  stray : List UInt8
  /-- The rest of the current text. -/
  text : List Char
  /-- What continues the text. -/
  source : LineSource
  /-- The line reached so far, counted from 1. -/
  line : Nat
  /-- The line on which the latest lexeme or comment started. -/
  tokenLine : Nat
  deriving DecidableEq, Repr

/-- The bytes of a text and of the replies after it, and one more for each reply. -/
def unreadSize (text : List Char) (source : LineSource) : Nat :=
  (text.flatMap String.utf8EncodeChar).length +
    (source.flatMap fun
      | .line more => 0 :: more.toList.flatMap String.utf8EncodeChar
      | .failure _ => [0]).length

namespace Reader

/-- A reader at the start of a text. -/
def start (text : String) (source : LineSource) : Reader :=
  ⟨[], text.toList, source, 1, 1⟩

/-- A bound on what is left to do: bytes and replies. -/
def remaining (reader : Reader) : Nat :=
  reader.stray.length + unreadSize reader.text reader.source

end Reader

private theorem unreadSize_nil_line (more : String) (source : LineSource) :
    unreadSize more.toList source < unreadSize [] (.line more :: source) := by
  simp [unreadSize]

private theorem unreadSize_nil_failure (reason : String) (source : LineSource) :
    unreadSize [] source < unreadSize [] (.failure reason :: source) := by
  simp [unreadSize]

private theorem unreadSize_cons (c : Char) (text : List Char) (source : LineSource) :
    unreadSize text source < unreadSize (c :: text) source := by
  have := c.utf8Size_pos
  simp [unreadSize]
  omega

private theorem unreadSize_append_le (before text : List Char) (source : LineSource) :
    unreadSize text source ≤ unreadSize (before ++ text) source := by
  simp [unreadSize]

private theorem unreadSize_dropWhile_le (p : Char → Bool) (text : List Char) (source : LineSource) :
    unreadSize (text.dropWhile p) source ≤ unreadSize text source := by
  have := unreadSize_append_le (text.takeWhile p) (text.dropWhile p) source
  rwa [List.takeWhile_append_dropWhile] at this

private theorem unreadSize_read_le (closer : Closer) (memory : Bool) (reversed text : List Char)
    (source : LineSource) :
    unreadSize (Body.read closer memory reversed text source).text
      (Body.read closer memory reversed text source).source ≤ unreadSize text source := by
  fun_induction Body.read closer memory reversed text source with
  | case1 _ _ c text source => exact Nat.le_of_lt (unreadSize_cons c text source)
  | case2 _ _ c text source _ _ ih => exact Nat.le_trans ih (Nat.le_of_lt (unreadSize_cons c text source))
  | case3 => exact Nat.le_refl _
  | case4 _ _ reason source => exact Nat.le_of_lt (unreadSize_nil_failure reason source)
  | case5 _ _ more source ih => exact Nat.le_trans ih (Nat.le_of_lt (unreadSize_nil_line more source))

namespace Reader

/-- Passes over blanks, comments and used-up text. The reader stops where a lexeme starts or
all input ends, or at a reply that failed, whose reason is told. -/
def settle (reader : Reader) : Option String × Reader :=
  match reader with
  | ⟨[], [], .failure reason :: source, line, tokenLine⟩ =>
    (some reason, ⟨[], [], source, line, tokenLine⟩)
  | ⟨[], [], .line more :: source, line, tokenLine⟩ =>
    settle ⟨[], more.toList, source, line, tokenLine⟩
  | ⟨[], '/' :: '/' :: text, source, line, _⟩ =>
    settle ⟨[], text.dropWhile (· != '\n'), source, line, line⟩
  | ⟨[], '/' :: '*' :: text, source, line, _⟩ =>
    let body := Body.read .comment false [] text source
    let reader : Reader := ⟨[], body.text, body.source, line + body.newlines, line⟩
    match body.ending with
    | .failed reason => (some reason, reader)
    | _ => settle reader
  | ⟨[], c :: text, source, line, tokenLine⟩ =>
    if isBlank c then settle ⟨[], text, source, lineAfter line c, tokenLine⟩
    else (none, reader)
  | _ => (none, reader)
termination_by reader.remaining
decreasing_by
  · simpa [remaining] using unreadSize_nil_line more source
  · have := unreadSize_cons '/' ('/' :: text) source
    have := unreadSize_cons '/' text source
    have := unreadSize_dropWhile_le (· != '\n') text source
    simp only [remaining, List.length_nil]
    omega
  · have := unreadSize_cons '/' ('*' :: text) source
    have := unreadSize_cons '*' text source
    have := unreadSize_read_le .comment false [] text source
    simp only [remaining, List.length_nil]
    omega
  · have := unreadSize_cons c text source
    simp only [remaining, List.length_nil]
    omega

/-- The byte where the closing quote of a character literal should be, given the text after
the opening quote; zero past the end of the text. -/
def closingByte (text : List Char) : UInt8 :=
  ((text.take 2).flatMap String.utf8EncodeChar)[1]?.getD 0

/-- Reads the lexeme at a place where `settle` has stopped. A string goes on across replies
and ends with the input if nothing else ends it. A refused character is given up one byte at
a time, and of a bad character literal only the quote is given up. -/
def take (reader : Reader) : Except Obstacle Lexeme × Reader :=
  let ⟨stray, text, source, line, _⟩ := reader
  match stray, text with
  | byte :: stray, text =>
    (.error (.fault (.illegal (Char.ofNat byte.toNat))), ⟨stray, text, source, line, line⟩)
  | [], [] => (.ok .endOfInput, ⟨[], [], source, line, line⟩)
  | [], c :: rest =>
    if startsWord c then
      (.ok (.word (String.ofList (c :: rest.takeWhile continuesWord))),
        ⟨[], rest.dropWhile continuesWord, source, line, line⟩)
    else if c.isDigit then
      let (numeral, rest) := Numeral.read (c :: rest)
      (.ok (.numeral numeral), ⟨[], rest, source, line, line⟩)
    else if c = '"' then
      let body := Body.read .quote false [] rest source
      let reader : Reader := ⟨[], body.text, body.source, line + body.newlines, line⟩
      match body.ending with
      | .failed reason => (.error (.unreadable reason), reader)
      | _ => (.ok (.string body.content), reader)
    else if c = '\'' then
      match rest with
      | code :: '\'' :: after =>
        if code.utf8Size = 1 then
          (.ok (.character code),
            ⟨[], after, source, lineAfter line code, line⟩)
        else (.error (.fault (.unclosed (closingByte rest))), ⟨[], rest, source, line, line⟩)
      | _ => (.error (.fault (.unclosed (closingByte rest))), ⟨[], rest, source, line, line⟩)
    else
      match Symbol.front? (c :: rest) with
      | some (symbol, rest) => (.ok (.symbol symbol), ⟨[], rest, source, line, line⟩)
      | none =>
        (.error (.fault (.illegal c)),
          ⟨(String.utf8EncodeChar c).tail, rest, source, line, line⟩)

/-- Reads the next lexeme. -/
def next (reader : Reader) : Except Obstacle Lexeme × Reader :=
  match reader.settle with
  | (some reason, reader) => (.error (.unreadable reason), reader)
  | (none, reader) => reader.take

/-- Passing over blanks and comments takes nothing back, and a failed reply is used up. -/
theorem settle_remaining_le (reader : Reader) :
    reader.settle.2.remaining + (if reader.settle.1.isSome then 1 else 0) ≤ reader.remaining := by
  fun_induction settle reader with
  | case1 reason source line tokenLine =>
    have := unreadSize_nil_failure reason source
    simp only [remaining, List.length_nil, Option.isSome_some, if_true]
    omega
  | case2 more source line tokenLine ih =>
    refine Nat.le_trans ih ?_
    simpa [remaining] using Nat.le_of_lt (unreadSize_nil_line more source)
  | case3 text source line tokenLine ih =>
    refine Nat.le_trans ih ?_
    have := unreadSize_cons '/' ('/' :: text) source
    have := unreadSize_cons '/' text source
    have := unreadSize_dropWhile_le (· != '\n') text source
    simp only [remaining, List.length_nil]
    omega
  | case4 text source line tokenLine body reader reason ended =>
    have := unreadSize_cons '/' ('*' :: text) source
    have := unreadSize_cons '*' text source
    have := unreadSize_read_le .comment false [] text source
    simp only [remaining, List.length_nil, reader, body, Option.isSome_some, if_true]
    omega
  | case5 text source line tokenLine body reader _ ih =>
    refine Nat.le_trans ih ?_
    have := unreadSize_cons '/' ('*' :: text) source
    have := unreadSize_cons '*' text source
    have := unreadSize_read_le .comment false [] text source
    simp only [remaining, List.length_nil, reader, body]
    omega
  | case6 c text source line tokenLine _ _ _ ih =>
    refine Nat.le_trans ih ?_
    have := unreadSize_cons c text source
    simp only [remaining, List.length_nil]
    omega
  | case7 => simp
  | case8 => simp

private theorem unreadSize_suffix_le {text rest : List Char} (source : LineSource)
    (suffix : rest <:+ text) : unreadSize rest source ≤ unreadSize text source := by
  obtain ⟨before, rfl⟩ := suffix
  exact unreadSize_append_le before rest source

private theorem front_suffix {text rest : List Char} {symbol : Symbol}
    (found : Symbol.front? text = some (symbol, rest)) :
    ∃ c more, text = c :: more ∧ rest <:+ more := by
  unfold Symbol.front? at found
  split at found
  · cases found
  · next c =>
    obtain ⟨_, _, same⟩ := Option.map_eq_some_iff.mp found
    cases same
    exact ⟨c, [], rfl, List.suffix_refl _⟩
  · next c d more =>
    refine ⟨c, d :: more, rfl, ?_⟩
    split at found
    · cases found
      exact List.suffix_cons _ _
    · obtain ⟨_, _, same⟩ := Option.map_eq_some_iff.mp found
      cases same
      exact List.suffix_refl _

/-- Whatever stands at the place, some of it is used up, unless nothing stands there. -/
theorem take_remaining_lt (reader : Reader) (more : reader.take.1 ≠ .ok .endOfInput) :
    reader.take.2.remaining < reader.remaining := by
  obtain ⟨stray, text, source, line, tokenLine⟩ := reader
  match stray, text with
  | byte :: stray, text => simp [take, remaining]
  | [], [] => exact absurd rfl more
  | [], c :: rest =>
    have used := unreadSize_cons c rest source
    clear more
    simp only [take]
    split
    · have := unreadSize_dropWhile_le continuesWord rest source
      simp only [remaining, List.length_nil]
      omega
    split
    · next digit =>
      have suffix := Numeral.read_suffix (c :: rest)
      rw [List.dropWhile_cons_of_pos digit] at suffix
      have := unreadSize_suffix_le source (suffix.trans (List.dropWhile_suffix _))
      simp only [remaining, List.length_nil]
      omega
    split
    · have := unreadSize_read_le .quote false [] rest source
      split <;>
      · simp only [remaining, List.length_nil]
        omega
    split
    · split
      · next code after =>
        have := unreadSize_cons code ('\'' :: after) source
        have := unreadSize_cons '\'' after source
        split <;>
        · simp only [remaining, List.length_nil]
          omega
      · simp only [remaining, List.length_nil]
        omega
    split
    · next found =>
      obtain ⟨_, _, same, suffix⟩ := front_suffix found
      cases same
      have := unreadSize_suffix_le source suffix
      simp only [remaining, List.length_nil]
      omega
    · have size : (String.utf8EncodeChar c).tail.length + 1 = (String.utf8EncodeChar c).length := by
        have := c.utf8Size_pos
        rw [List.length_tail, String.length_utf8EncodeChar]
        omega
      simp only [remaining, unreadSize, List.flatMap_cons, List.length_append, List.length_nil]
      omega

/-- Reading on uses up input, through obstacles too, until the end of input is reached. -/
theorem next_remaining_lt (reader : Reader) (more : reader.next.1 ≠ .ok .endOfInput) :
    reader.next.2.remaining < reader.remaining := by
  have settled := settle_remaining_le reader
  unfold next at more ⊢
  split at more
  · next reason reader' found =>
    simp only [found, Option.isSome_some, if_true] at settled
    exact settled
  · next reader' found =>
    have := take_remaining_lt reader' more
    simp only [found] at settled
    omega

end Reader
end TokenTape
