import TokenTape.Proofs.Reading.FailedReplies
/-!
A line source that is asked. The replies to come do not tell how often somebody asked for one in vain. A
reader over a supply asks at each place where the text at hand is used up, and lets the line source go
when it says for the first time that there is nothing more (`Supply.ask`). What is read is what a reader
over the replies gives (`SuppliedReader.next_reader`). Where the end of input has been told, the line
source has been let go, so nothing is asked any more, and the end of input is told again
(`SuppliedReader.next_endOfInput`).
-/
namespace TokenTape

/-- A line source as somebody holds it who asks for text. -/
structure Supply where
  /-- What it would say each time it was asked: a reply, or that there is nothing more. Behind the last
  answer there is nothing more either. -/
  answers : List (Option Reply)
  /-- How often it has been asked. -/
  requests : Nat
  /-- Whether it has not been let go yet. -/
  held : Bool
  deriving DecidableEq, Repr

namespace Supply

/-- Asks for more. A line source that says that there is nothing more is let go, and without one there
is nobody to be asked. -/
def ask (supply : Supply) : Option Reply × Supply :=
  if supply.held then
    match supply.answers with
    | some reply :: answers => (some reply, ⟨answers, supply.requests + 1, true⟩)
    | answers => (none, ⟨answers.tail, supply.requests + 1, false⟩)
  else (none, supply)

/-- The replies in front of the first answer that there is nothing more. -/
def untilDry : List (Option Reply) → LineSource
  | some reply :: answers => reply :: untilDry answers
  | _ => []

/-- The replies that are still to come. -/
def replies (supply : Supply) : LineSource := if supply.held then untilDry supply.answers else []

/-- A line source that gives these replies. -/
def ofReplies (source : LineSource) : Supply := ⟨source.map some, 0, true⟩

theorem replies_ofReplies (source : LineSource) : (ofReplies source).replies = source := by
  rw [replies, ofReplies, if_pos rfl]
  induction source with
  | nil => rfl
  | cons reply source ih => exact congrArg (reply :: ·) ih

variable {supply after : Supply}

theorem ask_of_released (released : supply.held = false) : supply.ask = (none, supply) := by
  rw [ask, released]
  rfl

theorem replies_of_released (released : supply.held = false) : supply.replies = [] := by
  rw [replies, released]
  rfl

/-- A reply that is given was the first of those to come. -/
theorem ask_some {reply : Reply} (asked : supply.ask = (some reply, after)) :
    supply.replies = reply :: after.replies := by
  unfold ask at asked
  split at asked
  · next held =>
    split at asked
    · next first answers shape =>
      cases asked
      rw [replies, if_pos held, shape]
      rfl
    · cases asked
  · cases asked

/-- Where no reply is given, there were none to come, and there is nobody to be asked again. -/
theorem ask_none (asked : supply.ask = (none, after)) :
    supply.replies = [] ∧ after.held = false := by
  unfold ask at asked
  split at asked
  · next held =>
    split at asked
    · cases asked
    · next dry =>
      cases asked
      rw [replies, if_pos held]
      refine ⟨?_, rfl⟩
      match shape : supply.answers with
      | [] => rfl
      | none :: answers => rfl
      | some reply :: answers => exact (dry reply answers shape).elim
  · next released =>
    cases asked
    have released : supply.held = false := Bool.eq_false_iff.mpr released
    exact ⟨replies_of_released released, released⟩

end Supply

/-- Reading on leaves fewer replies, or as many and no more text. -/
theorem Advances.shrinks {text rest : List Char} {source left : LineSource}
    (advances : Advances text source rest left) :
    left.length < source.length ∨ left = source ∧ rest.length ≤ text.length := by
  cases advances with
  | within suffix => exact Or.inr ⟨rfl, suffix.length_le⟩
  | asked further => exact Or.inl (Nat.lt_succ_of_le further.source_suffix.length_le)

/-- A body that has been asked for, and what is left behind it. -/
structure SuppliedBody where
  ending : BodyEnd
  reversed : List Char
  text : List Char
  supply : Supply

namespace SuppliedBody

/-- The same body over the replies to come. -/
def body (supplied : SuppliedBody) : Body :=
  ⟨supplied.ending, supplied.reversed, supplied.text, supplied.supply.replies⟩

/-- Reads on from a text, and asks for more where it is used up. -/
def read (closer : Closer) (memory : Bool) (reversed : List Char) :
    List Char → Supply → SuppliedBody
  | c :: text, supply =>
    match closer memory c with
    | none => ⟨.closed, reversed, text, supply⟩
    | some memory => read closer memory (c :: reversed) text supply
  | [], supply =>
    match _asked : supply.ask with
    | (none, supply) => ⟨.exhausted, reversed, [], supply⟩
    | (some (.failure reason), supply) => ⟨.failed reason, reversed, [], supply⟩
    | (some (.line more), supply) => read closer memory reversed more.toList supply
termination_by text supply => (supply.replies.length, text.length)
decreasing_by
  · exact Prod.Lex.right _ (Nat.lt_succ_self _)
  · rw [Supply.ask_some _asked]
    exact Prod.Lex.left _ _ (Nat.lt_succ_self _)

theorem read_body (closer : Closer) (memory : Bool) (reversed text : List Char) (supply : Supply) :
    (read closer memory reversed text supply).body =
      Body.read closer memory reversed text supply.replies := by
  fun_induction read closer memory reversed text supply with
  | case1 memory reversed c text supply closes =>
    rw [Body.read, closes]
    rfl
  | case2 memory reversed c text supply memory' goes ih =>
    rw [Body.read, goes]
    exact ih
  | case3 memory reversed supply after asked =>
    obtain ⟨none, released⟩ := Supply.ask_none asked
    rw [none, Body.read, body, Supply.replies_of_released released]
  | case4 memory reversed supply reason after asked =>
    rw [Supply.ask_some asked, Body.read]
    rfl
  | case5 memory reversed supply more after asked ih =>
    rw [Supply.ask_some asked, Body.read]
    exact ih

/-- A body leaves fewer replies behind it, or as many and no more text. -/
theorem read_shrinks (closer : Closer) (text : List Char) (supply : Supply) :
    let body := read closer false [] text supply
    body.supply.replies.length < supply.replies.length ∨
      body.supply.replies = supply.replies ∧ body.text.length ≤ text.length := by
  have shrinks := (Body.read_advances closer false [] text supply.replies).shrinks
  rw [← read_body] at shrinks
  exact shrinks

end SuppliedBody

/-- A reader that holds a line source. -/
structure SuppliedReader where
  stray : List UInt8
  text : List Char
  supply : Supply
  line : Nat
  tokenLine : Nat
  deriving DecidableEq, Repr

namespace SuppliedReader

/-- The same reader over the replies to come. -/
def reader (supplied : SuppliedReader) : Reader :=
  ⟨supplied.stray, supplied.text, supplied.supply.replies, supplied.line, supplied.tokenLine⟩

/-- Passes over blanks and comments, and asks for more where the text is used up. -/
def settle (supplied : SuppliedReader) : Option String × SuppliedReader :=
  match supplied with
  | ⟨[], [], supply, line, tokenLine⟩ =>
    match _asked : supply.ask with
    | (none, supply) => (none, ⟨[], [], supply, line, tokenLine⟩)
    | (some (.failure reason), supply) => (some reason, ⟨[], [], supply, line, tokenLine⟩)
    | (some (.line more), supply) => settle ⟨[], more.toList, supply, line, tokenLine⟩
  | ⟨[], '/' :: '/' :: text, supply, line, _⟩ =>
    settle ⟨[], text.dropWhile (· != '\n'), supply, line, line⟩
  | ⟨[], '/' :: '*' :: text, supply, line, _⟩ =>
    let body := SuppliedBody.read .comment false [] text supply
    let after : SuppliedReader := ⟨[], body.text, body.supply, line + body.body.newlines, line⟩
    match body.ending with
    | .failed reason => (some reason, after)
    | _ => settle after
  | ⟨[], c :: text, supply, line, tokenLine⟩ =>
    if isBlank c then settle ⟨[], text, supply, lineAfter line c, tokenLine⟩
    else (none, supplied)
  | _ => (none, supplied)
-- A comment may use up replies and leave a longer text, so the replies are counted first.
termination_by (supplied.supply.replies.length, supplied.text.length)
decreasing_by
  · rw [Supply.ask_some _asked]
    exact Prod.Lex.left _ _ (Nat.lt_succ_self _)
  · refine Prod.Lex.right _ (Nat.lt_of_le_of_lt (List.dropWhile_sublist _).length_le ?_)
    simp only [List.length_cons]
    omega
  · rcases SuppliedBody.read_shrinks .comment text supply with fewer | ⟨same, shorter⟩
    · exact Prod.Lex.left _ _ fewer
    · rw [same]
      refine Prod.Lex.right _ (Nat.lt_of_le_of_lt shorter ?_)
      simp only [List.length_cons]
      omega
  · exact Prod.Lex.right _ (Nat.lt_succ_self _)

/-- Reads the lexeme at hand. Only a string asks for more. -/
def take (supplied : SuppliedReader) : Except Obstacle Lexeme × SuppliedReader :=
  match supplied with
  | ⟨[], '"' :: rest, supply, line, _⟩ =>
    let body := SuppliedBody.read .quote false [] rest supply
    let after : SuppliedReader := ⟨[], body.text, body.supply, line + body.body.newlines, line⟩
    match body.ending with
    | .failed reason => (.error (.unreadable reason), after)
    | _ => (.ok (.string body.body.content), after)
  | supplied =>
    let after := supplied.reader.take.2
    (supplied.reader.take.1, ⟨after.stray, after.text, supplied.supply, after.line, after.tokenLine⟩)

/-- Reads the next lexeme. -/
def next (supplied : SuppliedReader) : Except Obstacle Lexeme × SuppliedReader :=
  match supplied.settle with
  | (some reason, after) => (.error (.unreadable reason), after)
  | (none, after) => after.take

/-! ## What is read -/

theorem settle_reader (supplied : SuppliedReader) :
    supplied.reader.settle = (supplied.settle.1, supplied.settle.2.reader) := by
  fun_induction settle supplied with
  | case1 supply line tokenLine after asked =>
    obtain ⟨none, released⟩ := Supply.ask_none asked
    have dry := Supply.replies_of_released released
    simp only [reader, none, dry]
    exact Reader.Stands.settle_eq (Or.inr (Or.inl ⟨rfl, rfl⟩))
  | case2 supply line tokenLine reason after asked =>
    simp only [reader, Supply.ask_some asked]
    rw [Reader.settle]
  | case3 supply line tokenLine more after asked ih =>
    simp only [reader, Supply.ask_some asked]
    rw [Reader.settle]
    exact ih
  | case4 text supply line tokenLine ih =>
    simp only [reader]
    rw [Reader.settle]
    exact ih
  | case5 text supply line tokenLine body after reason failed =>
    have same : body.body = Body.read .comment false [] text supply.replies :=
      SuppliedBody.read_body .comment false [] text supply
    have ended : body.body.ending = .failed reason := failed
    simp only [reader]
    rw [Reader.settle, ← same, ended]
    rfl
  | case6 text supply line tokenLine body after going ih =>
    have same : body.body = Body.read .comment false [] text supply.replies :=
      SuppliedBody.read_body .comment false [] text supply
    simp only [reader]
    rw [Reader.settle, ← same]
    split
    · next reason failed => exact (going reason failed).elim
    · exact ih
  | case7 c text supply line tokenLine noLine noBlock blank ih =>
    simp only [reader]
    rw [Reader.settle_of_blank blank]
    exact ih
  | case8 c text supply line tokenLine noLine noBlock stands =>
    simp only [reader]
    rw [Reader.settle, if_neg stands]
    · exact noLine
    · exact noBlock
  | case9 supplied noText noLine noBlock noOther =>
    obtain ⟨_ | ⟨byte, stray⟩, _ | ⟨c, text⟩, supply, line, tokenLine⟩ := supplied
    · exact (noText supply line tokenLine rfl).elim
    · exact (noOther c text supply line tokenLine rfl).elim
    · exact Reader.settle_of_stray (List.cons_ne_nil byte stray)
    · exact Reader.settle_of_stray (List.cons_ne_nil byte stray)

theorem take_reader (supplied : SuppliedReader) :
    supplied.reader.take = (supplied.take.1, supplied.take.2.reader) := by
  unfold take
  split
  · next rest supply line tokenLine =>
    have same := SuppliedBody.read_body .quote false [] rest supply
    simp only [reader]
    rw [Reader.take_of_quote, ← same]
    obtain ⟨ending, reversed, text, supply⟩ := SuppliedBody.read .quote false [] rest supply
    cases ending <;> rfl
  · next noString =>
    have plain : supplied.reader.take = (supplied.reader.take.1,
        supplied.reader.take.2.hearing supplied.supply.replies) := by
      refine supplied.reader.take_of_text (fun clean first => ?_) supplied.supply.replies
      obtain ⟨stray, text, supply, line, tokenLine⟩ := supplied
      obtain rfl : stray = [] := clean
      obtain ⟨rest, rfl⟩ := List.head?_eq_some_iff.mp first
      exact noString rest supply line tokenLine rfl
    exact plain

theorem next_reader (supplied : SuppliedReader) :
    supplied.reader.next = (supplied.next.1, supplied.next.2.reader) := by
  rw [Reader.next, settle_reader, next]
  obtain ⟨failure, after⟩ := supplied.settle
  cases failure with
  | none => exact take_reader after
  | some reason => rfl

/-! ## The end of input -/

/-- Where nothing stands behind blanks and comments, the line source has been let go. -/
theorem settle_released {supplied stopped : SuppliedReader}
    (settled : supplied.settle = (none, stopped)) (clean : stopped.stray = [])
    (none : stopped.text = []) : stopped.supply.held = false := by
  fun_induction settle supplied with
  | case1 supply line tokenLine after asked =>
    cases settled
    exact (Supply.ask_none asked).2
  | case2 => cases settled
  | case3 supply line tokenLine more after asked ih => exact ih settled
  | case4 text supply line tokenLine ih => exact ih settled
  | case5 => cases settled
  | case6 text supply line tokenLine body after going ih => exact ih settled
  | case7 c text supply line tokenLine _ _ _ ih => exact ih settled
  | case8 =>
    cases settled
    cases none
  | case9 supplied noText =>
    cases settled
    obtain ⟨stray, text, supply, line, tokenLine⟩ := stopped
    obtain ⟨rfl, rfl⟩ := And.intro clean none
    exact (noText supply line tokenLine rfl).elim

/-- Only where nothing stands, the end of input is taken, and then nothing is asked for. -/
theorem take_endOfInput {supplied after : SuppliedReader}
    (taken : supplied.take = (.ok .endOfInput, after)) :
    supplied.stray = [] ∧ supplied.text = [] ∧
      after = ⟨[], [], supplied.supply, supplied.line, supplied.line⟩ := by
  unfold take at taken
  split at taken
  · next rest supply line tokenLine =>
    dsimp only at taken
    split at taken <;> cases taken
  · obtain ⟨result, rfl⟩ := Prod.mk.inj taken
    obtain ⟨clean, stray, tokenLine, ⟨-, none, text, -, line⟩ | ⟨_, -, -, written | ⟨cutOff, -⟩⟩⟩ :=
      Reader.take_ok (Prod.ext result rfl)
    · refine ⟨clean, none, ?_⟩
      rw [stray, text, line, tokenLine]
      rfl
    · cases written
    · cases cutOff

/-- Where the end of input has been told, nothing changes any more: the next request tells it again, on
the same line, and asks for nothing. -/
theorem next_endOfInput {supplied after : SuppliedReader}
    (taken : supplied.next = (.ok .endOfInput, after)) : after.next = (.ok .endOfInput, after) := by
  unfold next at taken
  split at taken
  · cases taken
  · next stopped settled =>
    obtain ⟨clean, none, rfl⟩ := take_endOfInput taken
    have released := settle_released settled clean none
    rw [next, settle, Supply.ask_of_released released]
    rfl

end SuppliedReader
end TokenTape
