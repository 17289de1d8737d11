import TokenTape.Proofs.Tape.Outcome
import TokenTape.Tape.Cursor
/-!
Reading a tape back gives what was packed into it. One token is read back from the front of any
bytes and leaves the rest, so a run over the bytes of many tokens gives them one after the other;
a payload byte that looks like a line mark or like the end of input is never met as a tag. The
line of the cursor follows the marks, which bring it to the line on which each token starts.
-/
namespace TokenTape
namespace Place

/-- Line marks in front of a tag are passed over and counted. -/
theorem passMarks_replicate {tag : UInt8} (other : tag ≠ Kind.endOfLine.tag) (position line : Nat)
    (marks : Nat) (rest : List UInt8) :
    passMarks ⟨position, line, List.replicate marks Kind.endOfLine.tag ++ tag :: rest⟩ =
      ⟨position + marks, line + marks, tag :: rest⟩ := by
  induction marks generalizing position line with
  | zero =>
    rw [List.replicate_zero, List.nil_append, passMarks]
    simp [other]
  | succ marks ih =>
    rw [List.replicate_succ, List.cons_append, passMarks]
    simp only [↓reduceIte, ih, mk.injEq, and_true]
    exact ⟨by omega, by omega⟩

/-- A token is read from its tag and its record, and all that follows is left. -/
theorem readToken_append {token : Token} (recordable : token.Recordable) (position line : Nat)
    (rest : List UInt8) :
    readToken ⟨position, line,
      token.kind.tag :: (token.value.toList.map Value.encode).flatten ++ rest⟩ =
      .ok (token, ⟨position + (token.encode 0).length, line, rest⟩) := by
  obtain ⟨kind, value⟩ := token
  have carried : value.isSome = kind.hasValue := recordable.2
  cases value with
  | none =>
    have bare : kind.hasValue = false := carried.symm
    simp [readToken, Kind.ofTag?_tag, bare, Token.encode, Token.pieces, Token.bare]
  | some value =>
    have valued : kind.hasValue = true := carried.symm
    simp [readToken, Kind.ofTag?_tag, valued, Value.decode_encode_append, Token.encode,
      Token.pieces, Nat.add_assoc, Nat.add_comm]

end Place

theorem Token.length_encode (token : Token) (marks : Nat) :
    (token.encode marks).length = marks + (token.encode 0).length := by
  simp [encode_eq]

/-- Only the tag of the mark itself is read as a mark. -/
theorem Kind.tag_ne_endOfLine {kind : Kind} (other : kind ≠ .endOfLine) :
    kind.tag ≠ Kind.endOfLine.tag := by
  intro same
  have found := ofTag?_tag kind
  rw [same, ofTag?_tag] at found
  cases found
  contradiction

namespace Cursor

/-- A request reads the token that stands in front, through its marks, and goes just behind it. -/
theorem next_encode {token : Token} (recordable : token.Recordable) (origin : Place)
    (position line marks : Nat) (rest : List UInt8) (finished : Bool) :
    next ⟨origin, ⟨position, line, token.encode marks ++ rest⟩, finished⟩ =
      (.ok token,
        ⟨origin, ⟨position + (token.encode marks).length, line + marks, rest⟩, finished⟩) := by
  have place : Place.passMarks ⟨position, line, token.encode marks ++ rest⟩ =
      ⟨position + marks, line + marks,
        token.kind.tag :: (token.value.toList.map Value.encode).flatten ++ rest⟩ := by
    rw [Token.encode_eq, List.append_assoc, List.cons_append,
      Place.passMarks_replicate (Kind.tag_ne_endOfLine recordable.1)]
  unfold next
  rw [place]
  simp only [Place.readToken_append recordable, Token.length_encode token marks, Nat.add_assoc]

/-- What a run of the cursor reports of tokens that were packed below a previous line. -/
def replay (marks : Bool) (position line previous : Nat) : List Located → List Report
  | [] => []
  | located :: rest =>
    let count := if marks then located.line - previous else 0
    let behind := position + (located.token.encode count).length
    ⟨.ok located.token, behind, line + count⟩ ::
      replay marks behind (line + count) located.line rest

variable {origin : Place} {position line previous : Nat} {marks : Bool}

theorem replay_outcomes (tokens : List Located) :
    (replay marks position line previous tokens).map (·.outcome) =
      tokens.map (.ok ·.token) := by
  induction tokens generalizing position line previous with
  | nil => rfl
  | cons located rest ih => exact congrArg _ ih

/-- With line marks the cursor follows the lines on which the tokens start. -/
theorem replay_lines_marked (tokens : List Located) (descending : Descending line tokens) :
    (replay true position line line tokens).map (·.line) = tokens.map (·.line) := by
  induction tokens generalizing position line with
  | nil => rfl
  | cons located rest ih =>
    have reached : line + (located.line - line) = located.line := Nat.add_sub_cancel' descending.1
    simp only [replay, ↓reduceIte, List.map_cons, reached]
    exact congrArg _ (ih descending.2)

/-- Without line marks it stays on the line where it started. -/
theorem replay_lines_unmarked (tokens : List Located) :
    (replay false position line previous tokens).map (·.line) = tokens.map (fun _ => line) := by
  induction tokens generalizing position previous with
  | nil => rfl
  | cons located rest ih => exact congrArg _ ih

/-- Each report but the last tells a position before the end of the bytes, because the end of
input still has its byte behind it. -/
theorem replay_positions {before : List Located} {last : Located} {report : Report}
    (member : report ∈ replay marks position line previous (before ++ [last])) :
    report.position =
        position + (Located.encodeAll marks previous (before ++ [last])).length ∧
          report.outcome = .ok last.token ∨
      report.position <
          position + (Located.encodeAll marks previous (before ++ [last])).length ∧
        ∃ located ∈ before, report.outcome = .ok located.token := by
  induction before generalizing position line previous with
  | nil =>
    obtain rfl := List.mem_singleton.mp member
    exact Or.inl ⟨by simp [Located.encodeAll_cons, Located.encodeAll_nil], rfl⟩
  | cons located before ih =>
    simp only [List.cons_append, Located.encodeAll_cons, List.length_append]
    rcases List.mem_cons.mp member with rfl | later
    · have more : 0 < (Located.encodeAll marks located.line (before ++ [last])).length :=
        Located.encodeAll_length_pos (by simp)
      exact Or.inr ⟨by simp only; omega, located, List.mem_cons_self, rfl⟩
    · rcases ih later with ⟨atEnd, same⟩ | ⟨inside, other, held, same⟩
      · exact Or.inl ⟨by omega, same⟩
      · exact Or.inr ⟨by omega, other, List.mem_cons_of_mem _ held, same⟩

theorem runOnto_of_step {cursor after : Cursor} {outcome : Outcome} (reports : List Report)
    (stepped : cursor.step = (some outcome, after)) :
    runOnto reports cursor = runOnto (⟨outcome, after.position, after.line⟩ :: reports) after := by
  rw [runOnto]
  split
  · next found =>
    rw [stepped] at found
    cases found
  · next found =>
    rw [stepped] at found
    cases found
    rfl

theorem runOnto_of_finished {cursor : Cursor} (reports : List Report)
    (finished : cursor.finished = true) : runOnto reports cursor = (reports.reverse, cursor) := by
  have still : cursor.step = (none, cursor) := by rw [step, if_pos finished]
  rw [runOnto]
  split
  · next found =>
    rw [still] at found
    cases found
    rfl
  · next found =>
    rw [still] at found
    cases found

/-- One step over a packed token; only the end of input finishes the run. -/
theorem step_encode {token : Token} (recordable : token.Recordable) (marks : Nat)
    (rest : List UInt8) :
    step ⟨origin, ⟨position, line, token.encode marks ++ rest⟩, false⟩ =
      (some (.ok token),
        ⟨origin, ⟨position + (token.encode marks).length, line + marks, rest⟩, token.isEnd⟩) := by
  simp [step, next_encode recordable, Outcome.isLast]

/-- A run over packed tokens reports each of them and ends behind the last byte, if the end of
input is the last token and no other. -/
theorem runOnto_encodeAll (marks : Bool) (reports : List Report) (before : List Located)
    {last : Located}
    (recordable : ∀ located ∈ before ++ [last], located.token.Recordable)
    (others : ∀ located ∈ before, located.token.isEnd = false)
    (atEnd : last.token.isEnd = true) :
    let bytes := Located.encodeAll marks previous (before ++ [last])
    let run := runOnto reports ⟨origin, ⟨position, line, bytes⟩, false⟩
    run.1 = reports.reverse ++ replay marks position line previous (before ++ [last]) ∧
      run.2.position = position + bytes.length := by
  induction before generalizing position line previous reports with
  | nil =>
    have first := recordable last (List.mem_singleton_self last)
    simp only [List.nil_append, Located.encodeAll_cons, replay]
    rw [runOnto_of_step reports (step_encode first _ _), atEnd, runOnto_of_finished _ rfl]
    simp [Cursor.position, Cursor.line, Located.encodeAll_nil]
  | cons located before ih =>
    have first := recordable located List.mem_cons_self
    have later := fun other held => recordable other (List.mem_cons_of_mem _ held)
    have going := others located List.mem_cons_self
    simp only [List.cons_append, Located.encodeAll_cons, replay, List.length_append]
    rw [runOnto_of_step reports (step_encode first _ _), going]
    obtain ⟨reported, stopped⟩ := ih (_ :: reports) later
      (fun other held => others other (List.mem_cons_of_mem _ held))
    rw [reported, stopped]
    simp [Cursor.position, Cursor.line, Nat.add_assoc]

end Cursor

/-- The end of input leaves its tag as the last byte. -/
theorem Located.encodeAll_ends (marks : Bool) (line : Nat) (before : List Located) {last : Located}
    (atEnd : last.token = .endOfInput) :
    (encodeAll marks line (before ++ [last])).getLast? = some Kind.endOfInput.tag := by
  induction before generalizing line with
  | nil => simp [encodeAll, atEnd, Token.endOfInput, Token.bare]
  | cons located before ih =>
    rw [List.cons_append, encodeAll_cons, List.getLast?_append, ih]
    rfl

namespace Scanner
variable {scanner : Scanner} {marks : Bool} {quota : Quota} {tape : Tape}

/-- A cursor at the start of a tape reports the packed tokens as they stand on it. -/
theorem run_of_packed (packed : (scanner.pack marks quota).result = .ok tape) :
    let run := (Cursor.start tape.bytes 0 scanner.line).run
    run.1 = Cursor.replay marks 0 scanner.line scanner.line scanner.scan.tokens ∧
      run.2.position = tape.size := by
  obtain ⟨complete, rfl, -⟩ := pack_eq_ok_iff.mp packed
  obtain ⟨before, last, tokens, atEnd, -, others⟩ := scanner.scan_ends complete
  have recordable := scanner.scan_recordable
  rw [tokens] at recordable ⊢
  obtain ⟨reported, stopped⟩ := Cursor.runOnto_encodeAll marks [] before recordable
    others (by rw [atEnd]; rfl)
  exact ⟨reported, stopped.trans (Nat.zero_add _)⟩

/-- A tape reads back as the tokens that the scanner would have given instead of packing them: a
cursor at its start, on the line where the scanner stood, meets no damage, gives the same tokens
up to the end of input and stops behind the last byte, which alone is the tag of the end of
input. With line marks it stands on the line of each token, without them it stays on its line,
and what it gives does not depend on the marks or on the quota. -/
theorem replay_yields_scanned_tokens (packed : (scanner.pack marks quota).result = .ok tape) :
    let tokens := scanner.scan.tokens
    let replay := (Cursor.start tape.bytes 0 scanner.line).run
    scanner.scan.failure = none ∧
      replay.1.map (·.outcome) = tokens.map (.ok ·.token) ∧
      replay.1.map (·.line) = tokens.map (if marks then (·.line) else fun _ => scanner.line) ∧
      replay.2.position = tape.size ∧
      tape.bytes.getLast? = some Kind.endOfInput.tag ∧
      (∀ report ∈ replay.1, report.outcome = .ok .endOfInput ↔ report.position = tape.size) ∧
      ∀ otherMarks otherQuota other, (scanner.pack otherMarks otherQuota).result = .ok other →
        (Cursor.start other.bytes 0 scanner.line).run.1.map (·.outcome) =
          replay.1.map (·.outcome) := by
  intro tokens replay
  have outcomes : ∀ {marks quota tape}, (scanner.pack marks quota).result = .ok tape →
      (Cursor.start tape.bytes 0 scanner.line).run.1.map (·.outcome) =
        tokens.map (.ok ·.token) := by
    intro marks quota tape packed
    rw [(run_of_packed packed).1]
    exact Cursor.replay_outcomes _
  obtain ⟨reported, stopped⟩ := run_of_packed packed
  obtain ⟨complete, rfl, -⟩ := pack_eq_ok_iff.mp packed
  obtain ⟨before, last, shape, atEnd, -, others⟩ := scanner.scan_ends complete
  refine ⟨complete, outcomes packed, ?_, stopped, ?_, ?_, ?_⟩
  · simp only [replay, reported]
    cases marks with
    | true => exact Cursor.replay_lines_marked tokens scanner.scan_descending
    | false => exact Cursor.replay_lines_unmarked tokens
  · simp only [shape]
    exact Located.encodeAll_ends marks scanner.line before atEnd
  · intro report member
    have inReplay : report ∈ Cursor.replay marks 0 scanner.line scanner.line (before ++ [last]) := by
      rw [← shape, ← reported]
      exact member
    rcases Cursor.replay_positions inReplay with ⟨behind, same⟩ | ⟨inside, located, held, same⟩
    · simp only [Nat.zero_add] at behind
      simp [same, atEnd, behind, Tape.size, shape]
    · have going := others located held
      have other : located.token ≠ .endOfInput := by
        intro ended
        rw [ended] at going
        cases going
      simp only [Nat.zero_add] at inside
      simp only [same, Except.ok.injEq, other, Tape.size, shape, false_iff]
      omega
  · intro otherMarks otherQuota other otherPacked
    exact (outcomes otherPacked).trans (outcomes packed).symm

/-- A scan that goes on behind a first token, with payload bytes that look like a mark and like
the end of input. -/
theorem replay_of_letters :
    let scanner := (Scanner.start ⟨[]⟩ .empty "t.c" "(\n'A'\n'B'" []).next.2
    let bytes := [65, 39, 1, 65, 0, 0, 0, 0, 0, 0, 0, 65, 39, 1, 66, 0, 0, 0, 0, 0, 0, 0, 66]
    (scanner.pack true (.ofLimit 64)).result = .ok ⟨bytes⟩ ∧
      (Cursor.start bytes 0 scanner.line).run.1.map (·.outcome) =
        [.ok (.valued .character (.integer 65)), .ok (.valued .character (.integer 66)),
          .ok .endOfInput] ∧
      (Cursor.start bytes 0 scanner.line).run.1.map (·.line) = [2, 3, 3] ∧
      (Cursor.start bytes 0 scanner.line).run.2.position = 23 := by
  intro scanner bytes
  have tokens : scanner.scan.tokens = [⟨.valued .character (.integer 65), 2, 2⟩,
      ⟨.valued .character (.integer 66), 3, 3⟩, ⟨.endOfInput, 3, 3⟩] := by
    decide +kernel
  have packed : (scanner.pack true (.ofLimit 64)).result = .ok ⟨bytes⟩ := by
    rw [pack_eq_ok_iff, tokens]
    decide +kernel
  obtain ⟨-, outcomes, lines, position, -⟩ := replay_yields_scanned_tokens packed
  rw [tokens] at outcomes lines
  exact ⟨packed, outcomes, lines, position⟩

end Scanner
end TokenTape
