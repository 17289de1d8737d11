import TokenTape.Proofs.Reading.FailedReplies
import TokenTape.Proofs.Scanner.Concatenation
/-!
Failures that lose nothing. Requests are made one after the other, whatever they give
(`Scanner.answers`). A failure that is met while nothing is open makes one of them tell it, and all
others give what they would have given without it (`Scanner.answers_without_failure`): what has been
passed over before the failure is passed over once, and the line reached, the words and the rest of the
input are kept.
-/
namespace TokenTape

/-- What one request has given, with the lines and the vocabulary that it has left. -/
structure Answer extends Scanner.Report where
  vocabulary : Vocabulary

namespace Scanner

/-- What requests made one after the other give. -/
def answers (scanner : Scanner) : Nat → List Answer
  | 0 => []
  | count + 1 =>
    let after := scanner.next.2
    ⟨⟨scanner.next.1, after.tokenLine, after.line⟩, after.vocabulary⟩ :: after.answers count

/-- The scanner behind a number of requests. -/
def requested (scanner : Scanner) : Nat → Scanner
  | 0 => scanner
  | count + 1 => scanner.next.2.requested count

/-- The same scanner with other replies to come. -/
def hearing (scanner : Scanner) (source : LineSource) : Scanner :=
  scanner.reading (scanner.reader.hearing source)

theorem requested_add (scanner : Scanner) (count more : Nat) :
    scanner.requested (count + more) = (scanner.requested count).requested more := by
  induction count generalizing scanner with
  | zero => rw [Nat.zero_add, requested]
  | succ count ih =>
    rw [Nat.add_right_comm, requested, requested]
    exact ih _

theorem answers_add (scanner : Scanner) (count more : Nat) :
    scanner.answers (count + more) =
      scanner.answers count ++ (scanner.requested count).answers more := by
  induction count generalizing scanner with
  | zero => rw [Nat.zero_add, answers, requested, List.nil_append]
  | succ count ih =>
    rw [Nat.add_right_comm, answers, answers, requested, List.cons_append]
    exact congrArg _ (ih _)

theorem length_answers (scanner : Scanner) (count : Nat) : (scanner.answers count).length = count := by
  induction count generalizing scanner with
  | zero => rfl
  | succ count ih => exact congrArg (· + 1) (ih _)

/-- What is given depends on the first request alone. -/
theorem answers_congr {scanner other : Scanner} (same : scanner.next = other.next) (count : Nat) :
    scanner.answers (count + 1) = other.answers (count + 1) ∧
      scanner.requested (count + 1) = other.requested (count + 1) := by
  simp only [answers, requested, same, and_self]

theorem requested_source_suffix (scanner : Scanner) (count : Nat) :
    (scanner.requested count).reader.source <:+ scanner.reader.source := by
  induction count generalizing scanner with
  | zero => exact List.suffix_refl _
  | succ count ih => exact (ih scanner.next.2).trans scanner.next_source_suffix

variable {scanner : Scanner} {asked later left : LineSource}

theorem next_hearing (source : scanner.reader.source = asked ++ later)
    (kept : scanner.next.2.reader.source = left ++ later) (toCome : later ≠ []) (other : LineSource) :
    (scanner.hearing (asked ++ other)).next = (scanner.next.1, scanner.next.2.hearing (left ++ other)) := by
  rw [next_reader] at kept
  have same := Reader.next_hearing source kept toCome other
  match read : scanner.reader.next with
  | (.ok lexeme, reader) =>
    rw [read] at same
    rw [next_of_lexeme read]
    have same : (scanner.hearing (asked ++ other)).reader.next =
        (.ok lexeme, reader.hearing (left ++ other)) := same
    exact next_of_lexeme same
  | (.error obstacle, reader) =>
    rw [read] at same
    rw [next_of_obstacle read]
    have same : (scanner.hearing (asked ++ other)).reader.next =
        (.error obstacle, reader.hearing (left ++ other)) := same
    exact next_of_obstacle same

/-- Requests do not depend on replies that they have not asked for. -/
theorem answers_hearing {count : Nat} (source : scanner.reader.source = asked ++ later)
    (kept : (scanner.requested count).reader.source = left ++ later) (toCome : later ≠ [])
    (other : LineSource) :
    (scanner.hearing (asked ++ other)).answers count = scanner.answers count ∧
      (scanner.hearing (asked ++ other)).requested count =
        (scanner.requested count).hearing (left ++ other) := by
  induction count generalizing scanner asked with
  | zero =>
    have same : asked ++ later = left ++ later := source.symm.trans kept
    rw [List.append_cancel_right same]
    exact ⟨rfl, rfl⟩
  | succ count ih =>
    obtain ⟨more, between⟩ := requested_source_suffix scanner.next.2 count
    have between : scanner.next.2.reader.source = (more ++ left) ++ later := by
      rw [List.append_assoc, ← kept]
      exact between.symm
    obtain ⟨answers, behind⟩ := ih between kept
    have first := next_hearing source between toCome other
    refine ⟨?_, ?_⟩
    · rw [Scanner.answers, Scanner.answers, first]
      exact congrArg _ answers
    · rw [requested, first]
      exact behind

/-- Requests are made one after the other, through failures too, and one of them meets a failing reply
while no string and no block comment is open. It tells the failure. If that reply is taken out, all
other requests give what they have given before: the same tokens and handles, the same other failures,
the same lines and the same vocabulary, so only this one answer is missing. Behind it the scanners are
the same. -/
theorem answers_without_failure {before rest : LineSource} {reason : String} {count : Nat}
    (met : ((scanner.hearing (before ++ .failure reason :: rest)).requested count).reader.MeetsFailure
      reason rest) (more : Nat) :
    let whole := scanner.hearing (before ++ .failure reason :: rest)
    let spared := scanner.hearing (before ++ rest)
    (whole.requested count).next.1 = .error (.unreadable reason) ∧
      spared.answers (count + more) = (whole.answers (count + 1 + more)).eraseIdx count ∧
      spared.requested (count + 1 + more) = whole.requested (count + 2 + more) := by
  intro whole spared
  let failing := whole.requested count
  obtain ⟨line, tokenLine, idles⟩ := met
  obtain ⟨asked, left⟩ := idles.source_suffix
  have left : failing.reader.source = asked ++ .failure reason :: rest := left.symm
  -- Before the failure is met nothing from it on has been asked for, so it may as well be missing.
  have source : whole.reader.source = before ++ .failure reason :: rest := rfl
  obtain ⟨earlier, behind⟩ : spared.answers count = whole.answers count ∧
      spared.requested count = failing.hearing (asked ++ rest) :=
    answers_hearing source left (List.cons_ne_nil _ _) rest
  -- The request that tells it keeps what it has passed over, so the next one goes on from there.
  obtain ⟨reader, told, -, goesOn⟩ :=
    Reader.next_of_meetsFailure ⟨line, tokenLine, idles⟩ left
  have failed : failing.next = (.error (.unreadable reason), failing.reading reader) :=
    next_of_obstacle told
  have same : (spared.requested count).next = failing.next.2.next := by
    rw [behind, failed]
    exact next_congr failing goesOn
  refine ⟨by rw [failed], ?_, ?_⟩
  · have later : (spared.requested count).answers more = failing.next.2.answers more := by
      cases more with
      | zero => rfl
      | succ more => exact (answers_congr same more).1
    have length := whole.length_answers count
    rw [answers_add, earlier, later, Nat.add_assoc, Nat.add_comm 1, answers_add, answers,
      List.eraseIdx_append_of_length_le (Nat.le_of_eq length), length, Nat.sub_self, List.eraseIdx_zero,
      List.tail_cons]
  · have further : spared.requested (count + (more + 1)) = whole.requested (count + (more + 2)) := by
      rw [requested_add spared, requested_add whole]
      exact (answers_congr same more).2
    rwa [Nat.add_assoc, Nat.add_assoc, Nat.add_comm 1, Nat.add_comm 2]

/-- A failure behind a comment that was opened in the text at hand and closed in a reply: the comment
and the blanks behind it are passed over once, and the word behind the failure is taken on the second
line, with or without it. -/
theorem answers_without_failure_behind_comment :
    let words := ReservedWords.ofVocabulary .empty
    let scanner := start words.1 words.2 "t.c" "a /* x" []
    let whole := scanner.hearing ([.line "*/ \n"] ++ .failure "gone" :: [.line "b"])
    let spared := scanner.hearing ([.line "*/ \n"] ++ [.line "b"])
    (whole.requested 1).reader.MeetsFailure "gone" [.line "b"] ∧
      (whole.requested 1).next.1 = .error (.unreadable "gone") ∧
      spared.answers (1 + 2) = (whole.answers (1 + 1 + 2)).eraseIdx 1 ∧
      spared.requested (1 + 1 + 2) = whole.requested (1 + 2 + 2) := by
  intro words scanner whole spared
  have word : (whole.requested 1).reader =
      ⟨[], " /* x".toList, [.line "*/ \n", .failure "gone", .line "b"], 1, 1⟩ := by
    decide +kernel
  have body : Body.read .comment false [] " x".toList [.line "*/ \n", .failure "gone", .line "b"] =
      ⟨.closed, " x*".toList.reverse, " \n".toList, [.failure "gone", .line "b"]⟩ := by
    simp [Body.read, Closer.comment]
  have met : (whole.requested 1).reader.MeetsFailure "gone" [.line "b"] := by
    rw [word]
    exact ⟨2, 1, .blank rfl (.blockComment body rfl (.blank rfl (.blank rfl (.here _))))⟩
  exact ⟨met, answers_without_failure met 2⟩

end Scanner
end TokenTape
