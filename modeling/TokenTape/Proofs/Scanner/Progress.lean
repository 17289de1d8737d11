import TokenTape.Proofs.Scanner.Accesses
import TokenTape.Proofs.Scanner.LineAccount
/-!
A scanner always gets on. What can still be used up are bytes and failing replies; a reply without
text in it counts for nothing. Each request uses up some of this or finds that nothing is left
(`Reader.next_spends`). So what is left gets less with each request, and requests made again and
again, through failures too, come to the end of input (`Scanner.requests_reach_end`).
-/
namespace TokenTape

/-- Whether a request for more is answered by a failure. -/
def Reply.isFailure : Reply → Bool
  | .line _ => false
  | .failure _ => true

/-- How many of the replies to come are failures. -/
def LineSource.failures (source : LineSource) : Nat := source.countP Reply.isFailure

theorem LineSource.failures_failure (reason : String) (source : LineSource) :
    failures (.failure reason :: source) = source.failures + 1 :=
  List.countP_cons_of_pos rfl

/-- How many failing replies the end of a body stands for. -/
def BodyEnd.failures : BodyEnd → Nat
  | .failed _ => 1
  | _ => 0

/-- How many failing replies the result of a request stands for. -/
def failuresTold : Except Obstacle Lexeme → Nat
  | .error (.unreadable _) => 1
  | _ => 0

theorem Body.failures_read (closer : Closer) (memory : Bool) (reversed text : List Char)
    (source : LineSource) :
    source.failures = (read closer memory reversed text source).ending.failures +
      (read closer memory reversed text source).source.failures := by
  fun_induction read closer memory reversed text source with
  | case1 => exact (Nat.zero_add _).symm
  | case2 _ _ _ _ _ _ _ ih => exact ih
  | case3 => rfl
  | case4 _ _ reason source =>
    rw [LineSource.failures_failure]
    exact Nat.add_comm _ 1
  | case5 _ _ _ _ ih => exact ih

namespace Reader

theorem failures_settle (reader : Reader) :
    reader.source.failures =
      (if reader.settle.1.isSome then 1 else 0) + reader.settle.2.source.failures := by
  fun_induction settle reader with
  | case1 reason source =>
    rw [LineSource.failures_failure]
    exact Nat.add_comm _ 1
  | case2 _ _ _ _ ih => exact ih
  | case3 _ _ _ _ ih => exact ih
  | case4 text source _ _ body _ reason failed =>
    have count : source.failures = body.ending.failures + body.source.failures :=
      Body.failures_read .comment false [] text source
    rwa [failed] at count
  | case5 text source _ _ body _ going ih =>
    have count : source.failures = body.ending.failures + body.source.failures :=
      Body.failures_read .comment false [] text source
    have none : body.ending.failures = 0 := by
      cases ending : body.ending with
      | failed reason => exact (going reason ending).elim
      | _ => rfl
    rw [none, Nat.zero_add] at count
    exact count.trans ih
  | case6 _ _ _ _ _ _ _ _ ih => exact ih
  | case7 => exact (Nat.zero_add _).symm
  | case8 => exact (Nat.zero_add _).symm

theorem failures_take (reader : Reader) :
    reader.source.failures = failuresTold reader.take.1 + reader.take.2.source.failures := by
  have same (source : LineSource) : source.failures = 0 + source.failures := (Nat.zero_add _).symm
  obtain ⟨stray, text, source, line, tokenLine⟩ := reader
  match stray, text with
  | byte :: stray, text => exact same source
  | [], [] => exact same source
  | [], c :: rest =>
    simp only [take]
    split
    · exact same source
    split
    · exact same source
    split
    · have count := Body.failures_read .quote false [] rest source
      split
      · next failed =>
        rw [failed] at count
        exact count
      · next closed =>
        cases ending : (Body.read .quote false [] rest source).ending with
        | failed reason => exact (closed reason ending).elim
        | _ =>
          rw [ending] at count
          exact count
    split
    · split
      · split <;> exact same source
      · exact same source
    split <;> exact same source

/-- The failing replies that are gone after a request are those that it has told. -/
theorem failures_next (reader : Reader) :
    reader.source.failures = failuresTold reader.next.1 + reader.next.2.source.failures := by
  have passed := failures_settle reader
  unfold next
  split
  · next reason stopped found =>
    rw [found] at passed
    exact passed
  · next stopped found =>
    rw [found] at passed
    rw [passed]
    exact (Nat.zero_add _).trans (failures_take stopped)

/-- Where the end of input is told, nothing is left. -/
theorem nothing_left {reader after : Reader} (taken : reader.next = (.ok .endOfInput, after)) :
    after.unread = [] ∧ after.source = [] := by
  unfold next at taken
  split at taken
  · cases taken
  · next stopped found =>
    obtain ⟨whole, clean, -, ⟨-, stands, text, source, -⟩ | ⟨_, -, -, written | ⟨cutOff, -⟩⟩⟩ :=
      take_ok taken
    · rcases settle_stands found with left | ⟨-, dry⟩ | ⟨c, rest, some, -⟩
      · contradiction
      · rw [unread_of_stray_nil clean, text, source, dry]
        exact ⟨rfl, rfl⟩
      · rw [stands] at some
        cases some
    · cases written
    · cases cutOff

/-- Bytes and replies that are gone after a request, both from the front. -/
structure Spends (reader after : Reader) (gone : List UInt8) (asked : LineSource) : Prop where
  bytes : reader.unread = gone ++ after.unread
  replies : reader.source = asked ++ after.source

/-- A request finds that nothing is left, or it has used up a byte or a failing reply. -/
theorem next_spends {reader : Reader} (sound : reader.Sound) :
    ∃ gone asked, reader.Spends reader.next.2 gone asked ∧
      (reader.next.1 = .ok .endOfInput ∧ reader.next.2.unread = [] ∧ reader.next.2.source = [] ∨
        gone ≠ [] ∨ 0 < LineSource.failures asked) := by
  obtain ⟨asked, replies⟩ := (next_advances reader).source_suffix
  have told : LineSource.failures asked = failuresTold reader.next.1 := by
    have count := failures_next reader
    rw [← replies, LineSource.failures, List.countP_append] at count
    exact Nat.add_right_cancel count
  match taken : reader.next with
  | (result, after) =>
    rw [taken] at replies told
    have turn := (next_turn sound taken).1
    cases turn with
    | lexeme gap written input stands _ _ =>
      have some : written ≠ [] := by
        rcases stands with isWritten | ⟨cutOff, -⟩
        · exact isWritten.ne_nil
        · cases cutOff <;> exact List.cons_ne_nil _ _
      refine ⟨Utf8.bytesOf gap ++ Utf8.bytesOf written, asked, ⟨?_, replies.symm⟩, ?_⟩
      · rw [List.append_assoc]
        exact input
      · right; left
        intro none
        exact some (Utf8.bytesOf_eq_nil_iff.mp (List.append_eq_nil_iff.mp none).2)
    | ended gap input _ _ =>
      exact ⟨_, asked, ⟨input, replies.symm⟩, Or.inl ⟨rfl, nothing_left taken⟩⟩
    | refused gap byte input _ _ _ =>
      refine ⟨Utf8.bytesOf gap ++ [byte], asked, ⟨?_, replies.symm⟩, ?_⟩
      · rw [List.append_assoc]
        exact input
      · right; left
        exact List.append_ne_nil_of_right_ne_nil _ (List.cons_ne_nil byte [])
    | unreadable gap input _ _ _ =>
      refine ⟨_, asked, ⟨input, replies.symm⟩, Or.inr (Or.inr ?_)⟩
      rw [told]
      exact Nat.one_pos

end Reader

namespace Scanner

/-- What can still be used up: the bytes that are left and the failing replies to come. -/
def left (scanner : Scanner) : Nat := scanner.unread.length + scanner.reader.source.failures

/-- What a reader spends is no longer left. -/
theorem left_of_spends {scanner after : Scanner} {gone : List UInt8} {asked : LineSource}
    (spends : scanner.reader.Spends after.reader gone asked) :
    scanner.left = gone.length + asked.failures + after.left := by
  unfold left unread
  rw [spends.bytes, spends.replies, List.length_append, LineSource.failures, List.countP_append,
    Nat.add_add_add_comm]
  rfl

/-- Where a reader has come to the end of input, that is the outcome. -/
theorem next_endOfInput {scanner : Scanner} (ended : scanner.reader.next.1 = .ok .endOfInput) :
    scanner.next.1 = .ok .endOfInput := by
  match read : scanner.reader.next with
  | (result, reader) =>
    rw [read] at ended
    cases ended
    exact congrArg Prod.fst (next_of_lexeme read)

/-- An outcome other than the end of input leaves less than there was. -/
theorem left_lt_of_next {scanner : Scanner} (sound : scanner.reader.Sound)
    (going : scanner.next.1 ≠ .ok .endOfInput) : scanner.next.2.left < scanner.left := by
  obtain ⟨gone, asked, spends, progress⟩ := Reader.next_spends sound
  rw [← next_reader] at spends
  rw [left_of_spends spends]
  rcases progress with ⟨ended, -⟩ | some | told
  · exact (going (next_endOfInput ended)).elim
  · have := List.length_pos_iff.mpr some
    omega
  · omega

/-- Enough requests come to the end of input, whatever the outcomes before it are. -/
theorem end_among_requests {scanner : Scanner} (sound : scanner.reader.Sound) (count : Nat)
    (enough : scanner.left < count) :
    some (.ok .endOfInput) ∈ (scanner.askAll (List.replicate count .next)).1 := by
  induction count generalizing scanner with
  | zero => exact absurd enough (Nat.not_lt_zero _)
  | succ count ih =>
    by_cases ended : scanner.next.1 = .ok .endOfInput
    · rw [← ended]
      exact List.mem_cons_self
    · refine List.mem_cons_of_mem _ (ih ?_ ?_)
      · change scanner.next.2.reader.Sound
        rw [next_reader]
        exact (Reader.next_turn sound rfl).2
      · exact Nat.lt_of_lt_of_le (left_lt_of_next sound ended) (Nat.le_of_lt_succ enough)

/-- After any history, failures included, a request ends, and it ends also when bytes are gone
through one by one with every access checked. It finds that nothing is left, or it uses up a byte or
a failing reply. So requests that are made again and again, through failures too, come to the end of
input at the latest when one more is made than there are bytes and failing replies. -/
theorem requests_reach_end (reserved : ReservedWords) (vocabulary : Vocabulary)
    (file text : String) (source : LineSource) :
    let start := Scanner.start reserved vocabulary file text source
    (∀ asks : List Ask,
      let scanner := (start.askAll asks).2
      (∃ bytewise after,
        (ByteScanner.start reserved vocabulary file text source).askAll asks =
          some ((start.askAll asks).1, bytewise) ∧
        bytewise.next = some (scanner.next.1, after)) ∧
      ∃ gone asked, scanner.reader.Spends scanner.next.2.reader gone asked ∧
        (scanner.next.1 = .ok .endOfInput ∧ scanner.next.2.left = 0 ∨
          gone ≠ [] ∨ 0 < asked.failures)) ∧
    some (.ok .endOfInput) ∈ (start.askAll (List.replicate
      ((Utf8.bytesOf (text.toList ++ source.text)).length + source.failures + 1) .next)).1 := by
  intro start
  refine ⟨?_, ?_⟩
  · intro asks scanner
    have mirrors := ByteScanner.start_mirrors reserved vocabulary file text source
    obtain ⟨bytewise, given, further⟩ := mirrors.askAll asks
    obtain ⟨after, next, -⟩ := further.next
    refine ⟨⟨bytewise, after, given, next⟩, ?_⟩
    have sound : scanner.reader.Sound :=
      (hasRead_askAll reserved vocabulary file text source asks).1
    obtain ⟨gone, asked, spends, progress⟩ := Reader.next_spends sound
    rw [← next_reader] at spends progress
    refine ⟨gone, asked, spends, progress.imp_left ?_⟩
    rintro ⟨ended, bytes, replies⟩
    refine ⟨next_endOfInput ended, ?_⟩
    rw [left, unread, bytes, replies]
    rfl
  · exact end_among_requests (Reader.start_sound text source) _ (Nat.lt_succ_self _)

end Scanner
end TokenTape
