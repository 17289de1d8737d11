import TokenTape.Proofs.Reading.Followed
import TokenTape.Proofs.Reading.LongestMatch
import TokenTape.Proofs.Reading.Unread
/-!
Replies that fail. A request that tells a failure has just asked for it, and it was met in one of three
places: between lexemes, in an open block comment or in an open string (`Reader.next_unreadable`). What
has not been asked for yet could as well be something else (`Reader.next_hearing`). So a failure that is
met between lexemes, where nothing is open, only interrupts the passing over blanks and comments
(`Reader.Idles`): the next request goes on from there as if it had not been met.
-/
namespace TokenTape

/-- Replies that are asked for one after the other are asked for from the front. -/
private theorem asked_cons {reply : Reply} {source asked later rest left : LineSource}
    (whole : reply :: source = asked ++ later) (suffix : rest <:+ source) (kept : rest = left ++ later) :
    ∃ more, asked = reply :: more ∧ source = more ++ later := by
  cases asked with
  | nil =>
    have fewer := suffix.length_le
    rw [kept, List.length_append, ← List.nil_append later, ← whole, List.length_cons] at fewer
    omega
  | cons first more =>
    cases whole
    exact ⟨more, rfl, rfl⟩

namespace Body

/-- A body that ends at a failure has just asked for it. -/
theorem read_failed {closer : Closer} {memory : Bool} {reversed text : List Char}
    {source : LineSource} {reason : String}
    (failed : (read closer memory reversed text source).ending = .failed reason) :
    ∃ asked, source =
      asked ++ .failure reason :: (read closer memory reversed text source).source := by
  fun_induction read closer memory reversed text source with
  | case1 => cases failed
  | case2 _ _ _ _ _ _ _ ih => exact ih failed
  | case3 => cases failed
  | case4 =>
    cases failed
    exact ⟨[], rfl⟩
  | case5 _ _ more _ ih =>
    obtain ⟨asked, whole⟩ := ih failed
    exact ⟨.line more :: asked, congrArg (.line more :: ·) whole⟩

/-- A body does not depend on replies that it has not asked for. -/
theorem read_hearing {closer : Closer} {memory : Bool} {reversed text : List Char}
    {asked later left : LineSource}
    (kept : (read closer memory reversed text (asked ++ later)).source = left ++ later)
    (toCome : later ≠ []) (other : LineSource) :
    read closer memory reversed text (asked ++ other) =
      { read closer memory reversed text (asked ++ later) with source := left ++ other } := by
  generalize whole : asked ++ later = source at kept ⊢
  fun_induction read closer memory reversed text source generalizing asked with
  | case1 memory reversed c text source closes =>
    rw [← whole, List.append_cancel_right_eq] at kept
    rw [read, closes, kept]
  | case2 memory reversed c text source memory' goes ih =>
    rw [read, goes]
    exact ih whole kept
  | case3 => exact absurd (List.append_eq_nil_iff.mp whole).2 toCome
  | case4 memory reversed reason source =>
    obtain ⟨more, rfl, rest⟩ := asked_cons whole.symm (List.suffix_refl _) kept
    rw [rest, List.append_cancel_right_eq] at kept
    rw [List.cons_append, read, kept]
  | case5 memory reversed more source ih =>
    have suffix := (read_advances closer memory reversed more.toList source).source_suffix
    obtain ⟨rest, rfl, same⟩ := asked_cons whole.symm suffix kept
    rw [List.cons_append, read]
    exact ih same.symm kept

end Body

namespace Reader

/-- The same reader with other replies to come. -/
def hearing (reader : Reader) (source : LineSource) : Reader := { reader with source }

/-! ## Between lexemes -/

/-- A reader goes on from place to place without anything being open in between: over a blank, over a
line comment, over a block comment with its closing mark, or from a text that is used up into the next
reply. -/
inductive Idles : Reader → Reader → Prop
  | here (reader : Reader) : Idles reader reader
  | asked {more : String} {source : LineSource} {line tokenLine : Nat} {place : Reader}
      (further : Idles ⟨[], more.toList, source, line, tokenLine⟩ place) :
      Idles ⟨[], [], .line more :: source, line, tokenLine⟩ place
  | blank {c : Char} {text : List Char} {source : LineSource} {line tokenLine : Nat}
      {place : Reader} (isBlank : isBlank c = true)
      (further : Idles ⟨[], text, source, lineAfter line c, tokenLine⟩ place) :
      Idles ⟨[], c :: text, source, line, tokenLine⟩ place
  | lineComment {text : List Char} {source : LineSource} {line tokenLine : Nat} {place : Reader}
      (further : Idles ⟨[], text.dropWhile (· != '\n'), source, line, line⟩ place) :
      Idles ⟨[], '/' :: '/' :: text, source, line, tokenLine⟩ place
  | blockComment {text : List Char} {source : LineSource} {line tokenLine : Nat} {body : Body}
      {place : Reader} (read : Body.read .comment false [] text source = body)
      (closed : body.ending = .closed)
      (further : Idles ⟨[], body.text, body.source, line + body.newlines, line⟩ place) :
      Idles ⟨[], '/' :: '*' :: text, source, line, tokenLine⟩ place

/-- The next reply that is asked for between lexemes is a failure, and these replies are left behind
it. -/
def MeetsFailure (reader : Reader) (reason : String) (left : LineSource) : Prop :=
  ∃ line tokenLine, reader.Idles ⟨[], [], .failure reason :: left, line, tokenLine⟩

/-- A body of this kind is opened behind its mark, and a failure is met before it is closed. -/
def FailsInside (reader : Reader) (mark : List Char) (closer : Closer) (reason : String)
    (left : LineSource) : Prop :=
  ∃ text source line tokenLine, reader.Idles ⟨[], mark ++ text, source, line, tokenLine⟩ ∧
    (Body.read closer false [] text source).ending = .failed reason ∧
    (Body.read closer false [] text source).source = left

namespace Idles

variable {reader place : Reader}

theorem source_suffix (idles : reader.Idles place) : place.source <:+ reader.source := by
  induction idles with
  | here => exact List.suffix_refl _
  | asked _ ih => exact ih.trans (List.suffix_cons _ _)
  | blank _ _ ih => exact ih
  | lineComment _ ih => exact ih
  | blockComment read _ _ ih =>
    subst read
    exact ih.trans (Body.read_advances _ _ _ _ _).source_suffix

theorem trans {middle : Reader} (first : reader.Idles middle) (second : middle.Idles place) :
    reader.Idles place := by
  induction first with
  | here => exact second
  | asked _ ih => exact .asked (ih second)
  | blank isBlank _ ih => exact .blank isBlank (ih second)
  | lineComment _ ih => exact .lineComment (ih second)
  | blockComment read closed _ ih => exact .blockComment read closed (ih second)

/-- Passing over what stands in between leads to the same place from both ends. -/
theorem settle (idles : reader.Idles place) : reader.settle = place.settle := by
  induction idles with
  | here => rfl
  | asked _ ih => rw [Reader.settle, ih]
  | blank isBlank _ ih => rw [settle_of_blank isBlank, ih]
  | lineComment _ ih => rw [Reader.settle, ih]
  | blockComment read closed _ ih =>
    subst read
    rw [Reader.settle, closed]
    exact ih

theorem next (idles : reader.Idles place) : reader.next = place.next := by
  rw [Reader.next, Reader.next, idles.settle]

/-- The place does not depend on replies that are not asked for before it. -/
theorem hearing {asked later left : LineSource} (idles : reader.Idles place)
    (source : reader.source = asked ++ later) (kept : place.source = left ++ later)
    (toCome : later ≠ []) (other : LineSource) :
    (reader.hearing (asked ++ other)).Idles (place.hearing (left ++ other)) := by
  induction idles generalizing asked with
  | here reader =>
    rw [source, List.append_cancel_right_eq] at kept
    rw [kept]
    exact .here _
  | asked further ih =>
    obtain ⟨more, rfl, rest⟩ := asked_cons source further.source_suffix kept
    exact .asked (ih rest kept)
  | blank isBlank _ ih => exact .blank isBlank (ih source kept)
  | lineComment _ ih => exact .lineComment (ih source kept)
  | @blockComment text _ line tokenLine body place read closed further ih =>
    obtain ⟨middle, whole⟩ := further.source_suffix
    have between : body.source = (middle ++ left) ++ later := by
      rw [List.append_assoc, ← kept]
      exact whole.symm
    have source : _ = asked ++ later := source
    subst source read
    have same := Body.read_hearing between toCome other
    refine .blockComment same closed ?_
    exact ih between kept

end Idles

/-- A comment that all input ends in leaves nothing to pass over. -/
private theorem settle_of_exhausted {text : List Char} {source : LineSource} {line tokenLine : Nat}
    (exhausted : (Body.read .comment false [] text source).ending = .exhausted) :
    let body := Body.read .comment false [] text source
    settle ⟨[], body.text, body.source, line, tokenLine⟩ = (none, ⟨[], [], [], line, tokenLine⟩) := by
  intro body
  obtain ⟨_, _, _, -, -, -, ended⟩ := Body.read_split .comment false [] text source
  rw [exhausted] at ended
  simp only [body, ended.2.1, ended.2.2]
  exact Stands.settle_eq (Or.inr (Or.inl ⟨rfl, rfl⟩))

/-- What the passing over blanks and comments has come to: a place behind which nothing was open, the end
of all input, or a failure that was met while nothing was open or while a block comment was. -/
inductive ComesTo (reader : Reader) : Option String → Reader → Prop
  | place {stopped : Reader} (idles : reader.Idles stopped) : ComesTo reader none stopped
  | dry {stopped : Reader} (clean : stopped.stray = []) (noText : stopped.text = [])
      (noReply : stopped.source = []) : ComesTo reader none stopped
  | failure {reason : String} {after : Reader} (met : reader.MeetsFailure reason after.source) :
      ComesTo reader (some reason) after
  | comment {reason : String} {after : Reader}
      (inside : reader.FailsInside ['/', '*'] .comment reason after.source) :
      ComesTo reader (some reason) after

/-- What is come to behind a step is come to from in front of it. -/
theorem ComesTo.behind {reader further after : Reader} {failure : Option String}
    (step : ∀ {place}, further.Idles place → reader.Idles place)
    (comesTo : further.ComesTo failure after) : reader.ComesTo failure after := by
  cases comesTo with
  | place idles => exact .place (step idles)
  | dry clean noText noReply => exact .dry clean noText noReply
  | failure met =>
    obtain ⟨line, tokenLine, idles⟩ := met
    exact .failure ⟨line, tokenLine, step idles⟩
  | comment inside =>
    obtain ⟨text, source, line, tokenLine, idles, opened⟩ := inside
    exact .comment ⟨text, source, line, tokenLine, step idles, opened⟩

theorem settle_comesTo (reader : Reader) : reader.ComesTo reader.settle.1 reader.settle.2 := by
  fun_induction settle reader with
  | case1 reason source line tokenLine => exact .failure ⟨line, tokenLine, .here _⟩
  | case2 more source line tokenLine ih => exact ih.behind .asked
  | case3 text source line tokenLine ih => exact ih.behind .lineComment
  | case4 text source line tokenLine body reader reason failed =>
    exact .comment ⟨text, source, line, tokenLine, .here _, failed, rfl⟩
  | case5 text source line tokenLine body reader going ih =>
    cases ending : body.ending with
    | closed => exact ih.behind (.blockComment rfl ending)
    | failed reason => exact (going reason ending).elim
    | exhausted =>
      have nothing : reader.settle = (none, ⟨[], [], [], line + body.newlines, line⟩) :=
        settle_of_exhausted ending
      rw [nothing]
      exact .dry rfl rfl rfl
  | case6 c text source line tokenLine _ _ blank ih => exact ih.behind (.blank blank)
  | case7 => exact .place (.here _)
  | case8 => exact .place (.here _)

/-- A lexeme whose reading fails is a string that was open. -/
theorem take_failed {reader after : Reader} {reason : String}
    (failed : reader.take = (.error (.unreadable reason), after)) :
    reader.FailsInside ['"'] .quote reason after.source := by
  obtain ⟨stray, text, source, line, tokenLine⟩ := reader
  match stray, text with
  | byte :: stray, text => cases failed
  | [], [] => cases failed
  | [], c :: rest =>
    simp only [take] at failed
    split at failed
    · cases failed
    split at failed
    · cases failed
    split at failed
    · next quote =>
      subst quote
      split at failed
      · next told ended =>
        cases failed
        exact ⟨rest, source, line, tokenLine, .here _, ended, rfl⟩
      · cases failed
    split at failed
    · split at failed
      · split at failed <;> cases failed
      · cases failed
    split at failed <;> cases failed

/-- The three places in which a request meets a failure. -/
theorem next_unreadable {reader after : Reader} {reason : String}
    (failed : reader.next = (.error (.unreadable reason), after)) :
    reader.MeetsFailure reason after.source ∨
      reader.FailsInside ['/', '*'] .comment reason after.source ∨
      reader.FailsInside ['"'] .quote reason after.source := by
  have settled := settle_comesTo reader
  unfold next at failed
  split at failed
  · next told stopped found =>
    cases failed
    rw [found] at settled
    cases settled with
    | failure met => exact Or.inl met
    | comment inside => exact Or.inr (Or.inl inside)
  · next stopped found =>
    rw [found] at settled
    cases settled with
    | place idles =>
      obtain ⟨text, source, line, tokenLine, here, opened⟩ := take_failed failed
      exact Or.inr (Or.inr ⟨text, source, line, tokenLine, idles.trans here, opened⟩)
    | dry clean noText noReply =>
      obtain ⟨stray, text, source, line, tokenLine⟩ := stopped
      obtain ⟨rfl, rfl, rfl⟩ := And.intro clean (And.intro noText noReply)
      cases failed

/-- A request that tells a failure has just asked for it. -/
theorem next_unreadable_source {reader after : Reader} {reason : String}
    (failed : reader.next = (.error (.unreadable reason), after)) :
    ∃ asked, reader.source = asked ++ .failure reason :: after.source := by
  have inside {mark : List Char} {closer : Closer}
      (fails : reader.FailsInside mark closer reason after.source) :
      ∃ asked, reader.source = asked ++ .failure reason :: after.source := by
    obtain ⟨text, source, _, _, idles, ended, left⟩ := fails
    obtain ⟨asked, between⟩ := idles.source_suffix
    obtain ⟨more, rest⟩ := Body.read_failed ended
    have between : asked ++ source = reader.source := between
    exact ⟨asked ++ more, by rw [← between, ← left, List.append_assoc, ← rest]⟩
  rcases next_unreadable failed with ⟨_, _, idles⟩ | comment | string
  · obtain ⟨asked, whole⟩ := idles.source_suffix
    exact ⟨asked, whole.symm⟩
  · exact inside comment
  · exact inside string

/-! ## Replies that are not asked for -/

variable {reader : Reader} {asked later left : LineSource}

/-- What stands at a place has nothing to do with the replies behind it. -/
private theorem Stands.hearing (stands : reader.Stands) (more : reader.source ≠ [])
    (source : LineSource) : (reader.hearing source).Stands := by
  rcases stands with left | ⟨-, dry⟩ | written
  · exact Or.inl left
  · contradiction
  · exact Or.inr (Or.inr written)

theorem settle_hearing (source : reader.source = asked ++ later)
    (kept : reader.settle.2.source = left ++ later) (toCome : later ≠ []) (other : LineSource) :
    (reader.hearing (asked ++ other)).settle =
      (reader.settle.1, reader.settle.2.hearing (left ++ other)) := by
  have settled := settle_comesTo reader
  cases found : reader.settle with
  | mk failure after =>
    rw [found] at settled kept
    cases settled with
    | place idles =>
      have more : after.source ≠ [] := by
        rw [kept]
        exact List.append_ne_nil_of_right_ne_nil _ toCome
      rw [(idles.hearing source kept toCome other).settle]
      exact ((settle_stands found).hearing more _).settle_eq
    | dry _ _ noReply =>
      rw [kept] at noReply
      exact absurd (List.append_eq_nil_iff.mp noReply).2 toCome
    | @failure reason _ met =>
      obtain ⟨line, tokenLine, idles⟩ := met
      have stopped : after = ⟨[], [], after.source, line, tokenLine⟩ := by
        rw [idles.settle, settle] at found
        exact (Prod.mk.inj found).2.symm
      have before : Reply.failure reason :: after.source = (.failure reason :: left) ++ later :=
        congrArg _ kept
      rw [(idles.hearing source before toCome other).settle, stopped]
      simp only [hearing, List.cons_append, settle]
    | @comment reason _ inside =>
      obtain ⟨text, between, line, tokenLine, idles, failed, rest⟩ := inside
      obtain ⟨more, whole⟩ := Body.read_failed failed
      rw [rest, kept] at whole
      have before : between = (more ++ .failure reason :: left) ++ later := by
        rw [whole, List.append_assoc]
        rfl
      subst before
      have same := Body.read_hearing (rest.trans kept) toCome other
      rw [(idles.hearing source rfl toCome other).settle]
      rw [idles.settle, List.cons_append, List.cons_append, List.nil_append, settle, failed] at found
      cases found
      simp only [hearing, List.cons_append, List.nil_append]
      rw [settle, same]
      simp only [failed]
      rfl

/-- All lexemes but strings are taken from the text at hand. -/
theorem take_of_text (reader : Reader) (noString : reader.stray = [] → reader.text.head? ≠ some '"')
    (source : LineSource) :
    (reader.hearing source).take = (reader.take.1, reader.take.2.hearing source) := by
  obtain ⟨stray, text, replies, line, tokenLine⟩ := reader
  match stray, text with
  | byte :: stray, text => rfl
  | [], [] => rfl
  | [], c :: rest =>
    simp only [take, hearing]
    split
    · rfl
    split
    · rfl
    split
    · next quote =>
      subst quote
      exact absurd rfl (noString rfl)
    split
    · split
      · split <;> rfl
      · rfl
    split <;> rfl

theorem take_hearing (source : reader.source = asked ++ later)
    (kept : reader.take.2.source = left ++ later) (toCome : later ≠ []) (other : LineSource) :
    (reader.hearing (asked ++ other)).take = (reader.take.1, reader.take.2.hearing (left ++ other)) := by
  by_cases string : reader.stray = [] ∧ reader.text.head? = some '"'
  · obtain ⟨stray, text, replies, line, tokenLine⟩ := reader
    obtain ⟨rfl, first⟩ : stray = [] ∧ text.head? = some '"' := string
    obtain ⟨rest, rfl⟩ := List.head?_eq_some_iff.mp first
    obtain rfl : replies = asked ++ later := source
    have body : (Body.read .quote false [] rest (asked ++ later)).source = left ++ later := by
      rw [take_of_quote] at kept
      dsimp only at kept
      split at kept <;> exact kept
    simp only [hearing, take_of_quote, Body.read_hearing body toCome other]
    split <;> rfl
  · have plain := reader.take_of_text fun clean first => string ⟨clean, first⟩
    have same : reader.take.2.source = reader.source :=
      congrArg (fun result => result.2.source) (plain reader.source)
    rw [same, source, List.append_cancel_right_eq] at kept
    rw [plain, kept]

/-- A request does not depend on replies that it has not asked for. -/
theorem next_hearing (source : reader.source = asked ++ later)
    (kept : reader.next.2.source = left ++ later) (toCome : later ≠ []) (other : LineSource) :
    (reader.hearing (asked ++ other)).next = (reader.next.1, reader.next.2.hearing (left ++ other)) := by
  match found : reader.settle with
  | (some reason, stopped) =>
    have read : reader.next = (.error (.unreadable reason), stopped) := by
      rw [next, found]
    rw [read] at kept ⊢
    have settled : reader.settle.2.source = left ++ later := by
      rw [found]
      exact kept
    rw [next, settle_hearing source settled toCome other, found]
  | (none, stopped) =>
    have read : reader.next = stopped.take := by
      rw [next, found]
    rw [read] at kept ⊢
    obtain ⟨more, between⟩ := (take_advances stopped).source_suffix
    have settled : reader.settle.2.source = (more ++ left) ++ later := by
      rw [found, List.append_assoc, ← kept]
      exact between.symm
    rw [next, settle_hearing source settled toCome other, found]
    rw [found] at settled
    exact take_hearing settled kept toCome other

/-- A failure that is met between lexemes is told, and the next request goes on from there. Without it
the same request would have gone on at once. -/
theorem next_of_meetsFailure {reason : String} (met : reader.MeetsFailure reason left)
    (source : reader.source = asked ++ .failure reason :: left) :
    ∃ after, reader.next = (.error (.unreadable reason), after) ∧ after.source = left ∧
      (reader.hearing (asked ++ left)).next = after.next := by
  obtain ⟨line, tokenLine, idles⟩ := met
  refine ⟨⟨[], [], left, line, tokenLine⟩, ?_, rfl, ?_⟩
  · rw [idles.next, next, settle]
  · have kept : Reply.failure reason :: left = [] ++ .failure reason :: left := rfl
    exact (idles.hearing source kept (List.cons_ne_nil _ _) left).next

end Reader
end TokenTape
