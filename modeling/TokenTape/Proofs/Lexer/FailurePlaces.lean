import TokenTape.Lexer
import TokenTape.Proofs.Reading.FailedReplies
import TokenTape.Proofs.Scanner.History
import TokenTape.Proofs.Scanner.Meaning
/-!
The place that a failure is told with. What stops a packing is a fault in the text, a want of memory, or
a failing reply (`Scanner.StoppedBy`). The first two are told with the file and the line that the scanner
has reached. The third is told by its reason alone, as it was given, so no reader learns where it was met
(`Lexer.analyse_failure_placed`).
-/
namespace TokenTape

/-- A message names a file and a line before it says what is wrong there. -/
def PlacedAt (file : String) (line : Nat) (message : String) : Prop :=
  ∃ description : String, message = s!"{file}:{line}: {description}"

/-- Such a message starts with the name of the file. -/
theorem PlacedAt.starts_with_file {file message : String} {line : Nat}
    (placed : PlacedAt file line message) : file.toList <+: message.toList := by
  obtain ⟨description, rfl⟩ := placed
  simp only [String.toList_append, List.append_assoc]
  exact List.prefix_append _ _

namespace Scanner

/-- What has stopped a scanner, when these replies were still to come at the start. -/
inductive StoppedBy (stopped : Scanner) (source : LineSource) : Diagnosis → Prop
  | fault (cause : Fault) : StoppedBy stopped source (.fault stopped.file stopped.line cause)
  | outOfMemory : StoppedBy stopped source (.outOfMemory stopped.file stopped.line)
  /-- The last reply that was asked for is the failure. -/
  | unreadable {asked : LineSource} {reason : String}
      (told : source = asked ++ .failure reason :: stopped.reader.source) :
      StoppedBy stopped source (.unreadable reason)

namespace StoppedBy

variable {stopped : Scanner} {source : LineSource} {diagnosis : Diagnosis}

/-- What has been asked for before does not change what has stopped the scanner. -/
theorem of_suffix {earlier : LineSource} (stoppedBy : stopped.StoppedBy source diagnosis)
    (suffix : source <:+ earlier) : stopped.StoppedBy earlier diagnosis := by
  cases stoppedBy with
  | fault cause => exact .fault cause
  | outOfMemory => exact .outOfMemory
  | @unreadable asked reason told =>
    obtain ⟨before, rfl⟩ := suffix
    have whole : before ++ source = (before ++ asked) ++ .failure reason :: stopped.reader.source := by
      rw [told, List.append_assoc]
    exact .unreadable whole

/-- The place is told, unless a failing reply has stopped the scanner whose reason does not happen to
tell it. -/
theorem placedAt_iff (stoppedBy : stopped.StoppedBy source diagnosis) :
    PlacedAt stopped.file stopped.line diagnosis.message ↔
      ∀ reason, diagnosis = .unreadable reason → PlacedAt stopped.file stopped.line reason := by
  cases stoppedBy with
  | fault cause => exact iff_of_true ⟨cause.message, rfl⟩ (fun _ other => nomatch other)
  | outOfMemory =>
    -- The colon behind the line belongs to the fixed words of this message.
    have placed : PlacedAt stopped.file stopped.line
        (Diagnosis.outOfMemory stopped.file stopped.line).message := by
      have words : ": out of memory while lexing" = ": " ++ "out of memory while lexing" := by
        decide +kernel
      refine ⟨"out of memory while lexing", ?_⟩
      exact (congrArg (s!"{stopped.file}:{stopped.line}" ++ ·) words).trans (String.append_assoc ..).symm
    exact iff_of_true placed (fun _ other => nomatch other)
  | unreadable told =>
    constructor
    · rintro placed _ ⟨⟩
      exact placed
    · intro placed
      exact placed _ rfl

/-- Without failing replies the place is told. -/
theorem placedAt_of_readable (stoppedBy : stopped.StoppedBy source diagnosis)
    (readable : ∀ reason, .failure reason ∉ source) :
    PlacedAt stopped.file stopped.line diagnosis.message := by
  refine stoppedBy.placedAt_iff.mpr fun reason unread => ?_
  subst unread
  cases stoppedBy with
  | unreadable told =>
    rw [told] at readable
    exact absurd (List.mem_append_right _ List.mem_cons_self) (readable reason)

end StoppedBy

variable {scanner after stopped : Scanner} {diagnosis : Diagnosis}

/-- A request that fails tells what has stopped it. -/
theorem next_stopped (failed : scanner.next = (.error diagnosis, after)) :
    after.StoppedBy scanner.reader.source diagnosis := by
  obtain ⟨obstacle, reader, read, rfl, rfl⟩ := next_error failed
  cases obstacle with
  | fault cause => exact StoppedBy.fault cause
  | unreadable reason =>
    obtain ⟨asked, told⟩ := Reader.next_unreadable_source read
    exact .unreadable told

/-- Writing stops where the scanner fails or behind a token that there is no room for. -/
theorem writeFrom_stopped {marks : Bool} {line : Nat} {scratch : Scratch}
    (failed : scanner.writeFrom marks line scratch = (.error diagnosis, stopped)) :
    stopped.StoppedBy scanner.reader.source diagnosis := by
  induction scanner using scan_induction generalizing line scratch with
  | failed scanner other after taken =>
    rw [writeFrom_of_failed marks line scratch taken] at failed
    cases failed
    exact next_stopped taken
  | ended scanner token after taken ended =>
    rw [writeFrom_of_token marks line scratch taken] at failed
    generalize token.encode (if marks then after.tokenLine - line else 0) = bytes at failed
    by_cases fits : bytes.length < scratch.room
    · simp only [if_pos fits, if_pos ended] at failed
      cases failed
    · simp only [if_neg fits] at failed
      cases failed
      exact .outOfMemory
  | going scanner token after taken going ih =>
    rw [writeFrom_of_token marks line scratch taken] at failed
    generalize token.encode (if marks then after.tokenLine - line else 0) = bytes at failed
    by_cases fits : bytes.length < scratch.room
    · simp only [if_pos fits, going, Bool.false_eq_true, if_false] at failed
      have suffix := scanner.next_source_suffix
      rw [taken] at suffix
      exact (ih failed).of_suffix suffix
    · simp only [if_neg fits] at failed
      cases failed
      exact .outOfMemory

/-- What stops a packing: the same, or a tape that does not fit beside the scratch memory. -/
theorem pack_stopped {marks : Bool} {quota : Quota}
    (failed : (scanner.pack marks quota).result = .error diagnosis) :
    (scanner.pack marks quota).scanner.StoppedBy scanner.reader.source diagnosis := by
  unfold pack at failed ⊢
  match wrote : scanner.writeFrom marks scanner.line (.empty quota.free) with
  | (.error other, after) =>
    rw [wrote] at failed
    cases failed
    exact writeFrom_stopped wrote
  | (.ok scratch, after) =>
    rw [wrote] at failed
    dsimp only at failed ⊢
    split at failed
    · next exceeds =>
      cases failed
      rw [if_pos exceeds]
      exact .outOfMemory
    · next twice =>
      rw [if_neg twice]
      match committed : quota.commit? scratch.bytes.size with
      | none =>
        rw [committed] at failed
        cases failed
        exact .outOfMemory
      | some quota =>
        rw [committed] at failed
        cases failed

theorem pack_file (scanner : Scanner) (marks : Bool) (quota : Quota) :
    (scanner.pack marks quota).scanner.file = scanner.file := by
  refine pack_kept (motive := fun later => later.file = scanner.file) ?_ rfl marks quota
  intro later named
  exact (next_file_eq later).trans named

end Scanner

namespace Lexer

variable {lexer : Lexer} {vocabulary : Vocabulary} {file text : String} {source : LineSource}
  {diagnosis : Diagnosis}

/-- Whatever stops the packing of a text and the replies behind it, its message names the file and the
line that the scanner has reached, with one exception: the last reply asked for is a failure, and its
reason, which is told as it was given, does not name them. So it is named whenever no reply fails. -/
theorem analyse_failure_placed
    (failed : (lexer.analyse vocabulary file text source).result = .error diagnosis) :
    let packing := (lexer.scanner vocabulary file text source).pack lexer.settings.lineMarks lexer.quota
    let stopped := packing.scanner
    stopped.StoppedBy source diagnosis ∧ stopped.file = file ∧
      (PlacedAt file stopped.line diagnosis.message ↔
        ∀ reason, diagnosis = .unreadable reason → PlacedAt file stopped.line reason) ∧
      ((∀ reason, .failure reason ∉ source) → PlacedAt file stopped.line diagnosis.message) := by
  intro packing stopped
  have stoppedBy : stopped.StoppedBy source diagnosis := Scanner.pack_stopped failed
  have name : stopped.file = file := Scanner.pack_file _ _ _
  have placed := stoppedBy.placedAt_iff
  have readable := stoppedBy.placedAt_of_readable
  rw [name] at placed readable
  exact ⟨stoppedBy, name, placed, readable⟩

/-- A character that starts no token is refused on the line that has been asked for. -/
theorem analyse_failure_placed_on_second_line :
    let setup := Lexer.ofVocabulary .empty .standard
    let failure : Diagnosis := .fault "t.c" 2 (.illegal '$')
    let source : LineSource := [.line "$"]
    let stopped := ((setup.1.scanner setup.2 "t.c" "+\n" source).pack false setup.1.quota).scanner
    (setup.1.analyse setup.2 "t.c" "+\n" source).result = .error failure ∧
      failure.message = "t.c:2: illegal character '$'" ∧
      PlacedAt "t.c" stopped.line failure.message := by
  intro setup failure source stopped
  let scanner := setup.1.scanner setup.2 "t.c" "+\n" source
  have refused : scanner.scan.failure = some failure := by decide +kernel
  have written : (Located.encodeAll false scanner.line scanner.scan.tokens).length <
      setup.1.quota.free := by
    decide +kernel
  have failed : (setup.1.analyse setup.2 "t.c" "+\n" source).result = .error failure :=
    ((Scanner.pack_of_failure false setup.1.quota scanner refused).1 (Or.inr written)).1
  refine ⟨failed, by decide +kernel, (analyse_failure_placed failed).2.2.2 ?_⟩
  intro reason
  simp [source]

/-- A line that is not UTF-8 stops the packing, and the message names no place. -/
theorem analyse_unreadable_line_unplaced :
    let setup := Lexer.ofVocabulary .empty .standard
    let failure : Diagnosis := .unreadable Utf8.complaint
    (setup.1.analyse setup.2 "t.c" "+\n" (.ofBytes [255, 10])).result = .error failure ∧
      failure.message = "stream did not contain valid UTF-8" ∧
      ∀ line, ¬ PlacedAt "t.c" line failure.message := by
  intro setup failure
  have replies : LineSource.ofBytes [255, 10] = [.failure Utf8.complaint] := by decide +kernel
  let scanner := setup.1.scanner setup.2 "t.c" "+\n" [.failure Utf8.complaint]
  have refused : scanner.scan.failure = some failure := by decide +kernel
  have written : (Located.encodeAll false scanner.line scanner.scan.tokens).length <
      setup.1.quota.free := by
    decide +kernel
  rw [replies]
  refine ⟨((Scanner.pack_of_failure false setup.1.quota scanner refused).1 (Or.inr written)).1, rfl, ?_⟩
  intro line placed
  have other : ¬ "t.c".toList <+: Utf8.complaint.toList := by decide +kernel
  exact other placed.starts_with_file

end Lexer
end TokenTape
