import TokenTape.Proofs.Reading.CommentAsBlank
import TokenTape.Proofs.Scanner.Concatenation
/-!
Comments mean no more than a space. Up to a comment, scanning a text and scanning it with a space in the
comment's place give the same tokens on the same lines, and behind it the same tokens and the same failure,
if there is one, on lines that the newlines of the comment move (`Scanner.scan_blanked`). Without line marks
nothing of this is seen on a tape (`Scanner.comment_scanned_as_blank`).
-/
namespace TokenTape

/-- The same diagnosis whatever line it tells. -/
def Diagnosis.unplaced : Diagnosis → Diagnosis
  | .fault file _ cause => .fault file 0 cause
  | .outOfMemory file _ => .outOfMemory file 0
  | .corrupt offset damage => .corrupt offset damage
  | .unreadable reason => .unreadable reason

theorem Diagnosis.unplaced_down (lines : Nat) (diagnosis : Diagnosis) :
    (diagnosis.down lines).unplaced = diagnosis.unplaced := by
  cases diagnosis <;> rfl

/-- Without line marks, no line is told of on a tape. -/
theorem Located.encodeAll_unmarked (line : Nat) (tokens : List Located) :
    encodeAll false line tokens = (tokens.map (·.token)).flatMap (·.encode 0) := by
  induction tokens generalizing line with
  | nil => rfl
  | cons located tokens ih =>
    rw [encodeAll_cons, ih]
    rfl

namespace Scanner

/-- Packing without line marks, but for the line of a failure, in terms of the tokens alone. -/
theorem pack_unmarked (scanner : Scanner) (quota : Quota) :
    let tokens := scanner.scan.tokens.map (·.token)
    let bytes := tokens.flatMap (·.encode 0)
    let packing := scanner.pack false quota
    (packing.result.mapError Diagnosis.unplaced, packing.quota) =
      match scanner.scan.failure.map Diagnosis.unplaced with
      | none =>
        if 2 * bytes.length ≤ quota.free then
          (.ok ⟨bytes⟩, { quota with committed := quota.committed + bytes.length })
        else (.error (.outOfMemory scanner.file 0), quota)
      | some diagnosis =>
        if tokens = [] ∨ bytes.length < quota.free then (.error diagnosis, quota)
        else (.error (.outOfMemory scanner.file 0), quota) := by
  intro tokens bytes packing
  have ranOut (ran : scanner.RanOut false quota) :
      (packing.result.mapError Diagnosis.unplaced, packing.quota) =
        (.error (.outOfMemory scanner.file 0), quota) := by
    obtain ⟨⟨located, -, told⟩, kept⟩ := ran
    rw [told, kept]
    rfl
  cases failure : scanner.scan.failure with
  | none =>
    obtain ⟨written, full⟩ := pack_of_complete false quota scanner failure
    rw [Located.encodeAll_unmarked] at written full
    simp only [Option.map_none]
    by_cases fits : 2 * bytes.length ≤ quota.free
    · rw [if_pos fits]
      simp only [packing, written fits]
      rfl
    · rw [if_neg fits]
      exact ranOut (full (Nat.lt_of_not_le fits))
  | some diagnosis =>
    obtain ⟨failed, full⟩ := pack_of_failure false quota scanner failure
    rw [Located.encodeAll_unmarked] at failed full
    simp only [Option.map_some, tokens, List.map_eq_nil_iff]
    by_cases fits : scanner.scan.tokens = [] ∨ bytes.length < quota.free
    · obtain ⟨told, kept⟩ := failed fits
      rw [if_pos fits]
      simp only [packing, told, kept]
      rfl
    · rw [if_neg fits]
      exact ranOut (full fits)

/-- A comment that is met behind a row of pieces, and a space in its place. What stands before it is scanned
alike, and what stands behind it is scanned further down by the newlines of the comment. -/
theorem scan_blanked (scanner : Scanner) {before : List Piece} {comment behind : List Char}
    (met : Splits (Utf8.bytesOf (before.flatMap Piece.text ++ (comment ++ behind)))
      (before ++ [.comment comment]) (Utf8.bytesOf behind)) (line tokenLine : Nat) :
    ∃ (first : List Located) (later : Scan),
      (scanner.reading ⟨[], before.flatMap Piece.text ++ ' ' :: behind, [], line, tokenLine⟩).scan =
        ⟨first ++ later.tokens, later.failure, later.final⟩ ∧
      (scanner.reading
          ⟨[], before.flatMap Piece.text ++ (comment ++ behind), [], line, tokenLine⟩).scan =
        let lower := later.down (comment.count '\n')
        ⟨first ++ lower.tokens, lower.failure, lower.final⟩ := by
  induction before generalizing scanner line tokenLine with
  | nil =>
    let upper : Reader := ⟨[], behind, [], line, tokenLine⟩
    refine ⟨[], (scanner.reading upper).scan, ?blank, ?comment⟩
    case blank =>
      exact scan_congr (scanner.next_congr (Reader.next_of_blank rfl behind [] line tokenLine))
    case comment =>
      let lower : Reader := ⟨[], behind, [], line + comment.count '\n', line⟩
      have below : Reader.Below (comment.count '\n') upper lower := ⟨rfl, rfl, rfl, rfl⟩
      have moved : ((scanner.reading upper).reading lower).scan = _ := scan_below rfl below
      exact (scan_congr (scanner.next_congr (met.isComment.1.next line tokenLine))).trans moved
  | cons piece before ih =>
    obtain _ | ⟨leads, further⟩ := met
    obtain ⟨isComment, rfl⟩ := further.isComment
    simp only [List.flatMap_cons, List.append_assoc] at leads ⊢
    cases piece with
    | blank c =>
      obtain ⟨first, later, blanked, whole⟩ := ih scanner further (lineAfter line c) tokenLine
      have passed (text : List Char) :=
        scanner.next_congr (Reader.next_of_blank leads.isBlank text [] line tokenLine)
      exact ⟨first, later, (scan_congr (passed _)).trans blanked, (scan_congr (passed _)).trans whole⟩
    | comment written =>
      obtain ⟨first, later, blanked, whole⟩ := ih scanner further (line + written.count '\n') line
      have passed := scanner.next_congr (leads.isComment.next line tokenLine)
      have passedToo := scanner.next_congr ((leads.isComment.blanked isComment).next line tokenLine)
      exact ⟨first, later, (scan_congr passedToo).trans blanked, (scan_congr passed).trans whole⟩
    | lexeme lexeme written =>
      obtain ⟨here, consumes⟩ := leads.consumes
      obtain ⟨found, reached, notEnd, read, readToo⟩ :=
        Reader.next_blanked here consumes isComment line tokenLine
      let made := found.token scanner.reserved scanner.vocabulary
      obtain ⟨first, later, blanked, whole⟩ :=
        ih { scanner with vocabulary := made.2 } further reached line
      refine ⟨⟨made.1, line, reached⟩ :: first, later, ?_, ?_⟩
      · exact (scan_of_lexeme readToo notEnd).trans (congrArg (Scan.cons _) blanked)
      · exact (scan_of_lexeme read notEnd).trans (congrArg (Scan.cons _) whole)

/-- A comment means no more than a space. For every comment that is met behind a row of blanks, comments and
lexemes, scanning the text gives the same tokens with the same handles as scanning it with a space in place
of the comment, fails just when that fails and with the same diagnosis on a line that is further down by the
newlines of the comment, and leaves the same vocabulary and all else as it was, but for its lines. So
packing without line marks gives the same bytes for the same memory, or fails in both cases, with no other
difference than the line that is told. -/
theorem comment_scanned_as_blank (reserved : ReservedWords) (vocabulary : Vocabulary)
    (file source : String) {before : List Piece} {comment behind : List Char}
    (met : Splits (Utf8.bytesOf source.toList) (before ++ [.comment comment]) (Utf8.bytesOf behind)) :
    let front := before.flatMap Piece.text
    let scanner := start reserved vocabulary file source []
    let blanked := start reserved vocabulary file (String.ofList (front ++ ' ' :: behind)) []
    let lines := comment.count '\n'
    source.toList = front ++ (comment ++ behind) ∧
    scanner.scan.tokens.map (·.token) = blanked.scan.tokens.map (·.token) ∧
    scanner.scan.failure = blanked.scan.failure.map (.down lines) ∧
    scanner.scan.final = blanked.scan.final.down lines ∧
    ∀ quota : Quota,
      (scanner.pack false quota).result.mapError Diagnosis.unplaced =
        (blanked.pack false quota).result.mapError Diagnosis.unplaced ∧
      (scanner.pack false quota).quota = (blanked.pack false quota).quota := by
  intro front scanner blanked lines
  have text : source.toList = front ++ (comment ++ behind) := Utf8.bytesOf_inj met.isComment.2
  have reads : scanner = scanner.reading ⟨[], front ++ (comment ++ behind), [], 1, 1⟩ := by
    rw [← text]
    rfl
  have readsToo : blanked = scanner.reading ⟨[], front ++ ' ' :: behind, [], 1, 1⟩ := by
    simp [blanked, scanner, start, Reader.start, reading]
  rw [text] at met
  obtain ⟨first, later, scannedToo, scanned⟩ := scanner.scan_blanked met 1 1
  rw [← readsToo] at scannedToo
  rw [← reads] at scanned
  have tokens : scanner.scan.tokens.map (·.token) = blanked.scan.tokens.map (·.token) := by
    rw [scanned, scannedToo]
    simp [Scan.down, Located.down]
  have failure : scanner.scan.failure = blanked.scan.failure.map (.down lines) := by
    rw [scanned, scannedToo]
    rfl
  refine ⟨text, tokens, failure, ?_, ?_⟩
  · rw [scanned, scannedToo]
    rfl
  · intro quota
    have packed := scanner.pack_unmarked quota
    have unplaced : scanner.scan.failure.map Diagnosis.unplaced =
        blanked.scan.failure.map Diagnosis.unplaced := by
      rw [failure, Option.map_map]
      exact congrFun (congrArg Option.map (funext (Diagnosis.unplaced_down lines))) _
    rw [tokens, unplaced] at packed
    exact Prod.mk.inj (packed.trans (blanked.pack_unmarked quota).symm)

/-- A comment with a quote, a slash and a newline in it, between the mark of an exponent without digits and a
quote that fails. -/
theorem comment_scanned_as_blank_behind_exponent :
    let before : List Piece := [.lexeme (.numeral ⟨['1'], none, none⟩) ['1'], .lexeme (.word "e") ['e']]
    let comment := ['/', '*', '"', '/', '*', '\n', '*', '/']
    let scanner := start ⟨[]⟩ .empty "t.c" "1e/*\"/*\n*/ '" []
    let blanked := start ⟨[]⟩ .empty "t.c" "1e  '" []
    Splits (Utf8.bytesOf "1e/*\"/*\n*/ '".toList) (before ++ [.comment comment])
        (Utf8.bytesOf [' ', '\'']) ∧
      scanner.scan.tokens.map (·.token) = blanked.scan.tokens.map (·.token) ∧
      blanked.scan.failure = some (.fault "t.c" 1 (.unclosed 0)) ∧
      scanner.scan.failure = some (.fault "t.c" 2 (.unclosed 0)) ∧
      scanner.scan.final = blanked.scan.final.down 1 := by
  intro before comment scanner blanked
  have met : Splits (Utf8.bytesOf "1e/*\"/*\n*/ '".toList) (before ++ [.comment comment])
      (Utf8.bytesOf [' ', '\'']) := by
    have number : Reader.Stands ⟨[], ['1'] ++ 'e' :: (comment ++ [' ', '\'']), [], 1, 1⟩ :=
      Or.inr (Or.inr ⟨_, _, rfl, rfl, by decide⟩)
    have word : Reader.Stands ⟨[], ['e'] ++ (comment ++ [' ', '\'']), [], 1, 1⟩ :=
      Or.inr (Or.inr ⟨_, _, rfl, rfl, by decide⟩)
    have closed : Comment ('/' :: '*' :: (['"', '/', '*', '\n'] ++ ['*', '/'])) [' ', '\''] :=
      .block _ (by decide)
    exact .cons (Reader.leads_of_take number nofun rfl)
      (.cons (Reader.leads_of_take word nofun rfl) (.cons (.comment closed) (.nil _)))
  have failed : blanked.scan.failure = some (.fault "t.c" 1 (.unclosed 0)) := by decide +kernel
  obtain ⟨-, tokens, failure, final, -⟩ := comment_scanned_as_blank ⟨[]⟩ .empty "t.c" _ met
  exact ⟨met, tokens, failed, failure.trans (congrArg _ failed), final⟩

end Scanner
end TokenTape
