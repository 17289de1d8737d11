import TokenTape.Program
import TokenTape.Proofs.Listing.Tokens
import TokenTape.Proofs.Session.Reproducible
/-!
What the program prints of a source. A run packs the source, reads the tape back and prints one
line after the other. A tape that was just packed meets no damage, so either all tokens are printed
or nothing but the complaint (`Program.lexAndShow_of_packed`). As JSON each token has one printed
line (`Program.run_json`). As captions this is so just when no string has a newline in it
(`Program.run_captions`).
-/
namespace TokenTape

/-! ## A tape that was just packed -/

namespace Program

/-- What comes of a source that a lexer packs which has been made for it. -/
def analysis (settings : Settings) (file text : String) (source : LineSource) : Analysis :=
  let built := Lexer.ofVocabulary .empty settings
  built.1.analyse built.2 file text source

/-- The scan of that source, token by token. -/
def scan (settings : Settings) (file text : String) (source : LineSource) : Scan :=
  let built := Lexer.ofVocabulary .empty settings
  (built.1.scanner built.2 file text source).scan

variable {settings : Settings} {file text : String} {source : LineSource}

theorem lexAndShow_eq (view : Vocabulary → Tape → Finish) :
    lexAndShow settings file text source view =
      match (analysis settings file text source).result with
      | .ok tape => view (analysis settings file text source).vocabulary tape
      | .error diagnosis => .done 65 "" (diagnosis.message ++ "\n") := rfl

/-- A tape that was just packed is read back as the scan: all its tokens, each on its own line if
there are line marks, and else on the first line. -/
theorem cursor_of_packed {tape : Tape}
    (packed : (analysis settings file text source).result = .ok tape) :
    tape.cursor.run.1.map (·.outcome) =
        (scan settings file text source).tokens.map (.ok ·.token) ∧
      tape.cursor.run.1.map (·.line) = (scan settings file text source).tokens.map fun located =>
        if settings.lineMarks then located.line else 1 := by
  have set := (Lexer.settings_ofVocabulary .empty settings).1
  unfold analysis at packed
  unfold scan
  generalize Lexer.ofVocabulary .empty settings = built at set packed
  obtain ⟨lexer, vocabulary⟩ := built
  have reported : tape.cursor.run.1 = Cursor.replay lexer.settings.lineMarks 0 1 1
      (lexer.scanner vocabulary file text source).scan.tokens :=
    (Scanner.run_of_packed packed).1
  rw [reported]
  refine ⟨Cursor.replay_outcomes _, ?_⟩
  rw [← set]
  cases lexer.settings.lineMarks with
  | true =>
    exact Cursor.replay_lines_marked _ (lexer.scanner vocabulary file text source).scan_descending
  | false => exact Cursor.replay_lines_unmarked _

/-- All tokens of a scan that was packed are listed. -/
theorem lexAndShow_of_packed {tape : Tape}
    (packed : (analysis settings file text source).result = .ok tape) (json : Bool) :
    lexAndShow settings file text source (list · json) =
      .done 0 (Listing.unlines ((scan settings file text source).tokens.map fun located =>
        Listing.tokenLine (analysis settings file text source).vocabulary json
          (if settings.lineMarks then located.line else 1) located.token)) "" := by
  obtain ⟨outcomes, lines⟩ := cursor_of_packed packed
  rw [lexAndShow_eq, packed]
  dsimp only
  rw [list, Listing.linesOf_of_tokens _ json _ outcomes lines]

/-- A listing by captions does not tell lines. -/
theorem lexAndShow_captions {tape : Tape}
    (packed : (analysis settings file text source).result = .ok tape) :
    lexAndShow settings file text source (list · false) =
      .done 0 (Listing.unlines (((scan settings file text source).tokens.map (·.token)).map
        (Token.caption (analysis settings file text source).vocabulary))) "" := by
  rw [lexAndShow_of_packed packed, List.map_map]
  rfl

/-- Behind a tape, the scan has come to its end, and the vocabulary is what the scan has left. -/
theorem scan_of_packed {tape : Tape}
    (packed : (analysis settings file text source).result = .ok tape) :
    (scan settings file text source).failure = none ∧
      (analysis settings file text source).vocabulary =
        (scan settings file text source).final.vocabulary :=
  ⟨(Scanner.pack_eq_ok_iff.mp packed).1,
    congrArg Scanner.vocabulary (Scanner.pack_scanner_of_packed packed)⟩

/-- A source without an obstacle is packed if there is room for ten bytes of each token, twice. -/
theorem exists_packed (unmarked : settings.lineMarks = false)
    (complete : .endOfInput ∈ (Reader.start text source).lexemes)
    (room : 20 * (Reader.start text source).lexemes.length ≤ settings.capacity) :
    ∃ tape, (analysis settings file text source).result = .ok tape := by
  obtain ⟨set, free⟩ := Lexer.settings_ofVocabulary .empty settings
  exact Lexer.exists_analysed (by rw [set, unmarked]) _ file complete (by rw [free]; exact room)

/-- Besides the keywords there are no more handles than bytes and replies. -/
theorem size_analysis_le (settings : Settings) (file text : String) (source : LineSource) :
    (analysis settings file text source).vocabulary.size ≤
      Keyword.all.length + (Reader.start text source).remaining := by
  have built := Lexer.size_ofVocabulary_le .empty settings
  have used : (analysis settings file text source).vocabulary.size ≤
      (Lexer.ofVocabulary .empty settings).2.size + (Reader.start text source).remaining :=
    Scanner.size_pack_le _ _ _
  have empty : Vocabulary.empty.size = 0 := rfl
  omega

/-- All that the tokens carry can be shown. -/
theorem scan_shows {tape : Tape}
    (packed : (analysis settings file text source).result = .ok tape) :
    ∀ located ∈ (scan settings file text source).tokens, ∃ json,
      Listing.Shows (analysis settings file text source).vocabulary located.token.value json := by
  rw [(scan_of_packed packed).2]
  have fits := ReservedWords.Fits.of_built Vocabulary.empty_consistent settings
  let built := Lexer.ofVocabulary .empty settings
  have consistent : (built.1.scanner built.2 file text source).vocabulary.Consistent := fits.consistent
  exact Scanner.scan_shows consistent

/-- The tokens tell the lexemes of the source, as long as handles have not run out. -/
theorem scan_told {tape : Tape}
    (packed : (analysis settings file text source).result = .ok tape)
    (roomy : (analysis settings file text source).vocabulary.size ≤ 2 ^ 32) :
    List.Forall₂ (Lexeme.ToldBy (analysis settings file text source).vocabulary)
      (Reader.start text source).lexemes
      ((scan settings file text source).tokens.map (·.token)) := by
  rw [(scan_of_packed packed).2] at roomy ⊢
  let built := Lexer.ofVocabulary .empty settings
  let scanner := built.1.scanner built.2 file text source
  have fits : scanner.reserved.Fits scanner.vocabulary :=
    ReservedWords.Fits.of_built Vocabulary.empty_consistent settings
  exact Scanner.scan_told fits roomy

/-- A source that is one literal has two tokens. -/
theorem scan_of_literal {content : List Char} (literal : text.toList = '"' :: (content ++ ['"']))
    (even : Even (trailingBackslashes content)) (first : QuotesProtected content) {tape : Tape}
    (packed : (analysis settings file text []).result = .ok tape)
    (roomy : (analysis settings file text []).vocabulary.size ≤ 2 ^ 32) :
    ∃ handle, (analysis settings file text []).vocabulary.text? handle = some (String.ofList content) ∧
      (scan settings file text []).tokens.map (·.token) =
        [.valued .string (.word handle), .endOfInput] := by
  have told := scan_told packed roomy
  rw [Reader.lexemes_of_literal literal even first] at told
  generalize (scan settings file text []).tokens.map (·.token) = tokens at told ⊢
  cases told with
  | cons string told =>
    cases told with
    | cons last told =>
      cases told
      cases last
      cases string with
      | string named => exact ⟨_, named, rfl⟩

/-- It is packed under the standard settings, and handles do not run out unless it is very long. -/
theorem packed_of_literal {content : List Char} (literal : text.toList = '"' :: (content ++ ['"']))
    (even : Even (trailingBackslashes content)) (first : QuotesProtected content) (file : String)
    (short : Keyword.all.length + (Reader.start text []).remaining ≤ 2 ^ 32) :
    ∃ tape, (analysis .standard file text []).result = .ok tape ∧
      (analysis .standard file text []).vocabulary.size ≤ 2 ^ 32 := by
  have lexemes := Reader.lexemes_of_literal literal even first
  have complete : .endOfInput ∈ (Reader.start text []).lexemes := by simp [lexemes]
  have room : 20 * (Reader.start text []).lexemes.length ≤ 1048576 := by simp [lexemes]
  obtain ⟨tape, packed⟩ : ∃ tape, (analysis .standard file text []).result = .ok tape :=
    exists_packed rfl complete room
  exact ⟨tape, packed, Nat.le_trans (size_analysis_le _ _ _ _) short⟩

/-- The text of a file that holds the bytes of a text. -/
theorem readText_of_encode {read : String → Except ReadFailure (List UInt8)}
    (holds : read file = .ok (Utf8.encode text)) : readText read file = .ok text := by
  have decoded : Utf8.decode? (Utf8.encode text) = some text := by
    rw [← String.ofList_toList (s := text), Utf8.encode_ofList]
    exact Utf8.decode?_encode text.toList
  simp only [readText, holds, decoded]

end Program

/-! ## Runs of the program -/

/-- A command lists the tokens of a source: of a file that can be read as this text, or of standard
input. -/
inductive Command.Lists (read : String → Except ReadFailure (List UInt8)) (input : LineSource)
    (json : Bool) : Command → String → String → LineSource → Prop
  | file {file text : String} (readable : Program.readText read file = .ok text) :
      Lists read input json (.tokenize file json) file text []
  | standardInput : Lists read input json (.repl json) Program.standardInput "" input

namespace Program

variable {read : String → Except ReadFailure (List UInt8)} {arguments : List String}
  {input : LineSource} {invocation : Invocation} {json : Bool} {file text : String}
  {source : LineSource}

theorem run_of_lists (parsed : CommandLine.parse? arguments = some invocation)
    (lists : invocation.command.Lists read input json file text source) :
    run read arguments input =
      lexAndShow invocation.settings file text source (list · json) := by
  obtain ⟨command, settings, log⟩ := invocation
  rw [run, parsed]
  cases lists with
  | file readable => simp only [carryOut, lexFile, readable]
  | standardInput => rfl

/-- A listing as JSON has one printed line for each token of the scan, in order: an object with the
name of the kind, what the token carries, and the line on which the token starts, which is told as 1
if there are no line marks. Null is printed for a token that carries nothing, and besides only for a
float that is not finite. Words are spelled out, and as long as handles have not run out they are the
words of the source. Where the source cannot be packed, the reason is told and nothing is listed. -/
theorem run_json (parsed : CommandLine.parse? arguments = some invocation)
    (lists : invocation.command.Lists read input true file text source) :
    let outcome := analysis invocation.settings file text source
    let tokens := (scan invocation.settings file text source).tokens
    match outcome.result with
    | .error diagnosis => run read arguments input = .done 65 "" (diagnosis.message ++ "\n")
    | .ok _ =>
      (scan invocation.settings file text source).failure = none ∧
      (∃ lines, run read arguments input = .done 0 (Listing.unlines lines) "" ∧
        Listing.printedLines (Listing.unlines lines) = lines.map (· ++ "\n") ∧
        List.Forall₂ (fun located line => ∃ value,
            Listing.Shows outcome.vocabulary located.token.value value ∧
            (value.render = "null" ↔ located.token.value = none ∨
              ∃ x, located.token.value = some (.float x) ∧ ¬ x.IsFinite) ∧
            line = (Json.object
              [("line", .integer (if invocation.settings.lineMarks then located.line else 1 : Nat)),
                ("type", .string located.token.kind.name), ("value", value)]).render)
          tokens lines) ∧
      (outcome.vocabulary.size ≤ 2 ^ 32 →
        List.Forall₂ (Lexeme.ToldBy outcome.vocabulary) (Reader.start text source).lexemes
          (tokens.map (·.token))) := by
  intro outcome tokens
  rw [run_of_lists parsed lists]
  split
  · next diagnosis failed => rw [lexAndShow_eq, failed]
  · next tape packed =>
    refine ⟨(scan_of_packed packed).1, ⟨_, lexAndShow_of_packed packed true, ?_, ?_⟩,
      scan_told packed⟩
    · refine Listing.printedLines_unlines_iff.mpr ?_
      intro line member
      obtain ⟨located, -, rfl⟩ := List.mem_map.mp member
      exact Json.render_unbroken _
    · refine List.forall₂_map_right_iff.mpr (List.forall₂_same.mpr ?_)
      intro located member
      obtain ⟨value, shows⟩ := scan_shows packed located member
      refine ⟨value, shows, shows.render_eq_null_iff, ?_⟩
      rw [Listing.tokenLine, if_pos rfl]
      exact Json.render_object_congr shows.render_valueJson

/-- With line marks each object has the line on which its token starts. -/
theorem run_json_of_marked_file :
    let read : String → Except ReadFailure (List UInt8) := fun _ => .ok (Utf8.encode "'A'\n7")
    let objects := [(1, "CHARACTER_CONSTANT", Json.integer 65), (2, "INTEGER_CONSTANT", .integer 7),
      (2, "EOF", .null)]
    let lines := objects.map fun (line, name, value) =>
      (Json.object [("line", .integer line), ("type", .string name), ("value", value)]).render
    run read ["tokenize", "--json", "--line-markers", "t.c"] [] =
        .done 0 (Listing.unlines lines) "" ∧
      Listing.printedLines (Listing.unlines lines) = lines.map (· ++ "\n") := by
  intro read objects lines
  have parsed : CommandLine.parse? ["tokenize", "--json", "--line-markers", "t.c"] =
      some ⟨.tokenize "t.c" true, ⟨1048576, true⟩, false⟩ := by decide +kernel
  have readable : readText read "t.c" = .ok "'A'\n7" := readText_of_encode rfl
  have tokens : (scan ⟨1048576, true⟩ "t.c" "'A'\n7" []).tokens =
      [⟨.valued .character (.integer 65), 1, 1⟩, ⟨.valued .integer (.integer 7), 2, 2⟩,
        ⟨.endOfInput, 2, 2⟩] := by
    decide +kernel
  have packed : (analysis ⟨1048576, true⟩ "t.c" "'A'\n7" []).result = .ok
      ⟨[39, 1, 65, 0, 0, 0, 0, 0, 0, 0, 65, 36, 1, 7, 0, 0, 0, 0, 0, 0, 0, 66]⟩ :=
    Scanner.pack_eq_ok_iff.mpr (by decide +kernel)
  have lists : (Command.tokenize "t.c" true).Lists read [] true "t.c" "'A'\n7" [] := .file readable
  have listing := run_json parsed lists
  dsimp only at listing
  rw [packed, tokens] at listing
  obtain ⟨-, ⟨given, ran, printed, shown⟩, -⟩ := listing
  obtain _ | ⟨⟨_, character, -, rfl⟩, _ | ⟨⟨_, integer, -, rfl⟩, _ | ⟨⟨_, ended, -, rfl⟩, _ | _⟩⟩⟩ :=
    shown
  cases character
  cases integer
  cases ended
  exact ⟨ran, printed⟩

/-- A numeral beyond all floats is infinite, and its object has null for it, as the object of the end of
input has for nothing. -/
theorem run_json_of_infinite_float :
    let read : String → Except ReadFailure (List UInt8) := fun _ => .ok (Utf8.encode "1e400")
    let infinity : Binary64 := ⟨0x7ff0000000000000⟩
    (scan .standard "t.c" "1e400" []).tokens =
        [⟨.valued .float (.float infinity), 1, 1⟩, ⟨.endOfInput, 1, 1⟩] ∧
      run read ["tokenize", "--json", "t.c"] [] = .done 0
        ("\x7b\"line\":1,\"type\":\"FP_CONSTANT\",\"value\":null\x7d\n" ++
          "\x7b\"line\":1,\"type\":\"EOF\",\"value\":null\x7d\n") "" := by
  intro read infinity
  have parsed : CommandLine.parse? ["tokenize", "--json", "t.c"] =
      some ⟨.tokenize "t.c" true, .standard, false⟩ := by decide +kernel
  have readable : readText read "t.c" = .ok "1e400" := readText_of_encode rfl
  have tokens : (scan .standard "t.c" "1e400" []).tokens =
      [⟨.valued .float (.float infinity), 1, 1⟩, ⟨.endOfInput, 1, 1⟩] := by
    decide +kernel
  have packed : (analysis .standard "t.c" "1e400" []).result = .ok
      ⟨[37, 2, 0, 0, 0, 0, 0, 0, 0xf0, 0x7f, 66]⟩ :=
    Scanner.pack_eq_ok_iff.mpr (by decide +kernel)
  refine ⟨tokens, ?_⟩
  rw [run_of_lists parsed (.file readable), lexAndShow_of_packed packed true, tokens]
  simp only [List.map_cons, List.map_nil, Listing.tokenLine, Listing.tokenJson, Json.render,
    Json.renderMembers, Json.quoted, String.foldl_eq_foldl_toList]
  decide +kernel

/-- A listing by captions has the caption of each token of the scan, in order, each starting with the
name of the kind. These are the printed lines just when no string of the source has a newline in it:
a caption shows a string as it is written. -/
theorem run_captions (parsed : CommandLine.parse? arguments = some invocation)
    (lists : invocation.command.Lists read input false file text source) {tape : Tape}
    (packed : (analysis invocation.settings file text source).result = .ok tape)
    (roomy : (analysis invocation.settings file text source).vocabulary.size ≤ 2 ^ 32) :
    let vocabulary := (analysis invocation.settings file text source).vocabulary
    ∃ captions, run read arguments input = .done 0 (Listing.unlines captions) "" ∧
      List.Forall₂ (fun located caption => caption = located.token.caption vocabulary ∧
          located.token.kind.name.toList <+: caption.toList)
        (scan invocation.settings file text source).tokens captions ∧
      (Listing.printedLines (Listing.unlines captions) = captions.map (· ++ "\n") ↔
        ∀ content, .string content ∈ (Reader.start text source).lexemes → Unbroken content) := by
  intro vocabulary
  rw [run_of_lists parsed lists]
  refine ⟨_, lexAndShow_captions packed, ?_, ?_⟩
  · rw [List.map_map]
    refine List.forall₂_map_right_iff.mpr (List.forall₂_same.mpr ?_)
    intro located _
    refine ⟨rfl, ?_⟩
    change _ <+: (located.token.caption vocabulary).toList
    rw [Token.caption_eq, String.toList_append]
    exact List.prefix_append _ _
  · have start := Reader.start_sound text source
    rw [Listing.printedLines_unlines_iff, List.forall_mem_map,
      captions_unbroken_iff (scan_told packed roomy) fun _ => Reader.words_unbroken start]

/-- A string without a newline is printed on one line. -/
theorem run_captions_of_plain_string :
    let read : String → Except ReadFailure (List UInt8) := fun _ => .ok (Utf8.encode "\"ab\"")
    ∃ captions, run read ["tokenize", "t.c"] [] = .done 0 (Listing.unlines captions) "" ∧
      captions.length = 2 ∧
      Listing.printedLines (Listing.unlines captions) = captions.map (· ++ "\n") := by
  intro read
  have literal : "\"ab\"".toList = '"' :: (['a', 'b'] ++ ['"']) := rfl
  have even : Even (trailingBackslashes ['a', 'b']) := by decide
  have first : QuotesProtected ['a', 'b'] := by decide
  have parsed : CommandLine.parse? ["tokenize", "t.c"] =
      some ⟨.tokenize "t.c" false, .standard, false⟩ := by decide +kernel
  have readable : readText read "t.c" = .ok "\"ab\"" := readText_of_encode rfl
  obtain ⟨tape, packed, roomy⟩ :=
    packed_of_literal literal even first "t.c" (by decide +kernel)
  obtain ⟨captions, ran, shown, printed⟩ := run_captions parsed (.file readable) packed roomy
  obtain ⟨handle, -, tokens⟩ := scan_of_literal literal even first packed roomy
  refine ⟨captions, ran, ?_, printed.mpr ?_⟩
  · rw [← shown.length_eq, ← List.length_map (f := (·.token)), tokens]
    rfl
  · rw [Reader.lexemes_of_literal literal even first]
    intro content member
    simp only [List.mem_cons, Lexeme.string.injEq, reduceCtorEq, List.not_mem_nil, or_false] at member
    rw [member]
    decide

/-- A string that goes over a newline is two tokens with the end of input, and three printed lines. -/
theorem run_newline_string :
    let read : String → Except ReadFailure (List UInt8) := fun _ => .ok (Utf8.encode "\"a\nb\"")
    let output := "STRING_CONSTANT \"a\nb\"\nEOF\n"
    run read ["tokenize", "t.c"] [] = .done 0 output "" ∧
      (scan .standard "t.c" "\"a\nb\"" []).tokens.length = 2 ∧
      (Listing.printedLines output).length = 3 := by
  intro read output
  have literal : "\"a\nb\"".toList = '"' :: (['a', '\n', 'b'] ++ ['"']) := rfl
  have even : Even (trailingBackslashes ['a', '\n', 'b']) := by decide
  have first : QuotesProtected ['a', '\n', 'b'] := by decide
  have parsed : CommandLine.parse? ["tokenize", "t.c"] =
      some ⟨.tokenize "t.c" false, .standard, false⟩ := by decide +kernel
  have readable : readText read "t.c" = .ok "\"a\nb\"" := readText_of_encode rfl
  obtain ⟨tape, packed, roomy⟩ :=
    packed_of_literal literal even first "t.c" (by decide +kernel)
  obtain ⟨handle, named, tokens⟩ := scan_of_literal literal even first packed roomy
  refine ⟨?_, ?_, by decide⟩
  · rw [run_of_lists parsed (.file readable), lexAndShow_captions packed, tokens, List.map_cons,
      Token.caption_string named]
    rfl
  · rw [← List.length_map (f := (·.token)), tokens]
    rfl

end Program
end TokenTape
