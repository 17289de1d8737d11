import TokenTape.Proofs.Scanner.WellFormed
/-!
What a scan adds to a vocabulary. Texts enter in the middle of a scan, and the order in which they do so
decides all handles on a tape. A request that gives an identifier or a string lets its text enter, and no
other request lets any text enter (`Scanner.ask_vocabulary`). So behind the texts that were there a run
adds those of its identifiers and strings, each once, where it comes first (`Scanner.texts_added`).
-/
namespace TokenTape

/-- The text that a token carries: the spelling of an identifier, or what stands between the quotes of a
string. -/
def Token.text? (vocabulary : Vocabulary) (token : Token) : Option String :=
  match token.kind, token.value with
  | .atom .identifier, some (.word handle) => vocabulary.text? handle
  | .atom .string, some (.word handle) => vocabulary.text? handle
  | _, _ => none

/-- The text of the token that was given, if one was given that has a text. -/
def textGiven? (vocabulary : Vocabulary) : Option Outcome → Option String
  | some (.ok token) => token.text? vocabulary
  | _ => none

/-- The texts of the identifiers and strings among outcomes, one after the other. -/
def textsGiven (vocabulary : Vocabulary) (outcomes : List (Option Outcome)) : List String :=
  outcomes.filterMap (textGiven? vocabulary)

theorem textsGiven_cons (vocabulary : Vocabulary) (outcome : Option Outcome)
    (outcomes : List (Option Outcome)) :
    textsGiven vocabulary (outcome :: outcomes) =
      (textGiven? vocabulary outcome).toList ++ textsGiven vocabulary outcomes := by
  rw [textsGiven, List.filterMap_cons]
  cases textGiven? vocabulary outcome <;> rfl

theorem Atom.MadeOf.text?_valued {atom : Atom} {text : String} {place after : Reader}
    (made : atom.MadeOf text place after) (vocabulary : Vocabulary) (handle : Word) :
    (Token.valued atom (.word handle)).text? vocabulary = vocabulary.text? handle := by
  cases made <;> rfl

/-- A token carries a handle, or it is no identifier and no string and has no text. -/
theorem Token.Shaped.text?_cases {token : Token} (shaped : token.Shaped) :
    (∃ atom handle, token = .valued atom (.word handle)) ∨
      token.kind ≠ .atom .identifier ∧ token.kind ≠ .atom .string ∧
        ∀ vocabulary, token.text? vocabulary = none := by
  obtain ⟨kind, value⟩ := token
  cases kind with
  | atom atom =>
    cases atom with
    | identifier | string =>
      obtain ⟨handle, carried⟩ := shaped
      cases carried
      exact Or.inl ⟨_, handle, rfl⟩
    | integer | float | character => exact Or.inr ⟨nofun, nofun, fun _ => rfl⟩
  | symbol | keyword | endOfLine | endOfInput => exact Or.inr ⟨nofun, nofun, fun _ => rfl⟩

/-- A lexeme lets the text of its token enter, and nothing else. The spelling of a keyword has entered
before. -/
theorem Lexeme.token_vocabulary {reserved : ReservedWords} {vocabulary later after : Vocabulary}
    (fits : reserved.Fits vocabulary) {lexeme : Lexeme} {token : Token}
    (made : lexeme.token reserved vocabulary = (token, after)) (told : lexeme.ToldBy later token) :
    after = vocabulary.internAll (token.text? later).toList := by
  have same : (lexeme.token reserved vocabulary).2 = after := congrArg Prod.snd made
  cases told with
  | @keyword spelling keyword spelled =>
    obtain ⟨handle, known⟩ := fits.knows keyword
    rw [← Keyword.ofSpelling?_eq_some_iff.mp spelled] at known
    rw [← same, token_word_vocabulary, Vocabulary.intern_of_find? known]
    rfl
  | @identifier spelling handle free named =>
    have text : (Token.valued .identifier (.word handle)).text? later = some spelling := named
    rw [← same, token_word_vocabulary, text]
    rfl
  | @string content handle named =>
    have text : (Token.valued .string (.word handle)).text? later = some content := named
    rw [← same, text]
    rfl
  | numeral parts =>
    rw [← same]
    cases parts.isFloat <;> rfl
  | character c => exact same.symm
  | symbol mark => exact same.symm
  | endOfInput => exact same.symm

namespace Scanner

variable {scanner : Scanner} {later : Vocabulary}

/-- A request that gives no token lets nothing enter. -/
theorem ask_adds_nothing {ask : Ask} (failed : ∀ token, (scanner.ask ask).1 ≠ some (.ok token)) :
    (scanner.ask ask).2.vocabulary = scanner.vocabulary := by
  rcases scanner.ask_cases ask with nothing | ⟨finished, asked⟩
  · rw [nothing]
  · rw [asked] at failed ⊢
    match taken : scanner.next with
    | (.error diagnosis, after) =>
      obtain ⟨obstacle, reader, -, -, rfl⟩ := next_error taken
      rfl
    | (.ok token, after) =>
      rw [taken] at failed
      exact (failed token rfl).elim

/-- A request lets the text of the token that it gives enter, if there is one, and nothing else. -/
theorem ask_vocabulary (fits : scanner.reserved.Fits scanner.vocabulary) (ask : Ask)
    (grows : (scanner.ask ask).2.vocabulary.Grows later) (roomy : later.size ≤ 2 ^ 32) :
    (scanner.ask ask).2.vocabulary =
      scanner.vocabulary.internAll (textGiven? later (scanner.ask ask).1).toList := by
  match given : (scanner.ask ask).1 with
  | none => exact ask_adds_nothing (by rw [given]; exact nofun)
  | some (.error diagnosis) => exact ask_adds_nothing (by rw [given]; exact nofun)
  | some (.ok token) =>
    obtain ⟨taken, finished, after⟩ := ask_ok given
    obtain ⟨lexeme, reader, -, rfl, behind⟩ := next_ok taken
    rw [after, behind] at grows ⊢
    have told := lexeme.token_told fits (Nat.le_trans grows.size_le roomy)
    exact Lexeme.token_vocabulary fits rfl (told.grows grows)

/-- The texts of the tokens of a run enter one after the other. -/
theorem askAll_vocabulary (fits : scanner.reserved.Fits scanner.vocabulary) (asks : List Ask)
    (grows : (scanner.askAll asks).2.vocabulary.Grows later) (roomy : later.size ≤ 2 ^ 32) :
    (scanner.askAll asks).2.vocabulary =
      scanner.vocabulary.internAll (textsGiven later (scanner.askAll asks).1) := by
  induction asks generalizing scanner with
  | nil => rfl
  | cons ask asks ih =>
    have through := (scanner.ask ask).2.askAll_grows asks
    have first := ask_vocabulary fits ask (through.trans grows) roomy
    have rest := ih (askAll_fits fits [ask]) grows
    calc ((scanner.ask ask).2.askAll asks).2.vocabulary
      _ = (scanner.ask ask).2.vocabulary.internAll
            (textsGiven later ((scanner.ask ask).2.askAll asks).1) := rest
      _ = (scanner.vocabulary.internAll (textGiven? later (scanner.ask ask).1).toList).internAll
            (textsGiven later ((scanner.ask ask).2.askAll asks).1) := by rw [← first]
      _ = scanner.vocabulary.internAll (textsGiven later (scanner.askAll (ask :: asks)).1) := by
            rw [askAll, textsGiven_cons, Vocabulary.internAll_append]

/-- What a run adds to a vocabulary, whatever the vocabulary was asked for before, whatever the source and
the replies are, and also behind failures. Its texts are those that were there and behind them the texts of
the identifiers and strings that were given, in the order in which they come first, without those that were
there and none of them twice. A request that fails, or that has nothing more to give, changes nothing. One
that gives an identifier or a string lets just the text enter that stands at its place, and one that gives
any other token changes nothing; a keyword is among these. -/
theorem texts_added (before between : List Vocabulary.Call) {order : List Keyword}
    (every : order.Perm Keyword.all) (file text : String) (source : LineSource) (asks : List Ask) :
    let built := ReservedWords.build order (Vocabulary.empty.callAll before).2
    let known := (built.2.callAll between).2
    let run := (Scanner.start built.1 known file text source).askAll asks
    let scanner := run.2
    (scanner.vocabulary.size ≤ 2 ^ 32 →
      scanner.vocabulary.texts.toList = known.texts.toList ++
        ((textsGiven scanner.vocabulary run.1).filter (· ∉ known.texts.toList)).eraseDups ∧
      scanner.vocabulary.texts.toList.Nodup) ∧
    (∀ ask, (∀ token, (scanner.ask ask).1 ≠ some (.ok token)) →
      (scanner.ask ask).2.vocabulary = scanner.vocabulary) ∧
    ∀ ask token, (scanner.ask ask).1 = some (.ok token) →
      let after := (scanner.ask ask).2
      after.vocabulary.size ≤ 2 ^ 32 →
        (∃ atom place content, token.kind = .atom atom ∧ scanner.reader.settle = (none, place) ∧
          atom.MadeOf content place after.reader ∧
          after.vocabulary = (scanner.vocabulary.intern content).2 ∧
          ∀ more calls,
            token.text? ((after.askAll more).2.vocabulary.callAll calls).2 = some content) ∨
        token.kind ≠ .atom .identifier ∧ token.kind ≠ .atom .string ∧
          (∀ vocabulary, token.text? vocabulary = none) ∧ after.vocabulary = scanner.vocabulary := by
  intro built known run scanner
  have opening : built.1.Fits known := .of_calls before between every
  have fits : scanner.reserved.Fits scanner.vocabulary := askAll_fits opening asks
  refine ⟨?added, fun _ => ask_adds_nothing, ?given⟩
  case added =>
    intro roomy
    refine ⟨?_, fits.consistent.nodup roomy⟩
    have entered : scanner.vocabulary = known.internAll (textsGiven scanner.vocabulary run.1) :=
      askAll_vocabulary opening asks (.refl _) roomy
    calc scanner.vocabulary.texts.toList
      _ = (known.internAll (textsGiven scanner.vocabulary run.1)).texts.toList := by rw [← entered]
      _ = _ := opening.consistent.texts_internAll _
  case given =>
    intro ask token given after roomy
    have entered : after.vocabulary =
        scanner.vocabulary.internAll (textGiven? after.vocabulary (scanner.ask ask).1).toList :=
      ask_vocabulary fits ask (.refl _) roomy
    rw [given] at entered
    have shaped := next_shaped (ask_ok given).1
    rcases shaped.text?_cases with ⟨atom, handle, rfl⟩ | ⟨noWord, noString, noText⟩
    · obtain ⟨place, content, settled, made, named⟩ := ask_madeOf fits given roomy
      have told (more : List Ask) (calls : List Vocabulary.Call) :
          (Token.valued atom (.word handle)).text? ((after.askAll more).2.vocabulary.callAll calls).2 =
            some content :=
        (made.text?_valued _ handle).trans (named more calls)
      have now :
          textGiven? after.vocabulary (some (.ok (.valued atom (.word handle)))) = some content :=
        told [] []
      rw [now] at entered
      exact Or.inl ⟨atom, place, content, rfl, settled, made, entered, told⟩
    · have now : textGiven? after.vocabulary (some (.ok token)) = none := noText after.vocabulary
      rw [now] at entered
      exact Or.inr ⟨noWord, noString, noText, entered⟩

/-- A character that is refused byte by byte adds nothing, and a string that goes on in a reply adds its
whole text. -/
theorem texts_added_behind_failures :
    let order := Keyword.all.reverse
    let built := ReservedWords.build order (Vocabulary.empty.callAll [.intern "if"]).2
    let known := (built.2.callAll [.intern "x"]).2
    let run := (Scanner.start built.1 known "t.c" "é\"a" [.line "b\""]).askAll [.next, .next, .next]
    let scanner := run.2
    order.Perm Keyword.all ∧ scanner.vocabulary.size ≤ 2 ^ 32 ∧
      textsGiven scanner.vocabulary run.1 = ["ab"] ∧
      scanner.vocabulary.texts.toList = known.texts.toList ++
        ((textsGiven scanner.vocabulary run.1).filter (· ∉ known.texts.toList)).eraseDups := by
  intro order built known run scanner
  have every : order.Perm Keyword.all := List.reverse_perm _
  have fits : built.1.Fits known := .of_calls [.intern "if"] [.intern "x"] every
  let start := Scanner.start built.1 known "t.c" "é\"a" [.line "b\""]
  let refused : Reader := ⟨[0xa9], ['"', 'a'], [.line "b\""], 1, 1⟩
  let quoted : Reader := ⟨[], ['"', 'a'], [.line "b\""], 1, 1⟩
  have first : start.next = (.error _, start.reading refused) :=
    next_of_obstacle (by decide +kernel : start.reader.next = (.error (.fault (.illegal 'é')), refused))
  have second : (start.reading refused).next = (.error _, start.reading quoted) :=
    next_of_obstacle (by decide +kernel : refused.next = (.error (.fault (.illegal '©')), quoted))
  have string : quoted.next = (.ok (.string "ab"), ⟨[], [], [], 1, 1⟩) := by
    rw [Reader.next_of_quote, Reader.take_of_quote]
    simp [Body.read, Closer.quote, Body.content, Body.newlines]
  have third : (start.reading quoted).next = _ := next_of_lexeme string
  have outcomes : run.1 = [some start.next.1, some (start.reading refused).next.1,
      some (start.reading quoted).next.1] := by
    change (start.askAll [.next, .next, .next]).1 = _
    simp only [askAll, ask, first, second]
  have vocabulary : scanner.vocabulary = (known.intern "ab").2 := by
    change (start.askAll [.next, .next, .next]).2.vocabulary = _
    simp only [askAll, ask, first, second, third]
    rfl
  have roomy : scanner.vocabulary.size ≤ 2 ^ 32 := by
    have few : known.size ≤ 27 :=
      ReservedWords.size_of_calls_le [.intern "if"] [.intern "x"] order
    have entered := known.size_intern_le "ab"
    rw [vocabulary]
    omega
  have given : textsGiven scanner.vocabulary run.1 = ["ab"] := by
    have named : (known.intern "ab").2.text? (known.intern "ab").1 = some "ab" :=
      Vocabulary.text?_intern fits.consistent (vocabulary ▸ roomy)
    have text : textGiven? (known.intern "ab").2 (some (start.reading quoted).next.1) = some "ab" := by
      rw [third]
      exact named
    rw [outcomes, vocabulary, textsGiven_cons, textsGiven_cons, textsGiven_cons, first, second, text]
    rfl
  have added := (texts_added [.intern "if"] [.intern "x"] every "t.c" "é\"a" [.line "b\""]
    [.next, .next, .next]).1 roomy
  exact ⟨every, roomy, given, added.1⟩

end Scanner
end TokenTape
