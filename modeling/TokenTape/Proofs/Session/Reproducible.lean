import TokenTape.Proofs.Scanner.Meaning
import TokenTape.Proofs.Tape.RoundTrip
import TokenTape.Session
/-!
Whole sessions. Lexers may join at any time, and each request may come to any of them; whatever
happens, the vocabulary only grows, and every table of reserved words stays right for it
(`Session.occurAll_sound`). So a tape keeps its meaning for good, and the same input gives the same
bytes again (`Session.analyse_again`).
-/
namespace TokenTape

/-- A token without marks takes ten bytes at most: its tag, and a value with its opening byte. -/
theorem Token.length_encode_le (token : Token) : (token.encode 0).length ≤ 10 := by
  match token with
  | ⟨kind, none⟩ => simp [encode, pieces]
  | ⟨kind, some value⟩ => cases value <;> simp [encode, pieces, Value.encodedSize]

theorem Located.length_encodeAll_le (line : Nat) (tokens : List Located) :
    (encodeAll false line tokens).length ≤ 10 * tokens.length := by
  induction tokens generalizing line with
  | nil => exact Nat.le_refl _
  | cons located rest ih =>
    have first := located.token.length_encode_le
    have later := ih located.line
    rw [encodeAll_cons, List.length_append, List.length_cons]
    simp only [Bool.false_eq_true, if_false]
    omega

/-- A tape tells lexemes: a cursor at its start meets no damage and gives tokens that tell them, one
token for each. -/
def Tape.Tells (tape : Tape) (vocabulary : Vocabulary) (lexemes : List Lexeme) : Prop :=
  ∃ tokens, (Cursor.start tape.bytes 0 1).run.1.map (·.outcome) = tokens.map .ok ∧
    List.Forall₂ (Lexeme.ToldBy vocabulary) lexemes tokens

theorem Tape.Tells.grows {before after : Vocabulary} (grows : before.Grows after) {tape : Tape}
    {lexemes : List Lexeme} (tells : tape.Tells before lexemes) : tape.Tells after lexemes := by
  obtain ⟨tokens, given, told⟩ := tells
  exact ⟨tokens, given, told.imp fun _ _ told => told.grows grows⟩

namespace Scanner

variable {scanner known : Scanner} {marks : Bool} {quota quota' : Quota} {tape tape' : Tape}

/-- Behind a tape that was handed out, the scanner stands where its scan ends. -/
theorem pack_scanner_of_packed (packed : (scanner.pack marks quota).result = .ok tape) :
    (scanner.pack marks quota).scanner = scanner.scan.final := by
  obtain ⟨complete, rfl, twice⟩ := pack_eq_ok_iff.mp packed
  rw [(pack_of_complete marks quota scanner complete).1 twice]

/-- A tape tells the lexemes that the scanner found. -/
theorem tells_of_packed (start : scanner.line = 1) (fits : scanner.reserved.Fits scanner.vocabulary)
    (roomy : scanner.scan.final.vocabulary.size ≤ 2 ^ 32)
    (packed : (scanner.pack marks quota).result = .ok tape) :
    tape.Tells scanner.scan.final.vocabulary scanner.reader.lexemes := by
  refine ⟨_, ?_, scan_told fits roomy⟩
  have reported := (run_of_packed packed).1
  rw [start] at reported
  rw [reported, Cursor.replay_outcomes, List.map_map]
  rfl

/-- If another scanner packs the same input and its vocabulary tells the lexemes by the same tokens,
both tapes are the same, and nothing new enters that vocabulary. -/
theorem pack_retold (reader : known.reader = scanner.reader)
    (fits : known.reserved.Fits known.vocabulary) (roomy : known.vocabulary.size ≤ 2 ^ 32)
    (told : List.Forall₂ (Lexeme.ToldBy known.vocabulary) scanner.reader.lexemes
      (scanner.scan.tokens.map (·.token)))
    (packed : (scanner.pack marks quota).result = .ok tape)
    (again : (known.pack marks quota').result = .ok tape') :
    tape' = tape ∧ (known.pack marks quota').scanner.vocabulary = known.vocabulary := by
  obtain ⟨tokens, words⟩ := scan_retold reader fits roomy told
  rw [pack_scanner_of_packed again, words]
  obtain ⟨-, rfl, -⟩ := pack_eq_ok_iff.mp packed
  obtain ⟨-, rfl, -⟩ := pack_eq_ok_iff.mp again
  rw [tokens, line, line, reader]
  exact ⟨rfl, rfl⟩

end Scanner

namespace Lexer

/-- A source without an obstacle is packed if there is room for ten bytes of each token, twice. -/
theorem exists_analysed {lexer : Lexer} (unmarked : lexer.settings.lineMarks = false)
    (vocabulary : Vocabulary) (file : String) {text : String} {source : LineSource}
    (complete : .endOfInput ∈ (Reader.start text source).lexemes)
    (room : 20 * (Reader.start text source).lexemes.length ≤ lexer.quota.free) :
    ∃ tape, (lexer.analyse vocabulary file text source).result = .ok tape := by
  let scanner := lexer.scanner vocabulary file text source
  have length : scanner.scan.tokens.length = (Reader.start text source).lexemes.length :=
    scanner.scan_lexemes.1
  have size := Located.length_encodeAll_le scanner.line scanner.scan.tokens
  refine ⟨⟨Located.encodeAll lexer.settings.lineMarks scanner.line scanner.scan.tokens⟩,
    Scanner.pack_eq_ok_iff.mpr ⟨scanner.scan_lexemes.2.mpr complete, rfl, ?_⟩⟩
  rw [unmarked]
  change 2 * (Located.encodeAll false scanner.line scanner.scan.tokens).length ≤ lexer.quota.free
  omega

end Lexer

/-- What a lexer was made of and never changes. -/
def Lexer.make (lexer : Lexer) : Settings × ReservedWords := (lexer.settings, lexer.reserved)

theorem Lexer.ofVocabulary_grows (vocabulary : Vocabulary) (settings : Settings) :
    vocabulary.Grows (ofVocabulary vocabulary settings).2 := by
  have grows : vocabulary.Grows (ReservedWords.ofVocabulary vocabulary).2 :=
    ReservedWords.build_grows Keyword.alphabetical vocabulary
  unfold ofVocabulary
  generalize ReservedWords.ofVocabulary vocabulary = built at *
  exact grows

theorem Lexer.analyse_grows (lexer : Lexer) (vocabulary : Vocabulary) (file text : String)
    (source : LineSource) :
    vocabulary.Grows (lexer.analyse vocabulary file text source).vocabulary := by
  refine Scanner.pack_kept (motive := fun later => vocabulary.Grows later.vocabulary) ?_ (.refl _) _ _
  intro later grows
  exact grows.trans later.next_grows

theorem Lexer.analyse_consistent (lexer : Lexer) {vocabulary : Vocabulary}
    (consistent : vocabulary.Consistent) (file text : String) (source : LineSource) :
    (lexer.analyse vocabulary file text source).vocabulary.Consistent :=
  Scanner.pack_kept (motive := (·.vocabulary.Consistent)) (fun _ => Scanner.next_consistent)
    consistent _ _

namespace Session

/-- A session without a lexer. -/
def empty : Session := ⟨.empty, #[], []⟩

/-- Makes one more lexer over the vocabulary. -/
def hire (session : Session) (settings : Settings) : Session :=
  let built := Lexer.ofVocabulary session.vocabulary settings
  { session with vocabulary := built.2, lexers := session.lexers.push built.1 }

/-- What happens to a session. -/
inductive Event where
  | hire (settings : Settings)
  | request (request : Request)

/-- The session after an event. -/
def occur (session : Session) : Event → Session
  | .hire settings => session.hire settings
  | .request request => (session.handle request).2

/-- The session after one event upon the other. -/
def occurAll (session : Session) (events : List Event) : Session := events.foldl occur session

/-- A session that starts with some lexers has hired them one after the other. -/
theorem start_eq_occurAll (settings : List Settings) :
    start .empty settings = empty.occurAll (settings.map .hire) := by
  rw [occurAll, List.foldl_map, start]
  refine (List.foldl_hom (fun made : Array Lexer × Vocabulary => (⟨made.2, made.1, []⟩ : Session))
    ?_).symm
  rintro ⟨lexers, vocabulary⟩ settings
  simp only [occur, hire]

/-- What a request may do to that which lexers share. -/
structure Keeps (before after : Session) : Prop where
  grows : before.vocabulary.Grows after.vocabulary
  consistent : before.vocabulary.Consistent → after.vocabulary.Consistent
  makes : after.lexers.map Lexer.make = before.lexers.map Lexer.make

namespace Keeps

theorem refl (session : Session) : session.Keeps session := ⟨.refl _, id, rfl⟩

theorem trans {first second third : Session} (before : first.Keeps second)
    (after : second.Keeps third) : first.Keeps third where
  grows := before.grows.trans after.grows
  consistent := after.consistent ∘ before.consistent
  makes := after.makes.trans before.makes

end Keeps

/-- A lexer of which only the quota changes stays what it is made of. -/
theorem map_make_modify (lexers : Array Lexer) (number : Nat) {change : Lexer → Lexer}
    (same : ∀ lexer, lexers[number]? = some lexer → (change lexer).make = lexer.make) :
    (lexers.modify number change).map Lexer.make = lexers.map Lexer.make := by
  apply Array.ext_getElem?
  intro other
  rw [Array.getElem?_map, Array.getElem?_map, Array.getElem?_modify]
  by_cases here : number = other
  · subst here
    rw [if_pos rfl]
    cases stands : lexers[number]? with
    | none => rfl
    | some lexer => exact congrArg some (same lexer stands)
  · rw [if_neg here]

/-- Another quota for one of the lexers, and other tapes kept: nothing that lexers share changes. -/
theorem keeps_of_modify (session : Session) (number : Nat) {change : Lexer → Lexer}
    (same : ∀ lexer, (change lexer).make = lexer.make) (kept : List KeptTape) :
    session.Keeps ⟨session.vocabulary, session.lexers.modify number change, kept⟩ :=
  ⟨.refl _, id, map_make_modify _ _ fun lexer _ => same lexer⟩

theorem drop_keeps (session : Session) (name : String) : session.Keeps (session.drop name) := by
  unfold drop
  split
  · exact .refl session
  · refine session.keeps_of_modify _ ?_ _
    exact fun _ => rfl

theorem keep_keeps (session : Session) (kept : KeptTape) : session.Keeps (session.keep kept) := by
  have dropped := session.drop_keeps kept.name
  exact ⟨dropped.grows, dropped.consistent, dropped.makes⟩

theorem handle_keeps (session : Session) (request : Request) :
    session.Keeps (session.handle request).2 := by
  cases request with
  | analyse number file text source name =>
    obtain ⟨vocabulary, lexers, kept⟩ := session
    simp only [handle, analyse]
    split
    · exact .refl _
    · next lexer stands =>
      have makes : (lexers.modify number fun _ =>
          (lexer.analyse vocabulary file text source).lexer).map Lexer.make =
            lexers.map Lexer.make := by
        refine map_make_modify lexers number fun other same => ?_
        rw [stands] at same
        cases same
        rfl
      have analysed : Keeps ⟨vocabulary, lexers, kept⟩
          ⟨(lexer.analyse vocabulary file text source).vocabulary, lexers.modify number fun _ =>
            (lexer.analyse vocabulary file text source).lexer, kept⟩ :=
        ⟨lexer.analyse_grows _ _ _ _, (lexer.analyse_consistent · _ _ _), makes⟩
      split
      · exact analysed
      · split
        · exact analysed.trans (keep_keeps _ _)
        · refine analysed.trans (keeps_of_modify _ _ ?_ _)
          exact fun _ => rfl
  | drop name => exact session.drop_keeps name
  | replay name offset line =>
    simp only [handle]
    split <;> exact .refl session
  | scan number file text =>
    obtain ⟨vocabulary, lexers, kept⟩ := session
    simp only [handle, scan]
    split
    · exact .refl _
    · next lexer stands =>
      exact ⟨(lexer.scanner vocabulary file text []).run_grows,
        fun consistent => Scanner.run_consistent consistent, rfl⟩
  | intern text => exact ⟨session.vocabulary.intern_grows text, (·.intern text), rfl⟩
  | find text => exact .refl session
  | lookup number word =>
    simp only [handle]
    split <;> exact .refl session
  | commit number bytes =>
    simp only [handle, commit]
    split
    · exact .refl session
    · split
      · exact .refl session
      · refine session.keeps_of_modify _ ?_ _
        exact fun _ => rfl
  | release number size =>
    refine session.keeps_of_modify _ ?_ _
    exact fun _ => rfl

theorem hire_lexer (session : Session) (settings : Settings) :
    (session.hire settings).lexers[session.lexers.size]? =
      some (Lexer.ofVocabulary session.vocabulary settings).1 := by
  simp only [hire, Array.getElem?_push_size]

theorem hire_size (session : Session) (settings : Settings) :
    (session.hire settings).lexers.size = session.lexers.size + 1 := by
  simp only [hire, Array.size_push]

theorem hire_grows (session : Session) (settings : Settings) :
    session.vocabulary.Grows (session.hire settings).vocabulary := by
  simp only [hire]
  exact Lexer.ofVocabulary_grows session.vocabulary settings

theorem size_hire_le (session : Session) (settings : Settings) :
    (session.hire settings).vocabulary.size ≤ session.vocabulary.size + Keyword.all.length := by
  simp only [hire]
  exact Lexer.size_ofVocabulary_le session.vocabulary settings

/-- The vocabulary knows its texts, and every lexer has the right table for it. -/
structure Sound (session : Session) : Prop where
  consistent : session.vocabulary.Consistent
  describes : ∀ (number : Nat) (lexer : Lexer), session.lexers[number]? = some lexer →
    lexer.reserved.Describes session.vocabulary

namespace Sound

variable {session after : Session}

theorem fits (sound : session.Sound) {number : Nat} {lexer : Lexer}
    (stands : session.lexers[number]? = some lexer) : lexer.reserved.Fits session.vocabulary :=
  ⟨sound.consistent, sound.describes number lexer stands⟩

theorem keeps (sound : session.Sound) (keeps : session.Keeps after) : after.Sound where
  consistent := keeps.consistent sound.consistent
  describes number lexer stands := by
    have made : (after.lexers.map Lexer.make)[number]? = some lexer.make := by
      rw [Array.getElem?_map, stands]
      rfl
    rw [keeps.makes, Array.getElem?_map, Option.map_eq_some_iff] at made
    obtain ⟨other, stood, same⟩ := made
    have table : other.reserved = lexer.reserved := congrArg Prod.snd same
    rw [← table]
    exact (sound.describes number other stood).grows keeps.grows

theorem hire (sound : session.Sound) (settings : Settings) : (session.hire settings).Sound := by
  have built := ReservedWords.Fits.of_built sound.consistent settings
  have grows := Lexer.ofVocabulary_grows session.vocabulary settings
  unfold Session.hire
  generalize Lexer.ofVocabulary session.vocabulary settings = made at built grows ⊢
  refine ⟨built.consistent, ?_⟩
  intro number lexer stands
  rw [Array.getElem?_push] at stands
  split at stands
  · cases stands
    exact built.describes
  · exact (sound.describes number lexer stands).grows grows

end Sound

theorem empty_sound : empty.Sound := ⟨Vocabulary.empty_consistent, by simp [empty]⟩

theorem occur_grows (session : Session) (event : Event) :
    session.vocabulary.Grows (session.occur event).vocabulary := by
  cases event with
  | hire settings => exact session.hire_grows settings
  | request request => exact (session.handle_keeps request).grows

theorem occur_sound {session : Session} (sound : session.Sound) (event : Event) :
    (session.occur event).Sound := by
  cases event with
  | hire settings => exact sound.hire settings
  | request request => exact sound.keeps (session.handle_keeps request)

theorem occurAll_grows (session : Session) (events : List Event) :
    session.vocabulary.Grows (session.occurAll events).vocabulary := by
  induction events generalizing session with
  | nil => exact .refl _
  | cons event events ih => exact (session.occur_grows event).trans (ih _)

/-- Whatever happens, the vocabulary knows its texts and every lexer has the right table for it. -/
theorem occurAll_sound {session : Session} (sound : session.Sound) (events : List Event) :
    (session.occurAll events).Sound := by
  induction events generalizing session with
  | nil => exact sound
  | cons event events ih => exact ih (occur_sound sound event)

theorem drop_vocabulary (session : Session) (name : String) :
    (session.drop name).vocabulary = session.vocabulary := by
  unfold drop
  split <;> rfl

/-- A session that answers with a tape has one lexer pack it. -/
theorem analyse_packed {session : Session} {number : Nat} {file text : String} {source : LineSource}
    {name : Option String} {tape : Tape}
    (packed : (session.handle (.analyse number file text source name)).1 = .packed tape) :
    ∃ lexer, session.lexers[number]? = some lexer ∧
      (lexer.analyse session.vocabulary file text source).result = .ok tape ∧
      (session.handle (.analyse number file text source name)).2.vocabulary =
        (lexer.analyse session.vocabulary file text source).vocabulary := by
  obtain ⟨vocabulary, lexers, kept⟩ := session
  simp only [handle, analyse] at packed ⊢
  split at packed
  · cases packed
  · next lexer stands =>
    refine ⟨lexer, stands, ?_⟩
    split at packed
    · cases packed
    · next other result =>
      rw [result]
      split at packed
      · cases packed
        exact ⟨rfl, drop_vocabulary _ _⟩
      · cases packed
        exact ⟨rfl, rfl⟩

/-- Analyses can be repeated. Whatever happened before and happens between, a tape that was handed out
once goes on to tell the lexemes of its source, those of the pieces of the text if there was no more
input. Any lexer with the same line marks that packs the same input later comes to the same bytes, and
no text enters the vocabulary with it. All this holds as long as handles have not run out. -/
theorem analyse_again (before between : List Event) (number number' : Nat)
    (file file' text : String) (source : LineSource) (name name' : Option String) :
    let session := empty.occurAll before
    let analysed := session.handle (.analyse number file text source name)
    let later := analysed.2.occurAll between
    let again := later.handle (.analyse number' file' text source name')
    let lexemes := (Reader.start text source).lexemes
    ∀ tape, analysed.1 = .packed tape → later.vocabulary.size ≤ 2 ^ 32 →
      tape.Tells later.vocabulary lexemes ∧
      (source = [] → ∃ pieces, Splits (Utf8.bytesOf text.toList) pieces [] ∧
        lexemes = pieces.filterMap Piece.lexeme? ++ [.endOfInput]) ∧
      (session.lexers[number]?.map (·.settings.lineMarks) =
          later.lexers[number']?.map (·.settings.lineMarks) →
        ∀ tape', again.1 = .packed tape' →
          tape' = tape ∧ again.2.vocabulary = later.vocabulary) := by
  intro session analysed later again lexemes tape packed roomy
  have sound : session.Sound := occurAll_sound empty_sound before
  have sound' : later.Sound :=
    occurAll_sound (sound.keeps (session.handle_keeps _)) between
  have grows : analysed.2.vocabulary.Grows later.vocabulary := analysed.2.occurAll_grows between
  obtain ⟨lexer, stands, result, words⟩ := analyse_packed packed
  let scanner := lexer.scanner session.vocabulary file text source
  have fits : scanner.reserved.Fits scanner.vocabulary := sound.fits stands
  have final : analysed.2.vocabulary = scanner.scan.final.vocabulary :=
    words.trans (congrArg Scanner.vocabulary (Scanner.pack_scanner_of_packed result))
  rw [final] at grows
  -- What was told when the tape was packed is told for good.
  have scanned := Nat.le_trans grows.size_le roomy
  have told := (Scanner.scan_told fits scanned).imp fun _ _ told => told.grows grows
  refine ⟨(Scanner.tells_of_packed rfl fits scanned result).grows grows, ?_, ?_⟩
  · rintro rfl
    have ends := scanner.scan_lexemes.2.mp (Scanner.pack_eq_ok_iff.mp result).1
    have splits := Reader.lexemes_splits (Reader.start_sound text []) rfl ends
    rwa [Reader.unread_of_span rfl rfl] at splits
  · intro marks tape' packedAgain
    obtain ⟨lexer', stands', result', words'⟩ := analyse_packed packedAgain
    rw [stands, stands'] at marks
    have marks : lexer.settings.lineMarks = lexer'.settings.lineMarks := Option.some.inj marks
    let known := lexer'.scanner later.vocabulary file' text source
    have packedAgain : (known.pack lexer.settings.lineMarks lexer'.quota).result = .ok tape' := by
      rw [marks]
      exact result'
    have same : known.reader = scanner.reader := rfl
    have retold := Scanner.pack_retold same (sound'.fits stands') roomy told result packedAgain
    rw [marks] at retold
    rw [words']
    exact retold

theorem analyse_of_packed {session : Session} {number : Nat} {file text : String}
    {source : LineSource} {name : Option String} {tape : Tape} {lexer : Lexer}
    (stands : session.lexers[number]? = some lexer)
    (packed : (lexer.analyse session.vocabulary file text source).result = .ok tape) :
    (session.handle (.analyse number file text source name)).1 = .packed tape := by
  obtain ⟨vocabulary, lexers, kept⟩ := session
  simp only [handle, analyse]
  rw [stands]
  dsimp only at packed ⊢
  rw [packed]
  cases name <;> rfl

/-- A lexer that was made later packs what another has packed and dropped. -/
theorem analyse_again_after_drop :
    let session := empty.occurAll [.hire .standard]
    let analysed := session.handle (.analyse 0 "a.c" "x while" [] (some "a"))
    let later := analysed.2.occurAll [.request (.drop "a"), .request (.intern "y"), .hire ⟨96, false⟩]
    let again := later.handle (.analyse 1 "b.c" "x while" [] none)
    later.vocabulary.size ≤ 2 ^ 32 ∧ ∃ tape, analysed.1 = .packed tape ∧ again.1 = .packed tape ∧
      again.2.vocabulary = later.vocabulary ∧
      tape.Tells later.vocabulary [.word "x", .word "while", .endOfInput] := by
  intro session analysed later again
  have lexemes : (Reader.start "x while" []).lexemes = [.word "x", .word "while", .endOfInput] := by
    decide +kernel
  have ends : .endOfInput ∈ (Reader.start "x while" []).lexemes := by simp [lexemes]
  -- The first lexer packs the text.
  have stands : session.lexers[0]? = _ := empty.hire_lexer .standard
  have made := Lexer.settings_ofVocabulary empty.vocabulary .standard
  obtain ⟨tape, result⟩ := Lexer.exists_analysed (by rw [made.1]; rfl) session.vocabulary "a.c" ends
    (by rw [made.2, lexemes]; decide)
  have packed : analysed.1 = .packed tape := analyse_of_packed stands result
  -- Another lexer joins behind the other events and packs it too.
  let dropped := analysed.2.drop "a"
  let grown := (dropped.handle (.intern "y")).2
  have count : grown.lexers.size = 1 := by
    have keeps : session.Keeps grown :=
      (session.handle_keeps _).trans ((analysed.2.drop_keeps "a").trans (dropped.handle_keeps _))
    have same := congrArg Array.size keeps.makes
    rw [Array.size_map, Array.size_map] at same
    exact same.trans (empty.hire_size .standard)
  have stands' : later.lexers[1]? = _ := count ▸ grown.hire_lexer ⟨96, false⟩
  have made' := Lexer.settings_ofVocabulary grown.vocabulary ⟨96, false⟩
  obtain ⟨tape', result'⟩ := Lexer.exists_analysed (by rw [made'.1]) later.vocabulary "b.c" ends
    (by rw [made'.2, lexemes]; decide)
  have packedAgain : again.1 = .packed tape' := analyse_of_packed stands' result'
  have roomy : later.vocabulary.size ≤ 2 ^ 32 := by
    have started : session.vocabulary.size ≤ 0 + 25 := empty.size_hire_le .standard
    have text : (Reader.start "x while" []).remaining = 7 := by decide +kernel
    obtain ⟨lexer, -, -, words⟩ := analyse_packed packed
    have scanned : analysed.2.vocabulary.size ≤ session.vocabulary.size + 7 := by
      rw [words, ← text]
      exact Scanner.size_pack_le _ _ _
    have interned : grown.vocabulary.size ≤ analysed.2.vocabulary.size + 1 := by
      rw [← analysed.2.drop_vocabulary "a"]
      exact dropped.vocabulary.size_intern_le "y"
    have joined : later.vocabulary.size ≤ grown.vocabulary.size + 25 :=
      grown.size_hire_le ⟨96, false⟩
    omega
  have marks : session.lexers[0]?.map (·.settings.lineMarks) =
      later.lexers[1]?.map (·.settings.lineMarks) := by
    rw [stands, stands', Option.map_some, Option.map_some, made.1, made'.1]
    rfl
  obtain ⟨tells, -, same⟩ := analyse_again [.hire .standard]
    [.request (.drop "a"), .request (.intern "y"), .hire ⟨96, false⟩] 0 1 "a.c" "b.c" "x while" []
    (some "a") none tape packed roomy
  obtain ⟨rfl, words⟩ := same marks tape' packedAgain
  exact ⟨roomy, _, packed, packedAgain, words, lexemes ▸ tells⟩

end Session
end TokenTape
