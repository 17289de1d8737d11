import TokenTape.Proofs.Scanner.Meaning
/-!
Lexing does not depend on what the vocabulary held before. Two scanners over the same input, each with
a vocabulary and a table of reserved words of its own, stay in step whatever is asked of them: their
handles may differ, but name the same texts (`Scanner.Twins`). So they pack alike, and their tapes
differ in handles at most (`analyse_forgets_prior_words`).
-/
namespace TokenTape

/-- Two tokens that mean the same, each with its own vocabulary: the same token without a handle, or
handles of the same text. -/
inductive Token.Alike (one other : Vocabulary) : Token → Token → Prop
  | same {token : Token} (noHandle : ∀ handle, token.value ≠ some (.word handle)) :
      Alike one other token token
  | named (atom : Atom) {first second : Word} {text : String}
      (named : one.text? first = some text) (alsoNamed : other.text? second = some text) :
      Alike one other (.valued atom (.word first)) (.valued atom (.word second))

/-- Two results with the same verdict: both fail and tell it in the same words, or both succeed with
values that are related. -/
inductive SameVerdict {α β : Type} (related : α → β → Prop) :
    Except Diagnosis α → Except Diagnosis β → Prop
  | ok {first : α} {second : β} (values : related first second) :
      SameVerdict related (.ok first) (.ok second)
  | error (diagnosis : Diagnosis) : SameVerdict related (.error diagnosis) (.error diagnosis)

/-- Bytes of two tapes that are the same but for the four bytes of each handle, and the handles at the
same place name the same text. -/
inductive Tape.SameButHandles (one other : Vocabulary) : List UInt8 → List UInt8 → Prop
  | nil : SameButHandles one other [] []
  | same {token : Token} (noHandle : ∀ handle, token.value ≠ some (.word handle)) (marks : Nat)
      {rest rest' : List UInt8} (further : SameButHandles one other rest rest') :
      SameButHandles one other (token.encode marks ++ rest) (token.encode marks ++ rest')
  | handle (atom : Atom) (marks : Nat) {first second : Word} {text : String}
      (named : one.text? first = some text) (alsoNamed : other.text? second = some text)
      {rest rest' : List UInt8} (further : SameButHandles one other rest rest') :
      SameButHandles one other
        (List.replicate marks Kind.endOfLine.tag ++ [(Kind.atom atom).tag, 3] ++
          LittleEndian.encode 4 first.raw.toNat ++ rest)
        (List.replicate marks Kind.endOfLine.tag ++ [(Kind.atom atom).tag, 3] ++
          LittleEndian.encode 4 second.raw.toNat ++ rest')

namespace Token.Alike

variable {one other : Vocabulary} {first second : Token}

theorem isEnd (alike : first.Alike one other second) : first.isEnd = second.isEnd := by
  cases alike with
  | same => rfl
  | named => rfl

theorem grows {one' other' : Vocabulary} (grows : one.Grows one') (alsoGrows : other.Grows other')
    (alike : first.Alike one other second) : first.Alike one' other' second := by
  cases alike with
  | same noHandle => exact .same noHandle
  | named atom named alsoNamed => exact .named atom (grows.text? named) (alsoGrows.text? alsoNamed)

theorem encode_length (alike : first.Alike one other second) (marks : Nat) :
    (first.encode marks).length = (second.encode marks).length := by
  cases alike with
  | same => rfl
  | named => simp [encode, pieces, valued, Value.encodedSize]

/-- What two tokens that mean the same leave on two tapes. -/
theorem encode_cons (alike : first.Alike one other second) (marks : Nat) {rest rest' : List UInt8}
    (further : Tape.SameButHandles one other rest rest') :
    Tape.SameButHandles one other (first.encode marks ++ rest) (second.encode marks ++ rest') := by
  cases alike with
  | same noHandle => exact .same noHandle marks further
  | named atom named alsoNamed =>
    have record (handle : Word) : (Token.valued atom (.word handle)).encode marks =
        List.replicate marks Kind.endOfLine.tag ++ [(Kind.atom atom).tag, 3] ++
          LittleEndian.encode 4 handle.raw.toNat := by
      simp [encode, pieces, valued, Value.encode, Value.discriminator, Value.payload]
    rw [record, record]
    exact .handle atom marks named alsoNamed further

end Token.Alike

namespace SameVerdict

theorem imp {α β : Type} {related weaker : α → β → Prop} {first : Except Diagnosis α}
    {second : Except Diagnosis β} (weaken : ∀ a b, related a b → weaker a b)
    (same : SameVerdict related first second) : SameVerdict weaker first second := by
  cases same with
  | ok values => exact .ok (weaken _ _ values)
  | error diagnosis => exact .error diagnosis

theorem isLast {one other : Vocabulary} {first second : Outcome}
    (same : SameVerdict (Token.Alike one other) first second) : first.isLast = second.isLast := by
  cases same with
  | ok alike => exact alike.isEnd
  | error => rfl

end SameVerdict

theorem Tape.SameButHandles.length_eq {one other : Vocabulary} {bytes bytes' : List UInt8}
    (same : SameButHandles one other bytes bytes') : bytes.length = bytes'.length := by
  induction same with
  | nil => rfl
  | same _ marks _ ih => rw [List.length_append, List.length_append, ih]
  | handle atom marks _ _ _ ih => simp [ih]

/-- Two tokens that tell the same lexeme mean the same. -/
theorem Lexeme.ToldBy.alike {one other : Vocabulary} {lexeme : Lexeme} {first second : Token}
    (told : lexeme.ToldBy one first) (alsoTold : lexeme.ToldBy other second) :
    first.Alike one other second := by
  cases told with
  | keyword spelled =>
    cases alsoTold with
    | keyword alsoSpelled =>
      rw [spelled] at alsoSpelled
      cases alsoSpelled
      exact .same nofun
    | identifier free =>
      rw [spelled] at free
      cases free
  | identifier free named =>
    cases alsoTold with
    | keyword spelled =>
      rw [spelled] at free
      cases free
    | identifier _ alsoNamed => exact .named .identifier named alsoNamed
  | numeral parts =>
    cases alsoTold
    refine .same ?_
    intro handle word
    have value : parts.value = .word handle := Option.some.inj word
    unfold Numeral.value at value
    dsimp only at value
    split at value <;> cases value
  | string named =>
    cases alsoTold with
    | string alsoNamed => exact .named .string named alsoNamed
  | character c =>
    cases alsoTold
    exact .same nofun
  | symbol mark =>
    cases alsoTold
    exact .same nofun
  | endOfInput =>
    cases alsoTold
    exact .same nofun

namespace Scanner

/-- Two scanners at the same place of the same input, each with words of its own. -/
structure Twins (one other : Scanner) : Prop where
  file : one.file = other.file
  reader : one.reader = other.reader
  finished : one.finished = other.finished
  fits : one.reserved.Fits one.vocabulary
  otherFits : other.reserved.Fits other.vocabulary

namespace Twins

variable {one other : Scanner}

theorem line (twins : one.Twins other) : one.line = other.line := by
  rw [Scanner.line, twins.reader, Scanner.line]

theorem tokenLine (twins : one.Twins other) : one.tokenLine = other.tokenLine := by
  rw [Scanner.tokenLine, twins.reader, Scanner.tokenLine]

/-- A request leaves twins in step, and what it gives means the same. -/
theorem next (twins : one.Twins other) (roomy : one.next.2.vocabulary.size ≤ 2 ^ 32)
    (alsoRoomy : other.next.2.vocabulary.size ≤ 2 ^ 32) :
    SameVerdict (Token.Alike one.next.2.vocabulary other.next.2.vocabulary)
        one.next.1 other.next.1 ∧
      one.next.2.Twins other.next.2 := by
  obtain ⟨file, reader, finished, fits, otherFits⟩ := twins
  match read : one.reader.next with
  | (.ok lexeme, after) =>
    have alsoRead := read
    rw [reader] at alsoRead
    rw [next_of_lexeme read] at roomy ⊢
    rw [next_of_lexeme alsoRead] at alsoRoomy ⊢
    have told := lexeme.token_told fits roomy
    have alsoTold := lexeme.token_told otherFits alsoRoomy
    exact ⟨.ok (told.alike alsoTold), file, rfl, finished, fits.token lexeme,
      otherFits.token lexeme⟩
  | (.error obstacle, after) =>
    have alsoRead := read
    rw [reader] at alsoRead
    rw [next_of_obstacle read, next_of_obstacle alsoRead]
    refine ⟨?_, file, rfl, finished, fits, otherFits⟩
    rw [file]
    exact .error _

/-- Whichever way twins are asked, what they give means the same. -/
theorem ask (twins : one.Twins other) (ask : Ask)
    (roomy : (one.ask ask).2.vocabulary.size ≤ 2 ^ 32)
    (alsoRoomy : (other.ask ask).2.vocabulary.size ≤ 2 ^ 32) :
    Option.Rel (SameVerdict (Token.Alike (one.ask ask).2.vocabulary (other.ask ask).2.vocabulary))
        (one.ask ask).1 (other.ask ask).1 ∧
      (one.ask ask).2.Twins (other.ask ask).2 := by
  cases ask with
  | next =>
    obtain ⟨alike, further⟩ := twins.next roomy alsoRoomy
    exact ⟨.some alike, further⟩
  | step =>
    simp only [Scanner.ask, step] at roomy alsoRoomy ⊢
    cases stopped : one.finished with
    | true =>
      have alsoStopped := twins.finished.symm.trans stopped
      simp only [alsoStopped, if_true]
      exact ⟨.none, twins⟩
    | false =>
      have running := twins.finished.symm.trans stopped
      simp only [stopped, running, Bool.false_eq_true, if_false] at roomy alsoRoomy ⊢
      obtain ⟨alike, further⟩ := twins.next roomy alsoRoomy
      exact ⟨.some alike, further.file, further.reader, alike.isLast, further.fits,
        further.otherFits⟩

theorem askAll (twins : one.Twins other) (asks : List Ask)
    (roomy : (one.askAll asks).2.vocabulary.size ≤ 2 ^ 32)
    (alsoRoomy : (other.askAll asks).2.vocabulary.size ≤ 2 ^ 32) :
    List.Forall₂ (Option.Rel (SameVerdict (Token.Alike (one.askAll asks).2.vocabulary
        (other.askAll asks).2.vocabulary))) (one.askAll asks).1 (other.askAll asks).1 ∧
      (one.askAll asks).2.Twins (other.askAll asks).2 := by
  induction asks generalizing one other with
  | nil => exact ⟨.nil, twins⟩
  | cons ask asks ih =>
    have grows := (one.ask ask).2.askAll_grows asks
    have alsoGrows := (other.ask ask).2.askAll_grows asks
    obtain ⟨alike, further⟩ := twins.ask ask (Nat.le_trans grows.size_le roomy)
      (Nat.le_trans alsoGrows.size_le alsoRoomy)
    obtain ⟨later, last⟩ := ih further roomy alsoRoomy
    refine ⟨.cons ?_ later, last⟩
    generalize (one.ask ask).1 = given, (other.ask ask).1 = alsoGiven at alike ⊢
    cases alike with
    | some same => exact .some (same.imp fun _ _ alike => alike.grows grows alsoGrows)
    | none => exact .none

/-- When one of the twins gives a token, so does the other. -/
theorem next_of_taken (twins : one.Twins other) {token : Token} {after : Scanner}
    (taken : one.next = (.ok token, after)) (roomy : after.vocabulary.size ≤ 2 ^ 32)
    (alsoRoomy : other.next.2.vocabulary.size ≤ 2 ^ 32) :
    ∃ token' after', other.next = (.ok token', after') ∧
      token.Alike after.vocabulary after'.vocabulary token' ∧ after.Twins after' := by
  obtain ⟨same, further⟩ := twins.next (by rwa [taken]) alsoRoomy
  rw [taken] at same further
  match alsoTaken : other.next with
  | (outcome, after') =>
    rw [alsoTaken] at same further
    cases same with
    | ok alike => exact ⟨_, after', rfl, alike, further⟩

/-- Twins write to scratch memory of equal room alike. Behind what was there before, they leave the
same bytes but for the handles. -/
theorem writeFrom (twins : one.Twins other) (marks : Bool) (line : Nat) {scratch scratch' : Scratch}
    (room : scratch.room = scratch'.room)
    (roomy : (one.writeFrom marks line scratch).2.vocabulary.size ≤ 2 ^ 32)
    (alsoRoomy : (other.writeFrom marks line scratch').2.vocabulary.size ≤ 2 ^ 32) :
    (one.writeFrom marks line scratch).2.Twins (other.writeFrom marks line scratch').2 ∧
      SameVerdict (fun written written' => ∃ more more', written = scratch.append more ∧
          written' = scratch'.append more' ∧ 0 < more.length ∧
          Tape.SameButHandles (one.writeFrom marks line scratch).2.vocabulary
            (other.writeFrom marks line scratch').2.vocabulary more more')
        (one.writeFrom marks line scratch).1 (other.writeFrom marks line scratch').1 := by
  have first := Nat.le_trans (one.writeFrom_grows marks line scratch).size_le roomy
  have alsoFirst := Nat.le_trans (other.writeFrom_grows marks line scratch').size_le alsoRoomy
  -- Along the scan of the first; the other takes the same steps. Handles have not run out while
  -- writing, as the vocabularies that are left are no smaller than those in between.
  induction one using scan_induction generalizing other line scratch scratch' with
  | failed one diagnosis after taken =>
    obtain ⟨same, further⟩ := twins.next first alsoFirst
    match alsoTaken : other.next with
    | (outcome, after') =>
      rw [taken, alsoTaken] at same further
      cases same with
      | error =>
        rw [writeFrom_of_failed marks line scratch taken,
          writeFrom_of_failed marks line scratch' alsoTaken]
        exact ⟨further, .error diagnosis⟩
  | ended one token after taken ended =>
    rw [taken] at first
    obtain ⟨token', after', alsoTaken, alike, further⟩ := twins.next_of_taken taken first alsoFirst
    have alsoEnded := alike.isEnd.symm.trans ended
    rw [writeFrom_of_token marks line scratch taken, writeFrom_of_token marks line scratch' alsoTaken]
    simp only [ended, alsoEnded, if_true, ← room, ← further.tokenLine, ← alike.encode_length]
    generalize (if marks then after.tokenLine - line else 0) = count
    by_cases fits : (token.encode count).length < scratch.room
    · simp only [if_pos fits]
      refine ⟨further, .ok ⟨_, _, rfl, rfl, token.length_encode_pos count, ?_⟩⟩
      simpa using alike.encode_cons count .nil
    · simp only [if_neg fits, ← further.file, ← further.line]
      exact ⟨further, .error _⟩
  | going one token after taken going ih =>
    rw [taken] at first
    obtain ⟨token', after', alsoTaken, alike, further⟩ := twins.next_of_taken taken first alsoFirst
    have alsoGoing := alike.isEnd.symm.trans going
    rw [writeFrom_of_token marks line scratch taken] at roomy ⊢
    rw [writeFrom_of_token marks line scratch' alsoTaken] at alsoRoomy ⊢
    simp only [going, alsoGoing, Bool.false_eq_true, if_false, ← room, ← further.tokenLine,
      ← alike.encode_length] at roomy alsoRoomy ⊢
    generalize (if marks then after.tokenLine - line else 0) = count at roomy alsoRoomy ⊢
    by_cases fits : (token.encode count).length < scratch.room
    · simp only [if_pos fits] at roomy alsoRoomy ⊢
      have grows := after.writeFrom_grows marks (max line after.tokenLine)
        (scratch.append (token.encode count))
      have alsoGrows := after'.writeFrom_grows marks (max line after.tokenLine)
        (scratch'.append (token'.encode count))
      have sameRoom : (scratch.append (token.encode count)).room =
          (scratch'.append (token'.encode count)).room := by
        rw [Scratch.append_room, Scratch.append_room, room, alike.encode_length]
      obtain ⟨last, same⟩ := ih further _ sameRoom roomy alsoRoomy
        (Nat.le_trans grows.size_le roomy) (Nat.le_trans alsoGrows.size_le alsoRoomy)
      have alikeLast := alike.grows (after.next_grows.trans grows) (after'.next_grows.trans alsoGrows)
      refine ⟨last, same.imp ?_⟩
      rintro _ _ ⟨more, more', rfl, rfl, -, rest⟩
      refine ⟨_, _, scratch.append_append _ _, scratch'.append_append _ _, ?_,
        alikeLast.encode_cons count rest⟩
      rw [List.length_append]
      exact Nat.add_pos_left (token.length_encode_pos count) _
    · simp only [if_neg fits, ← further.file, ← further.line]
      exact ⟨further, .error _⟩

/-- Twins are packed alike into equal room. -/
theorem pack (twins : one.Twins other) (marks : Bool) {quota quota' : Quota}
    (free : quota.free = quota'.free)
    (roomy : (one.pack marks quota).scanner.vocabulary.size ≤ 2 ^ 32)
    (alsoRoomy : (other.pack marks quota').scanner.vocabulary.size ≤ 2 ^ 32) :
    SameVerdict (fun tape tape' => tape.size = tape'.size ∧
        Tape.SameButHandles (one.pack marks quota).scanner.vocabulary
          (other.pack marks quota').scanner.vocabulary tape.bytes tape'.bytes)
      (one.pack marks quota).result (other.pack marks quota').result := by
  have words := pack_scanner one marks quota
  have alsoWords := pack_scanner other marks quota'
  rw [words] at roomy ⊢
  rw [alsoWords, ← twins.line, ← free] at alsoRoomy ⊢
  obtain ⟨last, same⟩ := twins.writeFrom marks one.line rfl roomy alsoRoomy
  match wrote : one.writeFrom marks one.line (.empty quota.free),
      alsoWrote : other.writeFrom marks one.line (.empty quota.free) with
  | (verdict, after), (verdict', after') =>
    rw [wrote, alsoWrote] at last same
    dsimp only at last same ⊢
    cases same with
    | error diagnosis =>
      rw [(pack_of_failed marks quota (congrArg Prod.fst wrote)).1,
        (pack_of_failed marks quota' (by rw [← twins.line, ← free, alsoWrote])).1]
      exact .error diagnosis
    | ok values =>
      obtain ⟨bytes, bytes', rfl, rfl, some, rest⟩ := values
      have length := rest.length_eq
      rw [pack_of_written marks quota some wrote,
        pack_of_written marks quota' (length ▸ some) (by rw [← twins.line, ← free, alsoWrote]),
        ← length, ← free]
      split
      · exact .ok ⟨length, rest⟩
      · rw [last.file, last.line]
        exact .error _

end Twins
end Scanner

namespace Lexer

theorem size_known_le (before between : List String) (settings : Settings) :
    ((ofVocabulary (Vocabulary.empty.internAll before) settings).2.internAll between).size ≤
      before.length + Keyword.all.length + between.length := by
  have first := Vocabulary.empty.size_internAll_le before
  have empty : Vocabulary.empty.size = 0 := rfl
  have built := size_ofVocabulary_le (Vocabulary.empty.internAll before) settings
  have last := (ofVocabulary (Vocabulary.empty.internAll before) settings).2.size_internAll_le between
  omega

/-- Two lexers built over vocabularies with any words in them, be there more words or not, scan the same
input in step: whatever they are asked, they give the same tokens or failures on the same lines, but
for handles, which name the same texts. Packing the input with equal free space comes to the same, and
the two tapes are equal in length and differ in the bytes of handles at most. All this holds as long as
handles have not run out. -/
theorem analyse_forgets_prior_words (before between before' between' : List String)
    (settings settings' : Settings) (file text : String) (source : LineSource) :
    let built := ofVocabulary (Vocabulary.empty.internAll before) settings
    let built' := ofVocabulary (Vocabulary.empty.internAll before') settings'
    let known := built.2.internAll between
    let known' := built'.2.internAll between'
    (∀ asks : List Ask,
      let given := (built.1.scanner known file text source).askAll asks
      let given' := (built'.1.scanner known' file text source).askAll asks
      given.2.vocabulary.size ≤ 2 ^ 32 → given'.2.vocabulary.size ≤ 2 ^ 32 →
        List.Forall₂ (Option.Rel (SameVerdict (Token.Alike given.2.vocabulary given'.2.vocabulary)))
            given.1 given'.1 ∧
          given.2.line = given'.2.line ∧ given.2.tokenLine = given'.2.tokenLine) ∧
    (∀ quota quota' : Quota, quota.free = quota'.free → settings.lineMarks = settings'.lineMarks →
      let analysis := { built.1 with quota := quota }.analyse known file text source
      let analysis' := { built'.1 with quota := quota' }.analyse known' file text source
      analysis.vocabulary.size ≤ 2 ^ 32 → analysis'.vocabulary.size ≤ 2 ^ 32 →
        SameVerdict (fun tape tape' => tape.size = tape'.size ∧
            Tape.SameButHandles analysis.vocabulary analysis'.vocabulary tape.bytes tape'.bytes)
          analysis.result analysis'.result) := by
  have fits := ReservedWords.Fits.of_built (Vocabulary.empty_consistent.internAll before) settings
  have fits' := ReservedWords.Fits.of_built (Vocabulary.empty_consistent.internAll before') settings'
  have set := (settings_ofVocabulary (Vocabulary.empty.internAll before) settings).1
  have set' := (settings_ofVocabulary (Vocabulary.empty.internAll before') settings').1
  generalize ofVocabulary (Vocabulary.empty.internAll before) settings = built at fits set ⊢
  generalize ofVocabulary (Vocabulary.empty.internAll before') settings' = built' at fits' set' ⊢
  intro _ _ known known'
  have twins : (built.1.scanner known file text source).Twins
      (built'.1.scanner known' file text source) :=
    ⟨rfl, rfl, rfl, fits.internAll between, fits'.internAll between'⟩
  constructor
  · intro asks given given' roomy roomy'
    obtain ⟨same, later⟩ := twins.askAll asks roomy roomy'
    exact ⟨same, later.line, later.tokenLine⟩
  · intro quota quota' free marks
    rw [← set, ← set'] at marks
    simp only [analyse]
    rw [← marks]
    exact twins.pack built.1.settings.lineMarks free

/-- A keyword and an identifier that one of the vocabularies knew before. -/
theorem analyse_forgets_known_keyword :
    let built := ofVocabulary (Vocabulary.empty.internAll []) .standard
    let built' := ofVocabulary (Vocabulary.empty.internAll ["x", "while"]) .standard
    let known := built.2.internAll []
    let known' := built'.2.internAll ["y"]
    let given := (built.1.scanner known "t.c" "while x \"y\"" []).askAll [.next, .step]
    let given' := (built'.1.scanner known' "t.c" "while x \"y\"" []).askAll [.next, .step]
    let analysis := { built.1 with quota := ⟨64, 0⟩ }.analyse known "t.c" "while x \"y\"" []
    let analysis' := { built'.1 with quota := ⟨96, 32⟩ }.analyse known' "t.c" "while x \"y\"" []
    (given.2.vocabulary.size ≤ 2 ^ 32 ∧ given'.2.vocabulary.size ≤ 2 ^ 32 ∧
      List.Forall₂ (Option.Rel (SameVerdict (Token.Alike given.2.vocabulary given'.2.vocabulary)))
        given.1 given'.1) ∧
    analysis.vocabulary.size ≤ 2 ^ 32 ∧ analysis'.vocabulary.size ≤ 2 ^ 32 ∧
      SameVerdict (fun tape tape' => tape.size = tape'.size ∧
          Tape.SameButHandles analysis.vocabulary analysis'.vocabulary tape.bytes tape'.bytes)
        analysis.result analysis'.result := by
  intro built built' known known' given given' analysis analysis'
  have forgets := analyse_forgets_prior_words [] [] ["x", "while"] ["y"] .standard .standard "t.c"
    "while x \"y\"" []
  have size : known.size ≤ 0 + 25 + 0 := size_known_le [] [] .standard
  have size' : known'.size ≤ 2 + 25 + 1 := size_known_le ["x", "while"] ["y"] .standard
  have text : (Reader.start "while x \"y\"" []).remaining = 11 := by decide +kernel
  have given_le : given.2.vocabulary.size ≤ known.size + 11 :=
    text ▸ Nat.le_trans (Nat.le_add_right _ _) (Scanner.size_askAll_le _ _)
  have given'_le : given'.2.vocabulary.size ≤ known'.size + 11 :=
    text ▸ Nat.le_trans (Nat.le_add_right _ _) (Scanner.size_askAll_le _ _)
  have analysis_le : analysis.vocabulary.size ≤ known.size + 11 :=
    text ▸ Scanner.size_pack_le _ _ _
  have analysis'_le : analysis'.vocabulary.size ≤ known'.size + 11 :=
    text ▸ Scanner.size_pack_le _ _ _
  have roomy : given.2.vocabulary.size ≤ 2 ^ 32 := by omega
  have roomy' : given'.2.vocabulary.size ≤ 2 ^ 32 := by omega
  have packed : analysis.vocabulary.size ≤ 2 ^ 32 := by omega
  have packed' : analysis'.vocabulary.size ≤ 2 ^ 32 := by omega
  exact ⟨⟨roomy, roomy', (forgets.1 [.next, .step] roomy roomy').1⟩, packed, packed',
    forgets.2 ⟨64, 0⟩ ⟨96, 32⟩ rfl rfl packed packed'⟩

end Lexer
end TokenTape
