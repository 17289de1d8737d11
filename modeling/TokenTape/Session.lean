import TokenTape.Lexer
import TokenTape.Tape.Cursor
/-!
A session holds several lexers over one vocabulary and the tapes that are kept under names.
A kept tape counts against the quota of the lexer that made it, until it is dropped or
another tape takes its name.
-/
namespace TokenTape

/-- A tape kept under a name, and the number of the lexer that made it. -/
structure KeptTape where
  name : String
  owner : Nat
  tape : Tape

/-- Lexers over one vocabulary, and the tapes they have made. -/
structure Session where
  vocabulary : Vocabulary
  lexers : Array Lexer
  kept : List KeptTape

/-- What a session is asked to do. Lexers are given by number. -/
inductive Request where
  /-- Pack a source unit and keep its tape, if a name is given. -/
  | analyse (lexer : Nat) (file text : String) (source : LineSource) (name : Option String)
  /-- Stop keeping a tape. -/
  | drop (name : String)
  /-- Read a kept tape from an offset, counting from a line. -/
  | replay (name : String) (offset line : Nat)
  /-- Scan a text without packing it. -/
  | scan (lexer : Nat) (file text : String)
  | intern (text : String)
  | find (text : String)
  | lookup (lexer : Nat) (word : Word)
  /-- Commit bytes that are no tape. -/
  | commit (lexer : Nat) (bytes : List UInt8)
  | release (lexer : Nat) (size : Nat)

/-- What a session answers. -/
inductive Response where
  | packed (tape : Tape)
  | failed (diagnosis : Diagnosis)
  /-- Whether there was a tape to drop. -/
  | dropped (found : Bool)
  | replayed (reports : List Cursor.Report)
  | scanned (reports : List Scanner.Report)
  | word (word : Word)
  | found (word : Option Word)
  | keyword (keyword : Option Keyword)
  /-- The bytes that are now kept, unless they did not fit. -/
  | committed (bytes : Option (List UInt8))
  | released
  /-- There is no lexer of that number, or no tape of that name. -/
  | missing

namespace Session

/-- Makes the lexers one after the other over one vocabulary. -/
def start (vocabulary : Vocabulary) (settings : List Settings) : Session :=
  let (lexers, vocabulary) := settings.foldl
    (fun (lexers, vocabulary) settings =>
      let (lexer, vocabulary) := Lexer.ofVocabulary vocabulary settings
      (lexers.push lexer, vocabulary))
    (#[], vocabulary)
  ⟨vocabulary, lexers, []⟩

/-- The tape kept under a name. -/
def kept? (session : Session) (name : String) : Option KeptTape :=
  session.kept.find? (·.name == name)

/-- Stops keeping the tape of a name and gives its bytes back to the lexer that made it. -/
def drop (session : Session) (name : String) : Session :=
  match session.kept? name with
  | none => session
  | some kept =>
    { session with
      lexers := session.lexers.modify kept.owner (·.discard kept.tape)
      kept := session.kept.filter (·.name != name) }

/-- Keeps a tape under a name in place of the one that had it before. -/
def keep (session : Session) (kept : KeptTape) : Session :=
  let session := session.drop kept.name
  { session with kept := kept :: session.kept }

/-- Packs a source unit with one lexer. A tape without a name is given up at once. -/
def analyse (session : Session) (number : Nat) (file text : String) (source : LineSource)
    (name : Option String) : Response × Session :=
  let ⟨vocabulary, lexers, kept⟩ := session
  match lexers[number]? with
  | none => (.missing, ⟨vocabulary, lexers, kept⟩)
  | some lexer =>
    let analysis := lexer.analyse vocabulary file text source
    let session : Session := ⟨analysis.vocabulary, lexers.modify number fun _ => analysis.lexer, kept⟩
    match analysis.result with
    | .error diagnosis => (.failed diagnosis, session)
    | .ok tape =>
      match name with
      | some name => (.packed tape, session.keep ⟨name, number, tape⟩)
      | none =>
        (.packed tape, { session with lexers := session.lexers.modify number (·.discard tape) })

/-- Scans a text with one lexer to its end or to the first failure. -/
def scan (session : Session) (number : Nat) (file text : String) : Response × Session :=
  let ⟨vocabulary, lexers, kept⟩ := session
  match lexers[number]? with
  | none => (.missing, ⟨vocabulary, lexers, kept⟩)
  | some lexer =>
    let (reports, scanner) := (lexer.scanner vocabulary file text []).run
    (.scanned reports, ⟨scanner.vocabulary, lexers, kept⟩)

/-- Commits bytes with one lexer. -/
def commit (session : Session) (number : Nat) (bytes : List UInt8) : Response × Session :=
  match session.lexers[number]? with
  | none => (.missing, session)
  | some lexer =>
    match lexer.quota.commit? bytes.length with
    | none => (.committed none, session)
    | some quota =>
      (.committed (some bytes),
        { session with lexers := session.lexers.modify number ({ · with quota }) })

/-- Carries out a request. -/
def handle (session : Session) : Request → Response × Session
  | .analyse number file text source name => session.analyse number file text source name
  | .drop name => (.dropped (session.kept? name).isSome, session.drop name)
  | .replay name offset line =>
    match session.kept? name with
    | none => (.missing, session)
    | some kept => (.replayed (Cursor.start kept.tape.bytes offset line).run.1, session)
  | .scan number file text => session.scan number file text
  | .intern text =>
    let ⟨vocabulary, lexers, kept⟩ := session
    let (word, vocabulary) := vocabulary.intern text
    (.word word, ⟨vocabulary, lexers, kept⟩)
  | .find text => (.found (session.vocabulary.find? text), session)
  | .lookup number word =>
    match session.lexers[number]? with
    | none => (.missing, session)
    | some lexer => (.keyword (lexer.reserved.lookup? word), session)
  | .commit number bytes => session.commit number bytes
  | .release number size =>
    (.released,
      { session with lexers := session.lexers.modify number fun lexer =>
          { lexer with quota := lexer.quota.release size } })

end Session
end TokenTape
