import TokenTape.Tape.Packing
/-!
A lexer packs whole source units into tapes. It owns a quota and a table of reserved words;
the vocabulary is passed in and out, so that several lexers may share one and agree on the
handle of every spelling.
-/
namespace TokenTape

/-- How a lexer is set up. -/
structure Settings where
  /-- How many bytes of tape may be kept, scratch memory included. -/
  capacity : Nat
  /-- Whether tapes carry line marks. -/
  lineMarks : Bool
  deriving DecidableEq, Repr

/-- One mebibyte and no line marks. -/
def Settings.standard : Settings := ⟨1048576, false⟩

/-- What a lexer keeps between two source units. -/
structure Lexer where
  settings : Settings
  reserved : ReservedWords
  quota : Quota

/-- What has come of one source unit, and the state it leaves behind. -/
structure Analysis where
  result : Except Diagnosis Tape
  lexer : Lexer
  vocabulary : Vocabulary

namespace Lexer

/-- A lexer over a vocabulary, which the reserved words enter. -/
def ofVocabulary (vocabulary : Vocabulary) (settings : Settings) : Lexer × Vocabulary :=
  let (reserved, vocabulary) := ReservedWords.ofVocabulary vocabulary
  (⟨settings, reserved, .ofLimit settings.capacity⟩, vocabulary)

/-- A scanner over a text, for those who want tokens one by one. -/
def scanner (lexer : Lexer) (vocabulary : Vocabulary) (file text : String)
    (source : LineSource) : Scanner :=
  .start lexer.reserved vocabulary file text source

/-- Packs a text and what the line source continues it with. -/
def analyse (lexer : Lexer) (vocabulary : Vocabulary) (file text : String)
    (source : LineSource) : Analysis :=
  let packing := (lexer.scanner vocabulary file text source).pack lexer.settings.lineMarks lexer.quota
  ⟨packing.result, { lexer with quota := packing.quota }, packing.scanner.vocabulary⟩

/-- Gives back the bytes of a tape that is no longer kept. -/
def discard (lexer : Lexer) (tape : Tape) : Lexer :=
  { lexer with quota := lexer.quota.release tape.size }

end Lexer
end TokenTape
