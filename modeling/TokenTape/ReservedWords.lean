import TokenTape.Kind.Keyword
import TokenTape.Vocabulary
/-!
The keywords of the language as words of one vocabulary. After the table is built, a
keyword is recognised by its handle alone. The table may be built over any vocabulary and
in any order of the keywords; the order decides only which handles new spellings receive.
-/
namespace TokenTape

/-- The handle under which each keyword is known. -/
structure ReservedWords where
  entries : List (Word × Keyword)
  deriving Repr

namespace ReservedWords

/-- Interns the spellings in the order given and records their handles. -/
def build : List Keyword → Vocabulary → ReservedWords × Vocabulary
  | [], vocabulary => (⟨[]⟩, vocabulary)
  | keyword :: rest, vocabulary =>
    let (word, vocabulary) := vocabulary.intern keyword.spelling
    let (table, vocabulary) := build rest vocabulary
    (⟨(word, keyword) :: table.entries⟩, vocabulary)

/-- The table of all keywords over a vocabulary, which new spellings enter in alphabetical
order. -/
def ofVocabulary (vocabulary : Vocabulary) : ReservedWords × Vocabulary :=
  build Keyword.alphabetical vocabulary

/-- The keyword that a handle stands for. -/
def lookup? (table : ReservedWords) (word : Word) : Option Keyword :=
  table.entries.lookup word

/-- How many keywords the table knows. -/
def size (table : ReservedWords) : Nat := table.entries.length

end ReservedWords
end TokenTape
