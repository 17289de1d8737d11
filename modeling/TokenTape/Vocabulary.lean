import Std.Data.HashMap
/-!
A vocabulary keeps every distinct text once and names it by a word, a 32-bit handle.
Texts are numbered from zero in the order of their first appearance, so a word that has
been handed out keeps its text for good.
-/
namespace TokenTape

/-- The handle of a text in some vocabulary. -/
structure Word where
  raw : UInt32
  deriving DecidableEq, Repr

namespace Word

/-- The handle of the text at a position. -/
def ofIndex (index : Nat) : Word := ⟨index.toUInt32⟩

/-- The position that the handle names. -/
def index (word : Word) : Nat := word.raw.toNat

/-- The text by which a handle is shown to a reader. -/
def debugText (word : Word) : String := s!"Word({word.raw.toNat})"

end Word

/-- The texts seen so far, by position and by spelling. -/
structure Vocabulary where
  /-- The texts in the order of their first appearance. -/
  texts : Array String
  /-- The handle of each text. -/
  handles : Std.HashMap String Word

namespace Vocabulary

/-- A vocabulary without a text. -/
def empty : Vocabulary := ⟨#[], ∅⟩

/-- How many texts there are. -/
def size (vocabulary : Vocabulary) : Nat := vocabulary.texts.size

/-- The handle of a text, if the text has been seen. -/
def find? (vocabulary : Vocabulary) (text : String) : Option Word :=
  vocabulary.handles[text]?

/-- The text of a handle, if the handle has been given out here. -/
def text? (vocabulary : Vocabulary) (word : Word) : Option String :=
  vocabulary.texts[word.index]?

/-- The handle of a text, which enters the vocabulary if it is new. -/
def intern : Vocabulary → String → Word × Vocabulary
  | ⟨texts, handles⟩, text =>
    match handles[text]? with
    | some word => (word, ⟨texts, handles⟩)
    | none =>
      let word := Word.ofIndex texts.size
      (word, ⟨texts.push text, handles.insert text word⟩)

/-- Lets a list of texts enter one after the other. -/
def internAll (vocabulary : Vocabulary) (texts : List String) : Vocabulary :=
  texts.foldl (fun known text => (known.intern text).2) vocabulary

/-- The text by which a vocabulary is shown to a reader. -/
def debugText (vocabulary : Vocabulary) : String :=
  s!"Interner \x7b len: {vocabulary.size} \x7d"

/-- A known text keeps its handle and changes nothing. -/
theorem intern_of_find? {vocabulary : Vocabulary} {text : String} {word : Word}
    (known : vocabulary.find? text = some word) :
    vocabulary.intern text = (word, vocabulary) := by
  unfold find? at known
  simp [intern, known]

/-- A new text receives the next position. -/
theorem intern_of_find?_eq_none {vocabulary : Vocabulary} {text : String}
    (unknown : vocabulary.find? text = none) :
    (vocabulary.intern text).1 = Word.ofIndex vocabulary.size ∧
      (vocabulary.intern text).2.texts = vocabulary.texts.push text := by
  unfold find? at unknown
  simp [intern, unknown, size]

end Vocabulary

/-- A handle was asked for in a vocabulary that never gave it out. -/
structure UnknownWord where
  word : Word
  deriving DecidableEq, Repr

/-- What is told about a handle that was never given out. -/
def UnknownWord.message (unknown : UnknownWord) : String :=
  s!"{unknown.word.debugText} was not interned here"

/-- The text of a handle, or the reason why there is none. -/
def Vocabulary.resolve (vocabulary : Vocabulary) (word : Word) : Except UnknownWord String :=
  match vocabulary.text? word with
  | some text => .ok text
  | none => .error ⟨word⟩

end TokenTape
