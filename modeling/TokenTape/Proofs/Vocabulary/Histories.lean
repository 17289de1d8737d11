import Mathlib.Data.List.Forall2
import Mathlib.Data.List.Nodup
import TokenTape.Proofs.Vocabulary.Handles
/-!
Histories of a vocabulary. It is asked for handles, texts and tables of reserved words in any order, and
only new texts change it. Whatever it has been asked for, its array of texts and its map of handles are each
other's inverse as long as there are fewer texts than handles, and every answer stays right
(`Vocabulary.words_name_texts`). A table of reserved words may be built at any time: it knows the keywords by
handles that its vocabulary keeps for good, so a word is recognised by its handle just when it is spelled
like a keyword, however late it comes (`ReservedWords.recognised_by_handle`).
-/
namespace TokenTape

namespace Vocabulary

/-- What a vocabulary is asked for. -/
inductive Call where
  | intern (text : String)
  | find (text : String)
  | resolve (word : Word)
  /-- A table of reserved words, whose spellings enter in the order given. -/
  | reserve (order : List Keyword)

/-- What it answers. -/
inductive Answer where
  | given (word : Word)
  | found (word : Option Word)
  | told (text : Option String)
  | built (table : ReservedWords)

/-- The answer to a call, and the vocabulary behind it. -/
def call (vocabulary : Vocabulary) : Call → Answer × Vocabulary
  | .intern text =>
    let (word, vocabulary) := vocabulary.intern text
    (.given word, vocabulary)
  | .find text => (.found (vocabulary.find? text), vocabulary)
  | .resolve word => (.told (vocabulary.text? word), vocabulary)
  | .reserve order =>
    let (table, vocabulary) := ReservedWords.build order vocabulary
    (.built table, vocabulary)

/-- The answers to calls made one after the other. -/
def callAll (vocabulary : Vocabulary) : List Call → List Answer × Vocabulary
  | [] => ([], vocabulary)
  | call :: calls =>
    let (answer, vocabulary) := vocabulary.call call
    let (answers, vocabulary) := vocabulary.callAll calls
    (answer :: answers, vocabulary)

theorem call_grows (vocabulary : Vocabulary) (call : Call) :
    vocabulary.Grows (vocabulary.call call).2 := by
  cases call with
  | intern text => exact vocabulary.intern_grows text
  | find text => exact .refl vocabulary
  | resolve word => exact .refl vocabulary
  | reserve order => exact ReservedWords.build_grows order vocabulary

/-- How many new texts a call can bring. -/
def Call.texts : Call → Nat
  | .intern _ => 1
  | .find _ => 0
  | .resolve _ => 0
  | .reserve order => order.length

/-- How many new texts calls can bring. -/
def Call.textsOf : List Call → Nat
  | [] => 0
  | call :: calls => call.texts + textsOf calls

theorem size_call_le (vocabulary : Vocabulary) (call : Call) :
    (vocabulary.call call).2.size ≤ vocabulary.size + call.texts := by
  cases call with
  | intern text => exact vocabulary.size_intern_le text
  | find text => exact Nat.le_refl _
  | resolve word => exact Nat.le_refl _
  | reserve order => exact ReservedWords.size_build_le order vocabulary

theorem Consistent.call {vocabulary : Vocabulary} (consistent : vocabulary.Consistent) (call : Call) :
    (vocabulary.call call).2.Consistent := by
  cases call with
  | intern text => exact consistent.intern text
  | find text => exact consistent
  | resolve word => exact consistent
  | reserve order => exact ReservedWords.build_consistent order consistent

theorem callAll_grows (vocabulary : Vocabulary) (calls : List Call) :
    vocabulary.Grows (vocabulary.callAll calls).2 := by
  induction calls generalizing vocabulary with
  | nil => exact .refl vocabulary
  | cons call calls ih => exact (vocabulary.call_grows call).trans (ih _)

theorem size_callAll_le (vocabulary : Vocabulary) (calls : List Call) :
    (vocabulary.callAll calls).2.size ≤ vocabulary.size + Call.textsOf calls := by
  induction calls generalizing vocabulary with
  | nil => exact Nat.le_refl _
  | cons call calls ih =>
    have first := vocabulary.size_call_le call
    have rest : (vocabulary.callAll (call :: calls)).2.size ≤ _ := ih (vocabulary.call call).2
    rw [Call.textsOf]
    omega

theorem Consistent.callAll {vocabulary : Vocabulary} (consistent : vocabulary.Consistent)
    (calls : List Call) : (vocabulary.callAll calls).2.Consistent := by
  induction calls generalizing vocabulary with
  | nil => exact consistent
  | cons call calls ih => exact ih (consistent.call call)

/-- What an answer says of a vocabulary. That something was not known yet says nothing later on. -/
inductive Bears (vocabulary : Vocabulary) : Call → Answer → Prop
  | intern {text : String} {word : Word} (named : vocabulary.text? word = some text) :
      Bears vocabulary (.intern text) (.given word)
  | found {text : String} {word : Word} (named : vocabulary.text? word = some text) :
      Bears vocabulary (.find text) (.found (some word))
  | unknown (text : String) : Bears vocabulary (.find text) (.found none)
  | told {word : Word} {text : String} (named : vocabulary.text? word = some text) :
      Bears vocabulary (.resolve word) (.told (some text))
  | unissued (word : Word) : Bears vocabulary (.resolve word) (.told none)
  | built {order : List Keyword} {table : ReservedWords}
      (listed : table.entries.map Prod.snd = order)
      (named : ∀ entry ∈ table.entries, vocabulary.text? entry.1 = some entry.2.spelling) :
      Bears vocabulary (.reserve order) (.built table)

theorem Bears.grows {before after : Vocabulary} (grows : before.Grows after) {call : Call}
    {answer : Answer} (bears : before.Bears call answer) : after.Bears call answer := by
  cases bears with
  | intern named => exact .intern (grows.text? named)
  | found named => exact .found (grows.text? named)
  | unknown text => exact .unknown text
  | told named => exact .told (grows.text? named)
  | unissued word => exact .unissued word
  | built listed named => exact .built listed fun entry member => grows.text? (named entry member)

/-- An answer is right when it is given. -/
theorem call_bears {vocabulary : Vocabulary} (consistent : vocabulary.Consistent) (call : Call)
    (roomy : (vocabulary.call call).2.size ≤ 2 ^ 32) :
    (vocabulary.call call).2.Bears call (vocabulary.call call).1 := by
  cases call with
  | intern text => exact .intern (text?_intern consistent roomy)
  | find text =>
    match known : vocabulary.find? text with
    | some word =>
      simp only [Vocabulary.call, known]
      exact .found ((consistent.find?_eq_some_iff roomy).mp known)
    | none =>
      simp only [Vocabulary.call, known]
      exact .unknown text
  | resolve word =>
    match named : vocabulary.text? word with
    | some text =>
      simp only [Vocabulary.call, named]
      exact .told named
    | none =>
      simp only [Vocabulary.call, named]
      exact .unissued word
  | reserve order =>
    exact .built (ReservedWords.build_entries order consistent).1
      (ReservedWords.build_named order consistent roomy)

/-- All answers of a history stay right to its end. -/
theorem callAll_bears {vocabulary : Vocabulary} (consistent : vocabulary.Consistent) (calls : List Call)
    (roomy : (vocabulary.callAll calls).2.size ≤ 2 ^ 32) :
    List.Forall₂ (vocabulary.callAll calls).2.Bears calls (vocabulary.callAll calls).1 := by
  induction calls generalizing vocabulary with
  | nil => exact .nil
  | cons call calls ih =>
    have grows := (vocabulary.call call).2.callAll_grows calls
    have given := call_bears consistent call (Nat.le_trans grows.size_le roomy)
    exact .cons (given.grows grows) (ih (consistent.call call) roomy)

theorem size_intern {vocabulary : Vocabulary} {text : String} (unknown : vocabulary.find? text = none) :
    (vocabulary.intern text).2.size = vocabulary.size + 1 := by
  rw [size, (intern_of_find?_eq_none unknown).2, Array.size_push]
  rfl

/-- What every history of an empty vocabulary leads to, as long as there are fewer texts than handles. No
text is kept twice, the handles given out are the numbers below the count of texts, and looking for a text
and asking for the text of a handle are inverse to each other. All answers are right in the end, so two
texts were given the same handle just when they are the same. One more text is named by the handle that it
is given and leaves all handles their texts; it becomes the last of the texts if it was missing, and changes
nothing if it was there. -/
theorem words_name_texts (calls : List Call) :
    let answers := (empty.callAll calls).1
    let vocabulary := (empty.callAll calls).2
    vocabulary.size < 2 ^ 32 →
      vocabulary.texts.toList.Nodup ∧
      (∀ index, index < vocabulary.size ↔
        ∃ word text, word.index = index ∧ vocabulary.text? word = some text) ∧
      (∀ text word, vocabulary.find? text = some word ↔ vocabulary.text? word = some text) ∧
      List.Forall₂ vocabulary.Bears calls answers ∧
      (∀ first second one other, (.intern first, .given one) ∈ calls.zip answers →
        (.intern second, .given other) ∈ calls.zip answers → (one = other ↔ first = second)) ∧
      ∀ text,
        let word := (vocabulary.intern text).1
        let later := (vocabulary.intern text).2
        later.text? word = some text ∧
        (∀ handle known, vocabulary.text? handle = some known → later.text? handle = some known) ∧
        (vocabulary.find? text = none →
          later.texts = vocabulary.texts.push text ∧ later.size = vocabulary.size + 1) ∧
        ∀ handle, vocabulary.find? text = some handle → word = handle ∧ later = vocabulary := by
  intro answers vocabulary small
  have consistent : vocabulary.Consistent := empty_consistent.callAll calls
  have roomy : vocabulary.size ≤ 2 ^ 32 := Nat.le_of_lt small
  have inverse {text : String} {word : Word} :
      vocabulary.find? text = some word ↔ vocabulary.text? word = some text :=
    consistent.find?_eq_some_iff roomy
  have bears : List.Forall₂ vocabulary.Bears calls answers := callAll_bears empty_consistent calls roomy
  refine ⟨consistent.nodup roomy, ?numbered, fun _ _ => inverse, bears, ?apart, ?further⟩
  case numbered =>
    intro index
    constructor
    · intro inside
      have number := Word.index_ofIndex (Nat.lt_trans inside small)
      refine ⟨.ofIndex index, vocabulary.texts[index], number, ?_⟩
      rw [text?, number]
      exact Array.getElem?_eq_getElem inside
    · rintro ⟨word, text, rfl, named⟩
      exact (Array.getElem?_eq_some_iff.mp named).1
  case apart =>
    intro first second one other given alsoGiven
    have named {text : String} {word : Word} (given : (.intern text, .given word) ∈ calls.zip answers) :
        vocabulary.text? word = some text := by
      cases (List.forall₂_iff_zip.mp bears).2 given with
      | intern named => exact named
    constructor
    · rintro rfl
      exact Option.some.inj ((named given).symm.trans (named alsoGiven))
    · rintro rfl
      exact Option.some.inj ((inverse.mpr (named given)).symm.trans (inverse.mpr (named alsoGiven)))
  case further =>
    intro text
    have room : (vocabulary.intern text).2.size ≤ 2 ^ 32 :=
      Nat.le_trans (vocabulary.size_intern_le text) small
    refine ⟨text?_intern consistent room, ?_, ?_, ?_⟩
    · intro handle known named
      exact (vocabulary.intern_grows text).text? named
    · intro unknown
      exact ⟨(intern_of_find?_eq_none unknown).2, size_intern unknown⟩
    · intro handle known
      rw [intern_of_find? known]
      exact ⟨rfl, rfl⟩

/-- A keyword that was there before a table of reserved words, a handle that was never given out, and a text
that is asked for again. -/
theorem words_name_texts_among_keywords :
    let calls : List Call := [.intern "if", .reserve [.int, .ifWord], .resolve ⟨9⟩, .intern "x"]
    let vocabulary := (empty.callAll calls).2
    vocabulary.size < 2 ^ 32 ∧ vocabulary.texts.toList.Nodup ∧
      ∃ word, vocabulary.find? "x" = some word ∧ vocabulary.text? word = some "x" ∧
        vocabulary.intern "x" = (word, vocabulary) := by
  intro calls vocabulary
  have small : vocabulary.size < 2 ^ 32 := by
    have few : vocabulary.size ≤ 0 + 4 := size_callAll_le empty calls
    omega
  have known : vocabulary.find? "x" = some _ := find?_intern _ "x"
  obtain ⟨distinct, -, inverse, -, -, further⟩ := words_name_texts calls small
  obtain ⟨same, kept⟩ := (further "x").2.2.2 _ known
  exact ⟨small, distinct, _, known, (inverse _ _).mp known, Prod.ext same kept⟩

end Vocabulary

namespace ReservedWords

/-- Two keywords of a table have different handles, as long as handles have not run out. -/
theorem build_handles_nodup {order : List Keyword} (distinct : order.Nodup) {vocabulary : Vocabulary}
    (consistent : vocabulary.Consistent) (roomy : (build order vocabulary).2.size ≤ 2 ^ 32) :
    ((build order vocabulary).1.entries.map Prod.fst).Nodup := by
  have listed := (build_entries order consistent).1
  have named := build_named order consistent roomy
  generalize build order vocabulary = built at *
  have texts : (built.1.entries.map Prod.fst).map built.2.text? =
      (built.1.entries.map Prod.snd).map fun keyword => some keyword.spelling := by
    rw [List.map_map, List.map_map]
    exact List.map_congr_left named
  have apart : Function.Injective fun keyword : Keyword => some keyword.spelling :=
    fun _ _ same => Keyword.spelling_inj (Option.some.inj same)
  rw [listed] at texts
  refine List.Nodup.of_map built.2.text? ?_
  rw [texts]
  exact distinct.map apart

/-- Recognition by handle. A table of reserved words may be built at any time over a vocabulary that has been
asked for anything before, further tables among it, and in any order of the keywords. Whatever the
vocabulary is asked for later, a text is taken for a keyword by its handle just when it is spelled like one,
as long as it gets a handle, and a handle that has no text is never taken for one. Just the spellings that
were missing become new texts, each keyword has one entry, and no two have the same handle. -/
theorem recognised_by_handle (before after : List Vocabulary.Call) {order : List Keyword}
    (every : order.Perm Keyword.all) :
    let vocabulary := (Vocabulary.empty.callAll before).2
    let table := (build order vocabulary).1
    let reserved := (build order vocabulary).2
    let later := (reserved.callAll after).2
    (∀ spelling, (later.intern spelling).2.size ≤ 2 ^ 32 →
      table.lookup? (later.intern spelling).1 = Keyword.ofSpelling? spelling) ∧
    (later.size ≤ 2 ^ 32 →
      (∀ word, later.text? word = none → table.lookup? word = none) ∧
      ∀ word text, later.text? word = some text → table.lookup? word = Keyword.ofSpelling? text) ∧
    reserved.texts.toList = vocabulary.texts.toList ++
      (order.filter fun keyword => (vocabulary.find? keyword.spelling).isNone).map Keyword.spelling ∧
    table.entries.map Prod.snd = order ∧ table.size = Keyword.all.length ∧
    (order.map Keyword.spelling).Nodup ∧
    (reserved.size ≤ 2 ^ 32 → (table.entries.map Prod.fst).Nodup) := by
  intro vocabulary table reserved later
  have consistent : vocabulary.Consistent := Vocabulary.empty_consistent.callAll before
  have laterConsistent : later.Consistent := (build_consistent order consistent).callAll after
  have complete (keyword : Keyword) : keyword ∈ order :=
    every.mem_iff.mpr keyword.mem_all
  have distinct : order.Nodup := every.nodup_iff.mpr (by decide)
  have describes : table.Describes later :=
    (build_describes complete consistent).grows (reserved.callAll_grows after)
  have listed : table.entries.map Prod.snd = order := (build_entries order consistent).1
  refine ⟨?_, ?_, build_texts distinct vocabulary, listed, ?_, ?_, ?_⟩
  · intro spelling room
    exact lookup?_intern laterConsistent describes room
  · intro roomy
    have looked := lookup?_eq laterConsistent describes roomy
    constructor
    · intro word unissued
      rw [looked, unissued]
      rfl
    · intro word text named
      rw [looked, named]
      rfl
  · have count := congrArg List.length listed
    rw [List.length_map] at count
    exact count.trans every.length_eq
  · have apart : Function.Injective Keyword.spelling := fun _ _ => Keyword.spelling_inj
    exact distinct.map apart
  · exact build_handles_nodup distinct consistent

/-- A keyword that was there before, all keywords in reverse, and another table and a word that is almost a
keyword behind them. -/
theorem recognised_by_handle_among_tables :
    let vocabulary := (Vocabulary.empty.callAll [.intern "x", .intern "while"]).2
    let order := Keyword.all.reverse
    let table := (build order vocabulary).1
    let later := ((build order vocabulary).2.callAll [.reserve Keyword.alphabetical, .intern "whilst"]).2
    order.Perm Keyword.all ∧ table.size = 25 ∧ later.size < 2 ^ 32 ∧
      table.lookup? (later.intern "while").1 = some .whileWord ∧
      table.lookup? (later.intern "whilst").1 = none := by
  intro vocabulary order table later
  have every : order.Perm Keyword.all := List.reverse_perm _
  have small : later.size < 2 ^ 32 := by
    have first : vocabulary.size ≤ 0 + 2 := Vocabulary.size_callAll_le _ _
    have second : (build order vocabulary).2.size ≤ vocabulary.size + 25 := size_build_le order vocabulary
    have third : later.size ≤ (build order vocabulary).2.size + 26 := Vocabulary.size_callAll_le _ _
    omega
  have room (spelling : String) : (later.intern spelling).2.size ≤ 2 ^ 32 :=
    Nat.le_trans (later.size_intern_le spelling) small
  obtain ⟨recognised, -, -, -, size, -⟩ := recognised_by_handle [.intern "x", .intern "while"]
    [.reserve Keyword.alphabetical, .intern "whilst"] every
  exact ⟨every, size, small, (recognised _ (room _)).trans (by decide),
    (recognised _ (room _)).trans (by decide)⟩

end ReservedWords
end TokenTape
