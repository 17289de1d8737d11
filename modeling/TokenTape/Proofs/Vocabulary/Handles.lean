import Mathlib.Algebra.Group.Nat.Defs
import TokenTape.ReservedWords
/-!
Which text a handle names. A vocabulary gives out the position of a text as its handle, so two texts
share one only after the handles have run out (`Word.ofIndex_inj`). Vocabularies only grow, and a
table of reserved words that was built over one stays right for all that grow from it: as long as
every handle names one text, a word has the handle of a keyword just when it is spelled like it
(`ReservedWords.lookup?_intern`).
-/
namespace TokenTape

/-- Positions below `2 ^ 32` have handles of their own. -/
theorem Word.ofIndex_inj {first second : Nat} (small : first < 2 ^ 32) (alsoSmall : second < 2 ^ 32)
    (same : Word.ofIndex first = Word.ofIndex second) : first = second := by
  have raw : first % 2 ^ 32 = second % 2 ^ 32 := by
    simpa [Word.ofIndex, ← UInt32.toNat_inj] using same
  rwa [Nat.mod_eq_of_lt small, Nat.mod_eq_of_lt alsoSmall] at raw

theorem Word.ofIndex_index (word : Word) : ofIndex word.index = word := by
  simp [ofIndex, index]

theorem Word.index_ofIndex {index : Nat} (small : index < 2 ^ 32) : (ofIndex index).index = index :=
  Nat.mod_eq_of_lt small

namespace Vocabulary

/-- A text is known by the handle of a position at which it stands, and all texts are known. -/
def Consistent (vocabulary : Vocabulary) : Prop :=
  ∀ text word, vocabulary.find? text = some word ↔
    ∃ index, vocabulary.texts[index]? = some text ∧ word = Word.ofIndex index

theorem empty_consistent : empty.Consistent := by
  intro text word
  simp [find?, empty]

/-- Every text stands where it stood before. -/
def Grows (before after : Vocabulary) : Prop := before.texts.toList <+: after.texts.toList

theorem Grows.refl (vocabulary : Vocabulary) : vocabulary.Grows vocabulary := List.prefix_refl _

theorem Grows.trans {first second third : Vocabulary} (before : first.Grows second)
    (after : second.Grows third) : first.Grows third := List.IsPrefix.trans before after

theorem Grows.size_le {before after : Vocabulary} (grows : before.Grows after) :
    before.size ≤ after.size := grows.length_le

theorem Grows.getElem? {before after : Vocabulary} (grows : before.Grows after) {index : Nat}
    {text : String} (stands : before.texts[index]? = some text) :
    after.texts[index]? = some text := by
  obtain ⟨more, whole⟩ := grows
  rw [← Array.getElem?_toList] at stands ⊢
  have inside := (List.getElem?_eq_some_iff.mp stands).1
  rw [← whole, List.getElem?_append_left inside]
  exact stands

theorem Grows.text? {before after : Vocabulary} (grows : before.Grows after) {word : Word}
    {text : String} (named : before.text? word = some text) : after.text? word = some text :=
  grows.getElem? named

theorem intern_grows (vocabulary : Vocabulary) (text : String) :
    vocabulary.Grows (vocabulary.intern text).2 := by
  match known : vocabulary.find? text with
  | some word =>
    rw [intern_of_find? known]
    exact .refl vocabulary
  | none =>
    rw [Grows, (intern_of_find?_eq_none known).2, Array.toList_push]
    exact List.prefix_append _ _

theorem size_intern_le (vocabulary : Vocabulary) (text : String) :
    (vocabulary.intern text).2.size ≤ vocabulary.size + 1 := by
  match known : vocabulary.find? text with
  | some word =>
    rw [intern_of_find? known]
    exact Nat.le_succ _
  | none =>
    rw [size, (intern_of_find?_eq_none known).2, Array.size_push]
    exact Nat.le_refl _

/-- After a text was asked for, it is known by the handle that was given out. -/
theorem find?_intern (vocabulary : Vocabulary) (text : String) :
    (vocabulary.intern text).2.find? text = some (vocabulary.intern text).1 := by
  match known : vocabulary.find? text with
  | some word =>
    rw [intern_of_find? known]
    exact known
  | none =>
    obtain ⟨texts, handles⟩ := vocabulary
    unfold find? at known
    simp [intern, known, find?]

theorem find?_intern_of_ne {vocabulary : Vocabulary} {text other : String} (different : other ≠ text) :
    (vocabulary.intern text).2.find? other = vocabulary.find? other := by
  match known : vocabulary.find? text with
  | some word => rw [intern_of_find? known]
  | none =>
    obtain ⟨texts, handles⟩ := vocabulary
    unfold find? at known ⊢
    simp [intern, known, Std.HashMap.getElem?_insert, different.symm]

theorem Consistent.intern {vocabulary : Vocabulary} (consistent : vocabulary.Consistent)
    (text : String) : (vocabulary.intern text).2.Consistent := by
  match known : vocabulary.find? text with
  | some word =>
    rw [intern_of_find? known]
    exact consistent
  | none =>
    obtain ⟨given, texts⟩ := intern_of_find?_eq_none known
    intro other word
    simp only [texts, Array.getElem?_push]
    by_cases same : other = text
    · subst same
      -- The text stood nowhere before, so it stands at the new position only.
      have absent : ∀ index : Nat, vocabulary.texts[index]? ≠ some other := by
        intro index stands
        rw [(consistent other _).mpr ⟨index, stands, rfl⟩] at known
        cases known
      rw [find?_intern, given, Option.some.injEq]
      constructor
      · rintro rfl
        exact ⟨vocabulary.size, if_pos rfl, rfl⟩
      · rintro ⟨index, stands, rfl⟩
        split at stands
        · next last => rw [last]; rfl
        · exact absurd stands (absent index)
    · rw [find?_intern_of_ne same, consistent other word]
      refine exists_congr fun index => and_congr_left fun _ => ?_
      split
      · next last => simp [last, Ne.symm same]
      · rfl

theorem Consistent.internAll {vocabulary : Vocabulary} (consistent : vocabulary.Consistent)
    (texts : List String) : (vocabulary.internAll texts).Consistent := by
  induction texts generalizing vocabulary with
  | nil => exact consistent
  | cons text texts ih => exact ih (consistent.intern text)

theorem internAll_grows (vocabulary : Vocabulary) (texts : List String) :
    vocabulary.Grows (vocabulary.internAll texts) := by
  induction texts generalizing vocabulary with
  | nil => exact .refl vocabulary
  | cons text texts ih => exact (vocabulary.intern_grows text).trans (ih _)

theorem size_internAll_le (vocabulary : Vocabulary) (texts : List String) :
    (vocabulary.internAll texts).size ≤ vocabulary.size + texts.length := by
  induction texts generalizing vocabulary with
  | nil => exact Nat.le_refl _
  | cons text texts ih =>
    have first := vocabulary.size_intern_le text
    have rest : (vocabulary.internAll (text :: texts)).size ≤ _ := ih (vocabulary.intern text).2
    rw [List.length_cons]
    omega

theorem internAll_append (vocabulary : Vocabulary) (first second : List String) :
    vocabulary.internAll (first ++ second) = (vocabulary.internAll first).internAll second :=
  List.foldl_append

/-- The texts that are known are those that stand somewhere. -/
theorem Consistent.mem_texts_iff {vocabulary : Vocabulary} (consistent : vocabulary.Consistent)
    {text : String} : text ∈ vocabulary.texts.toList ↔ ∃ word, vocabulary.find? text = some word := by
  simp only [List.mem_iff_getElem?, Array.getElem?_toList]
  constructor
  · rintro ⟨index, stands⟩
    exact ⟨_, (consistent _ _).mpr ⟨index, stands, rfl⟩⟩
  · rintro ⟨word, known⟩
    obtain ⟨index, stands, -⟩ := (consistent _ _).mp known
    exact ⟨index, stands⟩

/-- Texts that enter one after the other are added behind the others, each once, where it comes first. -/
theorem Consistent.texts_internAll {vocabulary : Vocabulary} (consistent : vocabulary.Consistent)
    (texts : List String) :
    (vocabulary.internAll texts).texts.toList = vocabulary.texts.toList ++
      (texts.filter (· ∉ vocabulary.texts.toList)).eraseDups := by
  induction texts generalizing vocabulary with
  | nil => exact (List.append_nil _).symm
  | cons text texts ih =>
    have entered : (vocabulary.internAll (text :: texts)).texts.toList =
        (vocabulary.intern text).2.texts.toList ++
          (texts.filter (· ∉ (vocabulary.intern text).2.texts.toList)).eraseDups :=
      ih (consistent.intern text)
    match known : vocabulary.find? text with
    | some word =>
      have present : text ∈ vocabulary.texts.toList := consistent.mem_texts_iff.mpr ⟨word, known⟩
      rw [entered, intern_of_find? known, List.filter_cons_of_neg (by simpa using present)]
    | none =>
      have absent : text ∉ vocabulary.texts.toList := by
        intro present
        obtain ⟨word, also⟩ := consistent.mem_texts_iff.mp present
        rw [known] at also
        cases also
      have others : texts.filter (· ∉ vocabulary.texts.toList ++ [text]) =
          (texts.filter (· ∉ vocabulary.texts.toList)).filter (!· == text) := by
        rw [List.filter_filter]
        refine List.filter_congr fun other _ => ?_
        by_cases same : other = text <;> simp [same]
      rw [entered, (intern_of_find?_eq_none known).2, Array.toList_push, others,
        List.filter_cons_of_pos (by simpa using absent), List.eraseDups_cons, List.append_assoc,
        List.singleton_append]

section Roomy

variable {vocabulary : Vocabulary} (consistent : vocabulary.Consistent)
include consistent

/-- Handles and texts are each other's inverse. -/
theorem Consistent.find?_eq_some_iff (roomy : vocabulary.size ≤ 2 ^ 32) {text : String} {word : Word} :
    vocabulary.find? text = some word ↔ vocabulary.text? word = some text := by
  rw [consistent text word]
  constructor
  · rintro ⟨index, stands, rfl⟩
    have inside := (Array.getElem?_eq_some_iff.mp stands).1
    rw [text?, Word.index_ofIndex (Nat.lt_of_lt_of_le inside roomy)]
    exact stands
  · intro named
    exact ⟨word.index, named, word.ofIndex_index.symm⟩

theorem text?_intern {text : String} (roomy : (vocabulary.intern text).2.size ≤ 2 ^ 32) :
    (vocabulary.intern text).2.text? (vocabulary.intern text).1 = some text :=
  ((consistent.intern text).find?_eq_some_iff roomy).mp (vocabulary.find?_intern text)

/-- No text stands at two positions. -/
theorem Consistent.nodup (roomy : vocabulary.size ≤ 2 ^ 32) : vocabulary.texts.toList.Nodup := by
  rw [List.Nodup, List.pairwise_iff_getElem]
  intro first second inside alsoInside before same
  rw [Array.getElem_toList, Array.getElem_toList] at same
  rw [Array.length_toList] at inside alsoInside
  have known {position : Nat} (inside : position < vocabulary.texts.size) :
      vocabulary.find? vocabulary.texts[position] = some (.ofIndex position) :=
    (consistent _ _).mpr ⟨position, Array.getElem?_eq_getElem inside, rfl⟩
  have handle := known inside
  rw [same, known alsoInside, Option.some.injEq] at handle
  have equal := Word.ofIndex_inj (Nat.lt_of_lt_of_le alsoInside roomy)
    (Nat.lt_of_lt_of_le inside roomy) handle
  exact absurd equal (Nat.ne_of_gt before)

end Roomy

end Vocabulary

theorem Keyword.mem_all (keyword : Keyword) : keyword ∈ all := by
  cases keyword <;> decide

theorem Keyword.ofSpelling?_eq_some_iff {text : String} {keyword : Keyword} :
    ofSpelling? text = some keyword ↔ text = keyword.spelling := by
  constructor
  · intro found
    have spelled := List.find?_some (p := fun keyword : Keyword => keyword.spelling == text) found
    exact (eq_of_beq spelled).symm
  · rintro rfl
    exact ofSpelling?_spelling keyword

theorem Keyword.spelling_inj {one other : Keyword} (same : one.spelling = other.spelling) :
    one = other :=
  Option.some.inj ((ofSpelling?_spelling one).symm.trans (ofSpelling?_eq_some_iff.mpr same))

namespace ReservedWords

/-- A table that is right for a vocabulary: each keyword is in it, under the handle of its spelling. -/
structure Describes (table : ReservedWords) (vocabulary : Vocabulary) : Prop where
  complete : ∀ keyword, ∃ word, (word, keyword) ∈ table.entries
  spelled : ∀ word keyword, (word, keyword) ∈ table.entries →
    ∃ index, vocabulary.texts[index]? = some keyword.spelling ∧ word = Word.ofIndex index

theorem Describes.grows {table : ReservedWords} {before after : Vocabulary}
    (describes : table.Describes before) (grows : before.Grows after) : table.Describes after where
  complete := describes.complete
  spelled word keyword entry := by
    obtain ⟨index, stands, same⟩ := describes.spelled word keyword entry
    exact ⟨index, grows.getElem? stands, same⟩

theorem build_grows (order : List Keyword) (vocabulary : Vocabulary) :
    vocabulary.Grows (build order vocabulary).2 := by
  induction order generalizing vocabulary with
  | nil => exact .refl vocabulary
  | cons keyword order ih => exact (vocabulary.intern_grows keyword.spelling).trans (ih _)

theorem size_build_le (order : List Keyword) (vocabulary : Vocabulary) :
    (build order vocabulary).2.size ≤ vocabulary.size + order.length := by
  induction order generalizing vocabulary with
  | nil => exact Nat.le_refl _
  | cons keyword order ih =>
    have first := vocabulary.size_intern_le keyword.spelling
    have rest : (build (keyword :: order) vocabulary).2.size ≤ _ :=
      ih (vocabulary.intern keyword.spelling).2
    rw [List.length_cons]
    omega

theorem build_consistent (order : List Keyword) {vocabulary : Vocabulary}
    (consistent : vocabulary.Consistent) : (build order vocabulary).2.Consistent := by
  induction order generalizing vocabulary with
  | nil => exact consistent
  | cons keyword order ih => exact ih (consistent.intern keyword.spelling)

/-- The keywords that have been asked for are in the table, each under its own handle. -/
theorem build_entries (order : List Keyword) {vocabulary : Vocabulary}
    (consistent : vocabulary.Consistent) :
    (build order vocabulary).1.entries.map Prod.snd = order ∧
      ∀ word keyword, (word, keyword) ∈ (build order vocabulary).1.entries →
        ∃ index, (build order vocabulary).2.texts[index]? = some keyword.spelling ∧
          word = Word.ofIndex index := by
  induction order generalizing vocabulary with
  | nil => exact ⟨rfl, fun _ _ entry => nomatch entry⟩
  | cons first order ih =>
    have further := consistent.intern first.spelling
    obtain ⟨listed, spelled⟩ := ih further
    refine ⟨congrArg (first :: ·) listed, ?_⟩
    intro word keyword entry
    rcases List.mem_cons.mp entry with same | later
    · cases same
      obtain ⟨index, stands, same⟩ := (further _ _).mp (vocabulary.find?_intern first.spelling)
      exact ⟨index, (build_grows order _).getElem? stands, same⟩
    · exact spelled word keyword later

/-- The handles in a table name the spellings of their keywords. -/
theorem build_named (order : List Keyword) {vocabulary : Vocabulary} (consistent : vocabulary.Consistent)
    (roomy : (build order vocabulary).2.size ≤ 2 ^ 32) :
    ∀ entry ∈ (build order vocabulary).1.entries,
      (build order vocabulary).2.text? entry.1 = some entry.2.spelling := by
  intro entry member
  have further := build_consistent order consistent
  exact (further.find?_eq_some_iff roomy).mp
    ((further _ _).mpr ((build_entries order consistent).2 entry.1 entry.2 member))

/-- The spellings that were missing are added, in the order in which they are asked for. -/
theorem build_texts {order : List Keyword} (distinct : order.Nodup) (vocabulary : Vocabulary) :
    (build order vocabulary).2.texts.toList = vocabulary.texts.toList ++
      (order.filter fun keyword => (vocabulary.find? keyword.spelling).isNone).map Keyword.spelling := by
  induction order generalizing vocabulary with
  | nil => exact (List.append_nil _).symm
  | cons first order ih =>
    obtain ⟨fresh, distinct⟩ := List.nodup_cons.mp distinct
    have added : (build (first :: order) vocabulary).2.texts.toList = _ :=
      ih distinct (vocabulary.intern first.spelling).2
    have others : order.filter (fun keyword =>
          ((vocabulary.intern first.spelling).2.find? keyword.spelling).isNone) =
        order.filter fun keyword => (vocabulary.find? keyword.spelling).isNone := by
      refine List.filter_congr fun keyword member => ?_
      rw [Vocabulary.find?_intern_of_ne]
      intro same
      exact fresh (Keyword.spelling_inj same ▸ member)
    rw [added, others]
    match known : vocabulary.find? first.spelling with
    | some word =>
      rw [Vocabulary.intern_of_find? known, List.filter_cons_of_neg (by simp [known])]
    | none =>
      rw [(Vocabulary.intern_of_find?_eq_none known).2, List.filter_cons_of_pos (by simp [known])]
      simp

/-- A table of all keywords, in whatever order, is right for the vocabulary that comes with it. -/
theorem build_describes {order : List Keyword} (every : ∀ keyword, keyword ∈ order)
    {vocabulary : Vocabulary} (consistent : vocabulary.Consistent) :
    (build order vocabulary).1.Describes (build order vocabulary).2 := by
  obtain ⟨listed, spelled⟩ := build_entries order consistent
  refine ⟨?_, spelled⟩
  intro keyword
  have member := every keyword
  rw [← listed] at member
  obtain ⟨⟨word, _⟩, entry, rfl⟩ := List.mem_map.mp member
  exact ⟨word, entry⟩

theorem ofVocabulary_describes {vocabulary : Vocabulary} (consistent : vocabulary.Consistent) :
    (ofVocabulary vocabulary).1.Describes (ofVocabulary vocabulary).2 :=
  build_describes (by intro keyword; cases keyword <;> decide) consistent

section Roomy

variable {table : ReservedWords} {vocabulary : Vocabulary} (consistent : vocabulary.Consistent)
  (describes : table.Describes vocabulary)
include consistent describes

/-- A keyword is in the table under the handle of its spelling alone. -/
theorem Describes.entry_iff (roomy : vocabulary.size ≤ 2 ^ 32) {word : Word} {keyword : Keyword} :
    (word, keyword) ∈ table.entries ↔ vocabulary.text? word = some keyword.spelling := by
  have named {word : Word} (entry : (word, keyword) ∈ table.entries) :
      vocabulary.find? keyword.spelling = some word :=
    (consistent _ _).mpr (describes.spelled word keyword entry)
  rw [← consistent.find?_eq_some_iff roomy]
  constructor
  · exact named
  · intro known
    obtain ⟨other, entry⟩ := describes.complete keyword
    rw [named entry] at known
    cases known
    exact entry

/-- Recognition by handle is recognition by the text of the handle, and a handle without a text is
never recognised. -/
theorem lookup?_eq (roomy : vocabulary.size ≤ 2 ^ 32) (word : Word) :
    table.lookup? word = (vocabulary.text? word).bind Keyword.ofSpelling? := by
  cases looked : table.lookup? word with
  | some keyword =>
    obtain ⟨before, after, entries, -⟩ := List.lookup_eq_some_iff.mp looked
    have entry : (word, keyword) ∈ table.entries := by simp [entries]
    rw [(describes.entry_iff consistent roomy).mp entry]
    exact (Keyword.ofSpelling?_spelling keyword).symm
  | none =>
    refine (Option.bind_eq_none_iff.mpr fun text named => ?_).symm
    cases spelled : Keyword.ofSpelling? text with
    | none => rfl
    | some keyword =>
      rw [Keyword.ofSpelling?_eq_some_iff.mp spelled] at named
      have absent := List.lookup_eq_none_iff.mp looked _
        ((describes.entry_iff consistent roomy).mpr named)
      simp at absent

/-- A word is taken for a keyword just when it is spelled like it. -/
theorem lookup?_intern {spelling : String} (roomy : (vocabulary.intern spelling).2.size ≤ 2 ^ 32) :
    table.lookup? (vocabulary.intern spelling).1 = Keyword.ofSpelling? spelling := by
  rw [lookup?_eq (consistent.intern spelling) (describes.grows (vocabulary.intern_grows spelling)) roomy,
    Vocabulary.text?_intern consistent roomy]
  rfl

end Roomy

end ReservedWords
end TokenTape
