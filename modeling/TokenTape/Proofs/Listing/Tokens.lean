import TokenTape.Proofs.Listing.Lines
import TokenTape.Proofs.Scanner.Meaning
import TokenTape.Proofs.Scanner.StringLiteral
import TokenTape.Proofs.Value.Numeral
/-!
Tokens in a listing. Whatever a scan gives can be shown as JSON with its words spelled out
(`Scanner.scan_shows`), because a handle that was given out always has a text. Null stands for nothing,
and besides only for a float that is not finite (`Listing.Shows.render_eq_null_iff`). A caption shows
strings as they are written, so it has a newline just when it shows a string that has one
(`Lexeme.ToldBy.caption_unbroken_iff`); words never have one.
-/
namespace TokenTape

/-! ## Values as JSON -/

/-- The text of a known handle can be told, also when handles have run out. -/
theorem Vocabulary.Consistent.exists_text {vocabulary : Vocabulary}
    (consistent : vocabulary.Consistent) {text : String} {word : Word}
    (known : vocabulary.find? text = some word) : ∃ told, vocabulary.text? word = some told := by
  obtain ⟨index, stands, rfl⟩ := (consistent text word).mp known
  have inside := (Array.getElem?_eq_some_iff.mp stands).1
  have within : (Word.ofIndex index).index ≤ index := Nat.mod_le index _
  exact ⟨_, Array.getElem?_eq_getElem (Nat.lt_of_le_of_lt within inside)⟩

/-- A number is finite unless it is stored with the greatest exponent. -/
def Binary64.IsFinite (x : Binary64) : Prop := x.exponentField ≠ 2047

instance (x : Binary64) : Decidable x.IsFinite := inferInstanceAs (Decidable (¬ _))

theorem Binary64.isFinite_iff {x : Binary64} :
    x.IsFinite ↔ ∃ magnitude, x.reading = .finite magnitude := by
  unfold IsFinite reading
  by_cases greatest : x.exponentField = 2047
  · by_cases zero : x.fractionField = 0 <;> simp [greatest, zero]
  · by_cases small : x.exponentField = 0 <;> simp [greatest, small]

theorem Decimal.Digits.point_mem_positional (x : Digits) : '.' ∈ x.positional.toList := by
  unfold positional
  split <;> simp

theorem Decimal.Digits.mark_mem_scientific (x : Digits) : 'e' ∈ x.scientific.toList := by
  have mark : 'e' ∈ (if x.leading < 0 then "e-" else "e+").toList := by split <;> decide
  unfold scientific
  rw [String.toList_append, String.toList_append]
  exact List.mem_append_left _ (List.mem_append_right _ mark)

namespace Json

theorem ofBinary64_of_not_finite {x : Binary64} (infinite : ¬ x.IsFinite) : ofBinary64 x = "null" := by
  rw [Binary64.isFinite_iff] at infinite
  unfold ofBinary64
  dsimp only
  split
  · next magnitude finite => exact absurd ⟨magnitude, finite⟩ infinite
  · rfl

/-- A finite number has a point or a power of ten in its text. -/
theorem point_or_mark_mem_ofBinary64 {x : Binary64} (finite : x.IsFinite) :
    '.' ∈ (ofBinary64 x).toList ∨ 'e' ∈ (ofBinary64 x).toList := by
  obtain ⟨magnitude, finite⟩ := Binary64.isFinite_iff.mp finite
  unfold ofBinary64
  simp only [finite]
  generalize (if x.negative then "-" else "") = sign
  split
  · rw [String.toList_append]
    exact Or.inl (List.mem_append_right _ (by decide))
  · rw [String.toList_append]
    split
    · exact Or.inl (List.mem_append_right _ (Decimal.Digits.point_mem_positional _))
    · exact Or.inr (List.mem_append_right _ (Decimal.Digits.mark_mem_scientific _))

theorem ne_null_of_mem {text : String} {c : Char} (member : c ∈ text.toList)
    (other : c ∉ "null".toList) : text ≠ "null" := by
  rintro rfl
  exact other member

/-- A number is written as null just when it is not finite. -/
theorem ofBinary64_eq_null_iff {x : Binary64} : ofBinary64 x = "null" ↔ ¬ x.IsFinite := by
  refine ⟨fun null finite => ?_, ofBinary64_of_not_finite⟩
  rcases point_or_mark_mem_ofBinary64 finite with point | mark
  · exact ne_null_of_mem point (by decide) null
  · exact ne_null_of_mem mark (by decide) null

/-- In the text of an object a value stands by its own text. -/
theorem render_object_congr {first second : String × Json} {name : String} {value other : Json}
    (same : value.render = other.render) :
    (object [first, second, (name, value)]).render =
      (object [first, second, (name, other)]).render := by
  simp only [render, renderMembers, same]

end Json

namespace Listing

/-- The JSON that shows what a token carries. A word is spelled out. Nothing is shown as null, and
so is a float that is not finite, because JSON has no number for it. -/
inductive Shows (vocabulary : Vocabulary) : Option Value → Json → Prop
  | nothing : Shows vocabulary none .null
  | integer (n : Int64) : Shows vocabulary (some (.integer n)) (.integer n.toInt)
  | float {x : Binary64} (finite : x.IsFinite) : Shows vocabulary (some (.float x)) (.number x)
  | boundless {x : Binary64} (infinite : ¬ x.IsFinite) : Shows vocabulary (some (.float x)) .null
  | word {word : Word} {text : String} (named : vocabulary.text? word = some text) :
      Shows vocabulary (some (.word word)) (.string text)

namespace Shows

/-- A value is printed as it is shown. -/
theorem render_valueJson {vocabulary : Vocabulary} {value : Option Value} {json : Json}
    (shows : Shows vocabulary value json) : (valueJson vocabulary value).render = json.render := by
  cases shows with
  | word named => rw [valueJson, named]
  | boundless infinite => exact Json.ofBinary64_eq_null_iff.mpr infinite
  | _ => rfl

/-- Null is printed just where there is nothing to show, or a float that is not finite. -/
theorem render_eq_null_iff {vocabulary : Vocabulary} {value : Option Value} {json : Json}
    (shows : Shows vocabulary value json) :
    json.render = "null" ↔ value = none ∨ ∃ x, value = some (.float x) ∧ ¬ x.IsFinite := by
  cases shows with
  | nothing => exact iff_of_true rfl (Or.inl rfl)
  | integer n =>
    refine iff_of_false (fun null => ?_) (by simp)
    have letter : 'n' ∈ (toString n.toInt).toList := by
      rw [show toString n.toInt = "null" from null]
      decide
    exact not_mem_int (by decide) (by decide) _ letter
  | @float x finite =>
    exact iff_of_false (fun null => Json.ofBinary64_eq_null_iff.mp null finite) (by simp [finite])
  | @boundless x infinite => exact iff_of_true rfl (Or.inr ⟨x, rfl, infinite⟩)
  | @word word text named =>
    refine iff_of_false ?_ (by simp)
    exact Json.ne_null_of_mem (c := '"') (by simp [Json.render, Json.quoted]) (by decide)

theorem grows {before after : Vocabulary} (grows : before.Grows after) {value : Option Value}
    {json : Json} (shows : Shows before value json) : Shows after value json := by
  cases shows with
  | nothing => exact .nothing
  | integer n => exact .integer n
  | float finite => exact .float finite
  | boundless infinite => exact .boundless infinite
  | word named => exact .word (grows.text? named)

/-- A text that enters a vocabulary can be shown. -/
theorem of_intern {vocabulary : Vocabulary} (consistent : vocabulary.Consistent) (text : String) :
    ∃ json, Shows (vocabulary.intern text).2 (some (.word (vocabulary.intern text).1)) json := by
  obtain ⟨told, named⟩ := (consistent.intern text).exists_text (vocabulary.find?_intern text)
  exact ⟨.string told, .word named⟩

end Shows
end Listing

/-- The token of a lexeme can be shown. -/
theorem Lexeme.token_shows (reserved : ReservedWords) {vocabulary : Vocabulary}
    (consistent : vocabulary.Consistent) (lexeme : Lexeme) :
    ∃ json, Listing.Shows (lexeme.token reserved vocabulary).2
      (lexeme.token reserved vocabulary).1.value json := by
  cases lexeme with
  | word spelling =>
    simp only [token]
    split
    · exact ⟨_, .nothing⟩
    · exact Listing.Shows.of_intern consistent spelling
  | numeral parts =>
    change ∃ json, Listing.Shows vocabulary (some parts.value) json
    rcases parts.value_cases with ⟨-, n, integer⟩ | ⟨-, x, float⟩
    · exact integer ▸ ⟨_, .integer n⟩
    · rw [float]
      by_cases finite : x.IsFinite
      · exact ⟨_, .float finite⟩
      · exact ⟨_, .boundless finite⟩
  | string text => exact Listing.Shows.of_intern consistent text
  | character c => exact ⟨_, .integer _⟩
  | symbol mark => exact ⟨_, .nothing⟩
  | endOfInput => exact ⟨_, .nothing⟩

/-- All tokens of a scan can be shown. -/
theorem Scanner.scan_shows {scanner : Scanner} (consistent : scanner.vocabulary.Consistent) :
    ∀ located ∈ scanner.scan.tokens,
      ∃ json, Listing.Shows scanner.scan.final.vocabulary located.token.value json := by
  induction scanner using scan_induction with
  | failed scanner diagnosis after taken =>
    rw [scan_of_failed taken]
    intro located member
    cases member
  | ended scanner token after taken ended =>
    obtain ⟨lexeme, reader, -, rfl, rfl⟩ := next_ok taken
    rw [scan_of_ended taken ended]
    intro located member
    rw [List.mem_singleton.mp member]
    exact lexeme.token_shows _ consistent
  | going scanner token after taken going ih =>
    have grows := after.scan_grows
    obtain ⟨lexeme, reader, -, rfl, rfl⟩ := next_ok taken
    rw [scan_of_going taken going]
    intro located member
    rcases List.mem_cons.mp member with rfl | later
    · obtain ⟨json, shows⟩ := lexeme.token_shows scanner.reserved consistent
      exact ⟨json, shows.grows grows⟩
    · exact ih (lexeme.token_consistent _ consistent) located later

/-! ## Texts in captions -/

/-- A source that is one literal has two lexemes. -/
theorem Reader.lexemes_of_literal {text : String} {content : List Char}
    (literal : text.toList = '"' :: (content ++ ['"']))
    (even : Even (trailingBackslashes content)) (first : QuotesProtected content) :
    (Reader.start text []).lexemes = [.string (String.ofList content), .endOfInput] := by
  have through := GoneThrough.within content ['"'] []
  have closes : Closer.quote (decide (¬ Even (trailingBackslashes content))) '"' = none :=
    Closer.quote_eq_none_iff.mpr ⟨by simpa using even, rfl⟩
  have body : Body.read .quote false [] (content ++ ['"']) [] =
      ⟨.closed, content.reverse, [], []⟩ :=
    Body.read_closed through (Closer.quote_after_of_protected first) closes []
  have string : (Reader.start text []).next =
      (.ok (.string (String.ofList content)), ⟨[], [], [], 1 + content.count '\n', 1⟩) := by
    rw [Reader.start, literal, next_of_quote, take_of_quote, body]
    simp [Body.content, Body.newlines]
  have ended (line : Nat) : (⟨[], [], [], line, 1⟩ : Reader).next =
      (.ok .endOfInput, ⟨[], [], [], line, line⟩) := by
    have stands : (⟨[], [], [], line, 1⟩ : Reader).Stands := Or.inr (Or.inl ⟨rfl, rfl⟩)
    rw [Reader.next, stands.settle_eq]
    rfl
  rw [lexemes_of_lexeme string, if_neg (by simp), lexemes_of_lexeme (ended _), if_pos rfl]

/-- A word is written without a newline. -/
theorem Lexeme.Written.word_unbroken {spelling : String} {written : List Char}
    (isWritten : (Lexeme.word spelling).Written written) : Unbroken spelling := by
  cases isWritten with
  | word starts continues =>
    refine unbroken_ofList.mpr ?_
    rw [List.mem_cons]
    rintro (first | later)
    · rw [← first] at starts
      exact absurd starts (by decide)
    · exact absurd (continues _ later) (by decide)

/-- No word of a source has a newline in it. -/
theorem Reader.words_unbroken {reader : Reader} (sound : reader.Sound) {spelling : String}
    (member : .word spelling ∈ reader.lexemes) : Unbroken spelling := by
  induction size : reader.remaining using Nat.strongRecOn generalizing reader with
  | ind size ih =>
    match read : reader.next with
    | (.error obstacle, after) =>
      rw [lexemes_of_obstacle read] at member
      cases member
    | (.ok lexeme, after) =>
      obtain ⟨turn, later⟩ := next_turn sound read
      rw [lexemes_of_lexeme read] at member
      split at member
      · next last =>
        rw [last] at member
        cases List.mem_singleton.mp member
      · next more =>
        rcases List.mem_cons.mp member with same | further
        · subst same
          cases turn with
          | lexeme gap written input stands _ _ =>
            rcases stands with isWritten | ⟨cutOff, -⟩
            · exact isWritten.word_unbroken
            · cases cutOff
        · have used := reader.next_remaining_lt (by simpa [read] using more)
          rw [read] at used
          exact ih _ (size ▸ used) later further rfl

theorem Token.caption_string {vocabulary : Vocabulary} {handle : Word} {text : String}
    (named : vocabulary.text? handle = some text) :
    (valued .string (.word handle)).caption vocabulary = "STRING_CONSTANT " ++ ("\"" ++ text ++ "\"") := by
  simp only [caption, valued, Option.bind_some, Value.caption?, named]
  rfl

/-- A caption has a newline just when it shows a string that has one. -/
theorem Lexeme.ToldBy.caption_unbroken_iff {vocabulary : Vocabulary} {lexeme : Lexeme} {token : Token}
    (told : lexeme.ToldBy vocabulary token)
    (plain : ∀ spelling, lexeme = .word spelling → Unbroken spelling) :
    Unbroken (token.caption vocabulary) ↔ ∀ content, lexeme = .string content → Unbroken content := by
  have wordless {token : Token} (none : ∀ word, token.value ≠ some (.word word)) :
      Unbroken (token.caption vocabulary) :=
    Token.caption_unbroken fun word _ carried => absurd carried (none word)
  cases told with
  | string named =>
    rw [Token.caption_string named, unbroken_append, unbroken_append, unbroken_append]
    constructor
    · rintro ⟨-, ⟨-, shown⟩, -⟩ content same
      cases same
      exact shown
    · intro content
      exact ⟨by decide, ⟨by decide, content _ rfl⟩, by decide⟩
  | identifier free named =>
    refine iff_of_true (Token.caption_unbroken ?_) (by simp)
    intro word text carried known
    cases carried
    rw [named] at known
    cases known
    exact plain _ rfl
  | numeral parts =>
    refine iff_of_true (wordless ?_) (by simp)
    intro word carried
    rcases parts.value_cases with ⟨-, n, integer⟩ | ⟨-, x, float⟩
    · rw [Token.valued, integer] at carried
      cases carried
    · rw [Token.valued, float] at carried
      cases carried
  | keyword spelled => exact iff_of_true (wordless (by simp [Token.bare])) (by simp)
  | character c => exact iff_of_true (wordless (by simp [Token.valued])) (by simp)
  | symbol mark => exact iff_of_true (wordless (by simp [Token.bare])) (by simp)
  | endOfInput => exact iff_of_true (wordless (by simp [Token.endOfInput, Token.bare])) (by simp)

/-- Captions have no newline just when no string has one, if words have none. -/
theorem captions_unbroken_iff {vocabulary : Vocabulary} {lexemes : List Lexeme} {tokens : List Token}
    (told : List.Forall₂ (Lexeme.ToldBy vocabulary) lexemes tokens)
    (words : ∀ spelling, .word spelling ∈ lexemes → Unbroken spelling) :
    (∀ token ∈ tokens, Unbroken (token.caption vocabulary)) ↔
      ∀ content, .string content ∈ lexemes → Unbroken content := by
  induction told with
  | nil => simp
  | @cons lexeme token lexemes tokens told _ ih =>
    have first := told.caption_unbroken_iff fun spelling same =>
      words spelling (same ▸ List.mem_cons_self)
    have rest := ih fun spelling held => words spelling (List.mem_cons_of_mem _ held)
    rw [List.forall_mem_cons, first, rest]
    constructor
    · rintro ⟨here, later⟩ content member
      rcases List.mem_cons.mp member with same | held
      · exact here content same.symm
      · exact later content held
    · intro all
      constructor
      · intro content same
        exact all content (same ▸ List.mem_cons_self)
      · intro content held
        exact all content (List.mem_cons_of_mem lexeme held)

/-! ## The listing of a replay -/

/-- Where a replay meets no damage, each of its tokens has a line. -/
theorem Listing.linesOf_of_tokens (vocabulary : Vocabulary) (json : Bool) (lineOf : Located → Nat)
    {reports : List Cursor.Report} {tokens : List Located}
    (outcomes : reports.map (·.outcome) = tokens.map (.ok ·.token))
    (lines : reports.map (·.line) = tokens.map lineOf) :
    linesOf vocabulary json reports =
      (tokens.map fun located => tokenLine vocabulary json (lineOf located) located.token, none) := by
  have onto (done : List String) : linesOnto vocabulary json done reports =
      (done.reverse ++
        tokens.map fun located => tokenLine vocabulary json (lineOf located) located.token, none) := by
    induction tokens generalizing reports done with
    | nil =>
      obtain rfl := List.map_eq_nil_iff.mp outcomes
      simp [linesOnto]
    | cons located tokens ih =>
      cases reports with
      | nil => cases outcomes
      | cons report reports =>
        simp only [List.map_cons, List.cons.injEq] at outcomes lines
        rw [linesOnto, outcomes.1]
        simp only [lines.1, ih outcomes.2 lines.2, List.reverse_cons, List.append_assoc, List.map_cons,
          List.singleton_append]
  exact onto []

end TokenTape
