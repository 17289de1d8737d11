import TokenTape.Proofs.Reading.Grammar
/-!
What a request uses up, byte by byte. All that a reader still has to read, in its text and in the
replies to come, is one byte string. A request passes over blanks and comments at the front of it
and then takes one lexeme, or refuses one byte, or meets a reply that failed. `Reader.next_turn`
says so, together with the lines: they are the newlines among the bytes that are gone.
-/
namespace TokenTape

namespace Reader

/-- All bytes that are left, those of the replies to come included. -/
def unread (reader : Reader) : List UInt8 :=
  reader.stray ++ Utf8.bytesOf (reader.text ++ reader.source.text)

theorem unread_of_stray_nil {reader : Reader} (whole : reader.stray = []) :
    reader.unread = Utf8.bytesOf (reader.text ++ reader.source.text) := by
  rw [unread, whole, List.nil_append]

/-- Where blanks and comments have been passed, something stands that is neither, unless all input
is used up. -/
def Stands (reader : Reader) : Prop :=
  reader.stray ≠ [] ∨ reader.text = [] ∧ reader.source = [] ∨
    ∃ c rest, reader.text = c :: rest ∧ isBlank c = false ∧
      (c = '/' → rest.head? ≠ some '/' ∧ rest.head? ≠ some '*')

theorem settle_stands {reader stopped : Reader} (settled : reader.settle = (none, stopped)) :
    stopped.Stands := by
  fun_induction settle reader with
  | case1 => cases settled
  | case2 more source line tokenLine ih => exact ih settled
  | case3 text source line tokenLine ih => exact ih settled
  | case4 => cases settled
  | case5 text source line tokenLine body reader going ih => exact ih settled
  | case6 c text source line tokenLine _ _ _ ih => exact ih settled
  | case7 c text source line tokenLine noLine noBlock stands =>
    cases settled
    refine Or.inr (Or.inr ⟨c, text, rfl, by simpa using stands, ?_⟩)
    intro slash
    constructor
    · intro second
      obtain ⟨rest, rfl⟩ := List.head?_eq_some_iff.mp second
      exact noLine rest slash rfl
    · intro second
      obtain ⟨rest, rfl⟩ := List.head?_eq_some_iff.mp second
      exact noBlock rest slash rfl
  | case8 reader noFailure noMore noLine noBlock noOther =>
    cases settled
    obtain ⟨stray, text, source, line, tokenLine⟩ := stopped
    rcases stray with _ | ⟨byte, stray⟩
    · rcases text with _ | ⟨c, text⟩
      · rcases source with _ | ⟨more | reason, source⟩
        · exact Or.inr (Or.inl ⟨rfl, rfl⟩)
        · exact (noMore more source line tokenLine rfl).elim
        · exact (noFailure reason source line tokenLine rfl).elim
      · exact (noOther c text source line tokenLine rfl).elim
    · exact Or.inl (List.cons_ne_nil byte stray)

/-- Some characters are gone from the front of the input, and their newlines are counted. -/
structure UsesUp (reader : Reader) (gone : List Char) (after : Reader) : Prop where
  input : reader.text ++ reader.source.text = gone ++ (after.text ++ after.source.text)
  lines : after.line = reader.line + gone.count '\n'

theorem UsesUp.refl (reader : Reader) : reader.UsesUp [] reader := ⟨rfl, rfl⟩

theorem UsesUp.trans {reader middle after : Reader} {first second : List Char}
    (before : reader.UsesUp first middle) (behind : middle.UsesUp second after) :
    reader.UsesUp (first ++ second) after where
  input := by rw [before.input, behind.input, List.append_assoc]
  lines := by rw [behind.lines, before.lines, List.count_append, Nat.add_assoc]

/-- Blanks and comments go from the front, one after the other. -/
theorem settle_usesUp (reader : Reader) : ∃ gap, reader.UsesUp gap reader.settle.2 := by
  fun_induction settle reader with
  | case1 => exact ⟨[], rfl, rfl⟩
  | case2 more source line tokenLine ih =>
    obtain ⟨gap, further⟩ := ih
    exact ⟨gap, further.input, further.lines⟩
  | case3 text source line tokenLine ih =>
    obtain ⟨gap, further⟩ := ih
    have body := List.takeWhile_append_dropWhile (p := (· != '\n')) (l := text)
    have oneLine : '\n' ∉ text.takeWhile (· != '\n') := by
      intro member
      have other := List.all_eq_true.mp List.all_takeWhile _ member
      simp at other
    have comment : UsesUp ⟨[], '/' :: '/' :: text, source, line, tokenLine⟩
        ('/' :: '/' :: text.takeWhile (· != '\n'))
        ⟨[], text.dropWhile (· != '\n'), source, line, line⟩ := by
      refine ⟨?_, ?_⟩
      · simp only [List.cons_append, ← List.append_assoc, body]
      · simp [List.count_eq_zero.mpr oneLine]
    exact ⟨_, comment.trans further⟩
  | case4 text source line tokenLine body reader reason failed =>
    obtain ⟨written, whole, newlines, -⟩ := Body.read_comment text source
    exact ⟨written, whole, by rw [← newlines]⟩
  | case5 text source line tokenLine body reader going ih =>
    obtain ⟨gap, further⟩ := ih
    obtain ⟨written, whole, newlines, -⟩ := Body.read_comment text source
    have comment : UsesUp ⟨[], '/' :: '*' :: text, source, line, tokenLine⟩ written reader :=
      ⟨whole, by rw [← newlines]⟩
    exact ⟨_, comment.trans further⟩
  | case6 c text source line tokenLine _ _ _ ih =>
    obtain ⟨gap, further⟩ := ih
    have blank : UsesUp ⟨[], c :: text, source, line, tokenLine⟩ [c]
        ⟨[], text, source, lineAfter line c, tokenLine⟩ := by
      refine ⟨rfl, ?_⟩
      simp only [lineAfter, List.count_cons, List.count_nil]
      split <;> simp [*]
    exact ⟨_, blank.trans further⟩
  | case7 => exact ⟨[], rfl, rfl⟩
  | case8 reader => exact ⟨[], .refl reader⟩

/-- What is left of a refused character stays, and nothing behind it is passed over. -/
theorem settle_of_stray {reader : Reader} (left : reader.stray ≠ []) :
    reader.settle = (none, reader) := by
  obtain ⟨stray, text, source, line, tokenLine⟩ := reader
  match stray with
  | [] => contradiction
  | byte :: stray => rw [settle] <;> simp

theorem settle_stray (reader : Reader) : reader.settle.2.stray = reader.stray := by
  fun_induction settle reader with
  | case2 _ _ _ _ ih => exact ih
  | case3 _ _ _ _ ih => exact ih
  | case5 _ _ _ _ _ _ _ ih => exact ih
  | case6 _ _ _ _ _ _ _ _ ih => exact ih
  | _ => rfl

/-- The line noted for the latest lexeme or comment goes forward, and not beyond the line reached. -/
theorem settle_tokenLine {reader : Reader} (ordered : reader.tokenLine ≤ reader.line) :
    reader.tokenLine ≤ reader.settle.2.tokenLine ∧
      reader.settle.2.tokenLine ≤ reader.settle.2.line := by
  fun_induction settle reader with
  | case1 => exact ⟨Nat.le_refl _, ordered⟩
  | case2 _ _ _ _ ih => exact ih ordered
  | case3 _ _ line _ ih =>
    obtain ⟨later, within⟩ := ih (Nat.le_refl line)
    exact ⟨Nat.le_trans ordered later, within⟩
  | case4 _ _ _ _ body => exact ⟨ordered, Nat.le_add_right _ body.newlines⟩
  | case5 _ _ _ _ body _ _ ih =>
    obtain ⟨later, within⟩ := ih (Nat.le_add_right _ body.newlines)
    exact ⟨Nat.le_trans ordered later, within⟩
  | case6 c _ _ line _ _ _ _ ih =>
    refine ih (Nat.le_trans ordered ?_)
    unfold lineAfter
    split
    · exact Nat.le_succ line
    · exact Nat.le_refl line
  | case7 => exact ⟨Nat.le_refl _, ordered⟩
  | case8 => exact ⟨Nat.le_refl _, ordered⟩

/-- All that one request can do, told from the bytes that it uses up. -/
inductive Turn (reader after : Reader) : Except Obstacle Lexeme → Prop
  /-- A lexeme stood behind a gap of blanks and comments. -/
  | lexeme {lexeme : Lexeme} (gap written : List Char)
      (input : reader.unread = Utf8.bytesOf gap ++ (Utf8.bytesOf written ++ after.unread))
      (stands : lexeme.Written written ∨ lexeme.CutOff written ∧ after.unread = [])
      (starts : after.tokenLine = reader.line + gap.count '\n')
      (reaches : after.line = after.tokenLine + written.count '\n') : Turn reader after (.ok lexeme)
  /-- There was nothing behind the gap. -/
  | ended (gap : List Char) (input : reader.unread = Utf8.bytesOf gap ++ after.unread)
      (starts : after.tokenLine = reader.line + gap.count '\n')
      (reaches : after.line = after.tokenLine) : Turn reader after (.ok .endOfInput)
  /-- No lexeme stood behind the gap, and one byte was refused. -/
  | refused {fault : Fault} (gap : List Char) (byte : UInt8)
      (input : reader.unread = Utf8.bytesOf gap ++ byte :: after.unread) (other : byte ≠ 10)
      (starts : after.tokenLine = reader.line + gap.count '\n')
      (reaches : after.line = after.tokenLine) : Turn reader after (.error (.fault fault))
  /-- A reply failed between lexemes, or inside a comment or a string. -/
  | unreadable {reason : String} (gap : List Char)
      (input : reader.unread = Utf8.bytesOf gap ++ after.unread)
      (starts : reader.tokenLine ≤ after.tokenLine) (within : after.tokenLine ≤ after.line)
      (reaches : after.line = reader.line + gap.count '\n') :
      Turn reader after (.error (.unreadable reason))

/-- However a turn goes, the lines counted and the newlines left stay the same together. -/
theorem Turn.line_add_count {reader after : Reader} {result : Except Obstacle Lexeme}
    (turn : reader.Turn after result) :
    after.line + after.unread.count 10 = reader.line + reader.unread.count 10 := by
  cases turn with
  | lexeme gap written input stands starts reaches =>
    rw [input, reaches, starts, List.count_append, List.count_append, Utf8.count_bytesOf,
      Utf8.count_bytesOf]
    omega
  | ended gap input starts reaches =>
    rw [input, reaches, starts, List.count_append, Utf8.count_bytesOf, Nat.add_assoc]
  | refused gap byte input other starts reaches =>
    rw [input, reaches, starts, List.count_append, List.count_cons_of_ne other,
      Utf8.count_bytesOf, Nat.add_assoc]
  | unreadable gap input starts within reaches =>
    rw [input, reaches, List.count_append, Utf8.count_bytesOf, Nat.add_assoc]

/-- What holds of a reader at all times: of a refused character only bytes that continue it can be
left, and the line noted for the latest lexeme does not run ahead. -/
structure Sound (reader : Reader) : Prop where
  stray : ∀ byte ∈ reader.stray, Utf8.isContinuation byte = true
  ordered : reader.tokenLine ≤ reader.line

theorem start_sound (text : String) (source : LineSource) : (start text source).Sound :=
  ⟨List.forall_mem_nil _, Nat.le_refl _⟩

/-- A gap is all that `settle` uses up. -/
theorem settle_unread (reader : Reader) :
    ∃ gap, reader.unread = Utf8.bytesOf gap ++ reader.settle.2.unread ∧
      reader.settle.2.line = reader.line + gap.count '\n' := by
  by_cases whole : reader.stray = []
  · obtain ⟨gap, passed⟩ := settle_usesUp reader
    refine ⟨gap, ?_, passed.lines⟩
    rw [unread_of_stray_nil whole, unread_of_stray_nil ((settle_stray reader).trans whole),
      passed.input, Utf8.bytesOf_append]
  · exact ⟨[], by rw [settle_of_stray whole]; rfl, by rw [settle_of_stray whole]; rfl⟩

theorem Sound.settle {reader : Reader} (sound : reader.Sound) : reader.settle.2.Sound where
  stray := by
    rw [settle_stray]
    exact sound.stray
  ordered := (settle_tokenLine sound.ordered).2

/-- What is taken where blanks and comments end. -/
theorem take_turn {reader after : Reader} {result : Except Obstacle Lexeme} (sound : reader.Sound)
    (stands : reader.Stands) (taken : reader.take = (result, after)) :
    reader.Turn after result ∧ after.Sound := by
  have clear {rest : List UInt8} (clean : rest = []) :
      ∀ byte ∈ rest, Utf8.isContinuation byte = true := by
    rw [clean]
    exact List.forall_mem_nil _
  cases result with
  | ok lexeme =>
    obtain ⟨whole, clean, starts, ⟨rfl, none, noMore, same, reaches⟩ |
      ⟨written, used, reaches, isWritten⟩⟩ := take_ok taken
    · have kept : after.unread = reader.unread := by
        rw [unread, unread, whole, clean, none, noMore, same]
      have level : after.line = after.tokenLine := reaches.trans starts.symm
      exact ⟨.ended [] kept.symm starts level, clear clean, Nat.le_of_eq level.symm⟩
    · have reaches : after.line = after.tokenLine + written.count '\n' := by rw [reaches, starts]
      have cutOff : lexeme.Written written ∨ lexeme.CutOff written ∧ after.unread = [] := by
        refine isWritten.imp_right fun ⟨cutOff, text, source⟩ => ⟨cutOff, ?_⟩
        rw [unread_of_stray_nil clean, text, source]
        rfl
      refine ⟨.lexeme [] written ?_ cutOff starts reaches, clear clean, ?_⟩
      · rw [unread_of_stray_nil whole, unread_of_stray_nil clean, used, Utf8.bytesOf_append]
        rfl
      · rw [reaches]
        exact Nat.le_add_right _ _
  | error obstacle =>
    obtain ⟨starts, ⟨fault, rfl, reaches, same, ⟨byte, bytes, text, -⟩ | ⟨c, whole, text, left⟩⟩ |
      ⟨reason, passed, rfl, whole, clean, used, reaches⟩⟩ := take_error taken
    · have level : after.line = after.tokenLine := reaches.trans starts.symm
      have continues : ∀ b ∈ byte :: after.stray, Utf8.isContinuation b = true := by
        rw [← bytes]
        exact sound.stray
      have other : byte ≠ 10 := by
        rintro rfl
        cases continues 10 List.mem_cons_self
      refine ⟨.refused [] byte ?_ other starts level, ?_, Nat.le_of_eq level.symm⟩
      · rw [unread, unread, bytes, text, same]
        rfl
      · exact fun b member => continues b (List.mem_cons_of_mem byte member)
    · have level : after.line = after.tokenLine := reaches.trans starts.symm
      obtain ⟨first, rest, bytes, -, continues⟩ := Utf8.utf8EncodeChar_eq_cons c
      rw [bytes, List.tail_cons] at left
      -- Where a lexeme is looked for, there is no blank.
      have other : c ≠ '\n' := by
        rcases stands with some | ⟨none, -⟩ | ⟨d, more, same, noBlank, -⟩
        · contradiction
        · rw [none] at text
          cases text
        · rw [text] at same
          cases same
          rintro rfl
          cases noBlank
      have firstOther : first ≠ 10 := by
        have absent := Utf8.newline_not_mem other
        rw [bytes] at absent
        exact (List.ne_of_not_mem_cons absent).symm
      refine ⟨.refused [] first ?_ firstOther starts level, ?_, Nat.le_of_eq level.symm⟩
      · rw [unread_of_stray_nil whole, unread, text, left, same]
        simp [bytes]
      · rw [left]
        exact continues
    · have ordered : after.tokenLine ≤ after.line := by
        rw [starts, reaches]
        exact Nat.le_add_right _ _
      refine ⟨.unreadable passed ?_ ?_ ordered reaches, clear clean, ordered⟩
      · rw [unread_of_stray_nil whole, unread_of_stray_nil clean, used, Utf8.bytesOf_append]
      · rw [starts]
        exact sound.ordered

/-- A turn with more of a gap before it. -/
theorem Turn.behind {reader stopped after : Reader} {result : Except Obstacle Lexeme}
    {gap : List Char} (turn : stopped.Turn after result)
    (input : reader.unread = Utf8.bytesOf gap ++ stopped.unread)
    (lines : stopped.line = reader.line + gap.count '\n')
    (later : reader.tokenLine ≤ stopped.tokenLine) : reader.Turn after result := by
  have wider {more : List Char} {rest : List UInt8}
      (further : stopped.unread = Utf8.bytesOf more ++ rest) :
      reader.unread = Utf8.bytesOf (gap ++ more) ++ rest := by
    rw [input, further, Utf8.bytesOf_append, List.append_assoc]
  have deeper {more : List Char} {line : Nat} (further : line = stopped.line + more.count '\n') :
      line = reader.line + (gap ++ more).count '\n' := by
    rw [further, lines, List.count_append, Nat.add_assoc]
  cases turn with
  | lexeme more written further stands starts reaches =>
    exact .lexeme _ _ (wider further) stands (deeper starts) reaches
  | ended more further starts reaches => exact .ended _ (wider further) (deeper starts) reaches
  | refused more byte further other starts reaches =>
    exact .refused _ _ (wider further) other (deeper starts) reaches
  | unreadable more further starts within reaches =>
    exact .unreadable _ (wider further) (Nat.le_trans later starts) within (deeper reaches)

/-- The line noted for the latest lexeme or comment goes forward. -/
theorem Turn.tokenLine_le {reader after : Reader} {result : Except Obstacle Lexeme}
    (turn : reader.Turn after result) (ordered : reader.tokenLine ≤ reader.line) :
    reader.tokenLine ≤ after.tokenLine := by
  cases turn with
  | lexeme _ _ _ _ starts _ => exact Nat.le_trans ordered (by rw [starts]; exact Nat.le_add_right _ _)
  | ended _ _ starts _ => exact Nat.le_trans ordered (by rw [starts]; exact Nat.le_add_right _ _)
  | refused _ _ _ _ starts _ => exact Nat.le_trans ordered (by rw [starts]; exact Nat.le_add_right _ _)
  | unreadable _ _ starts _ _ => exact starts

/-- Each request takes a turn, and the next one can rely on the same. -/
theorem next_turn {reader after : Reader} {result : Except Obstacle Lexeme} (sound : reader.Sound)
    (taken : reader.next = (result, after)) : reader.Turn after result ∧ after.Sound := by
  obtain ⟨gap, input, lines⟩ := settle_unread reader
  obtain ⟨later, within⟩ := settle_tokenLine sound.ordered
  have left := sound.settle
  unfold next at taken
  split at taken
  · next reason stopped found =>
    rw [found] at input lines later within left
    cases taken
    exact ⟨.unreadable gap input later within lines, left⟩
  · next stopped found =>
    rw [found] at input lines later left
    obtain ⟨turn, sound⟩ := take_turn left (settle_stands found) taken
    exact ⟨turn.behind input lines later, sound⟩

end Reader
end TokenTape
