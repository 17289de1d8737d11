import TokenTape.Proofs.Reading.LongestMatch
/-!
Text that comes in pieces: the rest of the text at hand and the lines that continue it. A body that
goes over several pieces is read as if they had been joined (`Body.read_goneThrough`), and it ends
in the piece that has the closing character in it, with all later pieces left
(`GoneThrough.exists_of_whole`).
-/
namespace TokenTape

theorem LineSource.text_map_line_append (lines : List String) (further : LineSource) :
    text (lines.map .line ++ further) = lines.flatMap String.toList ++ further.text := by
  rw [text, List.flatMap_append, List.flatMap_map]
  rfl

/-- The text at hand and the lines behind it, gone through up to some place: what is gone, what is
left of the piece that this place is in, and the lines after that piece. -/
inductive GoneThrough : List Char → List String → List Char → List Char → List String → Prop
  | within (gone rest : List Char) (lines : List String) :
      GoneThrough (gone ++ rest) lines gone rest lines
  | beyond {more : String} {lines later : List String} {gone rest : List Char} (text : List Char)
      (further : GoneThrough more.toList lines gone rest later) :
      GoneThrough text (more :: lines) (text ++ gone) rest later

namespace GoneThrough

/-- All pieces can be gone through. -/
theorem all (text : List Char) (lines : List String) :
    GoneThrough text lines (text ++ lines.flatMap String.toList) [] [] := by
  induction lines generalizing text with
  | nil =>
    have within := GoneThrough.within text [] []
    rw [List.append_nil] at within
    rwa [List.flatMap_nil, List.append_nil]
  | cons more lines ih =>
    rw [List.flatMap_cons]
    exact .beyond text (ih more.toList)

/-- A character of the joined text stands in one of the pieces. -/
theorem exists_of_whole {text gone behind : List Char} {c : Char} {lines : List String}
    (whole : text ++ lines.flatMap String.toList = gone ++ c :: behind) :
    ∃ rest later, GoneThrough text lines gone (c :: rest) later ∧
      behind = rest ++ later.flatMap String.toList := by
  induction lines generalizing text gone with
  | nil =>
    rw [List.flatMap_nil, List.append_nil] at whole
    subst whole
    exact ⟨behind, [], .within gone (c :: behind) [], (List.append_nil behind).symm⟩
  | cons more lines ih =>
    rw [List.flatMap_cons] at whole
    rcases List.append_eq_append_iff.mp whole with ⟨inside, rfl, left⟩ | ⟨inside, rfl, left⟩
    · obtain ⟨rest, later, further, same⟩ := ih left
      exact ⟨rest, later, .beyond text further, same⟩
    · cases inside with
      | nil =>
        obtain ⟨rest, later, further, same⟩ := ih (show _ = [] ++ c :: behind from left.symm)
        refine ⟨rest, later, ?_, same⟩
        have beyond := further.beyond gone
        rw [List.append_nil] at beyond ⊢
        exact beyond
      | cons d rest =>
        obtain ⟨rfl, same⟩ := List.cons_eq_cons.mp left
        exact ⟨rest, more :: lines, .within gone (c :: rest) (more :: lines), same⟩

end GoneThrough

namespace Body

variable {closer : Closer} {memory last : Bool} {text gone rest : List Char}
  {lines later : List String}

/-- A body goes on over text that does not close it, also from one piece to the next. -/
theorem read_goneThrough (through : GoneThrough text lines gone rest later)
    (passes : closer.after memory gone = some last) (reversed : List Char) (further : LineSource) :
    read closer memory reversed text (lines.map .line ++ further) =
      read closer last (gone.reverse ++ reversed) rest (later.map .line ++ further) := by
  induction through generalizing memory reversed with
  | within gone rest lines => exact read_append passes reversed rest _
  | @beyond more lines later gone rest text _ ih =>
    rw [Closer.after_append, Option.bind_eq_some_iff] at passes
    obtain ⟨middle, first, passes⟩ := passes
    have joins := read_append first reversed [] (.line more :: (lines.map .line ++ further))
    rw [List.append_nil] at joins
    rw [List.map_cons, List.cons_append, joins, read, ih passes, List.reverse_append,
      List.append_assoc]

/-- A body that is closed ends right behind what closes it, with the later pieces left. -/
theorem read_closed {c : Char} (through : GoneThrough text lines gone (c :: rest) later)
    (passes : closer.after memory gone = some last) (closes : closer last c = none)
    (further : LineSource) :
    read closer memory [] text (lines.map .line ++ further) =
      ⟨.closed, gone.reverse, rest, later.map .line ++ further⟩ := by
  rw [read_goneThrough through passes, read, closes, List.append_nil]

/-- A body that no piece closes goes on in what comes after them. -/
theorem read_open (passes : closer.after memory (text ++ lines.flatMap String.toList) = some last)
    (further : LineSource) :
    read closer memory [] text (lines.map .line ++ further) =
      read closer last (text ++ lines.flatMap String.toList).reverse [] further := by
  have joins := read_goneThrough (.all text lines) passes [] further
  rwa [List.append_nil] at joins

end Body
end TokenTape
