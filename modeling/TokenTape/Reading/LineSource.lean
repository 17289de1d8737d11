import TokenTape.Bytes.Text
/-!
Where further source text comes from. A line source is the list of replies that it will give,
one to each request; after the last of them it is exhausted and stays so.
-/
namespace TokenTape

/-- One answer to a request for more text. -/
inductive Reply where
  /-- More text, usually one line with its newline; it may be empty or hold several lines. -/
  | line (text : String)
  /-- The request failed for a reason; the next request may succeed. -/
  | failure (reason : String)
  deriving DecidableEq, Repr

/-- The replies still to come. -/
abbrev LineSource := List Reply

/-- Cuts a list after every element that ends a piece, onto the pieces cut so far. Both the
finished pieces and the current one are kept latest first. -/
def cutOnto {α : Type} (ends : α → Bool) (done : List (List α)) (current : List α) :
    List α → List (List α)
  | [] => (if current.isEmpty then done else current.reverse :: done).reverse
  | x :: rest =>
    if ends x then cutOnto ends ((x :: current).reverse :: done) [] rest
    else cutOnto ends done (x :: current) rest

/-- The pieces of a list, each of them up to and including an element that ends it. -/
def cutAfter {α : Type} (ends : α → Bool) (xs : List α) : List (List α) :=
  cutOnto ends [] [] xs

namespace LineSource

/-- The reply made of the bytes of one line. -/
def replyOfBytes (line : List UInt8) : Reply :=
  match Utf8.decode? line with
  | some text => .line text
  | none => .failure Utf8.complaint

/-- Gives the lines of a byte string one by one, and fails once for each line that is not
valid UTF-8. -/
def ofBytes (bytes : List UInt8) : LineSource :=
  (cutAfter (· == 10) bytes).map replyOfBytes

/-- Gives the lines of a text one by one. -/
def ofText (text : String) : LineSource :=
  (cutAfter (· == '\n') text.toList).map fun line => .line (String.ofList line)

end LineSource

theorem flatten_cutOnto {α : Type} (ends : α → Bool) (done : List (List α)) (current xs : List α) :
    (cutOnto ends done current xs).flatten = done.reverse.flatten ++ current.reverse ++ xs := by
  induction xs generalizing done current with
  | nil =>
    unfold cutOnto
    split
    · next h => simp [List.isEmpty_iff.mp h]
    · simp
  | cons x rest ih =>
    unfold cutOnto
    split <;> simp [ih]

/-- The pieces joined again are the list. -/
theorem flatten_cutAfter {α : Type} (ends : α → Bool) (xs : List α) :
    (cutAfter ends xs).flatten = xs := by
  simp [cutAfter, flatten_cutOnto]

end TokenTape
