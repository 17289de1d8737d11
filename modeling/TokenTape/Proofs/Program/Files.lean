import TokenTape.Program
import TokenTape.Proofs.Listing.Lines
import TokenTape.Proofs.Text.QuotedName
/-!
The files of a run. `Program.run` is a function of the files that can be read; `Program.runIn` keeps a
log besides, which it starts before anything is read. The log is the only file that a run touches, and
it changes nothing of what comes out unless the command asks for a file by way of the log itself
(`runIn_outcome`, `runIn_workplace`). A file that cannot be read is complained about by its name and
the reason, each told in full (`run_unreadable`).
-/
namespace TokenTape

/-! ## A file that is put into a directory -/

namespace FileTree

variable {tree : FileTree} {start path : List String} {name : String}

theorem isDirectory_iff :
    tree.isDirectory path = true ↔ path = [] ∨ (∃ directory ∈ tree.directories, path <+: directory) ∨
      ∃ file ∈ tree.files, path <+: file.1 ∧ path ≠ file.1 := by
  simp only [isDirectory, Bool.or_eq_true, List.isEmpty_iff, List.any_eq_true, Bool.and_eq_true,
    List.isPrefixOf_iff_prefix, bne_iff_ne, or_assoc]

/-- All that leads to a directory are directories. -/
theorem isDirectory_above (directory : tree.isDirectory path = true) {before : List String}
    (leads : before <+: path) : tree.isDirectory before = true := by
  rw [isDirectory_iff] at directory ⊢
  rcases directory with rfl | ⟨other, held, inside⟩ | ⟨file, held, inside, apart⟩
  · exact Or.inl (List.prefix_nil.mp leads)
  · exact Or.inr (Or.inl ⟨other, held, leads.trans inside⟩)
  · refine Or.inr (Or.inr ⟨file, held, leads.trans inside, ?_⟩)
    rintro rfl
    exact apart (inside.eq_of_length_le leads.length_le)

/-- A file that is put into a directory makes no new directory. -/
theorem isDirectory_put (inside : tree.isDirectory start = true) (bytes : List UInt8) :
    (tree.put (start ++ [name]) bytes).isDirectory path = tree.isDirectory path := by
  rw [Bool.eq_iff_iff, isDirectory_iff, isDirectory_iff]
  simp only [put, List.mem_cons, exists_eq_or_imp]
  constructor
  · rintro (empty | directory | ⟨leads, apart⟩ | file)
    · exact Or.inl empty
    · exact Or.inr (Or.inl directory)
    · rcases List.prefix_concat_iff.mp leads with same | before
      · exact absurd same apart
      · exact isDirectory_iff.mp (isDirectory_above inside before)
    · exact Or.inr (Or.inr file)
  · rintro (empty | directory | file)
    · exact Or.inl empty
    · exact Or.inr (Or.inl directory)
    · exact Or.inr (Or.inr (Or.inr file))

/-- Names that do not name the new file are followed as before, and do not lead to it. -/
theorem follow_put (inside : tree.isDirectory start = true) (bytes : List UInt8) {within names : List String}
    (outside : ¬ start ++ [name] <+: within.reverse) (unnamed : name ∉ names) :
    (tree.put (start ++ [name]) bytes).follow within names = tree.follow within names ∧
      ∀ place, tree.follow within names = .ok place → place.reverse ≠ start ++ [name] := by
  have elsewhere {place : List String} (outside : ¬ start ++ [name] <+: place) :
      place ≠ start ++ [name] := by
    rintro rfl
    exact outside List.prefix_rfl
  induction names generalizing within with
  | nil =>
    refine ⟨rfl, fun place found => ?_⟩
    cases found
    exact elsewhere outside
  | cons other rest ih =>
    obtain ⟨differs, later⟩ := List.ne_and_not_mem_of_not_mem_cons unnamed
    have up : ¬ start ++ [name] <+: within.tail.reverse := by
      intro below
      refine outside (below.trans ?_)
      rw [← List.dropLast_reverse]
      exact List.dropLast_prefix _
    have down : ¬ start ++ [name] <+: (other :: within).reverse := by
      rw [List.reverse_cons, List.prefix_concat_iff]
      rintro (same | below)
      · exact differs (List.append_inj_right' same rfl |> List.cons.inj |>.1)
      · exact outside below
    simp only [follow, isDirectory_put inside, file?_put, if_neg (elsewhere outside)]
    split
    · exact ⟨rfl, fun place found => by cases found⟩
    split
    · exact ih up later
    split
    · exact ⟨rfl, fun place found => by cases found⟩
    · exact ih down later

/-- A path that does not name the new file is located as before, and does not lead to it. -/
theorem locate_put (inside : tree.isDirectory start = true) (bytes : List UInt8) {path : String}
    (unnamed : name ∉ names path) :
    (tree.put (start ++ [name]) bytes).locate start path = tree.locate start path ∧
      ∀ place, tree.locate start path = .ok place → place ≠ start ++ [name] := by
  have outside : ¬ start ++ [name] <+:
      (if path.startsWith "/" then [] else start.reverse).reverse := by
    intro below
    have longer := below.length_le
    rw [List.length_append, List.length_singleton] at longer
    split at longer
    · rw [List.reverse_nil, List.length_nil] at longer
      omega
    · rw [List.reverse_reverse] at longer
      omega
  unfold locate
  generalize (if path.startsWith "/" then [] else start.reverse) = origin at outside
  obtain ⟨same, elsewhere⟩ := follow_put inside bytes outside unnamed
  refine ⟨by rw [same], fun place found => ?_⟩
  split at found
  · cases found
  split at found
  · cases found
  cases followed : tree.follow origin (names path) with
  | error failure =>
    rw [followed] at found
    cases found
  | ok reversed =>
    rw [followed] at found
    cases found
    exact elsewhere reversed followed

/-- A path that does not name the new file is read as before. -/
theorem read_put (inside : tree.isDirectory start = true) (bytes : List UInt8) {path : String}
    (unnamed : name ∉ names path) :
    (tree.put (start ++ [name]) bytes).read start path = tree.read start path := by
  obtain ⟨same, elsewhere⟩ := locate_put inside bytes unnamed
  unfold read
  rw [same]
  split
  · rfl
  · next place found => rw [isDirectory_put inside, file?_put, if_neg (elsewhere place found)]

/-- The directory in which a program is started is there. -/
theorem isDirectory_workplace (files : List (String × List UInt8)) (input : List UInt8) :
    (ofWorkplace files input).isDirectory workplace = true := by
  have kept : (ofWorkplace files input).directories = (system input).directories := by
    unfold ofWorkplace
    generalize system input = tree
    induction files generalizing tree with
    | nil => rfl
    | cons file files ih => exact ih _
  rw [isDirectory_iff, kept]
  exact Or.inr (Or.inl ⟨workplace, List.mem_cons_self, List.prefix_rfl⟩)

end FileTree

/-- A quoted name stands on one line. -/
theorem QuotedName.render_unbroken (name : String) : Unbroken (QuotedName.render name) := by
  intro newline
  have control : ((0x0, 0x1f) : Nat × Nat) ∈ Ranges.controls := List.mem_cons_self
  exact render_visible name '\n' newline _ List.mem_cons_self _ control (by decide)

/-! ## Runs -/

namespace Program

/-- A run reads the file that its command asks for and no other. -/
theorem run_congr {read other : String → Except ReadFailure (List UInt8)} {arguments : List String}
    (same : ∀ invocation ∈ CommandLine.parse? arguments, ∀ file ∈ invocation.command.file?,
      read file = other file) (input : LineSource) :
    run read arguments input = run other arguments input := by
  unfold run
  cases parsed : CommandLine.parse? arguments with
  | none => rfl
  | some invocation =>
    obtain ⟨command, settings, log⟩ := invocation
    have file := same _ parsed
    cases command with
    | tokenize name json => simp only [carryOut, lexFile, readText, file name rfl]
    | dump name => simp only [carryOut, lexFile, readText, file name rfl]
    | repl json => rfl

/-- Without a log, a run in a directory comes to what `run` makes of the files there, and no file is
touched. With a log, nothing is done where a directory stands in its place. Else the log has its first
line from then on and every other file is as it was; what comes out is what `run` makes of the files
as they are then. It is what it would have been without the log, if the command does not ask for a file
by way of the log. -/
theorem runIn_outcome {tree : FileTree} {start : List String} (inside : tree.isDirectory start = true)
    (arguments : List String) (input : LineSource) :
    let log := start ++ [logFile]
    let outcome := runIn tree start arguments input
    if keepsLog arguments = false then outcome = (run (tree.read start) arguments input, tree)
    else if tree.isDirectory log then outcome = (.done 1 "" (logComplaint .isDirectory), tree)
    else
      (∀ path, outcome.2.isDirectory path = tree.isDirectory path) ∧
      (∀ path, outcome.2.file? path =
        if path = log then some (Utf8.encode (logHead arguments)) else tree.file? path) ∧
      outcome.1 = run (outcome.2.read start) arguments input ∧
      ((∀ invocation ∈ CommandLine.parse? arguments, ∀ file ∈ invocation.command.file?,
          logFile ∉ FileTree.names file) →
        outcome.1 = run (tree.read start) arguments input) := by
  intro log outcome
  simp only [outcome, runIn, FileTree.write]
  cases kept : keepsLog arguments with
  | false => simp
  | true =>
    simp only [Bool.true_eq_false, if_false, if_true]
    split
    · rfl
    · refine ⟨fun path => FileTree.isDirectory_put inside _, fun path => FileTree.file?_put ..,
        rfl, fun unnamed => ?_⟩
      exact run_congr (fun invocation parsed file asked =>
        FileTree.read_put inside _ (unnamed invocation parsed file asked)) input

/-- In the workplace of a program, what comes out is what `run` makes of the files there, with a log
or without one, if no directory has the name of the log and the command does not ask for a file by
way of it. -/
theorem runIn_workplace (files : List (String × List UInt8)) (bytes : List UInt8)
    (arguments : List String) (input : LineSource)
    (free : (FileTree.ofWorkplace files bytes).isDirectory (FileTree.workplace ++ [logFile]) = false)
    (unnamed : ∀ invocation ∈ CommandLine.parse? arguments, ∀ file ∈ invocation.command.file?,
      logFile ∉ FileTree.names file) :
    (runIn (FileTree.ofWorkplace files bytes) FileTree.workplace arguments input).1 =
      run ((FileTree.ofWorkplace files bytes).read FileTree.workplace) arguments input := by
  have outcome := runIn_outcome (FileTree.isDirectory_workplace files bytes) arguments input
  dsimp only at outcome
  cases kept : keepsLog arguments with
  | false =>
    rw [if_pos kept] at outcome
    rw [outcome]
  | true =>
    rw [if_neg (by simp [kept]), if_neg (by simp [free])] at outcome
    exact outcome.2.2.2 unnamed

/-! ## Files that cannot be read -/

/-- A complaint about a file tells its name and the reason. -/
theorem readComplaint_inj {file other : String} {failure reason : ReadFailure}
    (same : readComplaint file failure = readComplaint other reason) :
    file = other ∧ failure.message = reason.message := by
  have framed {before between behind message cause : String}
      (same : before ++ QuotedName.render file ++ between ++ message ++ behind =
        before ++ QuotedName.render other ++ between ++ cause ++ behind) :
      file = other ∧ message = cause := by
    have text := String.toList_inj.mpr same
    simp only [String.toList_append, List.append_assoc, List.append_cancel_left_eq] at text
    obtain ⟨named, told⟩ := QuotedName.render_append_inj.mp text
    rw [List.append_cancel_left_eq, List.append_cancel_right_eq] at told
    exact ⟨named, String.toList_inj.mp told⟩
  exact framed same

theorem readComplaint_eq (file : String) (failure : ReadFailure) :
    readComplaint file failure = Listing.unlines
      ["Error: Failed to read file " ++ QuotedName.render file, "", "Caused by:",
        "    " ++ failure.message] := by
  have joined (head between foot : String) :
      head ++ QuotedName.render file ++ ("\n" ++ ("" ++ "\n" ++ (between ++ "\n" ++ foot))) ++
          failure.message ++ "\n" =
        Listing.unlines [head ++ QuotedName.render file, "", between, foot ++ failure.message] := by
    have done : Listing.unlines [] = "" := rfl
    simp only [Listing.unlines_cons, done, String.append_assoc, String.append_empty]
  have between : "\n\nCaused by:\n    " = "\n" ++ ("" ++ "\n" ++ ("Caused by:" ++ "\n" ++ "    ")) := by
    decide +kernel
  have shown := joined "Error: Failed to read file " "Caused by:" "    "
  rw [← between] at shown
  exact shown

/-- Where the file that is asked for cannot be read, nothing is listed. The complaint has four lines,
whatever name the file has, if the reason has one, and no other file or reason has the same
complaint. -/
theorem run_unreadable {read : String → Except ReadFailure (List UInt8)} {arguments : List String}
    {invocation : Invocation} {file : String} {failure : ReadFailure}
    (parsed : CommandLine.parse? arguments = some invocation)
    (asked : invocation.command.file? = some file) (failed : readText read file = .error failure)
    (input : LineSource) :
    run read arguments input = .done 1 "" (readComplaint file failure) ∧
      (Unbroken failure.message → Listing.printedLines (readComplaint file failure) =
        ["Error: Failed to read file " ++ QuotedName.render file, "", "Caused by:",
          "    " ++ failure.message].map (· ++ "\n")) ∧
      ∀ other reason, readComplaint other reason = readComplaint file failure →
        other = file ∧ reason.message = failure.message := by
  refine ⟨?outcome, fun plain => ?lines, fun _ _ => readComplaint_inj⟩
  case outcome =>
    obtain ⟨command, settings, log⟩ := invocation
    rw [run, parsed]
    cases command with
    | tokenize name json =>
      cases asked
      simp only [carryOut, lexFile, failed]
    | dump name =>
      cases asked
      simp only [carryOut, lexFile, failed]
    | repl json => cases asked
  case lines =>
    rw [readComplaint_eq, Listing.printedLines_unlines_iff]
    simp only [List.forall_mem_cons, List.not_mem_nil, false_implies, implies_true, and_true]
    exact ⟨.append (by decide) (QuotedName.render_unbroken file), by decide, by decide, .append (by decide) plain⟩

end Program
end TokenTape
