import DiskStaging.Proofs.Operations

/-!
# Copying a source into a file

Everything that a source still gives goes into the file at a path. Reading it until nothing
comes gives the bytes up to its end, or up to the position where reading breaks off, and ends
as the source does there (`Source.pour_eq`), whatever the pieces and whatever is asked for at a
time. So a copy either does nothing at all, or the file holds exactly these bytes, and only a
source that came to its end is said to be copied (`streamToFile_copied`).
-/

set_option autoImplicit false

namespace DiskStaging

namespace Source

/-! ## Reading a source out -/

/-- What breaks off the reading of all that a source still gives, if it does not come to
the end. -/
def breaks? (source : Source) : Option Fault :=
  if source.closed then some .contentClosed
  else source.failure.bind fun failure =>
    if failure.position ≤ source.position + source.rest.length then some failure.fault else none

variable {source : Source} {size : Option Nat} {fault : Fault}

theorem breaks?_of_fault (broken : source.fault? = some fault) :
    source.breaks? = some fault := by
  unfold fault? at broken
  unfold breaks?
  by_cases shut : source.closed = true
  · rwa [if_pos shut] at broken ⊢
  · rw [if_neg shut] at broken ⊢
    obtain ⟨failure, there, reached⟩ := Option.bind_eq_some_iff.mp broken
    rw [there, Option.bind_some]
    split at reached
    · rename_i past
      rw [if_pos (Nat.le_add_right_of_le past)]
      exact reached
    · cases reached

theorem breaks?_of_whole (whole : source.whole = true) : source.breaks? = none := by
  simp only [Source.whole, Bool.and_eq_true, Bool.not_eq_true'] at whole
  obtain ⟨opened, far⟩ := whole
  rw [breaks?, opened, if_neg Bool.false_ne_true]
  cases ahead : source.failure with
  | none => rfl
  | some failure =>
    rw [ahead, Option.all_some, decide_eq_true_eq] at far
    rw [Option.bind_some, if_neg (Nat.not_le_of_lt far)]

/-- Reading on changes nothing about what will break the reading off. -/
theorem breaks?_advance {count : Nat} (fits : count ≤ source.rest.length)
    (asked : List (Option Nat)) : (source.advance count asked).breaks? = source.breaks? := by
  have same : source.position + count + (source.rest.length - count) =
      source.position + source.rest.length := by omega
  have closed : (source.advance count asked).closed = source.closed := rfl
  unfold breaks?
  rw [closed]
  simp only [advance, List.length_drop, same]

/-- **Reading a source until nothing comes gives all that it gives**, and ends as the source
does. -/
theorem pour_eq (pieces : source.most ≠ some 0) (sized : size ≠ some 0)
    (gathered : Array UInt8) :
    (reader.pour size gathered source).content.toList = gathered.toList ++ source.remaining ∧
      (reader.pour size gathered source).fault = source.breaks? ∧
        ∃ asked, (reader.pour size gathered source).state =
          source.advance source.remaining.length asked := by
  -- What was gathered, and behind it what the source still gives, is the same in every turn.
  fun_induction Reader.pour reader size gathered source with
  | case1 gathered source fault after read =>
    obtain ⟨broken, rfl⟩ := read_error read
    rw [(remaining_of_fault broken).1]
    exact ⟨(List.append_nil _).symm, (breaks?_of_fault broken).symm, _, rfl⟩
  | case2 gathered source after read =>
    obtain ⟨going, nothing, rfl⟩ := read_ok read
    rw [piece_eq going] at nothing
    have none : source.remaining = [] :=
      eq_nil_of_atMost_eq_nil pieces (eq_nil_of_atMost_eq_nil sized nothing.symm)
    rw [none]
    exact ⟨(List.append_nil _).symm,
      (breaks?_of_whole (whole_of_remaining_nil going none)).symm, _, rfl⟩
  | case3 gathered source byte more after read ih =>
    obtain ⟨going, given, rfl⟩ := read_ok read
    have fits : (byte :: more).length ≤ source.rest.length := given ▸ source.length_piece_le size
    obtain ⟨later, front⟩ : byte :: more <+: source.remaining := by
      rw [given, piece_eq going]
      exact (prefix_atMost ..).trans (prefix_atMost ..)
    have rest : (source.advance (byte :: more).length (size :: source.asked)).remaining =
        later := by
      rw [remaining_advance, ← front, List.drop_left]
    obtain ⟨content, ended, asked, left⟩ := ih pieces
    rw [rest] at content left
    refine ⟨?_, ended.trans (breaks?_advance fits _), asked, ?_⟩
    · rw [content, Array.toList_appendList, List.append_assoc, front]
    · rw [left, ← front, List.length_append]
      simp only [advance, List.drop_drop, Nat.add_assoc]

end Source

/-! ## Copies -/

/-- The ending of a copy of what a source still gives into the file at a path. -/
inductive Copied (path : Path) (files : FileTree) (source : Source) :
    Ending (FileTree × Source) Nat → Prop
  /-- The file cannot be opened: nothing was written and nothing was read. -/
  | unopened {why : FileFault} (refused : files.openFile path = .error why) :
    Copied path files source (.error (.copy path.render (.file path.render why)) (files, source))
  /-- The source was closed before. -/
  | shut {place : Place} {written : FileTree} {asked : List (Option Nat)}
    (opened : files.openFile path = .ok place) (closed : source.closed = true)
    (emptied : FileTree.Written files written place []) :
    Copied path files source
      (.error (.copy path.render .contentClosed) (written, source.advance 0 asked))
  /-- Reading breaks off on the way, and the file holds what came before that. -/
  | broken {place : Place} {written : FileTree} {asked : List (Option Nat)} {failure : Break}
    {given : Bytes} (opened : files.openFile path = .ok place) (going : source.closed = false)
    (fails : source.failure = some failure)
    (within : failure.position ≤ source.position + source.rest.length)
    (front : given = source.rest.take (failure.position - source.position))
    (partly : FileTree.Written files written place given) :
    Copied path files source
      (.error (.copy path.render failure.fault) (written, source.advance given.length asked))
  /-- The source came to its end, and the file holds all that was left of it. -/
  | whole {place : Place} {written : FileTree} {asked : List (Option Nat)}
    (opened : files.openFile path = .ok place) (going : source.closed = false)
    (unbroken : ∀ failure ∈ source.failure,
      source.position + source.rest.length < failure.position)
    (all : FileTree.Written files written place source.rest) :
    Copied path files source
      (.ok source.rest.length (written, source.advance source.rest.length asked))

/-- **A copy is exact or fails cleanly.** However a source arrives and however many bytes are
copied at a time, the number of all bytes that were left comes back only where the source came
to its end, and then the file holds these. Otherwise the copy reports what went wrong, and the
file, if it could be opened, holds the bytes up to the position where reading broke off. Nothing
but the file is changed. A device that forgets what is written to it holds nothing in either case
(`FileTree.Written`). -/
theorem streamToFile_copied {source : Source} {chunk : Option Int}
    (pieces : source.most ≠ some 0) (sized : chunk ≠ some 0) (path : Path) (files : FileTree) :
    Copied path files source (streamToFile Source.reader path chunk (files, source)) := by
  cases opened : files.openFile path with
  | error why =>
    rw [streamToFile, opened]
    exact .unopened opened
  | ok place =>
    obtain ⟨content, ended, asked, left⟩ :=
      Source.pour_eq pieces (sizeAsked_ne_zero sized) #[]
    rw [List.nil_append] at content
    have size : (Source.reader.pour (sizeAsked chunk) #[] source).content.size =
        source.remaining.length := by
      rw [← Array.length_toList, content]
    have written (given : Bytes) : FileTree.Written files (files.write place given) place given :=
      FileTree.written_write (FileTree.place_ne_nil opened) given
    simp only [streamToFile_eq _ opened, ended, content, left, size]
    cases closed : source.closed with
    | true =>
      have none : source.remaining = [] := by rw [Source.remaining, if_pos closed]
      rw [Source.breaks?, if_pos closed, none]
      exact .shut opened closed (written [])
    | false =>
      have going : ¬ source.closed = true := by
        rw [closed]
        exact Bool.false_ne_true
      rw [Source.breaks?, Source.remaining, if_neg going, if_neg going]
      cases fails : source.failure with
      | none =>
        refine .whole opened closed ?_ (written source.rest)
        intro failure there
        rw [fails] at there
        cases there
      | some failure =>
        by_cases within : failure.position ≤ source.position + source.rest.length
        · simp only [Option.bind_some, if_pos within]
          exact .broken opened closed fails within rfl (written _)
        -- A break behind the end of the data is never met.
        · have far : source.rest.length ≤ failure.position - source.position := by omega
          have all : atMost ((some failure).map (·.position - source.position)) source.rest =
              source.rest := List.take_of_length_le far
          simp only [Option.bind_some, if_neg within, all]
          refine .whole opened closed ?_ (written source.rest)
          rintro _ there
          rw [fails] at there
          cases there
          exact Nat.lt_of_not_le within

/-- A source that comes in pairs of bytes and breaks off after three leaves three in the file. -/
theorem streamToFile_copied_broken :
    let source : Source := {
      rest := [1, 2, 3, 4, 5]
      most := some 2
      failure := some ⟨3, .foreign .connectionReset "gone"⟩ }
    ∃ written left, streamToFile Source.reader ⟨.here, ["disk"]⟩ none (.fresh, source) =
        .error (.copy "disk" (.foreign .connectionReset "gone")) (written, left) ∧
      left.rest = [4, 5] ∧ FileTree.Written .fresh written ["tmp", "work", "disk"] [1, 2, 3] := by
  intro source
  have copied : Copied ⟨.here, ["disk"]⟩ .fresh source
      (streamToFile Source.reader ⟨.here, ["disk"]⟩ none (.fresh, source)) :=
    streamToFile_copied (by decide) (by decide) _ _
  generalize streamToFile Source.reader ⟨.here, ["disk"]⟩ none (.fresh, source) = ending at copied
  cases copied with
  | unopened refused =>
    rw [Session.openFile_fresh] at refused
    cases refused
  | shut opened closed emptied => cases closed
  | broken opened going fails within front partly =>
    rw [Session.openFile_fresh] at opened
    cases opened
    cases fails
    cases front
    exact ⟨_, _, rfl, rfl, partly⟩
  | whole opened going unbroken all =>
    have short := unbroken _ rfl
    exact absurd short (by decide)

end DiskStaging
