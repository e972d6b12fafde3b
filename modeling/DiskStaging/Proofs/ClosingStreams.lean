import DiskStaging.Proofs.Keeping
import Mathlib.Logic.Relation

/-!
# Closing streams over one source

Any number of streams may be opened over one source, each over one that is there already, and
all of them may be looked at, read and closed in any order, also when closing the source raises.
Closing a stream closes those below it as well, so that a closed stream never stands on an
open one, and the source was closed just as often as the root was (`Streams.Coherent`). Every
call keeps this up (`Streams.Coherent.called`). So the streams close their source once at the
most, and a closed stream does nothing any more (`Streams.closed_coherently`).
-/

set_option autoImplicit false

namespace DiskStaging

namespace Streams

variable {count : Nat}

/-! ## Trees of streams -/

/-- A stream was opened over another one. -/
inductive OpenedOver : {count : Nat} → Streams count → Nat → Nat → Prop
  | newest {count : Nat} {below : Fin (count + 1)} {unpacker : Unpacker} {front : Lookahead}
    {older : Streams count} : OpenedOver (.atop below unpacker front older) (count + 1) below
  | older {count i j : Nat} {below : Fin (count + 1)} {unpacker : Unpacker} {front : Lookahead}
    {older : Streams count} (opened : OpenedOver older i j) :
    OpenedOver (.atop below unpacker front older) i j

/-- Whether the stream of some number was closed. -/
def isClosed (streams : Streams count) (i : Nat) : Bool := (streams.fronts[i]?).any (·.closed)

theorem length_fronts (streams : Streams count) : streams.fronts.length = count + 1 := by
  induction streams with
  | root source front => rfl
  | atop below unpacker front older ih => rw [fronts, List.length_append, ih, List.length_singleton]

section Numbers

variable {i j : Nat} {below : Fin (count + 1)} {unpacker : Unpacker} {front : Lookahead}
  {older : Streams count}

/-- Streams are opened over older ones. -/
theorem OpenedOver.lt {streams : Streams count} (opened : OpenedOver streams i j) :
    j < i ∧ i < count + 1 := by
  induction opened with
  | @newest count below => exact ⟨below.isLt, Nat.lt_succ_self _⟩
  | older opened ih => exact ⟨ih.1, Nat.lt_succ_of_lt ih.2⟩

theorem isClosed_root (source : Source) (front : Lookahead) (i : Fin 1) :
    (Streams.root source front).isClosed i = front.closed := by
  rw [isClosed, Nat.lt_one_iff.mp i.isLt]
  rfl

theorem isClosed_older (old : i < count + 1) :
    (Streams.atop below unpacker front older).isClosed i = older.isClosed i := by
  rw [isClosed, fronts, List.getElem?_append_left (by rwa [length_fronts]), isClosed]

theorem isClosed_newest :
    (Streams.atop below unpacker front older).isClosed (count + 1) = front.closed := by
  rw [isClosed, fronts, List.getElem?_append_right (Nat.le_of_eq (length_fronts older)),
    length_fronts, Nat.sub_self]
  rfl

/-- A stream that is no older one is the newest. -/
theorem eq_of_not_old {i : Fin (count + 2)} (newest : ¬ i.val < count + 1) :
    i.val = count + 1 := by
  omega

end Numbers

/-! ## Closed streams -/

section Closed

variable {streams : Streams count} {i : Fin (count + 1)}

/-- A closed stream shows nothing, and nobody notices the attempt. -/
theorem peek_closed (shut : streams.isClosed i = true) (size : Option Int) :
    peek size i streams = .error .streamClosed streams := by
  induction streams with
  | root source front =>
    rw [isClosed_root] at shut
    simp only [peek, Lookahead.peek, if_pos shut]
    rfl
  | atop below unpacker front older ih =>
    simp only [peek]
    split
    · rename_i old
      rw [isClosed_older old] at shut
      rw [ih (i := ⟨i, old⟩) shut]
      rfl
    · rename_i newest
      rw [eq_of_not_old newest, isClosed_newest] at shut
      simp only [Lookahead.peek, if_pos shut]
      rfl

/-- A closed stream gives nothing, and nobody notices the attempt. -/
theorem read_closed (shut : streams.isClosed i = true) (size : Option Nat) :
    read i size streams = .error .streamClosed streams := by
  rw [read]
  induction streams with
  | root source front =>
    rw [isClosed_root] at shut
    simp only [reader, rootReader, Lookahead.read, if_pos shut]
    rfl
  | atop below unpacker front older ih =>
    rw [reader]
    split
    · rename_i old
      rw [isClosed_older old] at shut
      simp only [olderReader, ih (i := ⟨i, old⟩) shut]
      rfl
    · rename_i newest
      rw [eq_of_not_old newest, isClosed_newest] at shut
      simp only [newestReader, Lookahead.read, if_pos shut]
      rfl

/-- Closing a closed stream does nothing. -/
theorem close_closed (shut : streams.isClosed i = true) : close i streams = .ok () streams := by
  induction streams with
  | root source front =>
    rw [isClosed_root] at shut
    simp only [close, if_pos shut]
  | atop below unpacker front older ih =>
    simp only [close]
    split
    · rename_i old
      rw [isClosed_older old] at shut
      rw [ih (i := ⟨i, old⟩) shut]
      rfl
    · rename_i newest
      rw [eq_of_not_old newest, isClosed_newest] at shut
      rw [if_pos shut]

/-- Streams of one shape are open and closed alike. -/
theorem Alike.isClosed {start streams : Streams count} (alike : Alike start streams) (i : Nat) :
    streams.isClosed i = start.isClosed i := by
  have same : streams.fronts.map (·.closed) = start.fronts.map (·.closed) := by
    induction alike with
    | root closed => exact congrArg (fun closed => [closed]) closed
    | atop closed _ ih =>
      simp only [fronts, List.map_append, ih, List.map_cons, List.map_nil, closed]
  have told (streams : Streams count) :
      streams.isClosed i = ((streams.fronts.map (·.closed))[i]?).getD false := by
    rw [Streams.isClosed, List.getElem?_map]
    cases streams.fronts[i]? <;> rfl
  rw [told, told, same]

end Closed

/-! ## Coherence -/

/-- Closed streams stand on closed ones, and the source was closed as often as before and, if
the root is closed, once more. -/
def Coherent (closes : Nat) : {count : Nat} → Streams count → Prop
  | _, .root source front => source.closes = closes + front.closed.toNat
  | _, .atop below _ front older =>
    (front.closed = true → older.isClosed below = true) ∧ Coherent closes older

namespace Coherent

variable {closes : Nat} {streams : Streams count}

/-- A stream that was opened over an open one is open. -/
theorem below (coherent : Coherent closes streams) {i j : Nat} (opened : streams.OpenedOver i j)
    (shut : streams.isClosed i = true) : streams.isClosed j = true := by
  induction opened with
  | @newest count below unpacker front older =>
    rw [isClosed_newest] at shut
    rw [isClosed_older below.isLt]
    exact coherent.1 shut
  | older opened ih =>
    obtain ⟨lower, old⟩ := opened.lt
    rw [isClosed_older old] at shut
    rw [isClosed_older (Nat.lt_trans lower old)]
    exact ih coherent.2 shut

/-- The source was closed as often as before, and once more if the root is closed. -/
theorem closes_eq (coherent : Coherent closes streams) :
    streams.source.closes = closes + (streams.isClosed 0).toNat := by
  induction streams with
  | root source front => exact coherent
  | atop below unpacker front older ih =>
    rw [isClosed_older (Nat.succ_pos _)]
    exact ih coherent.2

/-- Below a closed stream, the root is closed. -/
theorem root_closed (coherent : Coherent closes streams) {i : Fin (count + 1)}
    (shut : streams.isClosed i = true) : streams.isClosed 0 = true := by
  induction streams with
  | root source front => rwa [isClosed_root] at shut
  | @atop count below unpacker front older ih =>
    rw [isClosed_older (Nat.succ_pos _)]
    by_cases old : i.val < count + 1
    · rw [isClosed_older old] at shut
      exact ih coherent.2 (i := ⟨i, old⟩) shut
    · rw [eq_of_not_old old, isClosed_newest] at shut
      exact ih coherent.2 (coherent.1 shut)

theorem alike {start : Streams count} (coherent : Coherent closes start)
    (alike : Alike start streams) : Coherent closes streams := by
  induction alike with
  | root closed same =>
    rw [Coherent, closed, same]
    exact coherent
  | atop closed alike ih =>
    refine ⟨?_, ih coherent.2⟩
    rw [closed, alike.isClosed]
    exact coherent.1

end Coherent

/-- What was closed before is closed after. -/
def StillClosed (before after : Streams count) : Prop :=
  ∀ i : Fin (count + 1), before.isClosed i = true → after.isClosed i = true

theorem StillClosed.atop {below : Fin (count + 1)} {unpacker : Unpacker} {front next : Lookahead}
    {older later : Streams count} (still : StillClosed older later)
    (top : front.closed = true → next.closed = true) :
    StillClosed (.atop below unpacker front older) (.atop below unpacker next later) := by
  intro i already
  by_cases old : i.val < count + 1
  · rw [isClosed_older old] at already ⊢
    exact still ⟨i, old⟩ already
  · rw [eq_of_not_old old, isClosed_newest] at already ⊢
    exact top already

/-- **Closing a stream closes it for good**, whether or not closing the source raises. -/
theorem Coherent.close {closes : Nat} {streams : Streams count} (coherent : Coherent closes streams)
    (i : Fin (count + 1)) :
    Coherent closes (Ending.state (Streams.close i streams)) ∧
      (Ending.state (Streams.close i streams)).isClosed i = true ∧
        StillClosed streams (Ending.state (Streams.close i streams)) := by
  induction streams with
  | root source front =>
    simp only [Streams.close]
    split
    · rename_i shut
      exact ⟨coherent, (isClosed_root ..).trans shut, fun _ already => already⟩
    · rename_i opened
      have before : source.closes = closes := by
        rw [coherent, Bool.eq_false_iff.mpr opened]
        rfl
      have once := source.closes_close
      rw [before] at once
      rw [Ending.state_inside]
      exact ⟨once, isClosed_root .., fun _ _ => isClosed_root ..⟩
  | @atop count below unpacker front older ih =>
    simp only [Streams.close]
    split
    · rename_i old
      obtain ⟨kept, closed, still⟩ := ih coherent.2 ⟨i, old⟩
      rw [Ending.state_inside]
      exact ⟨⟨fun top => still below (coherent.1 top), kept⟩, (isClosed_older old).trans closed,
        still.atop id⟩
    · rename_i newest
      rw [eq_of_not_old newest]
      split
      · rename_i shut
        exact ⟨coherent, isClosed_newest.trans shut, fun _ already => already⟩
      · obtain ⟨kept, closed, still⟩ := ih coherent.2 below
        rw [Ending.state_inside]
        exact ⟨⟨fun _ => closed, kept⟩, isClosed_newest, still.atop fun _ => rfl⟩

/-! ## Calls -/

/-- What can be called on a stream. -/
inductive Call where
  | peek (size : Option Int)
  | read (size : Option Int)
  | close
  /-- Comes into the scope of the stream. -/
  | enter
  /-- Leaves the scope of the stream, which closes it. -/
  | exit
  /-- Opens a stream over it. -/
  | unpack (compression : Compression)
  deriving DecidableEq, Repr

/-- Makes a call on the stream of some number. Only looking and reading give bytes. -/
def perform (i : Fin (count + 1)) (call : Call) (streams : Streams count) :
    Ending Content (Option Bytes) :=
  match call with
  | .peek size => Ending.inside Content.mk ((some <$> peek size i) streams)
  | .read size => Ending.inside Content.mk ((some <$> read i (sizeAsked size)) streams)
  | .close | .exit => Ending.inside Content.mk (((fun () => none) <$> close i) streams)
  | .enter => .ok none ⟨streams⟩
  | .unpack compression => .ok none ⟨streams.unpack compression i⟩

/-- The streams that calls have led to, over a source of which one stream was opened first. -/
inductive Grown (source : Source) : Content → Prop
  | opened : Grown source (.ofSource source)
  | called {count : Nat} {streams : Streams count} (grown : Grown source ⟨streams⟩)
    (i : Fin (count + 1)) (call : Call) : Grown source (Ending.state (perform i call streams))

theorem state_map {σ α β : Type} (f : α → β) (act : Act σ α) (state : σ) :
    Ending.state ((f <$> act) state) = Ending.state (act state) := by
  simp only [Functor.map, EStateM.map]
  cases act state <;> rfl

section Calls

variable {closes : Nat} {streams : Streams count}

/-- **Every call leaves coherent streams behind.** -/
theorem Coherent.called (coherent : Coherent closes streams) (i : Fin (count + 1)) (call : Call) :
    Coherent closes (Ending.state (perform i call streams)).streams := by
  cases call with
  | peek size =>
    rw [perform, Ending.state_inside, state_map]
    exact coherent.alike (peek_keeps size streams i streams (.refl streams))
  | read size =>
    rw [perform, Ending.state_inside, state_map]
    exact coherent.alike (reader_keeps streams i _ streams (.refl streams))
  | close | exit =>
    rw [perform, Ending.state_inside, state_map]
    exact (coherent.close i).1
  | enter => exact coherent
  | unpack compression => exact ⟨fun top => (by cases top), coherent⟩

theorem Grown.coherent {source : Source} {content : Content} (grown : Grown source content) :
    Coherent source.closes content.streams := by
  induction grown with
  | opened => rfl
  | called _ i call ih => exact ih.called i call

end Calls

/-! ## Whole runs -/

/-- A stream stands on another one, with any number of streams in between. -/
def StandsOn (streams : Streams count) : Nat → Nat → Prop := Relation.TransGen streams.OpenedOver

/-- How streams over a source close, and what a closed one still does. -/
structure ClosesWell (source : Source) (streams : Streams count) : Prop where
  /-- Closed streams stand on closed ones only. -/
  below : ∀ i j, streams.StandsOn i j → streams.isClosed i = true → streams.isClosed j = true
  /-- As long as all streams are open, they have not closed the source. -/
  untouched : (∀ i : Fin (count + 1), streams.isClosed i = false) →
    streams.source.closes = source.closes
  /-- Once any of them is closed, they have closed the source exactly once. -/
  once : ∀ i : Fin (count + 1), streams.isClosed i = true →
    streams.source.closes = source.closes + 1
  /-- Who closes a stream or leaves its scope has closed it, even if that raises. -/
  closes : ∀ (i : Fin (count + 1)) (call : Call), call = .close ∨ call = .exit →
    ∃ after : Streams count, Ending.state (perform i call streams) = ⟨after⟩ ∧
      after.isClosed i = true ∧ StillClosed streams after
  /-- Closing a closed stream again raises nothing and changes nothing. -/
  again : ∀ (i : Fin (count + 1)) (call : Call), call = .close ∨ call = .exit →
    streams.isClosed i = true → perform i call streams = .ok none ⟨streams⟩
  /-- Looking at a closed stream and reading it are refused, and change nothing. -/
  refused : ∀ (i : Fin (count + 1)) (size : Option Int), streams.isClosed i = true →
    perform i (.peek size) streams = .error .streamClosed ⟨streams⟩ ∧
      perform i (.read size) streams = .error .streamClosed ⟨streams⟩

theorem Coherent.closesWell {source : Source} {streams : Streams count}
    (coherent : Coherent source.closes streams) : ClosesWell source streams where
  below i j stands shut := by
    induction stands with
    | single opened => exact coherent.below opened shut
    | tail _ opened ih => exact coherent.below opened ih
  untouched opened := by
    rw [coherent.closes_eq, show streams.isClosed 0 = false from opened 0]
    rfl
  once i shut := by
    rw [coherent.closes_eq, coherent.root_closed shut]
    rfl
  closes i call leaves := by
    have same : Ending.state (perform i call streams) =
        ⟨Ending.state (Streams.close i streams)⟩ := by
      rcases leaves with rfl | rfl <;> rw [perform, Ending.state_inside, state_map]
    exact ⟨_, same, (coherent.close i).2⟩
  again i call leaves shut := by
    have nothing := close_closed shut
    rcases leaves with rfl | rfl <;>
      simp only [perform, Functor.map, EStateM.map, nothing] <;> rfl
  refused i size shut := by
    have shown := peek_closed shut size
    have given := read_closed shut (sizeAsked size)
    simp only [perform, Functor.map, EStateM.map, shown, given]
    exact ⟨rfl, rfl⟩

/-- **Streams over one source close coherently**, whichever of them were opened, looked at, read
and closed before, and even if closing the source raises. -/
theorem closed_coherently {source : Source} {content : Content} (grown : Grown source content) :
    ClosesWell source content.streams ∧ Fault.streamClosed.kind = .value :=
  ⟨grown.coherent.closesWell, rfl⟩

/-- A source that does not like to be closed. -/
def reluctant : Source where
  rest := [1, 2, 3]
  closeFault := some (.foreign .io "close failed")

/-- Two streams over the root of that source, of which the first one was closed. -/
def siblings : Streams 2 :=
  .atop 0 (.start .xz) {}
    (.atop 0 (.start .gzip) closedFront (.root { reluctant with closes := 1 } closedFront))

/-- One of two streams over a root is closed, which raises. The other one stays open, and has
nothing left to close. -/
theorem closed_coherently_siblings :
    ClosesWell reluctant siblings ∧ siblings.isClosed 2 = false ∧ siblings.source.closes = 1 := by
  have first : Grown reluctant ⟨(ofSource reluctant).unpack .gzip 0⟩ :=
    Grown.opened.called 0 (.unpack .gzip)
  have second : Grown reluctant ⟨((ofSource reluctant).unpack .gzip 0).unpack .xz 0⟩ :=
    first.called 0 (.unpack .xz)
  have third : Grown reluctant ⟨siblings⟩ := second.called 1 .close
  exact ⟨(closed_coherently third).1, rfl, rfl⟩

end Streams

end DiskStaging
