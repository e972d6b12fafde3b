import DiskStaging.Proofs.TransferOutcomes

/-!
# Imports side by side

Several intakes may be at work at once, over one cloud and on the same files. Each of their
steps sees of the files what lies along the path of its transfer (`Session.alike_perform`), and
changes what lies at the end of that path and nothing else (`Session.perform_changes`). So
intakes do not disturb one another whose transfers end apart (`Workplace.undisturbed`): in
whatever order their steps come, each of them is told what it would be told alone and comes to
where it would come alone, and the files are the same in the end.
-/

set_option autoImplicit false

namespace DiskStaging

/-! ## Along paths -/

/-- The place that a name stands for, seen from another place. -/
def Place.next (place : Place) (name : String) : Place :=
  if name = ".." then place.dropLast else place ++ [name]

namespace Path

/-- Where a path starts, given the working directory. -/
def origin (home : Place) (path : Path) : Place :=
  match path.anchor with
  | .here => home
  | .root | .doubleRoot => []

/-- The places that a path leads through, from where it starts to where it ends. -/
def along (home : Place) (path : Path) : List Place :=
  path.names.scanl Place.next (path.origin home)

/-- The place that a path ends at. -/
def goal (home : Place) (path : Path) : Place := path.names.foldl Place.next (path.origin home)

theorem goal_mem_along (home : Place) (path : Path) : path.goal home ∈ path.along home := by
  refine List.mem_of_getLast? ?_
  rw [along, List.getLast?_scanl]
  rfl

/-- The path of a directory leads through no other places than that of a name inside. -/
theorem along_subset_child (home : Place) (path : Path) (name : String) :
    path.along home ⊆ (path.child name).along home := by
  intro place passed
  unfold along child at *
  rw [List.scanl_append]
  exact List.mem_append_left _ passed

/-- What leads to the last name is on the way to it. -/
theorem along_last {path directory : Path} {name : String}
    (last : path.last? = some (directory, name)) (home : Place) :
    directory.origin home = path.origin home ∧ directory.along home ⊆ path.along home ∧
      (directory.goal home).next name = path.goal home := by
  obtain ⟨anchor, names⟩ := path
  simp only [last?, Option.map_eq_some_iff, Prod.mk.injEq] at last
  obtain ⟨found, there, rfl, rfl⟩ := last
  have whole : names = names.dropLast ++ [found] := (List.dropLast_append_getLast? _ there).symm
  refine ⟨rfl, ?_, ?_⟩
  · have := along_subset_child home ⟨anchor, names.dropLast⟩ found
    rwa [child, ← whole] at this
  · conv_rhs => rw [goal, whole, List.foldl_append]
    rfl

end Path

namespace FileTree

/-- Two trees have the same at some places, and the same working directory. -/
structure Agrees (places : Set Place) (tree other : FileTree) : Prop where
  home : tree.home = other.home
  there : ∀ place ∈ places, tree.node? place = other.node? place

variable {tree other : FileTree} {places : Set Place} {path : Path}

theorem Agrees.refl (places : Set Place) (tree : FileTree) : Agrees places tree tree :=
  ⟨rfl, fun _ _ => rfl⟩

theorem Agrees.symm (agrees : Agrees places tree other) : Agrees places other tree :=
  ⟨agrees.home.symm, fun place inside => (agrees.there place inside).symm⟩

theorem Agrees.trans {third : FileTree} (agrees : Agrees places tree other)
    (also : Agrees places other third) : Agrees places tree third :=
  ⟨agrees.home.trans also.home,
    fun place inside => (agrees.there place inside).trans (also.there place inside)⟩

theorem Agrees.mono {fewer : Set Place} (agrees : Agrees places tree other)
    (inside : fewer ⊆ places) : Agrees fewer tree other :=
  ⟨agrees.home, fun place there => agrees.there place (inside there)⟩

/-! ## What following a path sees -/

theorem step_eq_ok {place inside : Place} {name : String}
    (followed : step place name = .ok inside) : inside = place.next name := by
  unfold step at followed
  unfold Place.next
  split at followed
  · cases followed
  · split at followed
    · rename_i up
      cases followed
      exact (if_pos up).symm
    · rename_i down
      cases followed
      exact (if_neg down).symm

/-- What goes well in two parts goes well in the first one. -/
theorem ok_of_bind {ε α β : Type} {first : Except ε α} {next : α → Except ε β} {value : β}
    (ended : (first >>= next) = .ok value) :
    ∃ between, first = .ok between ∧ next between = .ok value := by
  cases first with
  | error why => cases ended
  | ok between => exact ⟨between, rfl, ended⟩

theorem enter_eq_ok {place inside : Place} {name : String}
    (entered : tree.enter place name = .ok inside) : inside = place.next name := by
  obtain ⟨there, followed, entered⟩ := ok_of_bind entered
  split at entered
  · cases entered
  · cases entered
    exact step_eq_ok followed
  · cases entered

/-- Going into a directory looks at no place but that. -/
theorem Agrees.enter (agrees : Agrees places tree other) {place : Place} {name : String}
    (inside : place.next name ∈ places) : tree.enter place name = other.enter place name := by
  unfold FileTree.enter
  cases followed : step place name with
  | error why => rfl
  | ok there =>
    rw [← step_eq_ok followed] at inside
    simp only [Bind.bind, Except.bind, agrees.there there inside]

/-- Following names looks at the places that they lead through. -/
theorem Agrees.follow (agrees : Agrees places tree other) {names : List String} {place : Place}
    (inside : ∀ passed ∈ names.scanl Place.next place, passed ∈ places) :
    names.foldlM tree.enter place = names.foldlM other.enter place := by
  induction names generalizing place with
  | nil => rfl
  | cons name names ih =>
    have rest : ∀ passed ∈ names.scanl Place.next (place.next name), passed ∈ places := by
      intro passed on
      rw [List.scanl_cons] at inside
      exact inside passed (List.mem_cons_of_mem _ on)
    have first : place.next name ∈ places := by
      refine rest _ ?_
      cases names <;> simp
    rw [List.foldlM_cons, List.foldlM_cons, agrees.enter first]
    cases entered : other.enter place name with
    | error why => rfl
    | ok there =>
      rw [enter_eq_ok entered]
      exact ih rest

theorem follow_eq_ok {names : List String} {place inside : Place}
    (followed : names.foldlM tree.enter place = .ok inside) :
    inside = names.foldl Place.next place := by
  induction names generalizing place with
  | nil =>
    cases followed
    rfl
  | cons name names ih =>
    rw [List.foldlM_cons] at followed
    obtain ⟨there, entered, followed⟩ := ok_of_bind followed
    rw [enter_eq_ok entered] at followed
    exact ih followed

/-- Finding the place of a path looks at the places that it leads through. -/
theorem Agrees.place (agrees : Agrees places tree other)
    (inside : ∀ passed ∈ path.along tree.home, passed ∈ places) :
    tree.place path = other.place path := by
  have start : tree.start path = other.start path := by
    unfold FileTree.start
    rw [agrees.home]
  unfold FileTree.place
  cases checkPath path with
  | error why => rfl
  | ok =>
    cases last : path.last? with
    | none => simp only [Bind.bind, Except.bind, start]
    | some found =>
      obtain ⟨directory, name⟩ := found
      obtain ⟨origin, passed, -⟩ := Path.along_last last tree.home
      have follow : directory.names.foldlM tree.enter (other.start path) =
          directory.names.foldlM other.enter (other.start path) := by
        rw [← start]
        refine agrees.follow fun place on => inside place (passed ?_)
        rw [Path.along, origin]
        exact on
      simp only [start, follow]

/-- A path that leads to a place leads to the one that it ends at. -/
theorem place_eq_ok {place : Place} (found : tree.place path = .ok place) :
    place = path.goal tree.home := by
  obtain ⟨-, -, found⟩ := ok_of_bind found
  cases last : path.last? with
  | none =>
    rw [last] at found
    cases found
    have unnamed : path.names = [] := by simpa [Path.last?] using last
    rw [Path.goal, unnamed]
    rfl
  | some parts =>
    obtain ⟨directory, name⟩ := parts
    rw [last] at found
    obtain ⟨origin, -, goal⟩ := Path.along_last last tree.home
    obtain ⟨inside, followed, found⟩ := ok_of_bind found
    have there : inside = directory.goal tree.home := by
      rw [Path.goal, origin]
      exact follow_eq_ok followed
    rw [step_eq_ok found, there, goal]

theorem Agrees.isDirectory (agrees : Agrees places tree other)
    (inside : ∀ passed ∈ path.along tree.home, passed ∈ places) :
    tree.isDirectory path = other.isDirectory path := by
  unfold FileTree.isDirectory
  rw [← agrees.place inside]
  cases found : tree.place path with
  | error why => cases why <;> rfl
  | ok place =>
    have there := inside _ (path.goal_mem_along tree.home)
    rw [← place_eq_ok found] at there
    simp only [agrees.there place there]

theorem Agrees.openFile (agrees : Agrees places tree other)
    (inside : ∀ passed ∈ path.along tree.home, passed ∈ places) :
    tree.openFile path = other.openFile path := by
  unfold FileTree.openFile
  rw [← agrees.place inside]
  cases found : tree.place path with
  | error why => rfl
  | ok place =>
    have there := inside _ (path.goal_mem_along tree.home)
    rw [← place_eq_ok found] at there
    simp only [Bind.bind, Except.bind, agrees.there place there]

/-- The file that is opened at a path is where the path ends. -/
theorem openFile_eq_ok {place : Place} (opened : tree.openFile path = .ok place) :
    place = path.goal tree.home := by
  obtain ⟨there, found, opened⟩ := ok_of_bind opened
  split at opened
  · cases opened
  · cases opened
    exact place_eq_ok found

/-- Writing the same at the same place keeps trees the same. -/
theorem Agrees.write (agrees : Agrees places tree other) {place : Place} (named : place ≠ [])
    (inside : place ∈ places) (content : Bytes) :
    Agrees places (tree.write place content) (other.write place content) := by
  have first : Written tree (tree.write place content) place content :=
    written_write named content
  have second : Written other (other.write place content) place content :=
    written_write named content
  refine ⟨?_, fun passed on => ?_⟩
  · rw [first.home, second.home, agrees.home]
  · by_cases same : passed = place
    · rw [same, first.there, second.there, agrees.there place inside]
    · rw [first.elsewhere passed same, second.elsewhere passed same, agrees.there passed on]

end FileTree

/-! ## What a step sees -/

/-- Two endings tell the same, and the states that they leave are alike. -/
inductive Ending.Alike {σ α : Type} (alike : σ → σ → Prop) : Ending σ α → Ending σ α → Prop
  | ok (value : α) {state other : σ} (left : alike state other) :
    Alike alike (.ok value state) (.ok value other)
  | error (fault : Fault) {state other : σ} (left : alike state other) :
    Alike alike (.error fault state) (.error fault other)

section Copying

variable {σ : Type} {places : Set Place} {tree other : FileTree} {path : Path}

/-- Two states with the same files at some places, and the same beside the files. -/
def AlikeFiles (places : Set Place) (state other : FileTree × σ) : Prop :=
  state.1.Agrees places other.1 ∧ state.2 = other.2

/-- Copying into a file sees what lies along its path. -/
theorem alike_streamToFile (agrees : tree.Agrees places other)
    (inside : ∀ passed ∈ path.along tree.home, passed ∈ places) (reader : Reader σ)
    (chunk : Option Int) (state : σ) :
    Ending.Alike (AlikeFiles places) (streamToFile reader path chunk (tree, state))
      (streamToFile reader path chunk (other, state)) := by
  unfold streamToFile
  dsimp only
  rw [← agrees.openFile inside]
  cases opened : tree.openFile path with
  | error why => exact .error _ ⟨agrees, rfl⟩
  | ok place =>
    have there : place ∈ places := by
      rw [FileTree.openFile_eq_ok opened]
      exact inside _ (path.goal_mem_along tree.home)
    have written := agrees.write (FileTree.place_ne_nil opened) there
    dsimp only
    split
    · exact .error _ ⟨written _, rfl⟩
    · exact .ok _ ⟨written _, rfl⟩

/-- Copying into scratch space sees what lies along the path of the staging file. -/
theorem alike_streamToScratch (agrees : tree.Agrees places other) {scratch : Path}
    (inside : ∀ passed ∈ (stagingPath scratch).along tree.home, passed ∈ places)
    (reader : Reader σ) (chunk : Option Int) (state : σ) :
    Ending.Alike (AlikeFiles places) (streamToScratch reader scratch chunk (tree, state))
      (streamToScratch reader scratch chunk (other, state)) := by
  have directory : ∀ passed ∈ scratch.along tree.home, passed ∈ places :=
    fun passed on => inside passed (scratch.along_subset_child tree.home stagingName on)
  have copied := alike_streamToFile agrees inside reader chunk state
  unfold streamToScratch
  dsimp only
  rw [← agrees.isDirectory directory]
  cases tree.isDirectory scratch with
  | error why => exact .error _ ⟨agrees, rfl⟩
  | ok found =>
    cases found with
    | false => exact .error _ ⟨agrees, rfl⟩
    | true =>
      dsimp only
      generalize streamToFile reader (stagingPath scratch) chunk (tree, state) = ending at copied
      generalize streamToFile reader (stagingPath scratch) chunk (other, state) = beside at copied
      cases copied with
      | ok written left => exact .ok _ left
      | error fault left => exact .error fault left

end Copying

/-- A transfer sees of the files what its copy sees. -/
theorem Intake.alike_transferWith {places : Set Place} {tree other : FileTree} (intake : Intake)
    (operation : Operation) (wanted next : Phase)
    {copy : {σ : Type} → Reader σ → Act (FileTree × σ) (Path × Nat)}
    (agrees : tree.Agrees places other)
    (copies : ∀ {σ : Type} (reader : Reader σ) (state : σ),
      Ending.Alike (AlikeFiles places) (copy reader (tree, state)) (copy reader (other, state))) :
    Ending.Alike (fun left right => left.1 = right.1 ∧ left.2.Agrees places right.2)
      (transferWith operation wanted next copy (intake, tree))
      (transferWith operation wanted next copy (intake, other)) := by
  unfold transferWith
  dsimp only
  cases intake.checkPhase operation (some wanted) with
  | error fault => exact .error fault ⟨rfl, agrees⟩
  | ok =>
    cases intake.holding with
    | nothing => exact .ok _ ⟨rfl, agrees⟩
    | released source => exact .ok _ ⟨rfl, agrees⟩
    | held content =>
      obtain ⟨streams⟩ := content
      have copied := copies (Streams.reader _ (Fin.last _)) streams
      dsimp only
      generalize copy (Streams.reader _ (Fin.last _)) (tree, streams) = ending at copied
      generalize copy (Streams.reader _ (Fin.last _)) (other, streams) = beside at copied
      cases copied with
      | @error fault left right same =>
        obtain ⟨files, streams⟩ := left
        obtain ⟨beside, _⟩ := right
        obtain ⟨agrees, rfl⟩ := same
        dsimp only
        split
        · exact .ok _ ⟨rfl, agrees⟩
        · exact .error fault ⟨rfl, agrees⟩
      | @ok given left right same =>
        obtain ⟨path, size⟩ := given
        obtain ⟨files, streams⟩ := left
        obtain ⟨beside, _⟩ := right
        obtain ⟨agrees, rfl⟩ := same
        simp only [Intake.finish]
        cases Url.parse path.render with
        | error why => exact .error _ ⟨rfl, agrees⟩
        | ok url => exact .ok _ ⟨rfl, agrees⟩

/-- Two clouds with the same objects, whatever was asked of either. -/
structure Cloud.Alike (cloud other : Cloud) : Prop where
  objects : cloud.objects = other.objects
  failure : cloud.failure = other.failure

/-- What fetching gives does not depend on what was asked before. -/
theorem Client.alike_fetch {cloud other : Cloud} (alike : cloud.Alike other) (client : Client)
    (bucket key : String) :
    Ending.Alike Cloud.Alike (client.fetch bucket key cloud) (client.fetch bucket key other) := by
  have fetched {cloud other : Cloud} (alike : cloud.Alike other) :
      Ending.Alike Cloud.Alike (Cloud.fetch bucket key cloud) (Cloud.fetch bucket key other) := by
    obtain ⟨objects, failure⟩ := alike
    simp only [Cloud.fetch, objects, failure]
    split
    · exact .error _ ⟨rfl, rfl⟩
    · split
      · exact .error _ ⟨rfl, rfl⟩
      · exact .ok _ ⟨rfl, rfl⟩
  unfold Client.fetch
  cases client.call? bucket key with
  | none => exact fetched alike
  | some call => exact fetched ⟨alike.objects, alike.failure⟩

/-- Fetching leaves the objects as they are. -/
theorem Client.fetch_alike (client : Client) (bucket key : String) (cloud : Cloud) :
    cloud.Alike (Ending.state (client.fetch bucket key cloud)) := by
  have fetched (cloud : Cloud) : cloud.Alike (Ending.state (Cloud.fetch bucket key cloud)) := by
    simp only [Cloud.fetch]
    split
    · exact ⟨rfl, rfl⟩
    · split <;> exact ⟨rfl, rfl⟩
  unfold Client.fetch
  cases client.call? bucket key with
  | none => exact fetched cloud
  | some call =>
    have asked := fetched { cloud with calls := call :: cloud.calls }
    exact ⟨asked.objects, asked.failure⟩

/-- Opening and classifying sees nothing but the objects of the cloud. -/
theorem Intake.alike_info {cloud other : Cloud} (alike : cloud.Alike other) (intake : Intake) :
    Ending.Alike (fun left right => left.1 = right.1 ∧ left.2.Alike right.2)
      (Intake.info (intake, cloud)) (Intake.info (intake, other)) := by
  have ready : Ending.Alike Cloud.Alike (intake.openContent cloud) (intake.openContent other) := by
    have fetched := intake.client.alike_fetch alike intake.location.bucket intake.location.key
    unfold openContent
    cases intake.holding with
    | held content => exact .ok content alike
    | nothing | released source =>
      dsimp only
      generalize intake.client.fetch intake.location.bucket intake.location.key cloud = ending
        at fetched
      generalize intake.client.fetch intake.location.bucket intake.location.key other = beside
        at fetched
      cases fetched with
      | ok source left => exact .ok _ left
      | error fault left => exact .error _ left
  unfold info
  dsimp only
  split
  · exact .error _ ⟨rfl, alike⟩
  · cases intake.checkPhase .info none with
    | error fault => exact .error fault ⟨rfl, alike⟩
    | ok =>
      dsimp only
      generalize intake.openContent cloud = ending at ready
      generalize intake.openContent other = beside at ready
      cases ready with
      | error fault left => exact .ok _ ⟨rfl, left⟩
      | ok content left =>
        dsimp only
        cases sniff sniffSize content with
        | error fault content => exact .ok _ ⟨rfl, left⟩
        | ok found content => exact .ok _ ⟨rfl, left⟩

/-- Opening and classifying leaves the objects as they are. -/
theorem Intake.info_alike (intake : Intake) (cloud : Cloud) :
    cloud.Alike (Ending.state (Intake.info (intake, cloud))).2 := by
  have same : cloud.Alike cloud := ⟨rfl, rfl⟩
  have ready : cloud.Alike (Ending.state (intake.openContent cloud)) := by
    have fetched := intake.client.fetch_alike intake.location.bucket intake.location.key cloud
    unfold openContent
    cases intake.holding with
    | held content => exact same
    | nothing | released source =>
      dsimp only
      generalize intake.client.fetch intake.location.bucket intake.location.key cloud = ending
        at fetched
      cases ending <;> exact fetched
  unfold info
  dsimp only
  split
  · exact same
  · cases intake.checkPhase .info none with
    | error fault => exact same
    | ok =>
      dsimp only
      generalize intake.openContent cloud = ending at ready
      cases ending with
      | error fault left => exact ready
      | ok content left =>
        dsimp only
        cases sniff sniffSize content <;> exact ready

/-- The path of the file that a step writes. -/
def Step.target? : Step → Option Path
  | .transfer scratch => some (stagingPath scratch)
  | .transferFile path => some path
  | _ => none

/-- The places that a step looks at, given the working directory. -/
def Step.sees (home : Place) (step : Step) : Set Place :=
  { place | ∃ path ∈ step.target?, place ∈ path.along home }

/-- The places at which a step may change something. -/
def Step.changes (home : Place) (step : Step) : Set Place :=
  { place | ∃ path ∈ step.target?, place = path.goal home }

namespace Session

/-- Two sessions that differ only in files at other places and in what was asked of the cloud. -/
structure Alike (places : Set Place) (session other : Session) : Prop where
  intake : session.intake = other.intake
  cloud : session.cloud.Alike other.cloud
  files : session.files.Agrees places other.files

theorem Alike.refl (places : Set Place) (session : Session) : session.Alike places session :=
  ⟨rfl, ⟨rfl, rfl⟩, .refl places session.files⟩

/-- What a transfer comes to is alike if its action on the files is. -/
theorem alike_ofFiles {places : Set Place} {cloud beside : Cloud} (alike : cloud.Alike beside)
    {ending other : Ending (Intake × FileTree) PhaseResult}
    (same : Ending.Alike (fun left right => left.1 = right.1 ∧ left.2.Agrees places right.2)
      ending other) :
    Ending.Alike (Alike places) (ofFiles cloud ending) (ofFiles beside other) := by
  cases same with
  | ok result left => exact .ok _ ⟨left.1, alike, left.2⟩
  | error fault left => exact .error fault ⟨left.1, alike, left.2⟩

/-- **A step sees of the files what lies along its path.** -/
theorem alike_perform {places : Set Place} {session other : Session}
    (alike : session.Alike places other) {step : Step}
    (inside : step.sees session.files.home ⊆ places) :
    Ending.Alike (Alike places) (perform step session) (perform step other) := by
  obtain ⟨intake, cloud, files⟩ := session
  obtain ⟨_, otherCloud, otherFiles⟩ := other
  obtain ⟨rfl, clouds, agrees⟩ := alike
  dsimp only at clouds agrees inside
  cases step with
  | enter => exact .ok none ⟨rfl, clouds, agrees⟩
  | close | exit =>
    simp only [perform, Functor.map, EStateM.map, onIntake]
    cases Intake.close intake with
    | ok _ left => exact .ok none ⟨rfl, clouds, agrees⟩
    | error fault left => exact .error fault ⟨rfl, clouds, agrees⟩
  | info =>
    have informed := intake.alike_info clouds
    simp only [perform, Functor.map, EStateM.map, onCloud]
    generalize Intake.info (intake, cloud) = ending at informed
    generalize Intake.info (intake, otherCloud) = beside at informed
    cases informed with
    | ok result left => exact .ok _ ⟨left.1, left.2, agrees⟩
    | error fault left => exact .error fault ⟨left.1, left.2, agrees⟩
  | transfer scratch =>
    have along : ∀ passed ∈ (stagingPath scratch).along files.home, passed ∈ places :=
      fun passed on => inside ⟨_, rfl, on⟩
    rw [perform, some_onFiles, some_onFiles, Intake.transfer]
    refine alike_ofFiles clouds (intake.alike_transferWith _ _ _ agrees fun reader state => ?_)
    exact alike_streamToScratch agrees along reader intake.chunk state
  | transferFile path =>
    have along : ∀ passed ∈ path.along files.home, passed ∈ places :=
      fun passed on => inside ⟨_, rfl, on⟩
    rw [perform, some_onFiles, some_onFiles, Intake.transferFile]
    refine alike_ofFiles clouds (intake.alike_transferWith _ _ _ agrees fun reader state => ?_)
    have copied := alike_streamToFile agrees along reader intake.chunk state
    simp only [Bind.bind, EStateM.bind]
    generalize streamToFile reader path intake.chunk (files, state) = ending at copied
    generalize streamToFile reader path intake.chunk (otherFiles, state) = beside at copied
    cases copied with
    | ok written left => exact .ok _ left
    | error fault left => exact .error fault left

/-! ## What a step changes -/

/-- Whatever pouring comes to, the files are those that were written. -/
theorem files_poured {count : Nat} (intake : Intake) (cloud : Cloud) (path : Path) (next : Phase)
    (all : Reader.Poured (Streams count)) (written : FileTree) :
    (Ending.state (ofFiles cloud (intake.poured path next all written))).files = written := by
  unfold Intake.poured
  cases all.fault with
  | some fault => rfl
  | none =>
    dsimp only
    cases Url.parse path.render <;> rfl

/-- The file of a transfer is at the end of the path that its step writes. -/
theorem Target.mem_changes {files : FileTree} {step : Step} {wanted next : Phase} {path : Path}
    {place : Place} (target : Target files step wanted path place next) :
    place ∈ step.changes files.home := by
  refine ⟨path, ?_, FileTree.openFile_eq_ok target.opened⟩
  cases target <;> rfl

/-- A transfer that is called for writes its target, if it has one, and nothing else. -/
theorem transfer_changes {session : Session} {step : Step} {wanted next : Phase}
    (phases : step.phases? = some (wanted, next)) (phase : session.intake.phase = some wanted)
    (held : session.intake.holding.IsHeld) :
    session.files.Agrees (step.changes session.files.home)ᶜ (session.after step).files := by
  obtain ⟨intake, cloud, files⟩ := session
  obtain ⟨content, holding⟩ := held
  have same := FileTree.Agrees.refl (step.changes files.home)ᶜ files
  rw [after]
  rcases target_or_refused cloud files phases phase holding with
    ⟨path, place, target⟩ | ⟨fault, refused⟩ | ⟨scratch, -, -, raised⟩
  · rw [perform_transfer cloud target phase holding, files_poured]
    have written : FileTree.Written files _ place _ :=
      FileTree.written_write (FileTree.place_ne_nil target.opened)
        (content.pour (sizeAsked intake.chunk)).content.toList
    refine ⟨written.home.symm, fun other apart => (written.elsewhere other ?_).symm⟩
    rintro rfl
    exact apart target.mem_changes
  · rw [refused]
    exact same
  · rw [raised]
    exact same

/-- **A step changes nothing but what is at the end of its path.** -/
theorem perform_changes (session : Session) (step : Step) :
    session.files.Agrees (step.changes session.files.home)ᶜ (session.after step).files := by
  have same := FileTree.Agrees.refl (step.changes session.files.home)ᶜ session.files
  have does := perform_does session step
  generalize ended : perform step session = ending at does
  have left : session.after step = Ending.state ending := congrArg Ending.state ended
  cases does with
  | refused _ _ | entered | notOpened _ _ | opened _ _ | lost _ _ _ => exact left ▸ same
  | closed _ _ _ closed => exact (left.trans closed) ▸ same
  | failed phases phase held | raised phases phase held | done phases phase held =>
    exact transfer_changes phases phase held

/-- No step changes the objects. -/
theorem perform_cloud (session : Session) (step : Step) :
    session.cloud.Alike (session.after step).cloud := by
  obtain ⟨intake, cloud, files⟩ := session
  have same : cloud.Alike cloud := ⟨rfl, rfl⟩
  cases step with
  | info =>
    have informed := intake.info_alike cloud
    simp only [after, perform, Functor.map, EStateM.map, onCloud]
    generalize Intake.info (intake, cloud) = ending at informed
    cases ending <;> exact informed
  | enter => exact same
  | close | exit =>
    simp only [after, perform, Functor.map, EStateM.map, onIntake]
    cases Intake.close intake <;> exact same
  | transfer scratch =>
    rw [after, perform, some_onFiles]
    cases Intake.transfer scratch (intake, files) <;> exact same
  | transferFile path =>
    rw [after, perform, some_onFiles]
    cases Intake.transferFile path (intake, files) <;> exact same

end Session

/-! ## Side by side -/

/-- What a call tells: its value, or the fault that it raised. -/
def Ending.told {σ α : Type} : Ending σ α → Except Fault α
  | .ok value _ => .ok value
  | .error fault _ => .error fault

/-- Alike endings tell the same. -/
theorem Ending.Alike.told {σ α : Type} {alike : σ → σ → Prop} {ending other : Ending σ α}
    (same : Ending.Alike alike ending other) : ending.told = other.told := by
  cases same <;> rfl

/-- Alike endings leave alike states. -/
theorem Ending.Alike.state {σ α : Type} {alike : σ → σ → Prop} {ending other : Ending σ α}
    (same : Ending.Alike alike ending other) : alike ending.state other.state := by
  cases same with
  | ok value left => exact left
  | error fault left => exact left

/-- What the calls of a row tell, one after the other. -/
def Session.told (session : Session) : List Step → List (Except Fault (Option PhaseResult))
  | [] => []
  | step :: steps => Ending.told (perform step session) :: (session.after step).told steps

/-- Intakes at work side by side, each for itself, but over one cloud and on the same files. -/
structure Workplace (ι : Type) where
  intakes : ι → Intake
  cloud : Cloud
  files : FileTree

variable {ι : Type} [DecidableEq ι]

/-- The part of a schedule that belongs to one of the intakes. -/
def own {α : Type} (i : ι) (schedule : List (ι × α)) : List α :=
  schedule.filterMap fun (j, entry) => if j = i then some entry else none

@[simp] theorem own_cons_self {α : Type} (i : ι) (entry : α) (schedule : List (ι × α)) :
    own i ((i, entry) :: schedule) = entry :: own i schedule := by
  simp [own]

@[simp] theorem own_cons_of_ne {α : Type} {i j : ι} (other : j ≠ i) (entry : α)
    (schedule : List (ι × α)) : own i ((j, entry) :: schedule) = own i schedule := by
  simp [own, other]

/-- A schedule is made up of rows of steps, one row for each intake. -/
def Interleaves (rows : ι → List Step) (schedule : List (ι × Step)) : Prop :=
  ∀ i, own i schedule = rows i

namespace Workplace

/-- What one of the intakes works with. -/
def session (work : Workplace ι) (i : ι) : Session := ⟨work.intakes i, work.cloud, work.files⟩

/-- The workplace after one of the intakes did a step. -/
def after (work : Workplace ι) (call : ι × Step) : Workplace ι :=
  let session := (work.session call.1).after call.2
  ⟨Function.update work.intakes call.1 session.intake, session.cloud, session.files⟩

/-- The workplace after a schedule. -/
def afterAll (work : Workplace ι) (schedule : List (ι × Step)) : Workplace ι :=
  schedule.foldl after work

/-- What the calls of a schedule tell, and whom. -/
def told (work : Workplace ι) :
    List (ι × Step) → List (ι × Except Fault (Option PhaseResult))
  | [] => []
  | call :: schedule =>
    (call.1, Ending.told (Session.perform call.2 (work.session call.1))) ::
      (work.after call).told schedule

/-- Where a transfer of one row ends, no transfer of another row ends or passes. -/
def Apart (home : Place) (rows : ι → List Step) : Prop :=
  ∀ i j, i ≠ j → ∀ step ∈ rows i, ∀ other ∈ rows j,
    ∀ path ∈ step.target?, ∀ beside ∈ other.target?, path.goal home ∉ beside.along home

/-! ### What one call comes to -/

variable {work : Workplace ι} {alone : ι → Session} {places : ι → Set Place} {call : ι × Step}

/-- A call keeps to the places of its intake: it sees no others, and it changes nothing at the
places of other intakes. -/
def Confined (home : Place) (places : ι → Set Place) (call : ι × Step) : Prop :=
  call.2.sees home ⊆ places call.1 ∧
    ∀ i, i ≠ call.1 → ∀ place ∈ call.2.changes home, place ∉ places i

theorem home_after (work : Workplace ι) (call : ι × Step) :
    (work.after call).files.home = work.files.home :=
  ((work.session call.1).perform_changes call.2).home.symm

theorem session_after_self (work : Workplace ι) (call : ι × Step) :
    (work.after call).session call.1 = (work.session call.1).after call.2 := by
  simp only [session, after, Function.update_self]

/-- The intake whose step it is comes to where it would come alone. -/
theorem alike_after_self
    (alike : (work.session call.1).Alike (places call.1) (alone call.1))
    (confined : Confined work.files.home places call) :
    ((work.after call).session call.1).Alike (places call.1) ((alone call.1).after call.2) := by
  rw [session_after_self]
  exact (Session.alike_perform alike confined.1).state

/-- The other intakes notice nothing. -/
theorem alike_after_other {i : ι} (other : i ≠ call.1)
    (alike : (work.session i).Alike (places i) (alone i))
    (confined : Confined work.files.home places call) :
    ((work.after call).session i).Alike (places i) (alone i) := by
  have cloud := (work.session call.1).perform_cloud call.2
  have changed := (work.session call.1).perform_changes call.2
  have kept : places i ⊆ (call.2.changes work.files.home)ᶜ :=
    fun place inside there => confined.2 i other place there inside
  refine ⟨?_, ?_, ?_⟩
  · simp only [session, after, Function.update_of_ne other]
    exact alike.intake
  · exact ⟨cloud.objects.symm.trans alike.cloud.objects,
      cloud.failure.symm.trans alike.cloud.failure⟩
  · exact (changed.mono kept).symm.trans alike.files

/-! ### What a schedule comes to -/

/-- **Intakes that keep to their places are told what they are told alone**, and come to where
they come alone. -/
theorem alike_afterAll {schedule : List (ι × Step)}
    (alike : ∀ i, (work.session i).Alike (places i) (alone i))
    (confined : ∀ call ∈ schedule, Confined work.files.home places call) (i : ι) :
    own i (work.told schedule) = (alone i).told (own i schedule) ∧
      ((work.afterAll schedule).session i).Alike (places i)
        ((alone i).afterAll (own i schedule)) := by
  induction schedule generalizing work alone with
  | nil => exact ⟨rfl, alike i⟩
  | cons call schedule ih =>
    obtain ⟨j, step⟩ := call
    have first := confined _ List.mem_cons_self
    have rest : ∀ call ∈ schedule, Confined (work.after (j, step)).files.home places call := by
      intro call later
      rw [home_after]
      exact confined call (List.mem_cons_of_mem _ later)
    have told := (Session.alike_perform (alike j) first.1).told
    -- The intake whose step it is goes on alone as well; the others stay where they are.
    have next : ∀ i, ((work.after (j, step)).session i).Alike (places i)
        (Function.update alone j ((alone j).after step) i) := by
      intro i
      by_cases same : i = j
      · subst same
        rw [Function.update_self]
        exact alike_after_self (alike i) first
      · rw [Function.update_of_ne same]
        exact alike_after_other same (alike i) first
    obtain ⟨tells, ends⟩ := ih next rest
    rw [Workplace.told]
    by_cases same : j = i
    · subst same
      rw [Function.update_self] at tells ends
      rw [own_cons_self, own_cons_self, Session.told, tells, told]
      exact ⟨rfl, ends⟩
    · rw [Function.update_of_ne (Ne.symm same)] at tells ends
      rw [own_cons_of_ne same, own_cons_of_ne same]
      exact ⟨tells, ends⟩

/-- What is at none of the places at which a schedule may change something stays. -/
theorem unchanged_afterAll (work : Workplace ι) (schedule : List (ι × Step)) :
    work.files.Agrees { place | ∀ call ∈ schedule, place ∉ call.2.changes work.files.home }
      (work.afterAll schedule).files := by
  induction schedule generalizing work with
  | nil => exact .refl _ _
  | cons call schedule ih =>
    have first := (work.session call.1).perform_changes call.2
    have rest := ih (work.after call)
    rw [home_after] at rest
    refine (first.mono ?_).trans (rest.mono ?_)
    · intro place outside
      exact outside call List.mem_cons_self
    · intro place outside later inside
      exact outside later (List.mem_cons_of_mem _ inside)

/-! ### Transfers apart -/

section Rows

variable {rows : ι → List Step} {schedule other : List (ι × Step)}

/-- The places that the steps of a row look at. -/
def reach (home : Place) (rows : ι → List Step) (i : ι) : Set Place :=
  { place | ∃ step ∈ rows i, place ∈ step.sees home }

/-- What is in a schedule is in the row of its intake. -/
theorem mem_row (interleaves : Interleaves rows schedule) (inside : call ∈ schedule) :
    call.2 ∈ rows call.1 := by
  rw [← interleaves call.1, own, List.mem_filterMap]
  exact ⟨call, inside, if_pos rfl⟩

/-- If transfers end apart, every call keeps to what its row looks at. -/
theorem Apart.confined {home : Place} (apart : Apart home rows)
    (interleaves : Interleaves rows schedule) (inside : call ∈ schedule) :
    Confined home (reach home rows) call := by
  have mine := mem_row interleaves inside
  refine ⟨fun place seen => ⟨call.2, mine, seen⟩, ?_⟩
  rintro i differs place ⟨path, target, rfl⟩ ⟨step, theirs, beside, seen, on⟩
  exact apart call.1 i differs.symm call.2 mine step theirs path target beside seen on

/-- Where some row ends a transfer, what is there in the end is told by that row alone. -/
theorem files_alike (apart : Apart work.files.home rows) (interleaves : Interleaves rows schedule)
    (i : ι) :
    (work.afterAll schedule).files.Agrees (reach work.files.home rows i)
      ((work.session i).afterAll (rows i)).files := by
  have ends := (alike_afterAll (fun i => Session.Alike.refl _ (work.session i))
    (fun call inside => apart.confined interleaves inside) i).2
  rw [interleaves i] at ends
  exact ends.files

/-- **Imports side by side do not disturb one another.** If no transfer of one intake ends
where a transfer of another one passes or ends, then in whatever order their steps come, each
intake is told what it would be told alone, and all that it knows is what it would know alone.
The files are the same in the end, whatever the order was. -/
theorem undisturbed (work : Workplace ι) (apart : Apart work.files.home rows) :
    (∀ schedule, Interleaves rows schedule → ∀ i,
      own i (work.told schedule) = (work.session i).told (rows i) ∧
        (work.afterAll schedule).intakes i = ((work.session i).afterAll (rows i)).intake) ∧
      ∀ schedule other, Interleaves rows schedule → Interleaves rows other →
        (work.afterAll schedule).files.Agrees Set.univ (work.afterAll other).files := by
  refine ⟨fun schedule interleaves i => ?_, fun schedule other first second => ?_⟩
  · obtain ⟨told, ends⟩ := alike_afterAll (fun i => Session.Alike.refl _ (work.session i))
      (fun call inside => apart.confined interleaves inside) i
    rw [interleaves i] at told ends
    exact ⟨told, ends.intake⟩
  · have begun := work.unchanged_afterAll schedule
    have again := work.unchanged_afterAll other
    refine ⟨begun.home.symm.trans again.home, fun place _ => ?_⟩
    by_cases reached : ∃ i, place ∈ reach work.files.home rows i
    · obtain ⟨i, inside⟩ := reached
      exact ((files_alike apart first i).there place inside).trans
        ((files_alike apart second i).there place inside).symm
    · have outside : ∀ {schedule : List (ι × Step)}, Interleaves rows schedule →
          ∀ call ∈ schedule, place ∉ call.2.changes work.files.home := by
        rintro schedule interleaves call inside ⟨path, target, rfl⟩
        exact reached ⟨call.1, call.2, mem_row interleaves inside, path, target,
          path.goal_mem_along _⟩
      exact (begun.there place (outside first)).symm.trans (again.there place (outside second))

end Rows

/-- Two intakes that will both fetch the one object of a cloud. -/
def sharing : Workplace Bool where
  intakes _ := { (Session.beginning { rest := [] } none).intake with holding := .nothing }
  cloud := { objects := [⟨"images", "disk", { rest := [1, 2, 3], most := some 1 }⟩] }
  files := .fresh

/-- Each of them looks at the image and writes it into a file of its own. -/
def sharingRows (second : Bool) : List Step :=
  [.info, .transferFile ⟨.here, [if second then "two" else "one"]⟩, .close]

/-- Two imports of one object, entwined: both files hold all of it, whoever came first. -/
theorem undisturbed_entwined :
    let entwined := [(true, Step.info), (false, .info), (false, .transferFile ⟨.here, ["one"]⟩),
      (true, .transferFile ⟨.here, ["two"]⟩), (true, .close), (false, .close)]
    let inTurn := (sharingRows false).map (false, ·) ++ (sharingRows true).map (true, ·)
    Apart sharing.files.home sharingRows ∧
      (∀ i, ((sharing.afterAll entwined).intakes i).written = 3) ∧
        (sharing.afterAll entwined).files.Agrees Set.univ (sharing.afterAll inTurn).files := by
  intro entwined inTurn
  have apart : Apart sharing.files.home sharingRows := by
    unfold Apart
    decide +kernel
  have interleaves : Interleaves sharingRows entwined ∧ Interleaves sharingRows inTurn := by
    unfold Interleaves
    decide +kernel
  obtain ⟨told, files⟩ := undisturbed sharing apart
  refine ⟨apart, fun i => ?_, files _ _ interleaves.1 interleaves.2⟩
  rw [(told entwined interleaves.1 i).2]
  cases i with
  | false => cbv
  | true => cbv

end Workplace

end DiskStaging
