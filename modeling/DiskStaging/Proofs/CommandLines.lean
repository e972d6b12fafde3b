import DiskStaging.CommandLine.Arguments
import DiskStaging.Proofs.PathUrls

/-!
# How command lines are spelled

What stands on a command line is a row of items, and each can be spelled in more than one way
(`CommandLine.Spells`). The words of a command line are taken just when they spell some items,
and what is found is what these items add up to (`CommandLine.take_eq_ok`). So the value of an
option is the last one that is given for it, wherever it stands and however it is spelled
(`CommandLine.value?_found`).
-/

set_option autoImplicit false

namespace DiskStaging.CommandLine

open Text

/-! ## Items -/

/-- What stands on a command line. -/
inductive Item where
  | setting (which : Setting) (value : String)
  | verbose
  | help
  /-- Something that is no option. -/
  | other (text : String)

/-- The words that spell items. -/
inductive Spells : List Item → List String → Prop
  | nothing : Spells [] []
  /-- Behind two dashes, nothing is an option. -/
  | others (texts : List String) : Spells (texts.map .other) ("--" :: texts)
  | other {text : String} {items : List Item} {words : List String}
    (plain : isOption text = false) (more : Spells items words) :
    Spells (.other text :: items) (text :: words)
  | joined {name : String} {which : Setting} {items : List Item} {words : List String}
    (named : flag? name = some (.setting which)) (value : String) (more : Spells items words) :
    Spells (.setting which value :: items) ((name ++ "=" ++ value) :: words)
  | apart {name : String} {which : Setting} {items : List Item} {words : List String}
    (named : flag? name = some (.setting which)) (value : String) (more : Spells items words) :
    Spells (.setting which value :: items) (name :: value :: words)
  | verbose {items : List Item} {words : List String} (more : Spells items words) :
    Spells (.verbose :: items) ("--verbose" :: words)
  | letters {items : List Item} {words : List String} (count : Nat) (more : Spells items words) :
    Spells (.verbose :: items) (String.ofList ('-' :: List.replicate (count + 1) 'v') :: words)
  | help {items : List Item} {words : List String} (more : Spells items words) :
    Spells (.help :: items) ("--help" :: words)

/-- What was found, and one item more. -/
def Given.add (given : Given) : Item → Given
  | .setting which value => { given with values := (which, value) :: given.values }
  | .verbose => { given with verbose := true }
  | .help => { given with help := true }
  | .other text => { given with others := given.others ++ [text] }

/-- What items add up to. -/
def Given.addAll (given : Given) (items : List Item) : Given := items.foldl add given

theorem Given.addAll_others (given : Given) (texts : List String) :
    given.addAll (texts.map .other) = { given with others := given.others ++ texts } := by
  induction texts generalizing given with
  | nil =>
    rw [List.append_nil]
    rfl
  | cons text texts ih =>
    refine (ih (given.add (.other text))).trans ?_
    simp only [add, List.append_assoc, List.singleton_append]

/-- The value that an item gives to an option. -/
def Item.value? (which : Setting) : Item → Option String
  | .setting known value => if known = which then some value else none
  | _ => none

/-- The last value that items give to an option. -/
def lastValue? (which : Setting) (items : List Item) : Option String :=
  (items.filterMap (Item.value? which)).getLast?

theorem value?_add (given : Given) (item : Item) (which : Setting) :
    (given.add item).value? which = (item.value? which).or (given.value? which) := by
  cases item with
  | setting known value =>
    simp only [Given.add, Given.value?, Item.value?, List.lookup_cons]
    by_cases same : known = which
    · rw [same, beq_self_eq_true, if_pos rfl]
      rfl
    · rw [beq_eq_false_iff_ne.mpr (Ne.symm same), if_neg same]
      rfl
  | verbose | help | other => rfl

/-- Of the values that are given to an option, the last one counts. -/
theorem value?_addAll (given : Given) (items : List Item) (which : Setting) :
    (given.addAll items).value? which = (lastValue? which items).or (given.value? which) := by
  induction items generalizing given with
  | nil => rfl
  | cons item items ih =>
    refine (ih (given.add item)).trans ?_
    rw [value?_add, lastValue?, lastValue?]
    cases value : item.value? which with
    | none => rw [List.filterMap_cons_none value, Option.none_or]
    | some value =>
      rw [List.filterMap_cons_some ‹_›, List.getLast?_cons]
      cases (items.filterMap (Item.value? which)).getLast? <;> rfl

/-! ## Taking words -/

/-- The name of an option starts with two dashes and has no equals sign. -/
theorem dashed_of_flag? {name : String} {flag : Flag} (named : flag? name = some flag) :
    (∃ c rest, name.toList = '-' :: '-' :: c :: rest) ∧ '=' ∉ name.toList := by
  unfold flag? at named
  split at named
  all_goals first
    | cases named
      done
    | exact ⟨⟨_, _, rfl⟩, by decide⟩

/-- A word with an equals sign is cut at the first one. -/
theorem cutOption_eq_some {argument name value : String}
    (cut : cutOption argument = (name, some value)) : argument = name ++ "=" ++ value := by
  unfold cutOption at cut
  split at cut
  · rename_i before behind found
    cases cut
    rw [← String.toList_inj]
    simp [eq_of_cut? found]
  · cases cut

theorem cutOption_eq_none {argument name : String} (cut : cutOption argument = (name, none)) :
    argument = name := by
  unfold cutOption at cut
  split at cut
  · cases cut
  · cases cut
    rfl

theorem cutOption_joined {name : String} (plain : '=' ∉ name.toList) (value : String) :
    cutOption (name ++ "=" ++ value) = (name, some value) := by
  have split : (name ++ "=" ++ value).toList = name.toList ++ '=' :: value.toList := by simp
  rw [cutOption, split, cut?_append plain]
  simp

theorem cutOption_plain {name : String} (plain : '=' ∉ name.toList) :
    cutOption name = (name, none) := by
  rw [cutOption, cut?_of_not_mem plain]

/-- The options without a value are spelled out in full. -/
theorem eq_of_flag? {name : String} {flag : Flag} (named : flag? name = some flag) :
    (flag = .verbose → name = "--verbose") ∧ (flag = .help → name = "--help") := by
  unfold flag? at named
  split at named
  all_goals cases named
  all_goals exact ⟨fun same => by cases same <;> rfl, fun same => by cases same <;> rfl⟩

/-- A word is taken for letters if it is a dash and letters for a verbose run. -/
theorem takeLetters_eq_ok {given found : Given} {argument : String}
    (optional : isOption argument = true) (taken : takeLetters given argument = .ok found) :
    found = given.add .verbose ∧
      ∃ count, argument = String.ofList ('-' :: List.replicate (count + 1) 'v') := by
  unfold takeLetters at taken
  unfold isOption at optional
  split at optional
  · rename_i first rest shape
    rw [shape] at taken
    split at taken
    · cases taken
    · rename_i c letters _ same
      obtain ⟨-, rfl⟩ := List.cons.inj same
      split at taken
      · rename_i all
        cases taken
        refine ⟨rfl, rest.length, ?_⟩
        have letters : first :: rest = List.replicate (rest.length + 1) 'v' :=
          List.eq_replicate_of_mem (by simpa using all)
        rw [← String.toList_inj, shape, String.toList_ofList, letters]
      · cases taken
    · cases taken
  · cases optional

/-- Words that are taken spell what is found. -/
theorem spelled_of_take {given found : Given} {words : List String}
    (taken : take given words = .ok found) :
    ∃ items, Spells items words ∧ found = given.addAll items := by
  fun_induction take given words with
  | case1 given =>
    cases taken
    exact ⟨[], .nothing, rfl⟩
  | case2 given rest =>
    cases taken
    exact ⟨_, .others rest, (given.addAll_others rest).symm⟩
  | case3 given argument rest _ plain ih =>
    obtain ⟨items, spelled, same⟩ := ih taken
    exact ⟨.other argument :: items, .other (by simpa using plain) spelled, same⟩
  | case4 given argument _ _ name which value rest named cut ih =>
    obtain ⟨items, spelled, same⟩ := ih taken
    rw [cutOption_eq_some cut]
    exact ⟨.setting which value :: items, .joined named value spelled, same⟩
  | case5 given argument _ _ name which value rest named cut ih =>
    obtain ⟨items, spelled, same⟩ := ih taken
    rw [cutOption_eq_none cut]
    exact ⟨.setting which value :: items, .apart named value spelled, same⟩
  | case6 | case7 => cases taken
  | case8 given argument _ _ name rest named cut ih =>
    obtain ⟨items, spelled, same⟩ := ih taken
    rw [cutOption_eq_none cut, (eq_of_flag? named).1 rfl]
    exact ⟨.verbose :: items, .verbose spelled, same⟩
  | case9 given argument _ _ name rest named cut ih =>
    obtain ⟨items, spelled, same⟩ := ih taken
    rw [cutOption_eq_none cut, (eq_of_flag? named).2 rfl]
    exact ⟨.help :: items, .help spelled, same⟩
  | case10 given argument _ optional name value cut rest unnamed ih =>
    cases letters : takeLetters given argument with
    | error why =>
      rw [letters] at taken
      cases taken
    | ok between =>
      rw [letters] at taken
      obtain ⟨rfl, count, rfl⟩ := takeLetters_eq_ok (by simpa using optional) letters
      obtain ⟨items, spelled, same⟩ := ih _ taken
      exact ⟨.verbose :: items, .letters count spelled, same⟩

/-- A word of an option's name is an option. -/
theorem option_of_flag? {name : String} {flag : Flag} (named : flag? name = some flag) :
    name ≠ "--" ∧ isOption name = true := by
  obtain ⟨⟨c, rest, dashed⟩, -⟩ := dashed_of_flag? named
  refine ⟨?_, by rw [isOption, dashed]; rfl⟩
  rintro rfl
  cases dashed

theorem option_joined {name : String} {flag : Flag} (named : flag? name = some flag)
    (value : String) :
    name ++ "=" ++ value ≠ "--" ∧ isOption (name ++ "=" ++ value) = true := by
  obtain ⟨⟨c, rest, dashed⟩, -⟩ := dashed_of_flag? named
  have split : (name ++ "=" ++ value).toList = name.toList ++ '=' :: value.toList := by simp
  rw [dashed] at split
  refine ⟨?_, by rw [isOption, split]; rfl⟩
  intro same
  rw [same] at split
  cases split

theorem takeLetters_replicate (given : Given) (count : Nat) :
    takeLetters given (String.ofList ('-' :: List.replicate (count + 1) 'v')) =
      .ok (given.add .verbose) := by
  have all : (List.replicate (count + 1) 'v').all (· = 'v') = true := by simp
  rw [takeLetters, String.toList_ofList]
  split
  · rename_i shape
    cases shape
  · rename_i letters _ shape
    obtain ⟨-, rfl⟩ := List.cons.inj shape
    rw [if_pos all]
    rfl
  · rename_i shape
    cases shape

/-- A word of letters for a verbose run is an option, and is none by its name. -/
theorem option_letters (count : Nat) {word : String}
    (spelled : word = String.ofList ('-' :: List.replicate (count + 1) 'v')) :
    word ≠ "--" ∧ isOption word = true ∧ '=' ∉ word.toList ∧ flag? word = none := by
  have letters : word.toList = '-' :: 'v' :: List.replicate count 'v' := by
    rw [spelled, String.toList_ofList, List.replicate_succ]
  refine ⟨?_, ?_, by simp [letters], ?_⟩
  · rintro rfl
    cases letters
  · rw [isOption, letters]
    rfl
  · cases named : flag? word with
    | none => rfl
    | some flag =>
      obtain ⟨⟨c, rest, dashed⟩, -⟩ := dashed_of_flag? named
      cases letters.symm.trans dashed

/-- Words that spell items are taken for these. -/
theorem take_of_spelled {items : List Item} {words : List String} (spelled : Spells items words)
    (given : Given) : take given words = .ok (given.addAll items) := by
  induction spelled generalizing given with
  | nothing =>
    rw [take]
    rfl
  | others texts => rw [take, if_pos rfl, given.addAll_others]
  | @other text items words plain more ih =>
    have some : text ≠ "--" := by
      rintro rfl
      cases plain
    rw [take, if_neg some, if_pos (by rw [plain]; rfl)]
    exact ih _
  | @joined name which items words named value more ih =>
    obtain ⟨some, optional⟩ := option_joined named value
    rw [take, if_neg some, if_neg (by rw [optional]; simp),
      cutOption_joined (dashed_of_flag? named).2]
    simp only [named]
    exact ih _
  | @apart name which items words named value more ih =>
    obtain ⟨some, optional⟩ := option_of_flag? named
    rw [take, if_neg some, if_neg (by rw [optional]; simp),
      cutOption_plain (dashed_of_flag? named).2]
    simp only [named]
    exact ih _
  | @verbose items words more ih =>
    rw [take, if_neg (by decide), if_neg (by decide), cutOption_plain (by decide)]
    exact ih _
  | @help items words more ih =>
    rw [take, if_neg (by decide), if_neg (by decide), cutOption_plain (by decide)]
    exact ih _
  | @letters items words count more ih =>
    obtain ⟨some, optional, plain, unnamed⟩ := option_letters count rfl
    rw [take, if_neg some, if_neg (by rw [optional]; simp), cutOption_plain plain]
    simp only [unnamed, takeLetters_replicate]
    exact ih _

/-- **Words are taken just when they spell items**, and then for what these add up to. -/
theorem take_eq_ok {given found : Given} {words : List String} :
    take given words = .ok found ↔ ∃ items, Spells items words ∧ found = given.addAll items := by
  refine ⟨spelled_of_take, ?_⟩
  rintro ⟨items, spelled, rfl⟩
  exact take_of_spelled spelled given

/-- **The last value that is given to an option counts.** -/
theorem value?_found {found : Given} {items : List Item} {words : List String}
    (taken : take {} words = .ok found) (spelled : Spells items words) (which : Setting) :
    found.value? which = lastValue? which items := by
  cases (take_of_spelled spelled {}).symm.trans taken
  rw [value?_addAll]
  exact Option.or_none

/-! ## Runs that are asked for -/

/-- The words of a command line ask for a run with some arguments: they can be taken, and do
not ask for help, which would be shown instead of a run. -/
def Asks (words : List String) (arguments : Arguments) : Prop :=
  ∃ given, take {} words = .ok given ∧ given.help = false ∧ given.arguments = .ok arguments

/-- The directories and files of a run are the last ones that were given. -/
theorem Asks.places {words : List String} {arguments : Arguments} (asks : Asks words arguments) :
    ∃ items, Spells items words ∧
      arguments.scratchDir = (lastValue? .scratchDir items).getD "." ∧
        arguments.dest = (lastValue? .dest items).getD "disk.img" := by
  obtain ⟨given, taken, -, asked⟩ := asks
  obtain ⟨items, spelled, -⟩ := take_eq_ok.mp taken
  refine ⟨items, spelled, ?_⟩
  rw [← value?_found taken spelled, ← value?_found taken spelled]
  unfold Given.arguments at asked
  split at asked
  · cases asked
  · cases backend : given.backend with
    | error why =>
      rw [backend] at asked
      cases asked
    | ok backend =>
      rw [‹given.backend = _›] at asked
      cases asked
      exact ⟨rfl, rfl⟩
  · cases asked

end DiskStaging.CommandLine
