import DiskStaging.Proofs.BackendChoice

/-!
# Setting up an intake

An endpoint locates an object if it reads as a URL of the backend whose path names a bucket and a
key, and these are the two halves of the path (`locate_eq_ok_iff`). Every other text is refused, the
empty one, which stands for no endpoint at all, among them. Setting up an intake asks for a client
only once an object is located, and asks once; what it asks may do what it likes. A library that is
missing is reported as such, and every other fault as one of the client, which names the endpoint
(`Intake.SetsUp`). No source is touched (`Intake.create_setsUp`).
-/

set_option autoImplicit false

namespace DiskStaging

open Text

/-! ## Buckets and keys -/

/-- Bucket and key are the halves of the path, cut at its first slash. -/
structure Location.Whole (location : Location) : Prop where
  bucket : location.bucket ≠ ""
  single : '/' ∉ location.bucket.toList
  key : location.key ≠ ""
  path : location.bucket ++ "/" ++ location.key = objectPath location.url

/-- A path with a key is cut at a slash with none in front of it. -/
theorem splitObject_eq {path bucket key : String} (split : splitObject path = (bucket, key))
    (named : key ≠ "") : '/' ∉ bucket.toList ∧ bucket ++ "/" ++ key = path := by
  rw [splitObject] at split
  cases found : cut? '/' path.toList with
  | none =>
    rw [found] at split
    exact absurd (congrArg Prod.snd split).symm named
  | some pair =>
    obtain ⟨before, behind⟩ := pair
    rw [found] at split
    obtain ⟨rfl, rfl⟩ := Prod.mk.inj split
    have first : Url.cutAt '/' path.toList = (before, behind) := by
      rw [Url.cutAt, found]
      rfl
    refine ⟨?_, ?_⟩
    · have absent := Url.not_mem_cutAt '/' path.toList
      rw [first] at absent
      simpa using absent
    · rw [← String.toList_inj, eq_of_cut? found]
      simp [String.toList_append]

/-- **An endpoint locates an object if its path consists of a bucket and a key.** -/
theorem locate_eq_ok_iff {endpoint : String} {schemes : List String} {location : Location} :
    locate endpoint schemes = .ok location ↔
      parseEndpoint endpoint schemes = .ok location.url ∧ location.Whole := by
  constructor
  · intro located
    obtain ⟨read, split, bucket, key⟩ := locate_eq_ok located
    obtain ⟨single, path⟩ := splitObject_eq split key
    exact ⟨read, bucket, single, key, path⟩
  · rintro ⟨read, bucket, single, key, path⟩
    rw [locate, read]
    simp only [Bind.bind, Except.bind, ← path, splitObject_append single]
    rw [if_neg (by simp [bucket, key])]
    rfl

/-! ## Asking for a client -/

namespace Intake

variable {σ : Type} {settings : IntakeSettings}

/-- Reports what setting up an intake reports for the faults of an action. -/
def contained {α : Type} (endpoint : String) (act : Act σ α) : Act σ α := fun state =>
  match act state with
  | .error fault state => .error (clientFault endpoint fault) state
  | ending => ending

/-- What a client is asked for with. -/
def asked (settings : IntakeSettings) (location : Location) : ClientSettings :=
  settings.client (settings.backend.service location.url)

/-- Sets up an intake with a client from anywhere. -/
def createFrom (settings : IntakeSettings) (make : ClientSettings → Act σ Client) : Act σ Intake :=
  match locate settings.endpoint settings.backend.schemes with
  | .error why => throw (.endpoint settings.endpoint why)
  | .ok location => do
    let client ← contained settings.endpoint (make (asked settings location))
    pure (ofSettings settings location client)

/-- Setting up an intake takes its client from the factory. -/
theorem create_eq_createFrom (settings : IntakeSettings) :
    create settings = createFrom settings (settings.factory.get settings.backend) := by
  have same (service : String) : getClient settings service =
      contained settings.endpoint
        (settings.factory.get settings.backend (settings.client service)) := by
    funext cloud
    simp only [getClient, contained]
    cases settings.factory.get settings.backend (settings.client service) cloud <;> rfl
  simp only [create, createFrom, same]
  cases locate settings.endpoint settings.backend.schemes <;> rfl

/-- Keeps a list of what clients were asked for with, the latest one first. -/
def counted (make : ClientSettings → Act σ Client) (settings : ClientSettings) :
    Act (List ClientSettings × σ) Client := fun (before, state) =>
  Ending.inside (fun state => (settings :: before, state)) (make settings state)

/-- How setting up an intake can end, with what clients were asked for with. -/
inductive SetsUp (settings : IntakeSettings) (make : ClientSettings → Act σ Client) (state : σ) :
    Ending (List ClientSettings × σ) Intake → Prop
  | refused {why : EndpointFault}
    (refused : locate settings.endpoint settings.backend.schemes = .error why) :
    SetsUp settings make state (.error (.endpoint settings.endpoint why) ([], state))
  /-- A missing library is reported as it is. -/
  | missing {location : Location} {fault : Fault} {after : σ}
    (located : locate settings.endpoint settings.backend.schemes = .ok location)
    (raised : make (asked settings location) state = .error fault after)
    (library : fault.isA .library = true) :
    SetsUp settings make state (.error fault ([asked settings location], after))
  | failed {location : Location} {fault : Fault} {after : σ}
    (located : locate settings.endpoint settings.backend.schemes = .ok location)
    (raised : make (asked settings location) state = .error fault after)
    (other : fault.isA .library = false) :
    SetsUp settings make state
      (.error (.noClient settings.endpoint fault) ([asked settings location], after))
  | done {location : Location} {client : Client} {after : σ}
    (located : locate settings.endpoint settings.backend.schemes = .ok location)
    (made : make (asked settings location) state = .ok client after) :
    SetsUp settings make state
      (.ok (ofSettings settings location client) ([asked settings location], after))

section Ends

variable {make : ClientSettings → Act σ Client} {state : σ}

theorem createFrom_setsUp (settings : IntakeSettings) (make : ClientSettings → Act σ Client)
    (state : σ) :
    SetsUp settings make state (createFrom settings (counted make) ([], state)) := by
  unfold createFrom
  cases located : locate settings.endpoint settings.backend.schemes with
  | error why => exact .refused located
  | ok location =>
    simp only [Bind.bind, EStateM.bind, contained, counted]
    cases made : make (asked settings location) state with
    | ok client after => exact .done located made
    | error fault after =>
      simp only [Ending.inside, clientFault]
      split
      · rename_i library
        exact .missing located made library
      · rename_i other
        exact .failed located made (Bool.eq_false_iff.mpr other)

/-- Counting changes nothing. -/
theorem createFrom_counted (settings : IntakeSettings) (make : ClientSettings → Act σ Client)
    (state : σ) :
    createFrom settings make state =
      Ending.inside Prod.snd (createFrom settings (counted make) ([], state)) := by
  unfold createFrom
  cases locate settings.endpoint settings.backend.schemes with
  | error why => rfl
  | ok location =>
    simp only [Bind.bind, EStateM.bind, contained, counted]
    cases make (asked settings location) state <;> rfl

theorem isA_endpoint_of_library {kind : Kind} (library : kind.isA .library = true) :
    kind.isA .endpoint = false := by
  cases kind <;> first | rfl | cases library

end Ends

end Intake

/-- **Setting up an intake asks for one client, and only for an endpoint that locates an object.**
What goes wrong is a fault of the endpoint, a missing library, or a fault of the client that names
the endpoint and what led to it; and nothing is done to any source. -/
theorem Intake.create_setsUp (settings : IntakeSettings) :
    (∀ {σ : Type} (make : ClientSettings → Act σ Client) (state : σ),
      let ending := createFrom settings (counted make) ([], state)
      createFrom settings make state = Ending.inside Prod.snd ending ∧
        SetsUp settings make state ending ∧
        (∀ fault after, ending = .error fault after →
          (fault.isA .endpoint = true ↔ after.1 = []) ∧
            (fault.isA .endpoint = true ∨ fault.isA .library = true ∨
              fault.isA .client = true ∧ ∃ asked cause,
                make asked state = .error cause after.2 ∧ fault.causeKind = some cause.kind ∧
                  fault.message = "Unable to create client for " ++ settings.endpoint ++ ": " ++
                    cause.message)) ∧
        ∀ intake after, ending = .ok intake after →
          intake.location.Whole ∧ intake.holding.source? = settings.reader) ∧
      create settings = createFrom settings (settings.factory.get settings.backend) ∧
      ∀ cloud, (Ending.state (create settings cloud)).requests = cloud.requests ∧
        (Ending.state (create settings cloud)).objects = cloud.objects := by
  refine ⟨fun make state => ?_, create_eq_createFrom settings, fun cloud => ?_⟩
  · have ends := createFrom_setsUp settings make state
    refine ⟨createFrom_counted settings make state, ends, ?_, ?_⟩
    · intro fault after ended
      rw [ended] at ends
      cases ends with
      | refused refused => exact ⟨⟨fun _ => rfl, fun _ => rfl⟩, .inl rfl⟩
      | missing located raised library =>
        refine ⟨⟨fun same => ?_, nofun⟩, .inr (.inl library)⟩
        cases same.symm.trans (isA_endpoint_of_library library)
      | failed located raised other =>
        exact ⟨⟨nofun, nofun⟩, .inr (.inr ⟨rfl, _, _, raised, rfl, rfl⟩)⟩
    · intro intake after ended
      rw [ended] at ends
      cases ends with
      | done located made =>
        refine ⟨(locate_eq_ok_iff.mp located).2, ?_⟩
        cases reader : settings.reader <;> simp only [ofSettings, reader] <;> rfl
  · have quiet : Keeps (fun after : Cloud => after.requests = cloud.requests ∧
        after.objects = cloud.objects) (create settings) :=
      Session.create_keeps fun _ _ _ same => same
    exact quiet cloud ⟨rfl, rfl⟩

/-- A fault of an endpoint that asking for a client raises is not taken for one of the endpoint. -/
theorem Intake.create_setsUp_confused :
    ∃ fault, createFrom Session.fetching (counted fun _ => throw (.foreign .endpoint "busy"))
        ([], ()) = .error fault ([{}], ()) ∧
      fault.isA .endpoint = false ∧
      fault.message = "Unable to create client for s3://images/disk: busy" := by
  have located : locate Session.fetching.endpoint Session.fetching.backend.schemes =
      .ok ⟨⟨"s3", "images", "/disk", "", "", ""⟩, "images", "disk"⟩ := by decide +kernel
  have ended : createFrom Session.fetching
      (counted fun _ => throw (.foreign .endpoint "busy")) ([], ()) =
        .error (.noClient "s3://images/disk" (.foreign .endpoint "busy")) ([{}], ()) := by
    unfold createFrom
    rw [located]
    rfl
  obtain ⟨-, -, kinds, -⟩ := (create_setsUp Session.fetching).1 _ ()
  obtain ⟨endpoint, -⟩ := kinds _ _ ended
  refine ⟨_, ended, Bool.eq_false_iff.mpr fun blamed => ?_, rfl⟩
  cases endpoint.mp blamed

end DiskStaging
