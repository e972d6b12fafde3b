import DiskStaging.Proofs.BackendChoice
import DiskStaging.Proofs.HostedUrls

/-!
# Clients of storage services

A client is built for the backend's own service, or for one that has an address on the web
(`Url.IsWeb`). The library of the backend is asked for it only if it is there and the address is
one; what it raises then is reported as a fault of the client. An address that is none is such a
fault as well, with one exception: text that announces a host part at fault is no URL at all, and
that is reported as it is (`createClient_iff`).

No endpoint that locates an object leads there. Its service is put together from its scheme and its
host part, and read as a URL of just these (`Url.parse_service`), so its client is built, and is
asked for the object that was located (`Session.client_of_located`).
-/

set_option autoImplicit false

namespace DiskStaging

namespace Url

/-! ## Web addresses -/

/-- Text is a web address: behind a scheme of the web, it announces a host part without fault. -/
def IsWeb (text : List Char) : Prop :=
  ∃ scheme host rest, Announces text scheme host rest ∧
    String.ofList scheme ∈ ["http", "https"] ∧ host ≠ [] ∧ checkHost host = .ok ()

/-- Text announces a host part with a fault. -/
def HostFault (text : List Char) (why : UrlFault) : Prop :=
  ∃ scheme host rest, Announces text scheme host rest ∧ checkHost host = .error why

section Reading

variable {text : String} {scheme host rest : List Char}

theorem parse_of_announces (announces : Announces text.toList scheme host rest) :
    parse text = (checkHost host).map fun _ => ofParts scheme host rest := by
  obtain ⟨first, second, third⟩ := announces.parts
  rw [parse_eq, first, second, third]

/-- Only a fault of its host part keeps text from being a URL. -/
theorem parse_eq_error_iff {why : UrlFault} :
    parse text = .error why ↔ HostFault text.toList why := by
  constructor
  · intro read
    rw [parse_eq] at read
    cases checked : checkHost (hostOf (cleaned text.toList)) with
    | ok value =>
      rw [checked] at read
      cases read
    | error found =>
      rw [checked] at read
      cases read
      have hosted : hostOf (cleaned text.toList) ≠ [] := by
        intro none
        rw [none] at checked
        cases checked
      exact ⟨_, _, _, announces_of_hostOf hosted, checked⟩
  · rintro ⟨scheme, host, rest, announces, checked⟩
    rw [parse_of_announces announces, checked]
    rfl

/-- Web addresses are the URLs of the schemes of the web that have a host part. -/
theorem isWeb_iff :
    IsWeb text.toList ↔
      ∃ url, parse text = .ok url ∧ url.scheme ∈ ["http", "https"] ∧ url.netloc ≠ "" := by
  constructor
  · rintro ⟨scheme, host, rest, announces, web, some, checked⟩
    refine ⟨ofParts scheme host rest, ?_, web, ?_⟩
    · rw [parse_of_announces announces, checked]
      rfl
    · intro none
      exact some (String.ofList_eq_empty_iff.mp none)
  · rintro ⟨url, read, web, hosted⟩
    obtain ⟨checked, rfl⟩ := eq_ofParts read
    have some := hostOf_ne_nil read hosted
    exact ⟨_, _, _, announces_of_hostOf some, web, some, checked⟩

/-- The scheme and the host part of a URL announce the host part again, with nothing behind it. -/
theorem announces_service {url : Url} (read : parse text = .ok url) (schemed : url.scheme ≠ "")
    (hosted : url.netloc ≠ "") :
    Announces (url.scheme ++ "://" ++ url.netloc).toList (schemeOf (cleaned text.toList))
      (hostOf (cleaned text.toList)) [] := by
  have announced := announces_of_hostOf (hostOf_ne_nil read hosted)
  obtain ⟨front, start, whole⟩ := announced.start
  obtain ⟨scheme, netloc, -⟩ := parts_of_parse read
  have lower : front.map Char.toLower = url.scheme.toList ++ [':'] := by
    rw [start.map_toLower, ← scheme, if_neg]
    rwa [List.isEmpty_iff, String.toList_eq_nil_iff]
  have shown : (url.scheme ++ "://" ++ url.netloc).toList =
      front.map Char.toLower ++ '/' :: '/' :: (hostOf (cleaned text.toList) ++ []) := by
    rw [lower, ← netloc]
    simp [String.toList_append]
  refine ⟨⟨_, start.lower, ?_⟩, announced.inside, by simp⟩
  rw [shown]
  refine cleaned_hosted start.lower fun c listed => kept_of_mem_cleaned text.toList ?_
  rw [whole]
  simp only [List.append_nil] at listed
  simp [listed]

theorem ofParts_nil (scheme host : List Char) :
    ofParts scheme host [] = ⟨String.ofList scheme, String.ofList host, "", "", "", ""⟩ := by
  have params : cutParams scheme [] = ([], []) := cutParams_of_not_mem scheme (by decide)
  have cut (separator : Char) : cutAt separator [] = ([], []) := rfl
  simp only [ofParts, cut, params]

/-- **The scheme and the host part of a URL are read as a URL of just these.** -/
theorem parse_service {url : Url} (read : parse text = .ok url) (schemed : url.scheme ≠ "")
    (hosted : url.netloc ≠ "") :
    parse (url.scheme ++ "://" ++ url.netloc) = .ok ⟨url.scheme, url.netloc, "", "", "", ""⟩ := by
  obtain ⟨checked, -⟩ := eq_ofParts read
  obtain ⟨scheme, netloc, -⟩ := parts_of_parse read
  rw [parse_of_announces (announces_service read schemed hosted), checked, ofParts_nil, ← scheme,
    ← netloc, String.ofList_toList, String.ofList_toList]
  rfl

end Reading

end Url

/-! ## Services -/

/-- Why a service is of no use to a client. -/
inductive Unusable (service : String) : Fault → Prop
  /-- Text that announces a host part at fault is no URL. -/
  | badHost {why : UrlFault} (faulty : Url.HostFault service.toList why) :
    Unusable service (.url why)
  | noAddress (named : service ≠ "") (other : ¬ Url.IsWeb service.toList)
    (readable : ∀ why, ¬ Url.HostFault service.toList why) :
    Unusable service (.badService service)

section Services

variable {service : String}

theorem checkService_of_parse {url : Url} (named : service ≠ "")
    (read : Url.parse service = .ok url) :
    checkService service =
      if url.scheme ∈ ["http", "https"] ∧ url.netloc ≠ "" then .ok ()
      else .error (.badService service) := by
  rw [checkService, if_neg (by simpa using named), read]
  simp

/-- A service that is no URL is reported for what is wrong with it as one. -/
theorem checkService_of_fault {why : UrlFault} (read : Url.parse service = .error why) :
    checkService service = .error (.url why) := by
  have named : service ≠ "" := by
    rintro rfl
    cases read
  rw [checkService, if_neg (by simpa using named), read]

/-- A service is fine if it is the backend's own or has an address on the web. -/
theorem checkService_eq_ok_iff :
    checkService service = .ok () ↔ service = "" ∨ Url.IsWeb service.toList := by
  by_cases named : service = ""
  · simp [checkService, named]
  · cases read : Url.parse service with
    | error why =>
      rw [checkService_of_fault read, Url.isWeb_iff, read]
      simp [named]
    | ok url =>
      rw [checkService_of_parse named read, Url.isWeb_iff, read]
      simp [named]

/-- It is reported otherwise. -/
theorem checkService_eq_error_iff {fault : Fault} :
    checkService service = .error fault ↔ Unusable service fault := by
  constructor
  · intro refused
    have other : ¬(service = "" ∨ Url.IsWeb service.toList) := by
      rw [← checkService_eq_ok_iff, refused]
      exact nofun
    obtain ⟨named, strange⟩ := not_or.mp other
    cases read : Url.parse service with
    | error why =>
      rw [checkService_of_fault read] at refused
      cases refused
      exact .badHost (Url.parse_eq_error_iff.mp read)
    | ok url =>
      rw [checkService_of_parse named read] at refused
      split at refused
      · cases refused
      · cases refused
        refine .noAddress named strange fun why faulty => ?_
        cases read.symm.trans (Url.parse_eq_error_iff.mpr faulty)
  · rintro (@⟨why, faulty⟩ | ⟨named, strange, readable⟩)
    · exact checkService_of_fault (Url.parse_eq_error_iff.mpr faulty)
    · cases read : Url.parse service with
      | error why => exact (readable why (Url.parse_eq_error_iff.mp read)).elim
      | ok url =>
        rw [checkService_of_parse named read, if_neg]
        exact fun fine => strange (Url.isWeb_iff.mpr ⟨url, read, fine⟩)

/-- What is fine announces no host part at fault. -/
theorem not_hostFault (usable : service = "" ∨ Url.IsWeb service.toList) (why : UrlFault) :
    ¬ Url.HostFault service.toList why := by
  intro faulty
  have refused := checkService_eq_error_iff.mpr (.badHost faulty)
  cases (checkService_eq_ok_iff.mpr usable).symm.trans refused

theorem Unusable.eq_url {fault : Fault} (useless : Unusable service fault) {why : UrlFault}
    (faulty : Url.HostFault service.toList why) : fault = .url why := by
  have refused := checkService_eq_error_iff.mpr (.badHost faulty)
  cases (checkService_eq_error_iff.mpr useless).symm.trans refused
  rfl

end Services

/-! ## Building clients -/

/-- The cloud once a library was called. -/
def Cloud.called (cloud : Cloud) (call : Call) : Cloud :=
  { cloud with calls := call :: cloud.calls }

/-- How building a client with the library of a backend can end. -/
inductive Builds (backend : Backend) (settings : ClientSettings) (cloud : Cloud) :
    Ending Cloud Client → Prop
  | missing (gone : cloud.library backend = .missing) :
    Builds backend settings cloud (.error (.noLibrary backend) cloud)
  /-- The service is checked before the library is asked. -/
  | unusable {fault : Fault} (there : cloud.library backend ≠ .missing)
    (useless : Unusable settings.service fault) :
    Builds backend settings cloud (.error fault cloud)
  | refused {fault : Fault} (refusing : cloud.library backend = .refusing fault)
    (usable : settings.service = "" ∨ Url.IsWeb settings.service.toList) :
    Builds backend settings cloud
      (.error (.libraryRefused backend settings.service fault)
        (cloud.called (settings.call backend)))
  | built (installed : cloud.library backend = .installed)
    (usable : settings.service = "" ∨ Url.IsWeb settings.service.toList) :
    Builds backend settings cloud (.ok (.ofLibrary backend) (cloud.called (settings.call backend)))

section Building

variable {backend : Backend} {settings : ClientSettings} {cloud : Cloud}

theorem createClient_builds (backend : Backend) (settings : ClientSettings) (cloud : Cloud) :
    Builds backend settings cloud (createClient backend settings cloud) := by
  unfold createClient
  cases checked : checkService settings.service with
  | error fault =>
    have useless := checkService_eq_error_iff.mp checked
    cases found : cloud.library backend with
    | missing => exact .missing found
    | installed | refusing _ => exact .unusable (by simp [found]) useless
  | ok value =>
    have usable := checkService_eq_ok_iff.mp checked
    cases found : cloud.library backend with
    | missing => exact .missing found
    | installed => exact .built found usable
    | refusing fault => exact .refused found usable

/-- There is one ending only. -/
theorem Builds.eq {ending : Ending Cloud Client} (builds : Builds backend settings cloud ending) :
    createClient backend settings cloud = ending := by
  unfold createClient
  cases builds with
  | missing gone => simp only [gone]
  | unusable there useless =>
    rw [checkService_eq_error_iff.mpr useless]
    cases found : cloud.library backend with
    | missing => exact (there found).elim
    | installed => rfl
    | refusing fault => rfl
  | refused refusing usable =>
    rw [checkService_eq_ok_iff.mpr usable, refusing]
    rfl
  | built installed usable =>
    rw [checkService_eq_ok_iff.mpr usable, installed]
    rfl

/-- **A client is built, or the fault is of the library or of the client**, except where the service
announces a host part at fault. -/
theorem createClient_iff (backend : Backend) (settings : ClientSettings) (cloud : Cloud) :
    (∀ ending, createClient backend settings cloud = ending ↔
      Builds backend settings cloud ending) ∧
    ∀ fault after, createClient backend settings cloud = .error fault after →
      (fault.isA .library = true ↔ cloud.library backend = .missing) ∧
        (fault.isA .client = true ↔ cloud.library backend ≠ .missing ∧
          ∀ why, ¬ Url.HostFault settings.service.toList why) ∧
        ∀ why, cloud.library backend ≠ .missing → Url.HostFault settings.service.toList why →
          fault = .url why ∧ after = cloud := by
  refine ⟨fun ending => ⟨fun same => same ▸ createClient_builds .., Builds.eq⟩, ?_⟩
  intro fault after made
  have builds := createClient_builds backend settings cloud
  rw [made] at builds
  cases builds with
  | missing gone => simp [gone, Fault.isA, Fault.kind, Kind.isA, Kind.parents]
  | unusable there useless =>
    refine ⟨?_, ?_, fun why _ faulty => ⟨useless.eq_url faulty, rfl⟩⟩
    · cases useless <;> simp [there, Fault.isA, Fault.kind, Kind.isA, Kind.parents]
    · cases useless with
      | @badHost why faulty =>
        simp only [Fault.isA, Fault.kind, Kind.isA, Kind.parents]
        simpa using fun _ => ⟨why, faulty⟩
      | noAddress named other readable => exact ⟨fun _ => ⟨there, readable⟩, fun _ => rfl⟩
  | @refused found refusing usable =>
    have readable := not_hostFault usable
    have there : cloud.library backend ≠ .missing := by simp [refusing]
    refine ⟨?_, ⟨fun _ => ⟨there, readable⟩, fun _ => rfl⟩,
      fun why _ faulty => absurd faulty (readable why)⟩
    simp [there, Fault.isA, Fault.kind, Kind.isA, Kind.parents]

/-- Text that starts an address in brackets and does not end it is refused, but not as a fault of
the client. -/
theorem createClient_iff_openBracket :
    ∃ fault, createClient .s3 { service := "http://[::1" } {} = .error fault {} ∧
      fault.isA .client = false := by
  have faulty : Url.HostFault "http://[::1".toList .misplacedBrackets :=
    Url.parse_eq_error_iff.mp (by decide +kernel)
  obtain ⟨ends, kinds⟩ := createClient_iff .s3 { service := "http://[::1" } {}
  have made := (ends _).mpr (.unusable nofun (.badHost faulty))
  obtain ⟨-, client, -⟩ := kinds _ _ made
  refine ⟨_, made, Bool.eq_false_iff.mpr fun blamed => ?_⟩
  exact (client.mp blamed).2 _ faulty

end Building

/-! ## What is asked of the libraries -/

/-- The backend whose client a call builds, and the service that the client is for. -/
def Call.client? : Call → Option (Backend × Option String)
  | .s3Client service .. => some (.s3, service)
  | .gcsClient service | .gcsAccountClient _ service => some (.gcs, service)
  | .s3Object .. | .gcsObject .. => none

/-- The backend that a call asks for an object, and the bucket and the key of that. -/
def Call.object? : Call → Option (Backend × String × String)
  | .s3Object bucket key => some (.s3, bucket, key)
  | .gcsObject bucket key => some (.gcs, bucket, key)
  | .s3Client .. | .gcsClient .. | .gcsAccountClient .. => none

theorem client?_call (backend : Backend) (settings : ClientSettings) :
    (settings.call backend).client? = some (backend, unlessBlank settings.service) := by
  cases backend with
  | s3 => rfl
  | gcs =>
    rw [ClientSettings.call]
    split <;> rfl

theorem exists_call (backend : Backend) (bucket key : String) :
    ∃ ask, Client.call? bucket key (.ofLibrary backend) = some ask ∧
      ask.object? = some (backend, bucket, key) := by
  cases backend <;> exact ⟨_, rfl, rfl⟩

/-- A client calls its library once for an object, whatever comes of it. -/
theorem fetch_calls (client : Client) (bucket key : String) (cloud : Cloud) :
    (Ending.state (client.fetch bucket key cloud)).calls =
      (client.call? bucket key).toList ++ cloud.calls := by
  have asked (cloud : Cloud) :
      (Ending.state (Cloud.fetch bucket key cloud)).calls = cloud.calls := by
    simp only [Cloud.fetch]
    split
    · rfl
    · split <;> rfl
  unfold Client.fetch
  cases client.call? bucket key with
  | none => exact asked cloud
  | some call => exact asked (cloud.called call)

namespace Intake

variable {settings : IntakeSettings} {location : Location}

theorem service_client (settings : IntakeSettings) (service : String) :
    (settings.client service).service = service := by
  unfold IntakeSettings.client
  cases settings.backend <;> rfl

/-- The service of an endpoint that locates an object is fine. -/
theorem checkService_service {endpoint : String} {backend : Backend}
    (located : locate endpoint backend.schemes = .ok location) :
    Url.parse (location.url.scheme ++ "://" ++ location.url.netloc) =
        .ok ⟨location.url.scheme, location.url.netloc, "", "", "", ""⟩ ∧
      checkService (backend.service location.url) = .ok () := by
  obtain ⟨-, -, parsed, listed, hosted⟩ := parseEndpoint_eq_ok (locate_eq_ok located).1
  have schemed : location.url.scheme ≠ "" := by
    intro none
    rw [none] at listed
    cases backend <;> exact absurd listed (by decide)
  have read := Url.parse_service parsed schemed hosted
  refine ⟨read, checkService_eq_ok_iff.mpr ?_⟩
  rw [Backend.service]
  split
  · exact .inl rfl
  · rename_i other
    have web : location.url.scheme ∈ ["http", "https"] := by
      cases backend with
      | s3 =>
        replace listed : location.url.scheme ∈ ["http", "https"] ++ ["s3"] := listed
        rcases List.mem_append.mp listed with web | own
        · exact web
        · exact absurd (List.mem_singleton.mp own) other
      | gcs =>
        replace listed : location.url.scheme ∈ "gs" :: ["http", "https"] := listed
        rcases List.mem_cons.mp listed with own | web
        · exact absurd own other
        · exact web
    exact .inr (Url.isWeb_iff.mpr ⟨_, read, web, hosted⟩)

theorem unlessBlank_service (backend : Backend) (url : Url) :
    unlessBlank (backend.service url) =
      if url.scheme = backend.scheme then none else some (url.scheme ++ "://" ++ url.netloc) := by
  rw [Backend.service]
  split
  · rfl
  · refine if_neg ?_
    simp [String.isEmpty_iff]

/-- A library that is there builds the client of an endpoint that locates an object. -/
theorem create_of_installed {cloud : Cloud}
    (located : locate settings.endpoint settings.backend.schemes = .ok location)
    (factory : settings.factory = .library)
    (installed : cloud.library settings.backend = .installed) :
    create settings cloud =
      .ok (ofSettings settings location (.ofLibrary settings.backend))
        (cloud.called
          ((settings.client (settings.backend.service location.url)).call settings.backend)) := by
  have usable := (checkService_service located).2
  rw [← service_client settings (settings.backend.service location.url)] at usable
  have built := (Builds.built installed (checkService_eq_ok_iff.mp usable)).eq
  have got : getClient settings (settings.backend.service location.url) cloud = _ :=
    getClient_eq_ok_iff.mpr (by rw [factory]; exact built)
  rw [create, located]
  simp only [Bind.bind, EStateM.bind, got]
  rfl

/-- What an intake asks for to read: the object, unless a source was handed in. -/
theorem state_openContent (settings : IntakeSettings) (location : Location) (client : Client)
    (cloud : Cloud) :
    Ending.state ((ofSettings settings location client).openContent cloud) =
      if settings.reader.isSome then cloud
      else Ending.state (client.fetch location.bucket location.key cloud) := by
  cases reader : settings.reader with
  | some source => simp [openContent, ofSettings, reader, Ending.state]
  | none =>
    simp only [openContent, ofSettings, reader]
    cases client.fetch location.bucket location.key cloud <;> rfl

end Intake

namespace Session

section Runs

variable {session : Session}

/-- Once `info` was called, no call asks for anything. -/
theorem cloud_afterAll (past : session.intake.phase ≠ none) (steps : List Step) :
    (session.afterAll steps).cloud = session.cloud := by
  induction steps generalizing session with
  | nil => rfl
  | cons step steps ih =>
    have does := perform_does session step
    have still : (session.after step).intake.phase ≠ none := by
      rcases does.moves with same | ⟨next, -, entered⟩
      · exact fun idle => past (same.symm.trans idle)
      · exact fun idle => Option.some_ne_none next (entered.symm.trans idle)
    have same : (session.after step).cloud = session.cloud := by
      by_cases opens : step = .info
      · subst opens
        exact congrArg Session.cloud (after_misplaced .info (.inr past))
      · exact does.cloud opens
    exact (ih still).trans same

/-- What `info` asks for is the content to read. -/
theorem after_info (session : Session) (fresh : session.intake.phase = none)
    (opened : session.intake.closed = false) :
    (session.after .info).cloud = Ending.state (session.intake.openContent session.cloud) ∧
      (session.after .info).intake.phase ≠ none := by
  obtain ⟨intake, cloud, files⟩ := session
  cases ready : intake.openContent cloud with
  | error fault after =>
    rw [Session.after, info_unopened files fresh opened ready]
    exact ⟨rfl, Option.some_ne_none _⟩
  | ok content after =>
    rw [Session.after, info_eq files fresh opened ready]
    cases sniff sniffSize content <;> exact ⟨rfl, Option.some_ne_none _⟩

end Runs

/-- **A located object is asked for through a client of its service.** -/
theorem client_of_located {settings : IntakeSettings} {location : Location} {cloud : Cloud}
    (located : locate settings.endpoint settings.backend.schemes = .ok location)
    (factory : settings.factory = .library)
    (installed : cloud.library settings.backend = .installed) (files : FileTree) :
    Url.parse (location.url.scheme ++ "://" ++ location.url.netloc) =
        .ok ⟨location.url.scheme, location.url.netloc, "", "", "", ""⟩ ∧
      checkService (settings.backend.service location.url) = .ok () ∧
      ∃ intake call, Intake.create settings cloud = .ok intake (cloud.called call) ∧
        intake.location = location ∧
        call.client? = some (settings.backend,
          if location.url.scheme = settings.backend.scheme then none
          else some (location.url.scheme ++ "://" ++ location.url.netloc)) ∧
        ∀ steps,
          let later := (Session.mk intake (cloud.called call) files).afterAll (.info :: steps)
          (settings.reader ≠ none → later.cloud = cloud.called call) ∧
          (settings.reader = none → ∃ ask,
            ask.object? = some (settings.backend, location.bucket, location.key) ∧
              later.cloud.calls = ask :: call :: cloud.calls ∧
              later.cloud.requests = (location.bucket, location.key) :: cloud.requests) := by
  obtain ⟨read, fine⟩ := Intake.checkService_service located
  refine ⟨read, fine, _, _, Intake.create_of_installed located factory installed, rfl, ?_, ?_⟩
  · rw [client?_call, Intake.service_client, Intake.unlessBlank_service]
  · intro steps
    obtain ⟨asked, past⟩ := after_info ⟨.ofSettings settings location _, _, files⟩ rfl rfl
    have kept := (cloud_afterAll past steps).trans asked
    rw [Intake.state_openContent] at kept
    refine ⟨fun handed => ?_, fun none => ?_⟩
    · rwa [if_pos (Option.isSome_iff_ne_none.mpr handed)] at kept
    · obtain ⟨ask, called, object⟩ :=
        exists_call settings.backend location.bucket location.key
      rw [if_neg (by simp [none])] at kept
      refine ⟨ask, object, ?_, ?_⟩
      · exact (congrArg Cloud.calls kept).trans (by rw [fetch_calls, called]; rfl)
      · exact (congrArg Cloud.requests kept).trans (fetch_requests ..)

/-- An endpoint with a user, a bracketed address and a port, and a blank and capitals in front. -/
def bracketed : IntakeSettings where
  backend := .gcs
  endpoint := " HTTP://u@[::1]:80/images/disk"
  chunk := none

/-- Its client is built for that address, and asked for the object once. -/
theorem client_of_located_bracketed :
    ∃ intake call, Intake.create bracketed {} = .ok intake (Cloud.called {} call) ∧
      call.client? = some (.gcs, some "http://u@[::1]:80") ∧
      ∃ ask, ask.object? = some (.gcs, "images", "disk") ∧
        ((Session.mk intake (Cloud.called {} call) .fresh).afterAll [.info, .info]).cloud.calls =
          [ask, call] := by
  have located : locate bracketed.endpoint bracketed.backend.schemes =
      .ok ⟨⟨"http", "u@[::1]:80", "/images/disk", "", "", ""⟩, "images", "disk"⟩ := by
    decide +kernel
  have installed : ({} : Cloud).library bracketed.backend = .installed := rfl
  obtain ⟨-, -, intake, call, created, -, client, runs⟩ :=
    client_of_located located rfl installed .fresh
  obtain ⟨ask, object, calls, -⟩ := (runs [.info]).2 rfl
  exact ⟨intake, call, created, client, ask, object, calls⟩

end Session

end DiskStaging
