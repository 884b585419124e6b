import ContentStore.Proofs.Client.Methods
import ContentStore.Proofs.Client.Refinement
import ContentStore.Proofs.CommandLine.Grammar
import ContentStore.Proofs.CommandLine.Marks

/-!
Contract: what a collection by command line deletes.

Owns:
- `opened`, the server when the store has been opened;
- that a file with a line that is no mark ends the command with what opening the
  store has sent;
- that nothing is deleted unless the word for it was given and every line of the
  file is a mark, and that all keys that are deleted belong to listed objects of
  which the file names neither the key nor the entity tag;
- that lines with nothing but blanks name nothing, so that an object without an
  entity tag is not spared by them.

Does not own: which requests a deletion leads to when it is redirected.
-/

namespace ContentStore.CommandLine

open Http (Noted)
open Text (TrimsTo)

variable {State : Type} [Http.Server State] {Files : Type} [Disk Files]

/-- The server when the store of an invocation has been opened, or could not
be. -/
def opened (invocation : Invocation) (clock : Calendar.Instant) (files : Files)
    (server : State) : State :=
  match loadSettings invocation.settingsFile files with
  | .error _ => server
  | .ok settings => (Store.connect invocation.repository settings clock server).2

private theorem sent_opened (invocation : Invocation) (clock : Calendar.Instant) (files : Files)
    (server : Noted State) :
    Noted.Sent (fun request => request.method ≠ .delete) server
      (opened invocation clock files server) := by
  unfold opened
  split
  · exact Noted.Sent.refl server
  · exact Store.sent_connect _ _ _ _

/-- A store that was opened is a new one over the server as it was left. -/
theorem exists_of_connect_ok {repository : String} {settings : Settings}
    {clock : Calendar.Instant} {server after : State} {store : Store (Link State)}
    (connected : Store.connect repository settings clock server = (.ok store, after)) :
    ∃ budget, store = Store.overRemote repository budget (Store.linkTo settings clock after) := by
  unfold Store.connect at connected
  split at connected
  · exact absurd (Prod.mk.inj connected).1 (by simp)
  · exact absurd (Prod.mk.inj connected).1 (by simp)
  · rename_i budget _ _
    obtain ⟨sameClient, sameClock⟩ :=
      (Store.linkTo settings clock server).createBucket_keeps
    cases created : (Store.linkTo settings clock server).createBucket with
    | mk outcome link =>
      rw [created] at connected sameClient sameClock
      obtain ⟨made, rfl⟩ := Prod.mk.inj connected
      cases outcome with
      | error cause => exact absurd made (by simp [Except.map])
      | ok isNew =>
        refine ⟨budget, ?_⟩
        rw [← Except.ok.inj made]
        cases link
        simp only [Store.linkTo] at sameClient sameClock
        rw [Store.linkTo, sameClient, sameClock]

/-- Nobody has begun to collect on a store that was opened. -/
theorem connect_ok {repository : String} {settings : Settings} {clock : Calendar.Instant}
    {server after : State} {store : Store (Link State)}
    (connected : Store.connect repository settings clock server = (.ok store, after)) :
    store.connection = Store.linkTo settings clock after ∧ store.collector.phase = .idle := by
  obtain ⟨budget, rfl⟩ := exists_of_connect_ok connected
  exact ⟨rfl, rfl⟩

private theorem perform_collect {marks : String} {files : Files} {content : Bytes}
    (held : Disk.read marks files = .ok (.ok content)) (delete : Bool) (elapsed : UInt64)
    (store : Store (Link State)) :
    perform (.collect marks delete) elapsed store files =
      ((collect (.ok content) delete elapsed store).1.map fun tally => line (tallyJson tally).text,
        (collect (.ok content) delete elapsed store).2, files) := by
  unfold perform
  dsimp only
  rw [held]

/-- When the store can be opened, the command is carried out on it. -/
theorem execute_of_connect {invocation : Invocation} {settings : Settings}
    {clock : Calendar.Instant} {files : Files} {server after : State}
    {store : Store (Link State)}
    (loaded : loadSettings invocation.settingsFile files = .ok settings)
    (connected : Store.connect invocation.repository settings clock server = (.ok store, after))
    (elapsed : UInt64) :
    execute invocation clock elapsed files server =
      ((perform invocation.command elapsed store files).1,
        (perform invocation.command elapsed store files).2.2,
        (perform invocation.command elapsed store files).2.1.connection.server) := by
  unfold execute
  rw [loaded]
  simp only [connected]

/-- A collection fails with the server as it was opened, or the file holds marks
only and the server is as a sweep leaves it. -/
theorem execute_collect_cases {invocation : Invocation} {marks : String} {delete : Bool}
    (command : invocation.command = .collect marks delete) {files : Files} {content : Bytes}
    (held : Disk.read marks files = .ok (.ok content)) (clock : Calendar.Instant)
    (elapsed : UInt64) (server : State) :
    (∃ failure, (execute invocation clock elapsed files server).1 = .error (.failure failure) ∧
      (execute invocation clock elapsed files server).2.2 = opened invocation clock files server) ∨
    ∃ settings marked, loadSettings invocation.settingsFile files = .ok settings ∧
      AreMarks content ∧
      (∀ fingerprint : Fingerprint,
        fingerprint ∈ marked ↔ Names content fingerprint.text) ∧
      (execute invocation clock elapsed files server).2.2 = (Collector.sweep marked delete
        (Store.linkTo settings clock (opened invocation clock files server))).2.server := by
  cases loaded : loadSettings invocation.settingsFile files with
  | error failure =>
    unfold execute opened
    rw [loaded]
    exact Or.inl ⟨failure, rfl, rfl⟩
  | ok settings =>
    cases connected : Store.connect invocation.repository settings clock server with
    | mk outcome after =>
      have here : opened invocation clock files server = after := by
        unfold opened
        rw [loaded]
        simp only [connected]
      rw [here]
      cases outcome with
      | error cause =>
        unfold execute
        rw [loaded]
        exact Or.inl ⟨.store cause, by simp only [connected], by simp only [connected]⟩
      | ok store =>
        obtain ⟨sameLink, idle⟩ := connect_ok connected
        rw [execute_of_connect loaded connected, command, perform_collect held]
        rcases collect_cases idle content delete elapsed with ⟨failure, failed, unused, bad⟩ |
          ⟨marked, good, isMarked, swept⟩
        · refine Or.inl ⟨failure, ?_, ?_⟩
          · rw [failed]
            rfl
          · rw [unused, sameLink]
            rfl
        · exact Or.inr ⟨settings, marked, rfl, good, isMarked, by rw [swept, sameLink]⟩

theorem run_eq_of_asked {arguments : List String} {invocation : Invocation}
    (asked : Demand.ofArguments arguments = .run invocation) (clock : Calendar.Instant)
    (elapsed : UInt64) (files : Files) (server : State) :
    run arguments clock elapsed files server =
      (Outcome.ofResult (execute invocation clock elapsed files server).1,
        (execute invocation clock elapsed files server).2) := by
  unfold run
  rw [asked]

private theorem run_of_asked {arguments : List String} {invocation : Invocation}
    (asked : Demand.ofArguments arguments = .run invocation) (clock : Calendar.Instant)
    (elapsed : UInt64) (files : Files) (server : State) :
    (run arguments clock elapsed files server).2.2 =
        (execute invocation clock elapsed files server).2.2 ∧
      ∀ failure, (execute invocation clock elapsed files server).1 = .error (.failure failure) →
        (run arguments clock elapsed files server).1.status = failureStatus := by
  rw [run_eq_of_asked asked]
  refine ⟨rfl, fun failure failed => ?_⟩
  rw [failed]
  rfl

/-- Deletions may send what is allowed if any of them may send anything. -/
theorem sent_deletions {allowed : Http.Request → Prop} {keys : List String}
    (lawful : ∀ key ∈ keys, ∀ request, allowed request) (link : Link (Noted State)) :
    Noted.Sent allowed link.server
      (keys.foldl (fun used key => (used.delete key).2) link).server := by
  induction keys generalizing link with
  | nil => exact Noted.Sent.refl _
  | cons key rest inductionHypothesis =>
    have first : Noted.Sent allowed link.server (link.delete key).2.server :=
      (Link.sent_ask .delete key none link).mono fun request _ =>
        lawful key List.mem_cons_self request
    exact first.trans (inductionHypothesis
      (fun later member => lawful later (List.mem_cons_of_mem _ member)) (link.delete key).2)

/-- The command to collect, with a file of any content and against any server.
If some line of the file is no mark, it fails with no more than what opening the
store has sent.  It sends requests to delete only if it is told to delete and all
lines are marks.  Its deletions come after one listing, and each is for the key of
a listed object of which the file names neither the key nor the entity tag. -/
theorem collection_heeds_marks {arguments : List String} {invocation : Invocation}
    {marks : String} {delete : Bool} {files : Files} {content : Bytes}
    (asked : Demand.ofArguments arguments = .run invocation)
    (command : invocation.command = .collect marks delete)
    (held : Disk.read marks files = .ok (.ok content)) (clock : Calendar.Instant)
    (elapsed : UInt64) (server : Noted State) :
    let before := opened invocation clock files server
    let ended := run arguments clock elapsed files server
    (¬ AreMarks content → ended.1.status = failureStatus ∧ ended.2.2 = before) ∧
    Noted.Sent (fun request => request.method = .delete →
      "--delete" ∈ arguments ∧ AreMarks content) server ended.2.2 ∧
    (ended.2.2 = before ∨ ∃ settings, loadSettings invocation.settingsFile files = .ok settings ∧
      let link := Store.linkTo settings clock before
      ∃ keys : List String,
        ended.2.2 = (keys.foldl (fun used key => (used.delete key).2) link.list.2).server ∧
        ∀ key ∈ keys, "--delete" ∈ arguments ∧ AreMarks content ∧ ¬ Names content key ∧
          ∃ objects, link.list.1 = .ok objects ∧
            ∃ object ∈ objects, object.key = key ∧ ¬ Names content object.etag) := by
  intro before ended
  let Allowed (request : Http.Request) : Prop :=
    request.method = .delete → "--delete" ∈ arguments ∧ AreMarks content
  have opening : Noted.Sent Allowed server before :=
    (sent_opened invocation clock files server).mono fun request other deletes =>
      absurd deletes other
  obtain ⟨sameServer, status⟩ := run_of_asked asked clock elapsed files server
  rcases execute_collect_cases command held clock elapsed server with ⟨failure, failed, unused⟩ |
    ⟨settings, marked, loaded, good, isMarked, swept⟩
  · have same : ended.2.2 = before := sameServer.trans unused
    exact ⟨fun _ => ⟨status failure failed, same⟩, same ▸ opening, Or.inl same⟩
  · let link := Store.linkTo settings clock before
    obtain ⟨keys, deleted, lawful⟩ := Collector.exists_deletions marked delete link
    -- a sweep deletes only if it is told to, and it is told to only by the word
    have given (key : String) (member : key ∈ keys) : "--delete" ∈ arguments :=
      delete_mem_of_ofArguments asked (command.trans (by rw [(lawful key member).1]))
    have after : ended.2.2 =
        (keys.foldl (fun used key => (used.delete key).2) link.list.2).server :=
      (sameServer.trans swept).trans (congrArg Link.server deleted)
    refine ⟨fun bad => absurd good bad, ?_, Or.inr ⟨settings, loaded, keys, after, ?_⟩⟩
    · rw [after]
      have listing : Noted.Sent Allowed before link.list.2.server :=
        (Link.sent_list link).mono fun request other deletes => absurd deletes other
      exact (opening.trans listing).trans
        (sent_deletions (fun key member _ _ => ⟨given key member, good⟩) link.list.2)
    · intro key member
      obtain ⟨_, objects, listed, object, among, sameKey, dead⟩ := lawful key member
      obtain ⟨keyNotNamed, tagNotNamed⟩ := not_names_of_dead good isMarked dead
      exact ⟨given key member, good, sameKey ▸ keyNotNamed, objects, listed, object, among,
        sameKey, tagNotNamed⟩

/-! ## Prepared files and answers -/

/-- A file in a directory is read by its name. -/
theorem Directory.read_of_lookup {directory : Directory} {name : String} {content : Bytes}
    (inside : Directory.isOutside name = false) (single : Directory.parts name = [name.toList])
    (moves : Directory.stays name.toList = false)
    (found : directory.files.lookup name = some content) :
    Disk.read name directory = .ok (.ok content) := by
  show directory.read name = _
  unfold Directory.read Directory.find
  rw [inside, single]
  simp only [Directory.walk, moves, String.ofList_toList, found, Bool.false_eq_true, if_false]
  rfl

/-- A store is opened by one request if the server says that the bucket exists. -/
theorem exists_connect_of_script {repository : String} {settings : Settings}
    {clock : Calendar.Instant} {server : Http.Script} {budget : Nat}
    {rest : List (Option Http.Response)}
    (usable : (Client.ofSettings settings).Usable) (valid : settings.validate = .ok ())
    (bounded : settings.cacheBytes = .ok budget)
    (reached : ∀ request, server.isReached request = true)
    (prepared : server.responses = some ⟨200, [], []⟩ :: rest) :
    ∃ request store, request.method = .get ∧ request.target = "/" ∧
      Store.connect repository settings clock server =
        (.ok store, ⟨rest, server.requests ++ [request], server.isReached⟩) := by
  let link := Store.linkTo settings clock server
  have arrives : (⟨200, [], []⟩ : Http.Response).Arrives .get 200 [] :=
    Host.arrives_of_body rfl rfl []
  obtain ⟨request, headers, isGet, target, answered⟩ :=
    Link.exists_ask_of_script (show link.client.Usable from usable) (Or.inl rfl) .get none
      reached prepared arrives (by decide)
  let after : Link Http.Script :=
    { link with server := ⟨rest, server.requests ++ [request], server.isReached⟩ }
  have created : link.createBucket = (.ok false, after) := by
    unfold Link.createBucket Link.bucketExists
    rw [answered]
    rfl
  refine ⟨request, Store.overRemote repository budget after, isGet, target, ?_⟩
  unfold Store.connect
  rw [valid, bounded]
  show (link.createBucket.1.map fun _ => Store.overRemote repository budget link.createBucket.2,
    link.createBucket.2.server) = _
  rw [created]
  rfl

/-- A sweep without marks lists an object that is named by a fingerprint, and
deletes it. -/
theorem exists_sweep_of_script {link : Link Http.Script} {object : ListedObject}
    {document : String} (usable : link.client.Usable)
    (reached : ∀ request, link.server.isReached request = true)
    (prepared : link.server.responses =
      [some ⟨200, [], Text.Utf8.encode document⟩, some ⟨204, [], []⟩])
    (listed : (Listing.ofDocument document).map Listing.contents = .ok [object])
    (named : Fingerprint.WellFormed object.key) (small : object.size = 0) :
    ∃ listing deletion, listing.method = .get ∧ listing.target = "/" ∧
      deletion.method = .delete ∧ deletion.target = "/" ++ object.key ∧
      (Collector.sweep [] true link).2.server.requests =
        link.server.requests ++ [listing, deletion] := by
  have body : (⟨200, [], Text.Utf8.encode document⟩ : Http.Response).Arrives .get 200
      (Text.Utf8.encode document) :=
    Host.arrives_of_body rfl rfl _
  have noBody : (⟨204, [], []⟩ : Http.Response).Arrives .delete 204 [] :=
    Host.arrives_of_bodiless rfl rfl (List.forall_mem_nil _)
  obtain ⟨listing, headers, isGet, root, answered⟩ :=
    Link.exists_ask_of_script usable (Or.inl rfl) .get none reached prepared body (by decide)
  let told : Link Http.Script :=
    { link with
      server := ⟨[some ⟨204, [], []⟩], link.server.requests ++ [listing], link.server.isReached⟩ }
  obtain ⟨deletion, others, isDelete, target, removed⟩ :=
    Link.exists_ask_of_script (show told.client.Usable from usable)
      (Or.inr ⟨⟨object.key, named⟩, rfl⟩) .delete none reached rfl noBody (by decide)
  have lists : Remote.list link = (.ok [object], told) := by
    show link.list = _
    unfold Link.list
    rw [answered]
    refine congrArg₂ Prod.mk ?_ rfl
    show (Listing.ofDocument (Text.Utf8.textLossy (Text.Utf8.encode document))).map
      Listing.contents = _
    rw [Text.Utf8.textLossy_encode, listed]
  have deletes : (Remote.delete object.key told).2.server.requests =
      link.server.requests ++ [listing, deletion] ∧
        (Remote.delete object.key told).1 = .ok .deleted := by
    show (Link.delete object.key told).2.server.requests = _ ∧ (Link.delete object.key told).1 = _
    unfold Link.delete
    rw [removed]
    exact ⟨List.append_assoc _ _ _, rfl⟩
  have dead : Collector.isLive [] object = false := by
    rw [Bool.eq_false_iff]
    intro live
    obtain ⟨fingerprint, member, _⟩ := (Collector.isLive_iff [] object).mp live
    exact absurd member List.not_mem_nil
  refine ⟨listing, deletion, isGet, root, isDelete, target, ?_⟩
  have counted : Tally.zero.addCollected? object.size = some ⟨0, 0, 1, 0, 0⟩ := by
    rw [small]
    rfl
  unfold Collector.sweep
  simp only [lists, Collector.sweepObjects, dead, counted, Bool.false_eq_true, if_false, if_true]
  split
  · rename_i deleted
    rw [deleted] at deletes
    exact deletes.1
  · rename_i failed
    rw [failed] at deletes
    exact deletes.1

/-! ## Files with bad lines and with blank ones -/

/-- A call to collect and to delete what is not live. -/
def deleting : List String :=
  ["gc", "--marks", "m", "--delete"]

/-- The settings of `Client.localClient`. -/
def localSettings : Settings :=
  ⟨"bucket", "id", "secret", "1K", "localhost", some "http://localhost:9000",
    Settings.defaultTimeoutSeconds⟩

def settingsText : String :=
  "bucket = \"bucket\"\naccess_key_id = \"id\"\nsecret_access_key = \"secret\"\n" ++
    "cache_size = \"1K\"\nhost_base = \"localhost\"\nendpoint = \"http://localhost:9000\"\n"

/-- A directory with these settings and a file of marks. -/
def holding (marks : Bytes) : Directory :=
  ⟨[(defaultSettingsFile, Text.Utf8.encode settingsText), ("m", marks)]⟩

private theorem asked_deleting : Demand.ofArguments deleting =
    .run ⟨defaultSettingsFile, defaultRepository, .collect "m" true⟩ := by
  decide +kernel

private theorem read_holding (marks : Bytes) : Disk.read "m" (holding marks) = .ok (.ok marks) :=
  Directory.read_of_lookup (by decide +kernel) (by decide +kernel) (by decide +kernel) rfl

/-- A fingerprint above a line that is no mark. -/
def badMarks : Bytes :=
  Text.Utf8.encode "d41d8cd98f00b204e9800998ecf8427e\n two\n"

private theorem not_areMarks_badMarks : ¬ AreMarks badMarks := by
  intro good
  have member : Text.Utf8.encode " two" ∈ badMarks.splitOn 0x0a := by decide
  obtain ⟨text, trims, said⟩ := good _ member
  have spoken : TrimsTo (Text.Utf8.encode " two") "two" := ⟨" two", rfl, by decide⟩
  rw [trims.unique spoken] at said
  exact absurd said (by decide)

/-- A server that answers twice, with nothing. -/
def silent : Noted Http.Script :=
  ⟨.ofResponses [some ⟨200, [], []⟩, some ⟨200, [], []⟩], []⟩

/-- A line that is no mark ends the command before the sweep. -/
theorem bad_line_ends_collection :
    (run deleting ⟨0, 0⟩ 0 (holding badMarks) silent).1.status = failureStatus ∧
      ∀ request ∈ (run deleting ⟨0, 0⟩ 0 (holding badMarks) silent).2.2.requests,
        request.method ≠ .delete := by
  obtain ⟨failing, ⟨sent, grown, lawful⟩, _⟩ :=
    collection_heeds_marks asked_deleting rfl (read_holding badMarks) ⟨0, 0⟩ 0 silent
  refine ⟨(failing not_areMarks_badMarks).1, fun request member deletes => ?_⟩
  rw [grown] at member
  exact not_areMarks_badMarks (lawful request member deletes).2

/-- One blank line. -/
def blankMarks : Bytes := [0x0a]

private theorem eq_nil_of_mem_blankMarks {line : Bytes} (member : line ∈ blankMarks.splitOn 0x0a) :
    line = [] := by
  have both : line ∈ [[], []] := member
  simpa using both

private theorem areMarks_blankMarks : AreMarks blankMarks := fun _ member =>
  eq_nil_of_mem_blankMarks member ▸ ⟨"", Text.trimsTo_nil, Or.inl rfl⟩

private theorem not_names_blankMarks (text : String) : ¬ Names blankMarks text := by
  rintro ⟨visible, line, member, trims⟩
  rw [eq_nil_of_mem_blankMarks member] at trims
  exact visible (trims.unique Text.trimsTo_nil)

/-- An object that is listed without an entity tag. -/
def untagged : ListedObject :=
  .named "d41d8cd98f00b204e9800998ecf8427e" "" 0

def untaggedListing : String :=
  "<ListBucketResult><Contents><Key>d41d8cd98f00b204e9800998ecf8427e</Key></Contents>" ++
    "</ListBucketResult>"

private theorem listed_untagged :
    (Listing.ofDocument untaggedListing).map Listing.contents = .ok [untagged] := by
  decide +kernel

theorem loadSettings_holding (marks : Bytes) :
    loadSettings defaultSettingsFile (holding marks) = .ok localSettings := by
  have held : Disk.read defaultSettingsFile (holding marks) =
      .ok (.ok (Text.Utf8.encode settingsText)) :=
    Directory.read_of_lookup (by decide +kernel) (by decide +kernel) (by decide +kernel) rfl
  have text : Text.Utf8.text? (Text.Utf8.encode settingsText) = some settingsText :=
    Text.Utf8.text?_eq_some_iff.mpr rfl
  have settings : Settings.ofToml settingsText = .ok localSettings := by decide +kernel
  unfold loadSettings
  rw [held]
  simp only [Settings.ofFileContent, text, settings]
  rfl

theorem usable_localSettings : (Client.ofSettings localSettings).Usable := by
  have isLocal : Client.ofSettings localSettings = Client.localClient := by decide +kernel
  rw [isLocal]
  exact Link.usable_localClient

/-- A server on which the bucket exists and holds that object. -/
def telling : Http.Script :=
  .ofResponses
    [some ⟨200, [], []⟩, some ⟨200, [], Text.Utf8.encode untaggedListing⟩, some ⟨204, [], []⟩]

/-- An object without an entity tag is deleted although a line is blank, and so
is that tag. -/
theorem untagged_object_is_deleted :
    [] ∈ Text.lines blankMarks ∧ TrimsTo [] untagged.etag ∧
    (Listing.ofDocument untaggedListing).map Listing.contents = .ok [untagged] ∧
    (run deleting ⟨0, 0⟩ 0 (holding blankMarks) telling).2.2.requests.map
        (fun request => (request.method, request.target)) =
      [(.get, "/"), (.get, "/"), (.delete, "/" ++ untagged.key)] := by
  have valid : localSettings.validate = .ok () := by decide +kernel
  have bounded : localSettings.cacheBytes = .ok 1024 := by decide +kernel
  obtain ⟨first, store, isGet, root, connected⟩ :=
    exists_connect_of_script usable_localSettings valid bounded (fun _ => rfl)
      (rfl : telling.responses = some ⟨200, [], []⟩ :: telling.responses.drop 1)
  obtain ⟨sameLink, idle⟩ := connect_ok connected
  have usable : store.connection.client.Usable := by
    rw [sameLink]
    exact usable_localSettings
  have prepared : store.connection.server.responses = telling.responses.drop 1 := by
    rw [sameLink]
    rfl
  have reached (request : Http.Request) :
      store.connection.server.isReached request = true := by
    rw [sameLink]
    rfl
  obtain ⟨listing, deletion, isGetToo, rootToo, isDelete, target, swept⟩ :=
    exists_sweep_of_script usable reached prepared listed_untagged (by decide) rfl
  refine ⟨by decide, Text.trimsTo_nil, listed_untagged, ?_⟩
  rw [(run_of_asked asked_deleting _ _ _ _).1,
    execute_of_connect (loadSettings_holding blankMarks) connected,
    perform_collect (read_holding blankMarks)]
  rcases collect_cases idle blankMarks true 0 with ⟨_, _, _, bad⟩ | ⟨marked, _, isMarked, left⟩
  · exact absurd areMarks_blankMarks bad
  · -- blank lines are marks that name nothing, so that nothing is spared
    have unmarked : marked = [] := List.eq_nil_iff_forall_not_mem.mpr fun fingerprint member =>
      not_names_blankMarks _ ((isMarked fingerprint).mp member)
    show (collect (.ok blankMarks) true 0 store).2.connection.server.requests.map _ = _
    rw [left, unmarked, swept, sameLink]
    show [first, listing, deletion].map (fun request => (request.method, request.target)) = _
    simp only [List.map_cons, List.map_nil, isGet, root, isGetToo, rootToo, isDelete, target]

end ContentStore.CommandLine
