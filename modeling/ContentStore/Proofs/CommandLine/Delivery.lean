import ContentStore.Proofs.Client.Failures
import ContentStore.Proofs.CommandLine.Collection
import ContentStore.Proofs.Store.Refusal
import ContentStore.Proofs.Store.Transparency

/-!
Contract: what a download by command line writes.

Owns:
- `Disk.Lawful`, by which a file that was created reads as what it was created
  with, and that a directory of files is such a disk;
- `Delivered`, how the content of a binary is handed over;
- `Withheld` and `Hindrance`, all reasons for which it is not, each with the failure
  that is reported;
- that a command to get a binary either hands over octets that hash to the
  fingerprint it was given, or leaves all files as they were and prints nothing.

Does not own: files to which not all can be written.
-/

namespace ContentStore.CommandLine

/-! ## Files that keep what is written -/

/-- A file that was created reads as what it was created with. -/
class Disk.Lawful (Files : Type) [Disk Files] : Prop where
  read_create {path : String} {content : Bytes} {files after : Files} :
    Disk.create path content files = .ok after → Disk.read path after = .ok (.ok content)

namespace Directory

/-- Only parts that stay where they are lead to the top. -/
theorem stays_of_walk {directory : Directory} {steps : List (List Char)}
    (led : directory.walk .top steps = .ok .top) : ∀ step ∈ steps, stays step = true := by
  induction steps with
  | nil => exact List.forall_mem_nil _
  | cons step rest inductionHypothesis =>
    unfold walk at led
    by_cases still : stays step = true
    · rw [if_pos still] at led
      exact List.forall_mem_cons.mpr ⟨still, inductionHypothesis led⟩
    · rw [if_neg still] at led
      split at led
      · -- a file is not the top, and nothing leads out of it
        cases rest <;> exact absurd led (by simp [walk])
      · exact absurd led (by simp)

private theorem walk_append_of_stays (directory : Directory) {steps : List (List Char)}
    (still : ∀ step ∈ steps, stays step = true) (rest : List (List Char)) :
    directory.walk .top (steps ++ rest) = directory.walk .top rest := by
  induction steps with
  | nil => rfl
  | cons step others inductionHypothesis =>
    obtain ⟨first, later⟩ := List.forall_mem_cons.mp still
    rw [List.cons_append, walk, if_pos first]
    exact inductionHypothesis later

/-- A file is created only under the last part of its path, and only if all parts
before it stay where they are. -/
theorem exists_of_create {path : String} {content : Bytes} {directory after : Directory}
    (created : directory.create path content = .ok after) :
    isOutside path = false ∧ ∃ front last, parts path = front ++ [last] ∧
      (∀ step ∈ front, stays step = true) ∧ stays last = false ∧
      after = directory.set (String.ofList last) content := by
  unfold create at created
  simp only at created
  split at created
  · exact absurd created (by simp)
  · rename_i inside
    split at created
    · exact absurd created (by simp)
    · rename_i last isLast
      split at created
      · exact absurd created (by simp)
      · exact absurd created (by simp)
      · rename_i led
        split at created
        · exact absurd created (by simp)
        · rename_i plain
          obtain ⟨moves, short⟩ := not_or.mp plain
          have whole : (parts path).reverse.dropWhile List.isEmpty = (parts path).reverse := by
            apply (List.dropWhile_suffix _).eq_of_length_le
            simpa using short
          rw [whole, List.reverse_reverse] at isLast led
          refine ⟨by simpa using inside, (parts path).dropLast, last, ?_, stays_of_walk led,
            by simpa using moves, (Except.ok.inj created).symm⟩
          exact (List.dropLast_append_getLast? last isLast).symm

instance : Disk.Lawful Directory where
  read_create := by
    intro path content directory after created
    obtain ⟨inside, front, last, same, still, moves, rfl⟩ := exists_of_create created
    show Directory.read path _ = _
    unfold Directory.read find
    rw [inside, same, walk_append_of_stays _ still]
    simp only [walk, moves, set, List.lookup_cons_self, Bool.false_eq_true, if_false]
    rfl

end Directory

/-! ## Fetching with a new store -/

section Fetch

variable {State : Type} [Http.Server State] {text : String}
  {link : Link State} {fingerprint : Fingerprint} {content : Bytes}

/-- Why a binary is not fetched, and how that is reported. -/
inductive Withheld (link : Link State) (text : String) : Failure → Prop where
  /-- The text is no fingerprint, even without the blanks around it. -/
  | malformed (bad : ¬ Fingerprint.WellFormed (Text.trimmed text)) :
      Withheld link text (.during ("bad fingerprint '" ++ text ++ "'")
        (.store (.invalidFingerprint (Text.trimmed text))))
  | absent (told : (link.get (Text.trimmed text)).1.1 = .error (.notFound (Text.trimmed text))) :
      Withheld link text (.store (.notFound (Text.trimmed text)))
  /-- The remote fails, or cannot be reached. -/
  | remote {cause : StoreError} (fails : cause.isRemote = true)
      (told : (link.get (Text.trimmed text)).1.1 = .error cause) :
      Withheld link text (.store cause)
  /-- The remote sends something else. -/
  | mistaken {length : Nat} {content : Bytes} {fingerprint : Fingerprint}
      (named : fingerprint.text = Text.trimmed text)
      (sent : (link.get (Text.trimmed text)).1 = (.ok length, content))
      (different : Fingerprint.ofContent content ≠ fingerprint) :
      Withheld link text (.store (.digestMismatch fingerprint (Fingerprint.ofContent content)))

omit [Http.Server State] in
private theorem readFingerprint_of_malformed (bad : ¬ Fingerprint.WellFormed (Text.trimmed text)) :
    readFingerprint text = .error (.during ("bad fingerprint '" ++ text ++ "'")
      (.store (.invalidFingerprint (Text.trimmed text)))) := by
  unfold readFingerprint
  rw [Fingerprint.parse_of_malformed bad]
  rfl

private theorem fetch_of_error {store : Store (Link State)} {cause : StoreError}
    (named : fingerprint.text = Text.trimmed text)
    (failed : (store.get fingerprint).1 = .error cause) :
    (fetch text store).1 = .error (.store cause) := by
  rcases got : store.get fingerprint with ⟨outcome, after⟩
  rw [got] at failed
  obtain rfl : outcome = .error cause := failed
  unfold fetch
  rw [readFingerprint_eq_ok_iff.mpr named]
  simp only [got]

private theorem fetch_of_binary {store after : Store (Link State)} {binary : Binary}
    (named : fingerprint.text = Text.trimmed text)
    (got : store.get fingerprint = (.ok binary, after)) (read : after.read binary = .ok content) :
    (fetch text store).1 = .ok content := by
  unfold fetch
  rw [readFingerprint_eq_ok_iff.mpr named]
  simp only [got, read]
  rfl

/-- What a new store fetches is what the remote sends, if it hashes to the
fingerprint that was asked for. -/
theorem fetch_of_sent (repository : String) (budget : Nat) {length : Nat}
    (named : fingerprint.text = Text.trimmed text)
    (sent : (link.get fingerprint.text).1 = (.ok length, content)) :
    (fetch text (Store.overRemote repository budget link)).1 =
      if Fingerprint.ofContent content = fingerprint then .ok content
      else .error (.store (.digestMismatch fingerprint (Fingerprint.ofContent content))) := by
  let store := Store.overRemote repository budget link
  have got := Store.get_of_absent (rfl : store.cache.find? fingerprint = none)
    (Prod.ext sent rfl : Remote.get fingerprint.text store.connection =
      ((.ok length, content), (link.get fingerprint.text).2))
  by_cases hashed : Fingerprint.ofContent content = fingerprint
  · -- the new cache is a cache of copies for whatever map there is
    let only : Contents := fun other => if other = fingerprint then some content else none
    have held : only (Fingerprint.ofContent content) = some content := if_pos hashed
    obtain ⟨entry, cache, accepted, mirrors, member, entered⟩ :=
      Store.accept_of_mirrors (Cache.mirrors_empty budget false only) held
    obtain ⟨copied, read, _, same⟩ := mirrors.read member
    rw [entered, held] at same
    obtain rfl := Option.some.inj same
    rw [hashed] at accepted
    rw [show Store.accept fingerprint content store.cache = (.ok entry, cache) from accepted] at got
    rw [if_pos hashed]
    exact fetch_of_binary named got read
  · rw [if_neg hashed]
    apply fetch_of_error named
    rw [got, Store.accept_of_ne hashed]
    rfl

/-- What is fetched hashes to the text that was given, or there is a reason why
nothing is. -/
theorem fetch_cases (secret : link.client.credentials.secret ≠ "") (repository text : String)
    (budget : Nat) :
    (∃ content, (fetch text (Store.overRemote repository budget link)).1 = .ok content ∧
      (Fingerprint.ofContent content).text = Text.trimmed text) ∨
    ∃ failure, (fetch text (Store.overRemote repository budget link)).1 = .error failure ∧
      Withheld link text failure := by
  by_cases wellFormed : Fingerprint.WellFormed (Text.trimmed text)
  · obtain ⟨fingerprint, named⟩ : ∃ fingerprint : Fingerprint,
        fingerprint.text = Text.trimmed text := ⟨⟨_, wellFormed⟩, rfl⟩
    rcases answer : (link.get fingerprint.text).1 with ⟨cause | length, content⟩
    · have told : (link.get (Text.trimmed text)).1.1 = .error cause := by
        rw [← named, answer]
      refine Or.inr ⟨.store cause, ?_, ?_⟩
      · exact fetch_of_error named
          (Store.get_of_refused rfl (congrArg Prod.fst answer))
      · rcases Link.get_error_cases secret told with rfl | fails
        · exact .absent told
        · exact .remote fails told
    · have fetched := fetch_of_sent repository budget named answer
      by_cases hashed : Fingerprint.ofContent content = fingerprint
      · rw [if_pos hashed] at fetched
        exact Or.inl ⟨content, fetched, hashed ▸ named⟩
      · rw [if_neg hashed] at fetched
        exact Or.inr ⟨_, fetched, .mistaken named (named ▸ answer) hashed⟩
  · refine Or.inr ⟨_, ?_, .malformed wellFormed⟩
    unfold fetch
    rw [readFingerprint_of_malformed wellFormed]

end Fetch

/-! ## The arguments of a download -/

/-- An argument that does not begin with a dash is no switch. -/
theorem readArgument_of_plain (grammar : Grammar) {argument : String} (scan : Scan)
    (plain : argument.toList.head? ≠ some '-') :
    grammar.readArgument argument scan = scan.readPlain argument := by
  unfold Grammar.readArgument
  split
  · rfl
  · split
    · rename_i spelled
      exact absurd (by rw [spelled]; rfl) plain
    · rename_i spelled
      exact absurd (by rw [spelled]; rfl) plain
    · rename_i spelled
      exact absurd (by rw [spelled]; rfl) plain
    · rfl

/-- What the command to get a binary takes. -/
def getGrammar : Grammar :=
  ⟨"get", "Download a binary", [fingerprintOperand], [outputSwitch], []⟩

/-- Neither a fingerprint nor a file that begins with a dash can be named. -/
theorem asked_get {text path : String} (plainText : text.toList.head? ≠ some '-')
    (plainPath : path.toList.head? ≠ some '-') (named : path ≠ "") :
    Demand.ofArguments ["get", text, "-o", path] =
      .run ⟨defaultSettingsFile, defaultRepository, .get text (some path)⟩ := by
  let given : Scan := ⟨[], some ⟨fingerprintOperand.name, fingerprintOperand, some text⟩, [], false⟩
  let waiting : Scan := ⟨[(fingerprintOperand.name, text)],
    some ⟨outputSwitch.word, ⟨"OUTPUT", true⟩, none⟩, [], false⟩
  let complete : Scan := ⟨[(fingerprintOperand.name, text)],
    some ⟨outputSwitch.word, ⟨"OUTPUT", true⟩, some path⟩, [], false⟩
  have first : getGrammar.readArgument text getGrammar.start = .ok given :=
    readArgument_of_plain getGrammar _ plainText
  have second : getGrammar.readArgument "-o" given = .ok waiting := rfl
  have third : getGrammar.readArgument path waiting = .ok complete :=
    readArgument_of_plain getGrammar _ plainPath
  have scanned : getGrammar.scanFrom [text, "-o", path] getGrammar.start =
      .ok (complete, none) := by
    show (getGrammar.readArgument text getGrammar.start >>=
      getGrammar.scanFrom ["-o", path]) = _
    rw [first]
    show (getGrammar.readArgument "-o" given >>= getGrammar.scanFrom [path]) = _
    rw [second]
    show (getGrammar.readArgument path waiting >>= getGrammar.scanFrom []) = _
    rw [third]
    rfl
  have settled : complete.settle =
      .ok ⟨[(outputSwitch.word, path), (fingerprintOperand.name, text)], none, [], false⟩ := by
    show (if _ ∧ path = "" then _ else _) = _
    rw [if_neg fun empty => named empty.2]
    rfl
  have bound : getGrammar.bindings [text, "-o", path] =
      .ok [(outputSwitch.word, path), (fingerprintOperand.name, text)] := by
    show (getGrammar.scanFrom [text, "-o", path] getGrammar.start >>= fun scan =>
      getGrammar.finish scan.1) = _
    rw [scanned]
    show (complete.settle >>= _) = _
    rw [settled]
    rfl
  show Demand.ofCommand programGrammar.start "get" [text, "-o", path] = _
  have found : grammarOf? "get" = some getGrammar := rfl
  unfold Demand.ofCommand
  rw [found]
  simp only [bound]
  rfl

/-! ## Handing over -/

section Deliver

variable {State : Type} [Http.Server State] {Files : Type} [Disk Files]

/-- How a content is handed over: what is printed, and the files afterwards. -/
inductive Delivered (content : Bytes) (before : Files) : Option String → Bytes → Files → Prop where
  | printed : Delivered content before none content before
  | written {path : String} {after : Files}
      (created : Disk.create path content before = .ok after)
      (kept : Disk.read path after = .ok (.ok content)) :
      Delivered content before (some path) [] after

private theorem Delivered.read {content printed : Bytes} {before after : Files} {path : String}
    (delivered : Delivered content before (some path) printed after) :
    Disk.read path after = .ok (.ok content) := by
  cases delivered with
  | written _ kept => exact kept

/-- Why the binary with a fingerprint is not handed over, and how that is
reported. -/
inductive Hindrance (invocation : Invocation) (text : String) (output : Option String)
    (clock : Calendar.Instant) (files : Files) (server : State) : Failure → Prop where
  /-- The settings cannot be read, or they are not valid. -/
  | settings {failure : Failure}
      (unloaded : loadSettings invocation.settingsFile files = .error failure) :
      Hindrance invocation text output clock files server failure
  /-- No complete answer comes when the store is opened. -/
  | unanswered {settings : Settings}
      (loaded : loadSettings invocation.settingsFile files = .ok settings)
      (unopened : (Store.connect invocation.repository settings clock server).1 =
        .error .transport) :
      Hindrance invocation text output clock files server (.store .transport)
  | withheld {settings : Settings} {failure : Failure}
      (loaded : loadSettings invocation.settingsFile files = .ok settings)
      (reason : Withheld
        (Store.linkTo settings clock (opened invocation clock files server)) text failure) :
      Hindrance invocation text output clock files server failure
  /-- The file that is named cannot be created. -/
  | uncreated {path : String} {content : Bytes} {kind : IoKind} (named : output = some path)
      (hashed : (Fingerprint.ofContent content).text = Text.trimmed text)
      (refused : Disk.create path content files = .error kind) :
      Hindrance invocation text output clock files server
        (.during ("creating " ++ path) (.system kind))

private theorem deliver_cases [Disk.Lawful Files] (output : Option String) (content : Bytes)
    (files : Files) :
    (∃ printed, (deliver output content files).1 = .ok printed ∧
      Delivered content files output printed (deliver output content files).2) ∨
    ∃ path kind, output = some path ∧ Disk.create path content files = .error kind ∧
      deliver output content files =
        (.error (.during ("creating " ++ path) (.system kind)), files) := by
  cases output with
  | none => exact Or.inl ⟨content, rfl, .printed⟩
  | some path =>
    cases created : Disk.create path content files with
    | ok after =>
      have given : deliver (some path) content files = (.ok [], after) := by
        simp only [deliver, created]
      rw [given]
      exact Or.inl ⟨[], rfl, .written created (Disk.Lawful.read_create created)⟩
    | error kind => exact Or.inr ⟨path, kind, rfl, created, by simp only [deliver, created]⟩

private theorem perform_get_of_error {text : String} {store : Store (Link State)}
    {failure : Failure}
    (output : Option String) (elapsed : UInt64) (files : Files)
    (failed : (fetch text store).1 = .error failure) :
    (perform (.get text output) elapsed store files).1 = .error (.failure failure) ∧
      (perform (.get text output) elapsed store files).2.2 = files := by
  rcases fetched : fetch text store with ⟨outcome, after⟩
  rw [fetched] at failed
  obtain rfl : outcome = .error failure := failed
  unfold perform
  simp only [fetched, and_self]

private theorem perform_get_of_ok {text : String} {store : Store (Link State)} {content : Bytes}
    (output : Option String) (elapsed : UInt64) (files : Files)
    (done : (fetch text store).1 = .ok content) :
    (perform (.get text output) elapsed store files).1 =
        (deliver output content files).1.mapError .failure ∧
      (perform (.get text output) elapsed store files).2.2 =
        (deliver output content files).2 := by
  rcases fetched : fetch text store with ⟨outcome, after⟩
  rw [fetched] at done
  obtain rfl : outcome = .ok content := done
  unfold perform
  simp only [fetched, and_self]

/-- Settings that were loaded are valid. -/
theorem valid_of_loadSettings {path : String} {files : Files} {settings : Settings}
    (loaded : loadSettings path files = .ok settings) : settings.Valid := by
  unfold loadSettings at loaded
  simp only at loaded
  split at loaded
  · rename_i content _
    cases read : Settings.ofFileContent content with
    | ok given =>
      rw [read] at loaded
      rw [← Except.ok.inj loaded]
      exact Settings.valid_of_ofFileContent read
    | error cause =>
      rw [read] at loaded
      exact absurd loaded (by simp [Except.mapError])
  · exact absurd loaded (by simp [Except.mapError])

/-- The command to get a binary hands over what hashes to the fingerprint, or
fails for a reason and leaves the files alone. -/
theorem execute_get_cases [Disk.Lawful Files] {invocation : Invocation} {text : String}
    {output : Option String} (command : invocation.command = .get text output)
    (clock : Calendar.Instant) (elapsed : UInt64) (files : Files) (server : State) :
    (∃ content printed, (execute invocation clock elapsed files server).1 = .ok printed ∧
      (Fingerprint.ofContent content).text = Text.trimmed text ∧
      Delivered content files output printed (execute invocation clock elapsed files server).2.1) ∨
    ∃ failure, (execute invocation clock elapsed files server).1 = .error (.failure failure) ∧
      (execute invocation clock elapsed files server).2.1 = files ∧
      Hindrance invocation text output clock files server failure := by
  cases loaded : loadSettings invocation.settingsFile files with
  | error failure =>
    unfold execute
    rw [loaded]
    exact Or.inr ⟨failure, rfl, rfl, .settings loaded⟩
  | ok settings =>
    have valid := valid_of_loadSettings loaded
    rcases connected : Store.connect invocation.repository settings clock server with
      ⟨cause | store, after⟩
    · obtain rfl := Store.eq_transport_of_connect valid (congrArg Prod.fst connected)
      refine Or.inr
        ⟨.store .transport, ?_, ?_, .unanswered loaded (congrArg Prod.fst connected)⟩ <;>
      · unfold execute
        rw [loaded]
        simp only [connected]
    · obtain ⟨budget, rfl⟩ := exists_of_connect_ok connected
      have here : opened invocation clock files server = after := by
        unfold opened
        rw [loaded]
        simp only [connected]
      have secret : (Store.linkTo settings clock after).client.credentials.secret ≠ "" := by
        rw [show (Store.linkTo settings clock after).client = Client.ofSettings settings from rfl,
          Client.credentials_ofSettings]
        exact valid.secret_ne_empty
      rw [execute_of_connect loaded connected, command]
      rcases fetch_cases secret invocation.repository text budget with
        ⟨content, fetched, hashed⟩ | ⟨failure, refused, reason⟩
      · obtain ⟨told, written⟩ := perform_get_of_ok output elapsed files fetched
        rw [told, written]
        rcases deliver_cases output content files with ⟨printed, given, delivered⟩ |
          ⟨path, kind, named, uncreated, refused⟩
        · exact Or.inl ⟨content, printed, by rw [given]; rfl, hashed, delivered⟩
        · rw [refused]
          exact Or.inr ⟨_, rfl, rfl, .uncreated named hashed uncreated⟩
      · obtain ⟨told, unchanged⟩ := perform_get_of_error output elapsed files refused
        rw [told, unchanged]
        rw [← here] at reason
        exact Or.inr ⟨failure, rfl, rfl, .withheld loaded reason⟩

/-- The command to get a binary, against any server, and whatever files there
are.  It succeeds, and what it hands over hashes to the text it was given, without
the blanks around that: a named file holds exactly this afterwards, or else it is
what is printed.  Or it fails for one of a few reasons; then nothing is printed, and
all files are as they were, the named one among them, whether it was there or
not. -/
theorem get_delivers_verified_content [Disk.Lawful Files] {arguments : List String}
    {invocation : Invocation} {text : String} {output : Option String}
    (asked : Demand.ofArguments arguments = .run invocation)
    (command : invocation.command = .get text output) (clock : Calendar.Instant)
    (elapsed : UInt64) (files : Files) (server : State) :
    let ended := run arguments clock elapsed files server
    (∃ content, ended.1.status = successStatus ∧ ended.1.failure = none ∧
      (Fingerprint.ofContent content).text = Text.trimmed text ∧
      Delivered content files output ended.1.output ended.2.1) ∨
    ∃ failure, ended.1 = ⟨failureStatus, [], some failure⟩ ∧ ended.2.1 = files ∧
      Hindrance invocation text output clock files server failure := by
  intro ended
  have ran : ended = _ := run_eq_of_asked asked clock elapsed files server
  rw [ran]
  rcases execute_get_cases command clock elapsed files server with
    ⟨content, printed, given, hashed, delivered⟩ | ⟨failure, refused, unchanged, reason⟩
  · rw [given]
    exact Or.inl ⟨content, rfl, rfl, hashed, delivered⟩
  · rw [refused]
    exact Or.inr ⟨failure, rfl, unchanged, reason⟩

end Deliver

/-! ## A download that is something else -/

/-- The name of the empty content, with blanks around it. -/
def paddedName : String :=
  " d41d8cd98f00b204e9800998ecf8427e\n"

/-- A call to download the empty content into a file. -/
def getting : List String :=
  ["get", paddedName, "-o", "m"]

/-- A server on which the bucket exists, and that sends some octets. -/
def sending (body : Bytes) : Http.Script :=
  .ofResponses [some ⟨200, [], []⟩, some ⟨200, [], body⟩]

/-- A program ends as its command does. -/
theorem outcome_of_connect {arguments : List String} {invocation : Invocation}
    {settings : Settings} {clock : Calendar.Instant} {elapsed : UInt64} {files : Directory}
    {server after : Http.Script} {store : Store (Link Http.Script)}
    (asked : Demand.ofArguments arguments = .run invocation)
    (loaded : loadSettings invocation.settingsFile files = .ok settings)
    (connected : Store.connect invocation.repository settings clock server = (.ok store, after)) :
    (run arguments clock elapsed files server).1 =
      .ofResult (perform invocation.command elapsed store files).1 := by
  rw [run_eq_of_asked asked, execute_of_connect loaded connected]

/-- A complete answer is what is downloaded. -/
theorem get_of_answered {link after : Link Http.Script} {key : String}
    {headers : List Http.Header} {body : Bytes}
    (answered : link.ask .get key none = (.ok ⟨200, headers, body, true⟩, after)) :
    (link.get key).1 = (.ok body.length, body) := by
  unfold Link.get
  rw [answered]
  rfl

/-- What is sent is handed over if it hashes to the name of the empty content. -/
theorem exists_fetch_of_sending (body : Bytes) :
    ∃ store after, Store.connect defaultRepository localSettings ⟨0, 0⟩ (sending body) =
        (.ok store, after) ∧
      (fetch paddedName store).1 =
        if Fingerprint.ofContent body = Fingerprint.ofContent [] then .ok body
        else .error (.store
          (.digestMismatch (Fingerprint.ofContent []) (Fingerprint.ofContent body))) := by
  have valid : localSettings.validate = .ok () := by decide +kernel
  have bounded : localSettings.cacheBytes = .ok 1024 := by decide +kernel
  obtain ⟨first, store, _, _, connected⟩ :=
    exists_connect_of_script usable_localSettings valid bounded (fun _ => rfl)
      (rfl : (sending body).responses = some ⟨200, [], []⟩ :: (sending body).responses.drop 1)
  obtain ⟨budget, rfl⟩ := exists_of_connect_ok connected
  let link : Link Http.Script :=
    Store.linkTo localSettings ⟨0, 0⟩ ⟨[some ⟨200, [], body⟩], [] ++ [first], fun _ => true⟩
  have arrives : (⟨200, [], body⟩ : Http.Response).Arrives .get 200 body :=
    Host.arrives_of_body rfl rfl body
  obtain ⟨second, headers, _, _, answered⟩ :=
    Link.exists_ask_of_script (show link.client.Usable from usable_localSettings)
      (Or.inr ⟨Fingerprint.ofContent [], rfl⟩) .get none (fun _ => rfl)
      (rfl : link.server.responses = [some ⟨200, [], body⟩]) arrives (by decide)
  have named : (Fingerprint.ofContent []).text = Text.trimmed paddedName := by
    decide +kernel
  exact ⟨_, _, connected,
    fetch_of_sent defaultRepository budget named (get_of_answered answered)⟩

/-- Something else than was asked for fails, and the file stays as it was; what was
asked for replaces it. -/
theorem other_content_is_not_written :
    (run getting ⟨0, 0⟩ 0 (holding [7]) (sending [1])).1 = ⟨failureStatus, [],
        some (.store (.digestMismatch (Fingerprint.ofContent []) (Fingerprint.ofContent [1])))⟩ ∧
      (run getting ⟨0, 0⟩ 0 (holding [7]) (sending [1])).2.1 = holding [7] ∧
      (run getting ⟨0, 0⟩ 0 (holding [7]) (sending [])).1 = ⟨successStatus, [], none⟩ ∧
      ∃ content, (Fingerprint.ofContent content).text = "d41d8cd98f00b204e9800998ecf8427e" ∧
        Disk.read "m" (run getting ⟨0, 0⟩ 0 (holding [7]) (sending [])).2.1 =
          .ok (.ok content) := by
  have asked : Demand.ofArguments getting = .run ⟨defaultSettingsFile, defaultRepository,
      .get paddedName (some "m")⟩ :=
    asked_get (by decide) (by decide) (by decide)
  have different : Fingerprint.ofContent [1] ≠ Fingerprint.ofContent [] := by decide +kernel
  have created : Disk.create "m" [] (holding [7]) = .ok ((holding [7]).set "m" []) := by
    decide +kernel
  have outcome (body : Bytes) : ∃ store : Store (Link Http.Script),
      (fetch paddedName store).1 =
        (if Fingerprint.ofContent body = Fingerprint.ofContent [] then .ok body
          else .error (.store
            (.digestMismatch (Fingerprint.ofContent []) (Fingerprint.ofContent body)))) ∧
      (run getting ⟨0, 0⟩ 0 (holding [7]) (sending body)).1 = .ofResult
        (perform (.get paddedName (some "m")) 0 store
          (holding [7])).1 := by
    obtain ⟨store, after, connected, fetched⟩ := exists_fetch_of_sending body
    exact ⟨store, fetched, outcome_of_connect asked (loadSettings_holding [7]) connected⟩
  have failing : (run getting ⟨0, 0⟩ 0 (holding [7]) (sending [1])).1 = ⟨failureStatus, [],
      some (.store
        (.digestMismatch (Fingerprint.ofContent []) (Fingerprint.ofContent [1])))⟩ := by
    obtain ⟨store, fetched, ended⟩ := outcome [1]
    rw [if_neg different] at fetched
    rw [ended, (perform_get_of_error (some "m") 0 (holding [7]) fetched).1]
    rfl
  have succeeding : (run getting ⟨0, 0⟩ 0 (holding [7]) (sending [])).1 =
      ⟨successStatus, [], none⟩ := by
    obtain ⟨store, fetched, ended⟩ := outcome []
    rw [if_pos rfl] at fetched
    rw [ended, (perform_get_of_ok (some "m") 0 (holding [7]) fetched).1, deliver, created]
    rfl
  refine ⟨failing, ?_, succeeding, ?_⟩
  · rcases get_delivers_verified_content asked rfl ⟨0, 0⟩ 0 (holding [7]) (sending [1]) with
      ⟨_, status, _⟩ | ⟨_, _, unchanged, _⟩
    · rw [failing] at status
      exact absurd status (by decide)
    · exact unchanged
  · rcases get_delivers_verified_content asked rfl ⟨0, 0⟩ 0 (holding [7]) (sending []) with
      ⟨content, _, _, hashed, delivered⟩ | ⟨_, ended, _⟩
    · have trimmed : Text.trimmed paddedName = "d41d8cd98f00b204e9800998ecf8427e" := by
        decide +kernel
      exact ⟨content, hashed.trans trimmed, delivered.read⟩
    · rw [succeeding] at ended
      exact absurd (Outcome.mk.inj ended).1 (by decide)

end ContentStore.CommandLine
