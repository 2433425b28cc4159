import SenderPolicy.Proofs.Inspection
import SenderPolicy.Proofs.Loading
import SenderPolicy.Proofs.RequestValue
import SenderPolicy.Proofs.Text.Lines

/-! The command that builds a record. It does the same for a request in options as for a file
that states this request, and its exit code and its lines tell what has come of the build. -/
namespace SenderPolicy

namespace Settings

/-- Settings are turned down for one reason only: they allow no lookup. -/
theorem check_eq_ok_iff {s : Settings} : s.check = .ok () ↔ s.maxLookups ≠ 0 := by
  rw [check, isValid]
  by_cases h : s.maxLookups = 0 <;> simp [h]

theorem ofFile_eq_ok_iff {files : Files} {path : String} {s : Settings} :
    ofFile files path = .ok s ↔
      ∃ text, files.read path = .ok text ∧ ofToml? text = some s := by
  rw [ofFile]
  cases files.read path with
  | error fault => simp
  | ok text =>
    have htoml : ofToml text = .ok s ↔ ofToml? text = some s := by
      delta ofToml
      cases ofToml? text <;> simp
    simpa using htoml

end Settings

namespace Cli

/-! Requests in options and in files -/

def RequestOptions.entries (o : RequestOptions) : List Entry :=
  -- One entry for each kind with values, and one for the target of a redirect.
  (o.values.filter fun group => !group.2.isEmpty).map (fun group => .of group.1 group.2) ++
    (o.redirect?.map (Entry.of .redirect [·])).toList

def RequestOptions.StatedIn (o : RequestOptions) (files : Files) (path : String) : Prop :=
  ∃ text raw members, files.read path = .ok text ∧ Json.ofText? text = some raw ∧
    raw.settle? = some (.object members) ∧
    StatesRequest members o.domain o.entries o.redirect?.isSome o.qualifier?

/-! Files that cannot be used -/

inductive FileFault (files : Files) (path : String) (isGood : String → Prop) : Prop
  -- A file that is missing or cannot be read, or that holds another text than it should.
  | unreadable {fault : ReadFault} : files.read path = .error fault → FileFault files path isGood
  | illFormed {text : String} : files.read path = .ok text → ¬ isGood text →
      FileFault files path isGood

def IsSettingsText (text : String) : Prop :=
  -- The text of a settings file: settings that allow a lookup at least.
  ∃ s, Settings.ofToml? text = some s ∧ s.maxLookups ≠ 0

def IsRequestText (text : String) : Prop :=
  ∃ raw j q, Json.ofText? text = some raw ∧ raw.settle? = some j ∧ Request.ofJson? j = some q

/-- The named settings file is at fault, or else the standard one. That one may be missing, and it
is if it cannot be looked at, for whatever reason. -/
inductive SettingsFault (files : Files) : Option String → Prop
  | named {path : String} : FileFault files path IsSettingsText → SettingsFault files (some path)
  | standard : files.isFound Settings.standardFile = true →
      FileFault files Settings.standardFile IsSettingsText → SettingsFault files none

inductive RequestFault (files : Files) : Source → Prop
  -- The request file is at fault. Options always give a request.
  | file {path : String} : FileFault files path IsRequestText → RequestFault files (.file path)

/-! The two ways to a request -/

/-- A request in options lists its values by kind, in the order of a record. -/
theorem Given.kinds_of_source {g : Given} {o : RequestOptions} (h : g.source = .ok (.options o)) :
    o.values.map (·.1) = Kind.buildOrder := by
  rw [source] at h
  split at h
  · obtain rfl := Source.options.inj (Except.ok.inj h)
    simp [Function.comp_def]
  · cases Except.ok.inj h
  · cases h

/-- Options give a request with their entries, and with the qualifier of the settings unless
there is one among them. -/
theorem RequestOptions.toRequest_eq {o : RequestOptions}
    (h : o.values.map (·.1) = Kind.buildOrder) (s : Settings) : o.toRequest s =
      ⟨o.domain, o.entries, o.redirect?.isSome, o.qualifier?.getD s.defaultQualifier⟩ := by
  let groups := o.values.filter fun group => !group.2.isEmpty
  let bare := s.newRequest o.domain
  let filled : Request := { bare with entries := groups.map fun group => .of group.1 group.2 }
  -- The command line has each kind once, so that no entry replaces another one.
  have hsub : (groups.map (·.1)).Sublist Kind.buildOrder := h ▸ List.filter_sublist.map _
  have hfold : o.values.foldl (fun q group =>
      if group.2.isEmpty then q else q.withValues group.1 group.2) bare = filled := by
    calc o.values.foldl (fun q group =>
          if group.2.isEmpty then q else q.withValues group.1 group.2) bare
        = groups.foldl (fun q group => q.withValues group.1 group.2) bare := by
          rw [List.foldl_filter]
          congr 1
          funext q group
          cases group.2 <;> rfl
      _ = filled := Request.foldl_withValues (hsub.nodup (by decide)) (List.forall_mem_nil _)
  have hne : ∀ e ∈ filled.entries, e.kind ≠ .redirect := by
    intro e he
    obtain ⟨group, hgroup, rfl⟩ := List.mem_map.mp he
    have hkind : group.1 ∈ groups.map (·.1) := List.mem_map_of_mem hgroup
    exact Kind.ne_redirect_of_mem (hsub.mem hkind)
  rw [toRequest, hfold, entries]
  cases o.redirect? with
  | none =>
    rw [Option.map_none, Option.toList_none, List.append_nil]
    cases o.qualifier? <;> rfl
  | some target =>
    dsimp only
    rw [Request.withRedirect_eq hne]
    cases o.qualifier? <;> rfl

/-- A file that states what is given in options is read as the same request. -/
theorem request_file_of_statedIn {files : Files} {path : String} {o : RequestOptions}
    (hkinds : o.values.map (·.1) = Kind.buildOrder) (h : o.StatedIn files path) (s : Settings) :
    Source.request files s (.file path) = .ok (o.toRequest s) := by
  obtain ⟨text, raw, members, hfile, htext, hsettle, hstates⟩ := h
  have hread := requestOfJson?_of_states s (Json.isSettled_of_settle? hsettle) hstates
  rw [RequestOptions.toRequest_eq hkinds]
  exact request_of_file hfile htext hsettle hread

/-- A run depends on its source through the request only. -/
theorem run_congr {files : Files} {source source' : Source}
    (h : ∀ s, source.request files s = source'.request files s) (config? : Option String)
    (verbosity : Nat) : run files ⟨config?, verbosity, .build source⟩ =
      run files ⟨config?, verbosity, .build source'⟩ := by
  have hcommand : ∀ s threshold,
      runCommand files s threshold (.build source) =
        runCommand files s threshold (.build source') := by
    intro s threshold
    rw [runCommand, runCommand, h]
  rw [run, run]
  cases Settings.load files config? with
  | error e => rfl
  | ok s => exact congrArg (Report.withEvents _ _) (hcommand s _)

/-! What a report tells -/

namespace Report

def printed (r : Report) : String :=
  Text.unlines r.output

/-- The report tells the outcome of a build by its code and by what it prints: the record on a
line of its own, or a line for each rejection among the errors. No rejection breaks its line,
so cutting the errors at all line breaks gives one line for each. -/
structure Tells (r : Report) (o : Outcome) : Prop where
  record_iff : ∀ text, r.exitCode = 0 ∧ r.printed = text ++ "\n" ↔ o = .record text
  rejected_iff : r.exitCode = 1 ∧ r.printed = "" ↔ ∃ rejections, o = .rejected rejections
  messages : r.messages = o.rejections.map Rejection.message
  unbroken : ∀ message ∈ r.messages, Text.IsOneLine message
  lines : (Text.unlines r.messages).toList.splitOnP Text.isLineBreak =
    o.rejections.map (·.message.toList) ++ [[]]

/-- Events go to the log, and what a report tells is not in the log. -/
theorem Tells.withEvents {r : Report} {o : Outcome} (h : r.Tells o) (threshold : Level)
    (events : List Event) : (r.withEvents threshold events).Tells o where
  record_iff := h.record_iff
  rejected_iff := h.rejected_iff
  messages := by rw [messages_withEvents, h.messages]
  unbroken := by
    rw [messages_withEvents]
    exact h.unbroken
  lines := by rw [messages_withEvents, h.lines]

end Report

/-! Faults -/

theorem not_fileFault_iff {files : Files} {path : String} {isGood : String → Prop} :
    ¬ FileFault files path isGood ↔ ∃ text, files.read path = .ok text ∧ isGood text := by
  constructor
  · intro h
    cases hread : files.read path with
    | error fault => exact absurd (.unreadable hread) h
    | ok text => exact ⟨text, rfl, by_contra fun hbad => h (.illFormed hread hbad)⟩
  · rintro ⟨text, htext, hgood⟩ h
    cases h with
    | unreadable hfault => cases hfault.symm.trans htext
    | illFormed hother hbad =>
      obtain rfl := Except.ok.inj (hother.symm.trans htext)
      exact hbad hgood

/-- Loading ends with the check, so a file gives settings if it holds a text of such. -/
theorem checked_ofFile_iff {files : Files} {path : String} :
    (∃ s, (do let s ← Settings.ofFile files path; s.check; return s) = Except.ok s) ↔
      ¬ FileFault files path IsSettingsText := by
  rw [not_fileFault_iff]
  constructor
  · rintro ⟨s, h⟩
    obtain ⟨s', hfile, h⟩ := bind_eq_ok_iff.mp h
    obtain ⟨⟨⟩, hcheck, -⟩ := bind_eq_ok_iff.mp h
    obtain ⟨text, htext, hs⟩ := Settings.ofFile_eq_ok_iff.mp hfile
    exact ⟨text, htext, s', hs, Settings.check_eq_ok_iff.mp hcheck⟩
  · rintro ⟨text, htext, s, hs, hvalid⟩
    refine ⟨s, ?_⟩
    rw [Settings.ofFile_eq_ok_iff.mpr ⟨text, htext, hs⟩, ok_bind,
      Settings.check_eq_ok_iff.mpr hvalid, ok_bind]
    rfl

theorem settingsFault_named_iff {files : Files} {path : String} :
    SettingsFault files (some path) ↔ FileFault files path IsSettingsText := by
  refine ⟨fun h => ?_, .named⟩
  cases h with
  | named h => exact h

/-- The standard file is at fault only if it is found. -/
theorem settingsFault_standard_iff {files : Files} : SettingsFault files none ↔
    files.isFound Settings.standardFile = true ∧
      FileFault files Settings.standardFile IsSettingsText := by
  refine ⟨fun h => ?_, fun h => .standard h.1 h.2⟩
  cases h with
  | standard hfound h => exact ⟨hfound, h⟩

/-- There are settings unless a file of settings is at fault. -/
theorem load_ok_iff {files : Files} {config? : Option String} :
    (∃ s, Settings.load files config? = .ok s) ↔ ¬ SettingsFault files config? := by
  -- A named file has to be good. The standard one only has to be good if it is found.
  cases config? with
  | some path =>
    rw [settingsFault_named_iff, ← checked_ofFile_iff]
    rfl
  | none =>
    rw [settingsFault_standard_iff]
    cases hfound : files.isFound Settings.standardFile with
    | false =>
      refine iff_of_true ⟨default, ?_⟩ fun h => Bool.false_ne_true h.1
      rw [Settings.load, hfound]
      rfl
    | true =>
      rw [and_iff_right rfl, ← checked_ofFile_iff, Settings.load, hfound]
      rfl

/-- Whether a text states a request does not depend on the settings. -/
theorem requestOfText_isSome_iff {s : Settings} {text : String} :
    (∃ q, requestOfText? s text = some q) ↔ IsRequestText text := by
  simp only [requestOfText?, requestOfJson?, Option.bind_eq_bind, Option.bind_eq_some_iff,
    Option.map_eq_some_iff]
  constructor
  · rintro ⟨-, raw, hraw, j, hj, q, hq, -⟩
    exact ⟨raw, j, q, hraw, hj, hq⟩
  · rintro ⟨raw, j, q, hraw, hj, hq⟩
    exact ⟨_, raw, hraw, j, hj, q, hq, rfl⟩

theorem requestFault_file_iff {files : Files} {path : String} :
    RequestFault files (.file path) ↔ FileFault files path IsRequestText := by
  refine ⟨fun h => ?_, .file⟩
  cases h with
  | file h => exact h

/-- There is a request unless its file is at fault. -/
theorem request_ok_iff {files : Files} {source : Source} (s : Settings) :
    (∃ q, source.request files s = .ok q) ↔ ¬ RequestFault files source := by
  cases source with
  | options o =>
    refine iff_of_true ⟨o.toRequest s, rfl⟩ fun h => ?_
    cases h
  | file path =>
    rw [requestFault_file_iff, not_fileFault_iff, Source.request]
    cases files.read path with
    | error fault => simp
    | ok text =>
      simp only [Except.ok.injEq, exists_eq_left', ← requestOfText_isSome_iff (s := s)]
      cases requestOfText? s text <;> simp

/-! Runs of the command -/

/-- A run without settings ends before its command is looked at. -/
theorem run_of_load_error {files : Files} {config? : Option String} {e : LoadError}
    (h : Settings.load files config? = .error e) (verbosity : Nat) (command : Command) :
    run files ⟨config?, verbosity, command⟩ = .fault e.message := by
  rw [run, h]

/-- A run without a request ends once the settings are logged. -/
theorem run_of_request_error {files : Files} {config? : Option String} {s : Settings}
    (hload : Settings.load files config? = .ok s) {source : Source} {message : String}
    (h : source.request files s = .error message) (verbosity : Nat) :
    run files ⟨config?, verbosity, .build source⟩ =
      (Report.fault message).withEvents (threshold verbosity s) [.settingsLoaded s] := by
  rw [run, hload]
  dsimp only
  rw [runCommand, h]

end Cli

/-- Names and reasons keep to one line, and the value in a message is one word. -/
theorem Rejection.isOneLine_message {r : Rejection}
    (h : ∀ value ∈ r.value?, Text.IsWord value.toList) : Text.IsOneLine r.message := by
  unfold message
  refine (Text.IsOneLine.append ?_ ?_).append ?_
  · cases r.kind? with
    | none => decide
    | some kind => cases kind <;> decide
  · cases r.reason <;> decide
  · cases hvalue : r.value? with
    | none => decide
    | some value =>
      have hword : Text.IsOneLine value := fun c hc =>
        Text.isLineBreak_eq_false ((h value hvalue).not_blank c hc)
      exact Text.IsOneLine.append (by decide) hword

namespace Cli

theorem messages_reportOutcome (o : Outcome) :
    (reportOutcome o).messages = o.rejections.map Rejection.message := by
  cases o with
  | record text => rfl
  | rejected rejections =>
    rw [Report.messages, reportOutcome, List.filterMap_map]
    exact congrFun List.filterMap_eq_map rejections

/-- An outcome can be told from its report if the rejected values are words. -/
theorem tells_reportOutcome {o : Outcome}
    (h : ∀ r ∈ o.rejections, ∀ value ∈ r.value?, Text.IsWord value.toList) :
    (reportOutcome o).Tells o := by
  have hmessages := messages_reportOutcome o
  have hunbroken : ∀ message ∈ (reportOutcome o).messages, Text.IsOneLine message := by
    rw [hmessages]
    exact List.forall_mem_map.mpr fun r hr => Rejection.isOneLine_message (h r hr)
  -- Messages without breaks are told apart at the breaks between them.
  have hlines := Text.splitOnP_unlines hunbroken
  exact {
    record_iff := by
      intro text
      cases o with
      | record built => simp [reportOutcome, Report.success, Report.printed, Text.unlines_singleton]
      | rejected rejections => simp [reportOutcome]
    rejected_iff := by
      cases o with
      | record built => simp [reportOutcome, Report.success]
      | rejected rejections => simp [reportOutcome, Report.printed, Text.unlines]
    messages := hmessages
    unbroken := hunbroken
    lines := by rw [hlines, hmessages, List.map_map]; rfl }

/-- With settings and a request, a run tells the outcome of the build. Values that are rejected are
words by themselves, for values are taken apart at blanks. -/
theorem tells_run {files : Files} {config? : Option String} {s : Settings}
    (hload : Settings.load files config? = .ok s) {source : Source} {q : Request}
    (h : source.request files s = .ok q) (verbosity : Nat) :
    (run files ⟨config?, verbosity, .build source⟩).Tells (s.build q) := by
  have hword : ∀ r ∈ (s.build q).rejections, ∀ value ∈ r.value?, Text.IsWord value.toList := by
    cases hbuild : s.build q with
    | record text => exact List.forall_mem_nil _
    | rejected rejections =>
      exact Request.isWord_of_plan_error (Settings.build_eq_rejected_iff.mp hbuild)
  rw [run, hload]
  dsimp only
  rw [runCommand, h]
  exact ((tells_reportOutcome hword).withEvents _ _).withEvents _ _

/-- An outcome is never told by the code for faults. -/
theorem Report.Tells.exitCode_ne_two {r : Report} {o : Outcome} (h : r.Tells o) :
    r.exitCode ≠ 2 := by
  have hcode : r.exitCode = 0 ∨ r.exitCode = 1 := by
    cases ho : o with
    | record text => exact .inl ((h.record_iff text).mpr ho).1
    | rejected rejections => exact .inr (h.rejected_iff.mpr ⟨rejections, ho⟩).1
  rcases hcode with hcode | hcode <;> simp [hcode]

/-- A run in which a file is at fault has the code 2 and prints nothing. -/
theorem run_of_fault {files : Files} {config? : Option String} {source : Source}
    (h : SettingsFault files config? ∨ RequestFault files source) (verbosity : Nat) :
    (run files ⟨config?, verbosity, .build source⟩).exitCode = 2 ∧
      (run files ⟨config?, verbosity, .build source⟩).printed = "" := by
  cases hload : Settings.load files config? with
  | error e =>
    rw [run_of_load_error hload]
    exact ⟨rfl, rfl⟩
  | ok s =>
    cases hrequest : source.request files s with
    | error message =>
      rw [run_of_request_error hload hrequest]
      exact ⟨rfl, rfl⟩
    | ok q =>
      rcases h with h | h
      · exact absurd h (load_ok_iff.mp ⟨s, hload⟩)
      · exact absurd h ((request_ok_iff s).mp ⟨q, hrequest⟩)

/-- The code 2 means that a file is at fault, and nothing else. -/
theorem exitCode_eq_two_iff {files : Files} {config? : Option String} {source : Source}
    {verbosity : Nat} : (run files ⟨config?, verbosity, .build source⟩).exitCode = 2 ↔
      SettingsFault files config? ∨ RequestFault files source := by
  refine ⟨fun hcode => ?_, fun h => (run_of_fault h verbosity).1⟩
  -- Without a fault there is a request, and its outcome is told by another code.
  by_contra hnone
  obtain ⟨hsettings, hrequest⟩ := not_or.mp hnone
  obtain ⟨s, hs⟩ := load_ok_iff.mpr hsettings
  obtain ⟨q, hq⟩ := (request_ok_iff s).mpr hrequest
  exact (tells_run hs hq verbosity).exitCode_ne_two hcode

end Cli

/-- The command builds a request in options as it builds one in a file that states the same,
and tells what has come of it: code 0 and the record, or code 1 and a line for each rejection.
Code 2 is left for files that cannot be used, and then nothing is printed but an error. -/
theorem build_command_tells_outcome (files : Files) (config? : Option String) (verbosity : Nat) :
    let run (source : Cli.Source) := Cli.run files ⟨config?, verbosity, .build source⟩
    (∀ (g : Cli.Given) (o : Cli.RequestOptions) (path : String),
        g.source = .ok (.options o) → o.StatedIn files path →
          (∀ s, ∃ q, Cli.Source.request files s (.options o) = .ok q ∧
            Cli.Source.request files s (.file path) = .ok q) ∧
          run (.options o) = run (.file path)) ∧
      (∀ (source : Cli.Source) (s : Settings) (q : Request),
        Settings.load files config? = .ok s → source.request files s = .ok q →
          (run source).Tells (s.build q)) ∧
      ∀ source : Cli.Source,
        ((run source).exitCode = 2 ↔
          Cli.SettingsFault files config? ∨ Cli.RequestFault files source) ∧
        ((run source).exitCode = 2 → (run source).printed = "") := by
  intro run
  refine ⟨fun g o path hoptions hstated => ?_, fun source s q hload hrequest =>
    Cli.tells_run hload hrequest verbosity, fun source => ?_⟩
  · have hkinds := Cli.Given.kinds_of_source hoptions
    have hfile := Cli.request_file_of_statedIn hkinds hstated
    have hsame : ∀ s, Cli.Source.request files s (.options o) =
        Cli.Source.request files s (.file path) := fun s => (hfile s).symm
    exact ⟨fun s => ⟨o.toRequest s, rfl, hfile s⟩, Cli.run_congr hsame config? verbosity⟩
  · exact ⟨Cli.exitCode_eq_two_iff, fun hcode =>
      (Cli.run_of_fault (Cli.exitCode_eq_two_iff.mp hcode) verbosity).2⟩

/-- A bad address next to the target of a redirect, in options and in a file with its members
in another order. The standard settings file is a link into a file, so that it cannot be looked at
and the standard settings are taken. A settings file that is named has to be there, and a path
through a file leads to none. -/
theorem build_command_tells_outcome_rejected :
    let text := "\x7b\"redirect_enabled\":true,\"mechanisms\":[[\"ip4\",true,[\"1.2\"]]," ++
      "\x7b\"raw_values\":[\"c.d\"],\"kind\":\"redirect\"\x7d],\"domain\":\"a.b\"\x7d"
    let files : Files := ⟨(· == "request.json"), fun path =>
      if path = "request.json" then .ok text else .error .notDirectory⟩
    let g : Cli.Given := ⟨[(.domain, "a.b"), (.values .ip4, "1.2"),
      (.redirect, "c.d")], 0, []⟩
    let o : Cli.RequestOptions := ⟨"a.b", [(.inclusion, []), (.ip4, ["1.2"]), (.ip6, []),
      (.a, []), (.mx, []), (.existence, [])], some "c.d", none⟩
    let run config? source := Cli.run files ⟨config?, 0, .build source⟩
    g.source = .ok (.options o) ∧ o.StatedIn files "request.json" ∧
      run none (.options o) = run none (.file "request.json") ∧
      (run none (.options o)).Tells (.rejected [⟨some .ip4, .invalidIpv4, some "1.2"⟩]) ∧
      (run (some "request.json/x.toml") (.options o)).exitCode = 2 := by
  intro text files g o run
  let items : List Json := [.array [.string "ip4", .bool true, .array [.string "1.2"]],
    .object [("raw_values", .array [.string "c.d"]), ("kind", .string "redirect")]]
  let members : List (String × Json) := [("redirect_enabled", .bool true),
    ("mechanisms", .array items), ("domain", .string "a.b")]
  have hentries : List.Forall₂ Entry.StatedBy o.entries items :=
    .cons (.array .string) (.cons (.object rfl .string rfl rfl) .nil)
  have hstates : StatesRequest members "a.b" o.entries true none :=
    ⟨rfl, ⟨items, rfl, hentries⟩, rfl, .none⟩
  have hparse : Json.ofText? text = some (.object members) := by decide +kernel
  have hsettle : (Json.object members).settle? = some (.object members) := by rfl
  have hfile : files.read "request.json" = .ok text := by simp [files]
  have hstated : o.StatedIn files "request.json" :=
    ⟨text, .object members, members, hfile, hparse, hsettle, hstates⟩
  have hbuild : (default : Settings).build (o.toRequest default) =
      .rejected [⟨some .ip4, .invalidIpv4, some "1.2"⟩] := by decide +kernel
  obtain ⟨hforms, htells, -⟩ := build_command_tells_outcome files none 0
  obtain ⟨-, -, hcode⟩ := build_command_tells_outcome files (some "request.json/x.toml") 0
  have hsource : g.source = .ok (.options o) := by decide
  have hthrough : files.read "request.json/x.toml" = .error .notDirectory := by simp [files]
  refine ⟨hsource, hstated, (hforms g o "request.json" hsource hstated).2, ?_, ?_⟩
  · exact hbuild ▸ htells (.options o) default _ rfl rfl
  · exact (hcode (.options o)).1.mpr (.inl (.named (.unreadable hthrough)))

end SenderPolicy
