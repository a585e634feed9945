import ContentTyping.CommandLine.Arguments
import ContentTyping.CommandLine.Report
import ContentTyping.Config.Load
import ContentTyping.Engine.Assignment
import ContentTyping.Scan.Build
import ContentTyping.Store.Memory

/-!
# Commands

What the program prints on a command line, and the code that it ends with.
-/

namespace ContentTyping.CommandLine

/-- The version of the program. -/
def version : String := "0.4.2"

/-- What the program leaves behind: its exit code and what it has printed. -/
structure Outcome where
  code : Nat := 0
  stdout : String := ""
  stderr : String := ""
  deriving DecidableEq

/-- Lines, each with its end. -/
def printed (lines : List String) : String :=
  String.join (lines.map fun line => line ++ "\n")

/-- A value over several lines. -/
def printedJson (json : Json) : String :=
  json.toIndentedText ++ "\n"

/-! ## Failures -/

/-- Why a command was given up. -/
inductive Failure where
  | plain (error : Error)
  | config (path : RawPath) (error : Error)
  | scan (path : RawPath) (error : Error)
  | nothingScanned (path : RawPath)
  | noNode (path : String)
  deriving DecidableEq

/-- The message of an error and that of the fault behind it. -/
def errorChain (error : Error) : List String :=
  match error with
  | .system fault => [error.message, fault.message]
  | _ => [error.message]

/-- What went wrong, and what led to it. -/
def Failure.chain : Failure → List String
  | .plain error => errorChain error
  | .config path error => s!"failed to load config {path.display}" :: errorChain error
  | .scan path error => s!"failed to scan {path.display}" :: errorChain error
  | .nothingScanned path => [s!"nothing scanned at {path.display}"]
  | .noNode path => [s!"no node at '{path}'"]

/-- A cause on its lines: further lines begin below the first. -/
def indentCause (lead follow : String) (cause : String) : String :=
  lead ++ ("\n" ++ follow).intercalate (cause.splitOn "\n")

/-- The causes of a failure. Several of them are numbered. -/
def causeLines (causes : List String) : List String :=
  match causes with
  | [cause] => [indentCause "    " "    " cause]
  | _ =>
    causes.zipIdx.map fun (cause, i) => indentCause s!"    {i}: " "       " cause

/-- The lines on a failure. -/
def Failure.lines (failure : Failure) : List String :=
  match failure.chain with
  | [] => []
  | message :: causes =>
    s!"Error: {message}" ::
      if causes.isEmpty then [] else ["", "Caused by:"] ++ causeLines causes

/-- The end of a command that was given up. -/
def Failure.outcome (failure : Failure) : Outcome :=
  { code := 1, stderr := printed failure.lines }

/-! ## Commands -/

section Commands

variable (system : FileSystem) (catalog : ProfileCatalog) (config : EngineConfig)
variable (format : OutputFormat) (supply : Supply)

/-- Show the profiles. -/
def showProfiles : Outcome :=
  match format with
  | .json => { stdout := printedJson (.array (catalog.profiles.map profileJson)) }
  | .text => { stdout := printed (catalog.profiles.flatMap profileLines) }

/-- The engine of a configuration, and the scanned tree with an empty store. -/
def prepare (path : RawPath) :
    Except Failure (ProfileEngine × Workspace MemoryStore) :=
  match system.scan config.scan path supply with
  | (.error error, _) => .error (.scan path error)
  | (.ok tree, rest) =>
    match ProfileEngine.ofConfig catalog config with
    | .error error => .error (.plain error)
    | .ok engine => .ok (engine, ⟨tree, MemoryStore.empty, rest⟩)

/-- Assign types to what is scanned and show the tree. -/
def assign (path : RawPath) : Outcome :=
  match prepare system catalog config supply path with
  | .error failure => failure.outcome
  | .ok (engine, workspace) =>
    let (result, last) := engine.assignTree workspace
    let tree :=
      match format with
      | .json => printedJson (treeJson engine.profile last.tree)
      | .text => printed (treeLines engine.profile last.tree)
    match result, format with
    | .ok report, .text =>
      let typed := report.placements.length
      let line := s!"{successSign} {typed} node(s) typed, {report.objects} domain object(s)"
      { stdout := tree ++ printed ["", line] }
    | .ok _, .json => { stdout := tree }
    | .error error, _ =>
      { code := 1
        stdout := tree
        stderr := printed ["", s!"{failureSign} {error.message}"] }

/-- Assign types to what is scanned and show what is wrong with it. -/
def validate (path : RawPath) : Outcome :=
  match prepare system catalog config supply path with
  | .error failure => failure.outcome
  | .ok (engine, workspace) =>
    let (result, last) := engine.assignTree workspace
    let warning :=
      match result with
      | .ok _ => ""
      | .error error => printed [s!"{warningSign} {error.message}"]
    let giveUp (failure : Failure) : Outcome :=
      { failure.outcome with stderr := warning ++ failure.outcome.stderr }
    match last.tree.root with
    | none => giveUp (.nothingScanned path)
    | some root =>
      match engine.validationReport last.tree root with
      | .error error => giveUp (.plain error)
      | .ok report =>
        { code := if report.isValid then 0 else 1
          stdout :=
            match format with
            | .json => printedJson report.toJson
            | .text => printed (reportLines report)
          stderr := warning }

/-- Apply a transform to a node, if one is named, and tell what is printed about it. -/
def applyNamed (engine : ProfileEngine) (node : NodeId) (label : Option String)
    (workspace : Workspace MemoryStore) :
    Except Error (List String × Workspace MemoryStore) :=
  match label with
  | none => .ok ([], workspace)
  | some label =>
    match engine.applyTransformByLabel node label workspace with
    | (.error error, _) => .error error
    | (.ok _, last) =>
      match engine.revalidateAround last.tree node with
      | .error error => .error error
      | .ok report =>
        .ok (if format = .text then appliedLines label report else [], last)

/-- Show the transforms that are legal for a node, after one was applied if it is named. -/
def transforms (path : RawPath) (nodePath : String) (label : Option String) : Outcome :=
  match prepare system catalog config supply path with
  | .error failure => failure.outcome
  | .ok (engine, workspace) =>
    match engine.assignTree workspace with
    | (.error error, _) => (Failure.plain error).outcome
    | (.ok _, assigned) =>
      match assigned.tree.findByPath? nodePath with
      | none => (Failure.noNode nodePath).outcome
      | some node =>
        match applyNamed format engine node label assigned with
        | .error error => (Failure.plain error).outcome
        | .ok (applied, last) =>
          match engine.legalTransforms last.tree node with
          | .error error =>
            { (Failure.plain error).outcome with stdout := printed applied }
          | .ok legal =>
            let found := legal.filterMap engine.profile.transform?
            let type := typeWord engine.profile last.tree node
            match format with
            | .json => { stdout := printedJson (transformsJson nodePath type found) }
            | .text =>
              let lines := transformLines engine.profile nodePath type found
              { stdout := printed (applied ++ lines) }

/-- Carry out a command. -/
def execute (command : Command) : Outcome :=
  match command with
  | .profiles => showProfiles catalog format
  | .assign path rollback =>
    let policy := config.rollbackOnFailure || rollback
    assign system catalog { config with rollbackOnFailure := policy } format supply path
  | .validate path => validate system catalog config format supply path
  | .transforms path node label =>
    transforms system catalog config format supply path node label

end Commands

/-! ## The program -/

/-- The configuration that an invocation asks for. -/
def configure (system : FileSystem) (invocation : Invocation) :
    Except Failure EngineConfig :=
  let loaded : Except Failure EngineConfig :=
    match invocation.config with
    | none => .ok EngineConfig.standard
    | some path => (system.loadConfig path).mapError (Failure.config path)
  loaded.map fun config =>
    { config with profile := invocation.profile.getD config.profile }

/-- The overview of the commands and options. -/
def helpLines : List String :=
  ["Ingest package manager - profile typing for content trees", "",
    "Usage: ipm [OPTIONS] <COMMAND>", "", "Commands:",
    "  profiles    List the built-in profiles with their node types and transforms",
    "  assign      Scan a directory and assign node types",
    "  validate    Scan, assign and validate a directory",
    "  transforms  Show (or apply) the transforms legal for one node",
    "  help        Print this message or the help of the given subcommand(s)", "",
    "Options:", "  -c, --config <CONFIG>    Engine config file (YAML)",
    "  -p, --profile <PROFILE>  Profile identifier or label, overriding the config",
    "      --format <FORMAT>    Output format [default: text] [possible values: text, json]",
    "  -v, --verbose            Enable verbose logging", "  -h, --help               Print help",
    "  -V, --version            Print version"]

/-- Run the program on a file system with the words of a command line. -/
def run (system : FileSystem) (supply : Supply) (words : List String) : Outcome :=
  match parse words with
  | none => { code := 2, stderr := printed ("error: invalid arguments" :: "" :: helpLines) }
  | some .showHelp => { stdout := printed helpLines }
  | some .showVersion => { stdout := printed [s!"ipm {version}"] }
  | some (.run invocation) =>
    match configure system invocation with
    | .error failure => failure.outcome
    | .ok config =>
      execute system ProfileCatalog.builtin config invocation.format supply
        invocation.command

end ContentTyping.CommandLine
