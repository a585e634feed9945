import ContentTyping.FileSystem.RawPath

/-!
# Arguments

The words of a command line and what they ask for. Options may stand before and after the name
of a command, each of them once in either place; what stands after it counts.
-/

namespace ContentTyping.CommandLine

/-- The form of the answer. -/
inductive OutputFormat where
  | text
  | json
  deriving DecidableEq

/-- What is to be done. -/
inductive Command where
  | profiles
  | assign (path : RawPath) (rollback : Bool)
  | validate (path : RawPath)
  | transforms (path : RawPath) (node : String) (apply : Option String)
  deriving DecidableEq

/-- A command with the options that all commands share. -/
structure Invocation where
  command : Command
  config : Option RawPath
  profile : Option String
  format : OutputFormat
  verbose : Bool
  deriving DecidableEq

/-- What a command line asks for. -/
inductive Request where
  | run (invocation : Invocation)
  | showHelp
  | showVersion
  deriving DecidableEq

/-! ## Options -/

/-- The part of a command line that options stand in: before the command, or after it. -/
inductive Section where
  | general
  | profiles
  | assign
  | validate
  | transforms
  deriving DecidableEq

/-- The section that follows the name of a command. -/
def Section.ofName? (name : String) : Option Section :=
  match name with
  | "profiles" => some .profiles
  | "assign" => some .assign
  | "validate" => some .validate
  | "transforms" => some .transforms
  | _ => none

/-- The section has a place for a path. -/
def Section.takesPath : Section → Bool
  | .general => false
  | .profiles => false
  | _ => true

/-- The options. -/
inductive Flag where
  | config
  | profile
  | format
  | verbose
  | rollback
  | node
  | apply
  | help
  | version
  deriving DecidableEq

namespace Flag

/-- The option is followed by a value. -/
def takesValue : Flag → Bool
  | verbose => false
  | rollback => false
  | help => false
  | version => false
  | _ => true

/-- The option may be given in a section. -/
def standsIn (flag : Flag) (part : Section) : Bool :=
  match flag with
  | rollback => part = .assign
  | node => part = .transforms
  | apply => part = .transforms
  | version => part = .general
  | _ => true

/-- The option with a long name. -/
def ofLong? (name : String) : Option Flag :=
  match name with
  | "config" => some config
  | "profile" => some profile
  | "format" => some format
  | "verbose" => some verbose
  | "rollback" => some rollback
  | "node" => some node
  | "apply" => some apply
  | "help" => some help
  | "version" => some version
  | _ => none

/-- The option with a letter. -/
def ofLetter? (letter : Char) : Option Flag :=
  match letter with
  | 'c' => some config
  | 'p' => some profile
  | 'v' => some verbose
  | 'h' => some help
  | 'V' => some version
  | _ => none

/-- The option accepts this value. Paths are not empty, and there are two formats. -/
def accepts (flag : Flag) (value : String) : Bool :=
  match flag with
  | config => !value.isEmpty
  | format => value = "text" || value = "json"
  | _ => true

end Flag

/-! ## Sections -/

/-- The options and the path given in a section. -/
structure Given where
  flags : List (Flag × String) := []
  path : Option String := none

/-- How the reading of a section goes on. -/
inductive Progress where
  | more (given : Given) (rest : List String)
  | ask (request : Request)

/-- Note an option with its value. None is given twice. -/
def Given.add (given : Given) (flag : Flag) (value : String) : Option Given :=
  if (given.flags.lookup flag).isSome || !flag.accepts value then none
  else some { given with flags := (flag, value) :: given.flags }

/-- Note a word that belongs to no option. -/
def Given.addWord (given : Given) (part : Section) (word : String) : Option Given :=
  if part.takesPath && given.path.isNone && !word.isEmpty then
    some { given with path := some word }
  else none

/-- A word that begins with a hyphen and more. -/
def looksLikeOption (word : String) : Bool :=
  word.startsWith "-" && word ≠ "-"

/-- An option with the value in its word, or in the next one. -/
def takeFlag (given : Given) (flag : Flag) (attached : Option String) (rest : List String) :
    Option Progress :=
  if flag.takesValue then
    match attached, rest with
    | some value, _ => (given.add flag value).map fun next => .more next rest
    | none, value :: rest =>
      if looksLikeOption value then none
      else (given.add flag value).map fun next => .more next rest
    | none, [] => none
  else
    match attached, flag with
    | some _, _ => none
    | none, .help => some (.ask .showHelp)
    | none, .version => some (.ask .showVersion)
    | none, _ => (given.add flag "").map fun next => .more next rest

/-- A word of a long option, behind its hyphens. -/
def takeLong (part : Section) (given : Given) (word : List Char) (rest : List String) :
    Option Progress := do
  let name := word.takeWhile (· ≠ '=')
  let attached :=
    match word.dropWhile (· ≠ '=') with
    | [] => none
    | _ :: value => some (String.ofList value)
  let flag ← Flag.ofLong? (String.ofList name)
  if flag.standsIn part then takeFlag given flag attached rest else none

/-- A word of letters, behind its hyphen. A value may follow the last one, with an equals sign
or without. -/
def takeLetters (part : Section) (rest : List String) :
    List Char → Given → Option Progress
  | [], given => some (.more given rest)
  | letter :: letters, given => do
    let flag ← Flag.ofLetter? letter
    if !flag.standsIn part then none
    else if flag.takesValue then
      match letters with
      | [] => takeFlag given flag none rest
      | '=' :: value => takeFlag given flag (some (String.ofList value)) rest
      | value => takeFlag given flag (some (String.ofList value)) rest
    else
      match ← takeFlag given flag none rest with
      | .ask request => pure (.ask request)
      | .more next _ => takeLetters part rest letters next

/-- The next word of a section. -/
def takeWord (part : Section) (given : Given) (word : String) (rest : List String) :
    Option Progress :=
  match word.toList with
  | '-' :: '-' :: name => takeLong part given name rest
  | '-' :: letter :: letters => takeLetters part rest (letter :: letters) given
  | _ => (given.addWord part word).map fun next => .more next rest

/-- The end of a section: the end of the words, a request of its own, or the name of a command
and the words after it. -/
inductive SectionEnd where
  | done (given : Given)
  | ask (request : Request)
  | command (given : Given) (name : String) (rest : List String)

/-- A section. After two hyphens all words stand for themselves. -/
def readSection (part : Section) : Nat → Given → List String → Option SectionEnd
  | 0, _, _ => none
  | _ + 1, given, [] => some (.done given)
  | steps + 1, given, word :: rest =>
    if part = .general && ((Section.ofName? word).isSome || word = "help") then
      some (.command given word rest)
    else if word = "--" then
      (rest.foldlM (fun (given : Given) word => given.addWord part word) given).map .done
    else
      match takeWord part given word rest with
      | none => none
      | some (.ask request) => some (.ask request)
      | some (.more next rest) => readSection part steps next rest

/-! ## Requests -/

/-- The value of an option, the one after the command before the one in front of it. -/
def valueOf (before after : Given) (flag : Flag) : Option String :=
  (after.flags.lookup flag).or (before.flags.lookup flag)

/-- The command of a section. -/
def commandOf (part : Section) (given : Given) : Option Command :=
  match part, given.path with
  | .profiles, none => some .profiles
  | .assign, some path =>
    some (.assign (RawPath.ofString path) (given.flags.lookup .rollback).isSome)
  | .validate, some path => some (.validate (RawPath.ofString path))
  | .transforms, some path =>
    (given.flags.lookup .node).map fun node =>
      .transforms (RawPath.ofString path) node (given.flags.lookup .apply)
  | _, _ => none

/-- What the two sections of a command line ask for together. -/
def invocationOf (part : Section) (before after : Given) : Option Invocation :=
  (commandOf part after).map fun command =>
    { command := command
      config := (valueOf before after .config).map RawPath.ofString
      profile := valueOf before after .profile
      format := if valueOf before after .format = some "json" then .json else .text
      verbose := (valueOf before after .verbose).isSome }

/-- The words after `help` name at most one command. -/
def namesOneTopic (words : List String) : Bool :=
  match words.dropWhile (· = "help") with
  | [] => true
  | [word] => (Section.ofName? word).isSome
  | _ => false

/-- What the words of a command line ask for, if they can be understood. -/
def parse (words : List String) : Option Request := do
  match ← readSection .general (words.length + 1) {} words with
  | .done _ => none
  | .ask request => pure request
  | .command before name rest =>
    match Section.ofName? name with
    | none => if namesOneTopic rest then pure .showHelp else none
    | some part =>
      match ← readSection part (rest.length + 1) {} rest with
      | .ask request => pure request
      | .command _ _ _ => none
      | .done after => (invocationOf part before after).map .run

end ContentTyping.CommandLine
