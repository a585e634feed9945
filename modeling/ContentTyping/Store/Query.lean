import ContentTyping.Store.Triples

/-!
# Queries

A query selects variables from the ways in which a list of triple patterns matches statements.
-/

namespace ContentTyping

/-! ## Patterns and solutions -/

/-- A place of a pattern: a variable or a fixed term. -/
inductive QueryTerm where
  | variableNamed (name : String)
  | fixed (term : Term)
  deriving DecidableEq

/-- A statement with variables in some of its places. -/
structure TriplePattern where
  subject : QueryTerm
  predicate : QueryTerm
  object : QueryTerm
  deriving DecidableEq

/-- The variables that a query shows. -/
inductive Selection where
  | all
  | names (columns : List String)
  deriving DecidableEq

/-- A query of one of the three forms; only the first gives rows. -/
inductive Query where
  | select (distinct : Bool) (selection : Selection) (patterns : List TriplePattern)
  | ask (patterns : List TriplePattern)
  | construct (template patterns : List TriplePattern)
  deriving DecidableEq

/-- Values of variables, the most recent first. -/
abbrev Solution := List (String × Term)

namespace QueryTerm

/-- Extend a solution so that the place matches a term. -/
def unify (place : QueryTerm) (term : Term) (solution : Solution) : Option Solution :=
  match place with
  | .fixed expected => if expected = term then some solution else none
  | .variableNamed name =>
    match solution.lookup name with
    | none => some ((name, term) :: solution)
    | some bound => if bound = term then some solution else none

/-- The variable of a place. -/
def variableName? : QueryTerm → Option String
  | .variableNamed name => some name
  | .fixed _ => none

end QueryTerm

namespace TriplePattern

/-- Extend a solution so that the pattern matches a statement. -/
def unify (pattern : TriplePattern) (triple : Triple) (solution : Solution) :
    Option Solution :=
  (pattern.subject.unify (.iri triple.subject) solution).bind fun first =>
    (pattern.predicate.unify (.iri triple.predicate) first).bind fun second =>
      pattern.object.unify triple.object second

/-- The variables of a pattern. -/
def mentioned (pattern : TriplePattern) : List String :=
  [pattern.subject, pattern.predicate, pattern.object].filterMap QueryTerm.variableName?

end TriplePattern

/-- All ways to match the patterns, one after the other. -/
def solutions (triples : List Triple) (patterns : List TriplePattern) : List Solution :=
  patterns.foldl
    (fun found pattern =>
      found.flatMap fun solution =>
        triples.filterMap fun triple => pattern.unify triple solution)
    [[]]

/-- The named variables of a solution with their values, those that have one. -/
def shown (columns : List String) (solution : Solution) : Solution :=
  columns.filterMap fun name => (solution.lookup name).map fun term => (name, term)

/-- The members of a list at their last places only. -/
def withoutRepeats (rows : List Solution) : List Solution :=
  rows.foldr (fun row kept => if row ∈ kept then kept else row :: kept) []

/-! ## Reading queries -/

/-- A word of a query. -/
inductive QueryToken where
  | word (text : String)
  | variableNamed (name : String)
  | iri (value : String)
  | literal (value : String)
  | mark (char : Char)
  deriving DecidableEq

/-- A character of a variable name or of a word. -/
def isNameChar (c : Char) : Bool :=
  c.isAlphanum || c = '_' || 0xB7 ≤ c.toNat

/-- The text up to the closing quotation mark, and what follows it. -/
def readQuoted : List Char → Option (List Char × List Char)
  | [] => none
  | '"' :: rest => some ([], rest)
  | '\n' :: _ => none
  | '\\' :: c :: rest =>
    let meaning : Option Char :=
      match c with
      | 't' => some '\t'
      | 'n' => some '\n'
      | 'r' => some '\r'
      | '"' => some '"'
      | '\\' => some '\\'
      | _ => none
    match meaning, readQuoted rest with
    | some char, some (text, after) => some (char :: text, after)
    | _, _ => none
  | c :: rest => (readQuoted rest).map fun parts => (c :: parts.1, parts.2)

/-- Divide a query into words; a number of steps bounds the work. -/
def tokenize : Nat → List Char → Option (List QueryToken)
  | 0, _ => none
  | _ + 1, [] => some []
  | steps + 1, c :: rest =>
    if Text.isBlank c then tokenize steps rest
    else if c = '#' then tokenize steps (rest.dropWhile (· ≠ '\n'))
    else if c = '?' ∨ c = '$' then
      let name := rest.takeWhile isNameChar
      if name.isEmpty then none
      else
        (tokenize steps (rest.dropWhile isNameChar)).map
          (.variableNamed (String.ofList name) :: ·)
    else if c = '<' then
      match rest.dropWhile (· ≠ '>') with
      | '>' :: after =>
        let value := String.ofList (rest.takeWhile (· ≠ '>'))
        if Iri.isAbsolute value then (tokenize steps after).map (.iri value :: ·) else none
      | _ => none
    else if c = '"' then
      match readQuoted rest with
      | some (text, after) =>
        (tokenize steps after).map (.literal (String.ofList text) :: ·)
      | none => none
    else if "\x7b\x7d.;,*".toList.contains c then (tokenize steps rest).map (.mark c :: ·)
    else if c.isAlpha then
      let word := String.ofList (c :: rest.takeWhile isNameChar)
      (tokenize steps (rest.dropWhile isNameChar)).map (.word word :: ·)
    else none

/-- A place of a pattern. A literal stands only at the end of a statement, and the single
letter `a` stands for the class predicate. -/
def readTerm (isPredicate isObject : Bool) : QueryToken → Option QueryTerm
  | .variableNamed name => some (.variableNamed name)
  | .iri value => some (.fixed (.iri value))
  | .literal value => if isObject then some (.fixed (.literal value)) else none
  | .word text =>
    if isPredicate && text = "a" then some (.fixed (.iri TripleStore.typePredicate)) else none
  | .mark _ => none

/-- The opening brace of a group. -/
def openGroup : QueryToken := .mark '\x7b'

/-- The closing brace of a group. -/
def closeGroup : QueryToken := .mark '\x7d'

/-- Patterns up to the closing brace, and what follows it. After a semicolon the subject is
kept, after a comma the predicate too. -/
def readPatterns : Nat → Option QueryTerm → Option QueryTerm → List QueryToken →
    Option (List TriplePattern × List QueryToken)
  | 0, _, _, _ => none
  | steps + 1, subject, predicate, tokens =>
    match subject, predicate, tokens with
    | none, _, first :: rest =>
      if first = closeGroup then some ([], rest)
      else
        match readTerm false false first with
        | some term => readPatterns steps (some term) none rest
        | none => none
    | some _, none, first :: rest =>
      match readTerm true false first with
      | some term => readPatterns steps subject (some term) rest
      | none => none
    | some start, some middle, first :: next :: rest =>
      match readTerm false true first with
      | none => none
      | some last =>
        let continued :=
          if next = closeGroup then some ([], rest)
          else if next = .mark '.' then readPatterns steps none none rest
          else if next = .mark ';' then readPatterns steps subject none rest
          else if next = .mark ',' then readPatterns steps subject predicate rest
          else none
        continued.map fun parts => (⟨start, middle, last⟩ :: parts.1, parts.2)
    | _, _, _ => none

/-- A group of patterns in braces, and what follows it. -/
def readGroup (tokens : List QueryToken) :
    Option (List TriplePattern × List QueryToken) :=
  match tokens with
  | first :: rest =>
    if first = openGroup then readPatterns (3 * tokens.length + 1) none none rest else none
  | [] => none

/-- Is the token this keyword, in any case of letters? -/
def isKeyword (keyword : String) (token : QueryToken) : Bool :=
  match token with
  | .word text => text.toUpper = keyword
  | _ => false

/-- The tokens after an optional keyword. -/
def skipKeyword (keyword : String) : List QueryToken → List QueryToken
  | token :: rest => if isKeyword keyword token then rest else token :: rest
  | [] => []

/-- The group at the end of a query. -/
def readLastGroup (tokens : List QueryToken) : Option (List TriplePattern) :=
  match readGroup (skipKeyword "WHERE" tokens) with
  | some (patterns, []) => some patterns
  | _ => none

/-- The variables at the beginning of a list of tokens, and what follows them. -/
def readVariables : List QueryToken → List String × List QueryToken
  | .variableNamed name :: rest =>
    let further := readVariables rest
    (name :: further.1, further.2)
  | tokens => ([], tokens)

/-- The part of a selection after its keywords. -/
def readSelection (distinct : Bool) (tokens : List QueryToken) : Option Query :=
  match tokens with
  | .mark '*' :: rest => (readLastGroup rest).map (.select distinct .all)
  | _ =>
    let chosen := readVariables tokens
    if chosen.1.isEmpty then none
    else (readLastGroup chosen.2).map (.select distinct (.names chosen.1))

/-- A query from its text. -/
def Query.parse? (text : String) : Option Query :=
  match tokenize (text.length + 1) text.toList with
  | none => none
  | some [] => none
  | some (first :: rest) =>
    if isKeyword "SELECT" first then
      match rest with
      | second :: others =>
        if isKeyword "DISTINCT" second then readSelection true others
        else if isKeyword "REDUCED" second then readSelection false others
        else readSelection false rest
      | [] => none
    else if isKeyword "ASK" first then (readLastGroup rest).map .ask
    else if isKeyword "CONSTRUCT" first then
      match readGroup rest with
      | some (template, after) => (readLastGroup after).map (.construct template)
      | none => none
    else none

/-! ## Answers -/

namespace TripleStore

/-- The rows of a selection: the variables that have a value, with the text of the value. -/
def query (store : TripleStore) (text : String) :
    Except Error (List (List (String × String))) :=
  match Query.parse? text with
  | none => .error (.store .queryFailed)
  | some (.ask _) => .error (.store .notASelection)
  | some (.construct _ _) => .error (.store .notASelection)
  | some (.select distinct selection patterns) =>
    let columns :=
      match selection with
      | .names chosen => chosen
      | .all => DomainProfile.firstOccurrences (patterns.flatMap TriplePattern.mentioned)
    let rows := (solutions store.triples patterns).map (shown columns)
    let rows := if distinct then withoutRepeats rows else rows
    .ok (rows.map fun row => row.map fun cell => (cell.1, cell.2.text))

/-- The objects that have a class, in the order of their code points. The class is looked up by
the pattern of its statements. -/
def objectsOfType (store : TripleStore) (type : String) : Except Error (List String) :=
  match checkIri type with
  | .error error => .error error
  | .ok _ =>
    let pattern : TriplePattern :=
      ⟨.variableNamed "object", .fixed (.iri typePredicate), .fixed (.iri type)⟩
    .ok (sorted ((solutions store.triples [pattern]).filterMap fun solution =>
      (solution.lookup "object").map Term.text))

end TripleStore

end ContentTyping
