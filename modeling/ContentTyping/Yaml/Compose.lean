import ContentTyping.Yaml.Lexer
import ContentTyping.Yaml.Node

/-!
# Documents from tokens

The grammar of documents over tokens. A text holds one document at most; one that holds none
counts as an empty node.
-/

namespace ContentTyping.Yaml

/-- What the grammar is read with: the tokens that are left, and the anchors met. -/
structure Composing where
  tokens : List Token
  anchors : Anchors := {}

/-- The abbreviations of tags that hold in a document. -/
abbrev TagHandles := List (String × String)

/-- The abbreviations that hold in every document that does not change them. -/
def standardHandles : TagHandles :=
  [("!", "!"), ("!!", "tag:yaml.org,2002:")]

/-- A tag in full. -/
def fullTag (handles : TagHandles) (handle suffix : String) : Option String :=
  if handle.isEmpty then some suffix
  else (handles.lookup handle).map fun stem => stem ++ suffix

/-- The anchor and the tag of a node. -/
structure Properties where
  anchor : Option String := none
  tag : Option String := none

namespace Composing

/-- The same anchors before other tokens. -/
def goTo (state : Composing) (tokens : List Token) : Composing :=
  { state with tokens := tokens }

/-- The next token is one of these. -/
def sees (state : Composing) (tokens : List Token) : Bool :=
  state.tokens.head?.any (· ∈ tokens)

/-- The properties of a node, an anchor and a tag in either order. -/
def properties (handles : TagHandles) (state : Composing) : Option (Properties × Composing) :=
  match state.tokens with
  | .anchor name :: .tag handle suffix :: rest =>
    (fullTag handles handle suffix).map fun tag => (⟨some name, some tag⟩, state.goTo rest)
  | .tag handle suffix :: .anchor name :: rest =>
    (fullTag handles handle suffix).map fun tag => (⟨some name, some tag⟩, state.goTo rest)
  | .anchor name :: rest => some (⟨some name, none⟩, state.goTo rest)
  | .tag handle suffix :: rest =>
    (fullTag handles handle suffix).map fun tag => (⟨none, some tag⟩, state.goTo rest)
  | _ => some ({}, state)

/-- Read a node's content with its anchor, if it has one, marked at its beginning. -/
def marked (anchor : Option String) (content : Composing → Option (Node × Composing))
    (state : Composing) : Option (Node × Composing) :=
  match anchor with
  | none => content state
  | some name =>
    let (place, anchors) := state.anchors.mark name
    (content { state with anchors := anchors }).map fun (node, after) =>
      (node, { after with anchors := after.anchors.complete place node })

end Composing

/-- A node whose content has not begun, in the place of one with these tokens around it. -/
def emptyOr (state : Composing) (ends : List Token)
    (node : Composing → Option (Node × Composing)) : Option (Node × Composing) :=
  if state.sees ends then some (.empty, state) else node state

mutual

/-- A node. Only in a block may its content be a block collection, and only where it is allowed
a sequence without indentation of its own. -/
def composeNode (handles : TagHandles) (inBlock mayBeFlat : Bool) :
    Nat → Composing → Option (Node × Composing)
  | 0, _ => none
  | steps + 1, state =>
    match state.tokens with
    | .alias name :: rest =>
      (state.anchors.number? name).map fun number => (.alias number, state.goTo rest)
    | _ => do
      let (properties, start) ← state.properties handles
      start.marked properties.anchor fun start =>
        let hasProperties := properties.anchor.isSome || properties.tag.isSome
        match start.tokens, inBlock with
        | .scalar style text :: rest, _ =>
          some (.scalar properties.tag style text, start.goTo rest)
        | .flowSequenceStart :: rest, _ =>
          (composeFlowItems handles true steps (start.goTo rest)).map (Prod.map .sequence id)
        | .flowMappingStart :: rest, _ =>
          (composeFlowEntries handles true steps (start.goTo rest)).map
            (Prod.map .mapping id)
        | .blockSequenceStart :: rest, true =>
          (composeBlockItems handles steps (start.goTo rest)).map (Prod.map .sequence id)
        | .blockMappingStart :: rest, true =>
          (composeBlockEntries handles steps (start.goTo rest)).map (Prod.map .mapping id)
        | .blockEntry :: _, _ =>
          if mayBeFlat then
            (composeFlatItems handles steps start).map (Prod.map .sequence id)
          else if hasProperties then some (.scalar properties.tag .plain "", start)
          else none
        | _, _ =>
          if hasProperties then some (.scalar properties.tag .plain "", start) else none

/-- The items of a block sequence. -/
def composeBlockItems (handles : TagHandles) : Nat → Composing → Option (List Node × Composing)
  | 0, _ => none
  | steps + 1, state =>
    match state.tokens with
    | .blockEntry :: rest => do
      let (item, after) ← emptyOr (state.goTo rest) [.blockEntry, .blockEnd]
        (composeNode handles true false steps)
      let (items, last) ← composeBlockItems handles steps after
      pure (item :: items, last)
    | .blockEnd :: rest => some ([], state.goTo rest)
    | _ => none

/-- The items of a sequence that is not indented below its key. -/
def composeFlatItems (handles : TagHandles) : Nat → Composing → Option (List Node × Composing)
  | 0, _ => none
  | steps + 1, state =>
    match state.tokens with
    | .blockEntry :: rest => do
      let (item, after) ← emptyOr (state.goTo rest) [.blockEntry, .key, .value, .blockEnd]
        (composeNode handles true false steps)
      let (items, last) ← composeFlatItems handles steps after
      pure (item :: items, last)
    | _ => some ([], state)

/-- The entries of a block mapping. -/
def composeBlockEntries (handles : TagHandles) :
    Nat → Composing → Option (List (Node × Node) × Composing)
  | 0, _ => none
  | steps + 1, state =>
    match state.tokens with
    | .key :: rest => do
      let (key, afterKey) ← emptyOr (state.goTo rest) [.key, .value, .blockEnd]
        (composeNode handles true true steps)
      let (value, after) ←
        match afterKey.tokens with
        | .value :: rest =>
          emptyOr (afterKey.goTo rest) [.key, .value, .blockEnd]
            (composeNode handles true true steps)
        | _ => some (.empty, afterKey)
      let (entries, last) ← composeBlockEntries handles steps after
      pure ((key, value) :: entries, last)
    | .blockEnd :: rest => some ([], state.goTo rest)
    | _ => none

/-- The items of a flow sequence. An item may be a mapping of one entry without braces; where
its key is left out, the token after the mark of the key is passed over. -/
def composeFlowItems (handles : TagHandles) (isFirst : Bool) :
    Nat → Composing → Option (List Node × Composing)
  | 0, _ => none
  | steps + 1, state =>
    match state.tokens with
    | .flowSequenceEnd :: rest => some ([], state.goTo rest)
    | tokens => do
      let tokens ←
        match isFirst, tokens with
        | true, _ => some tokens
        | false, .flowEntry :: rest => some rest
        | false, _ => none
      match tokens with
      | .flowSequenceEnd :: rest => pure ([], state.goTo rest)
      | .key :: rest =>
        let start := state.goTo rest
        let (key, afterKey) ←
          if start.sees [.value, .flowEntry, .flowSequenceEnd] then
            some (Node.empty, start.goTo (rest.drop 1))
          else composeNode handles false false steps start
        let (value, after) ←
          match afterKey.tokens with
          | .value :: rest =>
            emptyOr (afterKey.goTo rest) [.flowEntry, .flowSequenceEnd]
              (composeNode handles false false steps)
          | _ => some (.empty, afterKey)
        let (items, last) ← composeFlowItems handles false steps after
        pure (.mapping [(key, value)] :: items, last)
      | _ =>
        let (item, after) ← composeNode handles false false steps (state.goTo tokens)
        let (items, last) ← composeFlowItems handles false steps after
        pure (item :: items, last)

/-- The entries of a flow mapping. A node without a mark is a key without a value. -/
def composeFlowEntries (handles : TagHandles) (isFirst : Bool) :
    Nat → Composing → Option (List (Node × Node) × Composing)
  | 0, _ => none
  | steps + 1, state =>
    match state.tokens with
    | .flowMappingEnd :: rest => some ([], state.goTo rest)
    | tokens => do
      let tokens ←
        match isFirst, tokens with
        | true, _ => some tokens
        | false, .flowEntry :: rest => some rest
        | false, _ => none
      match tokens with
      | .flowMappingEnd :: rest => pure ([], state.goTo rest)
      | .key :: rest =>
        let (key, afterKey) ← emptyOr (state.goTo rest) [.value, .flowEntry, .flowMappingEnd]
          (composeNode handles false false steps)
        let (value, after) ←
          match afterKey.tokens with
          | .value :: rest =>
            emptyOr (afterKey.goTo rest) [.flowEntry, .flowMappingEnd]
              (composeNode handles false false steps)
          | _ => some (.empty, afterKey)
        let (entries, last) ← composeFlowEntries handles false steps after
        pure ((key, value) :: entries, last)
      | _ =>
        let (key, after) ← composeNode handles false false steps (state.goTo tokens)
        let (entries, last) ← composeFlowEntries handles false steps after
        pure ((key, .empty) :: entries, last)

end

/-! ## Documents -/

/-- The directives before a document: no second version, no version but 1.1 and 1.2, and no
second meaning of a handle. -/
def readDirectives : List Token → Bool → TagHandles → Option (TagHandles × List Token)
  | .version major minor :: rest, hasVersion, handles =>
    if hasVersion || major ≠ 1 || (minor ≠ 1 && minor ≠ 2) then none
    else readDirectives rest true handles
  | .tagHandle handle stem :: rest, hasVersion, handles =>
    if (handles.lookup handle).isSome then none
    else readDirectives rest hasVersion ((handle, stem) :: handles)
  | tokens, _, handles => some (handles ++ standardHandles, tokens)

/-- A token that ends or begins a document, or stands before one. -/
def bordersDocument : Token → Bool
  | .version _ _ => true
  | .tagHandle _ _ => true
  | .documentStart => true
  | .documentEnd => true
  | _ => false

/-- The node of a document after its marker. -/
def composeContent (handles : TagHandles) (tokens : List Token) : Option (Node × Composing) :=
  if tokens.head?.all bordersDocument then some (.empty, ⟨tokens, {}⟩)
  else composeNode handles true false (2 * tokens.length + 2) ⟨tokens, {}⟩

/-- The first document of a row of tokens. A document without a marker has no directives. -/
def composeFirst (tokens : List Token) : Option (Node × Composing) :=
  match tokens with
  | [] => some (.empty, ⟨[], {}⟩)
  | .version _ _ :: _ => composeExplicit tokens
  | .tagHandle _ _ :: _ => composeExplicit tokens
  | .documentStart :: _ => composeExplicit tokens
  | _ => composeNode standardHandles true false (2 * tokens.length + 2) ⟨tokens, {}⟩
where
  /-- A document with a marker, and directives before that. -/
  composeExplicit (tokens : List Token) : Option (Node × Composing) := do
    let (handles, rest) ← readDirectives tokens false []
    match rest with
    | .documentStart :: content => composeContent handles content
    | _ => none

/-- The only document of a text. Nothing but markers of its end may follow it. -/
def Document.parse? (text : String) : Option Document := do
  let tokens ← tokenize? text.toList
  let (root, after) ← composeFirst tokens
  if after.tokens.all (· = .documentEnd) then pure ⟨root, after.anchors⟩ else none

end ContentTyping.Yaml
