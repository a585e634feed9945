import ContentTyping.Proofs.Yaml.Lines
import ContentTyping.Yaml.Compose

/-!
# Documents of mappings are composed from their tokens

The tokens of an entry whose key is a plain scalar, and whose value is a scalar or a mapping of such
entries, are composed to that entry, whatever comes after them.
-/

namespace ContentTyping.Yaml

/-- A key as a node. -/
def keyNode (key : String) : Node :=
  .scalar none .plain key

/-- The tokens up to the end of a block mapping are composed to its entries. -/
def Composes (tokens : List Token) (entries : List (Node × Node)) : Prop :=
  ∀ (rest : List Token) (anchors : Anchors) (steps : Nat), tokens.length ≤ steps →
    composeBlockEntries standardHandles steps ⟨tokens ++ rest, anchors⟩ = some (entries, ⟨rest, anchors⟩)

theorem composeNode_scalar (handles : TagHandles) (inBlock mayBeFlat : Bool) (steps : Nat)
    (style : ScalarStyle) (text : String) (rest : List Token) (anchors : Anchors) :
    composeNode handles inBlock mayBeFlat (steps + 1) ⟨.scalar style text :: rest, anchors⟩ =
      some (.scalar none style text, ⟨rest, anchors⟩) := by
  rw [composeNode]
  rfl

theorem composeNode_mapping (handles : TagHandles) (mayBeFlat : Bool) (steps : Nat)
    (rest : List Token) (anchors : Anchors) :
    composeNode handles true mayBeFlat (steps + 1) ⟨.blockMappingStart :: rest, anchors⟩ =
      (composeBlockEntries handles steps ⟨rest, anchors⟩).map (Prod.map .mapping id) := by
  rw [composeNode]
  rfl

/-- An entry with a value of its own. -/
theorem composeBlockEntries_entry {handles : TagHandles} {key : String} {first : Token}
    {tokens : List Token} {value : Node} {anchors : Anchors} {after : Composing} {steps : Nat}
    (begins : first ∉ [Token.key, .value, .blockEnd])
    (read : composeNode handles true true (steps + 1) ⟨first :: tokens, anchors⟩ = some (value, after)) :
    composeBlockEntries handles (steps + 2)
        ⟨.key :: .scalar .plain key :: .value :: first :: tokens, anchors⟩ =
      (composeBlockEntries handles (steps + 1) after).map fun (entries, last) =>
        ((keyNode key, value) :: entries, last) := by
  have notEmpty (ends : List Token) (isOther : first ∉ ends) :
      emptyOr ⟨first :: tokens, anchors⟩ ends (composeNode handles true true (steps + 1)) =
        some (value, after) := by
    rw [emptyOr, if_neg, read]
    simpa [Composing.sees] using isOther
  have keyRead : emptyOr ⟨.scalar .plain key :: .value :: first :: tokens, anchors⟩
      [.key, .value, .blockEnd] (composeNode handles true true (steps + 1)) =
        some (keyNode key, ⟨.value :: first :: tokens, anchors⟩) := by
    rw [emptyOr, if_neg (by simp [Composing.sees]), composeNode_scalar]
    rfl
  rw [composeBlockEntries]
  simp only [Composing.goTo, keyRead, Option.bind_eq_bind, Option.bind_some, notEmpty _ begins]
  cases composeBlockEntries handles (steps + 1) after with
  | none => rfl
  | some found => rfl

theorem Composes.text {tokens : List Token} {entries : List (Node × Node)}
    (composes : Composes tokens entries) (key : String) (style : ScalarStyle) (text : String) :
    Composes (.key :: .scalar .plain key :: .value :: .scalar style text :: tokens)
      ((keyNode key, .scalar none style text) :: entries) := by
  intro rest anchors steps enough
  simp only [List.length_cons] at enough
  obtain ⟨steps, rfl⟩ : ∃ left, steps = left + 2 := ⟨steps - 2, by omega⟩
  have read := composeNode_scalar standardHandles true true steps style text (tokens ++ rest) anchors
  have further := composes rest anchors (steps + 1) (by omega)
  simp only [List.cons_append]
  rw [composeBlockEntries_entry (by simp) read, further]
  rfl

theorem Composes.mapping {inner tokens : List Token} {innerEntries entries : List (Node × Node)}
    (composes : Composes tokens entries) (key : String) (composesInner : Composes inner innerEntries) :
    Composes (.key :: .scalar .plain key :: .value :: .blockMappingStart :: (inner ++ tokens))
      ((keyNode key, .mapping innerEntries) :: entries) := by
  intro rest anchors steps enough
  simp only [List.length_cons, List.length_append] at enough
  obtain ⟨steps, rfl⟩ : ∃ left, steps = left + 2 := ⟨steps - 2, by omega⟩
  have read := composeNode_mapping standardHandles true steps (inner ++ (tokens ++ rest)) anchors
  rw [composesInner (tokens ++ rest) anchors steps (by omega)] at read
  have further := composes rest anchors (steps + 1) (by omega)
  simp only [List.cons_append, List.append_assoc]
  rw [composeBlockEntries_entry (by simp) read, id, further]
  rfl

theorem composes_nil : Composes [.blockEnd] [] := by
  intro rest anchors steps enough
  obtain ⟨steps, rfl⟩ := Nat.exists_eq_add_of_lt enough
  rfl

/-- A document that is a mapping. -/
theorem composeFirst_of_composes {tokens : List Token} {entries : List (Node × Node)}
    (composes : Composes tokens entries) :
    composeFirst (.blockMappingStart :: tokens) = some (.mapping entries, ⟨[], {}⟩) := by
  have read := composes [] {} (2 * (Token.blockMappingStart :: tokens).length + 1)
    (by rw [List.length_cons]; omega)
  rw [List.append_nil] at read
  have isNode : composeFirst (.blockMappingStart :: tokens) =
      composeNode standardHandles true false (2 * (Token.blockMappingStart :: tokens).length + 2)
        ⟨.blockMappingStart :: tokens, {}⟩ := rfl
  rw [isNode, composeNode_mapping, read]
  rfl

/-- A document of lines is parsed as the mapping whose tokens it has. -/
theorem parse?_writeLines {lines : List Line} (fit : Fit lines) {tokens : List Token}
    {entries : List (Node × Node)} (isMapping : lineTokens [] lines = .blockMappingStart :: tokens)
    (composes : Composes tokens entries) :
    Document.parse? (String.ofList (writeLines lines)) = some ⟨.mapping entries, {}⟩ := by
  rw [Document.parse?, String.toList_ofList, tokenize?_writeLines fit, isMapping]
  simp only [Option.bind_eq_bind, Option.bind_some, composeFirst_of_composes composes]
  rfl

end ContentTyping.Yaml
