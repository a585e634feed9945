import Mathlib.Data.List.Nodup
import ContentTyping.Profile.Declaration
import ContentTyping.Proofs.Decisions

/-!
# Handles of declared elements

A declaration that introduces an element answers with the number of its place, and no later declaration
takes the place or the name away. So in the end the names of each kind are distinct, and looking up a
name gives the number that was handed out for it.
-/

namespace ContentTyping

/-- The kinds of elements that bear names in a profile. -/
inductive ElementKind where
  | relation
  | property
  | nodeType
  | transform
  deriving DecidableEq

namespace DomainProfile

variable {profile : DomainProfile} {kind : ElementKind} {name : String}

/-- The names of the elements of a kind, in declaration order. -/
def names (profile : DomainProfile) : ElementKind → List String
  | .relation => profile.relations.map Relation.forward
  | .property => profile.propertyTypes.map PropertyType.identifier
  | .nodeType => profile.nodeTypes.map NodeType.identifier
  | .transform => profile.transforms.map Transform.label

/-- The number of the handle that looking up a name of a kind gives. -/
def lookUp (profile : DomainProfile) (kind : ElementKind) (name : String) : Option Nat :=
  match kind with
  | .relation => (profile.findRelation name).map RelationId.index
  | .property => (profile.findPropertyType name).map PropertyTypeId.index
  | .nodeType => (profile.findNodeType name).map NodeTypeId.index
  | .transform => (profile.findTransform name).map TransformId.index

theorem lookUp_eq (profile : DomainProfile) (kind : ElementKind) (name : String) :
    profile.lookUp kind name = (profile.names kind).findIdx? (· = name) := by
  cases kind <;>
    simp only [lookUp, names, findRelation, findPropertyType, findNodeType, findTransform,
      List.findIdx?_map, Option.map_map, Function.comp_def, Option.map_id']

theorem lookUp_eq_none_iff :
    profile.lookUp kind name = none ↔ name ∉ profile.names kind := by
  rw [lookUp_eq, List.findIdx?_eq_none_iff]
  simp only [decide_eq_false_iff_not]
  exact ⟨fun different member => different name member rfl,
    fun missing other member same => missing (same ▸ member)⟩

/-- Where names are distinct, looking one up gives its place. -/
theorem lookUp_eq_some_iff (distinct : (profile.names kind).Nodup) {place : Nat} :
    profile.lookUp kind name = some place ↔ (profile.names kind)[place]? = some name := by
  rw [lookUp_eq, List.findIdx?_eq_some_iff_getElem, List.getElem?_eq_some_iff]
  simp only [decide_eq_true_eq]
  constructor
  · rintro ⟨inside, same, _⟩
    exact ⟨inside, same⟩
  · rintro ⟨inside, rfl⟩
    refine ⟨inside, rfl, fun earlier before same => ?_⟩
    have samePlace := (List.Nodup.getElem_inj_iff distinct).1 same
    omega

end DomainProfile

/-- The kind and the name of the element that a declaration introduces. -/
def Declaration.introduces? : Declaration → Option (ElementKind × String)
  | relation forward _ => some (.relation, forward)
  | property identifier _ => some (.property, identifier)
  | nodeType identifier _ _ => some (.nodeType, identifier)
  | transform definition => some (.transform, definition.label)
  | _ => none

namespace ProfileDraft

open DomainProfile

/-! ## One declaration -/

/-- The later profile has one more element, with a new name of a kind and in the next place. -/
structure Introduces (before after : DomainProfile) (kind : ElementKind) (name : String)
    (place : Nat) : Prop where
  isNew : name ∉ before.names kind
  isNext : place = (before.names kind).length
  names : ∀ other, after.names other =
    if other = kind then before.names kind ++ [name] else before.names other
  header : (after.identifier, after.domain) = (before.identifier, before.domain)

/-- How a declaration that is accepted changes the names of a profile, and what it answers. -/
inductive Declared (before after : DomainProfile) (declaration : Declaration) :
    Option (Nat × String) → Prop
  | amended (introducesNone : declaration.introduces? = none)
      (sameNames : after.names = before.names)
      (header : (after.identifier, after.domain) = (before.identifier, before.domain)) :
      Declared before after declaration none
  | introduced {kind : ElementKind} {name text : String} {place : Nat}
      (introduces : declaration.introduces? = some (kind, name))
      (introduced : Introduces before after kind name place) :
      Declared before after declaration (some (place, text))

variable {draft next : ProfileDraft}

theorem names_modifyNodeType (draft : ProfileDraft) (id : NodeTypeId)
    {change : NodeType → NodeType} (kept : ∀ type, (change type).identifier = type.identifier) :
    (draft.modifyNodeType id change).profile.names = draft.profile.names := by
  funext kind
  cases kind with
  | relation => rfl
  | property => rfl
  | transform => rfl
  | nodeType =>
      refine List.ext_getElem? fun place => ?_
      simp only [names, modifyNodeType, List.getElem?_map, List.getElem?_modify]
      cases draft.profile.nodeTypes[place]? with
      | none => rfl
      | some type =>
          split
          · exact congrArg some (kept type)
          · rfl

/-- The last step of introducing an element: a name that is taken is refused. -/
theorem unless_taken_eq_ok_iff {α : Type} {found : Option α} {β : Type} {error : ProfileError}
    {value result : β} :
    (if found.isSome = true then throw error else pure value : Except ProfileError β) =
      .ok result ↔ found = none ∧ value = result := by
  cases found with
  | none => simp [pure, Except.pure]
  | some other => simp [throw, throwThe, MonadExceptOf.throw]

theorem introduces_of_addRelation {forward inverse : String} {id : RelationId}
    (added : draft.addRelation forward inverse = .ok (id, next)) :
    Introduces draft.profile next.profile .relation forward id.index := by
  simp only [addRelation, bind_eq_ok_iff, unless_taken_eq_ok_iff] at added
  obtain ⟨_, _, _, _, notFound, same⟩ := added
  obtain ⟨rfl, rfl⟩ := Prod.mk.inj same
  refine ⟨lookUp_eq_none_iff.1 (congrArg (Option.map _) notFound), (List.length_map _).symm,
    fun other => ?_, rfl⟩
  cases other <;> simp [names]

theorem introduces_of_addPropertyType {identifier label : String} {id : PropertyTypeId}
    (added : draft.addPropertyType identifier label = .ok (id, next)) :
    Introduces draft.profile next.profile .property identifier id.index := by
  simp only [addPropertyType, bind_eq_ok_iff, unless_taken_eq_ok_iff] at added
  obtain ⟨_, _, notFound, same⟩ := added
  obtain ⟨rfl, rfl⟩ := Prod.mk.inj same
  refine ⟨lookUp_eq_none_iff.1 (congrArg (Option.map _) notFound), (List.length_map _).symm,
    fun other => ?_, rfl⟩
  cases other <;> simp [names]

theorem introduces_of_addNodeType {identifier label : String} {association : FileAssociation}
    {id : NodeTypeId} (added : draft.addNodeType identifier label association = .ok (id, next)) :
    Introduces draft.profile next.profile .nodeType identifier id.index := by
  simp only [addNodeType, bind_eq_ok_iff, unless_taken_eq_ok_iff] at added
  obtain ⟨_, _, notFound, same⟩ := added
  obtain ⟨rfl, rfl⟩ := Prod.mk.inj same
  refine ⟨lookUp_eq_none_iff.1 (congrArg (Option.map _) notFound), (List.length_map _).symm,
    fun other => ?_, rfl⟩
  cases other <;> simp [names]

theorem introduces_of_addTransform {transform : Transform} {id : TransformId}
    (added : draft.addTransform transform = .ok (id, next)) :
    Introduces draft.profile next.profile .transform transform.label id.index := by
  have accepted : draft.profile.findTransform transform.label = none ∧ _ :=
    unless_taken_eq_ok_iff.1 added
  obtain ⟨notFound, same⟩ := accepted
  obtain ⟨rfl, rfl⟩ := Prod.mk.inj same
  refine ⟨lookUp_eq_none_iff.1 (congrArg (Option.map _) notFound), (List.length_map _).symm,
    fun other => ?_, rfl⟩
  cases other <;> simp [names]

theorem declared_of_declare {declaration : Declaration} {handle : Option (Nat × String)}
    (accepted : draft.declare declaration = .ok (handle, next)) :
    Declared draft.profile next.profile declaration handle := by
  cases declaration with
  | relation forward inverse =>
      obtain ⟨⟨id, last⟩, added, same⟩ := exists_of_map_eq_ok accepted
      obtain ⟨rfl, rfl⟩ := Prod.mk.inj same
      exact .introduced rfl (introduces_of_addRelation added)
  | property identifier label =>
      obtain ⟨⟨id, last⟩, added, same⟩ := exists_of_map_eq_ok accepted
      obtain ⟨rfl, rfl⟩ := Prod.mk.inj same
      exact .introduced rfl (introduces_of_addPropertyType added)
  | nodeType identifier label association =>
      obtain ⟨⟨id, last⟩, added, same⟩ := exists_of_map_eq_ok accepted
      obtain ⟨rfl, rfl⟩ := Prod.mk.inj same
      exact .introduced rfl (introduces_of_addNodeType added)
  | transform definition =>
      obtain ⟨⟨id, last⟩, added, same⟩ := exists_of_map_eq_ok accepted
      obtain ⟨rfl, rfl⟩ := Prod.mk.inj same
      exact .introduced rfl (introduces_of_addTransform added)
  | description | domainType | parentRule | childRule | propertyRule =>
      obtain ⟨rfl, rfl⟩ := Prod.mk.inj (Except.ok.inj accepted)
      exact .amended rfl (names_modifyNodeType draft _ fun _ => rfl) rfl

/-! ## Lists of declarations -/

/-- Follow declarations one after the other, and keep their answers. One that is refused leaves the draft
as it was. -/
def follow : List Declaration → ProfileDraft →
    List (Except ProfileError (Option (Nat × String))) × ProfileDraft
  | [], draft => ([], draft)
  | declaration :: rest, draft =>
    match draft.declare declaration with
    | .error error =>
      let (answers, last) := follow rest draft
      (.error error :: answers, last)
    | .ok (handle, next) =>
      let (answers, last) := follow rest next
      (.ok handle :: answers, last)

/-- One of the declarations has introduced the element with the name of a kind, and was answered with
the place. -/
def HandedOut (declarations : List Declaration)
    (answers : List (Except ProfileError (Option (Nat × String)))) (kind : ElementKind)
    (name : String) (place : Nat) : Prop :=
  ∃ declaration text, (declaration, .ok (some (place, text))) ∈ declarations.zip answers ∧
    declaration.introduces? = some (kind, name)

theorem handedOut_cons_iff {declaration : Declaration} {declarations : List Declaration}
    {answer : Except ProfileError (Option (Nat × String))}
    {answers : List (Except ProfileError (Option (Nat × String)))} {kind : ElementKind}
    {name : String} {place : Nat} :
    HandedOut (declaration :: declarations) (answer :: answers) kind name place ↔
      ((∃ text, answer = .ok (some (place, text))) ∧
          declaration.introduces? = some (kind, name)) ∨
        HandedOut declarations answers kind name place := by
  simp only [HandedOut, List.zip_cons_cons, List.mem_cons, Prod.mk.injEq]
  constructor
  · rintro ⟨other, text, ⟨rfl, rfl⟩ | later, introduces⟩
    · exact .inl ⟨⟨text, rfl⟩, introduces⟩
    · exact .inr ⟨other, text, later, introduces⟩
  · rintro (⟨⟨text, rfl⟩, introduces⟩ | ⟨other, text, later, introduces⟩)
    · exact ⟨declaration, text, .inl ⟨rfl, rfl⟩, introduces⟩
    · exact ⟨other, text, .inr later, introduces⟩

/-- What an accepted declaration does to the names of one kind. -/
theorem Declared.getElem?_names {before after : DomainProfile} {declaration : Declaration}
    {handle : Option (Nat × String)} (declared : Declared before after declaration handle)
    (kind : ElementKind) (name : String) (place : Nat) :
    (after.names kind)[place]? = some name ↔ (before.names kind)[place]? = some name ∨
      (∃ text, handle = some (place, text)) ∧ declaration.introduces? = some (kind, name) := by
  cases declared with
  | amended introducesNone sameNames _ =>
      rw [sameNames, introducesNone]
      simp
  | @introduced other new text next introduces introduced =>
      obtain ⟨isNew, rfl, names, _⟩ := introduced
      rw [names, introduces]
      by_cases sameKind : kind = other
      · subst sameKind
        rw [if_pos rfl]
        rcases Nat.lt_trichotomy place (before.names kind).length with inside | rfl | outside
        · simp [List.getElem?_append_left inside, Nat.ne_of_gt inside]
        · simp
        · simp [List.getElem?_append_right (Nat.le_of_lt outside), Nat.ne_of_lt outside,
            Nat.sub_ne_zero_of_lt outside, Nat.le_of_lt outside]
      · rw [if_neg sameKind]
        simp [Ne.symm sameKind]

theorem Declared.nodup {before after : DomainProfile} {declaration : Declaration}
    {handle : Option (Nat × String)} (declared : Declared before after declaration handle)
    (distinct : ∀ kind, (before.names kind).Nodup) (kind : ElementKind) :
    (after.names kind).Nodup := by
  cases declared with
  | amended _ sameNames _ =>
      rw [sameNames]
      exact distinct kind
  | introduced _ introduced =>
      rw [introduced.names]
      split
      next sameKind =>
          exact List.concat_eq_append ▸ (distinct _).concat introduced.isNew
      · exact distinct kind

theorem Declared.header {before after : DomainProfile} {declaration : Declaration}
    {handle : Option (Nat × String)} (declared : Declared before after declaration handle) :
    (after.identifier, after.domain) = (before.identifier, before.domain) := by
  cases declared with
  | amended _ _ header => exact header
  | introduced _ introduced => exact introduced.header

theorem header_follow (declarations : List Declaration) (draft : ProfileDraft) :
    ((follow declarations draft).2.profile.identifier,
        (follow declarations draft).2.profile.domain) =
      (draft.profile.identifier, draft.profile.domain) := by
  induction declarations generalizing draft with
  | nil =>
      rfl
  | cons declaration rest inductionHypothesis =>
      rw [follow]
      split
      · exact inductionHypothesis draft
      next handle next accepted =>
          exact (inductionHypothesis next).trans (declared_of_declare accepted).header

/-- Names stay distinct, and in the end a name stands where it stood or was handed out. -/
theorem names_follow (declarations : List Declaration) {draft : ProfileDraft}
    (distinct : ∀ kind, (draft.profile.names kind).Nodup) (kind : ElementKind) :
    ((follow declarations draft).2.profile.names kind).Nodup ∧
      ∀ name place, ((follow declarations draft).2.profile.names kind)[place]? = some name ↔
        (draft.profile.names kind)[place]? = some name ∨
          HandedOut declarations (follow declarations draft).1 kind name place := by
  induction declarations generalizing draft with
  | nil =>
      refine ⟨distinct kind, fun name place => ?_⟩
      simp [follow, HandedOut]
  | cons declaration rest inductionHypothesis =>
      cases outcome : draft.declare declaration with
      | error error =>
          obtain ⟨lastDistinct, places⟩ := inductionHypothesis distinct
          simp only [follow, outcome]
          refine ⟨lastDistinct, fun name place => ?_⟩
          rw [places, handedOut_cons_iff]
          simp
      | ok result =>
          obtain ⟨handle, next⟩ := result
          have declared := declared_of_declare outcome
          obtain ⟨lastDistinct, places⟩ := inductionHypothesis (declared.nodup distinct)
          simp only [follow, outcome]
          refine ⟨lastDistinct, fun name place => ?_⟩
          rw [places, handedOut_cons_iff, declared.getElem?_names, or_assoc]
          simp only [Except.ok.injEq]

/-- When a draft starts out empty, names of each kind are distinct in the end, and looking one up gives
the place that was handed out for it. -/
theorem lookUp_follow_empty (identifier domain label : String) (declarations : List Declaration)
    (kind : ElementKind) :
    let followed := follow declarations (empty identifier domain label)
    (followed.2.profile.names kind).Nodup ∧
      ∀ name place, followed.2.profile.lookUp kind name = some place ↔
        HandedOut declarations followed.1 kind name place := by
  have nothing : ∀ kind, (empty identifier domain label).profile.names kind = [] := by
    intro kind
    cases kind <;> rfl
  obtain ⟨distinct, places⟩ := names_follow declarations
    (fun kind => by rw [nothing]; exact List.nodup_nil) kind
  refine ⟨distinct, fun name place => ?_⟩
  rw [lookUp_eq_some_iff distinct, places, nothing]
  simp

end ProfileDraft

end ContentTyping
