import ContentTyping.Proofs.Engine.RefusedNames

/-!
# Identifiers that only a profile accepts

A profile looks at the outline of its identifiers only. In a tree without objects all names of objects are
drawn, and those are IRIs. So what a store of statements refuses is an identifier of the profile, one that
has the outline of an IRI but is none.
-/

namespace ContentTyping

open ContentTree ProfileEngine

/-! ## Declared identifiers -/

namespace ProfileDraft

open DomainProfile

variable {draft next : ProfileDraft}

/-- Only a transform gets a name that is not looked at. -/
theorem isLoose_of_introduces {declaration : Declaration} {handle : Option (Nat × String)}
    (accepted : draft.declare declaration = .ok (handle, next)) {kind : ElementKind} {name : String}
    (introduces : declaration.introduces? = some (kind, name)) (notTransform : kind ≠ .transform) :
    Iri.isLoose name = true := by
  cases declaration with
  | relation forward inverse =>
      obtain ⟨rfl, rfl⟩ := Prod.mk.inj (Option.some.inj introduces)
      obtain ⟨_, added, _⟩ := exists_of_map_eq_ok accepted
      obtain ⟨checked, _⟩ := check_bind_eq_ok_iff.1 added
      exact checkIdentifier_eq_ok_iff.1 checked
  | property identifier label =>
      obtain ⟨rfl, rfl⟩ := Prod.mk.inj (Option.some.inj introduces)
      obtain ⟨_, added, _⟩ := exists_of_map_eq_ok accepted
      obtain ⟨checked, _⟩ := check_bind_eq_ok_iff.1 added
      exact checkIdentifier_eq_ok_iff.1 checked
  | nodeType identifier label association =>
      obtain ⟨rfl, rfl⟩ := Prod.mk.inj (Option.some.inj introduces)
      obtain ⟨_, added, _⟩ := exists_of_map_eq_ok accepted
      obtain ⟨checked, _⟩ := check_bind_eq_ok_iff.1 added
      exact checkIdentifier_eq_ok_iff.1 checked
  | transform definition =>
      obtain ⟨rfl, rfl⟩ := Prod.mk.inj (Option.some.inj introduces)
      exact absurd rfl notTransform
  | description | domainType | parentRule | childRule | propertyRule =>
      exact absurd introduces (by simp [Declaration.introduces?])

theorem isLoose_of_mem_names_follow {kind : ElementKind} (notTransform : kind ≠ .transform)
    (declarations : List Declaration)
    (loose : ∀ name ∈ draft.profile.names kind, Iri.isLoose name = true) :
    ∀ name ∈ (follow declarations draft).2.profile.names kind, Iri.isLoose name = true := by
  induction declarations generalizing draft with
  | nil =>
      exact loose
  | cons declaration rest inductionHypothesis =>
      rw [follow]
      split
      · exact inductionHypothesis loose
      next handle next accepted =>
          apply inductionHypothesis
          intro name member
          cases declared_of_declare accepted with
          | amended _ sameNames _ =>
              rw [sameNames] at member
              exact loose name member
          | introduced introduces introduced =>
              rw [introduced.names] at member
              split at member
              next same =>
                  rcases List.mem_append.1 member with old | new
                  · exact loose name (same ▸ old)
                  · rw [List.mem_singleton.1 new]
                    exact isLoose_of_introduces accepted introduces (same ▸ notTransform)
              · exact loose name member

/-! ## What the store refuses -/

/-- Fresh names for objects. -/
def randomNames (bits : Nat → Nat) (used : Nat) : Supply :=
  ⟨fun turn => RandomName.ofNat (bits turn), used⟩

theorem addressed_of_withoutObjects {tree : ContentTree} (withoutObjects : tree.WithoutObjects)
    (bits : Nat → Nat) (used : Nat) :
    Workspace.Addressed ⟨tree, .empty, randomNames bits used⟩ where
  held := withoutObjects.holdsOnly
  names turn := RandomName.isAbsolute_ofNat (bits turn)

end ProfileDraft

/-- Nothing has been refused, or an identifier of a certain kind that has the outline of an IRI but is
none. -/
def RefusesOnlyLoose {α : Type} (declared : String → Prop) (result : Except Error α) : Prop :=
  NoStoreFault result ∨ ∃ value, result = .error (.store (.invalidIri value)) ∧ declared value ∧
    Iri.isLoose value = true ∧ Iri.isAbsolute value = false

theorem BlamesOnly.refusesOnlyLoose {α : Type} {declared : String → Prop} {result : Except Error α}
    (blames : BlamesOnly (fun value => declared value ∧ Iri.isAbsolute value = false) result)
    (loose : ∀ value, declared value → Iri.isLoose value = true) : RefusesOnlyLoose declared result := by
  by_cases noFault : NoStoreFault result
  · exact .inl noFault
  · obtain ⟨fault, failed⟩ := not_forall_not.1 noFault
    obtain ⟨value, rfl, isDeclared, notIri⟩ := blames fault failed
    exact .inr ⟨value, failed, isDeclared, loose value isDeclared, notIri⟩

/-- What the store refuses in operations of the engine, and in its answers, is an identifier of the
profile that has the outline of an IRI but is none. -/
structure ProfileEngine.RefusedOnlyLoose (engine : ProfileEngine) (workspace : Workspace TripleStore) :
    Prop where
  calls : ∀ call : EngineCall, RefusesOnlyLoose
    (fun value => ∃ type ∈ engine.profile.nodeTypes, value ∈ type.domainTypes)
    (call.perform engine workspace).1
  properties : ∀ id candidate, RefusesOnlyLoose
    (fun value => ∃ property ∈ engine.profile.propertyTypes, property.identifier = value)
    (engine.validateProperties workspace.store workspace.tree id candidate)
  reports : ∀ start, NoStoreFault (engine.validationReport workspace.tree start)
  neighbours : ∀ id, NoStoreFault (engine.revalidateAround workspace.tree id)
  eligible : ∀ id, NoStoreFault (engine.eligibleTypes workspace.tree id)
  legal : ∀ id, NoStoreFault (engine.legalTransforms workspace.tree id)

namespace ProfileDraft

open DomainProfile

/-- A store of statements that starts out empty refuses nothing to an engine, whatever the engine did before
with a tree that had no objects, except for classes and properties of the profile that are no IRIs. That
these have the outline of IRIs was checked when the profile was made. -/
theorem refusedOnlyLoose_of_build (identifier domain label : String) (declarations : List Declaration)
    {engine : ProfileEngine}
    (built : (follow declarations (empty identifier domain label)).2.build = .ok engine.profile)
    {tree : ContentTree} (withoutObjects : tree.WithoutObjects) (bits : Nat → Nat) (used : Nat)
    (calls : List EngineCall) :
    engine.RefusedOnlyLoose (EngineCall.run engine calls ⟨tree, .empty, randomNames bits used⟩) := by
  obtain ⟨isProfile, closed⟩ := build_eq_ok_iff.1 built
  have addressed := @EngineCall.addressed_run engine _
    (addressed_of_withoutObjects withoutObjects bits used) calls
  have looseProperties := @isLoose_of_mem_names_follow (empty identifier domain label) .property
    (by simp) declarations (List.forall_mem_nil _)
  rw [← isProfile] at closed looseProperties
  constructor
  · intro call
    apply (addresses_perform addressed call).outcome.refusesOnlyLoose
    rintro value ⟨type, isDeclared, member⟩
    exact (closed.nodeTypes type isDeclared).domainTypes value member
  · intro id candidate
    apply (blamesOnly_validateProperties addressed id candidate).refusesOnlyLoose
    rintro _ ⟨property, isDeclared, rfl⟩
    exact looseProperties _ (List.mem_map_of_mem isDeclared)
  · exact noStoreFault_validationReport _
  · exact noStoreFault_revalidateAround _
  · exact noStoreFault_eligibleTypes _
  · exact noStoreFault_legalTransforms _

/-- Declarations of a type for folders whose objects are to have a class. -/
def boxDeclarations (className : String) : List Declaration :=
  [.nodeType "urn:folder" "Folder" .directory, .parentRule ⟨0⟩ .noEdge, .domainType ⟨0⟩ className]

/-- An engine with the profile of these declarations. -/
def boxEngine (className : String) : ProfileEngine :=
  { profile := (follow (boxDeclarations className) (empty "urn:p" "urn:d" "P")).2.profile }

theorem build_boxEngine {className : String}
    (isOk : (follow (boxDeclarations className) (empty "urn:p" "urn:d" "P")).2.build.isOk = true) :
    (follow (boxDeclarations className) (empty "urn:p" "urn:d" "P")).2.build =
      .ok (boxEngine className).profile := by
  obtain ⟨profile, built⟩ := exists_of_isOk isOk
  obtain rfl := (build_eq_ok_iff.1 built).1
  exact built

/-- A tree with nothing but a folder. -/
def boxTree : ContentTree :=
  (ContentTree.withRoot
    { identifier := "urn:n:0", name := "box", file := some (.directory (.ofString "box")) }).2

theorem withoutObjects_boxTree : boxTree.WithoutObjects := by
  intro id node found
  rw [boxTree, get?_withRoot] at found
  split at found
  · rw [← Option.some.inj found]
  · exact absurd found (by simp)

def boxWorkspace : Workspace TripleStore :=
  ⟨boxTree, .empty, randomNames id 0⟩

/-- The class of boxes is an IRI, so the store takes it when the folder is typed. -/
theorem refusedOnlyLoose_box :
    (follow (boxDeclarations "urn:Box") (empty "urn:p" "urn:d" "P")).2.build =
        .ok (boxEngine "urn:Box").profile ∧
      boxTree.WithoutObjects ∧
      (boxEngine "urn:Box").RefusedOnlyLoose boxWorkspace ∧
      NoStoreFault (EngineCall.assignTree.perform (boxEngine "urn:Box") boxWorkspace).1 := by
  have built := @build_boxEngine "urn:Box" (by decide +kernel)
  have onlyLoose : (boxEngine "urn:Box").RefusedOnlyLoose boxWorkspace :=
    refusedOnlyLoose_of_build "urn:p" "urn:d" "P" _ built withoutObjects_boxTree id 0 []
  refine ⟨built, withoutObjects_boxTree, onlyLoose, ?_⟩
  rcases onlyLoose.calls .assignTree with noFault | ⟨value, _, ⟨type, declared, member⟩, _, notIri⟩
  · exact noFault
  · have fits : ∀ type ∈ (boxEngine "urn:Box").profile.nodeTypes, ∀ value ∈ type.domainTypes,
        Iri.isAbsolute value = true := by
      decide +kernel
    exact absurd ((fits type declared value member).symm.trans notIri) (by simp)

/-- The profile takes a class with a bar in its name, and the store refuses it when the folder is typed. -/
theorem refused_barredBox :
    ¬∀ (identifier domain label : String) (declarations : List Declaration) (engine : ProfileEngine)
        (tree : ContentTree) (bits : Nat → Nat) (call : EngineCall),
      (follow declarations (empty identifier domain label)).2.build = .ok engine.profile →
      tree.WellFormed → tree.WithoutObjects →
      NoStoreFault (call.perform engine ⟨tree, TripleStore.empty, randomNames bits 0⟩).1 := by
  intro always
  have built := @build_boxEngine "urn:a|b" (by decide +kernel)
  have noFault := always "urn:p" "urn:d" "P" _ _ boxTree id (.atNode (.setNodeType ⟨0⟩ ⟨0⟩)) built
    (wellFormed_withRoot _) withoutObjects_boxTree
  have refused : ((EngineCall.atNode (.setNodeType ⟨0⟩ ⟨0⟩)).perform (boxEngine "urn:a|b")
      ⟨boxTree, TripleStore.empty, randomNames id 0⟩).1 = .error (.store (.invalidIri "urn:a|b")) := by
    decide +kernel
  exact noFault _ refused

end ProfileDraft

end ContentTyping
