import ContentTyping.Profile.Draft

/-!
# The Portland Common Data Model

The profile that comes with the library. Directories become administrative sets, collections
or objects; regular files become files of an object. For a directory the types are tried in
that order.
-/

namespace ContentTyping.Pcdm

/-- Identifier of the profile. -/
def profileIdentifier : String := "https://ipm.example.org/profile/pcdm"

/-- Identifier of the domain that the profile describes. -/
def domainIdentifier : String := "http://pcdm.org/models"

/-- A term of the data model. -/
def modelTerm (term : String) : String := "http://pcdm.org/models#" ++ term

/-- A metadata term of a domain object. -/
def metadataTerm (term : String) : String := "http://purl.org/dc/terms/" ++ term

/-- The identifier of a node type of this profile. -/
def typeTerm (term : String) : String := "https://ipm.example.org/profile/pcdm#" ++ term

/-! ## Handles in declaration order -/

/-- Collections and objects belong to their parent through this relation. -/
def memberOf : RelationId := ⟨0⟩

/-- Files belong to their object through this relation. -/
def fileOf : RelationId := ⟨1⟩

def title : PropertyTypeId := ⟨0⟩
def description : PropertyTypeId := ⟨1⟩

def administrativeSet : NodeTypeId := ⟨0⟩
def collection : NodeTypeId := ⟨1⟩
def object : NodeTypeId := ⟨2⟩
def file : NodeTypeId := ⟨3⟩

/-! ## Constraints -/

/-- Grouping types carry exactly one title and any number of descriptions. -/
def describedObjects : List PropertyConstraint :=
  [⟨title, Cardinality.exactly 1⟩, ⟨description, Cardinality.any⟩]

def administrativeSetParents : List EdgeConstraint :=
  [EdgeConstraint.noEdge]

def administrativeSetChildren : List EdgeConstraint :=
  [EdgeConstraint.allow collection memberOf, EdgeConstraint.allow object memberOf]

def collectionParents : List EdgeConstraint :=
  [EdgeConstraint.noEdge, EdgeConstraint.allow administrativeSet memberOf,
    EdgeConstraint.allow collection memberOf]

def collectionChildren : List EdgeConstraint :=
  [EdgeConstraint.allow collection memberOf, EdgeConstraint.allow object memberOf]

def objectParents : List EdgeConstraint :=
  [EdgeConstraint.noEdge, EdgeConstraint.allow administrativeSet memberOf,
    EdgeConstraint.allow collection memberOf, EdgeConstraint.allow object memberOf]

def objectChildren : List EdgeConstraint :=
  [EdgeConstraint.allow object memberOf, EdgeConstraint.allow file fileOf]

def fileParents : List EdgeConstraint :=
  [EdgeConstraint.allow object fileOf]

/-! ## Transforms -/

def administrativeSetToCollection : Transform :=
  { label := "administrativeSet_to_collection"
    description := "Demote an administrative set to a collection"
    source := administrativeSet
    parentCondition := none
    childConditions := []
    result := collection }

def collectionToAdministrativeSet : Transform :=
  { label := "collection_to_administrativeSet"
    description := "Promote a top-level collection to an administrative set"
    source := collection
    parentCondition := some EdgeConstraint.noEdge
    childConditions := []
    result := administrativeSet }

def collectionToObject : Transform :=
  { label := "collection_to_object"
    description := "Turn a collection without sub-collections into an object"
    source := collection
    parentCondition := none
    childConditions := [EdgeConstraint.disallow collection memberOf]
    result := object }

def objectToCollection : Transform :=
  { label := "object_to_collection"
    description := "Turn an object without files into a collection"
    source := object
    parentCondition := some (EdgeConstraint.disallow object memberOf)
    childConditions := [EdgeConstraint.disallow file fileOf]
    result := collection }

/-! ## The profile -/

/-- A node type of this profile, whose class bears the same name in the data model. -/
def nodeType (label description : String) (association : FileAssociation)
    (parents children : List EdgeConstraint) (properties : List PropertyConstraint) :
    NodeType :=
  { identifier := typeTerm label
    label := label
    description := description
    domainTypes := [modelTerm label]
    fileAssociation := association
    parentConstraints := parents
    childConstraints := children
    propertyConstraints := properties
    domainProfile := profileIdentifier }

/-- The profile of the Portland Common Data Model. -/
def profile : DomainProfile :=
  { identifier := profileIdentifier
    domain := domainIdentifier
    label := "PCDM"
    relations :=
      [⟨modelTerm "memberOf", modelTerm "hasMember"⟩,
        ⟨modelTerm "fileOf", modelTerm "hasFile"⟩]
    propertyTypes :=
      [⟨metadataTerm "title", "Title", ""⟩,
        ⟨metadataTerm "description", "Description", ""⟩]
    nodeTypes :=
      [nodeType "AdministrativeSet"
          "Top-level grouping that governs the collections and objects below it"
          .directory administrativeSetParents administrativeSetChildren describedObjects,
        nodeType "Collection" "Group of objects and sub-collections"
          .directory collectionParents collectionChildren describedObjects,
        nodeType "Object" "Intellectual entity carrying files and member objects"
          .directory objectParents objectChildren describedObjects,
        nodeType "File" "Bitstream belonging to an object"
          .regularFile fileParents [] []]
    transforms :=
      [administrativeSetToCollection, collectionToAdministrativeSet, collectionToObject,
        objectToCollection] }

end ContentTyping.Pcdm
