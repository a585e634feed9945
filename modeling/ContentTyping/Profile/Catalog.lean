import ContentTyping.Profile.Pcdm

/-!
# Catalogs of profiles

A catalog holds profiles with pairwise different identifiers and finds one by its identifier
or by its label.
-/

namespace ContentTyping

/-- Why a catalog cannot be made or asked. -/
inductive CatalogError where
  | registeredTwice (identifier : String)
  | unknownProfile (key : String)
  deriving DecidableEq

/-- The wording of a catalog fault. -/
def CatalogError.message : CatalogError → String
  | .registeredTwice identifier => s!"Profile registered twice: {identifier}"
  | .unknownProfile key => s!"Unknown profile: {key}"

/-- Profiles in the order in which they were registered. -/
structure ProfileCatalog where
  profiles : List DomainProfile
  deriving DecidableEq

namespace ProfileCatalog

/-- The catalog without profiles. -/
def empty : ProfileCatalog := ⟨[]⟩

/-- The profile with an identifier. -/
def get? (catalog : ProfileCatalog) (identifier : String) : Option DomainProfile :=
  catalog.profiles.find? (·.identifier = identifier)

/-- Register one more profile under an identifier that is still free. -/
def register (catalog : ProfileCatalog) (profile : DomainProfile) :
    Except CatalogError ProfileCatalog :=
  match catalog.get? profile.identifier with
  | some _ => .error (.registeredTwice profile.identifier)
  | none => .ok ⟨catalog.profiles ++ [profile]⟩

/-- Register profiles one after the other. -/
def ofList (profiles : List DomainProfile) : Except CatalogError ProfileCatalog :=
  profiles.foldlM register empty

/-- The catalog of the profiles that come with the library. -/
def builtin : ProfileCatalog := ⟨[Pcdm.profile]⟩

/-- The profile with this identifier, else the first one whose label is the key up to the case
of ASCII letters. -/
def resolve (catalog : ProfileCatalog) (key : String) : Except CatalogError DomainProfile :=
  match catalog.get? key with
  | some profile => .ok profile
  | none =>
    match catalog.profiles.find? (·.label.toLower = key.toLower) with
    | some profile => .ok profile
    | none => .error (.unknownProfile key)

end ProfileCatalog

end ContentTyping
