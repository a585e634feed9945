import Mathlib.Data.List.TakeWhile
import ContentTyping.Identifier
import ContentTyping.Iri.Absolute

/-!
# Random identifiers are IRIs

An IRI with neither authority, query nor fragment needs no more than plain characters and colons after its
scheme. Random identifiers are such IRIs, whatever their bits are.
-/

namespace ContentTyping

namespace Iri

theorem allEncoded_of_forall {inClass : Char → Bool} {text : List Char}
    (each : ∀ c ∈ text, c ≠ '%' ∧ inClass c = true) : allEncoded inClass text = true := by
  induction text using allEncoded.induct with
  | case1 =>
      rfl
  | case2 high low rest inductionHypothesis =>
      exact absurd rfl (each '%' List.mem_cons_self).1
  | case3 c rest notEncoded inductionHypothesis =>
      obtain ⟨first, others⟩ := List.forall_mem_cons.1 each
      rw [allEncoded.eq_3 _ _ _ notEncoded, inductionHypothesis others]
      simp [first]

/-- A character that stands for itself in a path and in no other part of an IRI. -/
def staysInPath (c : Char) : Bool :=
  isPlain c || c = ':'

theorem isAbsolute_of_path {value : String} {path : List Char}
    (hasScheme : afterScheme? value.toList = some path)
    (each : ∀ c ∈ path, staysInPath c = true) : isAbsolute value = true := by
  have other {mark : Char} (isMark : staysInPath mark = false) {c : Char} (member : c ∈ path) :
      c ≠ mark := by
    rintro rfl
    exact absurd ((each c member).symm.trans isMark) (by simp)
  have encoded : allEncoded isPathChar path = true := by
    refine allEncoded_of_forall fun c member => ⟨other (by decide) member, ?_⟩
    have plain := each c member
    rw [staysInPath, Bool.or_eq_true] at plain
    rcases plain with plain | plain
    · simp [isPathChar, isHostChar, plain]
    · simp [isPathChar, plain]
  have noAuthority : ∀ rest, path = '/' :: '/' :: rest → False := by
    rintro rest rfl
    exact other (by decide) List.mem_cons_self rfl
  have isPath : isHierarchy path = true := (isHierarchy.eq_2 path noAuthority).trans encoded
  have before {mark : Char} (isMark : staysInPath mark = false) :
      path.takeWhile (· ≠ mark) = path :=
    List.takeWhile_eq_self_iff.2 fun c member => decide_eq_true (other isMark member)
  have after {mark : Char} (isMark : staysInPath mark = false) : path.dropWhile (· ≠ mark) = [] :=
    List.dropWhile_eq_nil_iff.2 fun c member => decide_eq_true (other isMark member)
  have noMark : staysInPath '#' = false ∧ staysInPath '?' = false := by decide
  rw [isAbsolute, hasScheme]
  simp only [before noMark.1, before noMark.2, after noMark.1, after noMark.2, isPath]
  rfl

end Iri

namespace RandomName

theorem staysInPath_hexDigit : ∀ digit < 16, Iri.staysInPath (Text.hexDigit digit) = true := by
  decide

theorem marks_fit {mark : Char} (isMark : mark ∈ shape.drop 9) :
    mark = 'x' ∨ mark = 'v' ∨ Iri.staysInPath mark = true := by
  have each : (shape.drop 9).all
      (fun mark => mark = 'x' || mark = 'v' || Iri.staysInPath mark) = true := by decide
  simpa [or_assoc] using List.all_eq_true.1 each mark isMark

/-- Whatever bits are chosen, a random identifier can be written as an IRI. -/
theorem isAbsolute_ofNat (bits : Nat) : Iri.isAbsolute (ofNat bits) = true := by
  unfold ofNat
  extract_lets marks fill
  let staysAll (state : List Char × Nat) : Prop := ∀ c ∈ state.1, Iri.staysInPath c = true
  have filled : staysAll (marks.foldr fill ([], bits)) := by
    have nothing : staysAll ([], bits) := List.forall_mem_nil _
    refine List.foldrRecOn (motive := staysAll) marks fill nothing ?_
    intro state each mark isMark
    have digit {value : Nat} (small : value < 16) :
        ∀ c ∈ Text.hexDigit value :: state.1, Iri.staysInPath c = true :=
      List.forall_mem_cons.2 ⟨staysInPath_hexDigit value small, each⟩
    simp only [fill]
    split
    · exact digit (Nat.mod_lt _ (by decide))
    · split
      · exact digit (by omega)
      next notFree notVersion =>
          have stays := ((marks_fit isMark).resolve_left notFree).resolve_left notVersion
          exact List.forall_mem_cons.2 ⟨stays, each⟩
  have afterScheme : Iri.afterScheme?
      (String.ofList (shape.take 9 ++ (marks.foldr fill ([], bits)).1)).toList =
        some ("uuid:".toList ++ (marks.foldr fill ([], bits)).1) := by
    rw [String.toList_ofList]
    rfl
  have prefixStays : "uuid:".toList.all Iri.staysInPath = true := by decide
  have stays : ∀ c ∈ "uuid:".toList ++ (marks.foldr fill ([], bits)).1, Iri.staysInPath c = true :=
    List.forall_mem_append.2 ⟨List.all_eq_true.1 prefixStays, filled⟩
  exact Iri.isAbsolute_of_path afterScheme stays

end RandomName

end ContentTyping
