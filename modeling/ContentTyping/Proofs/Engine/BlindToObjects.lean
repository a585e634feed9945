import ContentTyping.Engine.Assignment
import ContentTyping.Engine.Retyping
import ContentTyping.Engine.Typing
import ContentTyping.Proofs.Engine.Syncing
import ContentTyping.Proofs.Validation.Locality
import ContentTyping.Tree.Path

/-!
# Objects are not looked at

Walks, checks, plans and the choices that are offered only depend on what a tree records besides the
objects of its nodes. They are the same in two trees that differ in objects only.
-/

namespace ContentTyping

variable {first second : ContentTree}

namespace ContentTree

/-! ## Walks -/

namespace AgreeOn

variable (agree : AgreeOn Node.withoutObject first second)

include agree

theorem links : AgreeOn Node.links first second :=
  agree.ignoringObjects fun _ => rfl

/-- In each slot there is nothing in either tree, or a node that differs in the object. -/
theorem get?_cases (id : NodeId) :
    first.get? id = none ∧ second.get? id = none ∨
      ∃ node object, first.get? id = some node ∧ second.get? id = some { node with object := object } := by
  have same := agree.get id
  cases found : first.get? id with
  | none =>
      rw [found, Option.map_none, eq_comm, Option.map_eq_none_iff] at same
      exact .inl ⟨rfl, same⟩
  | some node =>
      rw [found, Option.map_some, eq_comm, Option.map_eq_some_iff] at same
      obtain ⟨other, otherFound, sameRest⟩ := same
      refine .inr ⟨node, other.object, rfl, otherFound.trans (congrArg some ?_)⟩
      cases node
      cases other
      simp_all [Node.withoutObject]

theorem bind {α : Type} {view : Node → Option α}
    (isBlind : ∀ node : Node, view node.withoutObject = view node) (id : NodeId) :
    (first.get? id).bind view = (second.get? id).bind view := by
  obtain ⟨noNode, noOther⟩ | ⟨node, object, found, otherFound⟩ := agree.get?_cases id
  · rw [noNode, noOther]
  · rw [found, otherFound]
    exact (isBlind node).symm.trans (isBlind { node with object := object })

theorem alone (id : NodeId) : (first.get? id).map Node.alone = (second.get? id).map Node.alone :=
  (agree.ignoringObjects fun _ => rfl : AgreeOn Node.alone first second).get id

theorem parentEdge? (id : NodeId) : first.parentEdge? id = second.parentEdge? id := by
  have above (parent : NodeId) :
      (first.get? parent).map Node.nodeType = (second.get? parent).map Node.nodeType :=
    (agree.ignoringObjects fun _ => rfl : AgreeOn Node.nodeType first second).get parent
  obtain ⟨noNode, noOther⟩ | ⟨node, object, found, otherFound⟩ := agree.get?_cases id
  · rw [ContentTree.parentEdge?, ContentTree.parentEdge?, noNode, noOther]
  · simp only [ContentTree.parentEdge?, found, otherFound]
    cases node.parent with
    | none =>
        rfl
    | some parent =>
        have mapped := congrArg (Option.map fun type => Edge.mk type node.relation) (above parent)
        rwa [Option.map_map, Option.map_map] at mapped

theorem childEdges (id : NodeId) : first.childEdges id = second.childEdges id := by
  rw [childEdges_eq, childEdges_eq, agree.links.activeChildren, funext agree.edgeOf]

theorem pathOf (id : NodeId) : first.pathOf id = second.pathOf id := by
  have names : (fun id => (first.get? id).map Node.name) = fun id => (second.get? id).map Node.name :=
    funext (agree.ignoringObjects fun _ => rfl : AgreeOn Node.name first second).get
  have above : first.ancestors id = second.ancestors id := by
    rw [ancestors, ancestors, agree.size, agree.links.ascend]
  rw [ContentTree.pathOf, ContentTree.pathOf, namesTo, namesTo, names, above]
  obtain ⟨noNode, noOther⟩ | ⟨node, object, found, otherFound⟩ := agree.get?_cases id
  · rw [noNode, noOther]
  · rw [found, otherFound]

end AgreeOn

end ContentTree

open ContentTree

/-! ## Checks -/

namespace DomainProfile

variable {profile : DomainProfile} (agree : AgreeOn Node.withoutObject first second)

include agree

theorem checkNode_eq_of_agreeOn (id : NodeId) :
    profile.checkNode first id = profile.checkNode second id := by
  rw [checkNode, checkNode, agree.pathOf,
    defects_congr (agree.alone id) (agree.parentEdge? id) (agree.childEdges id)]

theorem validationReport_eq_of_agreeOn (start : NodeId) :
    profile.validationReport first start = profile.validationReport second start := by
  rw [validationReport, validationReport, reportOn, reportOn, agree.links.activeSubtree,
    funext (checkNode_eq_of_agreeOn agree)]

/-! ## Plans -/

theorem candidates_eq_of_agreeOn (parentType : Option NodeTypeId) (id : NodeId) :
    profile.candidates first parentType id = profile.candidates second parentType id := by
  rw [candidates, candidates]
  obtain ⟨noNode, noOther⟩ | ⟨node, object, found, otherFound⟩ := agree.get?_cases id
  · rw [noNode, noOther]
  · rw [found, otherFound]
    rfl

theorem choose?_eq_of_agreeOn (table : Viability) (parentType : Option NodeTypeId) (id : NodeId) :
    profile.choose? first table parentType id = profile.choose? second table parentType id := by
  rw [choose?, choose?, candidates_eq_of_agreeOn agree]

theorem viability_eq_of_agreeOn (start : NodeId) :
    profile.viability first start = profile.viability second start := by
  have suits (table : Viability) (id : NodeId) (type : NodeTypeId) :
      profile.suits first table id type = profile.suits second table id type := by
    rw [DomainProfile.suits, DomainProfile.suits, agree.links.activeChildren,
      funext (choose?_eq_of_agreeOn agree table (some type))]
  have kinds (id : NodeId) : (first.get? id).bind Node.fileKind = (second.get? id).bind Node.fileKind :=
    agree.bind (fun _ => rfl) id
  have notes (table : Viability) (id : NodeId) :
      profile.noteNode first table id = profile.noteNode second table id := by
    simp only [noteNode, kinds, suits]
  rw [viability, viability, agree.links.activeSubtree, funext fun table => funext (notes table)]

theorem collect_eq_of_agreeOn (table : Viability) (steps : Nat) (candidate : Candidate) (id : NodeId) :
    profile.collect first table steps candidate id =
      profile.collect second table steps candidate id := by
  induction steps generalizing candidate id with
  | zero =>
      rfl
  | succ steps inductionHypothesis =>
      simp only [collect, agree.links.activeChildren, choose?_eq_of_agreeOn agree,
        inductionHypothesis]

theorem bestEffort_eq_of_agreeOn (table : Viability) (steps : Nat) (parentType : Option NodeTypeId)
    (id : NodeId) :
    profile.bestEffort first table steps parentType id =
      profile.bestEffort second table steps parentType id := by
  induction steps generalizing parentType id with
  | zero =>
      rfl
  | succ steps inductionHypothesis =>
      have below (type : Option NodeTypeId) : profile.bestEffort first table steps type =
          profile.bestEffort second table steps type := funext (inductionHypothesis type)
      simp only [bestEffort, agree.links.activeChildren, agree.links.activeSubtree,
        choose?_eq_of_agreeOn agree, candidates_eq_of_agreeOn agree, collect_eq_of_agreeOn agree,
        below]

theorem diagnose_eq_of_agreeOn (table : Viability) (steps : Nat) (parentType : Option NodeTypeId)
    (id : NodeId) :
    profile.diagnose first table steps parentType id =
      profile.diagnose second table steps parentType id := by
  induction steps generalizing parentType id with
  | zero =>
      rfl
  | succ steps inductionHypothesis =>
      have kind : (first.get? id).bind Node.fileKind = (second.get? id).bind Node.fileKind :=
        agree.bind (fun _ => rfl) id
      simp only [diagnose, agree.links.activeChildren, choose?_eq_of_agreeOn agree,
        candidates_eq_of_agreeOn agree, kind, inductionHypothesis]

theorem plan_eq_of_agreeOn (start : NodeId) (parentType : Option NodeTypeId) :
    profile.plan first start parentType = profile.plan second start parentType := by
  simp only [plan, agree.size, viability_eq_of_agreeOn agree, choose?_eq_of_agreeOn agree,
    collect_eq_of_agreeOn agree, bestEffort_eq_of_agreeOn agree, diagnose_eq_of_agreeOn agree]

/-! ## Offers -/

theorem isLegal_eq_of_agreeOn (transform : Transform) (id : NodeId) :
    transform.isLegal first id = transform.isLegal second id := by
  rw [Transform.isLegal, Transform.isLegal]
  simp only [EdgeConstraint.matchesParent, EdgeConstraint.matchesChildren, agree.parentEdge?,
    agree.childEdges, agree.links.isExcluded]
  obtain ⟨noNode, noOther⟩ | ⟨node, object, found, otherFound⟩ := agree.get?_cases id
  · rw [noNode, noOther]
  · rw [found, otherFound]

theorem legalTransforms_eq_of_agreeOn (id : NodeId) :
    profile.legalTransforms first id = profile.legalTransforms second id := by
  have types : (first.get? id).bind Node.nodeType = (second.get? id).bind Node.nodeType :=
    agree.bind (fun _ => rfl) id
  simp only [legalTransforms, types, isLegal_eq_of_agreeOn agree]

end DomainProfile

namespace ProfileEngine

theorem typedChildren_eq_filterMap (tree : ContentTree) (id : NodeId) :
    typedChildren tree id =
      (tree.childEdges id).filterMap fun edge => edge.nodeType.map fun type => (type, edge.relation) := by
  rw [typedChildren, ContentTree.childEdges, List.filterMap_map]
  rfl

section Answers

variable (engine : ProfileEngine) (only : ObjectsOnly first second)

include only

theorem checkBinding_eq_of_objectsOnly : engine.checkBinding second = engine.checkBinding first := by
  rw [checkBinding, checkBinding, only.profile]

theorem validationReport_eq_of_objectsOnly (start : NodeId) :
    engine.validationReport second start = engine.validationReport first start := by
  rw [validationReport, validationReport, engine.checkBinding_eq_of_objectsOnly only,
    DomainProfile.validationReport_eq_of_agreeOn only.nodes, ContentTree.node, ContentTree.node]
  obtain ⟨noNode, noOther⟩ | ⟨node, object, found, otherFound⟩ := only.nodes.get?_cases start
  · rw [noNode, noOther]
  · rw [found, otherFound]
    rfl

theorem legalTransforms_eq_of_objectsOnly (id : NodeId) :
    engine.legalTransforms second id = engine.legalTransforms first id := by
  rw [legalTransforms, legalTransforms, engine.checkBinding_eq_of_objectsOnly only,
    DomainProfile.legalTransforms_eq_of_agreeOn only.nodes, ContentTree.node, ContentTree.node]
  obtain ⟨noNode, noOther⟩ | ⟨node, object, found, otherFound⟩ := only.nodes.get?_cases id
  · rw [noNode, noOther]
  · rw [found, otherFound]
    rfl

theorem eligibleTypes_eq_of_objectsOnly (id : NodeId) :
    engine.eligibleTypes second id = engine.eligibleTypes first id := by
  have children : typedChildren second id = typedChildren first id := by
    rw [typedChildren_eq_filterMap, typedChildren_eq_filterMap, only.nodes.childEdges]
  rw [eligibleTypes, eligibleTypes, engine.checkBinding_eq_of_objectsOnly only, children]
  refine congrArg (engine.checkBinding first >>= ·) (funext fun _ => ?_)
  obtain ⟨noNode, noOther⟩ | ⟨node, object, found, otherFound⟩ := only.nodes.get?_cases id
  · rw [ContentTree.node, ContentTree.node, noNode, noOther]
    rfl
  · rw [node_eq_ok_iff.2 found, node_eq_ok_iff.2 otherFound]
    simp only [Bind.bind, Except.bind, Node.fileKind]
    cases node.parent with
    | none =>
        rfl
    | some parent =>
        obtain ⟨noNode, noOther⟩ | ⟨above, object, found, otherFound⟩ := only.nodes.get?_cases parent
        · simp only [ContentTree.node, noNode, noOther]
        · simp only [ContentTree.node, found, otherFound]

end Answers

end ProfileEngine

end ContentTyping
