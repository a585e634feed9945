import Mathlib.Logic.Function.Basic
import ContentTyping.Proofs.Engine.NodeCalls
import ContentTyping.Proofs.Tree.NodeOrigins

/-!
# Histories of a shared tree

Several engines, each with a store of its own, take turns on one tree with those who edit it. A history
is a list of turns, whatever their outcomes. What each turn passes on holds at the end of every
history.
-/

namespace ContentTyping

open ContentTree ProfileEngine

/-! ## Written plans -/

namespace ProfileEngine

variable {engine : ProfileEngine} {S : Type} [ObjectStore S] {workspace last : Workspace S}
  {placements : List Placement} {untyped : List NodeId} {outcome : Except Error Unit}

/-- Whether writing fails or not, types are written first, and then only objects and the profile can
change. -/
theorem exists_objectsOnly_of_writePlacements
    (called : engine.writePlacements placements untyped workspace = (outcome, last)) :
    ∃ next : Workspace S,
      ObjectsOnly (untyped.foldl eraseType (placements.foldl writePlacement workspace.tree))
        next.tree ∧
      (last = next ∧ (outcome = .ok () → placements = []) ∨
        last = next.bindTo engine.profile.identifier) := by
  obtain ⟨next, synced, isLast⟩ := writePlacements_cases called
  have only := engine.syncObjects_objectsOnly (placements.map Placement.node)
    { workspace with
      tree := untyped.foldl eraseType (placements.foldl writePlacement workspace.tree) }
  rw [synced] at only
  exact ⟨next, only, isLast⟩

theorem profile_cases_of_writePlacements
    (called : engine.writePlacements placements untyped workspace = (outcome, last)) :
    last.tree.profile = workspace.tree.profile ∨
      last.tree.profile = some engine.profile.identifier := by
  obtain ⟨next, only, ⟨rfl, _⟩ | rfl⟩ := exists_objectsOnly_of_writePlacements called
  · have placed : (placements.foldl writePlacement workspace.tree).profile =
        workspace.tree.profile := foldl_kept ContentTree.profile (by intros; rfl) placements _
    have erased : (untyped.foldl eraseType
        (placements.foldl writePlacement workspace.tree)).profile =
          (placements.foldl writePlacement workspace.tree).profile :=
      foldl_kept ContentTree.profile (by intros; rfl) untyped _
    exact .inl (only.profile.trans (erased.trans placed))
  · exact .inr rfl

end ProfileEngine

/-! ## Calls on an engine -/

/-- A call on an engine that may change the tree. -/
inductive EngineCall where
  | assignTree
  | assignNodeTypes (start : NodeId)
  | atNode (call : NodeCall)

namespace EngineCall

/-- The outcome of a call, and the workspace afterwards. -/
def perform {S : Type} [ObjectStore S] (engine : ProfileEngine) (call : EngineCall) :
    Operation S Unit := fun workspace =>
  match call with
  | .assignTree =>
    let assigned := engine.assignTree workspace
    (assigned.1.map fun _ => (), assigned.2)
  | .assignNodeTypes start =>
    let assigned := engine.assignNodeTypes start workspace
    (assigned.1.map fun _ => (), assigned.2)
  | .atNode call => call.perform engine workspace

variable {engine : ProfileEngine} {S : Type} [ObjectStore S] {workspace last : Workspace S}
  {call : EngineCall} {outcome : Except Error Unit}

/-- How a call goes: nothing is written, or one node is, or a plan. When the writing fails, so does
the call. -/
inductive Performed (engine : ProfileEngine) (workspace : Workspace S) :
    EngineCall → Except Error Unit → Workspace S → Prop
  | unchanged {call : EngineCall} {outcome : Except Error Unit} :
      Performed engine workspace call outcome workspace
  | atNode {call : NodeCall} {outcome : Except Error Unit} {last : Workspace S}
      (performed : NodeCall.Performed engine workspace call outcome last) :
      Performed engine workspace (.atNode call) outcome last
  | assigned {call : EngineCall} {start : NodeId} {parentType : Option NodeTypeId}
      {written outcome : Except Error Unit} {last : Workspace S}
      (searches : engine.Searches workspace.tree start parentType)
      (done : engine.writePlacements
        (engine.profile.plan workspace.tree start parentType).placements
        (engine.profile.plan workspace.tree start parentType).untyped workspace = (written, last))
      (fails : ∀ error, written = .error error → outcome = .error error) :
      Performed engine workspace call outcome last

theorem performed_assignNodeTypes {start : NodeId} {assigned : Except Error AssignmentReport}
    (called : engine.assignNodeTypes start workspace = (assigned, last)) :
    Performed engine workspace call (assigned.map fun _ => ()) last := by
  rcases assignNodeTypes_cases called with ⟨rfl, _⟩ | ⟨parentType, searches⟩
  · exact .unchanged
  · rw [searches.assignNodeTypes_eq] at called
    rcases carryOut_cases called with rfl | ⟨written, done, fails⟩
    · exact .unchanged
    · refine .assigned searches done fun error isError => ?_
      rw [fails error isError]
      rfl

theorem performed (called : call.perform engine workspace = (outcome, last)) :
    Performed engine workspace call outcome last := by
  cases call with
  | assignTree =>
      obtain ⟨rfl, rfl⟩ := Prod.mk.inj called
      rw [ProfileEngine.assignTree]
      split
      · exact .unchanged
      · exact performed_assignNodeTypes rfl
  | assignNodeTypes start =>
      obtain ⟨rfl, rfl⟩ := Prod.mk.inj called
      exact performed_assignNodeTypes rfl
  | atNode call =>
      exact .atNode (NodeCall.performed called)

/-- An engine that refuses the tree leaves it alone. -/
theorem unchanged_of_refused (performed : Performed engine workspace call outcome last)
    (refused : engine.checkBinding workspace.tree ≠ .ok ()) : last = workspace := by
  cases performed with
  | unchanged =>
      rfl
  | atNode performed =>
      cases performed with
      | unchanged => rfl
      | written free _ _ _ _ => exact absurd free refused
      | bound free _ _ _ => exact absurd free refused
  | assigned searches _ _ =>
      exact absurd searches.free refused

/-- The tree stays bound as it was, or is bound to the profile of the engine. -/
theorem profile_cases (performed : Performed engine workspace call outcome last) :
    last.tree.profile = workspace.tree.profile ∨
      last.tree.profile = some engine.profile.identifier := by
  cases performed with
  | unchanged =>
      exact .inl rfl
  | atNode performed =>
      obtain rfl | ⟨_, _, _, _, next, only, rfl | rfl⟩ :=
        NodeCall.exists_objectsOnly_of_performed performed
      · exact .inl rfl
      · exact .inl only.profile
      · exact .inr rfl
  | assigned _ done _ =>
      exact profile_cases_of_writePlacements done

end EngineCall

/-! ## Turns -/

/-- A tree that several engines work on, and the store of each of them. -/
structure SharedTree (S : Type) where
  tree : ContentTree
  stores : Nat → S
  supply : Supply

/-- What can be done in one turn. -/
inductive Turn (S : Type) where
  | edit (change : Edit)
  | operate (engine : Nat) (call : EngineCall)
  /-- Put anything in the place of what the store of an engine holds. -/
  | restock (engine : Nat) (store : S)

/-- What an engine works on when its turn comes. -/
def SharedTree.workspace {S : Type} (state : SharedTree S) (engine : Nat) : Workspace S :=
  ⟨state.tree, state.stores engine, state.supply⟩

namespace Turn

variable {S : Type}

section Performing

variable [ObjectStore S]

def perform (engines : Nat → ProfileEngine) (turn : Turn S) (state : SharedTree S) :
    SharedTree S :=
  match turn with
  | .edit change =>
    let edited := (change.perform ⟨state.tree, state.supply⟩).2
    ⟨edited.tree, state.stores, edited.supply⟩
  | .operate engine call =>
    let last := (call.perform (engines engine) (state.workspace engine)).2
    ⟨last.tree, Function.update state.stores engine last.store, last.supply⟩
  | .restock engine store => { state with stores := Function.update state.stores engine store }

/-- The state after the turns of a history. -/
def run (engines : Nat → ProfileEngine) (turns : List (Turn S)) (start : SharedTree S) :
    SharedTree S :=
  turns.foldl (fun state turn => turn.perform engines state) start

/-- Each turn has a property in the state in which it is made. -/
def Throughout (engines : Nat → ProfileEngine) (property : SharedTree S → Turn S → Prop) :
    List (Turn S) → SharedTree S → Prop
  | [], _ => True
  | turn :: rest, state =>
    property state turn ∧ Throughout engines property rest (turn.perform engines state)

variable {engines : Nat → ProfileEngine} {start : SharedTree S}

theorem run_concat (turns : List (Turn S)) (turn : Turn S) :
    run engines (turns ++ [turn]) start = turn.perform engines (run engines turns start) := by
  rw [run, List.foldl_concat]
  rfl

theorem throughout_concat {property : SharedTree S → Turn S → Prop} {turns : List (Turn S)}
    {turn : Turn S} :
    Throughout engines property (turns ++ [turn]) start ↔
      Throughout engines property turns start ∧ property (run engines turns start) turn := by
  induction turns generalizing start with
  | nil =>
      simp [Throughout, run]
  | cons first turns inductionHypothesis =>
      rw [List.cons_append, Throughout, Throughout, inductionHypothesis, and_assoc]
      rfl

theorem throughout_and {first second : SharedTree S → Turn S → Prop} {turns : List (Turn S)} :
    Throughout engines (fun state turn => first state turn ∧ second state turn) turns start ↔
      Throughout engines first turns start ∧ Throughout engines second turns start := by
  induction turns generalizing start with
  | nil =>
      simp [Throughout]
  | cons turn turns inductionHypothesis =>
      simp only [Throughout, inductionHypothesis, and_assoc, and_left_comm]

theorem throughout_of_forall_mem {property : SharedTree S → Turn S → Prop}
    {turns : List (Turn S)} (each : ∀ turn ∈ turns, ∀ state, property state turn) :
    Throughout engines property turns start := by
  induction turns generalizing start with
  | nil =>
      exact trivial
  | cons turn turns inductionHypothesis =>
      exact ⟨each turn List.mem_cons_self start,
        inductionHypothesis fun later member => each later (List.mem_cons_of_mem turn member)⟩

/-- What every turn passes on holds at the end when it holds at the start. -/
theorem run_induction {property : SharedTree S → Turn S → Prop} {motive : SharedTree S → Prop}
    (step : ∀ state turn, property state turn → motive state → motive (turn.perform engines state))
    {turns : List (Turn S)} (throughout : Throughout engines property turns start)
    (initial : motive start) : motive (run engines turns start) := by
  induction turns generalizing start with
  | nil =>
      exact initial
  | cons turn turns inductionHypothesis =>
      exact inductionHypothesis throughout.2 (step start turn throughout.1 initial)

end Performing

/-- The edits add only nodes of a certain kind, and what they write in place is not seen in a view. -/
def Respects {α : Type} (added : Node → Prop) (view : Node → α) : Turn S → Prop
  | .edit change => change.AddsOnly added ∧ change.Spares view
  | _ => True

end Turn

end ContentTyping
