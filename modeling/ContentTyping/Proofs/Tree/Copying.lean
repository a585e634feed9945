import Mathlib.Data.Set.Function
import Mathlib.Order.Interval.Set.Basic
import ContentTyping.Proofs.Tree.Growth

/-!
# Copying subtrees

A copy is made node by node, each time as a new last child of a node that is there. So what is kept
when one copied node is added is kept by the whole copying, whether it comes to its end or not.
-/

namespace ContentTyping.ContentTree

variable {tree : ContentTree}

namespace Copying

/-- The state after a copy of one node was put below the target. -/
def withCopy (state : Copying) (target : NodeId) (node : Node) : Copying :=
  ⟨state.tree.withChild target { node with identifier := state.supply.draw.1, object := none },
    state.supply.draw.2⟩

/-- The names that are handed out before the bound is reached differ from each other and from the
identifiers in the index. -/
structure FreshUpTo (state : Copying) (bound : Nat) : Prop where
  distinct : Set.InjOn state.supply.name (Set.Ico state.supply.used bound)
  unindexed : ∀ turn ∈ Set.Ico state.supply.used bound,
    state.tree.index.contains (state.supply.name turn) = false

theorem freshUpTo_iff {state : Copying} {bound : Nat} :
    state.FreshUpTo bound ↔
      (∀ first < bound, ∀ second < bound, state.supply.used ≤ first →
        state.supply.used ≤ second → state.supply.name first = state.supply.name second →
        first = second) ∧
      ∀ turn < bound, state.supply.used ≤ turn →
        state.tree.index.contains (state.supply.name turn) = false := by
  constructor
  · intro fresh
    constructor
    · intro first firstBefore second secondBefore firstLater secondLater sameName
      exact fresh.distinct ⟨firstLater, firstBefore⟩ ⟨secondLater, secondBefore⟩ sameName
    · intro turn before later
      exact fresh.unindexed turn ⟨later, before⟩
  · rintro ⟨distinct, unindexed⟩
    constructor
    · intro first firstDrawn second secondDrawn sameName
      exact distinct first firstDrawn.2 second secondDrawn.2 firstDrawn.1 secondDrawn.1 sameName
    · intro turn drawn
      exact unindexed turn drawn.2 drawn.1

instance (state : Copying) (bound : Nat) : Decidable (state.FreshUpTo bound) :=
  decidable_of_iff _ freshUpTo_iff.symm

theorem FreshUpTo.withCopy {state : Copying} {bound : Nat} (fresh : state.FreshUpTo bound)
    (unused : state.supply.used < bound) (target : NodeId) (node : Node) :
    (state.withCopy target node).FreshUpTo bound where
  distinct := by
    refine fresh.distinct.mono fun turn handedOut => ?_
    exact ⟨Nat.le_of_succ_le handedOut.1, handedOut.2⟩
  unindexed turn handedOut := by
    have later : turn ∈ Set.Ico state.supply.used bound :=
      ⟨Nat.le_of_succ_le handedOut.1, handedOut.2⟩
    have isNew : state.supply.name state.supply.used ≠ state.supply.name turn := by
      intro sameName
      have sameTurn := fresh.distinct ⟨Nat.le_refl _, unused⟩ later sameName
      have after : state.supply.used < turn := handedOut.1
      omega
    have otherName : compare (state.supply.name state.supply.used) (state.supply.name turn) ≠ .eq :=
      fun equal => isNew (Std.LawfulEqCmp.eq_of_compare equal)
    have notBefore := fresh.unindexed turn later
    simp [Copying.withCopy, index_withChild, Supply.draw, Std.ExtTreeMap.contains_insert,
      otherName, notBefore]

end Copying

/-! ## Node by node -/

theorem copyEach_induction {motive : Copying → Prop}
    {copyOne : NodeId → Copying → Except Error NodeId × Copying}
    (step : ∀ source state, motive state → motive (copyOne source state).2)
    (sources : List NodeId) {state : Copying} (initial : motive state) :
    motive (copyEach copyOne sources state).2 := by
  induction sources generalizing state with
  | nil =>
      exact initial
  | cons source rest inductionHypothesis =>
      have next := step source state initial
      rw [copyEach]
      split
      next copied =>
          rw [copied] at next
          exact inductionHypothesis next
      next failed =>
          rw [failed] at next
          exact next

theorem copyBelow_succ {originals : List NodeId} {steps : Nat} {target source : NodeId}
    {state : Copying} {node : Node} (found : state.tree.get? source = some node) :
    (copyBelow originals (steps + 1) target source state).2 =
      (copyEach (copyBelow originals steps ⟨state.tree.nodes.size⟩)
        (node.children.filter (originals.contains ·)) (state.withCopy target node)).2 := by
  rw [copyBelow, found]
  simp only [Copying.withCopy, withChild, ContentTree.insert]
  split
  next copied => rw [copied]
  next failed => rw [failed]

/-- What passes on when one copied node is added passes on when a subtree is copied, and no node
is lost. -/
theorem copyBelow_induction {motive : Copying → Prop}
    (step : ∀ (state : Copying) target source node, state.tree.contains target = true →
      state.tree.get? source = some node → motive state → motive (state.withCopy target node))
    (originals : List NodeId) (steps : Nat) {target source : NodeId} {state : Copying}
    (live : state.tree.contains target = true) (initial : motive state) :
    motive (copyBelow originals steps target source state).2 ∧
      ∀ id, state.tree.contains id = true →
        (copyBelow originals steps target source state).2.tree.contains id = true := by
  induction steps generalizing target source state with
  | zero =>
      exact ⟨initial, fun _ idLive => idLive⟩
  | succ steps inductionHypothesis =>
      cases found : state.tree.get? source with
      | none =>
          rw [copyBelow, found]
          exact ⟨initial, fun _ idLive => idLive⟩
      | some node =>
          let grown := state.withCopy target node
          have grownContains : ∀ id, grown.tree.contains id = true ↔
              id = ⟨state.tree.nodes.size⟩ ∨ state.tree.contains id = true :=
            fun id => contains_withChild live _ id
          -- The loop over the children keeps the copy of this node, below which it puts the others.
          have keepsBoth : ∀ next later,
              (motive later ∧ ∀ id, grown.tree.contains id = true →
                later.tree.contains id = true) →
              motive (copyBelow originals steps ⟨state.tree.nodes.size⟩ next later).2 ∧
                ∀ id, grown.tree.contains id = true →
                  (copyBelow originals steps ⟨state.tree.nodes.size⟩ next later).2.tree.contains
                    id = true := by
            rintro next later ⟨holds, kept⟩
            have copyLive := kept ⟨state.tree.nodes.size⟩ ((grownContains _).2 (.inl rfl))
            obtain ⟨nextHolds, nextKept⟩ := inductionHypothesis copyLive holds
            exact ⟨nextHolds, fun id idLive => nextKept id (kept id idLive)⟩
          have grownHolds : motive grown := step state target source node live found initial
          have all := copyEach_induction
            (motive := fun later => motive later ∧
              ∀ id, grown.tree.contains id = true → later.tree.contains id = true)
            keepsBoth (node.children.filter (originals.contains ·))
            ⟨grownHolds, fun _ idLive => idLive⟩
          rw [copyBelow_succ found]
          exact ⟨all.1, fun id idLive => all.2 id ((grownContains id).2 (.inr idLive))⟩

theorem copySubtree_induction {motive : Copying → Prop}
    (step : ∀ (state : Copying) target source node, state.tree.contains target = true →
      state.tree.get? source = some node → motive state → motive (state.withCopy target node))
    {supply : Supply} (initial : motive ⟨tree, supply⟩) (id newParent : NodeId) :
    motive (tree.copySubtree supply id newParent).2 := by
  rw [copySubtree]
  split
  · exact initial
  · exact initial
  next targetFound =>
      have live : tree.contains newParent = true := contains_iff.2 ⟨_, targetFound⟩
      exact (copyBelow_induction step _ _ live initial).1

/-! ## What is kept -/

theorem used_copySubtree (supply : Supply) (id newParent : NodeId) :
    supply.used ≤ (tree.copySubtree supply id newParent).2.supply.used := by
  apply copySubtree_induction (motive := fun state => supply.used ≤ state.supply.used)
  · intro state target source node _ _ bound
    exact Nat.le_succ_of_le bound
  · exact Nat.le_refl _

theorem name_copySubtree (supply : Supply) (id newParent : NodeId) :
    (tree.copySubtree supply id newParent).2.supply.name = supply.name := by
  apply copySubtree_induction (motive := fun state => state.supply.name = supply.name)
  · intro state target source node _ _ same
    exact same
  · rfl

/-- Copying leaves the links of the tree in order, finished or not, when the names that it draws
are new. -/
theorem WellFormed.copySubtree (wellFormed : tree.WellFormed) {supply : Supply}
    {id newParent : NodeId}
    (fresh : (Copying.mk tree supply).FreshUpTo
      (tree.copySubtree supply id newParent).2.supply.used) :
    (tree.copySubtree supply id newParent).2.tree.WellFormed := by
  generalize isBound : (tree.copySubtree supply id newParent).2.supply.used = bound at fresh
  -- Names are known to be new up to the bound only, so what is passed on depends on the count.
  have grow : ∀ (state : Copying) target source node, state.tree.contains target = true →
      state.tree.get? source = some node →
      (state.supply.used ≤ bound → state.tree.WellFormed ∧ state.FreshUpTo bound) →
      (state.withCopy target node).supply.used ≤ bound →
      (state.withCopy target node).tree.WellFormed ∧
        (state.withCopy target node).FreshUpTo bound := by
    intro state target source node live _ before drawn
    have unused : state.supply.used < bound := drawn
    obtain ⟨stateWellFormed, stateFresh⟩ := before (Nat.le_of_lt unused)
    have isNew := stateFresh.unindexed state.supply.used ⟨Nat.le_refl _, unused⟩
    exact ⟨stateWellFormed.withChild live isNew, stateFresh.withCopy unused target node⟩
  have initial : (Copying.mk tree supply).supply.used ≤ bound →
      (Copying.mk tree supply).tree.WellFormed ∧ (Copying.mk tree supply).FreshUpTo bound :=
    fun _ => ⟨wellFormed, fresh⟩
  have sound := copySubtree_induction
    (motive := fun state => state.supply.used ≤ bound →
      state.tree.WellFormed ∧ state.FreshUpTo bound) grow initial id newParent
  exact (sound (Nat.le_of_eq isBound)).1

end ContentTyping.ContentTree
