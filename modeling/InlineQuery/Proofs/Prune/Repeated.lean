/-
Limits need not be applied twice.

What is left of a tree fits the budget that it was cut to, and every looser
one. That alone does not keep a second run from touching it: a container of
one child is replaced by the child whatever the budget, and one whose children
cost nothing is dropped where nothing is left of the size. So the containers
of a pruned tree have to branch (`branching_prune`), and then the second run
finds a tree that it covers (`prune_of_covers`).

# Remnants

Putting a container together again takes apart what became of its children,
which may be containers that were unwrapped or cut. `Remnant` is what the
induction carries through this: either nothing is left of a condition, or it
still costs something and all of its containers branch. A container is built
of remnants, and those of which nothing is left are not among its children.

A child that costs nothing is the one thing that has to be excluded, since
such a child can be all that is left of a container.
-/
import InlineQuery.Proofs.Prune.Reported

namespace InlineQuery

namespace Description

variable {d : Description}

-- ================================================================= remnants

/-- Every child of the node costs something. -/
def Charges (node : Description) : Prop := ∀ child ∈ node.children, 0 < child.size

instance (node : Description) : Decidable node.Charges :=
  inferInstanceAs (Decidable (∀ child ∈ node.children, 0 < child.size))

/-- No container in the tree has a child that costs nothing. -/
def Charging (d : Description) : Prop := d.Throughout Charges

/-- Nothing is left of a condition, or a tree that costs something and whose
containers branch. -/
def Remnant (d : Description) : Prop := d.isThing = true ∨ (d.Branching ∧ 0 < d.size)

theorem Branching.withPrints (h : d.Branching) (requests : List PrintRequest) :
    (d.withPrints requests).Branching := by
  refine Throughout.withPrints h (fun node requests hnode => ?_) requests
  unfold Branches
  rw [children_withPrints]
  exact hnode

/-- All children of a container that branches cost something. -/
theorem Branching.size_pos (h : d.Branching) {child : Description}
    (hchild : child ∈ d.children) : 0 < child.size := by
  obtain hnil | ⟨-, hpos⟩ := h d .root
  · rw [hnil] at hchild
    cases hchild
  · exact hpos child hchild

theorem Remnant.withPrints (h : d.Remnant) (requests : List PrintRequest) :
    (d.withPrints requests).Remnant := by
  obtain hthing | ⟨hbranching, hpos⟩ := h
  · exact .inl (by rwa [isThing_withPrints])
  · exact .inr ⟨hbranching.withPrints requests, by rwa [size_withPrints]⟩

/-- What is left of a container hands down to its children that they are
remnants. -/
theorem Remnant.of_mem_children (h : d.Remnant) {child : Description}
    (hchild : child ∈ d.children) : child.Remnant := by
  obtain hthing | ⟨hbranching, -⟩ := h
  · cases d with
    | thing => cases hchild
    | _ => cases hthing
  · exact .inr ⟨Throughout.of_mem_children hbranching hchild, hbranching.size_pos hchild⟩

theorem remnant_of_leaf (hproperty : d.isSomeProperty = false) (hchildren : d.children = [])
    (hpos : 0 < d.size) : d.Remnant :=
  .inr ⟨(throughout_leaf hproperty hchildren).2 (.inl hchildren), hpos⟩

theorem conjunctHeritable_remnant : ConjunctHeritable Remnant where
  withPrints _ requests h := h.withPrints requests
  children _ _ h _ hchild := h.of_mem_children hchild

/-- Two category lists that cost something do so as one, whether it is
counted by its length or not. -/
theorem disjunctHeritable_remnant : DisjunctHeritable Remnant where
  withPrints _ requests h := h.withPrints requests
  children _ _ _ _ h _ hchild := h.of_mem_children hchild
  merge xs h ps ys k qs hxs hys := by
    obtain hthing | ⟨-, hpos⟩ := hxs
    · cases hthing
    · refine remnant_of_leaf rfl rfl ?_
      simp only [size, List.length_append] at hpos ⊢
      cases h <;> cases k <;> simp at hpos ⊢
      omega

/-- A container of several remnants branches. -/
theorem IsContainer.branching_of_remnants (h : IsContainer d) (hlength : 2 ≤ d.children.length)
    (hchildren : ∀ child ∈ d.children, child.Branching ∧ 0 < child.size) : d.Branching :=
  h.throughout_iff.2 ⟨.inr ⟨hlength, fun child hchild => (hchildren child hchild).2⟩,
    fun child hchild => (hchildren child hchild).1⟩

/-- A container that is empty has nothing to branch. -/
theorem IsContainer.branching_of_children_eq_nil (h : IsContainer d) (hnil : d.children = []) :
    d.Branching := by
  refine h.throughout_iff.2 ⟨.inl hnil, ?_⟩
  rw [hnil]
  exact List.forall_mem_nil _

-- ============================================================ pruned trees

/-- A container put together again of remnants is one, whichever way out is
taken. -/
theorem remnant_pruneContainer {rebuilt : Description} (hkind : IsContainer rebuilt)
    (hrebuilt : rebuilt.WellFormed) (hchildren : ∀ child ∈ rebuilt.children, child.Remnant)
    (d : Description) (budget : Budget) (pruned : PrunedChildren) :
    (pruneContainer d rebuilt budget pruned).description.Remnant := by
  have hkept : ∀ child ∈ rebuilt.children, child.Branching ∧ 0 < child.size := by
    intro child hchild
    refine (hchildren child hchild).resolve_left fun hthing => ?_
    rw [hrebuilt.isThing_eq_false hchild] at hthing
    cases hthing
  refine pruneContainer_induct (fun _ _ => .inl rfl) (fun child hsingle => ?_)
    (fun hlength => ?_) (fun _ requests hx => hx.withPrints requests) d budget pruned
  · exact .inr (hkept child (hsingle ▸ List.mem_singleton_self child))
  · have hbranching := hkind.branching_of_remnants hlength hkept
    have hne : rebuilt.children ≠ [] := List.ne_nil_of_length_pos (by omega)
    have hpos : 0 < rebuilt.size := by
      rw [hkind.size_eq]
      exact hbranching.sizeAll_pos hne
    exact .inr ⟨hbranching, hpos⟩

theorem remnant_drop (d : Description) (left : Budget) : (d.drop left).description.Remnant :=
  .inl rfl

theorem remnant_pruneCategories {pages : List Page} (hpages : pages ≠ []) (hierarchy : Bool)
    (ps : List PrintRequest) (budget : Budget) :
    (pruneCategories pages hierarchy ps budget).description.Remnant := by
  have hlist {pages : List Page} (hpages : pages ≠ []) :
      (categories pages hierarchy ps).Remnant := by
    refine remnant_of_leaf rfl rfl ?_
    have := List.length_pos_iff.2 hpages
    rw [size]
    split <;> omega
  unfold pruneCategories
  dsimp only
  split
  · exact hlist hpages
  · split
    · exact remnant_drop _ budget
    · next hzero => exact hlist (by simp [List.take_eq_nil_iff, hzero, hpages])

/-- What pruning makes of a tree branches; and something that costs nothing
is only made of a tree that costs nothing, or it is no condition at all. -/
theorem branching_prune (hd : d.WellFormed) (hcharging : d.Charging) (budget : Budget) :
    (prune budget d).description.Branching ∧
      (0 < d.size → (prune budget d).description.Remnant) := by
  have hthing (ps : List PrintRequest) : (thing ps).Branching :=
    (throughout_leaf rfl rfl).2 (.inl rfl)
  have hremnant {x : Description} (h : x.Remnant) : x.Branching := by
    obtain h | h := h
    · cases x with
      | thing ps => exact hthing ps
      | _ => cases h
    · exact h.1
  induction d using prune_induct generalizing budget with
  | thing ps => exact ⟨hthing ps, fun _ => .inl rfl⟩
  | elementary d hkind =>
    have hleaf : d.Remnant := by
      have hpos : 0 < d.size := by rw [hkind.size_eq]; exact Nat.one_pos
      cases d <;> first | exact remnant_of_leaf rfl rfl hpos | cases hkind
    have hpruned : (prune budget d).description.Remnant := by
      rw [prune_elementary hkind, keepOrDrop]
      split
      · exact hleaf
      · exact remnant_drop d budget
    exact ⟨hremnant hpruned, fun _ => hpruned⟩
  | categories pages hierarchy ps =>
    cases hd with
    | categories _ _ hpages =>
      have hpruned := remnant_pruneCategories hpages hierarchy ps budget
      exact ⟨hremnant hpruned, fun _ => hpruned⟩
  | someProperty property inner ps ih =>
    have hpruned : (prune budget (.someProperty property inner ps)).description.Remnant := by
      rw [prune]
      split
      · exact remnant_drop _ budget
      · cases hd with
        | someProperty _ _ hinner =>
          have hbranching := (ih hinner (throughout_someProperty.1 hcharging).2
            ⟨budget.size - 1, budget.depth - 1⟩).1
          refine .inr ⟨throughout_someProperty.2 ⟨.inl rfl, hbranching⟩, ?_⟩
          rw [size]
          exact Nat.add_pos_left Nat.one_pos _
    exact ⟨hremnant hpruned, fun _ => hpruned⟩
  | container d hkind ih =>
    rw [prune_container hkind]
    split
    · next hempty =>
      -- left as it is, and the one case in which something may cost nothing
      have hnil : d.children = [] := by simpa using hempty
      have hsize : d.size = 0 := by rw [hkind.size_eq, hnil, sizeAll]
      exact ⟨hkind.branching_of_children_eq_nil hnil, fun hpos => by omega⟩
    · split
      · exact ⟨hthing d.prints, fun _ => .inl rfl⟩
      · have hchildren := forall_pruneAll (fun child hchild budget =>
          (ih child hchild (hd.of_mem_children hchild) (hcharging.of_mem_children hchild)
            budget).2 (hcharging d .root child hchild)) budget.depth budget
        have hwellFormed := forall_pruneAll (fun child hchild =>
          wellFormed_prune (hd.of_mem_children hchild)) budget.depth budget
        have hrebuilt := hkind.forall_rebuild conjunctHeritable_remnant disjunctHeritable_remnant
          hchildren
        have hpruned := remnant_pruneContainer (hkind.isContainer_rebuild _)
          (hkind.wellFormed_rebuild hwellFormed) hrebuilt d budget
          (pruneAll budget.depth budget d.children)
        exact ⟨hremnant hpruned, fun _ => hpruned⟩

-- ============================================================== a second run

/-- **Applying limits again changes nothing.** What is left of a well-formed
tree in which every child of a container costs something is left alone at any
budget that is no smaller than the one it was cut to; it is paid for exactly,
and nothing is reported. A query whose limits were applied therefore stays as
it is, what was dropped from it included, under the same limits and under
looser ones. -/
theorem prune_idempotent (hd : d.WellFormed) (hcharging : d.Charging) {budget looser : Budget}
    (hsize : budget.size ≤ looser.size) (hdepth : budget.depth ≤ looser.depth) :
    prune looser (prune budget d).description =
        ⟨(prune budget d).description, looser.after (prune budget d).description, []⟩ ∧
      ∀ q : Query, q.description = d →
        (q.applyLimits budget.size budget.depth).applyLimits looser.size looser.depth =
          q.applyLimits budget.size budget.depth := by
  have hpaid := prune_paidFrom d budget
  have hcovers : looser.Covers (prune budget d).description :=
    ⟨Nat.le_trans (Nat.le_trans (Nat.le_add_right _ _) hpaid.size) hsize,
      Nat.le_trans (Nat.le_trans (Nat.le_add_right _ _) hpaid.depth) hdepth⟩
  have hagain := prune_of_covers (wellFormed_prune hd budget) (branching_prune hd hcharging budget).1
    hcovers
  refine ⟨hagain, fun q hq => ?_⟩
  subst hq
  show Query.mk (prune looser (prune budget q.description).description).description _
    (_ ++ (prune looser (prune budget q.description).description).dropped) = _
  rw [hagain, List.append_nil]
  rfl

/-- A disjunction of one conjunction is unwrapped and absorbed, and a property
condition is cut off; at a larger depth the second run finds what the first one
left. -/
theorem prune_idempotent_unwrapped :
    let property : Property := ⟨"Located in".toList, false⟩
    let asia := value (.page (Page.main "Asia".toList)) (some property) .equal []
    let old := concept (Page.concept "Old".toList) []
    let help := inNamespace 12 "Help".toList []
    let either := disjunction [conjunction [old, help] []] none false []
    let d := conjunction [either, someProperty property asia []] []
    let kept := conjunction [old, help] []
    let q : Query := ⟨d, [], []⟩
    ((d.WellFormed ∧ d.Charging) ∧ 4 ≤ 5 ∧ 0 ≤ 1) ∧
      (prune ⟨4, 0⟩ d).description = kept ∧ prune ⟨5, 1⟩ kept = ⟨kept, ⟨3, 1⟩, []⟩ ∧
      (q.applyLimits 4 0).applyLimits 5 1 = q.applyLimits 4 0 := by
  intro property asia old help either d kept q
  have hboth : (allOf [old, help]).WellFormed :=
    wellFormed_allOf (List.forall_mem_cons.2 ⟨.concept _ _,
      List.forall_mem_singleton.2 (.inNamespace _ _ _)⟩)
  have heither : either.WellFormed := by
    show (anyOf [allOf [old, help]]).WellFormed
    exact wellFormed_anyOf (List.forall_mem_singleton.2 hboth)
  have hd : d.WellFormed := by
    show (allOf [either, someProperty property asia []]).WellFormed
    exact wellFormed_allOf (List.forall_mem_cons.2 ⟨heither,
      List.forall_mem_singleton.2 (.someProperty _ _ (.value _ _ _ _))⟩)
  have hleaf {x : Description} (hproperty : x.isSomeProperty = false) (hnil : x.children = []) :
      x.Charging :=
    (throughout_leaf hproperty hnil).2 fun c hc => by rw [hnil] at hc; cases hc
  have hcharging : d.Charging := by
    refine throughout_conjunction.2 ⟨by decide, List.forall_mem_cons.2 ⟨?_,
      List.forall_mem_singleton.2 ?_⟩⟩
    · refine throughout_disjunction.2 ⟨by decide, List.forall_mem_singleton.2 ?_⟩
      exact throughout_conjunction.2 ⟨by decide, List.forall_mem_cons.2 ⟨hleaf rfl rfl,
        List.forall_mem_singleton.2 (hleaf rfl rfl)⟩⟩
    · exact throughout_someProperty.2 ⟨by decide, hleaf rfl rfl⟩
  have hsize : (Budget.mk 4 0).size ≤ (Budget.mk 5 1).size := by decide
  have hdepth : (Budget.mk 4 0).depth ≤ (Budget.mk 5 1).depth := by decide
  obtain ⟨hagain, hquery⟩ := prune_idempotent hd hcharging hsize hdepth
  exact ⟨⟨⟨hd, hcharging⟩, by decide, by decide⟩, rfl, hagain, hquery q rfl⟩

end Description

end InlineQuery
