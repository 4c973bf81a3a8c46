/-
Descriptions: the condition that a query puts on a page, as a tree.

Every node carries the print requests that were attached to it. Containers
take over the requests of the children they absorb (`Description.Build`), so
a tree that was built by those operations has them at the outermost nodes
only; the type itself allows them anywhere.

Descriptions are compared field by field, print requests, flags and the
index of a disjunction's category list included; `induct` is the induction
principle over trees, one case for each kind of node.
-/
import InlineQuery.Comparator
import InlineQuery.Item
import InlineQuery.PrintRequest

namespace InlineQuery

/-- A condition on pages, with the print requests attached to it. -/
inductive Description
  /-- No condition at all. -/
  | thing (prints : List PrintRequest)
  /-- The page is, or has as a value of the property, an item that compares
  with the given one. -/
  | value (item : Item) (property : Option Property) (comparator : Comparator)
      (prints : List PrintRequest)
  /-- The page is in one of the categories, or in a subcategory of one if
  the hierarchy is expanded. -/
  | categories (pages : List Page) (hierarchy : Bool) (prints : List PrintRequest)
  /-- The page is in the namespace. -/
  | inNamespace (id : NamespaceId) (label : Text) (prints : List PrintRequest)
  /-- The page satisfies the query saved on a concept page. -/
  | concept (page : Page) (prints : List PrintRequest)
  /-- The page has a value of the property that satisfies a condition. -/
  | someProperty (property : Property) (inner : Description) (prints : List PrintRequest)
  /-- All of the conditions hold. -/
  | conjunction (children : List Description) (prints : List PrintRequest)
  /-- One of the conditions holds, or any page will do if `always`. All
  category lists among the children are merged into the one at
  `categoryIndex`. -/
  | disjunction (children : List Description) (categoryIndex : Option Nat) (always : Bool)
      (prints : List PrintRequest)

namespace Description

/-- A proof about all trees: each container may assume the statement of its
children, and a property condition of its inner condition. -/
theorem induct {P : Description → Prop}
    (thing : ∀ prints, P (.thing prints))
    (value : ∀ item property comparator prints, P (.value item property comparator prints))
    (categories : ∀ pages hierarchy prints, P (.categories pages hierarchy prints))
    (inNamespace : ∀ id label prints, P (.inNamespace id label prints))
    (concept : ∀ page prints, P (.concept page prints))
    (someProperty : ∀ property inner prints, P inner → P (.someProperty property inner prints))
    (conjunction : ∀ children prints, (∀ child ∈ children, P child) →
      P (.conjunction children prints))
    (disjunction : ∀ children categoryIndex always prints, (∀ child ∈ children, P child) →
      P (.disjunction children categoryIndex always prints))
    (d : Description) : P d :=
  d.rec (motive_2 := fun children => ∀ child ∈ children, P child)
    thing value categories inNamespace concept
    (fun property inner prints => someProperty property inner prints)
    (fun children prints => conjunction children prints)
    (fun children categoryIndex always prints =>
      disjunction children categoryIndex always prints)
    (fun _ h => nomatch h)
    (fun _ _ hHead hTail _ h => by
      rcases List.mem_cons.1 h with rfl | h
      · exact hHead
      · exact hTail _ h)

-- ========================================================= print requests

/-- The print requests attached to the root. -/
def prints : Description → List PrintRequest
  | .thing ps => ps
  | .value _ _ _ ps => ps
  | .categories _ _ ps => ps
  | .inNamespace _ _ ps => ps
  | .concept _ ps => ps
  | .someProperty _ _ ps => ps
  | .conjunction _ ps => ps
  | .disjunction _ _ _ ps => ps

/-- The same condition with other print requests at the root. -/
def withPrints (requests : List PrintRequest) : Description → Description
  | .thing _ => .thing requests
  | .value item property comparator _ => .value item property comparator requests
  | .categories pages hierarchy _ => .categories pages hierarchy requests
  | .inNamespace id label _ => .inNamespace id label requests
  | .concept page _ => .concept page requests
  | .someProperty property inner _ => .someProperty property inner requests
  | .conjunction children _ => .conjunction children requests
  | .disjunction children categoryIndex always _ =>
    .disjunction children categoryIndex always requests

/-- One more request, printed last. -/
def addPrint (request : PrintRequest) (d : Description) : Description :=
  d.withPrints (d.prints ++ [request])

/-- One more request, printed first. -/
def prependPrint (request : PrintRequest) (d : Description) : Description :=
  d.withPrints (request :: d.prints)

@[simp] theorem prints_withPrints (requests : List PrintRequest) (d : Description) :
    (d.withPrints requests).prints = requests := by
  cases d <;> rfl

@[simp] theorem withPrints_withPrints (first second : List PrintRequest) (d : Description) :
    (d.withPrints first).withPrints second = d.withPrints second := by
  cases d <;> rfl

@[simp] theorem withPrints_prints (d : Description) : d.withPrints d.prints = d := by
  cases d <;> rfl

-- ========================================================== kinds of nodes

/-- The node puts no condition on pages. -/
def isThing : Description → Bool
  | .thing _ => true
  | _ => false

/-- The node is a conjunction. -/
def isConjunction : Description → Bool
  | .conjunction _ _ => true
  | _ => false

/-- The node is a disjunction. -/
def isDisjunction : Description → Bool
  | .disjunction _ _ _ _ => true
  | _ => false

/-- The node is a property condition. -/
def isSomeProperty : Description → Bool
  | .someProperty _ _ _ => true
  | _ => false

/-- The children of a container; no other node has any. -/
def children : Description → List Description
  | .conjunction cs _ => cs
  | .disjunction cs _ _ _ => cs
  | _ => []

@[simp] theorem children_withPrints (requests : List PrintRequest) (d : Description) :
    (d.withPrints requests).children = d.children := by
  cases d <;> rfl

-- ================================================================ equality

mutual

/-- The two trees agree in every field of every node. -/
def same : Description → Description → Bool
  | .thing ps, .thing qs => ps == qs
  | .value i p c ps, .value j q d qs => i == j && p == q && c == d && ps == qs
  | .categories xs h ps, .categories ys k qs => xs == ys && h == k && ps == qs
  | .inNamespace i l ps, .inNamespace j m qs => i == j && l == m && ps == qs
  | .concept x ps, .concept y qs => x == y && ps == qs
  | .someProperty p d ps, .someProperty q e qs => p == q && same d e && ps == qs
  | .conjunction cs ps, .conjunction ds qs => sameAll cs ds && ps == qs
  | .disjunction cs i t ps, .disjunction ds j u qs =>
    sameAll cs ds && i == j && t == u && ps == qs
  | _, _ => false

/-- The two lists of trees agree, tree by tree. -/
def sameAll : List Description → List Description → Bool
  | [], [] => true
  | c :: cs, d :: ds => same c d && sameAll cs ds
  | _, _ => false

end

mutual

theorem same_iff : ∀ a b : Description, same a b = true ↔ a = b
  | .thing _, b => by cases b <;> simp [same]
  | .value _ _ _ _, b => by cases b <;> simp [same, and_assoc]
  | .categories _ _ _, b => by cases b <;> simp [same, and_assoc]
  | .inNamespace _ _ _, b => by cases b <;> simp [same, and_assoc]
  | .concept _ _, b => by cases b <;> simp [same]
  | .someProperty _ d _, b => by cases b <;> simp [same, and_assoc, same_iff d]
  | .conjunction cs _, b => by cases b <;> simp [same, sameAll_iff cs]
  | .disjunction cs _ _ _, b => by cases b <;> simp [same, and_assoc, sameAll_iff cs]

theorem sameAll_iff : ∀ as bs : List Description, sameAll as bs = true ↔ as = bs
  | [], bs => by cases bs <;> simp [sameAll]
  | c :: cs, bs => by cases bs <;> simp [sameAll, same_iff c, sameAll_iff cs]

end

instance : DecidableEq Description := fun a b => decidable_of_iff _ (same_iff a b)

end Description

end InlineQuery
