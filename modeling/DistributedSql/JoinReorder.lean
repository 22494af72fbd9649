/-
Join reordering (`CostBasedOptimizer._reorder_region` in `optimizer/cbo.py`).

A region is a tree of inner joins.  The search keeps, for each set of its leaves, the
cheapest plan found for them, and puts a conjunct of the conditions at the join whose two
sides it crosses.  A conjunct whose sources all lie in one leaf crosses no join: the guard
asks for two sources where it should ask for two leaves, and the conjunct is lost.

Main results:
* `search_built` — every plan of the table is built of the leaves at its mask;
* `SearchInput.built_conjuncts` — the conjuncts in such a plan are those that span its leaves;
* `conserves_iff` — leaves and conjuncts are conserved exactly when no conjunct of the
  region lies in one leaf.
-/
import DistributedSql.CostEstimation
import DistributedSql.PredicatePushdown
import DistributedSql.Submasks

namespace DistributedSql

/-! ### The region -/

/-- `_NONDETERMINISTIC_FUNCTIONS`. -/
def nondeterministicFunctions : List String :=
  ["current_date", "current_timestamp", "now", "random", "rand", "uuid"]

def Expression.callsNondeterministic (py : Python) : Expression → Bool
  | .scalarFunction name _ _ => py.casefold name ∈ nondeterministicFunctions
  | _ => false

/-- `is_deterministic`. -/
def Expression.isDeterministic (py : Python) (expression : Expression) : Bool :=
  !expression.walk.any (callsNondeterministic py)

/-- The two sides and the condition of a join. -/
structure RegionJoin where
  left : LogicalPlan
  right : LogicalPlan
  condition : Expression

namespace LogicalPlan

def nodeId : LogicalPlan → String
  | .scan nodeId _ _ _ => nodeId
  | .project nodeId _ _ _ => nodeId
  | .filter nodeId _ _ _ _ => nodeId
  | .aggregate nodeId _ _ _ _ => nodeId
  | .join nodeId _ _ _ _ _ _ _ => nodeId
  | .limit nodeId _ _ _ => nodeId
  | .order nodeId _ _ _ => nodeId
  | .window nodeId _ _ _ => nodeId
  | .groupingSets nodeId _ _ _ _ => nodeId

/-- The `leaves` of `flatten`. -/
def regionLeaves (py : Python) : LogicalPlan → List LogicalPlan
  | .join nodeId left right joinType condition schema inputLimit buildSide =>
      if joinType = .inner ∧ condition.isDeterministic py = true then
        left.regionLeaves py ++ right.regionLeaves py
      else [.join nodeId left right joinType condition schema inputLimit buildSide]
  | plan => [plan]

/-- The joins that `flatten` takes apart, in the order it takes their conditions. -/
def regionJoins (py : Python) : LogicalPlan → List RegionJoin
  | .join _ left right joinType condition _ _ _ =>
      if joinType = .inner ∧ condition.isDeterministic py = true then
        left.regionJoins py ++ right.regionJoins py ++ [⟨left, right, condition⟩]
      else []
  | _ => []

/-- The `predicates` of `flatten`. -/
def regionConjuncts (py : Python) (plan : LogicalPlan) : List Expression :=
  (plan.regionJoins py).flatMap (·.condition.splitConjuncts)

/-- The root of a region. -/
def isInnerJoin : LogicalPlan → Bool
  | .join _ _ _ joinType _ _ _ _ => joinType = .inner
  | _ => false

end LogicalPlan

/-- The guards of `_reorder_region`. -/
structure Reorderable (py : Python) (root : LogicalPlan) : Prop where
  inner : root.isInnerJoin = true
  three : 3 ≤ (root.regionLeaves py).length
  sources : ∀ leaf ∈ root.regionLeaves py, leaf.sources py ≠ []
  disjoint : ((root.regionLeaves py).flatMap (·.sources py)).dedup.length =
    ((root.regionLeaves py).map fun leaf => (leaf.sources py).dedup.length).sum
  predicates : ∀ predicate ∈ root.regionConjuncts py,
    predicate.isDeterministic py = true ∧ 2 ≤ (predicate.sources py).dedup.length

instance (py : Python) (root : LogicalPlan) : Decidable (Reorderable py root) :=
  decidable_of_iff (root.isInnerJoin = true ∧ 3 ≤ (root.regionLeaves py).length ∧
      (∀ leaf ∈ root.regionLeaves py, leaf.sources py ≠ []) ∧
      ((root.regionLeaves py).flatMap (·.sources py)).dedup.length =
        ((root.regionLeaves py).map fun leaf => (leaf.sources py).dedup.length).sum ∧
      ∀ predicate ∈ root.regionConjuncts py,
        predicate.isDeterministic py = true ∧ 2 ≤ (predicate.sources py).dedup.length)
    ⟨fun ⟨inner, three, sources, disjoint, predicates⟩ =>
        ⟨inner, three, sources, disjoint, predicates⟩,
      fun h => ⟨h.inner, h.three, h.sources, h.disjoint, h.predicates⟩⟩

/-! ### A join of the search -/

/-- The test of `_crossing_predicates` on the sources of both sides. -/
def Crosses (py : Python) (left right : List String) (predicate : Expression) : Prop :=
  predicate.sources py ⊆ left ++ right ∧ (∃ source ∈ predicate.sources py, source ∈ left) ∧
    ∃ source ∈ predicate.sources py, source ∈ right

instance (py : Python) (left right : List String) (predicate : Expression) :
    Decidable (Crosses py left right predicate) :=
  inferInstanceAs (Decidable (_ ∧ _ ∧ _))

/-- `_crossing_predicates`. -/
def crossingPredicates (py : Python) (predicates : List Expression) (left right : LogicalPlan) :
    List Expression :=
  predicates.filter fun predicate => Crosses py (left.sources py) (right.sources py) predicate

/-- `_qualified_fields`. -/
def qualifiedFields : LogicalPlan → Schema
  | .scan _ _ tableAlias schema => schema.map fun field =>
      if '.' ∈ field.name.toList then field
      else { field with name := tableAlias ++ "." ++ field.name }
  | plan => plan.outputSchema

/-- `_join_schema`. -/
def joinSchema (left right : LogicalPlan) : Schema := qualifiedFields left ++ qualifiedFields right

/-- The join of two plans by the predicates across them, if there are any. -/
def reorderedJoin (py : Python) (predicates : List Expression) (left right : LogicalPlan) :
    Option LogicalPlan :=
  match crossingPredicates py predicates left right with
  | [] => none
  | first :: rest =>
      let sources := (left.sources py ++ right.sources py).dedup.mergeSort (· ≤ ·)
      some (.join ("cbo_join_" ++ String.intercalate "_" sources) left right .inner
        (Expression.combineConjuncts first rest) (joinSchema left right) none .right)

/-! ### The text of a plan -/

/-- `join_type` -/
def JoinType.value : JoinType → String
  | .inner => "inner"
  | .left => "left"
  | .right => "right"
  | .full => "full"

/-- The first line of a plan's text, and the texts of its children. -/
def planLines (indent : ℕ) (line : String) (children : List String) : String :=
  String.intercalate "\n" ((String.join (List.replicate indent "  ") ++ line) :: children)

/-- `plan_text`. -/
def LogicalPlan.planText (py : Python) (indent : ℕ) : LogicalPlan → String
  | .scan nodeId tableName tableAlias _ =>
      planLines indent ("Scan#" ++ nodeId ++ "[" ++ tableName ++ " AS " ++ tableAlias ++ "]") []
  | .project nodeId input expressions _ =>
      planLines indent
        ("Project#" ++ nodeId ++ "[" ++ String.intercalate ", " (expressions.map (·.name)) ++ "]")
        [input.planText py (indent + 1)]
  | .filter nodeId input predicate _ _ =>
      planLines indent ("Filter#" ++ nodeId ++ "[" ++ predicate.sql py ++ "]")
        [input.planText py (indent + 1)]
  | .aggregate nodeId input groupBy _ _ =>
      planLines indent
        ("Aggregate#" ++ nodeId ++ "[group="
          ++ String.intercalate ", " (groupBy.map (Expression.sql py)) ++ "]")
        [input.planText py (indent + 1)]
  | .join nodeId left right joinType condition _ inputLimit _ =>
      planLines indent
        ("Join#" ++ nodeId ++ "[" ++ joinType.value ++ ", " ++ condition.sql py
          ++ (match inputLimit with
            | none => ""
            | some hint => ", input_limit=" ++ toString hint) ++ "]")
        [left.planText py (indent + 1), right.planText py (indent + 1)]
  | .limit nodeId input count _ =>
      planLines indent ("Limit#" ++ nodeId ++ "[" ++ toString count ++ "]")
        [input.planText py (indent + 1)]
  | .order nodeId input orderBy _ =>
      planLines indent
        ("Order#" ++ nodeId ++ "[" ++ String.intercalate ", " (Expression.sqlOrder py
          (orderBy.map fun item => (item.expression, item.ascending, item.nullsFirst))) ++ "]")
        [input.planText py (indent + 1)]
  | .window nodeId input _ _ =>
      planLines indent ("Window#" ++ nodeId) [input.planText py (indent + 1)]
  | .groupingSets nodeId input _ _ _ =>
      planLines indent ("GroupingSets#" ++ nodeId) [input.planText py (indent + 1)]

/-! ### The search -/

/-- `best`: the cheapest plan found for a set of leaves, by its mask. -/
abbrev SearchTable : Type := Dict ℕ (LogicalPlan × CostedEstimate)

section Search

variable (py : Python) (estimate : LogicalPlan → Except PyError CostedEstimate)
  (predicates : List Expression)

/-- The join of the plans for a submask and for the rest of the mask.  The lowest bit of the mask,
`mask & -mask`, has to be on the left. -/
def candidateAt (best : SearchTable) (mask leftMask : ℕ) :
    Except PyError (Option (LogicalPlan × CostedEstimate)) :=
  let rightMask := mask ^^^ leftMask
  let anchor := (Int.land mask (-mask)).toNat
  if rightMask ≠ 0 ∧ leftMask &&& anchor ≠ 0 then
    match best.get? leftMask, best.get? rightMask with
    | some (left, _), some (right, _) =>
        match reorderedJoin py predicates left right with
        | some join => do return some (join, ← estimate join)
        | none => .ok none
    | _, _ => .ok none
  else .ok none

def candidates (best : SearchTable) (mask : ℕ) :
    Except PyError (List (LogicalPlan × CostedEstimate)) := do
  let found ← (Submasks.submasks mask ((mask - 1) &&& mask)).mapM
    (candidateAt py estimate predicates best mask)
  return found.reduceOption

/-- The key of an item is smaller. -/
def cheaper (item other : LogicalPlan × CostedEstimate) : Bool :=
  item.2.cost.total < other.2.cost.total
    || item.2.cost.total = other.2.cost.total && item.1.planText py 0 < other.1.planText py 0

/-- `min(candidates, key=…)`, the first of the smallest. -/
def cheapest : List (LogicalPlan × CostedEstimate) → Option (LogicalPlan × CostedEstimate)
  | [] => none
  | first :: rest =>
      some (rest.foldl (fun best item => if cheaper py item best then item else best) first)

/-- The body of the loop over the sets of leaves. -/
def improve (best : SearchTable) (mask : ℕ) : Except PyError SearchTable := do
  return match cheapest py (← candidates py estimate predicates best mask) with
    | some item => best.set mask item
    | none => best

/-- `itertools.combinations`. -/
def combinations {α : Type} : ℕ → List α → List (List α)
  | 0, _ => [[]]
  | _ + 1, [] => []
  | size + 1, a :: l => (combinations size l).map (a :: ·) ++ combinations (size + 1) l

/-- The masks of two and more leaves, by their number. -/
def searchMasks (count : ℕ) : List ℕ :=
  (List.range' 2 (count - 1)).flatMap fun size =>
    (combinations size (List.range count)).map fun indexes => (indexes.map (2 ^ ·)).sum

/-- The table after the loops. -/
def search (leaves : List LogicalPlan) : Except PyError SearchTable := do
  let best ← leaves.zipIdx.foldlM
    (fun best item => do return best.set (2 ^ item.2) (item.1, ← estimate item.1)) Dict.empty
  (searchMasks leaves.length).foldlM (improve py estimate predicates) best

end Search

variable (py : Python) (estimate : LogicalPlan → Except PyError CostedEstimate)

/-- `_reorder_region`, with `cost_model.estimate`. -/
def reorderRegion (root : LogicalPlan) : Except PyError (Option LogicalPlan) :=
  if Reorderable py root then do
    let leaves := root.regionLeaves py
    let best ← search py estimate (root.regionConjuncts py) leaves
    match best.get? (2 ^ leaves.length - 1) with
    | none => return none
    | some (.join _ left right joinType condition _ inputLimit buildSide, _) =>
        return some (.join root.nodeId left right joinType condition root.outputSchema inputLimit
          buildSide)
    | some _ => .error .assertionError
  else .ok none

/-- What `_reorder_recursive` makes of a plan outside of any region, and the regions it has
reordered. -/
def reorderCandidate (root : LogicalPlan) (regions : ℕ) : Except PyError (LogicalPlan × ℕ) := do
  return match ← reorderRegion py estimate root with
    | none => (root, regions)
    | some reordered => (reordered, regions + 1)

/-! ### What the search builds -/

/-- The plans the table may hold for a mask: leaves, and joins of plans for two parts of it. -/
inductive Built (py : Python) (leaves : List LogicalPlan) (predicates : List Expression) :
    ℕ → LogicalPlan → Prop
  | leaf {i : ℕ} {leaf : LogicalPlan} (h : leaves[i]? = some leaf) :
      Built py leaves predicates (2 ^ i) leaf
  | join {leftMask rightMask : ℕ} {left right plan : LogicalPlan}
      (hdisjoint : leftMask &&& rightMask = 0) (hleft : Built py leaves predicates leftMask left)
      (hright : Built py leaves predicates rightMask right)
      (hjoin : reorderedJoin py predicates left right = some plan) :
      Built py leaves predicates (leftMask ||| rightMask) plan

variable {py : Python} {estimate : LogicalPlan → Except PyError CostedEstimate}
  {predicates : List Expression} {leaves : List LogicalPlan}

/-- Every plan of the table is one of them. -/
def TableBuilt (py : Python) (leaves : List LogicalPlan) (predicates : List Expression)
    (best : SearchTable) : Prop :=
  ∀ mask item, best.get? mask = some item → Built py leaves predicates mask item.1

theorem TableBuilt.set {best : SearchTable} (h : TableBuilt py leaves predicates best) {mask : ℕ}
    {item : LogicalPlan × CostedEstimate} (hitem : Built py leaves predicates mask item.1) :
    TableBuilt py leaves predicates (best.set mask item) := by
  intro mask' item' hget
  rw [Dict.get?_set] at hget
  split at hget
  case isTrue heq =>
    cases hget
    rw [heq]
    exact hitem
  case isFalse => exact h mask' item' hget

theorem candidateAt_built {best : SearchTable} (h : TableBuilt py leaves predicates best)
    {mask leftMask : ℕ} (hsub : leftMask &&& mask = leftMask)
    {found : Option (LogicalPlan × CostedEstimate)}
    (hfound : candidateAt py estimate predicates best mask leftMask = .ok found) :
    ∀ item ∈ found, Built py leaves predicates mask item.1 := by
  unfold candidateAt at hfound
  extract_lets rightMask anchor at hfound
  split at hfound
  case isTrue =>
    split at hfound
    case h_1 left _ right _ hleft hright =>
      split at hfound
      case h_1 join hjoin =>
        obtain ⟨cost, -, hfound⟩ := ExceptState.bind_eq_ok hfound
        cases hfound
        intro item hitem
        rw [← Option.some.inj (Option.mem_def.mp hitem)]
        rw [← Submasks.or_xor_eq hsub]
        exact .join (Submasks.and_xor_eq_zero hsub) (h _ _ hleft) (h _ _ hright) hjoin
      case h_2 =>
        cases hfound
        exact fun item hitem => absurd hitem (Option.not_mem_none item)
    case h_2 =>
      cases hfound
      exact fun item hitem => absurd hitem (Option.not_mem_none item)
  case isFalse =>
    cases hfound
    exact fun item hitem => absurd hitem (Option.not_mem_none item)

theorem candidates_built {best : SearchTable} (h : TableBuilt py leaves predicates best) {mask : ℕ}
    {found : List (LogicalPlan × CostedEstimate)}
    (hfound : candidates py estimate predicates best mask = .ok found) :
    ∀ item ∈ found, Built py leaves predicates mask item.1 := by
  obtain ⟨tried, htried, hfound⟩ := ExceptState.bind_eq_ok hfound
  cases hfound
  intro item hitem
  obtain ⟨leftMask, hmem, hat⟩ :=
    ExceptState.mem_of_mapM_eq_ok htried (List.reduceOption_mem_iff.mp hitem)
  -- the loop starts below the mask and stays below it
  have hstart : ((mask - 1) &&& mask) &&& mask = (mask - 1) &&& mask := by
    rw [Nat.and_assoc, Nat.and_self]
  exact candidateAt_built h (Submasks.and_eq_of_mem hstart hmem) hat item rfl

theorem cheapest_mem {found : List (LogicalPlan × CostedEstimate)}
    {item : LogicalPlan × CostedEstimate} (h : cheapest py found = some item) : item ∈ found := by
  cases found with
  | nil => cases h
  | cons first rest =>
    cases h
    induction rest generalizing first with
    | nil => exact List.mem_cons_self
    | cons next rest ih =>
      rw [List.foldl_cons]
      by_cases hcheaper : cheaper py next first
      · rw [if_pos hcheaper]
        exact List.mem_cons_of_mem _ (ih next)
      · rw [if_neg hcheaper]
        rcases List.mem_cons.mp (ih first) with heq | hmem
        · rw [heq]
          exact List.mem_cons_self
        · exact List.mem_cons_of_mem _ (List.mem_cons_of_mem _ hmem)

theorem improve_built {best next : SearchTable} {mask : ℕ}
    (h : TableBuilt py leaves predicates best)
    (hnext : improve py estimate predicates best mask = .ok next) :
    TableBuilt py leaves predicates next := by
  obtain ⟨found, hfound, hnext⟩ := ExceptState.bind_eq_ok hnext
  cases hnext
  split
  case h_1 item hitem => exact h.set (candidates_built h hfound item (cheapest_mem hitem))
  case h_2 => exact h

/-- Every plan of the table is built of the leaves at its mask. -/
theorem search_built {best : SearchTable}
    (h : search py estimate predicates leaves = .ok best) :
    TableBuilt py leaves predicates best := by
  obtain ⟨start, hstart, h⟩ := ExceptState.bind_eq_ok h
  refine ExceptState.foldlM_invariant (fun mask _ best next hbest hnext => ?_) ?_ h
  · exact improve_built hbest hnext
  · refine ExceptState.foldlM_invariant (fun item hitem best next hbest hnext => ?_) ?_ hstart
    · obtain ⟨cost, -, hnext⟩ := ExceptState.bind_eq_ok hnext
      cases hnext
      exact hbest.set (.leaf (List.mem_zipIdx_iff_getElem?.mp hitem))
    · nofun

/-! ### Conjuncts put together -/

namespace Expression

theorem isDeterministic_combineConjuncts {first : Expression} {rest : List Expression}
    (h : ∀ conjunct ∈ first :: rest, conjunct.isDeterministic py = true) :
    (combineConjuncts first rest).isDeterministic py = true := by
  induction rest generalizing first with
  | nil => exact h first List.mem_cons_self
  | cons conjunct rest ih =>
    obtain ⟨hfirst, hconjunct, hrest⟩ :=
      (List.forall_mem_cons.mp h).imp_right List.forall_mem_cons.mp
    have hboth : (binary .and first conjunct first.typeInfo).isDeterministic py = true := by
      rw [isDeterministic, Bool.not_eq_true'] at hfirst hconjunct ⊢
      rw [walk, List.any_cons, List.any_append, hfirst, hconjunct]
      rfl
    exact ih (List.forall_mem_cons.mpr ⟨hboth, hrest⟩)

end Expression

/-! ### The regions of the plans -/

namespace LogicalPlan

theorem regionLeaves_of_mem {plan leaf : LogicalPlan} (h : leaf ∈ plan.regionLeaves py) :
    leaf.regionLeaves py = [leaf] ∧ leaf.regionJoins py = [] := by
  induction plan with
  | join nodeId left right joinType condition schema inputLimit buildSide ihl ihr =>
    rw [regionLeaves] at h
    split at h
    case isTrue => exact (List.mem_append.mp h).elim ihl ihr
    case isFalse hregion =>
      cases List.mem_singleton.mp h
      rw [regionLeaves, regionJoins, if_neg hregion, if_neg hregion]
      exact ⟨rfl, rfl⟩
  | scan | project | filter | aggregate | limit | order | window | groupingSets =>
    cases List.mem_singleton.mp h
    exact ⟨rfl, rfl⟩

end LogicalPlan

/-- What `reorderedJoin` makes of two plans. -/
theorem reorderedJoin_spec
    (hatoms : ∀ predicate ∈ predicates, predicate.splitConjuncts = [predicate])
    (hdeterministic : ∀ predicate ∈ predicates, predicate.isDeterministic py = true)
    {left right plan : LogicalPlan} (h : reorderedJoin py predicates left right = some plan) :
    ∃ nodeId condition schema, plan = .join nodeId left right .inner condition schema none .right ∧
      condition.isDeterministic py = true ∧
      condition.splitConjuncts = crossingPredicates py predicates left right := by
  unfold reorderedJoin at h
  split at h
  case h_1 => cases h
  case h_2 first rest hcrossing =>
    cases h
    have hmem : ∀ conjunct ∈ first :: rest, conjunct ∈ predicates := fun conjunct hconjunct =>
      List.mem_of_mem_filter (hcrossing ▸ hconjunct)
    refine ⟨_, _, _, rfl, ?_, ?_⟩
    · exact Expression.isDeterministic_combineConjuncts fun conjunct hconjunct =>
        hdeterministic conjunct (hmem conjunct hconjunct)
    · rw [Expression.splitConjuncts_combineConjuncts fun conjunct hconjunct =>
          hatoms conjunct (hmem conjunct (List.mem_cons_of_mem _ hconjunct)),
        hatoms first (hmem first List.mem_cons_self), hcrossing]
      rfl

/-! ### What a built plan holds -/

/-- A conjunct that reads only the leaves, and more than one of them. -/
def Spans (py : Python) (leaves : List LogicalPlan) (conjunct : Expression) : Prop :=
  conjunct.sources py ⊆ leaves.flatMap (·.sources py) ∧
    ∀ leaf ∈ leaves, ¬conjunct.sources py ⊆ leaf.sources py

instance (py : Python) (leaves : List LogicalPlan) (conjunct : Expression) :
    Decidable (Spans py leaves conjunct) :=
  inferInstanceAs (Decidable (_ ∧ _))

/-- A conjunct spans the leaves of two sides when it spans those of one, or crosses them. -/
theorem spans_append {left right : List LogicalPlan} {conjunct : Expression}
    (hreads : conjunct.sources py ≠ [])
    (hdisjoint : (left.flatMap (·.sources py)).Disjoint (right.flatMap (·.sources py))) :
    Spans py (left ++ right) conjunct ↔ Spans py left conjunct ∨ Spans py right conjunct ∨
      Crosses py (left.flatMap (·.sources py)) (right.flatMap (·.sources py)) conjunct := by
  obtain ⟨source, hsource⟩ := List.exists_mem_of_ne_nil _ hreads
  have hofLeft : ∀ leaf ∈ left, leaf.sources py ⊆ left.flatMap (·.sources py) :=
    fun leaf hleaf s hs => List.mem_flatMap.mpr ⟨leaf, hleaf, hs⟩
  have hofRight : ∀ leaf ∈ right, leaf.sources py ⊆ right.flatMap (·.sources py) :=
    fun leaf hleaf s hs => List.mem_flatMap.mpr ⟨leaf, hleaf, hs⟩
  constructor
  · rintro ⟨hsub, hleaves⟩
    rw [List.flatMap_append] at hsub
    obtain ⟨hleft, hright⟩ := List.forall_mem_append.mp hleaves
    by_cases hinLeft : conjunct.sources py ⊆ left.flatMap (·.sources py)
    · exact .inl ⟨hinLeft, hleft⟩
    by_cases hinRight : conjunct.sources py ⊆ right.flatMap (·.sources py)
    · exact .inr (.inl ⟨hinRight, hright⟩)
    -- a source outside of one side is on the other
    simp only [List.subset_def, not_forall, exists_prop] at hinLeft hinRight
    obtain ⟨r, hr, hrleft⟩ := hinLeft
    obtain ⟨l, hl, hlright⟩ := hinRight
    exact .inr (.inr ⟨hsub,
      ⟨l, hl, (List.mem_append.mp (hsub hl)).resolve_right hlright⟩,
      ⟨r, hr, (List.mem_append.mp (hsub hr)).resolve_left hrleft⟩⟩)
  · intro h
    rw [Spans, List.flatMap_append, List.forall_mem_append]
    rcases h with ⟨hsub, hleft⟩ | ⟨hsub, hright⟩ | ⟨hsub, ⟨l, hl, hlleft⟩, r, hr, hrright⟩
    · refine ⟨List.subset_append_of_subset_left _ hsub, hleft, fun leaf hleaf hin => ?_⟩
      exact hdisjoint (hsub hsource) (hofRight leaf hleaf (hin hsource))
    · refine ⟨List.subset_append_of_subset_right _ hsub, fun leaf hleaf hin => ?_, hright⟩
      exact hdisjoint (hofLeft leaf hleaf (hin hsource)) (hsub hsource)
    · refine ⟨hsub, fun leaf hleaf hin => ?_, fun leaf hleaf hin => ?_⟩
      · exact hdisjoint (hofLeft leaf hleaf (hin hr)) hrright
      · exact hdisjoint hlleft (hofRight leaf hleaf (hin hl))

/-- No conjunct counts twice there. -/
theorem spans_exclusive {left right : List LogicalPlan} {conjunct : Expression}
    (hreads : conjunct.sources py ≠ [])
    (hdisjoint : (left.flatMap (·.sources py)).Disjoint (right.flatMap (·.sources py))) :
    (Spans py left conjunct → ¬(Spans py right conjunct ∨
      Crosses py (left.flatMap (·.sources py)) (right.flatMap (·.sources py)) conjunct)) ∧
    (Spans py right conjunct →
      ¬Crosses py (left.flatMap (·.sources py)) (right.flatMap (·.sources py)) conjunct) := by
  obtain ⟨source, hsource⟩ := List.exists_mem_of_ne_nil _ hreads
  refine ⟨?_, ?_⟩
  · rintro ⟨hleft, -⟩ (⟨hright, -⟩ | ⟨-, -, r, hr, hrright⟩)
    · exact hdisjoint (hleft hsource) (hright hsource)
    · exact hdisjoint (hleft hr) hrright
  · rintro ⟨hright, -⟩ ⟨-, ⟨l, hl, hlleft⟩, -⟩
    exact hdisjoint hlleft (hright hl)

theorem Spans.perm {left right : List LogicalPlan} {conjunct : Expression} (h : left.Perm right) :
    Spans py left conjunct ↔ Spans py right conjunct := by
  rw [Spans, Spans, (h.flatMap_right (·.sources py)).subset_congr_right]
  refine and_congr_right fun _ => forall_congr' fun leaf => ?_
  rw [h.mem_iff]

theorem Crosses.perm {left left' right right' : List String} {conjunct : Expression}
    (hleft : left.Perm left') (hright : right.Perm right') :
    Crosses py left right conjunct ↔ Crosses py left' right' conjunct := by
  rw [Crosses, Crosses, (hleft.append hright).subset_congr_right]
  refine and_congr_right fun _ => and_congr ?_ ?_
  · exact exists_congr fun source => and_congr_right fun _ => hleft.mem_iff
  · exact exists_congr fun source => and_congr_right fun _ => hright.mem_iff

private theorem filter_or_perm {α : Type} {P Q : α → Prop} [DecidablePred P] [DecidablePred Q]
    {l : List α} (h : ∀ a ∈ l, P a → ¬Q a) :
    (l.filter fun a => P a ∨ Q a).Perm (l.filter (P ·) ++ l.filter (Q ·)) := by
  induction l with
  | nil => exact .nil
  | cons a l ih =>
    obtain ⟨ha, hl⟩ := List.forall_mem_cons.mp h
    have hrest := ih hl
    by_cases hP : P a
    · have hQ : ¬Q a := ha hP
      simpa [List.filter_cons, hP, hQ] using hrest
    · by_cases hQ : Q a
      · simpa [List.filter_cons, hP, hQ] using (hrest.cons a).trans List.perm_middle.symm
      · simpa [List.filter_cons, hP, hQ] using hrest

/-- What the search is given. -/
structure SearchInput (py : Python) (leaves : List LogicalPlan) (predicates : List Expression) :
    Prop where
  leaf : ∀ leaf ∈ leaves, leaf.regionLeaves py = [leaf] ∧ leaf.regionJoins py = []
  disjoint : leaves.Pairwise fun leaf other => (leaf.sources py).Disjoint (other.sources py)
  atoms : ∀ predicate ∈ predicates, predicate.splitConjuncts = [predicate]
  deterministic : ∀ predicate ∈ predicates, predicate.isDeterministic py = true
  reads : ∀ predicate ∈ predicates, predicate.sources py ≠ []

namespace SearchInput

variable (h : SearchInput py leaves predicates)
include h

/-- Disjoint masks have no source in common. -/
theorem disjoint_atBits {left right : ℕ} (hmasks : left &&& right = 0) :
    ((Submasks.atBits leaves left).flatMap (·.sources py)).Disjoint
      ((Submasks.atBits leaves right).flatMap (·.sources py)) := by
  have hboth := h.disjoint.sublist (Submasks.atBits_sublist leaves (left ||| right))
  rw [(Submasks.atBits_or leaves hmasks).pairwise_iff fun hdisjoint => hdisjoint.symm,
    List.pairwise_append] at hboth
  intro source hleft hright
  obtain ⟨leaf, hleaf, hsource⟩ := List.mem_flatMap.mp hleft
  obtain ⟨other, hother, hsource'⟩ := List.mem_flatMap.mp hright
  exact hboth.2.2 leaf hleaf other hother hsource hsource'

theorem built_sources {mask : ℕ} {plan : LogicalPlan}
    (hbuilt : Built py leaves predicates mask plan) :
    (plan.sources py).Perm ((Submasks.atBits leaves mask).flatMap (·.sources py)) := by
  induction hbuilt with
  | leaf hleaf =>
    rw [Submasks.atBits_single hleaf, List.flatMap_singleton]
  | join hmasks hleft hright hjoin ihleft ihright =>
    obtain ⟨nodeId, condition, schema, rfl, -⟩ := reorderedJoin_spec h.atoms h.deterministic hjoin
    have hperm := (Submasks.atBits_or leaves hmasks).flatMap_right (·.sources py)
    rw [List.flatMap_append] at hperm
    exact (ihleft.append ihright).trans hperm.symm

/-- The leaves of a built plan are those at its mask. -/
theorem built_leaves {mask : ℕ} {plan : LogicalPlan}
    (hbuilt : Built py leaves predicates mask plan) :
    (plan.regionLeaves py).Perm (Submasks.atBits leaves mask) := by
  induction hbuilt with
  | leaf hleaf =>
    rw [Submasks.atBits_single hleaf, (h.leaf _ (List.mem_of_getElem? hleaf)).1]
  | join hmasks hleft hright hjoin ihleft ihright =>
    obtain ⟨nodeId, condition, schema, rfl, hdeterministic, -⟩ :=
      reorderedJoin_spec h.atoms h.deterministic hjoin
    rw [LogicalPlan.regionLeaves, if_pos ⟨rfl, hdeterministic⟩]
    exact (ihleft.append ihright).trans (Submasks.atBits_or leaves hmasks).symm

/-- Its conjuncts are those that span them. -/
theorem built_conjuncts {mask : ℕ} {plan : LogicalPlan}
    (hbuilt : Built py leaves predicates mask plan) :
    (plan.regionConjuncts py).Perm
      (predicates.filter fun conjunct => Spans py (Submasks.atBits leaves mask) conjunct) := by
  induction hbuilt with
  | @leaf i leaf hleaf =>
    -- a conjunct that reads only this leaf does not read more than one
    have hnone : ∀ conjunct ∈ predicates,
        ¬decide (Spans py (Submasks.atBits leaves (2 ^ i)) conjunct) = true := by
      intro conjunct _ hspans
      obtain ⟨hsub, hmore⟩ := of_decide_eq_true hspans
      rw [Submasks.atBits_single hleaf, List.flatMap_singleton] at hsub
      rw [Submasks.atBits_single hleaf] at hmore
      exact hmore leaf (List.mem_singleton_self leaf) hsub
    rw [List.filter_eq_nil_iff.mpr hnone, LogicalPlan.regionConjuncts,
      (h.leaf _ (List.mem_of_getElem? hleaf)).2]
    exact .nil
  | @join leftMask rightMask left right plan hmasks hleft hright hjoin ihleft ihright =>
    obtain ⟨nodeId, condition, schema, rfl, hdeterministic, hsplit⟩ :=
      reorderedJoin_spec h.atoms h.deterministic hjoin
    have hdisjoint := h.disjoint_atBits hmasks
    have hspans : ∀ conjunct ∈ predicates,
        Spans py (Submasks.atBits leaves (leftMask ||| rightMask)) conjunct ↔
          Spans py (Submasks.atBits leaves leftMask) conjunct ∨
          Spans py (Submasks.atBits leaves rightMask) conjunct ∨
            Crosses py (left.sources py) (right.sources py) conjunct := by
      intro conjunct hconjunct
      rw [Spans.perm (Submasks.atBits_or leaves hmasks),
        spans_append (h.reads conjunct hconjunct) hdisjoint,
        Crosses.perm (h.built_sources hleft) (h.built_sources hright)]
    have hexclusive : ∀ conjunct ∈ predicates, _ := fun conjunct hconjunct =>
      spans_exclusive (h.reads conjunct hconjunct) hdisjoint
    simp only [← Crosses.perm (h.built_sources hleft) (h.built_sources hright)] at hexclusive
    have hthree := (filter_or_perm fun conjunct hmem => (hexclusive conjunct hmem).1).trans
      ((filter_or_perm fun conjunct hmem => (hexclusive conjunct hmem).2).append_left _)
    rw [List.filter_congr fun conjunct hmem => decide_eq_decide.mpr (hspans conjunct hmem)]
    refine List.Perm.trans ?_ hthree.symm
    rw [LogicalPlan.regionConjuncts, LogicalPlan.regionJoins, if_pos ⟨rfl, hdeterministic⟩,
      List.flatMap_append, List.flatMap_append, List.flatMap_singleton, hsplit, List.append_assoc]
    exact ihleft.append (ihright.append (.refl _))

/-- A conjunct stands at a join whose sides have its sources. -/
theorem built_covered {mask : ℕ} {plan : LogicalPlan}
    (hbuilt : Built py leaves predicates mask plan) :
    ∀ join ∈ plan.regionJoins py, ∀ conjunct ∈ join.condition.splitConjuncts,
      conjunct.sources py ⊆ join.left.sources py ++ join.right.sources py := by
  induction hbuilt with
  | leaf hleaf =>
    rw [(h.leaf _ (List.mem_of_getElem? hleaf)).2]
    nofun
  | @join leftMask rightMask left right plan hmasks hleft hright hjoin ihleft ihright =>
    obtain ⟨nodeId, condition, schema, rfl, hdeterministic, hsplit⟩ :=
      reorderedJoin_spec h.atoms h.deterministic hjoin
    rw [LogicalPlan.regionJoins, if_pos ⟨rfl, hdeterministic⟩, List.forall_mem_append,
      List.forall_mem_append, List.forall_mem_singleton]
    refine ⟨⟨ihleft, ihright⟩, fun conjunct hconjunct => ?_⟩
    rw [hsplit] at hconjunct
    exact (of_decide_eq_true (List.mem_filter.mp hconjunct).2).1

end SearchInput

/-! ### What is conserved -/

private theorem length_dedup_flatMap_le {α β : Type} [DecidableEq β] (f : α → List β) (l : List α) :
    (l.flatMap f).dedup.length ≤ (l.map fun a => (f a).dedup.length).sum := by
  induction l with
  | nil => exact le_rfl
  | cons a l ih =>
    have hunion := Finset.card_union_le (f a).toFinset (l.flatMap f).toFinset
    rw [← List.toFinset_append, List.card_toFinset, List.card_toFinset, List.card_toFinset]
      at hunion
    rw [List.flatMap_cons, List.map_cons, List.sum_cons]
    omega

/-- Sets whose union has as many members as they have together. -/
private theorem pairwise_disjoint_of_length {α β : Type} [DecidableEq β] {f : α → List β}
    {l : List α} (h : (l.flatMap f).dedup.length = (l.map fun a => (f a).dedup.length).sum) :
    l.Pairwise fun a b => (f a).Disjoint (f b) := by
  induction l with
  | nil => exact .nil
  | cons a l ih =>
    have hunion := Finset.card_union_le (f a).toFinset (l.flatMap f).toFinset
    have hequal := Finset.card_union_eq_card_add_card (s := (f a).toFinset)
      (t := (l.flatMap f).toFinset)
    rw [← List.toFinset_append, List.card_toFinset, List.card_toFinset, List.card_toFinset]
      at hunion hequal
    rw [List.flatMap_cons, List.map_cons, List.sum_cons] at h
    have hrest := length_dedup_flatMap_le f l
    have hdisjoint := List.disjoint_toFinset_iff_disjoint.mp (hequal.mp (by omega))
    refine List.pairwise_cons.mpr ⟨fun b hb x ha hx => ?_, ih (by omega)⟩
    exact hdisjoint ha (List.mem_flatMap.mpr ⟨b, hb, hx⟩)

theorem Reorderable.searchInput {root : LogicalPlan} (h : Reorderable py root) :
    SearchInput py (root.regionLeaves py) (root.regionConjuncts py) where
  leaf leaf hleaf := LogicalPlan.regionLeaves_of_mem hleaf
  disjoint := pairwise_disjoint_of_length h.disjoint
  atoms predicate hpredicate := by
    obtain ⟨join, -, hconjunct⟩ := List.mem_flatMap.mp hpredicate
    exact Expression.splitConjuncts_of_mem hconjunct
  deterministic predicate hpredicate := (h.predicates predicate hpredicate).1
  reads predicate hpredicate hnil := by
    have htwo := (h.predicates predicate hpredicate).2
    rw [hnil] at htwo
    exact absurd htwo (by decide)

/-- The region of the result has the leaves and the conjuncts of the region, each as often, and
every conjunct stands at a join whose sides have its sources. -/
structure Conserves (py : Python) (root result : LogicalPlan) : Prop where
  leaves : (result.regionLeaves py).Perm (root.regionLeaves py)
  conjuncts : (result.regionConjuncts py).Perm (root.regionConjuncts py)
  covered : ∀ join ∈ result.regionJoins py, ∀ conjunct ∈ join.condition.splitConjuncts,
    conjunct.sources py ⊆ join.left.sources py ++ join.right.sources py

/-- The plan that is found holds all leaves, and the conjuncts that span them. -/
theorem reorderRegion_spec {root result : LogicalPlan}
    (h : reorderRegion py estimate root = .ok (some result)) :
    (result.regionLeaves py).Perm (root.regionLeaves py) ∧
      (result.regionConjuncts py).Perm ((root.regionConjuncts py).filter
        fun conjunct => Spans py (root.regionLeaves py) conjunct) ∧
      ∀ join ∈ result.regionJoins py, ∀ conjunct ∈ join.condition.splitConjuncts,
        conjunct.sources py ⊆ join.left.sources py ++ join.right.sources py := by
  unfold reorderRegion at h
  split at h
  case isFalse => cases h
  case isTrue hreorderable =>
    have hinput := hreorderable.searchInput
    obtain ⟨best, hbest, h⟩ := ExceptState.bind_eq_ok h
    split at h
    case h_1 => cases h
    case h_3 => cases h
    case h_2 nodeId left right joinType condition schema inputLimit buildSide cost hwinner =>
      cases h
      have hbuilt := search_built hbest _ _ hwinner
      have hleaves := hinput.built_leaves hbuilt
      have hconjuncts := hinput.built_conjuncts hbuilt
      have hcovered := hinput.built_covered hbuilt
      rw [Submasks.atBits_full] at hleaves hconjuncts
      -- with three leaves or more, the winner is a join of the region itself
      have hregion : joinType = .inner ∧ condition.isDeterministic py = true := by
        by_contra hnot
        have hlength := hleaves.length_eq
        rw [LogicalPlan.regionLeaves, if_neg hnot, List.length_singleton] at hlength
        have hthree := hreorderable.three
        omega
      rw [LogicalPlan.regionLeaves, if_pos hregion] at hleaves
      rw [LogicalPlan.regionConjuncts, LogicalPlan.regionJoins, if_pos hregion] at hconjuncts
      rw [LogicalPlan.regionJoins, if_pos hregion] at hcovered
      rw [LogicalPlan.regionConjuncts, LogicalPlan.regionLeaves, LogicalPlan.regionJoins,
        if_pos hregion, if_pos hregion]
      exact ⟨hleaves, hconjuncts, hcovered⟩

/-- Where no plan is found the region stays.  The plan that is found conserves the region exactly
when every conjunct reads only its leaves, and more than one of them. -/
theorem conserves_iff {root result : LogicalPlan} {regions count : ℕ}
    (h : reorderCandidate py estimate root regions = .ok (result, count)) :
    (count = regions ∧ result = root) ∨
      (count = regions + 1 ∧
        (Conserves py root result ↔
          ∀ conjunct ∈ root.regionConjuncts py, Spans py (root.regionLeaves py) conjunct)) := by
  obtain ⟨found, hfound, h⟩ := ExceptState.bind_eq_ok h
  cases found with
  | none =>
    cases h
    exact .inl ⟨rfl, rfl⟩
  | some reordered =>
    cases h
    obtain ⟨hleaves, hconjuncts, hcovered⟩ := reorderRegion_spec hfound
    refine .inr ⟨rfl, fun hconserves => ?_, fun hspans => ⟨hleaves, ?_, hcovered⟩⟩
    · -- none of the conjuncts can have been filtered out
      have hlength := (hconjuncts.symm.trans hconserves.conjuncts).length_eq
      intro conjunct hconjunct
      exact of_decide_eq_true (List.length_filter_eq_length_iff.mp hlength conjunct hconjunct)
    · rw [List.filter_eq_self.mpr fun conjunct hconjunct =>
        decide_eq_true (hspans conjunct hconjunct)] at hconjuncts
      exact hconjuncts

/-! ### A left join among the leaves -/

open PredicatePushdownJoin (lowercase idColumn idScan)

/-- `first.id = second.id` -/
def equalIds (first second : String) : Expression :=
  .binary .equal (idColumn first) (idColumn second) ⟨.boolean, true⟩

def joinOn (nodeId : String) (left right : LogicalPlan) (joinType : JoinType)
    (condition : Expression) : LogicalPlan :=
  .join nodeId left right joinType condition (left.outputSchema ++ right.outputSchema) none .right

/-- `a LEFT JOIN b ON a.id = b.id JOIN c ON c.id = a.id AND a.id = b.id JOIN d ON d.id = c.id` -/
def leftJoinRegion : LogicalPlan :=
  joinOn "join_3"
    (joinOn "join_2" (joinOn "join_1" (idScan "a") (idScan "b") .left (equalIds "a" "b"))
      (idScan "c") .inner
      (.binary .and (equalIds "c" "a") (equalIds "a" "b") ⟨.boolean, true⟩))
    (idScan "d") .inner (equalIds "d" "c")

/-- `a JOIN b ON a.id = b.id JOIN c ON b.id = c.id` -/
def innerJoinRegion : LogicalPlan :=
  joinOn "join_2" (joinOn "join_1" (idScan "a") (idScan "b") .inner (equalIds "a" "b"))
    (idScan "c") .inner (equalIds "b" "c")

/-- Tables of ten rows. -/
def tenRows (name : String) : CatalogTable where
  nspace := "default"
  name := name
  schema := [⟨"id", .int64, true⟩]
  format := .csv
  location := ⟨"", []⟩
  partitionStrategy := .unknown
  partitionKeys := []
  properties := []
  partitions := []
  statistics := some { rowCount := some 10 }

def tenRowModel : Estimator where
  workerCount := 7
  memoryBudgetBytes := 7168
  broadcastThresholdBytes := 0
  catalog := ⟨["a", "b", "c", "d"].map fun name => (name, tenRows name), by decide⟩
  worker_pos := by decide
  memory_pos := by decide

/-- The conjunct `a.id = b.id` reads two tables and one leaf: the plan that is found is without
it. -/
theorem leftJoinRegion_not_conserved : ∃ result,
    reorderCandidate lowercase (tenRowModel.estimate lowercase id) leftJoinRegion 0
        = .ok (result, 1) ∧
      ¬Conserves lowercase leftJoinRegion result := by
  have hrun : (reorderCandidate lowercase (tenRowModel.estimate lowercase id) leftJoinRegion 0).map
      (fun found => ((found.1.regionConjuncts lowercase).length, found.2)) = .ok (2, 1) := by
    decide +kernel
  obtain ⟨⟨result, count⟩, hresult, hfound⟩ := ExceptState.map_eq_ok_iff.mp hrun
  obtain ⟨hkept, rfl⟩ := Prod.mk.inj hfound
  refine ⟨result, hresult, fun hconserves => ?_⟩
  have hall : (leftJoinRegion.regionConjuncts lowercase).length = 3 := by decide +kernel
  have htwo := hkept.trans (hconserves.conjuncts.length_eq.trans hall)
  exact absurd htwo (by decide)

/-- Of inner joins of tables nothing is lost. -/
theorem conserves_iff_innerJoinRegion : ∃ result,
    reorderCandidate lowercase (tenRowModel.estimate lowercase id) innerJoinRegion 0
        = .ok (result, 1) ∧
      Conserves lowercase innerJoinRegion result := by
  have hrun : (reorderCandidate lowercase (tenRowModel.estimate lowercase id) innerJoinRegion 0).map
      (·.2) = .ok 1 := by
    decide +kernel
  obtain ⟨⟨result, count⟩, hresult, rfl⟩ := ExceptState.map_eq_ok_iff.mp hrun
  rcases conserves_iff hresult with ⟨hcount, -⟩ | ⟨-, hiff⟩
  · exact absurd hcount (by decide)
  · exact ⟨result, hresult, hiff.mpr (by decide +kernel)⟩

end DistributedSql
