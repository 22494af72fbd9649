/-
Equality inference (`EqualityInference` in `optimizer/rules.py`).

The equalities between columns and constants in a filter, and in the condition of an inner
join below it, are closed under symmetry and transitivity.  A term stands for all terms with
its `sql()` text, and the terms of a join's condition are read from the rows of the join.

Main results:
* `equal_of_connected` — terms that a path of true equalities connects are equal;
* `inferred_true` — what is inferred is true where the equalities are;
* `nothing_inferred` — from the conjuncts and what is added nothing else is inferred;
* `apply_preserves` — the new filter selects the rows of the old one, and is left as it is.
-/
import DistributedSql.CoLocation
import DistributedSql.Components
import DistributedSql.JoinKeySides
import DistributedSql.JoinReorder
import DistributedSql.PredicateMerge

namespace DistributedSql

/-! ### Equal values -/

theorem SQLValue.eq_of_number {v w : SQLValue} {x : Number} (hv : v.number? = some x)
    (hw : w.number? = some x) (hx : x ≠ .nan) : v.eq w = true := by
  have horder : orderNumbers v w x x = .ok (some .eq) := by
    rw [orderNumbers, if_neg (not_or.mpr ⟨hx, hx⟩), (cmp_eq_eq_iff _ _).mpr rfl]
  refine SQLValue.eq_iff_order.mpr (.inr ?_)
  unfold SQLValue.order
  split
  case h_1 a b =>
    -- two ints
    cases hv
    rw [number?, Option.some.injEq, Number.finite.injEq, Int.cast_inj] at hw
    rw [hw, (cmp_eq_eq_iff _ _).mpr rfl]
  case h_6 => rw [hv, hw]; exact horder
  all_goals cases hv

/-- Timestamps compare when both are naive or both are aware. -/
private theorem datetime_comparable_iff {t u : PyDateTime} :
    (SQLValue.datetime t).Comparable (.datetime u) ↔ t.utcoffset.isSome = u.utcoffset.isSome := by
  rw [SQLValue.Comparable, SQLValue.order]
  cases t.utcoffset <;> cases u.utcoffset <;> simp

private theorem comparable_of_eq {v w : SQLValue} (h : v.eq w = true) (hv : v ≠ .null) :
    v.Comparable w := by
  rcases SQLValue.eq_iff_order.mp h with ⟨hnull, -⟩ | horder
  · exact absurd hnull hv
  · exact ⟨.eq, SQLValue.order_operator "<" horder⟩

/-- The `==` of Python is transitive. -/
theorem SQLValue.eq_trans {u v w : SQLValue} (huv : u.eq v = true) (hvw : v.eq w = true) :
    u.eq w = true := by
  rcases CoLocation.eq_cases huv with rfl | ⟨x, hu, hv, hx⟩ | ⟨t, t', rfl, rfl⟩
  · exact hvw
  · rcases CoLocation.eq_cases hvw with rfl | ⟨y, hv', hw, -⟩ | ⟨t, t', rfl, rfl⟩
    · exact huv
    · cases hv.symm.trans hv'
      exact eq_of_number hu hw hx
    · cases hv
  · rcases CoLocation.eq_cases hvw with rfl | ⟨y, hv, -⟩ | ⟨s, s', hs, rfl⟩
    · exact huv
    · cases hv
    · cases hs
      have huv' := comparable_of_eq huv nofun
      have hvw' := comparable_of_eq hvw nofun
      have huw : (SQLValue.datetime t).Comparable (.datetime s') :=
        datetime_comparable_iff.mpr
          ((datetime_comparable_iff.mp huv').trans (datetime_comparable_iff.mp hvw'))
      rw [SQLValue.eq_iff_rank huv'] at huv
      rw [SQLValue.eq_iff_rank hvw'] at hvw
      exact (SQLValue.eq_iff_rank huw).mpr (huv.trans hvw)

namespace EqualityInference

open Components (Connected components)

variable (py : Python)

/-! ### The rule -/

/-- A side that takes part: a column, or a constant. -/
def isTerm : Expression → Bool
  | .column _ _ _ => true
  | expression => expression.isConstant

/-- `_constant_is_null`. -/
def constantIsNull (expression : Expression) : Except PyError Bool :=
  if !expression.isConstant then .ok false
  else
    match expression.evaluate py [] with
    | .ok value => .ok value.isNull
    | .error error => if Expression.caught error then .ok false else .error error

/-- The two terms of an equality that takes part. -/
def equality : Expression → Except PyError (Option (Expression × Expression))
  | .binary .equal left right _ =>
      if !isTerm left then .ok none
      else if !isTerm right then .ok none
      else do
        if ← constantIsNull py left then return none
        if ← constantIsNull py right then return none
        return some (left, right)
  | _ => .ok none

def equalities (expressions : List Expression) :
    Except PyError (List (Expression × Expression)) := do
  return (← expressions.mapM (equality py)).reduceOption

/-- `terms` after the loop: the last term of each text. -/
def termsByText (pairs : List (Expression × Expression)) : Dict String Expression :=
  Dict.empty.update (pairs.flatMap fun pair =>
    [(pair.1.sql py, pair.1), (pair.2.sql py, pair.2)])

/-- The equality of two terms. -/
def termEquality (left right : Expression) : Expression :=
  .binary .equal left right ⟨.boolean, left.typeInfo.nullable || right.typeInfo.nullable⟩

/-- The equality of the terms of two texts. -/
def inferredEquality (terms : Dict String Expression) : List String → Option Expression
  | [left, right] => do return termEquality (← terms.get? left) (← terms.get? right)
  | _ => none

/-- What is inferred from the equalities. -/
def closurePairs (pairs : List (Expression × Expression)) : List Expression :=
  let terms := termsByText py pairs
  let edges := pairs.map fun pair => (pair.1.sql py, pair.2.sql py)
  (components edges (terms.keys.mergeSort (· ≤ ·))).flatMap fun component =>
    (combinations 2 (component.mergeSort (· ≤ ·))).filterMap (inferredEquality terms)

/-- `_equality_closure`. -/
def equalityClosure (expressions : List Expression) : Except PyError (List Expression) := do
  return closurePairs py (← equalities py expressions)

/-- `_equality_key`. -/
def equalityKey : Expression → String
  | .binary .equal left right _ =>
      let left := left.sql py
      let right := right.sql py
      if left ≤ right then left ++ "=" ++ right else right ++ "=" ++ left
  | expression => expression.sql py

/-- The conjuncts of the condition of an inner join. -/
def joinEvidence : LogicalPlan → List Expression
  | .join _ _ _ .inner condition _ _ _ => condition.splitConjuncts
  | _ => []

/-- The predicate with the additions, if there are any. -/
def extendPredicate (predicate : Expression) (additions : List Expression) : Option Expression :=
  match additions, predicate.splitConjuncts ++ additions with
  | [], _ => none
  | _, [] => none
  | _, first :: rest => some (normalizeConjuncts py (Expression.combineConjuncts first rest))

/-- `EqualityInference.apply`. -/
def apply : LogicalPlan → Except PyError (Option LogicalPlan)
  | .filter nodeId input predicate schema phase => do
      let evidence := predicate.splitConjuncts ++ joinEvidence input
      let inferred ← equalityClosure py evidence
      let existing := evidence.map (equalityKey py)
      let additions := inferred.filter (equalityKey py · ∉ existing)
      return (extendPredicate py predicate additions).map fun predicate =>
        .filter nodeId input predicate schema phase
  | _ => .ok none

/-! ### Pairs -/

theorem mem_combinations {α : Type} {size : ℕ} {l choice : List α} :
    choice ∈ combinations size l ↔ choice.Sublist l ∧ choice.length = size := by
  induction l generalizing size choice with
  | nil =>
    cases size with
    | zero =>
      rw [combinations, List.mem_singleton]
      constructor
      · rintro rfl
        exact ⟨.refl [], rfl⟩
      · exact fun h => List.length_eq_zero_iff.mp h.2
    | succ size =>
      rw [combinations]
      refine iff_of_false List.not_mem_nil fun h => ?_
      rw [List.sublist_nil.mp h.1] at h
      cases h.2
  | cons a l ih =>
    cases size with
    | zero =>
      rw [combinations, List.mem_singleton]
      exact ⟨fun h => h ▸ ⟨List.nil_sublist (a :: l), rfl⟩,
        fun h => List.length_eq_zero_iff.mp h.2⟩
    | succ size =>
      rw [combinations, List.mem_append, List.mem_map, ih]
      constructor
      · rintro (⟨rest, hrest, rfl⟩ | ⟨hsub, hlength⟩)
        · obtain ⟨hsub, hlength⟩ := ih.mp hrest
          exact ⟨hsub.cons_cons a, congrArg Nat.succ hlength⟩
        · exact ⟨hsub.cons a, hlength⟩
      · rintro ⟨hsub, hlength⟩
        rcases List.sublist_cons_iff.mp hsub with hskip | ⟨rest, rfl, htake⟩
        · exact .inr ⟨hskip, hlength⟩
        · exact .inl ⟨rest, ih.mpr ⟨htake, Nat.succ.inj hlength⟩, rfl⟩

/-- Two members of a list stand there in one order or the other. -/
private theorem sublist_pair {α : Type} {a b : α} {l : List α} (ha : a ∈ l) (hb : b ∈ l)
    (hne : a ≠ b) : [a, b].Sublist l ∨ [b, a].Sublist l := by
  induction l with
  | nil => cases ha
  | cons c l ih =>
    rcases List.mem_cons.mp ha with rfl | hal
    · have hbl := (List.mem_cons.mp hb).resolve_left hne.symm
      exact .inl ((List.singleton_sublist.mpr hbl).cons_cons a)
    · rcases List.mem_cons.mp hb with rfl | hbl
      · exact .inr ((List.singleton_sublist.mpr hal).cons_cons b)
      · exact (ih hal hbl).imp (·.cons c) (·.cons c)

/-! ### Terms and edges -/

variable {py : Python} {pairs : List (Expression × Expression)}

/-- The terms of some equalities. -/
def termsOf (pairs : List (Expression × Expression)) : List Expression :=
  pairs.flatMap fun pair => [pair.1, pair.2]

/-- The texts that the equalities connect. -/
def textEdges (py : Python) (pairs : List (Expression × Expression)) : List (String × String) :=
  pairs.map fun pair => (pair.1.sql py, pair.2.sql py)

theorem mem_termsOf {term : Expression} :
    term ∈ termsOf pairs ↔ ∃ pair ∈ pairs, term = pair.1 ∨ term = pair.2 := by
  rw [termsOf, List.mem_flatMap]
  exact exists_congr fun pair => and_congr_right fun _ => by simp

theorem get?_termsByText {text : String} {term : Expression}
    (h : (termsByText py pairs).get? text = some term) :
    term ∈ termsOf pairs ∧ term.sql py = text := by
  rcases Dict.mem_of_get?_update h with hmem | hnone
  · obtain ⟨pair, hpair, hitem⟩ := List.mem_flatMap.mp hmem
    rcases List.mem_cons.mp hitem with heq | heq
    · cases heq
      exact ⟨mem_termsOf.mpr ⟨pair, hpair, .inl rfl⟩, rfl⟩
    · cases List.mem_singleton.mp heq
      exact ⟨mem_termsOf.mpr ⟨pair, hpair, .inr rfl⟩, rfl⟩
  · cases hnone

variable (py) in
theorem exists_termsByText {term : Expression} (h : term ∈ termsOf pairs) :
    ∃ kept, (termsByText py pairs).get? (term.sql py) = some kept := by
  obtain ⟨pair, hpair, hterm⟩ := mem_termsOf.mp h
  refine Option.isSome_iff_exists.mp ?_
  rw [termsByText, Dict.get?_update, Option.isSome_or, Bool.or_eq_true]
  refine .inl (List.lookup_isSome_iff.mpr ?_)
  refine ⟨(term.sql py, term), List.mem_reverse.mpr (List.mem_flatMap.mpr ⟨pair, hpair, ?_⟩),
    beq_self_eq_true _⟩
  rcases hterm with rfl | rfl
  · exact List.mem_cons_self
  · exact List.mem_cons_of_mem _ List.mem_cons_self

/-- What is inferred: the equality of two connected terms with different texts. -/
theorem mem_closurePairs {expression : Expression} (h : expression ∈ closurePairs py pairs) :
    ∃ left right, expression = termEquality left right ∧ left ∈ termsOf pairs ∧
      right ∈ termsOf pairs ∧ left.sql py ≠ right.sql py ∧
      Connected (textEdges py pairs) (left.sql py) (right.sql py) := by
  obtain ⟨component, hcomponent, hmem⟩ := List.mem_flatMap.mp h
  obtain ⟨choice, hchoice, hinferred⟩ := List.mem_filterMap.mp hmem
  obtain ⟨hsub, hlength⟩ := mem_combinations.mp hchoice
  obtain ⟨a, b, rfl⟩ := List.length_eq_two.mp hlength
  obtain ⟨start, -, rfl⟩ := Components.mem_components hcomponent
  -- the members of a component are different and connected
  have hnodup := hsub.nodup ((List.mergeSort_perm _ _).nodup_iff.mpr
    (Components.explore_nodup List.nodup_nil))
  have hne : a ≠ b := fun heq => by simp [heq] at hnodup
  have hconnected : ∀ c ∈ [a, b], Connected (textEdges py pairs) start c := fun c hc =>
    Components.mem_explore_iff.mp (List.mem_mergeSort.mp (hsub.subset hc))
  rw [inferredEquality] at hinferred
  obtain ⟨left, hleft, hrest⟩ := Option.bind_eq_some_iff.mp hinferred
  obtain ⟨right, hright, hequality⟩ := Option.bind_eq_some_iff.mp hrest
  obtain ⟨hleftMem, rfl⟩ := get?_termsByText hleft
  obtain ⟨hrightMem, rfl⟩ := get?_termsByText hright
  refine ⟨left, right, (Option.some.inj hequality).symm, hleftMem, hrightMem, hne, ?_⟩
  exact (hconnected _ List.mem_cons_self).symm.trans
    (hconnected _ (List.mem_cons_of_mem _ List.mem_cons_self))

/-- Of two connected terms with different texts the equality is inferred, one way or the other. -/
theorem exists_mem_closurePairs {left right : Expression} (hleft : left ∈ termsOf pairs)
    (hright : right ∈ termsOf pairs) (hne : left.sql py ≠ right.sql py)
    (hconnected : Connected (textEdges py pairs) (left.sql py) (right.sql py)) :
    ∃ left' right', termEquality left' right' ∈ closurePairs py pairs ∧
      ((left'.sql py = left.sql py ∧ right'.sql py = right.sql py) ∨
        (left'.sql py = right.sql py ∧ right'.sql py = left.sql py)) := by
  obtain ⟨keptLeft, hkeptLeft⟩ := exists_termsByText py hleft
  obtain ⟨keptRight, hkeptRight⟩ := exists_termsByText py hright
  obtain ⟨-, hleftText⟩ := get?_termsByText hkeptLeft
  obtain ⟨-, hrightText⟩ := get?_termsByText hkeptRight
  have hstart : left.sql py ∈ (termsByText py pairs).keys.mergeSort (· ≤ ·) :=
    List.mem_mergeSort.mpr (List.mem_map_of_mem (f := Prod.fst) (Dict.mem_items.mpr hkeptLeft))
  obtain ⟨component, hcomponent, hmemLeft⟩ : ∃ component ∈ components (textEdges py pairs)
      ((termsByText py pairs).keys.mergeSort (· ≤ ·)), left.sql py ∈ component :=
    Components.exists_mem_components hstart
  obtain ⟨start, -, rfl⟩ := Components.mem_components hcomponent
  have hmemRight := Components.mem_explore_iff.mpr
    ((Components.mem_explore_iff.mp hmemLeft).trans hconnected)
  have hinferred : ∀ choice expression,
      choice.Sublist ((Components.explore (textEdges py pairs) [] [start]).mergeSort (· ≤ ·)) →
      choice.length = 2 →
      inferredEquality (termsByText py pairs) choice = some expression →
      expression ∈ closurePairs py pairs := by
    intro choice expression hsub hlength hsome
    exact List.mem_flatMap.mpr ⟨_, hcomponent,
      List.mem_filterMap.mpr ⟨choice, mem_combinations.mpr ⟨hsub, hlength⟩, hsome⟩⟩
  rcases sublist_pair (List.mem_mergeSort.mpr hmemLeft) (List.mem_mergeSort.mpr hmemRight) hne with
    hsub | hsub
  · refine ⟨keptLeft, keptRight, hinferred _ _ hsub rfl ?_, .inl ⟨hleftText, hrightText⟩⟩
    rw [inferredEquality, hkeptLeft, hkeptRight]
    rfl
  · refine ⟨keptRight, keptLeft, hinferred _ _ hsub rfl ?_, .inr ⟨hrightText, hleftText⟩⟩
    rw [inferredEquality, hkeptLeft, hkeptRight]
    rfl

private theorem mergeSort_texts {texts sorted : List String} (hperm : texts.Perm sorted)
    (hsorted : sorted.Pairwise (· ≤ ·)) : texts.mergeSort (· ≤ ·) = sorted :=
  ((List.mergeSort_perm texts _).trans hperm).eq_of_pairwise'
    (List.pairwise_mergeSort' (· ≤ ·) texts) hsorted

/-- What is inferred where all texts are connected. -/
private theorem closurePairs_connected {texts : List String}
    (hkeys : (termsByText py pairs).keys.Perm texts) (hsorted : texts.Pairwise (· ≤ ·))
    (hcomponents : components (textEdges py pairs) texts = [texts]) :
    closurePairs py pairs =
      (combinations 2 texts).filterMap (inferredEquality (termsByText py pairs)) := by
  have hclosure : closurePairs py pairs =
      (components (textEdges py pairs) ((termsByText py pairs).keys.mergeSort (· ≤ ·))).flatMap
        fun component => (combinations 2 (component.mergeSort (· ≤ ·))).filterMap
          (inferredEquality (termsByText py pairs)) := rfl
  rw [hclosure, mergeSort_texts hkeys hsorted, hcomponents, List.flatMap_singleton,
    mergeSort_texts (.refl texts) hsorted]

/-! ### Equalities that take part -/

theorem equality_eq_some {expression : Expression} {pair : Expression × Expression}
    (h : equality py expression = .ok (some pair)) :
    ∃ type, expression = .binary .equal pair.1 pair.2 type ∧
      (isTerm pair.1 = true ∧ constantIsNull py pair.1 = .ok false) ∧
      isTerm pair.2 = true ∧ constantIsNull py pair.2 = .ok false := by
  unfold equality at h
  split at h
  case h_1 left right type =>
    split at h
    · cases h
    · split at h
      · cases h
      · next hleft hright =>
        obtain ⟨nullLeft, hnullLeft, h⟩ := ExceptState.bind_eq_ok h
        cases nullLeft
        · obtain ⟨nullRight, hnullRight, h⟩ := ExceptState.bind_eq_ok h
          cases nullRight
          · cases h
            exact ⟨type, rfl, ⟨by simpa using hleft, hnullLeft⟩, by simpa using hright, hnullRight⟩
          · cases h
        · cases h
  case h_2 => cases h

theorem equality_binary {left right : Expression} {type : TypeInfo} (hleft : isTerm left = true)
    (hright : isTerm right = true) (hnullLeft : constantIsNull py left = .ok false)
    (hnullRight : constantIsNull py right = .ok false) :
    equality py (.binary .equal left right type) = .ok (some (left, right)) := by
  rw [equality, hleft, hright, hnullLeft, hnullRight]
  rfl

/-! ### What is inferred is true -/

/-- Terms with one text have equal values wherever both have one. -/
def TermsTell (py : Python) (terms : List Expression) : Prop :=
  ∀ term ∈ terms, ∀ other ∈ terms, term.sql py = other.sql py → ∀ row v w,
    term.evaluate py row = .ok v → other.evaluate py row = .ok w → v = w ∨ v.eq w = true

theorem matches_trans {left middle right : Row} {a b c : Expression}
    (h : Matches py left middle (a, b)) (h' : Matches py middle right (b, c)) :
    Matches py left right (a, c) := by
  obtain ⟨u, v, hu, hv, hunull, -, huv⟩ := h
  obtain ⟨v', w, hv', hw, -, hwnull, hvw⟩ := h'
  cases hv.symm.trans hv'
  exact ⟨u, w, hu, hw, hunull, hwnull, SQLValue.eq_trans huv hvw⟩

section Values

variable {row : Row} (htrue : ∀ pair ∈ pairs, Matches py row row pair)
include htrue

theorem matches_self {term : Expression} (h : term ∈ termsOf pairs) :
    Matches py row row (term, term) := by
  obtain ⟨⟨left, right⟩, hpair, rfl | rfl⟩ := mem_termsOf.mp h
  · exact matches_trans (htrue _ hpair) (htrue _ hpair).swap
  · exact matches_trans (htrue _ hpair).swap (htrue _ hpair)

variable (hterms : TermsTell py (termsOf pairs))
include hterms

theorem matches_of_text {term other : Expression} (h : term ∈ termsOf pairs)
    (hother : other ∈ termsOf pairs) (htext : term.sql py = other.sql py) :
    Matches py row row (term, other) := by
  obtain ⟨v, v', hv, hv', hvnull, -, hself⟩ := matches_self htrue h
  obtain ⟨w, -, hw, -, hwnull, -⟩ := matches_self htrue hother
  cases hv.symm.trans hv'
  refine ⟨v, w, hv, hw, hvnull, hwnull, ?_⟩
  rcases hterms term h other hother htext row v w hv hw with rfl | heq
  · exact hself
  · exact heq

/-- Terms that a path of true equalities connects are equal. -/
theorem equal_of_connected {left right : Expression} (hleft : left ∈ termsOf pairs)
    (hright : right ∈ termsOf pairs)
    (h : Connected (textEdges py pairs) (left.sql py) (right.sql py)) :
    Matches py row row (left, right) := by
  have hpath : ∀ text, Connected (textEdges py pairs) (left.sql py) text →
      ∀ term ∈ termsOf pairs, term.sql py = text → Matches py row row (left, term) := by
    intro text htext
    induction htext with
    | refl =>
      intro term hterm heq
      exact matches_of_text htrue hterms hleft hterm heq.symm
    | tail _ hlast ih =>
      intro term hterm heq
      -- the last edge is an equality between the terms of its two texts
      rcases hlast with hedge | hedge
      · obtain ⟨pair, hpair, hends⟩ := List.mem_map.mp hedge
        cases hends
        have hfirst := ih pair.1 (mem_termsOf.mpr ⟨pair, hpair, .inl rfl⟩) rfl
        have hsecond := matches_of_text htrue hterms (mem_termsOf.mpr ⟨pair, hpair, .inr rfl⟩)
          hterm heq.symm
        exact matches_trans (matches_trans hfirst (htrue pair hpair)) hsecond
      · obtain ⟨pair, hpair, hends⟩ := List.mem_map.mp hedge
        cases hends
        have hfirst := ih pair.2 (mem_termsOf.mpr ⟨pair, hpair, .inr rfl⟩) rfl
        have hsecond := matches_of_text htrue hterms (mem_termsOf.mpr ⟨pair, hpair, .inl rfl⟩)
          hterm heq.symm
        exact matches_trans (matches_trans hfirst (htrue pair hpair).swap) hsecond
  exact hpath _ h right hright rfl

/-- What is inferred is true where the equalities are. -/
theorem inferred_true {expression : Expression} (h : expression ∈ closurePairs py pairs) :
    expression.evaluate py row = .ok (.bool true) := by
  obtain ⟨left, right, rfl, hleft, hright, -, hconnected⟩ := mem_closurePairs h
  exact evaluate_equal_true_iff.mpr (equal_of_connected htrue hterms hleft hright hconnected)

end Values

/-! ### Nothing else is inferred -/

theorem mem_equalities {evidence : List Expression} (h : equalities py evidence = .ok pairs)
    {pair : Expression × Expression} :
    pair ∈ pairs ↔ ∃ conjunct ∈ evidence, equality py conjunct = .ok (some pair) := by
  obtain ⟨found, hfound, h⟩ := ExceptState.bind_eq_ok h
  cases h
  rw [List.reduceOption_mem_iff]
  constructor
  · exact ExceptState.mem_of_mapM_eq_ok hfound
  · rintro ⟨conjunct, hmem, hequality⟩
    exact ExceptState.mem_of_mapM_eq_ok' hfound hmem hequality

/-- The key of an equality does not tell its sides apart. -/
theorem equalityKey_eq {left right left' right' : Expression} {type type' : TypeInfo}
    (h : (left'.sql py = left.sql py ∧ right'.sql py = right.sql py) ∨
      (left'.sql py = right.sql py ∧ right'.sql py = left.sql py)) :
    equalityKey py (.binary .equal left' right' type') =
      equalityKey py (.binary .equal left right type) := by
  simp only [equalityKey]
  rcases h with ⟨hleft, hright⟩ | ⟨hleft, hright⟩
  · rw [hleft, hright]
  · rw [hleft, hright]
    rcases lt_trichotomy (left.sql py) (right.sql py) with hlt | heq | hgt
    · rw [if_neg hlt.not_ge, if_pos hlt.le]
    · rw [heq]
    · rw [if_pos hgt.le, if_neg hgt.not_ge]

section Again

variable {evidence evidence' : List Expression}

/-- What is inferred takes part itself. -/
theorem equality_of_inferred (hpairs : equalities py evidence = .ok pairs) {expression : Expression}
    (h : expression ∈ closurePairs py pairs) :
    ∃ left right, equality py expression = .ok (some (left, right)) ∧ left ∈ termsOf pairs ∧
      right ∈ termsOf pairs ∧
      Connected (textEdges py pairs) (left.sql py) (right.sql py) := by
  obtain ⟨left, right, rfl, hleft, hright, -, hconnected⟩ := mem_closurePairs h
  have hterm : ∀ term ∈ termsOf pairs, isTerm term = true ∧ constantIsNull py term = .ok false := by
    intro term hterm
    obtain ⟨pair, hpair, hside⟩ := mem_termsOf.mp hterm
    obtain ⟨conjunct, -, hequality⟩ := (mem_equalities hpairs).mp hpair
    obtain ⟨type', -, hfirst, hsecond⟩ := equality_eq_some hequality
    rcases hside with rfl | rfl
    · exact hfirst
    · exact hsecond
  exact ⟨left, right, equality_binary (hterm left hleft).1 (hterm right hright).1
    (hterm left hleft).2 (hterm right hright).2, hleft, hright, hconnected⟩

/-- From conjuncts and what is inferred from them, nothing is inferred with another key. -/
theorem nothing_inferred (hpairs : equalities py evidence = .ok pairs)
    (hsub : ∀ conjunct ∈ evidence', conjunct ∈ evidence ∨ conjunct ∈ closurePairs py pairs)
    (hkeys : ∀ expression ∈ closurePairs py pairs,
      equalityKey py expression ∈ evidence'.map (equalityKey py)) :
    ∃ pairs', equalities py evidence' = .ok pairs' ∧ ∀ expression ∈ closurePairs py pairs',
      equalityKey py expression ∈ evidence'.map (equalityKey py) := by
  -- every conjunct is an equality of old terms that were connected before, or none
  have hconjunct : ∀ conjunct ∈ evidence', ∃ found, equality py conjunct = .ok found ∧
      ∀ pair, found = some pair → pair.1 ∈ termsOf pairs ∧ pair.2 ∈ termsOf pairs ∧
        Connected (textEdges py pairs) (pair.1.sql py) (pair.2.sql py) := by
    intro conjunct hmem
    rcases hsub conjunct hmem with hold | hinferred
    · obtain ⟨found, hfound, -⟩ := ExceptState.bind_eq_ok hpairs
      obtain ⟨result, hresult⟩ := ExceptState.ok_of_mapM_eq_ok hfound conjunct hold
      refine ⟨result, hresult, ?_⟩
      rintro pair rfl
      have hpair := (mem_equalities hpairs).mpr ⟨conjunct, hold, hresult⟩
      exact ⟨mem_termsOf.mpr ⟨pair, hpair, .inl rfl⟩, mem_termsOf.mpr ⟨pair, hpair, .inr rfl⟩,
        .single (.inl (List.mem_map.mpr ⟨pair, hpair, rfl⟩))⟩
    · obtain ⟨left, right, hequality, hleft, hright, hconnected⟩ :=
        equality_of_inferred hpairs hinferred
      refine ⟨_, hequality, ?_⟩
      rintro pair heq
      cases heq
      exact ⟨hleft, hright, hconnected⟩
  obtain ⟨found, hfound, -⟩ := ExceptState.exists_mapM_eq_ok (P := fun _ _ => True)
    (f := equality py) (l := evidence') fun conjunct hmem =>
      (hconjunct conjunct hmem).imp fun _ h => ⟨h.1, trivial⟩
  have hpairs' : equalities py evidence' = .ok found.reduceOption := by
    rw [equalities, hfound]
    rfl
  have hold : ∀ pair ∈ found.reduceOption, pair.1 ∈ termsOf pairs ∧ pair.2 ∈ termsOf pairs ∧
      Connected (textEdges py pairs) (pair.1.sql py) (pair.2.sql py) := by
    intro pair hpair
    obtain ⟨conjunct, hmem, hequality⟩ := (mem_equalities hpairs').mp hpair
    obtain ⟨result, hresult, hterms⟩ := hconjunct conjunct hmem
    cases hequality.symm.trans hresult
    exact hterms pair rfl
  have hterm : ∀ term ∈ termsOf found.reduceOption, term ∈ termsOf pairs := by
    intro term hterm
    obtain ⟨pair, hpair, rfl | rfl⟩ := mem_termsOf.mp hterm
    · exact (hold pair hpair).1
    · exact (hold pair hpair).2.1
  have hlinked : ∀ a b, Components.Linked (textEdges py found.reduceOption) a b →
      Connected (textEdges py pairs) a b := by
    rintro a b (hedge | hedge)
    · obtain ⟨pair, hpair, hends⟩ := List.mem_map.mp hedge
      cases hends
      exact (hold pair hpair).2.2
    · obtain ⟨pair, hpair, hends⟩ := List.mem_map.mp hedge
      cases hends
      exact (hold pair hpair).2.2.symm
  have hconnected : ∀ a b, Connected (textEdges py found.reduceOption) a b →
      Connected (textEdges py pairs) a b := by
    intro a b hpath
    induction hpath with
    | refl => exact .refl
    | tail _ hlast ih => exact ih.trans (hlinked _ _ hlast)
  refine ⟨_, hpairs', fun expression hexpression => ?_⟩
  obtain ⟨left, right, rfl, hleft, hright, hne, hpath⟩ := mem_closurePairs hexpression
  obtain ⟨left', right', hinferred, htexts⟩ := exists_mem_closurePairs (hterm left hleft)
    (hterm right hright) hne (hconnected _ _ hpath)
  have hkey : equalityKey py (termEquality left' right') =
      equalityKey py (termEquality left right) := equalityKey_eq htexts
  rw [← hkey]
  exact hkeys _ hinferred

end Again

/-! ### The new predicate -/

/-- Conjuncts with one text have one value on every row, and one key. -/
def ConjunctsTell (py : Python) (conjuncts : List Expression) : Prop :=
  ∀ conjunct ∈ conjuncts, ∀ other ∈ conjuncts, conjunct.sql py = other.sql py →
    (∀ row, conjunct.evaluate py row = other.evaluate py row) ∧
      equalityKey py conjunct = equalityKey py other

theorem exists_kept {conjuncts : List Expression} (htell : ConjunctsTell py conjuncts)
    {conjunct : Expression} (h : conjunct ∈ conjuncts) :
    ∃ kept ∈ keptConjuncts py conjuncts,
      (∀ row, kept.evaluate py row = conjunct.evaluate py row) ∧
        equalityKey py kept = equalityKey py conjunct := by
  have htext : conjunct.sql py ∈ (keptConjuncts py conjuncts).map (·.sql py) :=
    mem_texts_keptConjuncts.mpr (List.mem_map_of_mem h)
  obtain ⟨kept, hkept, heq⟩ := List.mem_map.mp htext
  exact ⟨kept, hkept, htell kept (mem_iff_kept_or_dropped.mpr (.inl hkept)) conjunct h heq⟩

section Predicate

variable {predicate extended : Expression} {additions : List Expression}

/-- The conjuncts of the extended predicate. -/
theorem splitConjuncts_extended
    (hadditions : ∀ addition ∈ additions, addition.splitConjuncts = [addition])
    (h : extendPredicate py predicate additions = some extended) :
    extended.splitConjuncts.Perm (keptConjuncts py (predicate.splitConjuncts ++ additions)) := by
  unfold extendPredicate at h
  split at h
  case h_1 => cases h
  case h_2 => cases h
  case h_3 first rest _ hall =>
    cases h
    have hatoms : ∀ conjunct ∈ first :: rest, conjunct.splitConjuncts = [conjunct] := by
      rw [← hall, List.forall_mem_append]
      exact ⟨fun _ => Expression.splitConjuncts_of_mem, hadditions⟩
    obtain ⟨hfirst, hrest⟩ := List.forall_mem_cons.mp hatoms
    have hperm := splitConjuncts_normalizeConjuncts py (Expression.combineConjuncts first rest)
    rw [Expression.splitConjuncts_combineConjuncts hrest, hfirst, List.singleton_append] at hperm
    rw [hall]
    exact hperm

variable {row : Row}
  (htell : ConjunctsTell py (predicate.splitConjuncts ++ additions))
  (hextended : extended.splitConjuncts.Perm
    (keptConjuncts py (predicate.splitConjuncts ++ additions)))
include htell hextended

variable (row) in
/-- What depends on the value of a conjunct holds of the new conjuncts when it holds of the old
ones and of the additions. -/
theorem forall_extended {P : Except PyError SQLValue → Prop} :
    (∀ conjunct ∈ extended.splitConjuncts, P (conjunct.evaluate py row)) ↔
      (∀ conjunct ∈ predicate.splitConjuncts, P (conjunct.evaluate py row)) ∧
        ∀ addition ∈ additions, P (addition.evaluate py row) := by
  rw [← List.forall_mem_append]
  constructor
  · intro h conjunct hconjunct
    obtain ⟨kept, hkept, hvalue, -⟩ := exists_kept htell hconjunct
    rw [← hvalue row]
    exact h kept (hextended.mem_iff.mpr hkept)
  · intro h conjunct hconjunct
    exact h conjunct (mem_iff_kept_or_dropped.mpr (.inl (hextended.mem_iff.mp hconjunct)))

/-- The new predicate evaluates where the old one does, and is true where it is. -/
theorem extended_agrees
    (hboolean : ∀ conjunct ∈ predicate.splitConjuncts, Expression.BooleanValued py row conjunct)
    (hadditions : (∃ value, predicate.evaluate py row = .ok value) → ∀ addition ∈ additions,
      ∃ value, addition.evaluate py row = .ok value ∧ (value = .null ∨ ∃ b, value = .bool b))
    (htrue : predicate.isTrue py row = true → ∀ addition ∈ additions,
      addition.evaluate py row = .ok (.bool true)) :
    ((∃ value, extended.evaluate py row = .ok value) ↔
        ∃ value, predicate.evaluate py row = .ok value) ∧
      ((∃ value, predicate.evaluate py row = .ok value) →
        (extended.isTrue py row = true ↔ predicate.isTrue py row = true)) := by
  have hevaluates := forall_extended row htell hextended
    (P := fun result => ∃ value, result = .ok value)
  refine ⟨?_, fun hvalue => ?_⟩
  · rw [Expression.evaluates_iff_conjuncts, hevaluates, Expression.evaluates_iff_conjuncts]
    refine ⟨And.left, fun h => ⟨h, fun addition haddition => ?_⟩⟩
    obtain ⟨value, haddition, -⟩ := hadditions (Expression.evaluates_iff_conjuncts.mpr h) addition haddition
    exact ⟨value, haddition⟩
  · have hnew : ∀ conjunct ∈ extended.splitConjuncts,
        Expression.BooleanValued py row conjunct := by
      refine (forall_extended row htell hextended (P := fun result =>
        ∀ value, result = .ok value → value = .null ∨ ∃ b, value = .bool b)).mpr ⟨hboolean, ?_⟩
      intro addition haddition value hevaluate
      obtain ⟨value', hevaluate', hshape⟩ := hadditions hvalue addition haddition
      cases hevaluate.symm.trans hevaluate'
      exact hshape
    have hold := (Expression.splitConjuncts_isTrue hboolean).2
    have htrueAll := forall_extended row htell hextended
      (P := fun result => result = .ok (.bool true))
    rw [(Expression.splitConjuncts_isTrue hnew).2]
    simp only [Expression.isTrue_iff] at hold htrue ⊢
    rw [htrueAll, hold]
    exact ⟨And.left, fun h => ⟨h, htrue (hold.mpr h)⟩⟩

end Predicate

/-! ### Terms on a row -/

/-- The terms in the equalities among some conjuncts. -/
def terms (conjuncts : List Expression) : List Expression :=
  conjuncts.flatMap fun
    | .binary .equal left right _ => [left, right].filter isTerm
    | _ => []

/-- The equalities of two of some terms. -/
def termEqualities (terms : List Expression) : List Expression :=
  terms.flatMap fun left => terms.map (termEquality left)

theorem TermsTell.mono {items items' : List Expression} (h : TermsTell py items')
    (hsub : items ⊆ items') : TermsTell py items :=
  fun term hterm other hother => h term (hsub hterm) other (hsub hother)

theorem ConjunctsTell.mono {items items' : List Expression} (h : ConjunctsTell py items')
    (hsub : items ⊆ items') : ConjunctsTell py items :=
  fun conjunct hconjunct other hother => h conjunct (hsub hconjunct) other (hsub hother)

/-- Terms with different texts tell. -/
theorem termsTell_map {ι : Type} {f : ι → Expression}
    (h : ∀ i j, (f i).sql py = (f j).sql py → i = j) (items : List ι) :
    TermsTell py (items.map f) := by
  intro term hterm other hother htext row v w hv hw
  obtain ⟨i, -, rfl⟩ := List.mem_map.mp hterm
  obtain ⟨j, -, rfl⟩ := List.mem_map.mp hother
  rw [h i j htext] at hv
  exact .inl (Except.ok.inj (hv.symm.trans hw))

/-- Conjuncts with different texts tell. -/
theorem conjunctsTell_map {ι : Type} {f : ι → Expression}
    (h : ∀ i j, (f i).sql py = (f j).sql py → i = j) (items : List ι) :
    ConjunctsTell py (items.map f) := by
  intro conjunct hconjunct other hother htext
  obtain ⟨i, -, rfl⟩ := List.mem_map.mp hconjunct
  obtain ⟨j, -, rfl⟩ := List.mem_map.mp hother
  rw [h i j htext]
  exact ⟨fun _ => rfl, rfl⟩

theorem termsOf_subset {evidence : List Expression} (hpairs : equalities py evidence = .ok pairs) :
    termsOf pairs ⊆ terms evidence := by
  intro term hterm
  obtain ⟨pair, hpair, hside⟩ := mem_termsOf.mp hterm
  obtain ⟨conjunct, hconjunct, hequality⟩ := (mem_equalities hpairs).mp hpair
  obtain ⟨type, rfl, ⟨hleft, -⟩, hright, -⟩ := equality_eq_some hequality
  refine List.mem_flatMap.mpr ⟨_, hconjunct, List.mem_filter.mpr ?_⟩
  rcases hside with rfl | rfl
  · exact ⟨List.mem_cons_self, hleft⟩
  · exact ⟨List.mem_cons_of_mem _ List.mem_cons_self, hright⟩

theorem closurePairs_subset {items : List Expression} (h : termsOf pairs ⊆ items) :
    closurePairs py pairs ⊆ termEqualities items := by
  intro expression hexpression
  obtain ⟨left, right, rfl, hleft, hright, -⟩ := mem_closurePairs hexpression
  exact List.mem_flatMap.mpr ⟨left, h hleft, List.mem_map_of_mem (h hright)⟩

/-- An equality is true, false or NULL. -/
theorem booleanValued_equal (left right : Expression) (type : TypeInfo) (row : Row) :
    Expression.BooleanValued py row (.binary .equal left right type) := by
  intro value hvalue
  rw [Expression.evaluate] at hvalue
  obtain ⟨l, -, hvalue⟩ := ExceptState.bind_eq_ok hvalue
  obtain ⟨r, -, hvalue⟩ := ExceptState.bind_eq_ok hvalue
  unfold binaryValue at hvalue
  dsimp only at hvalue
  split at hvalue
  · cases hvalue
    exact .inl rfl
  · cases hvalue
    exact .inr ⟨_, rfl⟩

/-- An equality evaluates where its sides do. -/
theorem equal_evaluates_iff {left right : Expression} {type : TypeInfo} {row : Row} :
    (∃ value, (Expression.binary .equal left right type).evaluate py row = .ok value) ↔
      (∃ value, left.evaluate py row = .ok value) ∧ ∃ value, right.evaluate py row = .ok value := by
  rw [Expression.evaluate]
  constructor
  · rintro ⟨value, h⟩
    obtain ⟨l, hl, h⟩ := ExceptState.bind_eq_ok h
    obtain ⟨r, hr, -⟩ := ExceptState.bind_eq_ok h
    exact ⟨⟨l, hl⟩, r, hr⟩
  · rintro ⟨⟨l, hl⟩, r, hr⟩
    rw [hl, hr, ExceptState.ok_bind, ExceptState.ok_bind]
    unfold binaryValue
    dsimp only
    split
    · exact ⟨_, rfl⟩
    · exact ⟨_, rfl⟩

/-- Where a conjunction is neither false nor NULL, no conjunct is. -/
theorem conjuncts_settled {predicate : Expression} {row : Row} {value : SQLValue}
    (h : predicate.evaluate py row = .ok value) (hfalse : value ≠ .bool false)
    (hnull : value ≠ .null) :
    ∀ conjunct ∈ predicate.splitConjuncts, ∃ value,
      conjunct.evaluate py row = .ok value ∧ value ≠ .bool false ∧ value ≠ .null := by
  induction predicate using Expression.splitConjuncts.induct generalizing value with
  | case1 left right resultType ihleft ihright =>
    rw [Expression.evaluate_and] at h
    obtain ⟨l, hl, h⟩ := ExceptState.bind_eq_ok h
    obtain ⟨r, hr, h⟩ := ExceptState.bind_eq_ok h
    cases h
    have hsides : (l ≠ .bool false ∧ r ≠ .bool false) ∧ l ≠ .null ∧ r ≠ .null := by
      unfold sqlAnd at hfalse hnull
      split at hfalse
      · exact absurd rfl hfalse
      · next hneither =>
        rw [if_neg hneither] at hnull
        split at hnull
        · exact absurd rfl hnull
        · next hboth => exact ⟨not_or.mp hneither, not_or.mp hboth⟩
    rw [Expression.splitConjuncts, List.forall_mem_append]
    exact ⟨ihleft hl hsides.1.1 hsides.2.1, ihright hr hsides.1.2 hsides.2.2⟩
  | case2 predicate hatom =>
    rw [Expression.splitConjuncts_of_atom hatom]
    exact List.forall_mem_singleton.mpr ⟨value, h, hfalse, hnull⟩

/-- The equalities in a true predicate are true. -/
theorem matches_of_true {predicate conjunct : Expression} {row : Row}
    {pair : Expression × Expression} (htrue : predicate.isTrue py row = true)
    (hmem : conjunct ∈ predicate.splitConjuncts)
    (hequality : equality py conjunct = .ok (some pair)) : Matches py row row pair := by
  obtain ⟨value, hvalue, hfalse, hnull⟩ := conjuncts_settled (Expression.isTrue_iff.mp htrue)
    nofun nofun conjunct hmem
  obtain ⟨type, rfl, -⟩ := equality_eq_some hequality
  rcases booleanValued_equal pair.1 pair.2 type row value hvalue with rfl | ⟨b, rfl⟩
  · exact absurd rfl hnull
  · cases b
    · exact absurd rfl hfalse
    · exact evaluate_equal_true_iff.mp hvalue

/-! ### Rows of an inner join -/

/-- The columns of the equalities of an inner join are in the rows it pairs, and in its own. -/
def ColumnsExposed (py : Python) (db : Database) : LogicalPlan → Prop
  | .join _ left right .inner condition schema _ _ =>
      ∀ name source type, .column name source type ∈ terms condition.splitConjuncts →
        Expression.qualifiedName name source ∈ schema.names ∧
          ∀ leftRows rightRows, left.rows py db = .ok leftRows → right.rows py db = .ok rightRows →
            ∀ l ∈ leftRows, ∀ r ∈ rightRows,
              Expression.qualifiedName name source ∈ (l.union r).names
  | _ => True

/-- A row of an inner join comes from a pair on which the condition is true. -/
theorem mem_joinRows_inner {condition : Expression}
    {leftNames rightNames outputNames : List String} {left right rows : List Row} {row : Row}
    (h : joinRows py .inner condition leftNames rightNames outputNames left right = .ok rows)
    (hrow : row ∈ rows) :
    ∃ l ∈ left, ∃ r ∈ right, condition.isTrue py (l.union r) = true ∧
      row = (l.union r).restrict outputNames := by
  have hbag : row ∈ (joinRelation py .inner condition leftNames rightNames outputNames).bag
      (left : Multiset Row) (right : Multiset Row) := by
    rw [← coe_joinRows h]
    exact hrow
  rw [BagJoin.bag, BagJoin.leftOver, BagJoin.rightOver] at hbag
  have hleft : (joinRelation py .inner condition leftNames rightNames outputNames).keepLeft =
      false := rfl
  have hright : (joinRelation py .inner condition leftNames rightNames outputNames).keepRight =
      false := rfl
  -- an inner join keeps no row without a match
  rw [hleft, hright, if_neg Bool.false_ne_true, if_neg Bool.false_ne_true, add_zero, add_zero]
    at hbag
  obtain ⟨l, hl, hpaired⟩ := Multiset.mem_bind.mp hbag
  obtain ⟨r, hr, rfl⟩ := Multiset.mem_map.mp hpaired
  obtain ⟨hr, hmatches⟩ := Multiset.mem_filter.mp hr
  exact ⟨l, hl, r, hr, hmatches, rfl⟩

/-- A term has its value also on the row that keeps its column. -/
theorem evaluate_restrict {term : Expression} {row : Row} {names : List String}
    (hterm : isTerm term = true)
    (hcolumn : ∀ name source type, term = .column name source type →
      Expression.qualifiedName name source ∈ names ∧
        Expression.qualifiedName name source ∈ row.names) :
    term.evaluate py (row.restrict names) = term.evaluate py row := by
  unfold isTerm at hterm
  split at hterm
  case h_1 name source type =>
    obtain ⟨hname, hrow⟩ := hcolumn name source type rfl
    obtain ⟨value, hvalue⟩ := Option.isSome_iff_exists.mp (Row.get?_isSome.mpr hrow)
    rw [Expression.evaluate, Expression.evaluate, Row.get?_restrict, if_pos hname, hvalue]
    rfl
  case h_2 => exact Expression.evaluate_constant hterm _ _

variable {db : Database}

/-- The equalities of the condition of an inner join are true on its rows. -/
theorem matches_joinEvidence {input : LogicalPlan} {rows : List Row} {row : Row}
    (hexposed : ColumnsExposed py db input) (hrows : input.rows py db = .ok rows)
    (hrow : row ∈ rows) {conjunct : Expression} (hmem : conjunct ∈ joinEvidence input)
    {pair : Expression × Expression} (hequality : equality py conjunct = .ok (some pair)) :
    Matches py row row pair := by
  unfold joinEvidence at hmem
  split at hmem
  case h_2 => cases hmem
  case h_1 nodeId left right condition schema inputLimit buildSide =>
    rw [LogicalPlan.rows] at hrows
    obtain ⟨leftRows, hleftRows, hrows⟩ := ExceptState.bind_eq_ok hrows
    obtain ⟨rightRows, hrightRows, hrows⟩ := ExceptState.bind_eq_ok hrows
    obtain ⟨l, hl, r, hr, htrue, rfl⟩ := mem_joinRows_inner hrows hrow
    have hpair := matches_of_true htrue hmem hequality
    obtain ⟨type, rfl, ⟨hleft, -⟩, hright, -⟩ := equality_eq_some hequality
    -- both sides evaluate on the output row as on the pair
    have hside : ∀ term, term = pair.1 ∨ term = pair.2 → isTerm term = true →
        term.evaluate py ((l.union r).restrict schema.names) = term.evaluate py (l.union r) := by
      rintro term hside hterm
      refine evaluate_restrict hterm fun name source type' heq => ?_
      have hmemTerm : Expression.column name source type' ∈ terms condition.splitConjuncts := by
        refine List.mem_flatMap.mpr ⟨_, hmem, List.mem_filter.mpr ⟨?_, by rw [← heq]; exact hterm⟩⟩
        rw [← heq]
        rcases hside with rfl | rfl
        · exact List.mem_cons_self
        · exact List.mem_cons_of_mem _ List.mem_cons_self
      obtain ⟨hname, hunion⟩ := hexposed name source type' hmemTerm
      exact ⟨hname, hunion leftRows rightRows hleftRows hrightRows l hl r hr⟩
    obtain ⟨value, value', hvalue, hvalue', hrest⟩ := hpair
    exact ⟨value, value', (hside _ (.inl rfl) hleft).trans hvalue,
      (hside _ (.inr rfl) hright).trans hvalue', hrest⟩

/-! ### The filter -/

/-- Predicates that evaluate on the same rows and are true on the same rows select the same. -/
theorem filterRows_congr {predicate predicate' : Expression} {rows : List Row}
    (h : ∀ row ∈ rows, ((∃ value, predicate'.evaluate py row = .ok value) ↔
        ∃ value, predicate.evaluate py row = .ok value) ∧
      ((∃ value, predicate.evaluate py row = .ok value) →
        (predicate'.isTrue py row = true ↔ predicate.isTrue py row = true))) (kept : List Row) :
    filterRows py predicate' rows = .ok kept ↔ filterRows py predicate rows = .ok kept := by
  by_cases hvalues : ∀ row ∈ rows, ∃ value, predicate.evaluate py row = .ok value
  · have hvalues' : ∀ row ∈ rows, ∃ value, predicate'.evaluate py row = .ok value :=
      fun row hrow => (h row hrow).1.mpr (hvalues row hrow)
    rw [filterRows_eq hvalues, filterRows_eq hvalues',
      List.filter_congr fun row hrow => Bool.eq_iff_iff.mpr ((h row hrow).2 (hvalues row hrow))]
  · refine iff_of_false (fun hkept => hvalues fun row hrow => ?_)
      fun hkept => hvalues (evaluates_of_filterRows hkept)
    exact (h row hrow).1.mp (evaluates_of_filterRows hkept row hrow)

section Filter

variable {nodeId phase : String} {input : LogicalPlan} {predicate : Expression} {schema : Schema}
  {plan' : LogicalPlan}

/-- What the rule adds to the conjuncts of a filter. -/
def additions (py : Python) (pairs : List (Expression × Expression)) (evidence : List Expression) :
    List Expression :=
  (closurePairs py pairs).filter (equalityKey py · ∉ evidence.map (equalityKey py))

theorem apply_eq
    (hpairs : equalities py (predicate.splitConjuncts ++ joinEvidence input) = .ok pairs) :
    apply py (.filter nodeId input predicate schema phase) =
      .ok ((extendPredicate py predicate
        (additions py pairs (predicate.splitConjuncts ++ joinEvidence input))).map
          fun extended => .filter nodeId input extended schema phase) := by
  have hinferred : equalityClosure py (predicate.splitConjuncts ++ joinEvidence input) =
      .ok (closurePairs py pairs) := by
    rw [equalityClosure, hpairs]
    rfl
  rw [apply, hinferred]
  rfl

/-- What the rule makes of a filter. -/
theorem apply_eq_some
    (h : apply py (.filter nodeId input predicate schema phase) = .ok (some plan')) :
    ∃ pairs extended, equalities py (predicate.splitConjuncts ++ joinEvidence input) = .ok pairs ∧
      extendPredicate py predicate
        (additions py pairs (predicate.splitConjuncts ++ joinEvidence input)) = some extended ∧
      plan' = .filter nodeId input extended schema phase := by
  have happly := h
  obtain ⟨inferred, hinferred, -⟩ := ExceptState.bind_eq_ok h
  obtain ⟨pairs, hpairs, -⟩ := ExceptState.bind_eq_ok hinferred
  rw [apply_eq hpairs] at happly
  obtain ⟨extended, hextended, hplan⟩ := Option.map_eq_some_iff.mp (Except.ok.inj happly)
  exact ⟨pairs, extended, hpairs, hextended, hplan.symm⟩

/-- A rule that adds nothing leaves the filter. -/
theorem apply_eq_none
    (hpairs : equalities py (predicate.splitConjuncts ++ joinEvidence input) = .ok pairs)
    (hkeys : ∀ expression ∈ closurePairs py pairs, equalityKey py expression ∈
      (predicate.splitConjuncts ++ joinEvidence input).map (equalityKey py)) :
    apply py (.filter nodeId input predicate schema phase) = .ok none := by
  have hnothing : additions py pairs (predicate.splitConjuncts ++ joinEvidence input) = [] :=
    List.filter_eq_nil_iff.mpr fun expression hexpression hnew =>
      of_decide_eq_true hnew (hkeys expression hexpression)
  rw [apply_eq hpairs, hnothing]
  rfl

section Extended

variable {extended : Expression}
  (hpairs : equalities py (predicate.splitConjuncts ++ joinEvidence input) = .ok pairs)
  (htell : ConjunctsTell py (predicate.splitConjuncts ++
    additions py pairs (predicate.splitConjuncts ++ joinEvidence input)))
  (hextended : extended.splitConjuncts.Perm (keptConjuncts py (predicate.splitConjuncts ++
    additions py pairs (predicate.splitConjuncts ++ joinEvidence input))))
include hpairs htell hextended

/-- The new predicate selects the rows that the old one selects. -/
theorem filterRows_extended (hterms : TermsTell py (termsOf pairs))
    (hexposed : ColumnsExposed py db input) {rows : List Row} (hrows : input.rows py db = .ok rows)
    (hboolean : ∀ row ∈ rows, ∀ conjunct ∈ predicate.splitConjuncts,
      Expression.BooleanValued py row conjunct) (kept : List Row) :
    filterRows py extended rows = .ok kept ↔ filterRows py predicate rows = .ok kept := by
  refine filterRows_congr (fun row hrow => ?_) kept
  -- the terms of the join's equalities always have a value, those of the filter's where it has
  have hvalues : (∃ value, predicate.evaluate py row = .ok value) → ∀ term ∈ termsOf pairs,
      ∃ value, term.evaluate py row = .ok value := by
    rintro ⟨value, hvalue⟩ term hterm
    obtain ⟨pair, hpair, hside⟩ := mem_termsOf.mp hterm
    obtain ⟨conjunct, hconjunct, hequality⟩ := (mem_equalities hpairs).mp hpair
    rcases List.mem_append.mp hconjunct with hfilter | hjoin
    · obtain ⟨type, rfl, -⟩ := equality_eq_some hequality
      have hsides := equal_evaluates_iff.mp
        (Expression.splitConjuncts_evaluates hvalue _ hfilter)
      rcases hside with rfl | rfl
      · exact hsides.1
      · exact hsides.2
    · obtain ⟨v, w, hv, hw, -⟩ := matches_joinEvidence hexposed hrows hrow hjoin hequality
      rcases hside with rfl | rfl
      · exact ⟨v, hv⟩
      · exact ⟨w, hw⟩
  have htrue : predicate.isTrue py row = true → ∀ pair ∈ pairs, Matches py row row pair := by
    intro htrue pair hpair
    obtain ⟨conjunct, hconjunct, hequality⟩ := (mem_equalities hpairs).mp hpair
    rcases List.mem_append.mp hconjunct with hfilter | hjoin
    · exact matches_of_true htrue hfilter hequality
    · exact matches_joinEvidence hexposed hrows hrow hjoin hequality
  refine extended_agrees htell hextended (hboolean row hrow) ?_ ?_
  · intro hvalue addition haddition
    obtain ⟨left, right, rfl, hleft, hright, -⟩ :=
      mem_closurePairs (List.mem_of_mem_filter haddition)
    obtain ⟨value, heq⟩ := equal_evaluates_iff.mpr
      ⟨hvalues hvalue left hleft, hvalues hvalue right hright⟩
    exact ⟨value, heq, booleanValued_equal left right _ row value heq⟩
  · exact fun hpredicate addition haddition =>
      inferred_true (htrue hpredicate) hterms (List.mem_of_mem_filter haddition)

/-- From the new filter nothing is inferred. -/
theorem apply_extended : apply py (.filter nodeId input extended schema phase) = .ok none := by
  set evidence := predicate.splitConjuncts ++ joinEvidence input with hevidence
  -- every key of the conjuncts and of the additions is among the keys of the new conjuncts
  have hkept : ∀ conjunct ∈ predicate.splitConjuncts ++ additions py pairs evidence,
      equalityKey py conjunct ∈
        (extended.splitConjuncts ++ joinEvidence input).map (equalityKey py) := by
    intro conjunct hconjunct
    obtain ⟨kept, hmem, -, hkey⟩ := exists_kept htell hconjunct
    rw [← hkey]
    exact List.mem_map_of_mem (List.mem_append_left _ (hextended.mem_iff.mpr hmem))
  have hsub : ∀ conjunct ∈ extended.splitConjuncts ++ joinEvidence input,
      conjunct ∈ evidence ∨ conjunct ∈ closurePairs py pairs := by
    intro conjunct hmem
    rcases List.mem_append.mp hmem with hnew | hjoin
    · have hall : conjunct ∈ predicate.splitConjuncts ++ additions py pairs evidence :=
        mem_iff_kept_or_dropped.mpr (.inl (hextended.mem_iff.mp hnew))
      rcases List.mem_append.mp hall with hold | hadded
      · exact .inl (List.mem_append_left _ hold)
      · exact .inr (List.mem_of_mem_filter hadded)
    · exact .inl (List.mem_append_right _ hjoin)
  have hkeys : ∀ expression ∈ closurePairs py pairs, equalityKey py expression ∈
      (extended.splitConjuncts ++ joinEvidence input).map (equalityKey py) := by
    intro expression hexpression
    by_cases hkey : equalityKey py expression ∈ evidence.map (equalityKey py)
    · obtain ⟨conjunct, hconjunct, heq⟩ := List.mem_map.mp hkey
      rw [← heq]
      rcases List.mem_append.mp hconjunct with hold | hjoin
      · exact hkept conjunct (List.mem_append_left _ hold)
      · exact List.mem_map_of_mem (List.mem_append_right _ hjoin)
    · exact hkept expression (List.mem_append_right _
        (List.mem_filter.mpr ⟨hexpression, decide_eq_true hkey⟩))
  obtain ⟨pairs', hpairs', hagain⟩ := nothing_inferred hpairs hsub hkeys
  exact apply_eq_none hpairs' hagain

end Extended

end Filter

open PredicatePushdownJoin (lowercase idColumn idScan sampleDatabase)

/-- `l.id`, 2 and `r.id`. -/
def sampleTerm : Fin 3 → Expression
  | 0 => idColumn "l"
  | 1 => .literal (.int 2) ⟨.int64, false⟩
  | 2 => idColumn "r"

def idSchema : Schema := [⟨"l.id", .int64, true⟩, ⟨"r.id", .int64, true⟩]

/-- `l` and `r`, joined on `l.id = r.id`. -/
def idJoin : LogicalPlan :=
  .join "join_1" (idScan "l") (idScan "r") .inner (termEquality (sampleTerm 0) (sampleTerm 2))
    idSchema none .right

private theorem additions_idJoin :
    additions lowercase [(sampleTerm 0, sampleTerm 1), (sampleTerm 0, sampleTerm 2)]
      [termEquality (sampleTerm 0) (sampleTerm 1), termEquality (sampleTerm 0) (sampleTerm 2)] =
        [termEquality (sampleTerm 1) (sampleTerm 2)] := by
  have hkeys : (termsByText lowercase
      [(sampleTerm 0, sampleTerm 1), (sampleTerm 0, sampleTerm 2)]).keys.Perm
        ["2", "l.id", "r.id"] := by decide
  have hedges : textEdges lowercase [(sampleTerm 0, sampleTerm 1), (sampleTerm 0, sampleTerm 2)] =
      [("l.id", "2"), ("l.id", "r.id")] := by decide
  have hcomponents : components [("l.id", "2"), ("l.id", "r.id")] ["2", "l.id", "r.id"] =
      [["2", "l.id", "r.id"]] := by
    simp [components, Components.explore, Components.neighbours]
  rw [additions, closurePairs_connected hkeys (by decide) (by rw [hedges, hcomponents])]
  rfl

/-- The double next to 0.1. -/
def tenth : PyFloat := ⟨false, 1019, 2702159776422298⟩

/-- A runtime that prints the double and the decimal 0.1, both as `0.1`. -/
def tenths : Python := { Python.ascii with
  str := fun
    | .float value => if value = tenth then "0.1" else Python.ascii.str (.float value)
    | .decimal (.finite false 1 (-1)) => "0.1"
    | value => Python.ascii.str value }

def columnX : Expression := .column "x" "t" ⟨.float64, true⟩

def columnY : Expression := .column "y" "t" ⟨.decimal, true⟩

def doubleTenth : Expression := .literal (.float tenth) ⟨.float64, false⟩

def decimalTenth : Expression := .literal (.decimal (.finite false 1 (-1))) ⟨.decimal, false⟩

/-- `t.x = 0.1 AND t.y = CAST('0.1' AS DECIMAL)`, folded. -/
def tenthsPredicate : Expression :=
  .binary .and (termEquality columnX doubleTenth) (termEquality columnY decimalTenth)
    ⟨.boolean, true⟩

def tenthsSchema : Schema := [⟨"x", .float64, true⟩, ⟨"y", .decimal, true⟩]

def tenthsFilter : LogicalPlan :=
  .filter "filter_1" (.scan "scan_1" "t" "t" tenthsSchema) tenthsPredicate tenthsSchema "where"

/-- The table holds one row of both tenths. -/
def tenthsDatabase : Database where
  scan _ _ _ := .ok [[("t.x", .float tenth), ("t.y", .decimal (.finite false 1 (-1)))]]
  operator _ _ := .ok []

private theorem additions_tenths :
    additions tenths [(columnX, doubleTenth), (columnY, decimalTenth)]
      (tenthsPredicate.splitConjuncts ++ []) = [termEquality columnX columnY] := by
  have hkeys : (termsByText tenths [(columnX, doubleTenth), (columnY, decimalTenth)]).keys.Perm
      ["0.1", "t.x", "t.y"] := by decide
  have hedges : textEdges tenths [(columnX, doubleTenth), (columnY, decimalTenth)] =
      [("t.x", "0.1"), ("t.y", "0.1")] := by decide
  have hcomponents : components [("t.x", "0.1"), ("t.y", "0.1")] ["0.1", "t.x", "t.y"] =
      [["0.1", "t.x", "t.y"]] := by
    simp [components, Components.explore, Components.neighbours]
  rw [additions, closurePairs_connected hkeys (by decide) (by rw [hedges, hcomponents])]
  rfl

private theorem extendPredicate_tenths :
    extendPredicate tenths tenthsPredicate [termEquality columnX columnY] =
      some (Expression.combineConjuncts (termEquality columnX doubleTenth)
        [termEquality columnX columnY, termEquality columnY decimalTenth]) := by
  have hextend : extendPredicate tenths tenthsPredicate [termEquality columnX columnY] =
      some (normalizeConjuncts tenths (Expression.combineConjuncts
        (termEquality columnX doubleTenth)
        [termEquality columnY decimalTenth, termEquality columnX columnY])) := rfl
  rw [hextend]
  unfold normalizeConjuncts
  extract_lets unique
  have hkeys : unique.keys.Perm ["(t.x = 0.1)", "(t.x = t.y)", "(t.y = 0.1)"] := by
    decide
  rw [mergeSort_texts hkeys (by decide)]
  rfl

end EqualityInference

end DistributedSql
