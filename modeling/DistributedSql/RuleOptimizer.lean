/-
The rule optimizer (`optimizer/optimizer.py`).

A rule for single nodes is tried on every node from the leaves up, the node with its inputs as
the rule has left them.  The rules follow each other in rounds.

Main results:
* `RuleOptimizer.optimize_stable` — what the optimizer gives when it has converged it leaves as
  it is, and more rounds would not have changed it;
* `RuleOptimizer.optimize_related` — what every rule keeps of a plan the optimizer keeps;
* `RuleOptimizer.optimize_keeps` — over the rules for projections and limits its result has the
  rows of the plan.
-/
import DistributedSql.JoinReorder
import DistributedSql.LocalOperators
import DistributedSql.PredicateMerge
import DistributedSql.ProjectionRules
import DistributedSql.RewriteLoops

namespace DistributedSql

/-! ### Equality of plans -/

def NamedExpression.same (item item' : NamedExpression) : Bool :=
  item.name = item'.name && item.expression.same item'.expression

def SortExpression.same (item item' : SortExpression) : Bool :=
  item.expression.same item'.expression && item.ascending = item'.ascending
    && item.nullsFirst = item'.nullsFirst

/-- `==` of two tuples. -/
def tupleSame {α : Type} (same : α → α → Bool) : List α → List α → Bool
  | [], [] => true
  | a :: rest, a' :: rest' => same a a' && tupleSame same rest rest'
  | _, _ => false

namespace LogicalPlan

/-- `==` of two plans: the classes and all fields. -/
def same : LogicalPlan → LogicalPlan → Bool
  | .scan nodeId tableName tableAlias schema, .scan nodeId' tableName' tableAlias' schema' =>
      nodeId = nodeId' && tableName = tableName' && tableAlias = tableAlias' && schema = schema'
  | .project nodeId input expressions schema, .project nodeId' input' expressions' schema' =>
      nodeId = nodeId' && input.same input'
        && tupleSame NamedExpression.same expressions expressions' && schema = schema'
  | .filter nodeId input predicate schema phase,
      .filter nodeId' input' predicate' schema' phase' =>
      nodeId = nodeId' && input.same input' && predicate.same predicate' && schema = schema'
        && phase = phase'
  | .aggregate nodeId input groupBy aggregates schema,
      .aggregate nodeId' input' groupBy' aggregates' schema' =>
      nodeId = nodeId' && input.same input' && tupleSame Expression.same groupBy groupBy'
        && tupleSame NamedExpression.same aggregates aggregates' && schema = schema'
  | .join nodeId left right joinType condition schema inputLimit buildSide,
      .join nodeId' left' right' joinType' condition' schema' inputLimit' buildSide' =>
      nodeId = nodeId' && left.same left' && right.same right' && joinType = joinType'
        && condition.same condition' && schema = schema' && inputLimit = inputLimit'
        && buildSide = buildSide'
  | .limit nodeId input count schema, .limit nodeId' input' count' schema' =>
      nodeId = nodeId' && input.same input' && count = count' && schema = schema'
  | .order nodeId input orderBy schema, .order nodeId' input' orderBy' schema' =>
      nodeId = nodeId' && input.same input' && tupleSame SortExpression.same orderBy orderBy'
        && schema = schema'
  | .window nodeId input expressions schema, .window nodeId' input' expressions' schema' =>
      nodeId = nodeId' && input.same input'
        && tupleSame NamedExpression.same expressions expressions' && schema = schema'
  | .groupingSets nodeId input sets aggregates schema,
      .groupingSets nodeId' input' sets' aggregates' schema' =>
      nodeId = nodeId' && input.same input' && tupleSame (tupleSame Expression.same) sets sets'
        && tupleSame NamedExpression.same aggregates aggregates' && schema = schema'
  | _, _ => false

/-- `replace_children`, with a plan for each input. -/
def replaceChildren : LogicalPlan → List LogicalPlan → LogicalPlan
  | .project nodeId _ expressions schema, child :: _ => .project nodeId child expressions schema
  | .filter nodeId _ predicate _ phase, child :: _ =>
      .filter nodeId child predicate child.outputSchema phase
  | .aggregate nodeId _ groupBy aggregates schema, child :: _ =>
      .aggregate nodeId child groupBy aggregates schema
  | .join nodeId _ _ joinType condition schema inputLimit buildSide, left :: right :: _ =>
      .join nodeId left right joinType condition schema inputLimit buildSide
  | .limit nodeId _ count _, child :: _ => .limit nodeId child count child.outputSchema
  | .order nodeId _ orderBy _, child :: _ => .order nodeId child orderBy child.outputSchema
  | .window nodeId _ expressions schema, child :: _ => .window nodeId child expressions schema
  | .groupingSets nodeId _ sets aggregates schema, child :: _ =>
      .groupingSets nodeId child sets aggregates schema
  | plan, _ => plan

end LogicalPlan

/-! ### The optimizer -/

/-- `Rule`. -/
structure Rule where
  name : String
  wholePlan : Bool
  apply : LogicalPlan → Except PyError (Option LogicalPlan)

/-- What a rule rewrote, and what it made of it. -/
abbrev Changes : Type := List (LogicalPlan × LogicalPlan)

/-- `RuleTrace`; the iteration is the number that the entry has in the loop. -/
structure RuleTrace where
  rule : String
  before : String
  after : String

namespace RuleOptimizer

/-- The end of `_apply_recursive`: the rule on a node whose inputs are done. -/
def applyHere (rule : Rule) (candidate : LogicalPlan) (changes : Changes) :
    Except PyError (LogicalPlan × Changes) := do
  match ← rule.apply candidate with
  | none => return (candidate, changes)
  | some rewritten =>
      return if rewritten.same candidate then (candidate, changes)
        else (rewritten, changes ++ [(candidate, rewritten)])

/-- `_apply_recursive` after the loop over the inputs, with what it gave for each of them. -/
def applyNode (rule : Rule) (plan : LogicalPlan)
    (inputs : List (LogicalPlan × Option LogicalPlan × Changes)) :
    Except PyError (Option LogicalPlan × Changes) := do
  let actual := inputs.map fun input => input.2.1.getD input.1
  let changed := inputs.any fun input => !(input.2.1.getD input.1).same input.1
  let candidate := if changed then plan.replaceChildren actual else plan
  let result ← applyHere rule candidate (inputs.flatMap fun input => input.2.2)
  return if result.1.same plan then (none, result.2) else (some result.1, result.2)

/-- `_apply_recursive`. -/
def applyRecursive (rule : Rule) : LogicalPlan → Except PyError (Option LogicalPlan × Changes)
  | .scan nodeId tableName tableAlias schema =>
      applyNode rule (.scan nodeId tableName tableAlias schema) []
  | .project nodeId input expressions schema => do
      applyNode rule (.project nodeId input expressions schema)
        [(input, ← applyRecursive rule input)]
  | .filter nodeId input predicate schema phase => do
      applyNode rule (.filter nodeId input predicate schema phase)
        [(input, ← applyRecursive rule input)]
  | .aggregate nodeId input groupBy aggregates schema => do
      applyNode rule (.aggregate nodeId input groupBy aggregates schema)
        [(input, ← applyRecursive rule input)]
  | .join nodeId left right joinType condition schema inputLimit buildSide => do
      let leftResult ← applyRecursive rule left
      let rightResult ← applyRecursive rule right
      applyNode rule (.join nodeId left right joinType condition schema inputLimit buildSide)
        [(left, leftResult), (right, rightResult)]
  | .limit nodeId input count schema => do
      applyNode rule (.limit nodeId input count schema) [(input, ← applyRecursive rule input)]
  | .order nodeId input orderBy schema => do
      applyNode rule (.order nodeId input orderBy schema) [(input, ← applyRecursive rule input)]
  | .window nodeId input expressions schema => do
      applyNode rule (.window nodeId input expressions schema)
        [(input, ← applyRecursive rule input)]
  | .groupingSets nodeId input sets aggregates schema => do
      applyNode rule (.groupingSets nodeId input sets aggregates schema)
        [(input, ← applyRecursive rule input)]

/-- What a rule makes of a whole plan, and what it changed. -/
def applyRule (rule : Rule) (plan : LogicalPlan) :
    Except PyError (Option (LogicalPlan × Changes)) := do
  if rule.wholePlan then
    return (← rule.apply plan).map fun rewritten => (rewritten, [(plan, rewritten)])
  else
    let (rewritten, changes) ← applyRecursive rule plan
    return rewritten.map fun rewritten => (rewritten, changes)

/-- The entries of the trace for what a rule changed. -/
def entries (py : Python) (rule : Rule) (changes : Changes) : List RuleTrace :=
  (changes.filter fun change => !change.1.same change.2).map fun change =>
    ⟨rule.name, change.1.planText py 0, change.2.planText py 0⟩

end RuleOptimizer

/-- `RuleOptimizer`. -/
structure RuleOptimizer where
  rules : List Rule
  maxIterations : ℕ := 32
  positive : 0 < maxIterations := by decide

/-- `OptimizationResult`. -/
structure OptimizationResult where
  originalPlan : LogicalPlan
  optimizedPlan : LogicalPlan
  trace : List (ℕ × RuleTrace)
  iterations : ℕ
  termination : RewriteLoop.Termination

namespace OptimizationResult

def converged (result : OptimizationResult) : Bool := result.termination = .fixedPoint

end OptimizationResult

namespace RuleOptimizer

variable (py : Python)

/-- The loop of `optimize`; `repr` is the text a plan is known by. -/
def loop (repr : LogicalPlan → String) (rules : List Rule) :
    RewriteLoop LogicalPlan RuleTrace String PyError where
  same := LogicalPlan.same
  fingerprint := repr
  passes := rules.map fun rule plan => do
    let result ← applyRule rule plan
    return result.map fun result => (result.1, entries py rule result.2)

/-- `RuleOptimizer.optimize`. -/
def optimize (repr : LogicalPlan → String) (optimizer : RuleOptimizer) (plan : LogicalPlan) :
    Except PyError OptimizationResult := do
  let outcome ← (loop py repr optimizer.rules).run optimizer.maxIterations plan
  return ⟨plan, outcome.term, outcome.trace, outcome.iterations, outcome.termination⟩

end RuleOptimizer

/-! ### Rounds -/

namespace RuleOptimizer

def predicatePushdownProject (py : Python) : Rule :=
  ⟨"predicate_pushdown_project", false, PredicatePushdownProject.apply py⟩

def limitPushdownProject : Rule :=
  ⟨"limit_pushdown_project", false, fun plan => .ok (LimitPushdownProject.apply plan)⟩

def limitJoinInputHint : Rule :=
  ⟨"limit_join_input_hint", false, fun plan => .ok (LimitJoinInputHint.apply plan)⟩

variable {py : Python} {repr : LogicalPlan → String}

/-- When the optimizer has ended before its last round, more rounds give the same, and when it has
converged it has nothing left to do on its result. -/
theorem optimize_stable {rules : List Rule} {maxIterations : ℕ} {positive : 0 < maxIterations}
    {plan : LogicalPlan} {result : OptimizationResult}
    (h : optimize py repr ⟨rules, maxIterations, positive⟩ plan = .ok result) :
    (result.termination ≠ .maxIterations → ∀ more (hmore : maxIterations ≤ more),
      optimize py repr ⟨rules, more, positive.trans_le hmore⟩ plan = .ok result) ∧
    (result.converged = true → ∀ rounds (hrounds : 0 < rounds),
      optimize py repr ⟨rules, rounds, hrounds⟩ result.optimizedPlan
        = .ok ⟨result.optimizedPlan, result.optimizedPlan, [], 1, .fixedPoint⟩) ∧
    result.iterations ≤ maxIterations ∧
    ∀ entry ∈ result.trace, 1 ≤ entry.1 ∧ entry.1 ≤ result.iterations := by
  obtain ⟨outcome, hrun, hresult⟩ := ExceptState.bind_eq_ok h
  cases hresult
  obtain ⟨hiterations, htrace, -⟩ := RewriteLoop.run_iterations hrun
  refine ⟨fun hended more hmore => ?_, fun hconverged rounds hrounds => ?_, hiterations, htrace⟩
  · have hmoreRun := RewriteLoop.run_more hrun hended hmore
    rw [optimize, hmoreRun]
    rfl
  · have hleaves := RewriteLoop.run_converged hrun (of_decide_eq_true hconverged)
    rw [optimize, RewriteLoop.run_again hrounds hleaves]
    rfl

/-- A table of integers. -/
def xScan : LogicalPlan := .scan "scan" "t" "t" [⟨"x", .int64, true⟩]

def limitRule : RuleOptimizer := { rules := [limitPushdownProject] }

/-- A limit that goes below a projection in the first of two rounds. -/
theorem optimize_stable_limit : ∃ result : OptimizationResult, result.trace.length = 1 ∧
    ∀ more (hmore : 32 ≤ more),
      optimize Python.ascii (·.planText Python.ascii 0)
        ⟨[limitPushdownProject], more, Nat.lt_of_lt_of_le (by decide) hmore⟩
        (.limit "limit" (.project "project" xScan [] []) 1 []) = .ok result := by
  have h : optimize Python.ascii (·.planText Python.ascii 0) limitRule
      (.limit "limit" (.project "project" xScan [] []) 1 []) = .ok _ := rfl
  exact ⟨_, rfl, (optimize_stable h).1 (by decide)⟩

/-! ### Plans below a rule -/

/-- A relation that holds of plans when it holds of their inputs. -/
structure Congruence (R : LogicalPlan → LogicalPlan → Prop) : Prop where
  refl : ∀ plan, R plan plan
  trans : ∀ {plan plan' plan'' : LogicalPlan}, R plan plan' → R plan' plan'' → R plan plan''
  unary : ∀ {plan input input' : LogicalPlan}, plan.children = [input] → R input input' →
    R plan (plan.replaceChildren [input'])
  binary : ∀ {plan left left' right right' : LogicalPlan}, plan.children = [left, right] →
    R left left' → R right right' → R plan (plan.replaceChildren [left', right'])

variable {R : LogicalPlan → LogicalPlan → Prop}

/-- What the rule gives for a plan is related to it. -/
def Relates (R : LogicalPlan → LogicalPlan → Prop) (rule : Rule) : Prop :=
  ∀ plan plan', rule.apply plan = .ok (some plan') → R plan plan'

theorem applyHere_related (hR : Congruence R) {rule : Rule} (hrule : Relates R rule)
    {candidate : LogicalPlan} {changes : Changes} {result : LogicalPlan × Changes}
    (h : applyHere rule candidate changes = .ok result) : R candidate result.1 := by
  obtain ⟨applied, happlied, h⟩ := ExceptState.bind_eq_ok h
  cases applied with
  | none =>
    cases h
    exact hR.refl candidate
  | some rewritten =>
    cases h
    split
    · exact hR.refl candidate
    · exact hrule _ _ happlied

theorem applyNode_related (hR : Congruence R) {rule : Rule} (hrule : Relates R rule)
    {plan plan' : LogicalPlan} {inputs : List (LogicalPlan × Option LogicalPlan × Changes)}
    {changes : Changes}
    (hinputs : R plan (plan.replaceChildren (inputs.map fun input => input.2.1.getD input.1)))
    (h : applyNode rule plan inputs = .ok (some plan', changes)) : R plan plan' := by
  obtain ⟨result, hresult, h⟩ := ExceptState.bind_eq_ok h
  have hcandidate : R plan (if (inputs.any fun input =>
      !(input.2.1.getD input.1).same input.1) = true then
        plan.replaceChildren (inputs.map fun input => input.2.1.getD input.1) else plan) := by
    split
    · exact hinputs
    · exact hR.refl plan
  have hrelated := hR.trans hcandidate (applyHere_related hR hrule hresult)
  by_cases hsame : result.1.same plan = true
  · rw [if_pos hsame] at h
    cases h
  · rw [if_neg hsame] at h
    cases h
    exact hrelated

/-- The plan that is left of an input. -/
theorem related_getD (hR : Congruence R) {input : LogicalPlan} {result : Option LogicalPlan}
    (h : ∀ input', result = some input' → R input input') : R input (result.getD input) := by
  cases result with
  | none => exact hR.refl input
  | some input' => exact h input' rfl

theorem applyNode_unary (hR : Congruence R) {rule : Rule} (hrule : Relates R rule)
    {plan plan' input : LogicalPlan} (hchildren : plan.children = [input]) {changes : Changes}
    (ih : ∀ {input' changes}, applyRecursive rule input = .ok (some input', changes) →
      R input input')
    (h : (applyRecursive rule input >>= fun result => applyNode rule plan [(input, result)])
      = .ok (some plan', changes)) : R plan plan' := by
  obtain ⟨⟨result, below⟩, hresult, h⟩ := ExceptState.bind_eq_ok h
  have hinput : R input (result.getD input) := related_getD hR fun input' heq => by
    subst heq
    exact ih hresult
  have hinputs : R plan (plan.replaceChildren ([(input, result, below)].map
      fun input => input.2.1.getD input.1)) := hR.unary hchildren hinput
  exact applyNode_related hR hrule hinputs h

/-- What a rule gives for a plan, tried on every node of it, is related to the plan. -/
theorem applyRecursive_related (hR : Congruence R) {rule : Rule} (hrule : Relates R rule)
    {plan plan' : LogicalPlan} {changes : Changes}
    (h : applyRecursive rule plan = .ok (some plan', changes)) : R plan plan' := by
  induction plan generalizing plan' changes with
  | scan nodeId tableName tableAlias schema =>
    exact applyNode_related hR hrule (hR.refl _) h
  | join nodeId left right joinType condition schema inputLimit buildSide ihleft ihright =>
    obtain ⟨⟨leftResult, leftBelow⟩, hleft, h⟩ := ExceptState.bind_eq_ok h
    obtain ⟨⟨rightResult, rightBelow⟩, hright, h⟩ := ExceptState.bind_eq_ok h
    have hleftInput : R left (leftResult.getD left) := related_getD hR fun left' heq => by
      subst heq
      exact ihleft hleft
    have hrightInput : R right (rightResult.getD right) := related_getD hR fun right' heq => by
      subst heq
      exact ihright hright
    exact applyNode_related hR hrule (hR.binary rfl hleftInput hrightInput) h
  | project nodeId input expressions schema ih => exact applyNode_unary hR hrule rfl ih h
  | filter nodeId input predicate schema phase ih => exact applyNode_unary hR hrule rfl ih h
  | aggregate nodeId input groupBy aggregates schema ih => exact applyNode_unary hR hrule rfl ih h
  | limit nodeId input count schema ih => exact applyNode_unary hR hrule rfl ih h
  | order nodeId input orderBy schema ih => exact applyNode_unary hR hrule rfl ih h
  | window nodeId input expressions schema ih => exact applyNode_unary hR hrule rfl ih h
  | groupingSets nodeId input sets aggregates schema ih =>
    exact applyNode_unary hR hrule rfl ih h

/-- What all rules keep the optimizer keeps. -/
theorem optimize_related (hR : Congruence R) {optimizer : RuleOptimizer}
    (hrules : ∀ rule ∈ optimizer.rules, Relates R rule) {plan : LogicalPlan}
    {result : OptimizationResult} (h : optimize py repr optimizer plan = .ok result) :
    R plan result.optimizedPlan := by
  obtain ⟨outcome, hrun, hresult⟩ := ExceptState.bind_eq_ok h
  cases hresult
  refine RewriteLoop.run_related (R := R) hR.refl hR.trans ?_ hrun
  intro pass hpass plan plan' entries hpassed
  obtain ⟨rule, hrule, rfl⟩ := List.mem_map.mp hpass
  obtain ⟨applied, happlied, hpassed⟩ := ExceptState.bind_eq_ok hpassed
  obtain ⟨⟨rewritten, changes⟩, rfl, heq⟩ := Option.map_eq_some_iff.mp (Except.ok.inj hpassed)
  cases heq
  unfold applyRule at happlied
  split at happlied
  · obtain ⟨whole, hwhole, happlied⟩ := ExceptState.bind_eq_ok happlied
    obtain ⟨rewritten', rfl, heq⟩ := Option.map_eq_some_iff.mp (Except.ok.inj happlied)
    cases heq
    exact hrules rule hrule _ _ hwhole
  · obtain ⟨⟨single, below⟩, hsingle, happlied⟩ := ExceptState.bind_eq_ok happlied
    obtain ⟨rewritten', rfl, heq⟩ := Option.map_eq_some_iff.mp (Except.ok.inj happlied)
    cases heq
    exact applyRecursive_related hR (hrules rule hrule) hsingle

/-! ### The rules for projections and limits -/

/-- Every projection of a plan is a plain one. -/
def PlainProjections (py : Python) : LogicalPlan → Prop
  | .scan _ _ _ _ => True
  | .project _ input expressions schema =>
      PredicatePushdownProject.Plain py expressions schema ∧ PlainProjections py input
  | .filter _ input _ _ _ => PlainProjections py input
  | .aggregate _ input _ _ _ => PlainProjections py input
  | .join _ left right _ _ _ _ _ => PlainProjections py left ∧ PlainProjections py right
  | .limit _ input _ _ => PlainProjections py input
  | .order _ input _ _ => PlainProjections py input
  | .window _ input _ _ => PlainProjections py input
  | .groupingSets _ input _ _ _ => PlainProjections py input

section Kept

variable {batchSize : ℕ}
  {scan : (tableName tableAlias : String) → Schema → Except PyError (List Row)}

open LocalExecutor in
/-- From plain projections a plan goes to plain projections and the same rows. -/
def KeptPlain (py : Python) (db : Database) (plan plan' : LogicalPlan) : Prop :=
  PlainProjections py plan → PlainProjections py plan' ∧ Keeps py db plan plan'

open LocalExecutor in
theorem congruence_keptPlain :
    Congruence (KeptPlain py (database py batchSize scan)) where
  refl plan hplain := ⟨hplain, Keeps.refl plan⟩
  trans h h' hplain :=
    have ⟨hplain', hkeeps⟩ := h hplain
    have ⟨hplain'', hkeeps'⟩ := h' hplain'
    ⟨hplain'', hkeeps.trans hkeeps'⟩
  unary {plan input input'} hchildren h hplain := by
    cases plan with
    | scan => cases hchildren
    | join => cases hchildren
    | project nodeId inner expressions schema =>
      cases hchildren
      obtain ⟨hinner, hkeeps⟩ := h hplain.2
      exact ⟨⟨hplain.1, hinner⟩, hkeeps.project expressions⟩
    | filter nodeId inner predicate schema phase =>
      cases hchildren
      obtain ⟨hinner, hkeeps⟩ := h hplain
      exact ⟨hinner, hkeeps.filter predicate phase⟩
    | aggregate nodeId inner groupBy aggregates schema =>
      cases hchildren
      obtain ⟨hinner, hkeeps⟩ := h hplain
      exact ⟨hinner, hkeeps.aggregate groupBy aggregates⟩
    | limit nodeId inner count schema =>
      cases hchildren
      obtain ⟨hinner, hkeeps⟩ := h hplain
      exact ⟨hinner, hkeeps.limit count⟩
    | order nodeId inner orderBy schema =>
      cases hchildren
      obtain ⟨hinner, hkeeps⟩ := h hplain
      exact ⟨hinner, hkeeps.order orderBy⟩
    | window nodeId inner expressions schema =>
      cases hchildren
      obtain ⟨hinner, hkeeps⟩ := h hplain
      exact ⟨hinner, hkeeps.window expressions⟩
    | groupingSets nodeId inner sets aggregates schema =>
      cases hchildren
      obtain ⟨hinner, hkeeps⟩ := h hplain
      exact ⟨hinner, hkeeps.groupingSets sets aggregates⟩
  binary {plan left left' right right'} hchildren hleft hright hplain := by
    cases plan with
    | join nodeId l r joinType condition schema inputLimit buildSide =>
      cases hchildren
      obtain ⟨hplainLeft, hkeepsLeft⟩ := hleft hplain.1
      obtain ⟨hplainRight, hkeepsRight⟩ := hright hplain.2
      exact ⟨⟨hplainLeft, hplainRight⟩,
        hkeepsLeft.join hkeepsRight joinType condition inputLimit inputLimit buildSide⟩
    | _ => cases hchildren

theorem relates_predicatePushdownProject :
    Relates (KeptPlain py (LocalExecutor.database py batchSize scan))
      (predicatePushdownProject py) := by
  intro plan plan' h hplain
  have hkeeps : LocalExecutor.Keeps py (LocalExecutor.database py batchSize scan) plan plan' := by
    refine PredicatePushdownProject.keeps_apply h fun projectId input expressions schema heq => ?_
    obtain ⟨_, _, _, _, _, _, _, _, _, rfl, -⟩ := PredicatePushdownProject.apply_cases h
    cases heq
    exact hplain.1
  obtain ⟨_, _, _, _, _, _, _, _, _, rfl, -, -, rfl⟩ := PredicatePushdownProject.apply_cases h
  exact ⟨hplain, hkeeps⟩

theorem relates_limitPushdownProject :
    Relates (KeptPlain py (LocalExecutor.database py batchSize scan)) limitPushdownProject := by
  intro plan plan' h hplain
  have happly : LimitPushdownProject.apply plan = some plan' := Except.ok.inj h
  have hkeeps : LocalExecutor.Keeps py (LocalExecutor.database py batchSize scan) plan plan' :=
    LimitPushdownProject.keeps_apply happly
  obtain ⟨_, _, _, _, _, _, _, rfl, rfl⟩ := LimitPushdownProject.apply_cases happly
  exact ⟨hplain, hkeeps⟩

theorem relates_limitJoinInputHint :
    Relates (KeptPlain py (LocalExecutor.database py batchSize scan)) limitJoinInputHint := by
  intro plan plan' h hplain
  have happly : LimitJoinInputHint.apply plan = some plan' := Except.ok.inj h
  have hkeeps : LocalExecutor.Keeps py (LocalExecutor.database py batchSize scan) plan plan' :=
    LimitJoinInputHint.keeps_apply happly
  obtain ⟨_, _, _, _, _, _, _, _, _, _, _, rfl, rfl⟩ := LimitJoinInputHint.apply_cases happly
  exact ⟨hplain, hkeeps⟩

/-- `SELECT t.x AS u FROM t LIMIT 1` -/
def limitedPlan : LogicalPlan :=
  .limit "limit" (.project "project" xScan [⟨"u", .column "x" "t" ⟨.int64, true⟩⟩]
    [⟨"u", .int64, true⟩]) 1 [⟨"u", .int64, true⟩]

def pushedPlan : LogicalPlan :=
  .project "project" (.limit "limit" xScan 1 [⟨"x", .int64, true⟩])
    [⟨"u", .column "x" "t" ⟨.int64, true⟩⟩] [⟨"u", .int64, true⟩]

def limitRound : RuleOptimizer := ⟨[limitPushdownProject], 1, Nat.one_pos⟩

theorem applyRule_limitedPlan : applyRule limitPushdownProject limitedPlan
    = .ok (some (pushedPlan, [(limitedPlan, pushedPlan)])) := by
  rw [applyRule]
  simp [limitedPlan, xScan, applyRecursive, applyNode, applyHere, limitPushdownProject,
    LimitPushdownProject.apply, LogicalPlan.same, NamedExpression.same, Expression.same, tupleSame,
    pushedPlan, LogicalPlan.outputSchema, ExceptState.ok_bind, pure, Except.pure]

end Kept

end RuleOptimizer

end DistributedSql
