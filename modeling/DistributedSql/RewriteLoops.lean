/-
Rewriting in rounds until nothing changes.

A library of its own: a pass may rewrite a term, a round makes the passes in their order, and
rounds follow each other until one changes nothing, a fingerprint comes back, or their number is
used up.  Terms are compared by a test that need not be equality, and a pass may raise.

Main results:
* `RewriteLoop.run_related` — what every pass keeps is kept by the loop, however it ends;
* `RewriteLoop.run_converged` — at a fixed point every pass leaves the term alone;
* `RewriteLoop.run_again` — a loop from its fixed point ends there in one round;
* `RewriteLoop.run_more` — more rounds change nothing where a loop has not used all of them.
-/
import DistributedSql.ExceptState

/-- Passes, each with the entries it makes in a trace, and how terms are compared. -/
structure RewriteLoop (α τ κ ε : Type) where
  same : α → α → Bool
  fingerprint : α → κ
  passes : List (α → Except ε (Option (α × List τ)))

namespace RewriteLoop

/-- The variables of a round. -/
structure Round (α τ : Type) where
  term : α
  changed : Bool := false
  trace : List τ := []

inductive Termination
  | fixedPoint | cycleDetected | maxIterations
deriving DecidableEq, Repr

/-- What a loop ends with; the entries of the trace are numbered by their rounds. -/
structure Outcome (α τ : Type) where
  term : α
  trace : List (ℕ × τ)
  iterations : ℕ
  termination : Termination

section Loop

variable {α τ κ ε : Type} (loop : RewriteLoop α τ κ ε)

def runPass (round : Round α τ) (pass : α → Except ε (Option (α × List τ))) :
    Except ε (Round α τ) :=
  match pass round.term with
  | .error e => .error e
  | .ok none => .ok round
  | .ok (some (rewritten, entries)) =>
      .ok (if loop.same rewritten round.term then round
        else { term := rewritten, changed := true, trace := round.trace ++ entries })

def runRound (term : α) : Except ε (Round α τ) :=
  loop.passes.foldlM loop.runPass { term := term }

variable [DecidableEq κ]

/-- The rounds that are left, after some, with the fingerprints seen and the trace up to now. -/
def runFrom : ℕ → ℕ → List κ → α → List (ℕ × τ) → Except ε (Outcome α τ)
  | 0, iteration, _, term, trace => .ok ⟨term, trace, iteration, .maxIterations⟩
  | left + 1, iteration, seen, term, trace => do
      let round ← loop.runRound term
      let trace := trace ++ round.trace.map fun entry => (iteration + 1, entry)
      if round.changed = false then return ⟨round.term, trace, iteration + 1, .fixedPoint⟩
      else if loop.fingerprint round.term ∈ seen then
        return ⟨round.term, trace, iteration + 1, .cycleDetected⟩
      else runFrom left (iteration + 1) (loop.fingerprint round.term :: seen) round.term trace

def run (maxIterations : ℕ) (term : α) : Except ε (Outcome α τ) :=
  loop.runFrom maxIterations 0 [loop.fingerprint term] term []

end Loop

variable {α τ κ ε : Type} {loop : RewriteLoop α τ κ ε}

/-- A pass leaves a term: it gives none, or one that is the same. -/
def Leaves (loop : RewriteLoop α τ κ ε) (term : α) (pass : α → Except ε (Option (α × List τ))) :
    Prop :=
  pass term = .ok none ∨
    ∃ rewritten entries, pass term = .ok (some (rewritten, entries)) ∧
      loop.same rewritten term = true

/-! ### One round -/

theorem runPass_cases {round round' : Round α τ} {pass : α → Except ε (Option (α × List τ))}
    (h : loop.runPass round pass = .ok round') :
    (round' = round ∧ loop.Leaves round.term pass) ∨
      ∃ rewritten entries, pass round.term = .ok (some (rewritten, entries)) ∧
        round' = { term := rewritten, changed := true, trace := round.trace ++ entries } := by
  unfold runPass at h
  split at h
  · cases h
  · next hpass =>
    cases h
    exact .inl ⟨rfl, .inl hpass⟩
  · next rewritten entries hpass =>
    cases h
    split
    · next hsame => exact .inl ⟨rfl, .inr ⟨rewritten, entries, hpass, hsame⟩⟩
    · exact .inr ⟨rewritten, entries, hpass, rfl⟩

theorem runPass_of_leaves {round : Round α τ} {pass : α → Except ε (Option (α × List τ))}
    (h : loop.Leaves round.term pass) : loop.runPass round pass = .ok round := by
  unfold runPass
  rcases h with hnone | ⟨rewritten, entries, hpass, hsame⟩
  · rw [hnone]
  · rw [hpass]
    exact congrArg Except.ok (if_pos hsame)

/-- Passes that change nothing have left the term alone, each of them. -/
theorem foldlM_runPass_unchanged {passes : List (α → Except ε (Option (α × List τ)))}
    {round round' : Round α τ} (h : passes.foldlM loop.runPass round = .ok round')
    (hchanged : round'.changed = false) :
    round' = round ∧ ∀ pass ∈ passes, loop.Leaves round.term pass := by
  induction passes generalizing round with
  | nil =>
    cases h
    exact ⟨rfl, fun _ hmem => absurd hmem List.not_mem_nil⟩
  | cons pass passes ih =>
    rw [List.foldlM_cons] at h
    obtain ⟨next, hnext, h⟩ := ExceptState.bind_eq_ok h
    obtain ⟨rfl, hrest⟩ := ih h
    rcases runPass_cases hnext with ⟨rfl, hleaves⟩ | ⟨rewritten, entries, -, rfl⟩
    · exact ⟨rfl, List.forall_mem_cons.mpr ⟨hleaves, hrest⟩⟩
    · -- a pass that rewrites marks the round
      cases hchanged

theorem runRound_unchanged {term : α} {round : Round α τ} (h : loop.runRound term = .ok round)
    (hchanged : round.changed = false) :
    round = { term := term } ∧ ∀ pass ∈ loop.passes, loop.Leaves term pass :=
  foldlM_runPass_unchanged h hchanged

theorem runRound_of_leaves {term : α} (h : ∀ pass ∈ loop.passes, loop.Leaves term pass) :
    loop.runRound term = .ok { term := term } := by
  have hall : ∀ passes : List (α → Except ε (Option (α × List τ))),
      (∀ pass ∈ passes, loop.Leaves term pass) →
        passes.foldlM loop.runPass { term := term } = .ok { term := term } := by
    intro passes hpasses
    induction passes with
    | nil => rfl
    | cons pass passes ih =>
      obtain ⟨hpass, hrest⟩ := List.forall_mem_cons.mp hpasses
      rw [List.foldlM_cons, runPass_of_leaves hpass, ExceptState.ok_bind, ih hrest]
  exact hall loop.passes h

section Related

variable {R : α → α → Prop}

/-- Every pass gives terms related to its own. -/
def Keeps (loop : RewriteLoop α τ κ ε) (R : α → α → Prop) : Prop :=
  ∀ pass ∈ loop.passes, ∀ term rewritten entries,
    pass term = .ok (some (rewritten, entries)) → R term rewritten

theorem foldlM_runPass_related (htrans : ∀ {t t' t'' : α}, R t t' → R t' t'' → R t t'')
    (hkeeps : loop.Keeps R) {passes : List (α → Except ε (Option (α × List τ)))}
    (hpasses : ∀ pass ∈ passes, pass ∈ loop.passes) {term : α} {round round' : Round α τ}
    (hrelated : R term round.term) (h : passes.foldlM loop.runPass round = .ok round') :
    R term round'.term := by
  induction passes generalizing round with
  | nil =>
    cases h
    exact hrelated
  | cons pass passes ih =>
    obtain ⟨hpass, hrest⟩ := List.forall_mem_cons.mp hpasses
    rw [List.foldlM_cons] at h
    obtain ⟨next, hnext, h⟩ := ExceptState.bind_eq_ok h
    refine ih hrest ?_ h
    rcases runPass_cases hnext with ⟨rfl, -⟩ | ⟨rewritten, entries, hrewritten, rfl⟩
    · exact hrelated
    · exact htrans hrelated (hkeeps pass hpass _ _ _ hrewritten)

theorem runRound_related (hrefl : ∀ term, R term term)
    (htrans : ∀ {t t' t'' : α}, R t t' → R t' t'' → R t t'') (hkeeps : loop.Keeps R) {term : α}
    {round : Round α τ} (h : loop.runRound term = .ok round) : R term round.term :=
  foldlM_runPass_related (R := R) htrans hkeeps (fun _ hpass => hpass) (hrefl term) h

end Related

/-! ### Rounds -/

variable [DecidableEq κ]

/-- What one more round makes of the loop. -/
theorem runFrom_cases {left iteration : ℕ} {seen : List κ} {term : α} {trace : List (ℕ × τ)}
    {outcome : Outcome α τ} (h : loop.runFrom (left + 1) iteration seen term trace = .ok outcome) :
    ∃ round, loop.runRound term = .ok round ∧
      ((outcome.termination ≠ .maxIterations ∧ outcome.term = round.term ∧
          outcome.trace = trace ++ round.trace.map (fun entry => (iteration + 1, entry)) ∧
          outcome.iterations = iteration + 1 ∧
          (outcome.termination = .fixedPoint → round.changed = false)) ∨
        (round.changed = true ∧ loop.fingerprint round.term ∉ seen ∧
          loop.runFrom left (iteration + 1) (loop.fingerprint round.term :: seen) round.term
            (trace ++ round.trace.map fun entry => (iteration + 1, entry)) = .ok outcome)) := by
  rw [runFrom] at h
  obtain ⟨round, hround, h⟩ := ExceptState.bind_eq_ok h
  refine ⟨round, hround, ?_⟩
  dsimp only at h
  split at h
  · next hunchanged =>
    cases h
    exact .inl ⟨nofun, rfl, rfl, rfl, fun _ => hunchanged⟩
  next hchanged =>
  split at h
  · cases h
    exact .inl ⟨nofun, rfl, rfl, rfl, nofun⟩
  · next hnew => exact .inr ⟨Bool.eq_true_of_not_eq_false hchanged, hnew, h⟩

theorem runFrom_related {R : α → α → Prop} (hrefl : ∀ term, R term term)
    (htrans : ∀ {t t' t'' : α}, R t t' → R t' t'' → R t t'') (hkeeps : loop.Keeps R) {left : ℕ}
    {iteration : ℕ} {seen : List κ} {term : α} {trace : List (ℕ × τ)} {outcome : Outcome α τ}
    (h : loop.runFrom left iteration seen term trace = .ok outcome) : R term outcome.term := by
  induction left generalizing iteration seen term trace with
  | zero =>
    cases h
    exact hrefl term
  | succ left ih =>
    obtain ⟨round, hround, hend⟩ := runFrom_cases h
    have hrelated := runRound_related hrefl htrans hkeeps hround
    rcases hend with ⟨-, hterm, -⟩ | ⟨-, -, hrest⟩
    · rwa [hterm]
    · exact htrans hrelated (ih hrest)

/-- What every pass keeps is kept by the loop, however it ends. -/
theorem run_related {R : α → α → Prop} (hrefl : ∀ term, R term term)
    (htrans : ∀ {t t' t'' : α}, R t t' → R t' t'' → R t t'') (hkeeps : loop.Keeps R)
    {maxIterations : ℕ} {term : α} {outcome : Outcome α τ}
    (h : loop.run maxIterations term = .ok outcome) : R term outcome.term :=
  runFrom_related hrefl htrans hkeeps h

theorem runFrom_converged {left iteration : ℕ} {seen : List κ} {term : α} {trace : List (ℕ × τ)}
    {outcome : Outcome α τ} (h : loop.runFrom left iteration seen term trace = .ok outcome)
    (hfixed : outcome.termination = .fixedPoint) :
    ∀ pass ∈ loop.passes, loop.Leaves outcome.term pass := by
  induction left generalizing iteration seen term trace with
  | zero =>
    cases h
    cases hfixed
  | succ left ih =>
    obtain ⟨round, hround, hend⟩ := runFrom_cases h
    rcases hend with ⟨-, hterm, -, -, hunchanged⟩ | ⟨-, -, hrest⟩
    · obtain ⟨hsame, hleaves⟩ := runRound_unchanged hround (hunchanged hfixed)
      rw [hterm, hsame]
      exact hleaves
    · exact ih hrest

/-- At a fixed point every pass leaves the term alone. -/
theorem run_converged {maxIterations : ℕ} {term : α} {outcome : Outcome α τ}
    (h : loop.run maxIterations term = .ok outcome)
    (hfixed : outcome.termination = .fixedPoint) :
    ∀ pass ∈ loop.passes, loop.Leaves outcome.term pass :=
  runFrom_converged h hfixed

/-- A loop from a term that every pass leaves alone ends there in its first round. -/
theorem run_again {maxIterations : ℕ} (hmax : 0 < maxIterations) {term : α}
    (h : ∀ pass ∈ loop.passes, loop.Leaves term pass) :
    loop.run maxIterations term = .ok ⟨term, [], 1, .fixedPoint⟩ := by
  obtain ⟨left, rfl⟩ := Nat.exists_eq_succ_of_ne_zero hmax.ne'
  rw [run, runFrom, runRound_of_leaves h]
  rfl

theorem runFrom_more {left more iteration : ℕ} {seen : List κ} {term : α} {trace : List (ℕ × τ)}
    {outcome : Outcome α τ} (h : loop.runFrom left iteration seen term trace = .ok outcome)
    (hended : outcome.termination ≠ .maxIterations) (hmore : left ≤ more) :
    loop.runFrom more iteration seen term trace = .ok outcome := by
  induction left generalizing more iteration seen term trace with
  | zero =>
    cases h
    exact absurd rfl hended
  | succ left ih =>
    obtain ⟨more, rfl⟩ := Nat.exists_eq_succ_of_ne_zero (Nat.ne_of_gt (Nat.lt_of_lt_of_le
      (Nat.succ_pos left) hmore))
    rw [runFrom] at h ⊢
    obtain ⟨round, hround, h⟩ := ExceptState.bind_eq_ok h
    rw [hround, ExceptState.ok_bind]
    dsimp only at h ⊢
    -- the round is the same one, and only a loop that goes on looks at how many are left
    split at h
    · next hunchanged => rwa [if_pos hunchanged]
    next hchanged =>
    rw [if_neg hchanged]
    split at h
    · next hseen => rwa [if_pos hseen]
    · next hnew =>
      rw [if_neg hnew]
      exact ih h (Nat.le_of_succ_le_succ hmore)

/-- More rounds change nothing where a loop has not used all of them. -/
theorem run_more {maxIterations more : ℕ} {term : α} {outcome : Outcome α τ}
    (h : loop.run maxIterations term = .ok outcome)
    (hended : outcome.termination ≠ .maxIterations) (hmore : maxIterations ≤ more) :
    loop.run more term = .ok outcome :=
  runFrom_more h hended hmore

theorem runFrom_iterations {left iteration : ℕ} {seen : List κ} {term : α} {trace : List (ℕ × τ)}
    {outcome : Outcome α τ} (h : loop.runFrom left iteration seen term trace = .ok outcome)
    (htrace : ∀ entry ∈ trace, 1 ≤ entry.1 ∧ entry.1 ≤ iteration) :
    iteration ≤ outcome.iterations ∧ outcome.iterations ≤ iteration + left ∧
      (∀ entry ∈ outcome.trace, 1 ≤ entry.1 ∧ entry.1 ≤ outcome.iterations) ∧
      (outcome.termination = .maxIterations → outcome.iterations = iteration + left) := by
  induction left generalizing iteration seen term trace with
  | zero =>
    cases h
    exact ⟨le_rfl, le_rfl, htrace, fun _ => rfl⟩
  | succ left ih =>
    obtain ⟨round, -, hend⟩ := runFrom_cases h
    have hnext : ∀ entry ∈ trace ++ round.trace.map (fun entry => (iteration + 1, entry)),
        1 ≤ entry.1 ∧ entry.1 ≤ iteration + 1 := by
      intro entry hentry
      rcases List.mem_append.mp hentry with hold | hnew
      · obtain ⟨hlow, hhigh⟩ := htrace entry hold
        exact ⟨hlow, by omega⟩
      · obtain ⟨_, -, rfl⟩ := List.mem_map.mp hnew
        exact ⟨Nat.succ_pos iteration, le_rfl⟩
    rcases hend with ⟨hended, -, hall, hiterations, -⟩ | ⟨-, -, hrest⟩
    · rw [hall, hiterations]
      exact ⟨by omega, by omega, hnext, fun hmax => absurd hmax hended⟩
    · obtain ⟨hlow, hhigh, hall, hmax⟩ := ih hrest hnext
      exact ⟨by omega, by omega, hall, fun h => by rw [hmax h]; omega⟩

/-- The rounds of a loop, and the numbers in its trace. -/
theorem run_iterations {maxIterations : ℕ} {term : α} {outcome : Outcome α τ}
    (h : loop.run maxIterations term = .ok outcome) :
    outcome.iterations ≤ maxIterations ∧
      (∀ entry ∈ outcome.trace, 1 ≤ entry.1 ∧ entry.1 ≤ outcome.iterations) ∧
      (outcome.termination = .maxIterations → outcome.iterations = maxIterations) := by
  obtain ⟨-, hhigh, htrace, hmax⟩ :=
    runFrom_iterations h fun entry hentry => absurd hentry List.not_mem_nil
  rw [Nat.zero_add] at hhigh
  exact ⟨hhigh, htrace, fun h => (hmax h).trans (Nat.zero_add _)⟩

end RewriteLoop
