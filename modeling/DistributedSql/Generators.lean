/-
Iterators that may end with an exception.

A library of its own: a generator is what an iterator yields when it is read to its end, and
the exception it ends with, if any.  Who stops reading earlier does not see how it ends.  An
iterator over batches conveys one over items if the batches hold the first of the items, and
all of them unless the iterator ends with an exception.

Main results:
* `Generator.Conveys.flatMap`, `Generator.Conveys.gather` — what is made of the batches
  conveys what is made of the items, one by one or all together;
* `Generator.Conveys.prefix_of_ended` — two iterators over the same items, in batches of
  their own, of which one ends without an exception: the other gave no item that the one did
  not.
-/
import DistributedSql.ExceptState

/-- What an iterator yields, and the exception it ends with. -/
structure Generator (ε α : Type) where
  items : List α
  error : Option ε

namespace Generator

variable {ε α β γ δ : Type}

/-- The items of a list. -/
def ofList (items : List α) : Generator ε α := ⟨items, none⟩

def raised (error : ε) : Generator ε α := ⟨[], some error⟩

/-- `yield from items`, and then the rest. -/
def yieldedAll (items : List α) (rest : Generator ε α) : Generator ε α :=
  ⟨items ++ rest.items, rest.error⟩

def ofExcept : Except ε (List α) → Generator ε α
  | .error e => raised e
  | .ok items => ofList items

/-- What follows a computation that may raise. -/
def after (x : Except ε α) (f : α → Generator ε β) : Generator ε β :=
  match x with
  | .error e => raised e
  | .ok a => f a

/-- `list(iterator)`. -/
def toExcept (generator : Generator ε α) : Except ε (List α) :=
  match generator.error with
  | some e => .error e
  | none => .ok generator.items

/-- `for item in iterator: yield from f(item)`, where `f` may raise. -/
def flatMapFrom (f : α → Except ε (List β)) (error : Option ε) : List α → Generator ε β
  | [] => ⟨[], error⟩
  | a :: rest =>
      match f a with
      | .error e => raised e
      | .ok bs => yieldedAll bs (flatMapFrom f error rest)

def flatMap (f : α → Except ε (List β)) (generator : Generator ε α) : Generator ε β :=
  flatMapFrom f generator.error generator.items

/-- The first items; who has them stops reading. -/
def take (n : ℕ) (generator : Generator ε α) : Generator ε α :=
  ⟨generator.items.take n, if n ≤ generator.items.length then none else generator.error⟩

/-- What is made of all items together, once the iterator has ended. -/
def gather (f : List α → Generator ε β) (generator : Generator ε α) : Generator ε β :=
  match generator.error with
  | some e => raised e
  | none => f generator.items

theorem toExcept_eq_ok {generator : Generator ε α} {items : List α} :
    generator.toExcept = .ok items ↔ generator = ⟨items, none⟩ := by
  obtain ⟨ownItems, error⟩ := generator
  cases error with
  | some e => exact iff_of_false (fun h => by cases h) fun h => by cases h
  | none =>
    constructor
    · intro h
      cases h
      rfl
    · intro h
      cases h
      rfl

theorem toExcept_ofExcept (x : Except ε (List α)) : (ofExcept x).toExcept = x := by
  cases x <;> rfl

theorem toExcept_yieldedAll (as : List α) (rest : Generator ε α) :
    (yieldedAll as rest).toExcept = rest.toExcept.map (as ++ ·) := by
  obtain ⟨items, error⟩ := rest
  cases error <;> rfl

theorem toExcept_after (x : Except ε α) (f : α → Generator ε β) :
    (after x f).toExcept = x >>= fun a => (f a).toExcept := by
  cases x <;> rfl

/-! ### Items one by one -/

section FlatMap

variable {f : α → Except ε (List β)} {error : Option ε}

/-- What is made of a list without an exception. -/
theorem flatMapFrom_of_ok {items : List α} {bs : List (List β)} (h : items.mapM f = .ok bs) :
    flatMapFrom f error items = ⟨bs.flatten, error⟩ := by
  induction items generalizing bs with
  | nil =>
    cases h
    rfl
  | cons a rest ih =>
    obtain ⟨first, others, hfirst, hothers, rfl⟩ := ExceptState.mapM_cons_eq_ok_iff.mp h
    rw [flatMapFrom, hfirst, ih hothers]
    rfl

/-- Without an exception something is made of every item. -/
theorem mapM_of_flatMapFrom {items : List α} (h : (flatMapFrom f error items).error = none) :
    error = none ∧ ∃ bs, items.mapM f = .ok bs := by
  induction items with
  | nil => exact ⟨h, [], rfl⟩
  | cons a rest ih =>
    rw [flatMapFrom] at h
    cases ha : f a with
    | error e =>
      rw [ha] at h
      cases h
    | ok first =>
      rw [ha] at h
      obtain ⟨herror, others, hothers⟩ := ih h
      exact ⟨herror, first :: others,
        ExceptState.mapM_cons_eq_ok_iff.mpr ⟨first, others, ha, hothers, rfl⟩⟩

/-- Items before others come before what is made of the others. -/
theorem flatMapFrom_append {items : List α} {bs : List (List β)} (h : items.mapM f = .ok bs)
    (rest : List α) :
    flatMapFrom f error (items ++ rest) = yieldedAll bs.flatten (flatMapFrom f error rest) := by
  induction items generalizing bs with
  | nil =>
    cases h
    rfl
  | cons a items ih =>
    obtain ⟨first, others, hfirst, hothers, rfl⟩ := ExceptState.mapM_cons_eq_ok_iff.mp h
    rw [List.cons_append, flatMapFrom, hfirst, ih hothers]
    show yieldedAll first (yieldedAll others.flatten _) = _
    rw [yieldedAll, yieldedAll, yieldedAll, List.flatten_cons, List.append_assoc]

/-- What is made of the first items is the first of what is made. -/
theorem flatMapFrom_initial {items items' : List α} (h : items <+: items') (error' : Option ε) :
    (flatMapFrom f error items).items <+: (flatMapFrom f error' items').items := by
  induction items generalizing items' with
  | nil => exact List.nil_prefix
  | cons a items ih =>
    obtain ⟨rest, rfl⟩ := h
    rw [List.cons_append, flatMapFrom, flatMapFrom]
    cases f a with
    | error e => exact List.nil_prefix
    | ok first => exact (List.prefix_append_right_inj first).mpr (ih ⟨rest, rfl⟩)

end FlatMap

theorem mem_flatMap {f : α → Except ε (List β)} {generator : Generator ε α} {b : β}
    (h : b ∈ (generator.flatMap f).items) : ∃ a ∈ generator.items, ∃ bs, f a = .ok bs ∧ b ∈ bs := by
  obtain ⟨items, error⟩ := generator
  rw [flatMap] at h
  induction items with
  | nil => cases h
  | cons a rest ih =>
    rw [flatMapFrom] at h
    cases ha : f a with
    | error e =>
      rw [ha] at h
      cases h
    | ok first =>
      rw [ha] at h
      rcases List.mem_append.mp h with hb | hb
      · exact ⟨a, List.mem_cons_self, first, ha, hb⟩
      · obtain ⟨a', ha', hmade⟩ := ih hb
        exact ⟨a', List.mem_cons_of_mem a ha', hmade⟩

theorem mem_after {x : Except ε α} {f : α → Generator ε β} {b : β} (h : b ∈ (after x f).items) :
    ∃ a, x = .ok a ∧ b ∈ (f a).items := by
  cases x with
  | error e => cases h
  | ok a => exact ⟨a, rfl, h⟩

theorem mem_gather {f : List α → Generator ε β} {generator : Generator ε α} {b : β}
    (h : b ∈ (generator.gather f).items) : b ∈ (f generator.items).items := by
  obtain ⟨items, error⟩ := generator
  cases error with
  | some e => cases h
  | none => exact h

/-- Reading what is made of the items to its end reads the items to theirs. -/
theorem toExcept_flatMap_iff {f : α → Except ε (List β)} {generator : Generator ε α}
    {bs : List β} : (generator.flatMap f).toExcept = .ok bs ↔
      ∃ items parts, generator.toExcept = .ok items ∧ items.mapM f = .ok parts ∧
        parts.flatten = bs := by
  constructor
  · intro h
    have hend := toExcept_eq_ok.mp h
    obtain ⟨herror, parts, hparts⟩ := mapM_of_flatMapFrom (congrArg Generator.error hend)
    rw [flatMap, flatMapFrom_of_ok hparts] at hend
    exact ⟨generator.items, parts, toExcept_eq_ok.mpr (by rw [← herror]), hparts,
      congrArg Generator.items hend⟩
  · rintro ⟨items, parts, hitems, hparts, rfl⟩
    rw [toExcept_eq_ok.mp hitems, flatMap, flatMapFrom_of_ok hparts]
    rfl

theorem toExcept_gather_iff {f : List α → Generator ε β} {generator : Generator ε α}
    {bs : List β} : (generator.gather f).toExcept = .ok bs ↔
      ∃ items, generator.toExcept = .ok items ∧ (f items).toExcept = .ok bs := by
  obtain ⟨ownItems, error⟩ := generator
  cases error with
  | some e => exact iff_of_false (fun h => by cases h) fun ⟨_, h, _⟩ => by cases h
  | none =>
    constructor
    · exact fun h => ⟨ownItems, rfl, h⟩
    · rintro ⟨items, hitems, h⟩
      cases hitems
      exact h

/-! ### Items in batches -/

/-- What is made of batches, if it is made of the items of a batch one by one. -/
theorem mapM_batches_iff {content : α → List β} {content' : γ → List δ}
    {f : α → Except ε (List γ)} {g : β → Except ε (List δ)} {as : List α}
    (hf : ∀ a ∈ as, (f a).map (List.flatMap content') = ((content a).mapM g).map List.flatten)
    {ds : List δ} :
    (∃ parts, as.mapM f = .ok parts ∧ parts.flatten.flatMap content' = ds) ↔
      ∃ parts, (as.flatMap content).mapM g = .ok parts ∧ parts.flatten = ds := by
  induction as generalizing ds with
  | nil =>
    constructor
    · rintro ⟨parts, hparts, rfl⟩
      cases hparts
      exact ⟨[], rfl, rfl⟩
    · rintro ⟨parts, hparts, rfl⟩
      cases hparts
      exact ⟨[], rfl, rfl⟩
  | cons a as ih =>
    have hrest := fun ds => @ih (fun b hb => hf b (List.mem_cons_of_mem a hb)) ds
    have ha := hf a List.mem_cons_self
    rw [List.flatMap_cons, List.mapM_append]
    constructor
    · rintro ⟨parts, hparts, rfl⟩
      obtain ⟨first, others, hfirst, hothers, rfl⟩ := ExceptState.mapM_cons_eq_ok_iff.mp hparts
      rw [hfirst] at ha
      obtain ⟨own, hown, hflatten⟩ := ExceptState.map_eq_ok_iff.mp ha.symm
      obtain ⟨rest, hrestParts, hrestFlatten⟩ := (hrest _).mp ⟨others, hothers, rfl⟩
      refine ⟨own ++ rest, by rw [hown, hrestParts]; rfl, ?_⟩
      rw [List.flatten_append, List.flatten_cons, List.flatMap_append, hflatten, hrestFlatten]
    · rintro ⟨parts, hparts, rfl⟩
      obtain ⟨own, hown, hparts⟩ := ExceptState.bind_eq_ok hparts
      obtain ⟨rest, hrestParts, hparts⟩ := ExceptState.bind_eq_ok hparts
      cases hparts
      rw [hown] at ha
      obtain ⟨first, hfirst, hflatten⟩ := ExceptState.map_eq_ok_iff.mp ha
      obtain ⟨others, hothers, hothersFlatten⟩ := (hrest _).mpr ⟨rest, hrestParts, rfl⟩
      refine ⟨first :: others,
        ExceptState.mapM_cons_eq_ok_iff.mpr ⟨first, others, hfirst, hothers, rfl⟩, ?_⟩
      rw [List.flatten_append, List.flatten_cons, List.flatMap_append, hflatten, hothersFlatten]

/-- The batches hold the first of the items, and all unless they end with an exception. -/
structure Conveys (content : α → List β) (batches : Generator ε α) (items : Generator ε β) :
    Prop where
  initial : batches.items.flatMap content <+: items.items
  ended : batches.error = none → items = ⟨batches.items.flatMap content, none⟩

namespace Conveys

variable {content : α → List β} {batches batches' : Generator ε α} {items : Generator ε β}

/-- Who ends without an exception has given what the other one gave. -/
theorem prefix_of_ended (h : Conveys content batches items) (h' : Conveys content batches' items)
    (hended : batches.error = none) :
    batches'.items.flatMap content <+: batches.items.flatMap content := by
  have hinitial := h'.initial
  rw [h.ended hended] at hinitial
  exact hinitial

theorem eq_of_ended (h : Conveys content batches items) (h' : Conveys content batches' items)
    (hended : batches.error = none) (hended' : batches'.error = none) :
    batches'.items.flatMap content = batches.items.flatMap content :=
  congrArg Generator.items ((h'.ended hended').symm.trans (h.ended hended))

theorem self (content : α → List β) (batches : Generator ε α) :
    Conveys content batches ⟨batches.items.flatMap content, batches.error⟩ where
  initial := List.prefix_rfl
  ended h := by rw [h]

/-- Where both end in the same way, the batches hold all items. -/
theorem toExcept_map (h : Conveys content batches items) (herror : items.error = batches.error) :
    batches.toExcept.map (List.flatMap content) = items.toExcept := by
  cases hbatches : batches.error with
  | some e =>
    rw [hbatches] at herror
    rw [toExcept, toExcept, hbatches, herror]
    rfl
  | none =>
    rw [h.ended hbatches, toExcept, hbatches]
    rfl

variable {content' : γ → List δ}

theorem raised (e : ε) : Conveys content (raised e) items where
  initial := List.nil_prefix
  ended h := by cases h

theorem ofList (as : List α) :
    Conveys content (ofList as : Generator ε α) (ofList (as.flatMap content)) where
  initial := List.prefix_rfl
  ended _ := rfl

theorem yieldedAll (h : Conveys content batches items) (as : List α) :
    Conveys content (yieldedAll as batches) (yieldedAll (as.flatMap content) items) where
  initial := by
    show List.flatMap content (as ++ batches.items) <+: as.flatMap content ++ items.items
    rw [List.flatMap_append]
    exact (List.prefix_append_right_inj _).mpr h.initial
  ended hended := by
    rw [h.ended hended]
    show _ = Generator.mk (List.flatMap content (as ++ batches.items)) none
    rw [List.flatMap_append]
    rfl

/-- What is made of a batch, if it is made of its items one by one. -/
private theorem flatMapFrom {f : α → Except ε (List γ)} {g : β → Except ε (List δ)}
    {error error' : Option ε} {as : List α}
    (hf : ∀ a ∈ as, (f a).map (List.flatMap content') = ((content a).mapM g).map List.flatten)
    (herror : error = none → error' = none) :
    Conveys content' (Generator.flatMapFrom f error as)
      (Generator.flatMapFrom g error' (as.flatMap content)) := by
  induction as with
  | nil =>
    constructor
    · exact List.nil_prefix
    · intro h
      have h' : error = none := h
      rw [List.flatMap_nil, Generator.flatMapFrom, Generator.flatMapFrom, herror h']
      rfl
  | cons a as ih =>
    have hrest := ih fun b hb => hf b (List.mem_cons_of_mem a hb)
    have ha := hf a List.mem_cons_self
    rw [Generator.flatMapFrom]
    cases hfirst : f a with
    | error e => exact raised e
    | ok first =>
      rw [hfirst] at ha
      obtain ⟨parts, hparts, hflatten⟩ := ExceptState.map_eq_ok_iff.mp ha.symm
      rw [List.flatMap_cons, flatMapFrom_append hparts, ← hflatten]
      exact hrest.yieldedAll first

theorem after {ρ : Type} {x : Except ε ρ} {f : ρ → Generator ε α} {g : ρ → Generator ε β}
    (h : ∀ a, Conveys content (f a) (g a)) : Conveys content (after x f) (after x g) := by
  cases x with
  | error e => exact raised e
  | ok a => exact h a

theorem flatMap {f : α → Except ε (List γ)} {g : β → Except ε (List δ)}
    (h : Conveys content batches items)
    (hf : ∀ a ∈ batches.items,
      (f a).map (List.flatMap content') = ((content a).mapM g).map List.flatten) :
    Conveys content' (batches.flatMap f) (items.flatMap g) := by
  cases herror : batches.error with
  | none =>
    -- all items are there
    rw [Generator.flatMap, Generator.flatMap, h.ended herror, herror]
    exact flatMapFrom hf id
  | some e =>
    have hfirst : Conveys content' (batches.flatMap f)
        (Generator.flatMapFrom g (some e) (batches.items.flatMap content)) := by
      rw [Generator.flatMap, herror]
      exact flatMapFrom hf id
    refine ⟨hfirst.initial.trans (flatMapFrom_initial h.initial _), fun hended => ?_⟩
    obtain ⟨hnone, -⟩ := mapM_of_flatMapFrom hended
    rw [herror] at hnone
    cases hnone

theorem gather {f : List α → Generator ε γ} {g : List β → Generator ε δ}
    (h : Conveys content batches items)
    (hf : Conveys content' (f batches.items) (g (batches.items.flatMap content))) :
    Conveys content' (batches.gather f) (items.gather g) := by
  cases herror : batches.error with
  | none =>
    rw [Generator.gather, herror, h.ended herror]
    exact hf
  | some e =>
    rw [Generator.gather, herror]
    exact raised e

end Conveys

end Generator
