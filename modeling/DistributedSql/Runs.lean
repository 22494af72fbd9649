/-
Runs of labelled transition systems.

A library of its own: a system is a relation between a state, an event and the next
state, and a run is what a list of events makes of a state.

Main results:
* `Runs.invariant` — what every step of a run keeps holds at its end;
* `Runs.append`, `Runs.concat_iff` — runs are put together, and cut at the last event;
* `Runs.of_foldlM` — where steps are computed, a run is computed too.
-/
import Mathlib

variable {σ ε : Type*}

/-- `events` take the system from one state to another. -/
inductive Runs (step : σ → ε → σ → Prop) (s : σ) : List ε → σ → Prop
  | nil : Runs step s [] s
  | concat {events : List ε} {s' s'' : σ} {event : ε} (run : Runs step s events s')
      (last : step s' event s'') : Runs step s (events ++ [event]) s''

namespace Runs

variable {step : σ → ε → σ → Prop} {s s' s'' : σ}

theorem single {event : ε} (h : step s event s') : Runs step s [event] s' :=
  @concat _ _ step s [] s s' event nil h

theorem append {events later : List ε} (h : Runs step s events s')
    (h' : Runs step s' later s'') : Runs step s (events ++ later) s'' := by
  induction h' with
  | nil => rwa [List.append_nil]
  | concat _ last ih =>
    rw [← List.append_assoc]
    exact concat ih last

theorem nil_iff : Runs step s [] s' ↔ s' = s := by
  constructor
  · intro h
    generalize hevents : ([] : List ε) = events at h
    cases h with
    | nil => rfl
    | concat run last => simp at hevents
  · rintro rfl
    exact nil

theorem concat_iff {events : List ε} {event : ε} :
    Runs step s (events ++ [event]) s'' ↔ ∃ s', Runs step s events s' ∧ step s' event s'' := by
  constructor
  · intro h
    generalize hevents : events ++ [event] = all at h
    cases h with
    | nil => simp at hevents
    | concat run last =>
      obtain ⟨rfl, hlast⟩ := List.append_inj' hevents rfl
      cases hlast
      exact ⟨_, run, last⟩
  · rintro ⟨s', run, last⟩
    exact concat run last

/-- The runs of a system whose steps are computed. -/
theorem of_foldlM {f : σ → ε → Option σ} {events : List ε}
    (h : events.foldlM f s = some s') : Runs (fun s event s' => f s event = some s') s events s' := by
  induction events using List.reverseRecOn generalizing s' with
  | nil =>
    cases h
    exact nil
  | append_singleton events event ih =>
    rw [List.foldlM_append, Option.bind_eq_bind, Option.bind_eq_some_iff] at h
    obtain ⟨middle, hmiddle, hlast⟩ := h
    rw [List.foldlM_cons, Option.bind_eq_bind, Option.bind_eq_some_iff] at hlast
    obtain ⟨last, hstep, hnil⟩ := hlast
    cases hnil
    exact concat (ih hmiddle) hstep

/-- What every step of a run keeps holds at its end. -/
theorem invariant {events : List ε} (h : Runs step s events s') {P : σ → Prop} (hs : P s)
    (hstep : ∀ s event s', event ∈ events → P s → step s event s' → P s') : P s' := by
  induction h with
  | nil => exact hs
  | concat _ last ih =>
    refine hstep _ _ _ (List.mem_append_right _ (List.mem_singleton_self _)) (ih ?_) last
    exact fun s event s' hevent => hstep s event s' (List.mem_append_left _ hevent)

end Runs
