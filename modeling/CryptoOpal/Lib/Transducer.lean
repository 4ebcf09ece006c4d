import Mathlib.Data.List.Basic

/-!
# Runs of a Transducer

A transducer reads an input, moves to a new state and writes an output. This
module gives its runs a name and proves the two rules a safety argument over
whole runs needs.

The safety statements made with it all have one shape: some steps of a run
are *events*, and no two events of one run may stand in a forbidden relation.
The state alone does not say which events have happened, so the invariant
behind such a statement relates the state to the list of past events.
`history_invariant` carries an invariant of that kind through a run, and
`events_pairwise` turns it into a statement about every two events.

A step may be allowed to misbehave outside some condition on its state and
input. `Along` says that a run meets the condition at every step, and the
rules ask for the step lemma only under it.

## Main definitions

* `Step`: What one step of a run saw and did.
* `run`: The steps of a run, first to last.
* `final`: The state a run ends in.
* `Along`: Every step of a run meets a condition on its state and input.
* `events`: The events of a run.

## Theorems

* `along_cons`, `along_append`: The condition, one step or one part at a time.
* `history_invariant`: An invariant about past events holds at the end of a run.
* `events_pairwise`: Any two events of a run are related.
* `final_invariant`: An invariant of the state alone holds at the end of a run.
* `run_invariant`: What follows from an invariant of the state holds of every step.
* `run_related`: Two runs on related inputs stay related.
-/

namespace CryptoOpal

namespace Lib

variable {S I O E : Type}

/-- One step of a run: the state it started in, what it read and wrote, and
    the state it left. -/
structure Step (S I O : Type) where
  before : S
  input : I
  output : O
  after : S

/-- The step a transducer takes from a state on an input. -/
def stepAt (step : S → I → S × O) (s : S) (i : I) : Step S I O :=
  ⟨s, i, (step s i).2, (step s i).1⟩

/-- The steps of a run. -/
def run (step : S → I → S × O) : S → List I → List (Step S I O)
  | _, [] => []
  | s, i :: is => stepAt step s i :: run step (step s i).1 is

/-- The state a run ends in. -/
def final (step : S → I → S × O) : S → List I → S
  | s, [] => s
  | s, i :: is => final step (step s i).1 is

/-- Every step of the run starts in a state and on an input that meet `P`. -/
def Along (step : S → I → S × O) (P : S → I → Prop) (s : S) (is : List I) : Prop :=
  ∀ x ∈ run step s is, P x.before x.input

instance (step : S → I → S × O) (P : S → I → Prop) [∀ s i, Decidable (P s i)] (s : S)
    (is : List I) : Decidable (Along step P s is) :=
  inferInstanceAs (Decidable (∀ x ∈ run step s is, P x.before x.input))

/-- The events of a run, for a choice of which steps are events. -/
def events (step : S → I → S × O) (ev : Step S I O → Option E) (s : S) (is : List I) : List E :=
  (run step s is).filterMap ev

theorem along_cons {step : S → I → S × O} {P : S → I → Prop} {s : S} {i : I} {is : List I} :
    Along step P s (i :: is) ↔ P s i ∧ Along step P (step s i).1 is := by
  simp only [Along, run, List.forall_mem_cons, stepAt]

/-- A run of two parts. -/
theorem final_append {step : S → I → S × O} {s : S} {is js : List I} :
    final step s (is ++ js) = final step (final step s is) js := by
  induction is generalizing s with
  | nil => rfl
  | cons i is ih => exact ih

theorem along_append {step : S → I → S × O} {P : S → I → Prop} {s : S} {is js : List I} :
    Along step P s (is ++ js) ↔ Along step P s is ∧ Along step P (final step s is) js := by
  induction is generalizing s with
  | nil => exact ⟨fun h => ⟨fun _ hx => absurd hx List.not_mem_nil, h⟩, fun h => h.2⟩
  | cons i is ih => rw [List.cons_append, along_cons, along_cons, ih, final, and_assoc]

theorem events_cons (step : S → I → S × O) (ev : Step S I O → Option E) (s : S) (i : I)
    (is : List I) :
    events step ev s (i :: is) =
      (ev (stepAt step s i)).toList ++ events step ev (step s i).1 is := by
  cases h : ev (stepAt step s i) with
  | none => simp only [events, run, List.filterMap_cons, h, Option.toList_none, List.nil_append]
  | some e =>
      simp only [events, run, List.filterMap_cons, h, Option.toList_some, List.cons_append,
        List.nil_append]

/-- An invariant that relates the past events to the state holds at the end
    of every run, once a single step preserves it. -/
theorem history_invariant {step : S → I → S × O} {ev : Step S I O → Option E}
    {P : S → I → Prop} (Inv : List E → S → Prop)
    (hstep : ∀ H s i, Inv H s → P s i → Inv (H ++ (ev (stepAt step s i)).toList) (step s i).1)
    (H : List E) (s : S) (is : List I) (h : Inv H s) (hP : Along step P s is) :
    Inv (H ++ events step ev s is) (final step s is) := by
  induction is generalizing H s with
  | nil => simpa only [events, run, List.filterMap_nil, List.append_nil, final] using h
  | cons i is ih =>
      rcases along_cons.mp hP with ⟨hi, hrest⟩
      rw [events_cons, ← List.append_assoc]
      exact ih _ _ (hstep H s i h hi) hrest

/-- If each event is related to every event before it, then any two events of
    a run are related, the earlier to the later. -/
theorem events_pairwise {step : S → I → S × O} {ev : Step S I O → Option E}
    {P : S → I → Prop} {R : E → E → Prop} (Inv : List E → S → Prop)
    (hstep : ∀ H s i, Inv H s → P s i → Inv (H ++ (ev (stepAt step s i)).toList) (step s i).1)
    (hnew : ∀ H s i e, Inv H s → P s i → ev (stepAt step s i) = some e → ∀ e' ∈ H, R e' e)
    (H : List E) (s : S) (is : List I) (h : Inv H s) (hP : Along step P s is)
    (hH : H.Pairwise R) : (H ++ events step ev s is).Pairwise R := by
  induction is generalizing H s with
  | nil => simpa only [events, run, List.filterMap_nil, List.append_nil] using hH
  | cons i is ih =>
      rcases along_cons.mp hP with ⟨hi, hrest⟩
      rw [events_cons, ← List.append_assoc]
      refine ih _ _ (hstep H s i h hi) hrest ?_
      cases he : ev (stepAt step s i) with
      | none => simpa only [Option.toList_none, List.append_nil] using hH
      | some e =>
          -- The new event comes last, so only the pairs that end in it are new.
          refine List.pairwise_append.mpr ⟨hH, List.pairwise_singleton R e, ?_⟩
          intro e' he' e'' he''
          rw [Option.toList_some, List.mem_singleton] at he''
          rw [he'']
          exact hnew H s i e h hi he e' he'

/-- An invariant of the state alone is a history invariant that ignores the
    history. -/
theorem final_invariant {step : S → I → S × O} {P : S → I → Prop} (Inv : S → Prop)
    (hstep : ∀ s i, Inv s → P s i → Inv (step s i).1) (s : S) (is : List I) (h : Inv s)
    (hP : Along step P s is) : Inv (final step s is) :=
  @history_invariant S I O Unit step (fun _ => none) P (fun _ => Inv)
    (fun _ s i hs hi => hstep s i hs hi) [] s is h hP

/-- What a step from a state with an invariant does, every step of a run does. -/
theorem run_invariant {step : S → I → S × O} {P : S → I → Prop} (Inv : S → Prop)
    {Q : Step S I O → Prop} (hstep : ∀ s i, Inv s → P s i → Inv (step s i).1)
    (hQ : ∀ s i, Inv s → P s i → Q (stepAt step s i)) (s : S) (is : List I) (h : Inv s)
    (hP : Along step P s is) : ∀ x ∈ run step s is, Q x := by
  induction is generalizing s with
  | nil => exact fun x hx => absurd hx List.not_mem_nil
  | cons i is ih =>
      rcases along_cons.mp hP with ⟨hi, hrest⟩
      rw [run, List.forall_mem_cons]
      exact ⟨hQ s i h hi, ih _ (hstep s i h hi) hrest⟩

/-- Two runs on related inputs go through related states and take related
    steps, once a single step does. -/
theorem run_related {step : S → I → S × O} {P : S → I → Prop} (R : S → S → Prop) (f : I → I)
    (Q : Step S I O → Step S I O → Prop)
    (hstep : ∀ s t i, R s t → P s i →
      R (step s i).1 (step t (f i)).1 ∧ Q (stepAt step s i) (stepAt step t (f i)))
    (s t : S) (is : List I) (h : R s t) (hP : Along step P s is) :
    List.Forall₂ Q (run step s is) (run step t (is.map f)) := by
  induction is generalizing s t with
  | nil => exact .nil
  | cons i is ih =>
      rcases along_cons.mp hP with ⟨hi, hrest⟩
      rcases hstep s t i h hi with ⟨hnext, hpair⟩
      exact .cons hpair (ih _ _ hnext hrest)

end Lib

end CryptoOpal
