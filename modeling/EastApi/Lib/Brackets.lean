import Mathlib.Data.List.Basic

/-! A stream whose events are on numbered blocks. A block is started, filled and stopped, in this
order and once. The stream interleaves its blocks, so that each one is followed on its own. -/

namespace Brackets

open List

variable {ι κ δ : Type*}

inductive Event (κ δ : Type*) where
  | start (kind : κ)
  | fill (piece : δ)
  | stop
  deriving DecidableEq

/-- How far a block has come. A block that was not used in the right order is broken, for good. -/
inductive Phase (κ : Type*) where
  | unused
  | opened (kind : κ)
  | closed
  | broken
  deriving DecidableEq

def Phase.Settled (phase : Phase κ) : Prop := phase = .unused ∨ phase = .closed

def lane [DecidableEq ι] (i : ι) (events : List (ι × Event κ δ)) : List (Event κ δ) :=
  events.filterMap fun e => if e.1 = i then some e.2 else none

variable (fits : κ → δ → Bool)

def Complete (events : List (Event κ δ)) : Prop :=
  events = [] ∨ ∃ (kind : κ) (pieces : List δ), (∀ piece ∈ pieces, fits kind piece) ∧
    events = .start kind :: pieces.map .fill ++ [.stop]

def Phase.step : Phase κ → Event κ δ → Phase κ
  | .unused, .start kind => .opened kind
  | .opened kind, .fill piece => if fits kind piece then .opened kind else .broken
  | .opened _, .stop => .closed
  | _, _ => .broken

@[simp] theorem foldl_broken (events : List (Event κ δ)) :
    events.foldl (Phase.step fits) .broken = .broken := by
  induction events with
  | nil => rfl
  | cons _ _ ih => exact ih

theorem foldl_closed : (events.foldl (Phase.step fits) .closed).Settled ↔ events = [] := by
  cases events with
  | nil => simp [Phase.Settled]
  | cons _ _ => simp [Phase.step, Phase.Settled]

def Filled (kind : κ) (events : List (Event κ δ)) : Prop :=
  ∃ pieces : List δ, (∀ piece ∈ pieces, fits kind piece) ∧ events = pieces.map .fill ++ [.stop]

theorem filled_stop : Filled fits kind (.stop :: rest) ↔ rest = [] := by
  constructor
  · rintro ⟨_ | ⟨piece, pieces⟩, -, shape⟩
    · simpa using shape
    · simp at shape
  · rintro rfl
    exact ⟨[], by simp, rfl⟩

theorem filled_fill :
    Filled fits kind (.fill piece :: rest) ↔ fits kind piece ∧ Filled fits kind rest := by
  constructor
  · rintro ⟨_ | ⟨first, pieces⟩, all, shape⟩
    · simp at shape
    · simp only [map_cons, cons_append, cons.injEq, Event.fill.injEq] at shape
      obtain ⟨rfl, rfl⟩ := shape
      rw [forall_mem_cons] at all
      exact ⟨all.1, pieces, all.2, rfl⟩
  · rintro ⟨fit, pieces, all, rfl⟩
    exact ⟨piece :: pieces, forall_mem_cons.mpr ⟨fit, all⟩, rfl⟩

theorem foldl_opened :
    (events.foldl (Phase.step fits) (.opened kind)).Settled ↔ Filled fits kind events := by
  induction events with
  | nil => simp [Phase.Settled, Filled]
  | cons event rest ih =>
    cases event with
    | start other =>
      simp [Phase.step, Phase.Settled, Filled, cons_eq_append_iff, map_eq_cons_iff]
    | stop => simp only [foldl_cons, Phase.step, foldl_closed, filled_stop]
    | fill piece =>
      rw [filled_fill]
      by_cases fit : fits kind piece
      · simp [Phase.step, fit, ih]
      · simp [Phase.step, fit, Phase.Settled]

theorem complete_iff : Complete fits events ↔ (events.foldl (Phase.step fits) .unused).Settled := by
  cases events with
  | nil => simp [Complete, Phase.Settled]
  | cons event rest =>
    cases event with
    | start kind =>
      simp only [foldl_cons, Phase.step, foldl_opened]
      simp [Complete, Filled]
    | fill _ | stop => simp [Complete, Phase.step, Phase.Settled]

variable [DecidableEq ι]

def advance (phases : ι → Phase κ) (event : ι × Event κ δ) : ι → Phase κ :=
  Function.update phases event.1 ((phases event.1).step fits event.2)

theorem foldl_advance (phases : ι → Phase κ) (events : List (ι × Event κ δ)) (i : ι) :
    events.foldl (advance fits) phases i = (lane i events).foldl (Phase.step fits) (phases i) := by
  induction events generalizing phases with
  | nil => rfl
  | cons event rest ih =>
    rw [foldl_cons, ih]
    by_cases on : event.1 = i
    · subst on
      simp [lane, advance]
    · simp [lane, advance, on, Function.update_of_ne (Ne.symm on)]

theorem all_complete_iff (events : List (ι × Event κ δ)) :
    (∀ i, Complete fits (lane i events)) ↔
      ∀ i, (events.foldl (advance fits) (fun _ => Phase.unused) i).Settled := by
  simp only [complete_iff, foldl_advance]

end Brackets
