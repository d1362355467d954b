import Mathlib.Logic.Basic
import Mathlib.Data.Option.Basic

/-!
# Labelled transition systems

A system is given by its initial states and a step function that takes the label of the move:
`none` says that the move is not enabled. Every interleaving of the parties of a concurrent
program is one sequence of labels.

## Main definitions

* `TransitionSystem.ReachableUnder`: the states reached by runs whose every step meets a condition
  on the state before it and the label; `TransitionSystem.Reachable` is the unrestricted case.
* `TransitionSystem.exec`: the run along a given list of labels.

## Main results

* `TransitionSystem.ReachableUnder.invariant`: the induction over runs, once for all invariants.
* `TransitionSystem.Reachable.exec`: a run along labels from a reachable state ends in one.
-/

/-- Initial states and a step function; `step s l = none` when the move `l` is not enabled. -/
structure TransitionSystem (σ ℓ : Type*) where
  /-- The initial states. -/
  init : σ → Prop
  /-- The state after the move, if it is enabled. -/
  step : σ → ℓ → Option σ

namespace TransitionSystem

variable {σ ℓ : Type*} {S : TransitionSystem σ ℓ} {allowed : σ → ℓ → Prop}

/-- The states reached by runs whose steps all meet `allowed`. -/
inductive ReachableUnder (S : TransitionSystem σ ℓ) (allowed : σ → ℓ → Prop) : σ → Prop
  | init {s : σ} : S.init s → ReachableUnder S allowed s
  | step {s s' : σ} {l : ℓ} :
      ReachableUnder S allowed s → allowed s l → S.step s l = some s' →
        ReachableUnder S allowed s'

/-- The states reached by any run. -/
def Reachable (S : TransitionSystem σ ℓ) : σ → Prop := S.ReachableUnder fun _ _ => True

/-- What holds initially and is kept by every allowed step holds in every state such runs
reach. -/
theorem ReachableUnder.invariant {I : σ → Prop} (hinit : ∀ s, S.init s → I s)
    (hstep : ∀ s l s', I s → allowed s l → S.step s l = some s' → I s') {s : σ}
    (h : S.ReachableUnder allowed s) : I s := by
  induction h with
  | init h => exact hinit _ h
  | step _ hl hs ih => exact hstep _ _ _ ih hl hs

/-- The unrestricted case of `ReachableUnder.invariant`. -/
theorem Reachable.invariant {I : σ → Prop} (hinit : ∀ s, S.init s → I s)
    (hstep : ∀ s l s', I s → S.step s l = some s' → I s') {s : σ} (h : S.Reachable s) : I s :=
  ReachableUnder.invariant hinit (fun s l s' hI _ => hstep s l s' hI) h

/-- A run whose steps meet a condition is a run. -/
theorem ReachableUnder.reachable {s : σ} (h : S.ReachableUnder allowed s) : S.Reachable s := by
  induction h with
  | init h => exact .init h
  | step _ _ hs ih => exact .step ih trivial hs

/-- One more step of a run. -/
theorem Reachable.next {s s' : σ} {l : ℓ} (h : S.Reachable s) (hs : S.step s l = some s') :
    S.Reachable s' := .step h trivial hs

/-- The run along a list of labels. -/
def exec (S : TransitionSystem σ ℓ) : σ → List ℓ → Option σ
  | s, [] => some s
  | s, l :: ls => (S.step s l).bind fun s' => exec S s' ls

/-- A run along two lists of labels in a row. -/
theorem exec_append (s : σ) (ls ms : List ℓ) :
    S.exec s (ls ++ ms) = (S.exec s ls).bind fun s' => S.exec s' ms := by
  induction ls generalizing s with
  | nil => rfl
  | cons l ls ih =>
    simp only [List.cons_append, exec, Option.bind_assoc]
    exact congrArg _ (funext ih)

/-- What every step keeps holds after a run if it holds before. -/
theorem exec_invariant {I : σ → Prop} (hstep : ∀ s l s', I s → S.step s l = some s' → I s')
    {s s' : σ} (h : I s) {ls : List ℓ} (hexec : S.exec s ls = some s') : I s' := by
  induction ls generalizing s with
  | nil =>
    obtain rfl : s = s' := by simpa [TransitionSystem.exec] using hexec
    exact h
  | cons l ls ih =>
    obtain ⟨s₁, hs, hrest⟩ := Option.bind_eq_some_iff.mp hexec
    exact ih (hstep _ _ _ h hs) hrest

/-- A run along labels from a reachable state ends in a reachable state. -/
theorem Reachable.exec {s s' : σ} (h : S.Reachable s) {ls : List ℓ}
    (hexec : S.exec s ls = some s') : S.Reachable s' :=
  exec_invariant (fun _ _ _ hI hs => hI.next hs) h hexec

/-- A run along labels into a state with some property reaches that property. -/
theorem Reachable.exists_of_exec {s : σ} (h : S.Reachable s) (ls : List ℓ) (p : σ → Bool)
    (hp : (S.exec s ls).any p = true) : ∃ s', S.Reachable s' ∧ p s' = true := by
  cases hexec : S.exec s ls with
  | none => simp [hexec] at hp
  | some s' =>
    rw [hexec] at hp
    exact ⟨s', h.exec hexec, hp⟩

/-- The system in which only the moves that meet a condition are enabled. -/
def restrict (S : TransitionSystem σ ℓ) (allowed : σ → ℓ → Prop) [DecidableRel allowed] :
    TransitionSystem σ ℓ where
  init := S.init
  step s l := if allowed s l then S.step s l else none

/-- The runs of the restricted system are runs whose steps meet the condition. -/
theorem ReachableUnder.of_restrict [DecidableRel allowed] {s : σ}
    (h : (S.restrict allowed).Reachable s) : S.ReachableUnder allowed s := by
  induction h with
  | init h => exact .init h
  | step _ _ hs ih =>
    obtain ⟨hallowed, hs⟩ := Option.ite_none_right_eq_some.mp hs
    exact .step ih hallowed hs

end TransitionSystem
