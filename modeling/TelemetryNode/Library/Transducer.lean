import Mathlib.Data.List.Basic
import Mathlib.Data.Option.Basic

/-!
# Transducers and their refinement

A transducer reads one input at a time, changes its state and emits a list of outputs. Two kinds
are used: a `Transducer`, whose step may be undefined (`none` stands for a step the program must
never take), and a `Mealy` machine, whose step is total. The first is the shape of a task loop
translated from source code, the second the shape of its specification.

## Main definitions

* `Transducer.run` and `Transducer.runChunks`: a whole run, over one input list or over a list of
  chunks.
* `Mealy.state` and `Mealy.outputs`: the state reached and everything emitted by a total machine.
* `Transducer.Refines`: a relation under which a transducer never gets stuck and emits what the
  total machine emits.

## Main results

* `Transducer.runChunks_eq_run`: cutting the input into chunks changes nothing.
* `Transducer.Refines.run`: refinement of one step lifts to whole runs.
* `Transducer.Refines.outputs_eq`: two states related to one specification state cannot be told
  apart by any input.
-/

/-- A machine whose step reads one input, may change the state and emits a list of outputs. A
step can be undefined. -/
structure Transducer (σ ι ω : Type*) where
  /-- The step function; `none` is an undefined step. -/
  step : σ → ι → Option (σ × List ω)

/-- A machine with a total step. -/
structure Mealy (τ ι ω : Type*) where
  /-- The state after one input. -/
  next : τ → ι → τ
  /-- What one input makes the machine emit. -/
  out : τ → ι → List ω

namespace Mealy

variable {τ ι ω : Type*} (N : Mealy τ ι ω)

/-- The state after a list of inputs. -/
def state (t : τ) (is : List ι) : τ := is.foldl N.next t

/-- Everything emitted while a list of inputs is read. -/
def outputs (t : τ) : List ι → List ω
  | [] => []
  | i :: is => N.out t i ++ outputs (N.next t i) is

@[simp]
theorem state_nil (t : τ) : N.state t [] = t := rfl

@[simp]
theorem state_cons (t : τ) (i : ι) (is : List ι) :
    N.state t (i :: is) = N.state (N.next t i) is := rfl

@[simp]
theorem outputs_nil (t : τ) : N.outputs t [] = [] := rfl

@[simp]
theorem outputs_cons (t : τ) (i : ι) (is : List ι) :
    N.outputs t (i :: is) = N.out t i ++ N.outputs (N.next t i) is := rfl

/-- The state after two lists of inputs in a row. -/
theorem state_append (t : τ) (is js : List ι) :
    N.state t (is ++ js) = N.state (N.state t is) js := List.foldl_append

/-- The outputs of two lists of inputs in a row. -/
theorem outputs_append (t : τ) (is js : List ι) :
    N.outputs t (is ++ js) = N.outputs t is ++ N.outputs (N.state t is) js := by
  induction is generalizing t with
  | nil => rfl
  | cons i is ih => simp [ih, List.append_assoc]

/-- The state after a list of inputs and one more. -/
theorem state_concat (t : τ) (is : List ι) (i : ι) :
    N.state t (is ++ [i]) = N.next (N.state t is) i := by
  rw [state_append]
  rfl

/-- The outputs of a list of inputs and one more. -/
theorem outputs_concat (t : τ) (is : List ι) (i : ι) :
    N.outputs t (is ++ [i]) = N.outputs t is ++ N.out (N.state t is) i := by
  rw [outputs_append]
  simp

end Mealy

namespace Transducer

variable {σ τ ι ω : Type*} (M : Transducer σ ι ω)

/-- The run over a list of inputs: the state reached and everything emitted. -/
def run : σ → List ι → Option (σ × List ω)
  | s, [] => some (s, [])
  | s, i :: is => do
      let (s₁, o₁) ← M.step s i
      let (s₂, o₂) ← run s₁ is
      return (s₂, o₁ ++ o₂)

/-- The run over a list of chunks, one chunk after the other. -/
def runChunks : σ → List (List ι) → Option (σ × List ω)
  | s, [] => some (s, [])
  | s, c :: cs => do
      let (s₁, o₁) ← M.run s c
      let (s₂, o₂) ← runChunks s₁ cs
      return (s₂, o₁ ++ o₂)

/-- A run over two lists of inputs in a row. -/
theorem run_append (s : σ) (is js : List ι) :
    M.run s (is ++ js) = (do
      let (s₁, o₁) ← M.run s is
      let (s₂, o₂) ← M.run s₁ js
      return (s₂, o₁ ++ o₂)) := by
  induction is generalizing s with
  | nil =>
    simp only [List.nil_append, run, Option.bind_eq_bind, Option.bind_some]
    cases M.run s js <;> rfl
  | cons i is ih =>
    simp only [List.cons_append, run]
    cases M.step s i with
    | none => rfl
    | some r =>
      simp only [Option.bind_eq_bind, Option.bind_some, ih]
      cases M.run r.1 is with
      | none => rfl
      | some q =>
        simp only [Option.bind_some, Option.pure_def]
        cases M.run q.1 js <;> simp

/-- What a run has emitted at some point begins what it emits in all. -/
theorem outputs_begins {s s' : σ} {is js : List ι} {os : List ω}
    (h : M.run s (is ++ js) = some (s', os)) :
    ∃ s₁ os₁, M.run s is = some (s₁, os₁) ∧ os₁ <+: os := by
  rw [run_append] at h
  obtain ⟨⟨s₁, os₁⟩, hfirst, hrest⟩ := Option.bind_eq_some_iff.mp h
  obtain ⟨⟨s₂, os₂⟩, -, hboth⟩ := Option.bind_eq_some_iff.mp hrest
  cases hboth
  exact ⟨s₁, os₁, hfirst, List.prefix_append _ _⟩

/-- Cutting the input into chunks, empty ones included, changes neither the state reached nor
what is emitted. -/
theorem runChunks_eq_run (s : σ) (cs : List (List ι)) :
    M.runChunks s cs = M.run s cs.flatten := by
  induction cs generalizing s with
  | nil => rfl
  | cons c cs ih =>
    -- the locals are carried from chunk to chunk as from input to input
    rw [List.flatten_cons, run_append]
    simp only [runChunks, ih]

/-- `R` relates each state of `M` to the specification state it implements: from related states
the step of `M` is defined, emits what the specification emits, and ends in related states. -/
structure Refines (N : Mealy τ ι ω) (R : σ → τ → Prop) : Prop where
  /-- One step from related states. -/
  step : ∀ {s t}, R s t → ∀ i, ∃ s', M.step s i = some (s', N.out t i) ∧ R s' (N.next t i)

variable {M}

/-- Refinement of single steps is refinement of whole runs. -/
theorem Refines.run {N : Mealy τ ι ω} {R : σ → τ → Prop} (h : M.Refines N R) {s : σ} {t : τ}
    (hst : R s t) (is : List ι) :
    ∃ s', M.run s is = some (s', N.outputs t is) ∧ R s' (N.state t is) := by
  induction is generalizing s t with
  | nil => exact ⟨s, rfl, hst⟩
  | cons i is ih =>
    obtain ⟨s₁, hstep, h₁⟩ := h.step hst i
    obtain ⟨s₂, hrun, h₂⟩ := ih h₁
    exact ⟨s₂, by simp [Transducer.run, hstep, hrun], h₂⟩

/-- Two states that implement one specification state emit the same outputs on every input. -/
theorem Refines.outputs_eq {N : Mealy τ ι ω} {R : σ → τ → Prop} (h : M.Refines N R) {s s' : σ}
    {t : τ} (hs : R s t) (hs' : R s' t) (is : List ι) :
    (M.run s is).map Prod.snd = (M.run s' is).map Prod.snd := by
  -- both runs emit what the specification emits from `t`
  obtain ⟨_, hrun, -⟩ := h.run hs is
  obtain ⟨_, hrun', -⟩ := h.run hs' is
  rw [hrun, hrun']
  rfl

end Transducer
