import Mathlib.Data.Nat.Notation
import TelemetryNode.Library.TransitionSystem

/-!
# Simulation, composition and bounded response

Three ways to reason about a transition system through its parts: a map to a simpler system, the
product with a second system whose moves are synchronised with its own, and a rank that shows how
many moves of one party lead to a goal.

## Main definitions

* `TransitionSystem.ProjectsTo`: a map of the states under which every step is a step of another
  system or is not seen.
* `TransitionSystem.parallel`: two systems side by side.
* `TransitionSystem.along`: whether all states of a run have a property.
* `TransitionSystem.countMoves`: the number of moves of a run that have a property.

## Main results

* `TransitionSystem.ProjectsTo.reachable`: reachable states are mapped to reachable states.
* `TransitionSystem.countP_le_rank`: a rank that a party's own moves lower, and no other move
  raises, bounds how often the party moves before a goal is reached.
* `TransitionSystem.countMoves_add_rank_le`: a rank bounds how many moves of a run have a property.
-/

namespace TransitionSystem

variable {σ τ ℓ m : Type*}

/-! ## Simulation along a function -/

/-- Under `f` every step of `C` from a reachable state is a step of `A`, or nothing happens. -/
structure ProjectsTo (C : TransitionSystem σ ℓ) (A : TransitionSystem τ m) (f : σ → τ) : Prop where
  init : ∀ s, C.init s → A.init (f s)
  step : ∀ s l s', C.Reachable s → C.step s l = some s' →
    f s' = f s ∨ ∃ k, A.step (f s) k = some (f s')

/-- What is reachable is mapped to what is reachable: what holds of every run of `A` holds, through
`f`, of every run of `C`. -/
theorem ProjectsTo.reachable {C : TransitionSystem σ ℓ} {A : TransitionSystem τ m} {f : σ → τ}
    (h : C.ProjectsTo A f) {s : σ} (hs : C.Reachable s) : A.Reachable (f s) := by
  induction hs with
  | init hs => exact .init (h.init _ hs)
  | step hs _ hstep ih =>
    rcases h.step _ _ _ hs hstep with hsame | ⟨k, hk⟩
    · rwa [hsame]
    · exact ih.next hk

/-! ## Two systems side by side -/

/-- A move of a system, or none. -/
def stepIf (S : TransitionSystem σ ℓ) (s : σ) : Option ℓ → Option σ
  | none => some s
  | some l => S.step s l

/-- Two systems side by side. `sync` says which moves they may make together; a system that stands
still makes the move `none`. -/
def parallel (S : TransitionSystem σ ℓ) (T : TransitionSystem τ m)
    (sync : σ → τ → Option ℓ → Option m → Bool) :
    TransitionSystem (σ × τ) (Option ℓ × Option m) where
  init s := S.init s.1 ∧ T.init s.2
  step s l :=
    if sync s.1 s.2 l.1 l.2 then
      (S.stepIf s.1 l.1).bind fun a => (T.stepIf s.2 l.2).map fun b => (a, b)
    else none

variable {S : TransitionSystem σ ℓ} {T : TransitionSystem τ m}
  {sync : σ → τ → Option ℓ → Option m → Bool}

theorem step_parallel_iff {s s' : σ × τ} {l : Option ℓ × Option m} :
    (parallel S T sync).step s l = some s' ↔
      sync s.1 s.2 l.1 l.2 = true ∧ S.stepIf s.1 l.1 = some s'.1 ∧
        T.stepIf s.2 l.2 = some s'.2 := by
  obtain ⟨a', b'⟩ := s'
  simp only [parallel]
  split
  · rename_i hsync
    rw [Option.bind_eq_some_iff]
    constructor
    · rintro ⟨a, ha, h⟩
      obtain ⟨b, hb, h⟩ := Option.map_eq_some_iff.mp h
      cases h
      exact ⟨hsync, ha, hb⟩
    · rintro ⟨-, ha, hb⟩
      exact ⟨a', ha, Option.map_eq_some_iff.mpr ⟨b', hb, rfl⟩⟩
  · rename_i hsync
    constructor
    · intro h
      cases h
    · rintro ⟨h, -⟩
      exact absurd h hsync

theorem stepIf_cases {s s' : σ} {l : Option ℓ} (h : S.stepIf s l = some s') :
    s' = s ∨ ∃ k, S.step s k = some s' := by
  cases l with
  | none => exact .inl (Option.some.inj h).symm
  | some l => exact .inr ⟨l, h⟩

/-- The runs of the left component are runs of its system. -/
theorem parallel_fst : (parallel S T sync).ProjectsTo S Prod.fst where
  init _ h := h.1
  step _ _ _ _ h := stepIf_cases (step_parallel_iff.mp h).2.1

/-- The runs of the right component are runs of its system. -/
theorem parallel_snd : (parallel S T sync).ProjectsTo T Prod.snd where
  init _ h := h.2
  step _ _ _ _ h := stepIf_cases (step_parallel_iff.mp h).2.2

/-! ## Bounded response -/

/-- While `pending` holds, every step reaches the goal or keeps `pending`, and no step raises the
rank; the moves of one party lower it. Then a run in which the goal is not reached has no more moves
of that party than the rank says, whatever the others do in between. -/
theorem countP_le_rank (pending goal : σ → Prop) (rank : σ → ℕ) (own : ℓ → Bool)
    (hstep : ∀ s l s', pending s → S.step s l = some s' →
      goal s' ∨ pending s' ∧ rank s' + (own l).toNat ≤ rank s)
    {s s' : σ} (hs : pending s) {ls : List ℓ} (hexec : S.exec s ls = some s')
    (hgoal : ∀ ms ns t, ls = ms ++ ns → S.exec s ms = some t → ¬ goal t) :
    ls.countP own ≤ rank s := by
  induction ls generalizing s with
  | nil => exact Nat.zero_le _
  | cons l ls ih =>
    obtain ⟨s₁, hl, hrest⟩ := Option.bind_eq_some_iff.mp hexec
    rcases hstep s l s₁ hs hl with hreached | ⟨hpending, hrank⟩
    · have hfirst : S.exec s [l] = some s₁ := by simp [TransitionSystem.exec, hl]
      exact absurd hreached (hgoal [l] ls s₁ rfl hfirst)
    · have hcount : (l :: ls).countP own = ls.countP own + (own l).toNat := by
        cases hown : own l <;> simp [hown]
      have hle := ih hpending hrest fun ms ns t hsplit ht => by
        apply hgoal (l :: ms) ns t (by rw [hsplit]; rfl)
        rw [TransitionSystem.exec, hl, Option.bind_some, ht]
      omega

/-- Whether every state of a run has a property, the first and the last one too. -/
def along (S : TransitionSystem σ ℓ) (p : σ → Bool) : σ → List ℓ → Bool
  | s, [] => p s
  | s, l :: ls => p s && (S.step s l).all fun s' => along S p s' ls

/-- A property of every state of a run holds after each of its beginnings. -/
theorem of_along {p : σ → Bool} {s t : σ} {ls ms ns : List ℓ} (h : S.along p s ls = true)
    (hsplit : ls = ms ++ ns) (hexec : S.exec s ms = some t) : p t = true := by
  subst hsplit
  induction ms generalizing s with
  | nil =>
    obtain rfl : s = t := by simpa [TransitionSystem.exec] using hexec
    cases ns with
    | nil => exact h
    | cons l ns => exact ((Bool.and_eq_true _ _).mp h).1
  | cons l ms ih =>
    obtain ⟨s₁, hl, hrest⟩ := Option.bind_eq_some_iff.mp hexec
    rw [List.cons_append, along, hl, Bool.and_eq_true] at h
    exact ih hrest h.2

/-- How many moves of a run have a property, which may depend on the state that they are made in. -/
def countMoves (S : TransitionSystem σ ℓ) (p : σ → ℓ → Bool) : σ → List ℓ → ℕ
  | _, [] => 0
  | s, l :: ls => (p s l).toNat + (S.step s l).elim 0 fun s' => countMoves S p s' ls

/-- If the moves with the property lower a rank, and no other move raises it, then a run has no more
of them than it lowers the rank. -/
theorem countMoves_add_rank_le {I : σ → Prop} {q : ℓ → Prop} {p : σ → ℓ → Bool} {rank : σ → ℕ}
    (hstep : ∀ s l s', I s → q l → S.step s l = some s' →
      I s' ∧ rank s' + (p s l).toNat ≤ rank s)
    {s t : σ} (hs : I s) {ls : List ℓ} (hq : ∀ l ∈ ls, q l) (hexec : S.exec s ls = some t) :
    S.countMoves p s ls + rank t ≤ rank s := by
  induction ls generalizing s with
  | nil =>
    cases hexec
    exact Nat.le_of_eq (Nat.zero_add _)
  | cons l ls ih =>
    obtain ⟨s₁, hl, hrest⟩ := Option.bind_eq_some_iff.mp hexec
    obtain ⟨hs₁, hrank⟩ := hstep s l s₁ hs (hq l List.mem_cons_self) hl
    have hle := ih hs₁ (fun l hl => hq l (List.mem_cons_of_mem _ hl)) hrest
    rw [countMoves, hl, Option.elim_some]
    omega

end TransitionSystem
